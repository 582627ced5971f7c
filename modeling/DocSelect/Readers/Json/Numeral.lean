import DocSelect.Json.Draft
import DocSelect.Text.Rest

/-!
# Reading numbers

A number has an optional minus sign, digits without a needless leading zero, and optionally a
fraction and an exponent. Digits are absorbed into the significand while it fits 64 bits; the
digits of the whole part that no longer fit scale it instead, and those of the fraction are
passed over. A number without fraction and exponent is whole if it fits 64 bits.
-/

namespace DocSelect.Json

open Text (AtMost Shorter)

/-- The value of a decimal digit. -/
def digitValue (c : Char) : Nat := c.toNat - '0'.toNat

/-- Text split after its leading digits. -/
def digits (cs : List Char) : List Char × AtMost cs.length :=
  (cs.takeWhile Char.isDigit, ⟨cs.dropWhile Char.isDigit, (List.dropWhile_suffix _).length_le⟩)

private theorem length_digits (cs : List Char) :
    (digits cs).1.length + (digits cs).2.1.length = cs.length := by
  rw [← List.length_append, digits, List.takeWhile_append_dropWhile]

/-- The first number that does not fit 64 bits. -/
def wholeLimit : Nat := 0x10000000000000000

/-- Appends digits to a whole number while it fits 64 bits, and gives the others back. -/
def absorb (whole : Nat) : List Char → Nat × List Char
  | [] => (whole, [])
  | d :: ds =>
    let next := whole * 10 + digitValue d
    if next < wholeLimit then absorb next ds else (whole, d :: ds)

/-- The fault of finding something else, or nothing, where a digit has to be. -/
def digitFault (cs : List Char) : Fault := if cs.isEmpty then .truncated else .malformed

/-- The greatest exponent that is added up; a larger one overflows or vanishes. -/
def maxExponent : Nat := 0x7FFFFFFF

/-- The double of a significand, a power of ten and a written exponent. -/
def scaled (negative : Bool) (whole : Nat) (power : Int) (down : Bool) (exponent : Nat) :
    Except Fault Double :=
  if maxExponent < exponent then
    if whole ≠ 0 ∧ !down then .error .malformed else .ok (.zero negative)
  else
    let power := if down then power - exponent else power + exponent
    (Double.ofDecimal? negative whole power).elim (.error .malformed) .ok

/-- The digits of an exponent with a known sign. -/
def exponentDigits (negative : Bool) (whole : Nat) (power : Int) (down : Bool) (cs : List Char) :
    Except Fault (Number × AtMost cs.length) :=
  match digits cs with
  | ([], rest) => .error (digitFault rest.1)
  | (ds, rest) => do
    let d ← scaled negative whole power down (Nat.ofDigitChars 10 ds 0)
    return (.double d, rest)

/-- The rest of a number from behind the mark of its exponent. -/
def exponentPart (negative : Bool) (whole : Nat) (power : Int) (cs : List Char) :
    Except Fault (Number × AtMost cs.length) :=
  match cs with
  | '+' :: t => do
    let (n, rest) ← exponentDigits negative whole power false t
    return (n, .behind rest)
  | '-' :: t => do
    let (n, rest) ← exponentDigits negative whole power true t
    return (n, .behind rest)
  | cs => exponentDigits negative whole power false cs

/-- The rest of a number from behind its digits: an exponent, if one is there. -/
def afterFraction (negative : Bool) (whole : Nat) (power : Int) (cs : List Char) :
    Except Fault (Number × AtMost cs.length) :=
  match cs with
  | 'e' :: t | 'E' :: t => do
    let (n, rest) ← exponentPart negative whole power t
    return (n, .behind rest)
  | cs => do
    let d ← scaled negative whole power false 0
    return (.double d, .whole cs)

/-- The rest of a number from behind its point. -/
def fractionPart (negative : Bool) (whole : Nat) (power : Int) (cs : List Char) :
    Except Fault (Number × AtMost cs.length) :=
  match digits cs with
  | ([], rest) => .error (digitFault rest.1)
  | (ds, rest) => do
    let (more, left) := absorb whole ds
    let taken : Int := (ds.length - left.length : Nat)
    let (n, rest') ← afterFraction negative more (power - taken) rest.1
    return (n, .within rest rest')

/-- A whole number with its sign; negative zero is a double. -/
def wholeNumber (negative : Bool) (whole : Nat) : Except Fault Number :=
  if negative then
    if whole = 0 ∨ 0x8000000000000000 < whole then do
      return .double (← scaled true whole 0 false 0)
    else .ok (.whole (-whole))
  else .ok (.whole whole)

/-- The rest of a number from behind the digits before its point. -/
def afterWhole (negative : Bool) (whole : Nat) (extra : Nat) (cs : List Char) :
    Except Fault (Number × AtMost cs.length) :=
  match cs with
  | '.' :: t => do
    let (n, rest) ← fractionPart negative whole extra t
    return (n, .behind rest)
  | cs =>
    if extra = 0 && !(cs.head?.any fun c ↦ c == 'e' || c == 'E') then do
      return (← wholeNumber negative whole, .whole cs)
    else afterFraction negative whole extra cs

/-- A number without its sign. -/
def unsignedNumeral (negative : Bool) (cs : List Char) :
    Except Fault (Number × Shorter cs.length) :=
  match h : digits cs with
  | ([], rest) => .error (digitFault rest.1)
  | (d :: ds, rest) =>
    if d = '0' && !ds.isEmpty then .error .malformed
    else do
      let (whole, left) := absorb 0 (d :: ds)
      let (n, rest') ← afterWhole negative whole left.length rest.1
      have hlen := length_digits cs
      return (n, ⟨rest'.1, by
        have := rest'.2
        simp only [h, List.length_cons] at hlen
        omega⟩)

/-- The number at the start of a text, and the text after it. -/
def numeral (cs : List Char) : Except Fault (Number × Shorter cs.length) :=
  match cs with
  | '-' :: t => do
    let (n, rest) ← unsignedNumeral true t
    return (n, ⟨rest.1, Nat.lt_succ_of_lt rest.2⟩)
  | cs => unsignedNumeral false cs

end DocSelect.Json
