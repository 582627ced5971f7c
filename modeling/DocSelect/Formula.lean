import DocSelect.Json.Basic
import DocSelect.Number.Checked
import DocSelect.Text.Blank
import DocSelect.Text.Quoted

/-!
# Formulas for positions

A formula `An+B` stands for the positions `A * n + B` with `n` from zero up, counted from one.
It is tested against indexes counted from zero, in whole numbers of 64 bits, where the least
number has neither a predecessor nor a magnitude. Formulas are read from `even`, `odd`, a number,
or a step with an optional offset, capitals and surrounding white space aside.
-/

namespace DocSelect

/-- A formula `step * n + offset`. -/
structure Formula where
  step : Int64
  offset : Int64
deriving DecidableEq, Repr, Inhabited

/-- A text that is not a formula. -/
structure FormulaError where
  text : String
deriving DecidableEq, Repr, Inhabited

/-- The message of a formula that could not be read. -/
def FormulaError.message (e : FormulaError) : String :=
  "n-th rule couldn't be parsed (" ++ Text.quoted e.text ++ ")"

namespace Formula

/-- The first magnitude that does not fit a formula, two to the power 63. -/
def limit : Nat := 0x8000000000000000

/-- Whether a sign is a minus, and the text behind it. No sign is a plus. -/
def takeSign : List Char → Bool × List Char
  | '-' :: cs => (true, cs)
  | '+' :: cs => (false, cs)
  | cs => (false, cs)

/-- The number that digits denote. -/
def magnitude (digits : List Char) : Nat := Nat.ofDigitChars 10 digits 0

/-- The number at the start of a text, if there are digits, and the text behind it. Fails if the
number reaches the limit. -/
def takeNumber? (cs : List Char) : Option (Option Nat × List Char) :=
  let digits := cs.takeWhile Char.isDigit
  let rest := cs.dropWhile Char.isDigit
  if digits.isEmpty then some (none, rest)
  else if magnitude digits < limit then some (some (magnitude digits), rest)
  else none

/-- A magnitude with its sign. -/
def signed (negative : Bool) (n : Nat) : Int64 := .ofInt (if negative then -n else n)

/-- The offset behind a step: nothing, or a sign and a number. -/
def offset? (cs : List Char) : Option Int64 :=
  match cs with
  | [] => some 0
  | c :: _ =>
    if c = '+' || c = '-' then
      let (negative, rest) := takeSign cs
      match takeNumber? (Text.skipBlank rest) with
      | some (some n, []) => some (signed negative n)
      | _ => none
    else none

/-- The formula that a text without capitals and surrounding white space is. -/
def ofPlain? (cs : List Char) : Option Formula :=
  if cs = ['e', 'v', 'e', 'n'] then some ⟨2, 0⟩
  else if cs = ['o', 'd', 'd'] then some ⟨2, 1⟩
  else
    let (negative, rest) := takeSign cs
    match takeNumber? rest with
    | some (number, 'n' :: rest) =>
      (offset? (Text.skipBlank rest)).map fun offset ↦ ⟨signed negative (number.getD 1), offset⟩
    | some (some number, []) => some ⟨0, signed negative number⟩
    | _ => none

/-- A text without capitals and surrounding white space. -/
def plain (text : List Char) : List Char := (Text.trim text).map Char.toLower

/-- Reads a formula. -/
def parse (text : String) : Except FormulaError Formula :=
  (ofPlain? (plain text.toList)).elim (.error ⟨text⟩) .ok

/-- Whether an index lies on the right side of a start and leaves the same remainder by the
magnitude of the step. -/
def compared (step start index : Int64) : Except Operation Bool := do
  let modulus ← (Operation.abs step).run
  let remainder ← (Operation.euclidMod start modulus).run
  if (if 1 < step then start ≤ index else index ≤ start) then
    let left ← (Operation.euclidMod index modulus).run
    return left == remainder
  else return false

/-- Whether an index is reached from a start in some number of steps. -/
def reached (step start index : Int64) : Except Operation Bool :=
  if start < 0 ∧ step ≤ 0 then .ok false
  else if step = -1 then .ok (index ≤ start)
  else if step = 0 then .ok (index == start)
  else if step = 1 then .ok (start < 0 || start ≤ index)
  else compared step start index

/-- Whether a formula stands for an index, counted from zero. Indexes beyond 63 bits belong to
no formula. Fails with the operation that does not fit, if there is one. -/
def holdsAt (f : Formula) (index : Nat) : Except Operation Bool :=
  if limit ≤ index then .ok false
  else do
    let start ← (Operation.sub f.offset 1).run
    reached f.step start (.ofNat index)

/-- The text of a formula, which leaves out what is zero. -/
def text (f : Formula) : List Char :=
  let step := intText f.step.toInt
  let offset := intText f.offset.toInt
  if f.step = 0 then offset
  else if f.offset = 0 then step ++ ['n']
  else if f.offset < 0 then step ++ 'n' :: offset
  else step ++ 'n' :: '+' :: offset

/-- The text of a formula. -/
def display (f : Formula) : String := String.ofList f.text

end Formula

end DocSelect
