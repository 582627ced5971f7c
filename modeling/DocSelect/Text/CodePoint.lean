/-!
# Code points by number

Escapes name a character by its number in base sixteen. A number from the range of surrogates
names no character by itself; a high and a low surrogate together name one beyond that range.
-/

namespace DocSelect.Text

/-- The value of a digit in base sixteen. -/
def hexValue? (c : Char) : Option Nat :=
  if '0' ≤ c ∧ c ≤ '9' then some (c.toNat - '0'.toNat)
  else if 'a' ≤ c ∧ c ≤ 'f' then some (c.toNat - 'a'.toNat + 10)
  else if 'A' ≤ c ∧ c ≤ 'F' then some (c.toNat - 'A'.toNat + 10)
  else none

/-- Whether a character is a digit in base sixteen. -/
def isHexDigit (c : Char) : Bool := (hexValue? c).isSome

/-- The number that digits in base sixteen denote. -/
def hexNumber (ds : List Char) : Nat := ds.foldl (fun n d ↦ n * 16 + (hexValue? d).getD 0) 0

/-- The first half of a surrogate pair. -/
def isHighSurrogate (n : Nat) : Bool := 0xD800 ≤ n && n ≤ 0xDBFF

/-- The second half of a surrogate pair. -/
def isLowSurrogate (n : Nat) : Bool := 0xDC00 ≤ n && n ≤ 0xDFFF

/-- The code point of a surrogate pair. -/
def joinSurrogates (high low : Nat) : Nat := (high - 0xD800) * 0x400 + (low - 0xDC00) + 0x10000

/-- The character of a code point, if it is one of a character. -/
def charOfCodePoint? (n : Nat) : Option Char := if n.isValidChar then some (Char.ofNat n) else none

end DocSelect.Text
