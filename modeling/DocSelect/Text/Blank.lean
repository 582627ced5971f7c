/-!
# Blank characters, trimming and words

Two notions of blank are in use. Selector text separates its parts with the five
characters of `isBlank`; values and arguments are trimmed and split with the
Unicode property of `isWhite`. The main facts: a text without its leading blanks has
no more leading blanks to skip, and every blank is white.
-/

namespace DocSelect.Text

/-- Space, tab, line feed, carriage return and form feed separate the parts of a selector. -/
def isBlank (c : Char) : Bool :=
  c == ' ' || c == '\t' || c == '\n' || c == '\r' || c == '\x0c'

/-- The ranges of code points with the Unicode property `White_Space`. -/
def whiteRanges : List (Nat × Nat) :=
  [(0x9, 0xD), (0x20, 0x20), (0x85, 0x85), (0xA0, 0xA0), (0x1680, 0x1680), (0x2000, 0x200A),
    (0x2028, 0x2029), (0x202F, 0x202F), (0x205F, 0x205F), (0x3000, 0x3000)]

/-- Whether a code point lies in one of some closed ranges. -/
def inRanges (ranges : List (Nat × Nat)) (n : Nat) : Bool :=
  ranges.any fun (first, last) ↦ first ≤ n && n ≤ last

/-- Whether a character has the Unicode property `White_Space`. -/
def isWhite (c : Char) : Bool := inRanges whiteRanges c.toNat

/-- A blank is white space. -/
theorem isWhite_of_isBlank {c : Char} (h : isBlank c = true) : isWhite c = true := by
  simp only [isBlank, Bool.or_eq_true, beq_iff_eq] at h
  rcases h with (((rfl | rfl) | rfl) | rfl) | rfl <;> decide

/-- The text without its leading blanks. -/
def skipBlank (cs : List Char) : List Char := cs.dropWhile isBlank

/-- Skipping blanks makes no text longer. -/
theorem length_skipBlank_le (cs : List Char) : (skipBlank cs).length ≤ cs.length :=
  (List.dropWhile_suffix _).length_le

/-- The empty text has no blanks to skip. -/
@[simp] theorem skipBlank_nil : skipBlank [] = [] := rfl

/-- A blank in front is skipped. -/
theorem skipBlank_cons_of_blank {c : Char} (h : isBlank c = true) (cs : List Char) :
    skipBlank (c :: cs) = skipBlank cs := by
  simp [skipBlank, h]

/-- Nothing is skipped in front of a character that is no blank. -/
theorem skipBlank_cons_of_not_blank {c : Char} (h : isBlank c = false) (cs : List Char) :
    skipBlank (c :: cs) = c :: cs := by
  simp [skipBlank, h]

/-- Blanks that were skipped need not be skipped again. -/
theorem skipBlank_idem (cs : List Char) : skipBlank (skipBlank cs) = skipBlank cs := by
  induction cs with
  | nil => rfl
  | cons c cs ih =>
    cases h : isBlank c with
    | true => rw [skipBlank_cons_of_blank h, ih]
    | false => rw [skipBlank_cons_of_not_blank h, skipBlank_cons_of_not_blank h]

/-- The text without the white space around it. -/
def trim (cs : List Char) : List Char :=
  ((cs.dropWhile isWhite).reverse.dropWhile isWhite).reverse

/-- The maximal runs of characters that are not white, in order. -/
def words (cs : List Char) : List (List Char) :=
  (cs.splitOnP isWhite).filter fun word ↦ !word.isEmpty

/-- Whether one text occurs within another. -/
def occursIn (part : List Char) : List Char → Bool
  | [] => part.isEmpty
  | c :: cs => part.isPrefixOf (c :: cs) || occursIn part cs

end DocSelect.Text
