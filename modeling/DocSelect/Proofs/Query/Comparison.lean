import DocSelect.Query.Matcher
import DocSelect.Proofs.Text.Words

/-!
# What comparisons of attributes mean

A text, a number or a truth value is compared by its text, an array by the texts of its items, and
no other value passes a comparison. Each operator asks where in the text the expected text stands,
so the operators imply one another as these places do: all of a text is a beginning and an end of
it, and beginnings, ends and words are parts.
-/

namespace DocSelect

/-- Whether a value is a text, a number or a truth value. -/
def Json.IsScalar : Json → Prop
  | .string _ | .number _ | .bool _ => True
  | .null | .array _ | .object _ => False

/-- These values are the ones that have a text form. -/
theorem Json.isScalar_iff {value : Json} :
    value.IsScalar ↔ ∃ text, value.scalarText? = some text := by
  cases value <;> simp [IsScalar, scalarText?]

namespace Comparison

section Texts

variable {actual expected : List Char}

/-- A text is equal to itself alone. -/
theorem holds_equals_iff : equals.holds actual expected = true ↔ actual = expected := by
  rw [holds, beq_iff_eq]

/-- A text has the words that stand in it. -/
theorem holds_hasWord_iff :
    hasWord.holds actual expected = true ↔ Text.IsWordOf expected actual := by
  rw [holds, List.contains_iff_mem, Text.mem_words]

/-- A text starts with its beginnings, but for the empty one. -/
theorem holds_startsWith_iff :
    startsWith.holds actual expected = true ↔ expected ≠ [] ∧ expected <+: actual := by
  simp [holds]

/-- A text ends with its ends, but for the empty one. -/
theorem holds_endsWith_iff :
    endsWith.holds actual expected = true ↔ expected ≠ [] ∧ expected <:+ actual := by
  simp [holds]

/-- A text contains its parts, but for the empty one. -/
theorem holds_contains_iff :
    contains.holds actual expected = true ↔ expected ≠ [] ∧ expected <:+: actual := by
  simp [holds, Text.occursIn_iff_infix]

/-- A text with white space in it is no word. -/
theorem not_holds_hasWord {c : Char} (hmem : c ∈ expected) (hc : Text.isWhite c = true) :
    hasWord.holds actual expected = false := by
  rw [Bool.eq_false_iff, Ne, holds_hasWord_iff]
  rintro ⟨_, hword, _⟩
  rw [hword c hmem] at hc
  cases hc

/-- A text starts and ends with all of it. -/
theorem holds_of_equals (hne : expected ≠ []) (h : equals.holds actual expected = true) :
    startsWith.holds actual expected = true ∧ endsWith.holds actual expected = true := by
  obtain rfl := holds_equals_iff.1 h
  exact ⟨holds_startsWith_iff.2 ⟨hne, List.prefix_rfl⟩, holds_endsWith_iff.2 ⟨hne, List.suffix_rfl⟩⟩

/-- A text contains what it starts with, what it ends with, and its words. -/
theorem holds_contains_of {op : Comparison} (hop : op = startsWith ∨ op = endsWith ∨ op = hasWord)
    (h : op.holds actual expected = true) : contains.holds actual expected = true := by
  rw [holds_contains_iff]
  rcases hop with rfl | rfl | rfl
  · obtain ⟨hne, hstart⟩ := holds_startsWith_iff.1 h
    exact ⟨hne, hstart.isInfix⟩
  · obtain ⟨hne, hend⟩ := holds_endsWith_iff.1 h
    exact ⟨hne, hend.isInfix⟩
  · have hword := holds_hasWord_iff.1 h
    exact ⟨hword.1, hword.isInfix⟩

end Texts

section Values

variable {op : Comparison} {value : Json} {expected : String}

/-- A value with a text form is compared by it. -/
theorem holdsFor_scalar {text : String} (h : value.scalarText? = some text) :
    op.holdsFor value expected = op.holds text.toList expected.toList := by
  cases value with
  | array items => cases h
  | _ => simp only [holdsFor, h, Option.any_some]

/-- An array is compared by the texts of its items, as a whole or by words. -/
theorem holdsFor_array {items : List Json} :
    op.holdsFor (.array items) expected = true ↔
      (op = equals ∨ op = hasWord) ∧ ∃ item ∈ items, item.scalarText? = some expected := by
  cases op <;> simp [holdsFor]

/-- What passes a comparison is an array or has a text form. -/
theorem scalar_or_array_of_holdsFor (h : op.holdsFor value expected = true) :
    value.IsScalar ∨ ∃ items, value = .array items := by
  cases value with
  | array items => exact .inr ⟨items, rfl⟩
  | null => cases h
  | object members => cases h
  | _ => exact .inl trivial

/-- What passes a comparison is not `null`. -/
theorem isNull_eq_false_of_holdsFor (h : op.holdsFor value expected = true) :
    value.isNull = false := by
  cases value with
  | null => cases h
  | _ => rfl

/-- The empty text is no beginning, end or part of any value. -/
theorem not_holdsFor_empty (hop : op = startsWith ∨ op = endsWith ∨ op = contains) :
    op.holdsFor value "" = false := by
  rw [Bool.eq_false_iff]
  intro h
  rcases scalar_or_array_of_holdsFor h with hscalar | ⟨items, rfl⟩
  · obtain ⟨text, htext⟩ := Json.isScalar_iff.1 hscalar
    rw [holdsFor_scalar htext] at h
    rcases hop with rfl | rfl | rfl <;> cases h
  · obtain ⟨hop', _⟩ := holdsFor_array.1 h
    rcases hop with rfl | rfl | rfl <;> simp at hop'

end Values

end Comparison

namespace AttributeMatcher

/-- The test whether an attribute has a value. -/
def present (name : String) : AttributeMatcher := ⟨name, none⟩

/-- The test whether the value of an attribute compares with a text. -/
def comparing (name : String) (op : Comparison) (expected : String) : AttributeMatcher :=
  ⟨name, some (op, expected)⟩

@[simp] private theorem accepts_present (name : String) (value : Json) :
    (present name).accepts (some value) = !value.isNull := rfl

@[simp] private theorem accepts_comparing (name : String) (op : Comparison) (expected : String)
    (value : Json) :
    (comparing name op expected).accepts (some value) = op.holdsFor value expected := rfl

open Comparison in
/-- The comparisons of a value with a text imply one another. What passes any is present, so `null`
passes none, and neither does an object. A text, a number or a truth value that is equal to a text
starts and ends with it, what it starts with, ends with or has as a word it contains, and a text
with white space is no word of it. An array is equal to the texts of its items, has these as words,
and starts with, ends with and contains nothing; the same holds of the empty text for all values. -/
theorem accepts_implications (name expected : String) (value : Json) :
    let passes (op : Comparison) : Prop := (comparing name op expected).accepts value = true
    (∀ op, passes op → (present name).accepts value = true) ∧
      (value.IsScalar → expected ≠ "" →
        (passes equals → passes startsWith ∧ passes endsWith) ∧
        (passes startsWith ∨ passes endsWith ∨ passes hasWord → passes contains)) ∧
      (value.IsScalar → (∃ c ∈ expected.toList, Text.isWhite c = true) → ¬ passes hasWord) ∧
      (∀ items, value = .array items →
        (passes equals ↔ ∃ item ∈ items, item.scalarText? = some expected) ∧
        (passes hasWord ↔ ∃ item ∈ items, item.scalarText? = some expected) ∧
        ¬ passes startsWith ∧ ¬ passes endsWith ∧ ¬ passes contains) ∧
      (expected = "" → ¬ passes startsWith ∧ ¬ passes endsWith ∧ ¬ passes contains) ∧
      (value = .null ∨ (∃ members, value = .object members) → ∀ op, ¬ passes op) := by
  simp only [accepts_comparing, accepts_present]
  refine ⟨fun op h ↦ ?_, fun hscalar hne ↦ ?_, fun hscalar ⟨c, hmem, hc⟩ ↦ ?_, ?_, ?_, ?_⟩
  · rw [isNull_eq_false_of_holdsFor h, Bool.not_false]
  · obtain ⟨text, htext⟩ := Json.isScalar_iff.1 hscalar
    simp only [holdsFor_scalar htext]
    have hne' : expected.toList ≠ [] := by simpa using hne
    refine ⟨holds_of_equals hne', ?_⟩
    rintro (h | h | h)
    · exact holds_contains_of (.inl rfl) h
    · exact holds_contains_of (.inr (.inl rfl)) h
    · exact holds_contains_of (.inr (.inr rfl)) h
  · obtain ⟨text, htext⟩ := Json.isScalar_iff.1 hscalar
    rw [holdsFor_scalar htext, not_holds_hasWord hmem hc]
    exact Bool.false_ne_true
  · rintro items rfl
    simp [holdsFor_array]
  · rintro rfl
    simp [not_holdsFor_empty]
  · rintro (rfl | ⟨members, rfl⟩) op h
    · cases h
    · cases h

/-- The text `a b` has the word `b`, which it contains, and not the word `a b`. As the item of an
array it is a word. -/
theorem accepts_implications_words :
    (Json.string "a b").IsScalar ∧ "b" ≠ "" ∧
      (comparing "class" .hasWord "b").accepts (some (.string "a b")) = true ∧
      (comparing "class" .contains "b").accepts (some (.string "a b")) = true ∧
      (comparing "class" .hasWord "a b").accepts (some (.string "a b")) ≠ true ∧
      (comparing "class" .hasWord "a b").accepts (some (.array [.null, .string "a b"])) = true := by
  have hword : (comparing "class" .hasWord "b").accepts (some (.string "a b")) = true := by decide
  have hne : "b" ≠ "" := by decide
  have hwhite : ∃ c ∈ "a b".toList, Text.isWhite c = true := ⟨' ', by decide, by decide⟩
  have hitem : ∃ item ∈ [Json.null, .string "a b"], item.scalarText? = some "a b" :=
    ⟨.string "a b", by simp, rfl⟩
  have part := accepts_implications "class" "b" (.string "a b")
  have white := accepts_implications "class" "a b" (.string "a b")
  have items := accepts_implications "class" "a b" (.array [.null, .string "a b"])
  exact ⟨trivial, hne, hword, (part.2.1 trivial hne).2 (.inr (.inr hword)),
    white.2.2.1 trivial hwhite, (items.2.2.2.1 _ rfl).2.1.2 hitem⟩

end AttributeMatcher

end DocSelect
