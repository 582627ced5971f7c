import DocSelect.Selector.Parser
import DocSelect.Proofs.Outcome

/-!
# What the readers of lexemes give

A reader that does not fail gives a value and leaves the rest of its text. What each reader of
the grammar gives is said here once, as an equivalence that takes one step of the reader apart:
from left to right it tells what a read selector looks like, and from right to left it reads a
selector back.
-/

namespace DocSelect

open Text (AtMost isHexDigit skipBlank)

namespace Lexeme

variable {α β : Type} {m n : Nat}

/-- A reader gives a value and leaves a text. -/
def Gives (x : Taken α n) (v : α) (rest : List Char) : Prop := ∃ h, x = .ok (v, ⟨rest, h⟩)

/-- A reader leaves no more text than it had. -/
theorem Gives.length_le {x : Taken α n} {v : α} {rest : List Char} (h : Gives x v rest) :
    rest.length ≤ n := h.1

/-- A reader that is done gives its value. -/
@[simp] theorem gives_ok {v w : α} {r : AtMost n} {rest : List Char} :
    Gives (.ok (v, r)) w rest ↔ w = v ∧ rest = r.1 := by
  constructor
  · rintro ⟨h, he⟩
    cases he
    exact ⟨rfl, rfl⟩
  · rintro ⟨rfl, rfl⟩
    exact ⟨r.2, rfl⟩

/-- Taking nothing gives the value at once. -/
@[simp] theorem gives_pure {v w : α} {r : AtMost n} {rest : List Char} :
    Gives (pure (v, r)) w rest ↔ w = v ∧ rest = r.1 := gives_ok

/-- A reader that fails gives nothing. -/
@[simp] theorem not_gives_error {p : Problem} {v : α} {rest : List Char} :
    ¬ Gives (.error p : Taken α n) v rest := by
  rintro ⟨_, he⟩
  cases he

/-- A reader that goes on from what another gives. -/
theorem gives_bind {x : Taken α n} {f : α × AtMost n → Taken β m} {v : β} {rest : List Char} :
    Gives (x >>= f) v rest ↔
      ∃ a r, ∃ h : Gives x a r, Gives (f (a, ⟨r, h.length_le⟩)) v rest := by
  constructor
  · rintro ⟨h, he⟩
    obtain ⟨⟨a, r⟩, rfl, he⟩ := Outcome.bind_eq_ok.1 he
    exact ⟨a, r.1, ⟨r.2, rfl⟩, h, he⟩
  · rintro ⟨a, r, ⟨_, rfl⟩, h⟩
    exact h

/-- A character that begins a name goes on with one. -/
theorem isNameChar_of_isNameStart {c : Char} (h : isNameStart c = true) : isNameChar c = true := by
  simp only [isNameStart, isNameChar, Char.isAlphanum, Bool.or_eq_true] at h ⊢
  rcases h with (h | h) | h
  · exact .inl (.inl (.inl h))
  · exact .inl (.inr h)
  · exact .inr h

/-- A name has no characters at the end of a text. -/
theorem gives_name_nil {v rest : List Char} : Gives (name []) v rest ↔ v = [] ∧ rest = [] := by
  rw [name, gives_ok]
  rfl

/-- A name goes on with an escape. -/
theorem gives_name_escape {t v rest : List Char} :
    Gives (name ('\\' :: t)) v rest ↔
      ∃ c r, Gives (escaped t) c r ∧ ∃ more, Gives (name r) more rest ∧ v = c :: more := by
  simp only [name, gives_bind, gives_pure, exists_prop, exists_eq_right_right']

/-- A name goes on with a character of names. -/
theorem gives_name_cons {c : Char} {t v rest : List Char} (hc : c ≠ '\\')
    (h : isNameChar c = true) :
    Gives (name (c :: t)) v rest ↔ ∃ more, Gives (name t) more rest ∧ v = c :: more := by
  rw [name]
  · simp only [h, if_true, gives_bind, gives_pure, exists_prop, exists_eq_right_right']
  · exact hc

/-- A name stops in front of any other character. -/
theorem gives_name_stop {c : Char} {t v rest : List Char} (hc : c ≠ '\\')
    (h : isNameChar c = false) : Gives (name (c :: t)) v rest ↔ v = [] ∧ rest = c :: t := by
  rw [name]
  · simp only [h, Bool.false_eq_true, if_false, gives_ok]
    rfl
  · exact hc

/-- A required name is a name that is not empty. -/
theorem gives_requiredName {mark : Char} {cs rest : List Char} {s : String} :
    Gives (requiredName mark cs) s rest ↔
      ∃ chars, Gives (name cs) chars rest ∧ chars ≠ [] ∧ s = String.ofList chars := by
  simp only [requiredName, gives_bind]
  constructor
  · rintro ⟨chars, r, h, hs⟩
    split at hs
    · exact absurd hs not_gives_error
    · next hne =>
      obtain ⟨rfl, rfl⟩ := gives_pure.1 hs
      exact ⟨chars, h, by simpa using hne, rfl⟩
  · rintro ⟨chars, h, hne, rfl⟩
    refine ⟨chars, rest, h, ?_⟩
    rw [if_neg (by simpa using hne)]
    exact gives_pure.2 ⟨rfl, rfl⟩

/-- A string ends with its quote. -/
theorem gives_stringTail_quote {quote : Char} {whole t v rest : List Char} :
    Gives (stringTail quote whole (quote :: t)) v rest ↔ v = [] ∧ rest = t := by
  rw [stringTail.eq_def]
  simp only [if_true, gives_ok]
  rfl

/-- A string goes on with an escape of one letter, or of a character that stands for itself. -/
theorem gives_stringTail_short {quote e : Char} {whole t v rest : List Char} (hq : quote ≠ '\\')
    (he : (isHexDigit e && (shortEscape? quote e).isNone) = false) :
    Gives (stringTail quote whole ('\\' :: e :: t)) v rest ↔
      ∃ more, Gives (stringTail quote whole t) more rest ∧
        v = (shortEscape? quote e).getD e :: more := by
  rw [stringTail.eq_def]
  simp only [hq.symm, he, Bool.false_eq_true, if_true, if_false, gives_bind, gives_pure,
    exists_prop, exists_eq_right_right']

/-- A string goes on with an escape by number. -/
theorem gives_stringTail_hex {quote e : Char} {whole t v rest : List Char} (hq : quote ≠ '\\')
    (he : (isHexDigit e && (shortEscape? quote e).isNone) = true) :
    Gives (stringTail quote whole ('\\' :: e :: t)) v rest ↔
      ∃ x r, Gives (hexEscape (e :: t)) x r ∧
        ∃ more, Gives (stringTail quote whole r) more rest ∧ v = x :: more := by
  rw [stringTail.eq_def]
  simp only [hq.symm, he, if_true, if_false, gives_bind, gives_pure, exists_prop,
    exists_eq_right_right']

/-- A string goes on with any other character. -/
theorem gives_stringTail_cons {quote c : Char} {whole t v rest : List Char} (hq : c ≠ quote)
    (hc : c ≠ '\\') :
    Gives (stringTail quote whole (c :: t)) v rest ↔
      ∃ more, Gives (stringTail quote whole t) more rest ∧ v = c :: more := by
  rw [stringTail.eq_def]
  simp only [hq, hc, if_false, gives_bind, gives_pure, exists_prop, exists_eq_right_right']

/-- A string is the characters up to its quote. -/
theorem gives_string {quote : Char} {t rest : List Char} {s : String} :
    Gives (string quote t) s rest ↔
      ∃ chars, Gives (stringTail quote (quote :: t) t) chars rest ∧ s = String.ofList chars := by
  simp only [string, gives_bind, gives_pure, exists_prop, exists_eq_right_right']

/-- Raw text ends in front of a parenthesis. -/
theorem gives_rawChars_stop {t rest : List Char} {v : List RawChar} :
    Gives (rawChars (')' :: t)) v rest ↔ v = [] ∧ rest = ')' :: t := by
  rw [rawChars, if_pos rfl, gives_ok]
  rfl

/-- Raw text goes on with an escape. -/
theorem gives_rawChars_escape {t rest : List Char} {v : List RawChar} :
    Gives (rawChars ('\\' :: t)) v rest ↔
      ∃ x r, Gives (escaped t) x r ∧
        ∃ more, Gives (rawChars r) more rest ∧ v = ⟨x, true⟩ :: more := by
  rw [rawChars, if_neg (by decide), if_pos rfl]
  simp only [gives_bind, gives_pure, exists_prop, exists_eq_right_right']

/-- Raw text goes on with any other character. -/
theorem gives_rawChars_cons {c : Char} {t rest : List Char} {v : List RawChar} (hp : c ≠ ')')
    (hc : c ≠ '\\') :
    Gives (rawChars (c :: t)) v rest ↔
      ∃ more, Gives (rawChars t) more rest ∧ v = ⟨c, false⟩ :: more := by
  rw [rawChars, if_neg hp, if_neg hc]
  simp only [gives_bind, gives_pure, exists_prop, exists_eq_right_right']

/-- An argument without quotes is raw text without the blanks around it. -/
theorem gives_rawArgument {cs rest : List Char} {s : String} :
    Gives (rawArgument cs) s rest ↔
      ∃ raw, Gives (rawChars cs) raw rest ∧ s = String.ofList ((trimRaw raw).map RawChar.char) := by
  simp only [rawArgument, gives_bind, gives_pure, exists_prop, exists_eq_right_right']

end Lexeme

end DocSelect
