import DocSelect.Proofs.Formula
import DocSelect.Proofs.Text.Blank
import DocSelect.Proofs.Text.Numeral
import Mathlib.Data.List.TakeWhile

/-!
# The texts of formulas

A formula is written as a keyword, as a number with a sign, or as a step with an offset behind it.
This is said here by rules that tell the numbers of a formula with its text. Reading a text finds
the numbers that the rules tell, and refuses the texts about which they tell nothing.
-/

namespace DocSelect.Formula

open Text (Ahead Blanks Numeral ahead_cons ahead_nil skipBlank)

/-! ### The rules -/

/-- A mark in front of a number, and what the number is multiplied with. -/
inductive Mark : Char → Int → Prop
  | plus : Mark '+' 1
  | minus : Mark '-' (-1)

/-- What may stand in front of a number. -/
inductive Sign : List Char → Int → Prop
  | none : Sign [] 1
  | mark {c : Char} {s : Int} (h : Mark c s) : Sign [c] s

/-- The digits of a number that fits a formula. -/
structure Magnitude (ds : List Char) (n : Nat) : Prop where
  numeral : Numeral 10 ds n
  lt : n < 2 ^ 63

/-- What may stand in front of the letter of a step. No digits stand for one. -/
inductive Coefficient : List Char → Nat → Prop
  | one : Coefficient [] 1
  | digits {ds : List Char} {n : Nat} (h : Magnitude ds n) : Coefficient ds n

/-- What may stand behind a step. Nothing stands for zero. -/
inductive Offset : List Char → Int → Prop
  | zero : Offset [] 0
  | marked {c : Char} {s : Int} {gap ds : List Char} {n : Nat} (hc : Mark c s)
      (hgap : Blanks gap) (hds : Magnitude ds n) : Offset (c :: (gap ++ ds)) (s * n)

/-- The texts without capitals and surrounding white space that denote formulas, with the step and
the offset of each. -/
inductive Denotes : List Char → Int → Int → Prop
  | even : Denotes ['e', 'v', 'e', 'n'] 2 0
  | odd : Denotes ['o', 'd', 'd'] 2 1
  | number {sign ds : List Char} {s : Int} {n : Nat} (hsign : Sign sign s)
      (hds : Magnitude ds n) : Denotes (sign ++ ds) 0 (s * n)
  | steps {sign ds gap tail : List Char} {s offset : Int} {n : Nat} (hsign : Sign sign s)
      (hds : Coefficient ds n) (hgap : Blanks gap) (htail : Offset tail offset) :
      Denotes (sign ++ (ds ++ 'n' :: (gap ++ tail))) (s * n) offset

/-! ### Signs and numbers -/

/-- Whether a character is a plus or a minus. -/
def isMark (c : Char) : Bool := c == '+' || c == '-'

/-- The factor of a number with or without a minus. -/
def factor (negative : Bool) : Int := if negative then -1 else 1

/-- A number with its sign is the product of both. -/
theorem toInt_signed_eq_mul {negative : Bool} {n : Nat} (h : n < 2 ^ 63) :
    (signed negative n).toInt = factor negative * n := by
  rw [toInt_signed h, factor]
  split <;> omega

/-- A sign that is taken stands in front of the text that is left. -/
theorem sign_takeSign (cs : List Char) :
    ∃ sign, Sign sign (factor (takeSign cs).1) ∧ cs = sign ++ (takeSign cs).2 := by
  unfold takeSign
  split
  · exact ⟨_, .mark .minus, rfl⟩
  · exact ⟨_, .mark .plus, rfl⟩
  · exact ⟨_, .none, rfl⟩

/-- A mark is taken. -/
theorem takeSign_mark {c : Char} {s : Int} (h : Mark c s) (rest : List Char) :
    ∃ negative, factor negative = s ∧ takeSign (c :: rest) = (negative, rest) := by
  cases h with
  | plus => exact ⟨false, rfl, rfl⟩
  | minus => exact ⟨true, rfl, rfl⟩

/-- A sign is taken in front of what is no mark. -/
theorem takeSign_append {sign rest : List Char} {s : Int} (h : Sign sign s)
    (hrest : Ahead (fun c ↦ !isMark c) rest) :
    ∃ negative, factor negative = s ∧ takeSign (sign ++ rest) = (negative, rest) := by
  cases h with
  | mark h => exact takeSign_mark h rest
  | none =>
    refine ⟨false, rfl, ?_⟩
    rw [List.nil_append]
    unfold takeSign
    split
    · cases ahead_cons.1 hrest
    · cases ahead_cons.1 hrest
    · rfl

/-- A number that is taken stands in front of the text that is left. -/
theorem magnitude_of_takeNumber? {cs rest : List Char} {n : Nat}
    (h : takeNumber? cs = some (some n, rest)) : ∃ ds, Magnitude ds n ∧ cs = ds ++ rest := by
  refine ⟨cs.takeWhile Char.isDigit, ⟨?_, lt_of_takeNumber? h⟩, ?_⟩
  · simp only [takeNumber?] at h
    split at h
    · cases h
    · next hne =>
      split at h
      · cases h
        refine Text.numeral_ten.2 ⟨by simpa using hne, fun d hd ↦ ?_, rfl⟩
        exact List.mem_takeWhile_imp hd
      · cases h
  · simp only [takeNumber?] at h
    split at h
    · cases h
    · split at h
      · cases h
        exact List.takeWhile_append_dropWhile.symm
      · cases h

/-- Where no number is taken, all of the text is left. -/
theorem eq_of_takeNumber?_none {cs rest : List Char} (h : takeNumber? cs = some (none, rest)) :
    rest = cs := by
  simp only [takeNumber?] at h
  split at h
  · next hempty =>
    cases h
    have hsplit := List.takeWhile_append_dropWhile (p := Char.isDigit) (l := cs)
    rwa [List.isEmpty_iff.1 hempty, List.nil_append] at hsplit
  · split at h
    · cases h
    · cases h

/-- No digit is taken in front of what is no digit. -/
theorem takeNumber?_of_ahead {rest : List Char} (h : Ahead (fun c ↦ !c.isDigit) rest) :
    takeNumber? rest = some (none, rest) := by
  cases rest with
  | nil => rfl
  | cons c t =>
    have hc : c.isDigit = false := by simpa using ahead_cons.1 h
    simp [takeNumber?, hc]

/-- The digits of a number are taken in front of what is no digit. -/
theorem takeNumber?_append {ds rest : List Char} {n : Nat} (h : Magnitude ds n)
    (hrest : Ahead (fun c ↦ !c.isDigit) rest) :
    takeNumber? (ds ++ rest) = some (some n, rest) := by
  obtain ⟨hne, hall, hnumber⟩ := Text.numeral_ten.1 h.numeral
  have hnumber : magnitude ds = n := hnumber
  have hnone : rest.takeWhile Char.isDigit = [] ∧ rest.dropWhile Char.isDigit = rest := by
    cases rest with
    | nil => exact ⟨rfl, rfl⟩
    | cons c t =>
      have hc : c.isDigit = false := by simpa using ahead_cons.1 hrest
      simp [hc]
  simp only [takeNumber?, List.takeWhile_append_of_pos hall, List.dropWhile_append_of_pos hall,
    hnone, List.append_nil, hnumber]
  have hlt : n < limit := h.lt
  rw [if_neg (by simpa using hne), if_pos hlt]

/-- A number begins with a digit. -/
theorem Magnitude.ahead {ds : List Char} {n : Nat} (h : Magnitude ds n) (rest : List Char) :
    Ahead Char.isDigit (ds ++ rest) := by
  obtain ⟨hne, hall, _⟩ := Text.numeral_ten.1 h.numeral
  refine Ahead.append (fun c hc ↦ hall c (List.mem_of_mem_head? hc)) fun hnil ↦ ?_
  exact absurd hnil hne

/-! ### Offsets -/

/-- A mark is one of the two that stand in front of an offset. -/
theorem isMark_iff {c : Char} : isMark c = true ↔ ∃ s, Mark c s := by
  constructor
  · intro h
    rcases Bool.or_eq_true_iff.1 h with h | h
    · exact ⟨1, eq_of_beq h ▸ .plus⟩
    · exact ⟨-1, eq_of_beq h ▸ .minus⟩
  · rintro ⟨s, h⟩
    cases h <;> rfl

/-- No offset begins with a blank. -/
theorem Offset.ahead {cs : List Char} {b : Int} (h : Offset cs b) :
    Ahead (fun c ↦ !Text.isBlank c) cs := by
  cases h with
  | zero => exact ahead_nil
  | marked hc _ _ => cases hc <;> exact ahead_cons.2 rfl

/-- An offset that is read is one by the rules. -/
theorem offset_of_offset? {cs : List Char} {offset : Int64} (h : offset? cs = some offset) :
    Offset cs offset.toInt := by
  rw [offset?.eq_def] at h
  split at h
  · cases h
    exact .zero
  · next c t =>
    split at h
    · next hc =>
      have hmark : isMark c = true := by simpa [isMark] using hc
      obtain ⟨s, hs⟩ := isMark_iff.1 hmark
      obtain ⟨negative, hfactor, htake⟩ := takeSign_mark hs t
      rw [htake] at h
      dsimp only at h
      split at h
      · next n hnumber =>
        cases h
        obtain ⟨ds, hds, hsplit⟩ := magnitude_of_takeNumber? hnumber
        rw [List.append_nil] at hsplit
        have htext : t = t.takeWhile Text.isBlank ++ ds := by
          rw [← hsplit]
          exact List.takeWhile_append_dropWhile.symm
        rw [toInt_signed_eq_mul hds.lt, hfactor, htext]
        exact .marked hs (fun d hd ↦ List.mem_takeWhile_imp hd) hds
      · cases h
    · cases h

/-- An offset by the rules is read. -/
theorem offset?_of_offset {cs : List Char} {b : Int} (h : Offset cs b) :
    ∃ offset : Int64, offset? cs = some offset ∧ offset.toInt = b := by
  cases h with
  | zero => exact ⟨0, rfl, rfl⟩
  | @marked c s gap ds n hc hgap hds =>
    obtain ⟨negative, rfl, htake⟩ := takeSign_mark hc (gap ++ ds)
    have hmark : isMark c = true := isMark_iff.2 ⟨_, hc⟩
    have hnumber : takeNumber? ds = some (some n, []) := by
      have htaken := takeNumber?_append hds ahead_nil
      rwa [List.append_nil] at htaken
    have hblank : skipBlank ds = ds := by
      have hahead := hds.ahead []
      rw [List.append_nil] at hahead
      exact Text.skipBlank_eq_self (hahead.mono fun d hd ↦
        Text.of_isDigit (p := fun c ↦ !Text.isBlank c) hd (by decide))
    refine ⟨signed negative n, ?_, toInt_signed_eq_mul hds.lt⟩
    rw [offset?, if_pos (by simpa [isMark] using hmark), htake]
    dsimp only
    rw [Text.skipBlank_append hgap, hblank, hnumber]

/-! ### Formulas -/

/-- A formula that is read is one by the rules. -/
theorem denotes_of_ofPlain? {cs : List Char} {f : Formula} (h : ofPlain? cs = some f) :
    Denotes cs f.step.toInt f.offset.toInt := by
  rw [ofPlain?] at h
  split at h
  · next heven =>
    cases h
    exact heven ▸ .even
  split at h
  · next hodd =>
    cases h
    exact hodd ▸ .odd
  obtain ⟨sign, hsign, hcs⟩ := sign_takeSign cs
  generalize takeSign cs = taken at h hsign hcs
  obtain ⟨negative, rest⟩ := taken
  dsimp only at h hsign hcs
  split at h
  · next number t hnumber =>
    obtain ⟨offset, hoffset, rfl⟩ := Option.map_eq_some_iff.1 h
    obtain ⟨ds, n, hds, hn, hrest⟩ : ∃ ds n, Coefficient ds n ∧ number.getD 1 = n ∧
        rest = ds ++ 'n' :: t := by
      cases number with
      | none => exact ⟨[], 1, .one, rfl, (eq_of_takeNumber?_none hnumber).symm⟩
      | some n =>
        obtain ⟨ds, hds, hrest⟩ := magnitude_of_takeNumber? hnumber
        exact ⟨ds, n, .digits hds, rfl, hrest⟩
    have hlt : n < 2 ^ 63 := by
      cases hds with
      | one => decide
      | digits h => exact h.lt
    have hsplit : t = t.takeWhile Text.isBlank ++ skipBlank t :=
      List.takeWhile_append_dropWhile.symm
    rw [hcs, hrest, hsplit, hn, toInt_signed_eq_mul hlt]
    exact .steps hsign hds (fun d hd ↦ List.mem_takeWhile_imp hd) (offset_of_offset? hoffset)
  · next n hnumber =>
    cases h
    obtain ⟨ds, hds, hrest⟩ := magnitude_of_takeNumber? hnumber
    rw [hcs, hrest, List.append_nil, toInt_signed_eq_mul hds.lt]
    exact .number hsign hds
  · cases h

/-- What holds of both marks and of the next character holds in front of a sign. -/
theorem Sign.ahead {p : Char → Bool} {sign rest : List Char} {s : Int} (h : Sign sign s)
    (hplus : p '+' = true) (hminus : p '-' = true) (hrest : Ahead p rest) :
    Ahead p (sign ++ rest) := by
  cases h with
  | none => exact hrest
  | mark h =>
    cases h with
    | plus => exact ahead_cons.2 hplus
    | minus => exact ahead_cons.2 hminus

/-- What holds of every digit and of the next character holds in front of a coefficient. -/
theorem Coefficient.ahead {p : Char → Bool} {ds rest : List Char} {n : Nat}
    (h : Coefficient ds n) (hp : ∀ v < 10, p (Nat.digitChar v) = true) (hrest : Ahead p rest) :
    Ahead p (ds ++ rest) := by
  cases h with
  | one => exact hrest
  | digits h => exact (h.ahead rest).mono fun c hc ↦ Text.of_isDigit hc hp

/-- A coefficient is taken in front of the letter of a step. -/
theorem takeNumber?_coefficient {ds : List Char} {n : Nat} (h : Coefficient ds n)
    (rest : List Char) :
    ∃ number, takeNumber? (ds ++ 'n' :: rest) = some (number, 'n' :: rest) ∧
      number.getD 1 = n ∧ n < 2 ^ 63 := by
  have hletter : Ahead (fun c ↦ !c.isDigit) ('n' :: rest) := ahead_cons.2 rfl
  cases h with
  | one => exact ⟨none, takeNumber?_of_ahead hletter, rfl, by decide⟩
  | digits h => exact ⟨some n, takeNumber?_append h hletter, rfl, h.lt⟩

/-- A text that does not begin like a keyword is none. -/
theorem ne_keyword {cs : List Char} (h : Ahead (fun c ↦ c != 'e' && c != 'o') cs) :
    cs ≠ ['e', 'v', 'e', 'n'] ∧ cs ≠ ['o', 'd', 'd'] := by
  constructor
  · rintro rfl
    cases ahead_cons.1 h
  · rintro rfl
    cases ahead_cons.1 h

/-- A formula by the rules is read. -/
theorem ofPlain?_of_denotes {cs : List Char} {a b : Int} (h : Denotes cs a b) :
    ∃ f, ofPlain? cs = some f ∧ f.step.toInt = a ∧ f.offset.toInt = b := by
  cases h with
  | even => exact ⟨⟨2, 0⟩, rfl, rfl, rfl⟩
  | odd => exact ⟨⟨2, 1⟩, rfl, rfl, rfl⟩
  | @number sign ds s n hsign hds =>
    have hnumber : takeNumber? ds = some (some n, []) := by
      have htaken := takeNumber?_append hds ahead_nil
      rwa [List.append_nil] at htaken
    have hdigit : Ahead Char.isDigit ds := by
      have hahead := hds.ahead []
      rwa [List.append_nil] at hahead
    have hmark : Ahead (fun c ↦ !isMark c) ds :=
      hdigit.mono fun c hc ↦ Text.of_isDigit (p := fun c ↦ !isMark c) hc (by decide)
    have hletters : Ahead (fun c ↦ c != 'e' && c != 'o') ds :=
      hdigit.mono fun c hc ↦ Text.of_isDigit (p := fun c ↦ c != 'e' && c != 'o') hc (by decide)
    obtain ⟨heven, hodd⟩ := ne_keyword (hsign.ahead rfl rfl hletters)
    obtain ⟨negative, rfl, htake⟩ := takeSign_append hsign hmark
    refine ⟨⟨0, signed negative n⟩, ?_, rfl, toInt_signed_eq_mul hds.lt⟩
    rw [ofPlain?, if_neg heven, if_neg hodd, htake]
    dsimp only
    rw [hnumber]
  | @steps sign ds gap tail s offset n hsign hds hgap htail =>
    obtain ⟨number, hnumber, hn, hlt⟩ := takeNumber?_coefficient hds (gap ++ tail)
    have hmark : Ahead (fun c ↦ !isMark c) (ds ++ 'n' :: (gap ++ tail)) :=
      hds.ahead (by decide) (ahead_cons.2 rfl)
    have hletters : Ahead (fun c ↦ c != 'e' && c != 'o') (ds ++ 'n' :: (gap ++ tail)) :=
      hds.ahead (by decide) (ahead_cons.2 rfl)
    obtain ⟨heven, hodd⟩ := ne_keyword (hsign.ahead rfl rfl hletters)
    obtain ⟨negative, rfl, htake⟩ := takeSign_append hsign hmark
    obtain ⟨b, hb, rfl⟩ := offset?_of_offset htail
    have hblank : skipBlank tail = tail := Text.skipBlank_eq_self htail.ahead
    refine ⟨⟨signed negative n, b⟩, ?_, toInt_signed_eq_mul hlt, rfl⟩
    rw [ofPlain?, if_neg heven, if_neg hodd, htake]
    dsimp only
    rw [hnumber]
    show (offset? (skipBlank (gap ++ tail))).map _ = _
    rw [Text.skipBlank_append hgap, hblank, hb, hn]
    rfl

/-- A text from which no formula is read is the error. -/
theorem parse_eq_error {text : String} (h : ∀ f, parse text ≠ .ok f) :
    parse text = .error ⟨text⟩ := by
  rw [parse] at h ⊢
  cases hplain : ofPlain? (plain text.toList) with
  | none => rfl
  | some f =>
    rw [hplain] at h
    exact absurd rfl (h f)

/-- A text is a formula exactly if the rules tell its step and its offset, white space around it
and capitals aside, and these are the ones that are read. Every other text is refused. -/
theorem parse_iff_denotes (text : String) :
    (∀ step offset : Int, Denotes (plain text.toList) step offset ↔
      ∃ f, parse text = .ok f ∧ f.step.toInt = step ∧ f.offset.toInt = offset) ∧
    ((¬ ∃ step offset, Denotes (plain text.toList) step offset) ↔
      parse text = .error ⟨text⟩) := by
  have hdenotes (step offset : Int) : Denotes (plain text.toList) step offset ↔
      ∃ f, parse text = .ok f ∧ f.step.toInt = step ∧ f.offset.toInt = offset := by
    constructor
    · intro h
      obtain ⟨f, hf, hnumbers⟩ := ofPlain?_of_denotes h
      exact ⟨f, parse_eq_ok.2 hf, hnumbers⟩
    · rintro ⟨f, hf, rfl, rfl⟩
      exact denotes_of_ofPlain? (parse_eq_ok.1 hf)
  refine ⟨hdenotes, ?_⟩
  constructor
  · intro hnone
    refine parse_eq_error fun f hf ↦ hnone ⟨_, _, (hdenotes _ _).2 ⟨f, hf, rfl, rfl⟩⟩
  · rintro herror ⟨step, offset, h⟩
    obtain ⟨f, hf, _⟩ := (hdenotes step offset).1 h
    rw [hf] at herror
    cases herror

example : parse "- n" = .error ⟨"- n"⟩ := by decide

end DocSelect.Formula
