import DocSelect.Proofs.Formula.Grammar

/-!
# The texts that formulas are shown as

A formula is shown as its offset alone, or as its step with the offset behind it, what is zero
left out. That text is one by the rules for the formulas whose magnitudes are below the limit, and
reading it gives the formula back. The others are shown with a magnitude that is refused.
-/

namespace DocSelect.Formula

open Text (blanks_nil)

/-! ### Numbers as they are written -/

/-- The digits of a magnitude below the limit. -/
theorem magnitude_toDigits {n : Nat} (h : n < limit) : Magnitude (Nat.toDigits 10 n) n :=
  ⟨Text.numeral_toDigits n, h⟩

/-- A whole number is written as a sign and the digits of its magnitude. -/
theorem exists_sign_intText (z : Int) :
    ∃ sign s, Sign sign s ∧ intText z = sign ++ Nat.toDigits 10 z.natAbs ∧ s * z.natAbs = z := by
  by_cases h : z < 0
  · exact ⟨['-'], -1, .mark .minus, by simp [intText, h], by omega⟩
  · exact ⟨[], 1, .none, by simp [intText, h], by omega⟩

/-- What is written behind the letter of a step. Zero is left out, and a plus takes the place of
the sign that other offsets do not have. -/
def offsetText (offset : Int) : List Char :=
  if offset = 0 then [] else if offset < 0 then intText offset else '+' :: intText offset

private theorem offset_offsetText {offset : Int} (h : offset.natAbs < limit) :
    Offset (offsetText offset) offset := by
  have hds := magnitude_toDigits h
  unfold offsetText
  split
  · next hzero =>
    subst hzero
    exact .zero
  split
  · next hneg =>
    have hvalue : -1 * (offset.natAbs : Int) = offset := by omega
    have hoffset := Offset.marked .minus blanks_nil hds
    rw [hvalue] at hoffset
    simpa [intText, hneg] using hoffset
  · next hpos =>
    have hvalue : 1 * (offset.natAbs : Int) = offset := by omega
    have hoffset := Offset.marked .plus blanks_nil hds
    rw [hvalue] at hoffset
    simpa [intText, hpos] using hoffset

/-- The text of a formula is an offset, or a step with an offset behind it. -/
theorem text_eq (f : Formula) :
    f.text = if f.step.toInt = 0 then intText f.offset.toInt
      else intText f.step.toInt ++ 'n' :: offsetText f.offset.toInt := by
  have hzero (n : Int64) : n = 0 ↔ n.toInt = 0 := by rw [← Int64.toInt_inj, Int64.toInt_zero]
  have hneg (n : Int64) : n < 0 ↔ n.toInt < 0 := by rw [Int64.lt_iff_toInt_lt, Int64.toInt_zero]
  unfold text offsetText
  simp only [hzero, hneg]
  split
  · rfl
  split
  · rfl
  split <;> rfl

/-- The text of a moderate formula denotes its numbers. -/
theorem denotes_text {f : Formula} (h : f.Moderate) :
    Denotes f.text f.step.toInt f.offset.toInt := by
  rw [text_eq]
  split
  · next hstep =>
    obtain ⟨sign, s, hsign, htext, hvalue⟩ := exists_sign_intText f.offset.toInt
    have hnumber := Denotes.number hsign (magnitude_toDigits h.offset)
    rw [← htext, hvalue] at hnumber
    rwa [hstep]
  · obtain ⟨sign, s, hsign, htext, hvalue⟩ := exists_sign_intText f.step.toInt
    have hsteps := Denotes.steps hsign (.digits (magnitude_toDigits h.step)) blanks_nil
      (offset_offsetText h.offset)
    rwa [← List.append_assoc, ← htext, hvalue] at hsteps

/-! ### Characters of formulas -/

/-- Whether a character stays what it is when a formula is read. -/
def isPlain (c : Char) : Bool := !Text.isWhite c && c.toLower == c

private theorem plain_eq_self {cs : List Char} (h : ∀ c ∈ cs, isPlain c = true) :
    plain cs = cs := by
  have hplain : ∀ c ∈ cs, Text.isWhite c = false ∧ c.toLower = c := by simpa [isPlain] using h
  rw [plain, Text.trim_eq_self fun c hc ↦ (hplain c hc).1]
  calc cs.map Char.toLower
      _ = cs.map id := List.map_congr_left fun c hc ↦ (hplain c hc).2
      _ = cs := List.map_id cs

private theorem isPlain_of_mem_intText {z : Int} : ∀ c ∈ intText z, isPlain c = true := by
  have hdigits : ∀ c ∈ Nat.toDigits 10 z.natAbs, isPlain c = true := by
    intro c hc
    have hdigit := Nat.isDigit_of_mem_toDigits (by decide) (by decide) hc
    exact Text.of_isDigit hdigit (by decide)
  unfold intText
  split
  · exact List.forall_mem_cons.2 ⟨by decide, hdigits⟩
  · exact hdigits

private theorem isPlain_of_mem_offsetText {offset : Int} :
    ∀ c ∈ offsetText offset, isPlain c = true := by
  unfold offsetText
  split
  · exact nofun
  split
  · exact isPlain_of_mem_intText
  · exact List.forall_mem_cons.2 ⟨by decide, isPlain_of_mem_intText⟩

/-- The text of a formula has no capitals and no white space around it. -/
theorem plain_text (f : Formula) : plain f.text = f.text := by
  apply plain_eq_self
  rw [text_eq]
  split
  · exact isPlain_of_mem_intText
  · rw [List.forall_mem_append, List.forall_mem_cons]
    exact ⟨isPlain_of_mem_intText, by decide, isPlain_of_mem_offsetText⟩

/-! ### Reading the text of a formula -/

/-- The text of a moderate formula is read as the formula. -/
theorem parse_display {f : Formula} (h : f.Moderate) : parse f.display = .ok f := by
  obtain ⟨g, hg, hstep, hoffset⟩ := ofPlain?_of_denotes (denotes_text h)
  have heq : g = f := by
    cases g
    cases f
    rw [Formula.mk.injEq]
    exact ⟨Int64.toInt_inj.1 hstep, Int64.toInt_inj.1 hoffset⟩
  rw [parse_eq_ok, display, String.toList_ofList, plain_text, hg, heq]

/-- The formulas that are read back from their texts are those with magnitudes below the limit,
and these are all formulas that can be read at all. -/
theorem parse_display_iff (f : Formula) :
    (parse f.display = .ok f ↔ f.Moderate) ∧ ((∃ text, parse text = .ok f) ↔ f.Moderate) := by
  constructor
  · exact ⟨moderate_of_parse, parse_display⟩
  · exact ⟨fun ⟨_, htext⟩ ↦ moderate_of_parse htext, fun h ↦ ⟨f.display, parse_display h⟩⟩

example : parse (display ⟨1, Int64.minValue⟩) = .error ⟨"1n-9223372036854775808"⟩ := by decide

end DocSelect.Formula
