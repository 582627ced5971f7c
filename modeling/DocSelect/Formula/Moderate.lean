import DocSelect.Formula

/-!
# Formulas that are read never overflow

A formula that was read from a text is moderate: both of its numbers have magnitudes below the
limit. So neither is the least number of 64 bits, the only one without a predecessor and without
a magnitude, and the test of an index has an answer. It is the one that whole numbers without
bounds give.
-/

namespace DocSelect

namespace Formula

/-! ### Magnitudes -/

/-- Whether the numbers of a formula have magnitudes below the limit. This leaves out the least
number of 64 bits, which has no predecessor and no magnitude of 64 bits. -/
structure Moderate (f : Formula) : Prop where
  step : f.step.toInt.natAbs < limit
  offset : f.offset.toInt.natAbs < limit

/-- A magnitude below the limit keeps its value with a sign. -/
theorem toInt_signed {negative : Bool} {n : Nat} (h : n < limit) :
    (signed negative n).toInt = if negative then -(n : Int) else n := by
  rw [limit] at h
  rw [signed, Int64.toInt_ofInt_of_le (by split <;> omega) (by split <;> omega)]

/-- A number with a sign has the magnitude that it was made of. -/
theorem natAbs_signed {negative : Bool} {n : Nat} (h : n < limit) :
    (signed negative n).toInt.natAbs = n := by
  rw [toInt_signed h]
  split <;> simp

/-- Numbers that are taken are below the limit. -/
theorem lt_of_takeNumber? {cs rest : List Char} {n : Nat}
    (h : takeNumber? cs = some (some n, rest)) : n < limit := by
  rw [takeNumber?] at h
  split at h
  · cases h
  · split at h
    · next hlt =>
      cases h
      exact hlt
    · cases h

/-- The magnitude of an offset is below the limit. -/
theorem natAbs_offset?_lt {cs : List Char} {offset : Int64} (h : offset? cs = some offset) :
    offset.toInt.natAbs < limit := by
  rw [offset?.eq_def] at h
  split at h
  · cases h
    decide
  · split at h
    · split at h
      split at h
      · next n hnumber =>
        cases h
        have hlt := lt_of_takeNumber? hnumber
        rwa [natAbs_signed hlt]
      · cases h
    · cases h

/-- A formula without capitals and surrounding white space is moderate. -/
theorem moderate_of_ofPlain? {cs : List Char} {f : Formula} (h : ofPlain? cs = some f) :
    f.Moderate := by
  rw [ofPlain?] at h
  split at h
  · cases h
    exact ⟨by decide, by decide⟩
  split at h
  · cases h
    exact ⟨by decide, by decide⟩
  split at h
  split at h
  · next number rest hnumber =>
    obtain ⟨offset, hoffset, rfl⟩ := Option.map_eq_some_iff.1 h
    refine ⟨?_, natAbs_offset?_lt hoffset⟩
    have hlt : number.getD 1 < limit := by
      cases number with
      | none => decide
      | some n => exact lt_of_takeNumber? hnumber
    rwa [natAbs_signed hlt]
  · next n hnumber =>
    cases h
    have hlt := lt_of_takeNumber? hnumber
    exact ⟨Nat.pos_of_ne_zero (by decide), by rwa [natAbs_signed hlt]⟩
  · cases h

/-- A formula is read from its text without capitals and surrounding white space. -/
theorem parse_eq_ok {text : String} {f : Formula} :
    parse text = .ok f ↔ ofPlain? (plain text.toList) = some f := by
  rw [parse]
  cases ofPlain? (plain text.toList) with
  | none => exact ⟨nofun, nofun⟩
  | some g =>
    constructor
    · intro h
      rw [Except.ok.inj h]
    · intro h
      rw [Option.some.inj h]
      rfl

/-- Formulas that can be read are moderate. -/
theorem moderate_of_parse {text : String} {f : Formula} (h : parse text = .ok f) :
    f.Moderate := moderate_of_ofPlain? (parse_eq_ok.1 h)

/-- The least number is the only one whose magnitude reaches the limit. -/
theorem natAbs_lt_limit_iff {a : Int64} : a.toInt.natAbs < limit ↔ a ≠ Int64.minValue := by
  have hlow := Int64.le_toInt a
  have hhigh := Int64.toInt_lt a
  rw [limit, ne_eq, ← Int64.toInt_inj, Int64.toInt_minValue]
  omega

/-- Moderate formulas are those without the least number. -/
theorem moderate_iff {f : Formula} :
    f.Moderate ↔ f.step ≠ Int64.minValue ∧ f.offset ≠ Int64.minValue := by
  rw [← natAbs_lt_limit_iff, ← natAbs_lt_limit_iff]
  exact ⟨fun h ↦ ⟨h.step, h.offset⟩, fun h ↦ ⟨h.1, h.2⟩⟩

/-! ### Answers -/

/-- Whether an index is reached from a start, told from the sign of the step. -/
def Reaches (step start index : Int) : Prop :=
  ¬ (start < 0 ∧ step ≤ 0) ∧
    if step = -1 then index ≤ start
    else if step = 0 then index = start
    else if step = 1 then start < 0 ∨ start ≤ index
    else (if 1 < step then start ≤ index else index ≤ start) ∧
      index % step.natAbs = start % step.natAbs

/-- Behind the magnitude of a step both remainders fit. -/
theorem exists_compared {step start index : Int64} (hzero : step ≠ 0)
    (hleast : step ≠ Int64.minValue) :
    ∃ b, compared step start index = .ok b ∧
      (b = true ↔ (if 1 < step.toInt then start.toInt ≤ index.toInt
        else index.toInt ≤ start.toInt) ∧
          index.toInt % step.toInt.natAbs = start.toInt % step.toInt.natAbs) := by
  have habs := toInt_abs hleast
  have hpos : 0 < step.abs.toInt := by
    rw [ne_eq, ← Int64.toInt_inj, Int64.toInt_zero] at hzero
    omega
  have hsame (a b : Int64) : (euclidMod a step.abs == euclidMod b step.abs) = true ↔
      a.toInt % step.toInt.natAbs = b.toInt % step.toInt.natAbs := by
    rw [beq_iff_eq, ← Int64.toInt_inj, toInt_euclidMod hpos, toInt_euclidMod hpos, habs]
  have hone : 1 < step.toInt ↔ 1 < step := by rw [Int64.lt_iff_toInt_lt, Int64.toInt_one]
  have hfits (a : Int64) : (Operation.euclidMod a (Operation.abs step).result).Fits :=
    Operation.fits_euclidMod hpos
  rw [compared, Operation.run_bind_of_fits (Operation.fits_abs.2 hleast)]
  simp only [Operation.run_bind_of_fits (hfits _), ← hsame, hone, ← Int64.le_iff_toInt_le]
  split <;> split
  · next hside => exact ⟨_, rfl, (and_iff_right hside).symm⟩
  · next hside => exact ⟨_, rfl, iff_of_false Bool.false_ne_true fun h ↦ hside h.1⟩
  · next hside => exact ⟨_, rfl, (and_iff_right hside).symm⟩
  · next hside => exact ⟨_, rfl, iff_of_false Bool.false_ne_true fun h ↦ hside h.1⟩

/-- An index is tested for being reached unless the magnitude of the least step is asked for. -/
theorem exists_reached {step start index : Int64} (h : step = Int64.minValue → start < 0) :
    ∃ b, reached step start index = .ok b ∧
      (b = true ↔ Reaches step.toInt start.toInt index.toInt) := by
  have hbelow : start < 0 ∧ step ≤ 0 ↔ start.toInt < 0 ∧ step.toInt ≤ 0 := by
    rw [Int64.lt_iff_toInt_lt, Int64.le_iff_toInt_le, Int64.toInt_zero]
  have hminus : step = -1 ↔ step.toInt = -1 := by
    rw [← Int64.toInt_inj, show (-1 : Int64).toInt = -1 from rfl]
  have hzero : step = 0 ↔ step.toInt = 0 := by rw [← Int64.toInt_inj, Int64.toInt_zero]
  have hone : step = 1 ↔ step.toInt = 1 := by rw [← Int64.toInt_inj, Int64.toInt_one]
  rw [reached, Reaches]
  simp only [hbelow, hminus, hone]
  -- the steps next to zero are tested without a magnitude
  split
  · next hb => exact ⟨_, rfl, iff_of_false Bool.false_ne_true fun hr ↦ hr.1 hb⟩
  next hb =>
  rw [and_iff_right hb]
  split
  · exact ⟨_, rfl, by rw [decide_eq_true_eq, Int64.le_iff_toInt_le]⟩
  split
  · next hz =>
    rw [if_pos (hzero.1 hz)]
    exact ⟨_, rfl, by rw [beq_iff_eq, Int64.toInt_inj]⟩
  next hz =>
  rw [if_neg (mt hzero.2 hz)]
  split
  · refine ⟨_, rfl, ?_⟩
    rw [Bool.or_eq_true, decide_eq_true_eq, decide_eq_true_eq, Int64.lt_iff_toInt_lt,
      Int64.le_iff_toInt_le, Int64.toInt_zero]
  · have hleast : step ≠ Int64.minValue := fun heq ↦
      hb (hbelow.1 ⟨h heq, by rw [heq]; decide⟩)
    exact exists_compared hz hleast

/-- The start lies below zero exactly if the offset is not positive. -/
theorem sub_one_lt_zero {offset : Int64} (h : offset ≠ Int64.minValue) :
    offset - 1 < 0 ↔ offset ≤ 0 := by
  rw [Int64.lt_iff_toInt_lt, Int64.le_iff_toInt_le, toInt_sub_one h, Int64.toInt_zero]
  omega

/-- The test of an index has the answer of whole numbers, unless the offset is the least number,
or the step is and the offset is positive. -/
theorem exists_holdsAt {f : Formula} {index : Nat} (hi : index < limit)
    (hoffset : f.offset ≠ Int64.minValue) (hstep : f.step = Int64.minValue → f.offset ≤ 0) :
    ∃ b, f.holdsAt index = .ok b ∧
      (b = true ↔ Reaches f.step.toInt (f.offset.toInt - 1) index) := by
  obtain ⟨b, hb, hreaches⟩ : ∃ b, reached f.step (f.offset - 1) (.ofNat index) = .ok b ∧ _ :=
    exists_reached fun h ↦ (sub_one_lt_zero hoffset).2 (hstep h)
  rw [toInt_sub_one hoffset, Int64.toInt_ofNat_of_lt hi] at hreaches
  refine ⟨b, ?_, hreaches⟩
  rw [holdsAt, if_neg (Nat.not_le.2 hi),
    Operation.run_bind_of_fits (Operation.fits_sub_one.2 hoffset)]
  exact hb

/-- The test of an index has an answer if the formula is moderate. -/
theorem exists_holdsAt_of_moderate {f : Formula} (hf : f.Moderate) (index : Nat) :
    ∃ b, f.holdsAt index = .ok b := by
  by_cases hi : index < limit
  · obtain ⟨hstep, hoffset⟩ := moderate_iff.1 hf
    obtain ⟨b, hb, -⟩ := exists_holdsAt hi hoffset fun h ↦ absurd h hstep
    exact ⟨b, hb⟩
  · exact ⟨false, if_pos (Nat.not_lt.1 hi)⟩

end Formula

/-- A formula as texts give it, whose test of an index always has an answer. -/
structure ReadFormula where
  formula : Formula
  moderate : formula.Moderate

/-- Reads a formula and keeps that it was read. -/
def ReadFormula.parse (text : String) : Except FormulaError ReadFormula :=
  match h : Formula.parse text with
  | .ok f => .ok ⟨f, Formula.moderate_of_parse h⟩
  | .error e => .error e

end DocSelect
