import DocSelect.Proofs.Formula

/-!
# Where formulas overflow

The test of an index takes one from the offset and takes the magnitude of the step without a look
at them before. Both operations overflow for the least number alone, and the magnitude is only
asked for when the start is not below zero. The remainders never overflow, as their divisor is a
magnitude that is not zero. Where nothing overflows, the test is exact.
-/

namespace DocSelect.Formula

variable {f : Formula} {index : Nat}

/-- The least number has no predecessor, so that a test from it has no start. -/
theorem holdsAt_of_offset (hi : index < limit) (h : f.offset = Int64.minValue) :
    f.holdsAt index = .error (.sub f.offset 1) := by
  rw [holdsAt, if_neg (Nat.not_le.2 hi)]
  exact Operation.run_bind_of_not_fits (fun hfits ↦ Operation.fits_sub_one.1 hfits h) _

/-- The least step has no magnitude, which is asked for from a start that is not below zero. -/
theorem holdsAt_of_step (hi : index < limit) (hoffset : f.offset ≠ Int64.minValue)
    (hstep : f.step = Int64.minValue) (hpos : ¬ f.offset ≤ 0) :
    f.holdsAt index = .error (.abs f.step) := by
  have hstart : ¬ (f.offset - 1 < 0 ∧ f.step ≤ 0) := fun h ↦
    hpos ((sub_one_lt_zero hoffset).1 h.1)
  have hnone : ¬ (Operation.abs f.step).Fits := fun h ↦ Operation.fits_abs.1 h hstep
  rw [holdsAt, if_neg (Nat.not_le.2 hi),
    Operation.run_bind_of_fits (Operation.fits_sub_one.2 hoffset), Operation.result, reached,
    if_neg hstart, if_neg (by rw [hstep]; decide), if_neg (by rw [hstep]; decide),
    if_neg (by rw [hstep]; decide), compared]
  exact Operation.run_bind_of_not_fits hnone _

/-- A test fails with one of two operations that do not fit. -/
theorem holdsAt_eq_error (hi : index < limit)
    (h : f.offset = Int64.minValue ∨ f.step = Int64.minValue ∧ 0 < f.offset) :
    ∃ o, f.holdsAt index = .error o ∧ ¬ o.Fits ∧ (o = .sub f.offset 1 ∨ o = .abs f.step) := by
  by_cases hoffset : f.offset = Int64.minValue
  · exact ⟨_, holdsAt_of_offset hi hoffset, fun hfits ↦ Operation.fits_sub_one.1 hfits hoffset,
      .inl rfl⟩
  · obtain ⟨hstep, hpos⟩ := h.resolve_left hoffset
    exact ⟨_, holdsAt_of_step hi hoffset hstep (Int64.not_le.2 hpos),
      fun hfits ↦ Operation.fits_abs.1 hfits hstep, .inr rfl⟩

/-- The test of an index fails exactly if the index is below the limit and the offset is the least
number, or the step is and the offset is positive. What does not fit then is the predecessor of
the offset or the magnitude of the step, never a remainder. A test that does not fail finds the
positions of the formula below the limit. -/
theorem holdsAt_overflows_iff (f : Formula) (index : Nat) :
    ((∃ o, f.holdsAt index = .error o) ↔ index < limit ∧
      (f.offset = Int64.minValue ∨ f.step = Int64.minValue ∧ 0 < f.offset)) ∧
    (∀ o, f.holdsAt index = .error o →
      ¬ o.Fits ∧ (o = .sub f.offset 1 ∨ o = .abs f.step)) ∧
    ∀ b, f.holdsAt index = .ok b → (b = true ↔
      index < limit ∧ ∃ n : Nat, f.step.toInt * n + f.offset.toInt = index + 1) := by
  by_cases hi : index < limit
  · by_cases hleast : f.offset = Int64.minValue ∨ f.step = Int64.minValue ∧ 0 < f.offset
    · obtain ⟨o, ho, hkind⟩ := holdsAt_eq_error hi hleast
      refine ⟨iff_of_true ⟨o, ho⟩ ⟨hi, hleast⟩, fun o' ho' ↦ ?_, fun b hb ↦ ?_⟩
      · obtain rfl := Except.error.inj (ho.symm.trans ho')
        exact hkind
      · cases ho.symm.trans hb
    · obtain ⟨hoffset, hstep⟩ := not_or.1 hleast
      obtain ⟨b, hb, hexact⟩ := exists_holdsAt_iff hi hoffset
        fun heq ↦ Int64.not_lt.1 fun hpos ↦ hstep ⟨heq, hpos⟩
      refine ⟨iff_of_false ?_ fun h ↦ hleast h.2, fun o ho ↦ ?_, fun b' hb' ↦ ?_⟩
      · rintro ⟨o, ho⟩
        cases hb.symm.trans ho
      · cases hb.symm.trans ho
      · obtain rfl := Except.ok.inj (hb.symm.trans hb')
        rw [and_iff_right hi, hexact]
  · have hbeyond : f.holdsAt index = .ok false := if_pos (Nat.not_lt.1 hi)
    refine ⟨iff_of_false ?_ fun h ↦ hi h.1, fun o ho ↦ ?_, fun b hb ↦ ?_⟩
    · rintro ⟨o, ho⟩
      cases hbeyond.symm.trans ho
    · cases hbeyond.symm.trans ho
    · obtain rfl := Except.ok.inj (hbeyond.symm.trans hb)
      exact iff_of_false Bool.false_ne_true fun h ↦ hi h.1

/-- From the lowest offset that has a predecessor the first position can be reached. From the
least number nothing can be tested. -/
theorem holdsAt_overflows_iff_lowest :
    (∃ b, (⟨2, -9223372036854775807⟩ : Formula).holdsAt 0 = .ok b ∧
      (b = true ↔ 0 < limit ∧
        ∃ n : Nat, (2 : Int64).toInt * n + (-9223372036854775807 : Int64).toInt = (0 : Nat) + 1)) ∧
      ∃ o, (⟨2, Int64.minValue⟩ : Formula).holdsAt 0 = .error o ∧ ¬ o.Fits :=
  have htrue : (⟨2, -9223372036854775807⟩ : Formula).holdsAt 0 = .ok true := by decide
  have herror : (⟨2, Int64.minValue⟩ : Formula).holdsAt 0 =
    .error (.sub Int64.minValue 1) := by decide
  ⟨⟨_, htrue, (holdsAt_overflows_iff _ 0).2.2 _ htrue⟩,
    _, herror, ((holdsAt_overflows_iff _ 0).2.1 _ herror).1⟩

/-- The predecessor of the least number overflows, so that a formula with that offset has no answer
at a position that it stands for. So does the magnitude of the least step. -/
theorem holdsAt_minValue :
    (⟨1, Int64.minValue⟩ : Formula).holdsAt 0 = .error (.sub Int64.minValue 1) ∧
      ¬ (Operation.sub Int64.minValue 1).Fits ∧
      (∃ n : Nat, (1 : Int64).toInt * n + Int64.minValue.toInt = (0 : Nat) + 1) ∧
      (⟨Int64.minValue, 1⟩ : Formula).holdsAt 0 = .error (.abs Int64.minValue) ∧
      ¬ (Operation.abs Int64.minValue).Fits :=
  ⟨by decide, by decide, ⟨2 ^ 63 + 1, by decide⟩, by decide, by decide⟩

end DocSelect.Formula
