import DocSelect.Formula.Moderate
import Mathlib.Algebra.Order.Ring.Int

/-!
# The positions of a formula

A formula that can be read stands for the positions `step * n + offset` with `n` from zero up.
The test of an index finds out without a search: by the sign of the step, the index lies on one
side of the start and leaves the same remainder. It does so in numbers of 64 bits, where nothing
overflows, because the magnitudes of both numbers of the formula are below the limit.
-/

namespace DocSelect.Formula

/-- With a positive step, what is reached from the start lies behind it and leaves the same
remainder. -/
theorem exists_mul_add_eq_iff {step start index : Int} (h : 0 < step) :
    (∃ n : Nat, step * n + start = index) ↔ start ≤ index ∧ index % step = start % step := by
  constructor
  · rintro ⟨n, rfl⟩
    have hn : 0 ≤ step * n := Int.mul_nonneg h.le (Int.natCast_nonneg n)
    exact ⟨by omega, by rw [Int.add_comm, Int.add_mul_emod_self_left]⟩
  · rintro ⟨hle, hmod⟩
    obtain ⟨k, hk⟩ := Int.dvd_of_emod_eq_zero (Int.emod_eq_emod_iff_emod_sub_eq_zero.1 hmod)
    have hk0 : 0 ≤ k := Int.nonneg_of_mul_nonneg_right (by omega) h
    exact ⟨k.toNat, by rw [Int.toNat_of_nonneg hk0, ← hk]; omega⟩

/-- With a negative step, what is reached from the start lies before it: the start is reached
from there with the opposite step. -/
theorem exists_mul_add_eq_iff_of_neg {step start index : Int} (h : step < 0) :
    (∃ n : Nat, step * n + start = index) ↔
      index ≤ start ∧ index % -step = start % -step := by
  rw [eq_comm (a := index % -step), ← exists_mul_add_eq_iff (by omega)]
  refine exists_congr fun n ↦ ?_
  rw [Int.neg_mul]
  omega

/-- What is reached from a start is reached in some number of steps. -/
theorem reaches_iff {step start index : Int} (h : 0 ≤ index) :
    Reaches step start index ↔ ∃ n : Nat, step * n + start = index := by
  rw [Reaches]
  rcases Int.lt_trichotomy step 0 with hneg | rfl | hpos
  · have habs : (step.natAbs : Int) = -step := by omega
    rw [exists_mul_add_eq_iff_of_neg hneg, habs]
    by_cases hone : step = -1
    · subst hone
      simp only [Int.neg_neg, Int.emod_one]
      grind
    · grind
  · rw [if_neg (by decide), if_pos rfl]
    simp only [Int.zero_mul, Int.zero_add, exists_const]
    omega
  · have habs : (step.natAbs : Int) = step := by omega
    rw [exists_mul_add_eq_iff hpos, habs]
    by_cases hone : step = 1
    · subst hone
      simp only [Int.emod_one]
      grind
    · grind

/-- Where nothing overflows, the test finds the positions of the formula. -/
theorem exists_holdsAt_iff {f : Formula} {index : Nat} (hi : index < limit)
    (hoffset : f.offset ≠ Int64.minValue)
    (hstep : f.step = Int64.minValue → f.offset ≤ 0) :
    ∃ b, f.holdsAt index = .ok b ∧
      (b = true ↔ ∃ n : Nat, f.step.toInt * n + f.offset.toInt = index + 1) := by
  obtain ⟨b, hb, hreaches⟩ := exists_holdsAt hi hoffset hstep
  refine ⟨b, hb, hreaches.trans ?_⟩
  rw [reaches_iff (Int.natCast_nonneg index)]
  exact exists_congr fun n ↦ by omega

/-- A formula that can be read holds at an index if the position of the index, counted from one,
is the offset and some number of steps from zero up. The test has an answer. -/
theorem holdsAt_iff_exists {text : String} {f : Formula} (h : parse text = .ok f) {index : Nat}
    (hi : index < 2 ^ 63) :
    ∃ b, f.holdsAt index = .ok b ∧
      (b = true ↔ ∃ n : Nat, f.step.toInt * n + f.offset.toInt = index + 1) := by
  obtain ⟨hstep, hoffset⟩ := moderate_iff.1 (moderate_of_parse h)
  exact exists_holdsAt_iff hi hoffset fun heq ↦ absurd heq hstep

/-- With a negative step the last positions before the limit can be reached. -/
theorem holdsAt_iff_exists_negative :
    parse " -2N + 9223372036854775807" = .ok ⟨-2, 9223372036854775807⟩ ∧
      9223372036854775804 < 2 ^ 63 ∧
      ∃ b, (⟨-2, 9223372036854775807⟩ : Formula).holdsAt 9223372036854775804 = .ok b ∧
        (b = true ↔ ∃ n : Nat, (-2 : Int64).toInt * n + (9223372036854775807 : Int64).toInt =
          (9223372036854775804 : Nat) + 1) :=
  have h : parse " -2N + 9223372036854775807" = .ok ⟨-2, 9223372036854775807⟩ := by decide
  ⟨h, by decide, holdsAt_iff_exists h (by decide)⟩

end DocSelect.Formula
