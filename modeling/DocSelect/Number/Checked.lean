/-!
# Checked operations

An operation on numbers of 64 bits is checked: where the number that it stands for is not one of
64 bits, or where it divides by zero, it gives no number but is the error itself.
-/

namespace DocSelect

/-- The remainder of a division, never negative for a positive divisor. -/
def euclidMod (a b : Int64) : Int64 :=
  let r := a % b
  if r < 0 then r + b else r

/-- An operation on numbers of 64 bits. -/
inductive Operation where
  | sub (a b : Int64)
  | abs (a : Int64)
  | euclidMod (a b : Int64)
deriving DecidableEq, Repr

namespace Operation

/-- The number that an operation gives if it fits. -/
def result : Operation → Int64
  | sub a b => a - b
  | abs a => a.abs
  | euclidMod a b => DocSelect.euclidMod a b

/-- Whether a whole number is one of 64 bits. -/
def InRange (n : Int) : Prop := -0x8000000000000000 ≤ n ∧ n < 0x8000000000000000

/-- Membership in the range is decided by two comparisons. -/
instance {n : Int} : Decidable (InRange n) := inferInstanceAs (Decidable (_ ∧ _))

/-- Whether an operation neither leaves the numbers of 64 bits nor divides by zero. A remainder
needs the quotient to be a number of 64 bits. -/
def Fits : Operation → Prop
  | sub a b => InRange (a.toInt - b.toInt)
  | abs a => InRange a.toInt.natAbs
  | euclidMod a b => b ≠ 0 ∧ InRange (a.toInt.tdiv b.toInt)

/-- Whether an operation fits is computed from its numbers. -/
instance : (o : Operation) → Decidable o.Fits
  | sub _ _ => inferInstanceAs (Decidable (InRange _))
  | abs _ => inferInstanceAs (Decidable (InRange _))
  | euclidMod _ _ => inferInstanceAs (Decidable (_ ∧ _))

/-- Carries an operation out, which fails with the operation itself if it does not fit. -/
def run (o : Operation) : Except Operation Int64 := if o.Fits then .ok o.result else .error o

/-- An operation that fits gives its number to what follows. -/
theorem run_bind_of_fits {β : Type} {o : Operation} (h : o.Fits)
    (f : Int64 → Except Operation β) : o.run >>= f = f o.result := by
  rw [run, if_pos h]
  rfl

/-- An operation that does not fit is the error, whatever follows. -/
theorem run_bind_of_not_fits {β : Type} {o : Operation} (h : ¬ o.Fits)
    (f : Int64 → Except Operation β) : o.run >>= f = .error o := by
  rw [run, if_neg h]
  rfl

/-- One can be taken from every number but the least. -/
theorem fits_sub_one {a : Int64} : (sub a 1).Fits ↔ a ≠ Int64.minValue := by
  have hlow := Int64.le_toInt a
  have hhigh := Int64.toInt_lt a
  rw [Fits, InRange, ne_eq, ← Int64.toInt_inj, Int64.toInt_minValue, Int64.toInt_one]
  omega

/-- Every number but the least has a magnitude. -/
theorem fits_abs {a : Int64} : (abs a).Fits ↔ a ≠ Int64.minValue := by
  have hlow := Int64.le_toInt a
  have hhigh := Int64.toInt_lt a
  rw [Fits, InRange, ne_eq, ← Int64.toInt_inj, Int64.toInt_minValue]
  omega

/-- A quotient by a positive number lies between zero and the dividend. -/
theorem fits_euclidMod {a b : Int64} (h : 0 < b.toInt) : (euclidMod a b).Fits := by
  have hlow := Int64.le_toInt a
  have hhigh := Int64.toInt_lt a
  refine ⟨?_, ?_⟩
  · rintro rfl
    exact absurd h (by decide)
  rw [InRange]
  rcases Int.le_total 0 a.toInt with ha | ha
  · have hnonneg := Int.tdiv_nonneg ha (Int.le_of_lt h)
    have hle := Int.tdiv_le_self b.toInt ha
    omega
  · have ha : 0 ≤ -a.toInt := by omega
    have hnonneg := Int.tdiv_nonneg ha (Int.le_of_lt h)
    have hle := Int.tdiv_le_self b.toInt ha
    rw [Int.neg_tdiv] at hnonneg hle
    omega

end Operation

/-! ### What the numbers are -/

/-- The remainder of a division by a positive number is that of whole numbers. -/
theorem toInt_euclidMod {a b : Int64} (h : 0 < b.toInt) :
    (euclidMod a b).toInt = a.toInt % b.toInt := by
  have hb := Int64.toInt_lt b
  have hnonneg := Int.emod_nonneg a.toInt (Int.ne_of_gt h)
  have hlt := Int.emod_lt_of_pos a.toInt h
  have hrem : (a % b).toInt = a.toInt.tmod b.toInt := Int64.toInt_mod a b
  have hcases : a.toInt.tmod b.toInt = a.toInt % b.toInt ∨
      a.toInt.tmod b.toInt = a.toInt % b.toInt - b.toInt := by
    rw [Int.tmod_eq_emod]
    split <;> omega
  rw [euclidMod]
  by_cases hneg : a % b < 0
  · -- the remainder of the other sign is one divisor too low
    have hlow := Int64.lt_iff_toInt_lt.1 hneg
    rw [hrem, Int64.toInt_zero] at hlow
    rw [if_pos hneg, Int64.toInt_add, hrem, Int.bmod_eq_of_le (by omega) (by omega)]
    omega
  · have hhigh : ¬ (a % b).toInt < (0 : Int64).toInt := fun h ↦ hneg (Int64.lt_iff_toInt_lt.2 h)
    rw [hrem, Int64.toInt_zero] at hhigh
    rw [if_neg hneg, hrem]
    omega

/-- Every number but the least has a magnitude of 64 bits. -/
theorem toInt_abs {a : Int64} (h : a ≠ Int64.minValue) : a.abs.toInt = a.toInt.natAbs := by
  have hne : a.toBitVec ≠ BitVec.intMin 64 := fun heq ↦ h (Int64.toBitVec_inj.1 heq)
  rw [← Int64.toInt_toBitVec, Int64.toBitVec_abs, BitVec.toInt_abs_eq_natAbs_of_ne_intMin hne,
    Int64.toInt_toBitVec]

/-- Every number but the least has a predecessor of 64 bits. -/
theorem toInt_sub_one {a : Int64} (h : a ≠ Int64.minValue) : (a - 1).toInt = a.toInt - 1 := by
  have hlow := Int64.le_toInt a
  have hhigh := Int64.toInt_lt a
  rw [ne_eq, ← Int64.toInt_inj, Int64.toInt_minValue] at h
  rw [Int64.toInt_sub, Int64.toInt_one]
  exact Int.bmod_eq_of_le (by omega) (by omega)

end DocSelect
