/-!
# Finite doubles

A finite double is a sign and a rank: the place of its magnitude among all magnitudes, zero
first. Arithmetic rounds exact ratios to the nearest double, an exact half going to the even
rank, and answers nothing where the result is too large.
-/

namespace DocSelect

/-- The rank of the first magnitude that is too large for a double. -/
def Double.limit : Nat := 0x7FF0000000000000

/-- A finite number with a 53-bit significand and an exponent from -1074 to 971. -/
structure Double where
  negative : Bool
  rank : Nat
  rank_lt : rank < Double.limit
deriving DecidableEq, Repr

namespace Double

/-- The exponent of the least magnitudes. -/
def minExponent : Int := -1074

/-- The significands of full length begin here, at two to the power 52. -/
def fullSignificand : Nat := 0x10000000000000

/-- A power of ten. -/
def powTen (k : Nat) : Nat := Nat.pow 10 k

/-- Positive or negative zero. -/
def zero (negative : Bool) : Double := ⟨negative, 0, by decide⟩

/-- Whether the magnitude is zero. -/
def isZero (d : Double) : Bool := d.rank == 0

/-- The whole number whose product with `2 ^ exponent` is the magnitude. -/
def significand (d : Double) : Nat :=
  if d.rank < fullSignificand then d.rank else d.rank % fullSignificand + fullSignificand

/-- The power of two that the significand is scaled by. -/
def exponent (d : Double) : Int :=
  if d.rank < fullSignificand then minExponent
  else minExponent + (d.rank / fullSignificand - 1 : Nat)

/-- The magnitude as a ratio of two whole numbers. -/
def ratio (d : Double) : Nat × Nat :=
  if 0 ≤ d.exponent then (d.significand <<< d.exponent.toNat, 1)
  else (d.significand, 1 <<< (-d.exponent).toNat)

/-- The whole number nearest to a ratio, an exact half going to the even one. -/
def roundRatio (num den : Nat) : Nat :=
  let low := num / den
  let twice := 2 * (num % den)
  if twice < den || (twice == den && low % 2 == 0) then low else low + 1

/-- The greatest exponent `e` with `2 ^ e ≤ num / den`, for a positive ratio. -/
def floorLog2 (num den : Nat) : Int :=
  let guess : Int := num.log2 - den.log2
  let reached := if 0 ≤ guess then den <<< guess.toNat ≤ num else den ≤ num <<< (-guess).toNat
  if reached then guess else guess - 1

/-- The rank of the magnitude nearest to a ratio, without regard to the limit. -/
def rankOfRatio (num den : Nat) : Nat :=
  if num = 0 then 0
  else
    let e := max minExponent (floorLog2 num den - 52)
    let m :=
      if 0 ≤ e then roundRatio num (den <<< e.toNat) else roundRatio (num <<< (-e).toNat) den
    (e - minExponent).toNat * fullSignificand + m

/-- The double nearest to a ratio, if the ratio is not too large. -/
def ofRatio? (negative : Bool) (num den : Nat) : Option Double :=
  if h : rankOfRatio num den < limit then some ⟨negative, rankOfRatio num den, h⟩ else none

/-- The product of a double and a power of ten, the power itself being rounded first. -/
def mulPowTen? (d : Double) (k : Nat) : Option Double := do
  let power ← ofRatio? false (powTen k) 1
  let (num, den) := d.ratio
  let (powerNum, powerDen) := power.ratio
  ofRatio? d.negative (num * powerNum) (den * powerDen)

/-- The quotient of a double by a power of ten, the power itself being rounded first. -/
def divPowTen? (d : Double) (k : Nat) : Option Double := do
  let power ← ofRatio? false (powTen k) 1
  let (num, den) := d.ratio
  let (powerNum, powerDen) := power.ratio
  ofRatio? d.negative (num * powerDen) (den * powerNum)

/-- The greatest power of ten that a double can hold. -/
def maxPowTen : Nat := 308

/-- Divides by ten to the power `k`, at most `maxPowTen` places at a time. -/
def scaleDown? (d : Double) (k : Nat) : Option Double :=
  if k ≤ maxPowTen then d.divPowTen? k
  else if d.isZero then some d
  else (d.divPowTen? maxPowTen).bind fun smaller ↦ smaller.scaleDown? (k - maxPowTen)
termination_by k
decreasing_by simp [maxPowTen] at *; omega

/-- The double for a whole number of 64 bits times a power of ten, if it is not too large. -/
def ofDecimal? (negative : Bool) (whole : Nat) (power : Int) : Option Double := do
  let d ← ofRatio? negative whole 1
  if power < 0 then d.scaleDown? (-power).toNat
  else if power.toNat ≤ maxPowTen then d.mulPowTen? power.toNat
  else if d.isZero then some d
  else none

end Double

end DocSelect
