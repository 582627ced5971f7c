import DocSelect.Number.Double

/-!
# Shortest decimal text

A double is written with the fewest decimal digits that read back as the same double, and
among those with the digits nearest to its value. The text is positional from `0.00001` up
to `10 ^ 16`, with at least one digit after the point, and exponential elsewhere.
-/

namespace DocSelect

namespace Double

/-- The magnitudes that round to a double: two ratios over one denominator, and whether they
belong to the interval themselves. -/
structure Interval where
  low : Nat
  value : Nat
  high : Nat
  den : Nat
  closed : Bool
deriving DecidableEq, Repr

/-- The magnitudes that are nearer to a double than to its neighbours. -/
def interval (d : Double) : Interval :=
  let m := d.significand
  let below := if m = fullSignificand ∧ minExponent < d.exponent then 1 else 2
  let e := d.exponent - 2
  ⟨(4 * m - below) <<< e.toNat, (4 * m) <<< e.toNat, (4 * m + 2) <<< e.toNat,
    1 <<< (-e).toNat, m % 2 == 0⟩

/-- Whether the interval holds a multiple `n` of `unit / unitDen`. -/
def Interval.holds (i : Interval) (n unit unitDen : Nat) : Bool :=
  let here := n * unit * i.den
  let low := i.low * unitDen
  let high := i.high * unitDen
  (low < here && here < high) || (i.closed && (here == low || here == high))

/-- The number of the two neighbours of the value on a decimal grid that the interval holds and
that is nearer to the value, an even number winning a tie. -/
def Interval.onGrid? (i : Interval) (unit unitDen : Nat) : Option Nat :=
  let value := i.value * unitDen
  let step := unit * i.den
  let low := value / step
  let twice := 2 * (value % step)
  match i.holds low unit unitDen, i.holds (low + 1) unit unitDen with
  | true, true =>
    some (if twice < step || (twice == step && low % 2 == 0) then low else low + 1)
  | true, false => some low
  | false, true => some (low + 1)
  | false, false => none

/-- The greatest `e` with `10 ^ e ≤ num / den`, searched downward from `e + steps`. -/
def floorLog10From (num den : Nat) (e : Int) : Nat → Int
  | 0 => e
  | steps + 1 =>
    let top := e + (steps + 1 : Nat)
    let reached :=
      if 0 ≤ top then den * powTen top.toNat ≤ num else den ≤ num * powTen (-top).toNat
    if reached then top else floorLog10From num den e steps

/-- A decimal numeral: the digits without trailing zeros, and the power of ten that the first
digit stands for. -/
structure Decimal where
  digits : List Char
  power : Int
deriving DecidableEq, Repr

/-- Drops the trailing zeros of a numeral, one digit always staying. -/
def dropTrailingZeros (digits : List Char) : List Char :=
  match (digits.reverse.dropWhile (· == '0')).reverse with
  | [] => ['0']
  | kept => kept

/-- The first grid, coarse to fine, that has a point in the interval. The next grid has `count`
digits and `left` grids remain after it. -/
def Interval.shortestFrom (i : Interval) (power : Int) (count : Nat) : Nat → Decimal
  | 0 => ⟨['0'], 0⟩
  | left + 1 =>
    let place := power - (count - 1 : Nat)
    match i.onGrid? (powTen place.toNat) (powTen (-place).toNat) with
    | some n =>
      let digits := Nat.toDigits 10 n
      ⟨dropTrailingZeros digits, place + (digits.length - 1 : Nat)⟩
    | none => i.shortestFrom power (count + 1) left

/-- The shortest numeral that reads back as the magnitude of a double. -/
def shortest (d : Double) : Decimal :=
  if d.isZero then ⟨['0'], 0⟩
  else
    let i := d.interval
    i.shortestFrom (floorLog10From i.value i.den (-325) 634) 1 17

/-- A numeral with its point, no exponent. -/
def Decimal.positional (n : Decimal) : List Char :=
  if 0 ≤ n.power then
    let whole := n.power.toNat + 1
    let fraction := n.digits.drop whole
    n.digits.take whole ++ List.replicate (whole - n.digits.length) '0' ++ ['.'] ++
      (if fraction.isEmpty then ['0'] else fraction)
  else
    ['0', '.'] ++ List.replicate ((-n.power).toNat - 1) '0' ++ n.digits

/-- A numeral with one digit before the point and a signed exponent. -/
def Decimal.exponential (n : Decimal) : List Char :=
  let fraction := n.digits.drop 1
  n.digits.take 1 ++ (if fraction.isEmpty then [] else '.' :: fraction) ++
    ['e', if n.power < 0 then '-' else '+'] ++ Nat.toDigits 10 n.power.natAbs

/-- Positional text serves magnitudes from `0.00001` up to `10 ^ 16`. -/
def Decimal.text (n : Decimal) : List Char :=
  if -5 ≤ n.power ∧ n.power < 16 then n.positional else n.exponential

/-- The text of a double. -/
def text (d : Double) : String :=
  String.ofList ((if d.negative then ['-'] else []) ++ d.shortest.text)

end Double

end DocSelect
