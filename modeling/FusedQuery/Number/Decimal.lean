/-
  FusedQuery/Number/Decimal.lean
  ==============================
  **The shortest decimal text of a number.**

  A finite number stands for `m * 2 ^ q`.  The reals that round to it form an interval around
  it, and every decimal inside reads back as the same number.  The text uses the coarsest grid
  `10 ^ p` with a point in that interval, hence the fewest digits, and on that grid the point
  nearest to the number (of two equally near, the greater one).

  All comparisons are between natural numbers: the value and the ends of the interval are kept
  as multiples of a common power of two, a quarter of the last place.  Digits are written
  positionally, never with an exponent.
-/
import FusedQuery.Number.Basic

namespace FusedQuery.Number

/-! ### The interval of a number -/

/-- A positive real `value * 2 ^ scale` and the interval `[low, high] * 2 ^ scale` around it;
    `closed` tells whether the ends belong to it. -/
structure Interval where
  low : Nat
  value : Nat
  high : Nat
  scale : Int
  closed : Bool
deriving DecidableEq, Repr

/-- The reals that round to the number of this finite magnitude.  Below a power of two the
    numbers lie twice as dense, so the lower end is nearer there.  An end lies halfway to a
    neighbour and rounds to the even one of the two. -/
def interval (magnitude : Nat) : Interval :=
  let exponent := magnitude >>> 52
  let fraction := magnitude % (1 <<< 52)
  let significand := if exponent = 0 then fraction else (1 <<< 52) + fraction
  let lastPlace : Int := (max exponent 1 : Nat) - 1075
  { low := 4 * significand - (if fraction = 0 ∧ 1 < exponent then 1 else 2)
    value := 4 * significand
    high := 4 * significand + 2
    scale := lastPlace - 2
    closed := significand % 2 = 0 }

/-! ### The coarsest decimal grid -/

structure Decimal where
  digits : Nat
  exponent : Int
deriving DecidableEq, Repr

/-- `n * 2 ^ i / 10 ^ p` as a numerator, over `gridDenominator i p`. -/
def gridNumerator (n : Nat) (scale exponent : Int) : Nat :=
  (n <<< scale.toNat) * Nat.pow 10 (-exponent).toNat

def gridDenominator (scale exponent : Int) : Nat :=
  (1 <<< (-scale).toNat) * Nat.pow 10 exponent.toNat

/-- The point of the grid `10 ^ exponent` that lies in the interval and nearest to the value,
    if one lies in it.  Only the two neighbours of the value can be that point. -/
def pointOnGrid? (r : Interval) (exponent : Int) : Option Decimal :=
  let divisor := gridDenominator r.scale exponent
  let low := gridNumerator r.low r.scale exponent
  let value := gridNumerator r.value r.scale exponent
  let high := gridNumerator r.high r.scale exponent
  let floor := value / divisor
  let lowerFits := if r.closed then low ≤ floor * divisor else low < floor * divisor
  let upperFits := if r.closed then (floor + 1) * divisor ≤ high else (floor + 1) * divisor < high
  if lowerFits ∧ (¬ upperFits ∨ 2 * value < (2 * floor + 1) * divisor) then some ⟨floor, exponent⟩
  else if upperFits then some ⟨floor + 1, exponent⟩
  else none

/-- The first grid with a point in the interval, from `10 ^ exponent` downwards, looking at
    `fuel` grids. -/
def coarsestPoint (r : Interval) : (fuel : Nat) → (exponent : Int) → Decimal
  | 0, exponent => ⟨0, exponent⟩
  | fuel + 1, exponent =>
    match pointOnGrid? r exponent with
    | some d => d
    | none => coarsestPoint r fuel (exponent - 1)

/-- The shortest decimal that reads back as the number of this positive finite magnitude.
    The search starts at the first power of ten above the value; the finest interval is wider
    than `10 ^ -324`, so it ends there at the latest. -/
def shortestDecimal (magnitude : Nat) : Decimal :=
  let r := interval magnitude
  let whole := (r.value <<< r.scale.toNat) >>> (-r.scale).toNat
  let start := (Nat.toDigits 10 whole).length
  coarsestPoint r (start + 325) start

/-! ### Text -/

/-- The positional text of a decimal: zeros fill the places that its digits do not reach. -/
def Decimal.text (d : Decimal) : String :=
  let digits := Nat.toDigits 10 d.digits
  if 0 ≤ d.exponent then String.ofList (digits ++ List.replicate d.exponent.toNat '0')
  else
    let places := (-d.exponent).toNat
    let padded := List.replicate (places + 1 - digits.length) '0' ++ digits
    let whole := padded.length - places
    String.ofList (padded.take whole ++ '.' :: padded.drop whole)

/-- The text of a number: `NaN` without a sign, `inf`, or the shortest decimal, with a minus
    sign wherever the sign bit is set (so `-0`). -/
def text (n : Number) : String :=
  if n.isNaN then "NaN"
  else
    let unsigned :=
      if n.isInfinite then "inf"
      else if n.magnitude = 0 then "0"
      else (shortestDecimal n.magnitude).text
    if n.negative then "-" ++ unsigned else unsigned

end FusedQuery.Number
