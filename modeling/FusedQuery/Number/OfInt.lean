/-
  FusedQuery/Number/OfInt.lean
  ============================
  **The number nearest to an integer.**

  An integer of more than 53 bits has no exact double-precision form; it rounds to the nearest
  one, and from halfway between two to the one with the even last bit.  The carry out of the
  fraction needs no case of its own: adding it to the exponent field is what it means.
-/
import FusedQuery.Number.Basic

namespace FusedQuery.Number

/-- `n / 2 ^ k` rounded to the nearest natural number, halves to the even neighbour. -/
def roundShift (n k : Nat) : Nat :=
  let quotient := n >>> k
  let remainder := n % (1 <<< k)
  let half := (1 <<< k) / 2
  if remainder < half || k = 0 then quotient
  else if half < remainder then quotient + 1
  else quotient + quotient % 2

def magnitudeOfNat (n : Nat) : Nat :=
  if n = 0 then 0
  else
    let exponent := n.log2
    let significand :=
      if exponent ≤ 52 then n <<< (52 - exponent) else roundShift n (exponent - 52)
    min (((exponent + 1022) <<< 52) + significand) infiniteMagnitude

/-- The number nearest to an integer; zero is the positive one. -/
def ofInt (i : Int) : Number := ofParts (decide (i < 0)) (magnitudeOfNat i.natAbs)

end FusedQuery.Number
