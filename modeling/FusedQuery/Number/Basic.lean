/-
  FusedQuery/Number/Basic.lean
  ============================
  **Binary64 numbers as bit patterns.**

  A number is the 64 bits of a double-precision float: a sign bit, eleven exponent bits and
  fifty-two fraction bits.  Everything here is decided on the bits read as natural numbers,
  because that is enough: for numbers of one sign the order of the values is the order of the
  low 63 bits (the `magnitude`), so

    * `ordinal` (the magnitude with its sign, both zeros at 0) carries equality and `<`,
    * `place` (which also parts -0 from 0 and gives every NaN a place) carries the total order.

  No arithmetic is needed by a query, and none is defined.
-/

namespace FusedQuery

/-- A double-precision floating-point number, given by its bits. -/
structure Number where
  bits : UInt64
deriving DecidableEq, Repr

namespace Number

/-! ### Parts of the bit pattern -/

def negative (n : Number) : Bool := decide (1 <<< 63 ≤ n.bits.toNat)

/-- All bits but the sign, as a natural number. -/
def magnitude (n : Number) : Nat := n.bits.toNat % (1 <<< 63)

/-- The magnitude of the infinities: every exponent bit set and an empty fraction. -/
def infiniteMagnitude : Nat := 2047 <<< 52

/-- Above the infinities lie the patterns that are not a number. -/
def isNaN (n : Number) : Bool := decide (infiniteMagnitude < n.magnitude)

def isInfinite (n : Number) : Bool := decide (n.magnitude = infiniteMagnitude)

def ofParts (negative : Bool) (magnitude : Nat) : Number :=
  ⟨UInt64.ofNat ((if negative then 1 <<< 63 else 0) + magnitude)⟩

def zero : Number := ofParts false 0

/-- The not-a-number with a clear sign and only the top fraction bit set. -/
def nan : Number := ofParts false (infiniteMagnitude + (1 <<< 51))

/-! ### Equality and order -/

/-- The magnitude with its sign.  On numbers other than NaN it grows with the value, and
    it is 0 exactly at the two zeros. -/
def ordinal (n : Number) : Int := if n.negative then -(n.magnitude : Int) else n.magnitude

/-- Numeric equality: the zeros are equal, and NaN equals nothing. -/
def equal (a b : Number) : Bool := !a.isNaN && !b.isNaN && decide (a.ordinal = b.ordinal)

/-- Numeric order: false as soon as a NaN takes part. -/
def below (a b : Number) : Bool := !a.isNaN && !b.isNaN && decide (a.ordinal < b.ordinal)

/-- The place of a bit pattern in the total order: NaNs with the sign set, then the numbers
    from -∞ up, with -0 just under 0, then NaNs with the sign clear. -/
def place (n : Number) : Int := if n.negative then -(n.magnitude : Int) - 1 else n.magnitude

def order (a b : Number) : Ordering := compare a.place b.place

/-- One representative for all numbers that a lookup does not tell apart: the zeros become 0
    and the NaNs become `nan`. -/
def folded (n : Number) : Number :=
  if n.magnitude = 0 then zero else if n.isNaN then nan else n

end Number

end FusedQuery
