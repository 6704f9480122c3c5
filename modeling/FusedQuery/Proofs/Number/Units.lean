/-
  FusedQuery/Proofs/Number/Units.lean
  ===================================
  **What number a bit pattern stands for.**

  Every finite number is a whole multiple of the least positive one, 2^-1074, so its value is an
  integer in these units (`units`): the fraction, with the leading bit that an exponent of 0 does
  not have, shifted by the exponent.  The infinities come out as ±2^1024, beyond all finite ones.

  The units grow with the magnitude (`unitsOf_strictMono`), so comparing ordinals is comparing
  values (`ordinal_eq_iff_units_eq`, `ordinal_lt_iff_units_lt`).  Integers of up to 53 bits keep their value when they
  become numbers (`units_ofInt`).
-/
import FusedQuery.Number.OfInt
import FusedQuery.Proofs.Number.Parts
import Mathlib.Algebra.Group.Nat.Defs
import Mathlib.Order.Monotone.Basic

namespace FusedQuery.Number

variable {m n : Number}

/-- The value of a finite magnitude, in units of 2^-1074. -/
def unitsOf (magnitude : Nat) : Nat :=
  let exponent := magnitude / 2 ^ 52
  let fraction := magnitude % 2 ^ 52
  if exponent = 0 then fraction else (2 ^ 52 + fraction) * 2 ^ (exponent - 1)

def units (n : Number) : Int :=
  if n.negative then -(unitsOf n.magnitude : Int) else unitsOf n.magnitude

/-- The units that make up the number one. -/
def unitsOfOne : Nat := 2 ^ 1074

/-! ### Values grow with magnitudes -/

theorem unitsOf_subnormal {fraction : Nat} (h : fraction < 2 ^ 52) :
    unitsOf fraction = fraction := by
  rw [unitsOf, Nat.div_eq_of_lt h, if_pos rfl, Nat.mod_eq_of_lt h]

theorem unitsOf_normal {exponent fraction : Nat} (h : fraction < 2 ^ 52) :
    unitsOf ((exponent + 1) * 2 ^ 52 + fraction) = (2 ^ 52 + fraction) * 2 ^ exponent := by
  have hexponent : ((exponent + 1) * 2 ^ 52 + fraction) / 2 ^ 52 = exponent + 1 := by omega
  have hfraction : ((exponent + 1) * 2 ^ 52 + fraction) % 2 ^ 52 = fraction := by omega
  simp only [unitsOf, hexponent, hfraction]
  rw [if_neg (Nat.succ_ne_zero exponent), Nat.add_sub_cancel]

/-- The successor of a magnitude has the next fraction, or, where the fraction is full, the next
    exponent. -/
theorem unitsOf_lt_succ (magnitude : Nat) : unitsOf magnitude < unitsOf (magnitude + 1) := by
  obtain ⟨exponent, fraction, hfraction, rfl⟩ :
      ∃ exponent fraction, fraction < 2 ^ 52 ∧ magnitude = exponent * 2 ^ 52 + fraction :=
    ⟨magnitude / 2 ^ 52, magnitude % 2 ^ 52, Nat.mod_lt _ (by decide), by omega⟩
  cases exponent with
  | zero =>
    rw [Nat.zero_mul, Nat.zero_add, unitsOf_subnormal hfraction]
    by_cases hfull : fraction + 1 < 2 ^ 52
    · rw [unitsOf_subnormal hfull]
      omega
    · have hnext : fraction + 1 = (0 + 1) * 2 ^ 52 + 0 := by omega
      rw [hnext, unitsOf_normal (by decide)]
      omega
  | succ exponent =>
    have hpositive : 0 < 2 ^ exponent := Nat.two_pow_pos exponent
    rw [unitsOf_normal hfraction, Nat.add_assoc]
    by_cases hfull : fraction + 1 < 2 ^ 52
    · rw [unitsOf_normal hfull]
      exact Nat.mul_lt_mul_of_pos_right (by omega) hpositive
    · have hnext : (exponent + 1) * 2 ^ 52 + (fraction + 1) = (exponent + 1 + 1) * 2 ^ 52 + 0 := by
        omega
      have hdouble : 2 ^ (exponent + 1) = 2 * 2 ^ exponent := Nat.pow_succ'
      rw [hnext, unitsOf_normal (by decide), hdouble, ← Nat.mul_assoc]
      exact Nat.mul_lt_mul_of_pos_right (by omega) hpositive

theorem unitsOf_strictMono : StrictMono unitsOf := strictMono_nat_of_lt_succ unitsOf_lt_succ

theorem unitsOf_eq_zero_iff {magnitude : Nat} : unitsOf magnitude = 0 ↔ magnitude = 0 := by
  have hzero : unitsOf 0 = 0 := rfl
  rw [← hzero, unitsOf_strictMono.injective.eq_iff, hzero]

theorem ordinal_eq_iff_units_eq : m.ordinal = n.ordinal ↔ m.units = n.units := by
  have hinj := unitsOf_strictMono.injective.eq_iff (a := m.magnitude) (b := n.magnitude)
  have hm : unitsOf m.magnitude = 0 ↔ m.magnitude = 0 := unitsOf_eq_zero_iff
  have hn : unitsOf n.magnitude = 0 ↔ n.magnitude = 0 := unitsOf_eq_zero_iff
  unfold ordinal units
  cases m.negative <;> cases n.negative <;>
    simp only [Bool.false_eq_true, ↓reduceIte] <;> omega

/-- **Numbers are equal if neither is NaN and both have one value.** -/
theorem equal_iff_units : m.equal n = true ↔
    m.isNaN = false ∧ n.isNaN = false ∧ m.units = n.units := by
  rw [equal_iff, ordinal_eq_iff_units_eq]

theorem ordinal_lt_iff_units_lt : m.ordinal < n.ordinal ↔ m.units < n.units := by
  have hlt := unitsOf_strictMono.lt_iff_lt (a := m.magnitude) (b := n.magnitude)
  have hgt := unitsOf_strictMono.lt_iff_lt (a := n.magnitude) (b := m.magnitude)
  have hm : unitsOf m.magnitude = 0 ↔ m.magnitude = 0 := unitsOf_eq_zero_iff
  have hn : unitsOf n.magnitude = 0 ↔ n.magnitude = 0 := unitsOf_eq_zero_iff
  unfold ordinal units
  cases m.negative <;> cases n.negative <;>
    simp only [Bool.false_eq_true, ↓reduceIte] <;> omega

/-- **A number is below another if neither is NaN and its value is less.** -/
theorem below_iff_units : m.below n = true ↔
    m.isNaN = false ∧ n.isNaN = false ∧ m.units < n.units := by
  rw [below_iff, ordinal_lt_iff_units_lt]

/-! ### Integers -/

theorem parts_ofParts (negative : Bool) {magnitude : Nat} (h : magnitude < 2 ^ 63) :
    (ofParts negative magnitude).negative = negative ∧
      (ofParts negative magnitude).magnitude = magnitude := by
  have hbits : (ofParts negative magnitude).bits.toNat =
      (if negative then 2 ^ 63 else 0) + magnitude := by
    apply UInt64.toNat_ofNat_of_lt'
    cases negative <;> simp only [UInt64.size, Bool.false_eq_true, ↓reduceIte] <;> omega
  simp only [Number.negative, Number.magnitude, hbits, Nat.reduceShiftLeft]
  cases negative <;> simp <;> omega

/-- Shifted to 53 bits, an integer of no more bits is the leading bit and a fraction. -/
theorem exists_fraction {i : Nat} (hpositive : i ≠ 0) (h : i < 2 ^ 53) :
    ∃ fraction, fraction < 2 ^ 52 ∧ i * 2 ^ (52 - i.log2) = 2 ^ 52 + fraction := by
  have hlog : i.log2 ≤ 52 := Nat.le_of_lt_succ ((Nat.log2_lt hpositive).mpr h)
  have hlow : 2 ^ 52 ≤ i * 2 ^ (52 - i.log2) :=
    calc 2 ^ 52 = 2 ^ i.log2 * 2 ^ (52 - i.log2) := by rw [← Nat.pow_add, Nat.add_sub_cancel' hlog]
      _ ≤ i * 2 ^ (52 - i.log2) := Nat.mul_le_mul_right _ (Nat.log2_self_le hpositive)
  have hhigh : i * 2 ^ (52 - i.log2) < 2 ^ 53 :=
    calc i * 2 ^ (52 - i.log2) < 2 ^ (i.log2 + 1) * 2 ^ (52 - i.log2) :=
          Nat.mul_lt_mul_of_pos_right Nat.lt_log2_self (Nat.two_pow_pos _)
      _ = 2 ^ 53 := by rw [← Nat.pow_add]; congr 1; omega
  exact ⟨i * 2 ^ (52 - i.log2) - 2 ^ 52, by omega, by omega⟩

theorem magnitudeOfNat_eq {i fraction : Nat} (hpositive : i ≠ 0) (h : i < 2 ^ 53)
    (hfraction : fraction < 2 ^ 52) (hshifted : i * 2 ^ (52 - i.log2) = 2 ^ 52 + fraction) :
    magnitudeOfNat i = (i.log2 + 1022 + 1) * 2 ^ 52 + fraction := by
  have hlog : i.log2 ≤ 52 := Nat.le_of_lt_succ ((Nat.log2_lt hpositive).mpr h)
  rw [magnitudeOfNat, if_neg hpositive]
  simp only [if_pos hlog, Nat.shiftLeft_eq, hshifted, infiniteMagnitude]
  omega

/-- An integer of up to 53 bits has a finite magnitude, of its own value. -/
theorem unitsOf_magnitudeOfNat {i : Nat} (h : i < 2 ^ 53) :
    magnitudeOfNat i < infiniteMagnitude ∧ unitsOf (magnitudeOfNat i) = i * unitsOfOne := by
  by_cases hpositive : i = 0
  · subst hpositive
    exact ⟨by decide, (Nat.zero_mul unitsOfOne).symm⟩
  · obtain ⟨fraction, hfraction, hshifted⟩ := exists_fraction hpositive h
    have hlog : i.log2 ≤ 52 := Nat.le_of_lt_succ ((Nat.log2_lt hpositive).mpr h)
    have hexponent : 52 - i.log2 + (i.log2 + 1022) = 1074 := by omega
    have hone : 2 ^ (52 - i.log2 + (i.log2 + 1022)) = unitsOfOne := by
      rw [hexponent, unitsOfOne]
    rw [magnitudeOfNat_eq hpositive h hfraction hshifted]
    constructor
    · simp only [infiniteMagnitude, Nat.shiftLeft_eq]
      omega
    · rw [unitsOf_normal hfraction, ← hshifted, Nat.mul_assoc, ← Nat.pow_add, hone]

theorem units_ofInt {i : Int} (h : i.natAbs < 2 ^ 53) :
    (ofInt i).isNaN = false ∧ (ofInt i).units = i * unitsOfOne := by
  obtain ⟨hfinite, hunits⟩ := unitsOf_magnitudeOfNat h
  have hbound : magnitudeOfNat i.natAbs < 2 ^ 63 := Nat.lt_trans hfinite (by decide)
  obtain ⟨hnegative, hmagnitude⟩ := parts_ofParts (decide (i < 0)) hbound
  constructor
  · rw [Bool.eq_false_iff, Ne, isNaN_iff, ofInt, hmagnitude]
    omega
  · rw [units, ofInt, hnegative, hmagnitude, hunits, Int.natCast_mul]
    by_cases hsign : i < 0
    · rw [decide_eq_true hsign, if_pos rfl, Int.ofNat_natAbs_of_nonpos (Int.le_of_lt hsign),
        Int.neg_mul, Int.neg_neg]
    · rw [decide_eq_false hsign, if_neg Bool.false_ne_true,
        Int.natAbs_of_nonneg (Int.not_lt.mp hsign)]

end FusedQuery.Number
