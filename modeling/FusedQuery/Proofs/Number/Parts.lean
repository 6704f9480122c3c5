/-
  FusedQuery/Proofs/Number/Parts.lean
  ===================================
  **A number is its sign and its magnitude.**

  What the two parts of a bit pattern do not show, nothing shows (`ext_parts`).  From that:

    * the places are the total order that IEEE 754 gives to bit patterns
      (`isTotalOrder_order`),
    * folding identifies the numbers that are equal, all NaNs, and nothing else
      (`folded_eq_iff`).
-/
import FusedQuery.Number.Basic

namespace FusedQuery.Number

variable {m n : Number}

/-! ### Parts -/

theorem toNat_bits (n : Number) :
    n.bits.toNat = (if n.negative then 1 <<< 63 else 0) + n.magnitude := by
  have hbits := n.bits.toNat_lt
  simp only [negative, magnitude, decide_eq_true_eq, Nat.reduceShiftLeft]
  split <;> omega

theorem ext_parts (hsign : m.negative = n.negative) (hmagnitude : m.magnitude = n.magnitude) :
    m = n := by
  have hbits : m.bits.toNat = n.bits.toNat := by
    rw [toNat_bits, toNat_bits, hsign, hmagnitude]
  cases m
  cases n
  exact congrArg Number.mk (UInt64.toNat_inj.mp hbits)

theorem place_of_negative (h : n.negative = true) : n.place = -(n.magnitude : Int) - 1 := by
  rw [place, if_pos h]

theorem place_of_not_negative (h : n.negative = false) : n.place = n.magnitude := by
  rw [place, h, if_neg Bool.false_ne_true]

theorem ordinal_of_negative (h : n.negative = true) : n.ordinal = -(n.magnitude : Int) := by
  rw [ordinal, if_pos h]

theorem ordinal_of_not_negative (h : n.negative = false) : n.ordinal = n.magnitude := by
  rw [ordinal, h, if_neg Bool.false_ne_true]

theorem ordinal_eq_zero_iff : n.ordinal = 0 ↔ n.magnitude = 0 := by
  cases h : n.negative with
  | true =>
    rw [ordinal_of_negative h]
    omega
  | false =>
    rw [ordinal_of_not_negative h]
    omega

theorem isNaN_iff : n.isNaN = true ↔ infiniteMagnitude < n.magnitude := decide_eq_true_iff

/-- The sign of a place is the sign of its number, and then the magnitude is the rest of it. -/
theorem place_inj : m.place = n.place ↔ m = n := by
  constructor
  · intro h
    cases hm : m.negative with
    | true =>
      cases hn : n.negative with
      | true =>
        rw [place_of_negative hm, place_of_negative hn] at h
        exact ext_parts (hm.trans hn.symm) (by omega)
      | false =>
        rw [place_of_negative hm, place_of_not_negative hn] at h
        omega
    | false =>
      cases hn : n.negative with
      | true =>
        rw [place_of_not_negative hm, place_of_negative hn] at h
        omega
      | false =>
        rw [place_of_not_negative hm, place_of_not_negative hn] at h
        exact ext_parts (hm.trans hn.symm) (by omega)
  · rintro rfl
    rfl

/-! ### The total order -/

theorem order_eq_lt_iff : m.order n = .lt ↔ m.place < n.place := Int.compare_eq_lt

/-- The total order that IEEE 754 puts on bit patterns.  It goes by value where there is one,
    parts the two zeros, and has the NaNs on both sides of all numbers, those of a set sign
    first.  NaNs of one sign go outward by their payload. -/
structure IsTotalOrder (order : Number → Number → Ordering) : Prop where
  below {m n : Number} : m.below n = true → order m n = .lt
  zeros {m n : Number} : m.magnitude = 0 → n.magnitude = 0 → m.negative = true →
    n.negative = false → order m n = .lt
  first {m n : Number} : m.isNaN = true → m.negative = true →
    n.isNaN = false ∨ n.negative = false → order m n = .lt
  last {m n : Number} : n.isNaN = true → n.negative = false →
    m.isNaN = false ∨ m.negative = true → order m n = .lt
  payloads {m n : Number} : m.isNaN = true → n.isNaN = true → m.negative = n.negative →
    (order m n = .lt ↔
      if m.negative then n.magnitude < m.magnitude else m.magnitude < n.magnitude)
  eq_iff {m n : Number} : order m n = .eq ↔ m = n

/-- A value below another has its place below the other's.  The zeros are the only numbers of
    one value and two places. -/
theorem place_lt_of_ordinal_lt (h : m.ordinal < n.ordinal) : m.place < n.place := by
  cases hm : m.negative with
  | true =>
    rw [ordinal_of_negative hm] at h
    rw [place_of_negative hm]
    cases hn : n.negative with
    | true =>
      rw [ordinal_of_negative hn] at h
      rw [place_of_negative hn]
      omega
    | false =>
      rw [place_of_not_negative hn]
      omega
  | false =>
    rw [ordinal_of_not_negative hm] at h
    rw [place_of_not_negative hm]
    cases hn : n.negative with
    | true =>
      rw [ordinal_of_negative hn] at h
      omega
    | false =>
      rw [ordinal_of_not_negative hn] at h
      rw [place_of_not_negative hn]
      exact h

theorem isTotalOrder_order : IsTotalOrder Number.order where
  below := by
    intro m n h
    simp only [Number.below, Bool.and_eq_true, decide_eq_true_eq] at h
    exact order_eq_lt_iff.mpr (place_lt_of_ordinal_lt h.2)
  zeros := by
    intro m n _ _ hm hn
    rw [order_eq_lt_iff, place_of_negative hm, place_of_not_negative hn]
    omega
  first := by
    intro m n hnan hm hn
    rw [order_eq_lt_iff, place_of_negative hm]
    rw [isNaN_iff] at hnan
    cases hsign : n.negative with
    | true =>
      rw [hsign, Bool.eq_false_iff, Ne, isNaN_iff] at hn
      rw [place_of_negative hsign]
      simp only [Bool.true_eq_false, or_false] at hn
      omega
    | false =>
      rw [place_of_not_negative hsign]
      omega
  last := by
    intro m n hnan hn hm
    rw [order_eq_lt_iff, place_of_not_negative hn]
    rw [isNaN_iff] at hnan
    cases hsign : m.negative with
    | true =>
      rw [place_of_negative hsign]
      omega
    | false =>
      rw [hsign, Bool.eq_false_iff, Ne, isNaN_iff] at hm
      rw [place_of_not_negative hsign]
      simp only [Bool.false_eq_true, or_false] at hm
      omega
  payloads := by
    intro m n _ _ hsign
    rw [order_eq_lt_iff]
    cases hm : m.negative with
    | true =>
      rw [place_of_negative hm, place_of_negative (hsign.symm.trans hm), if_pos rfl]
      omega
    | false =>
      rw [place_of_not_negative hm, place_of_not_negative (hsign.symm.trans hm),
        if_neg Bool.false_ne_true]
      omega
  eq_iff := by
    intro m n
    rw [order, Int.compare_eq_eq, place_inj]

/-! ### Folding -/

theorem equal_iff : m.equal n = true ↔
    m.isNaN = false ∧ n.isNaN = false ∧ m.ordinal = n.ordinal := by
  simp only [equal, Bool.and_eq_true, Bool.not_eq_true', decide_eq_true_eq, and_assoc]

theorem below_iff : m.below n = true ↔
    m.isNaN = false ∧ n.isNaN = false ∧ m.ordinal < n.ordinal := by
  simp only [below, Bool.and_eq_true, Bool.not_eq_true', decide_eq_true_eq, and_assoc]

theorem equal_self_iff : n.equal n = true ↔ n.isNaN = false := by
  rw [equal_iff]
  exact ⟨fun h => h.1, fun h => ⟨h, h, rfl⟩⟩

theorem equal_comm (m n : Number) : m.equal n = n.equal m := by
  rw [Bool.eq_iff_iff, equal_iff, equal_iff, eq_comm (a := m.ordinal), and_left_comm]

theorem equal_trans {k : Number} (h : k.equal m = true) (h' : m.equal n = true) :
    k.equal n = true := by
  rw [equal_iff] at h h' ⊢
  exact ⟨h.1, h'.2.1, h.2.2.trans h'.2.2⟩

theorem folded_of_zero (h : n.magnitude = 0) : n.folded = zero := by rw [folded, if_pos h]

theorem folded_of_isNaN (h : n.isNaN = true) : n.folded = nan := by
  have hmagnitude : n.magnitude ≠ 0 := by
    rw [isNaN_iff] at h
    omega
  rw [folded, if_neg hmagnitude, if_pos h]

theorem folded_of_value (hzero : n.magnitude ≠ 0) (hnan : n.isNaN = false) : n.folded = n := by
  rw [folded, if_neg hzero, hnan, if_neg Bool.false_ne_true]

theorem magnitude_folded_eq_zero_iff : n.folded.magnitude = 0 ↔ n.magnitude = 0 := by
  by_cases hzero : n.magnitude = 0
  · rw [folded_of_zero hzero]
    exact iff_of_true (by decide) hzero
  · cases hnan : n.isNaN with
    | true =>
      rw [folded_of_isNaN hnan]
      exact iff_of_false (by decide) hzero
    | false => rw [folded_of_value hzero hnan]

theorem isNaN_folded : n.folded.isNaN = n.isNaN := by
  by_cases hzero : n.magnitude = 0
  · have hnan : n.isNaN = false := by
      rw [Bool.eq_false_iff, Ne, isNaN_iff]
      omega
    rw [folded_of_zero hzero, hnan]
    decide
  · cases hnan : n.isNaN with
    | true =>
      rw [folded_of_isNaN hnan]
      decide
    | false => rw [folded_of_value hzero hnan, hnan]

theorem folded_folded : n.folded.folded = n.folded := by
  by_cases hzero : n.magnitude = 0
  · rw [folded_of_zero hzero]
    decide
  · cases hnan : n.isNaN with
    | true =>
      rw [folded_of_isNaN hnan]
      decide
    | false => rw [folded_of_value hzero hnan, folded_of_value hzero hnan]

/-- Off the zeros and the NaNs, numbers of one value are one. -/
theorem eq_of_ordinal_eq (hzero : m.magnitude ≠ 0) (h : m.ordinal = n.ordinal) : m = n := by
  cases hm : m.negative with
  | true =>
    rw [ordinal_of_negative hm] at h
    cases hn : n.negative with
    | true =>
      rw [ordinal_of_negative hn] at h
      exact ext_parts (hm.trans hn.symm) (by omega)
    | false =>
      rw [ordinal_of_not_negative hn] at h
      omega
  | false =>
    rw [ordinal_of_not_negative hm] at h
    cases hn : n.negative with
    | true =>
      rw [ordinal_of_negative hn] at h
      omega
    | false =>
      rw [ordinal_of_not_negative hn] at h
      exact ext_parts (hm.trans hn.symm) (by omega)

/-- **Folding identifies equal numbers, NaNs with each other, and nothing else.** -/
theorem folded_eq_iff :
    m.folded = n.folded ↔ m.equal n = true ∨ m.isNaN = true ∧ n.isNaN = true := by
  rw [equal_iff]
  constructor
  · intro h
    have hsame : m.isNaN = n.isNaN := by rw [← isNaN_folded, h, isNaN_folded]
    cases hnan : m.isNaN with
    | true => exact Or.inr ⟨rfl, hsame.symm.trans hnan⟩
    | false =>
      refine Or.inl ⟨rfl, hsame.symm.trans hnan, ?_⟩
      have hzeros : m.magnitude = 0 ↔ n.magnitude = 0 := by
        rw [← magnitude_folded_eq_zero_iff, h, magnitude_folded_eq_zero_iff]
      by_cases hzero : m.magnitude = 0
      · rw [ordinal_eq_zero_iff.mpr hzero, ordinal_eq_zero_iff.mpr (hzeros.mp hzero)]
      · rw [folded_of_value hzero hnan,
          folded_of_value (mt hzeros.mpr hzero) (hsame.symm.trans hnan)] at h
        rw [h]
  · rintro (⟨hm, hn, hordinal⟩ | ⟨hm, hn⟩)
    · by_cases hzero : m.magnitude = 0
      · have hn0 : n.magnitude = 0 := by
          rw [← ordinal_eq_zero_iff, ← hordinal, ordinal_eq_zero_iff]
          exact hzero
        rw [folded_of_zero hzero, folded_of_zero hn0]
      · rw [eq_of_ordinal_eq hzero hordinal]
    · rw [folded_of_isNaN hm, folded_of_isNaN hn]

end FusedQuery.Number
