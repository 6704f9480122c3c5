/-
  FusedQuery/Proofs/Key/Identity.lean
  ===================================
  **Which values share a key.**

  References have no key (`ofValue?_eq_none_iff`).  Plain values share one if they are the same,
  and besides, all NaNs share theirs, although none of them is the same as any
  (`ofValue?_eq_iff`).  A key read back as a value is one that has this key (`ofValue?_toValue`).
-/
import FusedQuery.Key
import FusedQuery.Proofs.Number.Units
import FusedQuery.Proofs.Value.Parts

namespace FusedQuery.Key

theorem ofValue?_eq_none_iff {v : Value} : ofValue? v = none ↔ v.isReference = true := by
  cases v <;> simp [ofValue?, Value.isReference, Value.kind, Kind.isReference]

theorem ofValue?_eq_iff {v w : Value} {k l : Key} (hk : ofValue? v = some k)
    (hl : ofValue? w = some l) :
    k = l ↔ v.same w = true ∨ v.isNaN = true ∧ w.isNaN = true := by
  cases v <;> cases hk <;> cases w <;> cases hl
  case number.refl.number.refl m n =>
    rw [ofNumber, ofNumber, number.injEq, Number.folded_eq_iff]
    rfl
  all_goals simp [Value.same, Value.isNaN, ofNumber]

/-! ### Keys as values -/

theorem ofValue?_toValue {v : Value} {k : Key} (hk : ofValue? v = some k) :
    ofValue? k.toValue = some k := by
  cases v <;> cases hk
  case number.refl n => exact congrArg (some ∘ number) Number.folded_folded
  all_goals rfl

/-- A value read back from a key is, but for NaN, the same as any that has the key. -/
theorem toValue_same {v : Value} {k : Key} (hk : ofValue? v = some k) :
    k.toValue.same v = true ∨ k.toValue.isNaN = true ∧ v.isNaN = true :=
  (ofValue?_eq_iff (ofValue?_toValue hk) hk).mp rfl

/-- Two plain values have one key if they are the same, or both NaN. -/
theorem ofValue?_eq_ofValue?_iff {v w : Value} (hv : v.isReference = false)
    (hw : w.isReference = false) :
    ofValue? v = ofValue? w ↔ v.same w = true ∨ v.isNaN = true ∧ w.isNaN = true := by
  have hasKey : ∀ u : Value, u.isReference = false → ∃ k, ofValue? u = some k := by
    intro u hu
    rw [← Option.ne_none_iff_exists', Ne, ofValue?_eq_none_iff, hu]
    exact Bool.false_ne_true
  obtain ⟨k, hk⟩ := hasKey v hv
  obtain ⟨l, hl⟩ := hasKey w hw
  rw [← ofValue?_eq_iff hk hl, hk, hl, Option.some_inj]

/-- **A key stands for a plain value up to sameness, and all NaNs are one.**  A reference has no
    key.  Numbers are the same if neither is NaN and they have one value, so 64-bit patterns have
    one key if they have one value or none.  The key of a number, of an integer of 32 bits, of a
    text and of a truth value is the key of the value that it stands for. -/
theorem ofValue?_represents :
    (∀ v, ofValue? v = none ↔ v.kind = .list ∨ v.kind = .record ∨ v.kind = .func) ∧
    (∀ v w : Value, v.isReference = false → w.isReference = false →
      (ofValue? v = ofValue? w ↔ v.same w = true ∨ v.isNaN = true ∧ w.isNaN = true)) ∧
    (∀ m n : Number, (Value.number m).same (.number n) = true ↔
      m.isNaN = false ∧ n.isNaN = false ∧ m.units = n.units) ∧
    (∀ v k, ofValue? v = some k →
      (k.toValue.same v = true ∨ k.toValue.isNaN = true ∧ v.isNaN = true) ∧
        ofValue? k.toValue = some k) ∧
    (∀ n, some (ofNumber n) = ofValue? (.number n)) ∧
    (∀ i : Int32, some (ofInt i.toInt) = ofValue? (.number (.ofInt i.toInt)) ∧
      (Number.ofInt i.toInt).isNaN = false ∧
      (Number.ofInt i.toInt).units = i.toInt * Number.unitsOfOne) ∧
    (∀ s, some (ofText s) = ofValue? (.text s)) ∧
    ∀ b, some (ofBool b) = ofValue? (.bool b) := by
  refine ⟨?_, ?_, fun m n => Number.equal_iff_units, ?_, fun _ => rfl, ?_, fun _ => rfl,
    fun _ => rfl⟩
  · intro v
    cases v <;> simp [ofValue?, Value.kind]
  · intro v w
    exact ofValue?_eq_ofValue?_iff
  · intro v k hk
    exact ⟨toValue_same hk, ofValue?_toValue hk⟩
  · intro i
    have hlow := i.le_toInt
    have hhigh := i.toInt_lt
    exact ⟨rfl, Number.units_ofInt (by omega)⟩

/-- The two zeros, two NaNs of different sign, and the number 1 beside the text "1". -/
theorem ofValue?_represents_zeros :
    let negative := Value.number (.ofParts true 0)
    let nan := Value.number (.ofParts true (Number.infiniteMagnitude + 1))
    let one := Value.number (.ofInt 1)
    (negative.isReference = false ∧ (Value.number .zero).isReference = false ∧
      ofValue? negative = ofValue? (.number .zero)) ∧
      ofValue? nan = ofValue? (.number .nan) ∧ ofValue? one ≠ ofValue? (.text "1") ∧
      (ofValue? negative = some (.number .zero) ∧
        ofValue? (Key.number .zero).toValue = some (.number .zero)) := by
  intro negative nan one
  obtain ⟨-, hkeys, -, hback, -⟩ := ofValue?_represents
  have hzeros := (hkeys negative (.number .zero) rfl rfl).mpr (Or.inl (by decide))
  have hnans := (hkeys nan (.number .nan) rfl rfl).mpr (Or.inr (by decide))
  refine ⟨⟨rfl, rfl, hzeros⟩, hnans, ?_, hzeros, (hback negative _ hzeros).2⟩
  rw [Ne, hkeys one (.text "1") rfl rfl]
  decide

end FusedQuery.Key
