/-
  FusedQuery/Proofs/Meaning/Stages.lean
  =====================================
  **What each stage makes of a list.**

  One lemma a stage, by induction on the list.  Stages that carry a position or a count are
  taken in any state, as the induction needs them; the state enters as the part of the work that
  is done already.
-/
import FusedQuery.Proofs.Meaning.Sweep
import Mathlib.Algebra.Group.Nat.Defs

namespace FusedQuery

variable {σ : Type}

/-- The elements that repeat none of those kept before, of which `kept` are some. -/
def distinct (repeated : Value → Value → Bool) : (kept : List Value) → List Value → List Value
  | _, [] => []
  | kept, item :: rest =>
    if kept.any (repeated · item) then distinct repeated kept rest
    else item :: distinct repeated (kept ++ [item]) rest

/-- Whether an element repeats an earlier one: plain data by key, references as `eq` says. -/
def repeatedBy (eq : Value → Value → Bool) (earlier item : Value) : Bool :=
  match Key.ofValue? item with
  | some key => Key.ofValue? earlier = some key
  | none => (Key.ofValue? earlier).isNone && eq earlier item

namespace Stage

variable (w : World σ) (k : UInt64)

/-! ### Stages that look at one element alone -/

theorem sweep_of_forwardIf {stage : Stage σ} {p : Value → Bool}
    (h : ∀ item, stage.step { skipped := k } item w =
      ⟨.ok (.forwardIf (p item) item), stage, { skipped := k }, w⟩) (xs : List Value) :
    sweep w stage k xs = xs.filter p := by
  induction xs with
  | nil => rfl
  | cons x xs ih =>
    simp only [sweep, h, Step.out, Bool.false_eq_true, ↓reduceIte, ih]
    cases hp : p x with
    | false => simp [Flow.forwardIf, hp]
    | true => simp [Flow.forwardIf, hp]

theorem sweep_map (f : Value → Value) (xs : List Value) :
    sweep w (.map fun v => pure (f v)) k xs = xs.map f := by
  induction xs with
  | nil => rfl
  | cons x xs ih =>
    rw [List.map_cons, ← ih]
    rfl

theorem sweep_halt (xs : List Value) : sweep w .halt k xs = [] := by
  cases xs <;> rfl

theorem sweep_first (xs : List Value) : sweep w (.first none) k xs = xs.take 1 := by
  cases xs <;> rfl

theorem sweep_firstWhere (p : Value → Bool) (xs : List Value) :
    sweep w (.first (some fun v => pure (p v))) k xs = (xs.find? p).toList := by
  induction xs with
  | nil => rfl
  | cons x xs ih =>
    cases hp : p x with
    | true =>
      simp only [sweep, step, Act.run_pure, List.find?_cons, hp]
      rfl
    | false =>
      simp only [sweep, step, Act.run_pure, List.find?_cons, hp]
      exact ih

/-! ### Stages that count -/

theorem sweep_skip (count : UInt64) (xs : List Value) :
    sweep w (.skip count) k xs = xs.drop (count.toNat - k.toNat) := by
  induction xs generalizing k with
  | nil => simp [sweep]
  | cons x xs ih =>
    by_cases hlt : k < count
    · have hnat := UInt64.lt_iff_toNat_lt.mp hlt
      have hcount := @Control.toNat_countSkip { skipped := k } count hlt
      have hleft : count.toNat - k.toNat = count.toNat - (k.toNat + 1) + 1 := by omega
      have hrest := ih (Control.countSkip { skipped := k }).skipped
      rw [hcount] at hrest
      rw [hleft, List.drop_succ_cons, ← hrest]
      simp only [sweep, step, if_pos hlt, Step.out, List.nil_append]
      rfl
    · have hnat := UInt64.le_iff_toNat_le.mp (UInt64.not_lt.mp hlt)
      have hdone : count.toNat - k.toNat = 0 := by omega
      have hrest := ih k
      rw [hdone, List.drop_zero] at hrest ⊢
      simp only [sweep, step, if_neg hlt, Step.out, Bool.false_eq_true, ↓reduceIte, hrest,
        List.cons_append, List.nil_append]

theorem sweep_take (limit taken : UInt64) (xs : List Value) :
    sweep w (.take limit taken) k xs = xs.take (limit.toNat - taken.toNat) := by
  induction xs generalizing taken with
  | nil => simp [sweep]
  | cons x xs ih =>
    by_cases hle : limit ≤ taken
    · have hnat := UInt64.le_iff_toNat_le.mp hle
      have hdone : limit.toNat - taken.toNat = 0 := by omega
      rw [hdone, List.take_zero]
      simp only [sweep, step, if_pos hle, Step.out, Control.halt, ↓reduceIte, List.append_nil]
    · have hnat := UInt64.lt_iff_toNat_lt.mp (UInt64.not_le.mp hle)
      have hnext := toNat_succ_of_lt (UInt64.not_le.mp hle)
      have hleft : limit.toNat - taken.toNat = limit.toNat - (taken + 1).toNat + 1 := by omega
      rw [hleft, List.take_succ_cons, ← ih (taken + 1)]
      simp only [sweep, step, if_neg hle, Step.out, List.cons_append, List.nil_append]
      by_cases hlast : taken + 1 = limit
      · have hrest := ih (taken + 1)
        rw [hlast, Nat.sub_self, List.take_zero] at hrest
        simp only [if_pos hlast, Control.halt, ↓reduceIte]
        rw [hlast, hrest]
      · simp only [if_neg hlast, Bool.false_eq_true, ↓reduceIte]

/-- A slice behind its end hands on nothing. -/
theorem sweep_slice_of_le (start : UInt64) {bound pos : UInt64} (h : bound ≤ pos)
    (xs : List Value) : sweep w (.slice start bound pos) k xs = [] := by
  cases xs with
  | nil => rfl
  | cons x xs =>
    simp only [sweep, step, if_pos h, Step.out, Control.halt, ↓reduceIte, List.append_nil]

/-- One element of a slice that has not ended.  It may ask to stop after it; going on would make
    no difference. -/
theorem sweep_slice_cons (start : UInt64) {bound pos : UInt64} (h : ¬ bound ≤ pos) (x : Value)
    (xs : List Value) :
    sweep w (.slice start bound pos) k (x :: xs) =
      (if start ≤ pos then [x] else []) ++ sweep w (.slice start bound (pos + 1)) k xs := by
  have hstep : (Stage.slice start bound pos : Stage σ).step { skipped := k } x w =
      ⟨.ok (.forwardIf (start ≤ pos) x), .slice start bound (pos + 1),
        if bound ≤ pos + 1 then Control.halt { skipped := k } else { skipped := k }, w⟩ := by
    simp only [step, if_neg h]
  have hout : Step.out ((Stage.slice start bound pos : Stage σ).step { skipped := k } x w) =
      if start ≤ pos then [x] else [] := by
    rw [hstep]
    by_cases hstart : start ≤ pos
    · simp only [Step.out, Flow.forwardIf, hstart, decide_true, ↓reduceIte]
    · simp only [Step.out, Flow.forwardIf, hstart, decide_false, Bool.false_eq_true, ↓reduceIte]
  rw [sweep_cons, hout, Step.afterwards, hstep]
  by_cases hlast : bound ≤ pos + 1
  · simp only [if_pos hlast, Control.halt, ↓reduceIte, sweep_slice_of_le w k start hlast]
  · simp only [if_neg hlast, Bool.false_eq_true, ↓reduceIte]

/-- Positions do not wrap around, since the list is no longer than a machine word counts. -/
theorem sweep_slice (start bound pos : UInt64) (xs : List Value)
    (hlen : pos.toNat + xs.length < 2 ^ 64) :
    sweep w (.slice start bound pos) k xs =
      (xs.take (bound.toNat - pos.toNat)).drop (start.toNat - pos.toNat) := by
  induction xs generalizing pos with
  | nil => simp [sweep]
  | cons x xs ih =>
    rw [List.length_cons] at hlen
    have hnext : (pos + 1).toNat = pos.toNat + 1 := by
      simp only [UInt64.toNat_add, UInt64.reduceToNat]
      omega
    by_cases hend : bound ≤ pos
    · have hnat := UInt64.le_iff_toNat_le.mp hend
      have hdone : bound.toNat - pos.toNat = 0 := by omega
      rw [sweep_slice_of_le w k start hend, hdone, List.take_zero, List.drop_nil]
    · have hnat := UInt64.lt_iff_toNat_lt.mp (UInt64.not_le.mp hend)
      have hleft : bound.toNat - pos.toNat = bound.toNat - (pos + 1).toNat + 1 := by omega
      rw [sweep_slice_cons w k start hend, ih (pos + 1) (by omega), hleft, List.take_succ_cons]
      by_cases hstart : start ≤ pos
      · have hnat := UInt64.le_iff_toNat_le.mp hstart
        have hnow : start.toNat - pos.toNat = 0 := by omega
        have hlater : start.toNat - (pos + 1).toNat = 0 := by omega
        rw [if_pos hstart, hnow, hlater]
        rfl
      · have hnat := UInt64.lt_iff_toNat_lt.mp (UInt64.not_le.mp hstart)
        have hlater : start.toNat - pos.toNat = start.toNat - (pos + 1).toNat + 1 := by omega
        rw [if_neg hstart, hlater, List.drop_succ_cons, List.nil_append]

theorem sweep_get (index pos : UInt64) (hpos : pos ≤ index) (xs : List Value) :
    sweep w (.get index pos) k xs = (xs[index.toNat - pos.toNat]?).toList := by
  induction xs generalizing pos with
  | nil => simp [sweep]
  | cons x xs ih =>
    have hnat := UInt64.le_iff_toNat_le.mp hpos
    by_cases heq : pos = index
    · subst heq
      simp [sweep, step, Step.out, Control.halt]
    · have hne : pos.toNat ≠ index.toNat := fun h => heq (UInt64.toNat_inj.mp h)
      have hlt : pos < index := UInt64.lt_iff_toNat_lt.mpr (by omega)
      have hnext := toNat_succ_of_lt hlt
      have hle : pos + 1 ≤ index := UInt64.le_iff_toNat_le.mpr (by omega)
      have hleft : index.toNat - pos.toNat = index.toNat - (pos + 1).toNat + 1 := by omega
      rw [hleft, List.getElem?_cons_succ, ← ih (pos + 1) hle]
      simp only [sweep, step, if_neg heq, Step.out, Bool.false_eq_true, ↓reduceIte,
        List.nil_append]

/-! ### Leaving out repetitions -/

/-- The two tables of a stage, taken together, hold the elements kept so far. -/
structure Holds (seen : Seen) (kept : List Value) : Prop where
  keys (key : Key) : key ∈ seen.keys ↔ ∃ v ∈ kept, Key.ofValue? v = some key
  refs : seen.refs = kept.filter fun v => (Key.ofValue? v).isNone

theorem Holds.empty : Holds {} [] where
  keys := fun key => by simp
  refs := rfl

theorem Holds.addKey {seen : Seen} {kept : List Value} (h : Holds seen kept) {item : Value}
    {key : Key} (hkey : Key.ofValue? item = some key) :
    Holds (seen.addKey key) (kept ++ [item]) where
  keys := by
    intro other
    simp only [Seen.addKey, List.mem_cons, h.keys, List.mem_append, List.not_mem_nil, or_false]
    constructor
    · rintro (rfl | ⟨v, hmem, hv⟩)
      · exact ⟨item, Or.inr rfl, hkey⟩
      · exact ⟨v, Or.inl hmem, hv⟩
    · rintro ⟨v, hmem | rfl, hv⟩
      · exact Or.inr ⟨v, hmem, hv⟩
      · exact Or.inl (Option.some.inj (hv.symm.trans hkey))
  refs := by
    rw [List.filter_append, ← h.refs]
    simp [Seen.addKey, hkey]

theorem Holds.addRef {seen : Seen} {kept : List Value} (h : Holds seen kept) {item : Value}
    (hkey : Key.ofValue? item = none) : Holds (seen.addRef item) (kept ++ [item]) where
  keys := by
    intro other
    simp only [Seen.addRef, h.keys, List.mem_append, List.mem_cons, List.not_mem_nil, or_false]
    constructor
    · rintro ⟨v, hmem, hv⟩
      exact ⟨v, Or.inl hmem, hv⟩
    · rintro ⟨v, hmem | rfl, hv⟩
      · exact ⟨v, hmem, hv⟩
      · cases hkey.symm.trans hv
  refs := by
    rw [List.filter_append, ← h.refs]
    simp [Seen.addRef, hkey]

/-- Plain data repeats if its key is in the table. -/
theorem Holds.any_of_key {seen : Seen} {kept : List Value} (h : Holds seen kept)
    {item : Value} {key : Key} (hkey : Key.ofValue? item = some key)
    (eq : Value → Value → Bool) :
    kept.any (repeatedBy eq · item) = decide (key ∈ seen.keys) := by
  simp only [repeatedBy, hkey]
  rw [Bool.eq_iff_iff, List.any_eq_true, decide_eq_true_iff, h.keys]
  simp only [decide_eq_true_iff]

/-- A reference repeats if one in the table equals it. -/
theorem Holds.any_of_ref {seen : Seen} {kept : List Value} (h : Holds seen kept)
    {item : Value} (hkey : Key.ofValue? item = none) (eq : Value → Value → Bool) :
    kept.any (repeatedBy eq · item) = seen.refs.any (eq · item) := by
  simp only [repeatedBy, hkey, h.refs, List.any_filter]

theorem repeatsIn_pure {eq? : Option (Equality σ)} {eq : Value → Value → Bool}
    (h : ∀ earlier item, Seen.repeats eq? earlier item = pure (eq earlier item)) (item : Value)
    (refs : List Value) :
    Seen.repeatsIn eq? item refs = pure (refs.any (eq · item)) := by
  induction refs with
  | nil => rfl
  | cons earlier rest ih =>
    simp only [Seen.repeatsIn, h, pure_bind, ih, List.any_cons]
    cases eq earlier item <;> simp

theorem sweep_uniq {eq? : Option (Equality σ)} {eq : Value → Value → Bool}
    (h : ∀ earlier item, Seen.repeats eq? earlier item = pure (eq earlier item)) {seen : Seen}
    {kept : List Value} (hheld : Holds seen kept) (xs : List Value) :
    sweep w (.uniq eq? seen) k xs = distinct (repeatedBy eq) kept xs := by
  induction xs generalizing seen kept with
  | nil => rfl
  | cons x xs ih =>
    cases hkey : Key.ofValue? x with
    | some key =>
      rw [distinct, hheld.any_of_key hkey]
      by_cases hmem : key ∈ seen.keys
      · simp only [sweep, step, hkey, hmem, decide_true, ↓reduceIte]
        exact ih hheld
      · simp only [sweep, step, hkey, hmem, decide_false, Bool.false_eq_true, ↓reduceIte]
        rw [← ih (hheld.addKey hkey)]
        rfl
    | none =>
      rw [distinct, hheld.any_of_ref hkey]
      cases hany : seen.refs.any (eq · x) with
      | true =>
        simp only [sweep, step, hkey, repeatsIn_pure h, hany, Act.run_pure, ↓reduceIte]
        exact ih hheld
      | false =>
        simp only [sweep, step, hkey, repeatsIn_pure h, hany, Act.run_pure, Bool.false_eq_true,
          ↓reduceIte]
        rw [← ih (hheld.addRef hkey)]
        rfl

end Stage

end FusedQuery
