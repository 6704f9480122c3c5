/-
  FusedQuery/Proofs/Meaning/Operators.lean
  ========================================
  **What a query means, one operator after the other.**

  `PureOperator` is an operator whose callbacks are functions: they do not fail, and they do
  nothing but answer.  (Pairing makes new values, so it is none of these.)  Each is a function
  on lists, `PureOperator.apply`, and a sequence of them is one after the other, on the whole
  list that the one before has made (`meaning`).  Only skips know of each other: one drops no
  elements that an earlier one has dropped.

  A query goes through its source element by element and stops as soon as it may; it merges
  filters and maps.  It answers with the meaning all the same (`collect_eq_meaning`).
-/
import FusedQuery.Proofs.Fusion.Transparent
import FusedQuery.Proofs.Meaning.Stages
import FusedQuery.Proofs.Stream.Answers

namespace FusedQuery

variable {σ : Type}

/-! ### Operators on lists -/

/-- An operator whose callbacks are functions. -/
inductive PureOperator where
  | filter (test : Value → Bool)
  | reject (test : Value → Bool)
  | filterBy (field : String) (value : Value)
  | map (change : Value → Value)
  | skip (n : UInt64)
  | slice (start : Int64) (end? : Option Int64)
  | first
  | firstWhere (test : Value → Bool)
  | take (n : UInt64)
  | get (n : Int64)
  | ofClass (name : String)
  | ofKind (kind : Kind)
  | uniq
  | uniqBy (eq : Value → Value → Bool)

namespace PureOperator

def operator : PureOperator → Operator σ
  | .filter test => .filter fun v => pure (test v)
  | .reject test => .reject fun v => pure (test v)
  | .filterBy field value => .filterBy field value
  | .map change => .map fun v => pure (change v)
  | .skip n => .skip n
  | .slice start end? => .slice start end?
  | .first => .first
  | .firstWhere test => .firstWhere fun v => pure (test v)
  | .take n => .take n
  | .get n => .get n
  | .ofClass name => .ofClass name
  | .ofKind kind => .ofKind kind
  | .uniq => .uniq
  | .uniqBy eq => .uniqBy fun earlier item => pure (eq earlier item)

/-- What the operator makes of a list, where earlier skips have dropped `skipped` elements. -/
def apply (skipped : Nat) : PureOperator → List Value → List Value
  | .filter test, xs => xs.filter test
  | .reject test, xs => xs.filter fun v => !test v
  | .filterBy field value, xs => xs.filter fun v => (v.get field).same value
  | .map change, xs => xs.map change
  | .skip n, xs => xs.drop (n.toNat - skipped)
  | .slice start end?, xs =>
    if start < 0 || end?.any (· < 0) then []
    else (end?.elim xs fun bound => xs.take bound.toInt.toNat).drop start.toInt.toNat
  | .first, xs => xs.take 1
  | .firstWhere test, xs => (xs.find? test).toList
  | .take n, xs => xs.take n.toNat
  | .get n, xs => if n < 0 then [] else (xs[n.toInt.toNat]?).toList
  | .ofClass name, xs => xs.filter fun v => v.class? = some name
  | .ofKind kind, xs => xs.filter fun v => v.kind = kind
  | .uniq, xs => distinct (repeatedBy Value.same) [] xs
  | .uniqBy eq, xs => distinct (repeatedBy eq) [] xs

/-- The elements that skips have dropped up to and with the operator. -/
def skips (skipped : Nat) : PureOperator → Nat
  | .skip n => max skipped n.toNat
  | _ => skipped

end PureOperator

/-- What operators make of a list, each of all that the one before it made. -/
def meaning : (skipped : Nat) → List PureOperator → List Value → List Value
  | _, [], xs => xs
  | skipped, op :: rest, xs => meaning (op.skips skipped) rest (op.apply skipped xs)

/-! ### The stages of operators -/

/-- The stages that an operator adds where nothing merges. -/
def Operator.stages (operator : Operator σ) : List (Stage σ) :=
  ((Query.ofSource [] .plain).add operator).stages

namespace Query

theorem add_eq_append {q : Query σ} (h : q.settings.fuse = false) (operator : Operator σ) :
    q.add operator = { q with stages := q.stages ++ operator.stages } := by
  cases operator.adds with
  | fusible new _ hadd =>
    rw [Operator.stages, hadd, hadd, pushFusible_of_not_fuse h, pushFusible_of_not_fuse rfl]
    rfl
  | nothing _ hadd =>
    rw [Operator.stages, hadd, hadd]
    simp only [ofSource, List.append_nil]
  | alone stage _ _ hadd =>
    rw [Operator.stages, hadd, hadd]
    rfl

theorem addAll_eq_append {q : Query σ} (h : q.settings.fuse = false)
    (operators : List (Operator σ)) :
    q.addAll operators = { q with stages := q.stages ++ operators.flatMap Operator.stages } := by
  induction operators generalizing q with
  | nil => simp only [addAll, List.foldl_nil, List.flatMap_nil, List.append_nil]
  | cons operator rest ih =>
    have hadd := add_eq_append h operator
    have hsettings : (q.add operator).settings.fuse = false := by rw [hadd]; exact h
    have hrest := ih hsettings
    rw [hadd] at hrest
    simp only [addAll, List.foldl_cons, hadd] at hrest ⊢
    rw [hrest, List.flatMap_cons, List.append_assoc]

theorem reset_stages (operator : Operator σ) :
    operator.stages.map Stage.reset = operator.stages := by
  cases operator.adds with
  | fusible new _ hadd =>
    rw [Operator.stages, hadd, pushFusible_of_not_fuse rfl]
    cases new <;> rfl
  | nothing _ hadd =>
    rw [Operator.stages, hadd]
    rfl
  | alone stage _ halone hadd =>
    rw [Operator.stages, hadd]
    exact congrArg (fun fresh => [fresh]) halone.reset

end Query

namespace PureOperator

/-! ### One operator -/

theorem sure_stages (op : PureOperator) : ∀ stage ∈ (op.operator : Operator σ).stages,
    stage.Sure := by
  have hpure : ∀ {α : Type} (a : α), (pure a : Act σ α).Sure := fun a => ⟨a, rfl⟩
  cases op with
  | slice start end? =>
    simp only [operator, Operator.stages, Query.add, Query.addSlice]
    split
    · exact List.forall_mem_singleton.mpr trivial
    · split
      · intro stage hmem; cases hmem
      · exact List.forall_mem_singleton.mpr trivial
  | get n =>
    simp only [operator, Operator.stages, Query.add, Query.addGet]
    split
    · exact List.forall_mem_singleton.mpr trivial
    · split <;> exact List.forall_mem_singleton.mpr trivial
  | filter test => exact List.forall_mem_singleton.mpr fun v => hpure (test v)
  | reject test => exact List.forall_mem_singleton.mpr fun v => hpure (test v)
  | map change => exact List.forall_mem_singleton.mpr fun v => hpure (change v)
  | firstWhere test => exact List.forall_mem_singleton.mpr fun v => hpure (test v)
  | uniqBy eq => exact List.forall_mem_singleton.mpr fun v u => hpure (eq v u)
  | _ => exact List.forall_mem_singleton.mpr trivial

theorem length_distinct (repeated : Value → Value → Bool) (kept xs : List Value) :
    (distinct repeated kept xs).length ≤ xs.length := by
  induction xs generalizing kept with
  | nil => exact Nat.le_refl 0
  | cons x xs ih =>
    rw [distinct]
    split
    · exact Nat.le_succ_of_le (ih kept)
    · exact Nat.succ_le_succ (ih _)

theorem length_apply (op : PureOperator) (skipped : Nat) (xs : List Value) :
    (op.apply skipped xs).length ≤ xs.length := by
  cases op with
  | filter test => exact List.length_filter_le _ xs
  | reject test => exact List.length_filter_le _ xs
  | filterBy field value => exact List.length_filter_le _ xs
  | map change => exact Nat.le_of_eq (List.length_map change)
  | skip n =>
    rw [apply, List.length_drop]
    exact Nat.sub_le _ _
  | slice start end? =>
    simp only [apply]
    split
    · exact Nat.zero_le _
    · cases end? with
      | none =>
        rw [List.length_drop]
        exact Nat.sub_le _ _
      | some bound =>
        rw [List.length_drop]
        exact Nat.le_trans (Nat.sub_le _ _) (List.length_take_le' _ xs)
  | first => exact List.length_take_le' _ xs
  | firstWhere test =>
    simp only [apply]
    cases hfind : xs.find? test with
    | none => exact Nat.zero_le _
    | some v => exact List.length_pos_of_mem (List.mem_of_find?_eq_some hfind)
  | take n => exact List.length_take_le' _ xs
  | get n =>
    simp only [apply]
    split
    · exact Nat.zero_le _
    · cases hget : xs[n.toInt.toNat]? with
      | none => exact Nat.zero_le _
      | some v => exact List.length_pos_of_mem (List.mem_of_getElem? hget)
  | ofClass name => exact List.length_filter_le _ xs
  | ofKind kind => exact List.length_filter_le _ xs
  | uniq => exact length_distinct _ [] xs
  | uniqBy eq => exact length_distinct _ [] xs

/-- One stage that does not skip, and what it makes of the list. -/
theorem sweepAll_of_sweep {w : World σ} {k : UInt64} {stage : Stage σ} {xs ys : List Value}
    (hskip : stage.skipCount = 0) (h : stage.sweep w k xs = ys) (behind : List (Stage σ)) :
    sweepAll w k ([stage] ++ behind) xs = sweepAll w k behind ys := by
  have hk : stage.skipTo k = k := Stage.skipTo_of_le (by rw [hskip]; exact UInt64.zero_le)
  rw [← h]
  show sweepAll w (stage.skipTo k) behind (stage.sweep w k xs) = _
  rw [hk]

theorem sweepAll_skip (n : UInt64) (w : World σ) {k : UInt64} {skipped : Nat}
    (hk : k.toNat = skipped) (behind : List (Stage σ)) (xs : List Value) :
    ∃ l : UInt64, l.toNat = max skipped n.toNat ∧
      sweepAll w k (.skip n :: behind) xs =
        sweepAll w l behind (xs.drop (n.toNat - skipped)) := by
  subst hk
  refine ⟨(Stage.skip n : Stage σ).skipTo k, ?_, ?_⟩
  · by_cases hlt : k < n
    · have hnat := UInt64.lt_iff_toNat_lt.mp hlt
      have hto : (Stage.skip n : Stage σ).skipTo k = n := if_pos hlt
      rw [hto]
      omega
    · have hnat := UInt64.le_iff_toNat_le.mp (UInt64.not_lt.mp hlt)
      have hto : (Stage.skip n : Stage σ).skipTo k = k := if_neg hlt
      rw [hto]
      omega
  · rw [sweepAll, Stage.sweep_skip]

/-- A slice that keeps everything adds no stage, and one that keeps nothing halts. -/
theorem sweepAll_slice (start : Int64) (end? : Option Int64) (w : World σ) (k : UInt64)
    (behind : List (Stage σ)) {xs : List Value} (hlen : xs.length < 2 ^ 64) (skipped : Nat) :
    sweepAll w k ((Operator.slice start end? : Operator σ).stages ++ behind) xs =
      sweepAll w k behind ((PureOperator.slice start end?).apply skipped xs) := by
  by_cases hneg : (start < 0 || end?.any (· < 0)) = true
  · simp only [Operator.stages, Query.add, Query.addSlice, apply, if_pos hneg]
    exact sweepAll_of_sweep rfl (Stage.sweep_halt w k xs) behind
  · simp only [Operator.stages, Query.add, Query.addSlice, apply, if_neg hneg]
    rw [Bool.or_eq_true, not_or, decide_eq_true_iff] at hneg
    obtain ⟨hstart, hend⟩ := hneg
    have hfrom := Int64.toNat_toUInt64_of_le (Int64.not_lt.mp hstart)
    have hsweep := fun bound => Stage.sweep_slice w k start.toUInt64 bound 0 xs (by simpa)
    simp only [UInt64.toNat_zero, Nat.sub_zero, hfrom] at hsweep
    cases end? with
    | none =>
      have hopen : xs.take Query.openBound.toNat = xs :=
        List.take_of_length_le (Nat.le_of_lt_succ hlen)
      by_cases hall : start = 0
      · subst hall
        rfl
      · have hstage : ¬ (start = 0 && (none : Option Int64).isNone) = true := by simp [hall]
        have hrest := hsweep Query.openBound
        rw [hopen] at hrest
        simp only [if_neg hstage]
        exact sweepAll_of_sweep rfl hrest behind
    | some bound =>
      have hstage : ¬ (start = 0 && (some bound).isNone) = true := by simp
      have hbound : ¬ bound < 0 := by simpa using hend
      have hto := Int64.toNat_toUInt64_of_le (Int64.not_lt.mp hbound)
      have hrest := hsweep bound.toUInt64
      rw [hto] at hrest
      simp only [if_neg hstage]
      exact sweepAll_of_sweep rfl hrest behind

theorem sweepAll_get (n : Int64) (w : World σ) (k : UInt64) (behind : List (Stage σ))
    (xs : List Value) (skipped : Nat) :
    sweepAll w k ((Operator.get n : Operator σ).stages ++ behind) xs =
      sweepAll w k behind ((PureOperator.get n).apply skipped xs) := by
  by_cases hneg : n < 0
  · simp only [Operator.stages, Query.add, Query.addGet, apply, if_pos hneg]
    exact sweepAll_of_sweep rfl (Stage.sweep_halt w k xs) behind
  · simp only [Operator.stages, Query.add, Query.addGet, apply, if_neg hneg]
    by_cases hzero : n = 0
    · subst hzero
      refine (sweepAll_of_sweep rfl (Stage.sweep_first w k xs) behind).trans ?_
      cases xs <;> rfl
    · simp only [if_neg hzero]
      have hn := Int64.toNat_toUInt64_of_le (Int64.not_lt.mp hneg)
      have hsweep := Stage.sweep_get w k n.toUInt64 0 UInt64.zero_le xs
      rw [hn] at hsweep
      exact sweepAll_of_sweep rfl hsweep behind

/-- An operator makes of a list what its stages make of it. -/
theorem sweepAll_operator (op : PureOperator) (w : World σ) {k : UInt64} {skipped : Nat}
    (hk : k.toNat = skipped) (behind : List (Stage σ)) {xs : List Value}
    (hlen : xs.length < 2 ^ 64) :
    ∃ l : UInt64, l.toNat = op.skips skipped ∧
      sweepAll w k ((op.operator : Operator σ).stages ++ behind) xs =
        sweepAll w l behind (op.apply skipped xs) := by
  cases op with
  | skip n => exact sweepAll_skip n w hk behind xs
  | slice start end? => exact ⟨k, hk, sweepAll_slice start end? w k behind hlen skipped⟩
  | get n => exact ⟨k, hk, sweepAll_get n w k behind xs skipped⟩
  | filter test =>
    exact ⟨k, hk, sweepAll_of_sweep rfl (Stage.sweep_of_forwardIf w k (fun _ => rfl) xs) behind⟩
  | reject test =>
    exact ⟨k, hk, sweepAll_of_sweep rfl (Stage.sweep_of_forwardIf w k (fun _ => rfl) xs) behind⟩
  | filterBy field value =>
    exact ⟨k, hk, sweepAll_of_sweep rfl (Stage.sweep_of_forwardIf w k (fun _ => rfl) xs) behind⟩
  | ofClass name =>
    exact ⟨k, hk, sweepAll_of_sweep rfl (Stage.sweep_of_forwardIf w k (fun _ => rfl) xs) behind⟩
  | ofKind kind =>
    exact ⟨k, hk, sweepAll_of_sweep rfl (Stage.sweep_of_forwardIf w k (fun _ => rfl) xs) behind⟩
  | map change => exact ⟨k, hk, sweepAll_of_sweep rfl (Stage.sweep_map w k change xs) behind⟩
  | first => exact ⟨k, hk, sweepAll_of_sweep rfl (Stage.sweep_first w k xs) behind⟩
  | firstWhere test =>
    exact ⟨k, hk, sweepAll_of_sweep rfl (Stage.sweep_firstWhere w k test xs) behind⟩
  | take n => exact ⟨k, hk, sweepAll_of_sweep rfl (Stage.sweep_take w k n 0 xs) behind⟩
  | uniq =>
    have hsweep : Stage.sweep w (.uniq none {}) k xs = distinct (repeatedBy Value.same) [] xs :=
      Stage.sweep_uniq w k (fun _ _ => rfl) Stage.Holds.empty xs
    exact ⟨k, hk, sweepAll_of_sweep rfl hsweep behind⟩
  | uniqBy eq =>
    have hsweep : Stage.sweep w (.uniq (some fun v u => pure (eq v u)) {}) k xs =
        distinct (repeatedBy eq) [] xs :=
      Stage.sweep_uniq w k (fun _ _ => rfl) Stage.Holds.empty xs
    exact ⟨k, hk, sweepAll_of_sweep rfl hsweep behind⟩

end PureOperator

/-! ### All operators -/

/-- **Stage by stage is operator by operator.** -/
theorem sweepAll_eq_meaning (ops : List PureOperator) (w : World σ) {k : UInt64} {skipped : Nat}
    (hk : k.toNat = skipped) {xs : List Value} (hlen : xs.length < 2 ^ 64) :
    sweepAll w k (ops.flatMap fun op => (op.operator : Operator σ).stages) xs =
      meaning skipped ops xs := by
  induction ops generalizing k skipped xs with
  | nil => rfl
  | cons op rest ih =>
    have hshort := op.length_apply skipped xs
    obtain ⟨l, hl, hsweep⟩ := op.sweepAll_operator w hk
      (rest.flatMap fun op => (op.operator : Operator σ).stages) hlen
    rw [List.flatMap_cons, hsweep, meaning]
    exact ih hl (by omega)

namespace Query

/-- Without merging, a query of pure operators emits their meaning. -/
theorem emit_eq_meaning (source : List Value) (hsize : source.length < 2 ^ 64) (bulk : Bool)
    (ops : List PureOperator) (w : World σ) :
    ((ofSource source { fuse := false, bulk }).addAll (ops.map PureOperator.operator)).emit w =
      { items := meaning 0 ops source, fault? := none } := by
  have hstages : ∀ stage ∈ ops.flatMap fun op => (op.operator : Operator σ).stages,
      stage.Sure := by
    intro stage hmem
    obtain ⟨op, _, hstage⟩ := List.mem_flatMap.mp hmem
    exact op.sure_stages stage hstage
  have hreset : (ops.flatMap fun op => (op.operator : Operator σ).stages).map Stage.reset =
      ops.flatMap fun op => (op.operator : Operator σ).stages := by
    rw [List.map_flatMap]
    congr 1
    funext op
    exact reset_stages op.operator
  have hzero : ({} : Control).skipped.toNat = 0 := rfl
  rw [addAll_eq_append rfl, emit, List.flatMap_map]
  simp only [ofSource, List.nil_append, hreset]
  rw [Line.emit_eq_sweepAll hstages rfl, sweepAll_eq_meaning ops w hzero hsize]

/-- **A query answers with the meaning of its operators for the whole source,** however it
    merges its stages, early as it stops, and whether or not it scans.  The bound on the source
    is that of a list in memory. -/
theorem collect_eq_meaning (source : List Value) (hsize : source.length < 2 ^ 64)
    (settings : Settings) (ops : List PureOperator) (w : World σ) :
    (((ofSource source settings).addAll (ops.map PureOperator.operator)).ask .collect w).result =
      .ok (meaning 0 ops source) := by
  have hunmerged : ((ofSource source settings).addAll
        (ops.map (PureOperator.operator : PureOperator → Operator σ))).unmerged =
      (ofSource source { settings with fuse := false }).addAll
        (ops.map PureOperator.operator) := by
    rw [addAll_unmerged]
    rfl
  have hresult := congrArg Run.result (run_unmerged ((ofSource source settings).addAll
    (ops.map (PureOperator.operator : PureOperator → Operator σ))) (.collect #[]) w)
  rw [hunmerged] at hresult
  have hcollect : (Question.collect : Question σ (List Value)).start.Acts Act.Still := trivial
  have hasked := ask_of_still ((ofSource source { settings with fuse := false }).addAll
    (ops.map PureOperator.operator)) .collect hcollect w
  rw [stream_eq_emit, emit_eq_meaning source hsize] at hasked
  exact hresult.symm.trans hasked

/-- The second skip drops two elements of its own, after the one of the first. -/
theorem collect_two_skips :
    let source := [.null, .bool true, .undefined, .bool false, .bool false]
    let ops := [.skip 1, .map id, .skip 3, .uniq]
    source.length < 2 ^ 64 ∧
      (((ofSource source {}).addAll (ops.map PureOperator.operator)).ask .collect
        (⟨0, ()⟩ : World Unit)).result = .ok [.bool false] :=
  ⟨by decide, collect_eq_meaning _ (by decide) {} [.skip 1, .map id, .skip 3, .uniq] ⟨0, ()⟩⟩

end Query

end FusedQuery
