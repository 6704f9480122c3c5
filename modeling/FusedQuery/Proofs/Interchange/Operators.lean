/-
  FusedQuery/Proofs/Interchange/Operators.lean
  ============================================
  **Operators that may stand for each other.**

  `Interchangeable` lists pairs of operators, or of short sequences of them, whose meanings
  overlap.  Whatever stands before and behind them, whatever the source and the terminal, a
  query with the one runs as a query with the other: to the same result or fault, by the same
  calls of callbacks, with as many elements visited and the same stop (`run_interchange`).

  One of the pairs needs something of the operators around.  A window cut out by a skip counts
  what it drops in the number that all skips share, so there may be no other skip beside it.
-/
import FusedQuery.Proofs.Interchange.Stages
import FusedQuery.Proofs.Halting.Operators
import FusedQuery.Proofs.Recording.Places

namespace FusedQuery

variable {σ ρ : Type}

/-! ### Pairs of operators -/

/-- The operators that hand on the first element and no other. -/
def Operator.ones : List (Operator σ) := [.first, .take 1, .get 0, .slice 0 (some 1)]

/-- Sequences of operators that do the same work among the others of a query. -/
inductive Interchangeable (others : List (Operator σ)) :
    List (Operator σ) → List (Operator σ) → Prop
  | firstWhere (test) : Interchangeable others [.firstWhere test] [.filter test, .first]
  | reject (test) : Interchangeable others [.reject test] [.filter test.negate]
  | one {op op'} : op ∈ Operator.ones → op' ∈ Operator.ones → Interchangeable others [op] [op']
  | get {n : Int64} : 0 ≤ n → n < Int64.maxValue →
      Interchangeable others [.get n] [.slice n (some (n + 1))]
  | take (m n) : Interchangeable others [.take m, .take n] [.take (min m n)]
  | window {a b : Int64} : 0 ≤ a → a < b → (∀ n, .skip n ∉ others) →
      Interchangeable others [.slice a (some b)] [.skip a.toUInt64, .take (b - a).toUInt64]

/-! ### The stages of operators -/

theorem toNat_toUInt64 {n : Int64} (h : 0 ≤ n) : (n.toUInt64.toNat : Int) = n.toInt := by
  have hnat := Int64.toNat_toUInt64_of_le h
  have hint : 0 ≤ n.toInt := Int64.le_iff_toInt_le.mp h
  have hclamp : n.toNatClampNeg = n.toInt.toNat := rfl
  omega

namespace Operator

theorem stages_slice {a b : Int64} (ha : 0 ≤ a) (hb : 0 ≤ b) :
    (slice a (some b) : Operator σ).stages = [.slice a.toUInt64 b.toUInt64 0] := by
  have hinside : ¬ (a < 0 || (some b).any (· < 0)) = true := by
    simpa using ⟨ha, hb⟩
  have hbounded : ¬ (a = 0 && (some b).isNone) = true := by simp
  simp only [stages, Query.add, Query.addSlice, if_neg hinside, if_neg hbounded]
  rfl

theorem stages_get {n : Int64} (hn : 0 ≤ n) :
    (get n : Operator σ).stages = if n = 0 then [.first none] else [.get n.toUInt64 0] := by
  have hinside : ¬ n < 0 := Int64.not_lt.mpr hn
  simp only [stages, Query.add, Query.addGet, if_neg hinside]
  split <;> rfl

/-- Only a skip waits for skips. -/
theorem skipCount_stages {operator : Operator σ} (h : ∀ n, operator ≠ .skip n) :
    ∀ stage ∈ operator.stages, stage.skipCount = 0 := by
  cases operator with
  | skip n => exact absurd rfl (h n)
  | slice start end? =>
    simp only [stages, Query.add, Query.addSlice]
    split
    · exact List.forall_mem_singleton.mpr rfl
    · split
      · exact List.forall_mem_nil _
      · exact List.forall_mem_singleton.mpr rfl
  | get n =>
    simp only [stages, Query.add, Query.addGet]
    split
    · exact List.forall_mem_singleton.mpr rfl
    · split <;> exact List.forall_mem_singleton.mpr rfl
  | _ => exact List.forall_mem_singleton.mpr rfl

theorem twins_of_ones {op : Operator σ} (h : op ∈ ones) :
    Stage.Twins [.first none] op.stages := by
  simp only [ones, List.mem_cons, List.not_mem_nil, or_false] at h
  rcases h with rfl | rfl | rfl | rfl
  · exact .first
  · exact .firstTake
  · exact .first
  · exact .firstSlice

/-- An element by its position and as a slice of one; the first one has a stage of its own. -/
theorem twins_get {n : Int64} (hn : 0 ≤ n) (hmax : n < Int64.maxValue) :
    Stage.Twins (get n : Operator σ).stages (slice n (some (n + 1))).stages := by
  have hnat := toNat_toUInt64 hn
  have hint := Int64.le_iff_toInt_le.mp hn
  have hlt := Int64.lt_iff_toInt_lt.mp hmax
  rw [Int64.toInt_maxValue] at hlt
  have hadd : (n + 1).toInt = (n.toInt + 1).bmod (2 ^ 64) := Int64.toInt_add n 1
  rw [Int.bmod_eq_of_le (by omega) (by omega)] at hadd
  have hpos : 0 ≤ n + 1 := by
    apply Int64.le_iff_toInt_le.mpr
    rw [hadd]
    exact Int.le_add_one hint
  have hnext := toNat_toUInt64 hpos
  have hsucc : (n + 1).toUInt64.toNat = n.toUInt64.toNat + 1 := by omega
  rw [stages_get hn, stages_slice hn hpos]
  split
  · next hzero =>
    subst hzero
    exact .firstSlice
  · exact .get hsucc UInt64.zero_le

/-- A window between two positions, by a slice and by a skip and a `take`. -/
theorem window_slice {a b : Int64} (ha : 0 ≤ a) (hlt : a < b) :
    a.toUInt64 < b.toUInt64 ∧
      Line.Window a.toUInt64 b.toUInt64 0 ([slice a (some b)].flatMap (stages (σ := σ))) 0
        ([skip a.toUInt64, take (b - a).toUInt64].flatMap stages) := by
  have hint := Int64.lt_iff_toInt_lt.mp hlt
  have hb : 0 ≤ b := Int64.le_of_lt (Int64.lt_of_le_of_lt ha hlt)
  have hstart := toNat_toUInt64 ha
  have hbound := toNat_toUInt64 hb
  have hwindow : a.toUInt64 < b.toUInt64 := UInt64.lt_iff_toNat_lt.mpr (by omega)
  refine ⟨hwindow, ?_⟩
  have hlimit : [skip a.toUInt64, take (b - a).toUInt64].flatMap (stages (σ := σ)) =
      [.skip a.toUInt64, .take (b.toUInt64 - a.toUInt64) 0] := by
    rw [← Int64.toUInt64_sub]
    rfl
  have hfirst : (0 : UInt64) < b.toUInt64 :=
    UInt64.lt_iff_toNat_lt.mpr (Nat.lt_of_le_of_lt (Nat.zero_le _)
      (UInt64.lt_iff_toNat_lt.mp hwindow))
  rw [List.flatMap_singleton, stages_slice ha hb, hlimit]
  exact ⟨hfirst, (Nat.zero_min _).symm, (Nat.zero_sub _).symm⟩

end Operator

/-! ### Queries between other operators -/

section Between

variable {left right before after : List (Operator σ)}

/-- Merged or not, a query runs through the stages of its operators. -/
theorem Query.run_addAll_unmerged (source : List Value) (settings : Settings)
    (operators : List (Operator σ)) (terminal : Terminal σ ρ) (w : World σ) :
    (((ofSource source settings).addAll operators).run terminal w).unmerged =
      ({ (ofSource source settings : Query σ).unmerged with
          stages := operators.flatMap Operator.stages }).run terminal w := by
  have hfuse : (ofSource source settings : Query σ).unmerged.settings.fuse = false := rfl
  rw [← run_unmerged, addAll_unmerged, addAll_eq_append hfuse]
  rfl

/-- **Operators whose stages are related run alike,** if the operators around leave the relation
    alone. -/
theorem run_addAll_matches {agree : UInt64 → UInt64 → Prop} {R : Stages.Relation σ}
    {P : Stage σ → Prop} (hsim : Line.Simulation agree R) (hcontext : Line.Context agree P R)
    (hagree : agree 0 0) (hothers : ∀ op ∈ before ++ after, ∀ stage ∈ op.stages, P stage)
    (hrelated : R 0 (left.flatMap Operator.stages) 0 (right.flatMap Operator.stages))
    (hstop : (left.flatMap Operator.stages).any Stage.canStop =
      (right.flatMap Operator.stages).any Stage.canStop)
    (hleft : left.flatMap Operator.stages ≠ []) (hright : right.flatMap Operator.stages ≠ [])
    (source : List Value) (settings : Settings) (terminal : Terminal σ ρ) (w : World σ) :
    (((Query.ofSource source settings).addAll (before ++ left ++ after)).run terminal w).Matches
      agree
      (((Query.ofSource source settings).addAll (before ++ right ++ after)).run terminal w) := by
  have hall : ∀ ops : List (Operator σ), (∀ op ∈ ops, op ∈ before ++ after) →
      ∀ stage ∈ ops.flatMap Operator.stages, P stage := by
    intro ops hops stage hmem
    obtain ⟨op, hop, hstage⟩ := List.mem_flatMap.mp hmem
    exact hothers op (hops op hop) stage hstage
  have hreset : ∀ ops : List (Operator σ),
      (ops.flatMap Operator.stages).map Stage.reset = ops.flatMap Operator.stages := by
    intro ops
    rw [List.map_flatMap]
    exact congrArg (fun f => List.flatMap f ops) (funext Query.reset_stages)
  apply Run.Matches.of_unmerged
  rw [Query.run_addAll_unmerged, Query.run_addAll_unmerged]
  apply Query.run_matches (hsim.between hcontext) hagree
  · simp [hleft]
  · simp [hright]
  · rw [hreset, hreset]
    simp only [List.flatMap_append, List.append_assoc]
    exact ⟨hall before fun op hop => List.mem_append_left after hop, hrelated,
      hall after fun op hop => List.mem_append_right before hop⟩
  · simp only [List.flatMap_append, List.any_append, hstop]

/-- Twins run alike among any operators. -/
theorem run_addAll_of_twins (before after : List (Operator σ))
    (htwins : Stage.Twins (left.flatMap Operator.stages) (right.flatMap Operator.stages))
    (source : List Value) (settings : Settings) (terminal : Terminal σ ρ) (w : World σ) :
    (((Query.ofSource source settings).addAll (before ++ left ++ after)).run terminal w).Matches
      Eq
      (((Query.ofSource source settings).addAll (before ++ right ++ after)).run terminal w) := by
  obtain ⟨hleft, hright⟩ := htwins.ne_nil
  exact run_addAll_matches Line.twins_simulation Line.all_context rfl (fun _ _ _ _ => trivial)
    htwins htwins.any_canStop hleft hright source settings terminal w

/-- **Interchangeable operators run alike.** -/
theorem Interchangeable.sameAs (h : Interchangeable (before ++ after) left right)
    (source : List Value) (settings : Settings) (terminal : Terminal σ ρ) (w : World σ) :
    (((Query.ofSource source settings).addAll (before ++ left ++ after)).run terminal w).SameAs
      (((Query.ofSource source settings).addAll (before ++ right ++ after)).run terminal w) := by
  have htwins : ∀ {left right : List (Operator σ)},
      Stage.Twins (left.flatMap Operator.stages) (right.flatMap Operator.stages) → _ :=
    fun h => (run_addAll_of_twins before after h source settings terminal w).toSameAs
  cases h with
  | firstWhere test => exact htwins (.firstWhere test)
  | reject test => exact htwins (.reject test)
  | take m n => exact htwins (.take m n 0)
  | get hn hmax =>
    apply htwins
    rw [List.flatMap_singleton, List.flatMap_singleton]
    exact Operator.twins_get hn hmax
  | one hop hop' =>
    have hfirst : ∀ {op : Operator σ}, op ∈ Operator.ones →
        Stage.Twins ([Operator.first].flatMap Operator.stages) ([op].flatMap Operator.stages) := by
      intro op hop
      rw [List.flatMap_singleton, List.flatMap_singleton]
      exact Operator.twins_of_ones hop
    exact (htwins (hfirst hop)).symm.trans (htwins (hfirst hop'))
  | window ha hlt hskip =>
    obtain ⟨hwindow, hrelated⟩ := Operator.window_slice (σ := σ) ha hlt
    have hothers : ∀ op ∈ before ++ after, ∀ stage ∈ op.stages, stage.skipCount = 0 := by
      intro op hop
      apply Operator.skipCount_stages
      rintro n rfl
      exact hskip n hop
    obtain ⟨hleft, hright⟩ := hrelated.ne_nil
    exact (run_addAll_matches (Line.window_simulation hwindow) (Line.unskipping_context _ _)
      trivial hothers hrelated hrelated.any_canStop hleft hright source settings terminal
      w).toSameAs

end Between

/-! ### Recorded operators -/

theorem negate_recorded (place : Nat) (test : Predicate σ) :
    recordedCallback place false test.negate =
      Predicate.negate (recordedCallback place false test) := by
  funext v
  ext w
  simp only [recordedCallback, Predicate.negate, Act.run_bind, Act.recorded]
  cases ((test v).run w.plain).result <;> rfl

theorem Operator.recorded_mem_ones {op : Operator σ} (h : op ∈ ones) (place : Nat) :
    op.recorded place ∈ ones := by
  have hones : (ones (σ := σ)).map (recorded place) = ones := rfl
  rw [← hones]
  exact List.mem_map_of_mem h

theorem Operator.eq_skip_of_recorded {place : Nat} {op : Operator σ} {n : UInt64}
    (h : op.recorded place = .skip n) : op = .skip n := by
  cases op with
  | skip m =>
    cases h
    rfl
  | _ => cases h

/-- Operators that are interchangeable still are when their calls are recorded, under one place
    for all of them. -/
theorem Interchangeable.recorded {others left right : List (Operator σ)}
    (h : Interchangeable others left right) {recOthers : List (Operator (Recorded σ))}
    (hothers : ∀ rec ∈ recOthers, ∃ op ∈ others, ∃ place, rec = op.recorded place)
    (place : Nat) :
    Interchangeable recOthers (left.map (Operator.recorded place))
      (right.map (Operator.recorded place)) := by
  cases h with
  | firstWhere test => exact .firstWhere _
  | reject test =>
    have hreject : Interchangeable recOthers [.reject (recordedCallback place false test)]
        [.filter (Predicate.negate (recordedCallback place false test))] := .reject _
    rw [← negate_recorded] at hreject
    exact hreject
  | one hop hop' =>
    exact .one (Operator.recorded_mem_ones hop place) (Operator.recorded_mem_ones hop' place)
  | get hn hmax => exact .get hn hmax
  | take m n => exact .take m n
  | window ha hlt hskip =>
    apply Interchangeable.window ha hlt
    intro n hmem
    obtain ⟨op, hop, other, hrec⟩ := hothers _ hmem
    rw [Operator.eq_skip_of_recorded hrec.symm] at hop
    exact hskip n hop

namespace Query

/-- The operators of a query with their calls recorded: each of those before and after under a
    place of its own, and those between them under one, however many they are. -/
def recordedAround (before between after : List (Operator σ)) : List (Operator (Recorded σ)) :=
  before.mapIdx Operator.recorded ++ between.map (Operator.recorded before.length) ++
    after.mapIdx fun i op => op.recorded (before.length + 1 + i)

/-- The calls of a run of a query that is built by these operators, in order. -/
def callsAround (source : List Value) (settings : Settings)
    (before between after : List (Operator σ)) (terminal : Terminal σ ρ) (w : World σ) :
    List Call :=
  let q := (ofSource source settings).addAll (recordedAround before between after)
  (q.run (terminal.recorded (before.length + 1 + after.length)) w.recorded).world.calls

/-- Recording the calls under these places does not disturb the run. -/
theorem run_recordedAround (source : List Value) (settings : Settings)
    (before between after : List (Operator σ)) (terminal : Terminal σ ρ) (w : World σ) :
    (((ofSource source settings).addAll (recordedAround before between after)).run
        (terminal.recorded (before.length + 1 + after.length)) w.recorded).Mirrors
      (((ofSource source settings).addAll (before ++ between ++ after)).run terminal w) := by
  have hplaces : List.Forall₂ (fun rec operator => ∃ place, rec = operator.recorded place)
      (recordedAround before between after) (before ++ between ++ after) := by
    refine List.rel_append (List.rel_append ?_ ?_) ?_
    · exact forall₂_mapIdx (fun place op => ⟨place, rfl⟩) before
    · rw [List.forall₂_map_left_iff, List.forall₂_same]
      exact fun op _ => ⟨before.length, rfl⟩
    · exact forall₂_mapIdx (fun i op => ⟨before.length + 1 + i, rfl⟩) after
  exact (addAll_mirrors_of_forall₂ source settings hplaces).run
    (terminal.mirrors_recorded _) w.recorded

/-- **Operators of overlapping meaning may stand for each other in every query.**  The runs are
    the same, and so are the calls, with those of the operators in question taken together. -/
theorem run_interchange {before after left right : List (Operator σ)}
    (h : Interchangeable (before ++ after) left right) (source : List Value)
    (settings : Settings) (terminal : Terminal σ ρ) (w : World σ) :
    let written := (ofSource source settings).addAll (before ++ left ++ after)
    let rewritten := (ofSource source settings).addAll (before ++ right ++ after)
    (written.run terminal w).SameAs (rewritten.run terminal w) ∧
      callsAround source settings before left after terminal w =
        callsAround source settings before right after terminal w := by
  intro written rewritten
  refine ⟨h.sameAs source settings terminal w, ?_⟩
  have hothers : ∀ rec ∈ before.mapIdx Operator.recorded ++
        after.mapIdx (fun i op => op.recorded (before.length + 1 + i)),
      ∃ op ∈ before ++ after, ∃ place, rec = op.recorded place := by
    intro rec hrec
    rcases List.mem_append.mp hrec with hmem | hmem
    · obtain ⟨i, hi, rfl⟩ := List.mem_mapIdx.mp hmem
      exact ⟨before[i], List.mem_append_left after (List.getElem_mem hi), i, rfl⟩
    · obtain ⟨i, hi, rfl⟩ := List.mem_mapIdx.mp hmem
      exact ⟨after[i], List.mem_append_right before (List.getElem_mem hi), _, rfl⟩
  have hrecorded := (h.recorded hothers before.length).sameAs source settings
    (terminal.recorded (before.length + 1 + after.length)) w.recorded
  exact congrArg World.calls hrecorded.world

/-- A window of two behind a `uniq`, cut out by positions and by a skip. -/
theorem run_interchange_window :
    let source : List Value := [.null, .bool true, .bool true, .undefined, .bool false, .null]
    let before : List (Operator Unit) := [.uniq]
    let after : List (Operator Unit) := [.ofKind .bool]
    let left : List (Operator Unit) := [.slice 1 (some 3)]
    let right : List (Operator Unit) := [.skip 1, .take 2]
    let written := (ofSource source {}).addAll (before ++ left ++ after)
    let rewritten := (ofSource source {}).addAll (before ++ right ++ after)
    Interchangeable (before ++ after) left right ∧
      (written.run Question.collect.start ⟨0, ()⟩).result = .ok [.bool true] ∧
      (written.run Question.collect.start ⟨0, ()⟩).SameAs
        (rewritten.run Question.collect.start ⟨0, ()⟩) := by
  intro source before after left right written rewritten
  have hskip : ∀ n, (.skip n : Operator Unit) ∉ before ++ after := by
    intro n hmem
    rcases List.mem_cons.mp hmem with h | h
    · cases h
    · cases List.mem_singleton.mp h
  have hwindow : Interchangeable (before ++ after) left right :=
    .window (by decide) (by decide) hskip
  exact ⟨hwindow, rfl, (run_interchange hwindow source {} Question.collect.start ⟨0, ()⟩).1⟩

end Query

end FusedQuery
