/-
  FusedQuery/Proofs/Fusion/Transparent.lean
  =========================================
  **Merging stages changes how a query runs, and nothing that it answers.**

  `Query.unmerged` is the query in which every merged stage stands in its two parts and no
  further ones merge.  Building and running commute with it exactly:

    * `(q.addAll operators).unmerged = q.unmerged.addAll operators` (`addAll_unmerged`),
    * `q.unmerged.run terminal world = (q.run terminal world).unmerged` (`run_unmerged`),

  so the query that is built without merging is the unmerged one that is built with it
  (`addAll_of_not_fuse`), and the two can be compared run by run (`Run.MergedAs`).  The calls
  of callbacks need no argument of their own: they are in the world of a recorded run.
-/
import FusedQuery.Proofs.Fusion.Split
import FusedQuery.Proofs.Query.Building
import FusedQuery.Proofs.Query.Ready
import FusedQuery.Proofs.Recording.Basic

namespace FusedQuery

variable {σ ρ : Type}

def Stats.unmerged (s : Stats) : Stats := { s with stages := s.stages + s.fused, fused := 0 }

namespace Query

/-- The query with every merged stage taken apart, which merges no more. -/
def unmerged (q : Query σ) : Query σ :=
  { q with
    stages := q.stages.flatMap Stage.split
    settings := { q.settings with fuse := false }
    stats := q.stats.unmerged }

end Query

def Run.unmerged (r : Run σ ρ) : Run σ ρ := { r with query := r.query.unmerged }

namespace Query

/-! ### Building -/

theorem push_unmerged (q : Query σ) {stage : Stage σ} (h : stage.isFused = false) :
    (q.push stage).unmerged = q.unmerged.push stage := by
  simp only [push, unmerged, List.flatMap_append, List.flatMap_cons, List.flatMap_nil,
    List.append_nil, Stage.split_of_not_isFused h]

theorem pushFusible_of_not_fuse {q : Query σ} (h : q.settings.fuse = false)
    (new : Fusible σ) : q.pushFusible new = q.push new.stage := by
  simp only [pushFusible, h, Bool.false_eq_true, ↓reduceIte]

/-- What becomes of the stages when a filter or a map is added: it merges with the last one, or
    it stands on its own. -/
theorem pushFusible_cases (q : Query σ) (new : Fusible σ) :
    (∃ front last merged, q.stages = front ++ [last] ∧ last.fuse? new = some merged ∧
        q.pushFusible new = { q with stages := front ++ [merged] }) ∨
      q.pushFusible new = q.push new.stage := by
  unfold pushFusible
  cases hmerged : (if q.settings.fuse then q.stages.getLast?.bind (·.fuse? new) else none) with
  | none => exact Or.inr rfl
  | some merged =>
    refine Or.inl ?_
    have hlast : q.stages.getLast?.bind (·.fuse? new) = some merged := by
      split at hmerged
      · exact hmerged
      · cases hmerged
    obtain ⟨last, hlast, hfuse⟩ := Option.bind_eq_some_iff.mp hlast
    obtain ⟨front, hfront⟩ := List.getLast?_eq_some_iff.mp hlast
    refine ⟨front, last, merged, hfront, hfuse, ?_⟩
    simp only [hfront, List.dropLast_concat]

theorem pushFusible_unmerged (q : Query σ) (new : Fusible σ) :
    (q.pushFusible new).unmerged = q.unmerged.pushFusible new := by
  have hnew : new.stage.isFused = false := by cases new <;> rfl
  rw [pushFusible_of_not_fuse (rfl : q.unmerged.settings.fuse = false)]
  rcases q.pushFusible_cases new with ⟨front, last, merged, hfront, hfuse, hpush⟩ | hpush
  · rw [hpush]
    simp only [unmerged, push, hfront, List.flatMap_append, List.flatMap_cons,
      List.flatMap_nil, List.append_nil, Stage.split_of_fuse? hfuse, Stage.split_stage,
      List.append_assoc]
  · rw [hpush]
    exact q.push_unmerged hnew

theorem add_unmerged (q : Query σ) (operator : Operator σ) :
    (q.add operator).unmerged = q.unmerged.add operator := by
  cases operator.adds with
  | fusible new _ hadd =>
    rw [hadd, hadd]
    exact q.pushFusible_unmerged new
  | nothing _ hadd => rw [hadd, hadd]
  | alone stage _ halone hadd =>
    rw [hadd, hadd]
    exact q.push_unmerged halone.isFused

theorem addAll_unmerged (q : Query σ) (operators : List (Operator σ)) :
    (q.addAll operators).unmerged = q.unmerged.addAll operators := by
  induction operators generalizing q with
  | nil => rfl
  | cons operator rest ih =>
    have hnext := ih (q.add operator)
    rw [add_unmerged] at hnext
    exact hnext

/-! ### Running -/

theorem prepare_unmerged (q : Query σ) (terminal : Terminal σ ρ) :
    q.unmerged.prepare terminal = (q.prepare terminal).unmerged := by
  have hreset : (q.stages.flatMap Stage.split).map Stage.reset =
      (q.stages.map Stage.reset).flatMap Stage.split := by
    rw [List.map_flatMap, List.flatMap_map]
    congr 1
    funext stage
    exact stage.split_reset.symm
  simp only [prepare, unmerged, hreset, Line.any_canStop_flatMap_split]

theorem scan?_unmerged (q : Query σ) (terminal : Terminal σ ρ) :
    q.unmerged.scan? terminal = q.scan? terminal := by
  have hempty : (q.stages.flatMap Stage.split).isEmpty = q.stages.isEmpty := by
    cases q.stages with
    | nil => rfl
    | cons stage rest => cases stage <;> rfl
  simp only [scan?, unmerged, hempty]

theorem traverse_unmerged (q : Query σ) (terminal : Terminal σ ρ) (world : World σ) :
    (q.prepare terminal).unmerged.traverse terminal world =
      ((q.prepare terminal).traverse terminal world).map Line.split := by
  have hready := q.ready_prepare terminal world
  cases hscan : (q.prepare terminal).scan? terminal with
  | none =>
    rw [traverse_of_no_scan hscan, traverse_of_no_scan ((scan?_unmerged _ _).trans hscan)]
    exact Line.traverse_split hready q.source
  | some scan =>
    rw [traverse_of_scan hscan, traverse_of_scan ((scan?_unmerged _ _).trans hscan)]
    rfl

theorem countP_isFused_flatMap_split (stages : List (Stage σ)) :
    (stages.flatMap Stage.split).countP Stage.isFused = 0 := by
  induction stages with
  | nil => rfl
  | cons stage rest ih =>
    rw [List.flatMap_cons, List.countP_append, Stage.countP_isFused_split, ih]

theorem length_flatMap_split (stages : List (Stage σ)) :
    (stages.flatMap Stage.split).length = stages.length + stages.countP Stage.isFused := by
  induction stages with
  | nil => rfl
  | cons stage rest ih =>
    rw [List.flatMap_cons, List.length_append, ih, Stage.length_split, List.countP_cons,
      List.length_cons]
    omega

/-- **Taking merged stages apart and running can change places.** -/
theorem run_unmerged (q : Query σ) (terminal : Terminal σ ρ) (world : World σ) :
    q.unmerged.run terminal world = (q.run terminal world).unmerged := by
  have hscan := scan?_unmerged (q.prepare terminal) terminal
  simp only [run, prepare_unmerged, traverse_unmerged, Line.Traversal.map, hscan]
  cases ((q.prepare terminal).traverse terminal world).visited with
  | error fault => rfl
  | ok visited =>
    simp only [Run.unmerged, unmerged, Stats.unmerged, Line.split, length_flatMap_split,
      countP_isFused_flatMap_split]
    rfl

/-! ### Built with and without merging -/

theorem addAll_of_not_fuse (source : List Value) (bulk : Bool)
    (operators : List (Operator σ)) :
    (ofSource source { fuse := false, bulk }).addAll operators =
      ((ofSource source { fuse := true, bulk }).addAll operators).unmerged := by
  rw [addAll_unmerged]
  rfl

end Query

/-- How the run of a query built with merging compares to the run of one built without.  A
    merged stage stands for two. -/
structure Run.MergedAs (merged plain : Run σ ρ) : Prop where
  result : merged.result = plain.result
  world : merged.world = plain.world
  control : merged.query.control = plain.query.control
  visited : merged.query.stats.visited = plain.query.stats.visited
  stoppedEarly : merged.query.stats.stoppedEarly = plain.query.stats.stoppedEarly
  bulk : merged.query.stats.bulk = plain.query.stats.bulk
  stages : merged.query.stats.stages + merged.query.stats.fused = plain.query.stats.stages
  fused : plain.query.stats.fused = 0

namespace Query

theorem mergedAs_unmerged (r : Run σ ρ) : r.MergedAs r.unmerged where
  result := rfl
  world := rfl
  control := rfl
  visited := rfl
  stoppedEarly := rfl
  bulk := rfl
  stages := rfl
  fused := rfl

/-- **Merging is transparent.**  Whatever is asked of it, a query built with merging gives what
    the query built without gives, from the same world, by the same calls of callbacks. -/
theorem run_transparent (source : List Value) (bulk : Bool) (operators : List (Operator σ))
    (terminal : Terminal σ ρ) (world : World σ) :
    (((ofSource source { fuse := true, bulk }).addAll operators).run terminal world).MergedAs
        (((ofSource source { fuse := false, bulk }).addAll operators).run terminal world) ∧
      callsOf source { fuse := true, bulk } operators terminal world =
        callsOf source { fuse := false, bulk } operators terminal world := by
  constructor
  · rw [addAll_of_not_fuse, run_unmerged]
    exact mergedAs_unmerged _
  · simp only [callsOf]
    rw [addAll_of_not_fuse, run_unmerged]
    rfl

end Query

end FusedQuery
