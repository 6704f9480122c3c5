/-
  FusedQuery/Proofs/History/Forget.lean
  =====================================
  **A query remembers how it was built, and not that it was run.**

  A query may be built on and run in any order, and a run may end in the middle of its source.
  What is left of the runs is in the counters and tables of the stages, in the control and in
  the statistics; `Query.forget` wipes these.  Building commutes with forgetting
  (`forget_add`), a run changes nothing that is not forgotten (`forget_run`), and a run does
  the same whether or not the ones before it are forgotten first (`run_forget`).  So two
  queries that are the same but for what is forgotten cannot be told apart (`Query.Alike`).

  An `Event` is one thing that may happen to a query.  A whole history of them leaves the same
  as its building alone (`forget_replay`), and no later run can see the difference
  (`replay_alike`).
-/
import FusedQuery.Proofs.Query.Building
import FusedQuery.Proofs.Query.Ready
import FusedQuery.Proofs.Recording.Basic

namespace FusedQuery

variable {σ ρ : Type}

/-- What may happen to a query.  A stage may be added in whatever state it is, and a run may
    start from any terminal in any world. -/
inductive Event (σ : Type) : Type 1 where
  | add (operator : Operator σ)
  | push (stage : Stage σ)
  | pushFusible (new : Fusible σ)
  | run {ρ : Type} (terminal : Terminal σ ρ) (world : World σ)

namespace Event

/-- The part of an event in building the query: a stage is added as it is before its first
    element, and a run has no part. -/
def build? : Event σ → Option (Event σ)
  | .add operator => some (.add operator)
  | .push stage => some (.push stage.reset)
  | .pushFusible new => some (.pushFusible new)
  | .run .. => none

/-- The event with the calls of its callbacks recorded under its place. -/
def recorded (place : Nat) : Event σ → Event (Recorded σ)
  | .add operator => .add (operator.recorded place)
  | .push stage => .push (stage.recorded place)
  | .pushFusible new => .pushFusible (new.recorded place)
  | .run terminal world => .run (terminal.recorded place) world.recorded

end Event

namespace Query

def after (q : Query σ) : Event σ → Query σ
  | .add operator => q.add operator
  | .push stage => q.push stage
  | .pushFusible new => q.pushFusible new
  | .run terminal world => (q.run terminal world).query

def replay (q : Query σ) (history : List (Event σ)) : Query σ := history.foldl after q

/-- The query as if it had never been run. -/
def forget (q : Query σ) : Query σ :=
  { source := q.source, settings := q.settings, stages := q.stages.map Stage.reset }

/-! ### Building -/

theorem forget_push (q : Query σ) (stage : Stage σ) :
    (q.push stage).forget = q.forget.push stage.reset := by
  simp only [forget, push, List.map_append, List.map_cons, List.map_nil]

theorem forget_forget (q : Query σ) : q.forget.forget = q.forget := by
  have hreset : (q.stages.map Stage.reset).map Stage.reset = q.stages.map Stage.reset := by
    rw [List.map_map]
    exact List.map_congr_left fun stage _ => stage.reset_reset
  simp only [forget, hreset]

/-- Whether two stages merge does not depend on what the first has learnt, and what they merge
    into learns nothing. -/
theorem fuse?_reset (stage : Stage σ) (new : Fusible σ) :
    stage.reset.fuse? new = (stage.fuse? new).map Stage.reset := by
  cases stage <;> cases new <;> rfl

theorem forget_pushFusible (q : Query σ) (new : Fusible σ) :
    (q.pushFusible new).forget = q.forget.pushFusible new := by
  have hnew : new.stage.reset = new.stage := by cases new <;> rfl
  have hmerged : (if q.forget.settings.fuse then
        q.forget.stages.getLast?.bind (·.fuse? new) else none) =
      (if q.settings.fuse then q.stages.getLast?.bind (·.fuse? new) else none).map
        Stage.reset := by
    simp only [forget, List.getLast?_map]
    split
    · cases q.stages.getLast? with
      | none => rfl
      | some last => exact fuse?_reset last new
    · rfl
  unfold pushFusible
  rw [hmerged]
  cases (if q.settings.fuse then q.stages.getLast?.bind (·.fuse? new) else none) with
  | none =>
    have hpush := q.forget_push new.stage
    rw [hnew] at hpush
    exact hpush
  | some merged =>
    simp only [forget, Option.map_some, List.map_append, List.map_dropLast, List.map_cons,
      List.map_nil]

theorem forget_add (q : Query σ) (operator : Operator σ) :
    (q.add operator).forget = q.forget.add operator := by
  cases operator.adds with
  | fusible new _ hadd =>
    rw [hadd, hadd]
    exact q.forget_pushFusible new
  | nothing _ hadd => rw [hadd, hadd]
  | alone stage _ halone hadd => rw [hadd, hadd, forget_push, halone.reset]

theorem forget_addAll {q fresh : Query σ} (h : q.forget = fresh.forget)
    (operators : List (Operator σ)) :
    (q.addAll operators).forget = (fresh.addAll operators).forget := by
  induction operators generalizing q fresh with
  | nil => exact h
  | cons operator rest ih =>
    apply ih
    rw [forget_add, forget_add, h]

/-! ### Running -/

theorem forget_run (q : Query σ) (terminal : Terminal σ ρ) (world : World σ) :
    (q.run terminal world).query.forget = q.forget := by
  simp only [forget, source_run, settings_run, stages_run, map_reset_traverse_prepare]

theorem prepare_forget (q : Query σ) (terminal : Terminal σ ρ) :
    q.forget.prepare terminal = { q.prepare terminal with stats := {} } := by
  have hreset := congrArg Query.stages q.forget_forget
  simp only [forget] at hreset
  simp only [prepare, forget, hreset, Line.any_canStop_map_reset]
  rfl

/-- The terminal's answer to the query and what the run leaves do not depend on the runs
    before, and nor do the statistics, unless they are still those of an earlier run because
    this one failed on its way through the source. -/
structure SameRun (q fresh : Query σ) (terminal : Terminal σ ρ) (w : World σ) : Prop where
  result : (q.run terminal w).result = (fresh.run terminal w).result
  world : (q.run terminal w).world = (fresh.run terminal w).world
  control : (q.run terminal w).query.control = (fresh.run terminal w).query.control
  stages : (q.run terminal w).query.stages = (fresh.run terminal w).query.stages
  stats : ∀ visited, ((q.prepare terminal).traverse terminal w).visited = .ok visited →
    (q.run terminal w).query.stats = (fresh.run terminal w).query.stats

theorem run_forget (q : Query σ) (terminal : Terminal σ ρ) (world : World σ) :
    q.SameRun q.forget terminal world := by
  have hready := q.prepare_forget terminal
  have hscan : (q.forget.prepare terminal).scan? terminal =
      (q.prepare terminal).scan? terminal := by rw [hready]; rfl
  have htraverse : (q.forget.prepare terminal).traverse terminal world =
      (q.prepare terminal).traverse terminal world := by rw [hready]; rfl
  cases hvisited : ((q.prepare terminal).traverse terminal world).visited with
  | error fault =>
    constructor
    case stats =>
      intro visited h
      rw [hvisited] at h
      cases h
    all_goals simp only [run, htraverse, hvisited]
  | ok visited =>
    constructor
    case stats =>
      intro _ _
      simp only [run, htraverse, hvisited, hscan]
      rfl
    all_goals simp only [run, htraverse, hvisited]

/-! ### Queries that are the same but for what is forgotten -/

/-- No plan and no run tells the two queries apart. -/
structure Alike (q fresh : Query σ) : Prop where
  plan : q.plan = fresh.plan
  run {ρ : Type} (terminal : Terminal σ ρ) (world : World σ) : q.SameRun fresh terminal world

theorem plan_forget (q : Query σ) : q.forget.plan = q.plan := by
  simp only [plan, forget, List.map_map]
  exact List.map_congr_left fun stage _ => stage.name_reset

theorem alike_of_forget {q fresh : Query σ} (h : q.forget = fresh.forget) : q.Alike fresh where
  plan := by rw [← q.plan_forget, h, fresh.plan_forget]
  run := by
    intro ρ terminal world
    have hq := q.run_forget terminal world
    have hfresh := fresh.run_forget terminal world
    rw [← h] at hfresh
    refine ⟨hq.result.trans hfresh.result.symm, hq.world.trans hfresh.world.symm,
      hq.control.trans hfresh.control.symm, hq.stages.trans hfresh.stages.symm, ?_⟩
    intro visited hvisited
    have hprepare : (fresh.prepare terminal).traverse terminal world =
        (q.prepare terminal).traverse terminal world := by
      have hcongr := congrArg (fun query => query.prepare terminal) h
      simp only [prepare_forget] at hcongr
      exact (congrArg (fun query => query.traverse terminal world) hcongr).symm
    rw [← hprepare] at hvisited
    exact (hq.stats visited (hprepare ▸ hvisited)).trans (hfresh.stats visited hvisited).symm

/-! ### Histories -/

theorem forget_after (q : Query σ) (event : Event σ) :
    (q.after event).forget = event.build?.elim q.forget q.forget.after := by
  cases event with
  | add operator => exact q.forget_add operator
  | push stage => exact q.forget_push stage
  | pushFusible new => exact q.forget_pushFusible new
  | run terminal world => exact q.forget_run terminal world

/-- **Forgetting what a history did leaves what it built.** -/
theorem forget_replay (q : Query σ) (history : List (Event σ)) :
    (q.replay history).forget = q.forget.replay (history.filterMap Event.build?) := by
  induction history generalizing q with
  | nil => rfl
  | cons event rest ih =>
    have hrest := ih (q.after event)
    rw [forget_after] at hrest
    cases hbuild : event.build? with
    | none =>
      rw [hbuild] at hrest
      rw [List.filterMap_cons_none hbuild]
      exact hrest
    | some build =>
      rw [hbuild] at hrest
      rw [List.filterMap_cons_some hbuild]
      exact hrest

/-- A history of building alone leaves nothing to be forgotten: all counters are at zero, all
    tables are empty. -/
theorem forget_replay_build (source : List Value) (settings : Settings)
    (history : List (Event σ)) :
    ((ofSource source settings).replay (history.filterMap Event.build?)).forget =
      (ofSource source settings).replay (history.filterMap Event.build?) := by
  have hreplay := (ofSource source settings).forget_replay history
  have hforget := (ofSource source settings |>.replay history).forget_forget
  rw [hreplay] at hforget
  exact hforget

theorem alike_of_build {source : List Value} {settings : Settings} {used fresh : List (Event σ)}
    (h : used.filterMap Event.build? = fresh.filterMap Event.build?) :
    ((ofSource source settings).replay used).Alike ((ofSource source settings).replay fresh) := by
  apply alike_of_forget
  rw [forget_replay, h, ← forget_replay]

theorem filterMap_build?_idem (history : List (Event σ)) :
    (history.filterMap Event.build?).filterMap Event.build? =
      history.filterMap Event.build? := by
  rw [List.filterMap_filterMap]
  congr 1
  funext event
  cases event with
  | push stage => simp only [Event.build?, Option.bind_some, Stage.reset_reset]
  | _ => rfl

def callsAfter (source : List Value) (settings : Settings) (history : List (Event (Recorded σ)))
    (terminal : Terminal (Recorded σ) ρ) (w : World σ) : List Call :=
  (((ofSource source settings).replay history).run terminal w.recorded).world.calls

/-- **Runs leave no trace.**  A query after any history and the query that was only built by it
    are alike: they have the same plan, and every run gives the same on both from the same
    world, by the same calls of callbacks.  So a run may be repeated, and building on after it
    is building on without it. -/
theorem replay_alike (source : List Value) (settings : Settings) (history : List (Event σ)) :
    let used := (ofSource source settings).replay history
    let fresh := (ofSource source settings).replay (history.filterMap Event.build?)
    let recorded := history.mapIdx Event.recorded
    fresh.forget = fresh ∧
      used.Alike fresh ∧
      (∀ {ρ : Type} (terminal : Terminal σ ρ) (w : World σ),
        callsAfter source settings recorded (terminal.recorded history.length) w =
          callsAfter source settings (recorded.filterMap Event.build?)
            (terminal.recorded history.length) w) ∧
      (∀ {ρ : Type} (terminal : Terminal σ ρ) (w : World σ) (operators : List (Operator σ)),
        (used.run terminal w).query.Alike used ∧
          ((used.run terminal w).query.addAll operators).Alike (used.addAll operators)) := by
  intro used fresh recorded
  refine ⟨forget_replay_build source settings history, ?_, ?_, ?_⟩
  · exact alike_of_build (filterMap_build?_idem history).symm
  · intro ρ terminal w
    have halike : ((ofSource source settings).replay recorded).Alike
        ((ofSource source settings).replay (recorded.filterMap Event.build?)) :=
      alike_of_build (filterMap_build?_idem recorded).symm
    exact congrArg World.calls (halike.run _ w.recorded).world
  · intro ρ terminal w operators
    have hrun : (used.run terminal w).query.forget = used.forget := used.forget_run terminal w
    exact ⟨alike_of_forget hrun, alike_of_forget (forget_addAll hrun operators)⟩

end Query

end FusedQuery
