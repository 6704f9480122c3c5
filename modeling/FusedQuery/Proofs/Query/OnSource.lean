/-
  FusedQuery/Proofs/Query/OnSource.lean
  =====================================
  **The same stages over another source, with scans or without.**

  Neither the source nor the permission to scan has a part in the building of a query, so
  queries that differ only in them stay so while they are built (`add_onSource`).  Runs in between
  leave different counters and statistics behind, all of which the next run forgets
  (`forget_replay_ofSource`).
-/
import FusedQuery.Proofs.History.Forget

namespace FusedQuery.Query

variable {σ ρ : Type}

/-- The query over another source, and with scans allowed or not. -/
def onSource (q : Query σ) (source : List Value) (bulk : Bool) : Query σ :=
  { q with source, settings := { q.settings with bulk } }

variable {source : List Value} {bulk : Bool}

/-! ### Building -/

theorem pushFusible_onSource (q : Query σ) (new : Fusible σ) :
    (q.onSource source bulk).pushFusible new = (q.pushFusible new).onSource source bulk := by
  have hmerged : (if (q.onSource source bulk).settings.fuse then
        (q.onSource source bulk).stages.getLast?.bind (·.fuse? new) else none) =
      (if q.settings.fuse then q.stages.getLast?.bind (·.fuse? new) else none) := rfl
  unfold pushFusible
  rw [hmerged]
  cases (if q.settings.fuse then q.stages.getLast?.bind (·.fuse? new) else none) <;> rfl

theorem add_onSource (q : Query σ) (operator : Operator σ) :
    (q.onSource source bulk).add operator = (q.add operator).onSource source bulk := by
  cases operator.adds with
  | fusible new _ hadd =>
    rw [hadd, hadd]
    exact q.pushFusible_onSource new
  | nothing _ hadd => rw [hadd, hadd]
  | alone stage _ _ hadd =>
    rw [hadd, hadd]
    rfl

/-! ### Running -/

theorem line_prepare_forget (q : Query σ) (terminal : Terminal σ ρ) (w : World σ) :
    (q.forget.prepare terminal).line terminal w = (q.prepare terminal).line terminal w := by
  rw [prepare_forget]
  rfl

/-- Queries that are the same but for what is forgotten, for the source, and for the permission
    to scan, start a run with the same line. -/
theorem line_of_forget {q other : Query σ} (h : other.forget = q.forget.onSource source bulk)
    (terminal : Terminal σ ρ) (w : World σ) :
    (other.prepare terminal).line terminal w = (q.prepare terminal).line terminal w := by
  rw [← line_prepare_forget other, h, ← line_prepare_forget q]
  rfl

theorem source_of_forget {q other : Query σ} (h : other.forget = q.forget.onSource source bulk) :
    other.source = source :=
  congrArg (fun fresh => fresh.source) h

/-! ### Histories -/

/-- The part of an event in building does not look at the source. -/
theorem after_build_onSource (q : Query σ) {event build : Event σ} (h : event.build? = some build) :
    (q.onSource source bulk).after build = (q.after build).onSource source bulk := by
  cases event with
  | add operator =>
    obtain rfl := Option.some.inj h
    exact q.add_onSource operator
  | push stage =>
    obtain rfl := Option.some.inj h
    rfl
  | pushFusible new =>
    obtain rfl := Option.some.inj h
    exact q.pushFusible_onSource new
  | run terminal world => cases h

theorem forget_after_onSource {q other : Query σ} (h : other.forget = q.forget.onSource source bulk)
    (event : Event σ) : (other.after event).forget = (q.after event).forget.onSource source bulk := by
  rw [forget_after, forget_after, h]
  cases hbuild : event.build? with
  | none => rfl
  | some build => exact q.forget.after_build_onSource hbuild

theorem forget_replay_onSource {q other : Query σ} (h : other.forget = q.forget.onSource source bulk)
    (history : List (Event σ)) :
    (other.replay history).forget = (q.replay history).forget.onSource source bulk := by
  induction history generalizing q other with
  | nil => exact h
  | cons event rest ih => exact ih (forget_after_onSource h event)

/-- **A history makes the same query of two sources,** each over its own, whether it may scan
    or not. -/
theorem forget_replay_ofSource (source other : List Value) (settings : Settings) (bulk : Bool)
    (history : List (Event σ)) :
    ((ofSource other { settings with bulk }).replay history).forget =
      ((ofSource source settings).replay history).forget.onSource other bulk := by
  have hsource : (ofSource other { settings with bulk } : Query σ).forget =
      (ofSource source settings).forget.onSource other bulk := rfl
  exact forget_replay_onSource hsource history

theorem source_replay (q : Query σ) (history : List (Event σ)) :
    (q.replay history).source = q.source := by
  have hover : q.forget = q.forget.onSource q.source q.settings.bulk := rfl
  have hsource : (q.replay history).forget.source = q.source := by
    rw [forget_replay_onSource hover]
    rfl
  exact hsource

end FusedQuery.Query
