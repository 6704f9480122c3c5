/-
  FusedQuery/Proofs/Recording/Places.lean
  =======================================
  **Calls are recorded under their places.**

  What a history has added to a query records its calls under the places of the history, so
  these stages leave the calls of every other place alone (`sees_stages_replay`), among them
  those of the terminal.  At a place of a line that records, the same elements arrive as at that
  of one that does not, and in the same worlds but for the record (`arrivals_mirrors`).
-/
import FusedQuery.Proofs.Line.Fold
import FusedQuery.Proofs.Meaning.Operators
import FusedQuery.Proofs.Recording.Faithful

namespace FusedQuery

variable {σ ρ : Type}

namespace World

def callsAt (w : World (Recorded σ)) (place : Nat) : List Call :=
  w.calls.filter fun call => call.place = place

/-- The worlds agree on the calls of a place. -/
def SameCalls (place : Nat) (u w : World (Recorded σ)) : Prop := u.callsAt place = w.callsAt place

theorem callsAt_recorded (place : Nat) {α : Type} (act : Act σ α) (call : Call)
    (w : World (Recorded σ)) :
    ((act.recorded call).run w).world.callsAt place =
      w.callsAt place ++ if call.place = place then [call] else [] := by
  have hcalls : ((act.recorded call).run w).world.calls = w.calls ++ [call] := rfl
  simp only [callsAt, hcalls, List.filter_append, List.filter_singleton, Bool.cond_decide]

end World

/-! ### Stages leave the calls of other places alone -/

theorem Act.sees_recorded {place : Nat} {call : Call} (h : call.place ≠ place) {α : Type}
    (act : Act σ α) : (act.recorded call).Sees Eq (World.SameCalls place) where
  result := fun hsame => hsame ▸ rfl
  seen := fun hsame => hsame ▸ rfl
  kept := by
    intro v w hsame
    have hcalls := World.callsAt_recorded place act call w
    rw [if_neg h, List.append_nil] at hcalls
    exact hsame.trans hcalls.symm

theorem Stage.sees_recorded {place other : Nat} (h : other ≠ place) (stage : Stage σ) :
    (stage.recorded other).Sees Eq (World.SameCalls place) := by
  have hcallback : ∀ {α : Type} (late : Bool) (callback : Value → Act σ α) (v : Value),
      (recordedCallback other late callback v).Sees Eq (World.SameCalls place) :=
    fun late callback v => Act.sees_recorded h (callback v)
  cases stage with
  | filter test => exact hcallback false test
  | reject test => exact hcallback false test
  | map change => exact hcallback false change
  | filterFilter early late => exact ⟨hcallback false early, hcallback true late⟩
  | filterMap test change => exact ⟨hcallback false test, hcallback true change⟩
  | mapFilter change test => exact ⟨hcallback false change, hcallback true test⟩
  | mapMap early late => exact ⟨hcallback false early, hcallback true late⟩
  | zip other pos =>
    intro items
    exact ⟨fun hsame => hsame ▸ rfl, fun hsame => hsame ▸ rfl, id⟩
  | first test? =>
    cases test? with
    | none => trivial
    | some test => exact hcallback false test
  | uniq eq? seen =>
    cases eq? with
    | none => trivial
    | some eq => exact fun v w => Act.sees_recorded h (eq v w)
  | _ => trivial

/-! ### What a history adds to a query -/

/-- Every act of what the event adds to a query has the property. -/
def Event.Acts (P : {α : Type} → Act σ α → Prop) : Event σ → Prop
  | .add operator => ∀ stage ∈ operator.stages, stage.Acts P
  | .push stage => stage.Acts P
  | .pushFusible new => new.stage.Acts P
  | .run .. => True

namespace Query

variable {P : {α : Type} → Act σ α → Prop} {q : Query σ}

theorem acts_push (h : ∀ stage ∈ q.stages, stage.Acts P) {new : Stage σ} (hnew : new.Acts P) :
    ∀ stage ∈ (q.push new).stages, stage.Acts P := by
  intro stage hmem
  rcases List.mem_append.mp hmem with hmem | hmem
  · exact h stage hmem
  · rwa [List.mem_singleton.mp hmem]

/-- Merged stages have the acts of both. -/
theorem acts_of_fuse? {last merged : Stage σ} {new : Fusible σ}
    (h : last.fuse? new = some merged) (hlast : last.Acts P) (hnew : new.stage.Acts P) :
    merged.Acts P := by
  cases last with
  | filter test => cases new <;> cases h <;> exact ⟨hlast, hnew⟩
  | map change => cases new <;> cases h <;> exact ⟨hlast, hnew⟩
  | _ => cases h

theorem acts_pushFusible (h : ∀ stage ∈ q.stages, stage.Acts P) {new : Fusible σ}
    (hnew : new.stage.Acts P) : ∀ stage ∈ (q.pushFusible new).stages, stage.Acts P := by
  rcases q.pushFusible_cases new with ⟨front, last, merged, hstages, hfuse, hpush⟩ | hpush
  · rw [hstages] at h
    have hlast := h last (List.mem_append_right front List.mem_cons_self)
    rw [hpush]
    intro stage hmem
    rcases List.mem_append.mp hmem with hmem | hmem
    · exact h stage (List.mem_append_left [last] hmem)
    · rw [List.mem_singleton.mp hmem]
      exact acts_of_fuse? hfuse hlast hnew
  · rw [hpush]
    exact acts_push h hnew

theorem acts_add (h : ∀ stage ∈ q.stages, stage.Acts P) {operator : Operator σ}
    (hoperator : ∀ stage ∈ operator.stages, stage.Acts P) :
    ∀ stage ∈ (q.add operator).stages, stage.Acts P := by
  rw [Operator.stages] at hoperator
  cases operator.adds with
  | fusible new _ hadd =>
    rw [hadd, pushFusible_of_not_fuse rfl] at hoperator
    rw [hadd]
    exact acts_pushFusible h (hoperator new.stage List.mem_cons_self)
  | nothing _ hadd =>
    rw [hadd]
    exact h
  | alone stage _ _ hadd =>
    rw [hadd] at hoperator ⊢
    exact acts_push h (hoperator stage List.mem_cons_self)

theorem acts_after (h : ∀ stage ∈ q.stages, stage.Acts P) {event : Event σ}
    (hevent : event.Acts P) : ∀ stage ∈ (q.after event).stages, stage.Acts P := by
  cases event with
  | add operator => exact acts_add h hevent
  | push stage => exact acts_push h hevent
  | pushFusible new => exact acts_pushFusible h hevent
  | run terminal w =>
    have hreset := congrArg Query.stages (q.forget_run terminal w)
    intro stage hmem
    have hfresh : stage.reset ∈ q.stages.map Stage.reset := by
      simp only [forget] at hreset
      rw [← hreset]
      exact List.mem_map_of_mem hmem
    obtain ⟨before, hbefore, heq⟩ := List.mem_map.mp hfresh
    rw [← Stage.acts_reset, ← heq, Stage.acts_reset]
    exact h before hbefore

/-- **A query does nothing but what was added to it does.** -/
theorem acts_replay (h : ∀ stage ∈ q.stages, stage.Acts P) {history : List (Event σ)}
    (hhistory : ∀ event ∈ history, event.Acts P) :
    ∀ stage ∈ (q.replay history).stages, stage.Acts P := by
  induction history generalizing q with
  | nil => exact h
  | cons event rest ih =>
    obtain ⟨hevent, hrest⟩ := List.forall_mem_cons.mp hhistory
    exact ih (acts_after h hevent) hrest

end Query

/-! ### A recorded history -/

theorem Operator.stages_recorded (place : Nat) (operator : Operator σ) :
    (operator.recorded place).stages = operator.stages.map (Stage.recorded place) := by
  cases operator with
  | slice start end? =>
    simp only [Operator.stages, Operator.recorded, Query.add, Query.addSlice]
    split
    · rfl
    · split <;> rfl
  | get n =>
    simp only [Operator.stages, Operator.recorded, Query.add, Query.addGet]
    split
    · rfl
    · split <;> rfl
  | _ => rfl

theorem Event.sees_recorded {place other : Nat} (h : other ≠ place) (event : Event σ) :
    (event.recorded other).Acts (Act.Sees Eq (World.SameCalls place)) := by
  cases event with
  | add operator =>
    intro stage hmem
    rw [operator.stages_recorded other] at hmem
    obtain ⟨plain, -, rfl⟩ := List.mem_map.mp hmem
    exact plain.sees_recorded h
  | push stage => exact stage.sees_recorded h
  | pushFusible new =>
    have hnew : (new.recorded other).stage = new.stage.recorded other := by cases new <;> rfl
    rw [Event.recorded, Event.Acts, hnew]
    exact new.stage.sees_recorded h
  | run terminal w => trivial

/-- **What a recorded history has built calls nothing under the place behind it.** -/
theorem Query.sees_stages_replay (source : List Value) (settings : Settings)
    (history : List (Event σ)) :
    ∀ stage ∈ ((ofSource source settings).replay (history.mapIdx Event.recorded)).stages,
      stage.Sees Eq (World.SameCalls history.length) := by
  apply Query.acts_replay (List.forall_mem_nil _)
  intro event hmem
  obtain ⟨place, hplace, rfl⟩ := List.mem_mapIdx.mp hmem
  exact (history[place]).sees_recorded (Nat.ne_of_lt hplace)

namespace Line

/-! ### The arrivals of a line that records -/

structure Transit.Mirrors (recording : Transit (Recorded σ)) (t : Transit σ) : Prop where
  flow : recording.flow = t.flow
  world : recording.world.plain = t.world

theorem transit_mirrors {recStages : List (Stage (Recorded σ))} {stages : List (Stage σ)}
    (h : List.Forall₂ Stage.Mirrors recStages stages) (control : Control) (item : Value)
    (w : World (Recorded σ)) :
    (transit control item w recStages).Mirrors (transit control item w.plain stages) := by
  induction h generalizing control item w with
  | nil => exact ⟨rfl, rfl⟩
  | cons hstage hrest ih =>
    rename_i recStage stage recRest rest
    obtain ⟨hflow, -, hcontrol, hworld⟩ := Stage.step_mirrors hstage control item w
    simp only [transit, hflow, hcontrol]
    cases (stage.step control item w.plain).flow with
    | error fault => exact ⟨rfl, hworld⟩
    | ok flow =>
      cases flow with
      | drop => exact ⟨rfl, hworld⟩
      | forward next =>
        have honward := ih (stage.step control item w.plain).control next
          (recStage.step control item w).world
        rw [hworld] at honward
        exact ⟨honward.flow, honward.world⟩

/-- The same elements arrive in the same worlds, but for the record. -/
theorem arrivals_mirrors {recording : Line (Recorded σ) ρ} {line : Line σ ρ}
    (h : recording.Mirrors line) (place : Nat) (items : List Value) :
    ((recording.arrivals place items).map fun arrival =>
        (⟨arrival.item, arrival.world.plain⟩ : Arrival σ)) = line.arrivals place items := by
  induction items generalizing recording line with
  | nil => rfl
  | cons item rest ih =>
    have hfront := transit_mirrors (List.forall₂_take place h.stages) recording.control item
      recording.world
    rw [arrivals, arrivals, List.map_append, ih (dispatch_mirrors h item).line]
    congr 1
    rw [arrival?, arrival?, ← h.control, ← h.world, Transit.arrival?, Transit.arrival?,
      hfront.flow, ← hfront.world]
    rcases (transit recording.control item recording.world.plain (line.stages.take place)).flow
      with fault | flow
    · rfl
    · cases flow <;> rfl

theorem sent_mirrors {recording : Line (Recorded σ) ρ} {line : Line σ ρ}
    (h : recording.Mirrors line) (source : List Value) :
    recording.sent source = line.sent source := by
  induction source generalizing recording line with
  | nil => rfl
  | cons item rest ih =>
    obtain ⟨hstatus, hline⟩ := dispatch_mirrors h item
    simp only [sent, h.control, hstatus, ih hline]

end Line

end FusedQuery
