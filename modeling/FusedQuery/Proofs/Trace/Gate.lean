/-
  FusedQuery/Proofs/Trace/Gate.lean
  =================================
  **A run looks for a stop where one may come.**

  Before a run, a query settles whether it looks for a stop at all: only if the terminal or a
  stage can ask for one.  That is enough (`gate_sound`).  Where nothing can stop, the stop is off
  at every moment, and the loop that looks would do the same as the one that does not.  Where
  something asks for a stop, the run looks for it, so it ends the sending at once.
-/
import FusedQuery.Proofs.Fusion.Transparent
import FusedQuery.Proofs.Recording.Faithful
import FusedQuery.Proofs.Scan.Agree
import FusedQuery.Proofs.Trace.Moments

namespace FusedQuery

variable {σ ρ : Type}

/-- The loop that looks for a stop does what the other does: it sends all of the source unless it
    fails, and leaves the same line, with the same world, control and answer. -/
def Line.LoopsAgree (line : Line σ ρ) (source : List Value) : Prop :=
  line.drainUntilStop 0 source =
    { visited := (line.drain source).status.map fun _ => source.length
      line := (line.drain source).line }

namespace Query

/-- The trace of a run.  A scan sends no element down the line, and leaves the control alone. -/
def moments (q : Query σ) (terminal : Terminal σ ρ) (w : World σ) : List Moment :=
  let ready := q.prepare terminal
  ⟨.start, ready.control⟩ ::
    match ready.scan? terminal with
    | some _ => []
    | none => (ready.line terminal w).traverseMoments ready.source

variable {q : Query σ} {terminal : Terminal σ ρ} {w : World σ}

theorem moments_of_no_scan (h : (q.prepare terminal).scan? terminal = none) :
    q.moments terminal w = ⟨.start, (q.prepare terminal).control⟩ ::
      ((q.prepare terminal).line terminal w).drainUntilStopMoments q.source := by
  simp only [moments, h]
  rw [Line.traverseMoments_eq (q.ready_prepare terminal w)]
  rfl

theorem moments_of_scan {scan : List Value → World σ → Terminal.Scan σ ρ}
    (h : (q.prepare terminal).scan? terminal = some scan) :
    q.moments terminal w = [⟨.start, (q.prepare terminal).control⟩] := by
  simp only [moments, h]

/-! ### The trace and the run -/

theorem control_run (q : Query σ) (terminal : Terminal σ ρ) (w : World σ) :
    (q.run terminal w).query.control =
      ((q.prepare terminal).traverse terminal w).line.control := by
  simp only [run]
  cases ((q.prepare terminal).traverse terminal w).visited <;> rfl

/-- The control that a run leaves is that of the last moment. -/
theorem lastControl_moments (control : Control) :
    Moment.lastControl control (q.moments terminal w) =
      (q.run terminal w).query.control := by
  rw [control_run]
  cases hscan : (q.prepare terminal).scan? terminal with
  | none =>
    rw [moments_of_no_scan hscan, traverse_prepare hscan]
    exact Line.lastControl_drainUntilStop ((q.prepare terminal).line terminal w) 0 q.source
  | some scan =>
    rw [moments_of_scan hscan, traverse_of_scan hscan]
    rfl

/-- Unless it scans, a run visits as many elements as it sends. -/
theorem countP_sent_moments (hscan : (q.prepare terminal).scan? terminal = none) {n : Nat}
    (h : q.visits terminal w = .ok n) : (q.moments terminal w).countP Moment.sent = n := by
  rw [visits, traverse_prepare hscan] at h
  have hsent := Line.countP_sent_of_visited h
  rw [moments_of_no_scan hscan, List.countP_cons_of_neg Bool.false_ne_true, ← hsent, Nat.zero_add]

/-! ### Where nothing can stop -/

theorem quiet_prepare (hterminal : terminal.canStop = false)
    (hstages : q.stages.any Stage.canStop = false) :
    ((q.prepare terminal).line terminal w).Quiet where
  stop := rfl
  canStop := by
    rw [← (q.ready_prepare terminal w).mayStop]
    simp only [line, prepare, hterminal, hstages, Bool.or_self]

theorem loopsAgree_prepare (hterminal : terminal.canStop = false)
    (hstages : q.stages.any Stage.canStop = false) (source : List Value) :
    ((q.prepare terminal).line terminal w).LoopsAgree source := by
  have hloop := Line.drainUntilStop_of_quiet (quiet_prepare (w := w) hterminal hstages) 0 source
  simp only [Nat.zero_add] at hloop
  exact hloop

/-! ### Where something can -/

/-- A stop that is asked for was allowed for. -/
theorem mayStop_of_frame {after : Control}
    (h : Control.Frame ((q.prepare terminal).line terminal w).canStop
      ((q.prepare terminal).line terminal w).control after) (hstop : after.stop = true) :
    after.mayStop = true := by
  have hready := q.ready_prepare terminal w
  rw [h.mayStop, hready.mayStop]
  cases hcan : ((q.prepare terminal).line terminal w).canStop with
  | true => rfl
  | false =>
    have hquiet := (h.stop_of_quiet hcan).trans hready.stop
    rw [hquiet] at hstop
    cases hstop

theorem frame_of_mem_moments {m : Moment} (h : m ∈ q.moments terminal w) :
    Control.Frame ((q.prepare terminal).line terminal w).canStop
      ((q.prepare terminal).line terminal w).control m.control := by
  have hstart := Control.Frame.refl ((q.prepare terminal).line terminal w).canStop
    ((q.prepare terminal).line terminal w).control
  cases hscan : (q.prepare terminal).scan? terminal with
  | none =>
    rw [moments_of_no_scan hscan] at h
    rcases List.mem_cons.mp h with rfl | hrest
    · exact hstart
    · exact Line.frame_of_mem_drainUntilStopMoments hrest
  | some scan =>
    rw [moments_of_scan hscan] at h
    obtain rfl := List.mem_singleton.mp h
    exact hstart

theorem stopAtOnce_moments (q : Query σ) (terminal : Terminal σ ρ) (w : World σ) :
    Moment.StopAtOnce (q.moments terminal w) := by
  have hstart : (q.prepare terminal).control.stop = false := rfl
  cases hscan : (q.prepare terminal).scan? terminal with
  | none =>
    rw [moments_of_no_scan hscan]
    exact Moment.StopAtOnce.cons hstart (Line.stopAtOnce_drainUntilStopMoments _ q.source)
  | some scan =>
    rw [moments_of_scan hscan]
    exact Moment.StopAtOnce.cons hstart Moment.StopAtOnce.nil

/-! ### Histories -/

theorem control_pushFusible (q : Query σ) (new : Fusible σ) :
    (q.pushFusible new).control = q.control := by
  rw [pushFusible_eq]

theorem control_add (q : Query σ) (operator : Operator σ) :
    (q.add operator).control = q.control := by
  rw [add_eq]

theorem frame_run (q : Query σ) (terminal : Terminal σ ρ) (w : World σ) :
    Control.Frame ((q.prepare terminal).line terminal w).canStop
      ((q.prepare terminal).line terminal w).control (q.run terminal w).query.control := by
  rw [control_run]
  cases hscan : (q.prepare terminal).scan? terminal with
  | none =>
    rw [traverse_prepare hscan]
    exact (Line.drainUntilStop_kept _ 0 q.source).control
  | some scan =>
    rw [traverse_of_scan hscan]
    exact Control.Frame.refl _ _

theorem mayStop_after (h : q.control.stop = true → q.control.mayStop = true) (event : Event σ) :
    (q.after event).control.stop = true → (q.after event).control.mayStop = true := by
  cases event with
  | add operator =>
    rw [after, control_add]
    exact h
  | push stage => exact h
  | pushFusible new =>
    rw [after, control_pushFusible]
    exact h
  | run terminal w =>
    intro hstop
    exact mayStop_of_frame (q.frame_run terminal w) hstop

theorem mayStop_replay (h : q.control.stop = true → q.control.mayStop = true)
    (history : List (Event σ)) :
    (q.replay history).control.stop = true → (q.replay history).control.mayStop = true := by
  induction history generalizing q with
  | nil => exact h
  | cons event rest ih => exact ih (mayStop_after h event)

/-- **Looking for a stop only where one may come misses none.**  Of a query of any history:

    * if neither the terminal nor a stage can stop, then a run does not look for a stop, which
      is off at all of its moments; looking would change nothing, also not the calls of
      callbacks, which are in the world of the recorded line,
    * a stop is only ever on where a run looks for it, at the moments of a run and between runs,
    * once it is on, no further element is sent, and the terminal takes in at most one.

    The last parts tie the trace to the run: its last control is the one that is left, and it
    shows as many elements sent as the run visits. -/
theorem gate_sound (source : List Value) (settings : Settings) (history : List (Event σ))
    (terminal : Terminal σ ρ) (w : World σ) :
    let q := (ofSource source settings).replay history
    let line := (q.prepare terminal).line terminal w
    let recording := (ofSource source settings).replay (history.mapIdx Event.recorded)
    let recTerminal := terminal.recorded history.length
    let recLine := (recording.prepare recTerminal).line recTerminal w.recorded
    let moments := q.moments terminal w
    (terminal.canStop = false → (∀ stage ∈ q.stages, stage.canStop = false) →
      line.control.mayStop = false ∧ (∀ m ∈ moments, m.control.stop = false) ∧
        line.LoopsAgree source ∧ recLine.LoopsAgree source) ∧
    (∀ m ∈ moments, m.control.stop = true → m.control.mayStop = true) ∧
    (q.control.stop = true → q.control.mayStop = true) ∧
    Moment.StopAtOnce moments ∧
    Moment.lastControl {} moments = (q.run terminal w).query.control ∧
    ((q.prepare terminal).scan? terminal = none →
      ∀ n, q.visits terminal w = .ok n → moments.countP Moment.sent = n) := by
  intro q line recording recTerminal recLine moments
  refine ⟨?_, ?_, ?_, ?_, ?_, ?_⟩
  · intro hterminal hall
    have hstages : q.stages.any Stage.canStop = false := by
      rw [List.any_eq_false]
      intro stage hstage
      rw [hall stage hstage]
      exact Bool.false_ne_true
    have hquiet : line.Quiet := quiet_prepare hterminal hstages
    have hmirrors := replay_mirrors source settings history
    have hrecTerminal : recTerminal.canStop = false :=
      (Terminal.mirrors_recorded history.length terminal).canStop.trans hterminal
    have hrecStages : recording.stages.any Stage.canStop = false :=
      (any_canStop_mirrors hmirrors.stages).trans hstages
    refine ⟨?_, ?_, ?_, ?_⟩
    · exact (q.ready_prepare terminal w).mayStop.trans hquiet.canStop
    · intro m hm
      exact ((frame_of_mem_moments hm).stop_of_quiet hquiet.canStop).trans hquiet.stop
    · exact loopsAgree_prepare hterminal hstages source
    · exact loopsAgree_prepare hrecTerminal hrecStages source
  · intro m hm hstop
    exact mayStop_of_frame (frame_of_mem_moments hm) hstop
  · apply mayStop_replay
    intro hstop
    cases hstop
  · exact q.stopAtOnce_moments terminal w
  · exact lastControl_moments {}
  · intro hscan n hvisits
    exact countP_sent_moments hscan hvisits

/-- A query in which nothing can stop, and one that its last run has left stopped. -/
theorem gate_sound_both :
    let source : List Value := [.null, .bool true]
    let skipping : List (Event Unit) := [.push (.skip 1)]
    let taken : List (Event Unit) := [.add (.take 1), .run (.collect #[]) ⟨0, ()⟩]
    let calm := (ofSource source {}).replay skipping
    let stopped := (ofSource source {}).replay taken
    ((∀ stage ∈ calm.stages, stage.canStop = false) ∧
      (∀ m ∈ calm.moments (.length 0) ⟨0, ()⟩, m.control.stop = false)) ∧
    (calm.visits (.length 0) ⟨0, ()⟩ = .ok 2 ∧
      (calm.moments (.length 0) ⟨0, ()⟩).countP Moment.sent = 2) ∧
    stopped.control.stop = true ∧ stopped.control.mayStop = true := by
  intro source skipping taken calm stopped
  have hcalm : ∀ stage ∈ calm.stages, stage.canStop = false := by
    intro stage hstage
    obtain rfl := List.mem_singleton.mp hstage
    rfl
  have hvisits : calm.visits (.length 0) ⟨0, ()⟩ = .ok 2 := rfl
  have hstopped : stopped.control.stop = true := rfl
  obtain ⟨hquiet, _, _, _, _, hsent⟩ := gate_sound source {} skipping (.length 0) ⟨0, ()⟩
  obtain ⟨_, _, hallowed, _⟩ := gate_sound source {} taken (.collect #[]) ⟨0, ()⟩
  exact ⟨⟨hcalm, (hquiet rfl hcalm).2.1⟩, ⟨hvisits, hsent rfl 2 hvisits⟩, hstopped,
    hallowed hstopped⟩

end Query

end FusedQuery
