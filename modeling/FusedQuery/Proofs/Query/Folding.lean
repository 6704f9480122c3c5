/-
  FusedQuery/Proofs/Query/Folding.lean
  ====================================
  **Questions whose terminal folds.**

  Such a question is answered with the fold over what is delivered to its terminal, each step in
  the world of its arrival, if no step fails and no stage does (`result_of_fold`).  A step that
  fails ends the run: nothing is put down, nothing more is sent, and the world is as that step
  left it (`failsInFold_of_error`).

  The calls of the terminal are those of its steps (`callsAfter_folds`), so they are what is
  delivered if every step calls once (`callsAfter_folds_once`).  If the callbacks of the
  stages and those of the question do not disturb each other, what is delivered is the stream
  that the stages emit on their own (`delivered_of_folds`).
-/
import FusedQuery.Proofs.Line.Calls
import FusedQuery.Proofs.Query.Prefix
import FusedQuery.Proofs.Stream.Answers

namespace FusedQuery

variable {σ ρ β : Type}

namespace Query

/-- A run that a step of the terminal's fold ends, `line` being the query at work. -/
structure FailsInFold (q : Query σ) (question : Question σ ρ) (w : World σ) (line : Line σ ρ)
    (step : β → Value → Act σ β) (b : β) (fault : Fault) : Prop where
  result : (q.ask question w).result = .error fault
  stats : (q.ask question w).query.stats = q.stats
  -- The element of the source that it came from is the last to be sent.
  last : ∃ k, q.FailsAt question w k fault ∧ line.sent q.source = q.source.take (k + 1)
  fold : ∃ front last reached, FoldFails step b (line.delivered q.source) fault
    (q.ask question w).world front last reached

section Folding

variable {q : Query σ} {question : Question σ ρ} {w : World σ} {terminal : β → Terminal σ ρ}
  {step : β → Value → Act σ β} {b : β}

/-! ### How a run ends -/

/-- If all steps succeed, the answer is that of the last, unless a stage fails. -/
theorem result_of_fold (hfolds : Terminal.Folds terminal step)
    (hstart : question.start = terminal b) {last : β} :
    let line := (q.prepare question.start).line question.start w
    foldArrivals step b (line.delivered q.source) = .ok last →
      (∀ n, q.visits question.start w = .ok n →
        (q.ask question w).result = (terminal last).finish) ∧
      ∀ fault, q.visits question.start w = .error fault →
        (q.ask question w).result = .error fault ∧ line.FailsUpstream q.source fault := by
  intro line hlast
  have hline : line.terminal = terminal b := hstart
  obtain ⟨hterminal, hupstream⟩ :=
    (Line.drainUntilStop_folds hfolds hline 0 q.source).through hlast
  constructor
  · intro n hn
    rw [visits_eq_loop] at hn
    rw [(q.ask_loop question w).result, hn]
    exact congrArg Terminal.finish hterminal
  · intro fault hfault
    have hvisited := hfault
    rw [visits_eq_loop] at hvisited
    exact ⟨result_of_visits hfault, hupstream fault hvisited⟩

/-- The steps before the last arrival do not fail. -/
theorem fold_dropLast (hfolds : Terminal.Folds terminal step)
    (hstart : question.start = terminal b) :
    let line := (q.prepare question.start).line question.start w
    ∃ reached, foldArrivals step b (line.delivered q.source).dropLast = .ok reached := by
  intro line
  have hline : line.terminal = terminal b := hstart
  cases hfold : foldArrivals step b (line.delivered q.source) with
  | error fault => exact ((Line.drainUntilStop_folds hfolds hline 0 q.source).failed hfold).2
  | ok last => exact foldArrivals_dropLast hfold

theorem failsInFold_of_error (hfolds : Terminal.Folds terminal step)
    (hstart : question.start = terminal b) {fault : Fault} :
    let line := (q.prepare question.start).line question.start w
    foldArrivals step b (line.delivered q.source) = .error fault →
      q.FailsInFold question w line step b fault := by
  intro line hfault
  have hline : line.terminal = terminal b := hstart
  have hvisited := ((Line.drainUntilStop_folds hfolds hline 0 q.source).failed hfault).1
  have hvisits := (visits_eq_loop q question w).trans hvisited
  have hrun := q.ask_loop question w
  obtain ⟨k, hk⟩ := visits_eq_error_iff.mp hvisits
  constructor
  case result => exact result_of_visits hvisits
  case stats => exact hrun.failed hvisited
  case last => exact ⟨k, hk, Line.sent_of_failsAt hk⟩
  case fold =>
    rw [hrun.world]
    exact Line.drainUntilStop_of_fold_error hfolds hline 0 hfault

/-! ### The stream -/

/-- If the callbacks do not disturb each other, what is delivered is the stream of the query,
    up to the element at which a step fails. -/
theorem delivered_of_folds (hapart : q.Apart question) (hfolds : Terminal.Folds terminal step)
    (hstart : question.start = terminal b)
    (hlocal : question.start.Acts Act.Local → ∀ b, (terminal b).Acts Act.Local) (w : World σ) :
    let arrived := ((q.prepare question.start).line question.start w).delivered q.source
    arrived.map Arrival.item <+: (q.stream w).items ∧
      ∀ last, foldArrivals step b arrived = .ok last →
        arrived.map Arrival.item = (q.stream w).items := by
  intro arrived
  have hcontrol : ((q.prepare question.start).line question.start w).control =
      Control.allow {} (question.start.canStop || q.stages.any Stage.canStop) := rfl
  have hstream : q.stream w =
      Line.emit ((q.prepare question.start).line question.start w).stages
        ((q.prepare question.start).line question.start w).control w q.source := by
    rw [stream_eq_emit, hcontrol, Line.emit_allow]
    rfl
  rw [hstream]
  cases hapart with
  | still hstages =>
    exact Line.delivered_emit hfolds (fun b => (terminal b).sees_all) hstart
      (sees_prepare hstages question.start) trivial q.source
  | parts hstages hquestion =>
    exact Line.delivered_emit hfolds (hlocal hquestion) hstart
      (sees_prepare hstages question.start) rfl q.source

end Folding

/-! ### The calls -/

/-- **The calls of a question whose terminal folds are those of its steps.** -/
theorem callsAfter_folds (source : List Value) (settings : Settings) (history : List (Event σ))
    (question : Question σ ρ) (w : World σ) {recTerminal : β → Terminal (Recorded σ) ρ}
    {recStep : β → Value → Act (Recorded σ) β} {step : β → Value → Act σ β} {b : β}
    (hfolds : Terminal.Folds recTerminal recStep)
    (hstart : question.start.recorded history.length = recTerminal b)
    (hstep : ∀ b item, (recStep b item).Mirrors (step b item)) {calls : β → Value → List Call}
    (hcalls : ∀ b item w, ((recStep b item).run w).world.callsAt history.length =
      w.callsAt history.length ++ calls b item) :
    let q := (ofSource source settings).replay history
    let line := (q.prepare question.start).line question.start w
    ((callsAfter source settings (history.mapIdx Event.recorded)
        (question.start.recorded history.length) w).filter
          fun call => call.place = history.length) =
      foldCalls step calls b (line.delivered q.source) := by
  intro q line
  have hmirrors := replay_mirrors source settings history
  have hsees := sees_stages_replay source settings history
  unfold callsAfter
  generalize (ofSource source settings).replay (history.mapIdx Event.recorded) = recording
    at hmirrors hsees ⊢
  let terminal := question.start.recorded history.length
  let recLine := (recording.prepare terminal).line terminal w.recorded
  have hterminal : terminal.Mirrors question.start := question.start.mirrors_recorded _
  have hready := hmirrors.prepare hterminal
  have hline : recLine.Mirrors line := ⟨hready.stages, hready.control, hterminal, rfl⟩
  have hworld := (recording.ask_loop (question.recorded history.length) w.recorded).world
  rw [ask, loop, question.start_recorded] at hworld
  have hstages : ∀ stage ∈ recLine.stages, stage.Sees Eq (World.SameCalls history.length) :=
    sees_prepare hsees terminal
  have hrecorded := Line.callsAt_of_folds hfolds hcalls hstart hstages 0 recording.source
  rw [foldCalls_mirrors hstep, hmirrors.source, Line.arrivals_delivered_mirrors hline] at hrecorded
  rw [hmirrors.source] at hworld
  exact (congrArg (World.callsAt · history.length) hworld).trans hrecorded

/-- If every step calls once, with its element, the calls are what is delivered. -/
theorem callsAfter_folds_once (source : List Value) (settings : Settings)
    (history : List (Event σ)) (question : Question σ ρ) (w : World σ)
    {terminal : β → Terminal σ ρ} {recTerminal : β → Terminal (Recorded σ) ρ}
    {recStep : β → Value → Act (Recorded σ) β} {step : β → Value → Act σ β} {b : β}
    (hfolds : Terminal.Folds terminal step) (hstart : question.start = terminal b)
    (hrecFolds : Terminal.Folds recTerminal recStep)
    (hrecStart : question.start.recorded history.length = recTerminal b)
    (hstep : ∀ b item, (recStep b item).Mirrors (step b item))
    (hcalls : ∀ b item w, ((recStep b item).run w).world.callsAt history.length =
      w.callsAt history.length ++ [⟨history.length, false, [item]⟩]) :
    let q := (ofSource source settings).replay history
    let line := (q.prepare question.start).line question.start w
    ((callsAfter source settings (history.mapIdx Event.recorded)
        (question.start.recorded history.length) w).filter
          fun call => call.place = history.length) =
      (line.delivered q.source).map fun arrival => ⟨history.length, false, [arrival.item]⟩ := by
  intro q line
  have hall := callsAfter_folds source settings history question w hrecFolds hrecStart hstep hcalls
  exact hall.trans (foldCalls_eq_map _ (fold_dropLast hfolds hstart))

end Query

end FusedQuery
