/-
  FusedQuery/Proofs/Query/Ready.lean
  ==================================
  **What a run starts from.**

  `Query.prepare` resets the stages and the control and settles `mayStop`.  The line that a run
  then sends its source down is `Ready` (`ready_prepare`), so every run that does not scan is a
  run of the loop that looks for a stop (`traverse_prepare`).
-/
import FusedQuery.Query.Ask
import FusedQuery.Proofs.Line.Loop

namespace FusedQuery.Query

variable {σ ρ : Type}

def line (q : Query σ) (terminal : Terminal σ ρ) (world : World σ) : Line σ ρ :=
  ⟨q.stages, q.control, terminal, world⟩

theorem ready_prepare (q : Query σ) (terminal : Terminal σ ρ) (world : World σ) :
    ((q.prepare terminal).line terminal world).Ready where
  stop := rfl
  mayStop := by
    simp only [line, prepare, Line.canStop, Line.any_canStop_map_reset]

theorem traverse_of_scan {q : Query σ} {terminal : Terminal σ ρ}
    {scan : List Value → World σ → Terminal.Scan σ ρ} (h : q.scan? terminal = some scan)
    (world : World σ) :
    q.traverse terminal world =
      ⟨(scan q.source world).visited,
        q.line (scan q.source world).terminal (scan q.source world).world⟩ := by
  simp only [traverse, h, line]

theorem traverse_of_no_scan {q : Query σ} {terminal : Terminal σ ρ}
    (h : q.scan? terminal = none) (world : World σ) :
    q.traverse terminal world = (q.line terminal world).traverse q.source := by
  simp only [traverse, h, line]

/-- Without a scan, a prepared query goes through its source looking for a stop. -/
theorem traverse_prepare {q : Query σ} {terminal : Terminal σ ρ}
    (h : (q.prepare terminal).scan? terminal = none) (world : World σ) :
    (q.prepare terminal).traverse terminal world =
      ((q.prepare terminal).line terminal world).drainUntilStop 0 q.source := by
  rw [traverse_of_no_scan h, Line.traverse_eq (q.ready_prepare terminal world)]
  rfl

/-- There is a scan only for a query without stages. -/
theorem stages_of_scan {q : Query σ} {terminal : Terminal σ ρ}
    {scan : List Value → World σ → Terminal.Scan σ ρ} (h : q.scan? terminal = some scan) :
    q.stages = [] := by
  unfold scan? at h
  split at h
  · next hbulk =>
    obtain ⟨_, hempty⟩ := Bool.and_eq_true_iff.mp hbulk
    exact List.isEmpty_iff.mp hempty
  · cases h

theorem map_reset_traverse_prepare (q : Query σ) (terminal : Terminal σ ρ) (world : World σ) :
    ((q.prepare terminal).traverse terminal world).line.stages.map Stage.reset =
      q.stages.map Stage.reset := by
  have hprepare : (q.prepare terminal).stages.map Stage.reset = q.stages.map Stage.reset := by
    simp only [prepare, List.map_map]
    exact List.map_congr_left fun stage _ => stage.reset_reset
  cases hscan : (q.prepare terminal).scan? terminal with
  | none =>
    rw [traverse_prepare hscan, ← hprepare]
    exact (Line.drainUntilStop_kept _ 0 q.source).stages
  | some scan =>
    rw [traverse_of_scan hscan]
    exact hprepare

theorem source_run (q : Query σ) (terminal : Terminal σ ρ) (world : World σ) :
    (q.run terminal world).query.source = q.source := by
  simp only [run]
  cases ((q.prepare terminal).traverse terminal world).visited <;> rfl

theorem settings_run (q : Query σ) (terminal : Terminal σ ρ) (world : World σ) :
    (q.run terminal world).query.settings = q.settings := by
  simp only [run]
  cases ((q.prepare terminal).traverse terminal world).visited <;> rfl

theorem stages_run (q : Query σ) (terminal : Terminal σ ρ) (world : World σ) :
    (q.run terminal world).query.stages =
      ((q.prepare terminal).traverse terminal world).line.stages := by
  simp only [run]
  cases ((q.prepare terminal).traverse terminal world).visited <;> rfl

end FusedQuery.Query
