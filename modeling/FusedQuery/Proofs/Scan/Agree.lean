/-
  FusedQuery/Proofs/Scan/Agree.lean
  =================================
  **Whether a query may scan makes no difference to what it answers.**

  Two queries are compared that differ in their settings: one lets a terminal scan the source on
  its own, the other takes every element through the loop.  They may have been built on and run
  in any way before.  Every question gets the same answer or the same fault from both, by the
  same calls of callbacks, and both report the same about it (`scan_agrees`).  What a scan does
  not keep up is the stop, which nothing reads once the run is over.
-/
import FusedQuery.Proofs.Query.OnSource
import FusedQuery.Proofs.Scan.Loop

namespace FusedQuery

variable {σ ρ : Type}

namespace Query

/-! ### How far a run comes -/

/-- How many elements a run looks at, or the fault that ends it on the way. -/
def visits (q : Query σ) (terminal : Terminal σ ρ) (w : World σ) : Except Fault Nat :=
  ((q.prepare terminal).traverse terminal w).visited

theorem visits_eq_loop (q : Query σ) (question : Question σ ρ) (w : World σ) :
    q.visits question.start w = (q.loop question.start w).visited :=
  (q.traverse_comesTo question w).visited

/-- What a run reports as visited, if its traversal gets through, is what it visited. -/
theorem visited_ask {q : Query σ} {question : Question σ ρ} {w : World σ} {n : Nat}
    (h : q.visits question.start w = .ok n) : (q.ask question w).query.stats.visited = n := by
  rw [visits_eq_loop] at h
  exact (q.ask_loop question w).visited h

/-- An answer is there only if the traversal gets through. -/
theorem visits_of_result {q : Query σ} {question : Question σ ρ} {w : World σ} {answer : ρ}
    (h : (q.ask question w).result = .ok answer) :
    q.visits question.start w = .ok (q.ask question w).query.stats.visited := by
  have hresult := (q.ask_loop question w).result
  cases hvisits : q.visits question.start w with
  | ok n => rw [visited_ask hvisits]
  | error fault =>
    rw [visits_eq_loop] at hvisits
    rw [hvisits, h] at hresult
    cases hresult

theorem result_of_visits {q : Query σ} {question : Question σ ρ} {w : World σ} {fault : Fault}
    (h : q.visits question.start w = .error fault) :
    (q.ask question w).result = .error fault := by
  rw [visits_eq_loop] at h
  rw [(q.ask_loop question w).result, h]
  rfl

theorem stoppedEarly_ask {q : Query σ} {question : Question σ ρ} {w : World σ} {n : Nat}
    (h : q.visits question.start w = .ok n) :
    (q.ask question w).query.stats.stoppedEarly = true ↔ n < q.source.length := by
  rw [visits_eq_loop] at h
  rw [(q.ask_loop question w).stoppedEarly h, decide_eq_true_iff]

/-! ### Queries with the same loop -/

theorem loop_of_forget {q other : Query σ} {source : List Value} {bulk : Bool}
    (h : other.forget = q.forget.onSource source bulk) (terminal : Terminal σ ρ) (w : World σ) :
    other.loop terminal w = ((q.prepare terminal).line terminal w).drainUntilStop 0 source := by
  unfold loop
  rw [line_of_forget h, source_of_forget h]

/-- Both queries give the same answer or the same fault, leave the same world, and look at the
    same number of elements. -/
structure AnswersAs (q other : Query σ) (question : Question σ ρ) (w : World σ) : Prop where
  result : (q.ask question w).result = (other.ask question w).result
  world : (q.ask question w).world = (other.ask question w).world
  visits : q.visits question.start w = other.visits question.start w

theorem answersAs_of_loop {q other : Query σ} {question : Question σ ρ} {w : World σ}
    (h : q.loop question.start w = other.loop question.start w) :
    q.AnswersAs other question w := by
  have hq := q.ask_loop question w
  have hother := other.ask_loop question w
  rw [h] at hq
  constructor
  · rw [hq.result, hother.result]
  · rw [hq.world, hother.world]
  · rw [visits_eq_loop, visits_eq_loop, h]

/-- Recorded queries that answer alike have made the same calls. -/
theorem callsAfter_of_answersAs {source other : List Value} {settings settings' : Settings}
    {history : List (Event σ)} {question : Question σ ρ} {w : World σ}
    (h : ((ofSource source settings).replay (history.mapIdx Event.recorded)).AnswersAs
      ((ofSource other settings').replay (history.mapIdx Event.recorded))
      (question.recorded history.length) w.recorded) :
    callsAfter source settings (history.mapIdx Event.recorded)
        (question.start.recorded history.length) w =
      callsAfter other settings' (history.mapIdx Event.recorded)
        (question.start.recorded history.length) w := by
  have hworld := h.world
  simp only [ask, question.start_recorded] at hworld
  exact congrArg World.calls hworld

/-! ### Answers with scans and without -/

/-- How the answers of two queries to a question compare, of which one may scan. -/
structure ScansAs (scanning stepping : Query σ) (question : Question σ ρ) (w : World σ) : Prop
    extends scanning.AnswersAs stepping question w where
  mayStop : (scanning.ask question w).query.control.mayStop =
    (stepping.ask question w).query.control.mayStop
  skipped : (scanning.ask question w).query.control.skipped =
    (stepping.ask question w).query.control.skipped
  -- A run that gets through reports how far it came, and one that fails leaves the statistics
  -- as they were.
  visited {n : Nat} : scanning.visits question.start w = .ok n →
    (scanning.ask question w).query.stats.visited = n ∧
      (stepping.ask question w).query.stats.visited = n ∧
      (scanning.ask question w).query.stats.stoppedEarly =
        (stepping.ask question w).query.stats.stoppedEarly
  untouched {fault : Fault} : scanning.visits question.start w = .error fault →
    (scanning.ask question w).query.stats = scanning.stats ∧
      (stepping.ask question w).query.stats = stepping.stats
  -- A scan leaves the stop off.
  stop : ((scanning.prepare question.start).scan? question.start).isSome →
    (scanning.ask question w).query.control.stop = false

theorem stop_of_scan {q : Query σ} {terminal : Terminal σ ρ}
    (h : ((q.prepare terminal).scan? terminal).isSome) (w : World σ) :
    (q.run terminal w).query.control.stop = false := by
  obtain ⟨scan, hscan⟩ := Option.isSome_iff_exists.mp h
  simp only [run, traverse_of_scan hscan]
  cases (scan (q.prepare terminal).source w).visited <;> rfl

theorem scansAs_of_forget {q other : Query σ} {bulk : Bool}
    (h : other.forget = q.forget.onSource q.source bulk) (question : Question σ ρ) (w : World σ) :
    other.ScansAs q question w := by
  have hsource := source_of_forget h
  have hloop : other.loop question.start w = q.loop question.start w := loop_of_forget h _ w
  have hother := other.ask_loop question w
  have hq := q.ask_loop question w
  have hanswers := answersAs_of_loop hloop
  rw [hloop] at hother
  constructor
  case toAnswersAs => exact hanswers
  case mayStop => rw [hother.mayStop, hq.mayStop]
  case skipped => rw [hother.skipped, hq.skipped]
  case visited =>
    intro n hn
    have hstepping := hanswers.visits.symm.trans hn
    refine ⟨visited_ask hn, visited_ask hstepping, ?_⟩
    rw [Bool.eq_iff_iff, stoppedEarly_ask hn, stoppedEarly_ask hstepping, hsource]
  case untouched =>
    intro fault hfault
    rw [visits_eq_loop, hloop] at hfault
    exact ⟨hother.failed hfault, hq.failed hfault⟩
  case stop =>
    intro hscan
    exact stop_of_scan hscan w

/-- There is no scan for a query with a stage. -/
theorem scan?_of_stages {q : Query σ} (h : q.stages ≠ []) (terminal : Terminal σ ρ) :
    (q.prepare terminal).scan? terminal = none := by
  cases hscan : (q.prepare terminal).scan? terminal with
  | none => rfl
  | some scan => exact absurd (List.map_eq_nil_iff.mp (stages_of_scan hscan)) h

/-- The permission to scan means nothing to a query with a stage. -/
theorem sameRun_of_stages {q other : Query σ} {bulk : Bool}
    (h : other.forget = q.forget.onSource q.source bulk) (hstages : q.stages ≠ [])
    (terminal : Terminal σ ρ) (w : World σ) : other.SameRun q terminal w := by
  have hsource := source_of_forget h
  have hreset : other.stages.map Stage.reset = q.stages.map Stage.reset :=
    congrArg (fun fresh => fresh.stages) h
  have hother : other.stages ≠ [] := by
    intro hnil
    rw [hnil] at hreset
    exact hstages (List.map_eq_nil_iff.mp hreset.symm)
  have hscan := scan?_of_stages hstages terminal
  have hotherScan := scan?_of_stages hother terminal
  have htraverse : (other.prepare terminal).traverse terminal w =
      (q.prepare terminal).traverse terminal w := by
    rw [traverse_prepare hscan, traverse_prepare hotherScan]
    exact loop_of_forget h terminal w
  cases hvisited : ((q.prepare terminal).traverse terminal w).visited with
  | error fault =>
    constructor
    case stats =>
      intro visited h
      rw [htraverse, hvisited] at h
      cases h
    all_goals simp only [run, htraverse, hvisited]
  | ok visited =>
    constructor
    case stats =>
      intro _ _
      simp only [run, htraverse, hvisited, hscan, hotherScan, hsource]
    all_goals simp only [run, htraverse, hvisited]

/-- **Scanning a source agrees with sending its elements one by one,** for every question to a
    query of any history.  A query with a stage runs in the same way whether it may scan or
    not. -/
theorem scan_agrees (source : List Value) (settings : Settings) (history : List (Event σ))
    (question : Question σ ρ) (w : World σ) :
    let scanning := (ofSource source { settings with bulk := true }).replay history
    let stepping := (ofSource source { settings with bulk := false }).replay history
    let recorded := history.mapIdx Event.recorded
    let terminal := question.start.recorded history.length
    scanning.ScansAs stepping question w ∧
      callsAfter source { settings with bulk := true } recorded terminal w =
        callsAfter source { settings with bulk := false } recorded terminal w ∧
      (stepping.stages ≠ [] → scanning.SameRun stepping question.start w) := by
  intro scanning stepping recorded terminal
  have hforget : ∀ {τ : Type} (past : List (Event τ)),
      ((ofSource source { settings with bulk := true }).replay past).forget =
        ((ofSource source { settings with bulk := false }).replay past).forget.onSource
          ((ofSource source { settings with bulk := false }).replay past).source true := by
    intro τ past
    rw [source_replay]
    exact forget_replay_ofSource source source { settings with bulk := false } true past
  refine ⟨scansAs_of_forget (hforget history) question w, ?_, ?_⟩
  · have hscans := scansAs_of_forget (hforget recorded) (question.recorded history.length)
      w.recorded
    exact callsAfter_of_answersAs hscans.toAnswersAs
  · intro hstages
    exact sameRun_of_stages (hforget history) hstages question.start w

/-- A query with a stage, to which the permission to scan means nothing. -/
theorem scan_agrees_taking :
    let history : List (Event Unit) := [.add (.take 1)]
    let scanning := (ofSource [.null, .bool true] { bulk := true }).replay history
    let stepping := (ofSource [.null, .bool true] { bulk := false }).replay history
    let question : Question Unit Int64 := .indexOf (.value (.bool true))
    stepping.stages ≠ [] ∧ scanning.SameRun stepping question.start ⟨0, ()⟩ := by
  intro history scanning stepping question
  have hstages : stepping.stages ≠ [] := List.cons_ne_nil _ _
  have hagrees := scan_agrees [.null, .bool true] {} history question ⟨0, ()⟩
  exact ⟨hstages, hagrees.2.2 hstages⟩

end Query

end FusedQuery
