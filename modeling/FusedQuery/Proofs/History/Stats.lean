/-
  FusedQuery/Proofs/History/Stats.lean
  ====================================
  **The statistics of a query are those of the latest run that got through.**

  A run gets through if nothing fails while the source is gone through.  It has put down its
  statistics by the time at which a fold without elements is found to have no answer, so such a
  fold has got through as well.  A run that fails on its way puts down nothing, and building
  does not touch the statistics either (`stats_after`).  So a query of any history shows what
  the latest of the runs that got through has put down (`stats_history`).

  What a run puts down is said in terms of the plan of the query before it (`Stats.Describes`).
-/
import FusedQuery.Proofs.Line.Prefix
import FusedQuery.Proofs.Scan.Agree

namespace FusedQuery

variable {σ ρ : Type}

/-- The names of the stages that do the work of two. -/
def Stage.mergedNames : List String := ["filter+filter", "filter+map", "map+filter", "map+map"]

/-- The names of the terminals that can scan a source. -/
def Terminal.scanningNames : List String := ["collect", "index_of", "invoke"]

/-- The statistics are right for a run that puts a terminal to the query. -/
structure Stats.Describes (stats : Stats) (q : Query σ) (terminal : Terminal σ ρ) : Prop where
  stages : stats.stages = q.plan.length
  fused : stats.fused = q.plan.countP fun name => decide (name ∈ Stage.mergedNames)
  visited : stats.visited ≤ q.source.length
  stoppedEarly : stats.stoppedEarly = true ↔ stats.visited < q.source.length
  bulk : stats.bulk = true ↔
    q.settings.bulk = true ∧ q.plan = [] ∧ terminal.name ∈ Terminal.scanningNames

/-! ### Names -/

theorem Stage.isFused_eq_decide (stage : Stage σ) :
    stage.isFused = decide (stage.name ∈ mergedNames) := by
  cases stage <;> rfl

theorem Terminal.isSome_scan? (terminal : Terminal σ ρ) :
    terminal.scan?.isSome = decide (terminal.name ∈ scanningNames) := by
  cases terminal with
  | extremum rank pick best? => cases pick <;> rfl
  | _ => rfl

/-- Taking in elements does not make another terminal of it. -/
theorem Terminal.name_accept (terminal : Terminal σ ρ) (control : Control) (item : Value)
    (w : World σ) : (terminal.accept control item w).terminal.name = terminal.name := by
  cases terminal with
  | groupBy key groups =>
    simp only [accept]
    split
    · split <;> rfl
    · rfl
  | reduce fold acc? =>
    cases acc? with
    | none => rfl
    | some acc => simp only [accept]; split <;> rfl
  | collect | head | each | length | invoke => rfl
  | count | contains | every | indexOf | extremum => simp only [accept]; split <;> rfl

theorem Terminal.name_of_scan {terminal : Terminal σ ρ}
    {scan : List Value → World σ → Scan σ ρ} (hscan : terminal.scan? = some scan)
    (source : List Value) (w : World σ) : (scan source w).terminal.name = terminal.name := by
  cases terminal with
  | collect items =>
    cases hscan
    rfl
  | indexOf target pos found? =>
    cases hscan
    simp only
    split <;> rfl
  | invoke host method? =>
    cases hscan
    simp only
    split <;> rfl
  | _ => cases hscan

theorem Line.name_dispatch (line : Line σ ρ) (item : Value) :
    (line.dispatch item).line.terminal.name = line.terminal.name := by
  rw [dispatch_eq_deliver]
  unfold Transit.deliver
  split
  · rfl
  · rfl
  · exact line.terminal.name_accept _ _ _

theorem Line.name_drainUntilStop (line : Line σ ρ) (visited : Nat) (source : List Value) :
    (line.drainUntilStop visited source).line.terminal.name = line.terminal.name := by
  induction source generalizing line visited with
  | nil => rfl
  | cons item rest ih =>
    have hfirst := line.name_dispatch item
    simp only [drainUntilStop]
    split
    · rfl
    · cases (line.dispatch item).status with
      | error fault => exact hfirst
      | ok _ => exact (ih _ _).trans hfirst

/-! ### How far a run comes -/

theorem Terminal.firstPosition?_lt {target : Target σ} {pos i : Nat} {source : List Value}
    {w : World σ} (h : ((firstPosition? target pos source).run w).result = .ok (some i)) :
    i < pos + source.length := by
  induction source generalizing pos w with
  | nil => cases h
  | cons item rest ih =>
    rw [List.length_cons]
    simp only [firstPosition?, Act.run_bind] at h
    rcases hholds : ((target.holds item).run w).result with fault | holds
    · rw [hholds] at h
      cases h
    · rw [hholds] at h
      cases holds with
      | true =>
        cases h
        omega
      | false =>
        have hlt := ih h
        omega

theorem Terminal.visited_scan_le {terminal : Terminal σ ρ}
    {scan : List Value → World σ → Scan σ ρ} (hscan : terminal.scan? = some scan)
    {source : List Value} {w : World σ} {n : Nat} (h : (scan source w).visited = .ok n) :
    n ≤ source.length := by
  cases terminal with
  | collect items =>
    cases hscan
    cases h
    exact Nat.le_refl _
  | indexOf target pos found? =>
    cases hscan
    simp only at h
    split at h
    · next i hfound =>
      cases h
      have hlt := firstPosition?_lt hfound
      omega
    · cases h
      exact Nat.le_refl _
    · cases h
  | invoke host method? =>
    cases hscan
    simp only at h
    split at h
    · cases h
      exact Nat.le_refl _
    · cases h
  | _ => cases hscan

/-! ### What a run answers -/

/-- Only a fold may be without an answer, and that is the one cause. -/
theorem Terminal.name_of_finish {terminal : Terminal σ ρ} {fault : Fault}
    (h : terminal.finish = .error fault) : fault = .emptyReduce ∧ terminal.name = "reduce" := by
  cases terminal with
  | reduce fold acc? =>
    cases acc? with
    | some acc => cases h
    | none =>
      cases h
      exact ⟨rfl, rfl⟩
  | _ => cases h

namespace Query

theorem visits_le {q : Query σ} {terminal : Terminal σ ρ} {w : World σ} {n : Nat}
    (h : q.visits terminal w = .ok n) : n ≤ q.source.length := by
  unfold visits at h
  cases hscan : (q.prepare terminal).scan? terminal with
  | none =>
    rw [traverse_prepare hscan] at h
    have hend := (Line.reaches_of_visited h).to_end
    rwa [Nat.zero_add] at hend
  | some scan =>
    rw [traverse_of_scan hscan] at h
    exact Terminal.visited_scan_le (scan?_start_of_scan hscan) h

theorem result_of_failed {q : Query σ} {terminal : Terminal σ ρ} {w : World σ} {fault : Fault}
    (h : q.visits terminal w = .error fault) : (q.run terminal w).result = .error fault := by
  unfold visits at h
  simp only [run, h]

theorem result_of_through {q : Query σ} {terminal : Terminal σ ρ} {w : World σ} {n : Nat}
    (h : q.visits terminal w = .ok n) :
    (q.run terminal w).result =
      ((q.prepare terminal).traverse terminal w).line.terminal.finish := by
  unfold visits at h
  simp only [run, h]

theorem name_traverse (q : Query σ) (terminal : Terminal σ ρ) (w : World σ) :
    ((q.prepare terminal).traverse terminal w).line.terminal.name = terminal.name := by
  cases hscan : (q.prepare terminal).scan? terminal with
  | none =>
    rw [traverse_prepare hscan]
    exact Line.name_drainUntilStop _ _ _
  | some scan =>
    rw [traverse_of_scan hscan]
    exact Terminal.name_of_scan (scan?_start_of_scan hscan) _ _

/-! ### What a run puts down -/

theorem plan_run (q : Query σ) (terminal : Terminal σ ρ) (w : World σ) :
    (q.run terminal w).query.plan = q.plan := by
  rw [← plan_forget, forget_run, plan_forget]

theorem isSome_scan?_prepare (q : Query σ) (terminal : Terminal σ ρ) :
    ((q.prepare terminal).scan? terminal).isSome = true ↔
      q.settings.bulk = true ∧ q.plan = [] ∧ terminal.name ∈ Terminal.scanningNames := by
  have hsettings : (q.prepare terminal).settings = q.settings := rfl
  have hplan : (q.prepare terminal).stages.isEmpty = true ↔ q.plan = [] := by
    simp only [prepare, plan, List.isEmpty_iff, List.map_eq_nil_iff]
  rw [← decide_eq_true_iff (p := terminal.name ∈ Terminal.scanningNames),
    ← Terminal.isSome_scan?, ← hplan, ← hsettings, ← and_assoc, ← Bool.and_eq_true_iff]
  unfold scan?
  split
  · next hbulk => simp only [hbulk, true_and]
  · next hbulk => simp only [hbulk, false_and, Option.isSome_none, Bool.false_eq_true]

/-- A run that gets through puts down what there is to be said of it. -/
theorem describes_run {q : Query σ} {terminal : Terminal σ ρ} {w : World σ} {n : Nat}
    (h : q.visits terminal w = .ok n) :
    (q.run terminal w).query.stats.Describes q terminal ∧
      (q.run terminal w).query.stats.visited = n := by
  have hplan := q.plan_run terminal w
  have hle := visits_le h
  have hbulk := q.isSome_scan?_prepare terminal
  unfold visits at h
  have hstages := q.stages_run terminal w
  have hstats : (q.run terminal w).query.stats =
      { stages := (q.run terminal w).query.stages.length
        fused := (q.run terminal w).query.stages.countP Stage.isFused
        visited := n
        stoppedEarly := n < q.source.length
        bulk := ((q.prepare terminal).scan? terminal).isSome } := by
    rw [hstages]
    simp only [run, h]
  have hfused : (q.run terminal w).query.stages.countP Stage.isFused =
      (q.run terminal w).query.plan.countP fun name => decide (name ∈ Stage.mergedNames) := by
    rw [plan, List.countP_map]
    congr 1
    funext stage
    exact stage.isFused_eq_decide
  rw [hstats]
  refine ⟨⟨?_, ?_, hle, ?_, hbulk⟩, rfl⟩
  · rw [← hplan, plan, List.length_map]
  · rw [hfused, hplan]
  · exact decide_eq_true_iff

/-- Two queries of one source are built alike from here on, and report the same. -/
structure LooksLike (q other : Query σ) : Prop where
  stats : q.stats = other.stats
  settings : q.settings = other.settings
  source : q.source = other.source
  -- Without operators, this is the plan as it stands.
  plan (operators : List (Operator σ)) : (q.addAll operators).plan = (other.addAll operators).plan

/-- A run that fails on its way leaves no trace that could be looked at. -/
theorem looksLike_of_failed {q : Query σ} {terminal : Terminal σ ρ} {w : World σ} {fault : Fault}
    (h : q.visits terminal w = .error fault) : (q.run terminal w).query.LooksLike q where
  stats := by
    unfold visits at h
    simp only [run, h]
    rfl
  settings := q.settings_run terminal w
  source := q.source_run terminal w
  plan := by
    intro operators
    rw [← plan_forget, forget_addAll (q.forget_run terminal w), plan_forget]

/-! ### Histories -/

theorem stats_pushFusible (q : Query σ) (new : Fusible σ) :
    (q.pushFusible new).stats = q.stats := by
  rw [pushFusible_eq]

theorem stats_add (q : Query σ) (operator : Operator σ) : (q.add operator).stats = q.stats := by
  rw [add_eq]

/-- What an event puts down, if it is a run that gets through. -/
def report? (q : Query σ) : Event σ → Option Stats
  | .run terminal w =>
    match q.visits terminal w with
    | .ok _ => some (q.run terminal w).query.stats
    | .error _ => none
  | _ => none

/-- What the runs of a history put down, in order, as far as they get through. -/
def reports (q : Query σ) : List (Event σ) → List Stats
  | [] => []
  | event :: rest => (q.report? event).toList ++ (q.after event).reports rest

theorem stats_after (q : Query σ) (event : Event σ) :
    (q.after event).stats = (q.report? event).getD q.stats := by
  cases event with
  | add operator => exact q.stats_add operator
  | push stage => rfl
  | pushFusible new => exact q.stats_pushFusible new
  | run terminal w =>
    simp only [after, report?]
    cases h : q.visits terminal w with
    | ok n => rfl
    | error fault => exact (looksLike_of_failed h).stats

theorem stats_replay (q : Query σ) (history : List (Event σ)) :
    (q.replay history).stats = (q.reports history).getLast?.getD q.stats := by
  induction history generalizing q with
  | nil => rfl
  | cons event rest ih =>
    have hlast : (q.reports (event :: rest)).getLast?.getD q.stats =
        ((q.after event).reports rest).getLast?.getD ((q.report? event).getD q.stats) := by
      rw [reports, List.getLast?_append]
      cases ((q.after event).reports rest).getLast? with
      | some stats => rfl
      | none => cases q.report? event <;> rfl
    rw [hlast, ← stats_after]
    exact ih (q.after event)

/-- **A query of any history shows what the latest run that got through has put down,** and
    nothing but zeros if there was none.

    A run that fails on its way answers with its fault, and the query looks as it did before.
    Any other run puts down statistics that describe it; it has an answer unless it is a fold
    that saw no element.  The last element, the sorted elements and a sample are asked for by
    collecting. -/
theorem stats_history (source : List Value) (settings : Settings) (history : List (Event σ)) :
    let q := ofSource source settings
    let now := q.replay history
    now.stats = (q.reports history).getLast?.getD {} ∧
    (∀ {ρ : Type} (terminal : Terminal σ ρ) (w : World σ),
      (∀ fault, now.visits terminal w = .error fault →
        (now.run terminal w).result = .error fault ∧
          (now.run terminal w).query.LooksLike now) ∧
      (∀ n, now.visits terminal w = .ok n →
        (now.run terminal w).query.stats.Describes now terminal ∧
          (now.run terminal w).query.stats.visited = n ∧
          ∀ fault, (now.run terminal w).result = .error fault →
            fault = .emptyReduce ∧ terminal.name = "reduce")) ∧
    (∀ w : World σ, (now.last w).query = (now.ask .collect w).query ∧
      (∀ compare, (now.sortBy compare w).query = (now.ask .collect w).query) ∧
      ∀ {γ : Type} [Drawing γ] (generator : γ) (count : UInt64),
        (now.sample generator count w).query = (now.ask .collect w).query) := by
  intro q now
  refine ⟨q.stats_replay history, ?_, ?_⟩
  · intro ρ terminal w
    constructor
    · intro fault hfault
      exact ⟨result_of_failed hfault, looksLike_of_failed hfault⟩
    · intro n hn
      obtain ⟨hdescribes, hvisited⟩ := describes_run hn
      refine ⟨hdescribes, hvisited, ?_⟩
      intro fault hfault
      rw [result_of_through hn] at hfault
      rw [← now.name_traverse terminal w]
      exact Terminal.name_of_finish hfault
  · intro w
    exact ⟨rfl, fun _ => rfl, fun _ _ => rfl⟩

/-- A query that has been run once and then built on shows its first run, also after a run
    that fails at the second element; a run that asks for the first element alone gets
    through, and so does a fold of nothing. -/
theorem stats_history_failed :
    let history : List (Event Unit) :=
      [.run (.length 0) ⟨0, ()⟩, .add (.filter fun v => .ofExcept <|
        if v.same .undefined then .error (.callback "no value") else .ok true)]
    let now := (ofSource [.null, .undefined] {}).replay history
    let nothing := (ofSource [] {}).replay history
    let fold : Terminal Unit Value := .reduce (fun acc _ => pure acc) none
    now.stats = ((ofSource [.null, .undefined] {}).reports history).getLast?.getD {} ∧
      (now.visits (.collect #[]) ⟨0, ()⟩ = .error (.callback "no value") ∧
        (now.run (.collect #[]) ⟨0, ()⟩).query.LooksLike now) ∧
      (now.visits (.head none) ⟨0, ()⟩ = .ok 1 ∧
        (now.run (.head none) ⟨0, ()⟩).query.stats.Describes now (.head none)) ∧
      (nothing.visits fold ⟨0, ()⟩ = .ok 0 ∧
        (nothing.run fold ⟨0, ()⟩).query.stats.Describes nothing fold ∧
        (nothing.run fold ⟨0, ()⟩).result = .error .emptyReduce ∧ fold.name = "reduce") := by
  intro history now nothing fold
  obtain ⟨hlatest, hruns, _⟩ := stats_history [.null, .undefined] {} history
  have hnothing := (stats_history [] {} history).2.1 fold ⟨0, ()⟩
  have hfails : now.visits (.collect #[]) ⟨0, ()⟩ = .error (.callback "no value") := rfl
  have hhead : now.visits (.head none) ⟨0, ()⟩ = .ok 1 := rfl
  have hfold : nothing.visits fold ⟨0, ()⟩ = .ok 0 := rfl
  have hempty : (nothing.run fold ⟨0, ()⟩).result = .error .emptyReduce := rfl
  obtain ⟨hdescribes, -, hfaults⟩ := hnothing.2 0 hfold
  exact ⟨hlatest, ⟨hfails, ((hruns (.collect #[]) ⟨0, ()⟩).1 _ hfails).2⟩,
    ⟨hhead, ((hruns (.head none) ⟨0, ()⟩).2 1 hhead).1⟩,
    ⟨hfold, hdescribes, hempty, (hfaults _ hempty).2⟩⟩

end Query

end FusedQuery
