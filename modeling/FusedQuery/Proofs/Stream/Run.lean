/-
  FusedQuery/Proofs/Stream/Run.lean
  =================================
  **Asking a query is asking its stream.**

  `Query.stream` is what a run that collects everything gathers, and the fault that ends it:
  it is what the stages emit (`stream_eq_emit`).  If the stages and a terminal do not disturb
  each other, every other question is answered as it would be for this stream
  (`ask_eq_meaning`): also one that stops early, and also one that a terminal answers by a scan
  of its own.
-/
import FusedQuery.Proofs.Query.Ready
import FusedQuery.Proofs.Stream.Meaning

namespace FusedQuery

variable {σ ρ : Type}

namespace Terminal

/-! ### Collecting -/

def gathered : Terminal σ ρ → List Value
  | .collect items => items.toList
  | _ => []

/-- A collecting terminal gathers the whole stream, whatever ends it. -/
theorem feed_collect (items : Array Value) (w : World σ) (s : Stream) :
    (Terminal.collect items).feed w s.fault? s.items =
      ⟨s.complete (), .collect (items ++ s.items.toArray), w⟩ := by
  obtain ⟨xs, fault?⟩ := s
  induction xs generalizing items with
  | nil => simp [feed, Stream.complete]
  | cons x xs ih =>
    have hrest := ih (items.push x)
    simp only [feed, accept, Bool.false_eq_true, ↓reduceIte] at hrest ⊢
    rw [hrest]
    simp [Stream.complete]

/-! ### Scans -/

def Scan.reply (scan : Scan σ ρ) : Reply σ ρ :=
  match scan.visited with
  | .error fault => ⟨.error fault, scan.world⟩
  | .ok _ => ⟨scan.terminal.finish, scan.world⟩

theorem firstPosition?_eq_findM? (target : Target σ) (n : Nat) (xs : List Value) :
    firstPosition? target n xs = do
      let pair? ← (xs.zipIdx n).findM? fun pair => target.holds pair.1
      return pair?.map Prod.snd := by
  induction xs generalizing n with
  | nil => rfl
  | cons x xs ih =>
    simp only [firstPosition?, List.zipIdx_cons, List.findM?, bind_assoc, ih]
    congr 1
    funext found
    cases found <;> rfl

theorem callAll_eq_forM (host : Host σ) (method? : Option String) (xs : List Value) :
    callAll host method? xs = xs.forM (call host method?) := by
  induction xs with
  | nil => rfl
  | cons x xs ih => simp only [callAll, ih]; rfl

/-- A terminal that scans a source answers what its question means for it. -/
theorem reply_scan {question : Question σ ρ} {scan : List Value → World σ → Scan σ ρ}
    (h : question.start.scan? = some scan) (source : List Value) (w : World σ) :
    (scan source w).reply = (question.meaning { items := source, fault? := none }).run w := by
  cases question with
  | collect =>
    cases h
    simp [Scan.reply, finish, Question.meaning, Stream.completed, Stream.complete]
  | indexOf target =>
    cases h
    simp only [firstPosition?_eq_findM?, Question.meaning, Act.run_bind]
    cases ((source.zipIdx.findM? fun pair => target.holds pair.1).run w).result with
    | error fault => rfl
    | ok pair? => cases pair? <;> rfl
  | invoke host method? =>
    cases h
    simp only [callAll_eq_forM, Question.meaning, Act.run_bind]
    cases ((source.forM (call host method?)).run w).result <;> rfl
  | _ => cases h

end Terminal

namespace Query

/-! ### Runs -/

/-- What the stages of a query make of its source. -/
def emit (q : Query σ) (w : World σ) : Stream :=
  Line.emit (q.stages.map Stage.reset) {} w q.source

variable {q : Query σ} {S T : World σ → World σ → Prop}

theorem sees_prepare (h : ∀ stage ∈ q.stages, stage.Sees S T) (terminal : Terminal σ ρ) :
    ∀ stage ∈ (q.prepare terminal).stages, stage.Sees S T := by
  intro stage hmem
  obtain ⟨before, hbefore, rfl⟩ := List.mem_map.mp hmem
  exact (Stage.acts_reset before).mpr (h before hbefore)

/-- The traversal of a run ends as the terminal does that is fed the emitted stream. -/
theorem traverse_feed (h : ∀ stage ∈ q.stages, stage.Sees S T) {terminal : Terminal σ ρ}
    (hterminal : terminal.Sees T S) (hscan : (q.prepare terminal).scan? terminal = none)
    {w : World σ} (hS : S w w) (hT : T w w) :
    ((q.prepare terminal).traverse terminal w).EndsAs T
      (terminal.feed w (q.emit w).fault? (q.emit w).items) := by
  have hcontrol : (q.prepare terminal).control =
      Control.allow {} (terminal.canStop || q.stages.any Stage.canStop) := rfl
  have hends := Line.drainUntilStop_feed (sees_prepare h terminal) hterminal
    (q.prepare terminal).control hS hT 0 q.source
  rw [hcontrol, Line.emit_allow] at hends
  rw [traverse_prepare hscan]
  exact hends

theorem run_of_no_scan (h : ∀ stage ∈ q.stages, stage.Sees S T) {terminal : Terminal σ ρ}
    (hterminal : terminal.Sees T S) (hscan : (q.prepare terminal).scan? terminal = none)
    {w : World σ} (hS : S w w) (hT : T w w) :
    (q.run terminal w).result = (terminal.answer (q.emit w) w).result ∧
      T (terminal.answer (q.emit w) w).world (q.run terminal w).world := by
  obtain ⟨hstatus, hend, hworld⟩ := traverse_feed h hterminal hscan hS hT
  simp only [run, Terminal.answer, Terminal.Fed.reply, ← hstatus]
  cases ((q.prepare terminal).traverse terminal w).visited with
  | error fault => exact ⟨rfl, hworld⟩
  | ok visited => exact ⟨congrArg Terminal.finish hend, hworld⟩

theorem run_of_scan {terminal : Terminal σ ρ}
    {scan : List Value → World σ → Terminal.Scan σ ρ}
    (hscan : (q.prepare terminal).scan? terminal = some scan) (w : World σ) :
    (q.run terminal w).result = (scan q.source w).reply.result ∧
      (q.run terminal w).world = (scan q.source w).reply.world := by
  have hsource : (q.prepare terminal).source = q.source := rfl
  simp only [run, traverse_of_scan hscan, Terminal.Scan.reply, line, hsource]
  cases (scan q.source w).visited with
  | error fault => exact ⟨rfl, rfl⟩
  | ok visited => exact ⟨rfl, rfl⟩

theorem emit_of_scan {terminal : Terminal σ ρ}
    {scan : List Value → World σ → Terminal.Scan σ ρ}
    (hscan : (q.prepare terminal).scan? terminal = some scan) (w : World σ) :
    q.emit w = { items := q.source, fault? := none } := by
  have hstages : q.stages.map Stage.reset = [] := stages_of_scan hscan
  simp only [emit, hstages]
  exact Line.emit_nil rfl w q.source

theorem scan?_start_of_scan {terminal : Terminal σ ρ}
    {scan : List Value → World σ → Terminal.Scan σ ρ}
    (hscan : q.scan? terminal = some scan) : terminal.scan? = some scan := by
  unfold scan? at hscan
  split at hscan
  · exact hscan
  · cases hscan

/-- **A question is answered as it would be for the emitted stream,** if the stages and the
    question's callbacks see different parts of the world and keep each other's. -/
theorem ask_eq_meaning (h : ∀ stage ∈ q.stages, stage.Sees S T) {question : Question σ ρ}
    (hquestion : question.start.Sees T S) (hS : ∀ w, S w w) (hT : ∀ w, T w w) (w : World σ) :
    (q.ask question w).result = ((question.meaning (q.emit w)).run w).result ∧
      T ((question.meaning (q.emit w)).run w).world (q.ask question w).world := by
  cases hscan : (q.prepare question.start).scan? question.start with
  | none =>
    have hrun := run_of_no_scan h hquestion hscan (hS w) (hT w)
    rw [Terminal.answer_start] at hrun
    exact hrun
  | some scan =>
    obtain ⟨hresult, hworld⟩ := run_of_scan hscan w
    have hreply := Terminal.reply_scan (scan?_start_of_scan hscan) q.source w
    rw [emit_of_scan hscan, ← hreply, ← hworld]
    exact ⟨hresult, hT _⟩

/-! ### The stream of a query -/

/-- What reaches a terminal that collects everything, and the fault that ends that run. -/
def stream (q : Query σ) (w : World σ) : Stream :=
  let t := (q.prepare (.collect #[])).traverse (.collect #[]) w
  { items := t.line.terminal.gathered
    fault? := match t.visited with
      | .error fault => some fault
      | .ok _ => none }

/-- Collecting everything gathers what the stages emit.  The terminal has nothing to do with
    the world, so the stages may do what they like. -/
theorem stream_eq_emit (q : Query σ) (w : World σ) : q.stream w = q.emit w := by
  cases hscan : (q.prepare (.collect #[])).scan? (.collect #[]) with
  | none =>
    have hcollect : (Terminal.collect #[] : Terminal σ (List Value)).Sees World.Any Eq := trivial
    have hstages : ∀ stage ∈ q.stages, stage.Sees Eq World.Any := fun stage _ => stage.sees_all
    obtain ⟨hstatus, hend, _⟩ := traverse_feed hstages hcollect hscan (rfl : w = w) trivial
    rw [Terminal.feed_collect] at hstatus hend
    generalize q.emit w = s at hstatus hend
    obtain ⟨items, fault?⟩ := s
    simp only [stream, hend, Terminal.gathered, Array.empty_append]
    cases hvisited : ((q.prepare (.collect #[])).traverse (.collect #[]) w).visited with
    | error fault =>
      rw [hvisited] at hstatus
      cases fault? with
      | none => cases hstatus
      | some fault' => cases hstatus; rfl
    | ok visited =>
      rw [hvisited] at hstatus
      cases fault? with
      | none => rfl
      | some fault' => cases hstatus
  | some scan =>
    have hsome := scan?_start_of_scan hscan
    cases hsome
    have hsource : (q.prepare (.collect #[] : Terminal σ (List Value))).source = q.source := rfl
    rw [emit_of_scan hscan, stream, traverse_of_scan hscan, hsource]
    simp [Terminal.gathered, line]

end Query

end FusedQuery
