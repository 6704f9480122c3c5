/-
  FusedQuery/Proofs/Scan/Loop.lean
  ================================
  **A scan comes to what the loop comes to.**

  A terminal that scans a source has a second way of doing what `Line.drainUntilStop` does for a
  line without stages.  For each of the three that do, the two come to the same
  (`Traversal.ComesTo`):

    * collecting copies the source, where the loop pushes its elements (`collect_comesTo`),
    * the search for a position counts from the beginning of the source, where the loop has the
      terminal count and stop (`indexOf_comesTo`),
    * invoking calls in turn (`invoke_comesTo`).

  Every run of a question is therefore a run of the loop that looks for a stop, whether it
  scans, and whether anything may stop (`ask_loop`): that loop is all that has to be looked at
  from here on.
-/
import FusedQuery.Proofs.Stream.Run

namespace FusedQuery

variable {σ ρ : Type}

namespace Line

/-- The two have sent the same elements, or failed alike, and left the same answer and the same
    world.  What their terminals have noted down besides may differ, and so may the stop, which
    a scan has no use for. -/
structure Traversal.ComesTo (t u : Traversal σ ρ) : Prop where
  visited : t.visited = u.visited
  finish : t.line.terminal.finish = u.line.terminal.finish
  world : t.line.world = u.line.world
  stages : t.line.stages = u.line.stages
  mayStop : t.line.control.mayStop = u.line.control.mayStop
  skipped : t.line.control.skipped = u.line.control.skipped

theorem Traversal.ComesTo.refl (t : Traversal σ ρ) : t.ComesTo t :=
  ⟨rfl, rfl, rfl, rfl, rfl, rfl⟩

/-- Two traversals that differ in what their terminals have noted down besides the answer. -/
theorem Traversal.comesTo_of_finish {terminal terminal' : Terminal σ ρ}
    (h : terminal.finish = terminal'.finish) (visited : Except Fault Nat)
    (stages : List (Stage σ)) (control : Control) (w : World σ) :
    Traversal.ComesTo ⟨visited, ⟨stages, control, terminal, w⟩⟩
      ⟨visited, ⟨stages, control, terminal', w⟩⟩ :=
  ⟨rfl, h, rfl, rfl, rfl, rfl⟩

/-- The same, and the second has asked to stop. -/
theorem Traversal.comesTo_halt {terminal terminal' : Terminal σ ρ}
    (h : terminal.finish = terminal'.finish) (visited : Except Fault Nat)
    (stages : List (Stage σ)) (control : Control) (w : World σ) :
    Traversal.ComesTo ⟨visited, ⟨stages, control, terminal, w⟩⟩
      ⟨visited, ⟨stages, control.halt, terminal', w⟩⟩ :=
  ⟨rfl, h, rfl, rfl, rfl, rfl⟩

/-- A line without stages: the terminal takes in the element as it is. -/
theorem drainUntilStop_bare {control : Control} (h : control.stop = false)
    (terminal : Terminal σ ρ) (w : World σ) (visited : Nat) (item : Value)
    (rest : List Value) :
    ((⟨[], control, terminal, w⟩ : Line σ ρ).drainUntilStop visited (item :: rest)) =
      let taken := terminal.accept control item w
      let line : Line σ ρ := ⟨[], taken.control, taken.terminal, taken.world⟩
      match taken.status with
      | .ok () => line.drainUntilStop (visited + 1) rest
      | .error fault => ⟨.error fault, line⟩ := by
  cases hstatus : (terminal.accept control item w).status <;>
    simp only [drainUntilStop, h, Bool.false_eq_true, ↓reduceIte, dispatch, send, hstatus]

end Line

namespace Terminal

open Line

/-! ### The three scans -/

/-- The traversal that a scan stands for. -/
def Scan.traversal (scan : Scan σ ρ) (control : Control) : Traversal σ ρ :=
  ⟨scan.visited, ⟨[], control, scan.terminal, scan.world⟩⟩

variable {control : Control}

theorem collect_comesTo (h : control.stop = false) (items : Array Value) (w : World σ)
    (n : Nat) (source : List Value) :
    let scan : Scan σ (List Value) := ⟨.ok (n + source.length), .collect (items ++ source), w⟩
    (scan.traversal control).ComesTo
      ((⟨[], control, .collect items, w⟩ : Line σ (List Value)).drainUntilStop n source) := by
  intro scan
  induction source generalizing items n with
  | nil =>
    have hfinish : (Terminal.collect (items ++ ([] : List Value)) : Terminal σ _).finish =
        (Terminal.collect items : Terminal σ _).finish := by simp [finish]
    exact Traversal.comesTo_of_finish hfinish _ _ _ _
  | cons item rest ih =>
    have hrest := ih (items.push item) (n + 1)
    have hitems : items ++ (item :: rest) = items.push item ++ rest := by simp
    have hlength : n + (item :: rest).length = n + 1 + rest.length := by
      rw [List.length_cons]
      omega
    simp only [scan, hitems, hlength, drainUntilStop_bare h]
    exact hrest

/-- A search for a position that has passed over the first `n` elements. -/
def scanFrom (target : Target σ) (pos : UInt64) (found? : Option UInt64) (n : Nat)
    (source : List Value) (w : World σ) : Scan σ Int64 :=
  let reply := (firstPosition? target n source).run w
  match reply.result with
  | .ok (some i) => ⟨.ok (i + 1), .indexOf target pos (some (UInt64.ofNat i)), reply.world⟩
  | .ok none => ⟨.ok (n + source.length), .indexOf target pos found?, reply.world⟩
  | .error fault => ⟨.error fault, .indexOf target pos found?, reply.world⟩

/-- By induction on the source.  The terminal has counted as many elements as the search has
    passed over, so the position that it notes down is the one that the search gives. -/
theorem indexOf_comesTo (h : control.stop = false) (target : Target σ) (pos : UInt64)
    (found? : Option UInt64) (w : World σ) (n : Nat) (source : List Value) :
    ((scanFrom target pos found? n source w).traversal control).ComesTo
      ((⟨[], control, .indexOf target (UInt64.ofNat n) found?, w⟩ :
        Line σ Int64).drainUntilStop n source) := by
  have hfinish : ∀ (counted : UInt64) (found? : Option UInt64),
      (Terminal.indexOf target pos found?).finish =
        (Terminal.indexOf target counted found?).finish := by
    intro counted found?
    rfl
  induction source generalizing n w with
  | nil => exact Traversal.comesTo_of_finish (hfinish _ _) _ _ _ _
  | cons item rest ih =>
    rw [drainUntilStop_bare h]
    simp only [scanFrom, firstPosition?, Act.run_bind, accept]
    rcases ((target.holds item).run w).result with fault | holds
    · exact Traversal.comesTo_of_finish (hfinish _ _) _ _ _ _
    · cases holds with
      | true =>
        have hhalt : control.halt.stop = true := rfl
        simp only [↓reduceIte, Act.run_pure, drainUntilStop_of_stop [] hhalt]
        exact Traversal.comesTo_halt (hfinish _ _) _ _ _ _
      | false =>
        have hrest := ih ((target.holds item).run w).world (n + 1)
        have hpos : UInt64.ofNat (n + 1) = UInt64.ofNat n + 1 := UInt64.ofNat_add n 1
        have hlength : n + (item :: rest).length = n + 1 + rest.length := by
          rw [List.length_cons]
          omega
        rw [hpos] at hrest
        simp only [Bool.false_eq_true, ↓reduceIte, hlength]
        exact hrest

/-- Calls in turn, of which the first `n` are done. -/
def callFrom (host : Host σ) (method? : Option String) (n : Nat) (source : List Value)
    (w : World σ) : Scan σ Unit :=
  let reply := (callAll host method? source).run w
  match reply.result with
  | .ok () => ⟨.ok (n + source.length), .invoke host method?, reply.world⟩
  | .error fault => ⟨.error fault, .invoke host method?, reply.world⟩

theorem invoke_comesTo (h : control.stop = false) (host : Host σ) (method? : Option String)
    (w : World σ) (n : Nat) (source : List Value) :
    ((callFrom host method? n source w).traversal control).ComesTo
      ((⟨[], control, .invoke host method?, w⟩ : Line σ Unit).drainUntilStop n source) := by
  induction source generalizing n w with
  | nil => exact Traversal.ComesTo.refl _
  | cons item rest ih =>
    rw [drainUntilStop_bare h]
    simp only [callFrom, callAll, Act.run_bind, accept]
    rcases ((call host method? item).run w).result with fault | done
    · exact Traversal.ComesTo.refl _
    · have hrest := ih ((call host method? item).run w).world (n + 1)
      have hlength : n + (item :: rest).length = n + 1 + rest.length := by
        rw [List.length_cons]
        omega
      simp only [hlength]
      exact hrest

/-- **The scan of a terminal that has seen nothing comes to what the loop comes to.** -/
theorem scan_comesTo {question : Question σ ρ} {scan : List Value → World σ → Scan σ ρ}
    (hscan : question.start.scan? = some scan) (h : control.stop = false)
    (source : List Value) (w : World σ) :
    ((scan source w).traversal control).ComesTo
      ((⟨[], control, question.start, w⟩ : Line σ ρ).drainUntilStop 0 source) := by
  cases question with
  | collect =>
    obtain rfl := Option.some.inj hscan
    have hcollect := collect_comesTo (σ := σ) h #[] w 0 source
    rw [Nat.zero_add] at hcollect
    exact hcollect
  | indexOf target =>
    obtain rfl := Option.some.inj hscan
    have hindex := indexOf_comesTo h target 0 none w 0 source
    simp only [scanFrom, Nat.zero_add] at hindex
    exact hindex
  | invoke host method? =>
    obtain rfl := Option.some.inj hscan
    have hinvoke := invoke_comesTo h host method? w 0 source
    simp only [callFrom, Nat.zero_add] at hinvoke
    exact hinvoke
  | _ => cases hscan

end Terminal

namespace Query

/-! ### Runs -/

/-- The loop that looks for a stop, over the source of a query that is ready for a run. -/
def loop (q : Query σ) (terminal : Terminal σ ρ) (w : World σ) : Line.Traversal σ ρ :=
  ((q.prepare terminal).line terminal w).drainUntilStop 0 q.source

theorem traverse_comesTo (q : Query σ) (question : Question σ ρ) (w : World σ) :
    ((q.prepare question.start).traverse question.start w).ComesTo
      (q.loop question.start w) := by
  cases hscan : (q.prepare question.start).scan? question.start with
  | none =>
    rw [traverse_prepare hscan]
    exact Line.Traversal.ComesTo.refl _
  | some scan =>
    have hstages := stages_of_scan hscan
    have hsome := scan?_start_of_scan hscan
    have hstop : (q.prepare question.start).control.stop = false := rfl
    have hscanned := Terminal.scan_comesTo hsome hstop q.source w
    rw [traverse_of_scan hscan]
    simp only [loop, line, hstages]
    exact hscanned

end Query

/-- What a run gives, in terms of the traversal that it comes to. -/
structure Run.Follows (r : Run σ ρ) (q : Query σ) (t : Line.Traversal σ ρ) : Prop where
  result : r.result = (do let _ ← t.visited; t.line.terminal.finish)
  world : r.world = t.line.world
  stages : r.query.stages = t.line.stages
  mayStop : r.query.control.mayStop = t.line.control.mayStop
  skipped : r.query.control.skipped = t.line.control.skipped
  visited {n : Nat} : t.visited = .ok n → r.query.stats.visited = n
  stoppedEarly {n : Nat} : t.visited = .ok n →
    r.query.stats.stoppedEarly = decide (n < q.source.length)
  plan {n : Nat} : t.visited = .ok n →
    r.query.stats.stages = t.line.stages.length ∧
      r.query.stats.fused = t.line.stages.countP Stage.isFused
  failed {fault : Fault} : t.visited = .error fault → r.query.stats = q.stats

namespace Query

/-- **Asking a query is going through its source by the loop that looks for a stop.** -/
theorem ask_loop (q : Query σ) (question : Question σ ρ) (w : World σ) :
    (q.ask question w).Follows q (q.loop question.start w) := by
  obtain ⟨hvisited, hfinish, hworld, hstages, hmayStop, hskipped⟩ := q.traverse_comesTo question w
  generalize q.loop question.start w = t at hvisited hfinish hworld hstages hmayStop hskipped
  obtain ⟨visited, line⟩ := t
  simp only at hvisited hfinish hworld hstages hmayStop hskipped
  simp only [ask, run, hvisited]
  cases visited with
  | error fault =>
    constructor
    case result => rfl
    case world => exact hworld
    case stages => exact hstages
    case mayStop => exact hmayStop
    case skipped => exact hskipped
    case failed =>
      intro _ _
      rfl
    all_goals
      intro n h
      cases h
  | ok visited =>
    constructor
    case result => exact hfinish
    case world => exact hworld
    case stages => exact hstages
    case mayStop => exact hmayStop
    case skipped => exact hskipped
    case failed =>
      intro fault h
      cases h
    case plan =>
      intro n _
      rw [← hstages]
      exact ⟨rfl, rfl⟩
    all_goals
      intro n h
      obtain rfl := Except.ok.inj h
      rfl

end Query

end FusedQuery
