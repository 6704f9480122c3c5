/-
  FusedQuery/Proofs/Stream/Basic.lean
  ===================================
  **Stages deliver a stream, and terminals are fed one.**

  A line mixes two things: the stages produce elements until a fault or a stop, and the terminal
  takes them in until it fails or has seen enough.  Here they are pulled apart:

    * `emit` is what leaves the last stage if nothing but the stages can end the run,
    * `Terminal.feed` is what a terminal makes of such a stream on its own.

  If the stages and the terminal see different parts of the world and keep each other's, then a
  run of the line is one followed by the other (`drainUntilStop_feed`).  A terminal that stops
  sees only a part of the stream, and a fault behind the part that it saw is none of its run.
-/
import FusedQuery.Proofs.Line.Loop
import FusedQuery.Proofs.Terminal.Acts

namespace FusedQuery

variable {σ ρ α : Type}

/-- What leaves the last stage of a query, and the fault that ends it, if one does. -/
structure Stream where
  items : List Value
  fault? : Option Fault

namespace Stream

/-- An answer that needs the whole stream: it is there only if no fault ends the stream. -/
def complete (s : Stream) (answer : α) : Except Fault α :=
  match s.fault? with
  | some fault => .error fault
  | none => .ok answer

def after (s : Stream) (items : List Value) : Stream := { s with items := items ++ s.items }

end Stream

namespace Line

/-! ### The stream of some stages -/

/-- What an element becomes on its way, as a list of at most one. -/
def Transit.out (t : Transit σ) : List Value :=
  match t.flow with
  | .ok (.forward item) => [item]
  | _ => []

/-- What the stages make of a source, until they fail or ask to stop. -/
def emit (stages : List (Stage σ)) (control : Control) (world : World σ) : List Value → Stream
  | [] => { items := [], fault? := none }
  | item :: rest =>
    if control.stop then { items := [], fault? := none }
    else
      let t := transit control item world stages
      match t.flow with
      | .error fault => { items := [], fault? := some fault }
      | .ok _ => (emit t.stages t.control t.world rest).after t.out

/-- Whether a run looks for a stop does not show in its stream. -/
theorem emit_allow (stages : List (Stage σ)) (control : Control) (mayStop : Bool)
    (world : World σ) (source : List Value) :
    emit stages (control.allow mayStop) world source = emit stages control world source := by
  induction source generalizing stages control world with
  | nil => rfl
  | cons item rest ih =>
    simp only [emit, transit_allow, Transit.allow, Control.allow_stop, Transit.out, ih]

/-- A stop that was asked for before the first element leaves an empty stream. -/
theorem emit_of_stop {control : Control} (h : control.stop = true) (stages : List (Stage σ))
    (world : World σ) (source : List Value) :
    emit stages control world source = { items := [], fault? := none } := by
  cases source with
  | nil => rfl
  | cons item rest => simp only [emit, if_pos h]

theorem emit_nil {control : Control} (h : control.stop = false) (world : World σ)
    (source : List Value) :
    emit [] control world source = { items := source, fault? := none } := by
  induction source with
  | nil => rfl
  | cons item rest ih =>
    simp only [emit, h, Bool.false_eq_true, ↓reduceIte, transit, ih, Stream.after, Transit.out,
      List.cons_append, List.nil_append]

end Line

namespace Terminal

/-! ### A terminal on its own -/

/-- A terminal after a stream, or after the part of it that it has seen. -/
structure Fed (σ ρ : Type) : Type 1 where
  status : Except Fault Unit
  terminal : Terminal σ ρ
  world : World σ

/-- Give the elements of a stream to a terminal until it fails or asks to stop; if it does
    neither, it shares the end of the stream. -/
def feed (terminal : Terminal σ ρ) (world : World σ) (fault? : Option Fault) :
    List Value → Fed σ ρ
  | [] => ⟨(Stream.mk [] fault?).complete (), terminal, world⟩
  | item :: rest =>
    let taken := terminal.accept {} item world
    match taken.status with
    | .error fault => ⟨.error fault, taken.terminal, taken.world⟩
    | .ok () =>
      if taken.control.stop then ⟨.ok (), taken.terminal, taken.world⟩
      else taken.terminal.feed taken.world fault? rest

def Fed.reply (fed : Fed σ ρ) : Reply σ ρ :=
  match fed.status with
  | .error fault => ⟨.error fault, fed.world⟩
  | .ok () => ⟨fed.terminal.finish, fed.world⟩

def answer (terminal : Terminal σ ρ) (s : Stream) (world : World σ) : Reply σ ρ :=
  (terminal.feed world s.fault? s.items).reply

end Terminal

namespace Line

/-! ### Both together -/

variable {S T : World σ → World σ → Prop}

/-- The traversal of a line ends as the terminal on its own does: with the same status and the
    same terminal, in a world that the terminal cannot tell from its own. -/
structure Traversal.EndsAs (T : World σ → World σ → Prop) (t : Traversal σ ρ)
    (fed : Terminal.Fed σ ρ) : Prop where
  status : (t.visited.map fun _ => ()) = fed.status
  terminal : t.line.terminal = fed.terminal
  world : T fed.world t.line.world

/-- **A run is the stages' stream, fed to the terminal.**  By induction on the source.  The
    stages see and keep nothing but their part of the world, so the stream may be taken from any
    world `u` that agrees on it with the run's; the terminal may be fed in any world `v` that
    agrees with the run's on its own part. -/
theorem drainUntilStop_feed {stages : List (Stage σ)}
    (hstages : ∀ stage ∈ stages, stage.Sees S T) {terminal : Terminal σ ρ}
    (hterminal : terminal.Sees T S) (control : Control) {u v w : World σ} (hu : S u w)
    (hv : T v w) (visited : Nat) (source : List Value) :
    ((⟨stages, control, terminal, w⟩ : Line σ ρ).drainUntilStop visited source).EndsAs T
      (terminal.feed v (emit stages control u source).fault?
        (emit stages control u source).items) := by
  induction source generalizing stages terminal control u v w visited with
  | nil => exact ⟨rfl, rfl, hv⟩
  | cons item rest ih =>
    cases hstop : control.stop with
    | true =>
      rw [drainUntilStop_of_stop stages hstop, emit_of_stop hstop]
      exact ⟨rfl, rfl, hv⟩
    | false =>
      obtain ⟨hflow, hsame, hcontrol, hseen⟩ := transit_agree hstages control item hu
      have hkept := transit_keeps hstages control item hv
      have hafter := acts_transit hstages control item w
      simp only [drainUntilStop, emit, hstop, Bool.false_eq_true, ↓reduceIte,
        dispatch_eq_deliver, Transit.out, hflow, hsame, hcontrol]
      generalize transit control item w stages = t at hseen hkept hafter
      cases hflow : t.flow with
      | error fault =>
        simp only [Transit.deliver, hflow]
        exact ⟨rfl, rfl, hkept⟩
      | ok flow =>
        cases flow with
        | drop =>
          simp only [Transit.deliver, hflow]
          exact ih hafter hterminal _ hseen hkept _
        | forward out =>
          obtain ⟨hstatus, hnext, hasks, hworld⟩ :=
            Terminal.accept_agree hterminal {} out hkept
          have hleft := Terminal.accept_keeps hterminal {} out hseen
          have hacts := Terminal.Acts.accept hterminal {} out t.world
          simp only [Transit.deliver, hflow, Stream.after, List.cons_append, List.nil_append,
            Terminal.feed, hstatus, hnext, hasks]
          rw [terminal.accept_eq t.control]
          generalize terminal.accept {} out t.world = a at hworld hleft hacts
          simp only [Terminal.Acceptance.onto]
          cases a.status with
          | error fault => exact ⟨rfl, rfl, hworld⟩
          | ok _ =>
            cases a.control.stop with
            | true =>
              have hhalt : t.control.halt.stop = true := rfl
              simp only [↓reduceIte, drainUntilStop_of_stop _ hhalt]
              exact ⟨rfl, rfl, hworld⟩
            | false =>
              simp only [Bool.false_eq_true, ↓reduceIte]
              exact ih hafter hacts _ hleft hworld _

end Line

end FusedQuery
