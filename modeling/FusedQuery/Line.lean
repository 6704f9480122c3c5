/-
  FusedQuery/Line.lean
  ====================
  **Elements through a line of stages into a terminal.**

  A line is a query at work: its stages, the control they share, the terminal at the end, and
  the world.  `dispatch` sends one element down the line.  There are two ways to send a source:

    * `drain` sends every element and looks at nothing,
    * `drainUntilStop` looks at the control before each element and counts those it sent.

  A fault ends either at once, and leaves the line as it was then.
-/
import FusedQuery.Stage.Step
import FusedQuery.Terminal.Accept

namespace FusedQuery

/-- A query at work on a source. -/
structure Line (σ ρ : Type) : Type 1 where
  stages : List (Stage σ)
  control : Control
  terminal : Terminal σ ρ
  world : World σ

namespace Line

variable {σ ρ : Type}

/-- A line after some elements, and whether the last of them failed. -/
structure Passage (σ ρ : Type) : Type 1 where
  status : Except Fault Unit
  line : Line σ ρ

/-- Send one element through the stages from the first to the last, and to the terminal unless
    a stage drops it. -/
def send (control : Control) (terminal : Terminal σ ρ) (item : Value) (world : World σ) :
    List (Stage σ) → Passage σ ρ
  | [] =>
    let taken := terminal.accept control item world
    ⟨taken.status, ⟨[], taken.control, taken.terminal, taken.world⟩⟩
  | stage :: rest =>
    let step := stage.step control item world
    match step.flow with
    | .error fault => ⟨.error fault, ⟨step.stage :: rest, step.control, terminal, step.world⟩⟩
    | .ok .drop => ⟨.ok (), ⟨step.stage :: rest, step.control, terminal, step.world⟩⟩
    | .ok (.forward next) =>
      let passage := send step.control terminal next step.world rest
      { passage with
        line := { passage.line with stages := step.stage :: passage.line.stages } }

def dispatch (line : Line σ ρ) (item : Value) : Passage σ ρ :=
  send line.control line.terminal item line.world line.stages

def drain (line : Line σ ρ) : List Value → Passage σ ρ
  | [] => ⟨.ok (), line⟩
  | item :: rest =>
    let passage := line.dispatch item
    match passage.status with
    | .ok () => passage.line.drain rest
    | .error fault => ⟨.error fault, passage.line⟩

/-- A line after some elements, and how many it took, unless the last of them failed. -/
structure Traversal (σ ρ : Type) : Type 1 where
  visited : Except Fault Nat
  line : Line σ ρ

/-- Send elements down the line until something asks to stop; `visited` were sent before. -/
def drainUntilStop (line : Line σ ρ) (visited : Nat) : List Value → Traversal σ ρ
  | [] => ⟨.ok visited, line⟩
  | item :: rest =>
    if line.control.stop then ⟨.ok visited, line⟩
    else
      let passage := line.dispatch item
      match passage.status with
      | .ok () => passage.line.drainUntilStop (visited + 1) rest
      | .error fault => ⟨.error fault, passage.line⟩

/-- Send a source down the line, looking for a stop only if something may ask for one. -/
def traverse (line : Line σ ρ) (source : List Value) : Traversal σ ρ :=
  if line.control.mayStop then line.drainUntilStop 0 source
  else
    let passage := line.drain source
    match passage.status with
    | .ok () => ⟨.ok source.length, passage.line⟩
    | .error fault => ⟨.error fault, passage.line⟩

end Line

end FusedQuery
