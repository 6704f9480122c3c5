/-
  FusedQuery/Proofs/Terminal/Frame.lean
  =====================================
  **What a terminal does to the control.**

  A terminal never looks at the control that it is given.  It hands it back as it came, or with
  a stop asked for, and only a terminal that can stop asks (`accept_spec`, `accept_frame`).
-/
import FusedQuery.Proofs.Stage.Frame
import FusedQuery.Terminal.Accept

namespace FusedQuery.Terminal

variable {σ ρ : Type}

/-- The same outcome, handed back for the control `c`. -/
def Acceptance.onto (a : Acceptance σ ρ) (c : Control) : Acceptance σ ρ :=
  { a with control := if a.control.stop then c.halt else c }

/-- How a terminal deals with the control and keeps its kind. -/
structure AcceptSpec (terminal : Terminal σ ρ) (control : Control) (item : Value)
    (world : World σ) : Prop where
  alike : terminal.accept control item world = (terminal.accept {} item world).onto control
  canStop : (terminal.accept control item world).terminal.canStop = terminal.canStop
  quiet : terminal.canStop = false → (terminal.accept {} item world).control.stop = false

theorem accept_spec (terminal : Terminal σ ρ) (control : Control) (item : Value)
    (world : World σ) : AcceptSpec terminal control item world := by
  cases terminal with
  | collect items => exact ⟨rfl, rfl, fun _ => rfl⟩
  | head item? => exact ⟨rfl, rfl, fun h => nomatch h⟩
  | each visit => exact ⟨rfl, rfl, fun _ => rfl⟩
  | length n => exact ⟨rfl, rfl, fun _ => rfl⟩
  | invoke host method? => exact ⟨rfl, rfl, fun _ => rfl⟩
  | count test counts =>
    constructor
    case alike =>
      simp only [accept]
      split <;> rfl
    case canStop =>
      simp only [accept]
      split <;> rfl
    case quiet =>
      intro _
      simp only [accept]
      split <;> rfl
  | contains target found =>
    constructor
    case alike =>
      simp only [accept]
      split <;> rfl
    case canStop =>
      simp only [accept]
      split <;> rfl
    case quiet =>
      intro h
      cases h
  | every test passed =>
    constructor
    case alike =>
      simp only [accept]
      split <;> rfl
    case canStop =>
      simp only [accept]
      split <;> rfl
    case quiet =>
      intro h
      cases h
  | indexOf target pos found? =>
    constructor
    case alike =>
      simp only [accept]
      split <;> rfl
    case canStop =>
      simp only [accept]
      split <;> rfl
    case quiet =>
      intro h
      cases h
  | groupBy key groups =>
    constructor
    case alike =>
      simp only [accept]
      split
      · split <;> rfl
      · rfl
    case canStop =>
      simp only [accept]
      split
      · split <;> rfl
      · rfl
    case quiet =>
      intro _
      simp only [accept]
      split
      · split <;> rfl
      · rfl
  | extremum rank pick best? =>
    constructor
    case alike =>
      simp only [accept]
      split <;> rfl
    case canStop =>
      simp only [accept]
      split <;> rfl
    case quiet =>
      intro _
      simp only [accept]
      split <;> rfl
  | reduce fold acc? =>
    cases acc? with
    | none => exact ⟨rfl, rfl, fun _ => rfl⟩
    | some acc =>
      constructor
      case alike =>
        simp only [accept]
        split <;> rfl
      case canStop =>
        simp only [accept]
        split <;> rfl
      case quiet =>
        intro _
        simp only [accept]
        split <;> rfl

theorem accept_eq (terminal : Terminal σ ρ) (control : Control) (item : Value)
    (world : World σ) :
    terminal.accept control item world = (terminal.accept {} item world).onto control :=
  (accept_spec terminal control item world).alike

@[simp]
theorem canStop_accept (terminal : Terminal σ ρ) (control : Control) (item : Value)
    (world : World σ) :
    (terminal.accept control item world).terminal.canStop = terminal.canStop :=
  (accept_spec terminal control item world).canStop

theorem accept_frame (terminal : Terminal σ ρ) (control : Control) (item : Value)
    (world : World σ) :
    Control.Frame terminal.canStop control (terminal.accept control item world).control := by
  have hspec := accept_spec terminal control item world
  rw [hspec.alike]
  simp only [Acceptance.onto]
  cases hcan : terminal.canStop with
  | false =>
    rw [hspec.quiet hcan, if_neg Bool.false_ne_true]
    exact Control.Frame.refl _ control
  | true =>
    split
    · exact Control.Frame.halt control
    · exact Control.Frame.refl _ control

end FusedQuery.Terminal
