/-
  FusedQuery/Proofs/Line/Transit.lean
  ===================================
  **The stages of a line without its terminal.**

  `Line.send` does two things in one recursion: it takes an element through the stages, and it
  hands what comes out to the terminal.  `transit` is the first half alone and `deliver` the
  second; `send_eq_deliver` puts them together again.  Statements about stages are then proved
  of `transit`, where there is no terminal to carry along, and `transit_append` lets them be
  proved stage by stage.
-/
import FusedQuery.Line
import FusedQuery.Proofs.Stage.Frame

namespace FusedQuery.Line

variable {σ ρ : Type}

/-- What became of an element in some stages, and what they are like after it. -/
structure Transit (σ : Type) where
  flow : Except Fault Flow
  stages : List (Stage σ)
  control : Control
  world : World σ

def transit (control : Control) (item : Value) (world : World σ) : List (Stage σ) → Transit σ
  | [] => ⟨.ok (.forward item), [], control, world⟩
  | stage :: rest =>
    let step := stage.step control item world
    match step.flow with
    | .error fault => ⟨.error fault, step.stage :: rest, step.control, step.world⟩
    | .ok .drop => ⟨.ok .drop, step.stage :: rest, step.control, step.world⟩
    | .ok (.forward next) =>
      let onward := transit step.control next step.world rest
      { onward with stages := step.stage :: onward.stages }

namespace Transit

/-- Hand to a terminal what came through, if anything did. -/
def deliver (t : Transit σ) (terminal : Terminal σ ρ) : Passage σ ρ :=
  match t.flow with
  | .error fault => ⟨.error fault, ⟨t.stages, t.control, terminal, t.world⟩⟩
  | .ok .drop => ⟨.ok (), ⟨t.stages, t.control, terminal, t.world⟩⟩
  | .ok (.forward item) =>
    let taken := terminal.accept t.control item t.world
    ⟨taken.status, ⟨t.stages, taken.control, taken.terminal, taken.world⟩⟩

/-- Send what came through on into further stages. -/
def onward (t : Transit σ) (rest : List (Stage σ)) : Transit σ :=
  match t.flow with
  | .error fault => ⟨.error fault, t.stages ++ rest, t.control, t.world⟩
  | .ok .drop => ⟨.ok .drop, t.stages ++ rest, t.control, t.world⟩
  | .ok (.forward next) =>
    let last := transit t.control next t.world rest
    { last with stages := t.stages ++ last.stages }

def mapStages (f : List (Stage σ) → List (Stage σ)) (t : Transit σ) : Transit σ :=
  { t with stages := f t.stages }

def allow (t : Transit σ) (mayStop : Bool) : Transit σ :=
  { t with control := t.control.allow mayStop }

end Transit

theorem send_eq_deliver (control : Control) (terminal : Terminal σ ρ) (item : Value)
    (world : World σ) (stages : List (Stage σ)) :
    send control terminal item world stages =
      (transit control item world stages).deliver terminal := by
  induction stages generalizing control item world with
  | nil => rfl
  | cons stage rest ih =>
    simp only [send, transit]
    rcases (stage.step control item world).flow with fault | flow
    · rfl
    · cases flow with
      | drop => rfl
      | forward next =>
        simp only [ih]
        cases h : (transit (stage.step control item world).control next
            (stage.step control item world).world rest).flow with
        | error fault => simp only [Transit.deliver, h]
        | ok flow => cases flow <;> simp only [Transit.deliver, h]

theorem dispatch_eq_deliver (line : Line σ ρ) (item : Value) :
    line.dispatch item =
      (transit line.control item line.world line.stages).deliver line.terminal :=
  send_eq_deliver line.control line.terminal item line.world line.stages

theorem transit_append (control : Control) (item : Value) (world : World σ)
    (front rest : List (Stage σ)) :
    transit control item world (front ++ rest) =
      (transit control item world front).onward rest := by
  induction front generalizing control item world with
  | nil => rfl
  | cons stage front ih =>
    simp only [List.cons_append, transit]
    rcases (stage.step control item world).flow with fault | flow
    · rfl
    · cases flow with
      | drop => rfl
      | forward next =>
        simp only [ih]
        cases h : (transit (stage.step control item world).control next
            (stage.step control item world).world front).flow with
        | error fault => simp only [Transit.onward, h, List.cons_append]
        | ok flow => cases flow <;> simp only [Transit.onward, h, List.cons_append]

theorem transit_cons (control : Control) (item : Value) (world : World σ) (stage : Stage σ)
    (rest : List (Stage σ)) :
    transit control item world (stage :: rest) =
      (transit control item world [stage]).onward rest :=
  transit_append control item world [stage] rest

theorem transit_singleton (control : Control) (item : Value) (world : World σ)
    (stage : Stage σ) :
    transit control item world [stage] =
      ⟨(stage.step control item world).flow, [(stage.step control item world).stage],
        (stage.step control item world).control, (stage.step control item world).world⟩ := by
  simp only [transit]
  cases h : (stage.step control item world).flow with
  | error fault => rfl
  | ok flow => cases flow <;> rfl

/-! ### What a transit leaves alone -/

/-- Stages change only in what a reset forgets. -/
theorem map_reset_transit (control : Control) (item : Value) (world : World σ)
    (stages : List (Stage σ)) :
    (transit control item world stages).stages.map Stage.reset = stages.map Stage.reset := by
  induction stages generalizing control item world with
  | nil => rfl
  | cons stage rest ih =>
    simp only [transit]
    rcases (stage.step control item world).flow with fault | flow
    · simp only [List.map_cons, Stage.reset_step]
    · cases flow with
      | drop => simp only [List.map_cons, Stage.reset_step]
      | forward next => simp only [List.map_cons, Stage.reset_step, ih]

theorem transit_frame (control : Control) (item : Value) (world : World σ)
    (stages : List (Stage σ)) :
    Control.Frame (stages.any Stage.canStop) control
      (transit control item world stages).control := by
  induction stages generalizing control item world with
  | nil => exact Control.Frame.refl _ control
  | cons stage rest ih =>
    have hstep := stage.step_frame control item world
    have hstop := hstep.trans (Control.Frame.refl (rest.any Stage.canStop) _)
    simp only [transit, List.any_cons]
    rcases (stage.step control item world).flow with fault | flow
    · exact hstop
    · cases flow with
      | drop => exact hstop
      | forward next => exact hstep.trans (ih _ next _)

theorem transit_allow (control : Control) (mayStop : Bool) (item : Value) (world : World σ)
    (stages : List (Stage σ)) :
    transit (control.allow mayStop) item world stages =
      (transit control item world stages).allow mayStop := by
  induction stages generalizing control item world with
  | nil => rfl
  | cons stage rest ih =>
    simp only [transit, Stage.step_allow, Stage.Step.allow]
    rcases (stage.step control item world).flow with fault | flow
    · rfl
    · cases flow with
      | drop => rfl
      | forward next => simp only [ih]; rfl

end FusedQuery.Line
