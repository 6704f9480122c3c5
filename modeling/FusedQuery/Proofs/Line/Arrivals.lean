/-
  FusedQuery/Proofs/Line/Arrivals.lean
  ====================================
  **What a place of a line has seen.**

  Elements are sent down a line one after the other (`Line.after`).  A place learns of them what
  arrives there (`arrivals`) and nothing else: its stage has taken one step for each arrival, in
  order (`getElem?_after`), and the terminal has taken each of them in (`terminal_after`).  What
  a stage hands on arrives at the place behind it (`arrivals_succ`).

  The loop sends the elements of a source up to a stop or a fault (`Line.sent`); what it leaves
  is the line after these (`line_drainUntilStop`).
-/
import FusedQuery.Proofs.Halting.Position
import FusedQuery.Proofs.Meaning.Sweep

namespace FusedQuery

variable {σ ρ : Type}

/-! ### One place -/

namespace Stage

/-- What a step makes of its stage does not depend on the control. -/
theorem stage_step (stage : Stage σ) (control : Control) (item : Value) (w : World σ) :
    (stage.step control item w).stage = (stage.step {} item w).stage := by
  cases stage with
  | skip count =>
    have hstage : ∀ c : Control, ((Stage.skip count).step c item w).stage = .skip count := by
      intro c
      simp only [step]
      split <;> rfl
    rw [hstage, hstage]
  | _ =>
    rw [step_onto, step_of_le UInt64.zero_le]
    rfl

def meet (stage : Stage σ) (arrival : Arrival σ) : Stage σ :=
  (stage.step {} arrival.item arrival.world).stage

/-- The stage after a step for each arrival. -/
def after (stage : Stage σ) (arrivals : List (Arrival σ)) : Stage σ := arrivals.foldl meet stage

theorem after_append (stage : Stage σ) (front rest : List (Arrival σ)) :
    stage.after (front ++ rest) = (stage.after front).after rest :=
  List.foldl_append

/-- What a stage hands on of its arrivals, if it does not wait for skips. -/
def passes (stage : Stage σ) : List (Arrival σ) → List Value
  | [] => []
  | arrival :: rest =>
    (stage.step {} arrival.item arrival.world).out ++ (stage.meet arrival).passes rest

theorem passes_append (stage : Stage σ) (front rest : List (Arrival σ)) :
    stage.passes (front ++ rest) = stage.passes front ++ (stage.after front).passes rest := by
  induction front generalizing stage with
  | nil => rfl
  | cons arrival front ih =>
    have hfront := ih (stage.meet arrival)
    rw [List.cons_append, passes, passes, hfront, List.append_assoc]
    rfl

theorem skipCount_after (stage : Stage σ) (arrivals : List (Arrival σ)) :
    (stage.after arrivals).skipCount = stage.skipCount := by
  induction arrivals generalizing stage with
  | nil => rfl
  | cons arrival rest ih =>
    have hstep := stage.skipCount_step {} arrival.item arrival.world
    exact (ih (stage.meet arrival)).trans hstep

/-- Without skips to wait for, the control makes no difference to what is handed on. -/
theorem out_step_of_skipCount {stage : Stage σ} (h : stage.skipCount = 0) (control : Control)
    (item : Value) (w : World σ) :
    (stage.step control item w).out = (stage.step {} item w).out := by
  have hle : stage.skipCount ≤ control.skipped := h ▸ UInt64.zero_le
  rw [step_onto, step_of_le hle, h]
  rfl

end Stage

namespace Terminal

def meet (terminal : Terminal σ ρ) (arrival : Arrival σ) : Terminal σ ρ :=
  (terminal.accept {} arrival.item arrival.world).terminal

/-- The terminal after it has taken in each arrival. -/
def after (terminal : Terminal σ ρ) (arrivals : List (Arrival σ)) : Terminal σ ρ :=
  arrivals.foldl meet terminal

end Terminal

/-! ### All places -/

namespace Line

/-- The line after some elements, sent one after the other whatever becomes of them. -/
def after (line : Line σ ρ) (items : List Value) : Line σ ρ :=
  items.foldl (fun line item => (line.dispatch item).line) line

/-- A stage takes a step if the element comes through the stages before it. -/
theorem getElem?_transit {stages : List (Stage σ)} {place : Nat} {stage : Stage σ}
    (h : stages[place]? = some stage) (control : Control) (item : Value) (w : World σ) :
    (transit control item w stages).stages[place]? =
      some (stage.after (transit control item w (stages.take place)).arrival?.toList) := by
  induction stages generalizing place control item w with
  | nil => cases h
  | cons first rest ih =>
    cases place with
    | zero =>
      obtain rfl := Option.some.inj h
      have hstep := first.stage_step control item w
      have hhead : (transit control item w (first :: rest)).stages[0]? =
          some (first.step control item w).stage := by
        simp only [transit]
        split <;> rfl
      rw [hhead, hstep]
      rfl
    | succ place =>
      rw [List.getElem?_cons_succ] at h
      simp only [List.take_succ_cons, transit]
      rcases (first.step control item w).flow with fault | flow
      · exact h
      · cases flow with
        | drop => exact h
        | forward next => exact ih h _ next _

theorem stages_dispatch (line : Line σ ρ) (item : Value) :
    (line.dispatch item).line.stages =
      (transit line.control item line.world line.stages).stages := by
  rw [dispatch_eq_deliver]
  unfold Transit.deliver
  split <;> rfl

theorem terminal_dispatch (line : Line σ ρ) (item : Value) :
    (line.dispatch item).line.terminal =
      line.terminal.after (line.arrival? item line.stages.length).toList := by
  rw [dispatch_eq_deliver, arrival?, List.take_length]
  unfold Transit.deliver Transit.arrival?
  rcases (transit line.control item line.world line.stages).flow with fault | flow
  · rfl
  · cases flow with
    | drop => rfl
    | forward out =>
      simp only [line.terminal.accept_eq (transit line.control item line.world line.stages).control]
      rfl

theorem length_dispatch (line : Line σ ρ) (item : Value) :
    (line.dispatch item).line.stages.length = line.stages.length := by
  have hstages := congrArg List.length (dispatch_kept line item).stages
  rwa [List.length_map, List.length_map] at hstages

/-- **A stage has taken a step for each arrival at its place.** -/
theorem getElem?_after {line : Line σ ρ} {place : Nat} {stage : Stage σ}
    (h : line.stages[place]? = some stage) (items : List Value) :
    (line.after items).stages[place]? = some (stage.after (line.arrivals place items)) := by
  induction items generalizing line stage with
  | nil => exact h
  | cons item rest ih =>
    have hfirst := getElem?_transit h line.control item line.world
    rw [← stages_dispatch] at hfirst
    rw [arrivals, Stage.after_append]
    exact ih hfirst

/-- **The terminal has taken in each arrival behind the last stage.** -/
theorem terminal_after (line : Line σ ρ) (items : List Value) :
    (line.after items).terminal =
      line.terminal.after (line.arrivals line.stages.length items) := by
  induction items generalizing line with
  | nil => rfl
  | cons item rest ih =>
    have hrest := ih (line.dispatch item).line
    rw [terminal_dispatch, length_dispatch] at hrest
    rw [arrivals, Terminal.after, List.foldl_append]
    exact hrest

/-- What comes through a stage arrives at the next place. -/
theorem arrival?_succ {line : Line σ ρ} {place : Nat} {stage : Stage σ}
    (h : line.stages[place]? = some stage) (hskip : stage.skipCount = 0) (item : Value) :
    (line.arrival? item (place + 1)).toList.map Arrival.item =
      stage.passes (line.arrival? item place).toList := by
  have htake : line.stages.take (place + 1) = line.stages.take place ++ [stage] := by
    rw [List.take_add_one, h, Option.toList_some]
  rw [arrival?, arrival?, htake, transit_append]
  generalize transit line.control item line.world (line.stages.take place) = t
  unfold Transit.onward Transit.arrival?
  rcases t.flow with fault | flow
  · rfl
  · cases flow with
    | drop => rfl
    | forward next =>
      have hout := Stage.out_step_of_skipCount hskip t.control next t.world
      simp only [transit_singleton, Option.toList_some, Stage.passes, List.append_nil]
      rw [← hout, Stage.Step.out]
      rcases (stage.step t.control next t.world).flow with fault | flow
      · rfl
      · cases flow <;> rfl

/-- **What a stage hands on arrives at the place behind it.** -/
theorem arrivals_succ {line : Line σ ρ} {place : Nat} {stage : Stage σ}
    (h : line.stages[place]? = some stage) (hskip : stage.skipCount = 0) (items : List Value) :
    (line.arrivals (place + 1) items).map Arrival.item =
      stage.passes (line.arrivals place items) := by
  induction items generalizing line stage with
  | nil => rfl
  | cons item rest ih =>
    have hfirst := getElem?_transit h line.control item line.world
    rw [← stages_dispatch] at hfirst
    have hrest := ih hfirst ((stage.skipCount_after _).trans hskip)
    rw [arrivals, arrivals, List.map_append, arrival?_succ h hskip, Stage.passes_append, hrest]
    rfl

/-! ### The loop -/

/-- The elements of a source that the loop sends: those before a stop, up to one that fails. -/
def sent (line : Line σ ρ) : List Value → List Value
  | [] => []
  | item :: rest =>
    if line.control.stop then []
    else
      item :: match (line.dispatch item).status with
        | .ok () => (line.dispatch item).line.sent rest
        | .error _ => []

theorem prefix_sent (line : Line σ ρ) (source : List Value) : line.sent source <+: source := by
  induction source generalizing line with
  | nil => exact List.prefix_refl []
  | cons item rest ih =>
    simp only [sent]
    split
    · exact List.nil_prefix
    · cases (line.dispatch item).status with
      | error fault => exact List.prefix_cons_inj item |>.mpr List.nil_prefix
      | ok _ => exact List.prefix_cons_inj item |>.mpr (ih _)

theorem line_drainUntilStop (line : Line σ ρ) (visited : Nat) (source : List Value) :
    (line.drainUntilStop visited source).line = line.after (line.sent source) := by
  induction source generalizing line visited with
  | nil => rfl
  | cons item rest ih =>
    simp only [drainUntilStop, sent]
    split
    · rfl
    · cases (line.dispatch item).status with
      | error fault => rfl
      | ok _ => exact ih _ _

end Line

end FusedQuery
