/-
  FusedQuery/Proofs/Trace/Moments.lean
  ====================================
  **A run, moment by moment.**

  The trace of a run has a moment for the beginning, for each element of the source that is sent
  down the line, and for each stage and each terminal that has taken one in.  A moment shows the
  control as it is then.

  Traces follow the definitions of `Line.send` and of the two loops clause by clause.  That they
  are the traces of these is what the agreement lemmas say: the last control of the trace is the
  one that is left (`lastControl_send` and the like), and the loop counts what the trace shows
  as sent (`countP_sent_of_visited`).
-/
import FusedQuery.Proofs.Line.Loop
import FusedQuery.Proofs.Query.Ready

namespace FusedQuery

variable {σ ρ : Type}

inductive Deed where
  | start      -- the run begins
  | send       -- an element of the source is sent
  | step       -- a stage has taken one in
  | accept     -- the terminal has
deriving DecidableEq

structure Moment where
  deed : Deed
  control : Control

namespace Moment

def sent (m : Moment) : Bool := m.deed == .send

def accepted (m : Moment) : Bool := m.deed == .accept

/-- The control after some moments, the first of which finds it as given. -/
def lastControl (control : Control) (moments : List Moment) : Control :=
  moments.foldl (fun _ m => m.control) control

theorem lastControl_append (control : Control) (front rest : List Moment) :
    lastControl control (front ++ rest) = lastControl (lastControl control front) rest :=
  List.foldl_append

end Moment

namespace Line

/-! ### Traces -/

/-- The moments of one element on its way. -/
def sendMoments (control : Control) (terminal : Terminal σ ρ) (item : Value) (world : World σ) :
    List (Stage σ) → List Moment
  | [] => [⟨.accept, (terminal.accept control item world).control⟩]
  | stage :: rest =>
    let step := stage.step control item world
    ⟨.step, step.control⟩ ::
      match step.flow with
      | .error _ => []
      | .ok .drop => []
      | .ok (.forward next) => sendMoments step.control terminal next step.world rest

def dispatchMoments (line : Line σ ρ) (item : Value) : List Moment :=
  ⟨.send, line.control⟩ :: sendMoments line.control line.terminal item line.world line.stages

/-- The moments of the loop that looks at nothing. -/
def drainMoments (line : Line σ ρ) : List Value → List Moment
  | [] => []
  | item :: rest =>
    let passage := line.dispatch item
    line.dispatchMoments item ++
      match passage.status with
      | .ok () => passage.line.drainMoments rest
      | .error _ => []

/-- The moments of the loop that looks for a stop. -/
def drainUntilStopMoments (line : Line σ ρ) : List Value → List Moment
  | [] => []
  | item :: rest =>
    if line.control.stop then []
    else
      let passage := line.dispatch item
      line.dispatchMoments item ++
        match passage.status with
        | .ok () => passage.line.drainUntilStopMoments rest
        | .error _ => []

def traverseMoments (line : Line σ ρ) (source : List Value) : List Moment :=
  if line.control.mayStop then line.drainUntilStopMoments source else line.drainMoments source

/-! ### The controls of one element -/

theorem lastControl_send (control : Control) (terminal : Terminal σ ρ) (item : Value)
    (w : World σ) (stages : List (Stage σ)) :
    Moment.lastControl control (sendMoments control terminal item w stages) =
      (send control terminal item w stages).line.control := by
  induction stages generalizing control item w with
  | nil => rfl
  | cons stage rest ih =>
    simp only [sendMoments, send, Moment.lastControl, List.foldl_cons]
    rcases (stage.step control item w).flow with fault | flow
    · rfl
    · cases flow with
      | drop => rfl
      | forward next => exact ih _ next _

/-- All controls on the way of an element are framed by the one before. -/
theorem frame_of_mem_sendMoments {control : Control} {terminal : Terminal σ ρ} {item : Value}
    {w : World σ} {stages : List (Stage σ)} {m : Moment}
    (h : m ∈ sendMoments control terminal item w stages) :
    Control.Frame (stages.any Stage.canStop || terminal.canStop) control m.control := by
  induction stages generalizing control item w with
  | nil =>
    obtain rfl := List.mem_singleton.mp h
    exact terminal.accept_frame control item w
  | cons stage rest ih =>
    have hstep := stage.step_frame control item w
    rw [List.any_cons, Bool.or_assoc]
    rw [sendMoments] at h
    rcases List.mem_cons.mp h with rfl | hrest
    · exact hstep.trans (Control.Frame.refl _ _)
    · rcases hflow : (stage.step control item w).flow with fault | flow
      · simp only [hflow] at hrest
        cases hrest
      · cases flow with
        | drop =>
          simp only [hflow] at hrest
          cases hrest
        | forward next =>
          simp only [hflow] at hrest
          exact hstep.trans (ih hrest)

/-- A stop that is asked for on the way of an element is there at the end of it. -/
theorem stop_send_of_mem {control : Control} {terminal : Terminal σ ρ} {item : Value}
    {w : World σ} {stages : List (Stage σ)} {m : Moment}
    (h : m ∈ sendMoments control terminal item w stages) (hstop : m.control.stop = true) :
    (send control terminal item w stages).line.control.stop = true := by
  induction stages generalizing control item w with
  | nil =>
    obtain rfl := List.mem_singleton.mp h
    exact hstop
  | cons stage rest ih =>
    rw [sendMoments] at h
    simp only [send]
    generalize stage.step control item w = step at h ⊢
    rcases List.mem_cons.mp h with rfl | hrest
    · rcases step.flow with fault | flow
      · exact hstop
      · cases flow with
        | drop => exact hstop
        | forward next =>
          have hkept := dispatch_kept (⟨rest, step.control, terminal, step.world⟩ : Line σ ρ) next
          exact hkept.control.stop_of_stop hstop
    · rcases hflow : step.flow with fault | flow
      · simp only [hflow] at hrest
        cases hrest
      · cases flow with
        | drop =>
          simp only [hflow] at hrest
          cases hrest
        | forward next =>
          simp only [hflow] at hrest
          exact ih hrest

/-! ### The deeds of one element -/

/-- On the way of one element, no other is sent, and the terminal takes in at most the one. -/
structure OneElement (moments : List Moment) : Prop where
  sent : ∀ m ∈ moments, m.sent = false
  accepted : moments.countP Moment.accepted ≤ 1

theorem OneElement.nil : OneElement [] where
  sent := fun _ hm => nomatch hm
  accepted := Nat.zero_le 1

theorem oneElement_sendMoments (control : Control) (terminal : Terminal σ ρ) (item : Value)
    (w : World σ) (stages : List (Stage σ)) :
    OneElement (sendMoments control terminal item w stages) := by
  induction stages generalizing control item w with
  | nil =>
    constructor
    · intro m hm
      obtain rfl := List.mem_singleton.mp hm
      rfl
    · exact Nat.le_refl 1
  | cons stage rest ih =>
    rw [sendMoments]
    generalize stage.step control item w = step
    have honward : OneElement (match step.flow with
        | .error _ => []
        | .ok .drop => []
        | .ok (.forward next) => sendMoments step.control terminal next step.world rest) := by
      rcases step.flow with fault | flow
      · exact OneElement.nil
      · cases flow with
        | drop => exact OneElement.nil
        | forward next => exact ih _ next _
    constructor
    · intro m hm
      rcases List.mem_cons.mp hm with rfl | hrest
      · rfl
      · exact honward.sent m hrest
    · rw [List.countP_cons_of_neg Bool.false_ne_true]
      exact honward.accepted

theorem countP_sent_dispatchMoments (line : Line σ ρ) (item : Value) :
    (line.dispatchMoments item).countP Moment.sent = 1 := by
  have hone := oneElement_sendMoments line.control line.terminal item line.world line.stages
  have hnone : (sendMoments line.control line.terminal item line.world line.stages).countP
      Moment.sent = 0 := by
    rw [List.countP_eq_zero]
    intro m hm
    rw [hone.sent m hm]
    exact Bool.false_ne_true
  rw [dispatchMoments, List.countP_cons_of_pos rfl, hnone]

/-! ### Agreement with the loops -/

theorem lastControl_dispatch (control : Control) (line : Line σ ρ) (item : Value) :
    Moment.lastControl control (line.dispatchMoments item) = (line.dispatch item).line.control :=
  lastControl_send line.control line.terminal item line.world line.stages

theorem lastControl_drainUntilStop (line : Line σ ρ) (visited : Nat) (source : List Value) :
    Moment.lastControl line.control (line.drainUntilStopMoments source) =
      (line.drainUntilStop visited source).line.control := by
  induction source generalizing line visited with
  | nil => rfl
  | cons item rest ih =>
    simp only [drainUntilStopMoments, drainUntilStop]
    split
    · rfl
    · rw [Moment.lastControl_append, lastControl_dispatch]
      cases (line.dispatch item).status with
      | error fault => rfl
      | ok _ => exact ih _ _

theorem countP_sent_of_visited {line : Line σ ρ} {visited n : Nat} {source : List Value}
    (h : (line.drainUntilStop visited source).visited = .ok n) :
    visited + (line.drainUntilStopMoments source).countP Moment.sent = n := by
  induction source generalizing line visited with
  | nil => exact Except.ok.inj h
  | cons item rest ih =>
    rw [drainUntilStopMoments]
    simp only [drainUntilStop] at h
    split at h
    · next hstop =>
      rw [if_pos hstop]
      exact Except.ok.inj h
    · next hstop =>
      rw [if_neg hstop, List.countP_append, countP_sent_dispatchMoments]
      cases hstatus : (line.dispatch item).status with
      | error fault =>
        rw [hstatus] at h
        cases h
      | ok _ =>
        rw [hstatus] at h
        have hrest := ih h
        simp only
        omega

/-! ### The controls of a traversal -/

theorem frame_of_mem_drainUntilStopMoments {line : Line σ ρ} {source : List Value} {m : Moment}
    (h : m ∈ line.drainUntilStopMoments source) :
    Control.Frame line.canStop line.control m.control := by
  induction source generalizing line with
  | nil => cases h
  | cons item rest ih =>
    rw [drainUntilStopMoments] at h
    split at h
    · cases h
    · rcases List.mem_append.mp h with hfirst | hrest
      · rcases List.mem_cons.mp hfirst with rfl | hsend
        · exact Control.Frame.refl _ _
        · have hframe := frame_of_mem_sendMoments hsend
          rw [Bool.or_comm] at hframe
          exact hframe
      · have hkept := dispatch_kept line item
        cases hstatus : (line.dispatch item).status with
        | error fault =>
          simp only [hstatus] at hrest
          cases hrest
        | ok _ =>
          simp only [hstatus] at hrest
          have hboth := hkept.control.trans (ih hrest)
          rwa [hkept.canStop_eq, Bool.or_self] at hboth

/-- Looking for a stop that never comes shows in no moment. -/
theorem Quiet.drainUntilStopMoments_eq {line : Line σ ρ} (h : line.Quiet)
    (source : List Value) : line.drainUntilStopMoments source = line.drainMoments source := by
  induction source generalizing line with
  | nil => rfl
  | cons item rest ih =>
    have hnext := h.dispatch item
    simp only [drainUntilStopMoments, drainMoments, h.stop, if_neg Bool.false_ne_true]
    cases (line.dispatch item).status with
    | error fault => rfl
    | ok _ => rw [ih hnext]

/-- The trace of a traversal is that of the loop that looks. -/
theorem traverseMoments_eq {line : Line σ ρ} (h : line.Ready) (source : List Value) :
    line.traverseMoments source = line.drainUntilStopMoments source := by
  unfold traverseMoments
  cases hcan : line.canStop with
  | true => rw [if_pos (h.mayStop.trans hcan)]
  | false =>
    rw [h.mayStop, hcan, if_neg Bool.false_ne_true]
    exact (Quiet.drainUntilStopMoments_eq ⟨h.stop, hcan⟩ source).symm

end Line

/-! ### After a stop -/

namespace Moment

/-- Once the stop is asked for, no further element is sent, and the terminal takes in at most the
    one that is on its way. -/
def StopAtOnce (moments : List Moment) : Prop :=
  ∀ before m after, moments = before ++ m :: after → m.control.stop = true →
    (∀ later ∈ after, later.sent = false) ∧ after.countP accepted ≤ 1

theorem StopAtOnce.nil : StopAtOnce [] := by
  intro before m after hsplit
  cases before <;> cases hsplit

/-- A moment before the stop is asked for. -/
theorem StopAtOnce.cons {first : Moment} {rest : List Moment} (hfirst : first.control.stop = false)
    (hrest : StopAtOnce rest) : StopAtOnce (first :: rest) := by
  intro before m after hsplit hstop
  cases before with
  | nil =>
    obtain ⟨rfl, _⟩ := List.cons.inj hsplit
    rw [hfirst] at hstop
    cases hstop
  | cons _ before => exact hrest before m after (List.cons.inj hsplit).2 hstop

end Moment

namespace Line

/-- The moments of one element, with further ones behind them unless it asks to stop. -/
theorem OneElement.stopAtOnce {sends rest : List Moment} (h : OneElement sends)
    (hlast : ∀ m ∈ sends, m.control.stop = true → rest = [])
    (hrest : Moment.StopAtOnce rest) : Moment.StopAtOnce (sends ++ rest) := by
  intro before m after hsplit hstop
  rcases List.append_eq_append_iff.mp hsplit with ⟨between, _, hbetween⟩ | ⟨onward, hsends, hm⟩
  · exact hrest between m after hbetween hstop
  · cases onward with
    | nil => exact hrest [] m after hm.symm hstop
    | cons _ onward =>
      obtain ⟨rfl, hafter⟩ := List.cons.inj hm
      have hmem : m ∈ sends := by
        rw [hsends]
        exact List.mem_append_right _ List.mem_cons_self
      rw [hlast m hmem hstop] at hafter
      obtain rfl : after = onward := hafter.trans (List.append_nil onward)
      have hlater : after.Sublist sends := by
        rw [hsends]
        exact (List.sublist_cons_self m after).trans (List.sublist_append_right before _)
      constructor
      · intro later hmem
        exact h.sent later (hlater.subset hmem)
      · exact Nat.le_trans hlater.countP_le h.accepted

theorem drainUntilStopMoments_of_stop {line : Line σ ρ} (h : line.control.stop = true)
    (source : List Value) : line.drainUntilStopMoments source = [] := by
  cases source with
  | nil => rfl
  | cons item rest => rw [drainUntilStopMoments, if_pos h]

theorem stopAtOnce_drainUntilStopMoments (line : Line σ ρ) (source : List Value) :
    Moment.StopAtOnce (line.drainUntilStopMoments source) := by
  induction source generalizing line with
  | nil => exact Moment.StopAtOnce.nil
  | cons item rest ih =>
    cases hstop : line.control.stop with
    | true =>
      rw [drainUntilStopMoments_of_stop hstop]
      exact Moment.StopAtOnce.nil
    | false =>
      have hone := oneElement_sendMoments line.control line.terminal item line.world line.stages
      rw [drainUntilStopMoments, if_neg (by rw [hstop]; exact Bool.false_ne_true)]
      apply Moment.StopAtOnce.cons hstop
      apply hone.stopAtOnce
      · intro m hm hhalt
        have hhalted : (line.dispatch item).line.control.stop = true :=
          stop_send_of_mem hm hhalt
        cases (line.dispatch item).status with
        | error fault => rfl
        | ok _ => exact drainUntilStopMoments_of_stop hhalted rest
      · cases (line.dispatch item).status with
        | error fault => exact Moment.StopAtOnce.nil
        | ok _ => exact ih _

end Line

end FusedQuery
