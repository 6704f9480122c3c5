/-
  FusedQuery/Proofs/Halting/Spent.lean
  ====================================
  **A stage asks to stop when it has nothing more to give.**

  A stage that gives a window of its arrivals is `Spent` when the window is behind it.  A spent
  stage drops what arrives (`flow_of_spent`), and it stays spent while its position does not wrap
  around (`SpentWithin.step`); and a step that asks to stop leaves its stage spent
  (`spent_of_stop`).
  So nothing is lost by going on after the stop, and nothing is gained: a loop that looks for it
  and one that does not are handed the same elements (`handedOn_heeding`).

  A `first` is the exception.  It is never spent, and only a loop that stops at its wish is
  handed one element alone (`handedOn_first`).
-/
import FusedQuery.Proofs.Counter.Bounds
import FusedQuery.Proofs.Stage.Drive

namespace FusedQuery

variable {σ : Type}

namespace Stage

/-! ### Spent stages -/

/-- The stage has nothing more to give. -/
def Spent : Stage σ → Prop
  | .slice _ bound pos => bound ≤ pos
  | .take limit taken => limit ≤ taken
  | .get index pos => index < pos
  | .halt => True
  | _ => False

def IsFirst : Stage σ → Prop
  | .first _ => True
  | _ => False

theorem flow_of_spent {stage : Stage σ} (h : stage.Spent) (control : Control) (item : Value)
    (w : World σ) : (stage.step control item w).flow = .ok .drop := by
  cases stage with
  | slice start bound pos => simp only [step, if_pos (show bound ≤ pos from h)]
  | take limit taken => simp only [step, if_pos (show limit ≤ taken from h)]
  | get index pos =>
    have hne : pos ≠ index := (UInt64.ne_of_lt h).symm
    simp only [step, if_neg hne]
  | halt => rfl
  | _ => exact h.elim

variable {stage : Stage σ} {k : Nat}

/-- After no more than `k` arrivals, the stage has nothing more to give. -/
structure SpentWithin (k : Nat) (stage : Stage σ) : Prop where
  spent : stage.Spent
  within : stage.Within k

theorem Within.step (h : stage.Within k) (hk : k + 1 < 2 ^ 64) (control : Control) (item : Value)
    (w : World σ) : (stage.step control item w).stage.Within (k + 1) := by
  rw [stage_step]
  exact (h.meet hk ⟨item, w⟩).within

/-- Counting one more arrival does not wrap around. -/
theorem Within.toNat_succ (h : stage.Within k) (hk : k + 1 < 2 ^ 64) :
    (stage.counter + 1).toNat = stage.counter.toNat + 1 := by
  have hle := h.counter_le
  exact Counter.toNat_succ (by omega)

/-- A position that is behind the window does not come back to it. -/
theorem SpentWithin.step (h : stage.SpentWithin k) (hk : k + 1 < 2 ^ 64) (control : Control)
    (item : Value) (w : World σ) :
    (stage.step control item w).stage.SpentWithin (k + 1) := by
  obtain ⟨hspent, hwithin⟩ := h
  refine ⟨?_, hwithin.step hk control item w⟩
  have hnext := hwithin.toNat_succ hk
  cases stage with
  | slice start bound pos =>
    have hle : bound ≤ pos := hspent
    have hnat := UInt64.le_iff_toNat_le.mp hle
    simp only [counter] at hnext
    simp only [Stage.step, if_pos hle]
    exact UInt64.le_iff_toNat_le.mpr (by omega)
  | take limit taken =>
    have hle : limit ≤ taken := hspent
    simp only [Stage.step, if_pos hle]
    exact hspent
  | get index pos =>
    have hlt : index < pos := hspent
    have hnat := UInt64.lt_iff_toNat_lt.mp hlt
    simp only [counter] at hnext
    simp only [Stage.step, if_neg (UInt64.ne_of_lt hlt).symm]
    exact UInt64.lt_iff_toNat_lt.mpr (by omega)
  | halt => trivial
  | _ => exact hspent.elim

/-- **A stage that asks to stop is spent by that step.**  If it was not spent before, the step
    is the one that takes its position to the end of the window. -/
theorem spent_of_stop (hfirst : ¬ stage.IsFirst) (hwithin : stage.Within k)
    (hk : k + 1 < 2 ^ 64) {control : Control} (hgoing : control.stop = false) {item : Value}
    {w : World σ} (hstop : (stage.step control item w).control.stop = true) :
    (stage.step control item w).stage.SpentWithin (k + 1) := by
  by_cases hspent : stage.Spent
  · exact SpentWithin.step ⟨hspent, hwithin⟩ hk control item w
  refine ⟨?_, hwithin.step hk control item w⟩
  have hcan : stage.canStop = true := by
    by_contra hquiet
    rw [(stage.step_frame control item w).stop_of_quiet (Bool.eq_false_iff.mpr hquiet),
      hgoing] at hstop
    cases hstop
  cases stage with
  | slice start bound pos =>
    have hmore : ¬ bound ≤ pos := hspent
    simp only [step, if_neg hmore] at hstop ⊢
    by_cases hlast : bound ≤ pos + 1
    · exact hlast
    · rw [if_neg hlast, hgoing] at hstop
      cases hstop
  | take limit taken =>
    have hmore : ¬ limit ≤ taken := hspent
    simp only [step, if_neg hmore] at hstop ⊢
    by_cases hlast : taken + 1 = limit
    · exact UInt64.le_of_eq hlast.symm
    · rw [if_neg hlast, hgoing] at hstop
      cases hstop
  | get index pos =>
    have hnext := hwithin.toNat_succ hk
    simp only [counter] at hnext
    by_cases hhere : pos = index
    · simp only [step, if_pos hhere]
      subst hhere
      exact UInt64.lt_iff_toNat_lt.mpr (by omega)
    · simp only [step, if_neg hhere, hgoing] at hstop
      cases hstop
  | halt => exact (hspent trivial).elim
  | first test? => exact (hfirst trivial).elim
  | _ => cases hcan

/-! ### Arrival after arrival -/

/-- A stage has counted no further than its arrivals. -/
theorem Within.after_arrivals (h : stage.Within k) (arrivals : List (Arrival σ))
    (hk : k + arrivals.length < 2 ^ 64) :
    (stage.after arrivals).Within (k + arrivals.length) := by
  induction arrivals generalizing stage k with
  | nil => exact h
  | cons arrival rest ih =>
    rw [List.length_cons] at hk ⊢
    have hrest := ih (h.meet (by omega) arrival).within (by omega)
    rw [Nat.add_right_comm] at hrest
    exact hrest

theorem SpentWithin.spent_after (h : stage.SpentWithin k) (arrivals : List (Arrival σ))
    (hk : k + arrivals.length < 2 ^ 64) : (stage.after arrivals).Spent := by
  induction arrivals generalizing stage k with
  | nil => exact h.spent
  | cons arrival rest ih =>
    rw [List.length_cons] at hk
    exact ih (h.step (by omega) {} arrival.item arrival.world) (by omega)

theorem isFirst_reset : stage.reset.IsFirst ↔ stage.IsFirst := by
  cases stage <;> exact Iff.rfl

theorem isFirst_step {control : Control} {item : Value} {w : World σ} :
    (stage.step control item w).stage.IsFirst ↔ stage.IsFirst := by
  rw [← isFirst_reset, reset_step, isFirst_reset]

theorem isFirst_after {arrivals : List (Arrival σ)} :
    (stage.after arrivals).IsFirst ↔ stage.IsFirst := by
  induction arrivals generalizing stage with
  | nil => exact Iff.rfl
  | cons arrival rest ih => exact ih.trans isFirst_step

/-! ### With and without a look at the stop -/

/-- By induction on the arrivals. -/
theorem SpentWithin.handedOn (h : stage.SpentWithin k) (driver : Driver) (control : Control)
    (arrivals : List (Arrival σ)) (hk : k + arrivals.length < 2 ^ 64) :
    handedOn (stage.drive driver control arrivals) = [] := by
  induction arrivals generalizing stage control k with
  | nil => rfl
  | cons arrival rest ih =>
    rw [List.length_cons] at hk
    have hout := Step.out_of_drop (flow_of_spent h.spent control arrival.item arrival.world)
    have hrest := ih (h.step (by omega) control arrival.item arrival.world)
      (stage.step control arrival.item arrival.world).control (by omega)
    unfold drive
    split
    · rfl
    · rw [handedOn_cons, hout, List.nil_append]
      split
      · rfl
      · exact hrest

/-- **To look for the stop of a stage makes no difference,** unless it is a `first`.  By
    induction on the arrivals; after the stop, one loop is over and the other drives a stage
    that is spent. -/
theorem handedOn_heeding (hfirst : ¬ stage.IsFirst) (hwithin : stage.Within k)
    (endsAtFault : Bool) {control : Control} (hgoing : control.stop = false)
    (arrivals : List (Arrival σ)) (hk : k + arrivals.length < 2 ^ 64) :
    handedOn (stage.drive (.heeding endsAtFault) control arrivals) =
      handedOn (stage.drive (.ignoring endsAtFault) control arrivals) := by
  induction arrivals generalizing stage control k with
  | nil => rfl
  | cons arrival rest ih =>
    rw [List.length_cons] at hk
    have hspent : (stage.step control arrival.item arrival.world).control.stop = true → _ :=
      spent_of_stop hfirst hwithin (by omega) hgoing
    have hnext := hwithin.step (by omega) control arrival.item arrival.world
    have hother : ¬ (stage.step control arrival.item arrival.world).stage.IsFirst :=
      mt isFirst_step.mp hfirst
    rw [drive_heeding_cons _ hgoing, drive_ignoring_cons, handedOn_cons, handedOn_cons]
    generalize stage.step control arrival.item arrival.world = s at *
    split
    · rfl
    · cases hstop : s.control.stop with
      | true =>
        rw [drive_of_stop rfl hstop, (hspent hstop).handedOn _ _ rest (by omega)]
        rfl
      | false => rw [ih hother hnext hstop (by omega)]

/-- A stage that cannot stop is driven through the same steps. -/
theorem drive_of_quiet (hcan : stage.canStop = false) (endsAtFault : Bool) {control : Control}
    (hgoing : control.stop = false) (arrivals : List (Arrival σ)) :
    stage.drive (.heeding endsAtFault) control arrivals =
      stage.drive (.ignoring endsAtFault) control arrivals := by
  induction arrivals generalizing stage control with
  | nil => rfl
  | cons arrival rest ih =>
    have hquiet : (stage.step control arrival.item arrival.world).stage.canStop = false := by
      rw [← canStop_reset, reset_step, canStop_reset, hcan]
    have hframe := stage.step_frame control arrival.item arrival.world
    have hstop := (hframe.stop_of_quiet hcan).trans hgoing
    rw [drive_heeding_cons _ hgoing, drive_ignoring_cons]
    simp only [ih hquiet hstop]

/-! ### The first element -/

/-- A `first` learns nothing, and asks to stop just when it hands an element on. -/
theorem step_first (test? : Option (Predicate σ)) (control : Control) (item : Value)
    (w : World σ) :
    let s := (first test?).step control item w
    s.stage = .first test? ∧
      ((s.flow = .ok (.forward item) ∧ s.control = control.halt) ∨
        (s.out = [] ∧ s.control = control)) := by
  cases test? with
  | none => exact ⟨rfl, Or.inl ⟨rfl, rfl⟩⟩
  | some test =>
    simp only [step]
    rcases ((test item).run w).result with fault | passed
    · exact ⟨rfl, Or.inr ⟨rfl, rfl⟩⟩
    · cases passed with
      | true => exact ⟨rfl, Or.inl ⟨rfl, rfl⟩⟩
      | false => exact ⟨rfl, Or.inr ⟨rfl, rfl⟩⟩

theorem stop_first_iff (test? : Option (Predicate σ)) {control : Control}
    (hgoing : control.stop = false) (item : Value) (w : World σ) :
    ((first test?).step control item w).control.stop = true ↔
      ∃ next, ((first test?).step control item w).flow = .ok (.forward next) := by
  obtain ⟨-, ⟨hflow, hcontrol⟩ | ⟨hout, hcontrol⟩⟩ := step_first test? control item w
  · rw [hflow, hcontrol]
    exact iff_of_true rfl ⟨item, rfl⟩
  · rw [hcontrol, hgoing]
    refine iff_of_false Bool.false_ne_true ?_
    rintro ⟨next, hflow⟩
    exact Step.out_eq_nil_iff.mp hout next hflow

/-- A loop that stops at the wish of a `first` is handed the first of the elements that one
    without a look at it is handed. -/
theorem handedOn_first (test? : Option (Predicate σ)) (endsAtFault : Bool) {control : Control}
    (hgoing : control.stop = false) (arrivals : List (Arrival σ)) :
    handedOn ((first test?).drive (.heeding endsAtFault) control arrivals) =
      (handedOn ((first test?).drive (.ignoring endsAtFault) control arrivals)).take 1 := by
  induction arrivals with
  | nil => rfl
  | cons arrival rest ih =>
    obtain ⟨hstage, hcases⟩ := step_first test? control arrival.item arrival.world
    rw [drive_heeding_cons _ hgoing, drive_ignoring_cons, handedOn_cons, handedOn_cons]
    generalize (first test?).step control arrival.item arrival.world = s at *
    rcases hcases with ⟨hflow, hcontrol⟩ | ⟨hout, hcontrol⟩
    · have hout : s.out = [arrival.item] := by simp only [Step.out, hflow]
      have hstop : s.control.stop = true := by rw [hcontrol]; rfl
      rw [hout, drive_of_stop rfl hstop]
      simp
    · rw [hout, hstage, hcontrol]
      simp only [List.nil_append]
      split
      · rfl
      · exact ih

/-- Without a look at the stop, all arrivals are handed on. -/
theorem handedOn_first_none (endsAtFault : Bool) (control : Control)
    (arrivals : List (Arrival σ)) :
    handedOn ((first none : Stage σ).drive (.ignoring endsAtFault) control arrivals) =
      arrivals.map Arrival.item := by
  induction arrivals generalizing control with
  | nil => rfl
  | cons arrival rest ih =>
    have hgoes : (endsAtFault && ((first none : Stage σ).step control arrival.item
        arrival.world).failed) = false := Bool.and_false _
    rw [drive_ignoring_cons, handedOn_cons]
    simp only [hgoes, Bool.false_eq_true, ↓reduceIte]
    exact congrArg (List.cons arrival.item) (ih control.halt)

/-- **A stage asks to stop only when it has nothing more to give.**

    A stage that is no `first` was reset, has met some arrivals, and asks to stop at the next
    one.  Whatever it meets after that, in any world and with any control, it drops, as long as
    there are fewer arrivals in all than its position can count.  So a loop that looks for the
    stop and one that does not are handed the same elements, whether or not they go on after a
    fault; and if the stage cannot stop, they take the same steps, from any state of the stage.

    A `first` asks to stop in just those steps in which it hands on its element.  Of what it
    hands on otherwise, a loop that looks for the stop is handed the first alone; and without a
    test, it would hand on all. -/
theorem stop_loses_nothing (endsAtFault : Bool) :
    (∀ stage : Stage σ, ¬ stage.IsFirst →
      (∀ front asking between late,
        (front ++ asking :: between ++ [late]).length < 2 ^ 64 →
        ∀ before later : Control, before.stop = false →
        ((stage.reset.after front).step before asking.item asking.world).control.stop = true →
        ((stage.reset.after (front ++ asking :: between)).step later late.item late.world).flow =
          .ok .drop) ∧
      ∀ control arrivals, control.stop = false → arrivals.length < 2 ^ 64 →
        handedOn (stage.reset.drive (.heeding endsAtFault) control arrivals) =
          handedOn (stage.reset.drive (.ignoring endsAtFault) control arrivals)) ∧
    (∀ stage : Stage σ, stage.canStop = false → ∀ control arrivals, control.stop = false →
      stage.drive (.heeding endsAtFault) control arrivals =
        stage.drive (.ignoring endsAtFault) control arrivals) ∧
    (∀ (test? : Option (Predicate σ)) control, control.stop = false →
      (∀ item w, ((first test?).step control item w).control.stop = true ↔
        ∃ next, ((first test?).step control item w).flow = .ok (.forward next)) ∧
      ∀ arrivals, handedOn ((first test?).drive (.heeding endsAtFault) control arrivals) =
        (handedOn ((first test?).drive (.ignoring endsAtFault) control arrivals)).take 1) ∧
    ∀ control arrivals,
      handedOn ((first none : Stage σ).drive (.ignoring endsAtFault) control arrivals) =
        arrivals.map Arrival.item := by
  refine ⟨?_, ?_, ?_, handedOn_first_none endsAtFault⟩
  · intro stage hfirst
    have hother : ¬ stage.reset.IsFirst := mt isFirst_reset.mp hfirst
    have hfresh := stage.within_reset
    constructor
    · intro front asking between late hlen before later hgoing hstop
      simp only [List.length_append, List.length_cons, List.length_nil] at hlen
      have hfront : ¬ (stage.reset.after front).IsFirst := mt isFirst_after.mp hother
      have hwithin := hfresh.after_arrivals front (by omega)
      have hspent := spent_of_stop hfront hwithin (by omega) hgoing hstop
      have hstill := hspent.spent_after between (by omega)
      rw [stage_step] at hstill
      rw [after_append]
      exact flow_of_spent hstill later late.item late.world
    · intro control arrivals hgoing hlen
      exact handedOn_heeding hother hfresh endsAtFault hgoing arrivals (by omega)
  · intro stage hcan control arrivals hgoing
    exact drive_of_quiet hcan endsAtFault hgoing arrivals
  · intro test? control hgoing
    exact ⟨stop_first_iff test? hgoing, handedOn_first test? endsAtFault hgoing⟩

/-- A window of one element, the second, and the elements before and behind it. -/
theorem stop_loses_nothing_window :
    let w : World Unit := ⟨0, ()⟩
    let window : Stage Unit := .slice 1 2 5
    let one : Arrival Unit := ⟨.bool false, w⟩
    let two : Arrival Unit := ⟨.bool true, w⟩
    let three : Arrival Unit := ⟨.null, w⟩
    ¬ window.IsFirst ∧
      ((window.reset.after [one]).step {} two.item two.world).control.stop = true ∧
      ((window.reset.after [one, two]).step {} three.item three.world).flow = .ok .drop ∧
      handedOn (window.reset.drive (.heeding true) {} [one, two, three]) =
        handedOn (window.reset.drive (.ignoring true) {} [one, two, three]) ∧
      handedOn (window.reset.drive (.ignoring true) {} [one, two, three]) = [.bool true] ∧
      (skip 1 : Stage Unit).canStop = false ∧
      (skip 1 : Stage Unit).drive (.heeding true) {} [one, two] =
        (skip 1).drive (.ignoring true) {} [one, two] ∧
      handedOn ((first none : Stage Unit).drive (.heeding true) {} [one, two]) = [.bool false] ∧
      handedOn ((first none : Stage Unit).drive (.ignoring true) {} [one, two]) =
        [.bool false, .bool true] := by
  intro w window one two three
  obtain ⟨hwindow, hquiet, hfirst, hall⟩ := stop_loses_nothing (σ := Unit) true
  have hother : ¬ window.IsFirst := id
  have hstop : ((window.reset.after [one]).step {} two.item two.world).control.stop = true := rfl
  have hskip : (skip 1 : Stage Unit).canStop = false := rfl
  obtain ⟨hspent, hsame⟩ := hwindow window hother
  have hone := (hfirst none {} rfl).2 [one, two]
  rw [hall {} [one, two]] at hone
  exact ⟨hother, hstop, hspent [one] two [] three (by decide) {} {} rfl hstop,
    hsame {} [one, two, three] rfl (by decide), rfl, hskip, hquiet (skip 1) hskip {} [one, two] rfl,
    hone, hall {} [one, two]⟩

end Stage

end FusedQuery
