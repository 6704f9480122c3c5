/-
  FusedQuery/Proofs/Stage/Frame.lean
  ==================================
  **What one step leaves alone.**

  Everything later about whole runs rests on how little a single step may touch:

    * of the stage, only what `reset` forgets (`reset_step`), so kind and parameters stay;
    * of the control, never `mayStop`; a stop that is asked for is never taken back, only a
      stage that can stop asks for one, and the number of skips does not fall
      (`step_frame`, gathered in `Control.Frame`).

  A step sees little, too: of the control, it looks at the number of skips alone (`step_onto`).
  In particular it does not look at `mayStop` (`step_allow`), which only tells the traversal
  which loop to take.
-/
import FusedQuery.Stage.Step

namespace FusedQuery

variable {σ : Type}

/-- Counting towards a bound cannot wrap around. -/
theorem toNat_succ_of_lt {n bound : UInt64} (h : n < bound) : (n + 1).toNat = n.toNat + 1 := by
  have hlt := UInt64.lt_iff_toNat_lt.mp h
  have hbound := bound.toNat_lt
  simp only [UInt64.toNat_add, UInt64.reduceToNat]
  omega

namespace Control

/-- How a control may come out of a step or of several.  `canStop` tells whether anything in
    them can ask to stop. -/
structure Frame (canStop : Bool) (before after : Control) : Prop where
  mayStop : after.mayStop = before.mayStop
  stop_of_stop : before.stop = true → after.stop = true
  stop_of_quiet : canStop = false → after.stop = before.stop
  skipped : before.skipped.toNat ≤ after.skipped.toNat

namespace Frame

theorem refl (canStop : Bool) (c : Control) : Frame canStop c c where
  mayStop := rfl
  stop_of_stop := id
  stop_of_quiet := fun _ => rfl
  skipped := Nat.le_refl _

theorem trans {first second : Bool} {a b c : Control} (hab : Frame first a b)
    (hbc : Frame second b c) : Frame (first || second) a c where
  mayStop := hbc.mayStop.trans hab.mayStop
  stop_of_stop := fun h => hbc.stop_of_stop (hab.stop_of_stop h)
  stop_of_quiet := by
    intro h
    obtain ⟨hfirst, hsecond⟩ := Bool.or_eq_false_iff.mp h
    exact (hbc.stop_of_quiet hsecond).trans (hab.stop_of_quiet hfirst)
  skipped := Nat.le_trans hab.skipped hbc.skipped

theorem halt (c : Control) : Frame true c c.halt where
  mayStop := rfl
  stop_of_stop := fun _ => rfl
  stop_of_quiet := fun h => by cases h
  skipped := Nat.le_refl _

end Frame

/-- Counting a skip cannot wrap around while some skip is not done. -/
theorem toNat_countSkip {c : Control} {count : UInt64} (h : c.skipped < count) :
    c.countSkip.skipped.toNat = c.skipped.toNat + 1 :=
  toNat_succ_of_lt h

theorem Frame.countSkip {c : Control} {count : UInt64} (h : c.skipped < count)
    (canStop : Bool) : Frame canStop c c.countSkip where
  mayStop := rfl
  stop_of_stop := id
  stop_of_quiet := fun _ => rfl
  skipped := by rw [toNat_countSkip h]; omega

/-- The same control for a run that looks, or does not look, for a stop. -/
def allow (c : Control) (mayStop : Bool) : Control := { c with mayStop }

@[simp]
theorem allow_stop (c : Control) (mayStop : Bool) : (c.allow mayStop).stop = c.stop := rfl

@[simp]
theorem allow_skipped (c : Control) (mayStop : Bool) :
    (c.allow mayStop).skipped = c.skipped := rfl

end Control

namespace Stage

/-! ### Resetting -/

@[simp]
theorem reset_reset (stage : Stage σ) : stage.reset.reset = stage.reset := by
  cases stage <;> rfl

@[simp]
theorem canStop_reset (stage : Stage σ) : stage.reset.canStop = stage.canStop := by
  cases stage <;> rfl

@[simp]
theorem isFused_reset (stage : Stage σ) : stage.reset.isFused = stage.isFused := by
  cases stage <;> rfl

@[simp]
theorem name_reset (stage : Stage σ) : stage.reset.name = stage.name := by
  cases stage <;> rfl

/-! ### One step -/

/-- A step changes of its stage only what a reset forgets. -/
@[simp]
theorem reset_step (stage : Stage σ) (control : Control) (item : Value) (world : World σ) :
    (stage.step control item world).stage.reset = stage.reset := by
  cases stage with
  | first test? =>
    cases test? with
    | none => rfl
    | some test => simp only [step]; split <;> rfl
  | skip count => simp only [step]; split <;> rfl
  | slice start bound pos => simp only [step]; split <;> rfl
  | take limit taken => simp only [step]; split <;> rfl
  | get index pos => simp only [step]; split <;> rfl
  | uniq eq? seen =>
    simp only [step]
    split
    · split <;> rfl
    · split <;> rfl
  | _ => rfl

theorem isFused_step (stage : Stage σ) (control : Control) (item : Value) (world : World σ) :
    (stage.step control item world).stage.isFused = stage.isFused := by
  rw [← isFused_reset, reset_step, isFused_reset]

theorem step_frame (stage : Stage σ) (control : Control) (item : Value) (world : World σ) :
    Control.Frame stage.canStop control (stage.step control item world).control := by
  cases stage with
  | skip count =>
    simp only [step]
    split
    · next h => exact Control.Frame.countSkip h _
    · exact Control.Frame.refl _ control
  | slice start bound pos =>
    simp only [step]
    split
    · exact Control.Frame.halt control
    · split
      · exact Control.Frame.halt control
      · exact Control.Frame.refl _ control
  | first test? =>
    cases test? with
    | none => exact Control.Frame.halt control
    | some test =>
      simp only [step]
      split
      · exact Control.Frame.halt control
      · exact Control.Frame.refl _ control
      · exact Control.Frame.refl _ control
  | take limit taken =>
    simp only [step]
    split
    · exact Control.Frame.halt control
    · split
      · exact Control.Frame.halt control
      · exact Control.Frame.refl _ control
  | get index pos =>
    simp only [step]
    split
    · exact Control.Frame.halt control
    · exact Control.Frame.refl _ control
  | halt => exact Control.Frame.halt control
  | uniq eq? seen =>
    simp only [step]
    split
    · split <;> exact Control.Frame.refl _ control
    · split <;> exact Control.Frame.refl _ control
  | _ => exact Control.Frame.refl _ control

/-- The same outcome, handed back for the control `c`. -/
def Step.onto (s : Step σ) (c : Control) : Step σ :=
  { s with
    control :=
      { (if s.control.stop then c.halt else c) with skipped := s.control.skipped } }

/-- Of the control, a step sees the number of skips and nothing else. -/
theorem step_onto (stage : Stage σ) (control : Control) (item : Value) (world : World σ) :
    stage.step control item world =
      (stage.step { skipped := control.skipped } item world).onto control := by
  cases stage with
  | skip count => simp only [step]; split <;> rfl
  | slice start bound pos =>
    simp only [step]
    split
    · rfl
    · split <;> rfl
  | first test? =>
    cases test? with
    | none => rfl
    | some test => simp only [step]; split <;> rfl
  | take limit taken =>
    simp only [step]
    split
    · rfl
    · split <;> rfl
  | get index pos => simp only [step]; split <;> rfl
  | uniq eq? seen =>
    simp only [step]
    split
    · split <;> rfl
    · split <;> rfl
  | _ => rfl

def Step.allow (s : Step σ) (mayStop : Bool) : Step σ :=
  { s with control := s.control.allow mayStop }

theorem Step.onto_allow (s : Step σ) (c : Control) (mayStop : Bool) :
    s.onto (c.allow mayStop) = (s.onto c).allow mayStop := by
  obtain ⟨flow, stage, control, world⟩ := s
  obtain ⟨_, stop, skipped⟩ := control
  cases stop <;> rfl

theorem step_allow (stage : Stage σ) (control : Control) (mayStop : Bool) (item : Value)
    (world : World σ) :
    stage.step (control.allow mayStop) item world =
      (stage.step control item world).allow mayStop := by
  rw [step_onto stage (control.allow mayStop), step_onto stage control, Step.onto_allow,
    Control.allow_skipped]

end Stage

end FusedQuery
