/-
  FusedQuery/Proofs/Line/Loop.lean
  ================================
  **The two loops of a line are one.**

  `Line.traverse` takes the loop that looks for a stop only if something in the line can stop.
  If nothing can, the stop is off for good (`Quiet`), the two loops do the same
  (`drainUntilStop_of_quiet`), and so a line whose `mayStop` tells the truth is always gone
  through by the loop that looks (`traverse_eq`).  What is proved of that loop then holds of
  every traversal.
-/
import FusedQuery.Proofs.Line.Transit
import FusedQuery.Proofs.Terminal.Frame

namespace FusedQuery.Line

variable {σ ρ : Type}

def canStop (line : Line σ ρ) : Bool := line.terminal.canStop || line.stages.any Stage.canStop

/-! ### What a dispatch leaves alone -/

/-- The line after one element: its control is framed, its stages are the same up to what a
    reset forgets, and its terminal can stop if it could. -/
structure Kept (before after : Line σ ρ) : Prop where
  control : Control.Frame before.canStop before.control after.control
  stages : after.stages.map Stage.reset = before.stages.map Stage.reset
  terminal : after.terminal.canStop = before.terminal.canStop

theorem any_canStop_map_reset (stages : List (Stage σ)) :
    (stages.map Stage.reset).any Stage.canStop = stages.any Stage.canStop := by
  induction stages with
  | nil => rfl
  | cons stage rest ih => simp only [List.map_cons, List.any_cons, Stage.canStop_reset, ih]

namespace Kept

theorem refl (line : Line σ ρ) : Kept line line :=
  ⟨Control.Frame.refl _ _, rfl, rfl⟩

theorem canStop_eq {before after : Line σ ρ} (h : Kept before after) :
    after.canStop = before.canStop := by
  have hstages := congrArg (fun stages => stages.any Stage.canStop) h.stages
  simp only [any_canStop_map_reset] at hstages
  simp only [canStop, h.terminal, hstages]

theorem trans {a b c : Line σ ρ} (hab : Kept a b) (hbc : Kept b c) : Kept a c where
  control := by
    have hcontrol := hab.control.trans hbc.control
    rwa [hab.canStop_eq, Bool.or_self] at hcontrol
  stages := hbc.stages.trans hab.stages
  terminal := hbc.terminal.trans hab.terminal

end Kept

theorem dispatch_kept (line : Line σ ρ) (item : Value) :
    Kept line (line.dispatch item).line := by
  have hcontrol := transit_frame line.control item line.world line.stages
  have hstages := map_reset_transit line.control item line.world line.stages
  have hquiet : Control.Frame line.canStop line.control
      (transit line.control item line.world line.stages).control := by
    have h := (Control.Frame.refl line.terminal.canStop line.control).trans hcontrol
    exact h
  rw [dispatch_eq_deliver]
  cases hflow : (transit line.control item line.world line.stages).flow with
  | error fault =>
    simp only [Transit.deliver, hflow]
    exact ⟨hquiet, hstages, rfl⟩
  | ok flow =>
    cases flow with
    | drop =>
      simp only [Transit.deliver, hflow]
      exact ⟨hquiet, hstages, rfl⟩
    | forward out =>
      simp only [Transit.deliver, hflow]
      have haccept := line.terminal.accept_frame
        (transit line.control item line.world line.stages).control out
        (transit line.control item line.world line.stages).world
      have hboth := hcontrol.trans haccept
      rw [Bool.or_comm] at hboth
      exact ⟨hboth, hstages, line.terminal.canStop_accept _ _ _⟩

/-- What one element leaves alone, the loop leaves alone, however it ends. -/
theorem drainUntilStop_kept (line : Line σ ρ) (visited : Nat) (source : List Value) :
    Kept line (line.drainUntilStop visited source).line := by
  induction source generalizing line visited with
  | nil => exact Kept.refl line
  | cons item rest ih =>
    simp only [drainUntilStop]
    split
    · exact Kept.refl line
    · have hfirst := dispatch_kept line item
      cases (line.dispatch item).status with
      | error fault => exact hfirst
      | ok _ => exact hfirst.trans (ih _ _)

/-- A stop that was asked for before the first element leaves the line as it is. -/
theorem drainUntilStop_of_stop (stages : List (Stage σ)) {control : Control}
    (h : control.stop = true) (terminal : Terminal σ ρ) (world : World σ) (visited : Nat)
    (source : List Value) :
    ((⟨stages, control, terminal, world⟩ : Line σ ρ).drainUntilStop visited source) =
      ⟨.ok visited, ⟨stages, control, terminal, world⟩⟩ := by
  cases source with
  | nil => rfl
  | cons item rest => simp only [drainUntilStop, if_pos h]

/-! ### Replacing a line by one that behaves alike -/

def Passage.map (f : Line σ ρ → Line σ ρ) (p : Passage σ ρ) : Passage σ ρ :=
  { p with line := f p.line }

def Traversal.map (f : Line σ ρ → Line σ ρ) (t : Traversal σ ρ) : Traversal σ ρ :=
  { t with line := f t.line }

/-- If replacing a line and sending an element down it can change places, and the replacement
    stops when the line does, then the loop goes the same way in both. -/
theorem drainUntilStop_map (f : Line σ ρ → Line σ ρ)
    (hstop : ∀ line, (f line).control.stop = line.control.stop)
    (hdispatch : ∀ line item, (f line).dispatch item = (line.dispatch item).map f)
    (line : Line σ ρ) (visited : Nat) (source : List Value) :
    (f line).drainUntilStop visited source = (line.drainUntilStop visited source).map f := by
  induction source generalizing line visited with
  | nil => rfl
  | cons item rest ih =>
    simp only [drainUntilStop, hstop, hdispatch, Passage.map]
    split
    · rfl
    · cases (line.dispatch item).status with
      | error fault => rfl
      | ok _ => exact ih _ _

/-! ### A line in which nothing stops -/

/-- Nothing has asked to stop, and nothing can. -/
structure Quiet (line : Line σ ρ) : Prop where
  stop : line.control.stop = false
  canStop : line.canStop = false

theorem Quiet.dispatch {line : Line σ ρ} (h : line.Quiet) (item : Value) :
    (line.dispatch item).line.Quiet := by
  have hkept := dispatch_kept line item
  constructor
  · exact (hkept.control.stop_of_quiet h.canStop).trans h.stop
  · exact hkept.canStop_eq.trans h.canStop

/-- Looking for a stop that never comes finds nothing. -/
theorem drainUntilStop_of_quiet {line : Line σ ρ} (h : line.Quiet) (visited : Nat)
    (source : List Value) :
    line.drainUntilStop visited source =
      { visited := (line.drain source).status.map fun _ => visited + source.length
        line := (line.drain source).line } := by
  induction source generalizing line visited with
  | nil => rfl
  | cons item rest ih =>
    have hnext := h.dispatch item
    simp only [drainUntilStop, drain, h.stop, if_neg Bool.false_ne_true]
    cases (line.dispatch item).status with
    | error fault => rfl
    | ok _ =>
      rw [ih hnext, List.length_cons, Nat.add_assoc, Nat.add_comm 1]

/-- A line that is about to take in a source: no stop is asked for yet, and `mayStop` tells
    whether one may be. -/
structure Ready (line : Line σ ρ) : Prop where
  stop : line.control.stop = false
  mayStop : line.control.mayStop = line.canStop

/-- Whichever loop is chosen, the source is gone through as by the one that looks. -/
theorem traverse_eq {line : Line σ ρ} (h : line.Ready) (source : List Value) :
    line.traverse source = line.drainUntilStop 0 source := by
  simp only [traverse]
  cases hcan : line.canStop with
  | true => rw [if_pos (h.mayStop.trans hcan)]
  | false =>
    rw [h.mayStop, hcan, if_neg Bool.false_ne_true]
    rw [drainUntilStop_of_quiet ⟨h.stop, hcan⟩, Nat.zero_add]
    cases (line.drain source).status <;> rfl

end FusedQuery.Line
