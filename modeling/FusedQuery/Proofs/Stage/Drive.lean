/-
  FusedQuery/Proofs/Stage/Drive.lean
  ==================================
  **A loop around one stage.**

  A `Driver` gives a stage its arrivals in turn and keeps the control between them.  Whether it
  looks for a stop, and whether it goes on after a step that failed, is up to the driver.  What
  the world does between two steps is not: each arrival brings the world that it comes in.

  What a drive comes to is the list of its steps (`Stage.drive`), and of these what was handed
  on (`Stage.handedOn`).  An arrival whose step fails is no `survivor`.
-/
import FusedQuery.Proofs.Line.Arrivals

namespace FusedQuery

variable {σ : Type}

/-- What ends a loop around a stage before the last arrival. -/
structure Driver where
  heedsStop : Bool       -- a stop that something asked for
  endsAtFault : Bool     -- a step that failed

namespace Driver

def heeding (endsAtFault : Bool) : Driver := { heedsStop := true, endsAtFault }

def ignoring (endsAtFault : Bool) : Driver := { heedsStop := false, endsAtFault }

end Driver

namespace Stage

def Step.failed (s : Step σ) : Bool :=
  match s.flow with
  | .error _ => true
  | .ok _ => false

/-- The steps that a driver takes with a stage, one for each arrival that it comes to. -/
def drive (driver : Driver) (stage : Stage σ) (control : Control) :
    List (Arrival σ) → List (Step σ)
  | [] => []
  | arrival :: rest =>
    if driver.heedsStop && control.stop then []
    else
      let s := stage.step control arrival.item arrival.world
      s :: if driver.endsAtFault && s.failed then [] else s.stage.drive driver s.control rest

def handedOn (steps : List (Step σ)) : List Value := steps.flatMap Step.out

/-- The arrivals whose steps do not fail, where the loop goes on after one that does. -/
def survivors (stage : Stage σ) (control : Control) : List (Arrival σ) → List (Arrival σ)
  | [] => []
  | arrival :: rest =>
    let s := stage.step control arrival.item arrival.world
    (if s.failed then [] else [arrival]) ++ s.stage.survivors s.control rest

theorem Step.failed_iff {s : Step σ} : s.failed = true ↔ ∃ fault, s.flow = .error fault := by
  unfold failed
  rcases s.flow with fault | flow
  · exact iff_of_true rfl ⟨fault, rfl⟩
  · exact iff_of_false nofun nofun

theorem Step.out_of_drop {s : Step σ} (h : s.flow = .ok .drop) : s.out = [] := by
  simp only [out, h]

theorem Step.out_eq_nil_iff {s : Step σ} :
    s.out = [] ↔ ∀ next, s.flow ≠ .ok (.forward next) := by
  unfold out
  rcases s.flow with fault | flow
  · exact iff_of_true rfl nofun
  · cases flow with
    | drop => exact iff_of_true rfl nofun
    | forward next => exact iff_of_false nofun fun h => h next rfl

@[simp]
theorem handedOn_nil : handedOn ([] : List (Step σ)) = [] := rfl

@[simp]
theorem handedOn_cons (s : Step σ) (steps : List (Step σ)) :
    handedOn (s :: steps) = s.out ++ handedOn steps := List.flatMap_cons

theorem drive_of_stop {driver : Driver} {control : Control} (hheeds : driver.heedsStop = true)
    (hstop : control.stop = true) (stage : Stage σ) (arrivals : List (Arrival σ)) :
    stage.drive driver control arrivals = [] := by
  cases arrivals with
  | nil => rfl
  | cons arrival rest => simp only [drive, hheeds, hstop, Bool.and_self, ↓reduceIte]

/-- A step that the driver takes, and what it takes after that. -/
theorem drive_cons (driver : Driver) {control : Control}
    (h : (driver.heedsStop && control.stop) = false) (stage : Stage σ) (arrival : Arrival σ)
    (rest : List (Arrival σ)) :
    stage.drive driver control (arrival :: rest) =
      let s := stage.step control arrival.item arrival.world
      s :: if driver.endsAtFault && s.failed then [] else s.stage.drive driver s.control rest := by
  simp only [drive, h, Bool.false_eq_true, ↓reduceIte]

theorem drive_heeding_cons (endsAtFault : Bool) {control : Control} (h : control.stop = false)
    (stage : Stage σ) (arrival : Arrival σ) (rest : List (Arrival σ)) :
    stage.drive (.heeding endsAtFault) control (arrival :: rest) =
      let s := stage.step control arrival.item arrival.world
      s :: if endsAtFault && s.failed then []
        else s.stage.drive (.heeding endsAtFault) s.control rest :=
  drive_cons (.heeding endsAtFault) h stage arrival rest

theorem drive_ignoring_cons (endsAtFault : Bool) (control : Control) (stage : Stage σ)
    (arrival : Arrival σ) (rest : List (Arrival σ)) :
    stage.drive (.ignoring endsAtFault) control (arrival :: rest) =
      let s := stage.step control arrival.item arrival.world
      s :: if endsAtFault && s.failed then []
        else s.stage.drive (.ignoring endsAtFault) s.control rest :=
  drive_cons (.ignoring endsAtFault) rfl stage arrival rest

end Stage

end FusedQuery
