/-
  FusedQuery/Proofs/Stage/Built.lean
  ==================================
  **A stage stays what it was built as.**

  Of a stage, a step and a reset change no more than the position that it has come to, the
  number that it has taken and what it has seen: its kind, its parameters and its callbacks stay
  (`BuiltAlike`).  Stages are built alike if and only if a reset makes them the same
  (`builtAlike_iff`), and what it makes of them is the one that has met nothing (`Fresh`).

  A step that fails changes nothing at all (`step_of_error`).  So a loop that goes on after it
  takes the steps that it would take if the element had never arrived (`drive_survivors`).
-/
import FusedQuery.Proofs.History.Forget
import FusedQuery.Proofs.Skip.Drops
import FusedQuery.Proofs.Stage.Drive

namespace FusedQuery

variable {σ : Type}

namespace Stage

/-! ### Stages that were built alike -/

/-- The stages are of one kind, with the same parameters and callbacks; they may differ in their
    position, in the number taken and in the elements seen. -/
inductive BuiltAlike : Stage σ → Stage σ → Prop
  | refl (stage : Stage σ) : BuiltAlike stage stage
  | zip (other : List Value) (pos pos' : UInt64) : BuiltAlike (.zip other pos) (.zip other pos')
  | slice (start bound pos pos' : UInt64) :
      BuiltAlike (.slice start bound pos) (.slice start bound pos')
  | take (limit taken taken' : UInt64) : BuiltAlike (.take limit taken) (.take limit taken')
  | get (index pos pos' : UInt64) : BuiltAlike (.get index pos) (.get index pos')
  | uniq (eq? : Option (Equality σ)) (seen seen' : Seen) :
      BuiltAlike (.uniq eq? seen) (.uniq eq? seen')

/-- The stage has met nothing. -/
def Fresh : Stage σ → Prop
  | .zip _ pos => pos = 0
  | .slice _ _ pos => pos = 0
  | .take _ taken => taken = 0
  | .get _ pos => pos = 0
  | .uniq _ seen => seen = {}
  | _ => True

theorem BuiltAlike.symm {stage other : Stage σ} (h : stage.BuiltAlike other) :
    other.BuiltAlike stage := by
  cases h with
  | refl => exact .refl _
  | zip => exact .zip _ _ _
  | slice => exact .slice _ _ _ _
  | take => exact .take _ _ _
  | get => exact .get _ _ _
  | uniq => exact .uniq _ _ _

theorem BuiltAlike.reset_eq {stage other : Stage σ} (h : stage.BuiltAlike other) :
    stage.reset = other.reset := by
  cases h <;> rfl

theorem builtAlike_reset (stage : Stage σ) : stage.BuiltAlike stage.reset := by
  cases stage with
  | zip other pos => exact .zip other pos 0
  | slice start bound pos => exact .slice start bound pos 0
  | take limit taken => exact .take limit taken 0
  | get index pos => exact .get index pos 0
  | uniq eq? seen => exact .uniq eq? seen {}
  | _ => exact .refl _

theorem BuiltAlike.trans {stage other last : Stage σ} (h : stage.BuiltAlike other)
    (hlast : other.BuiltAlike last) : stage.BuiltAlike last := by
  cases h with
  | refl => exact hlast
  | zip => cases hlast <;> exact .zip _ _ _
  | slice => cases hlast <;> exact .slice _ _ _ _
  | take => cases hlast <;> exact .take _ _ _
  | get => cases hlast <;> exact .get _ _ _
  | uniq => cases hlast <;> exact .uniq _ _ _

theorem builtAlike_iff {stage other : Stage σ} :
    stage.BuiltAlike other ↔ stage.reset = other.reset := by
  constructor
  · exact BuiltAlike.reset_eq
  · intro h
    have hreset := other.builtAlike_reset.symm
    rw [← h] at hreset
    exact stage.builtAlike_reset.trans hreset

theorem fresh_iff {stage : Stage σ} : stage.Fresh ↔ stage.reset = stage := by
  cases stage with
  | zip other pos => simp only [Fresh, reset, zip.injEq, true_and, eq_comm]
  | slice start bound pos => simp only [Fresh, reset, slice.injEq, true_and, eq_comm]
  | take limit taken => simp only [Fresh, reset, take.injEq, true_and, eq_comm]
  | get index pos => simp only [Fresh, reset, get.injEq, true_and, eq_comm]
  | uniq eq? seen => simp only [Fresh, reset, uniq.injEq, true_and, eq_comm]
  | _ => exact iff_of_true trivial rfl

/-! ### One step -/

theorem builtAlike_step (stage : Stage σ) (control : Control) (item : Value) (w : World σ) :
    stage.BuiltAlike (stage.step control item w).stage :=
  builtAlike_iff.mpr (stage.reset_step control item w).symm

/-- A step that fails leaves the stage and the control as they were. -/
theorem step_of_error {stage : Stage σ} {control : Control} {item : Value} {w : World σ}
    {fault : Fault} (h : (stage.step control item w).flow = .error fault) :
    (stage.step control item w).stage = stage ∧
      (stage.step control item w).control = control := by
  cases stage with
  | zip other pos => cases h
  | skip count =>
    simp only [step] at h
    split at h <;> cases h
  | slice start bound pos =>
    simp only [step] at h
    split at h <;> cases h
  | take limit taken =>
    simp only [step] at h
    split at h <;> cases h
  | get index pos =>
    simp only [step] at h
    split at h <;> cases h
  | first test? =>
    cases test? with
    | none => cases h
    | some test =>
      cases hresult : ((test item).run w).result with
      | error last => simp only [step, hresult, and_self]
      | ok passed =>
        simp only [step, hresult] at h
        cases passed <;> cases h
  | uniq eq? seen =>
    cases hkey : Key.ofValue? item with
    | some key =>
      simp only [step, hkey] at h
      split at h <;> cases h
    | none =>
      cases hresult : ((Seen.repeatsIn eq? item seen.refs).run w).result with
      | error last => simp only [step, hkey, hresult, and_self]
      | ok found =>
        simp only [step, hkey, hresult] at h
        cases found <;> cases h
  | halt => cases h
  | _ => exact ⟨rfl, rfl⟩

/-- What a step keeps, whatever the stage and the control it is taken with. -/
structure Step.Keeps (s : Step σ) (stage : Stage σ) (control : Control) : Prop
    extends Control.Frame stage.canStop control s.control where
  built : stage.BuiltAlike s.stage
  counted : s.control.skipped = control.skipped ∨
    (∃ count, stage = .skip count) ∧ s.flow = .ok .drop ∧
      s.control.skipped.toNat = control.skipped.toNat + 1
  failed {fault : Fault} : s.flow = .error fault → s.stage = stage ∧ s.control = control

theorem eq_skip_of_lt_skipCount {stage : Stage σ} {n : UInt64} (h : n < stage.skipCount) :
    ∃ count, stage = .skip count := by
  cases stage with
  | skip count => exact ⟨count, rfl⟩
  | _ => exact absurd h UInt64.not_lt_zero

theorem keeps_step (stage : Stage σ) (control : Control) (item : Value) (w : World σ) :
    (stage.step control item w).Keeps stage control where
  toFrame := stage.step_frame control item w
  built := stage.builtAlike_step control item w
  counted := by
    rcases stage.skipped_step_cases control item w with ⟨hlt, hdrop, hcount⟩ | ⟨-, hsame⟩
    · exact Or.inr ⟨eq_skip_of_lt_skipCount hlt, hdrop, hcount⟩
    · exact Or.inl hsame
  failed := step_of_error

/-! ### One step after another -/

/-- By induction on the arrivals. -/
theorem builtAlike_drive {driver : Driver} {stage : Stage σ} {control : Control}
    {arrivals : List (Arrival σ)} {s : Step σ} (h : s ∈ stage.drive driver control arrivals) :
    stage.BuiltAlike s.stage := by
  induction arrivals generalizing stage control with
  | nil => cases h
  | cons arrival rest ih =>
    have hstep := stage.builtAlike_step control arrival.item arrival.world
    cases hends : driver.heedsStop && control.stop with
    | true =>
      simp only [drive, hends, ↓reduceIte, List.not_mem_nil] at h
    | false =>
      rw [drive_cons driver hends] at h
      rcases List.mem_cons.mp h with rfl | hlater
      · exact hstep
      · split at hlater
        · cases hlater
        · exact hstep.trans (ih hlater)

/-- **What fails leaves no trace in what comes after it.**  By induction on the arrivals.  A
    failed step leaves the stage and the control of the induction as they were. -/
theorem drive_survivors {driver : Driver} (h : driver.endsAtFault = false) (stage : Stage σ)
    (control : Control) (arrivals : List (Arrival σ)) :
    (stage.drive driver control arrivals).filter (!·.failed) =
      stage.drive driver control (stage.survivors control arrivals) := by
  induction arrivals generalizing stage control with
  | nil => rfl
  | cons arrival rest ih =>
    cases hends : driver.heedsStop && control.stop with
    | true =>
      obtain ⟨hheeds, hstop⟩ := Bool.and_eq_true_iff.mp hends
      rw [drive_of_stop hheeds hstop, drive_of_stop hheeds hstop]
      rfl
    | false =>
      generalize hs : stage.step control arrival.item arrival.world = s
      cases hfailed : s.failed with
      | true =>
        obtain ⟨fault, hflow⟩ := Step.failed_iff.mp hfailed
        have hsame := step_of_error (hs ▸ hflow)
        have hrest := ih stage control
        rw [hs] at hsame
        simp only [drive_cons driver hends, survivors, hs, h, hfailed, Bool.false_and, Bool.not_true,
          Bool.false_eq_true, ↓reduceIte, List.filter_cons, List.nil_append, hsame, hrest]
      | false =>
        have hrest := ih s.stage s.control
        simp only [drive_cons driver hends, survivors, hs, h, hfailed, Bool.false_and, Bool.not_false,
          Bool.false_eq_true, ↓reduceIte, List.filter_cons, List.cons_append, List.nil_append,
          hrest]

end Stage

/-! ### What building makes -/

namespace Query

theorem fresh_of_forget {q : Query σ} (h : q.forget = q) : ∀ stage ∈ q.stages, stage.Fresh := by
  have hreset : q.stages.map Stage.reset = q.stages.map id :=
    (congrArg Query.stages h).trans (List.map_id _).symm
  intro stage hmem
  exact Stage.fresh_iff.mpr (List.map_inj_left.mp hreset stage hmem)

theorem forget_addAll_of_forget {q : Query σ} (h : q.forget = q) (operators : List (Operator σ)) :
    (q.addAll operators).forget = q.addAll operators := by
  induction operators generalizing q with
  | nil => exact h
  | cons operator rest ih =>
    apply ih
    rw [forget_add, h]

end Query

namespace Stage

/-- **Steps and resets leave a stage what it was built as, and a failed step leaves all as it
    was.**

    A step, with any control and in any world, keeps whether to look for a stop, takes no stop
    back, asks for one only if the stage can stop, and counts one skip at most, as a skip that
    drops its element (`Step.Keeps`).

    After failures a loop goes on as if it had been given the other arrivals alone.  What a
    failed callback has done to the world is not taken back: the later arrivals bring it along.

    A reset makes of a stage the one that was built alike and has met nothing, as all stages of
    a query that has never been run have; and so it does of a stage in the middle of a drive. -/
theorem steps_keep_build :
    (∀ (stage : Stage σ) control item w, (stage.step control item w).Keeps stage control) ∧
    (∀ (driver : Driver) (stage : Stage σ) control arrivals, driver.endsAtFault = false →
      (stage.drive driver control arrivals).filter (!·.failed) =
        stage.drive driver control (stage.survivors control arrivals)) ∧
    (∀ stage : Stage σ, stage.BuiltAlike stage.reset ∧ stage.reset.reset = stage.reset ∧
      stage.reset.Fresh ∧ ∀ built, stage.BuiltAlike built → built.Fresh → stage.reset = built) ∧
    (∀ built : Stage σ, built.Fresh → ∀ driver control arrivals,
      ∀ s ∈ built.drive driver control arrivals, s.stage.reset = built) ∧
    ∀ source settings (operators : List (Operator σ)),
      ∀ stage ∈ ((Query.ofSource source settings).addAll operators).stages, stage.Fresh := by
  have hreset : ∀ stage built : Stage σ, stage.BuiltAlike built → built.Fresh →
      stage.reset = built := by
    intro stage built halike hfresh
    rw [halike.reset_eq]
    exact fresh_iff.mp hfresh
  refine ⟨keeps_step, ?_, ?_, ?_, ?_⟩
  · intro driver stage control arrivals hgoes
    exact drive_survivors hgoes stage control arrivals
  · intro stage
    exact ⟨stage.builtAlike_reset, stage.reset_reset, fresh_iff.mpr stage.reset_reset,
      hreset stage⟩
  · intro built hfresh driver control arrivals s hs
    exact hreset s.stage built (builtAlike_drive hs).symm hfresh
  · intro source settings operators
    exact Query.fresh_of_forget (Query.forget_addAll_of_forget rfl operators)

/-- An equality that fails for one of three lists, when it is asked about the list before it. -/
theorem steps_keep_build_fussy :
    let fussy : Equality Unit := fun _ item =>
      if item.same (.list 2 []) then .fail (.callback "two") else pure false
    let w : World Unit := ⟨4, ()⟩
    let built : Stage Unit := .uniq (some fussy) {}
    let used : Stage Unit := .uniq (some fussy) { refs := [.list 1 []] }
    let driver : Driver := { heedsStop := true, endsAtFault := false }
    let failing := used.step {} (.list 2 []) w
    let arrivals : List (Arrival Unit) := [⟨.list 1 [], w⟩, ⟨.list 2 [], w⟩, ⟨.list 3 [], w⟩]
    let others : List (Arrival Unit) := [⟨.list 1 [], w⟩, ⟨.list 3 [], w⟩]
    failing.flow = .error (.callback "two") ∧ (failing.stage = used ∧ failing.control = {}) ∧
      driver.endsAtFault = false ∧ built.survivors {} arrivals = others ∧
      (built.drive driver {} arrivals).filter (!·.failed) = built.drive driver {} others ∧
      used.BuiltAlike built ∧ built.Fresh ∧ used.reset = built ∧
      (built.step {} (.list 1 []) w).stage.reset = built ∧
      ((Query.ofSource [] {}).addAll [.uniqBy fussy]).stages = [built] := by
  intro fussy w built used driver failing arrivals others
  obtain ⟨hkeeps, hsurvivors, hreset, hdriven, hbuilt⟩ := steps_keep_build (σ := Unit)
  have hflow : failing.flow = .error (.callback "two") := rfl
  have hgoes : driver.endsAtFault = false := rfl
  have hothers : built.survivors {} arrivals = others := rfl
  have halike : used.BuiltAlike built := .uniq (some fussy) _ _
  have hstages : ((Query.ofSource [] {}).addAll [.uniqBy fussy]).stages = [built] := rfl
  have hfresh : built.Fresh := by
    apply hbuilt [] {} [.uniqBy fussy]
    rw [hstages]
    exact List.mem_singleton_self built
  have hdrive := hsurvivors driver built {} arrivals hgoes
  rw [hothers] at hdrive
  have hagain := hdriven built hfresh driver {} arrivals _ List.mem_cons_self
  exact ⟨hflow, (hkeeps used {} (.list 2 []) w).failed hflow, hgoes, hothers, hdrive, halike,
    hfresh, (hreset used).2.2.2 built halike hfresh, hagain, hstages⟩

end Stage

end FusedQuery
