/-
  FusedQuery/Proofs/Meaning/Sweep.lean
  ====================================
  **Element by element is stage by stage.**

  A run takes one element at a time through all stages.  Here a stage takes a whole list at a
  time, on its own (`Stage.sweep`), and hands what it makes of it to the next (`sweepAll`).
  If no act can fail or touch the world, the two come to the same (`emit_eq_sweepAll`).

  Two things are shared by the stages of a run, and have to be accounted for:

    * the stop.  A stage that asks for it ends its own sweep; the stages before it would have
      gone on, but what they would still have made does not get past it;
    * the number of skips.  A stage is reached only when the skips before it are done, so its
      sweep starts from the largest of their counts (`Stage.skipCount`), and after that it does
      not matter how far the later ones have counted (`sweep_of_le`).
-/
import FusedQuery.Proofs.Stage.Acts
import FusedQuery.Proofs.Stream.Basic

namespace FusedQuery

variable {σ : Type}

/-! ### Acts that always succeed -/

/-- The act has an answer and does nothing else. -/
def Act.Sure {α : Type} (act : Act σ α) : Prop := ∃ a, act = pure a

theorem Act.closed_sure : Act.Closed (@Act.Sure σ) where
  pure := fun a => ⟨a, rfl⟩
  bind := by
    intro α β act next hact hnext
    obtain ⟨a, rfl⟩ := hact
    obtain ⟨b, hb⟩ := hnext a
    exact ⟨b, by rw [pure_bind, hb]⟩

namespace Stage

abbrev Sure (stage : Stage σ) : Prop := stage.Acts Act.Sure

theorem step_sure {stage : Stage σ} (h : stage.Sure) (control : Control) (item : Value)
    (w : World σ) :
    (∃ flow, (stage.step control item w).flow = .ok flow) ∧
      (stage.step control item w).world = w := by
  obtain ⟨act, hact, after, hstep⟩ := takesOne_step Act.closed_sure h control item
  obtain ⟨flow, rfl⟩ := hact
  rw [hstep]
  exact ⟨⟨flow, rfl⟩, rfl⟩

/-! ### Skips -/

/-- How many skips there have to be before the stage hands anything on. -/
def skipCount : Stage σ → UInt64
  | .skip count => count
  | _ => 0

@[simp]
theorem skipCount_reset (stage : Stage σ) : stage.reset.skipCount = stage.skipCount := by
  cases stage <;> rfl

@[simp]
theorem skipCount_step (stage : Stage σ) (control : Control) (item : Value) (w : World σ) :
    (stage.step control item w).stage.skipCount = stage.skipCount := by
  rw [← skipCount_reset, reset_step, skipCount_reset]

/-- While skips are missing, a stage drops its element and counts one more. -/
theorem step_of_lt {stage : Stage σ} {k : UInt64} (h : k < stage.skipCount) (item : Value)
    (w : World σ) :
    stage.step { skipped := k } item w =
      ⟨.ok .drop, stage, Control.countSkip { skipped := k }, w⟩ := by
  cases stage with
  | skip count => exact if_pos h
  | _ => exact absurd h (UInt64.not_lt_zero)

def Step.skipping (s : Step σ) (k : UInt64) : Step σ :=
  { s with control := { s.control with skipped := k } }

/-- When enough elements have been skipped, a stage leaves their number alone, and it makes no
    difference how many they are. -/
theorem step_of_le {stage : Stage σ} {k : UInt64} (h : stage.skipCount ≤ k) (item : Value)
    (w : World σ) :
    stage.step { skipped := k } item w =
      (stage.step { skipped := stage.skipCount } item w).skipping k := by
  cases stage with
  | skip count =>
    have hk : ¬ k < count := UInt64.not_lt.mpr h
    have hcount : ¬ count < count := UInt64.lt_irrefl count
    have hmany : (Stage.skip count).step { skipped := k } item w =
        ⟨.ok (.forward item), .skip count, { skipped := k }, w⟩ := if_neg hk
    have henough : (Stage.skip count).step { skipped := count } item w =
        ⟨.ok (.forward item), .skip count, { skipped := count }, w⟩ := if_neg hcount
    simp only [skipCount, hmany, henough]
    rfl
  | slice start bound pos =>
    simp only [step]
    split
    · rfl
    · split <;> rfl
  | first test? =>
    cases test? with
    | none => rfl
    | some test => simp only [step]; split <;> rfl
  | take limit taken =>
    simp only [step]
    split
    · rfl
    · split <;> rfl
  | get index pos => simp only [step]; split <;> rfl
  | uniq eq? seen =>
    simp only [step]
    split
    · split <;> rfl
    · split <;> rfl
  | _ => rfl

theorem skipped_step {stage : Stage σ} {k : UInt64} (h : stage.skipCount ≤ k) (item : Value)
    (w : World σ) : (stage.step { skipped := k } item w).control.skipped = k := by
  rw [step_of_le h]
  rfl

/-- The number of skips from which on the stage, given `k` of them, hands elements on. -/
def skipTo (stage : Stage σ) (k : UInt64) : UInt64 :=
  if k < stage.skipCount then stage.skipCount else k

theorem skipTo_of_le {stage : Stage σ} {k : UInt64} (h : stage.skipCount ≤ k) :
    stage.skipTo k = k :=
  if_neg (UInt64.not_lt.mpr h)

/-- A step brings the stage nearer to that number and not beyond. -/
theorem skipTo_step (stage : Stage σ) (k : UInt64) (item : Value) (w : World σ) :
    (stage.step { skipped := k } item w).stage.skipTo
        (stage.step { skipped := k } item w).control.skipped = stage.skipTo k := by
  by_cases hlt : k < stage.skipCount
  · have hcount := @Control.toNat_countSkip { skipped := k } stage.skipCount hlt
    have hnat := UInt64.lt_iff_toNat_lt.mp hlt
    rw [step_of_lt hlt]
    simp only [skipTo, if_pos hlt]
    split
    · rfl
    · next hnot =>
      have hle := UInt64.le_iff_toNat_le.mp (UInt64.not_lt.mp hnot)
      apply UInt64.toNat_inj.mp
      simp only at hcount
      omega
  · have hle := UInt64.not_lt.mp hlt
    have hstage := stage.skipCount_step { skipped := k } item w
    rw [skipped_step hle, skipTo, hstage]
    rfl

/-- A stage that hands an element on has had all its skips. -/
theorem skipCount_le_of_forward {stage : Stage σ} {k : UInt64} {item next : Value}
    {w : World σ} (h : (stage.step { skipped := k } item w).flow = .ok (.forward next)) :
    stage.skipCount ≤ k := by
  apply UInt64.not_lt.mp
  intro hlt
  rw [step_of_lt hlt] at h
  cases h

/-- It has them done after the step as well. -/
theorem skipCount_step_le_of_forward {stage : Stage σ} {k : UInt64} {item next : Value}
    {w : World σ} (h : (stage.step { skipped := k } item w).flow = .ok (.forward next)) :
    (stage.step { skipped := k } item w).stage.skipCount ≤
      (stage.step { skipped := k } item w).control.skipped := by
  have hle := skipCount_le_of_forward h
  rw [skipCount_step, skipped_step hle]
  exact hle

theorem Step.stop_onto (s : Step σ) (c : Control) :
    (s.onto c).control.stop = (c.stop || s.control.stop) := by
  simp only [Step.onto]
  cases s.control.stop with
  | false => simp
  | true => simp [Control.halt]

/-! ### One stage at a time -/

/-- What becomes of the element, as a list of at most one. -/
def Step.out (s : Step σ) : List Value :=
  match s.flow with
  | .ok (.forward item) => [item]
  | _ => []

/-- What the stage makes of a list on its own, with `k` skips before it. -/
def sweep (w : World σ) (stage : Stage σ) (k : UInt64) : List Value → List Value
  | [] => []
  | item :: rest =>
    let s := stage.step { skipped := k } item w
    s.out ++ if s.control.stop then [] else sweep w s.stage s.control.skipped rest

/-- How many skips there were makes no difference if they were enough. -/
theorem sweep_of_le (w : World σ) {stage : Stage σ} {k l : UInt64} (hk : stage.skipCount ≤ k)
    (hl : stage.skipCount ≤ l) (xs : List Value) : sweep w stage k xs = sweep w stage l xs := by
  induction xs generalizing stage with
  | nil => rfl
  | cons x xs ih =>
    have hrest : sweep w (stage.step { skipped := stage.skipCount } x w).stage k xs =
        sweep w (stage.step { skipped := stage.skipCount } x w).stage l xs := by
      apply ih
      · rw [skipCount_step]; exact hk
      · rw [skipCount_step]; exact hl
    simp only [sweep, step_of_le hk, step_of_le hl, Step.skipping, Step.out, hrest]

/-- What the stage makes of the elements after the one of this step. -/
def Step.afterwards (s : Step σ) (w : World σ) (rest : List Value) : List Value :=
  if s.control.stop then [] else sweep w s.stage s.control.skipped rest

theorem sweep_cons (w : World σ) (stage : Stage σ) (k : UInt64) (item : Value)
    (rest : List Value) :
    sweep w stage k (item :: rest) =
      (stage.step { skipped := k } item w).out ++
        (stage.step { skipped := k } item w).afterwards w rest := rfl

/-- Nothing comes after an element that is the last, be it for this stage's own stop or because
    the stop came before. -/
theorem Step.afterwards_of_stop {s : Step σ} {c : Control} (w : World σ) {rest : List Value}
    (h : (s.onto c).control.stop = true) (hlast : c.stop = true → rest = []) :
    s.afterwards w rest = [] := by
  rw [stop_onto] at h
  cases hs : s.control.stop with
  | true => simp only [afterwards, hs, ↓reduceIte]
  | false =>
    have hc : c.stop = true := by simpa [hs] using h
    simp only [afterwards, hs, Bool.false_eq_true, ↓reduceIte, hlast hc, sweep]

theorem Step.afterwards_of_goes {s : Step σ} {c : Control} (w : World σ) (rest : List Value)
    (h : (s.onto c).control.stop = false) :
    s.afterwards w rest = sweep w s.stage s.control.skipped rest := by
  rw [stop_onto] at h
  have hs : s.control.stop = false := (Bool.or_eq_false_iff.mp h).2
  simp only [afterwards, hs, Bool.false_eq_true, ↓reduceIte]

end Stage

/-- What stages make of a list, each of all that the one before it made. -/
def sweepAll (w : World σ) : UInt64 → List (Stage σ) → List Value → List Value
  | _, [], xs => xs
  | k, stage :: rest, xs => sweepAll w (stage.skipTo k) rest (stage.sweep w k xs)

theorem sweepAll_nil (w : World σ) (k : UInt64) (stages : List (Stage σ)) :
    sweepAll w k stages [] = [] := by
  induction stages generalizing k with
  | nil => rfl
  | cons stage rest ih => exact ih _

namespace Line

theorem transit_sure {stages : List (Stage σ)} (h : ∀ stage ∈ stages, stage.Sure)
    (control : Control) (item : Value) (w : World σ) :
    (∃ flow, (transit control item w stages).flow = .ok flow) ∧
      (transit control item w stages).world = w := by
  induction stages generalizing control item with
  | nil => exact ⟨⟨.forward item, rfl⟩, rfl⟩
  | cons stage rest ih =>
    obtain ⟨hstage, hrest⟩ := List.forall_mem_cons.mp h
    obtain ⟨⟨flow, hflow⟩, hworld⟩ := Stage.step_sure hstage control item w
    simp only [transit, hflow, hworld]
    cases flow with
    | drop => exact ⟨⟨.drop, rfl⟩, rfl⟩
    | forward next => exact ih hrest _ next

/-- An element that the first stage drops.  Its skips may go on, so the stage is left nearer to
    handing elements on, and no stage behind it has seen the element. -/
theorem sweepAll_of_drop {stage : Stage σ} {control : Control} {item : Value} {w : World σ}
    (hflow : (stage.step control item w).flow = .ok .drop) (behind : List (Stage σ))
    (rest : List Value) (hlast : control.stop = true → rest = []) :
    sweepAll w control.skipped (stage :: behind) (item :: rest) =
      if (stage.step control item w).control.stop then []
      else sweepAll w (stage.step control item w).control.skipped
        ((stage.step control item w).stage :: behind) rest := by
  have htotal := stage.skipTo_step control.skipped item w
  rw [stage.step_onto control] at hflow ⊢
  rw [sweepAll, Stage.sweep_cons]
  generalize stage.step { skipped := control.skipped } item w = s at hflow htotal
  have hout : s.out = [] := by
    have hdrop : s.flow = .ok .drop := hflow
    simp only [Stage.Step.out, hdrop]
  rw [hout, List.nil_append]
  cases hc : (s.onto control).control.stop with
  | true =>
    rw [Stage.Step.afterwards_of_stop w hc hlast, sweepAll_nil]
    rfl
  | false =>
    rw [Stage.Step.afterwards_of_goes w rest hc, ← htotal]
    rfl

/-- An element that the first stage hands on.  The stage has had all its skips, so that their
    number stays what it was. -/
theorem sweepAll_of_forward {stage : Stage σ} {control : Control} {item next : Value}
    {w : World σ} (hflow : (stage.step control item w).flow = .ok (.forward next))
    (behind : List (Stage σ)) (rest : List Value) :
    sweepAll w control.skipped (stage :: behind) (item :: rest) =
      sweepAll w (stage.step control item w).control.skipped behind
        (next :: (stage.step { skipped := control.skipped } item w).afterwards w rest) := by
  rw [stage.step_onto control] at hflow ⊢
  have hforward : (stage.step { skipped := control.skipped } item w).flow =
      .ok (.forward next) := hflow
  have hle := Stage.skipCount_le_of_forward hforward
  have hsame : ((stage.step { skipped := control.skipped } item w).onto control).control.skipped =
      control.skipped := Stage.skipped_step hle item w
  have hout : (stage.step { skipped := control.skipped } item w).out = [next] := by
    simp only [Stage.Step.out, hforward]
  rw [sweepAll, Stage.sweep_cons, Stage.skipTo_of_le hle, hsame, hout]
  rfl

/-- What the first stage makes of the rest may be taken from any number of skips that is no
    less than the one it left. -/
theorem sweepAll_afterwards {s : Stage.Step σ} {c : Control} {k : UInt64} (w : World σ)
    (hgoes : (s.onto c).control.stop = false) (hdone : s.stage.skipCount ≤ s.control.skipped)
    (hle : s.control.skipped ≤ k) (behind : List (Stage σ)) (rest : List Value) :
    sweepAll w k behind (s.afterwards w rest) = sweepAll w k (s.stage :: behind) rest := by
  have hk : s.stage.skipCount ≤ k := UInt64.le_trans hdone hle
  rw [sweepAll, Stage.Step.afterwards_of_goes w rest hgoes, Stage.sweep_of_le w hdone hk,
    Stage.skipTo_of_le hk]

/-- **One element through all stages, and then the rest stage by stage.**  By induction on the
    stages.  If a stage asks to stop, the element is the last that the stages behind it see; if
    the stop came before this element, it must be the last of the source. -/
theorem sweepAll_cons {stages : List (Stage σ)} (h : ∀ stage ∈ stages, stage.Sure)
    (control : Control) (item : Value) (rest : List Value) (w : World σ)
    (hlast : control.stop = true → rest = []) :
    sweepAll w control.skipped stages (item :: rest) =
      (transit control item w stages).out ++
        if (transit control item w stages).control.stop then []
        else sweepAll w (transit control item w stages).control.skipped
          (transit control item w stages).stages rest := by
  induction stages generalizing control item rest with
  | nil =>
    cases hcontrol : control.stop with
    | false => simp [sweepAll, transit, Transit.out, hcontrol]
    | true =>
      rw [hlast hcontrol]
      simp [sweepAll, transit, Transit.out, hcontrol]
  | cons stage behind ih =>
    obtain ⟨hstage, hbehind⟩ := List.forall_mem_cons.mp h
    obtain ⟨⟨flow, hflow⟩, hworld⟩ := Stage.step_sure hstage control item w
    cases flow with
    | drop =>
      rw [sweepAll_of_drop hflow behind rest hlast]
      simp only [transit, hflow, Transit.out, List.nil_append]
    | forward next =>
      rw [sweepAll_of_forward hflow behind rest]
      simp only [transit, hflow, hworld]
      have honto := stage.step_onto control item w
      rw [honto] at hflow
      have hdone := Stage.skipCount_step_le_of_forward (k := control.skipped) hflow
      generalize stage.step { skipped := control.skipped } item w = s at honto hdone
      rw [honto]
      have hend : (s.onto control).control.stop = true → s.afterwards w rest = [] :=
        fun hstop => Stage.Step.afterwards_of_stop w hstop hlast
      rw [ih hbehind _ next _ hend]
      have hframe := transit_frame (s.onto control).control next w behind
      generalize transit (s.onto control).control next w behind = t at hframe
      show t.out ++ _ = t.out ++ _
      cases ht : t.control.stop with
      | true => rfl
      | false =>
        have hgoes : (s.onto control).control.stop = false := by
          cases hc : (s.onto control).control.stop with
          | true => exact absurd (hframe.stop_of_stop hc) (by simp [ht])
          | false => rfl
        have hle : s.control.skipped ≤ t.control.skipped :=
          UInt64.le_iff_toNat_le.mpr hframe.skipped
        rw [if_neg Bool.false_ne_true, if_neg Bool.false_ne_true,
          sweepAll_afterwards w hgoes hdone hle]
        rfl

/-- **Sure stages emit what they make of the source stage by stage,** and no fault ends it. -/
theorem emit_eq_sweepAll {stages : List (Stage σ)} (h : ∀ stage ∈ stages, stage.Sure)
    {control : Control} (hcontrol : control.stop = false) (w : World σ) (source : List Value) :
    emit stages control w source =
      { items := sweepAll w control.skipped stages source, fault? := none } := by
  induction source generalizing stages control with
  | nil => rw [sweepAll_nil]; rfl
  | cons item rest ih =>
    have hcons := sweepAll_cons h control item rest w fun hstop => by simp [hcontrol] at hstop
    obtain ⟨⟨flow, hflow⟩, hworld⟩ := transit_sure h control item w
    have hafter := acts_transit h control item w
    rw [hcons]
    simp only [emit, hcontrol, Bool.false_eq_true, ↓reduceIte, hflow, hworld]
    cases hstop : (transit control item w stages).control.stop with
    | true => rw [emit_of_stop hstop]; simp [Stream.after]
    | false => rw [ih hafter hstop]; simp [Stream.after]

end Line

end FusedQuery
