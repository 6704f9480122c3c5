/-
  FusedQuery/Proofs/Stage/Independent.lean
  ========================================
  **Acts that see one part of the world and leave another alone.**

  A part of the world is given by a relation: two worlds are related if they agree on it.  An
  act that sees `S` alone does the same in worlds that agree on `S`, and an act that keeps `T`
  cannot be told from doing nothing by looking at `T` (`Act.Sees`).  Stages that see `S` and
  keep `T`, and a terminal that sees `T` and keeps `S`, do not disturb each other.  Two such
  pairs of parts are of use:

    * the supply and the callbacks' state.  A *plain* act has nothing to do with the state: it
      is a function of its arguments which may fail and may make new values.  A *local* act has
      nothing to do with the supply: it works on the callbacks' state and makes nothing;
    * nothing and everything.  A *still* act neither sees nor changes the world: it is a
      function of its arguments which may fail.  Any act at all sees and may change everything.

  What acts see and keep, steps see and keep (`step_agree`), and so do elements on their way
  through stages (`transit_agree`).
-/
import FusedQuery.Proofs.Stage.Acts
import FusedQuery.Proofs.Line.Transit

namespace FusedQuery

variable {σ ρ α : Type}

/-! ### Parts of the world -/

namespace World

/-- The worlds agree on the supply. -/
def SameSupply (u w : World σ) : Prop := u.supply = w.supply

/-- The worlds agree on the callbacks' state. -/
def SameState (u w : World σ) : Prop := u.state = w.state

/-- Any two worlds agree on nothing. -/
def Any (_ _ : World σ) : Prop := True

end World

variable {S T : World σ → World σ → Prop}

namespace Act

structure Sees (S T : World σ → World σ → Prop) {α : Type} (act : Act σ α) : Prop where
  result {u w : World σ} : S u w → (act.run u).result = (act.run w).result
  seen {u w : World σ} : S u w → S (act.run u).world (act.run w).world
  kept {v w : World σ} : T v w → T v (act.run w).world

theorem sees_ofExcept (result : Except Fault α) : (ofExcept result : Act σ α).Sees S T where
  result := fun _ => rfl
  seen := id
  kept := id

theorem closed_sees : Closed (Sees S T) where
  pure := fun a => sees_ofExcept (.ok a)
  bind := by
    intro α β act next hact hnext
    constructor
    case result =>
      intro u w h
      have hworld := hact.seen h
      rw [run_bind, run_bind, hact.result h]
      cases (act.run w).result with
      | error fault => rfl
      | ok a => exact (hnext a).result hworld
    case seen =>
      intro u w h
      have hworld := hact.seen h
      rw [run_bind, run_bind, hact.result h]
      cases (act.run w).result with
      | error fault => exact hworld
      | ok a => exact (hnext a).seen hworld
    case kept =>
      intro v w h
      have hworld := hact.kept h
      rw [run_bind]
      cases (act.run w).result with
      | error fault => exact hworld
      | ok a => exact (hnext a).kept hworld

/-- The act may make new values, and has nothing to do with the callbacks' state. -/
abbrev Plain {α : Type} (act : Act σ α) : Prop := act.Sees World.SameSupply World.SameState

/-- The act works on the callbacks' state and makes nothing. -/
abbrev Local {α : Type} (act : Act σ α) : Prop := act.Sees World.SameState World.SameSupply

/-- The act neither sees nor changes the world. -/
abbrev Still {α : Type} (act : Act σ α) : Prop := act.Sees World.Any Eq

theorem plain_newList (items : List Value) : (newList items : Act σ Value).Plain where
  result := fun h => congrArg (fun supply => Except.ok (Value.list supply items)) h
  seen := fun h => congrArg (· + 1) h
  kept := id

theorem sees_all (act : Act σ α) : act.Sees Eq World.Any where
  result := fun h => h ▸ rfl
  seen := fun h => h ▸ rfl
  kept := id

end Act

/-! ### Stages -/

namespace Stage

abbrev Sees (S T : World σ → World σ → Prop) (stage : Stage σ) : Prop := stage.Acts (Act.Sees S T)

/-- Pairing elements makes new values and does nothing else. -/
theorem plain_zip (other : List Value) (pos : UInt64) :
    (Stage.zip other pos : Stage σ).Acts Act.Plain := Act.plain_newList

theorem sees_all (stage : Stage σ) : stage.Sees Eq World.Any := stage.acts_of_forall Act.sees_all

/-- Two steps are the same but for what cannot be seen of the world. -/
structure Step.Agree (S : World σ → World σ → Prop) (s s' : Step σ) : Prop where
  flow : s.flow = s'.flow
  stage : s.stage = s'.stage
  control : s.control = s'.control
  world : S s.world s'.world

theorem step_agree {stage : Stage σ} (h : stage.Sees S T) (control : Control) (item : Value)
    {u w : World σ} (hworld : S u w) :
    (stage.step control item u).Agree S (stage.step control item w) := by
  obtain ⟨act, hact, after, hstep⟩ := takesOne_step Act.closed_sees h control item
  have hresult := hact.result hworld
  rw [hstep, hstep]
  refine ⟨hresult, ?_, ?_, hact.seen hworld⟩
  · simp only [Step.taking, hresult]
  · simp only [Step.taking, hresult]

theorem step_keeps {stage : Stage σ} (h : stage.Sees S T) (control : Control) (item : Value)
    {v w : World σ} (hworld : T v w) : T v (stage.step control item w).world := by
  obtain ⟨act, hact, after, hstep⟩ := takesOne_step Act.closed_sees h control item
  rw [hstep]
  exact hact.kept hworld

end Stage

namespace Line

/-- Two transits are the same but for what cannot be seen of the world. -/
structure Transit.Agree (S : World σ → World σ → Prop) (t t' : Transit σ) : Prop where
  flow : t.flow = t'.flow
  stages : t.stages = t'.stages
  control : t.control = t'.control
  world : S t.world t'.world

theorem transit_agree {stages : List (Stage σ)} (h : ∀ stage ∈ stages, stage.Sees S T)
    (control : Control) (item : Value) {u w : World σ} (hworld : S u w) :
    (transit control item u stages).Agree S (transit control item w stages) := by
  induction stages generalizing control item u w with
  | nil => exact ⟨rfl, rfl, rfl, hworld⟩
  | cons stage rest ih =>
    obtain ⟨hstage, hrest⟩ := List.forall_mem_cons.mp h
    obtain ⟨hflow, hafter, hcontrol, hseen⟩ := Stage.step_agree hstage control item hworld
    simp only [transit, hflow, hafter, hcontrol]
    cases (stage.step control item w).flow with
    | error fault => exact ⟨rfl, rfl, rfl, hseen⟩
    | ok flow =>
      cases flow with
      | drop => exact ⟨rfl, rfl, rfl, hseen⟩
      | forward next =>
        obtain ⟨hflow, hstages, hcontrol, hseen⟩ :=
          ih hrest (stage.step control item w).control next hseen
        exact ⟨hflow, congrArg (List.cons _) hstages, hcontrol, hseen⟩

theorem transit_keeps {stages : List (Stage σ)} (h : ∀ stage ∈ stages, stage.Sees S T)
    (control : Control) (item : Value) {v w : World σ} (hworld : T v w) :
    T v (transit control item w stages).world := by
  induction stages generalizing control item w with
  | nil => exact hworld
  | cons stage rest ih =>
    obtain ⟨hstage, hrest⟩ := List.forall_mem_cons.mp h
    have hkept := Stage.step_keeps hstage control item hworld
    simp only [transit]
    cases (stage.step control item w).flow with
    | error fault => exact hkept
    | ok flow =>
      cases flow with
      | drop => exact hkept
      | forward next => exact ih hrest _ next hkept

theorem acts_transit {P : {α : Type} → Act σ α → Prop} {stages : List (Stage σ)}
    (h : ∀ stage ∈ stages, stage.Acts P) (control : Control) (item : Value) (w : World σ) :
    ∀ stage ∈ (transit control item w stages).stages, stage.Acts P := by
  intro stage hmem
  have hreset : stage.reset ∈ _ := List.mem_map_of_mem hmem
  rw [map_reset_transit] at hreset
  obtain ⟨before, hbefore, heq⟩ := List.mem_map.mp hreset
  rw [← Stage.acts_reset, ← heq, Stage.acts_reset]
  exact h before hbefore

end Line

end FusedQuery
