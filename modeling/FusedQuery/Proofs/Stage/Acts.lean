/-
  FusedQuery/Proofs/Stage/Acts.lean
  =================================
  **A step does to the world what one act does.**

  Most stages leave the world alone or call one callback; a merged stage calls two in turn, and
  a `uniq` compares as often as it has to.  In every case the step is a single act, followed by
  bookkeeping that depends on nothing but the outcome of the act (`takesOne_step`).

  A property of acts that sequencing keeps is therefore a property of whole steps as soon as
  the callbacks of the stage have it: `Stage.Acts P` says that they do.
-/
import FusedQuery.Proofs.Stage.Frame

namespace FusedQuery

variable {σ : Type}

/-- A property of acts that sequencing keeps. -/
structure Act.Closed (P : {α : Type} → Act σ α → Prop) : Prop where
  pure {α : Type} (a : α) : P (pure a : Act σ α)
  bind {α β : Type} {act : Act σ α} {next : α → Act σ β} :
    P act → (∀ a, P (next a)) → P (act >>= next)

theorem Seen.acts_repeatsIn {P : {α : Type} → Act σ α → Prop} (hP : Act.Closed P)
    {eq? : Option (Equality σ)} (h : ∀ eq, eq? = some eq → ∀ v w, P (eq v w)) (item : Value)
    (refs : List Value) : P (repeatsIn eq? item refs) := by
  induction refs with
  | nil => exact hP.pure false
  | cons earlier rest ih =>
    have hrepeats : P (repeats eq? earlier item) := by
      cases eq? with
      | none => exact hP.pure _
      | some eq => exact h eq rfl earlier item
    refine hP.bind hrepeats fun found => ?_
    cases found with
    | true => exact hP.pure true
    | false => exact ih

namespace Stage

/-- Every act that the stage may take has the property. -/
def Acts (P : {α : Type} → Act σ α → Prop) : Stage σ → Prop
  | .filter test => ∀ v, P (test v)
  | .reject test => ∀ v, P (test v)
  | .map change => ∀ v, P (change v)
  | .filterFilter early late => (∀ v, P (early v)) ∧ ∀ v, P (late v)
  | .filterMap test change => (∀ v, P (test v)) ∧ ∀ v, P (change v)
  | .mapFilter change test => (∀ v, P (change v)) ∧ ∀ v, P (test v)
  | .mapMap early late => (∀ v, P (early v)) ∧ ∀ v, P (late v)
  | .zip .. => ∀ items, P (Act.newList items)
  | .first (some test) => ∀ v, P (test v)
  | .uniq (some eq) _ => ∀ v w, P (eq v w)
  | _ => True

variable {P : {α : Type} → Act σ α → Prop}

/-- What is true of any act is true of those of a stage. -/
theorem acts_of_forall (h : ∀ {α : Type} (act : Act σ α), P act) (stage : Stage σ) :
    stage.Acts P := by
  cases stage with
  | first test? => cases test? <;> simp [Acts, h]
  | uniq eq? seen => cases eq? <;> simp [Acts, h]
  | _ => simp [Acts, h]

/-- The acts of a stage are fixed when the query is built. -/
theorem acts_reset (stage : Stage σ) : stage.reset.Acts P ↔ stage.Acts P := by
  cases stage with
  | uniq eq? seen => cases eq? <;> exact Iff.rfl
  | _ => exact Iff.rfl

/-- The step that takes an act and then does the bookkeeping for its outcome. -/
def Step.taking (act : Act σ Flow) (after : Except Fault Flow → Stage σ × Control)
    (world : World σ) : Step σ :=
  let reply := act.run world
  ⟨reply.result, (after reply.result).1, (after reply.result).2, reply.world⟩

def TakesOne (P : {α : Type} → Act σ α → Prop) (step : World σ → Step σ) : Prop :=
  ∃ act : Act σ Flow, P act ∧ ∃ after : Except Fault Flow → Stage σ × Control,
    ∀ world, step world = Step.taking act after world

/-- Bookkeeping that is called for only when the element is handed on. -/
def onForward (forwarded otherwise : Stage σ × Control) : Except Fault Flow → Stage σ × Control
  | .ok (.forward _) => forwarded
  | _ => otherwise

theorem takesOne_ofAct (stage : Stage σ) (control : Control) {act : Act σ Flow} (h : P act) :
    TakesOne P (Step.ofAct stage control act) :=
  ⟨act, h, fun _ => (stage, control), fun _ => rfl⟩

theorem takesOne_pure (hP : Act.Closed P) (flow : Flow) (stage : Stage σ) (control : Control) :
    TakesOne P fun world => ⟨.ok flow, stage, control, world⟩ :=
  ⟨pure flow, hP.pure flow, fun _ => (stage, control), fun _ => rfl⟩

/-- **A step is one act of the stage's kind**, and what it does to the stage and the control
    depends on the outcome of the act alone. -/
theorem takesOne_step (hP : Act.Closed P) {stage : Stage σ} (h : stage.Acts P)
    (control : Control) (item : Value) : TakesOne P (stage.step control item) := by
  show TakesOne P fun world => stage.step control item world
  cases stage with
  | filter test => exact takesOne_ofAct _ _ (hP.bind (h item) fun _ => hP.pure _)
  | reject test => exact takesOne_ofAct _ _ (hP.bind (h item) fun _ => hP.pure _)
  | filterBy field value => exact takesOne_pure hP _ _ _
  | map change => exact takesOne_ofAct _ _ (hP.bind (h item) fun _ => hP.pure _)
  | filterFilter early late =>
    refine takesOne_ofAct _ _ (hP.bind (h.1 item) fun passed => ?_)
    cases passed with
    | true => exact hP.bind (h.2 item) fun _ => hP.pure _
    | false => exact hP.pure _
  | filterMap test change =>
    refine takesOne_ofAct _ _ (hP.bind (h.1 item) fun passed => ?_)
    cases passed with
    | true => exact hP.bind (h.2 item) fun _ => hP.pure _
    | false => exact hP.pure _
  | mapFilter change test =>
    refine takesOne_ofAct _ _ (hP.bind (h.1 item) fun changed => ?_)
    exact hP.bind (h.2 changed) fun _ => hP.pure _
  | mapMap early late =>
    refine takesOne_ofAct _ _ (hP.bind (h.1 item) fun changed => ?_)
    exact hP.bind (h.2 changed) fun _ => hP.pure _
  | zip other pos => exact takesOne_ofAct _ _ (hP.bind (h _) fun _ => hP.pure _)
  | skip count =>
    by_cases hskip : control.skipped < count
    · simp only [step, if_pos hskip]
      exact takesOne_pure hP _ _ _
    · simp only [step, if_neg hskip]
      exact takesOne_pure hP _ _ _
  | slice start bound pos =>
    by_cases hbound : bound ≤ pos
    · simp only [step, if_pos hbound]
      exact takesOne_pure hP _ _ _
    · simp only [step, if_neg hbound]
      exact takesOne_pure hP _ _ _
  | first test? =>
    cases test? with
    | none => exact takesOne_pure hP _ _ _
    | some test =>
      refine ⟨do return if ← test item then .forward item else .drop,
        hP.bind (h item) fun _ => hP.pure _,
        onForward (.first (some test), control.halt) (.first (some test), control),
        fun world => ?_⟩
      simp only [step, Step.taking, Act.run_bind, Act.run_pure]
      rcases ((test item).run world).result with fault | passed
      · rfl
      · cases passed <;> rfl
  | take limit taken =>
    by_cases hlimit : limit ≤ taken
    · simp only [step, if_pos hlimit]
      exact takesOne_pure hP _ _ _
    · simp only [step, if_neg hlimit]
      exact takesOne_pure hP _ _ _
  | get index pos =>
    by_cases hindex : pos = index
    · simp only [step, if_pos hindex]
      exact takesOne_pure hP _ _ _
    · simp only [step, if_neg hindex]
      exact takesOne_pure hP _ _ _
  | ofClass name => exact takesOne_pure hP _ _ _
  | ofKind kind => exact takesOne_pure hP _ _ _
  | uniq eq? seen =>
    cases hkey : Key.ofValue? item with
    | some key =>
      by_cases hmem : key ∈ seen.keys
      · simp only [step, hkey, if_pos hmem]
        exact takesOne_pure hP _ _ _
      · simp only [step, hkey, if_neg hmem]
        exact takesOne_pure hP _ _ _
    | none =>
      have hrepeats : P (Seen.repeatsIn eq? item seen.refs) := by
        apply Seen.acts_repeatsIn hP
        intro eq heq
        subst heq
        exact h
      refine ⟨do return if ← Seen.repeatsIn eq? item seen.refs then .drop else .forward item,
        hP.bind hrepeats fun _ => hP.pure _,
        onForward (.uniq eq? (seen.addRef item), control) (.uniq eq? seen, control),
        fun world => ?_⟩
      simp only [step, hkey, Step.taking, Act.run_bind, Act.run_pure]
      rcases ((Seen.repeatsIn eq? item seen.refs).run world).result with fault | found
      · rfl
      · cases found <;> rfl
  | halt => exact takesOne_pure hP _ _ _

end Stage

end FusedQuery
