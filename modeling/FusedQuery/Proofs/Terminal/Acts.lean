/-
  FusedQuery/Proofs/Terminal/Acts.lean
  ====================================
  **The acts of a terminal.**

  What is known of all acts that a terminal may take stays known while it takes in elements
  (`Terminal.Acts.accept`).  Taking one in is a single act and bookkeeping that depends on its
  outcome alone (`takesOne_accept`), so a terminal sees and keeps of the world what its acts do
  (`accept_agree`, `accept_keeps`).
-/
import FusedQuery.Proofs.Stage.Independent
import FusedQuery.Terminal.Question

namespace FusedQuery

variable {σ ρ : Type}

namespace Terminal

/-- Every act that the terminal may take has the property. -/
def Acts (P : {α : Type} → Act σ α → Prop) : Terminal σ ρ → Prop
  | .each visit => ∀ v, P (visit v)
  | .count test _ => ∀ v, P (test v)
  | .contains target _ => ∀ v, P (target.holds v)
  | .every test _ => ∀ v, P (test v)
  | .indexOf target _ _ => ∀ v, P (target.holds v)
  | .groupBy key _ => ∀ v, P (key v)
  | .extremum rank _ _ => ∀ v, P (rank v)
  | .reduce fold _ => ∀ v w, P (fold v w)
  | .invoke host method? => ∀ v, P (call host method? v)
  | .collect _ | .head _ | .length _ => True

/-- What is true of any act is true of those of a terminal. -/
theorem acts_of_forall {P : {α : Type} → Act σ α → Prop}
    (h : ∀ {α : Type} (act : Act σ α), P act) (terminal : Terminal σ ρ) : terminal.Acts P := by
  cases terminal <;> simp [Acts, h]

theorem Acts.accept {P : {α : Type} → Act σ α → Prop} {terminal : Terminal σ ρ}
    (h : terminal.Acts P) (control : Control) (item : Value) (w : World σ) :
    (terminal.accept control item w).terminal.Acts P := by
  cases terminal with
  | collect items => exact h
  | head item? => exact h
  | each visit => exact h
  | count test counts => simp only [Terminal.accept]; split <;> exact h
  | length n => exact h
  | contains target found => simp only [Terminal.accept]; split <;> exact h
  | every test passed => simp only [Terminal.accept]; split <;> exact h
  | indexOf target pos found? => simp only [Terminal.accept]; split <;> exact h
  | groupBy key groups =>
    simp only [Terminal.accept]
    split
    · split <;> exact h
    · exact h
  | extremum rank pick best? => simp only [Terminal.accept]; split <;> exact h
  | reduce fold acc? =>
    cases acc? with
    | none => exact h
    | some acc => simp only [Terminal.accept]; split <;> exact h
  | invoke host method? => exact h

/-- What is left to note down when an element's act is done. -/
abbrev Bookkeeping (σ ρ : Type) : Type 1 := Except Fault Unit × Terminal σ ρ × Control

/-- The bookkeeping for an outcome: the one that the answer calls for, or the failure along
    with the terminal as it leaves it. -/
def settle {α : Type} (failed : Terminal σ ρ) (control : Control)
    (answered : α → Bookkeeping σ ρ) : Except Fault α → Bookkeeping σ ρ
  | .ok a => answered a
  | .error fault => (.error fault, failed, control)

/-- A terminal takes in an element by one act with the property, and bookkeeping. -/
def TakesOne (P : {α : Type} → Act σ α → Prop) (accept : World σ → Acceptance σ ρ) : Prop :=
  ∃ (α : Type) (act : Act σ α), P act ∧ ∃ after : Except Fault α → Bookkeeping σ ρ,
    ∀ w, accept w =
      let reply := act.run w
      ⟨(after reply.result).1, (after reply.result).2.1, (after reply.result).2.2, reply.world⟩

variable {P : {α : Type} → Act σ α → Prop}

theorem takesOne_pure (hP : Act.Closed P) (terminal : Terminal σ ρ) (control : Control) :
    TakesOne P fun w => ⟨.ok (), terminal, control, w⟩ :=
  ⟨Unit, pure (), hP.pure (), fun _ => (.ok (), terminal, control), fun _ => rfl⟩

/-- The bookkeeping is read off `accept` itself, which matches on the outcome of its act. -/
theorem takesOne_accept (hP : Act.Closed P) {terminal : Terminal σ ρ} (h : terminal.Acts P)
    (control : Control) (item : Value) : TakesOne P (terminal.accept control item) := by
  show TakesOne P fun w => terminal.accept control item w
  cases terminal with
  | collect items => exact takesOne_pure hP _ _
  | head item? => exact takesOne_pure hP _ _
  | length n => exact takesOne_pure hP _ _
  | each visit =>
    exact ⟨Unit, visit item, h item, fun outcome => (outcome, .each visit, control),
      fun _ => rfl⟩
  | invoke host method? =>
    exact ⟨Unit, call host method? item, h item,
      fun outcome => (outcome, .invoke host method?, control), fun _ => rfl⟩
  | count test counts =>
    let counted := { counts with total := counts.total + 1 }
    refine ⟨Bool, test item, h item, settle (.count test counted) control fun passed =>
      (.ok (), .count test (if passed then { counted with num := counts.num + 1 } else counted),
        control), fun w => ?_⟩
    simp only [accept]
    rcases ((test item).run w).result with fault | passed
    · rfl
    · cases passed <;> rfl
  | contains target found =>
    refine ⟨Bool, target.holds item, h item, settle (.contains target found) control fun passed =>
      (.ok (), if passed then (.contains target true, control.halt)
        else (.contains target found, control)), fun w => ?_⟩
    simp only [accept]
    rcases ((target.holds item).run w).result with fault | passed
    · rfl
    · cases passed <;> rfl
  | every test passed =>
    refine ⟨Bool, test item, h item, settle (.every test passed) control fun passes =>
      (.ok (), if passes then (.every test passed, control) else (.every test false, control.halt)),
      fun w => ?_⟩
    simp only [accept]
    rcases ((test item).run w).result with fault | passes
    · rfl
    · cases passes <;> rfl
  | indexOf target pos found? =>
    refine ⟨Bool, target.holds item, h item, settle (.indexOf target pos found?) control
      fun passed =>
        (.ok (), if passed then (.indexOf target (pos + 1) (some pos), control.halt)
          else (.indexOf target (pos + 1) found?, control)), fun w => ?_⟩
    simp only [accept]
    rcases ((target.holds item).run w).result with fault | passed
    · rfl
    · cases passed <;> rfl
  | groupBy key groups =>
    refine ⟨Value, key item, h item, settle (.groupBy key groups) control fun value =>
      (Key.ofValue? value).elim (.error (.unhashableKey value.kind), .groupBy key groups, control)
        fun k => (.ok (), .groupBy key (groups.add k item), control), fun w => ?_⟩
    simp only [accept]
    rcases ((key item).run w).result with fault | value
    · rfl
    · cases hkey : Key.ofValue? value with
      | none => simp only [settle, hkey, Option.elim]
      | some k => simp only [settle, hkey, Option.elim]
  | extremum rank pick best? =>
    refine ⟨Number, rank item, h item, settle (.extremum rank pick best?) control fun r =>
      let improves := !r.isNaN && best?.all fun best => pick.better r best.1
      (.ok (), .extremum rank pick (if improves then some (r, item) else best?), control),
      fun w => ?_⟩
    simp only [accept]
    rcases ((rank item).run w).result with fault | r
    · rfl
    · cases best? <;> rfl
  | reduce fold acc? =>
    cases acc? with
    | none => exact takesOne_pure hP _ _
    | some acc =>
      refine ⟨Value, fold acc item, h acc item, settle (.reduce fold none) control fun next =>
        (.ok (), .reduce fold (some next), control), fun w => ?_⟩
      simp only [accept]
      rcases ((fold acc item).run w).result with fault | next
      · rfl
      · rfl

/-! ### What a terminal sees of the world -/

variable {S T : World σ → World σ → Prop}

abbrev Sees (S T : World σ → World σ → Prop) (terminal : Terminal σ ρ) : Prop :=
  terminal.Acts (Act.Sees S T)

theorem sees_all (terminal : Terminal σ ρ) : terminal.Sees Eq World.Any :=
  terminal.acts_of_forall Act.sees_all

/-- Two acceptances are the same but for what cannot be seen of the world. -/
structure Acceptance.Agree (S : World σ → World σ → Prop) (a a' : Acceptance σ ρ) : Prop where
  status : a.status = a'.status
  terminal : a.terminal = a'.terminal
  control : a.control = a'.control
  world : S a.world a'.world

theorem accept_agree {terminal : Terminal σ ρ} (h : terminal.Sees S T) (control : Control)
    (item : Value) {u w : World σ} (hworld : S u w) :
    (terminal.accept control item u).Agree S (terminal.accept control item w) := by
  obtain ⟨α, act, hact, after, haccept⟩ := takesOne_accept Act.closed_sees h control item
  have hresult := hact.result hworld
  rw [haccept, haccept]
  simp only [hresult]
  exact ⟨rfl, rfl, rfl, hact.seen hworld⟩

theorem accept_keeps {terminal : Terminal σ ρ} (h : terminal.Sees S T) (control : Control)
    (item : Value) {v w : World σ} (hworld : T v w) :
    T v (terminal.accept control item w).world := by
  obtain ⟨α, act, hact, after, haccept⟩ := takesOne_accept Act.closed_sees h control item
  rw [haccept]
  exact hact.kept hworld

end Terminal

end FusedQuery
