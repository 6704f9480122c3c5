/-
  FusedQuery/Effect.lean
  ======================
  **Callbacks and the world they act on.**

  A callback may fail, and it may change a state that the query knows nothing about: the type
  `σ` stands for all of it.  It may also make lists, records and functions, each under an
  identity that was never in use before.  Identities are handed out in order, so the *supply*
  (the next one to be given) bounds all that exist, and it never goes back.  That is part of
  what an act is: `supply_le`.

  A failed act keeps what it did to the world up to the failure.
-/
import FusedQuery.Fault
import FusedQuery.Value.Basic

namespace FusedQuery

/-- All that lies outside a query: the next identity to be given, and the callbacks' state. -/
structure World (σ : Type) where
  supply : Ref
  state : σ
deriving Inhabited

structure Reply (σ α : Type) where
  result : Except Fault α
  world : World σ

/-- An act on the world, which may fail.  It uses up identities and gives none back. -/
@[ext]
structure Act (σ α : Type) where
  run : World σ → Reply σ α
  supply_le (w : World σ) : w.supply ≤ (run w).world.supply

namespace Act

variable {σ α β : Type}

/-! ### Building acts -/

instance : Monad (Act σ) where
  pure a := { run := fun w => ⟨.ok a, w⟩, supply_le := fun w => Nat.le_refl w.supply }
  bind act next :=
    { run := fun w =>
        match (act.run w).result with
        | .ok a => (next a).run (act.run w).world
        | .error fault => ⟨.error fault, (act.run w).world⟩
      supply_le := fun w => by
        split
        · exact Nat.le_trans (act.supply_le w) ((next _).supply_le _)
        · exact act.supply_le w }

/-- An answer, or a failure, that leaves the world alone. -/
def ofExcept (result : Except Fault α) : Act σ α :=
  { run := fun w => ⟨result, w⟩, supply_le := fun w => Nat.le_refl w.supply }

def fail (fault : Fault) : Act σ α := ofExcept (.error fault)

/-- Take an identity that nothing has. -/
def fresh : Act σ Ref :=
  { run := fun w => ⟨.ok w.supply, { w with supply := w.supply + 1 }⟩
    supply_le := fun w => Nat.le_succ w.supply }

def newList (items : List Value) : Act σ Value := do
  return .list (← fresh) items

def newRecord (content : Record Value) : Act σ Value := do
  return .record (← fresh) content

/-- An act given by its run alone; should the run lower the supply, it stays as it was. -/
def ofRun (run : World σ → Reply σ α) : Act σ α :=
  { run := fun w =>
      let reply := run w
      { reply with world := { reply.world with supply := max w.supply reply.world.supply } }
    supply_le := fun w => Nat.le_max_left w.supply _ }

/-! ### How acts run -/

@[simp]
theorem run_pure (a : α) (w : World σ) : (pure a : Act σ α).run w = ⟨.ok a, w⟩ := rfl

theorem run_bind (act : Act σ α) (next : α → Act σ β) (w : World σ) :
    (act >>= next).run w =
      match (act.run w).result with
      | .ok a => (next a).run (act.run w).world
      | .error fault => ⟨.error fault, (act.run w).world⟩ := rfl

@[simp]
theorem run_ofExcept (result : Except Fault α) (w : World σ) :
    (ofExcept result : Act σ α).run w = ⟨result, w⟩ := rfl

@[simp]
theorem run_fail (fault : Fault) (w : World σ) :
    (fail fault : Act σ α).run w = ⟨.error fault, w⟩ := rfl

@[simp]
theorem run_newList (items : List Value) (w : World σ) :
    (newList items : Act σ Value).run w =
      ⟨.ok (.list w.supply items), { w with supply := w.supply + 1 }⟩ := rfl

theorem bind_pure_run (act : Act σ α) : (act >>= fun a => pure a) = act := by
  ext w
  rw [run_bind]
  cases act.run w with
  | mk result world => cases result <;> rfl

theorem bind_assoc_run {γ : Type} (act : Act σ α) (next : α → Act σ β) (last : β → Act σ γ) :
    ((act >>= next) >>= last) = act >>= fun a => next a >>= last := by
  ext w
  simp only [run_bind]
  cases (act.run w).result <;> rfl

instance : LawfulMonad (Act σ) :=
  LawfulMonad.mk' _ bind_pure_run (fun _ _ => rfl) bind_assoc_run

end Act

/-! ### The callbacks of a query -/

abbrev Predicate (σ : Type) := Value → Act σ Bool

abbrev Transform (σ : Type) := Value → Act σ Value

/-- Whether an element (the second) repeats one seen before (the first). -/
abbrev Equality (σ : Type) := Value → Value → Act σ Bool

/-- What a call of a function value with some arguments does. -/
abbrev Host (σ : Type) := Ref → List Value → Act σ Value

end FusedQuery
