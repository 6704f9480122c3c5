/-
  FusedQuery/Proofs/Terminal/Targets.lean
  =======================================
  **What a search finds, and what is called.**

  A search compares an element with a value, or what is in one of its fields, or it gives the
  element to a test (`Target.Finds`).

  Invoking looks for a function, in a field or in the element itself.  What comes of it for some
  elements is a relation with a rule for each thing that can happen to an element
  (`CallsInTurn`).  It has one outcome (`CallsInTurn.unique`), and a terminal that calls one
  element after the other comes to it (`Terminal.callsInTurn_forM`).
-/
import FusedQuery.Proofs.Terminal.Acts

namespace FusedQuery

variable {σ : Type}

/-! ### Searches -/

/-- What a search finds of an element: that it is the same as the value looked for, or what is
    in its field is, or that it passes the test. -/
inductive Target.Finds : Target σ → (Value → Except Fault Bool) → Prop
  | value (wanted : Value) : Finds (.value wanted) fun item => .ok (item.same wanted)
  | field (name : String) (wanted : Value) :
      Finds (.field name wanted) fun item => .ok ((item.get name).same wanted)
  | test {test : Predicate σ} {p : Value → Except Fault Bool} :
      (∀ v, test v = .ofExcept (p v)) → Finds (.test test) p

theorem Target.Finds.holds {target : Target σ} {p : Value → Except Fault Bool}
    (h : target.Finds p) (v : Value) : target.holds v = .ofExcept (p v) := by
  rcases h with wanted | ⟨name, wanted⟩ | htest
  · rfl
  · rfl
  · exact htest v

/-! ### Calls -/

/-- **Elements are called in turn,** each once and without arguments: what is called is the
    function in the field that a method names, or, without a method, the element itself.  The
    first call that fails is the last, and so is an element where there is no function. -/
inductive CallsInTurn (host : Host σ) (method? : Option String) :
    List Value → World σ → Except Fault Unit → World σ → Prop
  | done (w : World σ) : CallsInTurn host method? [] w (.ok ()) w
  | called {item answer : Value} {ref : Ref} {rest : List Value} {w last : World σ}
      {result : Except Fault Unit} :
      method?.elim item item.get = .func ref →
      ((host ref []).run w).result = .ok answer →
      CallsInTurn host method? rest ((host ref []).run w).world result last →
      CallsInTurn host method? (item :: rest) w result last
  | failed {item : Value} {ref : Ref} {rest : List Value} {w : World σ} {fault : Fault} :
      method?.elim item item.get = .func ref →
      ((host ref []).run w).result = .error fault →
      CallsInTurn host method? (item :: rest) w (.error fault) ((host ref []).run w).world
  | notInvocable {item : Value} {rest : List Value} {w : World σ} :
      (∀ ref, method?.elim item item.get ≠ .func ref) →
      CallsInTurn host method? (item :: rest) w (.error (.notInvocable method?)) w

/-- There is one way to go on from every element. -/
theorem CallsInTurn.unique {host : Host σ} {method? : Option String} {items : List Value}
    {w last last' : World σ} {result result' : Except Fault Unit}
    (h : CallsInTurn host method? items w result last)
    (h' : CallsInTurn host method? items w result' last') : result = result' ∧ last = last' := by
  induction h with
  | done =>
    cases h'
    exact ⟨rfl, rfl⟩
  | called hfunc hanswer _ ih =>
    cases h' with
    | called hfunc' _ hrest =>
      cases hfunc.symm.trans hfunc'
      exact ih hrest
    | failed hfunc' hfault =>
      cases hfunc.symm.trans hfunc'
      cases hanswer.symm.trans hfault
    | notInvocable hnone => exact absurd hfunc (hnone _)
  | failed hfunc hfault =>
    cases h' with
    | called hfunc' hanswer =>
      cases hfunc.symm.trans hfunc'
      cases hfault.symm.trans hanswer
    | failed hfunc' hfault' =>
      cases hfunc.symm.trans hfunc'
      cases hfault.symm.trans hfault'
      exact ⟨rfl, rfl⟩
    | notInvocable hnone => exact absurd hfunc (hnone _)
  | notInvocable hnone =>
    cases h' with
    | called hfunc => exact absurd hfunc (hnone _)
    | failed hfunc => exact absurd hfunc (hnone _)
    | notInvocable => exact ⟨rfl, rfl⟩

namespace Terminal

variable {host : Host σ} {method? : Option String}

/-- All that a call can come to. -/
theorem call_cases (host : Host σ) (method? : Option String) (item : Value) :
    (∃ ref, method?.elim item item.get = .func ref ∧
      call host method? item = do let _ ← host ref []; return ()) ∨
    ((∀ ref, method?.elim item item.get ≠ .func ref) ∧
      call host method? item = .fail (.notInvocable method?)) := by
  rcases method? with _ | method
  · simp only [call, Option.elim]
    split
    · exact Or.inl ⟨_, rfl, rfl⟩
    · rename_i hnone
      exact Or.inr ⟨hnone, rfl⟩
  · simp only [call, Option.elim]
    split
    · rename_i ref hfunc
      exact Or.inl ⟨ref, hfunc, rfl⟩
    · rename_i hnone
      exact Or.inr ⟨hnone, rfl⟩

/-- A call sees and keeps of the world what the host does. -/
theorem sees_call {S T : World σ → World σ → Prop} (h : ∀ ref, (host ref []).Sees S T)
    (method? : Option String) (item : Value) : (call host method? item).Sees S T := by
  rcases call_cases host method? item with ⟨ref, -, hcall⟩ | ⟨-, hcall⟩
  · rw [hcall]
    exact Act.closed_sees.bind (h ref) fun _ => Act.closed_sees.pure ()
  · rw [hcall]
    exact Act.sees_ofExcept _

/-- By induction on the elements, with what the call of the first comes to. -/
theorem callsInTurn_forM (items : List Value) (w : World σ) :
    let reply := (items.forM (call host method?)).run w
    CallsInTurn host method? items w reply.result reply.world := by
  induction items generalizing w with
  | nil => exact .done w
  | cons item rest ih =>
    have hcons : (item :: rest).forM (call host method?) =
        call host method? item >>= fun _ => rest.forM (call host method?) := rfl
    rcases call_cases host method? item with ⟨ref, hfunc, hcall⟩ | ⟨hnone, hcall⟩
    · have hrest := ih ((host ref []).run w).world
      rw [hcons, hcall, bind_assoc, Act.run_bind]
      rcases hanswer : ((host ref []).run w).result with fault | answer
      · exact .failed hfunc hanswer
      · exact .called hfunc hanswer hrest
    · rw [hcons, hcall]
      exact .notInvocable hnone

end Terminal

end FusedQuery
