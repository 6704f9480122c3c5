/-
  FusedQuery/Proofs/Stream/Meaning.lean
  =====================================
  **What a question means for a stream, in terms of lists.**

  `Question.meaning` says it with functions on the list of elements that know nothing of stops
  and terminals.  A question that can be settled by a single element ends there; any other
  needs the whole stream, so that a fault at its end is the answer.  Callbacks are called in
  turn and the first to fail ends it.

  A terminal that takes in elements one by one comes to the same (`answer_start`): most
  terminals fold (`answer_fold`), three search.
-/
import FusedQuery.Proofs.Stream.Basic

namespace FusedQuery

variable {σ ρ : Type}

namespace Stream

/-- An answer that needs the whole stream, as an act. -/
def completed (s : Stream) {α : Type} (answer : α) : Act σ α := .ofExcept (s.complete answer)

theorem completed_bind {α : Type} (s : Stream) (answer : α) :
    (do s.completed (); Act.ofExcept (.ok answer) : Act σ α) = s.completed answer := by
  obtain ⟨items, fault?⟩ := s
  cases fault? <;> rfl

end Stream

namespace Question

/-! ### Meaning -/

def groupStep (key : Transform σ) (groups : Groups) (item : Value) : Act σ Groups := do
  let value ← key item
  match Key.ofValue? value with
  | some k => return groups.add k item
  | none => .fail (.unhashableKey value.kind)

/-- The better of the best so far and one more element; an element without a rank is none. -/
def extremumStep (rank : Value → Act σ Number) (pick : Pick) (best? : Option (Number × Value))
    (item : Value) : Act σ (Option (Number × Value)) := do
  let r ← rank item
  let improves := !r.isNaN && (match best? with
    | none => true
    | some best => pick.better r best.1)
  return if improves then some (r, item) else best?

def meaning (s : Stream) : Question σ ρ → Act σ ρ
  | .collect => s.completed s.items
  | .head => match s.items with
    | item :: _ => return item
    | [] => s.completed .undefined
  | .each visit => do
    s.items.forM visit
    s.completed ()
  | .count test => do
    let marks ← s.items.mapM test
    s.completed { total := .ofNat marks.length, num := .ofNat (marks.count true) }
  | .length => s.completed (.ofNat s.items.length)
  | .contains target => do
    if ← s.items.anyM target.holds then return true else s.completed false
  | .every test => do
    if ← s.items.allM test then s.completed true else return false
  | .indexOf target => do
    match ← s.items.zipIdx.findM? fun pair => target.holds pair.1 with
    | some pair => return (UInt64.ofNat pair.2).toInt64
    | none => s.completed (-1)
  | .groupBy key => do
    s.completed (← s.items.foldlM (groupStep key) [])
  | .extremum rank pick => do
    let best? ← s.items.foldlM (extremumStep rank pick) none
    s.completed (best?.map Prod.snd)
  | .reduce fold seed? => match seed?, s.items with
    | some seed, items => do s.completed (← items.foldlM fold seed)
    | none, first :: rest => do s.completed (← rest.foldlM fold first)
    | none, [] => do
      s.completed ()
      .fail .emptyReduce
  | .invoke host method? => do
    s.items.forM (Terminal.call host method?)
    s.completed ()

end Question

namespace Terminal

/-! ### Terminals that fold -/

/-- A terminal that takes in an element by a step of a fold and never asks to stop.  What a
    failing step leaves of it has no further use. -/
def Folds {β : Type} (terminal : β → Terminal σ ρ) (step : β → Value → Act σ β) : Prop :=
  ∃ broken : β → Terminal σ ρ, ∀ b item w,
    (terminal b).accept {} item w =
      let reply := (step b item).run w
      match reply.result with
      | .ok next => ⟨.ok (), terminal next, {}, reply.world⟩
      | .error fault => ⟨.error fault, broken b, {}, reply.world⟩

/-- A terminal that folds answers with the fold. -/
theorem answer_fold {β : Type} {terminal : β → Terminal σ ρ} {step : β → Value → Act σ β}
    (h : Folds terminal step) (b : β) (s : Stream) (w : World σ) :
    (terminal b).answer s w =
      (do
        let last ← s.items.foldlM step b
        s.completed ()
        Act.ofExcept (terminal last).finish).run w := by
  obtain ⟨items, fault?⟩ := s
  obtain ⟨broken, haccept⟩ := h
  induction items generalizing b w with
  | nil => cases fault? <;> rfl
  | cons item rest ih =>
    simp only [answer, feed, List.foldlM_cons, bind_assoc, Act.run_bind, haccept]
    cases ((step b item).run w).result with
    | error fault => rfl
    | ok next =>
      simp only [Bool.false_eq_true, ↓reduceIte]
      exact ih next _

theorem answer_fold_ok {β : Type} {terminal : β → Terminal σ ρ} {step : β → Value → Act σ β}
    (h : Folds terminal step) {result : β → ρ} (hfinish : ∀ b, (terminal b).finish = .ok (result b))
    (b : β) (s : Stream) (w : World σ) :
    (terminal b).answer s w =
      (do s.completed (result (← s.items.foldlM step b)) : Act σ ρ).run w := by
  rw [answer_fold h]
  simp only [hfinish, s.completed_bind]

theorem folds_collect : Folds (fun items => .collect items)
    (fun items item => (pure (items.push item) : Act σ (Array Value))) :=
  ⟨fun items => .collect items, fun _ _ _ => rfl⟩

theorem folds_length : Folds (fun n => .length n)
    (fun n _ => (pure (n + 1) : Act σ UInt64)) :=
  ⟨fun n => .length n, fun _ _ _ => rfl⟩

theorem folds_each (visit : Value → Act σ Unit) :
    Folds (fun _ => .each visit) (fun _ item => visit item) := by
  refine ⟨fun _ => .each visit, fun _ item w => ?_⟩
  simp only [accept]
  cases ((visit item).run w).result <;> rfl

theorem folds_invoke (host : Host σ) (method? : Option String) :
    Folds (fun _ => .invoke host method?) (fun _ item => call host method? item) := by
  refine ⟨fun _ => .invoke host method?, fun _ item w => ?_⟩
  simp only [accept]
  cases ((call host method? item).run w).result <;> rfl

def countStep (test : Predicate σ) (counts : Counts) (item : Value) : Act σ Counts := do
  let passed ← test item
  return { total := counts.total + 1, num := if passed then counts.num + 1 else counts.num }

theorem folds_count (test : Predicate σ) :
    Folds (fun counts => .count test counts) (countStep test) := by
  refine ⟨fun counts => .count test { counts with total := counts.total + 1 },
    fun counts item w => ?_⟩
  simp only [accept, countStep, Act.run_bind]
  rcases ((test item).run w).result with fault | passed
  · rfl
  · cases passed <;> rfl

theorem folds_groupBy (key : Transform σ) :
    Folds (fun groups => .groupBy key groups) (Question.groupStep key) := by
  refine ⟨fun groups => .groupBy key groups, fun groups item w => ?_⟩
  simp only [accept, Question.groupStep, Act.run_bind]
  rcases ((key item).run w).result with fault | value
  · rfl
  · cases hkey : Key.ofValue? value with
    | none => simp only [hkey, Act.run_fail]
    | some k => simp only [hkey, Act.run_pure]

theorem folds_extremum (rank : Value → Act σ Number) (pick : Pick) :
    Folds (fun best? => .extremum rank pick best?) (Question.extremumStep rank pick) := by
  refine ⟨fun best? => .extremum rank pick best?, fun best? item w => ?_⟩
  simp only [accept, Question.extremumStep, Act.run_bind]
  cases ((rank item).run w).result <;> rfl

theorem folds_reduce (fold : Value → Value → Act σ Value) :
    Folds (fun acc => .reduce fold (some acc)) fold := by
  refine ⟨fun _ => .reduce fold none, fun acc item w => ?_⟩
  simp only [accept]
  cases ((fold acc item).run w).result <;> rfl

/-! ### Folds as functions on lists -/

theorem foldlM_push (items : Array Value) (xs : List Value) :
    xs.foldlM (fun items item => (pure (items.push item) : Act σ (Array Value))) items =
      pure (items ++ xs.toArray) := by
  rw [List.foldlM_pure]
  simp

theorem foldlM_succ (n : UInt64) (xs : List Value) :
    xs.foldlM (fun n _ => (pure (n + 1) : Act σ UInt64)) n = pure (n + .ofNat xs.length) := by
  rw [List.foldlM_pure]
  congr 1
  induction xs generalizing n with
  | nil => exact (UInt64.add_zero n).symm
  | cons x xs ih =>
    rw [List.foldl_cons, ih, List.length_cons, UInt64.ofNat_add, UInt64.add_assoc,
      UInt64.add_comm 1]
    rfl

theorem foldlM_visit (visit : Value → Act σ Unit) (xs : List Value) :
    xs.foldlM (fun _ item => visit item) () = xs.forM visit := by
  induction xs with
  | nil => rfl
  | cons x xs ih => simp only [List.foldlM_cons, ih]; rfl

/-- Counting as one goes along is marking all elements and counting the marks. -/
theorem foldlM_countStep (test : Predicate σ) (counts : Counts) (xs : List Value) :
    xs.foldlM (countStep test) counts = do
      let marks ← xs.mapM test
      return { total := counts.total + .ofNat marks.length,
               num := counts.num + .ofNat (marks.count true) } := by
  induction xs generalizing counts with
  | nil => simp
  | cons x xs ih =>
    simp only [List.foldlM_cons, List.mapM_cons, countStep, bind_assoc, pure_bind, ih]
    congr 1
    funext passed
    congr 1
    funext marks
    cases passed <;> simp [UInt64.add_assoc, UInt64.add_comm]

/-! ### Terminals that search -/

theorem answer_contains (target : Target σ) (s : Stream) (w : World σ) :
    (Terminal.contains target false).answer s w =
      ((Question.contains target).meaning s).run w := by
  obtain ⟨items, fault?⟩ := s
  induction items generalizing w with
  | nil => cases fault? <;> rfl
  | cons item rest ih =>
    have hrest := ih ((target.holds item).run w).world
    simp only [Question.meaning, List.anyM_cons, bind_assoc, Act.run_bind] at hrest ⊢
    cases hresult : ((target.holds item).run w).result with
    | error fault => simp only [answer, feed, accept, hresult, Fed.reply]
    | ok found =>
      cases found with
      | true =>
        simp only [answer, feed, accept, hresult]
        rfl
      | false =>
        simp only [answer, feed, accept, hresult]
        exact hrest

theorem answer_every (test : Predicate σ) (s : Stream) (w : World σ) :
    (Terminal.every test true).answer s w =
      ((Question.every test).meaning s).run w := by
  obtain ⟨items, fault?⟩ := s
  induction items generalizing w with
  | nil => cases fault? <;> rfl
  | cons item rest ih =>
    have hrest := ih ((test item).run w).world
    simp only [Question.meaning, List.allM_cons, bind_assoc, Act.run_bind] at hrest ⊢
    cases hresult : ((test item).run w).result with
    | error fault => simp only [answer, feed, accept, hresult, Fed.reply]
    | ok passed =>
      cases passed with
      | true =>
        simp only [answer, feed, accept, hresult]
        exact hrest
      | false =>
        simp only [answer, feed, accept, hresult]
        rfl

/-- The search for a position, which counts from where it is. -/
theorem answer_indexOf (target : Target σ) (n : Nat) (s : Stream) (w : World σ) :
    (Terminal.indexOf target (.ofNat n) none).answer s w =
      (do
        match ← (s.items.zipIdx n).findM? fun pair => target.holds pair.1 with
        | some pair => return (UInt64.ofNat pair.2).toInt64
        | none => s.completed (-1) : Act σ Int64).run w := by
  obtain ⟨items, fault?⟩ := s
  induction items generalizing n w with
  | nil => cases fault? <;> rfl
  | cons item rest ih =>
    have hrest := ih (n + 1) ((target.holds item).run w).world
    rw [UInt64.ofNat_add] at hrest
    simp only [List.zipIdx_cons, List.findM?, bind_assoc, Act.run_bind] at hrest ⊢
    cases hresult : ((target.holds item).run w).result with
    | error fault => simp only [answer, feed, accept, hresult, Fed.reply]
    | ok found =>
      cases found with
      | true =>
        simp only [answer, feed, accept, hresult]
        rfl
      | false =>
        simp only [answer, feed, accept, hresult]
        exact hrest

/-! ### All of them -/

/-- **A terminal answers to a stream what its question means for it.** -/
theorem answer_start (question : Question σ ρ) (s : Stream) (w : World σ) :
    question.start.answer s w = (question.meaning s).run w := by
  cases question with
  | collect =>
    have h := answer_fold_ok (σ := σ) folds_collect (fun _ => rfl) #[] s w
    rw [foldlM_push, pure_bind, Array.empty_append, List.toList_toArray] at h
    exact h
  | head =>
    obtain ⟨items, fault?⟩ := s
    cases items with
    | nil => cases fault? <;> rfl
    | cons item rest => rfl
  | each visit =>
    have h := answer_fold_ok (folds_each visit) (fun _ => rfl) () s w
    rw [foldlM_visit] at h
    exact h
  | count test =>
    have h := answer_fold_ok (folds_count test) (fun _ => rfl) {} s w
    simp only [foldlM_countStep, bind_assoc, pure_bind, UInt64.zero_add] at h
    exact h
  | length =>
    have h := answer_fold_ok (σ := σ) folds_length (fun _ => rfl) 0 s w
    rw [foldlM_succ, pure_bind, UInt64.zero_add] at h
    exact h
  | contains target => exact answer_contains target s w
  | every test => exact answer_every test s w
  | indexOf target => exact answer_indexOf target 0 s w
  | groupBy key => exact answer_fold_ok (folds_groupBy key) (fun _ => rfl) [] s w
  | extremum rank pick =>
    exact answer_fold_ok (folds_extremum rank pick) (fun _ => rfl) none s w
  | reduce fold seed? =>
    cases seed? with
    | some seed => exact answer_fold_ok (folds_reduce fold) (fun _ => rfl) seed s w
    | none =>
      obtain ⟨items, fault?⟩ := s
      cases items with
      | nil => cases fault? <;> rfl
      | cons first rest =>
        exact answer_fold_ok (folds_reduce fold) (fun _ => rfl) first ⟨rest, fault?⟩ w
  | invoke host method? =>
    have h := answer_fold_ok (folds_invoke host method?) (fun _ => rfl) () s w
    rw [foldlM_visit] at h
    exact h

end Terminal

end FusedQuery
