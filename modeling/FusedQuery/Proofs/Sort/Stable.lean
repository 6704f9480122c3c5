/-
  FusedQuery/Proofs/Sort/Stable.lean
  ==================================
  **Sorting a query is a stable sort of its elements.**

  A stable sort of a list has the same elements, each before those that are not below it, and
  leaves each class of elements that compare equal in its order (`StableSort`).  For a total
  preorder there is one (`stableSort_mergeSort`) and no other (`StableSort.eq`), so what is
  sorted stays as it is.

  A comparison that acts is put to the elements one pair after the other.  If its answers are
  those of a function, then the elements come out as the function sorts them, whatever the
  comparison does besides (`Comparison.gives_sort`).

  A query is sorted by sorting what it collects, so both hold of sorted queries (`sort_stable`).
-/
import FusedQuery.Query.Sort
import FusedQuery.Proofs.Order.Total
import FusedQuery.Proofs.Stage.Independent

namespace FusedQuery

/-! ### Stable sorts -/

section StableSort

variable {α : Type} {cmp : α → α → Ordering} {xs ys zs : List α}

def Ascends (cmp : α → α → Ordering) (xs : List α) : Prop :=
  xs.Pairwise fun a b => (cmp a b).isLE = true

/-- The elements of a list that a comparison finds equal to a given one, in their order. -/
def tied (cmp : α → α → Ordering) (a : α) (xs : List α) : List α :=
  xs.filter fun b => cmp a b = .eq

structure StableSort (cmp : α → α → Ordering) (xs ys : List α) : Prop where
  perm : ys.Perm xs
  ascends : Ascends cmp ys
  tied_eq (a : α) : tied cmp a ys = tied cmp a xs

namespace Value.TotalPreorder

variable (h : TotalPreorder cmp)
include h

theorem isLE_total (a b : α) : ((cmp a b).isLE || (cmp b a).isLE) = true := by
  rw [h.swap a b]
  cases cmp a b <;> rfl

theorem eq_of_isLE {a b : α} (hab : (cmp a b).isLE = true) (hba : (cmp b a).isLE = true) :
    cmp a b = .eq := by
  rw [h.swap a b] at hba
  cases hcmp : cmp a b with
  | eq => rfl
  | lt =>
    rw [hcmp] at hba
    cases hba
  | gt =>
    rw [hcmp] at hab
    cases hab

theorem mem_tied_self {a : α} (hmem : a ∈ xs) : a ∈ tied cmp a xs :=
  List.mem_filter.mpr ⟨hmem, decide_eq_true (h.refl a)⟩

/-- Elements that compare equal to one and the same compare equal to each other. -/
theorem ascends_tied (a : α) (xs : List α) : Ascends cmp (tied cmp a xs) := by
  apply List.pairwise_of_forall_mem_list
  intro b hb c hc
  have hab : cmp a b = .eq := of_decide_eq_true (List.mem_filter.mp hb).2
  have hac : cmp a c = .eq := of_decide_eq_true (List.mem_filter.mp hc).2
  rw [← h.congr a b c hab, hac]
  rfl

theorem isLE_of_mem_cons {a b : α} (hsorted : Ascends cmp (a :: xs)) (hmem : b ∈ a :: xs) :
    (cmp a b).isLE = true := by
  rcases List.mem_cons.mp hmem with rfl | hmem
  · rw [h.refl b]
    rfl
  · exact List.rel_of_pairwise_cons hsorted hmem

theorem stableSort_mergeSort (xs : List α) :
    StableSort cmp xs (xs.mergeSort fun a b => (cmp a b).isLE) where
  perm := List.mergeSort_perm xs _
  ascends := List.pairwise_mergeSort h.trans h.isLE_total xs
  tied_eq a := by
    -- Elements tied with `a` ascend, so they keep their order; and no others come among them.
    have hsorted : (tied cmp a xs).Sublist (xs.mergeSort fun a b => (cmp a b).isLE) :=
      List.sublist_mergeSort h.trans h.isLE_total (h.ascends_tied a xs) List.filter_sublist
    have hsublist := hsorted.filter fun b => cmp a b = .eq
    rw [tied, List.filter_filter] at hsublist
    simp only [Bool.and_self] at hsublist
    have hperm := List.mergeSort_perm xs fun a b => (cmp a b).isLE
    have hlength := (hperm.filter fun b => cmp a b = .eq).length_eq
    exact (hsublist.eq_of_length hlength.symm).symm

/-- The least element of an ascending list is tied with that of any other that has the same
    classes of ties, and comes first in its class in both. -/
theorem eq_of_tied_eq (hys : Ascends cmp ys) (hzs : Ascends cmp zs)
    (htied : ∀ a, tied cmp a ys = tied cmp a zs) : ys = zs := by
  induction ys generalizing zs with
  | nil =>
    cases zs with
    | nil => rfl
    | cons z zs =>
      have hmem := h.mem_tied_self (List.mem_cons_self (a := z) (l := zs))
      rw [← htied z] at hmem
      cases hmem
  | cons y ys ih =>
    have hy := h.mem_tied_self (List.mem_cons_self (a := y) (l := ys))
    cases zs with
    | nil =>
      rw [htied y] at hy
      cases hy
    | cons z zs =>
      have hz := h.mem_tied_self (List.mem_cons_self (a := z) (l := zs))
      rw [htied y] at hy
      rw [← htied z] at hz
      have hzy : (cmp z y).isLE = true := h.isLE_of_mem_cons hzs (List.mem_filter.mp hy).1
      have hyz : (cmp y z).isLE = true := h.isLE_of_mem_cons hys (List.mem_filter.mp hz).1
      have hleast : cmp y z = .eq := h.eq_of_isLE hyz hzy
      have hfirst : y :: tied cmp y ys = z :: tied cmp y zs := by
        have hclass := htied y
        simpa [tied, h.refl, hleast] using hclass
      obtain ⟨rfl, -⟩ := List.cons.inj hfirst
      have hrest : ∀ a, tied cmp a ys = tied cmp a zs := by
        intro a
        have hclass := htied a
        by_cases ha : cmp a y = .eq
        · simpa [tied, ha] using hclass
        · simpa [tied, ha] using hclass
      rw [ih hys.of_cons hzs.of_cons hrest]

end Value.TotalPreorder

/-- A list has one stable sort. -/
theorem StableSort.eq (h : Value.TotalPreorder cmp) (hys : StableSort cmp xs ys)
    (hzs : StableSort cmp xs zs) : ys = zs :=
  h.eq_of_tied_eq hys.ascends hzs.ascends fun a => (hys.tied_eq a).trans (hzs.tied_eq a).symm

theorem stableSort_self (h : Ascends cmp xs) : StableSort cmp xs xs :=
  ⟨List.Perm.refl xs, h, fun _ => rfl⟩

end StableSort

/-! ### Comparisons that act -/

variable {σ α β : Type} {S : World σ → World σ → Prop}

/-- The act answers `a` in every world, and the part `S` of the world is then as it was. -/
def Act.Gives (S : World σ → World σ → Prop) (act : Act σ α) (a : α) : Prop :=
  ∀ w, (act.run w).result = .ok a ∧ S w (act.run w).world

namespace Act

theorem gives_pure (hS : Equivalence S) (a : α) : (pure a : Act σ α).Gives S a :=
  fun w => ⟨rfl, hS.refl w⟩

theorem Gives.bind (hS : Equivalence S) {act : Act σ α} {next : α → Act σ β} {a : α} {b : β}
    (hact : act.Gives S a) (hnext : (next a).Gives S b) : (act >>= next).Gives S b := by
  intro w
  obtain ⟨hresult, hworld⟩ := hact w
  obtain ⟨hresult', hworld'⟩ := hnext (act.run w).world
  rw [run_bind, hresult]
  exact ⟨hresult', hS.trans hworld hworld'⟩

theorem eq_pure_of_gives {act : Act σ α} {a : α} (h : act.Gives Eq a) : act = pure a := by
  ext w
  obtain ⟨hresult, hworld⟩ := h w
  calc act.run w = ⟨(act.run w).result, (act.run w).world⟩ := rfl
    _ = ⟨.ok a, w⟩ := by rw [hresult, ← hworld]

end Act

namespace Comparison

variable {compare : Comparison σ} {cmp : Value → Value → Ordering}

/-- The comparison answers as `cmp` does whatever the world, and keeps the part `S` of it. -/
def Answers (S : World σ → World σ → Prop) (compare : Comparison σ)
    (cmp : Value → Value → Ordering) : Prop :=
  ∀ v w, (compare v w).Gives S (cmp v w)

section Answers

variable (hS : Equivalence S) (h : compare.Answers S cmp)
include hS h

theorem gives_merge (vs ws : List Value) :
    (compare.merge vs ws).Gives S (List.merge vs ws fun v w => (cmp v w).isLE) := by
  induction vs, ws using merge.induct with
  | case1 ws =>
    rw [merge, List.nil_merge]
    exact Act.gives_pure hS ws
  | case2 vs hvs =>
    rw [merge.eq_2 _ _ hvs, List.merge_right]
    exact Act.gives_pure hS vs
  | case3 v vs w ws ihv ihw =>
    rw [merge, List.cons_merge_cons]
    refine Act.Gives.bind hS (h v w) ?_
    by_cases hle : (cmp v w).isLE = true
    · rw [if_pos hle, if_pos hle]
      exact Act.Gives.bind hS ihv (Act.gives_pure hS _)
    · rw [if_neg hle, if_neg hle]
      exact Act.Gives.bind hS ihw (Act.gives_pure hS _)

/-- **A comparison that acts sorts as its answers do.** -/
theorem gives_sort (vs : List Value) :
    (compare.sort vs).Gives S (vs.mergeSort fun v w => (cmp v w).isLE) := by
  induction vs using sort.induct with
  | case1 =>
    rw [sort, List.mergeSort_nil]
    exact Act.gives_pure hS []
  | case2 v =>
    rw [sort, List.mergeSort_singleton]
    exact Act.gives_pure hS [v]
  | case3 v w rest half ihfront ihback =>
    rw [sort, List.mergeSort.eq_3, List.MergeSort.Internal.splitInTwo_fst,
      List.MergeSort.Internal.splitInTwo_snd]
    refine Act.Gives.bind hS ihfront ?_
    refine Act.Gives.bind hS ihback ?_
    exact gives_merge hS h _ _

end Answers

/-- A comparison that only answers leaves the world alone, and sorts as its answers do. -/
theorem sort_pure (vs : List Value) :
    (sort (fun v w => pure (cmp v w)) vs : Act σ (List Value)) =
      pure (vs.mergeSort fun v w => (cmp v w).isLE) :=
  Act.eq_pure_of_gives <|
    gives_sort eq_equivalence (fun v w => Act.gives_pure eq_equivalence (cmp v w)) vs

end Comparison

/-! ### Sorted queries -/

namespace Query

variable {q : Query σ} {w : World σ} {cmp : Value → Value → Ordering} {xs : List Value}

/-- The result is a stable sort of the elements, and the elements themselves if they ascend. -/
def SortsTo (cmp : Value → Value → Ordering) (xs : List Value)
    (result : Except Fault (List Value)) : Prop :=
  ∃ ys, result = .ok ys ∧ StableSort cmp xs ys ∧ (Ascends cmp xs → ys = xs)

theorem sortsTo_mergeSort (h : Value.TotalPreorder cmp) (xs : List Value) :
    SortsTo cmp xs (.ok (xs.mergeSort fun v w => (cmp v w).isLE)) := by
  have hstable := h.stableSort_mergeSort xs
  refine ⟨_, rfl, hstable, ?_⟩
  intro hsorted
  exact hstable.eq h (stableSort_self hsorted)

theorem sortBy_of_collect_ok (hcollect : (q.ask .collect w).result = .ok xs) :
    (q.sortBy cmp w).result = .ok (xs.mergeSort fun v w => (cmp v w).isLE) := by
  show (q.ask .collect w).result.map _ = _
  rw [hcollect]
  rfl

theorem sortBy_of_collect_error {fault : Fault}
    (hcollect : (q.ask .collect w).result = .error fault) :
    (q.sortBy cmp w).result = .error fault := by
  show (q.ask .collect w).result.map _ = _
  rw [hcollect]
  rfl

theorem sortByActing_of_collect_ok {compare : Comparison σ}
    (hcollect : (q.ask .collect w).result = .ok xs) :
    (q.sortByActing compare w).result =
      ((compare.sort xs).run (q.ask .collect w).world).result := by
  rw [sortByActing]
  simp only [hcollect]

theorem sortByActing_of_collect_error {compare : Comparison σ} {fault : Fault}
    (hcollect : (q.ask .collect w).result = .error fault) :
    q.sortByActing compare w = q.ask .collect w := by
  rw [sortByActing]
  simp only [hcollect]

theorem sortByActing_pure (q : Query σ) (cmp : Value → Value → Ordering) (w : World σ) :
    q.sortByActing (fun u v => pure (cmp u v)) w = q.sortBy cmp w := by
  rw [sortByActing, sortBy, Run.map]
  simp only [Comparison.sort_pure, Act.run_pure]
  cases q.ask .collect w with
  | mk result query world => cases result <;> rfl

/-- **Sorting a query is a stable sort of its elements.**  So it is in the order of values, by
    any total preorder, and by a comparison that acts and whose answers are those of one: sorting
    permutes the elements so that they ascend, keeps those that compare equal in the order of
    their arrival, and leaves elements that ascend already as they are.  A query that fails to
    collect its elements fails in the same way, and what it leaves behind does not depend on the
    comparison: that is never called. -/
theorem sort_stable (q : Query σ) (w : World σ) :
    (∀ xs, (q.ask .collect w).result = .ok xs →
      SortsTo Value.order xs (q.sort w).result ∧
      (∀ cmp, Value.TotalPreorder cmp → SortsTo cmp xs (q.sortBy cmp w).result) ∧
      (∀ compare cmp, Value.TotalPreorder cmp → Comparison.Answers World.Any compare cmp →
        SortsTo cmp xs (q.sortByActing compare w).result)) ∧
    (∀ fault, (q.ask .collect w).result = .error fault →
      (q.sort w).result = .error fault ∧
      (∀ cmp, (q.sortBy cmp w).result = .error fault) ∧
      (∀ compare, q.sortByActing compare w = q.ask .collect w)) ∧
    (∀ cmp, q.sortByActing (fun u v => pure (cmp u v)) w = q.sortBy cmp w) := by
  refine ⟨?_, ?_, fun cmp => q.sortByActing_pure cmp w⟩
  · intro xs hcollect
    have hsortBy : ∀ cmp, Value.TotalPreorder cmp → SortsTo cmp xs (q.sortBy cmp w).result := by
      intro cmp hcmp
      rw [sortBy_of_collect_ok hcollect]
      exact sortsTo_mergeSort hcmp xs
    refine ⟨hsortBy Value.order Value.totalPreorder_of_transCmp, hsortBy, ?_⟩
    intro compare cmp hcmp hanswers
    have hany : Equivalence (World.Any : World σ → World σ → Prop) :=
      ⟨fun _ => trivial, fun _ => trivial, fun _ _ => trivial⟩
    obtain ⟨hresult, -⟩ := Comparison.gives_sort hany hanswers xs (q.ask .collect w).world
    rw [sortByActing_of_collect_ok hcollect, hresult]
    exact sortsTo_mergeSort hcmp xs
  · intro fault hcollect
    exact ⟨sortBy_of_collect_error hcollect, fun cmp => sortBy_of_collect_error hcollect,
      fun compare => sortByActing_of_collect_error hcollect⟩

/-- Two records around two numbers, sorted by a comparison that counts how often it is asked; and
    a query that fails on its second element. -/
theorem sort_stable_counting :
    let counting : Comparison Nat := fun u v =>
      { run := fun w => ⟨.ok (u.order v), { w with state := w.state + 1 }⟩
        supply_le := fun w => Nat.le_refl w.supply }
    let fails : Predicate Nat := fun v => match v with
      | .undefined => .fail (.callback "no value")
      | _ => .ofExcept (.ok true)
    let items := [.record 0 .empty, .number (.ofInt 2), .record 1 .empty, .number (.ofInt 1)]
    let q : Query Nat := .ofSource items {}
    let failing : Query Nat := (ofSource [.null, .undefined] {}).addAll [.filter fails]
    ((q.ask .collect ⟨2, 0⟩).result = .ok items ∧
      Value.TotalPreorder Value.order ∧ Comparison.Answers World.Any counting Value.order ∧
      SortsTo Value.order items (q.sort ⟨2, 0⟩).result ∧
      SortsTo Value.order items (q.sortByActing counting ⟨2, 0⟩).result) ∧
    ((failing.ask .collect ⟨0, 0⟩).result = .error (.callback "no value") ∧
      (failing.sort ⟨0, 0⟩).result = .error (.callback "no value") ∧
      failing.sortByActing counting ⟨0, 0⟩ = failing.ask .collect ⟨0, 0⟩) := by
  intro counting fails items q failing
  obtain ⟨hok, -, -⟩ := sort_stable q ⟨2, 0⟩
  obtain ⟨-, herror, -⟩ := sort_stable failing ⟨0, 0⟩
  have hcollect : (q.ask .collect ⟨2, 0⟩).result = .ok items := by rfl
  have hfails : (failing.ask .collect ⟨0, 0⟩).result = .error (.callback "no value") := by rfl
  have horder : Value.TotalPreorder Value.order := Value.totalPreorder_of_transCmp
  have hanswers : Comparison.Answers World.Any counting Value.order :=
    fun _ _ _ => ⟨rfl, trivial⟩
  obtain ⟨hsort, -, hacting⟩ := hok items hcollect
  obtain ⟨hsortFails, -, hactingFails⟩ := herror _ hfails
  exact ⟨⟨hcollect, horder, hanswers, hsort, hacting counting _ horder hanswers⟩,
    hfails, hsortFails, hactingFails counting⟩

end Query

end FusedQuery
