/-
  FusedQuery/Proofs/Order/Total.lean
  ==================================
  **The order of values is a total preorder.**

  What the order sees of a value are its *head*, which is all of a value that is not in the items
  of a list, and those items.  Heads are told apart first: by kind, and within a kind by content.
  Values of one head are ordered by their items, as the lexicographic order of lists that the
  order itself induces (`order_eq_then`).

  So there is one induction, on the items of values (`forall_of_items`).  What it carries is
  `Composes`: from one value up to the next and on to a third, the order is that of the first
  step, or of the second if the first is none.
-/
import FusedQuery.Proofs.Number.Parts
import FusedQuery.Proofs.Value.Parts
import FusedQuery.Value.Order

namespace FusedQuery

/-! ### Orders that compose -/

section Composes

variable {α : Type} {cmp first second : α → α → Ordering}

/-- Going up from `a` to `b` and on to `c` is going up from `a` to `c`, by the first of the two
    steps that is one. -/
def Composes (cmp : α → α → Ordering) (a b c : α) : Prop :=
  (cmp a b).isLE = true → (cmp b c).isLE = true → cmp a c = (cmp a b).then (cmp b c)

theorem composes_of_transCmp [Std.TransCmp cmp] (a b c : α) : Composes cmp a b c := by
  intro hab hbc
  cases h : cmp a b with
  | lt =>
    cases h' : cmp b c with
    | lt => exact Std.TransCmp.lt_trans h h'
    | eq => exact Std.TransCmp.lt_of_lt_of_eq h h'
    | gt =>
      rw [h'] at hbc
      cases hbc
  | eq => exact Std.TransCmp.congr_left h
  | gt =>
    rw [h] at hab
    cases hab

/-- One order after another composes if both do. -/
theorem Composes.then {a b c : α} (hfirst : Composes first a b c)
    (hsecond : Composes second a b c) :
    Composes (fun v w => (first v w).then (second v w)) a b c := by
  intro hab hbc
  obtain ⟨hfirstLeft, hleft⟩ := Ordering.isLE_then_iff_and.mp hab
  obtain ⟨hfirstRight, hright⟩ := Ordering.isLE_then_iff_and.mp hbc
  have hthen := hfirst hfirstLeft hfirstRight
  simp only [hthen]
  cases h : first a b with
  | lt => rfl
  | eq =>
    rw [h] at hleft
    have hle : (second a b).isLE = true := by simpa using hleft
    cases h' : first b c with
    | lt =>
      cases h'' : second a b with
      | lt => rfl
      | eq => rfl
      | gt =>
        rw [h''] at hle
        cases hle
    | eq =>
      rw [h'] at hright
      exact hsecond hle (by simpa using hright)
    | gt =>
      rw [h'] at hfirstRight
      cases hfirstRight
  | gt =>
    rw [h] at hfirstLeft
    cases hfirstLeft

/-- A lexicographic order composes on lists of what the order itself composes on. -/
theorem composes_compareLex {xs : List α} (h : ∀ x ∈ xs, ∀ y z, Composes cmp x y z)
    (ys zs : List α) : Composes (List.compareLex cmp) xs ys zs := by
  induction xs generalizing ys zs with
  | nil =>
    intro hab hbc
    cases ys with
    | nil => rfl
    | cons y ys =>
      cases zs with
      | nil => cases hbc
      | cons z zs => rfl
  | cons x xs ih =>
    intro hab hbc
    cases ys with
    | nil => cases hab
    | cons y ys =>
      cases zs with
      | nil => cases hbc
      | cons z zs =>
        obtain ⟨hx, hxs⟩ := List.forall_mem_cons.mp h
        have hhead : Composes (fun v w : List α × α => cmp v.2 w.2) (xs, x) (ys, y) (zs, z) :=
          hx y z
        have htail : Composes (fun v w : List α × α => List.compareLex cmp v.1 w.1)
            (xs, x) (ys, y) (zs, z) := ih hxs ys zs
        simp only [List.compareLex_cons_cons] at hab hbc ⊢
        exact (hhead.then htail) hab hbc

/-- A lexicographic order turns around on lists of what the order itself turns around on. -/
theorem compareLex_swap {xs : List α} (h : ∀ x ∈ xs, ∀ y, cmp y x = (cmp x y).swap)
    (ys : List α) : List.compareLex cmp ys xs = (List.compareLex cmp xs ys).swap := by
  induction xs generalizing ys with
  | nil => cases ys <;> rfl
  | cons x xs ih =>
    cases ys with
    | nil => rfl
    | cons y ys =>
      obtain ⟨hx, hxs⟩ := List.forall_mem_cons.mp h
      rw [List.compareLex_cons_cons, List.compareLex_cons_cons, Ordering.swap_then, hx y, ih hxs]

/-- A proper beginning of a list comes before it. -/
theorem compareLex_append_right [Std.ReflCmp cmp] (front : List α) (x : α) (rest : List α) :
    List.compareLex cmp front (front ++ x :: rest) = .lt := by
  induction front with
  | nil => rfl
  | cons y front ih =>
    have hself : cmp y y = .eq := Std.ReflCmp.compare_self
    rw [List.cons_append, List.compareLex_cons_cons, hself, ih]
    rfl

end Composes

theorem Kind.place_inj {k l : Kind} (h : k.place = l.place) : k = l := by
  cases k <;> cases l <;> cases h <;> rfl

namespace Value

/-! ### Heads and items -/

/-- What the order sees of values without the items of lists. -/
def orderHead : Value → Value → Ordering :=
  compareLex (compareOn fun v => v.kind.place)
    (compareLex (compareOn asBool?)
      (compareLex (compareOn fun v => v.asNumber?.map Number.place) (compareOn asText?)))

instance : Std.TransCmp orderHead :=
  inferInstanceAs (Std.TransCmp (compareLex (compareOn fun v : Value => v.kind.place)
    (compareLex (compareOn asBool?)
      (compareLex (compareOn fun v => v.asNumber?.map Number.place) (compareOn asText?)))))

theorem orderItems_eq_compareLex (vs ws : List Value) :
    orderItems vs ws = List.compareLex order vs ws := by
  induction vs generalizing ws with
  | nil => cases ws <;> rfl
  | cons v vs ih =>
    cases ws with
    | nil => rfl
    | cons w ws => rw [orderItems, List.compareLex_cons_cons, ih]

/-- **The order of two values is that of their heads, and then that of their items.** -/
theorem order_eq_then (v w : Value) :
    v.order w = (v.orderHead w).then (List.compareLex order v.items w.items) := by
  have hlast : ∀ o : Ordering, o = (o.then .eq).then .eq := by
    intro o
    rw [Ordering.then_eq, Ordering.then_eq]
  cases v with
  | bool a =>
    cases w with
    | bool b => exact hlast (compare a b)
    | _ => rfl
  | number m =>
    cases w with
    | number n => exact hlast (m.order n)
    | _ => rfl
  | text s =>
    cases w with
    | text t => exact Ordering.then_eq.symm
    | _ => rfl
  | list _ xs =>
    cases w with
    | list _ ys => exact orderItems_eq_compareLex xs ys
    | _ => rfl
  | _ => cases w <;> rfl

/-! ### The laws -/

theorem order_swap (v w : Value) : w.order v = (v.order w).swap := by
  induction v using forall_of_items generalizing w with
  | h v ih =>
    have hhead : orderHead w v = (orderHead v w).swap := Std.OrientedCmp.eq_swap
    rw [order_eq_then, order_eq_then v, Ordering.swap_then, compareLex_swap ih, hhead]

theorem order_composes (u v w : Value) : Composes order u v w := by
  induction u using forall_of_items generalizing v w with
  | h u ih =>
    have hhead : Composes orderHead u v w := composes_of_transCmp u v w
    have hitems : Composes (fun a b : Value => List.compareLex order a.items b.items) u v w :=
      composes_compareLex ih v.items w.items
    have hboth := hhead.then hitems
    simp only [← order_eq_then] at hboth
    exact hboth

instance : Std.TransCmp order where
  eq_swap := order_swap _ _
  isLE_trans := by
    intro u v w huv hvw
    rw [order_composes u v w huv hvw, Ordering.isLE_then_iff_and]
    exact ⟨huv, Or.inr hvw⟩

/-- What makes a function that compares a total preorder: nothing is told apart from itself, what
    comes first does so seen from either side, going up twice is going up, and what is not told
    apart compares alike to everything. -/
structure TotalPreorder {α : Type} (cmp : α → α → Ordering) : Prop where
  refl (a : α) : cmp a a = .eq
  swap (a b : α) : cmp b a = (cmp a b).swap
  trans (a b c : α) : (cmp a b).isLE = true → (cmp b c).isLE = true → (cmp a c).isLE = true
  congr (a b c : α) : cmp a b = .eq → cmp a c = cmp b c

theorem totalPreorder_of_transCmp {α : Type} {cmp : α → α → Ordering} [Std.TransCmp cmp] :
    TotalPreorder cmp where
  refl := fun _ => Std.ReflCmp.compare_self
  swap := fun _ _ => Std.OrientedCmp.eq_swap
  trans := fun _ _ _ => Std.TransCmp.isLE_trans
  congr := fun _ _ _ => Std.TransCmp.congr_left

theorem order_of_kind_ne {v w : Value} (h : v.kind ≠ w.kind) :
    v.order w = v.kind.order w.kind ∧ v.kind.order w.kind ≠ .eq := by
  have hkinds : v.kind.order w.kind ≠ .eq := by
    intro heq
    exact h (Kind.place_inj (Nat.compare_eq_eq.mp heq))
  refine ⟨?_, hkinds⟩
  rw [order_eq_then]
  show ((v.kind.order w.kind).then _).then _ = v.kind.order w.kind
  cases horder : v.kind.order w.kind with
  | lt => rfl
  | eq => exact absurd horder hkinds
  | gt => rfl

/-- **The order of values is a total preorder.**  It goes by kind first.  Numbers it takes in the
    total order of IEEE 754, and lists in the lexicographic order that it induces itself, so
    that a proper beginning comes first. -/
theorem order_totalPreorder :
    TotalPreorder order ∧
    (∀ v w : Value, v.kind ≠ w.kind →
      v.order w = v.kind.order w.kind ∧ v.kind.order w.kind ≠ .eq) ∧
    (∀ m n : Number, (number m).order (number n) = m.order n) ∧
    Number.IsTotalOrder Number.order ∧
    (∀ r r' xs ys, (list r xs).order (list r' ys) = List.compareLex order xs ys) ∧
    (∀ r r' front v rest, (list r front).order (list r' (front ++ v :: rest)) = .lt) := by
  refine ⟨totalPreorder_of_transCmp, ?_, ?_, Number.isTotalOrder_order, ?_, ?_⟩
  · intro v w h
    exact order_of_kind_ne h
  · intro m n
    rfl
  · intro r r' xs ys
    exact orderItems_eq_compareLex xs ys
  · intro r r' front v rest
    show orderItems front (front ++ v :: rest) = .lt
    rw [orderItems_eq_compareLex]
    exact compareLex_append_right front v rest

/-- Three lists, of which the first differs from the others in the sign of a zero and the second
    is where the third begins; and a value of another kind. -/
theorem order_totalPreorder_lists :
    let low := list 0 [list 1 [number (.ofParts true 0)], record 2 .empty]
    let mid := list 3 [list 4 [number .zero]]
    let high := list 5 [list 4 [number .zero], func 6]
    ((low.order mid).isLE = true ∧ (mid.order high).isLE = true ∧ (low.order high).isLE = true) ∧
      Value.null.kind ≠ low.kind ∧ Value.null.order low = .lt := by
  intro low mid high
  obtain ⟨hpreorder, hkinds, _, _, _, hlonger⟩ := order_totalPreorder
  have hlow : (low.order mid).isLE = true := by decide
  have hbeginning : mid.order high = .lt := hlonger 3 5 [list 4 [number .zero]] (func 6) []
  have hmid : (mid.order high).isLE = true := by
    rw [hbeginning]
    rfl
  have hkind : Value.null.kind ≠ low.kind := by decide
  exact ⟨⟨hlow, hmid, hpreorder.trans low mid high hlow hmid⟩, hkind, (hkinds _ _ hkind).1⟩

end Value

end FusedQuery
