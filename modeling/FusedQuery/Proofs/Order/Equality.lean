/-
  FusedQuery/Proofs/Order/Equality.lean
  =====================================
  **Where the order of values and their equality part.**

  Both go down through the items of lists, the order by lexicographic comparison and equality
  item by item, so they can part only at what is not a list.  There they do in two ways:

    * 0 and -0 are equal, but have places of their own in the order.  Without -0, what is equal
      is not told apart by the order (`order_eq_of_equal`);
    * NaN has a place in the order but is equal to nothing, and the order does not look into
      records and functions.  Without these, what the order does not tell apart is equal
      (`equal_of_order_eq`).
-/
import FusedQuery.Proofs.Order.Total
import FusedQuery.Proofs.Value.Equality

namespace FusedQuery

namespace Number

variable {m n : Number}

def negativeZero : Number := ofParts true 0

theorem eq_negativeZero (hsign : n.negative = true) (hmagnitude : n.magnitude = 0) :
    n = negativeZero := by
  apply ext_parts
  · rw [hsign]
    rfl
  · rw [hmagnitude]
    rfl

/-- Equal numbers are one, but for the two zeros. -/
theorem eq_of_equal (h : m.equal n = true) (hm : m ≠ negativeZero) (hn : n ≠ negativeZero) :
    m = n := by
  obtain ⟨-, -, hordinal⟩ := equal_iff.mp h
  by_cases hzero : m.magnitude = 0
  · have hzero' : n.magnitude = 0 := by
      rw [← ordinal_eq_zero_iff, ← hordinal, ordinal_eq_zero_iff, hzero]
    have hsign : m.negative = false :=
      Bool.eq_false_iff.mpr fun hsign => hm (eq_negativeZero hsign hzero)
    have hsign' : n.negative = false :=
      Bool.eq_false_iff.mpr fun hsign => hn (eq_negativeZero hsign hzero')
    exact ext_parts (hsign.trans hsign'.symm) (hzero.trans hzero'.symm)
  · exact eq_of_ordinal_eq hzero hordinal

end Number

/-- A lexicographic order does not tell two lists apart if and only if the lists have one length
    and the order itself does not tell their items apart, place by place. -/
theorem compareLex_eq_eq_iff {α : Type} {cmp : α → α → Ordering} {xs ys : List α} :
    List.compareLex cmp xs ys = .eq ↔ List.Forall₂ (fun x y => cmp x y = .eq) xs ys := by
  induction xs generalizing ys with
  | nil => cases ys <;> simp [List.compareLex]
  | cons x xs ih =>
    cases ys with
    | nil => simp [List.compareLex]
    | cons y ys =>
      rw [List.compareLex_cons_cons, Ordering.then_eq_eq, List.forall₂_cons, ih]

namespace Value

variable {v w : Value}

/-- No item at any depth of lists is -0. -/
def WithoutNegativeZero (v : Value) : Prop :=
  v.Throughout items fun u => u ≠ .number .negativeZero

/-- No item at any depth of lists is NaN, a record or a function. -/
def OrderedByContent (v : Value) : Prop :=
  v.Throughout items fun u => u.isNaN = false ∧ u.kind ≠ .record ∧ u.kind ≠ .func

theorem order_list_eq_iff {r r' : Ref} {xs ys : List Value} :
    (list r xs).order (list r' ys) = .eq ↔
      List.Forall₂ (fun x y => x.order y = .eq) xs ys := by
  show orderItems xs ys = .eq ↔ _
  rw [orderItems_eq_compareLex, compareLex_eq_eq_iff]

theorem kind_eq_of_order_eq (h : v.order w = .eq) : v.kind = w.kind := by
  by_contra hkind
  obtain ⟨horder, hne⟩ := order_of_kind_ne hkind
  exact hne (horder.symm.trans h)

theorem eq_list_of_kind (h : v.kind = .list) : ∃ r xs, v = list r xs := by
  cases v with
  | list r xs => exact ⟨r, xs, rfl⟩
  | _ => cases h

/-! ### Where there are no items -/

/-- Booleans and texts of one content are one value, and so are functions of one identity. -/
theorem eq_of_same (h : v.same w = true) (hnumber : v.kind ≠ .number) (hlist : v.kind ≠ .list)
    (hrecord : v.kind ≠ .record) : v = w := by
  cases v <;> cases w <;> simp_all [same, kind]

theorem order_eq_of_same (h : v.same w = true) (hlist : v.kind ≠ .list)
    (hrecord : v.kind ≠ .record) (hv : v ≠ .number .negativeZero)
    (hw : w ≠ .number .negativeZero) : v.order w = .eq := by
  cases v with
  | number m =>
    cases w with
    | number n =>
      have hm : m ≠ .negativeZero := fun heq => hv (congrArg number heq)
      have hn : n ≠ .negativeZero := fun heq => hw (congrArg number heq)
      exact Number.isTotalOrder_order.eq_iff.mpr (Number.eq_of_equal h hm hn)
    | _ => cases h
  | list r xs => exact absurd rfl hlist
  | record r c => exact absurd rfl hrecord
  | _ =>
    obtain rfl := eq_of_same h nofun nofun nofun
    exact Std.ReflCmp.compare_self

theorem eq_of_order_eq (h : v.order w = .eq) (hlist : v.kind ≠ .list)
    (hrecord : v.kind ≠ .record) (hfunc : v.kind ≠ .func) : v = w := by
  have hkind := kind_eq_of_order_eq h
  cases v <;> cases w <;> try cases hkind
  case bool.bool.refl a b => rw [Std.LawfulEqOrd.eq_of_compare (a := a) (b := b) h]
  case number.number.refl m n => rw [Number.isTotalOrder_order.eq_iff.mp h]
  case text.text.refl s t => rw [Std.LawfulEqOrd.eq_of_compare (a := s) (b := t) h]
  case list.list.refl => exact absurd rfl hlist
  case record.record.refl => exact absurd rfl hrecord
  case func.func.refl => exact absurd rfl hfunc
  all_goals rfl

/-! ### All the way down -/

theorem order_eq_of_equal (h : v.equal w = true) (hv : v.WithoutNegativeZero)
    (hw : w.WithoutNegativeZero) : v.order w = .eq := by
  induction v using forall_of_items generalizing w with
  | h v ih =>
    obtain ⟨r, xs, rfl⟩ | ⟨r, c, rfl⟩ | ⟨hlist, hrecord⟩ := v.list_or_record_or_flat
    · obtain ⟨r', ys, rfl⟩ := eq_list_of_equal h
      rw [equal_list] at h
      rw [order_list_eq_iff]
      apply forall₂_imp_of_mem h
      intro x hx y hy hxy
      exact ih x hx hxy (hv.of_mem hx) (hw.of_mem hy)
    · obtain ⟨r', d, rfl⟩ := eq_record_of_equal h
      rfl
    · rw [equal_eq_same hlist hrecord] at h
      exact order_eq_of_same h hlist hrecord hv.self hw.self

/-- It is enough that one of the values is ordered by content.  What the other has in the places
    of the items is of the same kind, and a number is the same number. -/
theorem equal_of_order_eq (h : v.order w = .eq) (hv : v.OrderedByContent) : v.equal w = true := by
  induction v using forall_of_items generalizing w with
  | h v ih =>
    obtain ⟨hnan, hrecord, hfunc⟩ := hv.self
    by_cases hlist : v.kind = .list
    · obtain ⟨r, xs, rfl⟩ := eq_list_of_kind hlist
      obtain ⟨r', ys, rfl⟩ := eq_list_of_kind ((kind_eq_of_order_eq h).symm.trans hlist)
      rw [order_list_eq_iff] at h
      rw [equal_list]
      apply forall₂_imp_of_mem h
      intro x hx y _ hxy
      exact ih x hx hxy (hv.of_mem hx)
    · obtain rfl := eq_of_order_eq h hlist hrecord hfunc
      rw [equal_eq_same hlist hrecord]
      exact same_self hnan

/-- **The order and equality agree but for their known exceptions.**  Equal values are not told
    apart by the order unless -0 is in one of them, at any depth of lists; and values that are not
    told apart are equal unless NaN, a record or a function is in them. -/
theorem order_agrees_equal :
    (∀ v w : Value, v.equal w = true → v.WithoutNegativeZero → w.WithoutNegativeZero →
      v.order w = .eq) ∧
    ∀ v w : Value, v.order w = .eq → v.OrderedByContent → v.equal w = true :=
  ⟨fun _ _ => order_eq_of_equal, fun _ _ => equal_of_order_eq⟩

/-- Two lists with one record each, where zeros of either sign stand in a field; and two lists of
    lists. -/
theorem order_agrees_equal_lists :
    let v := list 0 [number .zero, record 1 (Record.empty.insert "x" (number .zero))]
    let w := list 2 [number .zero, record 3 (Record.empty.insert "x" (number .negativeZero))]
    let nested := list 4 [list 5 [number .negativeZero], text "a"]
    let apart := list 6 [list 7 [number .negativeZero], text "a"]
    (v.equal w = true ∧ v.WithoutNegativeZero ∧ w.WithoutNegativeZero ∧ v.order w = .eq) ∧
      nested.order apart = .eq ∧ nested.OrderedByContent ∧ nested.equal apart = true := by
  intro v w nested apart
  obtain ⟨horder, hequal⟩ := order_agrees_equal
  have hne : Number.zero ≠ .negativeZero := by decide
  have hzero : (number .zero).WithoutNegativeZero :=
    throughout_iff.mpr ⟨fun heq => hne (number.inj heq), nofun⟩
  have hrecord (r : Ref) (c : Record Value) : (record r c).WithoutNegativeZero :=
    throughout_iff.mpr ⟨nofun, nofun⟩
  have hlist (r s : Ref) (c : Record Value) :
      (list r [number .zero, record s c]).WithoutNegativeZero :=
    throughout_iff.mpr ⟨nofun,
      List.forall_mem_cons.mpr ⟨hzero, List.forall_mem_singleton.mpr (hrecord s c)⟩⟩
  have hnumber : (number .negativeZero).OrderedByContent :=
    throughout_iff.mpr ⟨by decide, nofun⟩
  have hinner : (list 5 [number .negativeZero]).OrderedByContent :=
    throughout_iff.mpr ⟨by decide, List.forall_mem_singleton.mpr hnumber⟩
  have htext : (text "a").OrderedByContent := throughout_iff.mpr ⟨by decide, nofun⟩
  have hnested : nested.OrderedByContent :=
    throughout_iff.mpr ⟨by decide,
      List.forall_mem_cons.mpr ⟨hinner, List.forall_mem_singleton.mpr htext⟩⟩
  have hvw : v.equal w = true := by decide
  have htied : nested.order apart = .eq := by decide
  exact ⟨⟨hvw, hlist 0 1 _, hlist 2 3 _, horder v w hvw (hlist 0 1 _) (hlist 2 3 _)⟩,
    htied, hnested, hequal nested apart htied hnested⟩

end Value

end FusedQuery
