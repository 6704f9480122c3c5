/-
  FusedQuery/Proofs/Value/Equality.lean
  =====================================
  **Equality of content is a partial equivalence, reflexive off NaN.**

  Lists are equal item by item.  A record is looked up in the other one, field by field, and the
  two are as long (`equal_record`).  That is one-sided, and it is symmetric only because a record
  made by insertion names no field twice: then the names of the one are, but for their order, the
  names of the other (`names_perm_of_equal`).  Transitivity needs nothing of the kind.

  All laws are proved by induction on what lies inside the value on the left.
-/
import FusedQuery.Proofs.Number.Parts
import FusedQuery.Proofs.Value.Parts
import Mathlib.Data.List.Forall2
import Mathlib.Data.List.Perm.Subperm

namespace FusedQuery.Value

variable {u v w : Value}

/-! ### Equality, kind by kind -/

theorem equalItems_iff {vs ws : List Value} :
    equalItems vs ws = true ↔ List.Forall₂ (fun v w => v.equal w = true) vs ws := by
  induction vs generalizing ws with
  | nil => cases ws <;> simp [equalItems]
  | cons v vs ih => cases ws <;> simp [equalItems, ih]

theorem equalFields_iff {fields fields' : List (String × Value)} :
    equalFields fields fields' = true ↔ ∀ name v, (name, v) ∈ fields →
      ∃ w, Record.find? name fields' = some w ∧ v.equal w = true := by
  induction fields with
  | nil => simp [equalFields]
  | cons field rest ih =>
    obtain ⟨name, v⟩ := field
    rw [equalFields, Bool.and_eq_true, ih]
    simp only [List.mem_cons, Prod.mk.injEq, or_imp, forall_and, and_imp, forall_eq_apply_imp_iff,
      forall_eq]
    refine and_congr_left fun _ => ?_
    cases Record.find? name fields' <;> simp

theorem equal_list {r r' : Ref} {xs ys : List Value} :
    (list r xs).equal (list r' ys) = true ↔
      List.Forall₂ (fun v w => v.equal w = true) xs ys := by
  rw [equal, equalItems_iff]

theorem equal_record {r r' : Ref} {c d : Record Value} :
    (record r c).equal (record r' d) = true ↔ c.class? = d.class? ∧
      c.fields.length = d.fields.length ∧
      ∀ name v, (name, v) ∈ c.fields → ∃ w, d.get? name = some w ∧ v.equal w = true := by
  simp only [equal, Bool.and_eq_true, decide_eq_true_eq, equalFields_iff, and_assoc]
  rfl

theorem equal_eq_same (hlist : v.kind ≠ .list) (hrecord : v.kind ≠ .record) :
    v.equal w = v.same w := by
  cases v with
  | list r xs => exact absurd rfl hlist
  | record r c => exact absurd rfl hrecord
  | _ => rw [equal] <;> simp

theorem equal_eq_same_right (hlist : v.kind ≠ .list) (hrecord : v.kind ≠ .record) :
    w.equal v = w.same v := by
  cases v with
  | list r xs => exact absurd rfl hlist
  | record r c => exact absurd rfl hrecord
  | _ => rw [equal] <;> simp

/-- The three ways in which a value is compared. -/
theorem list_or_record_or_flat (v : Value) :
    (∃ r xs, v = list r xs) ∨ (∃ r c, v = record r c) ∨
      v.kind ≠ .list ∧ v.kind ≠ .record := by
  cases v with
  | list r xs => exact Or.inl ⟨r, xs, rfl⟩
  | record r c => exact Or.inr (Or.inl ⟨r, c, rfl⟩)
  | _ => exact Or.inr (Or.inr ⟨nofun, nofun⟩)

theorem parts_of_flat (hlist : v.kind ≠ .list) (hrecord : v.kind ≠ .record) : v.parts = [] := by
  cases v with
  | list r xs => exact absurd rfl hlist
  | record r c => exact absurd rfl hrecord
  | _ => rfl

theorem eq_list_of_equal {r : Ref} {xs : List Value} (h : (list r xs).equal w = true) :
    ∃ r' ys, w = list r' ys := by
  cases w with
  | list r' ys => exact ⟨r', ys, rfl⟩
  | _ => simp [equal, same] at h

theorem eq_record_of_equal {r : Ref} {c : Record Value} (h : (record r c).equal w = true) :
    ∃ r' d, w = record r' d := by
  cases w with
  | record r' d => exact ⟨r', d, rfl⟩
  | _ => simp [equal, same] at h

/-! ### Plain values and functions -/

theorem same_comm (v w : Value) : v.same w = w.same v := by
  cases v <;> cases w <;> simp [same, Number.equal_comm, eq_comm]

theorem kind_eq_of_same (h : v.same w = true) : v.kind = w.kind := by
  cases v <;> cases w <;> first | rfl | cases h

theorem same_trans (h : u.same v = true) (h' : v.same w = true) : u.same w = true := by
  -- Off the diagonal nothing is the same; on it only numbers are not compared for being equal.
  cases u <;> cases v <;> try cases h
  all_goals cases w <;> try cases h'
  case number.number.number k m n => exact Number.equal_trans h h'
  all_goals simp_all [same]

theorem same_self (h : v.isNaN = false) : v.same v = true := by
  cases v with
  | number n => exact Number.equal_self_iff.mpr h
  | _ => simp [same]

/-! ### The laws -/

theorem forall₂_imp_of_mem {α β : Type} {R S : α → β → Prop} {xs : List α} {ys : List β}
    (hR : List.Forall₂ R xs ys) (h : ∀ x ∈ xs, ∀ y ∈ ys, R x y → S x y) :
    List.Forall₂ S xs ys := by
  induction hR with
  | nil => exact .nil
  | cons hxy hrest ih =>
    refine .cons (h _ (.head _) _ (.head _) hxy) (ih ?_)
    intro x hx y hy
    exact h x (.tail _ hx) y (.tail _ hy)

theorem exists_mem_fields {r : Ref} {c : Record Value} (h : u ∈ (record r c).parts) :
    ∃ name, (name, u) ∈ c.fields := by
  obtain ⟨⟨name, v⟩, hmem, rfl⟩ := List.mem_map.mp h
  exact ⟨name, hmem⟩

theorem mem_parts_of_mem_fields {r : Ref} {c : Record Value} {name : String}
    (h : (name, u) ∈ c.fields) : u ∈ (record r c).parts :=
  List.mem_map.mpr ⟨(name, u), h, rfl⟩

/-- Records of equal content have the same names, in some order. -/
theorem names_perm_of_equal {r r' : Ref} {c d : Record Value} (hc : c.names.Nodup)
    (h : (record r c).equal (record r' d) = true) : c.names.Perm d.names := by
  obtain ⟨-, hlength, hfound⟩ := equal_record.mp h
  have hsubset : c.names ⊆ d.names := by
    intro name hname
    obtain ⟨⟨_, v⟩, hmem, rfl⟩ := List.mem_map.mp hname
    obtain ⟨w, hw, -⟩ := hfound _ v hmem
    exact Record.exists_find?_iff.mp ⟨w, hw⟩
  have hshorter : d.names.length ≤ c.names.length := by
    simp only [Record.names, List.length_map]
    exact Nat.le_of_eq hlength.symm
  exact (List.subperm_of_subset hc hsubset).perm_of_length_le hshorter

theorem equal_symm (hv : v.WellMade) (h : v.equal w = true) : w.equal v = true := by
  induction v using forall_of_parts generalizing w with
  | h v ih =>
    obtain ⟨r, xs, rfl⟩ | ⟨r, c, rfl⟩ | ⟨hlist, hrecord⟩ := v.list_or_record_or_flat
    · obtain ⟨r', ys, rfl⟩ := eq_list_of_equal h
      rw [equal_list] at h ⊢
      apply List.Forall₂.flip
      apply forall₂_imp_of_mem h
      intro x hx y _ hxy
      exact ih x hx (hv.of_mem hx) hxy
    · obtain ⟨r', d, rfl⟩ := eq_record_of_equal h
      have hnodup := (hv.self c rfl).nodup_names
      have hnames := names_perm_of_equal hnodup h
      obtain ⟨hclass, hlength, hfound⟩ := equal_record.mp h
      rw [equal_record]
      refine ⟨hclass.symm, hlength.symm, ?_⟩
      intro name y hy
      have hd : d.get? name = some y :=
        (Record.find?_eq_some_iff (hnames.nodup_iff.mp hnodup)).mpr hy
      have hname : name ∈ c.names := hnames.mem_iff.mpr (List.mem_map.mpr ⟨_, hy, rfl⟩)
      obtain ⟨x, hx⟩ := Record.exists_find?_iff.mpr hname
      have hmem := Record.mem_of_find? hx
      obtain ⟨z, hz, hxz⟩ := hfound name x hmem
      cases hd.symm.trans hz
      have hpart := mem_parts_of_mem_fields (r := r) hmem
      exact ⟨x, hx, ih x hpart (hv.of_mem hpart) hxz⟩
    · rw [equal_eq_same hlist hrecord] at h
      rw [equal_eq_same_right hlist hrecord, same_comm]
      exact h

theorem equal_items_trans {xs ys zs : List Value}
    (h : List.Forall₂ (fun v w => v.equal w = true) xs ys)
    (h' : List.Forall₂ (fun v w => v.equal w = true) ys zs)
    (htrans : ∀ x ∈ xs, ∀ y z, x.equal y = true → y.equal z = true → x.equal z = true) :
    List.Forall₂ (fun v w => v.equal w = true) xs zs := by
  induction h generalizing zs with
  | nil => exact h'
  | cons hxy _ ih =>
    obtain ⟨hx, hxs⟩ := List.forall_mem_cons.mp htrans
    obtain _ | ⟨hyz, hrest⟩ := h'
    exact .cons (hx _ _ hxy hyz) (ih hrest hxs)

theorem equal_trans (h : u.equal v = true) (h' : v.equal w = true) : u.equal w = true := by
  induction u using forall_of_parts generalizing v w with
  | h u ih =>
    obtain ⟨r, xs, rfl⟩ | ⟨r, c, rfl⟩ | ⟨hlist, hrecord⟩ := u.list_or_record_or_flat
    · obtain ⟨_, ys, rfl⟩ := eq_list_of_equal h
      obtain ⟨_, zs, rfl⟩ := eq_list_of_equal h'
      rw [equal_list] at h h' ⊢
      exact equal_items_trans h h' fun x hx y z => ih x hx
    · obtain ⟨_, d, rfl⟩ := eq_record_of_equal h
      obtain ⟨_, e, rfl⟩ := eq_record_of_equal h'
      obtain ⟨hclass, hlength, hfound⟩ := equal_record.mp h
      obtain ⟨hclass', hlength', hfound'⟩ := equal_record.mp h'
      rw [equal_record]
      refine ⟨hclass.trans hclass', hlength.trans hlength', ?_⟩
      intro name x hx
      obtain ⟨y, hy, hxy⟩ := hfound name x hx
      obtain ⟨z, hz, hyz⟩ := hfound' name y (Record.mem_of_find? hy)
      exact ⟨z, hz, ih x (mem_parts_of_mem_fields hx) hxy hyz⟩
    · rw [equal_eq_same hlist hrecord] at h ⊢
      have hkind := kind_eq_of_same h
      rw [equal_eq_same (hkind ▸ hlist) (hkind ▸ hrecord)] at h'
      exact same_trans h h'

theorem exists_equal_of_mem {xs ys : List Value}
    (h : List.Forall₂ (fun v w => v.equal w = true) xs ys) (hu : u ∈ xs) :
    ∃ w, u.equal w = true := by
  induction h with
  | nil => cases hu
  | cons hxy _ ih =>
    obtain rfl | hu := List.mem_cons.mp hu
    · exact ⟨_, hxy⟩
    · exact ih hu

/-- Each part of what equals anything equals something itself. -/
theorem exists_equal_of_mem_parts (h : v.equal w = true) (hu : u ∈ v.parts) :
    ∃ y, u.equal y = true := by
  obtain ⟨r, xs, rfl⟩ | ⟨r, c, rfl⟩ | ⟨hlist, hrecord⟩ := v.list_or_record_or_flat
  · obtain ⟨_, ys, rfl⟩ := eq_list_of_equal h
    exact exists_equal_of_mem (equal_list.mp h) hu
  · obtain ⟨_, d, rfl⟩ := eq_record_of_equal h
    obtain ⟨name, hmem⟩ := exists_mem_fields hu
    obtain ⟨y, -, huy⟩ := (equal_record.mp h).2.2 name u hmem
    exact ⟨y, huy⟩
  · rw [parts_of_flat hlist hrecord] at hu
    cases hu

/-- What equals anything has no NaN inside. -/
theorem naNFree_of_equal (h : v.equal w = true) : v.NaNFree := by
  induction v using forall_of_parts generalizing w with
  | h v ih =>
    rw [NaNFree, throughout_iff]
    constructor
    · cases v with
      | number n =>
        rw [equal_eq_same (v := number n) nofun nofun] at h
        cases w with
        | number m => exact (Number.equal_iff.mp h).1
        | _ => cases h
      | _ => rfl
    · intro u hu
      obtain ⟨y, huy⟩ := exists_equal_of_mem_parts h hu
      exact ih u hu huy

theorem equal_self (hv : v.WellMade) (h : v.NaNFree) : v.equal v = true := by
  induction v using forall_of_parts with
  | h v ih =>
    have hparts : ∀ u ∈ v.parts, u.equal u = true :=
      fun u hu => ih u hu (hv.of_mem hu) (h.of_mem hu)
    obtain ⟨r, xs, rfl⟩ | ⟨r, c, rfl⟩ | ⟨hlist, hrecord⟩ := v.list_or_record_or_flat
    · exact equal_list.mpr (List.forall₂_same.mpr hparts)
    · refine equal_record.mpr ⟨rfl, rfl, ?_⟩
      intro name u hmem
      have hnodup := (hv.self c rfl).nodup_names
      have hfound := (Record.find?_eq_some_iff hnodup).mpr hmem
      exact ⟨u, hfound, hparts u (mem_parts_of_mem_fields hmem)⟩
    · rw [equal_eq_same hlist hrecord]
      exact same_self h.self

/-! ### Records -/

/-- Where no name comes twice, records are equal if they have the same class, the same names, and
    equal contents under each. -/
theorem equal_record_iff {r r' : Ref} {c d : Record Value} (hc : c.names.Nodup)
    (hd : d.names.Nodup) :
    (record r c).equal (record r' d) = true ↔ c.class? = d.class? ∧
      (∀ name, name ∈ c.names ↔ name ∈ d.names) ∧
      ∀ name v w, (name, v) ∈ c.fields → (name, w) ∈ d.fields → v.equal w = true := by
  constructor
  · intro h
    obtain ⟨hclass, -, hfound⟩ := equal_record.mp h
    refine ⟨hclass, fun name => (names_perm_of_equal hc h).mem_iff, ?_⟩
    intro name v w hv hw
    obtain ⟨z, hz, hvz⟩ := hfound name v hv
    cases hz.symm.trans ((Record.find?_eq_some_iff hd).mpr hw)
    exact hvz
  · rintro ⟨hclass, hnames, hcontents⟩
    have hperm : c.names.Perm d.names := (List.perm_ext_iff_of_nodup hc hd).mpr hnames
    have hlength := hperm.length_eq
    rw [Record.names, Record.names, List.length_map, List.length_map] at hlength
    refine equal_record.mpr ⟨hclass, hlength, ?_⟩
    intro name v hv
    have hname : name ∈ d.names := (hnames name).mp (List.mem_map.mpr ⟨_, hv, rfl⟩)
    obtain ⟨w, hw⟩ := Record.exists_find?_iff.mpr hname
    exact ⟨w, hw, hcontents name v w hv (Record.mem_of_find? hw)⟩

/-- The order of the fields does not count. -/
theorem equal_record_perm {r r' s s' : Ref} {c c' d d' : Record Value} (hc : c.names.Nodup)
    (hd : d.names.Nodup) (hclass : c.class? = c'.class?) (hclass' : d.class? = d'.class?)
    (hfields : c.fields.Perm c'.fields) (hfields' : d.fields.Perm d'.fields) :
    (record r c).equal (record s d) = (record r' c').equal (record s' d') := by
  have hnames : c.names.Perm c'.names := hfields.map Prod.fst
  have hnames' : d.names.Perm d'.names := hfields'.map Prod.fst
  rw [Bool.eq_iff_iff, equal_record_iff hc hd,
    equal_record_iff (hnames.nodup_iff.mp hc) (hnames'.nodup_iff.mp hd), hclass, hclass']
  simp only [hnames.mem_iff, hnames'.mem_iff, hfields.mem_iff, hfields'.mem_iff]

/-! ### The laws together -/

/-- An identity belongs to one value: whatever has it is the same, with the same content. -/
def OneContent (v w : Value) : Prop := ∀ r, v.ref? = some r → w.ref? = some r → v = w

theorem equal_of_same (hv : v.WellMade) (hnan : v.NaNFree) (hone : v.OneContent w)
    (h : v.same w = true) : v.equal w = true := by
  obtain ⟨r, xs, rfl⟩ | ⟨r, c, rfl⟩ | ⟨hlist, hrecord⟩ := v.list_or_record_or_flat
  · cases w with
    | list r' ys =>
      cases of_decide_eq_true h
      rw [← hone r rfl rfl]
      exact equal_self hv hnan
    | _ => cases h
  · cases w with
    | record r' d =>
      cases of_decide_eq_true h
      rw [← hone r rfl rfl]
      exact equal_self hv hnan
    | _ => cases h
  · rw [equal_eq_same hlist hrecord]
    exact h

/-- **Equality of content is a partial equivalence, and reflexive where there is no NaN.**
    Records are equal if they have equal classes and equal contents under the same names, in
    whatever order they were inserted.  What is the same is equal unless NaN is in it, and off
    lists and records nothing else is. -/
theorem equal_partialEquivalence :
    (∀ v w : Value, v.WellMade → v.equal w = true → w.equal v = true) ∧
    (∀ u v w : Value, u.equal v = true → v.equal w = true → u.equal w = true) ∧
    (∀ v : Value, v.WellMade → (v.equal v = true ↔ v.NaNFree)) ∧
    (∀ (r r' : Ref) (c d : Record Value), c.Grown → d.Grown →
      ((record r c).equal (record r' d) = true ↔ c.class? = d.class? ∧
        (∀ name, name ∈ c.names ↔ name ∈ d.names) ∧
        ∀ name v w, (name, v) ∈ c.fields → (name, w) ∈ d.fields → v.equal w = true)) ∧
    (∀ (r r' s s' : Ref) (c c' d d' : Record Value), c.Grown → d.Grown →
      c.class? = c'.class? → d.class? = d'.class? →
      c.fields.Perm c'.fields → d.fields.Perm d'.fields →
      (record r c).equal (record s d) = (record r' c').equal (record s' d')) ∧
    (∀ v w : Value, v.WellMade → v.NaNFree → v.OneContent w →
      v.same w = true → v.equal w = true) ∧
    ∀ v w : Value, v.kind ≠ .list → v.kind ≠ .record →
      v.equal w = v.same w ∧ w.equal v = w.same v := by
  refine ⟨fun v w => equal_symm, fun u v w => equal_trans, ?_, ?_, ?_, ?_, ?_⟩
  · intro v hv
    exact ⟨naNFree_of_equal, equal_self hv⟩
  · intro r r' c d hc hd
    exact equal_record_iff hc.nodup_names hd.nodup_names
  · intro r r' s s' c c' d d' hc hd
    exact equal_record_perm hc.nodup_names hd.nodup_names
  · intro v w
    exact equal_of_same
  · intro v w hlist hrecord
    exact ⟨equal_eq_same hlist hrecord, equal_eq_same_right hlist hrecord⟩

/-- Two records whose fields were inserted in different orders, with zeros of either sign; and a
    list that holds NaN. -/
theorem equal_partialEquivalence_records :
    let zero := number .zero
    let negative := number (.ofParts true 0)
    let content := ((Record.ofClass "P").insert "x" zero).insert "y" (list 1 [null])
    let other := ((Record.ofClass "P").insert "y" (list 2 [null])).insert "x" negative
    let p := record 3 content
    let q := record 4 other
    let broken := list 5 [number .nan]
    (p.WellMade ∧ p.equal q = true ∧ q.equal p = true ∧ p.equal p = true ∧ p.NaNFree) ∧
      (broken.WellMade ∧ broken.equal broken = false ∧ ¬ broken.NaNFree) ∧
      (content.Grown ∧ other.Grown ∧ ∀ name, name ∈ content.names ↔ name ∈ other.names) ∧
      (content.fields.reverse.Perm content.fields ∧
        (record 6 ⟨some "P", content.fields.reverse⟩).equal q = true) ∧
      (p.same p = true ∧ p.OneContent p ∧ p.equal p = true) ∧
      null.kind ≠ .list ∧ null.kind ≠ .record ∧ null.equal p = null.same p := by
  intro zero negative content other p q broken
  obtain ⟨hsymm, htrans, hself, hrecords, hperm, hsame, hflat⟩ := equal_partialEquivalence
  have hcontent : content.Grown := .insert (.insert (.new _) _ _) _ _
  have hother : other.Grown := .insert (.insert (.new _) _ _) _ _
  have hzero : zero.WellMade := throughout_iff.mpr ⟨nofun, nofun⟩
  have hlist : (list 1 [null]).WellMade :=
    throughout_iff.mpr
      ⟨nofun, List.forall_mem_singleton.mpr (throughout_iff.mpr ⟨nofun, nofun⟩)⟩
  have hp : p.WellMade := by
    refine throughout_iff.mpr ⟨?_, List.forall_mem_cons.mpr ⟨hzero, ?_⟩⟩
    · rintro _ ⟨⟩
      exact hcontent
    · exact List.forall_mem_singleton.mpr hlist
  have hbroken : broken.WellMade :=
    throughout_iff.mpr
      ⟨nofun, List.forall_mem_singleton.mpr (throughout_iff.mpr ⟨nofun, nofun⟩)⟩
  have hpq : p.equal q = true := by decide
  have hqp : q.equal p = true := hsymm p q hp hpq
  have hpp : p.equal p = true := htrans p q p hpq hqp
  have hnan : p.NaNFree := (hself p hp).mp hpp
  have hunequal : broken.equal broken = false := by decide
  have hfields : content.fields.reverse.Perm content.fields := List.reverse_perm _
  have hreordered :=
    hperm 3 6 4 4 content ⟨some "P", content.fields.reverse⟩ other other hcontent hother rfl rfl
      hfields.symm (List.Perm.refl _)
  refine ⟨⟨hp, hpq, hqp, hpp, hnan⟩, ⟨hbroken, hunequal, ?_⟩, ⟨hcontent, hother, ?_⟩,
    ⟨hfields, hreordered.symm.trans hpq⟩, ⟨by decide, fun _ _ _ => rfl, ?_⟩, nofun, nofun,
    (hflat null p nofun nofun).1⟩
  · intro hfree
    exact Bool.false_ne_true (hunequal.symm.trans ((hself broken hbroken).mpr hfree))
  · exact ((hrecords 3 4 content other hcontent hother).mp hpq).2.1
  · exact hsame p p hp hnan (fun _ _ _ => rfl) (by decide)

end FusedQuery.Value
