/-
  FusedQuery/Proofs/Record/Insertion.lean
  =======================================
  **Records grow by insertion.**

  A record starts without fields, with or without a class, and is written to field by field
  (`Record.Grown`).  A name that is written again keeps its place (`map_fst_put`), so no name
  comes twice (`Grown.nodup_names`).  Then a name finds the content that stands beside it, and
  no other (`find?_eq_some_iff`).
-/
import FusedQuery.Record
import Mathlib.Data.List.Nodup

namespace FusedQuery

/-- One more element at the end of a list of which the first of each is kept. -/
theorem eraseDups_concat {α : Type} [DecidableEq α] (xs : List α) (x : α) :
    (xs ++ [x]).eraseDups = if x ∈ xs then xs.eraseDups else xs.eraseDups ++ [x] := by
  rw [List.eraseDups_append]
  by_cases h : x ∈ xs
  · simp [List.removeAll, h]
  · simp [List.removeAll, h, List.eraseDups_cons]

namespace Record

variable {α : Type} {name : String} {content : α} {fields : List (String × α)}

/-! ### Reading a list of fields -/

theorem mem_of_find? (h : find? name fields = some content) : (name, content) ∈ fields := by
  induction fields with
  | nil => cases h
  | cons field rest ih =>
    by_cases hname : field.1 = name
    · rw [find?, if_pos hname] at h
      cases h
      rw [← hname]
      exact List.mem_cons_self
    · rw [find?, if_neg hname] at h
      exact List.mem_cons_of_mem field (ih h)

theorem exists_find?_iff :
    (∃ content, find? name fields = some content) ↔ name ∈ fields.map Prod.fst := by
  constructor
  · rintro ⟨content, h⟩
    exact List.mem_map.mpr ⟨(name, content), mem_of_find? h, rfl⟩
  · intro h
    induction fields with
    | nil => cases h
    | cons field rest ih =>
      by_cases hname : field.1 = name
      · exact ⟨field.2, by rw [find?, if_pos hname]⟩
      · rw [List.map_cons, List.mem_cons] at h
        rw [find?, if_neg hname]
        exact ih (h.resolve_left (Ne.symm hname))

/-- Where no name comes twice, a name finds what stands beside it. -/
theorem find?_eq_some_iff (hnodup : (fields.map Prod.fst).Nodup) :
    find? name fields = some content ↔ (name, content) ∈ fields := by
  refine ⟨mem_of_find?, ?_⟩
  intro hmem
  obtain ⟨other, hother⟩ := exists_find?_iff.mpr (List.mem_map_of_mem (f := Prod.fst) hmem)
  have hpair : ((name, content) : String × α) = (name, other) :=
    List.inj_on_of_nodup_map hnodup hmem (mem_of_find? hother) rfl
  rw [hother, (Prod.mk.inj hpair).2]

/-! ### Writing -/

theorem map_fst_put (name : String) (content : α) (fields : List (String × α)) :
    (put name content fields).map Prod.fst =
      if name ∈ fields.map Prod.fst then fields.map Prod.fst
      else fields.map Prod.fst ++ [name] := by
  induction fields with
  | nil => rfl
  | cons field rest ih =>
    by_cases hname : field.1 = name
    · simp [put, hname]
    · have hne : ¬ name = field.1 := Ne.symm hname
      simp only [put, if_neg hname, List.map_cons, ih, List.mem_cons, hne, false_or]
      split <;> rfl

theorem nodup_put (h : (fields.map Prod.fst).Nodup) (name : String) (content : α) :
    ((put name content fields).map Prod.fst).Nodup := by
  rw [map_fst_put]
  split
  · exact h
  · next hname => exact List.nodup_append_comm.mp (List.nodup_cons.mpr ⟨hname, h⟩)

/-- A record as one is made: without fields at first, and then written to. -/
inductive Grown : Record α → Prop
  | new (class? : Option String) : Grown { class? }
  | insert {r : Record α} (h : Grown r) (name : String) (content : α) :
    Grown (r.insert name content)

theorem Grown.nodup_names {r : Record α} (h : r.Grown) : r.names.Nodup := by
  induction h with
  | new class? => exact List.nodup_nil
  | insert h name content ih => exact nodup_put ih name content

end Record

end FusedQuery
