/-
  FusedQuery/Proofs/Record/Written.lean
  =====================================
  **A record shows what was written to it.**

  A record is made by writing one field after the other, under names that may come again
  (`Record.written`).  Of the first write of a name it keeps the place, and of the last the
  content: the names are those written, each where it came first (`names_written`), and a name
  finds what its last write has put there (`get?_written_iff`).

  Nothing else of the writes is left, so two records that are written in different ways are
  equal as soon as their last writes are (`equal_written_iff`).
-/
import FusedQuery.Proofs.Value.Equality
import Mathlib.Data.Finset.Card

namespace FusedQuery

namespace Record

variable {α : Type}

/-- A record without fields, with or without a class. -/
def start (class? : Option String) : Record α := class?.elim empty ofClass

/-- The record that comes of writing fields one after the other. -/
def written (class? : Option String) (writes : List (String × α)) : Record α :=
  writes.foldl (fun r write => r.insert write.1 write.2) (start class?)

/-- The last write of the name writes the content. -/
def LastWrite (writes : List (String × α)) (name : String) (content : α) : Prop :=
  ∃ before after, writes = before ++ (name, content) :: after ∧ name ∉ after.map Prod.fst

/-- How a record shows the writes that it comes of. -/
structure Shows (r : Record α) (class? : Option String) (writes : List (String × α)) : Prop where
  class? : r.class? = class?
  names : r.names = (writes.map Prod.fst).eraseDups
  distinct : r.names.Nodup
  fields (name : String) (content : α) :
    (name, content) ∈ r.fields ↔ LastWrite writes name content
  found (name : String) (content : α) :
    r.get? name = some content ↔ (name, content) ∈ r.fields
  missing (name : String) : r.get? name = none ↔ name ∉ writes.map Prod.fst
  size : r.size = (writes.map Prod.fst).toFinset.card
  isEmpty : r.isEmpty = true ↔ r.size = 0

/-! ### Last writes -/

variable {class? : Option String} {writes : List (String × α)} {write : String × α}
  {name : String} {content : α}

theorem lastWrite_concat_self : LastWrite (writes ++ [write]) write.1 write.2 :=
  ⟨writes, [], rfl, List.not_mem_nil⟩

theorem lastWrite_concat_iff :
    LastWrite (writes ++ [write]) name content ↔
      if write.1 = name then write.2 = content else LastWrite writes name content := by
  constructor
  · rintro ⟨before, after, hsplit, hafter⟩
    rcases List.eq_nil_or_concat after with rfl | ⟨front, last, rfl⟩
    · obtain ⟨-, hlast⟩ := List.append_inj' hsplit rfl
      obtain rfl := (List.cons.inj hlast).1
      rw [if_pos rfl]
    · rw [List.concat_eq_append, ← List.cons_append, ← List.append_assoc] at hsplit
      obtain ⟨hwrites, hlast⟩ := List.append_inj' hsplit rfl
      obtain rfl := (List.cons.inj hlast).1
      rw [List.concat_eq_append, List.map_append, List.mem_append, not_or] at hafter
      have hne : ¬ write.1 = name := fun heq => hafter.2 (heq ▸ List.mem_cons_self)
      rw [if_neg hne]
      exact ⟨before, front, hwrites, hafter.1⟩
  · split
    · next hname =>
      rintro rfl
      exact hname ▸ lastWrite_concat_self
    · next hname =>
      rintro ⟨before, after, rfl, hafter⟩
      refine ⟨before, after ++ [write], List.append_assoc _ _ _, ?_⟩
      rw [List.map_append, List.mem_append, not_or]
      refine ⟨hafter, ?_⟩
      intro hmem
      exact hname (List.mem_singleton.mp hmem).symm

/-! ### One write after the other -/

theorem written_concat (class? : Option String) (writes : List (String × α))
    (write : String × α) :
    written class? (writes ++ [write]) = (written class? writes).insert write.1 write.2 :=
  List.foldl_concat _ _ _ _

theorem class?_written (class? : Option String) (writes : List (String × α)) :
    (written class? writes).class? = class? := by
  induction writes using List.reverseRecOn with
  | nil => cases class? <;> rfl
  | append_singleton writes write ih =>
    rw [written_concat]
    exact ih

theorem grown_written (class? : Option String) (writes : List (String × α)) :
    (written class? writes).Grown := by
  induction writes using List.reverseRecOn with
  | nil => cases class? <;> exact .new _
  | append_singleton writes write ih =>
    rw [written_concat]
    exact .insert ih write.1 write.2

/-- The names stand where they were written first. -/
theorem names_written (class? : Option String) (writes : List (String × α)) :
    (written class? writes).names = (writes.map Prod.fst).eraseDups := by
  induction writes using List.reverseRecOn with
  | nil => cases class? <;> rfl
  | append_singleton writes write ih =>
    have hput := map_fst_put write.1 write.2 (written class? writes).fields
    change ((written class? writes).insert write.1 write.2).names =
      if write.1 ∈ (written class? writes).names then (written class? writes).names
      else (written class? writes).names ++ [write.1] at hput
    rw [written_concat, hput, ih, List.map_append, List.map_singleton, eraseDups_concat]
    simp only [List.mem_eraseDups]

theorem mem_names_written :
    name ∈ (written class? writes).names ↔ name ∈ writes.map Prod.fst := by
  rw [names_written, List.mem_eraseDups]

/-- A name finds what was written to it last. -/
theorem get?_written_iff :
    (written class? writes).get? name = some content ↔ LastWrite writes name content := by
  induction writes using List.reverseRecOn with
  | nil =>
    apply iff_of_false
    · cases class? <;> nofun
    · rintro ⟨before, after, hsplit, -⟩
      cases before <;> cases hsplit
  | append_singleton writes write ih =>
    rw [written_concat, get?_insert, lastWrite_concat_iff]
    split
    · exact Option.some_inj
    · exact ih

/-- **A record shows what was written to it.** -/
theorem shows_written (class? : Option String) (writes : List (String × α)) :
    (written class? writes).Shows class? writes where
  class? := class?_written class? writes
  names := names_written class? writes
  distinct := (grown_written class? writes).nodup_names
  fields := by
    intro name content
    have hnodup := (grown_written class? writes).nodup_names
    exact (find?_eq_some_iff hnodup).symm.trans get?_written_iff
  found := by
    intro name content
    exact find?_eq_some_iff (grown_written class? writes).nodup_names
  missing := by
    intro name
    have hnamed : (∃ content, (written class? writes).get? name = some content) ↔
        name ∈ (written class? writes).names := exists_find?_iff
    rw [mem_names_written, ← Option.isSome_iff_exists] at hnamed
    rw [← hnamed]
    exact Option.not_isSome_iff_eq_none.symm
  size := by
    have hnodup := (grown_written class? writes).nodup_names
    have hsame : (writes.map Prod.fst).toFinset = (written class? writes).names.toFinset := by
      ext name
      rw [List.mem_toFinset, List.mem_toFinset, mem_names_written]
    rw [hsame, List.toFinset_card_of_nodup hnodup]
    exact (List.length_map _).symm
  isEmpty := List.isEmpty_iff_length_eq_zero

example : (written (some "P") [("x", 1), ("y", 2), ("x", 3)]).fields = [("x", 3), ("y", 2)] := by
  decide

end Record

namespace Value

open Record (written LastWrite)

/-- Two records are equal if their last writes are, in whatever order they came. -/
theorem equal_written_iff {r r' : Ref} {class? class?' : Option String}
    {writes writes' : List (String × Value)} :
    (record r (written class? writes)).equal (record r' (written class?' writes')) = true ↔
      class? = class?' ∧
      (∀ name, name ∈ writes.map Prod.fst ↔ name ∈ writes'.map Prod.fst) ∧
      ∀ name v w, LastWrite writes name v → LastWrite writes' name w → v.equal w = true := by
  have hshows := Record.shows_written class? writes
  have hshows' := Record.shows_written class?' writes'
  rw [equal_record_iff hshows.distinct hshows'.distinct]
  simp only [hshows.class?, hshows'.class?, Record.mem_names_written, hshows.fields,
    hshows'.fields]

/-- **A record is an insertion-ordered map.**  It shows the writes it comes of, each name once,
    where it was written first, with what was written to it last; and it is equal to a record
    that was written in another way if and only if both have the same class and the same names,
    with equal contents written last. -/
theorem records_keep_last_writes (class? : Option String) (writes : List (String × Value)) :
    (written class? writes).Shows class? writes ∧
      ∀ (r r' : Ref) (class?' : Option String) (writes' : List (String × Value)),
        (record r (written class? writes)).equal (record r' (written class?' writes')) = true ↔
          class? = class?' ∧
          (∀ name, name ∈ writes.map Prod.fst ↔ name ∈ writes'.map Prod.fst) ∧
          ∀ name v w, LastWrite writes name v → LastWrite writes' name w → v.equal w = true :=
  ⟨Record.shows_written class? writes, fun _ _ _ _ => equal_written_iff⟩

end Value

end FusedQuery
