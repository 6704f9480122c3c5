/-
  FusedQuery/Proofs/Value/Parts.lean
  ==================================
  **What lies inside a value.**

  A value has `parts`: the items of a list, the contents of a record's fields.  The `items` are
  those of a list alone.  What holds of a value as soon as it holds of its parts holds of all
  values (`forall_of_parts`), and so for items (`forall_of_items`).

  Going down by either, from a value to a part of it and on, one reaches what the value contains
  (`Contains`).  Of all that at once speak `NaNFree` and `WellMade` (`Throughout`).
-/
import FusedQuery.Proofs.Record.Insertion
import FusedQuery.Value.Equality
import Mathlib.Logic.Relation

namespace FusedQuery.Value

def parts : Value → List Value
  | .list _ items => items
  | .record _ content => content.fields.map Prod.snd
  | _ => []

def items (v : Value) : List Value := v.asList?.getD []

theorem mem_parts_of_mem_items {u v : Value} (h : u ∈ v.items) : u ∈ v.parts := by
  cases v with
  | list r xs => exact h
  | _ => cases h

/-! ### Induction -/

theorem sizeOf_lt_of_mem_parts {u v : Value} (h : u ∈ v.parts) : sizeOf u < sizeOf v := by
  cases v with
  | list r xs =>
    have hlt : sizeOf u < sizeOf xs := List.sizeOf_lt_of_mem h
    simp only [list.sizeOf_spec]
    omega
  | record r content =>
    obtain ⟨⟨name, w⟩, hmem, rfl⟩ := List.mem_map.mp h
    have hlt : sizeOf (name, w) < sizeOf content.fields := List.sizeOf_lt_of_mem hmem
    cases content with
    | mk class? fields =>
      simp only [record.sizeOf_spec, Record.mk.sizeOf_spec, Prod.mk.sizeOf_spec] at hlt ⊢
      omega
  | _ => cases h

/-- Induction over values through the items of lists and the contents of records. -/
theorem forall_of_parts {P : Value → Prop} (h : ∀ v, (∀ u ∈ v.parts, P u) → P v) (v : Value) :
    P v := by
  apply h
  intro u hu
  exact forall_of_parts h u
termination_by sizeOf v
decreasing_by exact sizeOf_lt_of_mem_parts hu

/-- Induction over values through the items of lists. -/
theorem forall_of_items {P : Value → Prop} (h : ∀ v, (∀ u ∈ v.items, P u) → P v) (v : Value) :
    P v :=
  forall_of_parts (fun v ih => h v fun u hu => ih u (mem_parts_of_mem_items hu)) v

/-! ### What holds throughout a value -/

/-- From the one value the other is reached, by going down to a part any number of times. -/
def Contains (down : Value → List Value) : Value → Value → Prop :=
  Relation.ReflTransGen fun v u => u ∈ down v

/-- A property of a value and of all that it contains. -/
def Throughout (down : Value → List Value) (P : Value → Prop) (v : Value) : Prop :=
  ∀ u, Contains down v u → P u

section Throughout

variable {down : Value → List Value} {P : Value → Prop} {u v : Value}

theorem Throughout.self (h : Throughout down P v) : P v := h v .refl

theorem Throughout.of_mem (h : Throughout down P v) (hmem : u ∈ down v) : Throughout down P u :=
  fun w hinside => h w (.head hmem hinside)

theorem throughout_iff :
    Throughout down P v ↔ P v ∧ ∀ u ∈ down v, Throughout down P u := by
  constructor
  · intro h
    exact ⟨h.self, fun u hmem => h.of_mem hmem⟩
  · rintro ⟨hself, hparts⟩ w hinside
    obtain rfl | ⟨u, hmem, hinside⟩ := Relation.ReflTransGen.cases_head_iff.mp hinside
    · exact hself
    · exact hparts u hmem w hinside

end Throughout

def isNaN : Value → Bool
  | .number n => n.isNaN
  | _ => false

/-- No number at any depth is NaN. -/
def NaNFree (v : Value) : Prop := v.Throughout parts fun u => u.isNaN = false

/-- Every record at any depth was made by insertion.  Others cannot be made; as lists of fields
    they could name one twice. -/
def WellMade (v : Value) : Prop :=
  v.Throughout parts fun u => ∀ content, u.asRecord? = some content → content.Grown

end FusedQuery.Value
