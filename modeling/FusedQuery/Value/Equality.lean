/-
  FusedQuery/Value/Equality.lean
  ==============================
  **Two equalities of values.**

    * `same` is what queries use: plain data by content, references by identity.
    * `equal` compares content all the way down: lists item by item, records field by field
      under the same names in any order; functions still by identity.

  Numbers are compared numerically in both, so NaN is neither the same as nor equal to itself.
-/
import FusedQuery.Value.Basic

namespace FusedQuery.Value

/-- Plain data by content, references by identity. -/
def same : Value → Value → Bool
  | .undefined, .undefined => true
  | .null, .null => true
  | .bool a, .bool b => decide (a = b)
  | .number a, .number b => a.equal b
  | .text a, .text b => decide (a = b)
  | .list a _, .list b _ => decide (a = b)
  | .record a _, .record b _ => decide (a = b)
  | .func a, .func b => decide (a = b)
  | _, _ => false

mutual

/-- Equality of content.  Records have equal classes and as many fields, and each field of the
    one is found with an equal content in the other. -/
def equal : Value → Value → Bool
  | .list _ items, .list _ items' => equalItems items items'
  | .record _ ⟨name, fields⟩, .record _ ⟨name', fields'⟩ =>
    decide (name = name') && decide (fields.length = fields'.length)
      && equalFields fields fields'
  | v, w => v.same w

/-- Lists of one length with equal items at every position. -/
def equalItems : List Value → List Value → Bool
  | [], [] => true
  | v :: vs, w :: ws => equal v w && equalItems vs ws
  | _, _ => false

/-- Every field of the first list is found, with an equal content, in the second. -/
def equalFields : List (String × Value) → List (String × Value) → Bool
  | [], _ => true
  | (name, v) :: rest, fields =>
    (match Record.find? name fields with
      | some w => equal v w
      | none => false)
      && equalFields rest fields

end

end FusedQuery.Value
