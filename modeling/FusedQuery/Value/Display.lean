/-
  FusedQuery/Value/Display.lean
  =============================
  **The display text of values.**

  Numbers are written in their shortest decimal form and texts in quotes; lists stand in
  brackets, records in braces after their class name.  Class and field names are written as
  they are.
-/
import FusedQuery.Value.Basic
import FusedQuery.Number.Decimal
import FusedQuery.Text.Quoted

namespace FusedQuery.Value

mutual

def display : Value → String
  | .undefined => "undefined"
  | .null => "null"
  | .bool b => if b then "true" else "false"
  | .number n => n.text
  | .text s => Text.quoted s
  | .list _ items => "[" ++ ", ".intercalate (displayItems items) ++ "]"
  | .record _ ⟨name?, fields⟩ =>
    (match name? with
      | some name => name ++ " "
      | none => "")
      ++ "\x7b" ++ ", ".intercalate (displayFields fields) ++ "\x7d"
  | .func _ => "<func>"

def displayItems : List Value → List String
  | [] => []
  | v :: vs => display v :: displayItems vs

def displayFields : List (String × Value) → List String
  | [] => []
  | (name, v) :: rest => (name ++ ": " ++ display v) :: displayFields rest

end

end FusedQuery.Value
