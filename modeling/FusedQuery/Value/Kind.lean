/-
  FusedQuery/Value/Kind.lean
  ==========================
  **The kinds of values,** in their order.
-/

namespace FusedQuery

inductive Kind where
  | undefined
  | null
  | bool
  | number
  | text
  | list
  | record
  | func
deriving DecidableEq, Repr

namespace Kind

/-- Lists, records and functions are shared, and told apart by identity. -/
def isReference : Kind → Bool
  | .list | .record | .func => true
  | _ => false

def name : Kind → String
  | .undefined => "undefined"
  | .null => "null"
  | .bool => "bool"
  | .number => "number"
  | .text => "text"
  | .list => "list"
  | .record => "record"
  | .func => "func"

def place : Kind → Nat
  | .undefined => 0
  | .null => 1
  | .bool => 2
  | .number => 3
  | .text => 4
  | .list => 5
  | .record => 6
  | .func => 7

def order (a b : Kind) : Ordering := compare a.place b.place

end Kind

end FusedQuery
