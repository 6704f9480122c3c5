/-
  FusedQuery/Value/Basic.lean
  ===========================
  **The elements of a query.**

  An element is a value of one of eight kinds.  Five are plain data.  Lists, records and
  functions are *references*: each is made once under an identity of its own, copies share the
  identity, and two made apart never do, whatever they hold.

  A function value is an identity and nothing more; what a call of it does is the business of
  whoever made it (`Host` in `FusedQuery.Effect`).
-/
import FusedQuery.Number.Basic
import FusedQuery.Record
import FusedQuery.Value.Kind

namespace FusedQuery

/-- The identity of a list, a record or a function. -/
abbrev Ref := Nat

/-- One element of a query. -/
inductive Value where
  | undefined
  | null
  | bool (b : Bool)
  | number (n : Number)
  | text (s : String)
  | list (ref : Ref) (items : List Value)
  | record (ref : Ref) (content : Record Value)
  | func (ref : Ref)
deriving Inhabited

namespace Value

def kind : Value → Kind
  | .undefined => .undefined
  | .null => .null
  | .bool _ => .bool
  | .number _ => .number
  | .text _ => .text
  | .list .. => .list
  | .record .. => .record
  | .func _ => .func

/-! ### Contents, for values of the right kind -/

def isReference (v : Value) : Bool := v.kind.isReference

def isUndefined : Value → Bool
  | .undefined => true
  | _ => false

def asBool? : Value → Option Bool
  | .bool b => some b
  | _ => none

def asNumber? : Value → Option Number
  | .number n => some n
  | _ => none

def asText? : Value → Option String
  | .text s => some s
  | _ => none

def asList? : Value → Option (List Value)
  | .list _ items => some items
  | _ => none

def asRecord? : Value → Option (Record Value)
  | .record _ content => some content
  | _ => none

def ref? : Value → Option Ref
  | .list ref _ | .record ref _ | .func ref => some ref
  | _ => none

/-- The class name of a record; nothing else has one. -/
def class? : Value → Option String
  | .record _ content => content.class?
  | _ => none

/-- The content of a field: `undefined` where there is no such field, or no record. -/
def get (v : Value) (field : String) : Value :=
  match v with
  | .record _ content => (content.get? field).getD .undefined
  | _ => .undefined

end Value

end FusedQuery
