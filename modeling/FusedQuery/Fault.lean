/-
  FusedQuery/Fault.lean
  =====================
  **What can end a query without an answer.**
-/
import FusedQuery.Value.Kind

namespace FusedQuery

/-- The causes for which a query, or one step of it, fails.  An element is not invocable if it
    has no function under the name of a method, or, without a name, if it is none itself. -/
inductive Fault where
  | emptyReduce                               -- a fold without a seed saw no element
  | callback (message : String)               -- a callback failed, with a message of its own
  | notInvocable (method? : Option String)
  | unhashableKey (kind : Kind)               -- a grouping key was a reference
deriving DecidableEq, Repr

namespace Fault

def message : Fault → String
  | .emptyReduce => "reduce of empty sequence with no initial value"
  | .callback message => "callback failed: " ++ message
  | .notInvocable method? => "item has no invocable method '" ++ method?.getD "<self>" ++ "'"
  | .unhashableKey kind => "cannot group by a " ++ kind.name ++ " key"

end Fault

end FusedQuery
