/-
  FusedQuery/Value/Order.lean
  ===========================
  **The natural order of values.**

  Values of different kinds go by kind.  Booleans go false before true, numbers by the total
  order on their bits, texts by code points, lists item by item with a proper beginning first.
  All records are alike to this order, and so are all functions.
-/
import FusedQuery.Value.Basic

namespace FusedQuery.Value

mutual

def order : Value → Value → Ordering
  | .bool a, .bool b => compare a b
  | .number a, .number b => a.order b
  | .text a, .text b => compare a b
  | .list _ items, .list _ items' => orderItems items items'
  | v, w => v.kind.order w.kind

/-- The lexicographic order of lists. -/
def orderItems : List Value → List Value → Ordering
  | [], [] => .eq
  | [], _ :: _ => .lt
  | _ :: _, [] => .gt
  | v :: vs, w :: ws => (order v w).then (orderItems vs ws)

end

end FusedQuery.Value
