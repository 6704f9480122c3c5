/-
  FusedQuery/Stage/Fusion.lean
  ============================
  **Two neighbouring filters or maps as one stage.**

    last     new      together
    filter   filter   filterFilter
    filter   map      filterMap
    map      filter   mapFilter
    map      map      mapMap

  Nothing else merges: no stage that is merged already, and no `reject`.
-/
import FusedQuery.Stage.Basic

namespace FusedQuery

/-- A stage that may merge with the last one of a query. -/
inductive Fusible (σ : Type) where
  | filter (test : Predicate σ)
  | map (change : Transform σ)

variable {σ : Type}

def Fusible.stage : Fusible σ → Stage σ
  | .filter test => .filter test
  | .map change => .map change

namespace Stage

/-- The last stage of a query and a new one, merged if they can be. -/
def fuse? : Stage σ → Fusible σ → Option (Stage σ)
  | .filter early, .filter late => some (.filterFilter early late)
  | .filter test, .map change => some (.filterMap test change)
  | .map change, .filter test => some (.mapFilter change test)
  | .map early, .map late => some (.mapMap early late)
  | _, _ => none

end Stage

end FusedQuery
