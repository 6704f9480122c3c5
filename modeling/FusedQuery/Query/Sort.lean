/-
  FusedQuery/Query/Sort.lean
  ==========================
  **Sorting by a comparison that acts.**

  A comparison may act as other callbacks do, for instance keep count of what it is asked.  It is
  then put to pairs of elements one after the other, and the elements are merged as it answers:
  first the two halves are sorted, then they are merged, and of elements that are found equal
  that of the first half goes first.

  A comparison that only answers sorts as `sortBy` does, which needs no world for it.
-/
import FusedQuery.Query.Ask

namespace FusedQuery

variable {σ : Type}

abbrev Comparison (σ : Type) := Value → Value → Act σ Ordering

namespace Comparison

/-- Two sorted lists as one.  The comparison is asked about the first elements left of both. -/
def merge (compare : Comparison σ) : List Value → List Value → Act σ (List Value)
  | [], ws => return ws
  | vs, [] => return vs
  | v :: vs, w :: ws => do
    if (← compare v w).isLE then
      return v :: (← merge compare vs (w :: ws))
    else
      return w :: (← merge compare (v :: vs) ws)

def sort (compare : Comparison σ) : List Value → Act σ (List Value)
  | [] => return []
  | [v] => return [v]
  | v :: w :: rest => do
    let half := (rest.length + 3) / 2
    let front ← sort compare ((v :: w :: rest).take half)
    let back ← sort compare ((v :: w :: rest).drop half)
    merge compare front back
termination_by items => items.length
decreasing_by all_goals simp only [List.length_take, List.length_drop, List.length_cons]; omega

end Comparison

namespace Query

/-- The elements in the order of a comparison that acts.  It is asked nothing before all
    elements are there. -/
def sortByActing (q : Query σ) (compare : Comparison σ) (world : World σ) :
    Run σ (List Value) :=
  let run := q.ask .collect world
  match run.result with
  | .error _ => run
  | .ok items =>
    let reply := (compare.sort items).run run.world
    { result := reply.result, query := run.query, world := reply.world }

end Query

end FusedQuery
