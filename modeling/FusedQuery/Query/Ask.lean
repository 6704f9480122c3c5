/-
  FusedQuery/Query/Ask.lean
  =========================
  **Asking a query.**

  `ask` puts a question to a query.  The last element, the sorted elements and a sample of them
  need all elements first; they ask for those and work on the answer, so a query that fails
  fails them in the same way.
-/
import FusedQuery.Query.Drawing
import FusedQuery.Query.Operator
import FusedQuery.Terminal.Question
import FusedQuery.Value.Order

namespace FusedQuery

namespace Query

variable {σ ρ : Type}

def ask (q : Query σ) (question : Question σ ρ) (world : World σ) : Run σ ρ :=
  q.run question.start world

def last (q : Query σ) (world : World σ) : Run σ (Option Value) :=
  (q.ask .collect world).map List.getLast?

/-- The elements in the order of a comparison.  Elements that it finds equal keep the order in
    which they arrived. -/
def sortBy (q : Query σ) (compare : Value → Value → Ordering) (world : World σ) :
    Run σ (List Value) :=
  (q.ask .collect world).map fun items => items.mergeSort fun v w => (compare v w).isLE

def sort (q : Query σ) (world : World σ) : Run σ (List Value) := q.sortBy Value.order world

/-- Up to `n` elements at positions of their own, drawn at random. -/
def sample {γ : Type} [Drawing γ] (q : Query σ) (generator : γ) (n : UInt64) (world : World σ) :
    Run σ (List Value) :=
  (q.ask .collect world).map fun items =>
    let positions := Drawing.draw generator items.length (min n.toNat items.length)
    positions.map fun position => (items[position]?).getD .undefined

end Query

end FusedQuery
