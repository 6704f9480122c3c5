/-
  FusedQuery/Terminal/Question.lean
  =================================
  **What can be asked of a query,** before anything has arrived.

  A question holds what the asker chose and nothing else; `start` is the terminal that has seen
  no element yet.
-/
import FusedQuery.Terminal.Basic

namespace FusedQuery

/-- A question with an answer of type `ρ`.  A search answers with the position of what it looks
    for, or -1; an extremum is the earliest of its rank, and an element whose rank is NaN has
    none; a fold starts from a seed, or from the first element; invoking calls a method of every
    element, or every element itself. -/
inductive Question (σ : Type) : Type → Type 1 where
  | collect : Question σ (List Value)
  | head : Question σ Value                          -- `undefined` if there is no element
  | each (visit : Value → Act σ Unit) : Question σ Unit
  | count (test : Predicate σ) : Question σ Counts
  | length : Question σ UInt64
  | contains (target : Target σ) : Question σ Bool
  | every (test : Predicate σ) : Question σ Bool
  | indexOf (target : Target σ) : Question σ Int64
  | groupBy (key : Transform σ) : Question σ Groups
  | extremum (rank : Value → Act σ Number) (pick : Pick) : Question σ (Option Value)
  | reduce (fold : Value → Value → Act σ Value) (seed? : Option Value) : Question σ Value
  | invoke (host : Host σ) (method? : Option String) : Question σ Unit

namespace Question

variable {σ ρ : Type}

/-- The terminal of a question, before its first element. -/
def start : Question σ ρ → Terminal σ ρ
  | .collect => .collect #[]
  | .head => .head none
  | .each visit => .each visit
  | .count test => .count test {}
  | .length => .length 0
  | .contains target => .contains target false
  | .every test => .every test true
  | .indexOf target => .indexOf target 0 none
  | .groupBy key => .groupBy key []
  | .extremum rank pick => .extremum rank pick none
  | .reduce fold seed? => .reduce fold seed?
  | .invoke host method? => .invoke host method?

end Question

end FusedQuery
