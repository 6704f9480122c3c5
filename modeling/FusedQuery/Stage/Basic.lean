/-
  FusedQuery/Stage/Basic.lean
  ===========================
  **The stages of a query.**

  A stage takes one element and hands it on, perhaps changed, or drops it.  Its parameters are
  fixed when the query is built; some stages also carry what they learnt in the current run: a
  position, a count, or the elements already seen.  `reset` forgets that.
-/
import FusedQuery.Effect
import FusedQuery.Key

namespace FusedQuery

inductive Flow where
  | forward (item : Value)
  | drop
deriving Inhabited

namespace Flow

def forwardIf (condition : Bool) (item : Value) : Flow :=
  if condition then .forward item else .drop

end Flow

/-- The elements that a stage has handed on: plain data by key, references in full and in the
    order of their arrival. -/
structure Seen where
  keys : List Key := []
  refs : List Value := []

/-- One stage of a query.  A test or a transform that fails makes the step fail.  Of a merged
    stage's two callbacks, the second sees what the first has let through or has made.  The
    numbers that a stage counts itself stand last: `pos` elements came before, `taken` of them
    were handed on.

    A `uniq` hands on what repeats nothing that it handed on before: plain data repeats by key,
    references by the given equality, or by identity where none is given. -/
inductive Stage (σ : Type) where
  | filter (test : Predicate σ)
  | reject (test : Predicate σ)
  | filterBy (field : String) (value : Value)
  | map (change : Transform σ)
  | filterFilter (early late : Predicate σ)
  | filterMap (test : Predicate σ) (change : Transform σ)
  | mapFilter (change : Transform σ) (test : Predicate σ)
  | mapMap (early late : Transform σ)
  | zip (other : List Value) (pos : UInt64)          -- new pairs of elements of both lists
  | skip (count : UInt64)                            -- until all skips together dropped `count`
  | slice (start bound pos : UInt64)                 -- from `start` up to, and without, `bound`
  | first (test? : Option (Predicate σ))             -- the first, or the first to pass, and stop
  | take (limit taken : UInt64)                      -- the first `limit`, and stop
  | get (index pos : UInt64)                         -- the one at `index`, and stop
  | ofClass (name : String)
  | ofKind (kind : Kind)
  | uniq (eq? : Option (Equality σ)) (seen : Seen)
  | halt                                             -- none, and stop

namespace Stage

variable {σ : Type}

/-- The stage as it is before its first element. -/
def reset : Stage σ → Stage σ
  | .zip other _ => .zip other 0
  | .slice start bound _ => .slice start bound 0
  | .take limit _ => .take limit 0
  | .get index _ => .get index 0
  | .uniq eq? _ => .uniq eq? {}
  | stage => stage

def canStop : Stage σ → Bool
  | .slice .. | .first _ | .take .. | .get .. | .halt => true
  | _ => false

def isFused : Stage σ → Bool
  | .filterFilter .. | .filterMap .. | .mapFilter .. | .mapMap .. => true
  | _ => false

def name : Stage σ → String
  | .filter _ => "filter"
  | .reject _ => "reject"
  | .filterBy .. => "filter_by"
  | .map _ => "map"
  | .filterFilter .. => "filter+filter"
  | .filterMap .. => "filter+map"
  | .mapFilter .. => "map+filter"
  | .mapMap .. => "map+map"
  | .zip .. => "zip"
  | .skip _ => "skip"
  | .slice .. => "slice"
  | .first _ => "first"
  | .take .. => "take"
  | .get .. => "get"
  | .ofClass _ => "is"
  | .ofKind _ => "type_of"
  | .uniq .. => "uniq"
  | .halt => "halt"

end Stage

end FusedQuery
