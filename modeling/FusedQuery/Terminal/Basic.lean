/-
  FusedQuery/Terminal/Basic.lean
  ==============================
  **The terminals: what a query is asked for.**

  A terminal stands behind the last stage for one run, takes in what reaches it, and has the
  answer at the end.  `Terminal σ ρ` is a terminal whose answer is a `ρ`.  Its arguments are
  what was asked, followed by what it has gathered so far.
-/
import FusedQuery.Effect
import FusedQuery.Key
import FusedQuery.Value.Equality

namespace FusedQuery

/-- The answer of `count`: the elements that arrived, and those of them that passed the test. -/
structure Counts where
  total : UInt64 := 0
  num : UInt64 := 0
deriving DecidableEq, Repr

/-- Elements by key, the keys in the order of their first arrival. -/
abbrev Groups := List (Key × List Value)

namespace Groups

/-- One more element, at the end of its key's group or as the first of a new group at the
    end. -/
def add (key : Key) (item : Value) : Groups → Groups
  | [] => [(key, [item])]
  | group :: rest =>
    if group.1 = key then (key, group.2 ++ [item]) :: rest else group :: add key item rest

end Groups

/-- What a search looks for: a value, a value in a field, or what passes a test. -/
inductive Target (σ : Type) where
  | value (wanted : Value)
  | field (name : String) (wanted : Value)
  | test (holds : Predicate σ)

def Target.holds {σ : Type} : Target σ → Value → Act σ Bool
  | .value wanted, item => return item.same wanted
  | .field name wanted, item => return (item.get name).same wanted
  | .test holds, item => holds item

inductive Pick where
  | min
  | max
deriving DecidableEq, Repr

namespace Pick

def name : Pick → String
  | .min => "min"
  | .max => "max"

/-- Whether a rank is strictly nearer to the end looked for than the best so far. -/
def better (pick : Pick) (rank best : Number) : Bool :=
  match pick with
  | .min => rank.below best
  | .max => best.below rank

end Pick

/-- A question to the stream of elements that leave the last stage, with what is known of the
    answer so far. -/
inductive Terminal (σ : Type) : Type → Type 1 where
  | collect (items : Array Value) : Terminal σ (List Value)
  | head (item? : Option Value) : Terminal σ Value
  | each (visit : Value → Act σ Unit) : Terminal σ Unit
  | count (test : Predicate σ) (counts : Counts) : Terminal σ Counts
  | length (n : UInt64) : Terminal σ UInt64
  | contains (target : Target σ) (found : Bool) : Terminal σ Bool
  | every (test : Predicate σ) (passed : Bool) : Terminal σ Bool
  | indexOf (target : Target σ) (pos : UInt64) (found? : Option UInt64) : Terminal σ Int64
  | groupBy (key : Transform σ) (groups : Groups) : Terminal σ Groups
  | extremum (rank : Value → Act σ Number) (pick : Pick) (best? : Option (Number × Value)) :
      Terminal σ (Option Value)
  | reduce (fold : Value → Value → Act σ Value) (acc? : Option Value) : Terminal σ Value
  | invoke (host : Host σ) (method? : Option String) : Terminal σ Unit

namespace Terminal

variable {σ ρ : Type}

def canStop : Terminal σ ρ → Bool
  | .head _ | .contains .. | .every .. | .indexOf .. => true
  | _ => false

def name : Terminal σ ρ → String
  | .collect _ => "collect"
  | .head _ => "value"
  | .each _ => "each"
  | .count .. => "count"
  | .length _ => "length"
  | .contains .. => "contains"
  | .every .. => "every"
  | .indexOf .. => "index_of"
  | .groupBy .. => "group_by"
  | .extremum _ pick _ => pick.name
  | .reduce .. => "reduce"
  | .invoke .. => "invoke"

/-- The answer after the last element.  Only a fold may lack one. -/
def finish : Terminal σ ρ → Except Fault ρ
  | .collect items => .ok items.toList
  | .head item? => .ok (item?.getD .undefined)
  | .each _ => .ok ()
  | .count _ counts => .ok counts
  | .length n => .ok n
  | .contains _ found => .ok found
  | .every _ passed => .ok passed
  | .indexOf _ _ found? => .ok (match found? with
    | some pos => pos.toInt64
    | none => -1)
  | .groupBy _ groups => .ok groups
  | .extremum _ _ best? => .ok (best?.map Prod.snd)
  | .reduce _ acc? => match acc? with
    | some acc => .ok acc
    | none => .error .emptyReduce
  | .invoke .. => .ok ()

end Terminal

end FusedQuery
