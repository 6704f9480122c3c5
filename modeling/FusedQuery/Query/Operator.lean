/-
  FusedQuery/Query/Operator.lean
  ==============================
  **What a query can be extended by.**

  An operator is what its writer asks for; `add` picks the stage for it.  Bounds and positions
  may be negative here, which selects nothing.
-/
import FusedQuery.Query.Basic

namespace FusedQuery

/-- A step in the building of a query.  Pairing puts `undefined` where the other list has ended;
    a slice without `end?` runs to the last element. -/
inductive Operator (σ : Type) where
  | filter (test : Predicate σ)
  | reject (test : Predicate σ)
  | filterBy (field : String) (value : Value)
  | map (change : Transform σ)
  | zip (other : List Value)
  | skip (n : UInt64)
  | slice (start : Int64) (end? : Option Int64)
  | first
  | firstWhere (test : Predicate σ)
  | take (n : UInt64)
  | get (n : Int64)
  | ofClass (name : String)
  | ofKind (kind : Kind)
  | uniq                                             -- references repeat by identity
  | uniqBy (eq : Equality σ)                         -- references repeat as the equality says

namespace Query

variable {σ : Type}

/-- The bound of a slice that runs to the last element. -/
def openBound : UInt64 := 0xffffffffffffffff

/-- Extend the query by a slice.  One that keeps everything needs no stage. -/
def addSlice (q : Query σ) (start : Int64) (end? : Option Int64) : Query σ :=
  if start < 0 || end?.any (· < 0) then q.push .halt
  else if start = 0 && end?.isNone then q
  else q.push (.slice start.toUInt64 ((end?.map Int64.toUInt64).getD openBound) 0)

/-- Extend the query by one element's position.  Position 0 is the first element. -/
def addGet (q : Query σ) (n : Int64) : Query σ :=
  if n < 0 then q.push .halt
  else if n = 0 then q.push (.first none)
  else q.push (.get n.toUInt64 0)

def add (q : Query σ) : Operator σ → Query σ
  | .filter test => q.pushFusible (.filter test)
  | .reject test => q.push (.reject test)
  | .filterBy field value => q.push (.filterBy field value)
  | .map change => q.pushFusible (.map change)
  | .zip other => q.push (.zip other 0)
  | .skip n => q.push (.skip n)
  | .slice start end? => q.addSlice start end?
  | .first => q.push (.first none)
  | .firstWhere test => q.push (.first (some test))
  | .take n => q.push (.take n 0)
  | .get n => q.addGet n
  | .ofClass name => q.push (.ofClass name)
  | .ofKind kind => q.push (.ofKind kind)
  | .uniq => q.push (.uniq none {})
  | .uniqBy eq => q.push (.uniq (some eq) {})

def addAll (q : Query σ) (operators : List (Operator σ)) : Query σ := operators.foldl add q

end Query

end FusedQuery
