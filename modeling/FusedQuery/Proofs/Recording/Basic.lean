/-
  FusedQuery/Proofs/Recording/Basic.lean
  ======================================
  **Which callbacks a run calls, in which order, and with which arguments.**

  An act may do anything to the state of the callbacks, so it may as well write down that it
  happened.  `Act.recorded` is an act that does what it did before and adds one `Call` to a
  record that is kept beside the state.  Recording every callback of what was added to a query,
  and of the terminal, makes the record at the end of a run the sequence of its calls.

  Nothing in a query reads a record (`Recording/Faithful.lean` shows that it does not disturb a
  run), and no statement about all states `σ` has to be proved again for recorded ones: it holds
  of `Recorded σ` as it stands.
-/
import FusedQuery.Query.Ask

namespace FusedQuery

variable {σ ρ α : Type}

/-- A call of a callback.  The place tells whose it is: that of what was added to the query, or
    of the terminal. -/
structure Call where
  place : Nat
  late : Bool     -- it is the second of the two callbacks of a merged stage
  arguments : List Value

/-- A state of the callbacks with a record of their calls, the earliest first. -/
structure Recorded (σ : Type) where
  state : σ
  calls : List Call

namespace World

def recorded (w : World σ) : World (Recorded σ) := { supply := w.supply, state := ⟨w.state, []⟩ }

/-- The world without its record. -/
def plain (w : World (Recorded σ)) : World σ := { supply := w.supply, state := w.state.state }

def calls (w : World (Recorded σ)) : List Call := w.state.calls

end World

/-- An act that also puts a call on record. -/
def Act.recorded (call : Call) (act : Act σ α) : Act (Recorded σ) α :=
  { run := fun w =>
      let reply := act.run w.plain
      { result := reply.result
        world :=
          { supply := reply.world.supply
            state := ⟨reply.world.state, w.calls ++ [call]⟩ } }
    supply_le := fun w => act.supply_le w.plain }

def recordedCallback (place : Nat) (late : Bool) (callback : Value → Act σ α) (item : Value) :
    Act (Recorded σ) α :=
  (callback item).recorded ⟨place, late, [item]⟩

def recordedPairCallback (place : Nat) (callback : Value → Value → Act σ α)
    (first second : Value) : Act (Recorded σ) α :=
  (callback first second).recorded ⟨place, false, [first, second]⟩

/-- Function values whose calls are recorded, each as the function and its arguments. -/
def recordedHost (place : Nat) (host : Host σ) (ref : Ref) (arguments : List Value) :
    Act (Recorded σ) Value :=
  (host ref arguments).recorded ⟨place, false, .func ref :: arguments⟩

/-! ### Everything that holds callbacks, with their calls recorded under its place -/

def Operator.recorded (place : Nat) : Operator σ → Operator (Recorded σ)
  | .filter test => .filter (recordedCallback place false test)
  | .reject test => .reject (recordedCallback place false test)
  | .filterBy field value => .filterBy field value
  | .map change => .map (recordedCallback place false change)
  | .zip other => .zip other
  | .skip n => .skip n
  | .slice start end? => .slice start end?
  | .first => .first
  | .firstWhere test => .firstWhere (recordedCallback place false test)
  | .take n => .take n
  | .get n => .get n
  | .ofClass name => .ofClass name
  | .ofKind kind => .ofKind kind
  | .uniq => .uniq
  | .uniqBy eq => .uniqBy (recordedPairCallback place eq)

def Fusible.recorded (place : Nat) : Fusible σ → Fusible (Recorded σ)
  | .filter test => .filter (recordedCallback place false test)
  | .map change => .map (recordedCallback place false change)

def Stage.recorded (place : Nat) : Stage σ → Stage (Recorded σ)
  | .filter test => .filter (recordedCallback place false test)
  | .reject test => .reject (recordedCallback place false test)
  | .filterBy field value => .filterBy field value
  | .map change => .map (recordedCallback place false change)
  | .filterFilter early late =>
    .filterFilter (recordedCallback place false early) (recordedCallback place true late)
  | .filterMap test change =>
    .filterMap (recordedCallback place false test) (recordedCallback place true change)
  | .mapFilter change test =>
    .mapFilter (recordedCallback place false change) (recordedCallback place true test)
  | .mapMap early late =>
    .mapMap (recordedCallback place false early) (recordedCallback place true late)
  | .zip other pos => .zip other pos
  | .skip count => .skip count
  | .slice start bound pos => .slice start bound pos
  | .first test? => .first (test?.map (recordedCallback place false))
  | .take limit taken => .take limit taken
  | .get index pos => .get index pos
  | .ofClass name => .ofClass name
  | .ofKind kind => .ofKind kind
  | .uniq eq? seen => .uniq (eq?.map (recordedPairCallback place)) seen
  | .halt => .halt

def Target.recorded (place : Nat) : Target σ → Target (Recorded σ)
  | .value wanted => .value wanted
  | .field name wanted => .field name wanted
  | .test holds => .test (recordedCallback place false holds)

def Terminal.recorded (place : Nat) : Terminal σ ρ → Terminal (Recorded σ) ρ
  | .collect items => .collect items
  | .head item? => .head item?
  | .each visit => .each (recordedCallback place false visit)
  | .count test counts => .count (recordedCallback place false test) counts
  | .length n => .length n
  | .contains target found => .contains (target.recorded place) found
  | .every test passed => .every (recordedCallback place false test) passed
  | .indexOf target pos found? => .indexOf (target.recorded place) pos found?
  | .groupBy key groups => .groupBy (recordedCallback place false key) groups
  | .extremum rank pick best? => .extremum (recordedCallback place false rank) pick best?
  | .reduce fold acc? => .reduce (recordedPairCallback place fold) acc?
  | .invoke host method? => .invoke (recordedHost place host) method?

def Question.recorded (place : Nat) : Question σ ρ → Question (Recorded σ) ρ
  | .collect => .collect
  | .head => .head
  | .each visit => .each (recordedCallback place false visit)
  | .count test => .count (recordedCallback place false test)
  | .length => .length
  | .contains target => .contains (target.recorded place)
  | .every test => .every (recordedCallback place false test)
  | .indexOf target => .indexOf (target.recorded place)
  | .groupBy key => .groupBy (recordedCallback place false key)
  | .extremum rank pick => .extremum (recordedCallback place false rank) pick
  | .reduce fold seed? => .reduce (recordedPairCallback place fold) seed?
  | .invoke host method? => .invoke (recordedHost place host) method?

theorem Question.start_recorded (place : Nat) (question : Question σ ρ) :
    (question.recorded place).start = question.start.recorded place := by
  cases question <;> rfl

namespace Query

/-- The calls of a run of a query that is built by operators: which callbacks are called, in
    order, and with which arguments.  The terminal's own callback has the place after the last
    operator. -/
def callsOf (source : List Value) (settings : Settings) (operators : List (Operator σ))
    (terminal : Terminal σ ρ) (world : World σ) : List Call :=
  let q := (ofSource source settings).addAll (operators.mapIdx Operator.recorded)
  (q.run (terminal.recorded operators.length) world.recorded).world.calls

end Query

end FusedQuery
