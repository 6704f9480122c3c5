/-
  FusedQuery/Stage/Step.lean
  ==========================
  **One element at one stage.**

  `Stage.step` gives the element's fate together with everything the step may change: the stage
  itself, the shared control and the world.  A step that fails gives them as well, because a run
  that ends in a fault leaves them to be looked at.
-/
import FusedQuery.Control
import FusedQuery.Value.Equality
import FusedQuery.Stage.Basic

namespace FusedQuery

variable {σ : Type}

namespace Seen

/-- Whether a reference repeats an earlier one: by the given equality, or else by identity. -/
def repeats (eq? : Option (Equality σ)) (earlier item : Value) : Act σ Bool :=
  match eq? with
  | some eq => eq earlier item
  | none => pure (earlier.same item)

/-- Whether a reference repeats one of those given, asking about them in turn and about none
    after the first that it repeats. -/
def repeatsIn (eq? : Option (Equality σ)) (item : Value) : List Value → Act σ Bool
  | [] => return false
  | earlier :: rest => do
    if ← repeats eq? earlier item then return true else repeatsIn eq? item rest

def addKey (seen : Seen) (key : Key) : Seen := { seen with keys := key :: seen.keys }

def addRef (seen : Seen) (item : Value) : Seen := { seen with refs := seen.refs ++ [item] }

end Seen

namespace Stage

structure Step (σ : Type) where
  flow : Except Fault Flow
  stage : Stage σ
  control : Control
  world : World σ

/-- A step that only acts on the world. -/
def Step.ofAct (stage : Stage σ) (control : Control) (act : Act σ Flow) (world : World σ) :
    Step σ :=
  let reply := act.run world
  ⟨reply.result, stage, control, reply.world⟩

def step (stage : Stage σ) (control : Control) (item : Value) (world : World σ) : Step σ :=
  match stage with
  | .filter test =>
    .ofAct stage control (do return .forwardIf (← test item) item) world
  | .reject test =>
    .ofAct stage control (do return .forwardIf (!(← test item)) item) world
  | .filterBy field value =>
    ⟨.ok (.forwardIf ((item.get field).same value) item), stage, control, world⟩
  | .map change =>
    .ofAct stage control (do return .forward (← change item)) world
  | .filterFilter early late =>
    .ofAct stage control
      (do
        if ← early item then
          return .forwardIf (← late item) item
        else
          return .drop)
      world
  | .filterMap test change =>
    .ofAct stage control
      (do
        if ← test item then
          return .forward (← change item)
        else
          return .drop)
      world
  | .mapFilter change test =>
    .ofAct stage control
      (do
        let changed ← change item
        return .forwardIf (← test changed) changed)
      world
  | .mapMap early late =>
    .ofAct stage control (do return .forward (← late (← early item))) world
  | .zip other pos =>
    .ofAct (.zip other (pos + 1)) control
      (do return .forward (← Act.newList [item, (other[pos.toNat]?).getD .undefined]))
      world
  | .skip count =>
    if control.skipped < count then
      ⟨.ok .drop, stage, control.countSkip, world⟩
    else
      ⟨.ok (.forward item), stage, control, world⟩
  | .slice start bound pos =>
    let next := .slice start bound (pos + 1)
    if bound ≤ pos then
      ⟨.ok .drop, next, control.halt, world⟩
    else
      ⟨.ok (.forwardIf (start ≤ pos) item), next,
        if bound ≤ pos + 1 then control.halt else control, world⟩
  | .first none =>
    ⟨.ok (.forward item), stage, control.halt, world⟩
  | .first (some test) =>
    let reply := (test item).run world
    match reply.result with
    | .ok true => ⟨.ok (.forward item), stage, control.halt, reply.world⟩
    | .ok false => ⟨.ok .drop, stage, control, reply.world⟩
    | .error fault => ⟨.error fault, stage, control, reply.world⟩
  | .take limit taken =>
    if limit ≤ taken then
      ⟨.ok .drop, stage, control.halt, world⟩
    else
      ⟨.ok (.forward item), .take limit (taken + 1),
        if taken + 1 = limit then control.halt else control, world⟩
  | .get index pos =>
    let next := .get index (pos + 1)
    if pos = index then
      ⟨.ok (.forward item), next, control.halt, world⟩
    else
      ⟨.ok .drop, next, control, world⟩
  | .ofClass name =>
    ⟨.ok (.forwardIf (item.class? = some name) item), stage, control, world⟩
  | .ofKind kind =>
    ⟨.ok (.forwardIf (item.kind = kind) item), stage, control, world⟩
  | .uniq eq? seen =>
    match Key.ofValue? item with
    | some key =>
      if key ∈ seen.keys then
        ⟨.ok .drop, stage, control, world⟩
      else
        ⟨.ok (.forward item), .uniq eq? (seen.addKey key), control, world⟩
    | none =>
      let reply := (Seen.repeatsIn eq? item seen.refs).run world
      match reply.result with
      | .ok true => ⟨.ok .drop, stage, control, reply.world⟩
      | .ok false => ⟨.ok (.forward item), .uniq eq? (seen.addRef item), control, reply.world⟩
      | .error fault => ⟨.error fault, stage, control, reply.world⟩
  | .halt =>
    ⟨.ok .drop, stage, control.halt, world⟩

end Stage

end FusedQuery
