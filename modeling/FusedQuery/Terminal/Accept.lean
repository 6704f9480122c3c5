/-
  FusedQuery/Terminal/Accept.lean
  ===============================
  **One element at a terminal.**

  A failing callback leaves the terminal as far as it had come: a count has counted the element
  that it could not test, and a fold has given its accumulator away.
-/
import FusedQuery.Control
import FusedQuery.Terminal.Basic

namespace FusedQuery.Terminal

variable {σ ρ : Type}

/-- Call the function that an element has under a method name, or is itself, with no
    arguments; what it returns is dropped. -/
def call (host : Host σ) (method? : Option String) (item : Value) : Act σ Unit :=
  let target :=
    match method? with
    | some method => item.get method
    | none => item
  match target with
  | .func ref => do
    let _ ← host ref []
    return ()
  | _ => .fail (.notInvocable method?)

structure Acceptance (σ ρ : Type) : Type 1 where
  status : Except Fault Unit
  terminal : Terminal σ ρ
  control : Control
  world : World σ

def accept (terminal : Terminal σ ρ) (control : Control) (item : Value) (world : World σ) :
    Acceptance σ ρ :=
  match terminal with
  | .collect items =>
    ⟨.ok (), .collect (items.push item), control, world⟩
  | .head _ =>
    ⟨.ok (), .head (some item), control.halt, world⟩
  | .each visit =>
    let reply := (visit item).run world
    ⟨reply.result, .each visit, control, reply.world⟩
  | .count test counts =>
    let counted := { counts with total := counts.total + 1 }
    let reply := (test item).run world
    match reply.result with
    | .ok true =>
      ⟨.ok (), .count test { counted with num := counts.num + 1 }, control, reply.world⟩
    | .ok false => ⟨.ok (), .count test counted, control, reply.world⟩
    | .error fault => ⟨.error fault, .count test counted, control, reply.world⟩
  | .length n =>
    ⟨.ok (), .length (n + 1), control, world⟩
  | .contains target found =>
    let reply := (target.holds item).run world
    match reply.result with
    | .ok true => ⟨.ok (), .contains target true, control.halt, reply.world⟩
    | .ok false => ⟨.ok (), .contains target found, control, reply.world⟩
    | .error fault => ⟨.error fault, .contains target found, control, reply.world⟩
  | .every test passed =>
    let reply := (test item).run world
    match reply.result with
    | .ok true => ⟨.ok (), .every test passed, control, reply.world⟩
    | .ok false => ⟨.ok (), .every test false, control.halt, reply.world⟩
    | .error fault => ⟨.error fault, .every test passed, control, reply.world⟩
  | .indexOf target pos found? =>
    let reply := (target.holds item).run world
    match reply.result with
    | .ok true => ⟨.ok (), .indexOf target (pos + 1) (some pos), control.halt, reply.world⟩
    | .ok false => ⟨.ok (), .indexOf target (pos + 1) found?, control, reply.world⟩
    | .error fault => ⟨.error fault, .indexOf target pos found?, control, reply.world⟩
  | .groupBy key groups =>
    let reply := (key item).run world
    match reply.result with
    | .ok value =>
      match Key.ofValue? value with
      | some k => ⟨.ok (), .groupBy key (groups.add k item), control, reply.world⟩
      | none => ⟨.error (.unhashableKey value.kind), .groupBy key groups, control, reply.world⟩
    | .error fault => ⟨.error fault, .groupBy key groups, control, reply.world⟩
  | .extremum rank pick best? =>
    let reply := (rank item).run world
    match reply.result with
    | .ok r =>
      let improves :=
        !r.isNaN && (match best? with
          | none => true
          | some best => pick.better r best.1)
      let best? := if improves then some (r, item) else best?
      ⟨.ok (), .extremum rank pick best?, control, reply.world⟩
    | .error fault => ⟨.error fault, .extremum rank pick best?, control, reply.world⟩
  | .reduce fold acc? =>
    match acc? with
    | none => ⟨.ok (), .reduce fold (some item), control, world⟩
    | some acc =>
      let reply := (fold acc item).run world
      match reply.result with
      | .ok next => ⟨.ok (), .reduce fold (some next), control, reply.world⟩
      | .error fault => ⟨.error fault, .reduce fold none, control, reply.world⟩
  | .invoke host method? =>
    let reply := (call host method? item).run world
    ⟨reply.result, .invoke host method?, control, reply.world⟩

end FusedQuery.Terminal
