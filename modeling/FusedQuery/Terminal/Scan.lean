/-
  FusedQuery/Terminal/Scan.lean
  =============================
  **A whole source at a terminal.**

  Three terminals can take a source in one go, without the shared control: collecting, because
  nothing has to be looked at; the search for a position, because it knows itself when to stop;
  and calling, because it has nothing to gather.
-/
import FusedQuery.Terminal.Accept

namespace FusedQuery.Terminal

variable {σ ρ : Type}

/-- The position of the first element looked for, counted from `pos`; later elements are not
    looked at. -/
def firstPosition? (target : Target σ) (pos : Nat) : List Value → Act σ (Option Nat)
  | [] => return none
  | item :: rest => do
    if ← target.holds item then return some pos else firstPosition? target (pos + 1) rest

def callAll (host : Host σ) (method? : Option String) : List Value → Act σ Unit
  | [] => return ()
  | item :: rest => do
    call host method? item
    callAll host method? rest

/-- The outcome of a scan: how many elements were looked at, unless it failed. -/
structure Scan (σ ρ : Type) : Type 1 where
  visited : Except Fault Nat
  terminal : Terminal σ ρ
  world : World σ

/-- The scan of a source, for the terminals that have one. -/
def scan? (terminal : Terminal σ ρ) : Option (List Value → World σ → Scan σ ρ) :=
  match terminal with
  | .collect items =>
    some fun source world => ⟨.ok source.length, .collect (items ++ source), world⟩
  | .indexOf target pos found? =>
    some fun source world =>
      let reply := (firstPosition? target 0 source).run world
      match reply.result with
      | .ok (some i) =>
        ⟨.ok (i + 1), .indexOf target pos (some (UInt64.ofNat i)), reply.world⟩
      | .ok none => ⟨.ok source.length, .indexOf target pos found?, reply.world⟩
      | .error fault => ⟨.error fault, .indexOf target pos found?, reply.world⟩
  | .invoke host method? =>
    some fun source world =>
      let reply := (callAll host method? source).run world
      match reply.result with
      | .ok () => ⟨.ok source.length, .invoke host method?, reply.world⟩
      | .error fault => ⟨.error fault, .invoke host method?, reply.world⟩
  | _ => none

end FusedQuery.Terminal
