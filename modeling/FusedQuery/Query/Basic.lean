/-
  FusedQuery/Query/Basic.lean
  ===========================
  **Queries: a source, the stages to run it through, and the runs.**

  A query is built stage by stage, does nothing until a terminal is put to it, and can be run
  again and built on afterwards.  A run starts by forgetting the one before.  What it leaves
  behind, also when it fails, is the control and the stages; the statistics are those of the
  latest run whose source was gone through without a fault.
-/
import FusedQuery.Line
import FusedQuery.Stage.Fusion
import FusedQuery.Terminal.Scan

namespace FusedQuery

structure Stats where
  stages : Nat := 0               -- the stages before the terminal
  fused : Nat := 0                -- how many of them do the work of two
  visited : Nat := 0              -- the elements of the source that were looked at
  stoppedEarly : Bool := false    -- some were not
  bulk : Bool := false            -- the terminal scanned the source on its own
deriving DecidableEq, Repr

structure Query (σ : Type) where
  source : List Value
  stages : List (Stage σ) := []
  control : Control := {}
  settings : Settings := {}
  stats : Stats := {}

/-- The answer of a run, or its fault, and what the run leaves behind. -/
structure Run (σ ρ : Type) where
  result : Except Fault ρ
  query : Query σ
  world : World σ

def Run.map {σ ρ τ : Type} (f : ρ → τ) (run : Run σ ρ) : Run σ τ :=
  { result := run.result.map f, query := run.query, world := run.world }

namespace Query

variable {σ ρ : Type}

def ofSource (source : List Value) (settings : Settings) : Query σ := { source, settings }

def plan (q : Query σ) : List String := q.stages.map Stage.name

/-! ### Building -/

def push (q : Query σ) (stage : Stage σ) : Query σ :=
  { q with stages := q.stages ++ [stage] }

/-- Add a filter or a map at the end, merged with the last stage where the settings allow it
    and the two can merge. -/
def pushFusible (q : Query σ) (new : Fusible σ) : Query σ :=
  let merged? := if q.settings.fuse then q.stages.getLast?.bind (·.fuse? new) else none
  match merged? with
  | some merged => { q with stages := q.stages.dropLast ++ [merged] }
  | none => q.push new.stage

/-! ### Running -/

/-- The query ready for a run: nothing learnt yet, and the control knows whether a stage or the
    terminal may ask to stop. -/
def prepare (q : Query σ) (terminal : Terminal σ ρ) : Query σ :=
  { q with
    control :=
      { q.control.reset with mayStop := terminal.canStop || q.stages.any Stage.canStop }
    stages := q.stages.map Stage.reset }

/-- The scan that replaces the run of a query without stages, where the settings allow it and
    the terminal has one. -/
def scan? (q : Query σ) (terminal : Terminal σ ρ) :
    Option (List Value → World σ → Terminal.Scan σ ρ) :=
  if q.settings.bulk && q.stages.isEmpty then terminal.scan? else none

/-- The source gone through: by the terminal's own scan where there is one, else element by
    element. -/
def traverse (q : Query σ) (terminal : Terminal σ ρ) (world : World σ) : Line.Traversal σ ρ :=
  match q.scan? terminal with
  | some scan =>
    let scanned := scan q.source world
    ⟨scanned.visited, ⟨q.stages, q.control, scanned.terminal, scanned.world⟩⟩
  | none => Line.traverse ⟨q.stages, q.control, terminal, world⟩ q.source

def run (q : Query σ) (terminal : Terminal σ ρ) (world : World σ) : Run σ ρ :=
  let ready := q.prepare terminal
  let traversal := ready.traverse terminal world
  let left := { ready with stages := traversal.line.stages, control := traversal.line.control }
  match traversal.visited with
  | .error fault => { result := .error fault, query := left, world := traversal.line.world }
  | .ok visited =>
    let stats :=
      { stages := left.stages.length
        fused := left.stages.countP Stage.isFused
        visited
        stoppedEarly := visited < q.source.length
        bulk := (ready.scan? terminal).isSome }
    { result := traversal.line.terminal.finish
      query := { left with stats }
      world := traversal.line.world }

end Query

end FusedQuery
