/-
  FusedQuery/Control.lean
  =======================
  **What the stages of a query share during a run, and how a query is set to run.**
-/

namespace FusedQuery

/-- The state shared by all stages and the terminal. -/
structure Control where
  mayStop : Bool := false     -- something in the query can ask to stop, so a run has to look
  stop : Bool := false        -- no further elements of the source are asked for
  skipped : UInt64 := 0       -- the elements dropped by all skips together
deriving DecidableEq, Repr

namespace Control

def halt (c : Control) : Control := { c with stop := true }

def countSkip (c : Control) : Control := { c with skipped := c.skipped + 1 }

/-- Forget a run.  Whether there is something that can stop is settled anew by each run. -/
def reset (c : Control) : Control := { c with stop := false, skipped := 0 }

end Control

/-- Switches that change how a query runs, and not what it answers. -/
structure Settings where
  fuse : Bool := true     -- merge neighbouring filters and maps while the query is built
  bulk : Bool := true     -- let a terminal with no stage before it scan the source on its own
deriving DecidableEq, Repr

namespace Settings

/-- Every stage on its own, every element delivered one by one. -/
def plain : Settings := { fuse := false, bulk := false }

end Settings

end FusedQuery
