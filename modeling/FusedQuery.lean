import FusedQuery.Number.Basic
import FusedQuery.Number.OfInt
import FusedQuery.Number.Decimal
import FusedQuery.Text.Unprintable
import FusedQuery.Text.Extending
import FusedQuery.Text.Quoted
import FusedQuery.Record
import FusedQuery.Value.Kind
import FusedQuery.Value.Basic
import FusedQuery.Value.Equality
import FusedQuery.Value.Order
import FusedQuery.Value.Display
import FusedQuery.Key
import FusedQuery.Fault
import FusedQuery.Effect
import FusedQuery.Control
import FusedQuery.Stage.Basic
import FusedQuery.Stage.Step
import FusedQuery.Stage.Fusion
import FusedQuery.Terminal.Basic
import FusedQuery.Terminal.Accept
import FusedQuery.Terminal.Scan
import FusedQuery.Terminal.Question
import FusedQuery.Line
import FusedQuery.Query.Basic
import FusedQuery.Query.Operator
import FusedQuery.Query.Drawing
import FusedQuery.Query.Ask
import FusedQuery.Query.Sort
import FusedQuery.Proofs.Stage.Frame
import FusedQuery.Proofs.Stage.Acts
import FusedQuery.Proofs.Line.Transit
import FusedQuery.Proofs.Stage.Independent
import FusedQuery.Proofs.Terminal.Frame
import FusedQuery.Proofs.Line.Loop
import FusedQuery.Proofs.Terminal.Acts
import FusedQuery.Proofs.Terminal.Targets
import FusedQuery.Proofs.Fusion.Split
import FusedQuery.Proofs.Query.Ready
import FusedQuery.Proofs.Fusion.Transparent
import FusedQuery.Proofs.History.Forget
import FusedQuery.Proofs.Stream.Basic
import FusedQuery.Proofs.Stream.Meaning
import FusedQuery.Proofs.Stream.Run
import FusedQuery.Proofs.Stream.Answers
import FusedQuery.Proofs.Meaning.Sweep
import FusedQuery.Proofs.Meaning.Stages
import FusedQuery.Proofs.Meaning.Operators
import FusedQuery.Proofs.Recording.Basic
import FusedQuery.Proofs.Recording.Mirror
import FusedQuery.Proofs.Recording.Faithful
import FusedQuery.Proofs.Query.OnSource
import FusedQuery.Proofs.Scan.Loop
import FusedQuery.Proofs.Scan.Agree
import FusedQuery.Proofs.Line.Prefix
import FusedQuery.Proofs.Query.Prefix
import FusedQuery.Proofs.Halting.Position
import FusedQuery.Proofs.Halting.Operators
import FusedQuery.Proofs.Trace.Gate
import FusedQuery.Proofs.Number.Parts
import FusedQuery.Proofs.Number.Units
import FusedQuery.Proofs.Record.Insertion
import FusedQuery.Proofs.Value.Parts
import FusedQuery.Proofs.Value.Equality
import FusedQuery.Proofs.History.Stats
import FusedQuery.Proofs.Order.Total
import FusedQuery.Proofs.Order.Equality
import FusedQuery.Proofs.Line.Arrivals
import FusedQuery.Proofs.Key.Identity
import FusedQuery.Proofs.Line.Fold
import FusedQuery.Proofs.Recording.Places
import FusedQuery.Proofs.Uniq.Firsts
import FusedQuery.Proofs.Sort.Stable
import FusedQuery.Proofs.Line.Calls
import FusedQuery.Proofs.Query.Folding
import FusedQuery.Proofs.Group.Partition
import FusedQuery.Proofs.Interchange.Simulation
import FusedQuery.Proofs.Interchange.Stages
import FusedQuery.Proofs.Interchange.Operators
import FusedQuery.Proofs.Skip.Drops
import FusedQuery.Proofs.Skip.Counter
import FusedQuery.Proofs.Extremum.Earliest
import FusedQuery.Proofs.Reduce.LeftFold
import FusedQuery.Proofs.Record.Written
import FusedQuery.Proofs.Counter.Bounds
import FusedQuery.Proofs.Fusion.Pairing
import FusedQuery.Proofs.Line.Turns
import FusedQuery.Proofs.Zip.Pairs
import FusedQuery.Proofs.Stage.Built
import FusedQuery.Proofs.Halting.Spent
