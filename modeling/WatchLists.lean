import WatchLists.Disk.Session
import WatchLists.Main
import WatchLists.Order.Occurrence
import WatchLists.Watch.View
import WatchLists.Proofs.Watch.Change
import WatchLists.Proofs.Except
import WatchLists.Proofs.Literal
import WatchLists.Proofs.Watch.Obtainable
import WatchLists.Proofs.Watch.Refinement
import WatchLists.Proofs.WatchList.Reachable
import WatchLists.Proofs.Text.Words
import WatchLists.Proofs.Watch.Line
import WatchLists.Proofs.WatchList.Lines
import WatchLists.Proofs.WatchList.RoundTrip
import WatchLists.Proofs.Order.BinaryFirst
import WatchLists.Proofs.Text.Encoding
import WatchLists.Proofs.WatchList.Reading
import WatchLists.Proofs.Disk.Writing
import WatchLists.Proofs.Order.Occurrence
import WatchLists.Proofs.Order.ComparisonSort
import WatchLists.Proofs.Order.OccurrenceRefusal
import WatchLists.Proofs.WatchList.Operations
import WatchLists.Proofs.Watch.Grammar
import WatchLists.Proofs.Inspector.Progress
import WatchLists.Proofs.Text.Numerals
import WatchLists.Proofs.Disk.Logging
import WatchLists.Proofs.Order.Check
import WatchLists.Proofs.WatchList.OrderKept
import WatchLists.Proofs.Text.Lines
import WatchLists.Proofs.WatchList.Loading
import WatchLists.Proofs.Inspector.ExitCode
import WatchLists.Proofs.Inspector.Messages
import WatchLists.Proofs.Inspector.Failure
import WatchLists.Proofs.Inspector.Normalising
import WatchLists.Proofs.Order.Refusal
import WatchLists.Proofs.WatchList.Concatenation
import WatchLists.Proofs.Watch.Unambiguous
import WatchLists.Proofs.WatchList.Unambiguous
import WatchLists.Proofs.WatchList.BlockingLiteral
import WatchLists.Proofs.WatchList.RepeatedRemoval
import WatchLists.Proofs.WatchList.AttachDetach
import WatchLists.Proofs.Watch.Repacking
import WatchLists.Proofs.Inspector.Arguments
import WatchLists.Proofs.Watch.ChangeRuns
import WatchLists.Proofs.Order.Laws
import WatchLists.Proofs.Literal.Encodings
import WatchLists.Proofs.Literal.Negation
