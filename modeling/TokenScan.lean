import TokenScan.Config.Basic
import TokenScan.Config.Scope
import TokenScan.Cursor
import TokenScan.Decimal.Binary
import TokenScan.Decimal.Shortest
import TokenScan.Decimal.Text
import TokenScan.Event
import TokenScan.Gap
import TokenScan.Json.Basic
import TokenScan.Json.Describe
import TokenScan.Json.Equality
import TokenScan.Json.Escape
import TokenScan.Json.Fault
import TokenScan.Json.Printer
import TokenScan.Json.Reader
import TokenScan.Json.Writer
import TokenScan.Location
import TokenScan.Phase
import TokenScan.Position
import TokenScan.Proofs.Concatenation
import TokenScan.Proofs.Config.Scope
import TokenScan.Proofs.Cutting
import TokenScan.Proofs.Gap
import TokenScan.Proofs.Grammar
import TokenScan.Proofs.Growing
import TokenScan.Proofs.Independence
import TokenScan.Proofs.Json.Layout
import TokenScan.Proofs.Json.RoundTrip
import TokenScan.Proofs.Json.Scalar
import TokenScan.Proofs.Json.SortKeys
import TokenScan.Proofs.Location
import TokenScan.Proofs.Logging
import TokenScan.Proofs.Moving
import TokenScan.Proofs.OpenComment
import TokenScan.Proofs.Position
import TokenScan.Proofs.Printing
import TokenScan.Proofs.Progress
import TokenScan.Proofs.Pulling
import TokenScan.Proofs.Recognition.Basic
import TokenScan.Proofs.Recognition.Longest
import TokenScan.Proofs.Recognition.Seen
import TokenScan.Proofs.Recovery
import TokenScan.Proofs.Reporting
import TokenScan.Proofs.Resumption
import TokenScan.Proofs.Seam
import TokenScan.Proofs.Session.Basic
import TokenScan.Proofs.Session.Moment
import TokenScan.Proofs.Session.Pull
import TokenScan.Proofs.Session.Reachable
import TokenScan.Proofs.Session.Scan
import TokenScan.Proofs.Skipping
import TokenScan.Proofs.Stability
import TokenScan.Proofs.Tiling
import TokenScan.Proofs.Token.Checks
import TokenScan.Proofs.Token.Completion
import TokenScan.Proofs.Token.Omission
import TokenScan.Proofs.Token.Record
import TokenScan.Proofs.Token.Shipping
import TokenScan.Recognizer.Basic
import TokenScan.Recognizer.State
import TokenScan.Session
import TokenScan.Session.Operation
import TokenScan.Text.CharClass
import TokenScan.Text.Hex
import TokenScan.Text.Quoted
import TokenScan.Text.Visible
import TokenScan.Token.Basic
import TokenScan.Token.Category
import TokenScan.Token.Record
import TokenScan.Version
import TokenScan.Workspace
