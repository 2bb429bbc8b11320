import CycleBridge.Bridge.Drive
import CycleBridge.Files.Tree
import CycleBridge.Main
import CycleBridge.Proofs.Course.Steps
import CycleBridge.Proofs.Course.Timing
import CycleBridge.Proofs.Engine.Order
import CycleBridge.Text.Lines
import CycleBridge.Proofs.Course.Dates
import CycleBridge.Proofs.Course.Schedule
import CycleBridge.Proofs.Course.Displacement
import CycleBridge.Proofs.Course.Correlation
import CycleBridge.Proofs.Course.Exclusion
import CycleBridge.Proofs.Course.Refusals
import CycleBridge.Proofs.Course.Sequence
import CycleBridge.Proofs.Course.Noninterference
import CycleBridge.Proofs.Course.Progress
import CycleBridge.Proofs.Course.Ticks
import CycleBridge.Proofs.Course.Rows
import CycleBridge.Proofs.Course.Periods
import CycleBridge.Proofs.Course.Charges
import CycleBridge.Proofs.Course.Idle
import CycleBridge.Proofs.Smoke.Outstanding
import CycleBridge.Proofs.Smoke.Values
import CycleBridge.Proofs.Course.Log
import CycleBridge.Proofs.Engine.Timers
import CycleBridge.Proofs.Json.Grammar
import CycleBridge.Proofs.Json.Scalars
import CycleBridge.Proofs.Json.Skipping
import CycleBridge.Proofs.Json.Values
import CycleBridge.Proofs.Json.Records
import CycleBridge.Proofs.Json.Reading
import CycleBridge.Proofs.Json.Stated
import CycleBridge.Proofs.Settings.Partial
import CycleBridge.Proofs.Json.Printing
import CycleBridge.Proofs.Settings.RoundTrip
import CycleBridge.Proofs.Engine.RowHistory
import CycleBridge.Proofs.Engine.Handover
import CycleBridge.Proofs.Ledger.IssueOrder
import CycleBridge.Proofs.Course.Figures
import CycleBridge.Proofs.Smoke.Stall
import CycleBridge.Proofs.Course.Totals
import CycleBridge.Proofs.Course.LateDrains
import CycleBridge.Proofs.Course.Reopening
