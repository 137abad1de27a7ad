import Granularity.Activity.Context
import Granularity.Activity.CrashReport
import Granularity.Analysis
import Granularity.Command.Arguments
import Granularity.Command.Run
import Granularity.Decimal.Layout
import Granularity.Decimal.Read
import Granularity.Detector
import Granularity.FileTree.Walk
import Granularity.FileTree.Write
import Granularity.Json.Reader
import Granularity.Json.Writer
import Granularity.Main
import Granularity.Pattern
import Granularity.Priority
import Granularity.Report.Format
import Granularity.Report.Summary
import Granularity.Settings.Discovery
import Granularity.Proofs.Acceptance
import Granularity.Proofs.Captures
import Granularity.Proofs.Comparison
import Granularity.Proofs.Coverage
import Granularity.Proofs.Detection
import Granularity.Proofs.Discovery
import Granularity.Proofs.Isolation
import Granularity.Proofs.Location
import Granularity.Proofs.Matching
import Granularity.Proofs.Ranking
import Granularity.Proofs.Readings
import Granularity.Proofs.Repository
import Granularity.Proofs.Representation
import Granularity.Proofs.Scheduling
import Granularity.Proofs.Skipped
import Granularity.Proofs.Sources
import Granularity.Proofs.Split
import Granularity.Proofs.Stages
import Granularity.Proofs.Tiers
import Granularity.Proofs.Ties
import Granularity.Proofs.Accounting
import Granularity.Proofs.Locality
import Granularity.Proofs.Writing
import Granularity.Proofs.Outcome
import Granularity.Proofs.Rounding
import Granularity.Proofs.Literals
import Granularity.Proofs.Shortest
import Granularity.Proofs.NumberText
import Granularity.Proofs.JsonText
import Granularity.Proofs.ReportText
import Granularity.Proofs.Ancestors
import Granularity.Proofs.Links
import Granularity.Proofs.Nearest
import Granularity.Proofs.Reported
import Granularity.Proofs.TotalOrder
import Granularity.Proofs.Constructions
import Granularity.Proofs.Plan
import Granularity.Proofs.Monotone
import Granularity.Proofs.Bounds
import Granularity.Proofs.Overflow
import Granularity.Proofs.Rejection
import Granularity.Proofs.ByteOrder
import Granularity.Proofs.Canonical
import Granularity.Proofs.Descent
import Granularity.Proofs.Declarations
import Granularity.Proofs.MapDeclarations
import Granularity.Proofs.Seams
import Granularity.Proofs.Merging
import Granularity.Proofs.Remedies
import Granularity.Proofs.Keywords
import Granularity.Proofs.Labels
import Granularity.Proofs.Relative
import Granularity.Proofs.Styling
import Granularity.Proofs.Ascent
import Granularity.Proofs.Crew
import Granularity.Proofs.Tasks
import Granularity.Proofs.Counters
