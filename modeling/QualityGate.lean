import QualityGate.Text.Pattern
import QualityGate.Decimal.Shortest
import QualityGate.Json.Reader
import QualityGate.Json.Writer
import QualityGate.Schema.Reader
import QualityGate.Finding.Issue
import QualityGate.Timestamp
import QualityGate.Json.WholeNumber
import QualityGate.Settings.SeverityTable
import QualityGate.Output.Build
import QualityGate.Output.Lint
import QualityGate.Output.Vulnerability
import QualityGate.Json.Commented
import QualityGate.Scan.Brackets
import QualityGate.Scan.Directives
import QualityGate.Workspace.Path
import QualityGate.Workspace.Glob
import QualityGate.Report.Text
import QualityGate.Count.Basic
import QualityGate.Diagnostics.Basic
import QualityGate.Policy.Basic
import QualityGate.Hook.Script
import QualityGate.Workspace.Tree
import QualityGate.Workspace.Discovery
import QualityGate.Report.Audit
import QualityGate.Count.Fix
import QualityGate.Policy.Store
import QualityGate.Event.Bus
import QualityGate.Diagnostics.Update
import QualityGate.Hook.Install
import QualityGate.Policy.Concurrent
import QualityGate.Count.Monitor
import QualityGate.Command.Perform
import QualityGate.Tool.Launch
import QualityGate.Main
import QualityGate.Proofs.Policy.DecisionTable
import QualityGate.Proofs.Count.Reliability
import QualityGate.Proofs.Report.FailedCommand
import QualityGate.Proofs.Report.Completion
import QualityGate.Proofs.Report.RoundTrip
import QualityGate.Proofs.Hook.Kept
import QualityGate.Proofs.Policy.RefusedHooks
import QualityGate.Proofs.Policy.Together
import QualityGate.Proofs.Json.Refusal
import QualityGate.Proofs.Count.SuspiciousZero
import QualityGate.Proofs.Policy.HookSettings
import QualityGate.Proofs.Output.Diagnostics
import QualityGate.Proofs.Output.LintReport
import QualityGate.Proofs.Json.Commented
import QualityGate.Proofs.Count.Stops
import QualityGate.Proofs.Count.Watched
import QualityGate.Proofs.Event.Delivery
import QualityGate.Proofs.Event.Handlers
import QualityGate.Proofs.Persisted
import QualityGate.Proofs.Diagnostics.Histories
import QualityGate.Proofs.Settings.ReadBack
import QualityGate.Proofs.Command.Act
import QualityGate.Proofs.Command.Memory
import QualityGate.Proofs.Json.FaultLine
import QualityGate.Proofs.Json.Embedded
import QualityGate.Proofs.Scan.Directives
import QualityGate.Proofs.Scan.Brackets
import QualityGate.Proofs.Output.ErrorCount
import QualityGate.Proofs.Output.LintResults
import QualityGate.Proofs.Output.Obstacles
import QualityGate.Proofs.Output.Escapes
import QualityGate.Proofs.Check.Configuration
import QualityGate.Proofs.Hook.Words
import QualityGate.Proofs.Scan.Progress
import QualityGate.Proofs.Finding.Repetition
import QualityGate.Proofs.Scan.LineNumbers
import QualityGate.Proofs.Workspace.Discovery
import QualityGate.Proofs.Count.Repair
import QualityGate.Proofs.Tool.CappedStream
import QualityGate.Proofs.Check.Dependencies
