import DatrixOps.Machine
import DatrixOps.Postgres.Update
import DatrixOps.Postgres.Prog
import DatrixOps.Postgres.ReadCommitted
import DatrixOps.Postgres.Alone
import DatrixOps.Postgres.Atomic
import DatrixOps.Postgres.Rules
import DatrixOps.Postgres.Interference
import DatrixOps.Postgres.Schedule
import DatrixOps.Golang.Strings
import DatrixOps.Golang.Json
import DatrixOps.Golang.IP
import DatrixOps.Golang.Float
import DatrixOps.Golang.Math
import DatrixOps.Golang.Pool
import DatrixOps.Postgres.Text
import DatrixOps.Release.Version
import DatrixOps.Server.Rows
import DatrixOps.Server.Statements
import DatrixOps.Server.Uninstall
import DatrixOps.Server.Handlers
import DatrixOps.Alert.Rule
import DatrixOps.Alert.Condition
import DatrixOps.Alert.State
import DatrixOps.Alert.System
import DatrixOps.Alert.WellFormed
import DatrixOps.Alert.Worker
import DatrixOps.Diagnostics.Host
import DatrixOps.Diagnostics.Probe
import DatrixOps.Diagnostics.Report
import DatrixOps.Diagnostics.TargetJob
import DatrixOps.Auth.Rows
import DatrixOps.Auth.Sessions
import DatrixOps.Theorems.UninstallProgress
import DatrixOps.Theorems.HandlerRules
import DatrixOps.Theorems.TaskLifecycle
import DatrixOps.Theorems.AlertFailure
import DatrixOps.Theorems.AlertCoverage
import DatrixOps.Theorems.AlertVerdict
import DatrixOps.Theorems.AlertScope
import DatrixOps.Theorems.AlertSpacing
import DatrixOps.Theorems.AlertDuration
import DatrixOps.Theorems.AlertAlternation
import DatrixOps.Theorems.AlertEvaluation
import DatrixOps.Theorems.ProbeBarrier
import DatrixOps.Theorems.ReportAgreement
import DatrixOps.Theorems.ReportSeverity
import DatrixOps.Theorems.ProbeScheduling
import DatrixOps.Theorems.SessionCommits
import DatrixOps.Theorems.RefreshRedemption
import DatrixOps.Theorems.PasswordRevocation
import DatrixOps.Theorems.ResetRedemption
import DatrixOps.Admin.Membership
import DatrixOps.Theorems.AdminRemains
import DatrixOps.Agent.Enrollment
import DatrixOps.Theorems.EnrollmentOnce
import DatrixOps.Theorems.UninstallConfirmation
import DatrixOps.Theorems.QueueGates
import DatrixOps.Theorems.UninstallExclusivity
import DatrixOps.Server.AgentUpdate
import DatrixOps.Theorems.UpdateSteps
import DatrixOps.Theorems.UpdateRate
import DatrixOps.Theorems.UpdateDisabled
import DatrixOps.Theorems.UpdateCompletion
import DatrixOps.Process
import DatrixOps.Posix.Files
import DatrixOps.Release.Manifest
import DatrixOps.Host.System
import DatrixOps.Host.SelfUpdate
import DatrixOps.Host.Rules
import DatrixOps.Theorems.VerifiedUpdate
import DatrixOps.Host.Tasks
import DatrixOps.Host.Acting
import DatrixOps.Theorems.LastingEffects
import DatrixOps.Host.Calls
import DatrixOps.Host.Crew
import DatrixOps.Theorems.ConcurrentUpdates
import DatrixOps.Golang.JsonText
import DatrixOps.Host.Output
import DatrixOps.Server.ReportTask
import DatrixOps.Theorems.ReportDelivery
import DatrixOps.Server.LogRead
import DatrixOps.Theorems.LogFilters
import DatrixOps.Terminal.Message
import DatrixOps.Theorems.FrameLimit
import DatrixOps.Theorems.VersionOrder
import DatrixOps.Server.UpdateTarget
import DatrixOps.Theorems.UpdateTargets
import DatrixOps.Release.Gate
import DatrixOps.Server.ReleaseProxy
import DatrixOps.Theorems.ReleaseRedirect
import DatrixOps.Postgres.Numeric
import DatrixOps.Theorems.RollupCounts
import DatrixOps.Theorems.RollupLatency
import DatrixOps.Postgres.Insertion
import DatrixOps.Server.TaskCreation
import DatrixOps.Theorems.IdempotentCreation
import DatrixOps.Server.SelfHost
import DatrixOps.Theorems.SelfHostFrame
import DatrixOps.Theorems.SelfHostSync
import DatrixOps.Release.Verifier
import DatrixOps.Theorems.ReleaseGate
import DatrixOps.Theorems.ListingOrder
import DatrixOps.Theorems.ServiceControl
import DatrixOps.Theorems.RefreshRotation
import DatrixOps.Database.AutoMigrate
import DatrixOps.Theorems.Migrations
import DatrixOps.Alert.RuleCreation
import DatrixOps.Server.NetworkTargets
import DatrixOps.Theorems.BatchCreation
import DatrixOps.Golang.Calendar
import DatrixOps.Collector.Cron
import DatrixOps.Collector.Crontab
import DatrixOps.Theorems.CronSearch
import DatrixOps.Theorems.CronRuns
import DatrixOps.Server.TargetHistory
import DatrixOps.Theorems.CronLines
import DatrixOps.Theorems.HistoryWindow
import DatrixOps.Theorems.KeywordFilters
import DatrixOps.Release.Precedence
import DatrixOps.Scheduler.UpdateJob
import DatrixOps.Theorems.UpdateCoherence
import DatrixOps.Theorems.ReleaseSelection
import DatrixOps.Theorems.WebsiteDown
import DatrixOps.Theorems.UptimeBars
import DatrixOps.Server.Availability
import DatrixOps.Golang.NetIP
import DatrixOps.Notifier.Dial
import DatrixOps.Theorems.Downtime
import DatrixOps.Theorems.PillarLaws
import DatrixOps.Theorems.PublicAddress
import DatrixOps.Diagnostics.PingText
import DatrixOps.Collector.Ping
import DatrixOps.Theorems.PingEvidence
import DatrixOps.Collector.NetTelemetry
import DatrixOps.Theorems.ErrorAccounting
import DatrixOps.Terminal.Hub
import DatrixOps.Golang.Base64
import DatrixOps.Theorems.TerminalBytes
import DatrixOps.Terminal.Rules
import DatrixOps.Theorems.SessionRows
import DatrixOps.Alert.Channel
import DatrixOps.Theorems.ChannelEdits
import DatrixOps.Terminal.Manager
import DatrixOps.Terminal.System
import DatrixOps.Theorems.TerminalTurns
import DatrixOps.Theorems.TerminalTickets
import DatrixOps.Theorems.TerminalLinks
import DatrixOps.Theorems.TerminalIsolation
import DatrixOps.Theorems.TerminalOrphans
import DatrixOps.Theorems.TerminalStreams
import DatrixOps.Scheduler.Retention
import DatrixOps.Theorems.RetentionWindows
import DatrixOps.Golang.Rate
import DatrixOps.Middleware.RateLimit
import DatrixOps.Theorems.RateLimits
import DatrixOps.Host.Uninstall
import DatrixOps.Theorems.UninstallTruth
