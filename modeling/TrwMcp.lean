import TrwMcp.Comms.Fencing
import TrwMcp.Intent.Registrations
import TrwMcp.Intent.WeakenEdit
import TrwMcp.Intent.ShellCase
import TrwMcp.Formation.MergeRuns
import TrwMcp.Formation.ManifestRuns
import TrwMcp.Intent.ViolationRuns
import TrwMcp.Journal.ClaimRuns
import TrwMcp.Journal.RecordRuns
import TrwMcp.Journal.Replay
import TrwMcp.Dispatch.Jobs
import TrwMcp.MetaTune.PromoteRuns
import TrwMcp.GitTxn.Recovery
import TrwMcp.Sync.PullRuns
import TrwMcp.Scheduling.WipRuns
import TrwMcp.Decisions.QueueRuns
import TrwMcp.Trust.OutcomeRuns
import TrwMcp.Signoff.ReviewRuns
import TrwMcp.Migration.StoreRuns
import TrwMcp.Rollback.Conserve
import TrwMcp.Telemetry.SenderRuns
import TrwMcp.Feedback.OutboxRuns
import TrwMcp.Telemetry.RotationRuns
import TrwMcp.SharedServer.CollectRuns
import TrwMcp.Delivery.AttemptRuns
import TrwMcp.SharedServer.HandoverRuns
import TrwMcp.Requirements.BaselineRuns
import TrwMcp.Formation.Ownership
import TrwMcp.Handoff.Glob
import TrwMcp.Formation.AdmissionRuns
import TrwMcp.SharedServer.SwapRuns
import TrwMcp.Handoff.Strict
import TrwMcp.Comms.Upgrade
import TrwMcp.Sync.PushIsolation
import TrwMcp.Sync.DirtyPages
import TrwMcp.Bootstrap.Gitignore
import TrwMcp.CodeIndex.ChunkRuns
import TrwMcp.Handoff.QuoteRuns
import TrwMcp.Bootstrap.JsoncRuns
import TrwMcp.Bootstrap.MarkerRuns
import TrwMcp.Pins.Frame
import TrwMcp.Journal.SweepRuns
import TrwMcp.EvidencePack.Sealed
import TrwMcp.Bootstrap.SettingsMerge
import TrwMcp.CodeIndex.SearchRuns
import TrwMcp.CodeIndex.DiscoveryRuns
import TrwMcp.RunGc.SweepRuns
import TrwMcp.Recall.TakeRuns
import TrwMcp.Requirements.Transitions
