import RunMetrics.LogFilter
import RunMetrics.Workspace
import RunMetrics.Proofs.RunningSummary
import RunMetrics.Proofs.SlotTable
import RunMetrics.Proofs.RunRegistration
import RunMetrics.Proofs.SnapshotTable
import RunMetrics.Proofs.StoreWrites
import RunMetrics.Proofs.SummaryDrift
import RunMetrics.Proofs.SnapshotImport
import RunMetrics.Proofs.AppendLog
import RunMetrics.Proofs.AlikeStores
import RunMetrics.Proofs.FailedCalls
import RunMetrics.Proofs.SequentialReplay
import RunMetrics.Proofs.LogbookMirror
import RunMetrics.Proofs.JournalRebuild
import RunMetrics.Proofs.RunExport
import RunMetrics.Proofs.IndependentWriters
import RunMetrics.Proofs.WireRoundTrip
import RunMetrics.Proofs.SampleFolds
import RunMetrics.Proofs.SampleOrder
import RunMetrics.Proofs.DeclaredSummary
import RunMetrics.Proofs.RetainedRuns
import RunMetrics.Proofs.ForwardMotion
import RunMetrics.Proofs.Enrolment
import RunMetrics.Proofs.LogbookCount
import RunMetrics.Proofs.WorkspaceStores
import RunMetrics.Proofs.SharedLogbook
import RunMetrics.Proofs.KeyOrder
import RunMetrics.Proofs.UnorderedSlots
import RunMetrics.Proofs.RunProjections
import RunMetrics.Proofs.OverviewRoundTrip
import RunMetrics.Proofs.Resubmission
import RunMetrics.Proofs.ArrivalOrder
import RunMetrics.Proofs.BatchRows
import RunMetrics.Proofs.BatchCapacity
import RunMetrics.Proofs.ReplayAgreement
import RunMetrics.Proofs.Regrouping
import RunMetrics.Proofs.HistoryRoundTrip
import RunMetrics.Proofs.OverviewWrites
import RunMetrics.Proofs.RecordLayout
import RunMetrics.Proofs.NoteIsolation
import RunMetrics.Proofs.JournalRefusals
import RunMetrics.Proofs.ValueSpellings
import RunMetrics.Proofs.MisreadValues
import RunMetrics.Proofs.DocumentBlame
import RunMetrics.Proofs.TimestampMoments
import RunMetrics.Proofs.HeldSlots
