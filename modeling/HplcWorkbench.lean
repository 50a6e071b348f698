import HplcWorkbench.ReaderAgreement
import HplcWorkbench.ReplyAttribution
import HplcWorkbench.LeaseExclusion
import HplcWorkbench.RunTransitions
import HplcWorkbench.ListenerStore
import HplcWorkbench.XmodemIntegrity
import HplcWorkbench.ArchiveQuery
import HplcWorkbench.OpenSerial
import HplcWorkbench.BackfilledFrames
import HplcWorkbench.NetworkEvents
import HplcWorkbench.ObservedWindows
import HplcWorkbench.InvestigationVerdict
import HplcWorkbench.AtMostOnce
import HplcWorkbench.VerificationGuard
import HplcWorkbench.SplitterBounds
import HplcWorkbench.RequestPayload
import HplcWorkbench.NestedFrames
import HplcWorkbench.StrictDetection
import HplcWorkbench.JobAgreement
import HplcWorkbench.ResultLists
import HplcWorkbench.BlockCrc
import HplcWorkbench.DuplicateDispatch
import HplcWorkbench.FramePages
import HplcWorkbench.ClearArchive
import HplcWorkbench.ByteAccounting
import HplcWorkbench.DualMacSafety
import HplcWorkbench.LeaseTable
import HplcWorkbench.SessionDuration
import HplcWorkbench.CaptureFrames
import HplcWorkbench.MinuteOrder
import HplcWorkbench.DigestBuckets
import HplcWorkbench.LifecycleCompletion
import HplcWorkbench.FlowElapsed
import HplcWorkbench.FlowRuns
import HplcWorkbench.SequenceGroups
import HplcWorkbench.EvidenceRefs
import HplcWorkbench.Correlations
import HplcWorkbench.LogWatch
import HplcWorkbench.CivilDates
import HplcWorkbench.MergedPorts
import HplcWorkbench.SequenceLedger
import HplcWorkbench.ChannelThreads
import HplcWorkbench.CycleLevels
import HplcWorkbench.AppliedProfiles
import HplcWorkbench.TaskPeriods
import HplcWorkbench.TaskOutcomes
import HplcWorkbench.ScanAccounts
import HplcWorkbench.TraceReplay
import HplcWorkbench.LiveTraces
