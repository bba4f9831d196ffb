import Prompta.AtMostOnce
import Prompta.ConcurrencyCap
import Prompta.ReceiptReconciliation
import Prompta.ReplyDispatch
import Prompta.BranchLineage
import Prompta.FollowupRecovery
import Prompta.StoppedChats
import Prompta.FollowupMerges
import Prompta.FreshChats
import Prompta.UnreadableState
import Prompta.ReceiptStates
import Prompta.MutexGroups
import Prompta.IntervalSpacing
import Prompta.DailyOccurrences
import Prompta.StopRace
import Prompta.FreshSends
import Prompta.RateLimits
import Prompta.DeadLetters
import Prompta.AttentionMarkers
import Prompta.JsonValues
import Prompta.ToolEvents
import Prompta.ResponseCapture
import Prompta.StreamChunks
import Prompta.PrivateReasoning
import Prompta.StreamViews
import Prompta.ToolRetention
import Prompta.ConnectorApproval
import Prompta.RequestReplay
import Prompta.JsonTexts
import Prompta.Redaction
import Prompta.TabLedger
import Prompta.LiveUpdates
import Prompta.TurnRecovery
import Prompta.ReplyReceipts
import Prompta.ReceiptsKept
import Prompta.ComposerMentions
import Prompta.DisplayMerges
import Prompta.BlockRetention
import Prompta.ComposerDrafts
import Prompta.DraftsKept
import Prompta.BackoffChains
import Prompta.ToolBookkeeping
import Prompta.FinishedTools
import Prompta.SnapshotPolls
import Prompta.Toasts
import Prompta.ImageSaves
import Prompta.ByteFrames
import Prompta.LiveSignals
import Prompta.RetryDelays
import Prompta.RecoveryPaths
import Prompta.DomMarkdown
import Prompta.EscapedSplits
import Prompta.TableCells
import Prompta.CodeFences
import Prompta.CapturedTexts
import Prompta.NormalBlocks
import Prompta.SlotSchedules
import Prompta.QueueEta
import Prompta.SortedSelections
import Prompta.DispatchOrder
import Prompta.ReadMarks
import Prompta.ResultPages
import Prompta.OwnedStreams
import Prompta.Paragraphs
import Prompta.TurnActivity
import Prompta.OccurrenceKeys
import Prompta.RecoveryAttempts
import Prompta.FairTurns
import Prompta.HistoryRecovery
import Prompta.RecoveryTurns
import Prompta.RequestWaits
import Prompta.RecoveryThreads
import Prompta.ThreadPacing
import Prompta.Bystanders
import Prompta.BrowserWatchdog
import Prompta.ReplyDispatcher
import Prompta.SingleSends
import Prompta.HeldLeases
import Prompta.DrainedWorkers
import Prompta.FreshSender
import Prompta.FreshResends
