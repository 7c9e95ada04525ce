import RustAdmin.Support.Run
import RustAdmin.VideoQueue.Reference
import RustAdmin.Support.Linked
import RustAdmin.Quic.Admission
import RustAdmin.Quic.Spoofing
import RustAdmin.Clipboard.FileContents
import RustAdmin.Clipboard.FuseRead
import RustAdmin.Support.Bytes
import RustAdmin.Support.Utf16
import RustAdmin.Clipboard.FileList
import RustAdmin.Terminal.OutputBuffer
import RustAdmin.Terminal.Session
import RustAdmin.Keyboard.Intent
import RustAdmin.Keyboard.TextPolicy
import RustAdmin.Support.Ledger
import RustAdmin.Support.LinkedMap
import RustAdmin.Keyboard.Dispatch
import RustAdmin.Keyboard.StateMachine
import RustAdmin.Keyboard.Holders
import RustAdmin.Keyboard.Reports
import RustAdmin.Keyboard.Handle
import RustAdmin.Keyboard.Brackets
import RustAdmin.Keyboard.InputMode
import RustAdmin.Connection.KeyboardSequence
import RustAdmin.Keyboard.InputModeRuns
import RustAdmin.Support.Tickets
import RustAdmin.Viewer.FrameOrder
import RustAdmin.VideoDelivery.Controller
import RustAdmin.VideoDelivery.Recovery
import RustAdmin.VideoDelivery.Streams
import RustAdmin.Server.Policy
import RustAdmin.Server.State
import RustAdmin.Server.Permissions
import RustAdmin.Server.Login
import RustAdmin.Server.Moves
import RustAdmin.Server.Authorization
import RustAdmin.Server.ConnectionTypes
import RustAdmin.Server.Revocation
import RustAdmin.Server.HostKeyboard
import RustAdmin.Server.PressedModifiers
import RustAdmin.Keyboard.CommandQueue
import RustAdmin.Keyboard.Dispatcher
import RustAdmin.Support.Answered
import RustAdmin.Keyboard.Changes
import RustAdmin.Keyboard.Budget
import RustAdmin.Keyboard.Delivery
import RustAdmin.Keyboard.Session
import RustAdmin.Support.Version
import RustAdmin.Viewer.ScreenAuthority
import RustAdmin.Viewer.DisplayControl
import RustAdmin.Viewer.DisplayConvergence
import RustAdmin.Server.HelperRetry
import RustAdmin.Server.HelperAttempts
import RustAdmin.Support.Ladder
import RustAdmin.VideoQos.MovieCadence
import RustAdmin.VideoQos.CadenceLadder
import RustAdmin.Service.Subscribers
import RustAdmin.Service.CaptureDisplays
import RustAdmin.Service.Snapshot
import RustAdmin.Service.SubscriberJoin
import RustAdmin.Support.CrashProgram
import RustAdmin.Security.PeerSecurityMutation
import RustAdmin.Security.MutationAtomicity
import RustAdmin.Viewer.MovieQueue
import RustAdmin.Viewer.MoviePositions
import RustAdmin.Viewer.MovieChain
import RustAdmin.Viewer.Feedback
import RustAdmin.Viewer.FeedbackWorkers
import RustAdmin.Viewer.FeedbackActivations
import RustAdmin.Support.RoundRobin
import RustAdmin.VideoQueue.Fairness
import RustAdmin.VideoQueue.Refreshes
import RustAdmin.Clipboard.PositionedReads
import RustAdmin.Clipboard.ServeFiles
import RustAdmin.Viewer.KeyboardSend
import RustAdmin.Viewer.ConnectionRounds
import RustAdmin.Viewer.RetiredAttempts
import RustAdmin.Viewer.ReconnectRequests
import RustAdmin.Viewer.RenderTargetRuns
import RustAdmin.Viewer.SessionHandleRuns
import RustAdmin.Clipboard.FileTree
import RustAdmin.Clipboard.FileHandles
import RustAdmin.Keyboard.ReportLifetimes
import RustAdmin.Keyboard.TextBudgets
import RustAdmin.Server.LoginFailures
import RustAdmin.Service.ReferenceRefresh
import RustAdmin.Terminal.Replay
import RustAdmin.VideoDelivery.Stalls
import RustAdmin.VideoQos.MoviePacer
import RustAdmin.Viewer.CommittedText
import RustAdmin.Support.BinarySearch
import RustAdmin.Support.Utf8
import RustAdmin.Audio.PcmQueue
import RustAdmin.Audio.Resampler
import RustAdmin.Audio.PlaybackRing
import RustAdmin.Server.OsCredentialBackoff
import RustAdmin.Viewer.PresentationClock
import RustAdmin.Viewer.DecoderRecovery
import RustAdmin.Viewer.StartupRecovery
import RustAdmin.Viewer.DisplayStartup
import RustAdmin.Viewer.StartupFeedback
import RustAdmin.VideoQos.TransportLoss
import RustAdmin.Viewer.FreshDecoder
import RustAdmin.Viewer.FreshMessages
import RustAdmin.Keyboard.TextInspection
import RustAdmin.Keyboard.PendingBytes
import RustAdmin.Support.Blocks
import RustAdmin.Support.Attempts
import RustAdmin.Handshake.SignedId
import RustAdmin.Handshake.SignedIdFormat
import RustAdmin.Handshake.PublicKeyPayload
import RustAdmin.Handshake.PeerTrust
import RustAdmin.Handshake.Pairing
import RustAdmin.Handshake.ViewerProgram
import RustAdmin.Handshake.ViewerTrust
import RustAdmin.Handshake.ViewerAttempt
import RustAdmin.Handshake.ViewerAnswer
import RustAdmin.Handshake.ViewerRuns
import RustAdmin.Handshake.ViewerHistory
import RustAdmin.Handshake.Host
import RustAdmin.Handshake.HostHistory
import RustAdmin.Handshake.Agreement
import RustAdmin.Clipboard.PasteTask
import RustAdmin.Clipboard.PasteSafety
import RustAdmin.Clipboard.PasteCompletion
import RustAdmin.Clipboard.PasteService
import RustAdmin.Clipboard.PasteTransfer
import RustAdmin.Support.ExitHandler
import RustAdmin.Updater.UpdateRequest
import RustAdmin.Updater.PrivilegedScript
import RustAdmin.Updater.ScriptSteps
import RustAdmin.Updater.ScriptParts
import RustAdmin.Updater.ScriptOutcome
import RustAdmin.Updater.ScriptRollback
import RustAdmin.Updater.UpdateOutcome
import RustAdmin.Updater.UpdateAttempts
import RustAdmin.Updater.UpdateProgress
