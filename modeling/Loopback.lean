import Loopback.Executor
import Loopback.Feature
import Loopback.Replay.Command
import Loopback.Replay.PipeRun
import Loopback.Replay.Tokens
import Loopback.Proofs.Frame
import Loopback.Proofs.History
import Loopback.Proofs.Schedule
import Loopback.Proofs.Callers
import Loopback.Proofs.Journal
import Loopback.Proofs.ClosingOrder
import Loopback.Proofs.Isolation
import Loopback.Proofs.Renaming
import Loopback.Proofs.PlainWrites
import Loopback.Proofs.Attempts
import Loopback.Proofs.Sleepers
import Loopback.Proofs.Wakeups
import Loopback.Proofs.Ledger
import Loopback.Proofs.Pairing
import Loopback.Proofs.Stranded
import Loopback.Proofs.RingContents
import Loopback.Proofs.Turns
import Loopback.Proofs.Account
import Loopback.Proofs.EndOfStream
import Loopback.Proofs.Occupancy
import Loopback.Proofs.Draining
import Loopback.Proofs.Session
import Loopback.Proofs.PipeSleepers
import Loopback.Proofs.ByteFlow
import Loopback.Proofs.Conveyance
import Loopback.Proofs.MessageStages
import Loopback.Proofs.Cancellation
import Loopback.Proofs.NoTrace
import Loopback.Proofs.SelfRegistration
import Loopback.Proofs.Blocking
import Loopback.Proofs.Handling
import Loopback.Proofs.Tethers
import Loopback.Proofs.Reading
import Loopback.Proofs.Ensemble
import Loopback.Proofs.Upkeep
import Loopback.Proofs.SinkScripts
import Loopback.Proofs.SinkDuty
import Loopback.Proofs.SinkRun
import Loopback.Proofs.SinkTicks
import Loopback.Proofs.SinkAccount
import Loopback.Proofs.Directions
import Loopback.Proofs.Independence
import Loopback.Proofs.RingBounds
import Loopback.Proofs.RingQueue
import Loopback.Proofs.CloseHandlers
import Loopback.Proofs.RingChunks
import Loopback.Proofs.Aftermath
import Loopback.Proofs.Releases
import Loopback.Proofs.Conversions
import Loopback.Proofs.Skipping
import Loopback.Proofs.WriteAll
import Loopback.Proofs.Tuning
import Loopback.Proofs.Wording
import Loopback.Proofs.TypedMaps
import Loopback.Proofs.Reports
import Loopback.Proofs.Chronicle
import Loopback.Proofs.Sections
import Loopback.Proofs.Crowd
import Loopback.Proofs.Registry
import Loopback.Proofs.Alarm
