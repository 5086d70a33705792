import XbeeAssignment.Lib.Transition
import XbeeAssignment.Lib.ByteString
import XbeeAssignment.Lib.Memory
import XbeeAssignment.Lib.CString
import XbeeAssignment.Lib.Framing
import XbeeAssignment.Lib.WrapCounter
import XbeeAssignment.Lib.Ledger
import XbeeAssignment.Lib.Truncation
import XbeeAssignment.Lib.FloatRounding
import XbeeAssignment.Lib.MixedRadix
import XbeeAssignment.Lib.FirstMatch
import XbeeAssignment.Lib.StopAndWait
import XbeeAssignment.Lib.Decimal
import XbeeAssignment.XBee.Request
import XbeeAssignment.XBee.Receive
import XbeeAssignment.XBee.Exchange
import XbeeAssignment.XBee.RequestFormat
import XbeeAssignment.XBee.ResponseDecoding
import XbeeAssignment.XBee.RetryLoop
import XbeeAssignment.XBee.MutualExclusion
import XbeeAssignment.XBee.Serialisation
import XbeeAssignment.XBee.Completion
import XbeeAssignment.XBee.Delivery
import XbeeAssignment.XBee.AnswerMatching
import XbeeAssignment.XBee.Integrity
import XbeeAssignment.XBee.TempCallback
import XbeeAssignment.XBee.LossyLink
import XbeeAssignment.XBee.RemoteControl
import XbeeAssignment.XBee.Sampling
import XbeeAssignment.Main.Console
import XbeeAssignment.Socket.Listener
import XbeeAssignment.Socket.Reframing
import XbeeAssignment.Socket.Slots
import XbeeAssignment.Socket.ListenerSafety
import XbeeAssignment.Socket.Draining
import XbeeAssignment.Socket.Handshake
import XbeeAssignment.Socket.Transmit
import XbeeAssignment.Socket.Packages
import XbeeAssignment.Socket.TxThreads
import XbeeAssignment.Socket.SendSafety
import XbeeAssignment.Socket.Finality
import XbeeAssignment.Socket.Descriptors
import XbeeAssignment.Socket.Buffers
import XbeeAssignment.Socket.PeerAddress
import XbeeAssignment.Timer.Vtmr
import XbeeAssignment.Timer.Expiry
import XbeeAssignment.Timer.Independence
import XbeeAssignment.Timer.Clock
import XbeeAssignment.Timer.Decisions
import XbeeAssignment.Timer.NeverAhead
import XbeeAssignment.Timer.Clamp
import XbeeAssignment.Timer.Elapsed
import XbeeAssignment.Timer.Double
import XbeeAssignment.Timer.ReadableTimer
import XbeeAssignment.Timer.Pause
import XbeeAssignment.Timer.Latch
import XbeeAssignment.Timer.RealTime
import XbeeAssignment.Socket.InitTx
import XbeeAssignment.Messages.Table
import XbeeAssignment.Messages.Lookups
import XbeeAssignment.Messages.Allocation
