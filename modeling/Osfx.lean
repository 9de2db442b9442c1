import Osfx.Lib.Run
import Osfx.Lib.History
import Osfx.Lib.Attempts
import Osfx.Lib.Streams
import Osfx.Lib.SlotTable
import Osfx.Lib.Text
import Osfx.Lib.Collect
import Osfx.Lib.Cell
import Osfx.Lib.Numeral
import Osfx.Lib.Scan
import Osfx.Lib.Crc
import Osfx.Sizes
import Osfx.Solidity
import Osfx.HandshakeCmd
import Osfx.FusionPacket
import Osfx.HandshakeParse
import Osfx.FrameErrors
import Osfx.FusionState
import Osfx.Fusion.Parse
import Osfx.Fusion.Delta
import Osfx.Fusion.Entry
import Osfx.Fusion.Table
import Osfx.Fusion.Bounds
import Osfx.Fusion.WellFormed
import Osfx.Fusion.Failure
import Osfx.Fusion.Lockstep
import Osfx.Fusion.Delivery
import Osfx.Fusion.Streams
import Osfx.Fusion.Selection
import Osfx.Fusion.Resync
import Osfx.SecureSession
import Osfx.SecurePacket
import Osfx.FrameCodec
import Osfx.IdAllocator
import Osfx.IdStorage
import Osfx.Lease
import Osfx.IdPool
import Osfx.IdRestore
import Osfx.Allocation
import Osfx.HandshakeDispatch
import Osfx.Replay
import Osfx.Verdict
import Osfx.KeyExchange
import Osfx.FrameOutcome
import Osfx.Refusal
import Osfx.SessionState
import Osfx.SessionStorage
import Osfx.LostAnswer
import Osfx.Channel
import Osfx.Glue
import Osfx.Expiry
import Osfx.OwnAddress
import Osfx.AddressRequest
import Osfx.Base62
import Osfx.Base62Exact
import Osfx.TemplateGrammar
import Osfx.TemplateRoundTrip
import Osfx.TemplateDecoded
import Osfx.CoreFacade
import Osfx.MultiSensor
import Osfx.SlotAgreement
import Osfx.MessageForgery
import Osfx.Tokens
import Osfx.SensorPacket
import Osfx.SensorAuto
import Osfx.DeltaBody
import Osfx.Transporter
import Osfx.DriverOrder
import Osfx.ServiceRuntime
import Osfx.ServiceLife
import Osfx.PortForwarder
import Osfx.ForwardOrder
import Osfx.DriverRuns
import Osfx.LeaseBounds
import Osfx.LeaseTerm
import Osfx.FailedLoad
import Osfx.Lib.Rounding
import Osfx.Standardization
import Osfx.Quantisation
import Osfx.ServiceRegistry
import Osfx.ServiceReload
import Osfx.RuleRefusal
import Osfx.RuleStorage
import Osfx.Lib.Words
import Osfx.PortCommand
import Osfx.Lib.Framing
import Osfx.Lib.Reassembly
import Osfx.ProtocolMatrix
import Osfx.CanSegments
import Osfx.StreamFrames
import Osfx.TruncatedRecord
import Osfx.Fusion.Reparse
import Osfx.Lib.Access
import Osfx.PacketAccess
import Osfx.Fusion.Mirror
import Osfx.Fusion.Readings
import Osfx.Fusion.Savings
import Osfx.SensorDelivery
import Osfx.SecureLink
import Osfx.Conversation
import Osfx.TransportPlugin
import Osfx.Restart
import Osfx.EasyDelivery
import Osfx.CliLite
