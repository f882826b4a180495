import EmbeddedBridge.Library.Transducer
import EmbeddedBridge.Library.Layers
import EmbeddedBridge.Library.Mailbox
import EmbeddedBridge.Library.Consumer
import EmbeddedBridge.Library.Traces
import EmbeddedBridge.Library.Histories
import EmbeddedBridge.Library.Windows
import EmbeddedBridge.Library.Pairing
import EmbeddedBridge.Library.Methods
import EmbeddedBridge.Library.Settling
import EmbeddedBridge.Library.BoundedBuffer
import EmbeddedBridge.Library.Delimited
import EmbeddedBridge.Library.Lines
import EmbeddedBridge.Library.Crc
import EmbeddedBridge.Library.CrcErrors
import EmbeddedBridge.Library.Checksum
import EmbeddedBridge.Library.Leb128
import EmbeddedBridge.Library.Unwrap
import EmbeddedBridge.Library.Utf8
import EmbeddedBridge.Library.Utf8Lines
import EmbeddedBridge.Library.Cobs
import EmbeddedBridge.Library.Regex
import EmbeddedBridge.Library.Py.Text
import EmbeddedBridge.Library.Py.Number
import EmbeddedBridge.Library.Py.Conversion
import EmbeddedBridge.Library.Py.Json
import EmbeddedBridge.Library.Py.Dumps
import EmbeddedBridge.Library.Py.Dictionary
import EmbeddedBridge.Library.Py.Sorted
import EmbeddedBridge.Language
import EmbeddedBridge.Framing.Crc16
import EmbeddedBridge.Framing.Crc16Table
import EmbeddedBridge.Framing.Writer
import EmbeddedBridge.Framing.Hdlc
import EmbeddedBridge.Framing.Slip
import EmbeddedBridge.Framing.Cobs
import EmbeddedBridge.Framing.CobsArrays
import EmbeddedBridge.Framing.WriterArrays
import EmbeddedBridge.Framing.Print
import EmbeddedBridge.Framing.Kinds
import EmbeddedBridge.Message.Varint
import EmbeddedBridge.Message.Reader
import EmbeddedBridge.Message.Wire
import EmbeddedBridge.Message.Parse
import EmbeddedBridge.Message.Bytewise
import EmbeddedBridge.Message.Handler
import EmbeddedBridge.Framing.Line
import EmbeddedBridge.Message.Delivery
import EmbeddedBridge.Message.Writer
import EmbeddedBridge.Receivers.EventCapture
import EmbeddedBridge.Receivers.CrashDetector
import EmbeddedBridge.Receivers.SleepWake
import EmbeddedBridge.Receivers.MemoryTracker
import EmbeddedBridge.Receivers.Router
import EmbeddedBridge.Receivers.NestedRouter
import EmbeddedBridge.Testing.Protocol
import EmbeddedBridge.Testing.Session
import EmbeddedBridge.Testing.SleepProtocol
import EmbeddedBridge.Testing.Discovery
import EmbeddedBridge.Testing.Start
import EmbeddedBridge.Transport.Reconnect
import EmbeddedBridge.Transport.WebSocket
import EmbeddedBridge.Transport.Serial
import EmbeddedBridge.Verified.HdlcDelivery
import EmbeddedBridge.Verified.HdlcSoundness
import EmbeddedBridge.Verified.SlipDelivery
import EmbeddedBridge.Verified.SlipStrictness
import EmbeddedBridge.Verified.CobsCapacity
import EmbeddedBridge.Verified.CobsCodec
import EmbeddedBridge.Verified.FramingLayers
import EmbeddedBridge.Verified.CrcDetection
import EmbeddedBridge.Verified.Crc16Agreement
import EmbeddedBridge.Verified.FlowControl
import EmbeddedBridge.Verified.FramingWriters
import EmbeddedBridge.Verified.CallbackGrammar
import EmbeddedBridge.Verified.MessageRoundTrip
import EmbeddedBridge.Verified.VarintCodec
import EmbeddedBridge.Verified.Chunking
import EmbeddedBridge.Verified.Peers
import EmbeddedBridge.Verified.FullStack
import EmbeddedBridge.Verified.Timeline
import EmbeddedBridge.Verified.SleepSafety
import EmbeddedBridge.Verified.ReaderReset
import EmbeddedBridge.Verified.WriterSessions
import EmbeddedBridge.Verified.CaptureSurvival
import EmbeddedBridge.Verified.SpanPairing
import EmbeddedBridge.Verified.Durations
import EmbeddedBridge.Verified.LineFraming
import EmbeddedBridge.Verified.Draining
import EmbeddedBridge.Verified.Links
import EmbeddedBridge.Verified.HdlcDamage
import EmbeddedBridge.Verified.LineReading
import EmbeddedBridge.Verified.TestOutcomes
import EmbeddedBridge.Verified.CatalogTolerance
import EmbeddedBridge.Verified.StartCommand
import EmbeddedBridge.Verified.SessionSteps
import EmbeddedBridge.Verified.SessionLines
import EmbeddedBridge.Verified.SessionEnds
import EmbeddedBridge.Verified.CrashReports
import EmbeddedBridge.Verified.CrashWindow
import EmbeddedBridge.Verified.PortFollowing
import EmbeddedBridge.Verified.SleepAlternation
import EmbeddedBridge.Verified.MemorySurvival
import EmbeddedBridge.Verified.MemoryReports
import EmbeddedBridge.Verified.TrackerLines
import EmbeddedBridge.Verified.TrackerContents
import EmbeddedBridge.Verified.TrackerChecksum
import EmbeddedBridge.Verified.Routing
import EmbeddedBridge.Verified.NestedRouting
import EmbeddedBridge.Verified.WebSocketStream
import EmbeddedBridge.Verified.DeadLinks
import EmbeddedBridge.Verified.TransportErrors
import EmbeddedBridge.Verified.SerialStream
import EmbeddedBridge.Verified.TransportEnds
import EmbeddedBridge.Verified.WebSocketEnds
import EmbeddedBridge.Verified.SerialSession
import EmbeddedBridge.Verified.Printing
