import MiniModem.Lib.Audience
import MiniModem.Lib.Fields
import MiniModem.Lib.LittleEndian
import MiniModem.Lib.Outcome
import MiniModem.Lib.Ownership
import MiniModem.Lib.Reader
import MiniModem.Lib.Runs
import MiniModem.Lib.System
import MiniModem.Lib.Trace
import MiniModem.Lib.UnorderedMap
import MiniModem.Transport.Tty
import MiniModem.Transport.TtyObjects
import MiniModem.Transport.LineReader
import MiniModem.Transport.LineRuns
import MiniModem.Transport.Outbox
import MiniModem.Transport.OutboxRuns
import MiniModem.Transport.EventLoop
import MiniModem.Modem.EventBus
import MiniModem.Modem.Subscriptions
import MiniModem.Modem.Publish
import MiniModem.Modem.Modem
import MiniModem.Modem.Session
import MiniModem.Qmi.Message
import MiniModem.Qmi.Codec
import MiniModem.Qmi.CodecRoundTrip
import MiniModem.Qmi.CodecLengths
import MiniModem.Qmi.FrameParser
import MiniModem.Qmi.Framing
import MiniModem.Qmi.Reassembly
import MiniModem.Qmi.Fragmentation
import MiniModem.Qmi.Dispatcher
import MiniModem.Qmi.Session
import MiniModem.Qmi.SessionOutput
import MiniModem.Qmi.Transactions
import MiniModem.Qmi.Client
import MiniModem.At.Session
import MiniModem.At.Fragmentation
import MiniModem.At.Parser
import MiniModem.At.ParserRoundTrip
import MiniModem.Daemon.State
import MiniModem.Daemon.Step
import MiniModem.Daemon.Serving
import MiniModem.Daemon.Registration
import MiniModem.Daemon.Consistency
import MiniModem.Daemon.WakeUp
import MiniModem.Daemon.HalfClose
import MiniModem.Daemon.Sessions
import MiniModem.Daemon.Output
import MiniModem.Daemon.Liveness
import MiniModem.Daemon.HangUp
import MiniModem.Daemon.Commands
import MiniModem.Daemon.Blocking
import MiniModem.Daemon.Batch
import MiniModem.Daemon.Teardown
import MiniModem.Daemon.Records
import MiniModem.Daemon.Origins
import MiniModem.Daemon.Connections
import MiniModem.Daemon.QmiClient
import MiniModem.Daemon.Accounts
import MiniModem.Daemon.Clients
import MiniModem.Daemon.Isolation
import MiniModem.Daemon.FanOut
import MiniModem.Daemon.Rollback
import MiniModem.Daemon.Unwinding
import MiniModem.Daemon.Main
import MiniModem.Daemon.Leaving
import MiniModem.Daemon.Exit
import MiniModem.Daemon.Order
import MiniModem.SharedModem.Model
import MiniModem.SharedModem.History
import MiniModem.SharedModem.Refinement
import MiniModem.SharedModem.Calls
import MiniModem.SharedModem.Agreement
import MiniModem.SharedModem.Input
import MiniModem.SharedModem.Answers
import MiniModem.SharedModem.Delivery
import MiniModem.SharedModem.Terminal
