import Ax88179Aroma.Effect.Program
import Ax88179Aroma.Effect.Concurrency
import Ax88179Aroma.Effect.Memory
import Ax88179Aroma.Dns.Name
import Ax88179Aroma.Driver.State
import Ax88179Aroma.Driver.Parser
import Ax88179Aroma.Driver.Ring
import Ax88179Aroma.Driver.Uhs
import Ax88179Aroma.Driver.Framing
import Ax88179Aroma.Driver.Exclusive
import Ax88179Aroma.Driver.Rearm
import Ax88179Aroma.Driver.RingOrder
import Ax88179Aroma.Driver.Bounds
import Ax88179Aroma.Effect.Ownership
import Ax88179Aroma.Net.State
import Ax88179Aroma.Net.Interface
import Ax88179Aroma.Net.Heartbeat
import Ax88179Aroma.Net.Slots
import Ax88179Aroma.Net.TxQueue
import Ax88179Aroma.Effect.Holding
import Ax88179Aroma.Shim.State
import Ax88179Aroma.Shim.Relay
import Ax88179Aroma.Shim.Pipe
import Ax88179Aroma.Shim.Sockets
import Ax88179Aroma.Shim.SockOpt
import Ax88179Aroma.Shim.Nssl
import Ax88179Aroma.Shim.Dns
import Ax88179Aroma.Shim.Registry
import Ax88179Aroma.Shim.Lifecycle
import Ax88179Aroma.Shim.Descriptors
import Ax88179Aroma.Shim.Frames
import Ax88179Aroma.Shim.Probes
import Ax88179Aroma.Shim.Bridge
import Ax88179Aroma.Shim.Quiesce
import Ax88179Aroma.Shim.Ownership
import Ax88179Aroma.Shim.Handover
import Ax88179Aroma.Shim.TitleRuns
import Ax88179Aroma.Effect.BitSet
import Ax88179Aroma.Effect.Buffer
import Ax88179Aroma.Shim.Select
import Ax88179Aroma.Shim.DnsTable
import Ax88179Aroma.Effect.History
import Ax88179Aroma.Shim.DnsRuns
import Ax88179Aroma.Shim.Workers
import Ax88179Aroma.Shim.Reservations
import Ax88179Aroma.Shim.Handshakes
import Ax88179Aroma.Module.Worker
import Ax88179Aroma.Module.Handles
import Ax88179Aroma.Module.Config
import Ax88179Aroma.Shim.TitleThreads
import Ax88179Aroma.Dns.Message
import Ax88179Aroma.Shim.PtrDns
import Ax88179Aroma.Shim.PtrResponse
import Ax88179Aroma.Driver.Balance
import Ax88179Aroma.Module.Callbacks
import Ax88179Aroma.Shim.Multi
import Ax88179Aroma.Shim.Options
import Ax88179Aroma.Shim.Datagrams
import Ax88179Aroma.Shim.Marks
import Ax88179Aroma.Effect.Ledger
import Ax88179Aroma.Shim.Wiiload
import Ax88179Aroma.Shim.WiiloadPipe
import Ax88179Aroma.Driver.Registers
import Ax88179Aroma.Driver.Transmit
import Ax88179Aroma.Driver.Wakeup
import Ax88179Aroma.Shim.PrivateRuns
import Ax88179Aroma.Shim.TransitRuns
import Ax88179Aroma.Port.Critical
import Ax88179Aroma.Dns.Query
import Ax88179Aroma.Shim.PtrQuery
import Ax88179Aroma.Module.Rules
import Ax88179Aroma.Port.ThreadRuns
