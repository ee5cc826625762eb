import Ax88179Aroma.Effect.Memory
import Ax88179Aroma.Effect.Program
import Mathlib.Data.Int.Notation

/-!
# State of the network interface

The static data of `net/ax_net.c`.  Outgoing frames pass from the stack to the worker through the
slots `tx_pool`, their flags `tx_in_use` and the message queue `tx_queue`; everything else belongs
to the worker alone.

`TxHistory` is history only.  Its fields are written in the same atomic step as the access they
describe and no branch reads them.  Progress marks, the random seed, the printed address and the
counters of the status line that no modelled function writes are left out.
-/

namespace Ax88179Aroma.Net

open Effect

def txSlots : ℕ := 32

/-- `sizeof(tx_pool[0])` -/
def txSlotSize : ℕ := 1600

def rxFrameSize : ℕ := 1600

def errOk : ℤ := 0
def errMem : ℤ := -1
def errBuf : ℤ := -2
def errIf : ℤ := -12

/-- The message words that the queue carries: the slot and the length of its frame. -/
structure OSMessage where
  message : ℕ
  args0 : ℕ
  deriving DecidableEq, Repr

/-- A bounded FIFO. -/
structure OSMessageQueue where
  capacity : ℕ := 0
  messages : List OSMessage := []
  deriving DecidableEq, Repr

/-- A packet buffer chain: the total length in its head and the payload of each link. -/
structure Pbuf where
  totLen : ℕ
  chain : List (List UInt8)
  deriving DecidableEq, Repr

/-- The frame that a chain describes. -/
def Pbuf.frame (p : Pbuf) : List UInt8 := p.chain.flatten.take p.totLen

/-- The calls that the worker makes.  The loops inside are cut after `fuel` rounds. -/
inductive WorkerOp where
  | start (ax : ℕ)
  | poll (fuel : ℕ)
  | stop (fuel : ℕ)
  deriving DecidableEq, Repr

/-- What the worker does with the message it holds. -/
inductive WorkerPhase where
  | idle
  /-- dequeued, and not yet handed to the driver -/
  | taken (m : OSMessage)
  /-- handed to the driver, slot not yet released -/
  | passed (m : OSMessage)
  deriving DecidableEq, Repr

namespace WorkerPhase

def message : WorkerPhase → Option OSMessage
  | idle => none
  | taken m => some m
  | passed m => some m

/-- The message that still waits for its fate. -/
def waiting : WorkerPhase → Option OSMessage
  | idle => none
  | taken m => some m
  | passed _ => none

end WorkerPhase

/-- What became of a frame that was dequeued. -/
inductive TxFate where
  | sent (frame : List UInt8)
  | discarded (operation : Option WorkerOp) (frame : List UInt8)
  deriving DecidableEq, Repr

namespace TxFate

def frame : TxFate → List UInt8
  | sent frame => frame
  | discarded _ frame => frame

def sent? : TxFate → Option (List UInt8)
  | sent frame => some frame
  | discarded .. => none

end TxFate

structure TxHistory where
  /-- the slot that `send_frame` has claimed and not yet posted or released -/
  filling : Option ℕ := none
  worker : WorkerPhase := .idle
  operation : Option WorkerOp := none
  /-- the frames as they were when their message entered the queue -/
  posted : List (List UInt8) := []
  /-- the completed `send_frame` calls with their results -/
  returned : List (Pbuf × ℤ) := []
  settled : List TxFate := []

/-- The frames for which `send_frame` returned `ERR_OK`, in this order. -/
def TxHistory.accepted (history : TxHistory) : List (List UInt8) :=
  (history.returned.filter fun call ↦ call.2 = errOk).map fun call ↦ call.1.frame

/-- The frames that were passed to `ax88179_send`, in this order. -/
def TxHistory.sent (history : TxHistory) : List (List UInt8) :=
  history.settled.filterMap TxFate.sent?

/-- The transmit path. -/
structure TxState where
  txPool : ℕ → Memory := fun _ _ ↦ 0
  txInUse : ℕ → ℤ := fun _ ↦ 0
  txQueue : OSMessageQueue := {}
  history : TxHistory := {}

structure NetState extends TxState where
  initialized : ℤ := 0
  active : ℤ := 0
  linkErrors : ℤ := 0
  lastLinkUp : ℤ := 0
  netifInList : ℤ := 0
  sessionLeaseMode : ℤ := 1
  sessionLeaseValid : ℤ := 0
  sessionIp : UInt32 := 0
  sessionNetmask : UInt32 := 0
  sessionGateway : UInt32 := 0
  currentUsingCachedLease : ℤ := 0
  /-- `iface.state`, the adapter handle, with 0 for `NULL` -/
  ifaceState : ℕ := 0
  lastLink : UInt32 := 0
  statRxOk : UInt32 := 0
  statRxErr : UInt32 := 0
  statRxIdle : UInt32 := 0
  statTxQ : UInt32 := 0
  statTxDrop : UInt32 := 0
  statTxOk : UInt32 := 0
  statTxErr : UInt32 := 0
  statInOk : UInt32 := 0
  statInDrop : UInt32 := 0
  statBeats : UInt32 := 0

inductive NetCall where
  | osSendMessage (m : OSMessage)
  | osReceiveMessage
  | tcpipInit
  | lockTcpipCore
  | unlockTcpipCore
  | lwipPortResetAll
  | sysNow
  | sysTimeout (ms : ℕ)
  | netifAdd (ax : ℕ)
  | netifRemove
  | netifSetDefault
  | netifSetUp
  | netifSetDown
  | netifSetLinkUp
  | netifSetLinkDown
  | netifSetAddr (ip netmask gateway : UInt32)
  | netifDhcpData
  | netifIsLinkUp
  | netifIp4Addr
  | netifIp4Netmask
  | netifIp4Gw
  | tcpipShutdown
  | dhcpSuppliedAddress
  | dhcpStart
  | dhcpStop
  | dhcpReleaseAndStop
  | dhcpCleanup
  | pbufAlloc (length : ℕ)
  | pbufTake (p : ℤ) (bytes : List UInt8)
  | ifaceInput (p : ℤ)
  | pbufFree (p : ℤ)
  | ax88179Link (ax : ℕ)
  | ax88179Send (ax : ℕ) (frame : List UInt8)
  | ax88179Receive (ax maxLength : ℕ) (timeoutUs : ℤ)
  | ax88179LastBulk (ax : ℕ)
  | ax88179LastBulkUs (ax : ℕ)
  deriving DecidableEq, Repr

/-- The returned number (for a pointer, 0 is `NULL`), the dequeued message and the bytes that a
read filled in. -/
structure NetReply where
  code : ℤ := 0
  message : Option OSMessage := none
  bytes : Memory := fun _ ↦ 0

abbrev NetM := Program NetState NetCall NetReply

end Ax88179Aroma.Net
