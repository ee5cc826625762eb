import Ax88179Aroma.Effect.Memory
import Ax88179Aroma.Effect.Program
import Mathlib.Data.Int.Notation

/-!
# State of the AX88179 driver

The state of `driver/ax88179.c`: the handle with the cursor into the aggregate that is being
unwrapped, the parser-owned snapshot `g_rx`, and the three asynchronous ring slots.  The DMA
buffers behind the slots belong to UHS, so they are part of the outside and are read by a call.

Calls named `note` are history only.  They tell the outside where the program is, so that runs can
be stated in terms of transfers, aggregates and returned frames; no branch depends on them.
Logging, cache maintenance and the fields that only feed the status line are left out.
-/

namespace Ax88179Aroma.Driver

open Effect

def rxBufferSize : ℕ := 26 * 1024

/-- Index of a ring slot; `RX_ASYNC_SLOTS` is 3. -/
abbrev SlotIndex := Fin 3

scoped instance slotIndex_neZero : NeZero 3 := ⟨by decide⟩

scoped instance endpointIndex_neZero : NeZero 16 := ⟨by decide⟩

scoped instance transfer_lawfulBEq : LawfulBEq (ℕ × SlotIndex) := inferInstance

def axRxhdrCrcErr : ℕ := 0x20000000
def axRxhdrDropErr : ℕ := 0x80000000

/-- The fields of `struct Ax88179` that decide what the driver does.  A handle comes from
`calloc`, so every field starts at zero. -/
structure Ax88179 where
  ifHandle : ℕ := 0
  epIn : ℕ := 0
  epOut : ℕ := 0
  epIrq : ℕ := 0
  epInMask : ℕ := 0
  epOutMask : ℕ := 0
  enabledEps : ℕ := 0
  txMaxpacket : ℕ := 0
  mac : List UInt8 := List.replicate 6 0
  medium : ℕ := 0
  rxLen : ℕ := 0
  rxFrames : ℕ := 0
  rxNext : ℕ := 0
  rxHdrOffset : ℕ := 0
  rxPos : ℕ := 0
  rxConsume : SlotIndex := 0
  rxAsyncStarted : Bool := false
  lastBulk : ℤ := 0
  lastBulkUs : ℕ := 0
  deriving DecidableEq, Repr

inductive SlotState where
  | idle
  | pending
  | done
  deriving DecidableEq, Repr

/-- `buffer` names the ring buffer that the slot points to, `none` before the first start. -/
structure AxRxAsyncSlot where
  state : SlotState := .idle
  ret : ℤ := 0
  actual : ℕ := 0
  buffer : Option SlotIndex := none
  deriving DecidableEq, Repr

/-- The static state of the driver and its one handle. -/
structure DriverState where
  gOpen : Bool := false
  phyInitGeneration : ℕ := 0
  ax : Ax88179 := {}
  gRx : Memory := fun _ ↦ 0
  gRxSlots : SlotIndex → AxRxAsyncSlot := fun _ ↦ {}

namespace DriverState

def setAx (driver : DriverState) (update : Ax88179 → Ax88179) : DriverState :=
  { driver with ax := update driver.ax }

def setSlot (driver : DriverState) (index : SlotIndex) (update : AxRxAsyncSlot → AxRxAsyncSlot) :
    DriverState :=
  { driver with
    gRxSlots := Function.update driver.gRxSlots index (update (driver.gRxSlots index)) }

@[simp]
theorem setAx_ax (driver : DriverState) (update : Ax88179 → Ax88179) :
    (driver.setAx update).ax = update driver.ax := rfl

@[simp]
theorem setAx_gRx (driver : DriverState) (update : Ax88179 → Ax88179) :
    (driver.setAx update).gRx = driver.gRx := rfl

@[simp]
theorem setAx_gRxSlots (driver : DriverState) (update : Ax88179 → Ax88179) :
    (driver.setAx update).gRxSlots = driver.gRxSlots := rfl

@[simp]
theorem setSlot_ax (driver : DriverState) (index : SlotIndex)
    (update : AxRxAsyncSlot → AxRxAsyncSlot) : (driver.setSlot index update).ax = driver.ax := rfl

@[simp]
theorem setSlot_gRx (driver : DriverState) (index : SlotIndex)
    (update : AxRxAsyncSlot → AxRxAsyncSlot) : (driver.setSlot index update).gRx = driver.gRx := rfl

@[simp]
theorem setSlot_self (driver : DriverState) (index : SlotIndex)
    (update : AxRxAsyncSlot → AxRxAsyncSlot) :
    (driver.setSlot index update).gRxSlots index = update (driver.gRxSlots index) :=
  Function.update_self index _ _

theorem setSlot_of_ne (driver : DriverState) {index other : SlotIndex} (h : other ≠ index)
    (update : AxRxAsyncSlot → AxRxAsyncSlot) :
    (driver.setSlot index update).gRxSlots other = driver.gRxSlots other :=
  Function.update_of_ne h _ _

end DriverState

/-- What a receive call hands to its caller: the returned `int` and the bytes stored in `frame`. -/
structure Received where
  ret : ℤ
  frame : List UInt8
  deriving DecidableEq, Repr

/-- A read of the parser in `g_rx`, from index `first` on. -/
inductive RxRead where
  | trailer (first : ℕ)
  | descriptor (index first : ℕ)
  | frame (first count : ℕ)
  deriving DecidableEq, Repr

/-- Where the receiving thread is. -/
inductive RxNote where
  | receiveBegin (maxLength : ℤ)
  | startBegin
  | startEnd
  | consume (index : SlotIndex)
  | loaded (reads : List RxRead)
  | parsed (result : Received) (reads : List RxRead)
  | returned (maxLength : ℤ) (result : Received)
  deriving DecidableEq, Repr

inductive EndpointAdmin where
  | enable
  | cancel
  | disable
  deriving DecidableEq, Repr

/-- The calls that open and close the handle. -/
inductive HandleCall where
  | calloc
  | free
  | uhsClientOpen
  | uhsClientClose
  | uhsQueryInterfaces (vid pid : ℕ)
  | uhsAcquireInterface (ifHandle : ℕ)
  | uhsReleaseInterface (ifHandle : ℕ)
  | uhsAdministerEndpoint (ifHandle : ℕ) (admin : EndpointAdmin) (mask count size : ℕ)
  deriving DecidableEq, Repr

inductive UhsCall where
  | handle (request : HandleCall)
  | submitControlRequest (read : Bool) (cmd value index size : ℕ) (data : List UInt8)
  | submitBulkRequestAsync (index : SlotIndex)
  | memcpyBuffer (index : SlotIndex) (count : ℕ)
  | osInitEvent
  | osWaitEventWithTimeout (timeoutUs : ℤ)
  | osSleepMs (ms : ℕ)
  | note (event : RxNote)
  deriving DecidableEq, Repr

structure UhsEndpointDescriptor where
  bLength : ℕ := 0
  bEndpointAddress : ℕ := 0
  bmAttributes : ℕ := 0
  wMaxPacketSize : ℕ := 0
  deriving DecidableEq, Repr

/-- The part of an interface profile that `ax88179_open` looks at. -/
structure UhsInterfaceProfile where
  ifHandle : ℕ := 0
  inEndpoints : Fin 16 → UhsEndpointDescriptor := fun _ ↦ {}
  outEndpoints : Fin 16 → UhsEndpointDescriptor := fun _ ↦ {}

/-- The returned code, the bytes that a read filled in, and the first profile of a query. -/
structure UhsReply where
  code : ℤ := 0
  bytes : Memory := fun _ ↦ 0
  profile : UhsInterfaceProfile := {}

abbrev DriverM := Program DriverState UhsCall UhsReply

end Ax88179Aroma.Driver
