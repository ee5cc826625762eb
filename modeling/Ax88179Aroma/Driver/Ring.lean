import Ax88179Aroma.Driver.Parser

/-!
# The asynchronous receive ring

`ax_rx_submit_slot`, `ax_rx_start_async`, `ax_rx_take_completed`, `ax88179_receive_buffered` and
`ax88179_receive` as programs.  Every access to a slot that the UHS callback also touches is an
atomic step of its own; the cursor and the snapshot belong to the receiving thread alone, so an
update of them is one step.
-/

namespace Ax88179Aroma.Driver

open Effect Program

def note (event : RxNote) : DriverM Unit := do
  let _ ← perform (.note event)
  pure ()

def axRxSubmitSlot (index : SlotIndex) : DriverM ℤ := do
  store fun driver ↦ driver.setSlot index fun slot ↦ { slot with ret := 0, actual := 0 }
  store fun driver ↦ driver.setSlot index fun slot ↦ { slot with state := .pending }
  let reply ← perform (.submitBulkRequestAsync index)
  if reply.code ≠ 0 then do
    store fun driver ↦ driver.setSlot index fun slot ↦ { slot with state := .idle }
    store fun driver ↦ driver.setAx fun ax ↦ { ax with lastBulk := reply.code }
    pure (-1)
  else pure 0

/-- The second loop of `ax_rx_start_async`, which gives up at the first refusal. -/
def axRxSubmitAll : List SlotIndex → DriverM ℤ
  | [] => pure 0
  | index :: rest => do
    let rc ← axRxSubmitSlot index
    if rc ≠ 0 then do
      store fun driver ↦ driver.setAx fun ax ↦ { ax with rxAsyncStarted := false }
      pure (-1)
    else axRxSubmitAll rest

def axRxSlots : List SlotIndex := [0, 1, 2]

def axRxStartAsync : DriverM ℤ := do
  note .startBegin
  store fun driver ↦ driver.setAx fun ax ↦ { ax with rxConsume := 0 }
  let _ ← perform .osInitEvent
  store fun driver ↦ driver.setAx fun ax ↦ { ax with rxAsyncStarted := true }
  each (fun index ↦ store fun driver ↦ driver.setSlot index fun _ ↦
    { state := .idle, ret := 0, actual := 0, buffer := some index }) axRxSlots
  let rc ← axRxSubmitAll axRxSlots
  note .startEnd
  pure rc

/-- `ax_rx_take_completed` from the point where the slot is known to be done. -/
def axRxTakeDone (index : SlotIndex) : DriverM ℤ := do
  let ret ← load fun driver ↦ (driver.gRxSlots index).ret
  let actual ← load fun driver ↦ (driver.gRxSlots index).actual
  note (.consume index)
  store fun driver ↦ driver.setAx fun ax ↦
    { ax with rxConsume := index + 1, lastBulk := ret, lastBulkUs := 0 }
  if ret < 0 ∨ actual < 4 ∨ actual > rxBufferSize then do
    store fun driver ↦ driver.setSlot index fun slot ↦ { slot with state := .idle }
    let _ ← axRxSubmitSlot index
    pure (if ret < 0 ∨ actual ≠ 0 then -1 else 0)
  else do
    let copied ← perform (.memcpyBuffer index actual)
    store fun driver ↦ { driver with gRx := driver.gRx.copy copied.bytes actual }
    store fun driver ↦ driver.setSlot index fun slot ↦ { slot with state := .idle }
    -- a refused re-submission keeps the aggregate and leaves the slot idle
    let _ ← axRxSubmitSlot index
    let loaded ← access fun driver ↦
      let out := axRxLoadAggregate driver.gRx actual driver.ax
      (out.2, driver.setAx fun _ ↦ out.1)
    note (.loaded loaded.2)
    pure loaded.1

def axRxTakeCompleted : DriverM ℤ := do
  let index ← load fun driver ↦ driver.ax.rxConsume
  let state ← load fun driver ↦ (driver.gRxSlots index).state
  if state ≠ .done then pure 0
  else axRxTakeDone index

def ax88179ReceiveBuffered (maxLength : ℤ) : DriverM Received := do
  let received ← access fun driver ↦
    let out := receiveBufferedImpl driver.gRx maxLength driver.ax
    (out.2, driver.setAx fun _ ↦ out.1)
  note (.parsed received.1 received.2)
  pure received.1

/-- The part of `ax88179_receive` after the ring is known to run. -/
def ax88179ReceiveNext (maxLength timeoutUs : ℤ) : DriverM Received := do
  let first ← axRxTakeCompleted
  let loaded ←
    if first = 0 ∧ timeoutUs > 0 then do
      let _ ← perform (.osWaitEventWithTimeout timeoutUs)
      axRxTakeCompleted
    else pure first
  if loaded ≤ 0 then pure ⟨loaded, []⟩
  else ax88179ReceiveBuffered maxLength

/-- `ax88179_receive` on a valid handle and frame pointer. -/
def ax88179Receive (maxLength timeoutUs : ℤ) : DriverM Received :=
  if maxLength < 14 then pure ⟨-1, []⟩
  else do
    let medium ← load fun driver ↦ driver.ax.medium
    if medium = 0 then pure ⟨0, []⟩
    else do
      let n ← ax88179ReceiveBuffered maxLength
      if n.ret ≠ 0 then pure n
      else do
        let started ← load fun driver ↦ driver.ax.rxAsyncStarted
        let rc ← if started then pure (0 : ℤ) else axRxStartAsync
        if rc ≠ 0 then pure ⟨-1, []⟩
        else ax88179ReceiveNext maxLength timeoutUs

end Ax88179Aroma.Driver
