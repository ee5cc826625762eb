import Ax88179Aroma.Driver.Ring
import Ax88179Aroma.Effect.Concurrency

/-!
# The USB host stack behind the receive ring

UHS accepts or refuses each submission, owns the DMA buffers, and completes every accepted transfer
once, in any order and at any moment, by running `ax_rx_async_callback` and then signalling
`g_rx_event`.  The world keeps the transfers that are outstanding and, as history, what was
submitted, completed, consumed and returned.

`ring` is the receiving thread against this environment: a run of it is a sequence of
`ax88179_receive` calls with the completions placed anywhere between its atomic steps.
-/

namespace Ax88179Aroma.Driver

open Effect Program

/-- The result that UHS reports for a transfer, and the bytes it left in the buffer. -/
structure Completion where
  ret : ℤ
  actual : ℕ
  data : Memory

/-- What the current receive call found when it was entered, and whether UHS refused one of its
submissions.  `nextDone` tells whether the oldest transfer that was not consumed was complete, and
`consumedAt` counts the transfers that were. -/
structure CallRecord where
  ringStarted : Bool := false
  drained : Bool := false
  refused : Bool := false
  nextDone : Bool := false
  consumedAt : ℕ := 0
  deriving DecidableEq, Repr

/-- The transfers on the ring.  Accepted submissions are numbered from 0 in the order they were
made. -/
structure Transfers where
  buffers : SlotIndex → Memory := fun _ _ ↦ 0
  submitted : ℕ := 0
  flight : List (ℕ × SlotIndex) := []
  completions : ℕ → Option Completion := fun _ ↦ none
  /-- the transfer whose completion a slot holds -/
  held : SlotIndex → Option ℕ := fun _ ↦ none
  consumed : List (Option ℕ) := []
  returned : List Received := []

namespace Transfers

/-- Outstanding transfers on one DMA buffer. -/
def outstanding (transfers : Transfers) (index : SlotIndex) : ℕ :=
  transfers.flight.countP fun transfer ↦ transfer.2 = index

def accept (transfers : Transfers) (index : SlotIndex) : Transfers :=
  { transfers with
    flight := transfers.flight ++ [(transfers.submitted, index)]
    submitted := transfers.submitted + 1 }

/-- The outcome of an outstanding transfer. -/
def complete (transfers : Transfers) (transfer : ℕ × SlotIndex) (result : Completion) :
    Transfers :=
  { transfers with
    flight := transfers.flight.erase transfer
    buffers := Function.update transfers.buffers transfer.2 result.data
    completions := Function.update transfers.completions transfer.1 (some result)
    held := Function.update transfers.held transfer.2 (some transfer.1) }

def consume (transfers : Transfers) (index : SlotIndex) : Transfers :=
  { transfers with consumed := transfers.consumed ++ [transfers.held index] }

end Transfers

/-- The state of UHS and the history of the receiving thread. -/
structure UhsWorld extends Transfers where
  event : Bool := false
  toSignal : ℕ := 0
  refused : Bool := false
  /-- a ring start is in progress -/
  starting : Bool := false
  /-- a submission outside a ring start was refused -/
  rearmRefused : Bool := false
  /-- a ring start began while a transfer was outstanding -/
  busyStart : Bool := false
  call : CallRecord := {}

namespace UhsWorld

def submit (world : UhsWorld) (index : SlotIndex) (code : ℤ) : UhsWorld :=
  if code = 0 then { world with toTransfers := world.toTransfers.accept index }
  else
    { world with
      refused := true
      rearmRefused := world.rearmRefused || !world.starting
      call := { world.call with refused := true } }

/-- History of the receiving thread. -/
def record (world : UhsWorld) (driver : DriverState) : RxNote → UhsWorld
  | .receiveBegin maxLength =>
    { world with
      call := {
        ringStarted := driver.ax.rxAsyncStarted
        drained := decide ((receiveBufferedImpl driver.gRx maxLength driver.ax).2.1.ret = 0)
        refused := false
        nextDone := (world.completions world.consumed.length).isSome
        consumedAt := world.consumed.length } }
  | .startBegin =>
    { world with
      starting := true
      busyStart := world.busyStart || !world.flight.isEmpty }
  | .startEnd => { world with starting := false }
  | .consume index => { world with toTransfers := world.toTransfers.consume index }
  | .loaded _ => world
  | .parsed _ _ => world
  | .returned _ result => { world with returned := world.returned ++ [result] }

end UhsWorld

abbrev UhsMachine := Machine DriverState UhsWorld

def uhsReply : Replies DriverState UhsWorld UhsCall UhsReply
  | .submitBulkRequestAsync index, answer, x =>
    some { x with world := x.world.submit index answer.code }
  | .memcpyBuffer index count, answer, x =>
    if answer.bytes.slice 0 count = (x.world.buffers index).slice 0 count then some x else none
  | .osInitEvent, _, x => some { x with world := { x.world with event := false } }
  | .osWaitEventWithTimeout _, answer, x =>
    -- a nonzero code is a wake-up, zero an expired timeout
    if answer.code = 0 then some x
    else if x.world.event then some { x with world := { x.world with event := false } }
    else none
  | .note event, _, x => some { x with world := x.world.record x.mem event }
  | .handle _, _, x => some x
  | .submitControlRequest .., _, x => some x
  | .osSleepMs _, _, x => some x

/-- `ax_rx_async_callback` for the slot `user` and the buffer of the transfer. -/
def axRxAsyncCallback (user buffer : SlotIndex) (ret : ℤ) (actual : ℕ) (driver : DriverState) :
    DriverState :=
  if (driver.gRxSlots user).buffer ≠ some buffer then driver
  else driver.setSlot user fun slot ↦ { slot with ret := ret, actual := actual, state := .done }

inductive UhsEvent where
  | complete (transfer : ℕ × SlotIndex) (result : Completion)
  | signal

/-- The world after the completion of an outstanding transfer. -/
def UhsWorld.complete (world : UhsWorld) (transfer : ℕ × SlotIndex) (result : Completion) :
    UhsWorld :=
  { world with
    toTransfers := world.toTransfers.complete transfer result
    toSignal := world.toSignal + 1 }

def uhsEnv : UhsEvent → UhsMachine → Option UhsMachine
  | .complete transfer result, x =>
    if transfer ∈ x.world.flight then
      some {
        mem := axRxAsyncCallback transfer.2 transfer.2 result.ret result.actual x.mem
        world := x.world.complete transfer result }
    else none
  | .signal, x =>
    if 0 < x.world.toSignal then
      some { x with world := { x.world with event := true, toSignal := x.world.toSignal - 1 } }
    else none

/-- The arguments of one `ax88179_receive` call. -/
structure ReceiveArgs where
  maxLength : ℤ
  timeoutUs : ℤ
  deriving DecidableEq, Repr

/-- One `ax88179_receive` call with its entry and its return. -/
def receiveCall (args : ReceiveArgs) : DriverM Unit := do
  note (.receiveBegin args.maxLength)
  let result ← ax88179Receive args.maxLength args.timeoutUs
  note (.returned args.maxLength result)

/-- The receiving thread, which makes only `allowed` calls. -/
def ring (allowed : ReceiveArgs → Bool) :
    System Unit ReceiveArgs UhsEvent DriverState UhsWorld UhsCall UhsReply where
  reply _ := uhsReply
  env := uhsEnv
  body _ args := receiveCall args
  enabled _ args _ := allowed args

/-- An open handle whose ring was never started, before UHS has accepted anything for it.  The
static slots may hold anything that an earlier handle left in them. -/
structure FreshHandle (x : UhsMachine) : Prop where
  not_started : x.mem.ax.rxAsyncStarted = false
  no_buffered : x.mem.ax.rxFrames ≤ x.mem.ax.rxNext
  world_eq : ∃ buffers, x.world = { buffers := buffers }

abbrev RingAction := Action Unit ReceiveArgs UhsEvent UhsReply

abbrev RingConfig := Config Unit DriverState UhsWorld UhsCall UhsReply

/-- A handle straight after the link came up. -/
def openHandle : UhsMachine where
  mem := { ax := { medium := 1 } }
  world := {}

theorem freshHandle_openHandle : FreshHandle openHandle := ⟨rfl, Nat.le_refl 0, ⟨fun _ _ ↦ 0, rfl⟩⟩

/-! ## Pieces of schedules -/

/-- Enter `ax88179_receive`, find no buffered frame and read `rx_async_started`. -/
def scheduleEnter (args : ReceiveArgs) : List RingAction :=
  [.start () args, .answer () {}, .step (), .step (), .answer () {}, .step ()]

/-- `ax_rx_start_async` up to its first submission. -/
def scheduleStart : List RingAction :=
  [.answer () {}, .step (), .answer () {}, .step (), .step (), .step (), .step ()]

def scheduleAccepted : List RingAction :=
  [.step (), .step (), .answer () {}]

def scheduleRefused : List RingAction :=
  [.step (), .step (), .answer () { code := -1 }, .step (), .step ()]

/-- `ax_rx_take_completed` finds the slot in another state than done. -/
def scheduleNothing : List RingAction := [.step (), .step ()]

/-- `ax_rx_take_completed` consumes an empty transfer, up to its submission. -/
def scheduleEmpty : List RingAction :=
  [.step (), .step (), .step (), .step (), .answer () {}, .step (), .step ()]

def scheduleReturn : List RingAction := [.answer () {}, .step ()]

/-- A receive call that arms the ring and finds nothing completed. -/
def scheduleArm : List RingAction :=
  scheduleEnter ⟨1514, 0⟩ ++ scheduleStart ++ scheduleAccepted ++ scheduleAccepted ++
    scheduleAccepted ++ [.answer () {}] ++ scheduleNothing ++ scheduleReturn

/-! ## What the outside can do -/

@[simp]
theorem axRxAsyncCallback_ax (user buffer : SlotIndex) (ret : ℤ) (actual : ℕ)
    (driver : DriverState) : (axRxAsyncCallback user buffer ret actual driver).ax = driver.ax := by
  unfold axRxAsyncCallback
  split <;> rfl

@[simp]
theorem axRxAsyncCallback_gRx (user buffer : SlotIndex) (ret : ℤ) (actual : ℕ)
    (driver : DriverState) :
    (axRxAsyncCallback user buffer ret actual driver).gRx = driver.gRx := by
  unfold axRxAsyncCallback
  split <;> rfl

theorem axRxAsyncCallback_of_ne {user index : SlotIndex} (hne : index ≠ user) (buffer : SlotIndex)
    (ret : ℤ) (actual : ℕ) (driver : DriverState) :
    (axRxAsyncCallback user buffer ret actual driver).gRxSlots index = driver.gRxSlots index := by
  unfold axRxAsyncCallback
  split
  · rfl
  · exact driver.setSlot_of_ne hne _

@[simp]
theorem axRxAsyncCallback_buffer (user buffer : SlotIndex) (ret : ℤ) (actual : ℕ)
    (driver : DriverState) (index : SlotIndex) :
    ((axRxAsyncCallback user buffer ret actual driver).gRxSlots index).buffer =
      (driver.gRxSlots index).buffer := by
  by_cases hsame : index = user
  · unfold axRxAsyncCallback
    split
    · rfl
    · rw [hsame, DriverState.setSlot_self]
  · rw [axRxAsyncCallback_of_ne hsame]

theorem reply_memcpyBuffer {allowed : ReceiveArgs → Bool} {index : SlotIndex} {count : ℕ}
    {answer : UhsReply} {x y : UhsMachine}
    (h : (ring allowed).reply () (.memcpyBuffer index count) answer x = some y) :
    y = x ∧ answer.bytes.slice 0 count = (x.world.buffers index).slice 0 count := by
  simp only [ring, uhsReply] at h
  split at h
  · exact ⟨(Option.some.inj h).symm, ‹_›⟩
  · cases h

theorem reply_osWaitEventWithTimeout {allowed : ReceiveArgs → Bool} {timeoutUs : ℤ}
    {answer : UhsReply} {x y : UhsMachine}
    (h : (ring allowed).reply () (.osWaitEventWithTimeout timeoutUs) answer x = some y) :
    ∃ event, y = { x with world := { x.world with event := event } } := by
  simp only [ring, uhsReply] at h
  split at h
  · cases h
    exact ⟨_, rfl⟩
  · split at h
    · cases h
      exact ⟨_, rfl⟩
    · cases h

/-- What one environment step does. -/
theorem uhsEnv_cases {event : UhsEvent} {x y : UhsMachine} (h : uhsEnv event x = some y) :
    (∃ transfer result, event = .complete transfer result ∧ transfer ∈ x.world.flight ∧
      y = {
        mem := axRxAsyncCallback transfer.2 transfer.2 result.ret result.actual x.mem
        world := x.world.complete transfer result }) ∨
    (event = .signal ∧
      y = { x with world := { x.world with event := true, toSignal := x.world.toSignal - 1 } }) := by
  cases event with
  | complete transfer result =>
    simp only [uhsEnv] at h
    split at h
    · rename_i hmem
      cases h
      exact .inl ⟨transfer, result, rfl, hmem, rfl⟩
    · cases h
  | signal =>
    simp only [uhsEnv] at h
    split at h
    · cases h
      exact .inr ⟨rfl, rfl⟩
    · cases h

end Ax88179Aroma.Driver
