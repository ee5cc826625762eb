import Ax88179Aroma.Effect.Ledger
import Ax88179Aroma.Net.State

/-!
# State of the operating-system port of lwIP

The data of `net/port/sys_arch.c` and the primitives of the operating system under it.  A semaphore,
a mutex or a mailbox is known by the address of its block.  The operating system keeps the counts,
the queues, the clock and the heap; sleeping is two calls, so that the threads that sleep at the
same time also wake at the same time.

`PortHistory` is history only.  Its fields are written in the same atomic step as the access they
describe and no branch reads them.
-/

namespace Ax88179Aroma.Port

open Effect Net

/-- `SYS_ARCH_TIMEOUT`, which is also `SYS_MBOX_EMPTY` -/
def sysArchTimeout : UInt32 := 0xffffffff

def sysMboxEmpty : UInt32 := sysArchTimeout

/-- The ticks of `OSGetTime` in one second. -/
def osTimerClockSpeed : ℕ := 62156250

def osTicksToMilliseconds (ticks : ℕ) : ℕ := ticks * 1000 % 2 ^ 64 / osTimerClockSpeed

def osMillisecondsToTicks (ms : ℕ) : ℕ := ms * osTimerClockSpeed % 2 ^ 64 / 1000

/-- What a block is allocated for. -/
inductive Block where
  | semaphore
  | mutex
  /-- with room for so many messages -/
  | mailbox (size : ℕ)
  | thread
  | stack (size : ℕ)
  | start
  deriving DecidableEq, Repr

/-- The lwIP calls of one thread, with the bound on the polls of a timed wait. -/
inductive PortOp where
  | mboxNew (size : ℤ)
  | post (mbox msg : ℕ)
  | trypost (mbox msg : ℕ)
  | trypostFromisr (mbox msg : ℕ)
  | fetch (mbox : ℕ) (timeout : UInt32) (fuel : ℕ)
  | tryfetch (mbox : ℕ)
  | semNew (count : UInt8)
  | signal (sem : ℕ)
  | wait (sem : ℕ) (timeout : UInt32) (fuel : ℕ)
  deriving DecidableEq, Repr

/-- An access to a word that a mutex guards; a read has the value that it found. -/
inductive WordEvent where
  | added (val : UInt32)
  | subtracted (val : UInt32)
  | written (val : UInt32)
  | read (val : UInt32)
  deriving DecidableEq, Repr

/-- A wait with a timeout: the first and the last time it read, and how often it slept. -/
structure TimedWait where
  timeout : UInt32
  started : Option ℕ := none
  last : ℕ := 0
  sleeps : ℕ := 0
  deriving DecidableEq, Repr

structure PortHistory (ι : Type) where
  /-- the block that a `sys_*_new` has allocated and not yet initialised -/
  creating : ι → Option ℕ := fun _ ↦ none
  /-- for each mailbox, who put which message in, in this order -/
  entered : ℕ → List (ι × ℕ) := fun _ ↦ []
  /-- for each mailbox, who took which message out, in this order -/
  left : ℕ → List (ι × ℕ) := fun _ ↦ []
  /-- the messages of the completed posts that reported success -/
  posted : ι → ℕ → List ℕ := fun _ _ ↦ []
  /-- the messages that the completed fetches stored -/
  fetched : ι → ℕ → List ℕ := fun _ _ ↦ []
  /-- the count that `sys_sem_new` gave each semaphore -/
  permits : ℕ → ℕ := fun _ ↦ 0
  /-- for each semaphore, who signalled it -/
  given : ℕ → List ι := fun _ ↦ []
  /-- for each semaphore, who took a permit -/
  taken : ℕ → List ι := fun _ ↦ []
  /-- the completed calls of `sys_sem_signal` -/
  signalled : ι → ℕ → ℕ := fun _ _ ↦ 0
  /-- the completed waits that did not time out -/
  waited : ι → ℕ → ℕ := fun _ _ ↦ 0
  timing : ι → Option TimedWait := fun _ ↦ none
  /-- the completed waits with a timeout and their results -/
  returned : ι → List (TimedWait × UInt32) := fun _ ↦ []
  /-- for each mutex, who did what to the word that it guards -/
  applied : ℕ → List (ι × WordEvent) := fun _ ↦ []
  /-- the accesses of the completed critical sections -/
  completed : ι → ℕ → List WordEvent := fun _ _ ↦ []

/-- The probes, the blocks that carry the start of a thread and the words under the mutexes. -/
structure PortState (ι : Type) where
  axFetchCalls : UInt32 := 0
  axFetchTimeouts : UInt32 := 0
  axFetchInfinite : UInt32 := 0
  axFetchMsgs : UInt32 := 0
  /-- `fn` and `arg` of the start block at an address -/
  startBlock : ℕ → ℕ × ℕ := fun _ ↦ (0, 0)
  /-- the word that lwIP accesses under a mutex -/
  word : ℕ → UInt32 := fun _ ↦ 0
  history : PortHistory ι := {}

inductive PortCall where
  | malloc (block : Block)
  | memalign (align : ℕ) (block : Block)
  | free (p : ℕ)
  | osInitSemaphore (sem count : ℕ)
  | osSignalSemaphore (sem : ℕ)
  | osWaitSemaphore (sem : ℕ)
  | osTryWaitSemaphore (sem : ℕ)
  | osInitMutex (mutex : ℕ)
  | osLockMutex (mutex : ℕ)
  | osUnlockMutex (mutex : ℕ)
  | osInitMessageQueue (queue capacity : ℕ)
  | osSendMessage (queue : ℕ) (m : OSMessage) (blocking : Bool)
  | osReceiveMessage (queue : ℕ) (blocking : Bool)
  | osGetTime
  | osSleepTicks (ticks : ℕ)
  /-- the thread continues after `OSSleepTicks` -/
  | osAwake
  | osCreateThread (thread start stackTop stackSize : ℕ) (priority : ℤ)
  | osDetachThread (thread : ℕ)
  | osSetThreadName (thread name : ℕ)
  | osResumeThread (thread : ℕ)
  /-- the operating system runs the entry of a thread -/
  | osDispatch
  /-- the call `fn(arg)` in `ax_thread_entry` -/
  | threadFn (fn arg : ℕ)
  | axMark (mark : ℕ)
  deriving DecidableEq, Repr

/-- The returned number, the returned pointer (0 is `NULL`) and the received message. -/
structure PortReply where
  code : ℤ := 0
  pointer : ℕ := 0
  message : Option OSMessage := none
  deriving DecidableEq, Repr

/-- A recursive mutex. -/
structure OSMutex (ι : Type) where
  owner : Option ι := none
  /-- how often the owner has locked it -/
  count : ℕ := 0

/-- A thread that was created. -/
structure OSThread where
  /-- the address of its `OSThread` -/
  thread : ℕ
  start : ℕ
  resumed : Bool := false
  deriving DecidableEq, Repr

structure PortWorld (ι : Type) where
  /-- the clock at the begin of the run -/
  boot : ℕ := 0
  /-- `OSGetTime` -/
  now : ℕ := 0
  /-- when a sleeping thread may continue -/
  wake : ι → ℕ := fun _ ↦ 0
  heap : Ledger ℕ := {}
  semaphores : ℕ → Option ℕ := fun _ ↦ none
  mutexes : ℕ → Option (OSMutex ι) := fun _ ↦ none
  queues : ℕ → Option OSMessageQueue := fun _ ↦ none
  /-- the threads that were created and have not entered -/
  threads : List OSThread := []

abbrev PortM (ι : Type) := Program (PortState ι) PortCall PortReply

abbrev PortMachine (ι : Type) := Machine (PortState ι) (PortWorld ι)

end Ax88179Aroma.Port
