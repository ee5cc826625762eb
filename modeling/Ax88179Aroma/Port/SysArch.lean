import Ax88179Aroma.Port.State

/-!
# The operating-system port of lwIP

The functions of `net/port/sys_arch.c`.  A function that writes a handle through a pointer returns
it beside its result.  There is no timed wait in the operating system, so a wait with a timeout
polls, once a millisecond; its loop is cut after `fuel` polls.

`portReplies` says what the operating system can answer to which thread.
-/

namespace Ax88179Aroma.Port

open Effect Net Program

variable {ι : Type}

/-- A call whose result the source ignores. -/
def invoke (request : PortCall) : PortM ι Unit := do
  let _ ← perform request
  pure ()

/-! ## Time -/

def osGetTime : PortM ι ℕ := do
  let answer ← perform .osGetTime
  pure answer.code.toNat

def sysNow : PortM ι UInt32 := do
  let now ← osGetTime
  pure (UInt32.ofNat (osTicksToMilliseconds now))

def msleep (ms : ℕ) : PortM ι Unit := do
  invoke (.osSleepTicks (osMillisecondsToTicks ms))
  invoke .osAwake

/-- `(u32_t)OSTicksToMilliseconds(OSGetTime() - start)` -/
def elapsedSince (start : ℕ) : PortM ι UInt32 := do
  let now ← osGetTime
  pure (UInt32.ofNat (osTicksToMilliseconds (now - start)))

/-! ## Semaphores -/

/-- The error and the handle that was written. -/
def sysSemNew (count : UInt8) : PortM ι (ℤ × ℕ) := do
  let s ← perform (.malloc .semaphore)
  if s.pointer = 0 then pure (errMem, 0)
  else do
    invoke (.osInitSemaphore s.pointer count.toNat)
    pure (errOk, s.pointer)

def sysSemFree (sem : ℕ) : PortM ι ℕ := do
  invoke (.free sem)
  pure 0

def sysSemSignal (sem : ℕ) : PortM ι Unit := invoke (.osSignalSemaphore sem)

def sysSemValid (sem : ℕ) : Bool := decide (sem ≠ 0)

/-- The polls of `sys_arch_sem_wait`. -/
def semPoll (sem start : ℕ) (timeout : UInt32) : ℕ → PortM ι UInt32
  | 0 => .diverge
  | fuel + 1 => do
    let taken ← perform (.osTryWaitSemaphore sem)
    if taken.code ≠ 0 then elapsedSince start
    else do
      let elapsed ← elapsedSince start
      if elapsed ≥ timeout then pure sysArchTimeout
      else do
        msleep 1
        semPoll sem start timeout fuel

def sysArchSemWait (sem : ℕ) (timeout : UInt32) (fuel : ℕ) : PortM ι UInt32 :=
  if timeout = 0 then do
    invoke (.osWaitSemaphore sem)
    pure 0
  else do
    let start ← osGetTime
    semPoll sem start timeout fuel

/-! ## Mutexes -/

def sysMutexNew : PortM ι (ℤ × ℕ) := do
  let m ← perform (.malloc .mutex)
  if m.pointer = 0 then pure (errMem, 0)
  else do
    invoke (.osInitMutex m.pointer)
    pure (errOk, m.pointer)

def sysMutexLock (mutex : ℕ) : PortM ι Unit := invoke (.osLockMutex mutex)

def sysMutexUnlock (mutex : ℕ) : PortM ι Unit := invoke (.osUnlockMutex mutex)

def sysMutexFree (mutex : ℕ) : PortM ι ℕ := do
  invoke (.free mutex)
  pure 0

def sysMutexValid (mutex : ℕ) : Bool := decide (mutex ≠ 0)

/-! ## Mailboxes -/

def sysMboxNew (size : ℤ) : PortM ι (ℤ × ℕ) := do
  let size := if size ≤ 0 then 1 else size
  let m ← perform (.malloc (.mailbox size.toNat))
  if m.pointer = 0 then pure (errMem, 0)
  else do
    invoke (.osInitMessageQueue m.pointer size.toNat)
    pure (errOk, m.pointer)

def sysMboxPost (mbox msg : ℕ) : PortM ι Unit :=
  invoke (.osSendMessage mbox { message := msg, args0 := 0 } true)

def sysMboxTrypost (mbox msg : ℕ) : PortM ι ℤ := do
  let sent ← perform (.osSendMessage mbox { message := msg, args0 := 0 } false)
  pure (if sent.code ≠ 0 then errOk else errMem)

def sysMboxTrypostFromisr (mbox msg : ℕ) : PortM ι ℤ := sysMboxTrypost mbox msg

/-- Count a probe up; the read and the write are two accesses. -/
def countUp (probe : PortState ι → UInt32) (set : UInt32 → PortState ι → PortState ι) :
    PortM ι Unit := do
  let value ← load probe
  store (set (value + 1))

def countCall : PortM ι Unit :=
  countUp PortState.axFetchCalls fun value s ↦ { s with axFetchCalls := value }

def countInfinite : PortM ι Unit :=
  countUp PortState.axFetchInfinite fun value s ↦ { s with axFetchInfinite := value }

def countTimeout : PortM ι Unit :=
  countUp PortState.axFetchTimeouts fun value s ↦ { s with axFetchTimeouts := value }

def countMsg : PortM ι Unit :=
  countUp PortState.axFetchMsgs fun value s ↦ { s with axFetchMsgs := value }

/-- What is stored through `msg`, nothing when that is `NULL`. -/
def storedMessage (wanted : Bool) (received : PortReply) : Option ℕ :=
  if wanted then received.message.map OSMessage.message else none

/-- The polls of `sys_arch_mbox_fetch`. -/
def fetchPoll (mbox : ℕ) (wanted : Bool) (start : ℕ) (timeout : UInt32) :
    ℕ → PortM ι (UInt32 × Option ℕ)
  | 0 => .diverge
  | fuel + 1 => do
    let received ← perform (.osReceiveMessage mbox false)
    if received.message.isSome then do
      countMsg
      let elapsed ← elapsedSince start
      pure (elapsed, storedMessage wanted received)
    else do
      let elapsed ← elapsedSince start
      if elapsed ≥ timeout then do
        countTimeout
        pure (sysArchTimeout, none)
      else do
        msleep 1
        fetchPoll mbox wanted start timeout fuel

/-- The result and what was stored through `msg`. -/
def sysArchMboxFetch (mbox : ℕ) (wanted : Bool) (timeout : UInt32) (fuel : ℕ) :
    PortM ι (UInt32 × Option ℕ) := do
  countCall
  if timeout = 0 then do
    countInfinite
    let received ← perform (.osReceiveMessage mbox true)
    countMsg
    pure (0, storedMessage wanted received)
  else do
    let start ← osGetTime
    fetchPoll mbox wanted start timeout fuel

def sysArchMboxTryfetch (mbox : ℕ) (wanted : Bool) : PortM ι (UInt32 × Option ℕ) := do
  let received ← perform (.osReceiveMessage mbox false)
  if received.message.isSome then pure (0, storedMessage wanted received)
  else pure (sysMboxEmpty, none)

def sysMboxFree (mbox : ℕ) : PortM ι ℕ := do
  invoke (.free mbox)
  pure 0

def sysMboxValid (mbox : ℕ) : Bool := decide (mbox ≠ 0)

/-! ## Threads -/

def axMarkThreadCreated : ℕ := 6
def axMarkThreadEntered : ℕ := 7

def axThreadEntry (start : ℕ) : PortM ι ℤ := do
  invoke (.axMark axMarkThreadEntered)
  let fn ← load fun s ↦ (s.startBlock start).1
  let arg ← load fun s ↦ (s.startBlock start).2
  invoke (.free start)
  invoke (.threadFn fn arg)
  pure 0

/-- The failure path of `sys_thread_new`. -/
def freeThread (t stack start : ℕ) : PortM ι ℕ := do
  invoke (.free t)
  invoke (.free stack)
  invoke (.free start)
  pure 0

/-- The priority that `sys_thread_new` asks for. -/
def cafePriority (prio : ℤ) : ℤ :=
  let cprio := 4 + prio
  let cprio := if cprio > 31 then 31 else cprio
  if cprio < 0 then 0 else cprio

def setStartFn (start fn : ℕ) (s : PortState ι) : PortState ι :=
  { s with startBlock := Function.update s.startBlock start (fn, (s.startBlock start).2) }

def setStartArg (start arg : ℕ) (s : PortState ι) : PortState ι :=
  { s with startBlock := Function.update s.startBlock start ((s.startBlock start).1, arg) }

/-- The part of `sys_thread_new` after the three allocations succeeded. -/
def launchThread (name fn arg t stack start stacksize : ℕ) (prio : ℤ) : PortM ι ℕ := do
  store (setStartFn start fn)
  store (setStartArg start arg)
  let created ←
    perform (.osCreateThread t start (stack + stacksize) stacksize (cafePriority prio))
  if created.code = 0 then freeThread t stack start
  else do
    invoke (.osDetachThread t)
    invoke (.osSetThreadName t name)
    invoke (.osResumeThread t)
    invoke (.axMark axMarkThreadCreated)
    pure t

/-- The handle of the thread, `NULL` when it could not be created. -/
def sysThreadNew (name fn arg : ℕ) (stacksize prio : ℤ) : PortM ι ℕ := do
  let stacksize := (if stacksize ≤ 0 then 16 * 1024 else stacksize).toNat
  let t ← perform (.memalign 0x40 .thread)
  let stack ← perform (.memalign 0x40 (.stack stacksize))
  let start ← perform (.malloc .start)
  if t.pointer = 0 ∨ stack.pointer = 0 ∨ start.pointer = 0 then
    freeThread t.pointer stack.pointer start.pointer
  else launchThread name fn arg t.pointer stack.pointer start.pointer stacksize prio

/-! ## Critical sections -/

/-- The static `protect_mutex`, at an address that no block has. -/
def protectMutex : ℕ := 0

def sysInit : PortM ι Unit := invoke (.osInitMutex protectMutex)

def sysArchProtect : PortM ι ℕ := do
  invoke (.osLockMutex protectMutex)
  pure 0

/-- The argument is not used. -/
def sysArchUnprotect (_ : ℕ) : PortM ι Unit := invoke (.osUnlockMutex protectMutex)

/-! ## The operating system -/

namespace PortHistory

/-- What happened at an object ends with it. -/
def forget (h : PortHistory ι) (p : ℕ) : PortHistory ι :=
  { h with
    entered := Function.update h.entered p []
    left := Function.update h.left p []
    posted := fun i ↦ Function.update (h.posted i) p []
    fetched := fun i ↦ Function.update (h.fetched i) p []
    given := Function.update h.given p []
    taken := Function.update h.taken p []
    signalled := fun i ↦ Function.update (h.signalled i) p 0
    waited := fun i ↦ Function.update (h.waited i) p 0 }

variable [DecidableEq ι] (h : PortHistory ι)

def setCreating (i : ι) (handle : Option ℕ) : PortHistory ι :=
  { h with creating := Function.update h.creating i handle }

def enter (i : ι) (mbox msg : ℕ) : PortHistory ι :=
  { h with entered := Function.update h.entered mbox (h.entered mbox ++ [(i, msg)]) }

def leave (i : ι) (mbox msg : ℕ) : PortHistory ι :=
  { h with left := Function.update h.left mbox (h.left mbox ++ [(i, msg)]) }

def setPermits (sem count : ℕ) : PortHistory ι :=
  { h with permits := Function.update h.permits sem count }

def give (i : ι) (sem : ℕ) : PortHistory ι :=
  { h with given := Function.update h.given sem (h.given sem ++ [i]) }

def take (i : ι) (sem : ℕ) : PortHistory ι :=
  { h with taken := Function.update h.taken sem (h.taken sem ++ [i]) }

def setTiming (i : ι) (timing : Option TimedWait) : PortHistory ι :=
  { h with timing := Function.update h.timing i timing }

end PortHistory

/-- A wait reads the clock. -/
def TimedWait.read (w : TimedWait) (now : ℕ) : TimedWait :=
  { w with started := w.started.orElse fun _ ↦ some now, last := now }

/-- A wait has slept. -/
def TimedWait.slept (w : TimedWait) : TimedWait := { w with sleeps := w.sleeps + 1 }

section Replies

variable [DecidableEq ι] (i : ι) (x : PortMachine ι)

/-- The machine with another history. -/
def withHistory (history : PortHistory ι) : PortMachine ι :=
  { x with mem := { x.mem with history := history } }

/-- The heap gives out a block that is not out. -/
def allocate (block : Block) (p : ℕ) : Option (PortMachine ι) :=
  if p = 0 then some x
  else (x.world.heap.acquire p).map fun heap ↦
    { mem := match block with
        | .semaphore | .mutex | .mailbox _ =>
          { x.mem with history := x.mem.history.setCreating i (some p) }
        | _ => x.mem
      world := { x.world with heap := heap } }

def initSemaphore (sem count : ℕ) : PortMachine ι where
  mem := { x.mem with
    history := (x.mem.history.setCreating i none).setPermits sem count }
  world := { x.world with semaphores := Function.update x.world.semaphores sem (some count) }

def initMessageQueue (queue capacity : ℕ) : PortMachine ι where
  mem := { x.mem with history := x.mem.history.setCreating i none }
  world := { x.world with
    queues := Function.update x.world.queues queue (some { capacity := capacity, messages := [] }) }

def initMutex (mutex : ℕ) : PortMachine ι where
  mem := { x.mem with history := x.mem.history.setCreating i none }
  world := { x.world with mutexes := Function.update x.world.mutexes mutex (some {}) }

/-- A permit is added. -/
def signal (sem count : ℕ) : PortMachine ι where
  mem := { x.mem with history := x.mem.history.give i sem }
  world := { x.world with semaphores := Function.update x.world.semaphores sem (some (count + 1)) }

/-- A permit is taken; `count` are left. -/
def takePermit (sem count : ℕ) : PortMachine ι where
  mem := { x.mem with history := x.mem.history.take i sem }
  world := { x.world with semaphores := Function.update x.world.semaphores sem (some count) }

/-- A message enters a queue. -/
def sendMessage (queue : ℕ) (box : OSMessageQueue) (m : OSMessage) : PortMachine ι where
  mem := { x.mem with history := x.mem.history.enter i queue m.message }
  world := { x.world with
    queues := Function.update x.world.queues queue
      (some { box with messages := box.messages ++ [m] }) }

/-- A message leaves a queue. -/
def receiveMessage (queue : ℕ) (box : OSMessageQueue) (m : OSMessage) (rest : List OSMessage) :
    PortMachine ι where
  mem := { x.mem with history := x.mem.history.leave i queue m.message }
  world := { x.world with
    queues := Function.update x.world.queues queue (some { box with messages := rest }) }

/-- The clock of the thread's wait is read. -/
def readClock : PortMachine ι :=
  withHistory x
    (x.mem.history.setTiming i ((x.mem.history.timing i).map fun w ↦ w.read x.world.now))

def awake : PortMachine ι :=
  withHistory x (x.mem.history.setTiming i ((x.mem.history.timing i).map TimedWait.slept))

def setMutex (mutex : ℕ) (m : OSMutex ι) : PortMachine ι :=
  { x with world := { x.world with mutexes := Function.update x.world.mutexes mutex (some m) } }

/-- A thread locks a mutex that is free or its own. -/
def lockMutex (mutex : ℕ) : Option (PortMachine ι) :=
  (x.world.mutexes mutex).bind fun m ↦
    if m.owner = none ∨ m.owner = some i then
      some (setMutex x mutex { owner := some i, count := m.count + 1 })
    else none

/-- Only the owner can unlock a mutex. -/
def unlockMutex (mutex : ℕ) : Option (PortMachine ι) :=
  (x.world.mutexes mutex).map fun m ↦
    if m.owner = some i then
      setMutex x mutex (if m.count = 1 then {} else { owner := some i, count := m.count - 1 })
    else x

/-- A block goes back to the heap, and with it the semaphore, the mailbox or the mutex in it. -/
def freeBlock (p : ℕ) : PortMachine ι where
  mem := { x.mem with history := x.mem.history.forget p }
  world := { x.world with
    heap := x.world.heap.release p
    semaphores := Function.update x.world.semaphores p none
    mutexes := Function.update x.world.mutexes p none
    queues := Function.update x.world.queues p none }

end Replies

variable [DecidableEq ι]

/-- What the operating system can answer to thread `i`. -/
def portReplies (i : ι) : Replies (PortState ι) (PortWorld ι) PortCall PortReply
  | .malloc block, answer, x => allocate i x block answer.pointer
  | .memalign _ block, answer, x => allocate i x block answer.pointer
  | .free p, _, x => some (if p = 0 then x else freeBlock x p)
  | .osInitSemaphore sem count, _, x => some (initSemaphore i x sem count)
  | .osSignalSemaphore sem, _, x =>
    (x.world.semaphores sem).map fun count ↦ signal i x sem count
  | .osWaitSemaphore sem, _, x =>
    match x.world.semaphores sem with
    | some (count + 1) => some (takePermit i x sem count)
    | _ => none
  | .osTryWaitSemaphore sem, answer, x =>
    match x.world.semaphores sem with
    | some 0 => if answer.code = 0 then some x else none
    | some (count + 1) =>
      if answer.code = (count + 1 : ℕ) then some (takePermit i x sem count) else none
    | none => none
  | .osInitMutex mutex, _, x => some (initMutex i x mutex)
  | .osLockMutex mutex, _, x => lockMutex i x mutex
  | .osUnlockMutex mutex, _, x => unlockMutex i x mutex
  | .osInitMessageQueue queue capacity, _, x => some (initMessageQueue i x queue capacity)
  | .osSendMessage queue m blocking, answer, x =>
    (x.world.queues queue).bind fun box ↦
      if box.messages.length < box.capacity then
        if answer.code ≠ 0 then some (sendMessage i x queue box m) else none
      else if blocking = false ∧ answer.code = 0 then some x
      else none
  | .osReceiveMessage queue blocking, answer, x =>
    (x.world.queues queue).bind fun box ↦
      match box.messages with
      | [] => if blocking = false ∧ answer.message = none then some x else none
      | m :: rest =>
        if answer.message = some m then some (receiveMessage i x queue box m rest) else none
  | .osGetTime, answer, x =>
    if answer.code = (x.world.now : ℤ) then some (readClock i x) else none
  | .osSleepTicks ticks, _, x =>
    some { x with world := { x.world with
      wake := Function.update x.world.wake i (x.world.now + ticks) } }
  | .osAwake, _, x => if x.world.wake i ≤ x.world.now then some (awake i x) else none
  | .osCreateThread thread start _ _ _, answer, x =>
    some (if answer.code = 0 then x
      else { x with world := { x.world with
        threads := x.world.threads ++ [{ thread := thread, start := start }] } })
  | .osDetachThread _, _, x => some x
  | .osSetThreadName _ _, _, x => some x
  | .osResumeThread thread, _, x =>
    some { x with world := { x.world with
      threads := x.world.threads.map fun entry ↦
        if entry.thread = thread then { entry with resumed := true } else entry } }
  | .osDispatch, answer, x =>
    match x.world.threads.find? fun entry ↦ entry.resumed && entry.start == answer.pointer with
    | some entry =>
      some { x with world := { x.world with threads := x.world.threads.erase entry } }
    | none => none
  | .threadFn _ _, _, x => some x
  | .axMark _, _, x => some x

end Ax88179Aroma.Port
