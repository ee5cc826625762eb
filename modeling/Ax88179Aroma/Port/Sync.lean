import Ax88179Aroma.Effect.Concurrency
import Ax88179Aroma.Port.SysArch

/-!
# Threads at the mailboxes and semaphores

`portSystem` interleaves any number of threads, atomic step by atomic step.  Each creates mailboxes
and semaphores and posts, fetches, signals and waits on those that exist.  Nothing is freed before
the end of a run.  The clock moves between any two steps, and a run is shorter than `2 ^ 32 - 1`
milliseconds, about 49 days: after that a result in milliseconds would pass for `SYS_ARCH_TIMEOUT`.

`Own i` is what only thread `i` changes; the others rely on it, on the clock and on the objects that
exist.  `Holding i work` says that the completed calls of `i` account for all that it did except for
`work`.
-/

namespace Ax88179Aroma.Port

open Effect Net Program

variable {ι : Type} [DecidableEq ι]

/-! ## The calls and their records -/

namespace PortHistory

variable (h : PortHistory ι) (i : ι)

/-- A wait with a timeout begins. -/
def begin (timeout : UInt32) : PortHistory ι :=
  h.setTiming i (if timeout = 0 then none else some { timeout := timeout })

/-- A wait returns. -/
def finish (code : UInt32) : PortHistory ι :=
  { h.setTiming i none with
    returned := Function.update h.returned i
      (h.returned i ++ (h.timing i).toList.map fun w ↦ (w, code)) }

def recordPosted (mbox msg : ℕ) : PortHistory ι :=
  { h with
    posted := Function.update h.posted i
      (Function.update (h.posted i) mbox (h.posted i mbox ++ [msg])) }

def recordFetched (mbox : ℕ) (result : UInt32 × Option ℕ) : PortHistory ι :=
  { h with
    fetched := Function.update h.fetched i
      (Function.update (h.fetched i) mbox
        (h.fetched i mbox ++ if result.1 = sysArchTimeout then [] else result.2.toList)) }

def recordSignalled (sem : ℕ) : PortHistory ι :=
  { h with
    signalled := Function.update h.signalled i
      (Function.update (h.signalled i) sem (h.signalled i sem + 1)) }

def recordWaited (sem : ℕ) (code : UInt32) : PortHistory ι :=
  { h with
    waited := Function.update h.waited i
      (Function.update (h.waited i) sem
        (h.waited i sem + if code = sysArchTimeout then 0 else 1)) }

end PortHistory

/-- Write to the history. -/
def record (update : PortHistory ι → PortHistory ι) : PortM ι Unit :=
  store fun s ↦ { s with history := update s.history }

/-- One post that reports whether it succeeded. -/
def reportPost (i : ι) (mbox msg : ℕ) (err : ℤ) : PortM ι Unit :=
  when (err = errOk) (record fun h ↦ h.recordPosted i mbox msg)

/-- One call of a thread and its return. -/
def portBody (i : ι) : PortOp → PortM ι Unit
  | .mboxNew size => do
    let _ ← sysMboxNew size
    pure ()
  | .post mbox msg => do
    sysMboxPost mbox msg
    reportPost i mbox msg errOk
  | .trypost mbox msg => do
    let err ← sysMboxTrypost mbox msg
    reportPost i mbox msg err
  | .trypostFromisr mbox msg => do
    let err ← sysMboxTrypostFromisr mbox msg
    reportPost i mbox msg err
  | .fetch mbox timeout fuel => do
    record fun h ↦ h.begin i timeout
    let result ← sysArchMboxFetch mbox true timeout fuel
    record fun h ↦ (h.recordFetched i mbox result).finish i result.1
  | .tryfetch mbox => do
    let result ← sysArchMboxTryfetch mbox true
    record fun h ↦ h.recordFetched i mbox result
  | .semNew count => do
    let _ ← sysSemNew count
    pure ()
  | .signal sem => do
    sysSemSignal sem
    record fun h ↦ h.recordSignalled i sem
  | .wait sem timeout fuel => do
    record fun h ↦ h.begin i timeout
    let code ← sysArchSemWait sem timeout fuel
    record fun h ↦ (h.recordWaited i sem code).finish i code

/-- A call uses an object that exists. -/
def PortOp.ready (op : PortOp) (w : PortWorld ι) : Bool :=
  match op with
  | .mboxNew _ | .semNew _ => true
  | .post mbox _ | .trypost mbox _ | .trypostFromisr mbox _ | .fetch mbox _ _ | .tryfetch mbox =>
    (w.queues mbox).isSome
  | .signal sem | .wait sem _ _ => (w.semaphores sem).isSome

/-- The length of a run in milliseconds is a result that is not `SYS_ARCH_TIMEOUT`. -/
def PortWorld.Short (w : PortWorld ι) : Prop :=
  osTicksToMilliseconds (w.now - w.boot) < sysArchTimeout.toNat ∧ (w.now - w.boot) * 1000 < 2 ^ 64

instance (w : PortWorld ι) : Decidable w.Short := inferInstanceAs (Decidable (_ ∧ _))

def PortWorld.later (w : PortWorld ι) (ticks : ℕ) : PortWorld ι := { w with now := w.now + ticks }

/-- Time passes. -/
def portTick (ticks : ℕ) (x : PortMachine ι) : Option (PortMachine ι) :=
  if (x.world.later ticks).Short then some { x with world := x.world.later ticks } else none

def portSystem : System ι PortOp ℕ (PortState ι) (PortWorld ι) PortCall PortReply where
  reply := portReplies
  env := portTick
  body := portBody
  enabled _ op x := op.ready x.world

/-- Nothing has happened and no object exists. -/
def freshPort (boot : ℕ) : PortMachine ι where
  mem := {}
  world := { boot := boot, now := boot }

/-! ## The invariant -/

/-- What is in a mailbox entered it and has not left it. -/
def MailboxKept (entered left : List (ι × ℕ)) : Option OSMessageQueue → Prop
  | none => entered = [] ∧ left = []
  | some box =>
    entered.map Prod.snd = left.map Prod.snd ++ box.messages.map OSMessage.message ∧
      box.messages.length ≤ box.capacity

/-- The count of a semaphore is what it was given less what was taken. -/
def SemaphoreKept (permits : ℕ) (given taken : List ι) : Option ℕ → Prop
  | none => given = [] ∧ taken = []
  | some count => permits + given.length = taken.length + count

/-- A sleep of one millisecond, in ticks. -/
def sleepTicks : ℕ := osMillisecondsToTicks 1

/-- The sleeps before the last one took less than the timeout. -/
def TimedWait.Patient (w : TimedWait) : Prop :=
  w.sleeps = 0 ∨ (w.sleeps - 1) * sleepTicks * 1000 < w.timeout.toNat * osTimerClockSpeed

/-- A wait that is going on at the time `now` of a run that began at `boot`. -/
structure TimedWait.Going (w : TimedWait) (boot now : ℕ) : Prop where
  unread : w.started = none → w.sleeps = 0
  read : ∀ start, w.started = some start →
    boot ≤ start ∧ start ≤ w.last ∧ w.last ≤ now ∧ start + w.sleeps * sleepTicks ≤ now
  patient : w.Patient

/-- The milliseconds between the first and the last time a wait read the clock. -/
def TimedWait.elapsed (w : TimedWait) : ℕ :=
  osTicksToMilliseconds (w.last - w.started.getD w.last)

/-- A wait times out after its timeout at the earliest, and else returns how long it took. -/
structure TimedWait.Ended (w : TimedWait) (code : UInt32) : Prop where
  timeout_le : code = sysArchTimeout → w.timeout.toNat ≤ w.elapsed
  elapsed_eq : code ≠ sysArchTimeout → code.toNat = w.elapsed
  patient : w.Patient

structure PortInv (x : PortMachine ι) : Prop where
  boot_le : x.world.boot ≤ x.world.now
  short : x.world.Short
  heap : x.world.heap.Coherent
  nonnull : x.world.heap.isOut 0 = false
  queue_out : ∀ p, x.world.queues p ≠ none → x.world.heap.isOut p = true
  semaphore_out : ∀ p, x.world.semaphores p ≠ none → x.world.heap.isOut p = true
  creating : ∀ i p, x.mem.history.creating i = some p →
    x.world.heap.isOut p = true ∧ x.world.queues p = none ∧ x.world.semaphores p = none
  creating_unique : ∀ i j p, x.mem.history.creating i = some p →
    x.mem.history.creating j = some p → i = j
  mailbox : ∀ p, MailboxKept (x.mem.history.entered p) (x.mem.history.left p) (x.world.queues p)
  semaphore : ∀ p, SemaphoreKept (x.mem.history.permits p) (x.mem.history.given p)
    (x.mem.history.taken p) (x.world.semaphores p)
  going : ∀ i w, x.mem.history.timing i = some w → w.Going x.world.boot x.world.now
  ended : ∀ i w code, (w, code) ∈ x.mem.history.returned i → w.Ended code

/-! ## What the threads rely on -/

/-- What only one thread changes. -/
@[ext]
structure Own where
  creating : Option ℕ
  timing : Option TimedWait
  wake : ℕ
  entered : ℕ → List ℕ
  left : ℕ → List ℕ
  given : ℕ → ℕ
  taken : ℕ → ℕ
  posted : ℕ → List ℕ
  fetched : ℕ → List ℕ
  signalled : ℕ → ℕ
  waited : ℕ → ℕ

/-- The events of one thread in a list. -/
def byThread {α : Type} (i : ι) (events : List (ι × α)) : List α :=
  (events.filter fun event ↦ event.1 = i).map Prod.snd

def own (i : ι) (x : PortMachine ι) : Own where
  creating := x.mem.history.creating i
  timing := x.mem.history.timing i
  wake := x.world.wake i
  entered p := byThread i (x.mem.history.entered p)
  left p := byThread i (x.mem.history.left p)
  given p := (x.mem.history.given p).count i
  taken p := (x.mem.history.taken p).count i
  posted := x.mem.history.posted i
  fetched := x.mem.history.fetched i
  signalled := x.mem.history.signalled i
  waited := x.mem.history.waited i

structure PortRely (i : ι) (x y : PortMachine ι) : Prop where
  own : own i y = own i x
  boot : y.world.boot = x.world.boot
  now : x.world.now ≤ y.world.now
  queue : ∀ p, x.world.queues p ≠ none → y.world.queues p ≠ none
  semaphore : ∀ p, x.world.semaphores p ≠ none → y.world.semaphores p ≠ none

theorem portRely_refl (i : ι) (x : PortMachine ι) : PortRely i x x :=
  ⟨rfl, rfl, Nat.le_refl _, fun _ h ↦ h, fun _ h ↦ h⟩

theorem portRely_trans (i : ι) (x y z : PortMachine ι) (hxy : PortRely i x y)
    (hyz : PortRely i y z) : PortRely i x z :=
  ⟨hyz.own.trans hxy.own, hyz.boot.trans hxy.boot, Nat.le_trans hxy.now hyz.now,
    fun p hp ↦ hyz.queue p (hxy.queue p hp), fun p hp ↦ hyz.semaphore p (hxy.semaphore p hp)⟩

/-- What a thread has done and not yet reported. -/
structure Work where
  entered : List (ℕ × ℕ) := []
  left : List (ℕ × ℕ) := []
  given : List ℕ := []
  taken : List ℕ := []
  creating : Option ℕ := none
  timing : Option TimedWait := none

/-- The messages at one mailbox in a list. -/
def atMailbox (p : ℕ) (events : List (ℕ × ℕ)) : List ℕ :=
  (events.filter fun event ↦ event.1 = p).map Prod.snd

/-- The completed calls of a thread account for what it did, except for `work`. -/
structure Own.Accounts (o : Own) (work : Work) : Prop where
  entered : ∀ p, o.entered p = o.posted p ++ atMailbox p work.entered
  left : ∀ p, o.left p = o.fetched p ++ atMailbox p work.left
  given : ∀ p, o.given p = o.signalled p + work.given.count p
  taken : ∀ p, o.taken p = o.waited p + work.taken.count p
  creating : o.creating = work.creating
  timing : o.timing = work.timing

def Holding (i : ι) (work : Work) (x : PortMachine ι) : Prop := (own i x).Accounts work

/-- The messages and permits that are not reported. -/
def Work.size (work : Work) : ℕ :=
  work.entered.length + work.left.length + work.given.length + work.taken.length

/-- At most one message or permit is not reported. -/
def Own.Late (o : Own) : Prop := ∃ work : Work, o.Accounts work ∧ work.size ≤ 1

structure PortSound (x : PortMachine ι) : Prop extends PortInv x where
  late : ∀ i, (own i x).Late

abbrev PortSafe (i : ι) (program : PortM ι α) (post : α → PortMachine ι → Prop) :
    PortMachine ι → Prop :=
  Safe portSystem PortSound PortRely (fun _ _ _ ↦ True) i program post

theorem stable_own (i : ι) (assertion : Own → Prop) :
    Stable PortSound PortRely i fun x : PortMachine ι ↦ assertion (own i x) := by
  intro x y hx hrely _
  rw [hrely.own]
  exact hx

theorem stable_holding (i : ι) (work : Work) :
    Stable PortSound PortRely i (Holding i work : PortMachine ι → Prop) :=
  stable_own i fun o ↦ o.Accounts work

end Ax88179Aroma.Port
