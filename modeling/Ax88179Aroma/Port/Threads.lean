import Ax88179Aroma.Effect.Concurrency
import Ax88179Aroma.Port.SysArch

/-!
# Starting threads

`sys_thread_new` tells a new thread what to run in a block, which the thread frees before it runs.
`threadSystem` interleaves any number of threads that create others, of created threads that enter
`ax_thread_entry`, and of other users of the heap, atomic step by atomic step.

`ThreadLog` is history only.  A block has one `Role` as long as it is out; a created thread, known
by the address of its `OSThread`, has one `Stage`.
-/

namespace Ax88179Aroma.Port

open Effect Program

variable {ι : Type}

inductive ThreadOp where
  | create (name fn arg : ℕ) (stacksize prio : ℤ)
  /-- the operating system dispatches a created thread -/
  | enter
  deriving DecidableEq, Repr

inductive ThreadCall where
  | port (call : PortCall)
  /-- `sys_thread_new` returns `t` for a function and its argument -/
  | returned (t fn arg : ℕ)

/-- Who frees a block. -/
inductive Role (ι : Type) where
  /-- a thread, unless it hands the block over -/
  | held (i : ι)
  /-- the created thread, once it has entered -/
  | waiting
  /-- nobody: the `OSThread` or the stack of a created thread -/
  | kept
  /-- another user of the heap -/
  | other
  deriving DecidableEq

inductive Stage (ι : Type) where
  | absent
  | waiting
  /-- as the thread `i`, which has not called its function -/
  | entering (i : ι)
  | ran
  deriving DecidableEq

/-- Whether `sys_thread_new` has returned a thread. -/
inductive Report (ι : Type) where
  | none
  | making (i : ι)
  | granted
  deriving DecidableEq

structure ThreadLog (ι : Type) where
  role : ℕ → Option (Role ι) := fun _ ↦ none
  stage : ℕ → Stage ι := fun _ ↦ .absent
  report : ℕ → Report ι := fun _ ↦ .none
  /-- what the start block of a thread said when the thread was created -/
  created : ℕ → Option (ℕ × ℕ) := fun _ ↦ none
  stackOf : ℕ → ℕ := fun _ ↦ 0
  /-- the created thread that a thread runs as, until it calls the function -/
  current : ι → Option ℕ := fun _ ↦ none
  /-- the threads that `sys_thread_new` has returned, with what it was asked for -/
  granted : List (ℕ × ℕ × ℕ) := []
  /-- the threads that have called their function, with what they called -/
  ran : List (ℕ × ℕ × ℕ) := []

structure ThreadWorld (ι : Type) where
  port : PortWorld ι := {}
  log : ThreadLog ι := {}

abbrev ThreadMachine (ι : Type) := Machine (PortState ι) (ThreadWorld ι)

namespace ThreadLog

variable (w : ThreadLog ι)

def setRole (p : ℕ) (role : Option (Role ι)) : ThreadLog ι :=
  { w with role := Function.update w.role p role }

/-- Thread `i` has created `t` for a task. -/
def create (i : ι) (t stack start : ℕ) (task : ℕ × ℕ) : ThreadLog ι :=
  { w with
    role := Function.update (Function.update (Function.update w.role t (some .kept)) stack
      (some .kept)) start (some .waiting)
    stage := Function.update w.stage t .waiting
    report := Function.update w.report t (.making i)
    created := Function.update w.created t (some task)
    stackOf := Function.update w.stackOf t stack }

/-- Thread `i` runs as a created thread. -/
def dispatch [DecidableEq ι] (i : ι) (entry : OSThread) : ThreadLog ι :=
  { w with
    role := Function.update w.role entry.start (some (.held i))
    stage := Function.update w.stage entry.thread (.entering i)
    current := Function.update w.current i (some entry.thread) }

/-- Thread `i` calls the function of the created thread `t`. -/
def runs [DecidableEq ι] (i : ι) (t fn arg : ℕ) : ThreadLog ι :=
  { w with
    stage := Function.update w.stage t .ran
    current := Function.update w.current i none
    ran := w.ran ++ [(t, fn, arg)] }

def returns (t fn arg : ℕ) : ThreadLog ι :=
  { w with
    report := Function.update w.report t .granted
    granted := w.granted ++ [(t, fn, arg)] }

end ThreadLog

/-- The created thread that the operating system dispatches. -/
def dispatched (threads : List OSThread) (start : ℕ) : Option OSThread :=
  threads.find? fun entry ↦ entry.resumed && entry.start == start

section System

variable [DecidableEq ι]

/-- What a call writes to the history. -/
def threadHistory (i : ι) (x : ThreadMachine ι) : PortCall → PortReply → ThreadLog ι
  | .malloc _, answer =>
    if answer.pointer = 0 then x.world.log
    else x.world.log.setRole answer.pointer (some (.held i))
  | .memalign _ _, answer =>
    if answer.pointer = 0 then x.world.log
    else x.world.log.setRole answer.pointer (some (.held i))
  | .free p, _ => if p = 0 then x.world.log else x.world.log.setRole p none
  | .osCreateThread t start top size _, answer =>
    if answer.code = 0 then x.world.log
    else x.world.log.create i t (top - size) start (x.mem.startBlock start)
  | .osDispatch, answer =>
    match dispatched x.world.port.threads answer.pointer with
    | some entry => x.world.log.dispatch i entry
    | none => x.world.log
  | .threadFn fn arg, _ =>
    match x.world.log.current i with
    | some t => x.world.log.runs i t fn arg
    | none => x.world.log
  | _, _ => x.world.log

/-- What the operating system can answer to thread `i`. -/
def threadReplies (i : ι) : Replies (PortState ι) (ThreadWorld ι) ThreadCall PortReply
  | .port request, answer, x =>
    (portReplies i request answer ⟨x.mem, x.world.port⟩).map fun y ↦
      { mem := y.mem, world := { port := y.world, log := threadHistory i x request answer } }
  | .returned t fn arg, _, x =>
    some { x with world := { x.world with
      log := if t = 0 then x.world.log else x.world.log.returns t fn arg } }

/-- The other users of the heap. -/
inductive HeapEvent where
  | malloc (p : ℕ)
  | free (p : ℕ)
  deriving DecidableEq, Repr

def heapStep : HeapEvent → ThreadMachine ι → Option (ThreadMachine ι)
  | .malloc p, x =>
    (x.world.port.heap.acquire p).map fun heap ↦
      { x with world := {
        port := { x.world.port with heap := heap }
        log := x.world.log.setRole p (some .other) } }
  | .free p, x =>
    if x.world.log.role p = some .other then
      some { x with world := {
        port := { x.world.port with heap := x.world.port.heap.release p }
        log := x.world.log.setRole p none } }
    else none

def threadBody : ThreadOp → Program (PortState ι) ThreadCall PortReply Unit
  | .create name fn arg stacksize prio => do
    let t ← embed .port (sysThreadNew name fn arg stacksize prio)
    let _ ← perform (.returned t fn arg)
    pure ()
  | .enter => do
    let start ← perform (.port .osDispatch)
    let _ ← embed .port (axThreadEntry start.pointer)
    pure ()

def threadSystem :
    System ι ThreadOp HeapEvent (PortState ι) (ThreadWorld ι) ThreadCall PortReply where
  reply := threadReplies
  env := heapStep
  body _ := threadBody
  enabled _ _ _ := true

end System

/-! ## The invariant -/

/-- Exactly the blocks with a role are out. -/
structure HeapKept (heap : Ledger ℕ) (role : ℕ → Option (Role ι)) : Prop where
  coherent : heap.Coherent
  out : ∀ p, heap.isOut p = true ↔ role p ≠ none

/-- The threads that have not entered, and their start blocks. -/
structure QueueKept (threads : List OSThread) (block : ℕ → ℕ × ℕ) (w : ThreadLog ι) : Prop where
  starts : ∀ p, w.role p = some .waiting ↔ ∃ entry ∈ threads, entry.start = p
  startsNodup : (threads.map OSThread.start).Nodup
  waiting : ∀ t, w.stage t = .waiting ↔ ∃ entry ∈ threads, entry.thread = t
  namesNodup : (threads.map OSThread.thread).Nodup
  content : ∀ entry ∈ threads, w.created entry.thread = some (block entry.start)
  resumed : ∀ entry ∈ threads, entry.resumed = true ∨ ∃ i, w.report entry.thread = .making i
  nonnull : ∀ entry ∈ threads, entry.start ≠ 0

/-- The created threads with what was recorded about them. -/
structure LivesKept (w : ThreadLog ι) : Prop where
  kept : ∀ t, w.stage t ≠ .absent → w.role t = some .kept
  keptOf : ∀ p, w.role p = some .kept → ∃ t, w.stage t ≠ .absent ∧ (p = t ∨ p = w.stackOf t)
  created : ∀ t, w.created t = none ↔ w.stage t = .absent
  report : ∀ t, w.report t = .none ↔ w.stage t = .absent
  current : ∀ i t, w.current i = some t ↔ w.stage t = .entering i
  ran : ∀ t, w.stage t = .ran ↔ t ∈ w.ran.map Prod.fst
  ranOf : ∀ record ∈ w.ran, w.created record.1 = some record.2
  ranNodup : (w.ran.map Prod.fst).Nodup
  granted : ∀ t, w.report t = .granted ↔ t ∈ w.granted.map Prod.fst
  grantedOf : ∀ record ∈ w.granted, w.created record.1 = some record.2
  grantedNodup : (w.granted.map Prod.fst).Nodup

structure ThreadInv (x : ThreadMachine ι) : Prop extends
    HeapKept x.world.port.heap x.world.log.role, LivesKept x.world.log where
  queue : QueueKept x.world.port.threads x.mem.startBlock x.world.log

/-! ## What the threads rely on -/

/-- The thread may be dispatched. -/
def Ready (t : ℕ) (threads : List OSThread) : Prop :=
  ∀ entry ∈ threads, entry.thread = t → entry.resumed = true

structure ThreadRely (i : ι) (x y : ThreadMachine ι) : Prop where
  held : ∀ p, y.world.log.role p = some (.held i) ↔ x.world.log.role p = some (.held i)
  content : ∀ p, x.world.log.role p = some (.held i) → y.mem.startBlock p = x.mem.startBlock p
  making : ∀ t, y.world.log.report t = .making i ↔ x.world.log.report t = .making i
  current : y.world.log.current i = x.world.log.current i
  created : ∀ t task, x.world.log.created t = some task → y.world.log.created t = some task
  ready : ∀ t, x.world.log.report t = .making i → Ready t x.world.port.threads →
    Ready t y.world.port.threads

theorem threadRely_refl (i : ι) (x : ThreadMachine ι) : ThreadRely i x x :=
  ⟨fun _ ↦ Iff.rfl, fun _ _ ↦ rfl, fun _ ↦ Iff.rfl, rfl, fun _ _ h ↦ h, fun _ _ h ↦ h⟩

theorem threadRely_trans (i : ι) (x y z : ThreadMachine ι) (hxy : ThreadRely i x y)
    (hyz : ThreadRely i y z) : ThreadRely i x z where
  held p := (hyz.held p).trans (hxy.held p)
  content p hp := (hyz.content p ((hxy.held p).mpr hp)).trans (hxy.content p hp)
  making t := (hyz.making t).trans (hxy.making t)
  current := hyz.current.trans hxy.current
  created t task h := hyz.created t task (hxy.created t task h)
  ready t hmaking h := hyz.ready t ((hxy.making t).mpr hmaking) (hxy.ready t hmaking h)

/-- What thread `i` has in its hands: blocks, a thread that it has created, and the created thread
that it runs as. -/
structure Hands (i : ι) (blocks : ℕ → Prop) (making current : Option ℕ) (x : ThreadMachine ι) :
    Prop where
  held : ∀ p, x.world.log.role p = some (.held i) ↔ blocks p
  making : ∀ t, x.world.log.report t = .making i ↔ making = some t
  current : x.world.log.current i = current

def EmptyHands (i : ι) : ThreadMachine ι → Prop := Hands i (fun _ ↦ False) none none

/-- A call keeps the rules: a block is freed by the thread that holds it, a thread is created from
three blocks of its creator, and a function is called as what its thread was created for. -/
def threadPre (i : ι) : ThreadCall → ThreadMachine ι → Prop
  | .port (.free p), x => p = 0 ∨ x.world.log.role p = some (.held i)
  | .port (.osCreateThread t start top size _), x =>
    x.world.log.role t = some (.held i) ∧ x.world.log.role (top - size) = some (.held i) ∧
      x.world.log.role start = some (.held i)
  | .port (.threadFn fn arg), x =>
    ∃ t, x.world.log.current i = some t ∧ x.world.log.created t = some (fn, arg)
  | _, _ => True

theorem Hands.stable {i : ι} {blocks : ℕ → Prop} {making current : Option ℕ}
    {x y : ThreadMachine ι} (h : Hands i blocks making current x) (hrely : ThreadRely i x y) :
    Hands i blocks making current y where
  held p := (hrely.held p).trans (h.held p)
  making t := (hrely.making t).trans (h.making t)
  current := hrely.current.trans h.current

/-- Safety of a function of the port as a part of `threadBody`. -/
abbrev CallSafe [DecidableEq ι] (i : ι) (program : PortM ι α)
    (post : α → ThreadMachine ι → Prop) : ThreadMachine ι → Prop :=
  Safe (threadSystem.through .port) ThreadInv ThreadRely
    (fun j request ↦ threadPre j (.port request)) i program post

end Ax88179Aroma.Port
