import Ax88179Aroma.Effect.Concurrency
import Ax88179Aroma.Net.Slots

/-!
# The transmit queue between the stack and the worker

`netSystem` interleaves two threads, atomic step by atomic step.  The stack runs one `send_frame`
after the other: producers hold the core lock, so there is one at a time, and a frame that the
worker's own lwIP calls produce under the lock is a call of this thread while the worker waits.
`send_frame` is reached through the output function of the interface, which exists once the stack
is initialised.  The worker runs `ax_net_start`, `ax_net_poll` and `ax_net_stop` in any order.

The stack relies on the worker to leave the frames, the slot being filled and the posted history
alone; the worker relies on the stack to leave the slot of its message alone.
-/

namespace Ax88179Aroma.Net

open Effect Program

inductive NetThread where
  | stack
  | worker
  deriving DecidableEq, Repr

inductive NetOp where
  | sendFrame (p : Pbuf)
  | work (operation : WorkerOp)
  deriving DecidableEq, Repr

/-- One `send_frame` call and its return. -/
def stackBody (p : Pbuf) : NetM Unit := do
  let err ← sendFrame p
  store fun s ↦ s.setHistory fun history ↦ { history with returned := history.returned ++ [(p, err)] }

/-- A call of the worker whose result is not looked at. -/
def ignoreResult (program : NetM ℤ) : NetM Unit := do
  let _ ← program
  pure ()

def WorkerOp.program : WorkerOp → NetM Unit
  | .start ax => ignoreResult (axNetStart ax)
  | .poll fuel => ignoreResult (axNetPoll fuel)
  | .stop fuel => axNetStop fuel

def workerBody (operation : WorkerOp) : NetM Unit := do
  store fun s ↦ s.setHistory fun history ↦ { history with operation := some operation }
  operation.program

def netSystem : System NetThread NetOp Empty NetState NetWorld NetCall NetReply where
  reply _ := replies
  env event := nomatch event
  body
    | .stack, .sendFrame p => stackBody p
    | .worker, .work operation => workerBody operation
    | _, _ => pure ()
  enabled
    | .stack, .sendFrame _, x => decide (x.mem.initialized ≠ 0)
    | .worker, .work _, _ => true
    | _, _, _ => false

/-- The static data at the start of a title: nothing is initialised, and the slots, their flags and
the queue hold whatever the previous title left there. -/
structure Uninitialised (x : NetMachine) : Prop where
  initialized_eq : x.mem.initialized = 0
  active_eq : x.mem.active = 0
  history_eq : x.mem.history = {}

/-! ## The invariant and what the threads rely on -/

/-- At most one frame was posted by a `send_frame` that has not yet returned. -/
def TxHistory.Late (history : TxHistory) : Prop :=
  ∃ unreturned, unreturned.length ≤ 1 ∧ history.posted = history.accepted ++ unreturned

/-- Before the stack is up nothing was queued; from then on every slot has its owner. -/
structure TxInv (x : NetMachine) : Prop where
  down : x.mem.initialized = 0 → x.mem.active = 0 ∧ x.mem.history.filling = none ∧
    x.mem.history.worker = .idle ∧ x.mem.history.posted = [] ∧ x.mem.history.settled = []
  up : x.mem.initialized ≠ 0 → SlotsOwned x.mem
  discarded : ∀ operation frame, .discarded operation frame ∈ x.mem.history.settled →
    ∃ fuel, operation = some (.stop fuel)
  late : x.mem.history.Late

/-- What the stack relies on. -/
structure WorkerMove (x y : NetMachine) : Prop where
  initialized : x.mem.initialized ≠ 0 → y.mem.initialized ≠ 0
  pool : y.mem.txPool = x.mem.txPool
  filling : y.mem.history.filling = x.mem.history.filling
  posted : y.mem.history.posted = x.mem.history.posted
  returned : y.mem.history.returned = x.mem.history.returned

/-- What the worker relies on. -/
structure StackMove (x y : NetMachine) : Prop where
  down : x.mem.initialized = 0 → y = x
  initialized : y.mem.initialized = x.mem.initialized
  active : y.mem.active = x.mem.active
  worker : y.mem.history.worker = x.mem.history.worker
  settled : y.mem.history.settled = x.mem.history.settled
  operation : y.mem.history.operation = x.mem.history.operation
  pool : ∀ m, x.mem.history.worker.message = some m →
    y.mem.txPool m.message = x.mem.txPool m.message

def netRely : NetThread → NetMachine → NetMachine → Prop
  | .stack => WorkerMove
  | .worker => StackMove

theorem netRely_refl (i : NetThread) (x : NetMachine) : netRely i x x := by
  cases i with
  | stack => exact ⟨id, rfl, rfl, rfl, rfl⟩
  | worker => exact ⟨fun _ ↦ rfl, rfl, rfl, rfl, rfl, rfl, fun _ _ ↦ rfl⟩

theorem netRely_trans (i : NetThread) (x y z : NetMachine) (hxy : netRely i x y)
    (hyz : netRely i y z) : netRely i x z := by
  cases i with
  | stack =>
    exact ⟨fun hup ↦ hyz.initialized (hxy.initialized hup), hyz.pool.trans hxy.pool,
      hyz.filling.trans hxy.filling, hyz.posted.trans hxy.posted,
      hyz.returned.trans hxy.returned⟩
  | worker =>
    refine ⟨fun hdown ↦ ?_, hyz.initialized.trans hxy.initialized, hyz.active.trans hxy.active,
      hyz.worker.trans hxy.worker, hyz.settled.trans hxy.settled,
      hyz.operation.trans hxy.operation, fun m hm ↦ ?_⟩
    · rw [hyz.down (hxy.initialized.trans hdown), hxy.down hdown]
    · rw [hyz.pool m (by rw [hxy.worker, hm]), hxy.pool m hm]

/-- `OSSendMessage` is called with room in the queue. -/
def netPre : NetThread → NetCall → NetMachine → Prop
  | _, .osSendMessage _, x => x.mem.txQueue.messages.length < x.mem.txQueue.capacity
  | _, _, _ => True

abbrev NetSafe (i : NetThread) (program : NetM α) (post : α → NetMachine → Prop) :
    NetMachine → Prop :=
  Safe netSystem TxInv netRely netPre i program post

theorem guarantees_stack {x y : NetMachine} (hinv : TxInv y) (hmove : StackMove x y) :
    Guarantees TxInv netRely .stack x y := by
  refine ⟨hinv, fun j hj ↦ ?_⟩
  cases j with
  | stack => exact absurd rfl hj
  | worker => exact hmove

theorem guarantees_worker {x y : NetMachine} (hinv : TxInv y) (hmove : WorkerMove x y) :
    Guarantees TxInv netRely .worker x y := by
  refine ⟨hinv, fun j hj ↦ ?_⟩
  cases j with
  | stack => exact hmove
  | worker => exact absurd rfl hj

end Ax88179Aroma.Net
