import Ax88179Aroma.Effect.History
import Ax88179Aroma.Shim.Frames

/-!
# Relay workers and the threads that reserve them

The thread object of each relay slot, as the calls of the OS change it.  `OSJoinThread` waits for
the end of a thread, and `OSIsThreadTerminated` also holds of an object that was never used.
-/

namespace Ax88179Aroma.Shim

open Effect Program

/-- Threads that call into the shim, and relay workers by their slots. -/
inductive RelayThread where
  | caller (n : ℕ)
  | worker (slot : ℕ)
  deriving DecidableEq, Repr

/-- The thread object of a slot. -/
inductive WorkerState where
  | absent
  | suspended
  | running
  | terminated
  | joined
  deriving DecidableEq, Repr

structure WorkerWorld where
  worker : ℕ → WorkerState := fun _ ↦ .absent

namespace WorkerWorld

def set (w : WorkerWorld) (slot : ℕ) (state : WorkerState) : WorkerWorld :=
  { w with worker := Function.update w.worker slot state }

/-- The thread of a slot has not ended. -/
def alive (w : WorkerWorld) (slot : ℕ) : Bool :=
  w.worker slot = .suspended ∨ w.worker slot = .running

@[simp]
theorem set_self (w : WorkerWorld) (slot : ℕ) (state : WorkerState) :
    (w.set slot state).worker slot = state :=
  Function.update_self slot _ _

theorem set_of_ne (w : WorkerWorld) {slot other : ℕ} (h : other ≠ slot) (state : WorkerState) :
    (w.set slot state).worker other = w.worker other :=
  Function.update_of_ne h _ _

end WorkerWorld

/-- What a call does to the thread objects, `none` while it blocks. -/
def workerEffect (w : WorkerWorld) : ShimCall → ShimReply → Option WorkerWorld
  | .os (.osCreateThread slot), answer =>
    some (if answer.code = 0 then w else w.set slot .suspended)
  | .os (.osResumeThread slot), _ =>
    some (if w.worker slot = .suspended then w.set slot .running else w)
  | .os (.osIsThreadTerminated slot), answer =>
    if answer.code ≠ 0 ↔ w.alive slot = false then some w else none
  | .os (.osJoinThread slot), _ => if w.alive slot then none else some (w.set slot .joined)
  | .note (.workerExit slot), _ =>
    some (if w.worker slot = .running then w.set slot .terminated else w)
  | _, _ => some w

def workerReply : Replies ShimState WorkerWorld ShimCall ShimReply := fun request answer x ↦
  (workerEffect x.world request answer).map fun w ↦ { x with world := w }

/-- A relay worker as the OS runs it. -/
def runWorker (slot fuel : ℕ) : ShimM Unit := do
  nsslRelayWorker slot fuel
  note (.workerExit slot)

/-! ## Frames -/

/-- Which slots are allocated. -/
def allocation (s : ShimState) : ℕ → ℤ := fun slot ↦ (s.nsslRelays slot).allocated

/-- The access takes slot `k`. -/
abbrev Takes (update : ShimState → ShimState) (s : ShimState) (k : ℕ) : Prop :=
  allocation s k = 0 ∧ allocation (update s) k ≠ 0

/-- The access frees slot `k`. -/
abbrev Frees (update : ShimState → ShimState) (s : ShimState) (k : ℕ) : Prop :=
  allocation s k ≠ 0 ∧ allocation (update s) k = 0

/-- Calls that neither create nor join a thread. -/
def Threadless : ShimCall → Prop
  | .os (.osCreateThread _) => False
  | .os (.osJoinThread _) => False
  | _ => True

theorem Inert.threadless {request : ShimCall} (h : Inert request) : Threadless request := by
  cases request with
  | native _ => trivial
  | lwip _ => trivial
  | os request => cases request <;> exact h
  | note _ => trivial

/-- What leaves the tables alone leaves the allocation alone. -/
theorem keeps_allocation {program : ShimM α} (h : Keeps ShimState.tables Inert program) :
    Keeps allocation Threadless program :=
  h.mono (fun _ _ hsame ↦ funext fun slot ↦
    congrArg Prod.fst (congrFun (congrArg FdTables.relays hsame) slot)) fun _ ↦ Inert.threadless

theorem allocation_setRelay {slot : ℕ} {update : NsslRelay → NsslRelay}
    (h : ∀ r, (update r).allocated = r.allocated) (s : ShimState) :
    allocation (s.setRelay slot update) = allocation s := by
  funext other
  by_cases hsame : other = slot
  · rw [allocation, hsame, ShimState.setRelay_self, h]
    rfl
  · rw [allocation, ShimState.setRelay_of_ne s hsame]
    rfl

theorem allocation_setRelay_of_ne (s : ShimState) {j k : ℕ} (hj : j ≠ k)
    (update : NsslRelay → NsslRelay) :
    allocation (s.setRelay k update) j = allocation s j :=
  congrArg NsslRelay.allocated (ShimState.setRelay_of_ne s hj update)

/-- A store that frees slot `k`. -/
def freeRelay (k : ℕ) (s : ShimState) : ShimState :=
  s.setRelay k fun r ↦ { r with allocated := 0 }

theorem allocation_freeRelay_of_ne (s : ShimState) {j k : ℕ} (hj : j ≠ k) :
    allocation (freeRelay k s) j = allocation s j :=
  allocation_setRelay_of_ne s hj _

theorem allocation_freeRelay (s : ShimState) (k : ℕ) : allocation (freeRelay k s) k = 0 :=
  congrArg NsslRelay.allocated (ShimState.setRelay_self s k _)

theorem keeps_relayStore {allowed : ShimCall → Prop} {slot : ℕ} {update : NsslRelay → NsslRelay}
    (h : ∀ r, (update r).allocated = r.allocated) :
    Keeps allocation allowed (storeRelay slot update) :=
  keeps_store (allocation_setRelay h)

theorem keeps_relayOut (slot : ℕ) : Keeps allocation Threadless (relayOut slot) := by
  refine Keeps.bind (keeps_loadRelay slot _) fun _ ↦ Keeps.bind (Keeps.when ?_) fun _ ↦ ?_
  · exact Keeps.bind (keeps_ignore (keeps_perform trivial)) fun _ ↦ keeps_relayStore fun _ ↦ rfl
  refine Keeps.bind (keeps_loadRelay slot _) fun _ ↦ Keeps.bind (Keeps.when ?_) fun _ ↦ ?_
  · exact Keeps.bind (keeps_ignore (keeps_perform trivial)) fun _ ↦ keeps_relayStore fun _ ↦ rfl
  exact Keeps.bind (keeps_relayStore fun _ ↦ rfl) fun _ ↦ keeps_relayStore fun _ ↦ rfl

/-- A worker allocates and frees no slot. -/
theorem keeps_runWorker (slot fuel : ℕ) : Keeps allocation Threadless (runWorker slot fuel) := by
  refine Keeps.bind ?_ fun _ ↦ Keeps.bind (keeps_perform trivial) fun _ ↦ keeps_pure _
  refine Keeps.bind (keeps_allocation (keeps_tables (keeps_relayWait slot fuel))) fun _ ↦ ?_
  refine Keeps.bind (Keeps.when ?_) fun _ ↦ keeps_relayOut slot
  refine Keeps.bind (keeps_loadRelay slot _) fun _ ↦ ?_
  refine Keeps.bind (keeps_allocation (keeps_tables (keeps_relayLoop slot _ _ fuel _))) fun _ ↦ ?_
  exact Keeps.bind (keeps_perform trivial) fun _ ↦ keeps_pure _

theorem keeps_resetRelay {allowed : ShimCall → Prop} (slot : ℕ) :
    Keeps allocation allowed (resetRelay slot) :=
  Keeps.bind (keeps_relayStore fun _ ↦ rfl) fun _ ↦
    Keeps.bind (keeps_relayStore fun _ ↦ rfl) fun _ ↦
      Keeps.bind (keeps_relayStore fun _ ↦ rfl) fun _ ↦
        Keeps.bind (keeps_relayStore fun _ ↦ rfl) fun _ ↦ keeps_relayStore fun _ ↦ rfl

end Ax88179Aroma.Shim
