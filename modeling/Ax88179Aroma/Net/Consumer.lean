import Ax88179Aroma.Net.TxSystem

/-!
# The consumer of the transmit queue

The worker against any interference of `send_frame`: bringing the stack up clears the slots before
it publishes them, draining the queue passes each frame to the driver or discards it, and all the
rest leaves the transmit path alone.
-/

namespace Ax88179Aroma.Net

open Effect Program

variable {operation : WorkerOp} {x : NetMachine}

/-- The stack is up and the worker is in the given phase of its operation. -/
structure WorkerUp (operation : WorkerOp) (phase : WorkerPhase) (x : NetMachine) : Prop where
  initialized : x.mem.initialized ≠ 0
  worker : x.mem.history.worker = phase
  operation : x.mem.history.operation = some operation

theorem stable_workerUp (phase : WorkerPhase) :
    Stable TxInv netRely .worker (WorkerUp operation phase) := by
  intro x y hx hmove _
  exact ⟨hmove.initialized ▸ hx.initialized, hmove.worker.trans hx.worker,
    hmove.operation.trans hx.operation⟩

theorem workerUp_of_core {phase : WorkerPhase} {y z : NetMachine}
    (hcore : z.mem.core = y.mem.core) (hy : WorkerUp operation phase y) :
    WorkerUp operation phase z := by
  obtain ⟨htx, hinitialized, -, -⟩ : z.mem.toTxState = y.mem.toTxState ∧
      z.mem.initialized = y.mem.initialized ∧ z.mem.active = y.mem.active ∧
      z.mem.restoreLease = y.mem.restoreLease := by
    simpa only [NetState.core, Prod.mk.injEq] using hcore
  refine ⟨hinitialized ▸ hy.initialized, ?_, ?_⟩
  · rw [htx, hy.worker]
  · rw [htx, hy.operation]

/-- A step that leaves the transmit path alone. -/
theorem guarantees_worker_of_tx {y z : NetMachine} (hinv : TxInv y)
    (htx : z.mem.toTxState = y.mem.toTxState) (hinitialized : z.mem.initialized = y.mem.initialized)
    (hactive : y.mem.initialized = 0 → z.mem.active = 0) :
    Guarantees TxInv netRely .worker y z := by
  refine guarantees_worker ⟨fun hdown ↦ ?_, fun hup ↦ ?_, ?_, ?_⟩ ⟨?_, ?_, ?_, ?_, ?_⟩
  · have hy : y.mem.initialized = 0 := hinitialized ▸ hdown
    rw [htx]
    exact ⟨hactive hy, (hinv.down hy).2⟩
  · exact (hinv.up (hinitialized ▸ hup)).of_eq htx
  · rw [htx]
    exact hinv.discarded
  · rw [htx]
    exact hinv.late
  · exact fun hup ↦ hinitialized ▸ hup
  all_goals rw [htx]

/-- The calls that leave the queue and the driver's send alone. -/
def NetCall.offQueue : NetCall → Bool
  | .osSendMessage _ => false
  | .osReceiveMessage => false
  | .ax88179Send .. => false
  | _ => true

/-- A program that leaves the transmit path alone. -/
abbrev Steady (program : NetM α) : Prop :=
  Keeps NetState.core (fun request ↦ request.offQueue = true) program

theorem steady_of_supervises {program : NetM α} (h : Supervises program) : Steady program := by
  refine h.mono (fun _ _ hcore ↦ hcore) fun request hquiet ↦ ?_
  cases request <;> first | rfl | cases hquiet

theorem replies_offQueue {request : NetCall} {answer : NetReply} {y z : NetMachine}
    (hoff : request.offQueue = true) (hreply : replies request answer y = some z) :
    z.mem.core = y.mem.core := by
  cases request <;> cases hoff <;> cases hreply <;> rfl

/-- The worker keeps its phase while it leaves the transmit path alone. -/
theorem safe_steady {phase : WorkerPhase} {program : NetM α} (hprogram : Steady program)
    (hx : WorkerUp operation phase x) :
    NetSafe .worker program (fun _ ↦ WorkerUp operation phase) x := by
  have hcore : ∀ y z : NetMachine, TxInv y → z.mem.core = y.mem.core →
      Guarantees TxInv netRely .worker y z := by
    intro y z hinv hcore
    simp only [NetState.core, Prod.mk.injEq] at hcore
    exact guarantees_worker_of_tx hinv hcore.1 hcore.2.1 fun hdown ↦
      hcore.2.2.1.trans (hinv.down hdown).1
  refine safe_keeps hprogram (stable_workerUp phase) ?_ ?_ hx
  · intro y mem hinv hy hview
    exact ⟨hcore y _ hinv hview, workerUp_of_core hview hy⟩
  · intro y request hinv hy hoff
    refine ⟨?_, fun answer z hreply ↦ ?_⟩
    · cases request with
      | osSendMessage m => cases hoff
      | _ => trivial
    · have hview := replies_offQueue hoff hreply
      exact ⟨hcore y z hinv hview, workerUp_of_core hview hy⟩

theorem safe_steady_bind {phase : WorkerPhase} {program : NetM α} {next : α → NetM β}
    {post : β → NetMachine → Prop} (hprogram : Steady program) (hx : WorkerUp operation phase x)
    (hnext : ∀ value y, WorkerUp operation phase y → NetSafe .worker (next value) post y) :
    NetSafe .worker (program >>= next) post x := by
  rw [NetSafe, safe_bind]
  exact safe_mono (safe_steady hprogram hx) hnext

/-! ## Draining -/

/-- The bytes of the frame that the worker holds stay as they are. -/
theorem stable_workerRead {m : OSMessage} (bytes : List UInt8) (count : ℕ) :
    Stable TxInv netRely .worker fun y ↦
      WorkerUp operation (.taken m) y ∧ bytes = (y.mem.txPool m.message).slice 0 count := by
  intro y z hy hmove hinv
  refine ⟨stable_workerUp _ y z hy.1 hmove hinv, ?_⟩
  have hheld : y.mem.history.worker.message = some m := by
    rw [hy.1.worker]
    rfl
  rw [hmove.pool m hheld]
  exact hy.2

theorem safe_readPool {m : OSMessage} (count : ℕ) (hx : WorkerUp operation (.taken m) x) :
    NetSafe .worker (readPool m.message count)
      (fun bytes y ↦ WorkerUp operation (.taken m) y ∧
        bytes = (y.mem.txPool m.message).slice 0 count) x := by
  induction count with
  | zero => exact ⟨hx, rfl⟩
  | succ count ih =>
    simp only [NetSafe, readPool, safe_bind, safe_pure]
    refine safe_mono ih fun before y hy ↦ ?_
    refine safe_load netRely_refl hy (stable_workerRead before count) fun z hz hinv ↦ ⟨hz.1, ?_⟩
    rw [Memory.slice_succ, ← hz.2, Nat.zero_add]

/-- A step of the worker on the transmit path. -/
theorem guarantees_worker_of_owned {y : NetMachine} {mem : NetState} (hinv : TxInv y)
    (hup : y.mem.initialized ≠ 0)
    (hinitialized : mem.initialized = y.mem.initialized) (howned : SlotsOwned mem)
    (hdiscarded : ∀ operation frame, .discarded operation frame ∈ mem.history.settled →
      ∃ fuel, operation = some (.stop fuel))
    (hpool : mem.txPool = y.mem.txPool) (hfilling : mem.history.filling = y.mem.history.filling)
    (hposted : mem.history.posted = y.mem.history.posted)
    (hreturned : mem.history.returned = y.mem.history.returned) :
    Guarantees TxInv netRely .worker y { y with mem := mem } := by
  refine guarantees_worker ⟨fun hdown ↦ ?_, fun _ ↦ howned, hdiscarded, ?_⟩ ?_
  · exact absurd (hinitialized.symm.trans hdown) hup
  · obtain ⟨unreturned, hlength, heq⟩ := hinv.late
    refine ⟨unreturned, hlength, hposted.trans (heq.trans ?_)⟩
    simp only [TxHistory.accepted, hreturned]
  · exact ⟨fun _ ↦ hinitialized ▸ hup, hpool, hfilling, hposted, hreturned⟩

theorem safe_transmit {m : OSMessage} (ax : ℕ) (hx : WorkerUp operation (.taken m) x) :
    NetSafe .worker (transmit ax m) (fun _ ↦ WorkerUp operation (.passed m)) x := by
  simp only [NetSafe, transmit, safe_bind]
  refine safe_mono (safe_readPool m.args0 hx) fun frame y hy ↦ ?_
  refine safe_perform hy (stable_workerRead frame _) fun z hz hinv ↦ ⟨trivial, fun answer w hreply ↦ ?_⟩
  cases hreply
  have howned := hinv.up hz.1.initialized
  have hpassed : WorkerUp operation (.passed m) { z with mem := z.mem.pass frame } := by
    refine ⟨hz.1.initialized, ?_, hz.1.operation⟩
    simp only [NetState.pass, NetState.setHistory, hz.1.worker]
  refine ⟨guarantees_worker_of_owned hinv hz.1.initialized rfl ?_ ?_ rfl rfl rfl rfl, ?_⟩
  · rw [hz.2]
    exact howned.pass hz.1.worker
  · intro operation frame hmem
    rcases List.mem_append.mp hmem with hmem | hmem
    · exact hinv.discarded operation frame hmem
    · cases List.mem_singleton.mp hmem
  · exact safe_steady (Keeps.ite (keeps_store fun _ ↦ rfl) (keeps_store fun _ ↦ rfl)) hpassed

/-- The worker dequeues a message, or finds the queue empty. -/
theorem safe_receive (hx : WorkerUp operation .idle x) :
    NetSafe .worker (perform .osReceiveMessage)
      (fun received ↦ WorkerUp operation (match received.message with
        | none => .idle
        | some m => .taken m)) x := by
  refine safe_perform hx (stable_workerUp .idle) fun y hy hinv ↦ ⟨trivial, fun answer z hreply ↦ ?_⟩
  have howned := hinv.up hy.initialized
  simp only [netSystem, replies] at hreply
  split at hreply
  · split at hreply
    · rename_i hnone
      cases hreply
      rw [hnone]
      exact ⟨guarantees_worker_of_tx hinv rfl rfl fun hdown ↦ (hinv.down hdown).1, hy⟩
    · cases hreply
  · rename_i m rest hqueue
    split at hreply
    · rename_i hsome
      cases hreply
      rw [hsome]
      refine ⟨?_, hy.initialized, rfl, hy.operation⟩
      exact guarantees_worker_of_owned hinv hy.initialized rfl (howned.take hy.worker hqueue)
        hinv.discarded rfl rfl rfl rfl
    · cases hreply

/-- The worker releases its slot; only `ax_net_stop` releases one without having sent it. -/
theorem safe_retire {m : OSMessage} {phase : WorkerPhase}
    (hphase : phase = .passed m ∨ phase = .taken m ∧ ∃ fuel, operation = .stop fuel)
    (hx : WorkerUp operation phase x) :
    NetSafe .worker (store fun s ↦ s.retire m.message) (fun _ ↦ WorkerUp operation .idle) x := by
  refine safe_store hx (stable_workerUp phase) fun y hy hinv ↦ ⟨?_, hy.initialized, rfl, hy.operation⟩
  have hheld : y.mem.history.worker.message = some m := by
    rw [hy.worker]
    rcases hphase with rfl | ⟨rfl, -⟩ <;> rfl
  refine guarantees_worker_of_owned hinv hy.initialized rfl ((hinv.up hy.initialized).retire hheld) ?_
    rfl rfl rfl rfl
  intro op frame hmem
  rcases hphase with rfl | ⟨rfl, fuel, hstop⟩
  · simp only [NetState.retire, NetState.setHistory, NetState.setInUse, hy.worker] at hmem
    exact hinv.discarded op frame hmem
  · simp only [NetState.retire, NetState.setHistory, NetState.setInUse, hy.worker, hy.operation]
      at hmem
    rcases List.mem_append.mp hmem with hmem | hmem
    · exact hinv.discarded op frame hmem
    · cases List.mem_singleton.mp hmem
      exact ⟨fuel, by rw [hstop]⟩

theorem safe_drainTx (ax : ℕ) {send : ℤ} (hsend : send = 0 → ∃ fuel, operation = .stop fuel)
    (fuel : ℕ) (hx : WorkerUp operation .idle x) :
    NetSafe .worker (drainTx ax send fuel) (fun _ ↦ WorkerUp operation .idle) x := by
  induction fuel generalizing x with
  | zero => trivial
  | succ fuel ih =>
    simp only [NetSafe, drainTx, safe_bind]
    refine safe_mono (safe_receive hx) fun received y hy ↦ ?_
    cases hmessage : received.message with
    | none =>
      rw [hmessage] at hy
      exact hy
    | some m =>
      rw [hmessage] at hy
      simp only [safe_bind, safe_when]
      split
      · refine safe_mono (safe_transmit ax hy) fun _ z hz ↦ ?_
        exact safe_mono (safe_retire (.inl rfl) hz) fun _ w hw ↦ ih hw
      · rename_i hzero
        have hstop := hsend (not_not.mp hzero)
        exact safe_mono (safe_retire (.inr ⟨rfl, hstop⟩) hy) fun _ w hw ↦ ih hw

/-! ## The operations -/

/-- The worker is between two messages of its operation, whether the stack is up or not. -/
structure WorkerFree (operation : WorkerOp) (x : NetMachine) : Prop where
  worker : x.mem.history.worker = .idle
  operation : x.mem.history.operation = some operation

theorem stable_workerFree : Stable TxInv netRely .worker (WorkerFree operation) :=
  fun _ _ hx hmove _ ↦ ⟨hmove.worker.trans hx.worker, hmove.operation.trans hx.operation⟩

theorem WorkerUp.free (hx : WorkerUp operation .idle x) : WorkerFree operation x :=
  ⟨hx.worker, hx.operation⟩

/-- An active interface has its stack up. -/
theorem safe_loadActive (hx : WorkerFree operation x) :
    NetSafe .worker (load fun s ↦ s.active)
      (fun active y ↦ WorkerFree operation y ∧ (active ≠ 0 → WorkerUp operation .idle y)) x := by
  refine safe_load netRely_refl hx stable_workerFree fun y hy hinv ↦ ⟨hy, fun hactive ↦ ?_⟩
  exact ⟨fun hdown ↦ hactive (hinv.down hdown).1, hy.worker, hy.operation⟩

theorem safe_pollFrames (fuel : ℕ) (hx : WorkerUp operation .idle x) :
    NetSafe .worker (pollFrames fuel) (fun _ ↦ WorkerFree operation) x := by
  have hsend : (1 : ℤ) = 0 → ∃ fuel, operation = .stop fuel := fun h ↦ absurd h (by decide)
  refine safe_steady_bind (keeps_load _) hx fun ax x₁ hx₁ ↦ ?_
  rw [NetSafe, safe_bind]
  refine safe_mono (safe_drainTx ax hsend fuel hx₁) fun _ x₂ hx₂ ↦ ?_
  refine safe_steady_bind (steady_of_supervises (supervises_receiveFrame 5000)) hx₂
    fun received x₃ hx₃ ↦ ?_
  refine safe_steady_bind (steady_of_supervises (supervises_inputReceived received fuel)) hx₃
    fun _ x₄ hx₄ ↦ ?_
  refine safe_steady_bind (keeps_load _) hx₄ fun ax x₅ hx₅ ↦ ?_
  rw [NetSafe, safe_bind]
  exact safe_mono (safe_drainTx ax hsend fuel hx₅) fun _ y hy ↦ hy.free

theorem safe_axNetPoll (fuel : ℕ) (hx : WorkerFree operation x) :
    NetSafe .worker (axNetPoll fuel) (fun _ ↦ WorkerFree operation) x := by
  rw [NetSafe, axNetPoll, safe_bind]
  refine safe_mono (safe_loadActive hx) fun active y ⟨hy, hup⟩ ↦ ?_
  rw [safe_ite]
  split
  · exact hy
  · rename_i hactive
    refine safe_steady_bind (keeps_perform rfl) (hup hactive) fun now x₁ hx₁ ↦ ?_
    refine safe_steady_bind (steady_of_supervises (supervises_pollLinkIfDue _)) hx₁
      fun lost x₂ hx₂ ↦ ?_
    rw [NetSafe, safe_ite]
    split
    · exact hx₂.free
    · exact safe_pollFrames fuel hx₂

theorem safe_axNetStop {bound fuel : ℕ} (hx : WorkerFree (.stop bound) x) :
    NetSafe .worker (axNetStop fuel) (fun _ ↦ WorkerFree (.stop bound)) x := by
  rw [NetSafe, axNetStop, safe_bind]
  refine safe_mono (safe_loadActive hx) fun active y ⟨hy, hup⟩ ↦ ?_
  rw [safe_ite]
  split
  · exact hy
  · rename_i hactive
    refine safe_steady_bind (steady_of_supervises (supervises_invoke rfl)) (hup hactive)
      fun _ x₁ hx₁ ↦ ?_
    refine safe_steady_bind (steady_of_supervises supervises_stopNetif) hx₁ fun _ x₂ hx₂ ↦ ?_
    refine safe_steady_bind (steady_of_supervises (supervises_invoke rfl)) hx₂ fun _ x₃ hx₃ ↦ ?_
    refine safe_steady_bind (keeps_load _) hx₃ fun ax x₄ hx₄ ↦ ?_
    rw [NetSafe, safe_bind]
    refine safe_mono (safe_drainTx ax (fun _ ↦ ⟨bound, rfl⟩) fuel hx₄) fun _ z hz ↦ ?_
    refine safe_store hz (stable_workerUp .idle) fun w hw hinv ↦ ⟨?_, hw.worker, hw.operation⟩
    exact guarantees_worker_of_tx hinv rfl rfl fun _ ↦ rfl

/-! ## Bringing the stack up -/

/-- The flags outside the list are clear and the stack is not up yet. -/
structure Clearing (operation : WorkerOp) (slots : List ℕ) (x : NetMachine) : Prop where
  initialized : x.mem.initialized = 0
  free : WorkerFree operation x
  clear : ∀ slot < txSlots, slot ∉ slots → x.mem.txInUse slot = 0

theorem stable_clearing (slots : List ℕ) :
    Stable TxInv netRely .worker (Clearing operation slots) := by
  intro x y hx hmove _
  rw [hmove.down hx.initialized]
  exact hx

/-- A step of the worker on the transmit path before the stack is up. -/
theorem guarantees_worker_of_down {y : NetMachine} {mem : NetState} (hinv : TxInv y)
    (hdown : y.mem.initialized = 0) (howned : mem.initialized ≠ 0 → SlotsOwned mem)
    (hactive : mem.active = y.mem.active) (hhistory : mem.history = y.mem.history)
    (hpool : mem.txPool = y.mem.txPool) : Guarantees TxInv netRely .worker y { y with mem := mem } := by
  refine guarantees_worker ⟨fun _ ↦ ?_, howned, ?_, ?_⟩
    ⟨fun hup ↦ absurd hdown hup, hpool, ?_, ?_, ?_⟩
  · rw [hactive, hhistory]
    exact hinv.down hdown
  · rw [hhistory]
    exact hinv.discarded
  · rw [hhistory]
    exact hinv.late
  all_goals rw [hhistory]

/-- The flags are clear and the queue is empty. -/
def Cleared (operation : WorkerOp) (x : NetMachine) : Prop :=
  Clearing operation [] x ∧ x.mem.txQueue = { capacity := txSlots, messages := [] }

theorem stable_cleared : Stable TxInv netRely .worker (Cleared operation) := by
  intro x y hx hmove _
  rw [hmove.down hx.1.initialized]
  exact hx

/-- With `initialized` the stack takes over slots that have no owner. -/
theorem safe_publish (hx : Cleared operation x) :
    NetSafe .worker (do
      invoke .tcpipInit
      store fun s ↦ { s with initialized := 1 }) (fun _ ↦ WorkerUp operation .idle) x := by
  simp only [NetSafe, invoke, safe_bind, safe_pure]
  refine safe_perform hx stable_cleared fun y hy hinv ↦ ⟨trivial, fun answer z hreply ↦ ?_⟩
  cases hreply
  refine ⟨guarantees_worker_of_tx hinv rfl rfl fun hdown ↦ (hinv.down hdown).1, ?_⟩
  refine safe_store hy stable_cleared fun z hz hinv ↦ ⟨?_, ?_⟩
  · obtain ⟨-, hfilling, hworker, hposted, hsettled⟩ := hinv.down hz.1.initialized
    refine guarantees_worker_of_down hinv hz.1.initialized (fun _ ↦ ⟨?_, ?_, ?_⟩) rfl rfl rfl
    · exact congrArg OSMessageQueue.capacity hz.2
    · have howners : z.mem.owners = [] := by
        simp [NetState.owners, hz.2, hfilling, hworker, WorkerPhase.message]
      change Marked txSlots z.mem.owners z.mem.txInUse
      rw [howners]
      exact ⟨List.nodup_nil, fun _ h ↦ absurd h List.not_mem_nil, fun slot hslot ↦
        (hz.1.clear slot hslot List.not_mem_nil).trans (if_neg List.not_mem_nil).symm⟩
    · change z.mem.history.posted = z.mem.history.settled.map TxFate.frame ++ z.mem.travelling
      simp [NetState.travelling, hposted, hsettled, hz.2, hworker, WorkerPhase.waiting]
  · exact ⟨Int.one_ne_zero, hz.1.free.worker, hz.1.free.operation⟩

theorem steady_setupNetif (ax : ℕ) (linkUp restoreLease : Bool) :
    Steady (setupNetif ax linkUp restoreLease) := by
  have hinvoke : ∀ request : NetCall, request.offQueue = true → Steady (invoke request) :=
    fun request hoff ↦ Keeps.bind (keeps_perform hoff) fun _ ↦ keeps_pure ()
  refine Keeps.bind (steady_of_supervises supervises_removeLeftover) fun _ ↦ ?_
  refine Keeps.bind (keeps_store fun _ ↦ rfl) fun _ ↦ Keeps.bind (keeps_perform rfl) fun added ↦ ?_
  refine Keeps.ite (keeps_pure _) (Keeps.bind (keeps_store fun _ ↦ rfl) fun _ ↦ ?_)
  refine Keeps.bind (hinvoke _ rfl) fun _ ↦ Keeps.bind (hinvoke _ rfl) fun _ ↦ ?_
  refine Keeps.bind (Keeps.when (hinvoke _ rfl)) fun _ ↦ ?_
  refine Keeps.bind (steady_of_supervises (supervises_setupAddress restoreLease)) fun ready ↦ ?_
  exact Keeps.ite (Keeps.bind (hinvoke _ rfl) fun _ ↦ keeps_pure _) (keeps_pure _)

/-- `ax_net_start` on a stack that is not up clears the slots and the queue before it publishes
them. -/
theorem safe_initStack (hx : WorkerFree operation x) (hdown : x.mem.initialized = 0) :
    NetSafe .worker initStack (fun _ ↦ WorkerUp operation .idle) x := by
  rw [NetSafe, initStack, safe_bind]
  have hstart : Clearing operation (List.range txSlots) x :=
    ⟨hdown, hx, fun slot hslot hnot ↦ absurd (List.mem_range.mpr hslot) hnot⟩
  refine safe_mono (safe_each (Clearing operation) hstart ?_) fun _ y hy ↦ ?_
  · intro slot rest y hy
    refine safe_store hy (stable_clearing _) fun z hz hinv ↦ ⟨?_, ?_⟩
    · exact guarantees_worker_of_down hinv hz.initialized (fun hup ↦ absurd hz.initialized hup)
        rfl rfl rfl
    · refine ⟨hz.initialized, ⟨hz.free.worker, hz.free.operation⟩, fun other hother hnot ↦ ?_⟩
      by_cases hsame : other = slot
      · rw [hsame]
        exact Function.update_self slot _ _
      · refine (Function.update_of_ne hsame _ _).trans (hz.clear other hother ?_)
        simp [hsame, hnot]
  · rw [safe_bind]
    refine safe_store hy (stable_clearing []) fun z hz hinv ↦ ⟨?_, ?_⟩
    · exact guarantees_worker_of_down hinv hz.initialized (fun hup ↦ absurd hz.initialized hup)
        rfl rfl rfl
    · exact safe_publish ⟨⟨hz.initialized, ⟨hz.free.worker, hz.free.operation⟩, hz.clear⟩, rfl⟩

theorem safe_startInterface (ax : ℕ) (hx : WorkerUp operation .idle x) :
    NetSafe .worker (startInterface ax) (fun _ ↦ WorkerFree operation) x := by
  refine safe_steady_bind (keeps_load _) hx fun restoreLease x₁ hx₁ ↦ ?_
  refine safe_steady_bind (keeps_store fun _ ↦ rfl) hx₁ fun _ x₂ hx₂ ↦ ?_
  refine safe_steady_bind (keeps_perform rfl) hx₂ fun link x₃ hx₃ ↦ ?_
  refine safe_steady_bind (steady_of_supervises (supervises_invoke rfl)) hx₃ fun _ x₄ hx₄ ↦ ?_
  refine safe_steady_bind (steady_setupNetif _ _ _) hx₄ fun err x₅ hx₅ ↦ ?_
  refine safe_steady_bind (steady_of_supervises (supervises_invoke rfl)) hx₅ fun _ x₆ hx₆ ↦ ?_
  rw [NetSafe, safe_ite]
  split
  · exact hx₆.free
  · refine safe_steady_bind (keeps_perform rfl) hx₆ fun now x₇ hx₇ ↦ ?_
    rw [NetSafe, safe_bind]
    refine safe_store hx₇ (stable_workerUp .idle) fun y hy hinv ↦ ⟨?_, hy.worker, hy.operation⟩
    exact guarantees_worker_of_tx hinv rfl rfl fun hdown ↦ absurd hdown hy.initialized

theorem safe_axNetStart (ax : ℕ) (hx : WorkerFree operation x) :
    NetSafe .worker (axNetStart ax) (fun _ ↦ WorkerFree operation) x := by
  rw [NetSafe, axNetStart, safe_bind]
  refine safe_mono (safe_loadActive hx) fun active y ⟨hy, _⟩ ↦ ?_
  rw [safe_ite]
  split
  · exact hy
  · rw [safe_bind]
    refine safe_load netRely_refl hy stable_workerFree fun z hz hinv ↦ ?_
    rw [safe_bind, safe_when]
    split
    · rename_i hdown
      exact safe_mono (safe_initStack hz hdown) fun _ w hw ↦ safe_startInterface ax hw
    · rename_i hup
      exact safe_startInterface ax ⟨hup, hz.worker, hz.operation⟩

/-- Between two operations the worker holds no message. -/
def workerIdle (x : NetMachine) : Prop := x.mem.history.worker = .idle

theorem safe_workerBody (operation : WorkerOp) (hx : workerIdle x) :
    NetSafe .worker (workerBody operation) (fun _ ↦ workerIdle) x := by
  have hstable : Stable TxInv netRely .worker workerIdle := fun y z hy hmove _ ↦
    hmove.worker.trans hy
  rw [NetSafe, workerBody, safe_bind]
  refine safe_store hx hstable fun y hy hinv ↦ ⟨?_, ?_⟩
  · refine guarantees_worker ⟨hinv.down, fun hup ↦ ?_, hinv.discarded, hinv.late⟩
      ⟨id, rfl, rfl, rfl, rfl⟩
    exact ⟨(hinv.up hup).capacity, (hinv.up hup).marked, (hinv.up hup).posted⟩
  · have hfree : WorkerFree operation { y with mem := y.mem.setHistory fun history ↦
        { history with operation := some operation } } := ⟨hy, rfl⟩
    cases operation with
    | start ax =>
      rw [WorkerOp.program, ignoreResult, safe_bind]
      exact safe_mono (safe_axNetStart ax hfree) fun _ z hz ↦ hz.worker
    | poll fuel =>
      rw [WorkerOp.program, ignoreResult, safe_bind]
      exact safe_mono (safe_axNetPoll fuel hfree) fun _ z hz ↦ hz.worker
    | stop fuel => exact safe_mono (safe_axNetStop hfree) fun _ z hz ↦ hz.worker

end Ax88179Aroma.Net
