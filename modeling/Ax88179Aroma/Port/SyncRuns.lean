import Ax88179Aroma.Port.SyncSteps

/-!
# Mailboxes and semaphores lose nothing

Each call of a thread against any interference of the others, and from it the runs: a mailbox hands
out what was put in, in this order, and a semaphore as many permits as it was given, whatever a wait
with a timeout returns.  Such a wait polls a bounded number of times.
-/

namespace Ax88179Aroma.Port

open Effect Net Program

variable {ι : Type}

/-! ## Readings of the clock -/

/-- A wait has just read the clock. -/
structure TimedWait.Clocked (w : TimedWait) (start : ℕ) (timeout elapsed : UInt32) : Prop where
  started : w.started = some start
  timeout : w.timeout = timeout
  slept : start + w.sleeps * sleepTicks ≤ w.last
  elapsed_eq : elapsed.toNat = (w.last - start) * 1000 / osTimerClockSpeed
  elapsed_lt : elapsed.toNat < sysArchTimeout.toNat
  elapsed : w.elapsed = elapsed.toNat
  patient : w.Patient

theorem TimedWait.Clocked.ne {w : TimedWait} {start : ℕ} {timeout elapsed : UInt32}
    (h : w.Clocked start timeout elapsed) : elapsed ≠ sysArchTimeout := by
  rintro rfl
  exact Nat.lt_irrefl _ h.elapsed_lt

/-- The result of a wait that got what it waited for. -/
theorem TimedWait.Clocked.ended {w : TimedWait} {start : ℕ} {timeout elapsed : UInt32}
    (h : w.Clocked start timeout elapsed) : w.Ended elapsed where
  timeout_le hcode := absurd hcode h.ne
  elapsed_eq _ := h.elapsed.symm
  patient := h.patient

theorem TimedWait.Clocked.timedOut {w : TimedWait} {start : ℕ} {timeout elapsed : UInt32}
    (h : w.Clocked start timeout elapsed) (hge : elapsed ≥ timeout) : w.Ended sysArchTimeout where
  timeout_le _ := by
    rw [h.elapsed, h.timeout]
    exact UInt32.le_iff_toNat_le.mp hge
  elapsed_eq hcode := absurd rfl hcode
  patient := h.patient

theorem TimedWait.Clocked.maySleep {w : TimedWait} {start : ℕ} {timeout elapsed : UInt32}
    (h : w.Clocked start timeout elapsed) (hlt : ¬ elapsed ≥ timeout) : w.MaySleep start where
  started := h.started
  slept := h.slept
  within := by
    have hless : elapsed.toNat < timeout.toNat := by
      rw [← Nat.not_le]
      exact fun hle ↦ hlt (UInt32.le_iff_toNat_le.mpr hle)
    rw [h.elapsed_eq, ← h.timeout] at hless
    exact (Nat.div_lt_iff_lt_mul (by decide)).mp hless

/-- The timing after the clock was read. -/
theorem clocked_read {i : ι} {x : PortMachine ι} {w : TimedWait} {start : ℕ}
    (hinv : PortInv x) (hw : x.mem.history.timing i = some w) (hstarted : w.started = some start) :
    (w.read x.world.now).Clocked start w.timeout
      (UInt32.ofNat (osTicksToMilliseconds (x.world.now - start))) := by
  have hgoing := hinv.going i w hw
  obtain ⟨hboot, -, -, hslept⟩ := hgoing.read start hstarted
  have hread : (w.read x.world.now).started = some start := by
    rw [TimedWait.read, hstarted]
    rfl
  obtain ⟨hlt, heq⟩ := hinv.elapsed_lt (Nat.sub_le_sub_left hboot x.world.now)
  have hnat : (UInt32.ofNat (osTicksToMilliseconds (x.world.now - start))).toNat =
      osTicksToMilliseconds (x.world.now - start) :=
    UInt32.toNat_ofNat_of_lt' (Nat.lt_trans hlt (by decide))
  refine ⟨hread, rfl, hslept, hnat.trans heq, hnat.symm ▸ hlt, ?_, hgoing.patient⟩
  rw [hnat, TimedWait.elapsed, hread]
  rfl

variable [DecidableEq ι] {i : ι} {x : PortMachine ι} {work : Work} {α : Type}

/-! ## Single calls -/

theorem port_perform {request : PortCall} {post : PortReply → PortMachine ι → Prop}
    {assertion : PortMachine ι → Prop} (hx : assertion x)
    (hstable : Stable PortSound PortRely i assertion)
    (hstep : ∀ y answer z, assertion y → PortSound y → portReplies i request answer y = some z →
      Guarantees PortSound PortRely i y z ∧ post answer z) :
    PortSafe i (perform request) post x :=
  safe_perform hx hstable fun y hy hinv ↦
    ⟨trivial, fun answer z hreply ↦ hstep y answer z hy hinv hreply⟩

theorem port_invoke {request : PortCall} (post : PortMachine ι → Prop)
    (h : PortSafe i (perform request) (fun _ ↦ post) x) :
    PortSafe i (invoke request) (fun _ ↦ post) x := by
  simp only [PortSafe, invoke, safe_bind]
  exact safe_mono h fun _ _ hy ↦ hy

/-- After a send the message is in the mailbox, unless there was no room for it. -/
def Sent (i : ι) (work : Work) (queue msg : ℕ) (blocking : Bool) (answer : PortReply)
    (y : PortMachine ι) : Prop :=
  answer.code ≠ 0 ∧ Holding i { work with entered := work.entered ++ [(queue, msg)] } y ∨
    answer.code = 0 ∧ blocking = false ∧ Holding i work y

theorem safe_osSendMessage (hsize : work.size = 0) (hx : Holding i work x) (queue msg : ℕ)
    (blocking : Bool) :
    PortSafe i (perform (.osSendMessage queue { message := msg, args0 := 0 } blocking))
      (Sent i work queue msg blocking) x := by
  refine port_perform hx (stable_holding i work) fun y answer z hy hinv hreply ↦ ?_
  obtain ⟨box, hbox, hreply⟩ := Option.bind_eq_some_iff.mp hreply
  split at hreply
  · rename_i hroom
    split at hreply
    · rename_i hcode
      cases hreply
      have hsent := holding_sendMessage hy queue box { message := msg, args0 := 0 }
      refine ⟨?_, .inl ⟨hcode, hsent⟩⟩
      exact guarantees_of_own hinv (inv_sendMessage hinv.toPortInv hbox hroom _)
        (fun j hj ↦ own_sendMessage hj queue box _) hsent (size_entered hsize _) rfl rfl
        (fun p hp ↦ update_some_ne_none _ hp) fun p hp ↦ hp
    · cases hreply
  · split at hreply
    · rename_i hfull
      cases hreply
      exact ⟨guarantees_refl hinv, .inr ⟨hfull.2, hfull.1, hy⟩⟩
    · cases hreply

/-- After a receive the thread has the first message, unless there was none. -/
def Received (i : ι) (work : Work) (queue : ℕ) (blocking : Bool) (answer : PortReply)
    (y : PortMachine ι) : Prop :=
  match answer.message with
  | some m => Holding i { work with left := work.left ++ [(queue, m.message)] } y
  | none => blocking = false ∧ Holding i work y

theorem safe_osReceiveMessage (hsize : work.size = 0) (hx : Holding i work x) (queue : ℕ)
    (blocking : Bool) :
    PortSafe i (perform (.osReceiveMessage queue blocking)) (Received i work queue blocking) x := by
  refine port_perform hx (stable_holding i work) fun y answer z hy hinv hreply ↦ ?_
  obtain ⟨box, hbox, hreply⟩ := Option.bind_eq_some_iff.mp hreply
  split at hreply
  · split at hreply
    · rename_i hempty
      cases hreply
      refine ⟨guarantees_refl hinv, ?_⟩
      rw [Received, hempty.2]
      exact ⟨hempty.1, hy⟩
    · cases hreply
  · rename_i m rest hmessages
    split at hreply
    · rename_i hmessage
      cases hreply
      rw [Received, hmessage]
      have hreceived := holding_receiveMessage hy queue box m rest
      refine ⟨?_, hreceived⟩
      exact guarantees_of_own hinv (inv_receiveMessage hinv.toPortInv hbox hmessages)
        (fun j hj ↦ own_receiveMessage hj queue box m rest) hreceived (size_left hsize _) rfl rfl
        (fun p hp ↦ update_some_ne_none _ hp) fun p hp ↦ hp
    · cases hreply

theorem safe_osSignalSemaphore (hsize : work.size = 0) (hx : Holding i work x) (sem : ℕ) :
    PortSafe i (perform (.osSignalSemaphore sem))
      (fun _ ↦ Holding i { work with given := work.given ++ [sem] }) x := by
  refine port_perform hx (stable_holding i work) fun y answer z hy hinv hreply ↦ ?_
  obtain ⟨count, hcount, rfl⟩ := Option.map_eq_some_iff.mp hreply
  have hgiven := holding_signal hy sem count
  refine ⟨?_, hgiven⟩
  exact guarantees_of_own hinv (inv_signal hinv.toPortInv hcount)
    (fun j hj ↦ own_signal hj sem count) hgiven (size_given hsize _) rfl rfl
    (fun p hp ↦ hp) fun p hp ↦ update_some_ne_none _ hp

/-- A step that takes a permit. -/
theorem step_takePermit (hsize : work.size = 0) (hx : Holding i work x) (hsound : PortSound x)
    {sem count : ℕ} (hcount : x.world.semaphores sem = some (count + 1)) :
    Guarantees PortSound PortRely i x (takePermit i x sem count) ∧
      Holding i { work with taken := work.taken ++ [sem] } (takePermit i x sem count) := by
  have htaken := holding_takePermit hx sem count
  refine ⟨?_, htaken⟩
  exact guarantees_of_own hsound (inv_takePermit hsound.toPortInv hcount)
    (fun _ hj ↦ own_takePermit hj sem count) htaken (size_taken hsize _) rfl rfl
    (fun _ hp ↦ hp) fun _ hp ↦ update_some_ne_none _ hp

theorem safe_osWaitSemaphore (hsize : work.size = 0) (hx : Holding i work x) (sem : ℕ) :
    PortSafe i (perform (.osWaitSemaphore sem))
      (fun _ ↦ Holding i { work with taken := work.taken ++ [sem] }) x := by
  refine port_perform hx (stable_holding i work) fun y answer z hy hinv hreply ↦ ?_
  simp only [portReplies] at hreply
  split at hreply
  · rename_i count hcount
    cases hreply
    exact step_takePermit hsize hy hinv hcount
  · cases hreply

theorem safe_osTryWaitSemaphore (hsize : work.size = 0) (hx : Holding i work x) (sem : ℕ) :
    PortSafe i (perform (.osTryWaitSemaphore sem))
      (fun answer ↦ Holding i
        (if answer.code ≠ 0 then { work with taken := work.taken ++ [sem] } else work)) x := by
  refine port_perform hx (stable_holding i work) fun y answer z hy hinv hreply ↦ ?_
  simp only [portReplies] at hreply
  split at hreply
  · split at hreply
    · rename_i hcode
      cases hreply
      rw [if_neg (not_not_intro hcode)]
      exact ⟨guarantees_refl hinv, hy⟩
    · cases hreply
  · rename_i count hcount
    split at hreply
    · rename_i hcode
      cases hreply
      rw [hcode, if_pos (Int.natCast_ne_zero.mpr (Nat.succ_ne_zero count))]
      exact step_takePermit hsize hy hinv hcount
    · cases hreply
  · cases hreply

/-! ## New objects -/

theorem safe_malloc (hx : Holding i work x) (hsize : work.size ≤ 1) {block : Block}
    (hblock : block = .semaphore ∨ block = .mutex ∨ ∃ size, block = .mailbox size) :
    PortSafe i (perform (.malloc block))
      (fun answer ↦ Holding i
        (if answer.pointer = 0 then work else { work with creating := some answer.pointer })) x := by
  refine port_perform hx (stable_holding i work) fun y answer z hy hinv hreply ↦ ?_
  have hown : ∀ j, i ≠ j → own j z = own j y := fun j hj ↦ own_allocate hj hreply
  have hinv' := inv_allocate hinv.toPortInv hreply
  by_cases hp : answer.pointer = 0
  · simp only [portReplies, allocate, if_pos hp, Option.some.injEq] at hreply
    subst hreply
    rw [if_pos hp]
    exact ⟨guarantees_refl hinv, hy⟩
  · have hcreating := holding_allocate hblock hp hy hreply
    rw [if_neg hp]
    refine ⟨?_, hcreating⟩
    simp only [portReplies, allocate, if_neg hp] at hreply
    obtain ⟨heap, -, rfl⟩ := Option.map_eq_some_iff.mp hreply
    exact guarantees_of_own hinv hinv' hown hcreating hsize rfl rfl (fun _ hq ↦ hq) fun _ hq ↦ hq

theorem safe_osInitMessageQueue {p : ℕ} (hx : Holding i work x) (hsize : work.size ≤ 1)
    (hcreating : work.creating = some p) (capacity : ℕ) :
    PortSafe i (perform (.osInitMessageQueue p capacity))
      (fun _ ↦ Holding i { work with creating := none }) x := by
  refine port_perform hx (stable_holding i _) fun y answer z hy hinv hreply ↦ ?_
  cases hreply
  have hdone := holding_initMessageQueue hy p capacity
  refine ⟨?_, hdone⟩
  exact guarantees_of_own hinv
    (inv_initMessageQueue hinv.toPortInv (hy.creating.trans hcreating))
    (fun j hj ↦ own_initMessageQueue hj p capacity) hdone hsize rfl rfl
    (fun q hq ↦ update_some_ne_none _ hq) fun q hq ↦ hq

theorem safe_osInitSemaphore {p : ℕ} (hx : Holding i work x) (hsize : work.size ≤ 1)
    (hcreating : work.creating = some p) (count : ℕ) :
    PortSafe i (perform (.osInitSemaphore p count))
      (fun _ ↦ Holding i { work with creating := none }) x := by
  refine port_perform hx (stable_holding i _) fun y answer z hy hinv hreply ↦ ?_
  cases hreply
  have hdone := holding_initSemaphore hy p count
  refine ⟨?_, hdone⟩
  exact guarantees_of_own hinv
    (inv_initSemaphore hinv.toPortInv (hy.creating.trans hcreating))
    (fun j hj ↦ own_initSemaphore hj p count) hdone hsize rfl rfl
    (fun q hq ↦ hq) fun q hq ↦ update_some_ne_none _ hq

theorem safe_sysMboxNew (hx : Holding i {} x) (size : ℤ) :
    PortSafe i (sysMboxNew size) (fun _ ↦ Holding i {}) x := by
  simp only [PortSafe, sysMboxNew, safe_bind]
  refine safe_mono (safe_malloc hx (Nat.zero_le 1) (.inr (.inr ⟨_, rfl⟩))) fun answer y hy ↦ ?_
  by_cases hnull : answer.pointer = 0
  · rw [if_pos hnull] at hy
    rw [safe_ite, if_pos hnull]
    exact hy
  · rw [if_neg hnull] at hy
    simp only [if_neg hnull, safe_bind]
    exact safe_mono (port_invoke _ (safe_osInitMessageQueue hy (Nat.zero_le 1) rfl _)) fun _ _ hz ↦ hz

theorem safe_sysSemNew (hx : Holding i {} x) (count : UInt8) :
    PortSafe i (sysSemNew count) (fun _ ↦ Holding i {}) x := by
  simp only [PortSafe, sysSemNew, safe_bind]
  refine safe_mono (safe_malloc hx (Nat.zero_le 1) (.inl rfl)) fun answer y hy ↦ ?_
  by_cases hnull : answer.pointer = 0
  · rw [if_pos hnull] at hy
    rw [safe_ite, if_pos hnull]
    exact hy
  · rw [if_neg hnull] at hy
    simp only [if_neg hnull, safe_bind]
    exact safe_mono (port_invoke _ (safe_osInitSemaphore hy (Nat.zero_le 1) rfl _)) fun _ _ hz ↦ hz

/-! ## Waits with a timeout -/

theorem step_readClock {w : TimedWait} (hsize : work.size ≤ 1)
    (hx : Holding i { work with timing := some w } x) (hsound : PortSound x) :
    Guarantees PortSound PortRely i x (readClock i x) ∧
      Holding i { work with timing := some (w.read x.world.now) } (readClock i x) := by
  have hread := holding_readClock hx
  refine ⟨?_, hread⟩
  exact guarantees_of_own hsound (inv_readClock hsound.toPortInv) (fun _ hj ↦ own_setTiming hj _)
    hread hsize rfl rfl (fun _ hp ↦ hp) fun _ hp ↦ hp

theorem safe_elapsedSince (work : Work) (hsize : work.size ≤ 1) {w : TimedWait} {start : ℕ}
    (hx : Holding i { work with timing := some w } x) (hstarted : w.started = some start) :
    PortSafe i (elapsedSince start) (fun elapsed y ↦ ∃ v : TimedWait,
      v.Clocked start w.timeout elapsed ∧ Holding i { work with timing := some v } y) x := by
  simp only [PortSafe, elapsedSince, osGetTime, safe_bind, safe_pure]
  refine port_perform hx (stable_holding i _) fun y answer z hy hinv hreply ↦ ?_
  simp only [portReplies] at hreply
  split at hreply
  · rename_i hcode
    cases hreply
    rw [hcode]
    obtain ⟨hguarantee, hread⟩ := step_readClock hsize hy hinv
    exact ⟨hguarantee, _, clocked_read hinv.toPortInv hy.timing hstarted, hread⟩
  · cases hreply

/-- The first reading of the clock. -/
theorem safe_osGetTime (work : Work) (hsize : work.size ≤ 1) {w : TimedWait}
    (hx : Holding i { work with timing := some w } x) (hnone : w.started = none) :
    PortSafe i osGetTime (fun start y ↦ ∃ v : TimedWait, v.started = some start ∧
      v.timeout = w.timeout ∧ Holding i { work with timing := some v } y) x := by
  simp only [PortSafe, osGetTime, safe_bind, safe_pure]
  refine port_perform hx (stable_holding i _) fun y answer z hy hinv hreply ↦ ?_
  simp only [portReplies] at hreply
  split at hreply
  · rename_i hcode
    cases hreply
    rw [hcode]
    obtain ⟨hguarantee, hread⟩ := step_readClock hsize hy hinv
    refine ⟨hguarantee, w.read y.world.now, ?_, rfl, hread⟩
    rw [TimedWait.read, hnone]
    rfl
  · cases hreply

/-- A sleep of one millisecond in a wait that may sleep. -/
theorem safe_msleep {w : TimedWait} {start : ℕ} (hsize : work.size ≤ 1)
    (hx : Holding i { work with timing := some w } x) (hsleep : w.MaySleep start) :
    PortSafe i (msleep 1) (fun _ ↦ Holding i { work with timing := some w.slept }) x := by
  let asleep : PortMachine ι → Prop := fun y ↦
    Holding i { work with timing := some w } y ∧
      start + (w.sleeps + 1) * sleepTicks ≤ (own i y).wake
  have hstable : Stable PortSound PortRely i asleep := stable_own i fun o ↦
    o.Accounts { work with timing := some w } ∧ start + (w.sleeps + 1) * sleepTicks ≤ o.wake
  simp only [PortSafe, msleep, safe_bind]
  refine safe_mono (port_invoke asleep
    (port_perform hx (stable_holding i _) fun y answer z hy hinv hreply ↦ ?_)) fun _ y hy ↦ ?_
  · cases hreply
    obtain ⟨-, -, -, hslept⟩ := (hinv.going i w hy.timing).read start hsleep.started
    refine ⟨guarantees_of_own hinv { hinv with } (fun j hj ↦ ?_) { hy with } hsize rfl rfl
      (fun _ hp ↦ hp) fun _ hp ↦ hp, { hy with }, ?_⟩
    · exact Own.ext rfl rfl (Function.update_of_ne (Ne.symm hj) _ _) rfl rfl rfl rfl rfl rfl rfl rfl
    · change _ ≤ Function.update y.world.wake i _ i
      rw [Function.update_self, Nat.succ_mul, ← Nat.add_assoc]
      exact Nat.add_le_add_right hslept _
  · refine port_invoke _ (port_perform hy hstable fun z answer u hz hinv hreply ↦ ?_)
    simp only [portReplies] at hreply
    split at hreply
    · rename_i hwake
      cases hreply
      have hawake := holding_awake hz.1
      refine ⟨?_, hawake⟩
      exact guarantees_of_own hinv
        (inv_awake hinv.toPortInv hz.1.timing hsleep (Nat.le_trans hz.2 hwake))
        (fun _ hj ↦ own_setTiming hj _) hawake hsize rfl rfl (fun _ hp ↦ hp) fun _ hp ↦ hp
    · cases hreply

/-- The branch of a poll that did not get what it waits for: give up or sleep and poll again. -/
theorem safe_retry (work : Work) {w : TimedWait} {start : ℕ} {timeout : UInt32}
    {giveUp next : PortM ι α} {post : α → PortMachine ι → Prop} (hsize : work.size ≤ 1)
    (hx : Holding i { work with timing := some w } x)
    (hstarted : w.started = some start) (htimeout : w.timeout = timeout)
    (hgiveUp : ∀ v y, v.Ended sysArchTimeout → Holding i { work with timing := some v } y →
      PortSafe i giveUp post y)
    (hnext : ∀ v y, v.started = some start → v.timeout = timeout →
      Holding i { work with timing := some v } y → PortSafe i next post y) :
    PortSafe i (do
      let elapsed ← elapsedSince start
      if elapsed ≥ timeout then giveUp
      else do
        msleep 1
        next) post x := by
  simp only [PortSafe, safe_bind]
  refine safe_mono (safe_elapsedSince work hsize hx hstarted) fun elapsed y hy ↦ ?_
  obtain ⟨v, hclocked, hy⟩ := hy
  rw [htimeout] at hclocked
  by_cases hge : elapsed ≥ timeout
  · rw [if_pos hge]
    exact hgiveUp v y (hclocked.timedOut hge) hy
  · simp only [if_neg hge, safe_bind]
    refine safe_mono (safe_msleep hsize hy (hclocked.maySleep hge)) fun _ z hz ↦ ?_
    exact hnext v.slept z hclocked.started hclocked.timeout hz

/-- A wait has returned `code`: with a timeout its timing agrees, and it has done `work`. -/
def Returned (i : ι) (work : Work) (code : UInt32) (y : PortMachine ι) : Prop :=
  ∃ timing : Option TimedWait, (∀ w, timing = some w → w.Ended code) ∧
    Holding i { work with timing := timing } y

theorem returned_of_ended {code : UInt32} {v : TimedWait} (hended : v.Ended code)
    (hx : Holding i { work with timing := some v } x) : Returned i work code x :=
  ⟨some v, fun _ hw ↦ Option.some.inj hw ▸ hended, hx⟩

/-- The permit that a wait has taken. -/
def waitWork (sem : ℕ) (code : UInt32) : Work :=
  { taken := if code = sysArchTimeout then [] else [sem] }

theorem safe_semPoll (sem start : ℕ) (timeout : UInt32) (fuel : ℕ) {w : TimedWait}
    (hx : Holding i { timing := some w } x) (hstarted : w.started = some start)
    (htimeout : w.timeout = timeout) :
    PortSafe i (semPoll sem start timeout fuel)
      (fun code ↦ Returned i (waitWork sem code) code) x := by
  induction fuel generalizing w x with
  | zero => trivial
  | succ fuel ih =>
    simp only [PortSafe, semPoll, safe_bind]
    refine safe_mono (safe_osTryWaitSemaphore rfl hx sem) fun answer y hy ↦ ?_
    by_cases hcode : answer.code ≠ 0
    · rw [if_pos hcode] at hy ⊢
      refine safe_mono (safe_elapsedSince { taken := [sem] } (Nat.le_refl 1) hy hstarted) fun elapsed z hz ↦ ?_
      obtain ⟨v, hclocked, hz⟩ := hz
      refine returned_of_ended hclocked.ended ?_
      rw [waitWork, if_neg hclocked.ne]
      exact hz
    · rw [if_neg hcode] at hy ⊢
      refine safe_retry {} (Nat.zero_le 1) hy hstarted htimeout (fun v z hended hz ↦ returned_of_ended hended hz)
        fun v z hstarted' htimeout' hz ↦ ih hz hstarted' htimeout'

/-- What a thread holds at the begin of a wait. -/
def waitBegun (timeout : UInt32) : Work :=
  { timing := if timeout = 0 then none else some { timeout := timeout } }

theorem safe_sysArchSemWait (sem : ℕ) (timeout : UInt32) (fuel : ℕ)
    (hx : Holding i (waitBegun timeout) x) :
    PortSafe i (sysArchSemWait sem timeout fuel)
      (fun code ↦ Returned i (waitWork sem code) code) x := by
  rw [waitBegun] at hx
  unfold sysArchSemWait
  by_cases hzero : timeout = 0
  · rw [if_pos hzero] at hx
    simp only [PortSafe, if_pos hzero, safe_bind]
    refine safe_mono (port_invoke _ (safe_osWaitSemaphore rfl hx sem)) fun _ y hy ↦ ?_
    exact ⟨none, by simp, hy⟩
  · rw [if_neg hzero] at hx
    simp only [PortSafe, if_neg hzero, safe_bind]
    refine safe_mono (safe_osGetTime {} (Nat.zero_le 1) hx rfl) fun start y hy ↦ ?_
    obtain ⟨v, hstarted, htimeout, hy⟩ := hy
    exact safe_semPoll sem start timeout fuel hy hstarted htimeout

/-- A probe is counted. -/
theorem safe_countUp (probe : PortState ι → UInt32) (set : UInt32 → PortState ι → PortState ι)
    (hset : ∀ value s, (set value s).history = s.history) (hx : Holding i work x)
    (hsize : work.size ≤ 1) :
    PortSafe i (countUp probe set) (fun _ ↦ Holding i work) x := by
  simp only [PortSafe, countUp, safe_bind]
  refine safe_load portRely_refl hx (stable_holding i work) fun y hy _ ↦ ?_
  refine safe_store hy (stable_holding i work) fun z hz hinv ↦ ?_
  generalize hmem : set (probe y.mem + 1) z.mem = mem
  have hhistory : mem.history = z.mem.history := hmem ▸ hset _ _
  obtain ⟨a, b, c, d, blocks, history⟩ := mem
  cases hhistory
  exact ⟨guarantees_of_own hinv { hinv with } (fun _ _ ↦ rfl) { hz with } hsize rfl rfl
    (fun _ hp ↦ hp) fun _ hp ↦ hp, { hz with }⟩

/-- The message that a fetch has taken. -/
def fetchWork (mbox : ℕ) (result : UInt32 × Option ℕ) : Work where
  left := if result.1 = sysArchTimeout then [] else result.2.toList.map fun msg ↦ (mbox, msg)

/-- A fetch that got a message. -/
theorem safe_fetched {mbox start : ℕ} {w : TimedWait} {m : OSMessage} {received : PortReply}
    (hx : Holding i { left := [(mbox, m.message)], timing := some w } x)
    (hstarted : w.started = some start) (hmessage : received.message = some m) :
    PortSafe i (do
      countMsg
      let elapsed ← elapsedSince start
      pure (elapsed, storedMessage true received))
      (fun result ↦ Returned i (fetchWork mbox result) result.1) x := by
  simp only [PortSafe, countMsg, safe_bind, safe_pure]
  refine safe_mono (safe_countUp _ _ (fun _ _ ↦ rfl) hx (Nat.le_refl 1)) fun _ y hy ↦ ?_
  refine safe_mono (safe_elapsedSince { left := [(mbox, m.message)] } (Nat.le_refl 1) hy hstarted)
    fun elapsed z hz ↦ ?_
  obtain ⟨v, hclocked, hz⟩ := hz
  refine returned_of_ended hclocked.ended ?_
  rw [fetchWork, if_neg hclocked.ne, storedMessage, hmessage]
  exact hz

theorem safe_fetchPoll (mbox start : ℕ) (timeout : UInt32) (fuel : ℕ) {w : TimedWait}
    (hx : Holding i { timing := some w } x) (hstarted : w.started = some start)
    (htimeout : w.timeout = timeout) :
    PortSafe i (fetchPoll mbox true start timeout fuel)
      (fun result ↦ Returned i (fetchWork mbox result) result.1) x := by
  induction fuel generalizing w x with
  | zero => trivial
  | succ fuel ih =>
    simp only [PortSafe, fetchPoll]
    rw [safe_bind]
    refine safe_mono (safe_osReceiveMessage rfl hx mbox false) fun received y hy ↦ ?_
    rw [Received] at hy
    cases hmessage : received.message with
    | some m =>
      rw [hmessage] at hy
      rw [if_pos (by rfl)]
      exact safe_fetched hy hstarted hmessage
    | none =>
      rw [hmessage] at hy
      rw [if_neg (by simp)]
      refine safe_retry {} (Nat.zero_le 1) hy.2 hstarted htimeout (fun v z hended hz ↦ ?_)
        fun v z hstarted' htimeout' hz ↦ ih hz hstarted' htimeout'
      simp only [PortSafe, countTimeout, safe_bind, safe_pure]
      exact safe_mono (safe_countUp _ _ (fun _ _ ↦ rfl) hz (Nat.zero_le 1)) fun _ u hu ↦
        returned_of_ended hended hu

theorem safe_sysArchMboxFetch (mbox : ℕ) (timeout : UInt32) (fuel : ℕ)
    (hx : Holding i (waitBegun timeout) x) :
    PortSafe i (sysArchMboxFetch mbox true timeout fuel)
      (fun result ↦ Returned i (fetchWork mbox result) result.1) x := by
  simp only [PortSafe, sysArchMboxFetch, countCall]
  rw [safe_bind]
  refine safe_mono (safe_countUp _ _ (fun _ _ ↦ rfl) hx (Nat.zero_le 1)) fun _ y hy ↦ ?_
  rw [waitBegun] at hy
  by_cases hzero : timeout = 0
  · rw [if_pos hzero] at hy
    simp only [if_pos hzero, countInfinite, countMsg, safe_bind, safe_pure]
    refine safe_mono (safe_countUp _ _ (fun _ _ ↦ rfl) hy (Nat.zero_le 1)) fun _ z hz ↦ ?_
    refine safe_mono (safe_osReceiveMessage rfl hz mbox true) fun received u hu ↦ ?_
    rw [Received] at hu
    cases hmessage : received.message with
    | some m =>
      rw [hmessage] at hu
      refine safe_mono (safe_countUp _ _ (fun _ _ ↦ rfl) hu (Nat.le_refl 1)) fun _ v hv ↦ ?_
      refine ⟨none, by simp, ?_⟩
      rw [storedMessage, hmessage]
      exact hv
    | none =>
      rw [hmessage] at hu
      cases hu.1
  · rw [if_neg hzero] at hy
    simp only [if_neg hzero]
    rw [safe_bind]
    refine safe_mono (safe_osGetTime {} (Nat.zero_le 1) hy rfl) fun start z hz ↦ ?_
    obtain ⟨v, hstarted, htimeout, hz⟩ := hz
    exact safe_fetchPoll mbox start timeout fuel hz hstarted htimeout

/-! ## Reports -/

/-- A write to the history that concerns one thread. -/
theorem safe_record {update : PortHistory ι → PortHistory ι} {assertion : PortMachine ι → Prop}
    (hsize : work.size ≤ 1) (hx : assertion x) (hstable : Stable PortSound PortRely i assertion)
    (hinv : ∀ y, assertion y → PortInv y → PortInv (withHistory y (update y.mem.history)))
    (hown : ∀ (y : PortMachine ι) j, i ≠ j →
      own j (withHistory y (update y.mem.history)) = own j y)
    (hpost : ∀ y, assertion y → Holding i work (withHistory y (update y.mem.history))) :
    PortSafe i (record update) (fun _ ↦ Holding i work) x :=
  safe_store hx hstable fun y hy hsound ↦
    ⟨guarantees_of_own hsound (hinv y hy hsound.toPortInv) (fun j hj ↦ hown y j hj) (hpost y hy)
      hsize rfl rfl (fun _ hp ↦ hp) fun _ hp ↦ hp, hpost y hy⟩

/-- A list of one thread that is extended at one place. -/
theorem update_update_self {β : Type} (f : ι → ℕ → β) (q p : ℕ) (value : β) :
    Function.update f i (Function.update (f i) q value) i p =
      if p = q then value else f i p := by
  rw [Function.update_self, Function.update_apply]

theorem accounts_append {entered posted : ℕ → List ℕ} {q msg : ℕ}
    (h : ∀ p, entered p = posted p ++ atMailbox p [(q, msg)]) (p : ℕ) :
    entered p = (if p = q then posted q ++ [msg] else posted p) ++ atMailbox p [] := by
  rw [h p, atMailbox_single]
  by_cases hpq : p = q
  · rw [hpq, if_pos rfl, if_pos rfl]
    exact (List.append_nil _).symm
  · rw [if_neg hpq, if_neg hpq]
    rfl

theorem safe_reportPost {queue msg : ℕ} {err : ℤ}
    (hx : err = errOk ∧ Holding i { entered := [(queue, msg)] } x ∨
      err ≠ errOk ∧ Holding i {} x) :
    PortSafe i (reportPost i queue msg err) (fun _ ↦ Holding i {}) x := by
  simp only [PortSafe, reportPost, safe_when]
  obtain ⟨herr, hx⟩ | ⟨herr, hx⟩ := hx
  · rw [if_pos herr]
    refine safe_record (Nat.zero_le 1) hx (stable_holding i _) (fun y _ hinv ↦ { hinv with }) (fun y j hj ↦ ?_)
      fun y hy ↦ ?_
    · exact Own.ext rfl rfl rfl rfl rfl rfl rfl (Function.update_of_ne (Ne.symm hj) _ _) rfl rfl rfl
    · refine { hy with entered := fun p ↦ (accounts_append hy.entered p).trans ?_ }
      exact congrArg (· ++ _) (update_update_self y.mem.history.posted queue p _).symm
  · rw [if_neg herr]
    exact hx

theorem safe_begin (hx : Holding i {} x) (timeout : UInt32) :
    PortSafe i (record fun h ↦ h.begin i timeout) (fun _ ↦ Holding i (waitBegun timeout)) x := by
  refine safe_record (Nat.zero_le 1) hx (stable_holding i _) (fun y hy hinv ↦ hinv.setTiming fun w hw ↦ ?_)
    (fun y j hj ↦ own_setTiming hj _) fun y hy ↦ holding_setTiming hy _
  split at hw
  · cases hw
  · obtain rfl := Option.some.inj hw
    exact ⟨fun _ ↦ rfl, nofun, .inl rfl⟩

/-- The result of a wait with a timeout is recorded. -/
theorem inv_finish {code : UInt32} {h : PortHistory ι} (hinv : PortInv (withHistory x h))
    (hended : ∀ w, h.timing i = some w → w.Ended code) :
    PortInv (withHistory x (h.finish i code)) := by
  refine { hinv with going := fun k w hk ↦ ?_, ended := fun k w result hk ↦ ?_ }
  · change Function.update h.timing i none k = some w at hk
    by_cases hki : k = i
    · rw [hki, Function.update_self] at hk
      cases hk
    · rw [Function.update_of_ne hki] at hk
      exact hinv.going k w hk
  · change (w, result) ∈ Function.update h.returned i _ k at hk
    by_cases hki : k = i
    · rw [hki, Function.update_self] at hk
      rcases List.mem_append.mp hk with hold | hnew
      · exact hinv.ended i w result hold
      · obtain ⟨v, hv, heq⟩ := List.mem_map.mp hnew
        obtain ⟨rfl, rfl⟩ := Prod.mk.inj heq
        exact hended v (Option.mem_toList.mp hv)
    · rw [Function.update_of_ne hki] at hk
      exact hinv.ended k w result hk

/-- A wait has returned and its timing is over. -/
theorem own_finish {j : ι} (hne : i ≠ j) (h : PortHistory ι) (code : UInt32) :
    own j (withHistory x (h.finish i code)) = own j (withHistory x h) :=
  Own.ext rfl (Function.update_of_ne (Ne.symm hne) _ _) rfl rfl rfl rfl rfl rfl rfl rfl rfl

theorem stable_returned (i : ι) (work : Work) (code : UInt32) :
    Stable PortSound PortRely i (Returned i work code) :=
  stable_own i fun o ↦ ∃ timing : Option TimedWait, (∀ w, timing = some w → w.Ended code) ∧
    o.Accounts { work with timing := timing }

theorem safe_endWait {sem : ℕ} {code : UInt32} (hx : Returned i (waitWork sem code) code x) :
    PortSafe i (record fun h ↦ (h.recordWaited i sem code).finish i code)
      (fun _ ↦ Holding i {}) x := by
  refine safe_record (Nat.zero_le 1) hx (stable_returned i _ code) (fun y hy hinv ↦ ?_) (fun y j hj ↦ ?_)
    fun y hy ↦ ?_
  · obtain ⟨timing, hended, hy⟩ := hy
    refine inv_finish { hinv with } fun w hw ↦ hended w (hy.timing.symm.trans hw)
  · refine (own_finish hj _ code).trans ?_
    exact Own.ext rfl rfl rfl rfl rfl rfl rfl rfl rfl rfl (Function.update_of_ne (Ne.symm hj) _ _)
  · obtain ⟨timing, -, hy⟩ := hy
    refine { hy with timing := Function.update_self _ _ _, taken := fun p ↦ (hy.taken p).trans ?_ }
    refine Eq.trans ?_ (congrArg (· + _) (update_update_self y.mem.history.waited sem p _).symm)
    change y.mem.history.waited i p + _ = _
    by_cases hcode : code = sysArchTimeout
    · simp only [waitWork, if_pos hcode, Nat.add_zero]
      split
      · rename_i hps
        rw [hps]
      · rfl
    · simp only [waitWork, if_neg hcode]
      by_cases hps : p = sem
      · simp [hps]
      · simp [hps, Ne.symm hps]

/-- The messages of completed fetches. -/
theorem accounts_fetched {left fetched : ℕ → List ℕ} {q : ℕ} {result : UInt32 × Option ℕ}
    (h : ∀ p, left p = fetched p ++ atMailbox p (fetchWork q result).left) (p : ℕ) :
    left p = (if p = q then
        fetched q ++ if result.1 = sysArchTimeout then [] else result.2.toList
      else fetched p) ++ atMailbox p [] := by
  rw [h p, fetchWork]
  by_cases hcode : result.1 = sysArchTimeout
  · rw [if_pos hcode, if_pos hcode, List.append_nil]
    by_cases hpq : p = q
    · rw [hpq, if_pos rfl]
    · rw [if_neg hpq]
  · rw [if_neg hcode, if_neg hcode]
    cases result.2 with
    | none =>
      by_cases hpq : p = q
      · rw [hpq, if_pos rfl, Option.toList_none, List.append_nil]
        rfl
      · rw [if_neg hpq]
        rfl
    | some msg =>
      by_cases hpq : p = q
      · rw [hpq, if_pos rfl, Option.toList_some, List.map_singleton, atMailbox_single, if_pos rfl]
        exact (List.append_nil _).symm
      · rw [if_neg hpq, Option.toList_some, List.map_singleton, atMailbox_single, if_neg hpq]
        rfl

theorem safe_endFetch {mbox : ℕ} {result : UInt32 × Option ℕ}
    (hx : Returned i (fetchWork mbox result) result.1 x) :
    PortSafe i (record fun h ↦ (h.recordFetched i mbox result).finish i result.1)
      (fun _ ↦ Holding i {}) x := by
  refine safe_record (Nat.zero_le 1) hx (stable_returned i _ result.1) (fun y hy hinv ↦ ?_) (fun y j hj ↦ ?_)
    fun y hy ↦ ?_
  · obtain ⟨timing, hended, hy⟩ := hy
    refine inv_finish { hinv with } fun w hw ↦ hended w (hy.timing.symm.trans hw)
  · refine (own_finish hj _ result.1).trans ?_
    exact Own.ext rfl rfl rfl rfl rfl rfl rfl rfl (Function.update_of_ne (Ne.symm hj) _ _) rfl rfl
  · obtain ⟨timing, -, hy⟩ := hy
    refine { hy with
      timing := Function.update_self _ _ _
      left := fun p ↦ (accounts_fetched hy.left p).trans ?_ }
    exact congrArg (· ++ _) (update_update_self y.mem.history.fetched mbox p _).symm

/-! ## Whole calls -/

theorem safe_sysMboxPost (hx : Holding i {} x) (mbox msg : ℕ) :
    PortSafe i (sysMboxPost mbox msg) (fun _ ↦ Holding i { entered := [(mbox, msg)] }) x := by
  refine port_invoke _ (safe_mono (safe_osSendMessage rfl hx mbox msg true) fun answer y hy ↦ ?_)
  obtain ⟨-, hy⟩ | ⟨-, hblocking, -⟩ := hy
  · exact hy
  · cases hblocking

theorem safe_sysMboxTrypost (hx : Holding i {} x) (mbox msg : ℕ) :
    PortSafe i (sysMboxTrypost mbox msg)
      (fun err y ↦ err = errOk ∧ Holding i { entered := [(mbox, msg)] } y ∨
        err ≠ errOk ∧ Holding i {} y) x := by
  simp only [PortSafe, sysMboxTrypost, safe_bind, safe_pure]
  refine safe_mono (safe_osSendMessage rfl hx mbox msg false) fun answer y hy ↦ ?_
  obtain ⟨hcode, hy⟩ | ⟨hcode, -, hy⟩ := hy
  · exact .inl ⟨if_pos hcode, hy⟩
  · rw [if_neg (not_not_intro hcode)]
    exact .inr ⟨by decide, hy⟩

theorem safe_sysArchMboxTryfetch (hx : Holding i {} x) (mbox : ℕ) :
    PortSafe i (sysArchMboxTryfetch mbox true)
      (fun result ↦ Holding i (fetchWork mbox result)) x := by
  simp only [PortSafe, sysArchMboxTryfetch]
  rw [safe_bind]
  refine safe_mono (safe_osReceiveMessage rfl hx mbox false) fun received y hy ↦ ?_
  rw [Received] at hy
  cases hmessage : received.message with
  | some m =>
    rw [hmessage] at hy
    rw [if_pos (by rfl), safe_pure, storedMessage, hmessage]
    exact hy
  | none =>
    rw [hmessage] at hy
    rw [if_neg (by simp), safe_pure]
    exact hy.2

theorem safe_portBody (operation : PortOp) (hx : Holding i {} x) :
    PortSafe i (portBody i operation) (fun _ ↦ Holding i {}) x := by
  cases operation with
  | mboxNew size =>
    simp only [PortSafe, portBody, safe_bind]
    exact safe_mono (safe_sysMboxNew hx size) fun _ _ hy ↦ hy
  | post mbox msg =>
    simp only [PortSafe, portBody, safe_bind]
    exact safe_mono (safe_sysMboxPost hx mbox msg) fun _ _ hy ↦ safe_reportPost (.inl ⟨rfl, hy⟩)
  | trypost mbox msg =>
    simp only [PortSafe, portBody, safe_bind]
    exact safe_mono (safe_sysMboxTrypost hx mbox msg) fun _ _ hy ↦ safe_reportPost hy
  | trypostFromisr mbox msg =>
    simp only [PortSafe, portBody, sysMboxTrypostFromisr, safe_bind]
    exact safe_mono (safe_sysMboxTrypost hx mbox msg) fun _ _ hy ↦ safe_reportPost hy
  | fetch mbox timeout fuel =>
    simp only [PortSafe, portBody, safe_bind]
    refine safe_mono (safe_begin hx timeout) fun _ y hy ↦ ?_
    exact safe_mono (safe_sysArchMboxFetch mbox timeout fuel hy) fun _ _ hz ↦ safe_endFetch hz
  | tryfetch mbox =>
    simp only [PortSafe, portBody, safe_bind]
    refine safe_mono (safe_sysArchMboxTryfetch hx mbox) fun result y hy ↦ ?_
    refine safe_record (Nat.zero_le 1) hy (stable_holding i _) (fun z _ hinv ↦ { hinv with }) (fun z j hj ↦ ?_)
      fun z hz ↦ ?_
    · exact Own.ext rfl rfl rfl rfl rfl rfl rfl rfl (Function.update_of_ne (Ne.symm hj) _ _) rfl rfl
    · refine { hz with left := fun p ↦ (accounts_fetched hz.left p).trans ?_ }
      exact congrArg (· ++ _) (update_update_self z.mem.history.fetched mbox p _).symm
  | semNew count =>
    simp only [PortSafe, portBody, safe_bind]
    exact safe_mono (safe_sysSemNew hx count) fun _ _ hy ↦ hy
  | signal sem =>
    simp only [PortSafe, portBody, safe_bind]
    refine safe_mono (port_invoke _ (safe_osSignalSemaphore rfl hx sem)) fun _ y hy ↦ ?_
    refine safe_record (Nat.zero_le 1) hy (stable_holding i _) (fun z _ hinv ↦ { hinv with }) (fun z j hj ↦ ?_)
      fun z hz ↦ ?_
    · exact Own.ext rfl rfl rfl rfl rfl rfl rfl rfl rfl (Function.update_of_ne (Ne.symm hj) _ _) rfl
    · refine { hz with given := fun p ↦ (hz.given p).trans ?_ }
      refine Eq.trans ?_ (congrArg (· + _) (update_update_self z.mem.history.signalled sem p _).symm)
      change z.mem.history.signalled i p + _ = _
      by_cases hps : p = sem
      · simp [hps]
      · simp [hps, Ne.symm hps]
  | wait sem timeout fuel =>
    simp only [PortSafe, portBody, safe_bind]
    refine safe_mono (safe_begin hx timeout) fun _ y hy ↦ ?_
    exact safe_mono (safe_sysArchSemWait sem timeout fuel hy) fun _ _ hz ↦ safe_endWait hz

/-! ## Runs -/

abbrev PortConfig (ι : Type) := Config ι (PortState ι) (PortWorld ι) PortCall PortReply

abbrev PortAction (ι : Type) := Action ι PortOp ℕ PortReply

theorem holding_freshPort (boot : ℕ) (i : ι) : Holding i {} (freshPort boot : PortMachine ι) :=
  ⟨fun _ ↦ rfl, fun _ ↦ rfl, fun _ ↦ rfl, fun _ ↦ rfl, rfl, rfl⟩

theorem portSystem_verified (boot : ℕ) :
    Verified portSystem (freshPort boot : PortMachine ι) PortSound PortRely (fun _ _ _ ↦ True)
      (fun i ↦ Holding i {}) where
  rely_refl := portRely_refl
  rely_trans := portRely_trans
  idle_stable i := stable_holding i {}
  env_safe ticks x y hsound htick := by
    have hinv := inv_portTick hsound.toPortInv htick
    simp only [portSystem, portTick] at htick
    split at htick
    · cases htick
      exact ⟨{ hinv with late := hsound.late }, fun i ↦
        ⟨rfl, rfl, Nat.le_add_right _ _, fun _ hp ↦ hp, fun _ hp ↦ hp⟩⟩
    · cases htick
  body_safe i operation x _ hx _ := safe_portBody operation hx
  initial_inv := { inv_freshPort boot with
    late := fun i ↦ ⟨{}, holding_freshPort boot i, Nat.zero_le 1⟩ }
  initial_idle := holding_freshPort boot

/-- What the messages at one mailbox have gone through. -/
structure MailboxAccounted (c : PortConfig ι) (p : ℕ) (box : OSMessageQueue) : Prop where
  /-- first in, first out -/
  fifo : (c.machine.mem.history.entered p).map Prod.snd =
    (c.machine.mem.history.left p).map Prod.snd ++ box.messages.map OSMessage.message
  room : box.messages.length ≤ box.capacity
  /-- what a thread has put in are the messages of its posts that reported success, with at most
  one whose post is about to return -/
  posted : ∀ i, ∃ unreported : List ℕ, unreported.length ≤ 1 ∧
    (c.threads i = none → unreported = []) ∧
    byThread i (c.machine.mem.history.entered p) =
      c.machine.mem.history.posted i p ++ unreported
  /-- what a thread has taken out are the messages of its fetches that did not time out -/
  fetched : ∀ i, ∃ unreported : List ℕ, unreported.length ≤ 1 ∧
    (c.threads i = none → unreported = []) ∧
    byThread i (c.machine.mem.history.left p) =
      c.machine.mem.history.fetched i p ++ unreported

/-- What the permits of one semaphore have gone through. -/
structure SemaphoreAccounted (c : PortConfig ι) (p count : ℕ) : Prop where
  permits : c.machine.mem.history.permits p + (c.machine.mem.history.given p).length =
    (c.machine.mem.history.taken p).length + count
  /-- a thread has given as many permits as calls of it have signalled, with at most one whose
  call is about to return -/
  signalled : ∀ i, ∃ unreported ≤ 1, (c.threads i = none → unreported = 0) ∧
    (c.machine.mem.history.given p).count i = c.machine.mem.history.signalled i p + unreported
  /-- a thread has taken as many permits as waits of it did not time out -/
  waited : ∀ i, ∃ unreported ≤ 1, (c.threads i = none → unreported = 0) ∧
    (c.machine.mem.history.taken p).count i = c.machine.mem.history.waited i p + unreported

section Run

variable {boot : ℕ} {actions : List (PortAction ι)} {c : PortConfig ι}

/-- What every thread keeps along a run. -/
abbrev PortHolds (c : PortConfig ι) : Prop :=
  Verified.Holds portSystem PortSound PortRely (fun _ _ _ ↦ True) (fun i ↦ Holding i {}) c

/-- What a thread has not reported, nothing between its calls. -/
theorem exists_work (hholds : PortHolds c) (i : ι) : ∃ work : Work,
    Holding i work c.machine ∧ work.size ≤ 1 ∧ (c.threads i = none → work = {}) := by
  cases hthread : c.threads i with
  | none => exact ⟨{}, hholds.idle i hthread, Nat.zero_le 1, fun _ ↦ rfl⟩
  | some program =>
    obtain ⟨work, hwork, hsize⟩ := hholds.invariant.late i
    exact ⟨work, hwork, hsize, by simp⟩

theorem atMailbox_length_le (p : ℕ) (events : List (ℕ × ℕ)) :
    (atMailbox p events).length ≤ events.length := by
  rw [atMailbox, List.length_map]
  exact List.length_filter_le _ _

theorem mailbox_accounted (hholds : PortHolds c) {p : ℕ} {box : OSMessageQueue}
    (hbox : c.machine.world.queues p = some box) : MailboxAccounted c p box := by
  have hkept := hholds.invariant.mailbox p
  rw [hbox] at hkept
  refine ⟨hkept.1, hkept.2, fun i ↦ ?_, fun i ↦ ?_⟩
  · obtain ⟨work, hwork, hsize, hidle⟩ := exists_work hholds i
    refine ⟨atMailbox p work.entered, ?_, fun hthread ↦ ?_, hwork.entered p⟩
    · have hlength := atMailbox_length_le p work.entered
      rw [Work.size] at hsize
      omega
    · rw [hidle hthread]
      rfl
  · obtain ⟨work, hwork, hsize, hidle⟩ := exists_work hholds i
    refine ⟨atMailbox p work.left, ?_, fun hthread ↦ ?_, hwork.left p⟩
    · have hlength := atMailbox_length_le p work.left
      rw [Work.size] at hsize
      omega
    · rw [hidle hthread]
      rfl

theorem semaphore_accounted (hholds : PortHolds c) {p count : ℕ}
    (hcount : c.machine.world.semaphores p = some count) : SemaphoreAccounted c p count := by
  have hkept := hholds.invariant.semaphore p
  rw [hcount] at hkept
  refine ⟨hkept, fun i ↦ ?_, fun i ↦ ?_⟩
  · obtain ⟨work, hwork, hsize, hidle⟩ := exists_work hholds i
    refine ⟨work.given.count p, ?_, fun hthread ↦ ?_, hwork.given p⟩
    · have hlength := List.count_le_length (a := p) (l := work.given)
      rw [Work.size] at hsize
      omega
    · rw [hidle hthread]
      rfl
  · obtain ⟨work, hwork, hsize, hidle⟩ := exists_work hholds i
    refine ⟨work.taken.count p, ?_, fun hthread ↦ ?_, hwork.taken p⟩
    · have hlength := List.count_le_length (a := p) (l := work.taken)
      rw [Work.size] at hsize
      omega
    · rw [hidle hthread]
      rfl

/-- A mailbox loses, repeats and reorders nothing, however the threads at it interleave, and neither
a post that finds no room nor a fetch that times out costs a message. -/
theorem portSystem_mailboxAccounted
    (hrun : portSystem.run (System.start (freshPort boot)) actions = some c) {p : ℕ}
    {box : OSMessageQueue} (hbox : c.machine.world.queues p = some box) :
    MailboxAccounted c p box :=
  mailbox_accounted ((portSystem_verified boot).sound hrun) hbox

/-- A semaphore hands out the permits that it has been given, each once, and a wait that times out
takes none. -/
theorem portSystem_semaphoreAccounted
    (hrun : portSystem.run (System.start (freshPort boot)) actions = some c) {p count : ℕ}
    (hcount : c.machine.world.semaphores p = some count) : SemaphoreAccounted c p count :=
  semaphore_accounted ((portSystem_verified boot).sound hrun) hcount

/-- A wait with a timeout sleeps a bounded number of times, whatever the bound on its polls; it
returns `SYS_ARCH_TIMEOUT` after its timeout at the earliest and else the time it took. -/
theorem portSystem_timedWaits
    (hrun : portSystem.run (System.start (freshPort boot)) actions = some c) (i : ι) :
    (∀ w, c.machine.mem.history.timing i = some w → w.Patient) ∧
      ∀ w code, (w, code) ∈ c.machine.mem.history.returned i → w.Ended code := by
  have hsound := ((portSystem_verified boot).sound hrun).invariant
  exact ⟨fun w hw ↦ (hsound.going i w hw).patient, fun w code hw ↦ hsound.ended i w code hw⟩

end Run

/-! ### Runs of two threads -/

/-- Thread 0 creates a mailbox for one message. -/
def scheduleMbox : List (PortAction ℕ) :=
  [.start 0 (.mboxNew 1), .answer 0 { pointer := 64 }, .answer 0 {}, .step 0]

/-- Thread 1 fetches with a timeout of 2 ms, finds the mailbox empty and sleeps. -/
def scheduleFetch : List (PortAction ℕ) :=
  [.start 1 (.fetch 64 2 3), .step 1, .step 1, .step 1, .answer 1 { code := 0 }, .answer 1 {},
    .answer 1 { code := 0 }, .answer 1 {}, .env 62156, .answer 1 {}]

/-- Thread 0 posts a message. -/
def schedulePost : List (PortAction ℕ) :=
  [.start 0 (.trypost 64 7), .answer 0 { code := 1 }, .step 0, .step 0]

/-- Thread 1 polls again, gets the message and returns 17 ms after its start. -/
def scheduleGot : List (PortAction ℕ) :=
  [.answer 1 { message := some { message := 7, args0 := 0 } }, .step 1, .step 1, .env 1000000,
    .answer 1 { code := 1062156 }, .step 1, .step 1]

/-- A message is posted while the fetch that gets it sleeps. -/
theorem portSystem_mailboxAccounted_fetch :
    ∃ c, portSystem.run (System.start (freshPort 0))
        (scheduleMbox ++ scheduleFetch ++ schedulePost ++ scheduleGot) = some c ∧
      c.machine.mem.history.fetched 1 64 = [7] ∧
        MailboxAccounted c 64 { capacity := 1, messages := [] } := by
  have hfetched : (portSystem.run (System.start (freshPort 0))
      (scheduleMbox ++ scheduleFetch ++ schedulePost ++ scheduleGot)).map
        (fun c ↦ (c.machine.mem.history.fetched 1 64, c.machine.world.queues 64)) =
      some ([7], some { capacity := 1, messages := [] }) := rfl
  obtain ⟨c, hrun, hc⟩ := Option.map_eq_some_iff.mp hfetched
  obtain ⟨hfetched, hbox⟩ := Prod.mk.inj hc
  exact ⟨c, hrun, hfetched, portSystem_mailboxAccounted hrun hbox⟩

theorem portSystem_timedWaits_fetch :
    ∃ c, portSystem.run (System.start (freshPort 0))
        (scheduleMbox ++ scheduleFetch ++ schedulePost ++ scheduleGot) = some c ∧
      ∃ w : TimedWait, w.sleeps = 1 ∧ w.elapsed = 17 ∧ w.Ended 17 := by
  have hreturned : (portSystem.run (System.start (freshPort 0))
      (scheduleMbox ++ scheduleFetch ++ schedulePost ++ scheduleGot)).map
        (fun c ↦ c.machine.mem.history.returned 1) =
      some [({ timeout := 2, started := some 0, last := 1062156, sleeps := 1 }, 17)] := rfl
  obtain ⟨c, hrun, hc⟩ := Option.map_eq_some_iff.mp hreturned
  refine ⟨c, hrun, { timeout := 2, started := some 0, last := 1062156, sleeps := 1 }, rfl,
    by decide, (portSystem_timedWaits hrun 1).2 _ 17 ?_⟩
  rw [hc]
  exact List.mem_singleton_self _

/-- Thread 0 creates a semaphore without permits; thread 1 waits 1 ms in vain. -/
def scheduleWait : List (PortAction ℕ) :=
  [.start 0 (.semNew 0), .answer 0 { pointer := 64 }, .answer 0 {}, .step 0,
    .start 1 (.wait 64 1 2), .step 1, .answer 1 { code := 0 }, .answer 1 {},
    .answer 1 { code := 0 }, .answer 1 {}, .env 1000000, .answer 1 {}, .answer 1 {},
    .answer 1 { code := 1000000 }, .step 1, .step 1]

/-- Thread 0 signals. -/
def scheduleSignal : List (PortAction ℕ) :=
  [.start 0 (.signal 64), .answer 0 {}, .step 0, .step 0]

/-- Thread 1 waits again, with no timeout. -/
def scheduleTake : List (PortAction ℕ) :=
  [.start 1 (.wait 64 0 0), .step 1, .answer 1 {}, .step 1, .step 1]

/-- A wait times out before the signal, and the next one takes its permit. -/
theorem portSystem_semaphoreAccounted_wait :
    ∃ c, portSystem.run (System.start (freshPort 0))
        (scheduleWait ++ scheduleSignal ++ scheduleTake) = some c ∧
      c.machine.mem.history.waited 1 64 = 1 ∧ c.machine.mem.history.taken 64 = [1] ∧
        SemaphoreAccounted c 64 0 := by
  have hwaited : (portSystem.run (System.start (freshPort 0))
      (scheduleWait ++ scheduleSignal ++ scheduleTake)).map
        (fun c ↦ (c.machine.mem.history.waited 1 64, c.machine.mem.history.taken 64,
          c.machine.world.semaphores 64)) = some (1, [1], some 0) := rfl
  obtain ⟨c, hrun, hc⟩ := Option.map_eq_some_iff.mp hwaited
  obtain ⟨hwaited, hrest⟩ := Prod.mk.inj hc
  obtain ⟨htaken, hcount⟩ := Prod.mk.inj hrest
  exact ⟨c, hrun, hwaited, htaken, portSystem_semaphoreAccounted hrun hcount⟩

end Ax88179Aroma.Port
