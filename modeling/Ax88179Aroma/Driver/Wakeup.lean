import Ax88179Aroma.Driver.Uhs

/-!
# Wake-ups of the receiving thread

A callback of UHS stores `AX_RX_SLOT_DONE` and signals `g_rx_event` afterwards, in two steps.  The
world of this module remembers which callbacks have still to signal, so that the event can be
compared with the slots at the moment where `ax88179_receive` goes to sleep.

The event is reset by one wake-up, however many callbacks have signalled it.  What protects the
sleeper is the slot that it looked at last: a slot that is completed after that look is signalled
after it, too.  The first `ax_rx_take_completed` of a call looks at the next slot only when it
consumes nothing; when it consumes an aggregate without frames, the call sleeps on a slot that
nobody looked at.
-/

namespace Ax88179Aroma.Driver

open Effect Program

/-! ## Callbacks in two steps -/

/-- The callbacks between their two steps, and what the current call knows about its next slot. -/
structure WakeWorld extends UhsWorld where
  /-- callbacks that have stored `AX_RX_SLOT_DONE` and not yet signalled -/
  owed : List (ℕ × SlotIndex) := []
  /-- the transfer whose callback stored `AX_RX_SLOT_DONE` last -/
  stored : SlotIndex → Option ℕ := fun _ ↦ none
  /-- the first aggregate of this call was consumed after the signal of its successor was spent -/
  spent : Bool := false

abbrev WakeMachine := Machine DriverState WakeWorld

/-- The callback that completed a slot has still to signal. -/
def WakeWorld.Owes (world : WakeWorld) (index : SlotIndex) : Prop :=
  match world.stored index with
  | some id => (id, index) ∈ world.owed
  | none => False

instance (world : WakeWorld) (index : SlotIndex) : Decidable (world.Owes index) :=
  match h : world.stored index with
  | some id => decidable_of_iff ((id, index) ∈ world.owed) (by rw [WakeWorld.Owes, h])
  | none => .isFalse (by rw [WakeWorld.Owes, h]; exact not_false)

/-- If the slot is complete, a signal for it is still to be received. -/
def AlertAt (index : SlotIndex) (x : WakeMachine) : Prop :=
  (x.mem.gRxSlots index).state = .done → x.world.event = true ∨ x.world.Owes index

instance (index : SlotIndex) (x : WakeMachine) : Decidable (AlertAt index x) :=
  inferInstanceAs (Decidable (_ → _ ∨ _))

/-- What the receiving thread needs when it goes to sleep. -/
def Alert (x : WakeMachine) : Prop := AlertAt x.mem.ax.rxConsume x

/-- History: the call begins, or consumes an aggregate. -/
def WakeWorld.mark (x : WakeMachine) : UhsCall → Bool
  | .note (.receiveBegin _) => false
  | .note (.consume index) => decide (¬ AlertAt (index + 1) x)
  | _ => x.world.spent

def wakeReply : Replies DriverState WakeWorld UhsCall UhsReply :=
  fun request answer x ↦
    (uhsReply request answer ⟨x.mem, x.world.toUhsWorld⟩).map fun y ↦
      { mem := y.mem
        world := { x.world with toUhsWorld := y.world, spent := WakeWorld.mark x request } }

inductive WakeEvent where
  | complete (transfer : ℕ × SlotIndex) (result : Completion)
  | signal (transfer : ℕ × SlotIndex)

/-- `ax_rx_async_callback`, which neither stores nor signals for a buffer of another slot. -/
def wakeEnv : WakeEvent → WakeMachine → Option WakeMachine
  | .complete transfer result, x =>
    if transfer ∈ x.world.flight then
      let mem := axRxAsyncCallback transfer.2 transfer.2 result.ret result.actual x.mem
      let world := { x.world with toUhsWorld := x.world.toUhsWorld.complete transfer result }
      if (x.mem.gRxSlots transfer.2).buffer = some transfer.2 then
        some {
          mem := mem
          world := { world with
            owed := x.world.owed ++ [transfer]
            stored := Function.update x.world.stored transfer.2 (some transfer.1) } }
      else some { mem := mem, world := world }
    else none
  | .signal transfer, x =>
    if transfer ∈ x.world.owed then
      some { x with world := { x.world with event := true, owed := x.world.owed.erase transfer } }
    else none

/-- The receiving thread against callbacks in two steps. -/
def wakeRing : System Unit ReceiveArgs WakeEvent DriverState WakeWorld UhsCall UhsReply where
  reply _ := wakeReply
  env := wakeEnv
  body _ args := receiveCall args
  enabled _ _ _ := true

/-! ## The slot that was looked at -/

/-- A callback that completes a slot signals afterwards. -/
theorem envStable_alertAt (index : SlotIndex) :
    EnvStable wakeRing (fun _ ↦ True) (AlertAt index) := by
  intro event x y _ hx henv
  cases event with
  | complete transfer result =>
    simp only [wakeRing, wakeEnv] at henv
    split at henv
    · split at henv
      · rename_i hbuffer
        cases henv
        intro hdone
        by_cases hsame : index = transfer.2
        · right
          subst hsame
          unfold WakeWorld.Owes
          dsimp only
          rw [Function.update_self]
          exact List.mem_append_right _ (List.mem_singleton.mpr rfl)
        · rw [axRxAsyncCallback_of_ne hsame] at hdone
          refine (hx hdone).imp_right fun howes ↦ ?_
          unfold WakeWorld.Owes at howes ⊢
          dsimp only
          rw [Function.update_of_ne hsame]
          split at howes
          · exact List.mem_append_left _ howes
          · exact howes
      · rename_i hbuffer
        cases henv
        have hcallback : axRxAsyncCallback transfer.2 transfer.2 result.ret result.actual x.mem =
            x.mem := if_pos hbuffer
        intro hdone
        rw [hcallback] at hdone
        exact hx hdone
    · cases henv
  | signal transfer =>
    simp only [wakeRing, wakeEnv] at henv
    split at henv
    · cases henv
      exact fun _ ↦ .inl rfl
    · cases henv

/-- The machine at the sleep of a call that found its signals unspent. -/
def WakePre (request : UhsCall) (x : WakeMachine) : Prop :=
  match request with
  | .osWaitEventWithTimeout _ => x.world.spent = false → Alert x
  | _ => True

/-- The requests between a look at a slot and the sleep. -/
def Awake : UhsCall → Prop
  | .osWaitEventWithTimeout _ => False
  | .osInitEvent => False
  | .note (.receiveBegin _) => False
  | .note (.consume _) => False
  | _ => True

/-- The same, where nothing was looked at yet. -/
def NotWait : UhsCall → Prop
  | .osWaitEventWithTimeout _ => False
  | _ => True

theorem wakePre_of_notWait {request : UhsCall} (h : NotWait request) (x : WakeMachine) :
    WakePre request x := by
  cases request with
  | osWaitEventWithTimeout timeoutUs => exact h.elim
  | _ => trivial

theorem solo_notWait {α : Type} {program : DriverM α} (hkeeps : Keeps (fun _ ↦ ()) NotWait program)
    (x : WakeMachine) :
    Solo wakeRing (fun _ ↦ True) WakePre program (fun _ _ ↦ True) x :=
  safe_keeps hkeeps (fun _ _ _ _ _ ↦ trivial) (fun _ _ _ _ _ ↦ ⟨guarantees_solo trivial, trivial⟩)
    (fun y _ _ _ hallowed ↦ ⟨wakePre_of_notWait hallowed y,
      fun _ _ _ ↦ ⟨guarantees_solo trivial, trivial⟩⟩) trivial

/-- The slot that the receiving thread looks at next, as it was when the thread chose it. -/
def Watching (index : SlotIndex) (x : WakeMachine) : Prop :=
  x.mem.ax.rxConsume = index ∧ (x.world.spent = false → AlertAt index x)

/-- A callback touches neither the ring index nor the history of the thread. -/
theorem wakeEnv_keeps {event : WakeEvent} {x y : WakeMachine} (h : wakeEnv event x = some y) :
    y.mem.ax = x.mem.ax ∧ y.world.spent = x.world.spent := by
  cases event with
  | complete transfer result =>
    simp only [wakeEnv] at h
    split at h
    · split at h
      · cases h
        exact ⟨axRxAsyncCallback_ax _ _ _ _ _, rfl⟩
      · cases h
        exact ⟨axRxAsyncCallback_ax _ _ _ _ _, rfl⟩
    · cases h
  | signal transfer =>
    simp only [wakeEnv] at h
    split at h
    · cases h
      exact ⟨rfl, rfl⟩
    · cases h

theorem envStable_watching (index : SlotIndex) :
    EnvStable wakeRing (fun _ ↦ True) (Watching index) := by
  intro event x y hinv hx henv
  obtain ⟨hax, hspent⟩ := wakeEnv_keeps henv
  refine ⟨(congrArg Ax88179.rxConsume hax).trans hx.1, fun hfalse ↦ ?_⟩
  exact envStable_alertAt index event x y hinv (hx.2 (hspent.symm.trans hfalse)) henv

/-- The requests of an awake thread change nothing that the slot's signal depends on. -/
theorem wakeReply_awake {request : UhsCall} (hawake : Awake request) {answer : UhsReply}
    {x y : WakeMachine} (h : wakeReply request answer x = some y) :
    y.mem = x.mem ∧ y.world.event = x.world.event ∧ y.world.owed = x.world.owed ∧
      y.world.stored = x.world.stored ∧ y.world.spent = x.world.spent := by
  obtain ⟨z, hreply, rfl⟩ := Option.map_eq_some_iff.mp h
  cases request with
  | submitBulkRequestAsync index =>
    cases hreply
    unfold UhsWorld.submit
    split <;> exact ⟨rfl, rfl, rfl, rfl, rfl⟩
  | memcpyBuffer index count =>
    simp only [uhsReply] at hreply
    split at hreply
    · cases hreply
      exact ⟨rfl, rfl, rfl, rfl, rfl⟩
    · cases hreply
  | note event =>
    cases hreply
    cases event <;> first | exact hawake.elim | exact ⟨rfl, rfl, rfl, rfl, rfl⟩
  | osWaitEventWithTimeout timeoutUs => exact hawake.elim
  | osInitEvent => exact hawake.elim
  | handle request =>
    cases hreply
    exact ⟨rfl, rfl, rfl, rfl, rfl⟩
  | submitControlRequest read cmd value index size data =>
    cases hreply
    exact ⟨rfl, rfl, rfl, rfl, rfl⟩
  | osSleepMs ms =>
    cases hreply
    exact ⟨rfl, rfl, rfl, rfl, rfl⟩

/-- The ring index and the slot that it names. -/
def watchView (index : SlotIndex) (driver : DriverState) : SlotIndex × AxRxAsyncSlot :=
  (driver.ax.rxConsume, driver.gRxSlots index)

theorem Watching.of_view {index : SlotIndex} {x y : WakeMachine} (hx : Watching index x)
    (hview : watchView index y.mem = watchView index x.mem)
    (hevent : y.world.event = x.world.event) (howed : y.world.owed = x.world.owed)
    (hstored : y.world.stored = x.world.stored) (hspent : y.world.spent = x.world.spent) :
    Watching index y := by
  have hslot : y.mem.gRxSlots index = x.mem.gRxSlots index := congrArg Prod.snd hview
  refine ⟨(congrArg Prod.fst hview).trans hx.1, fun hfalse hdone ↦ ?_⟩
  have halert := hx.2 (hspent.symm.trans hfalse) (hslot ▸ hdone)
  unfold WakeWorld.Owes at halert ⊢
  rw [hevent, howed, hstored]
  exact halert

theorem solo_watching {α : Type} {index : SlotIndex} {program : DriverM α}
    (hkeeps : Keeps (watchView index) Awake program) {x : WakeMachine} (hx : Watching index x) :
    Solo wakeRing (fun _ ↦ True) WakePre program (fun _ ↦ Watching index) x := by
  refine safe_keeps hkeeps (envStable_watching index).stable
    (fun y mem _ hy hview ↦ ⟨guarantees_solo trivial, hy.of_view hview rfl rfl rfl rfl⟩)
    (fun y request _ hy hawake ↦ ⟨?_, fun answer z hreply ↦ ⟨guarantees_solo trivial, ?_⟩⟩) hx
  · refine wakePre_of_notWait ?_ y
    cases request <;> trivial
  · obtain ⟨hmem, hevent, howed, hstored, hspent⟩ := wakeReply_awake hawake hreply
    exact hy.of_view (congrArg _ hmem) hevent howed hstored hspent

section Next

variable (index : SlotIndex)

theorem succ_ne (index : SlotIndex) : index + 1 ≠ index := by
  revert index
  decide

/-- The stores to a slot do not concern its successor. -/
theorem watchView_setSlot (update : AxRxAsyncSlot → AxRxAsyncSlot) (driver : DriverState) :
    watchView (index + 1) (driver.setSlot index update) = watchView (index + 1) driver :=
  Prod.ext rfl (driver.setSlot_of_ne (succ_ne index) update)

theorem keeps_axRxSubmitSlot : Keeps (watchView (index + 1)) Awake (axRxSubmitSlot index) := by
  refine Keeps.bind (keeps_store fun _ ↦ watchView_setSlot index _ _) fun _ ↦ ?_
  refine Keeps.bind (keeps_store fun _ ↦ watchView_setSlot index _ _) fun _ ↦ ?_
  refine Keeps.bind (keeps_perform trivial) fun reply ↦ Keeps.ite ?_ trivial
  refine Keeps.bind (keeps_store fun _ ↦ watchView_setSlot index _ _) fun _ ↦ ?_
  exact Keeps.bind (keeps_store fun _ ↦ rfl) fun _ ↦ trivial

end Next

theorem envStable_true : EnvStable wakeRing (fun _ ↦ True) fun _ ↦ True :=
  fun _ _ _ _ _ _ ↦ trivial

/-- The history of a call records whether the next slot has its signal. -/
def Chosen (index : SlotIndex) (x : WakeMachine) : Prop :=
  x.world.spent = false → AlertAt index x

theorem envStable_chosen (index : SlotIndex) :
    EnvStable wakeRing (fun _ ↦ True) (Chosen index) := by
  intro event x y hinv hx henv hfalse
  have hspent := (wakeEnv_keeps henv).2
  exact envStable_alertAt index event x y hinv (hx (hspent.symm.trans hfalse)) henv

theorem wakeReply_consume {index : SlotIndex} (answer : UhsReply) {x y : WakeMachine}
    (h : wakeReply (.note (.consume index)) answer x = some y) : Chosen (index + 1) y := by
  cases h
  intro hfalse
  have halert : AlertAt (index + 1) x := not_not.mp (of_decide_eq_false hfalse)
  exact halert

theorem solo_axRxTakeDone (index : SlotIndex) (x : WakeMachine) :
    Solo wakeRing (fun _ ↦ True) WakePre (axRxTakeDone index)
      (fun _ ↦ Watching (index + 1)) x := by
  refine (safe_bind _ _ _ _).mpr (solo_load envStable_true trivial fun y _ _ ↦ ?_)
  generalize (y.mem.gRxSlots index).ret = ret
  refine (safe_bind _ _ _ _).mpr (solo_load envStable_true trivial fun y _ _ ↦ ?_)
  generalize (y.mem.gRxSlots index).actual = actual
  refine (safe_bind _ _ _ _).mpr ((safe_bind _ _ _ _).mpr (solo_perform envStable_true trivial
    fun y _ _ ↦ ⟨trivial, fun answer z hreply ↦ ⟨trivial, ?_⟩⟩))
  have hchosen : Chosen (index + 1) z := wakeReply_consume answer hreply
  refine (safe_pure _ _ _).mpr ((safe_bind _ _ _ _).mpr ?_)
  refine solo_store (envStable_chosen (index + 1)) hchosen fun y _ hy ↦ ⟨trivial, ?_⟩
  refine solo_watching ?_ ⟨rfl, hy⟩
  have hidle : Keeps (watchView (index + 1)) Awake (store (fun driver ↦
      driver.setSlot index fun slot ↦ { slot with state := .idle }) : DriverM Unit) :=
    keeps_store fun _ ↦ watchView_setSlot index _ _
  refine Keeps.ite ?_ ?_
  · exact hidle.bind fun _ ↦ (keeps_axRxSubmitSlot index).bind fun _ ↦ trivial
  · refine Keeps.bind (keeps_perform trivial) fun copied ↦ ?_
    refine Keeps.bind (keeps_store fun _ ↦ rfl) fun _ ↦ hidle.bind fun _ ↦ ?_
    refine (keeps_axRxSubmitSlot index).bind fun _ ↦ Keeps.bind (keeps_access fun driver ↦ ?_)
      fun loaded ↦ Keeps.bind (Keeps.bind (keeps_perform trivial) fun _ ↦ trivial) fun _ ↦ trivial
    exact Prod.ext (axRxLoadAggregate_keeps driver.gRx actual driver.ax).2.2 rfl

/-- Whatever `ax_rx_take_completed` found, the slot that it leaves to be looked at is watched. -/
theorem solo_axRxTakeCompleted (x : WakeMachine) :
    Solo wakeRing (fun _ ↦ True) WakePre axRxTakeCompleted
      (fun _ y ↦ ∃ index, Watching index y) x := by
  refine (safe_bind _ _ _ _).mpr (solo_load envStable_true trivial fun y _ _ ↦ ?_)
  generalize hindex : y.mem.ax.rxConsume = index
  have hstable : EnvStable wakeRing (fun _ ↦ True) fun y ↦ y.mem.ax.rxConsume = index :=
    fun event y z _ hy henv ↦ (congrArg Ax88179.rxConsume (wakeEnv_keeps henv).1).trans hy
  refine (safe_bind _ _ _ _).mpr (solo_load hstable hindex fun y _ hy ↦ ?_)
  generalize hstate : (y.mem.gRxSlots index).state = state
  rw [safe_ite]
  split
  · -- the slot that was looked at is not complete
    rename_i hpending
    exact ⟨index, hy, fun _ hdone ↦ absurd (hstate.symm.trans hdone) hpending⟩
  · exact safe_mono (solo_axRxTakeDone index y) fun _ z hz ↦ ⟨index + 1, hz⟩

/-! ## Whole calls -/

theorem keeps_notWait_axRxSubmitSlot (index : SlotIndex) :
    Keeps (fun _ ↦ ()) NotWait (axRxSubmitSlot index) :=
  (keeps_axRxSubmitSlot index).mono (fun _ _ _ ↦ rfl) fun request h ↦ by cases request <;> trivial

theorem keeps_notWait_axRxSubmitAll (indices : List SlotIndex) :
    Keeps (fun _ ↦ ()) NotWait (axRxSubmitAll indices) := by
  induction indices with
  | nil => trivial
  | cons index rest ih =>
    refine (keeps_notWait_axRxSubmitSlot index).bind fun rc ↦ Keeps.ite ?_ ih
    exact Keeps.bind (keeps_store fun _ ↦ rfl) fun _ ↦ trivial

theorem keeps_notWait_note (event : RxNote) : Keeps (fun _ ↦ ()) NotWait (note event) :=
  Keeps.bind (keeps_perform trivial) fun _ ↦ trivial

theorem keeps_notWait_axRxStartAsync : Keeps (fun _ ↦ ()) NotWait axRxStartAsync := by
  refine (keeps_notWait_note _).bind fun _ ↦ Keeps.bind (keeps_store fun _ ↦ rfl) fun _ ↦ ?_
  refine Keeps.bind (keeps_perform trivial) fun _ ↦ Keeps.bind (keeps_store fun _ ↦ rfl) fun _ ↦ ?_
  refine Keeps.bind (Keeps.each fun _ _ ↦ keeps_store fun _ ↦ rfl) fun _ ↦ ?_
  exact (keeps_notWait_axRxSubmitAll _).bind fun rc ↦ (keeps_notWait_note _).bind fun _ ↦ trivial

theorem keeps_notWait_ax88179ReceiveBuffered (maxLength : ℤ) :
    Keeps (fun _ ↦ ()) NotWait (ax88179ReceiveBuffered maxLength) :=
  Keeps.bind (keeps_access fun _ ↦ rfl) fun _ ↦ (keeps_notWait_note _).bind fun _ ↦ trivial

/-- The part of a call after the ring is known to run, where the thread sleeps. -/
theorem solo_ax88179ReceiveNext (maxLength timeoutUs : ℤ) (x : WakeMachine) :
    Solo wakeRing (fun _ ↦ True) WakePre (ax88179ReceiveNext maxLength timeoutUs)
      (fun _ _ ↦ True) x := by
  refine (safe_bind _ _ _ _).mpr (safe_mono (solo_axRxTakeCompleted x) fun first y hwatch ↦ ?_)
  obtain ⟨index, hwatch⟩ := hwatch
  have hrest : ∀ (loaded : ℤ) (z : WakeMachine), Solo wakeRing (fun _ ↦ True) WakePre
      (if loaded ≤ 0 then pure ⟨loaded, []⟩ else ax88179ReceiveBuffered maxLength)
      (fun _ _ ↦ True) z := fun loaded z ↦
    solo_notWait (Keeps.ite (keeps_pure _) (keeps_notWait_ax88179ReceiveBuffered maxLength)) z
  dsimp only
  rw [safe_ite]
  split
  · refine (safe_bind _ _ _ _).mpr (solo_perform (envStable_watching index) hwatch fun z _ hz ↦
      ⟨?_, fun answer w _ ↦ ⟨trivial, ?_⟩⟩)
    · intro hspent
      have halert := hz.2 hspent
      rw [← hz.1] at halert
      exact halert
    · refine (safe_bind _ _ _ _).mpr ?_
      exact safe_mono (solo_axRxTakeCompleted w) fun loaded z _ ↦ hrest loaded z
  · exact hrest first y

theorem solo_receiveCall (args : ReceiveArgs) (x : WakeMachine) :
    Solo wakeRing (fun _ ↦ True) WakePre (receiveCall args) (fun _ _ ↦ True) x := by
  have hnote : ∀ (event : RxNote) (y : WakeMachine),
      Solo wakeRing (fun _ ↦ True) WakePre (note event) (fun _ _ ↦ True) y := fun event y ↦
    solo_notWait (keeps_notWait_note event) y
  refine (safe_bind _ _ _ _).mpr (safe_mono (hnote _ x) fun _ y _ ↦ (safe_bind _ _ _ _).mpr ?_)
  suffices hreceive : Solo wakeRing (fun _ ↦ True) WakePre
      (ax88179Receive args.maxLength args.timeoutUs) (fun _ _ ↦ True) y from
    safe_mono hreceive fun result z _ ↦ hnote _ z
  unfold ax88179Receive
  split
  · trivial
  refine (safe_bind _ _ _ _).mpr (solo_load envStable_true trivial fun z _ _ ↦ ?_)
  rw [safe_ite]
  split
  · trivial
  refine (safe_bind _ _ _ _).mpr (safe_mono
    (solo_notWait (keeps_notWait_ax88179ReceiveBuffered _) z) fun n z _ ↦ ?_)
  rw [safe_ite]
  split
  · trivial
  refine (safe_bind _ _ _ _).mpr (solo_load envStable_true trivial fun z _ _ ↦ ?_)
  have hnext : ∀ (rc : ℤ) (w : WakeMachine), Solo wakeRing (fun _ ↦ True) WakePre
      (if rc ≠ 0 then pure ⟨-1, []⟩ else ax88179ReceiveNext args.maxLength args.timeoutUs)
      (fun _ _ ↦ True) w := by
    intro rc w
    split
    · trivial
    · exact solo_ax88179ReceiveNext _ _ w
  dsimp only
  rw [safe_ite]
  split
  · exact hnext 0 z
  · exact (safe_bind _ _ _ _).mpr (safe_mono (solo_notWait keeps_notWait_axRxStartAsync z)
      fun rc w _ ↦ hnext rc w)

theorem wakeRing_verified (initial : WakeMachine) :
    Verified wakeRing initial (fun _ ↦ True) (fun _ ↦ Interference wakeRing fun _ ↦ True)
      (fun _ ↦ WakePre) (fun _ _ ↦ True) :=
  solo_verified envStable_true (fun _ _ _ _ _ _ ↦ trivial)
    (fun args x _ _ _ ↦ solo_receiveCall args x) trivial trivial

abbrev WakeAction := Action Unit ReceiveArgs WakeEvent UhsReply

abbrev WakeConfig := Config Unit DriverState WakeWorld UhsCall UhsReply

/-- If the receiving thread sleeps, a completed slot at `rx_consume` still has its signal. -/
def AlertAtWait (c : WakeConfig) : Prop :=
  ∀ timeoutUs next, c.threads () = some (.call (.osWaitEventWithTimeout timeoutUs) next) →
    Alert c.machine

/-- No sleep loses a signal, unless the call consumed an aggregate before it and the signal of the
next one was already spent then. -/
theorem wakeRing_alertAtWait (initial : WakeMachine) (actions : List WakeAction) (c : WakeConfig)
    (hrun : wakeRing.run (System.start initial) actions = some c)
    (hunspent : c.machine.world.spent = false) : AlertAtWait c :=
  fun _ _ hwait ↦ (wakeRing_verified initial).call_pre hrun hwait hunspent

/-! ## A spent signal -/

/-- The actions of the thread in a schedule of the ring. -/
def threadAction : RingAction → Option WakeAction
  | .start i args => some (.start i args)
  | .step i => some (.step i)
  | .answer i value => some (.answer i value)
  | .env _ => none

/-- An outstanding transfer ends without data, and its callback runs to its end. -/
def emptyTransfer (transfer : ℕ × SlotIndex) : List WakeAction :=
  [.env (.complete transfer ⟨0, 0, fun _ ↦ 0⟩), .env (.signal transfer)]

/-- A call finds nothing and sleeps; three empty transfers complete and wake it once, and it
consumes the first.  The next call consumes the second and sleeps. -/
def scheduleSpent : List WakeAction :=
  (scheduleArm ++ scheduleEnter ⟨1514, 1000⟩ ++ scheduleNothing).filterMap threadAction ++
    emptyTransfer (0, 0) ++ emptyTransfer (1, 1) ++ emptyTransfer (2, 2) ++
    [.answer () { code := 1 }] ++ (scheduleEmpty ++ scheduleAccepted ++ scheduleReturn ++
      scheduleEnter ⟨1514, 1000⟩ ++ scheduleEmpty ++ scheduleAccepted).filterMap threadAction

/-- The handle of `openHandle` with no callback running. -/
def openWake : WakeMachine := { mem := openHandle.mem, world := {} }

/-- The slot that a sleeping thread waits for, the event, and whether its callback is to signal. -/
def asleep (c : WakeConfig) : Option (SlotState × Bool × Bool × Bool) :=
  match c.threads () with
  | some (.call (.osWaitEventWithTimeout _) _) =>
    let index := c.machine.mem.ax.rxConsume
    some ((c.machine.mem.gRxSlots index).state, c.machine.world.event,
      decide (c.machine.world.Owes index), c.machine.world.spent)
  | _ => none

theorem not_alertAtWait {c : WakeConfig} {spent : Bool}
    (h : asleep c = some (.done, false, false, spent)) : ¬ AlertAtWait c := by
  intro halert
  unfold asleep at h
  split at h
  · rename_i timeoutUs next hwait
    simp only [Option.some.injEq, Prod.mk.injEq] at h
    obtain ⟨hdone, hevent, howes, -⟩ := h
    rcases halert timeoutUs next hwait hdone with hset | hto
    · rw [hevent] at hset
      cases hset
    · exact of_decide_eq_false howes hto
  · cases h

theorem scheduleSpent_not_alertAtWait :
    ¬ ∀ (actions : List WakeAction) (c : WakeConfig),
      wakeRing.run (System.start openWake) actions = some c → AlertAtWait c := by
  intro hall
  have hrun : (wakeRing.run (System.start openWake) scheduleSpent).map asleep =
      some (some (.done, false, false, true)) := rfl
  obtain ⟨c, hc, hasleep⟩ := Option.map_eq_some_iff.mp hrun
  exact not_alertAtWait hasleep (hall scheduleSpent c hc)

/-- A transfer completes between the look at its slot and the sleep. -/
def scheduleUnspent : List WakeAction :=
  (scheduleArm ++ scheduleEnter ⟨1514, 1000⟩ ++ scheduleNothing).filterMap threadAction ++
    [.env (.complete (0, 0) ⟨0, 0, fun _ ↦ 0⟩)]

theorem wakeRing_alertAtWait_scheduleUnspent :
    ∃ c, wakeRing.run (System.start openWake) scheduleUnspent = some c ∧
      asleep c = some (.done, false, true, false) ∧ AlertAtWait c := by
  have hrun : (wakeRing.run (System.start openWake) scheduleUnspent).map
      (fun c ↦ (asleep c, c.machine.world.spent)) =
      some (some (.done, false, true, false), false) := rfl
  obtain ⟨c, hc, hasleep⟩ := Option.map_eq_some_iff.mp hrun
  obtain ⟨hasleep, hspent⟩ := Prod.mk.inj hasleep
  exact ⟨c, hc, hasleep, wakeRing_alertAtWait openWake scheduleUnspent c hc hspent⟩

end Ax88179Aroma.Driver
