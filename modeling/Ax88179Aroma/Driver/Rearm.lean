import Ax88179Aroma.Driver.Uhs

/-!
# Re-arming the ring

While the ring runs every slot is to have a transfer outstanding or a completion waiting.  The slot
that `ax_rx_take_completed` consumes is submitted again at once, and if UHS accepts that, the ring
stays fully armed.  If it refuses, the slot stays idle: no later call looks at a slot that is not
done, so nothing submits it again and the ring stalls when `rx_consume` comes round to it.
-/

namespace Ax88179Aroma.Driver

open Effect Program

variable {allowed : ReceiveArgs → Bool}

/-! ## Assertions -/

/-- While the ring runs, none of the given slots is idle. -/
def NotIdle (on : SlotIndex → Prop) (x : UhsMachine) : Prop :=
  x.world.rearmRefused = false → x.mem.ax.rxAsyncStarted = true →
    ∀ index, on index → (x.mem.gRxSlots index).state ≠ .idle

/-- A ring that ran when the current call was entered still runs and is not started again. -/
def KeepsRunning (x : UhsMachine) : Prop :=
  x.world.call.ringStarted = true → x.mem.ax.rxAsyncStarted = true ∧ x.world.starting = false

/-- The assertion between the steps of a call; `starting` tells whether a ring start is in
progress. -/
structure Armed (on : SlotIndex → Prop) (starting : Bool) (x : UhsMachine) : Prop where
  notIdle : NotIdle on x
  running : KeepsRunning x
  starting_eq : x.world.starting = starting

/-- When a call that was entered with a running ring and no buffered frame returns, every slot is
pending or done, unless a submission of this call was refused. -/
def returnPre : UhsCall → UhsMachine → Prop
  | .note (.returned _ _), x => x.world.rearmRefused = false → x.world.call.ringStarted = true →
      x.world.call.drained = true →
        (∀ index, (x.mem.gRxSlots index).state ≠ .idle) ∨ x.world.call.refused = true
  | _, _ => True

theorem armed_env (on : SlotIndex → Prop) (starting : Bool) :
    EnvStable (ring allowed) (fun _ ↦ True) (Armed on starting) := by
  intro event x y _ hx henv
  obtain ⟨transfer, result, -, -, rfl⟩ | ⟨-, rfl⟩ := uhsEnv_cases henv
  · refine ⟨fun hrefused hstarted index hon ↦ ?_, fun hring ↦ ?_, hx.starting_eq⟩
    · dsimp only at hstarted ⊢
      rw [axRxAsyncCallback_ax] at hstarted
      have hidle := hx.notIdle hrefused hstarted index hon
      by_cases hsame : index = transfer.2
      · unfold axRxAsyncCallback
        split
        · exact hidle
        · rw [hsame, DriverState.setSlot_self]
          exact nofun
      · rw [axRxAsyncCallback_of_ne hsame]
        exact hidle
    · dsimp only
      rw [axRxAsyncCallback_ax]
      exact hx.running hring
  · exact ⟨hx.notIdle, hx.running, hx.starting_eq⟩

theorem rearmRefused_env (condition : Prop) :
    EnvStable (ring allowed) (fun _ ↦ True)
      fun x ↦ condition → x.world.rearmRefused = true := by
  intro event x y _ hx henv
  obtain ⟨transfer, result, -, -, rfl⟩ | ⟨-, rfl⟩ := uhsEnv_cases henv
  · exact hx
  · exact hx

theorem stopped_env (started : Bool) :
    EnvStable (ring allowed) (fun _ ↦ True)
      fun x ↦ x.mem.ax.rxAsyncStarted = started := by
  intro event x y _ hx henv
  obtain ⟨transfer, result, -, -, rfl⟩ | ⟨-, rfl⟩ := uhsEnv_cases henv
  · rw [← hx, axRxAsyncCallback_ax]
  · exact hx

theorem Armed.weaken {on on' : SlotIndex → Prop} {starting : Bool} {x : UhsMachine}
    (hx : Armed on starting x) (h : ∀ index, on' index → on index) : Armed on' starting x :=
  ⟨fun hrefused hstarted index hon ↦ hx.notIdle hrefused hstarted index (h index hon), hx.running,
    hx.starting_eq⟩

/-- An update of one slot keeps what is known about the others. -/
theorem Armed.setSlot {on : SlotIndex → Prop} {starting : Bool} {x : UhsMachine}
    (hx : Armed on starting x) {index : SlotIndex} (hnot : ¬ on index)
    (update : AxRxAsyncSlot → AxRxAsyncSlot) :
    Armed on starting { x with mem := x.mem.setSlot index update } := by
  refine ⟨fun hrefused hstarted other hon ↦ ?_, hx.running, hx.starting_eq⟩
  have hne : other ≠ index := by
    rintro rfl
    exact hnot hon
  dsimp only
  rw [DriverState.setSlot_of_ne _ hne]
  exact hx.notIdle hrefused hstarted other hon

/-- A slot that leaves the idle state joins the others. -/
theorem Armed.setSlot_insert {on : SlotIndex → Prop} {starting : Bool} {x : UhsMachine}
    (hx : Armed on starting x) (index : SlotIndex) {update : AxRxAsyncSlot → AxRxAsyncSlot}
    (hstate : ∀ slot, (update slot).state ≠ .idle) :
    Armed (fun other ↦ on other ∨ other = index) starting
      { x with mem := x.mem.setSlot index update } := by
  refine ⟨fun hrefused hstarted other hon ↦ ?_, hx.running, hx.starting_eq⟩
  dsimp only
  by_cases hsame : other = index
  · rw [hsame, DriverState.setSlot_self]
    exact hstate _
  · rw [DriverState.setSlot_of_ne _ hsame]
    exact hx.notIdle hrefused hstarted other (hon.resolve_right hsame)

/-- An update of the handle that does not stop the ring. -/
theorem Armed.setAx {on : SlotIndex → Prop} {starting : Bool} {x : UhsMachine}
    (hx : Armed on starting x) {update : Ax88179 → Ax88179}
    (hstarted : (update x.mem.ax).rxAsyncStarted = x.mem.ax.rxAsyncStarted) :
    Armed on starting { x with mem := x.mem.setAx update } := by
  refine ⟨fun hrefused hrun ↦ ?_, fun hring ↦ ?_, hx.starting_eq⟩
  · exact hx.notIdle hrefused (hstarted ▸ hrun)
  · exact ⟨hstarted.trans (hx.running hring).1, (hx.running hring).2⟩

/-! ## The operations -/

section Operations

variable {x : UhsMachine} {on : SlotIndex → Prop} {starting : Bool}

theorem armed_note {event : RxNote} {post : Unit → UhsMachine → Prop}
    {assertion : UhsMachine → Prop} (hstable : EnvStable (ring allowed) (fun _ ↦ True) assertion)
    (hx : assertion x)
    (hstep : ∀ y, assertion y → returnPre (.note event) y ∧
      post () { y with world := y.world.record y.mem event }) :
    Solo (ring allowed) (fun _ ↦ True) returnPre (note event) post x := by
  simp only [note, Solo, safe_bind, safe_pure]
  refine solo_perform hstable hx fun y _ hy ↦
    ⟨(hstep y hy).1, fun answer z hreply ↦ ⟨trivial, ?_⟩⟩
  cases hreply
  exact (hstep y hy).2

/-- Outside a ring start, and where UHS accepts, the submitted slot is not idle afterwards. -/
theorem armed_axRxSubmitSlot {index : SlotIndex} (hnot : ¬ on index) (hx : Armed on starting x) :
    Solo (ring allowed) (fun _ ↦ True) returnPre (axRxSubmitSlot index)
      (fun rc y ↦ Armed on starting y ∧
        (rc = 0 ∨ starting = false → Armed (fun other ↦ on other ∨ other = index) starting y))
      x := by
  simp only [axRxSubmitSlot, Solo, safe_bind, safe_ite, safe_pure]
  refine solo_store (armed_env on starting) hx fun y _ hy ↦ ⟨trivial, ?_⟩
  refine solo_store (armed_env on starting) (hy.setSlot hnot _) fun y _ hy ↦ ⟨trivial, ?_⟩
  have hpending : Armed (fun other ↦ on other ∨ other = index) starting
      { y with mem := y.mem.setSlot index fun slot ↦ { slot with state := .pending } } :=
    hy.setSlot_insert index fun _ h ↦ absurd h (by simp)
  refine solo_perform (armed_env _ starting) hpending fun y _ hy ↦
    ⟨trivial, fun answer z hreply ↦ ⟨trivial, ?_⟩⟩
  cases hreply
  unfold UhsWorld.submit
  by_cases hcode : answer.code = 0
  · have hz : Armed (fun other ↦ on other ∨ other = index) starting
        { y with world := y.world.submit index answer.code } := by
      unfold UhsWorld.submit
      rw [if_pos hcode]
      exact ⟨hy.notIdle, hy.running, hy.starting_eq⟩
    rw [if_neg (not_not.mpr hcode)]
    exact ⟨hz.weaken fun _ ↦ .inl, fun _ ↦ hz⟩
  · -- a refusal outside a ring start is recorded, and nothing is claimed from then on
    have hz : Armed on starting { y with world := y.world.submit index answer.code } := by
      have hon := hy.weaken fun other (h : on other) ↦ .inl h
      unfold UhsWorld.submit
      rw [if_neg hcode]
      refine ⟨fun hrefused ↦ hon.notIdle ?_, hon.running, hon.starting_eq⟩
      exact (Bool.or_eq_false_iff.mp hrefused).1
    have hrecorded : starting = false →
        (y.world.submit index answer.code).rearmRefused = true := fun hstarting ↦ by
      unfold UhsWorld.submit
      rw [if_neg hcode]
      simp [hy.starting_eq, hstarting]
    rw [if_pos hcode]
    refine solo_store ((armed_env on starting).and (rearmRefused_env (starting = false)))
      ⟨hz, hrecorded⟩ fun y _ hy ↦ ⟨trivial, ?_⟩
    refine solo_store ((armed_env on starting).and (rearmRefused_env (starting = false)))
      ⟨hy.1.setSlot hnot _, hy.2⟩ fun y _ hy ↦ ⟨trivial, ?_⟩
    have hlast : Armed on starting
        { y with mem := y.mem.setAx fun ax ↦ { ax with lastBulk := answer.code } } :=
      hy.1.setAx rfl
    refine ⟨hlast, fun h ↦ ⟨fun hrefused ↦ ?_, hlast.running, hlast.starting_eq⟩⟩
    have hstarting : starting = false := h.resolve_left (by decide)
    have htrue := hy.2 hstarting
    rw [htrue] at hrefused
    cases hrefused

/-- A start arms all slots or stops the ring. -/
theorem armed_axRxSubmitAll {indices : List SlotIndex} (hnodup : indices.Nodup)
    (hx : Armed (fun index ↦ index ∉ indices) true x) :
    Solo (ring allowed) (fun _ ↦ True) returnPre (axRxSubmitAll indices)
      (fun _ ↦ Armed (fun _ ↦ True) true) x := by
  induction indices generalizing x with
  | nil => exact hx.weaken fun _ _ ↦ List.not_mem_nil
  | cons index rest ih =>
    obtain ⟨hne, hrest⟩ := List.nodup_cons.mp hnodup
    simp only [axRxSubmitAll, Solo, safe_bind, safe_ite, safe_pure]
    refine safe_mono (armed_axRxSubmitSlot (fun h ↦ h List.mem_cons_self) hx) fun rc y hy ↦ ?_
    split
    · refine solo_store (armed_env _ true) hy.1 fun y _ hy ↦
        ⟨trivial, fun _ h ↦ absurd h Bool.false_ne_true, fun hring ↦ ?_, ?_⟩
      · have hnot := (hy.running hring).2
        rw [hy.starting_eq] at hnot
        cases hnot
      · exact hy.starting_eq
    · rename_i hrc
      refine ih hrest ((hy.2 (.inl (not_not.mp hrc))).weaken fun other hother ↦ ?_)
      by_cases hsame : other = index
      · exact .inr hsame
      · exact .inl fun hmem ↦ hother ((List.mem_cons.mp hmem).resolve_left hsame)

theorem armed_axRxStartAsync (hx : Armed (fun _ ↦ True) false x)
    (hstopped : x.mem.ax.rxAsyncStarted = false) :
    Solo (ring allowed) (fun _ ↦ True) returnPre axRxStartAsync
      (fun _ ↦ Armed (fun _ ↦ True) false) x := by
  have hnone : EnvStable (ring allowed) (fun _ ↦ True) (Armed (fun _ ↦ False) true) :=
    armed_env _ true
  simp only [axRxStartAsync, Solo, safe_bind, safe_pure]
  refine armed_note ((armed_env _ false).and (stopped_env false)) ⟨hx, hstopped⟩
    fun y hy ↦ ⟨trivial, ?_⟩
  have hbegin : Armed (fun _ ↦ False) true
      { y with world := y.world.record y.mem .startBegin } := by
    refine ⟨fun _ _ _ hfalse ↦ hfalse.elim, fun hring ↦ ?_, rfl⟩
    have hrun := (hy.1.running hring).1
    rw [hy.2] at hrun
    cases hrun
  refine solo_store hnone hbegin fun y _ hy ↦ ⟨trivial, ?_⟩
  refine solo_perform hnone (hy.setAx rfl) fun y _ hy ↦
    ⟨trivial, fun answer z hreply ↦ ⟨trivial, ?_⟩⟩
  cases hreply
  have hevent : Armed (fun _ ↦ False) true
      { y with world := { y.world with event := false } } :=
    ⟨hy.notIdle, hy.running, hy.starting_eq⟩
  refine solo_store hnone hevent fun y _ hy ↦ ⟨trivial, ?_⟩
  have hstarted : Armed (fun _ ↦ False) true
      { y with mem := y.mem.setAx fun ax ↦ { ax with rxAsyncStarted := true } } :=
    ⟨fun _ _ _ hfalse ↦ hfalse.elim, fun hring ↦ ⟨rfl, (hy.running hring).2⟩, hy.starting_eq⟩
  refine safe_mono (solo_each (fun _ ↦ Armed (fun _ ↦ False) true) hstarted fun index _ y hy ↦ ?_)
    fun _ y hy ↦ ?_
  · exact solo_store hnone hy fun y _ hy ↦ ⟨trivial, hy.setSlot id _⟩
  have hslots : ∀ index, index ∈ axRxSlots := by decide
  have hsubmit : Armed (fun index ↦ index ∉ axRxSlots) true y :=
    hy.weaken fun index hnot ↦ hnot (hslots index)
  refine safe_mono (armed_axRxSubmitAll (by decide) hsubmit) fun rc y hy ↦ ?_
  refine armed_note (armed_env _ true) hy fun y hy ↦ ⟨trivial, hy.notIdle, fun hring ↦ ?_, rfl⟩
  exact ⟨(hy.running hring).1, rfl⟩

theorem armed_axRxTakeCompleted (hx : Armed (fun _ ↦ True) false x) :
    Solo (ring allowed) (fun _ ↦ True) returnPre axRxTakeCompleted
      (fun _ ↦ Armed (fun _ ↦ True) false) x := by
  have hall : EnvStable (ring allowed) (fun _ ↦ True) (Armed (fun _ ↦ True) false) :=
    armed_env _ false
  simp only [axRxTakeCompleted, axRxTakeDone, Solo, safe_bind, safe_ite, safe_pure]
  refine solo_load hall hx fun y _ hy ↦ ?_
  generalize y.mem.ax.rxConsume = index
  -- the consumed slot leaves the armed ones and joins them again
  have hrearm : ∀ {y}, Armed (fun _ ↦ True) false y →
      Solo (ring allowed) (fun _ ↦ True) returnPre (axRxSubmitSlot index)
        (fun _ ↦ Armed (fun _ ↦ True) false)
        { y with mem := y.mem.setSlot index fun slot ↦ { slot with state := .idle } } := by
    intro y hy
    have hothers : Armed (fun other ↦ other ≠ index) false y := hy.weaken fun _ _ ↦ trivial
    refine safe_mono (armed_axRxSubmitSlot (fun h ↦ h rfl) (hothers.setSlot (fun h ↦ h rfl) _))
      fun rc z hz ↦ ?_
    exact (hz.2 (.inr rfl)).weaken fun other _ ↦ (em (other = index)).symm
  refine solo_load hall hy fun y _ hy ↦ ?_
  split
  · exact hy
  refine solo_load hall hy fun y _ hy ↦ ?_
  generalize (y.mem.gRxSlots index).ret = ret
  refine solo_load hall hy fun y _ hy ↦ ?_
  generalize (y.mem.gRxSlots index).actual = actual
  refine armed_note hall hy fun y hy ↦ ⟨trivial, ?_⟩
  have hconsume : Armed (fun _ ↦ True) false
      { y with world := y.world.record y.mem (.consume index) } :=
    ⟨hy.notIdle, hy.running, hy.starting_eq⟩
  refine solo_store hall hconsume fun y _ hy ↦ ⟨trivial, ?_⟩
  split
  · exact solo_store hall (hy.setAx rfl) fun y _ hy ↦ ⟨trivial, hrearm hy⟩
  · refine solo_perform hall (hy.setAx rfl) fun y _ hy ↦
      ⟨trivial, fun answer z hreply ↦ ⟨trivial, ?_⟩⟩
    obtain ⟨rfl, -⟩ := reply_memcpyBuffer hreply
    refine solo_store hall hy fun y _ hy ↦ ⟨trivial, ?_⟩
    have hcopy : Armed (fun _ ↦ True) false
        { y with mem := { y.mem with gRx := y.mem.gRx.copy answer.bytes actual } } :=
      ⟨hy.notIdle, hy.running, hy.starting_eq⟩
    refine solo_store hall hcopy fun y _ hy ↦ ⟨trivial, ?_⟩
    refine safe_mono (hrearm hy) fun rc y hy ↦ ?_
    refine solo_access hall hy fun y _ hy ↦ ⟨trivial, ?_⟩
    have hload : Armed (fun _ ↦ True) false
        { y with mem := y.mem.setAx fun _ ↦ (axRxLoadAggregate y.mem.gRx actual y.mem.ax).1 } :=
      hy.setAx (axRxLoadAggregate_keeps _ _ _).2.1
    exact armed_note hall hload fun y hy ↦ ⟨trivial, hy⟩

theorem armed_ax88179ReceiveBuffered (maxLength : ℤ) (hx : Armed (fun _ ↦ True) false x) :
    Solo (ring allowed) (fun _ ↦ True) returnPre (ax88179ReceiveBuffered maxLength)
      (fun _ ↦ Armed (fun _ ↦ True) false) x := by
  have hall : EnvStable (ring allowed) (fun _ ↦ True) (Armed (fun _ ↦ True) false) :=
    armed_env _ false
  simp only [ax88179ReceiveBuffered, Solo, safe_bind, safe_pure]
  refine solo_access hall hx fun y _ hy ↦ ⟨trivial, ?_⟩
  have hreceive : Armed (fun _ ↦ True) false
      { y with mem := y.mem.setAx fun _ ↦
        (receiveBufferedImpl y.mem.gRx maxLength y.mem.ax).1 } :=
    hy.setAx (receiveBufferedImpl_keeps _ _ _).2.1
  exact armed_note hall hreceive fun y hy ↦ ⟨trivial, hy⟩

theorem armed_ax88179ReceiveNext (maxLength timeoutUs : ℤ) (hx : Armed (fun _ ↦ True) false x) :
    Solo (ring allowed) (fun _ ↦ True) returnPre (ax88179ReceiveNext maxLength timeoutUs)
      (fun _ ↦ Armed (fun _ ↦ True) false) x := by
  have hall : EnvStable (ring allowed) (fun _ ↦ True) (Armed (fun _ ↦ True) false) :=
    armed_env _ false
  have hfinish : ∀ (loaded : ℤ) (y : UhsMachine), Armed (fun _ ↦ True) false y →
      Solo (ring allowed) (fun _ ↦ True) returnPre
        (if loaded ≤ 0 then pure ⟨loaded, []⟩ else ax88179ReceiveBuffered maxLength)
          (fun _ ↦ Armed (fun _ ↦ True) false) y := by
    intro loaded y hy
    split
    · exact hy
    · exact armed_ax88179ReceiveBuffered maxLength hy
  simp only [ax88179ReceiveNext, Solo, safe_bind]
  refine safe_mono (armed_axRxTakeCompleted hx) fun first y hy ↦ ?_
  split
  · rw [safe_bind]
    refine solo_perform hall hy fun y _ hy ↦ ⟨trivial, fun answer z hreply ↦ ⟨trivial, ?_⟩⟩
    obtain ⟨event, rfl⟩ := reply_osWaitEventWithTimeout hreply
    have hwait : Armed (fun _ ↦ True) false
        { y with world := { y.world with event := event } } :=
      ⟨hy.notIdle, hy.running, hy.starting_eq⟩
    rw [safe_bind]
    exact safe_mono (armed_axRxTakeCompleted hwait) fun loaded y hy ↦ hfinish loaded y hy
  · exact hfinish first y hy

theorem armed_ax88179Receive (maxLength timeoutUs : ℤ) (hx : Armed (fun _ ↦ True) false x) :
    Solo (ring allowed) (fun _ ↦ True) returnPre (ax88179Receive maxLength timeoutUs)
      (fun _ ↦ Armed (fun _ ↦ True) false) x := by
  have hall : EnvStable (ring allowed) (fun _ ↦ True) (Armed (fun _ ↦ True) false) :=
    armed_env _ false
  unfold ax88179Receive
  simp only [Solo, safe_bind, safe_ite, safe_pure]
  split
  · exact hx
  refine solo_load hall hx fun y _ hy ↦ ?_
  split
  · exact hy
  refine safe_mono (armed_ax88179ReceiveBuffered _ hy) fun n y hy ↦ ?_
  split
  · exact hy
  refine solo_load hall hy fun y _ hy ↦ ?_
  split
  · exact armed_ax88179ReceiveNext _ _ hy
  rename_i hstopped
  refine safe_mono (armed_axRxStartAsync hy (Bool.not_eq_true _ ▸ hstopped)) fun rc y hy ↦ ?_
  split
  · exact hy
  · exact armed_ax88179ReceiveNext _ _ hy

theorem armed_receiveCall (args : ReceiveArgs) (hx : Armed (fun _ ↦ True) false x) :
    Solo (ring allowed) (fun _ ↦ True) returnPre (receiveCall args)
      (fun _ ↦ Armed (fun _ ↦ True) false) x := by
  have hall : EnvStable (ring allowed) (fun _ ↦ True) (Armed (fun _ ↦ True) false) :=
    armed_env _ false
  simp only [receiveCall, Solo, safe_bind]
  refine armed_note hall hx fun y hy ↦ ⟨trivial, ?_⟩
  have hbegin : Armed (fun _ ↦ True) false
      { y with world := y.world.record y.mem (.receiveBegin args.maxLength) } :=
    ⟨hy.notIdle, fun hring ↦ ⟨hring, hy.starting_eq⟩, hy.starting_eq⟩
  refine safe_mono (armed_ax88179Receive _ _ hbegin) fun result y hy ↦ ?_
  refine armed_note hall hy fun y hy ↦ ⟨fun hrefused hring _ ↦ .inl fun index ↦ ?_, ?_⟩
  · exact hy.notIdle hrefused (hy.running hring).1 index trivial
  · exact ⟨hy.notIdle, hy.running, hy.starting_eq⟩

end Operations

/-! ## Whole runs -/

/-- Whenever a call returns that was entered with the ring running and no buffered frame left,
every slot is pending or done, unless UHS refused a submission of this same call. -/
def ArmedAtReturn (c : RingConfig) : Prop :=
  ∀ maxLength result next, c.threads () = some (.call (.note (.returned maxLength result)) next) →
    c.machine.world.call.ringStarted = true → c.machine.world.call.drained = true →
      (∀ index, (c.machine.mem.gRxSlots index).state ≠ .idle) ∨
        c.machine.world.call.refused = true

theorem armed_verified {x : UhsMachine} (hx : Armed (fun _ ↦ True) false x) :
    Verified (ring allowed) x (fun _ ↦ True)
      (fun _ ↦ Interference (ring allowed) fun _ ↦ True) (fun _ ↦ returnPre)
      (fun _ ↦ Armed (fun _ ↦ True) false) :=
  solo_verified (armed_env _ false) (fun _ _ _ _ _ _ ↦ trivial)
    (fun args _ _ hy _ ↦ armed_receiveCall args hy) trivial hx

theorem FreshHandle.armed {x : UhsMachine} (hx : FreshHandle x) :
    Armed (fun _ ↦ True) false x := by
  obtain ⟨buffers, hworld⟩ := hx.world_eq
  refine ⟨fun _ hstarted ↦ ?_, fun hring ↦ ?_, by rw [hworld]⟩
  · rw [hx.not_started] at hstarted
    cases hstarted
  · rw [hworld] at hring
    cases hring

/-- In every run in which UHS refuses no submission outside a ring start, the ring is fully armed
whenever a receive call returns. -/
theorem ring_armedAtReturn {x : UhsMachine} (hx : FreshHandle x) {actions : List RingAction}
    {c : RingConfig} (hrun : (ring fun _ ↦ true).run (System.start x) actions = some c)
    (hrearm : c.machine.world.rearmRefused = false) : ArmedAtReturn c := by
  intro maxLength result next hcall
  exact (armed_verified hx.armed).call_pre hrun hcall hrearm

/-- One call that starts the ring, and a second one up to its return. -/
def idleRing : List RingAction :=
  scheduleArm ++ scheduleEnter ⟨1514, 0⟩ ++ scheduleNothing

theorem ring_armedAtReturn_idleRing :
    ∃ c, (ring fun _ ↦ true).run (System.start openHandle) idleRing = some c ∧
      c.machine.world.rearmRefused = false ∧ ArmedAtReturn c := by
  have hrun : ((ring fun _ ↦ true).run (System.start openHandle) idleRing).map
      (fun c ↦ c.machine.world.rearmRefused) = some false := rfl
  obtain ⟨c, hc, hrearm⟩ := Option.map_eq_some_iff.mp hrun
  exact ⟨c, hc, hrearm, ring_armedAtReturn freshHandle_openHandle hc hrearm⟩

/-- Slot 0 completes empty and UHS refuses to take it again; the other two slots complete and are
submitted again, and the call after that finds slot 0 idle. -/
def stalledRing : List RingAction :=
  let empty : Completion := ⟨0, 0, fun _ ↦ 0⟩
  scheduleArm ++
    [.env (.complete (0, 0) empty), .env (.complete (1, 1) empty),
      .env (.complete (2, 2) empty)] ++
    scheduleEnter ⟨1514, 0⟩ ++ scheduleEmpty ++ scheduleRefused ++ scheduleReturn ++
    scheduleEnter ⟨1514, 0⟩ ++ scheduleEmpty ++ scheduleAccepted ++ scheduleReturn ++
    scheduleEnter ⟨1514, 0⟩ ++ scheduleEmpty ++ scheduleAccepted ++ scheduleReturn ++
    scheduleEnter ⟨1514, 0⟩ ++ scheduleNothing

/-- The state of the slot named by `rx_consume` at the return of a call, with its history. -/
def atReturn (c : RingConfig) : Option (Received × Bool × Bool × Bool × SlotState) :=
  match c.threads () with
  | some (.call (.note (.returned _ result)) _) =>
    let call := c.machine.world.call
    some (result, call.ringStarted, call.drained, call.refused,
      (c.machine.mem.gRxSlots c.machine.mem.ax.rxConsume).state)
  | _ => none

theorem not_armedAtReturn {c : RingConfig} {result : Received}
    (h : atReturn c = some (result, true, true, false, .idle)) : ¬ ArmedAtReturn c := by
  intro harmed
  unfold atReturn at h
  split at h
  · rename_i maxLength found next hcall
    simp only [Option.some.injEq, Prod.mk.injEq] at h
    obtain ⟨-, hring, hdrained, haccepted, hidle⟩ := h
    cases harmed maxLength found next hcall hring hdrained with
    | inl hslots => exact hslots _ hidle
    | inr hrefused =>
      rw [haccepted] at hrefused
      cases hrefused
  · cases h

theorem stalledRing_not_armedAtReturn :
    ¬ ∀ (x : UhsMachine) (actions : List RingAction) (c : RingConfig), FreshHandle x →
      (ring fun _ ↦ true).run (System.start x) actions = some c → ArmedAtReturn c := by
  intro hall
  have hrun : ((ring fun _ ↦ true).run (System.start openHandle) stalledRing).map atReturn =
      some (some (⟨0, []⟩, true, true, false, .idle)) := rfl
  obtain ⟨c, hc, hreturn⟩ := Option.map_eq_some_iff.mp hrun
  exact not_armedAtReturn hreturn (hall openHandle stalledRing c freshHandle_openHandle hc)

end Ax88179Aroma.Driver
