import Ax88179Aroma.Driver.Uhs

/-!
# Exclusive use of the DMA buffers

Each ring buffer is to have at most one outstanding transfer, and a buffer is copied only when it
has none.  The slot states carry this: a buffer with an outstanding transfer has a slot that is
`pending`.  Consuming and re-arming keep it.  A ring start does so only when nothing is outstanding,
and `ax_rx_start_async` does not check that: after a start that was refused part-way the next
receive call submits the first buffers again.
-/

namespace Ax88179Aroma.Driver

open Effect Program

/-! ## Counting outstanding transfers -/

namespace UhsWorld

theorem outstanding_submit (world : UhsWorld) (index other : SlotIndex) (code : ℤ) :
    (world.submit index code).outstanding other =
      world.outstanding other + if code = 0 ∧ index = other then 1 else 0 := by
  unfold submit Transfers.outstanding Transfers.accept
  by_cases hcode : code = 0
  · simp [hcode, List.countP_append, List.countP_singleton]
  · simp [hcode]

theorem outstanding_complete {world : UhsWorld} {transfer : ℕ × SlotIndex}
    (hmem : transfer ∈ world.flight) (result : Completion) (other : SlotIndex) :
    (world.complete transfer result).outstanding other + (if transfer.2 = other then 1 else 0) =
      world.outstanding other := by
  have hperm := List.perm_cons_erase hmem
  unfold complete Transfers.complete Transfers.outstanding
  rw [hperm.countP_eq, List.countP_cons]
  simp

theorem outstanding_eq_zero_of_flight {world : UhsWorld} (h : world.flight = [])
    (index : SlotIndex) : world.outstanding index = 0 := by
  unfold Transfers.outstanding
  rw [h]
  rfl

@[simp]
theorem busyStart_submit (world : UhsWorld) (index : SlotIndex) (code : ℤ) :
    (world.submit index code).busyStart = world.busyStart := by
  unfold submit
  split <;> rfl

end UhsWorld

/-! ## The invariant -/

/-- A buffer has at most one outstanding transfer, and then its slot is pending. -/
def Exclusive (x : UhsMachine) : Prop :=
  x.world.busyStart = false → ∀ index, x.world.outstanding index ≤ 1 ∧
    (x.world.outstanding index = 1 → (x.mem.gRxSlots index).state = .pending)

/-- Nothing is outstanding on the given buffers. -/
def Free (indices : List SlotIndex) (x : UhsMachine) : Prop :=
  x.world.busyStart = false → ∀ index ∈ indices, x.world.outstanding index = 0

/-- A copy is made only from a buffer that UHS does not use. -/
def copyPre : UhsCall → UhsMachine → Prop
  | .memcpyBuffer index _, x => Free [index] x
  | _, _ => True

variable {allowed : ReceiveArgs → Bool}

theorem exclusive_env : EnvStable (ring allowed) (fun _ ↦ True) Exclusive := by
  intro event x y _ hx henv hbusy index
  obtain ⟨transfer, result, -, hmem, rfl⟩ | ⟨-, rfl⟩ := uhsEnv_cases henv
  · have hcount := UhsWorld.outstanding_complete hmem result index
    obtain ⟨hle, hpending⟩ := hx hbusy index
    refine ⟨by dsimp only; omega, fun hone ↦ ?_⟩
    have hne : index ≠ transfer.2 := by
      rintro rfl
      rw [if_pos rfl] at hcount
      dsimp only at hone
      omega
    rw [if_neg hne.symm] at hcount
    dsimp only at hone ⊢
    rw [axRxAsyncCallback_of_ne hne]
    exact hpending (by omega)
  · exact hx hbusy index

theorem free_env (indices : List SlotIndex) :
    EnvStable (ring allowed) Exclusive (Free indices) := by
  intro event x y _ hx henv hbusy index hindex
  obtain ⟨transfer, result, -, hmem, rfl⟩ | ⟨-, rfl⟩ := uhsEnv_cases henv
  · have hcount := UhsWorld.outstanding_complete hmem result index
    have hzero := hx hbusy index hindex
    dsimp only
    omega
  · exact hx hbusy index hindex

theorem true_env (inv : UhsMachine → Prop) : EnvStable (ring allowed) inv fun _ ↦ True :=
  fun _ _ _ _ _ _ ↦ trivial

/-- An update of the slots on free buffers keeps the invariant. -/
theorem Exclusive.setSlot {x : UhsMachine} (hx : Exclusive x) {index : SlotIndex}
    (hfree : Free [index] x) (update : AxRxAsyncSlot → AxRxAsyncSlot) :
    Exclusive { x with mem := x.mem.setSlot index update } := by
  intro hbusy other
  obtain ⟨hle, hpending⟩ := hx hbusy other
  refine ⟨hle, fun hone ↦ ?_⟩
  have hne : other ≠ index := by
    rintro rfl
    have hzero := hfree hbusy other List.mem_cons_self
    dsimp only at hone
    omega
  dsimp only
  rw [DriverState.setSlot_of_ne _ hne]
  exact hpending hone

/-- A submission of a free buffer keeps the invariant. -/
theorem Exclusive.submit {x : UhsMachine} (hx : Exclusive x) {index : SlotIndex}
    (hfree : Free [index] x)
    (hpending : x.world.busyStart = false → (x.mem.gRxSlots index).state = .pending) (code : ℤ) :
    Exclusive { x with world := x.world.submit index code } := by
  intro hbusy other
  dsimp only at hbusy ⊢
  rw [UhsWorld.busyStart_submit] at hbusy
  obtain ⟨hle, hkeep⟩ := hx hbusy other
  rw [UhsWorld.outstanding_submit]
  by_cases hnew : code = 0 ∧ index = other
  · obtain ⟨-, rfl⟩ := hnew
    have hzero := hfree hbusy index List.mem_cons_self
    rw [hzero]
    refine ⟨?_, fun _ ↦ hpending hbusy⟩
    split <;> omega
  · rw [if_neg hnew, Nat.add_zero]
    exact ⟨hle, hkeep⟩

theorem Free.submit {x : UhsMachine} {index : SlotIndex} {rest : List SlotIndex}
    (hx : Free (index :: rest) x) (hne : index ∉ rest) (code : ℤ) :
    Free rest { x with world := x.world.submit index code } := by
  intro hbusy other hother
  dsimp only at hbusy ⊢
  rw [UhsWorld.busyStart_submit] at hbusy
  have hnew : ¬ (code = 0 ∧ index = other) := by
    rintro ⟨-, rfl⟩
    exact hne hother
  rw [UhsWorld.outstanding_submit, if_neg hnew, Nat.add_zero]
  exact hx hbusy other (List.mem_cons_of_mem index hother)

theorem Free.refused {x : UhsMachine} {indices : List SlotIndex} (hx : Free indices x)
    {index : SlotIndex} {code : ℤ} (hcode : code ≠ 0) :
    Free indices { x with world := x.world.submit index code } := by
  intro hbusy other hother
  dsimp only at hbusy ⊢
  rw [UhsWorld.busyStart_submit] at hbusy
  rw [UhsWorld.outstanding_submit, if_neg fun h ↦ hcode h.1, Nat.add_zero]
  exact hx hbusy other hother

theorem Free.tail {x : UhsMachine} {index : SlotIndex} {rest : List SlotIndex}
    (hx : Free (index :: rest) x) : Free rest x :=
  fun hbusy other hother ↦ hx hbusy other (List.mem_cons_of_mem index hother)

/-- The slot of a free buffer keeps its state while UHS completes other transfers. -/
theorem pending_env (index : SlotIndex) (rest : List SlotIndex) :
    EnvStable (ring allowed) Exclusive fun x ↦ Free (index :: rest) x ∧
      (x.world.busyStart = false → (x.mem.gRxSlots index).state = .pending) := by
  intro event x y hinv hx henv
  refine ⟨free_env _ event x y hinv hx.1 henv, fun hbusy ↦ ?_⟩
  obtain ⟨transfer, result, -, hmem, rfl⟩ | ⟨-, rfl⟩ := uhsEnv_cases henv
  · have hne : index ≠ transfer.2 := by
      rintro rfl
      have hcount := UhsWorld.outstanding_complete hmem result transfer.2
      have hzero := hx.1 hbusy transfer.2 List.mem_cons_self
      rw [if_pos rfl] at hcount
      omega
    dsimp only
    rw [axRxAsyncCallback_of_ne hne]
    exact hx.2 hbusy
  · exact hx.2 hbusy

/-! ## The operations -/

section Operations

variable {x : UhsMachine}

theorem exclusive_note {event : RxNote} {post : Unit → UhsMachine → Prop}
    {assertion : UhsMachine → Prop} (hstable : EnvStable (ring allowed) Exclusive assertion)
    (hx : assertion x)
    (hstep : ∀ y, Exclusive y → assertion y →
      Exclusive { y with world := y.world.record y.mem event } ∧
        post () { y with world := y.world.record y.mem event }) :
    Solo (ring allowed) Exclusive copyPre (note event) post x := by
  simp only [note, Solo, safe_bind, safe_pure]
  refine solo_perform hstable hx fun y hinv hy ↦ ⟨trivial, fun answer z hreply ↦ ?_⟩
  cases hreply
  exact hstep y hinv hy

/-- Arming a free buffer leaves the other free buffers free. -/
theorem exclusive_axRxSubmitSlot {index : SlotIndex} {rest : List SlotIndex} (hne : index ∉ rest)
    (hx : Free (index :: rest) x) :
    Solo (ring allowed) Exclusive copyPre (axRxSubmitSlot index) (fun _ ↦ Free rest) x := by
  have hhead : ∀ {y}, Free (index :: rest) y → Free [index] y := fun hy hbusy other hother ↦ by
    rw [List.mem_singleton.mp hother]
    exact hy hbusy index List.mem_cons_self
  simp only [axRxSubmitSlot, Solo, safe_bind, safe_ite, safe_pure]
  refine solo_store (free_env _) hx fun y hinv hy ↦ ⟨hinv.setSlot (hhead hy) _, ?_⟩
  refine solo_store (free_env _) hy fun y hinv hy ↦ ⟨hinv.setSlot (hhead hy) _, ?_⟩
  refine solo_perform (pending_env index rest) ⟨hy, fun _ ↦ ?_⟩ fun y hinv hy ↦
    ⟨trivial, fun answer z hreply ↦ ?_⟩
  · rw [DriverState.setSlot_self]
  cases hreply
  refine ⟨hinv.submit (hhead hy.1) hy.2 answer.code, ?_⟩
  split
  · rename_i hcode
    have hfree : Free (index :: rest)
        { y with world := y.world.submit index answer.code } := hy.1.refused hcode
    refine solo_store (free_env _) hfree fun y hinv hy ↦ ⟨hinv.setSlot (hhead hy) _, ?_⟩
    exact solo_store (free_env _) hy fun y hinv hy ↦ ⟨hinv, hy.tail⟩
  · exact hy.1.submit hne answer.code

/-- A start arms the remaining slots one by one and gives up at the first refusal. -/
theorem exclusive_axRxSubmitAll {indices : List SlotIndex} (hnodup : indices.Nodup)
    (hx : Free indices x) :
    Solo (ring allowed) Exclusive copyPre (axRxSubmitAll indices) (fun _ _ ↦ True) x := by
  induction indices generalizing x with
  | nil => trivial
  | cons index rest ih =>
    obtain ⟨hne, hrest⟩ := List.nodup_cons.mp hnodup
    simp only [axRxSubmitAll, Solo, safe_bind, safe_ite, safe_pure]
    refine safe_mono (exclusive_axRxSubmitSlot hne hx) fun rc y hy ↦ ?_
    split
    · exact solo_store (true_env _) trivial fun y hinv _ ↦ ⟨hinv, trivial⟩
    · exact ih hrest hy

theorem exclusive_axRxStartAsync :
    Solo (ring allowed) Exclusive copyPre axRxStartAsync (fun _ _ ↦ True) x := by
  have hslots : ∀ index, index ∈ axRxSlots := by decide
  simp only [axRxStartAsync, Solo, safe_bind, safe_pure]
  refine exclusive_note (true_env _) trivial fun y hinv _ ↦ ⟨fun hbusy ↦ ?_, ?_⟩
  · simp only [UhsWorld.record, Bool.or_eq_false_iff] at hbusy
    exact hinv hbusy.1
  have hfree : Free axRxSlots { y with world := y.world.record y.mem .startBegin } := by
    intro hbusy index _
    simp only [UhsWorld.record, Bool.or_eq_false_iff, Bool.not_eq_false', List.isEmpty_iff] at hbusy
    exact UhsWorld.outstanding_eq_zero_of_flight hbusy.2 index
  refine solo_store (free_env _) hfree fun y hinv hy ↦ ⟨hinv, ?_⟩
  refine solo_perform (free_env axRxSlots) hy fun y hinv hy ↦ ⟨trivial, fun answer z hreply ↦ ?_⟩
  cases hreply
  refine ⟨hinv, solo_store (free_env axRxSlots) hy fun y hinv hy ↦ ⟨hinv, ?_⟩⟩
  refine safe_mono (solo_each (fun _ ↦ Free axRxSlots) hy fun index _ y hy ↦ ?_) fun _ y hy ↦ ?_
  · refine solo_store (free_env axRxSlots) hy fun y hinv hy ↦ ⟨hinv.setSlot ?_ _, hy⟩
    exact fun hbusy other _ ↦ hy hbusy other (hslots other)
  refine safe_mono (exclusive_axRxSubmitAll (by decide) hy) fun rc y _ ↦ ?_
  exact exclusive_note (true_env _) trivial fun y hinv _ ↦ ⟨hinv, trivial⟩

/-- A slot that is done has a free buffer, so it may be copied and armed again. -/
theorem exclusive_axRxTakeCompleted :
    Solo (ring allowed) Exclusive copyPre axRxTakeCompleted (fun _ _ ↦ True) x := by
  simp only [axRxTakeCompleted, axRxTakeDone, Solo, safe_bind, safe_ite, safe_pure]
  refine solo_load (true_env _) trivial fun y _ _ ↦ ?_
  generalize y.mem.ax.rxConsume = index
  refine solo_load (true_env _) trivial fun y hinv _ ↦ ?_
  split
  · trivial
  rename_i hdone
  have hfree : Free [index] y := by
    intro hbusy other hother
    rw [List.mem_singleton.mp hother]
    obtain ⟨hle, hpending⟩ := hinv hbusy index
    have hnot : y.world.outstanding index ≠ 1 := fun hone ↦ by
      rw [hpending hone] at hdone
      exact hdone (by decide)
    omega
  refine solo_load (free_env _) hfree fun y _ hy ↦ ?_
  refine solo_load (free_env _) hy fun y _ hy ↦ ?_
  refine exclusive_note (free_env _) hy fun y hinv hy ↦ ⟨hinv, ?_⟩
  refine solo_store (free_env [index]) hy fun y hinv hy ↦ ⟨hinv, ?_⟩
  split
  · refine solo_store (free_env _) hy fun y hinv hy ↦ ⟨hinv.setSlot hy _, ?_⟩
    exact safe_mono (exclusive_axRxSubmitSlot List.not_mem_nil hy) fun _ _ _ ↦ trivial
  · refine solo_perform (free_env [index]) hy fun y hinv hy ↦ ⟨hy, fun answer z hreply ↦ ?_⟩
    obtain ⟨rfl, -⟩ := reply_memcpyBuffer hreply
    refine ⟨hinv, solo_store (free_env [index]) hy fun y hinv hy ↦ ⟨hinv, ?_⟩⟩
    refine solo_store (free_env [index]) hy fun y hinv hy ↦ ⟨hinv.setSlot hy _, ?_⟩
    refine safe_mono (exclusive_axRxSubmitSlot List.not_mem_nil hy) fun _ _ _ ↦ ?_
    refine solo_access (true_env _) trivial fun y hinv _ ↦ ⟨hinv, ?_⟩
    exact exclusive_note (true_env _) trivial fun y hinv _ ↦ ⟨hinv, trivial⟩

theorem exclusive_ax88179ReceiveBuffered (maxLength : ℤ) :
    Solo (ring allowed) Exclusive copyPre (ax88179ReceiveBuffered maxLength)
      (fun _ _ ↦ True) x := by
  simp only [ax88179ReceiveBuffered, Solo, safe_bind, safe_pure]
  refine solo_access (true_env _) trivial fun y hinv _ ↦ ⟨hinv, ?_⟩
  exact exclusive_note (true_env _) trivial fun y hinv _ ↦ ⟨hinv, trivial⟩

theorem exclusive_ax88179ReceiveNext (maxLength timeoutUs : ℤ) :
    Solo (ring allowed) Exclusive copyPre (ax88179ReceiveNext maxLength timeoutUs)
      (fun _ _ ↦ True) x := by
  have hfinish : ∀ (loaded : ℤ) (y : UhsMachine), Solo (ring allowed) Exclusive copyPre
      (if loaded ≤ 0 then pure ⟨loaded, []⟩ else ax88179ReceiveBuffered maxLength)
        (fun _ _ ↦ True) y := fun loaded y ↦ by
    split
    · trivial
    · exact exclusive_ax88179ReceiveBuffered maxLength
  simp only [ax88179ReceiveNext, Solo, safe_bind]
  refine safe_mono exclusive_axRxTakeCompleted fun first y _ ↦ ?_
  split
  · rw [safe_bind]
    refine solo_perform (true_env _) trivial fun y hinv _ ↦ ⟨trivial, fun answer z hreply ↦ ?_⟩
    obtain ⟨event, rfl⟩ := reply_osWaitEventWithTimeout hreply
    refine ⟨hinv, ?_⟩
    rw [safe_bind]
    exact safe_mono exclusive_axRxTakeCompleted fun loaded y _ ↦ hfinish loaded y
  · exact hfinish first y

theorem exclusive_ax88179Receive (maxLength timeoutUs : ℤ) :
    Solo (ring allowed) Exclusive copyPre (ax88179Receive maxLength timeoutUs)
      (fun _ _ ↦ True) x := by
  unfold ax88179Receive
  simp only [Solo, safe_bind, safe_ite, safe_pure]
  split
  · trivial
  refine solo_load (true_env _) trivial fun y _ _ ↦ ?_
  split
  · trivial
  refine safe_mono (exclusive_ax88179ReceiveBuffered _) fun n y _ ↦ ?_
  split
  · trivial
  refine solo_load (true_env _) trivial fun y _ _ ↦ ?_
  split
  · exact exclusive_ax88179ReceiveNext _ _
  refine safe_mono exclusive_axRxStartAsync fun rc y _ ↦ ?_
  split
  · trivial
  · exact exclusive_ax88179ReceiveNext _ _

theorem exclusive_receiveCall (args : ReceiveArgs) :
    Solo (ring allowed) Exclusive copyPre (receiveCall args) (fun _ _ ↦ True) x := by
  simp only [receiveCall, Solo, safe_bind]
  refine exclusive_note (true_env _) trivial fun y hinv _ ↦ ⟨hinv, ?_⟩
  refine safe_mono (exclusive_ax88179Receive _ _) fun result y _ ↦ ?_
  exact exclusive_note (true_env _) trivial fun y hinv _ ↦ ⟨hinv, trivial⟩

end Operations

/-! ## Whole runs -/

theorem exclusive_verified {x : UhsMachine} (hx : Exclusive x) :
    Verified (ring allowed) x Exclusive (fun _ ↦ Interference (ring allowed) Exclusive)
      (fun _ ↦ copyPre) (fun _ _ ↦ True) :=
  solo_verified (true_env _) exclusive_env (fun args _ _ _ _ ↦ exclusive_receiveCall args) hx
    trivial

/-- The buffers of a machine are used one transfer at a time, and the receiving thread is not
about to copy one that is still in use. -/
def OneTransferPerBuffer (c : RingConfig) : Prop :=
  (∀ index, c.machine.world.outstanding index ≤ 1) ∧
    ∀ index count next, c.threads () = some (.call (.memcpyBuffer index count) next) →
      c.machine.world.outstanding index = 0

/-- In every run in which no ring start begins while a transfer is outstanding, each buffer has at
most one outstanding transfer and is copied only when it has none. -/
theorem ring_oneTransferPerBuffer {x : UhsMachine} (hx : FreshHandle x)
    {actions : List RingAction} {c : RingConfig}
    (hrun : (ring fun _ ↦ true).run (System.start x) actions = some c)
    (hbusy : c.machine.world.busyStart = false) : OneTransferPerBuffer c := by
  have hinitial : Exclusive x := by
    obtain ⟨buffers, hworld⟩ := hx.world_eq
    intro _ index
    have hzero : x.world.outstanding index = 0 :=
      UhsWorld.outstanding_eq_zero_of_flight (by rw [hworld]) index
    omega
  have hsound := (exclusive_verified hinitial).sound hrun
  refine ⟨fun index ↦ (hsound.invariant hbusy index).1, fun index count next hcall ↦ ?_⟩
  exact (exclusive_verified hinitial).call_pre hrun hcall hbusy index List.mem_cons_self

theorem ring_oneTransferPerBuffer_scheduleArm :
    ∃ c, (ring fun _ ↦ true).run (System.start openHandle) scheduleArm = some c ∧
      c.machine.world.busyStart = false ∧ OneTransferPerBuffer c := by
  have hrun : ((ring fun _ ↦ true).run (System.start openHandle) scheduleArm).map
      (fun c ↦ c.machine.world.busyStart) = some false := rfl
  obtain ⟨c, hc, hbusy⟩ := Option.map_eq_some_iff.mp hrun
  exact ⟨c, hc, hbusy, ring_oneTransferPerBuffer freshHandle_openHandle hc hbusy⟩

/-- A start that UHS refuses at the second slot, and the receive call after it, which starts the
ring again and submits the first buffer a second time. -/
def restartedRing : List RingAction :=
  scheduleEnter ⟨1514, 0⟩ ++ scheduleStart ++ scheduleAccepted ++ scheduleRefused ++
    [.step (), .answer () {}] ++ scheduleReturn ++
    scheduleEnter ⟨1514, 0⟩ ++ scheduleStart ++ scheduleAccepted

theorem restartedRing_not_oneTransferPerBuffer :
    ¬ ∀ (x : UhsMachine) (actions : List RingAction) (c : RingConfig), FreshHandle x →
      (ring fun _ ↦ true).run (System.start x) actions = some c → OneTransferPerBuffer c := by
  intro hall
  have hrun : ((ring fun _ ↦ true).run (System.start openHandle) restartedRing).map
      (fun c ↦ c.machine.world.outstanding 0) = some 2 := rfl
  obtain ⟨c, hc, htwo⟩ := Option.map_eq_some_iff.mp hrun
  have hone := (hall openHandle restartedRing c freshHandle_openHandle hc).1 0
  omega

end Ax88179Aroma.Driver
