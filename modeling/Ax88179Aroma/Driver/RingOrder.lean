import Ax88179Aroma.Driver.RingWindow

/-!
# The ring delivers in submission order

The receiving thread against every placement of the completions: each operation of the ring moves
the window of transfers by at most one, and the frames it hands out are those that are next.
-/

namespace Ax88179Aroma.Driver

open Effect Program

variable {allowed : ReceiveArgs → Bool} {maxLength : ℤ}

/-! ## The operations -/

section Operations

variable {x : UhsMachine} {ahead : List (List UInt8)} {accounted consumed submitted : ℕ}
  {owned owned' : Owned}

theorem ringing_note {event : RxNote} {post : Unit → UhsMachine → Prop}
    {assertion : UhsMachine → Prop}
    (hstable : EnvStable (ring allowed) (Delivering maxLength) assertion) (hx : assertion x)
    (hstep : ∀ y, Delivering maxLength y → assertion y → duePre (.note event) y ∧
      Delivering maxLength { y with world := y.world.record y.mem event } ∧
        post () { y with world := y.world.record y.mem event }) :
    Solo (ring allowed) (Delivering maxLength) duePre (note event) post x := by
  simp only [note, Solo, safe_bind, safe_pure]
  refine solo_perform hstable hx fun y hinv hy ↦
    ⟨(hstep y hinv hy).1, fun answer z hreply ↦ ?_⟩
  cases hreply
  exact (hstep y hinv hy).2

/-- The next transfer is submitted into its slot. -/
theorem ringing_axRxSubmitSlot (hroom : submitted < consumed + 3)
    (hbuffer : ∀ ax gRx call buffers, owned ax gRx call buffers →
      buffers (slotOf submitted) = some (slotOf submitted))
    (hx : Ringing maxLength ahead accounted consumed submitted owned x) :
    Solo (ring allowed) (Delivering maxLength) duePre (axRxSubmitSlot (slotOf submitted))
      (fun rc y ↦ (y.world.refused = false → rc = 0) ∧
        Ringing maxLength ahead accounted consumed (submitted + 1) owned y) x := by
  simp only [axRxSubmitSlot, Solo, safe_bind, safe_ite, safe_pure]
  refine solo_store (ringing_env _ _ _ _ _) hx fun y hinv hy ↦ ⟨hinv, ?_⟩
  refine solo_store (ringing_env _ _ _ _ _) (hy.setSlot hroom fun _ ↦ rfl)
    fun y hinv hy ↦ ⟨hinv, ?_⟩
  have hpending : NextSlot submitted (fun slot _ ↦ slot.state = .pending) { y with
      mem := y.mem.setSlot (slotOf submitted) fun slot ↦ { slot with state := .pending } } := by
    intro _
    dsimp only
    rw [DriverState.setSlot_self]
  refine solo_perform (nextSlot_env _ _ _ _ _ hroom _)
    ⟨hy.setSlot hroom fun _ ↦ rfl, hpending⟩
    fun y hinv hy ↦ ⟨trivial, fun answer z hreply ↦ ?_⟩
  cases hreply
  by_cases hcode : answer.code = 0
  · have hworld : y.world.submit (slotOf submitted) answer.code =
        { y.world with toTransfers := y.world.toTransfers.accept (slotOf submitted) } :=
      if_pos hcode
    rw [hworld, if_neg (not_not.mpr hcode)]
    refine ⟨fun hrefused ↦ ?_, fun _ ↦ trivial, fun hrefused ↦ ?_⟩
    · have ht := hinv hrefused
      have hwindow := (hy.1 hrefused).1
      have hsubmitted := hwindow.submitted_eq
      have haccept := ht.accept (by rw [hsubmitted, hwindow.consumed_eq]; exact hroom)
      rwa [hsubmitted] at haccept
    · obtain ⟨hwindow, howned⟩ := hy.1 hrefused
      exact ⟨hwindow.accept (hbuffer _ _ _ _ howned) (hy.2 hrefused), howned⟩
  · -- nothing is claimed after a refusal
    have hvoid : Void { y with world := y.world.submit (slotOf submitted) answer.code } := by
      unfold Void UhsWorld.submit
      rw [if_neg hcode]
    rw [if_pos hcode]
    refine ⟨hvoid.absurd, ?_⟩
    refine solo_store (void_env maxLength) hvoid fun y _ hy ↦ ⟨hy.absurd, ?_⟩
    exact solo_store (void_env maxLength) hy fun y _ hy ↦ ⟨hy.absurd, hy.absurd, hy.absurd⟩

/-- The start submits the slots that are left, in order. -/
theorem ringing_axRxSubmitAll (count : ℕ) (hcount : submitted + count = 3)
    (hbuffer : ∀ ax gRx call buffers, owned ax gRx call buffers →
      ∀ index, buffers index = some index)
    (hx : Ringing maxLength ahead 0 0 submitted owned x) :
    Solo (ring allowed) (Delivering maxLength) duePre
      (axRxSubmitAll ((List.range' submitted count).map slotOf))
      (fun rc y ↦ (y.world.refused = false → rc = 0) ∧ Ringing maxLength ahead 0 0 3 owned y)
      x := by
  induction count generalizing submitted x with
  | zero =>
    obtain rfl : submitted = 3 := hcount
    exact ⟨fun _ ↦ rfl, hx⟩
  | succ count ih =>
    rw [List.range'_succ, List.map_cons]
    simp only [axRxSubmitAll, Solo, safe_bind, safe_ite, safe_pure]
    refine safe_mono (ringing_axRxSubmitSlot (by omega)
      (fun ax gRx call buffers h ↦ hbuffer ax gRx call buffers h _) hx) fun rc y hy ↦ ?_
    split
    · rename_i hrc
      refine solo_store (void_env maxLength) ?_ fun y _ hy ↦ ⟨?_, ?_, ?_⟩
      · exact Bool.of_not_eq_false fun hrefused ↦ hrc (hy.1 hrefused)
      · exact hy.absurd
      · exact hy.absurd
      · exact hy.absurd
    · exact ih (by omega) hy.2

/-- The ring runs and its next transfer to consume is `next`. -/
structure Running (next : ℕ) (ax : Ax88179) (buffers : SlotIndex → Option SlotIndex) : Prop where
  link_up : ax.medium ≠ 0
  started : ax.rxAsyncStarted = true
  consume : ax.rxConsume = slotOf next
  buffers_eq : ∀ index, buffers index = some index

/-- The ring was never started, nor when the current call was entered. -/
structure Stopped (ax : Ax88179) (call : CallRecord) : Prop where
  link_up : ax.medium ≠ 0
  stopped : ax.rxAsyncStarted = false
  not_due : ¬ call.due
  drained : ax.rxFrames ≤ ax.rxNext

theorem ringing_axRxStartAsync
    (hx : Ringing maxLength [] 0 0 0 (fun ax _ call _ ↦ Stopped ax call) x) :
    Solo (ring allowed) (Delivering maxLength) duePre axRxStartAsync
      (fun rc y ↦ (y.world.refused = false → rc = 0) ∧ Ringing maxLength [] 0 0 3
        (fun ax _ call buffers ↦ Running 0 ax buffers ∧ ¬ call.due ∧ ax.rxFrames ≤ ax.rxNext) y)
      x := by
  let started (rest : List SlotIndex) : Owned := fun ax _ call buffers ↦
    ax.medium ≠ 0 ∧ ax.rxAsyncStarted = true ∧ ax.rxConsume = slotOf 0 ∧ ¬ call.due ∧
      ax.rxFrames ≤ ax.rxNext ∧ ∀ index, index ∉ rest → buffers index = some index
  simp only [axRxStartAsync, Solo, safe_bind, safe_pure]
  refine ringing_note (ringing_env _ _ _ _ _) hx fun y hinv hy ↦ ⟨trivial, hinv, ?_⟩
  refine solo_store (ringing_env [] 0 0 0 fun ax _ call _ ↦ Stopped ax call) hy
    fun y hinv hy ↦ ⟨hinv, ?_⟩
  have hconsume : Ringing maxLength [] 0 0 0
      (fun ax _ call _ ↦ Stopped ax call ∧ ax.rxConsume = slotOf 0)
      { y with mem := y.mem.setAx fun ax ↦ { ax with rxConsume := 0 } } :=
    hy.owned_update rfl fun h ↦ ⟨⟨h.link_up, h.stopped, h.not_due, h.drained⟩, rfl⟩
  refine solo_perform (ringing_env _ _ _ _ _) hconsume fun y hinv hy ↦
    ⟨trivial, fun answer z hreply ↦ ?_⟩
  cases hreply
  refine ⟨hinv, solo_store (ringing_env [] 0 0 0 fun ax _ call _ ↦
    Stopped ax call ∧ ax.rxConsume = slotOf 0) hy fun y hinv hy ↦ ⟨hinv, ?_⟩⟩
  have hstarted : Ringing maxLength [] 0 0 0 (started axRxSlots)
      { y with mem := y.mem.setAx fun ax ↦ { ax with rxAsyncStarted := true } } := by
    refine hy.owned_update rfl fun h ↦ ⟨h.1.link_up, rfl, h.2, h.1.not_due, h.1.drained, ?_⟩
    intro index hindex
    exact absurd ((by decide : ∀ index, index ∈ axRxSlots) index) hindex
  refine safe_mono (solo_each (fun rest ↦ Ringing maxLength [] 0 0 0 (started rest)) hstarted
    fun index rest y hy ↦ ?_) fun _ y hy ↦ ?_
  · refine solo_store (ringing_env _ _ _ _ _) hy fun y hinv hy ↦ ⟨hinv, fun hrefused ↦ ?_⟩
    obtain ⟨hwindow, hmedium, hstart, hnext, hdue, hdrained, hbuffers⟩ := hy hrefused
    refine ⟨⟨hwindow.consumed_eq, hwindow.submitted_eq, hwindow.le,
      fun id _ hhigh ↦ absurd hhigh (Nat.not_lt_zero id), hwindow.frames, hwindow.due⟩,
      hmedium, hstart, hnext, hdue, hdrained, fun other hother ↦ ?_⟩
    dsimp only
    by_cases hsame : other = index
    · rw [hsame, DriverState.setSlot_self]
    · rw [DriverState.setSlot_of_ne _ hsame]
      exact hbuffers other fun h ↦ hother ((List.mem_cons.mp h).resolve_left hsame)
  · have hrunning : Ringing maxLength [] 0 0 0 (fun ax _ call buffers ↦
        Running 0 ax buffers ∧ ¬ call.due ∧ ax.rxFrames ≤ ax.rxNext) y :=
      hy.owned_mono fun ax gRx call buffers howned ↦ by
        obtain ⟨hmedium, hstart, hnext, hdue, hdrained, hbuffers⟩ := howned
        exact ⟨⟨hmedium, hstart, hnext, fun index ↦ hbuffers index List.not_mem_nil⟩, hdue,
          hdrained⟩
    refine safe_mono (ringing_axRxSubmitAll 3 rfl (fun ax gRx call buffers h ↦ h.1.buffers_eq)
      hrunning) fun rc y hy ↦ ?_
    exact ringing_note ((ringing_env _ _ _ _ _).and (rc_env rc)) ⟨hy.2, hy.1⟩
      fun y hinv hy ↦ ⟨trivial, hinv, hy.2, hy.1⟩

/-- A call that is due has consumed the transfer it found complete. -/
def Served (call : CallRecord) (consumed : ℕ) : Prop :=
  call.due → call.consumedAt < consumed

/-- The ring runs, and the snapshot still holds the frames in `buffered`. -/
def runningOwned (maxLength : ℤ) (next : ℕ) (buffered : List (List UInt8)) : Owned :=
  fun ax gRx call buffers ↦ Running next ax buffers ∧
    bufferedFrames gRx maxLength ax = buffered ∧ Served call next

/-- The ring runs and the snapshot holds nothing. -/
def drainedOwned (next : ℕ) : Owned :=
  fun ax _ _ buffers ↦ Running next ax buffers ∧ ax.rxFrames ≤ ax.rxNext

/-- The oldest transfer of the window is consumed, and its frames are ahead. -/
theorem Window.consume {slots : SlotIndex → AxRxAsyncSlot} {t : Transfers} {call : CallRecord}
    {result : Completion} (hx : Window maxLength [] consumed consumed submitted slots t call)
    (hresult : t.completions consumed = some result) :
    Window maxLength (decoded maxLength result) (consumed + 1) (consumed + 1) submitted slots
        (t.consume (slotOf consumed)) call ∧ Served call (consumed + 1) := by
  have hlength : (t.consume (slotOf consumed)).consumed.length = consumed + 1 := by
    simp only [Transfers.consume, List.length_append, List.length_singleton, hx.consumed_eq]
  have hserved : Served call (consumed + 1) := fun hdue ↦ Nat.lt_succ_of_le (hx.due hdue).1
  have hframes : (t.consume (slotOf consumed)).returnedFrames ++ decoded maxLength result =
      decodedTo maxLength t.completions (consumed + 1) := by
    have hbefore := hx.frames
    rw [List.append_nil] at hbefore
    rw [decodedTo_succ, hresult, ← hbefore]
    rfl
  refine ⟨⟨hlength, hx.submitted_eq, le_rfl, fun id hlow hhigh ↦ ?_, hframes,
    fun hdue ↦ ⟨(hserved hdue).le, .inl (hserved hdue)⟩⟩, hserved⟩
  cases hx.held id (by omega) hhigh with
  | flying hbuffer hflight hstate => exact .flying hbuffer hflight hstate
  | waiting other hw =>
    exact .waiting other ⟨hw.buffer, hw.state, hw.completion, hw.held, hw.ret, hw.actual, hw.data⟩

theorem slotOf_add_three (id : ℕ) : slotOf (id + 3) = slotOf id := by
  rw [slotOf_eq_iff]
  omega

/-- The loaded snapshot holds exactly what the transfer decodes to. -/
theorem bufferedFrames_load {gRx : Memory} {result : Completion} (ax : Ax88179)
    (hgood : ¬ (result.ret < 0 ∨ result.actual < 4 ∨ result.actual > rxBufferSize))
    (hagree : ∀ index < result.actual, gRx index = result.data index) :
    bufferedFrames gRx maxLength (axRxLoadAggregate gRx result.actual ax).1 =
      decoded maxLength result := by
  have hactual : 4 ≤ result.actual := by omega
  unfold decoded
  rw [if_neg hgood]
  exact bufferedFrames_congr hagree (axRxLoadAggregate_congr hagree hactual)
    (axRxLoadAggregate_inBounds gRx hactual ax) maxLength

/-- What `ax_rx_take_completed` leaves: it consumed at most one transfer, a snapshot that it did
not load holds nothing, and a call that is due has been served. -/
def Taken (maxLength : ℤ) (loaded : ℤ) (y : UhsMachine) : Prop :=
  ∃ next buffered, Ringing maxLength buffered next next (next + 3)
    (fun ax gRx call buffers ↦ runningOwned maxLength next buffered ax gRx call buffers ∧
      (loaded ≤ 0 → buffered = [] ∧ ax.rxFrames ≤ ax.rxNext)) y

/-- The consumed slot is submitted again as the last transfer of the window. -/
theorem ringing_rearm {next : ℕ} {owned : Owned}
    (hbuffer : ∀ ax gRx call buffers, owned ax gRx call buffers → ∀ index,
      buffers index = some index)
    (hx : Ringing maxLength ahead (next + 1) (next + 1) (next + 3) owned x) :
    Solo (ring allowed) (Delivering maxLength) duePre (axRxSubmitSlot (slotOf next))
      (fun _ ↦ Ringing maxLength ahead (next + 1) (next + 1) (next + 1 + 3) owned) x := by
  rw [← slotOf_add_three]
  refine safe_mono (ringing_axRxSubmitSlot (by omega)
    (fun ax gRx call buffers h ↦ hbuffer ax gRx call buffers h _) hx) fun rc y hy ↦ hy.2

/-- The cursor stands behind the consumed transfer, and its frames are not loaded. -/
def consumedOwned (next : ℕ) : Owned :=
  fun ax _ call buffers ↦ Running next ax buffers ∧ ax.rxFrames ≤ ax.rxNext ∧ Served call next

/-- The consumed transfer stands in `g_rx`. -/
def copiedOwned (next : ℕ) (result : Completion) : Owned :=
  fun ax gRx call buffers ↦ consumedOwned next ax gRx call buffers ∧
    ∀ index < result.actual, gRx index = result.data index

/-- The consumed slot is not in the window and may become idle. -/
theorem Ringing.idle {next : ℕ} {owned : Owned}
    (hx : Ringing maxLength ahead (next + 1) (next + 1) (next + 3) owned x) :
    Ringing maxLength ahead (next + 1) (next + 1) (next + 3) owned { x with
      mem := x.mem.setSlot (slotOf next) fun slot ↦ { slot with state := .idle } } := by
  rw [← slotOf_add_three next]
  exact hx.setSlot (by omega) fun _ ↦ rfl

/-- A bad transfer has no frames; its slot is submitted again. -/
theorem ringing_takeBad {next : ℕ} {result : Completion} (code : ℤ)
    (hbad : result.ret < 0 ∨ result.actual < 4 ∨ result.actual > rxBufferSize)
    (hx : Ringing maxLength (decoded maxLength result) (next + 1) (next + 1) (next + 3)
      (consumedOwned (next + 1)) x) :
    Solo (ring allowed) (Delivering maxLength) duePre (do
        store fun driver ↦ driver.setSlot (slotOf next) fun slot ↦ { slot with state := .idle }
        let _ ← axRxSubmitSlot (slotOf next)
        pure code) (Taken maxLength) x := by
  simp only [Solo, safe_bind, safe_pure]
  refine solo_store (ringing_env _ _ _ _ _) hx fun y hinv hy ↦ ⟨hinv, ?_⟩
  refine safe_mono (ringing_rearm (fun _ _ _ _ howned ↦ howned.1.buffers_eq) hy.idle)
    fun _ y hy ↦ ?_
  have hnone : decoded maxLength result = [] := if_pos hbad
  rw [hnone] at hy
  refine ⟨next + 1, [], hy.owned_mono fun ax gRx call buffers h ↦ ?_⟩
  exact ⟨⟨h.1, bufferedFrames_of_le h.2.1, h.2.2⟩, fun _ ↦ ⟨rfl, h.2.1⟩⟩

/-- The aggregate in `g_rx` is loaded, and the snapshot holds what the transfer decodes to. -/
theorem ringing_loadAggregate {next : ℕ} {result : Completion}
    (hgood : ¬ (result.ret < 0 ∨ result.actual < 4 ∨ result.actual > rxBufferSize))
    (hx : Ringing maxLength (decoded maxLength result) next next (next + 3)
      (copiedOwned next result) x) :
    Solo (ring allowed) (Delivering maxLength) duePre (do
        let loaded ← access fun driver ↦
          let out := axRxLoadAggregate driver.gRx result.actual driver.ax
          (out.2, driver.setAx fun _ ↦ out.1)
        note (.loaded loaded.2)
        pure loaded.1) (Taken maxLength) x := by
  simp only [Solo, safe_bind, safe_pure]
  refine solo_access (ringing_env _ _ _ _ _) hx fun y hinv hy ↦ ⟨hinv, ?_⟩
  have hloaded : Ringing maxLength (decoded maxLength result) next next (next + 3)
      (fun ax gRx call buffers ↦
        runningOwned maxLength next (decoded maxLength result) ax gRx call buffers ∧
          ((axRxLoadAggregate y.mem.gRx result.actual y.mem.ax).2.1 ≤ 0 →
            decoded maxLength result = [] ∧ ax.rxFrames ≤ ax.rxNext))
      { y with mem := y.mem.setAx fun _ ↦
        (axRxLoadAggregate y.mem.gRx result.actual y.mem.ax).1 } := by
    refine hy.owned_update rfl fun hpost ↦ ?_
    obtain ⟨⟨hrunning, hdrained, hserved⟩, hagree⟩ := hpost
    obtain ⟨hmedium, hstarted, hnext⟩ :=
      axRxLoadAggregate_keeps y.mem.gRx result.actual y.mem.ax
    have hframes : bufferedFrames y.mem.gRx maxLength
        (axRxLoadAggregate y.mem.gRx result.actual y.mem.ax).1 = decoded maxLength result :=
      bufferedFrames_load y.mem.ax hgood hagree
    refine ⟨⟨⟨?_, ?_, ?_, hrunning.buffers_eq⟩, hframes, hserved⟩, fun hle ↦ ?_⟩
    · exact hmedium ▸ hrunning.link_up
    · exact hstarted.trans hrunning.started
    · exact hnext.trans hrunning.consume
    · have hdrained := axRxLoadAggregate_drained _ _ _ hle
      exact ⟨hframes.symm.trans (bufferedFrames_of_le hdrained), hdrained⟩
  exact ringing_note (ringing_env _ _ _ _ _) hloaded fun y hinv hy ↦ ⟨trivial, hinv, next, _, hy⟩

/-- A good transfer is copied to `g_rx` before its slot is submitted again, and then loaded. -/
theorem ringing_takeGood {next : ℕ} {result : Completion}
    (hgood : ¬ (result.ret < 0 ∨ result.actual < 4 ∨ result.actual > rxBufferSize))
    (hx : (Ringing maxLength (decoded maxLength result) (next + 1) (next + 1) (next + 3)
      (consumedOwned (next + 1)) x ∧
        NextSlot (next + 3) (fun _ buffer ↦ buffer = result.data) x) ∧ x.world.refused = false) :
    Solo (ring allowed) (Delivering maxLength) duePre (do
        let copied ← perform (.memcpyBuffer (slotOf next) result.actual)
        store fun driver ↦ { driver with gRx := driver.gRx.copy copied.bytes result.actual }
        store fun driver ↦ driver.setSlot (slotOf next) fun slot ↦ { slot with state := .idle }
        let _ ← axRxSubmitSlot (slotOf next)
        let loaded ← access fun driver ↦
          let out := axRxLoadAggregate driver.gRx result.actual driver.ax
          (out.2, driver.setAx fun _ ↦ out.1)
        note (.loaded loaded.2)
        pure loaded.1) (Taken maxLength) x := by
  have hroom : next + 3 < next + 1 + 3 := by omega
  refine (safe_bind _ _ _ _).mpr (solo_perform
    ((nextSlot_env _ _ _ _ _ hroom fun _ buffer ↦ buffer = result.data).and live_env) hx
      fun y hinv hy ↦ ⟨trivial, fun answer z hreply ↦ ?_⟩)
  obtain ⟨rfl, hslice⟩ := reply_memcpyBuffer hreply
  have hbytes : ∀ index < result.actual, answer.bytes index = result.data index := by
    have hbuffer := hy.1.2 hy.2
    rw [slotOf_add_three] at hbuffer
    rw [hbuffer] at hslice
    exact fun index ↦ Memory.eq_of_slice hslice
  refine ⟨hinv, (safe_bind _ _ _ _).mpr
    (solo_store (ringing_env _ _ _ _ _) hy.1.1 fun y hinv hy ↦ ⟨hinv, ?_⟩)⟩
  have hcopied : Ringing maxLength (decoded maxLength result) (next + 1) (next + 1) (next + 3)
      (copiedOwned (next + 1) result) { y with
        mem := { y.mem with gRx := y.mem.gRx.copy answer.bytes result.actual } } :=
    hy.owned_update rfl fun h ↦ ⟨h, fun index hlt ↦
      (Memory.copy_of_lt hlt).trans (hbytes index hlt)⟩
  refine (safe_bind _ _ _ _).mpr
    (solo_store (ringing_env _ _ _ _ _) hcopied fun y hinv hy ↦ ⟨hinv, ?_⟩)
  refine (safe_bind _ _ _ _).mpr
    (safe_mono (ringing_rearm (fun _ _ _ _ howned ↦ howned.1.1.buffers_eq) hy.idle) fun _ y hy ↦ ?_)
  exact ringing_loadAggregate hgood hy

/-- `ax_rx_take_completed` from the moment it finds its slot done. -/
theorem ringing_takeDone {next : ℕ} {result : Completion}
    (hx : (Ringing maxLength [] next next (next + 3) (drainedOwned next) x ∧
      (x.world.refused = false → Waiting next result x.mem.gRxSlots x.world.toTransfers)) ∧
        x.world.refused = false) :
    Solo (ring allowed) (Delivering maxLength) duePre (axRxTakeDone (slotOf next))
      (Taken maxLength) x := by
  refine (safe_bind _ _ _ _).mpr
    (solo_load ((waiting_env _ _ _ _ _ result).and live_env) hx fun y _ hy ↦ ?_)
  rw [(hy.1.2 hy.2).ret]
  refine (safe_bind _ _ _ _).mpr
    (solo_load ((waiting_env _ _ _ _ _ result).and live_env) hy fun y _ hy ↦ ?_)
  rw [(hy.1.2 hy.2).actual]
  refine (safe_bind _ _ _ _).mpr (ringing_note ((waiting_env _ _ _ _ _ result).and live_env) hy
    fun y hinv hy ↦ ⟨trivial, fun hrefused ↦ ?_, ?_⟩)
  · have hwaiting := hy.1.2 hrefused
    have hconsumed := (hy.1.1 hrefused).1.consumed_eq
    exact (hinv hrefused).consume (by rw [hconsumed]; exact hwaiting.completion)
      (by rw [hconsumed]; exact hwaiting.held)
  have hconsumed : Ringing maxLength (decoded maxLength result) (next + 1) (next + 1) (next + 3)
      (fun ax _ call buffers ↦ Running next ax buffers ∧ ax.rxFrames ≤ ax.rxNext ∧
        Served call (next + 1))
      { y with world := y.world.record y.mem (.consume (slotOf next)) } := by
    intro hrefused
    obtain ⟨hwindow, hrunning, hdrained⟩ := hy.1.1 hrefused
    obtain ⟨hwindow', hserved⟩ := hwindow.consume (hy.1.2 hrefused).completion
    exact ⟨hwindow', hrunning, hdrained, hserved⟩
  have hdata : NextSlot (next + 3) (fun _ buffer ↦ buffer = result.data)
      { y with world := y.world.record y.mem (.consume (slotOf next)) } := by
    intro hrefused
    rw [slotOf_add_three]
    exact (hy.1.2 hrefused).data
  refine (safe_bind _ _ _ _).mpr (solo_store
    ((nextSlot_env _ _ _ _ _ (by omega) _).and live_env) ⟨⟨hconsumed, hdata⟩, hy.2⟩
      fun y hinv hy ↦ ⟨hinv, ?_⟩)
  have hadvance : Ringing maxLength (decoded maxLength result) (next + 1) (next + 1) (next + 3)
      (consumedOwned (next + 1)) { y with mem := y.mem.setAx fun ax ↦
        { ax with rxConsume := slotOf next + 1, lastBulk := result.ret, lastBulkUs := 0 } } :=
    hy.1.1.owned_update rfl fun howned ↦ by
      obtain ⟨hrunning, hdrained, hserved⟩ := howned
      exact ⟨⟨hrunning.link_up, hrunning.started, (slotOf_succ next).symm, hrunning.buffers_eq⟩,
        hdrained, hserved⟩
  split
  · rename_i hbad
    exact ringing_takeBad _ hbad hadvance
  · rename_i hgood
    exact ringing_takeGood hgood ⟨⟨hadvance, hy.1.2⟩, hy.2⟩

theorem ringing_axRxTakeCompleted {next : ℕ}
    (hx : Ringing maxLength [] next next (next + 3) (drainedOwned next) x) :
    Solo (ring allowed) (Delivering maxLength) duePre axRxTakeCompleted
      (Taken maxLength) x := by
  by_cases hvoid : Void x
  · exact safe_mono (solo_void hvoid) fun _ y hy ↦ ⟨0, [], hy.absurd⟩
  have hlive : x.world.refused = false := Bool.of_not_eq_true hvoid
  simp only [axRxTakeCompleted, Solo, safe_bind, safe_ite, safe_pure]
  refine solo_load ((ringing_env _ _ _ _ _).and live_env) ⟨hx, hlive⟩ fun y _ hy ↦ ?_
  rw [(hy.1 hy.2).2.1.consume]
  refine solo_load ((ringing_env _ _ _ _ _).and live_env) hy fun y hinv hy ↦ ?_
  have hwindow := (hy.1 hy.2).1
  have hheld := hwindow.held next le_rfl (by omega)
  split
  · -- the transfer is still in flight, so a call that is due was served before
    rename_i hnot
    refine ⟨next, [], fun hrefused ↦ ⟨hwindow, ⟨(hy.1 hy.2).2.1, ?_, fun hdue ↦ ?_⟩, ?_⟩⟩
    · exact bufferedFrames_of_le (hy.1 hy.2).2.2
    · refine (hwindow.due hdue).2.resolve_right fun hpost ↦ ?_
      obtain ⟨result, hresult⟩ := hpost
      cases hheld with
      | flying hbuffer hflight hstate =>
        rw [((hinv hy.2).flight _ hflight).2.2.2] at hresult
        cases hresult
      | waiting other hw => exact hnot hw.state
    · exact fun _ ↦ ⟨rfl, (hy.1 hy.2).2.2⟩
  · rename_i hdone
    obtain ⟨result, hwaiting⟩ : ∃ result,
        Waiting next result y.mem.gRxSlots y.world.toTransfers := by
      cases hheld with
      | flying hbuffer hflight hstate =>
        rw [hstate] at hdone
        exact absurd (by decide) hdone
      | waiting result hw => exact ⟨result, hw⟩
    exact ringing_takeDone ⟨⟨hy.1, fun _ ↦ hwaiting⟩, hy.2⟩

theorem Taken.drained {loaded : ℤ} {y : UhsMachine} (hy : Taken maxLength loaded y)
    (hloaded : loaded ≤ 0) :
    ∃ next, Ringing maxLength [] next next (next + 3) (drainedOwned next) y := by
  obtain ⟨next, buffered, hringing⟩ := hy
  refine ⟨next, fun hrefused ↦ ?_⟩
  obtain ⟨hwindow, hrunning, hnone⟩ := hringing hrefused
  obtain ⟨rfl, hdrained⟩ := hnone hloaded
  exact ⟨hwindow, hrunning.1, hdrained⟩

theorem ringing_ax88179ReceiveBuffered (owned' : Received → Owned)
    (h : ∀ ax gRx call buffers, owned ax gRx call buffers →
      owned' (receiveBufferedImpl gRx maxLength ax).2.1 (receiveBufferedImpl gRx maxLength ax).1
        gRx call buffers)
    (hx : Ringing maxLength ahead accounted consumed submitted owned x) :
    Solo (ring allowed) (Delivering maxLength) duePre (ax88179ReceiveBuffered maxLength)
      (fun result ↦ Ringing maxLength ahead accounted consumed submitted (owned' result)) x := by
  simp only [ax88179ReceiveBuffered, Solo, safe_bind, safe_pure]
  refine solo_access (ringing_env _ _ _ _ _) hx fun y hinv hy ↦ ⟨hinv, ?_⟩
  have hreceived : Ringing maxLength ahead accounted consumed submitted
      (owned' (receiveBufferedImpl y.mem.gRx maxLength y.mem.ax).2.1)
      { y with mem := y.mem.setAx fun _ ↦
        (receiveBufferedImpl y.mem.gRx maxLength y.mem.ax).1 } :=
    hy.owned_update rfl (h _ _ _ _)
  exact ringing_note (ringing_env _ _ _ _ _) hreceived fun y hinv hy ↦ ⟨trivial, hinv, hy⟩

/-- A call is about to hand `result` to its caller while the ring runs. -/
def Handed (maxLength : ℤ) (result : Received) (y : UhsMachine) : Prop :=
  ∃ next buffered, Ringing maxLength (result.frames ++ buffered) next next (next + 3)
    (runningOwned maxLength next buffered) y

theorem handed_env (result : Received) :
    EnvStable (ring allowed) (Delivering maxLength) (Handed maxLength result) := by
  intro event x y hinv ⟨next, buffered, hx⟩ henv
  exact ⟨next, buffered, ringing_env _ _ _ _ _ event x y hinv hx henv⟩

/-- The parser's step as a step of the running ring. -/
theorem Running.receive {next : ℕ} {ax : Ax88179} {buffers : SlotIndex → Option SlotIndex}
    (hx : Running next ax buffers) (gRx : Memory) :
    Running next (receiveBufferedImpl gRx maxLength ax).1 buffers := by
  obtain ⟨hmedium, hstarted, hconsume⟩ := receiveBufferedImpl_keeps gRx maxLength ax
  exact ⟨hmedium ▸ hx.link_up, hstarted.trans hx.started, hconsume.trans hx.consume, hx.buffers_eq⟩

theorem ringing_ax88179ReceiveNext (hmax : 14 ≤ maxLength) (timeoutUs : ℤ) {next : ℕ}
    (hx : Ringing maxLength [] next next (next + 3) (drainedOwned next) x) :
    Solo (ring allowed) (Delivering maxLength) duePre (ax88179ReceiveNext maxLength timeoutUs)
      (Handed maxLength) x := by
  have hfinish : ∀ (loaded : ℤ) (y : UhsMachine), Taken maxLength loaded y →
      Solo (ring allowed) (Delivering maxLength) duePre
        (if loaded ≤ 0 then pure ⟨loaded, []⟩ else ax88179ReceiveBuffered maxLength)
          (Handed maxLength) y := by
    rintro loaded y ⟨next, buffered, hringing⟩
    split
    · rename_i hle
      refine ⟨next, buffered, ?_⟩
      have hframes : (⟨loaded, []⟩ : Received).frames = [] := if_neg (not_lt.mpr hle)
      rw [hframes, List.nil_append]
      exact hringing.owned_mono fun _ _ _ _ h ↦ h.1
    · let received (result : Received) : Owned := fun ax gRx call buffers ↦
        Running next ax buffers ∧ Served call next ∧
          buffered = result.frames ++ bufferedFrames gRx maxLength ax
      refine safe_mono (ringing_ax88179ReceiveBuffered received
        (fun ax gRx call buffers h ↦ ⟨h.1.1.receive gRx, h.1.2.2, ?_⟩) hringing)
        fun result z hz ↦ ?_
      · exact h.1.2.1.symm.trans (receiveBufferedImpl_buffered hmax gRx ax).1
      · refine ⟨next, bufferedFrames z.mem.gRx maxLength z.mem.ax, fun hrefused ↦ ?_⟩
        obtain ⟨hwindow, hrunning, hserved, hbuffered⟩ := hz hrefused
        rw [← hbuffered]
        exact ⟨hwindow, hrunning, rfl, hserved⟩
  simp only [ax88179ReceiveNext, Solo, safe_bind]
  refine safe_mono (ringing_axRxTakeCompleted hx) fun first y hy ↦ ?_
  split
  · rename_i hwait
    obtain ⟨next, hdrained⟩ := hy.drained (by omega)
    rw [safe_bind]
    refine solo_perform (ringing_env _ _ _ _ _) hdrained fun y hinv hy ↦
      ⟨trivial, fun answer z hreply ↦ ?_⟩
    obtain ⟨event, rfl⟩ := reply_osWaitEventWithTimeout hreply
    refine ⟨hinv, ?_⟩
    rw [safe_bind]
    exact safe_mono (ringing_axRxTakeCompleted hy) fun loaded y hy ↦ hfinish loaded y hy
  · exact hfinish first y hy

/-- A call is about to hand `result` to its caller. -/
def Returning (maxLength : ℤ) (result : Received) (y : UhsMachine) : Prop :=
  Handed maxLength result y ∨
    Ringing maxLength result.frames 0 0 0 (fun ax _ call _ ↦ Stopped ax call) y

theorem ringing_receive_running (timeoutUs : ℤ) (next : ℕ) (buffered : List (List UInt8))
    (hx : Ringing maxLength buffered next next (next + 3) (fun ax gRx call buffers ↦
      Running next ax buffers ∧ bufferedFrames gRx maxLength ax = buffered ∧
        (call.drained = true → (receiveBufferedImpl gRx maxLength ax).2.1.ret = 0)) x) :
    Solo (ring allowed) (Delivering maxLength) duePre (ax88179Receive maxLength timeoutUs)
      (Handed maxLength) x := by
  unfold ax88179Receive
  simp only [Solo, safe_bind, safe_ite, safe_pure]
  split
  · rename_i hshort
    refine ⟨next, buffered, fun hrefused ↦ ?_⟩
    obtain ⟨hwindow, hrunning, hbuffered, hdrained⟩ := hx hrefused
    refine ⟨hwindow, hrunning, hbuffered, fun hdue ↦ ?_⟩
    have hret := hdrained hdue.2.1
    unfold receiveBufferedImpl at hret
    rw [if_pos hshort] at hret
    have hne : (-1 : ℤ) ≠ 0 := by decide
    exact absurd hret hne
  rename_i hlong
  have hmax : 14 ≤ maxLength := not_lt.mp hlong
  refine solo_load (ringing_env _ _ _ _ _) hx fun y _ hy ↦ ?_
  split
  · rename_i hdown
    exact ⟨next, buffered, fun hrefused ↦ absurd hdown (hy hrefused).2.1.link_up⟩
  let received (result : Received) : Owned := fun ax gRx call buffers ↦
    Running next ax buffers ∧ buffered = result.frames ++ bufferedFrames gRx maxLength ax ∧
      (call.drained = true → result.ret = 0) ∧ (result.ret ≤ 0 → ax.rxFrames ≤ ax.rxNext)
  refine safe_mono (ringing_ax88179ReceiveBuffered received (fun ax gRx call buffers h ↦ ?_) hy)
    fun result y hy ↦ ?_
  · obtain ⟨hframes, hdrained⟩ := receiveBufferedImpl_buffered hmax gRx ax
    exact ⟨h.1.receive gRx, h.2.1.symm.trans hframes, h.2.2, hdrained⟩
  split
  · rename_i hret
    refine ⟨next, bufferedFrames y.mem.gRx maxLength y.mem.ax, fun hrefused ↦ ?_⟩
    obtain ⟨hwindow, hrunning, hframes, hdrained, -⟩ := hy hrefused
    rw [← hframes]
    exact ⟨hwindow, hrunning, rfl, fun hdue ↦ absurd (hdrained hdue.2.1) hret⟩
  rename_i hret
  have hzero : result.ret = 0 := not_not.mp hret
  have hempty : Ringing maxLength [] next next (next + 3) (drainedOwned next) y := by
    intro hrefused
    obtain ⟨hwindow, hrunning, hframes, -, hdrained⟩ := hy hrefused
    have hle := hdrained hzero.le
    have hnone : buffered = [] := by
      rw [hframes, bufferedFrames_of_le hle]
      unfold Received.frames
      rw [hzero, if_neg (lt_irrefl 0)]
      rfl
    rw [← hnone]
    exact ⟨hwindow, hrunning, hle⟩
  refine solo_load (ringing_env _ _ _ _ _) hempty fun y _ hy ↦ ?_
  split
  · exact ringing_ax88179ReceiveNext hmax timeoutUs hy
  · rename_i hstopped
    have hvoid : Void y := Bool.of_not_eq_false fun hrefused ↦
      hstopped (hy hrefused).2.1.started
    refine safe_mono (solo_void hvoid) fun rc y hy ↦ ?_
    split
    · exact ⟨0, [], hy.absurd⟩
    · exact safe_mono (solo_void hy) fun result z hz ↦ ⟨0, [], hz.absurd⟩

theorem ringing_receive_stopped (timeoutUs : ℤ)
    (hx : Ringing maxLength [] 0 0 0 (fun ax _ call _ ↦ Stopped ax call) x) :
    Solo (ring allowed) (Delivering maxLength) duePre (ax88179Receive maxLength timeoutUs)
      (Returning maxLength) x := by
  unfold ax88179Receive
  simp only [Solo, safe_bind, safe_ite, safe_pure]
  split
  · exact .inr hx
  rename_i hlong
  have hmax : 14 ≤ maxLength := not_lt.mp hlong
  refine solo_load (ringing_env _ _ _ _ _) hx fun y _ hy ↦ ?_
  split
  · exact .inr hy
  let received (result : Received) : Owned := fun ax _ call _ ↦ Stopped ax call ∧ result.ret = 0
  refine safe_mono (ringing_ax88179ReceiveBuffered received (fun ax gRx call buffers h ↦ ?_) hy)
    fun result y hy ↦ ?_
  · have hnothing : receiveBufferedImpl gRx maxLength ax = (ax, ⟨0, []⟩, []) := by
      rw [receiveBufferedImpl_eq hmax, if_neg (not_lt.mpr h.drained)]
    rw [hnothing]
    exact ⟨h, rfl⟩
  split
  · rename_i hret
    exact .inr fun hrefused ↦ absurd (hy hrefused).2.2 hret
  refine solo_load (ringing_env _ _ _ _ _) hy fun y _ hy ↦ ?_
  split
  · rename_i hstarted
    have hvoid : Void y := Bool.of_not_eq_false fun hrefused ↦ by
      rw [(hy hrefused).2.1.stopped] at hstarted
      cases hstarted
    exact safe_mono (solo_void hvoid) fun result z hz ↦ .inr hz.absurd
  refine safe_mono (ringing_axRxStartAsync (hy.owned_mono fun _ _ _ _ h ↦ h.1)) fun rc y hy ↦ ?_
  split
  · rename_i hrc
    exact .inr fun hrefused ↦ absurd (hy.1 hrefused) hrc
  · have hdrained : Ringing maxLength [] 0 0 (0 + 3) (drainedOwned 0) y :=
      hy.2.owned_mono fun _ _ _ _ h ↦ ⟨h.1, h.2.2⟩
    exact safe_mono (ringing_ax88179ReceiveNext hmax timeoutUs hdrained) fun _ _ h ↦ .inl h

/-- Between two calls the ring either runs or was never started. -/
def Resting (maxLength : ℤ) (x : UhsMachine) : Prop :=
  (∃ next buffered, Ringing maxLength buffered next next (next + 3)
    (fun ax gRx _ buffers ↦ Running next ax buffers ∧
      bufferedFrames gRx maxLength ax = buffered) x) ∨
  Ringing maxLength [] 0 0 0
    (fun ax _ _ _ ↦ ax.medium ≠ 0 ∧ ax.rxAsyncStarted = false ∧ ax.rxFrames ≤ ax.rxNext) x

theorem resting_env : EnvStable (ring allowed) (Delivering maxLength) (Resting maxLength) := by
  intro event x y hinv hx henv
  cases hx with
  | inl hrunning =>
    obtain ⟨next, buffered, hringing⟩ := hrunning
    exact .inl ⟨next, buffered, ringing_env _ _ _ _ _ event x y hinv hringing henv⟩
  | inr hstopped => exact .inr (ringing_env _ _ _ _ _ event x y hinv hstopped henv)

theorem returning_env (result : Received) :
    EnvStable (ring allowed) (Delivering maxLength) (Returning maxLength result) := by
  intro event x y hinv hx henv
  cases hx with
  | inl hhanded => exact .inl (handed_env result event x y hinv hhanded henv)
  | inr hstopped => exact .inr (ringing_env _ _ _ _ _ event x y hinv hstopped henv)

/-- The history of a call begins. -/
theorem Window.begin {slots : SlotIndex → AxRxAsyncSlot} {world : UhsWorld}
    (hx : Window maxLength ahead accounted consumed submitted slots world.toTransfers world.call)
    (driver : DriverState) (length : ℤ) :
    Window maxLength ahead accounted consumed submitted slots world.toTransfers
      (world.record driver (.receiveBegin length)).call := by
  refine ⟨hx.consumed_eq, hx.submitted_eq, hx.le, hx.held, hx.frames, fun hdue ↦ ?_⟩
  refine ⟨hx.consumed_eq.le, .inr (Option.isSome_iff_exists.mp ?_)⟩
  rw [← hx.consumed_eq]
  exact hdue.2.2

/-- The history of a call ends, and its frame has been returned. -/
theorem Window.return {slots : SlotIndex → AxRxAsyncSlot} {t : Transfers} {call : CallRecord}
    {result : Received} {buffered : List (List UInt8)}
    (hx : Window maxLength (result.frames ++ buffered) accounted consumed submitted slots t call) :
    Window maxLength buffered accounted consumed submitted slots
      { t with returned := t.returned ++ [result] } call := by
  have hframes : ({ t with returned := t.returned ++ [result] } : Transfers).returnedFrames =
      t.returnedFrames ++ result.frames := by
    simp only [Transfers.returnedFrames, List.flatMap_append, List.flatMap_singleton]
  refine ⟨hx.consumed_eq, hx.submitted_eq, hx.le, fun id hlow hhigh ↦ ?_, ?_, hx.due⟩
  · cases hx.held id hlow hhigh with
    | flying hbuffer hflight hstate => exact .flying hbuffer hflight hstate
    | waiting other hw =>
      exact .waiting other
        ⟨hw.buffer, hw.state, hw.completion, hw.held, hw.ret, hw.actual, hw.data⟩
  · rw [hframes, List.append_assoc]
    exact hx.frames

theorem Delivery.return {t : Transfers} {slots : SlotIndex → AxRxAsyncSlot} {call : CallRecord}
    {buffered : List (List UInt8)} (ht : Delivery maxLength t) {result : Received}
    (hx : Window maxLength buffered consumed consumed submitted slots
      { t with returned := t.returned ++ [result] } call) :
    Delivery maxLength { t with returned := t.returned ++ [result] } := by
  refine ⟨ht.consumed_eq, ht.consumed_le, ht.window, ht.flight, ht.nodup, ht.completed, ht.waiting,
    ?_⟩
  rw [hx.consumed_eq, ← hx.frames]
  exact List.prefix_append _ _

theorem ringing_return (result : Received) {y : UhsMachine} (hy : Returning maxLength result y) :
    Solo (ring allowed) (Delivering maxLength) duePre (note (.returned maxLength result))
      (fun _ ↦ Resting maxLength) y := by
  refine ringing_note (returning_env result) hy fun y hinv hy ↦ ?_
  obtain ⟨next, buffered, hringing⟩ | hstopped := hy
  · refine ⟨fun hrefused hdue ↦ ?_, fun hrefused ↦ ?_, .inl ⟨next, buffered, fun hrefused ↦ ?_⟩⟩
    · obtain ⟨hwindow, -, -, hserved⟩ := hringing hrefused
      rw [hwindow.consumed_eq]
      exact hserved hdue
    · exact (hinv hrefused).return (hringing hrefused).1.return
    · obtain ⟨hwindow, hrunning, hbuffered, -⟩ := hringing hrefused
      exact ⟨hwindow.return, hrunning, hbuffered⟩
  · have hnil : y.world.refused = false →
        Window maxLength (result.frames ++ []) 0 0 0 y.mem.gRxSlots y.world.toTransfers
          y.world.call := fun hrefused ↦ by
      rw [List.append_nil]
      exact (hstopped hrefused).1
    refine ⟨fun hrefused hdue ↦ ?_, fun hrefused ↦ ?_, .inr fun hrefused ↦ ?_⟩
    · exact absurd hdue (hstopped hrefused).2.not_due
    · exact (hinv hrefused).return (hnil hrefused).return
    · have howned := (hstopped hrefused).2
      exact ⟨(hnil hrefused).return, howned.link_up, howned.stopped, howned.drained⟩

theorem ringing_receiveCall {args : ReceiveArgs} (hargs : args.maxLength = maxLength)
    (hx : Resting maxLength x) :
    Solo (ring allowed) (Delivering maxLength) duePre (receiveCall args)
      (fun _ ↦ Resting maxLength) x := by
  simp only [receiveCall, Solo, safe_bind, hargs]
  refine ringing_note resting_env hx fun y hinv hy ↦ ⟨trivial, hinv, ?_⟩
  obtain ⟨next, buffered, hringing⟩ | hstopped := hy
  · refine safe_mono (ringing_receive_running args.timeoutUs next buffered fun hrefused ↦ ?_)
      fun result y hy ↦ ringing_return result (.inl hy)
    obtain ⟨hwindow, hrunning, hbuffered⟩ := hringing hrefused
    exact ⟨hwindow.begin _ _, hrunning, hbuffered, of_decide_eq_true⟩
  · refine safe_mono (ringing_receive_stopped args.timeoutUs fun hrefused ↦ ?_)
      fun result y hy ↦ ringing_return result hy
    obtain ⟨hwindow, hmedium, hoff, hdrained⟩ := hstopped hrefused
    refine ⟨hwindow.begin _ _, hmedium, hoff, fun hdue ↦ ?_, hdrained⟩
    have hring : y.mem.ax.rxAsyncStarted = true := hdue.1
    rw [hoff] at hring
    cases hring

end Operations

/-! ## Whole runs -/

/-- Every transfer is consumed once and in submission order, a completed one that is not consumed
yet still waits in its slot, and the returned frames are those of the consumed transfers, in order
and without a gap.  A call that finds the ring running, no buffered frame and the next transfer
complete consumes it before it returns. -/
structure InOrder (maxLength : ℤ) (c : RingConfig) : Prop where
  consumed : c.machine.world.consumed = (List.range c.machine.world.consumed.length).map some
  completed : ∀ id < c.machine.world.consumed.length,
    ∃ result, c.machine.world.completions id = some result
  waiting : ∀ id result, c.machine.world.completions id = some result →
    id < c.machine.world.consumed.length ∨ c.machine.world.held (slotOf id) = some id
  frames : c.machine.world.returnedFrames <+:
    decodedTo maxLength c.machine.world.completions c.machine.world.consumed.length
  served : ∀ length result next,
    c.threads () = some (.call (.note (.returned length result)) next) →
      c.machine.world.call.due →
        c.machine.world.call.consumedAt < c.machine.world.consumed.length

theorem ringing_verified {x : UhsMachine} (hinv : Delivering maxLength x)
    (hx : Resting maxLength x) :
    Verified (ring fun args ↦ args.maxLength = maxLength) x (Delivering maxLength)
      (fun _ ↦ Interference (ring fun args ↦ args.maxLength = maxLength) (Delivering maxLength))
      (fun _ ↦ duePre) (fun _ ↦ Resting maxLength) :=
  solo_verified resting_env delivering_env
    (fun _ _ _ hy hallowed ↦ ringing_receiveCall (of_decide_eq_true hallowed) hy) hinv hx

theorem delivery_empty (maxLength : ℤ) (buffers : SlotIndex → Memory) :
    Delivery maxLength { buffers := buffers } :=
  ⟨rfl, le_rfl, Nat.zero_le _, fun _ h ↦ (List.not_mem_nil h).elim, List.nodup_nil,
    fun id h ↦ absurd h (Nat.not_lt_zero id), fun _ _ h ↦ (nomatch h), List.prefix_rfl⟩

/-- The three-slot ring delivers every transfer once and in submission order, in every run in which
UHS accepts all submissions, whatever it completes and when. -/
theorem ring_inOrder {x : UhsMachine} (hx : FreshHandle x) (hlink : x.mem.ax.medium ≠ 0)
    {actions : List RingAction} {c : RingConfig}
    (hrun : (ring fun args ↦ args.maxLength = maxLength).run (System.start x) actions = some c)
    (haccepted : c.machine.world.refused = false) : InOrder maxLength c := by
  obtain ⟨buffers, hworld⟩ := hx.world_eq
  have hinv : Delivering maxLength x := fun _ ↦ by
    rw [hworld]
    exact delivery_empty maxLength buffers
  have hrest : Resting maxLength x := by
    refine .inr fun _ ↦ ⟨?_, hlink, hx.not_started, hx.no_buffered⟩
    rw [hworld]
    exact ⟨rfl, rfl, le_rfl, fun id _ h ↦ absurd h (Nat.not_lt_zero id), rfl, fun h ↦ nomatch h.1⟩
  have hverified := ringing_verified hinv hrest
  have ht := (hverified.sound hrun).invariant haccepted
  refine ⟨ht.consumed_eq, ht.completed, fun id result hresult ↦ ?_, ht.returned, ?_⟩
  · by_cases hid : id < c.machine.world.consumed.length
    · exact .inl hid
    · exact .inr (ht.waiting id result hresult (not_lt.mp hid)).2
  · exact fun length result next hcall ↦ hverified.call_pre hrun hcall haccepted

/-- `ax_rx_take_completed` consumes a transfer of one frame and loads it, and the call returns
it. -/
def scheduleFrame : List RingAction :=
  [.step (), .step (), .step (), .step (), .answer () {}, .step (),
    .answer () { bytes := smallAggregate }, .step (), .step ()] ++ scheduleAccepted ++
    [.step (), .answer () {}, .step (), .answer () {}] ++ scheduleReturn

/-- Slot 2 completes before slot 0, and the next call consumes slot 0 and returns its frame. -/
def outOfOrderRing : List RingAction :=
  let empty : Completion := ⟨0, 0, fun _ ↦ 0⟩
  scheduleArm ++ [.env (.complete (2, 2) empty), .env .signal,
    .env (.complete (0, 0) ⟨0, 32, smallAggregate⟩)] ++ scheduleEnter ⟨1514, 0⟩ ++ scheduleFrame

theorem ring_inOrder_outOfOrderRing :
    ∃ c, (ring fun args ↦ args.maxLength = 1514).run (System.start openHandle) outOfOrderRing =
        some c ∧
      c.machine.world.refused = false ∧ c.machine.world.consumed = [some 0] ∧
        c.machine.world.returnedFrames = [List.replicate 14 7] ∧ InOrder 1514 c := by
  have hrun : ((ring fun args ↦ args.maxLength = 1514).run (System.start openHandle)
      outOfOrderRing).map (fun c ↦ (c.machine.world.refused, c.machine.world.consumed,
        c.machine.world.returnedFrames)) = some (false, [some 0], [List.replicate 14 7]) := rfl
  obtain ⟨c, hc, hresult⟩ := Option.map_eq_some_iff.mp hrun
  obtain ⟨haccepted, hrest⟩ := Prod.mk.inj hresult
  obtain ⟨hconsumed, hreturned⟩ := Prod.mk.inj hrest
  have hlink : openHandle.mem.ax.medium ≠ 0 := by decide
  exact ⟨c, hc, haccepted, hconsumed, hreturned,
    ring_inOrder freshHandle_openHandle hlink hc haccepted⟩

end Ax88179Aroma.Driver
