import Ax88179Aroma.Driver.Delivery

/-!
# Assertions of the receiving thread

`Ringing` ties the window of transfers to the state that only the receiving thread changes.  It is
kept by every completion that UHS can make, and by the single steps of the ring's operations.
-/

namespace Ax88179Aroma.Driver

open Effect Program

variable {allowed : ReceiveArgs → Bool} {maxLength : ℤ}

/-! ## Assertions -/

/-- The invariant of the transfers, void from the first refused submission on. -/
def Delivering (maxLength : ℤ) (x : UhsMachine) : Prop :=
  x.world.refused = false → Delivery maxLength x.world.toTransfers

/-- A property of the state that only the receiving thread changes: the handle, the snapshot, the
record of the call and the buffers that the slots point to. -/
abbrev Owned := Ax88179 → Memory → CallRecord → (SlotIndex → Option SlotIndex) → Prop

def Owned.holds (owned : Owned) (x : UhsMachine) : Prop :=
  owned x.mem.ax x.mem.gRx x.world.call fun index ↦ (x.mem.gRxSlots index).buffer

/-- The assertion of the receiving thread. -/
def Ringing (maxLength : ℤ) (ahead : List (List UInt8)) (accounted consumed submitted : ℕ)
    (owned : Owned) (x : UhsMachine) : Prop :=
  x.world.refused = false →
    Window maxLength ahead accounted consumed submitted x.mem.gRxSlots x.world.toTransfers
      x.world.call ∧ owned.holds x

/-- A submission was refused, so nothing is claimed any more. -/
def Void (x : UhsMachine) : Prop := x.world.refused = true

theorem Void.absurd {x : UhsMachine} {claim : Prop} (hx : Void x)
    (hrefused : x.world.refused = false) : claim := by
  rw [hx] at hrefused
  cases hrefused

/-- No reply takes a refusal back. -/
theorem Void.reply {x y : UhsMachine} {request : UhsCall} {answer : UhsReply} (hx : Void x)
    (hreply : (ring allowed).reply () request answer x = some y) : Void y := by
  cases request with
  | submitBulkRequestAsync index =>
    cases hreply
    unfold Void UhsWorld.submit
    split
    · exact hx
    · rfl
  | memcpyBuffer index count =>
    obtain ⟨rfl, -⟩ := reply_memcpyBuffer hreply
    exact hx
  | osWaitEventWithTimeout timeoutUs =>
    obtain ⟨event, rfl⟩ := reply_osWaitEventWithTimeout hreply
    exact hx
  | note event =>
    cases hreply
    cases event <;> exact hx
  | _ =>
    cases hreply
    exact hx

/-- What is known about the slot of the next submission and about its buffer. -/
def NextSlot (submitted : ℕ) (known : AxRxAsyncSlot → Memory → Prop) (x : UhsMachine) : Prop :=
  x.world.refused = false →
    known (x.mem.gRxSlots (slotOf submitted)) (x.world.buffers (slotOf submitted))

/-- When a call returns that was due, the transfer it found complete has been consumed. -/
def duePre : UhsCall → UhsMachine → Prop
  | .note (.returned _ _), x => x.world.refused = false → x.world.call.due →
      x.world.call.consumedAt < x.world.consumed.length
  | _, _ => True

theorem delivering_env : EnvStable (ring allowed) (fun _ ↦ True) (Delivering maxLength) := by
  intro event x y _ hx henv
  obtain ⟨transfer, result, -, hmem, rfl⟩ | ⟨-, rfl⟩ := uhsEnv_cases henv
  · exact fun hrefused ↦ (hx hrefused).complete hmem result
  · exact hx

theorem void_env (maxLength : ℤ) : EnvStable (ring allowed) (Delivering maxLength) Void := by
  intro event x y _ hx henv
  obtain ⟨transfer, result, -, -, rfl⟩ | ⟨-, rfl⟩ := uhsEnv_cases henv
  · exact hx
  · exact hx

/-- After a refusal every program is safe. -/
theorem solo_void {α : Type} {program : DriverM α} {x : UhsMachine} (hx : Void x) :
    Solo (ring allowed) (Delivering maxLength) duePre program (fun _ ↦ Void) x := by
  induction program generalizing x with
  | done value => exact hx
  | rmw update next ih =>
    exact safe_rmw hx (void_env maxLength).stable fun y hy _ ↦
      ⟨guarantees_solo hy.absurd, ih _ hy⟩
  | call request next ih =>
    refine safe_call hx (void_env maxLength).stable fun y hy _ ↦ ⟨?_, fun answer z hreply ↦ ?_⟩
    · cases request with
      | note event =>
        cases event with
        | returned maxLength result => exact fun hrefused ↦ hy.absurd hrefused
        | _ => trivial
      | _ => trivial
    · have hz : Void z := hy.reply hreply
      exact ⟨guarantees_solo hz.absurd, ih answer hz⟩
  | diverge => trivial

theorem live_env : EnvStable (ring allowed) (Delivering maxLength)
    fun x ↦ x.world.refused = false := by
  intro event x y _ hx henv
  obtain ⟨transfer, result, -, -, rfl⟩ | ⟨-, rfl⟩ := uhsEnv_cases henv
  · exact hx
  · exact hx

theorem rc_env (rc : ℤ) : EnvStable (ring allowed) (Delivering maxLength)
    fun x ↦ x.world.refused = false → rc = 0 := by
  intro event x y _ hx henv
  obtain ⟨transfer, result, -, -, rfl⟩ | ⟨-, rfl⟩ := uhsEnv_cases henv
  · exact hx
  · exact hx

theorem Owned.env {owned : Owned} {transfer : ℕ × SlotIndex} {result : Completion}
    {x : UhsMachine} (hx : owned.holds x) :
    owned.holds {
      mem := axRxAsyncCallback transfer.2 transfer.2 result.ret result.actual x.mem
      world := x.world.complete transfer result } := by
  unfold Owned.holds
  simp only [axRxAsyncCallback_ax, axRxAsyncCallback_gRx, axRxAsyncCallback_buffer]
  exact hx

section Env

variable (ahead : List (List UInt8)) (accounted consumed submitted : ℕ)
  (owned : Owned)

theorem ringing_env :
    EnvStable (ring allowed) (Delivering maxLength)
      (Ringing maxLength ahead accounted consumed submitted owned) := by
  intro event x y hinv hx henv
  obtain ⟨transfer, result, -, hmem, rfl⟩ | ⟨-, rfl⟩ := uhsEnv_cases henv
  · intro hrefused
    obtain ⟨hwindow, howned⟩ := hx hrefused
    exact ⟨hwindow.complete (hinv hrefused) hmem result, Owned.env howned⟩
  · exact hx

/-- UHS leaves the slot of the next submission alone. -/
theorem nextSlot_env (hroom : submitted < consumed + 3)
    (known : AxRxAsyncSlot → Memory → Prop) :
    EnvStable (ring allowed) (Delivering maxLength) fun x ↦
      Ringing maxLength ahead accounted consumed submitted owned x ∧
        NextSlot submitted known x := by
  intro event x y hinv hx henv
  refine ⟨ringing_env _ _ _ _ _ event x y hinv hx.1 henv, ?_⟩
  obtain ⟨transfer, result, -, hmem, rfl⟩ | ⟨-, rfl⟩ := uhsEnv_cases henv
  · intro hrefused
    have ht := hinv hrefused
    have hwindow := (hx.1 hrefused).1
    have hconsumed := hwindow.consumed_eq
    have hsubmitted := hwindow.submitted_eq
    have hle := ht.consumed_le
    have hto := (ht.flight transfer hmem).2.2.1
    have hne : slotOf submitted ≠ transfer.2 :=
      ht.slot_ne hmem (by omega) (by omega) (by omega)
    have hbuffers : (x.world.complete transfer result).buffers (slotOf submitted) =
        x.world.buffers (slotOf submitted) := Function.update_of_ne hne _ _
    dsimp only
    rw [axRxAsyncCallback_of_ne hne, hbuffers]
    exact hx.2 hrefused
  · exact hx.2

/-- A completion that waits for the receiving thread stays as it is. -/
theorem waiting_env (result : Completion) :
    EnvStable (ring allowed) (Delivering maxLength) fun x ↦
      Ringing maxLength ahead accounted consumed submitted owned x ∧
        (x.world.refused = false →
          Waiting consumed result x.mem.gRxSlots x.world.toTransfers) := by
  intro event x y hinv hx henv
  refine ⟨ringing_env _ _ _ _ _ event x y hinv hx.1 henv, ?_⟩
  obtain ⟨transfer, other, -, hmem, rfl⟩ | ⟨-, rfl⟩ := uhsEnv_cases henv
  · intro hrefused
    have hconsumed := (hx.1 hrefused).1.consumed_eq
    exact (hx.2 hrefused).complete (hinv hrefused) (by omega) (by omega) hmem other
  · exact hx.2

end Env

/-! ## Single steps -/

section Steps

variable {x : UhsMachine} {ahead : List (List UInt8)} {accounted consumed submitted : ℕ}
  {owned owned' : Owned}

theorem Ringing.owned_mono
    (hx : Ringing maxLength ahead accounted consumed submitted owned x)
    (h : ∀ ax gRx call buffers, owned ax gRx call buffers → owned' ax gRx call buffers) :
    Ringing maxLength ahead accounted consumed submitted owned' x :=
  fun hrefused ↦ ⟨(hx hrefused).1, h _ _ _ _ (hx hrefused).2⟩

/-- A step that changes only the handle and the snapshot. -/
theorem Ringing.owned_update
    (hx : Ringing maxLength ahead accounted consumed submitted owned x) {driver : DriverState}
    (hslots : driver.gRxSlots = x.mem.gRxSlots)
    (h : owned.holds x → owned'.holds { x with mem := driver }) :
    Ringing maxLength ahead accounted consumed submitted owned'
      { x with mem := driver } := by
  intro hrefused
  obtain ⟨hwindow, howned⟩ := hx hrefused
  refine ⟨?_, h howned⟩
  dsimp only
  rw [hslots]
  exact hwindow

theorem Owned.setSlot {index : SlotIndex} {update : AxRxAsyncSlot → AxRxAsyncSlot}
    (hx : owned.holds x) (hupdate : ∀ slot, (update slot).buffer = slot.buffer) :
    owned.holds { x with mem := x.mem.setSlot index update } := by
  have hbuffers : (fun other ↦ ((x.mem.setSlot index update).gRxSlots other).buffer) =
      fun other ↦ (x.mem.gRxSlots other).buffer := by
    funext other
    by_cases hsame : other = index
    · rw [hsame, DriverState.setSlot_self, hupdate]
    · rw [DriverState.setSlot_of_ne _ hsame]
  unfold Owned.holds
  dsimp only
  rw [hbuffers]
  exact hx

theorem Held.setSlot {id : ℕ} {driver : DriverState} {t : Transfers}
    (hx : Held id driver.gRxSlots t) {index : SlotIndex} (hne : slotOf id ≠ index)
    (update : AxRxAsyncSlot → AxRxAsyncSlot) : Held id (driver.setSlot index update).gRxSlots t := by
  have hslots := driver.setSlot_of_ne hne update
  cases hx with
  | flying hbuffer hflight hstate =>
    exact .flying (by rwa [hslots]) hflight (by rwa [hslots])
  | waiting result hw =>
    exact .waiting result ⟨by rw [hslots, hw.buffer], by rw [hslots, hw.state], hw.completion,
      hw.held, by rw [hslots, hw.ret], by rw [hslots, hw.actual], hw.data⟩

/-- The slot of the next submission is not in the window. -/
theorem Ringing.setSlot
    (hx : Ringing maxLength ahead accounted consumed submitted owned x)
    (hroom : submitted < consumed + 3) {update : AxRxAsyncSlot → AxRxAsyncSlot}
    (hupdate : ∀ slot, (update slot).buffer = slot.buffer) :
    Ringing maxLength ahead accounted consumed submitted owned
      { x with mem := x.mem.setSlot (slotOf submitted) update } := by
  intro hrefused
  obtain ⟨hwindow, howned⟩ := hx hrefused
  refine ⟨⟨hwindow.consumed_eq, hwindow.submitted_eq, hwindow.le, fun id hlow hhigh ↦ ?_,
    hwindow.frames, hwindow.due⟩, Owned.setSlot howned hupdate⟩
  have hne : slotOf id ≠ slotOf submitted := by
    rw [ne_eq, slotOf_eq_iff]
    omega
  exact (hwindow.held id hlow hhigh).setSlot hne update

theorem Held.accept {id : ℕ} {slots : SlotIndex → AxRxAsyncSlot} {t : Transfers}
    (hx : Held id slots t) (index : SlotIndex) : Held id slots (t.accept index) := by
  cases hx with
  | flying hbuffer hflight hstate =>
    exact .flying hbuffer (List.mem_append_left _ hflight) hstate
  | waiting result hw =>
    exact .waiting result ⟨hw.buffer, hw.state, hw.completion, hw.held, hw.ret, hw.actual, hw.data⟩

/-- An accepted submission extends the window. -/
theorem Window.accept {slots : SlotIndex → AxRxAsyncSlot} {t : Transfers} {call : CallRecord}
    (hx : Window maxLength ahead accounted consumed submitted slots t call)
    (hbuffer : (slots (slotOf submitted)).buffer = some (slotOf submitted))
    (hpending : (slots (slotOf submitted)).state = .pending) :
    Window maxLength ahead accounted consumed (submitted + 1) slots
      (t.accept (slotOf submitted)) call := by
  refine ⟨hx.consumed_eq, congrArg (· + 1) hx.submitted_eq, hx.le, fun id hlow hhigh ↦ ?_,
    hx.frames, hx.due⟩
  by_cases hlast : id = submitted
  · subst hlast
    refine .flying hbuffer ?_ hpending
    refine List.mem_append_right _ ?_
    rw [hx.submitted_eq]
    exact List.mem_singleton_self _
  · exact (hx.held id hlow (by omega)).accept _

end Steps

end Ax88179Aroma.Driver
