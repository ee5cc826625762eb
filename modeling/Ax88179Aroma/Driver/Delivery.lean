import Ax88179Aroma.Driver.Uhs
import Mathlib.Data.List.Flatten
import Mathlib.Data.List.Nodup

/-!
# Delivery in submission order

As long as UHS accepts every submission, the transfers on the ring form a window: those before it
are consumed, the three in it are either in flight or waiting in their slot, and the slot of a
transfer is its number modulo three.  `Delivery` is the invariant of the transfers and `Window` what
the receiving thread knows about the slots.  Together they account for every frame: what was
returned and what the snapshot still holds is exactly what the consumed transfers decode to, in
order.
-/

namespace Ax88179Aroma.Driver

open Effect Program

/-- The ring slot of a transfer. -/
def slotOf (id : ℕ) : SlotIndex := Fin.ofNat 3 id

theorem slotOf_eq_iff {left right : ℕ} : slotOf left = slotOf right ↔ left % 3 = right % 3 := by
  rw [Fin.ext_iff]
  rfl

theorem slotOf_succ (id : ℕ) : slotOf (id + 1) = slotOf id + 1 := by
  rw [Fin.ext_iff, Fin.val_add]
  change (id + 1) % 3 = (id % 3 + 1) % 3
  omega

/-! ## What a transfer decodes to -/

/-- The frames of one completed transfer, up to the point where it is found malformed. -/
def decoded (maxLength : ℤ) (result : Completion) : List (List UInt8) :=
  if result.ret < 0 ∨ result.actual < 4 ∨ result.actual > rxBufferSize then []
  else bufferedFrames result.data maxLength (axRxLoadAggregate result.data result.actual {}).1

/-- The frames of the first `count` transfers, in submission order. -/
def decodedTo (maxLength : ℤ) (completions : ℕ → Option Completion) (count : ℕ) :
    List (List UInt8) :=
  (List.range count).flatMap fun id ↦ ((completions id).map (decoded maxLength)).getD []

theorem decodedTo_succ (maxLength : ℤ) (completions : ℕ → Option Completion) (count : ℕ) :
    decodedTo maxLength completions (count + 1) = decodedTo maxLength completions count ++
      ((completions count).map (decoded maxLength)).getD [] := by
  unfold decodedTo
  rw [List.range_succ, List.flatMap_append, List.flatMap_singleton]

theorem decodedTo_update (maxLength : ℤ) (completions : ℕ → Option Completion) {count id : ℕ}
    (hid : count ≤ id) (result : Option Completion) :
    decodedTo maxLength (Function.update completions id result) count =
      decodedTo maxLength completions count := by
  unfold decodedTo
  refine List.flatMap_congr fun other hother ↦ ?_
  have hlt := List.mem_range.mp hother
  rw [Function.update_of_ne (by omega)]

/-- The frames of all calls that returned, in order. -/
def Transfers.returnedFrames (transfers : Transfers) : List (List UInt8) :=
  transfers.returned.flatMap Received.frames

/-! ## The transfers -/

/-- The invariant of the transfers while every submission is accepted. -/
structure Delivery (maxLength : ℤ) (t : Transfers) : Prop where
  consumed_eq : t.consumed = (List.range t.consumed.length).map some
  consumed_le : t.consumed.length ≤ t.submitted
  window : t.submitted ≤ t.consumed.length + 3
  flight : ∀ transfer ∈ t.flight, transfer.2 = slotOf transfer.1 ∧
    t.consumed.length ≤ transfer.1 ∧ transfer.1 < t.submitted ∧ t.completions transfer.1 = none
  nodup : t.flight.Nodup
  completed : ∀ id < t.consumed.length, ∃ result, t.completions id = some result
  waiting : ∀ id result, t.completions id = some result → t.consumed.length ≤ id →
    id < t.submitted ∧ t.held (slotOf id) = some id
  returned : t.returnedFrames <+: decodedTo maxLength t.completions t.consumed.length

namespace Delivery

variable {maxLength : ℤ} {t : Transfers}

/-- A transfer in flight uses another slot than the other transfers of the window, and than the
transfer that will be submitted next. -/
theorem slot_ne (ht : Delivery maxLength t) {transfer : ℕ × SlotIndex}
    (hmem : transfer ∈ t.flight) {id : ℕ} (hne : transfer.1 ≠ id)
    (hlow : t.consumed.length ≤ id) (hhigh : id < t.consumed.length + 3) :
    slotOf id ≠ transfer.2 := by
  have hwindow := ht.window
  obtain ⟨hslot, hfrom, hto, -⟩ := ht.flight transfer hmem
  rw [hslot, ne_eq, slotOf_eq_iff]
  omega

theorem complete (ht : Delivery maxLength t) {transfer : ℕ × SlotIndex}
    (hmem : transfer ∈ t.flight) (result : Completion) :
    Delivery maxLength (t.complete transfer result) where
  consumed_eq := ht.consumed_eq
  consumed_le := ht.consumed_le
  window := ht.window
  flight other hother := by
    have hin : other ∈ t.flight := List.mem_of_mem_erase hother
    obtain ⟨hslot, hfrom, hto, hnone⟩ := ht.flight other hin
    refine ⟨hslot, hfrom, hto, ?_⟩
    have hne : other.1 ≠ transfer.1 := fun heq ↦ by
      have hsame : other = transfer := by
        refine Prod.ext heq ?_
        rw [hslot, (ht.flight transfer hmem).1, heq]
      rw [hsame] at hother
      exact ht.nodup.not_mem_erase hother
    exact (Function.update_of_ne hne _ _).trans hnone
  nodup := ht.nodup.erase transfer
  completed id hid := by
    have hfrom := (ht.flight transfer hmem).2.1
    have hid' : id < t.consumed.length := hid
    obtain ⟨other, hother⟩ := ht.completed id hid
    exact ⟨other, (Function.update_of_ne (by omega) _ _).trans hother⟩
  waiting id other hother hid := by
    obtain ⟨hslot, hfrom, hto, -⟩ := ht.flight transfer hmem
    simp only [Transfers.complete] at hother hid ⊢
    by_cases hsame : id = transfer.1
    · rw [hsame, ← hslot, Function.update_self]
      exact ⟨hto, rfl⟩
    · rw [Function.update_of_ne hsame] at hother
      obtain ⟨hlt, hheld⟩ := ht.waiting id other hother hid
      have hwindow := ht.window
      have hne := ht.slot_ne hmem (Ne.symm hsame) hid (by omega)
      rw [Function.update_of_ne hne]
      exact ⟨hlt, hheld⟩
  returned := by
    have hfrom := (ht.flight transfer hmem).2.1
    simp only [Transfers.complete, Transfers.returnedFrames]
    rw [decodedTo_update maxLength _ hfrom]
    exact ht.returned

/-- UHS accepts the next transfer into a free slot. -/
theorem accept (ht : Delivery maxLength t) (hroom : t.submitted < t.consumed.length + 3) :
    Delivery maxLength (t.accept (slotOf t.submitted)) where
  consumed_eq := ht.consumed_eq
  consumed_le := Nat.le_succ_of_le ht.consumed_le
  window := hroom
  flight transfer hmem := by
    simp only [Transfers.accept, List.mem_append, List.mem_singleton] at hmem ⊢
    cases hmem with
    | inl hold =>
      obtain ⟨hslot, hfrom, hto, hnone⟩ := ht.flight transfer hold
      exact ⟨hslot, hfrom, Nat.lt_succ_of_lt hto, hnone⟩
    | inr hnew =>
      subst hnew
      refine ⟨rfl, ht.consumed_le, Nat.lt_succ_self _, ?_⟩
      rcases hresult : t.completions t.submitted with _ | result
      · rfl
      · exact absurd (ht.waiting _ result hresult ht.consumed_le).1 (lt_irrefl _)
  nodup := by
    refine List.nodup_append.mpr ⟨ht.nodup, List.nodup_singleton _, fun left hleft right hright ↦ ?_⟩
    rw [List.mem_singleton.mp hright]
    rintro rfl
    exact absurd (ht.flight _ hleft).2.2.1 (lt_irrefl _)
  completed := ht.completed
  waiting id result hresult hid := by
    obtain ⟨hlt, hheld⟩ := ht.waiting id result hresult hid
    exact ⟨Nat.lt_succ_of_lt hlt, hheld⟩
  returned := ht.returned

/-- The receiving thread consumes the oldest transfer of the window. -/
theorem consume (ht : Delivery maxLength t) {index : SlotIndex} {result : Completion}
    (hresult : t.completions t.consumed.length = some result)
    (hheld : t.held index = some t.consumed.length) :
    Delivery maxLength (t.consume index) := by
  have hlt := (ht.waiting _ result hresult le_rfl).1
  have hlength : (t.consume index).consumed.length = t.consumed.length + 1 := by
    simp only [Transfers.consume, List.length_append, List.length_singleton]
  refine ⟨?_, ?_, ?_, fun transfer hmem ↦ ?_, ht.nodup, fun id hid ↦ ?_,
    fun id other hother hid ↦ ?_, ?_⟩
  · rw [hlength, List.range_succ, List.map_append, ← ht.consumed_eq]
    simp only [Transfers.consume, hheld, List.map_cons, List.map_nil]
  · rw [hlength]
    exact hlt
  · rw [hlength]
    exact Nat.le_succ_of_le ht.window
  · obtain ⟨hslot, hfrom, hto, hnone⟩ := ht.flight transfer hmem
    have hne : transfer.1 ≠ t.consumed.length := fun heq ↦ by
      rw [heq, hresult] at hnone
      cases hnone
    rw [hlength]
    exact ⟨hslot, by omega, hto, hnone⟩
  · rw [hlength] at hid
    by_cases hlast : id = t.consumed.length
    · exact ⟨result, hlast ▸ hresult⟩
    · exact ht.completed id (by omega)
  · rw [hlength] at hid
    exact ht.waiting id other hother (by omega)
  · rw [hlength, decodedTo_succ]
    exact ht.returned.trans (List.prefix_append _ _)

end Delivery

/-! ## The slots -/

/-- A slot holds the completion of a transfer. -/
structure Waiting (id : ℕ) (result : Completion) (slots : SlotIndex → AxRxAsyncSlot)
    (t : Transfers) : Prop where
  buffer : (slots (slotOf id)).buffer = some (slotOf id)
  state : (slots (slotOf id)).state = .done
  completion : t.completions id = some result
  held : t.held (slotOf id) = some id
  ret : (slots (slotOf id)).ret = result.ret
  actual : (slots (slotOf id)).actual = result.actual
  data : t.buffers (slotOf id) = result.data

/-- The state of a transfer in the window: UHS still has it, or its slot holds the completion. -/
inductive Held (id : ℕ) (slots : SlotIndex → AxRxAsyncSlot) (t : Transfers) : Prop where
  | flying (hbuffer : (slots (slotOf id)).buffer = some (slotOf id))
      (hflight : (id, slotOf id) ∈ t.flight) (hstate : (slots (slotOf id)).state = .pending)
  | waiting (result : Completion) (hwaiting : Waiting id result slots t)

/-- The call was entered with the ring running, no buffered frame left and the next transfer
complete. -/
def CallRecord.due (call : CallRecord) : Prop :=
  call.ringStarted = true ∧ call.drained = true ∧ call.nextDone = true

/-- The transfers from `consumed` to `submitted` are in the window, and the frames that were
returned together with those that are still `ahead` are the frames of the first `accounted`
transfers.  A call that is due consumes the transfer that it found complete. -/
structure Window (maxLength : ℤ) (ahead : List (List UInt8)) (accounted consumed submitted : ℕ)
    (slots : SlotIndex → AxRxAsyncSlot) (t : Transfers) (call : CallRecord) : Prop where
  consumed_eq : t.consumed.length = consumed
  submitted_eq : t.submitted = submitted
  le : accounted ≤ consumed
  held : ∀ id, consumed ≤ id → id < submitted → Held id slots t
  frames : t.returnedFrames ++ ahead = decodedTo maxLength t.completions accounted
  due : call.due → call.consumedAt ≤ consumed ∧
    (call.consumedAt < consumed ∨ ∃ result, t.completions consumed = some result)

/-- The slots after the callback of a transfer. -/
def completeSlots (transfer : ℕ × SlotIndex) (result : Completion) (driver : DriverState) :
    SlotIndex → AxRxAsyncSlot :=
  (axRxAsyncCallback transfer.2 transfer.2 result.ret result.actual driver).gRxSlots

section Complete

variable {maxLength : ℤ} {t : Transfers} {driver : DriverState} {transfer : ℕ × SlotIndex}

theorem Waiting.complete {id : ℕ} {other : Completion} (hx : Waiting id other driver.gRxSlots t)
    (ht : Delivery maxLength t) (hlow : t.consumed.length ≤ id)
    (hhigh : id < t.consumed.length + 3) (hmem : transfer ∈ t.flight) (result : Completion) :
    Waiting id other (completeSlots transfer result driver) (t.complete transfer result) := by
  have hnone := (ht.flight transfer hmem).2.2.2
  have hne : transfer.1 ≠ id := fun heq ↦ by
    rw [heq, hx.completion] at hnone
    cases hnone
  have hslot : slotOf id ≠ transfer.2 := ht.slot_ne hmem hne hlow hhigh
  have hslots : completeSlots transfer result driver (slotOf id) = driver.gRxSlots (slotOf id) :=
    axRxAsyncCallback_of_ne hslot _ _ _ _
  refine ⟨?_, ?_, ?_, ?_, ?_, ?_, ?_⟩
  · rw [hslots, hx.buffer]
  · rw [hslots, hx.state]
  · exact (Function.update_of_ne hne.symm _ _).trans hx.completion
  · exact (Function.update_of_ne hslot _ _).trans hx.held
  · rw [hslots, hx.ret]
  · rw [hslots, hx.actual]
  · exact (Function.update_of_ne hslot _ _).trans hx.data

theorem Held.complete {id : ℕ} (hx : Held id driver.gRxSlots t) (ht : Delivery maxLength t)
    (hlow : t.consumed.length ≤ id) (hhigh : id < t.consumed.length + 3)
    (hmem : transfer ∈ t.flight) (result : Completion) :
    Held id (completeSlots transfer result driver) (t.complete transfer result) := by
  have hslot := (ht.flight transfer hmem).1
  cases hx with
  | waiting other hwaiting => exact .waiting other (hwaiting.complete ht hlow hhigh hmem result)
  | flying hbuffer hflight hstate =>
    by_cases hsame : transfer.1 = id
    · subst hsame
      have hmem' : completeSlots transfer result driver = (driver.setSlot transfer.2 fun slot ↦
          { slot with ret := result.ret, actual := result.actual, state := .done }).gRxSlots := by
        unfold completeSlots axRxAsyncCallback
        rw [hslot]
        exact congrArg _ (if_neg (not_not.mpr hbuffer))
      refine .waiting result ⟨?_, ?_, Function.update_self _ _ _, ?_, ?_, ?_, ?_⟩
      · rw [hmem', hslot, DriverState.setSlot_self]
        exact hbuffer
      · rw [hmem', hslot, DriverState.setSlot_self]
      · rw [← hslot]
        exact Function.update_self _ _ _
      · rw [hmem', hslot, DriverState.setSlot_self]
      · rw [hmem', hslot, DriverState.setSlot_self]
      · rw [← hslot]
        exact Function.update_self _ _ _
    · have hne : slotOf id ≠ transfer.2 := ht.slot_ne hmem hsame hlow hhigh
      have hslots : completeSlots transfer result driver (slotOf id) =
          driver.gRxSlots (slotOf id) := axRxAsyncCallback_of_ne hne _ _ _ _
      refine .flying (by rwa [hslots]) ?_ (by rwa [hslots])
      exact (List.mem_erase_of_ne fun h ↦ hsame (congrArg Prod.fst h).symm).mpr hflight

theorem Window.complete {ahead : List (List UInt8)} {accounted consumed submitted : ℕ}
    {call : CallRecord}
    (hx : Window maxLength ahead accounted consumed submitted driver.gRxSlots t call)
    (ht : Delivery maxLength t) (hmem : transfer ∈ t.flight) (result : Completion) :
    Window maxLength ahead accounted consumed submitted (completeSlots transfer result driver)
      (t.complete transfer result) call := by
  have hfrom := (ht.flight transfer hmem).2.1
  have hwindow := ht.window
  have hconsumed := hx.consumed_eq
  have hsubmitted := hx.submitted_eq
  have hle := hx.le
  refine ⟨hconsumed, hsubmitted, hle, fun id hlow hhigh ↦ ?_, ?_, fun hdue ↦ ?_⟩
  · exact (hx.held id hlow hhigh).complete ht (by omega) (by omega) hmem result
  · exact hx.frames.trans (decodedTo_update maxLength _ (by omega) _).symm
  · refine ⟨(hx.due hdue).1, (hx.due hdue).2.imp_right fun ⟨other, hother⟩ ↦ ?_⟩
    by_cases hsame : consumed = transfer.1
    · exact ⟨result, hsame ▸ Function.update_self _ _ _⟩
    · exact ⟨other, (Function.update_of_ne hsame _ _).trans hother⟩

end Complete

end Ax88179Aroma.Driver
