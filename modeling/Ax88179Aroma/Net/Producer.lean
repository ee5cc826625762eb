import Ax88179Aroma.Net.TxSystem

/-!
# The producer of the transmit queue

`send_frame` against any interference of the worker: it claims a free slot, copies the frame into
it, and posts its message.  Between two calls it holds no slot, and the frames it has posted are
those for which it returned `ERR_OK`.
-/

namespace Ax88179Aroma.Net

open Effect Program

/-- `send_frame` holds no slot, and `extra` was posted and not yet returned. -/
structure StackFree (extra : List (List UInt8)) (x : NetMachine) : Prop where
  initialized : x.mem.initialized ≠ 0
  filling : x.mem.history.filling = none
  posted : x.mem.history.posted = x.mem.history.accepted ++ extra

/-- `send_frame` holds a slot. -/
structure StackFilling (slot : ℕ) (x : NetMachine) : Prop where
  initialized : x.mem.initialized ≠ 0
  filling : x.mem.history.filling = some slot
  posted : x.mem.history.posted = x.mem.history.accepted

theorem accepted_congr {x y : NetMachine} (h : y.mem.history.returned = x.mem.history.returned) :
    y.mem.history.accepted = x.mem.history.accepted := by
  rw [TxHistory.accepted, TxHistory.accepted, h]

theorem stable_stackFree (extra : List (List UInt8)) :
    Stable TxInv netRely .stack (StackFree extra) := by
  intro x y hx hmove _
  refine ⟨hmove.initialized hx.initialized, hmove.filling.trans hx.filling, ?_⟩
  rw [hmove.posted, accepted_congr hmove.returned, hx.posted]

theorem stable_stackFilling (slot : ℕ) : Stable TxInv netRely .stack (StackFilling slot) := by
  intro x y hx hmove _
  refine ⟨hmove.initialized hx.initialized, hmove.filling.trans hx.filling, ?_⟩
  rw [hmove.posted, accepted_congr hmove.returned, hx.posted]

/-- A step of the stack after which the slots are still owned. -/
theorem guarantees_stack_of_owned {x : NetMachine} {mem : NetState} (hinv : TxInv x)
    (hup : x.mem.initialized ≠ 0) (howned : SlotsOwned mem)
    (hinitialized : mem.initialized = x.mem.initialized) (hactive : mem.active = x.mem.active)
    (hworker : mem.history.worker = x.mem.history.worker)
    (hsettled : mem.history.settled = x.mem.history.settled)
    (hoperation : mem.history.operation = x.mem.history.operation)
    (hpool : ∀ m, x.mem.history.worker.message = some m →
      mem.txPool m.message = x.mem.txPool m.message) (hlate : mem.history.Late) :
    Guarantees TxInv netRely .stack x { x with mem := mem } := by
  refine guarantees_stack ⟨fun hdown ↦ ?_, fun _ ↦ howned, ?_, hlate⟩ ?_
  · exact absurd (hinitialized.symm.trans hdown) hup
  · rw [hsettled]
    exact hinv.discarded
  · exact ⟨fun hdown ↦ absurd hdown hup, hinitialized, hactive, hworker, hsettled, hoperation, hpool⟩

theorem safe_claimSlot (slots : List ℕ) (hslots : ∀ slot ∈ slots, slot < txSlots) {x : NetMachine}
    (hx : StackFree [] x) :
    NetSafe .stack (claimSlot slots)
      (fun claimed y ↦ match claimed with
        | none => StackFree [] y
        | some slot => StackFilling slot y) x := by
  induction slots generalizing x with
  | nil => exact hx
  | cons slot rest ih =>
    simp only [NetSafe, claimSlot, safe_bind]
    refine safe_access hx (stable_stackFree []) fun y hy hinv ↦ ?_
    have howned := hinv.up hy.initialized
    by_cases hfree : y.mem.txInUse slot = 0
    · simp only [claim, if_pos hfree]
      refine ⟨?_, hy.initialized, rfl, ?_⟩
      · exact guarantees_stack_of_owned hinv hy.initialized
          (howned.claim (hslots slot List.mem_cons_self) hfree hy.filling) rfl rfl rfl rfl rfl
          (fun _ _ ↦ rfl) hinv.late
      · exact hy.posted.trans (List.append_nil _)
    · simp only [claim, if_neg hfree, Bool.false_eq_true, if_false]
      refine ⟨?_, ih (fun other hother ↦ hslots other (List.mem_cons_of_mem slot hother)) hy⟩
      exact guarantees_stack_of_owned hinv hy.initialized howned rfl rfl rfl rfl rfl
        (fun _ _ ↦ rfl) hinv.late

/-- The counters of `send_frame`. -/
theorem safe_stackCounter {extra : List (List UInt8)} {update : NetState → NetState}
    (hupdate : ∀ s : NetState, ∃ queued dropped,
      update s = { s with statTxQ := queued, statTxDrop := dropped })
    {x : NetMachine} (hx : StackFree extra x) :
    NetSafe .stack (store update) (fun _ ↦ StackFree extra) x := by
  refine safe_store hx (stable_stackFree extra) fun y hy hinv ↦ ?_
  obtain ⟨queued, dropped, heq⟩ := hupdate y.mem
  rw [heq]
  refine ⟨?_, hy.initialized, hy.filling, hy.posted⟩
  exact guarantees_stack_of_owned hinv hy.initialized ((hinv.up hy.initialized).of_eq rfl)
    rfl rfl rfl rfl rfl (fun _ _ ↦ rfl) hinv.late

theorem safe_unclaim {slot : ℕ} {x : NetMachine} (hx : StackFilling slot x) :
    NetSafe .stack (unclaim slot) (fun _ ↦ StackFree []) x := by
  refine safe_store hx (stable_stackFilling slot) fun y hy hinv ↦ ⟨?_, ?_⟩
  · exact guarantees_stack_of_owned hinv hy.initialized
      ((hinv.up hy.initialized).unclaim hy.filling) rfl rfl rfl rfl rfl (fun _ _ ↦ rfl) hinv.late
  · exact ⟨hy.initialized, rfl, hy.posted.trans (List.append_nil _).symm⟩

/-- The slot being filled starts with the given bytes. -/
def StackCopied (slot : ℕ) (bytes : List UInt8) (count : ℕ) (x : NetMachine) : Prop :=
  StackFilling slot x ∧ ∀ index < count, x.mem.txPool slot index = bytes.getD index 0

theorem stable_stackCopied (slot : ℕ) (bytes : List UInt8) (count : ℕ) :
    Stable TxInv netRely .stack (StackCopied slot bytes count) := by
  intro x y hx hmove hinv
  refine ⟨stable_stackFilling slot x y hx.1 hmove hinv, ?_⟩
  rw [hmove.pool]
  exact hx.2

theorem safe_writePool {slot index : ℕ} {bytes : List UInt8} {x : NetMachine}
    (hx : StackCopied slot bytes index x) :
    NetSafe .stack (store fun s ↦ s.writePool slot index (bytes.getD index 0))
      (fun _ ↦ StackCopied slot bytes (index + 1)) x := by
  refine safe_store hx (stable_stackCopied slot bytes index) fun y ⟨hy, hbytes⟩ hinv ↦ ⟨?_, ?_⟩
  · have howned := hinv.up hy.initialized
    refine guarantees_stack_of_owned hinv hy.initialized (howned.writePool hy.filling index _)
      rfl rfl rfl rfl rfl (fun m hm ↦ ?_) hinv.late
    have hne : m.message ≠ slot := by
      refine howned.message_ne hy.filling (List.mem_append_left _ ?_)
      rw [hm]
      exact List.mem_cons_self
    exact Function.update_of_ne hne _ _
  · refine ⟨⟨hy.initialized, hy.filling, hy.posted⟩, fun other hother ↦ ?_⟩
    change Function.update y.mem.txPool slot
      (Function.update (y.mem.txPool slot) index (bytes.getD index 0)) slot other = _
    rw [Function.update_self]
    by_cases hsame : other = index
    · rw [hsame, Function.update_self]
    · rw [Function.update_of_ne hsame]
      exact hbytes other (by omega)

theorem safe_fillPool {slot : ℕ} {bytes : List UInt8} (count : ℕ) {x : NetMachine}
    (hx : StackFilling slot x) :
    NetSafe .stack (fillPool slot bytes count) (fun _ ↦ StackCopied slot bytes count) x := by
  induction count with
  | zero => exact ⟨hx, fun _ h ↦ absurd h (Nat.not_lt_zero _)⟩
  | succ count ih =>
    simp only [NetSafe, fillPool, safe_bind]
    exact safe_mono ih fun _ y hy ↦ safe_writePool hy

/-- Along a chain `pbuf_copy_partial` copies the bytes from the offset on. -/
theorem copiedBytes_eq (chain : List (List UInt8)) (len offset : ℕ) :
    copiedBytes chain len offset = (chain.flatten.drop offset).take len := by
  induction chain generalizing len offset with
  | nil => simp [copiedBytes]
  | cons payload rest ih =>
    rw [copiedBytes]
    split
    · rename_i hlen
      rw [hlen, List.take_zero]
    · split
      · rename_i hskip
        rw [ih, List.flatten_cons, List.drop_append, List.drop_of_length_le hskip.2,
          List.nil_append]
      · rename_i hcopy
        have hoffset : offset ≤ payload.length := by
          by_cases hzero : offset = 0
          · omega
          · by_contra hlt
            exact hcopy ⟨hzero, by omega⟩
        simp only [ih, List.flatten_cons, List.drop_append_of_le_length hoffset, List.drop_zero,
          List.take_append, List.length_drop]
        congr 1
        · rw [List.take_eq_take_iff, List.length_drop]
          omega
        · congr 1
          omega

/-- A complete copy leaves the frame in the slot. -/
theorem frameOf_of_copied {p : Pbuf} {slot : ℕ} {x : NetMachine}
    (hcopied : StackCopied slot (copiedBytes p.chain p.totLen 0)
      (copiedBytes p.chain p.totLen 0).length x)
    (hlength : (copiedBytes p.chain p.totLen 0).length = p.totLen) :
    x.mem.frameOf { message := slot, args0 := p.totLen } = p.frame := by
  have hframe : copiedBytes p.chain p.totLen 0 = p.frame := by
    rw [copiedBytes_eq, List.drop_zero, Pbuf.frame]
  rw [hframe] at hcopied hlength
  refine List.ext_getElem ?_ fun index hindex hindex' ↦ ?_
  · simp [NetState.frameOf, hlength]
  · have hbyte := hcopied.2 index hindex'
    simp only [NetState.frameOf, Memory.slice, List.getElem_map, List.getElem_range, Nat.zero_add]
    rw [hbyte, List.getD_eq_getElem?_getD, List.getElem?_eq_getElem hindex', Option.getD_some]

/-- The message of the filled slot is posted; there is always room. -/
theorem safe_post {p : Pbuf} {slot : ℕ} {x : NetMachine}
    (hcopied : StackCopied slot (copiedBytes p.chain p.totLen 0)
      (copiedBytes p.chain p.totLen 0).length x)
    (hlength : (copiedBytes p.chain p.totLen 0).length = p.totLen) :
    NetSafe .stack (perform (.osSendMessage { message := slot, args0 := p.totLen }))
      (fun sent y ↦ sent.code ≠ 0 ∧ StackFree [p.frame] y) x := by
  refine safe_perform hcopied (stable_stackCopied _ _ _) fun y hy hinv ↦ ?_
  have howned := hinv.up hy.1.initialized
  have hroom := howned.length_lt hy.1.filling
  refine ⟨hroom, fun answer z hreply ↦ ?_⟩
  simp only [netSystem, replies, if_pos hroom] at hreply
  split at hreply
  · rename_i hcode
    cases hreply
    have hposted : y.mem.history.posted ++ [y.mem.frameOf { message := slot, args0 := p.totLen }] =
        y.mem.history.accepted ++ [p.frame] := by
      rw [hy.1.posted, frameOf_of_copied hy hlength]
    refine ⟨?_, hcode, hy.1.initialized, rfl, hposted⟩
    exact guarantees_stack_of_owned hinv hy.1.initialized (howned.post hy.1.filling)
      rfl rfl rfl rfl rfl (fun _ _ ↦ rfl) ⟨[p.frame], Nat.le_refl 1, hposted⟩
  · cases hreply

/-- `send_frame` posts its frame exactly when it returns `ERR_OK`. -/
theorem safe_sendFrame (p : Pbuf) {x : NetMachine} (hx : StackFree [] x) :
    NetSafe .stack (sendFrame p)
      (fun err ↦ StackFree (if err = errOk then [p.frame] else [])) x := by
  have hdrop : ∀ y, StackFree [] y →
      NetSafe .stack (do
        store fun s ↦ { s with statTxDrop := s.statTxDrop + 1 }
        pure errMem) (fun err ↦ StackFree (if err = errOk then [p.frame] else [])) y := by
    intro y hy
    simp only [NetSafe, safe_bind, safe_pure]
    exact safe_stackCounter (fun s ↦ ⟨_, _, rfl⟩) hy
  simp only [NetSafe, sendFrame, safe_ite]
  split
  · exact hx
  · simp only [safe_bind]
    refine safe_mono (safe_claimSlot (List.range txSlots) (fun slot ↦ List.mem_range.mp) hx) ?_
    rintro (_ | slot) y hy
    · exact hdrop y hy
    · simp only [sendClaimed, pbufCopyPartial, safe_bind, safe_pure]
      refine safe_mono (safe_fillPool _ hy) fun _ z hz ↦ ?_
      rw [safe_ite]
      split
      · simp only [safe_bind, safe_pure]
        exact safe_unclaim hz.1
      · rename_i hlength
        rw [not_not] at hlength
        simp only [safe_bind]
        refine safe_mono (safe_post hz hlength) fun sent w hpost ↦ ?_
        obtain ⟨hsent, hw⟩ := hpost
        rw [safe_ite, if_neg hsent]
        simp only [safe_bind, safe_pure]
        exact safe_stackCounter (fun s ↦ ⟨_, _, rfl⟩) hw

/-- Between two calls everything posted was accepted. -/
def stackIdle (x : NetMachine) : Prop :=
  x.mem.history.filling = none ∧ x.mem.history.posted = x.mem.history.accepted

theorem safe_stackBody (p : Pbuf) {x : NetMachine} (hup : x.mem.initialized ≠ 0)
    (hx : stackIdle x) : NetSafe .stack (stackBody p) (fun _ ↦ stackIdle) x := by
  simp only [NetSafe, stackBody, safe_bind]
  have hfree : StackFree [] x := ⟨hup, hx.1, hx.2.trans (List.append_nil _).symm⟩
  refine safe_mono (safe_sendFrame p hfree) fun err y hy ↦ ?_
  refine safe_store hy (stable_stackFree _) fun z hz hinv ↦ ?_
  have howned := hinv.up hz.initialized
  have hposted : z.mem.history.posted =
      TxHistory.accepted { z.mem.history with returned := z.mem.history.returned ++ [(p, err)] } := by
    refine hz.posted.trans ?_
    simp only [TxHistory.accepted, List.filter_append, List.map_append]
    congr 1
    by_cases herr : err = errOk
    · simp [herr]
    · simp [herr]
  refine ⟨?_, hz.filling, hposted⟩
  exact guarantees_stack_of_owned hinv hz.initialized
    ⟨howned.capacity, howned.marked, howned.posted⟩ rfl rfl rfl rfl rfl (fun _ _ ↦ rfl)
    ⟨[], Nat.zero_le 1, hposted.trans (List.append_nil _).symm⟩

end Ax88179Aroma.Net
