import Ax88179Aroma.Effect.Ownership
import Ax88179Aroma.Net.Interface

/-!
# Who owns a transmit slot

A slot in use is named by one queued message, or is being filled by `send_frame`, or is held by the
worker; `owners` lists these claims.  `SlotsOwned` says that the list has no repetition and agrees
with the flags, and that the frames which entered the queue are those that left it, the one the
worker holds and those still queued, in this order.  There is one lemma for each access.
-/

namespace Ax88179Aroma.Net

open Effect

namespace NetState

/-- The slots named by queued messages, by `send_frame` and by the worker. -/
def owners (s : NetState) : List ℕ :=
  s.txQueue.messages.map OSMessage.message ++
    (s.history.filling.toList ++ s.history.worker.message.toList.map OSMessage.message)

/-- The frames on their way: the one the worker has dequeued and those still queued. -/
def travelling (s : NetState) : List (List UInt8) :=
  (s.history.worker.waiting.toList ++ s.txQueue.messages).map s.frameOf

end NetState

structure SlotsOwned (s : NetState) : Prop where
  capacity : s.txQueue.capacity = txSlots
  marked : Marked txSlots s.owners s.txInUse
  posted : s.history.posted = s.history.settled.map TxFate.frame ++ s.travelling

namespace SlotsOwned

variable {s t : NetState} {slot : ℕ} {m : OSMessage}

/-- A queue that names distinct slots besides the one being filled is not full. -/
theorem length_lt (h : SlotsOwned s) (hfilling : s.history.filling = some slot) :
    s.txQueue.messages.length < s.txQueue.capacity := by
  have hlength : s.txQueue.messages.length + 1 ≤ s.owners.length := by
    simp [NetState.owners, hfilling]
  have hcount := h.marked.length_le
  rw [h.capacity]
  omega

theorem mem_message_of_waiting {phase : WorkerPhase} (hm : m ∈ phase.waiting.toList) :
    m ∈ phase.message.toList := by
  cases phase with
  | idle => exact hm
  | taken m => exact hm
  | passed m => cases hm

/-- No travelling frame lies in the slot being filled. -/
theorem message_ne (h : SlotsOwned s) (hfilling : s.history.filling = some slot)
    (hm : m ∈ s.history.worker.message.toList ++ s.txQueue.messages) : m.message ≠ slot := by
  have hnodup := h.marked.nodup
  simp only [NetState.owners, hfilling, Option.toList_some, List.singleton_append,
    List.nodup_append, List.nodup_cons] at hnodup
  obtain ⟨-, ⟨hworker, -⟩, hqueue⟩ := hnodup
  rcases List.mem_append.mp hm with hm | hm
  · rintro rfl
    exact hworker (List.mem_map_of_mem hm)
  · exact hqueue _ (List.mem_map_of_mem hm) slot List.mem_cons_self

/-- Accesses outside the transmit path. -/
theorem of_eq (h : SlotsOwned s) (heq : t.toTxState = s.toTxState) : SlotsOwned t := by
  have howners : t.owners = s.owners := by simp only [NetState.owners, heq]
  have hframe : t.frameOf = s.frameOf := by
    funext m
    simp only [NetState.frameOf, heq]
  have htravelling : t.travelling = s.travelling := by simp only [NetState.travelling, hframe, heq]
  refine ⟨?_, ?_, ?_⟩
  · rw [heq, h.capacity]
  · rw [howners, heq]
    exact h.marked
  · rw [htravelling, heq]
    exact h.posted

/-- The compare-exchange of `send_frame`. -/
theorem claim (h : SlotsOwned s) (hslot : slot < txSlots) (hfree : s.txInUse slot = 0)
    (hfilling : s.history.filling = none) :
    SlotsOwned ((s.setInUse slot 1).setHistory fun history ↦
      { history with filling := some slot }) := by
  refine ⟨h.capacity, (h.marked.take hslot hfree).perm ?_, h.posted⟩
  simp only [NetState.owners, hfilling, Option.toList_none, List.nil_append]
  exact List.perm_middle

/-- `send_frame` gives its slot back. -/
theorem unclaim (h : SlotsOwned s) (hfilling : s.history.filling = some slot) :
    SlotsOwned ((s.setInUse slot 0).setHistory fun history ↦
      { history with filling := none }) := by
  refine ⟨h.capacity, Marked.release (h.marked.perm ?_), h.posted⟩
  simp only [NetState.owners, hfilling, Option.toList_some, List.singleton_append]
  exact List.perm_middle.symm

/-- `send_frame` writes into the slot it has claimed. -/
theorem writePool (h : SlotsOwned s) (hfilling : s.history.filling = some slot) (index : ℕ)
    (byte : UInt8) : SlotsOwned (s.writePool slot index byte) := by
  refine ⟨h.capacity, h.marked, h.posted.trans ?_⟩
  congr 1
  refine List.map_congr_left fun m hm ↦ ?_
  have hne : m.message ≠ slot := by
    refine h.message_ne hfilling ?_
    rcases List.mem_append.mp hm with hm | hm
    · exact List.mem_append_left _ (mem_message_of_waiting hm)
    · exact List.mem_append_right _ hm
  simp only [NetState.frameOf, NetState.writePool, Function.update_of_ne hne]

/-- The message of the claimed slot enters the queue. -/
theorem post (h : SlotsOwned s) (hfilling : s.history.filling = some m.message) :
    SlotsOwned (s.post m) := by
  refine ⟨h.capacity, h.marked.perm ?_, ?_⟩
  · simp only [NetState.owners, NetState.post, hfilling, Option.toList_some, Option.toList_none,
      List.nil_append, List.map_append, List.map_cons, List.map_nil, List.append_assoc]
    exact List.Perm.refl _
  · change s.history.posted ++ [s.frameOf m] = s.history.settled.map TxFate.frame ++
      (s.history.worker.waiting.toList ++ (s.txQueue.messages ++ [m])).map s.frameOf
    simp only [h.posted, NetState.travelling, List.map_append, List.append_assoc, List.map_cons,
      List.map_nil]

/-- The worker dequeues a message. -/
theorem take (h : SlotsOwned s) {rest : List OSMessage} (hidle : s.history.worker = .idle)
    (hqueue : s.txQueue.messages = m :: rest) : SlotsOwned (s.take m rest) := by
  refine ⟨h.capacity, h.marked.perm ?_, ?_⟩
  · simp only [NetState.owners, NetState.take, hidle, hqueue, WorkerPhase.message,
      Option.toList_some, Option.toList_none, List.map_cons, List.map_nil, List.append_nil]
    rw [← List.append_assoc]
    exact List.perm_append_comm
  · have hposted := h.posted
    simp only [NetState.travelling, hidle, hqueue, WorkerPhase.waiting, Option.toList_none,
      List.nil_append] at hposted
    exact hposted

/-- The worker hands the frame of its message to the driver. -/
theorem pass (h : SlotsOwned s) (htaken : s.history.worker = .taken m) :
    SlotsOwned (s.pass (s.frameOf m)) := by
  refine ⟨h.capacity, ?_, ?_⟩
  · have howners : (s.pass (s.frameOf m)).owners = s.owners := by
      simp only [NetState.owners, NetState.pass, NetState.setHistory, htaken, WorkerPhase.message]
    rw [howners]
    exact h.marked
  · have hposted := h.posted
    simp only [NetState.travelling, htaken, WorkerPhase.waiting, Option.toList_some,
      List.singleton_append, List.map_cons] at hposted
    simp only [NetState.travelling, NetState.pass, NetState.setHistory, htaken,
      WorkerPhase.waiting, Option.toList_none, List.nil_append, List.map_append, List.map_cons,
      List.map_nil, List.append_assoc, List.singleton_append, TxFate.frame]
    exact hposted

/-- The worker releases the slot of its message. -/
theorem retire (h : SlotsOwned s) (hheld : s.history.worker.message = some m) :
    SlotsOwned (s.retire m.message) := by
  refine ⟨h.capacity, Marked.release (h.marked.perm ?_), ?_⟩
  · change (m.message :: (s.txQueue.messages.map OSMessage.message ++
      (s.history.filling.toList ++ []))).Perm s.owners
    simp only [NetState.owners, hheld, Option.toList_some, List.map_cons, List.map_nil,
      List.append_nil, ← List.append_assoc]
    exact (List.perm_append_singleton m.message _).symm
  · have hposted := h.posted
    cases hphase : s.history.worker with
    | idle =>
      rw [hphase] at hheld
      cases hheld
    | taken m' =>
      simp only [NetState.travelling, hphase, WorkerPhase.waiting, Option.toList_some,
        List.singleton_append, List.map_cons] at hposted
      simp only [NetState.travelling, NetState.retire, NetState.setHistory, NetState.setInUse,
        hphase, WorkerPhase.waiting, Option.toList_none, List.nil_append, List.map_append,
        List.map_cons, List.map_nil, List.append_assoc, List.singleton_append, TxFate.frame]
      exact hposted
    | passed m' =>
      simp only [NetState.travelling, hphase, WorkerPhase.waiting, Option.toList_none,
        List.nil_append] at hposted
      simp only [NetState.travelling, NetState.retire, NetState.setHistory, NetState.setInUse,
        hphase, WorkerPhase.waiting, Option.toList_none, List.nil_append]
      exact hposted

end SlotsOwned

end Ax88179Aroma.Net
