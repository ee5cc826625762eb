import Ax88179Aroma.Net.Consumer
import Ax88179Aroma.Net.Producer

/-!
# The transmit queue loses nothing

Producer and consumer together: along every interleaving each slot in use has one owner, there is
room for every message, and the frames that `send_frame` accepted reach the driver in order and
unchanged, except those that `ax_net_stop` discards.
-/

namespace Ax88179Aroma.Net

open Effect Program

abbrev NetConfig := Config NetThread NetState NetWorld NetCall NetReply

abbrev NetAction := Action NetThread NetOp Empty NetReply

theorem netSystem_verified {x : NetMachine} (hx : Uninitialised x) :
    Verified netSystem x TxInv netRely netPre
      (fun | .stack => stackIdle | .worker => workerIdle) where
  rely_refl := netRely_refl
  rely_trans := netRely_trans
  idle_stable i := by
    cases i with
    | stack =>
      intro y z hy hmove _
      refine ⟨hmove.filling.trans hy.1, hmove.posted.trans (hy.2.trans ?_)⟩
      exact (accepted_congr hmove.returned).symm
    | worker => exact fun y z hy hmove _ ↦ hmove.worker.trans hy
  env_safe event := nomatch event
  body_safe i operation y hinv hy henabled := by
    cases i with
    | stack =>
      cases operation with
      | sendFrame p => exact safe_stackBody p (of_decide_eq_true henabled) hy
      | work operation => cases henabled
    | worker =>
      cases operation with
      | sendFrame p => cases henabled
      | work operation => exact safe_workerBody operation hy
  initial_inv := by
    obtain ⟨hdown, hactive, hhistory⟩ := hx
    refine ⟨fun _ ↦ ?_, fun hup ↦ absurd hdown hup, ?_, ?_⟩
    · rw [hhistory]
      exact ⟨hactive, rfl, rfl, rfl, rfl⟩
    · rw [hhistory]
      exact fun _ _ h ↦ nomatch h
    · rw [hhistory]
      exact ⟨[], Nat.zero_le 1, rfl⟩
  initial_idle i := by
    cases i with
    | stack =>
      refine ⟨?_, ?_⟩
      all_goals rw [hx.history_eq]
      rfl
    | worker =>
      change x.mem.history.worker = .idle
      rw [hx.history_eq]

/-- What the two threads have made of the transmit slots. -/
structure TxAccounted (c : NetConfig) : Prop where
  /-- queued messages name distinct slots in use -/
  queued_nodup : (c.machine.mem.txQueue.messages.map OSMessage.message).Nodup
  queued_inUse : ∀ m ∈ c.machine.mem.txQueue.messages,
    m.message < txSlots ∧ c.machine.mem.txInUse m.message = 1
  /-- a slot in use has exactly one owner: a queued message, the producer or the worker -/
  owners_count : ∀ slot < txSlots, c.machine.mem.owners.count slot =
    if c.machine.mem.txInUse slot = 0 then 0 else 1
  filling_running : c.threads .stack = none → c.machine.mem.history.filling = none
  holding_running : c.threads .worker = none → c.machine.mem.history.worker = .idle
  /-- `OSSendMessage` finds room -/
  room : ∀ m next, c.threads .stack = some (.call (.osSendMessage m) next) →
    c.machine.mem.txQueue.messages.length < txSlots
  /-- what was accepted, with at most one frame whose `send_frame` is about to return, is what was
  dequeued, followed by what the worker holds and what is queued -/
  frames : ∃ unreturned, unreturned.length ≤ 1 ∧ (c.threads .stack = none → unreturned = []) ∧
    c.machine.mem.history.accepted ++ unreturned =
      c.machine.mem.history.settled.map TxFate.frame ++ c.machine.mem.travelling
  /-- only `ax_net_stop` discards a frame -/
  discarded : ∀ operation frame, .discarded operation frame ∈ c.machine.mem.history.settled →
    ∃ fuel, operation = some (.stop fuel)
  /-- with nothing in flight every slot is free -/
  free : c.machine.mem.owners = [] → ∀ slot < txSlots, c.machine.mem.txInUse slot = 0

/-- The transmit queue loses, repeats and corrupts nothing, however `send_frame` and the worker
interleave. -/
theorem netSystem_txAccounted {x : NetMachine} {actions : List NetAction} {c : NetConfig}
    (hx : Uninitialised x) (hrun : netSystem.run (System.start x) actions = some c) :
    (c.machine.mem.initialized = 0 →
      c.machine.mem.history.accepted = [] ∧ c.machine.mem.history.sent = []) ∧
    (c.machine.mem.initialized ≠ 0 → TxAccounted c) := by
  have hholds := (netSystem_verified hx).sound hrun
  have hinv := hholds.invariant
  obtain ⟨unreturned, hlength, hposted⟩ := hinv.late
  refine ⟨fun hdown ↦ ?_, fun hup ↦ ?_⟩
  · obtain ⟨-, -, -, hnone, hsettled⟩ := hinv.down hdown
    rw [hposted] at hnone
    refine ⟨(List.append_eq_nil_iff.mp hnone).1, ?_⟩
    rw [TxHistory.sent, hsettled]
    rfl
  · have howned := hinv.up hup
    have hmarked := howned.marked
    exact {
      queued_nodup := (List.nodup_append.mp hmarked.nodup).1
      queued_inUse := by
        intro m hm
        have hmem : m.message ∈ c.machine.mem.owners :=
          List.mem_append_left _ (List.mem_map_of_mem hm)
        have hbound := hmarked.bound _ hmem
        exact ⟨hbound, (hmarked.flags_eq _ hbound).trans (if_pos hmem)⟩
      owners_count := by
        intro slot hslot
        rw [List.Nodup.count hmarked.nodup, hmarked.flags_eq slot hslot]
        by_cases hmem : slot ∈ c.machine.mem.owners
        · simp [hmem]
        · simp [hmem]
      filling_running := fun hidle ↦ (hholds.idle .stack hidle).1
      holding_running := fun hidle ↦ hholds.idle .worker hidle
      room := by
        intro m next hcall
        have hroom := (netSystem_verified hx).call_pre hrun hcall
        rw [← howned.capacity]
        exact hroom
      frames := by
        refine ⟨unreturned, hlength, fun hidle ↦ ?_, hposted.symm.trans howned.posted⟩
        have hall := (hholds.idle .stack hidle).2
        rw [hposted] at hall
        exact List.append_right_eq_self.mp hall
      discarded := hinv.discarded
      free := by
        intro hnone slot hslot
        rw [hmarked.flags_eq slot hslot, hnone]
        exact if_neg List.not_mem_nil }

/-! ## A run -/

def workerSteps (count : ℕ) : List NetAction := List.replicate count (.step .worker)

def workerAnswers (count : ℕ) : List NetAction := List.replicate count (.answer .worker {})

def workerAnswer (code : ℤ) (message : Option OSMessage) : List NetAction :=
  [.answer .worker { code := code, message := message }]

def workerStart (operation : WorkerOp) : List NetAction := [.start .worker (.work operation)]

/-- `ax_net_start` on the first adapter of a title. -/
def scheduleStart : List NetAction :=
  workerStart (.start 1) ++ workerSteps 36 ++ workerAnswers 1 ++ workerSteps 3 ++
    workerAnswers 2 ++ workerSteps 2 ++ workerAnswer 1 none ++ workerSteps 1 ++
    workerAnswers 6 ++ workerSteps 2

/-- `send_frame` on a frame of one byte, up to the message in the queue. -/
def scheduleSend : List NetAction :=
  [.start .stack (.sendFrame { totLen := 1, chain := [[7]] }), .step .stack, .step .stack,
    .answer .stack { code := 1 }]

/-- `ax_net_poll` up to the end of `ax88179_send`. -/
def scheduleTransmit : List NetAction :=
  workerStart (.poll 1) ++ workerSteps 2 ++ workerAnswers 1 ++ workerSteps 2 ++
    workerAnswer 0 (some { message := 0, args0 := 1 }) ++ workerSteps 1 ++ workerAnswers 1

/-- The worker transmits a frame before the `send_frame` that queued it has returned. -/
theorem netSystem_txAccounted_transmit :
    ∃ c, netSystem.run (System.start freshModule) (scheduleStart ++ scheduleSend ++ scheduleTransmit) =
      some c ∧ c.machine.mem.history.sent = [[7]] ∧ TxAccounted c := by
  have hsent : (netSystem.run (System.start freshModule)
      (scheduleStart ++ scheduleSend ++ scheduleTransmit)).map
        (fun c ↦ (c.machine.mem.history.sent, c.machine.mem.initialized)) = some ([[7]], 1) := rfl
  obtain ⟨c, hrun, hc⟩ := Option.map_eq_some_iff.mp hsent
  obtain ⟨hsent, hup⟩ := Prod.mk.inj hc
  have hx : Uninitialised freshModule := ⟨rfl, rfl, rfl⟩
  refine ⟨c, hrun, hsent, (netSystem_txAccounted hx hrun).2 ?_⟩
  rw [hup]
  exact Int.one_ne_zero

end Ax88179Aroma.Net
