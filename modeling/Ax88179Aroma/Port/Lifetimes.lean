import Ax88179Aroma.Port.SyncRuns

/-!
# Mailboxes and semaphores from their creation to their end

`sys_mbox_free` and `sys_sem_free` give a block back to the heap, which may hand it out again for
another object.  lwIP frees an object when no thread uses it any more, so an object is freed here
between two runs, each of which lets every thread finish its call.  However often an address is used
again, what stands there accounts for everything since its own creation, and nothing that is freed
touches another object.
-/

namespace Ax88179Aroma.Port

open Effect Net Program

variable {ι : Type} {x y : PortMachine ι} {p : ℕ}

/-- Only the object at `p` is gone, and its block is on the heap again. -/
structure Freed (x : PortMachine ι) (p : ℕ) (y : PortMachine ι) : Prop where
  queue : y.world.queues p = none
  semaphore : y.world.semaphores p = none
  mutex : y.world.mutexes p = none
  released : y.world.heap.isOut p = false
  others : ∀ q, q ≠ p → y.world.queues q = x.world.queues q ∧
    y.world.semaphores q = x.world.semaphores q ∧ y.world.mutexes q = x.world.mutexes q ∧
      (y.world.heap.isOut q = true ↔ x.world.heap.isOut q = true)

theorem freed_freeBlock (hheap : x.world.heap.Coherent) : Freed x p (freeBlock x p) where
  queue := Function.update_self _ _ _
  semaphore := Function.update_self _ _ _
  mutex := Function.update_self _ _ _
  released := by
    rw [Bool.eq_false_iff]
    exact fun hout ↦ ((Ledger.isOut_release_iff hheap).mp hout).1 rfl
  others q hq := by
    refine ⟨Function.update_of_ne hq _ _, Function.update_of_ne hq _ _,
      Function.update_of_ne hq _ _, (Ledger.isOut_release_iff hheap).trans ?_⟩
    exact and_iff_right hq

/-- An object that exists has a valid handle. -/
theorem PortInv.nonzero (hinv : PortInv x) (hout : x.world.heap.isOut p = true) : p ≠ 0 := by
  rintro rfl
  exact Bool.false_ne_true (hinv.nonnull.symm.trans hout)

theorem PortInv.freeBlock (hinv : PortInv x) (hcreating : ∀ i, x.mem.history.creating i = none) :
    PortInv (freeBlock x p) := by
  have hfreed := freed_freeBlock (p := p) hinv.heap
  refine { hinv with
    heap := hinv.heap.release
    nonnull := ?_
    queue_out := fun q hq ↦ ?_
    semaphore_out := fun q hq ↦ ?_
    creating := fun k q hk ↦ ?_
    mailbox := fun q ↦ ?_
    semaphore := fun q ↦ ?_ }
  · rw [Bool.eq_false_iff]
    intro hout
    have hnull := hinv.nonnull
    rw [((Ledger.isOut_release_iff hinv.heap).mp hout).2] at hnull
    cases hnull
  · by_cases hqp : q = p
    · exact absurd hfreed.queue (hqp ▸ hq)
    · obtain ⟨hsame, -, -, hout⟩ := hfreed.others q hqp
      exact hout.mpr (hinv.queue_out q (hsame ▸ hq))
  · by_cases hqp : q = p
    · exact absurd hfreed.semaphore (hqp ▸ hq)
    · obtain ⟨-, hsame, -, hout⟩ := hfreed.others q hqp
      exact hout.mpr (hinv.semaphore_out q (hsame ▸ hq))
  · cases (hcreating k).symm.trans hk
  · simp only [Port.freeBlock, PortHistory.forget]
    by_cases hqp : q = p
    · rw [hqp, Function.update_self, Function.update_self, Function.update_self]
      exact ⟨rfl, rfl⟩
    · rw [Function.update_of_ne hqp, Function.update_of_ne hqp, Function.update_of_ne hqp]
      exact hinv.mailbox q
  · simp only [Port.freeBlock, PortHistory.forget]
    by_cases hqp : q = p
    · rw [hqp, Function.update_self, Function.update_self, Function.update_self]
      exact ⟨rfl, rfl⟩
    · rw [Function.update_of_ne hqp, Function.update_of_ne hqp, Function.update_of_ne hqp]
      exact hinv.semaphore q

variable [DecidableEq ι] {i : ι}

/-- The three functions that free an object do the same. -/
theorem exec_free {code : ℕ} (hp : p ≠ 0)
    (hexec : Exec (portReplies i) (do invoke (.free p); pure 0) x code y) :
    code = 0 ∧ y = freeBlock x p := by
  have hwp : wp (portReplies i) (fun _ _ ↦ True) (do invoke (.free p); pure 0)
      (fun code y ↦ code = 0 ∧ y = freeBlock x p) x := by
    simp only [invoke, wp_bind, wp_perform, wp_pure]
    refine ⟨trivial, fun answer z hreply ↦ ⟨trivial, ?_⟩⟩
    simp only [portReplies, if_neg hp] at hreply
    exact (Option.some.inj hreply).symm
  exact hexec.post_of_wp hwp

/-- What agrees everywhere agrees where nothing was forgotten. -/
theorem update_congr {α : Type} {f g : ℕ → α} (a : α) (h : ∀ q, f q = g q) (q : ℕ) :
    Function.update f p a q = Function.update g p a q := by
  rw [funext h]

theorem update_project {α β : Type} (project : α → β) (f : ℕ → α) (a : α) (q : ℕ) :
    project (Function.update f p a q) = Function.update (fun q ↦ project (f q)) p (project a) q :=
  Function.apply_update (fun _ ↦ project) f p a q

/-- A thread that has reported everything has reported everything that is remembered. -/
theorem Holding.freeBlock (h : Holding i {} x) : Holding i {} (freeBlock x p) where
  entered q := by
    refine (update_project (byThread i) _ [] q).trans ?_
    refine (update_congr [] (fun q ↦ ?_) q).trans (List.append_nil _).symm
    exact (h.entered q).trans (List.append_nil _)
  left q := by
    refine (update_project (byThread i) _ [] q).trans ?_
    refine (update_congr [] (fun q ↦ ?_) q).trans (List.append_nil _).symm
    exact (h.left q).trans (List.append_nil _)
  given q := (update_project (List.count i) _ [] q).trans (update_congr 0 h.given q)
  taken q := (update_project (List.count i) _ [] q).trans (update_congr 0 h.taken q)
  creating := h.creating
  timing := h.timing

/-- A mailbox or a semaphore that exists is freed. -/
inductive Frees (x y : PortMachine ι) : Prop where
  | mailbox (i : ι) (p code : ℕ) (hexists : x.world.queues p ≠ none)
      (hexec : Exec (portReplies i) (sysMboxFree p) x code y)
  | semaphore (i : ι) (p code : ℕ) (hexists : x.world.semaphores p ≠ none)
      (hexec : Exec (portReplies i) (sysSemFree p) x code y)

theorem PortSound.frees (hsound : PortSound x) (hidle : ∀ i, Holding i {} x) (h : Frees x y) :
    PortSound y ∧ ∀ i, Holding i {} y := by
  have hfree : ∀ p, PortSound (freeBlock x p) ∧ ∀ i, Holding i {} (freeBlock x p) := by
    intro p
    refine ⟨{ hsound.toPortInv.freeBlock fun i ↦ (hidle i).creating with
      late := fun i ↦ ?_ }, fun i ↦ (hidle i).freeBlock⟩
    exact ⟨{}, (hidle i).freeBlock, Nat.zero_le 1⟩
  cases h with
  | mailbox i p code hexists hexec =>
    rw [(exec_free (hsound.nonzero (hsound.queue_out p hexists)) hexec).2]
    exact hfree p
  | semaphore i p code hexists hexec =>
    rw [(exec_free (hsound.nonzero (hsound.semaphore_out p hexists)) hexec).2]
    exact hfree p

/-- The machines between the runs of lwIP's threads. -/
abbrev PortSessions (boot : ℕ) : PortMachine ι → Prop :=
  Sessions portSystem Frees (freshPort boot)

theorem PortSessions.verified {boot : ℕ} (hx : PortSessions boot x) :
    Verified portSystem x PortSound PortRely (fun _ _ _ ↦ True) (fun i ↦ Holding i {}) :=
  Sessions.verified (portSystem_verified boot) (fun _ _ hsound hidle ↦ hsound.frees hidle) hx

/-- However often objects were created and freed before, every mailbox and every semaphore of a run
has a valid handle and accounts for what happened since it was created. -/
theorem portSessions_accounted {boot : ℕ} (hx : PortSessions boot x)
    {actions : List (PortAction ι)} {c : PortConfig ι}
    (hrun : portSystem.run (System.start x) actions = some c) :
    (∀ p box, c.machine.world.queues p = some box →
      sysMboxValid p = true ∧ MailboxAccounted c p box) ∧
    ∀ p count, c.machine.world.semaphores p = some count →
      sysSemValid p = true ∧ SemaphoreAccounted c p count := by
  have hholds := hx.verified.sound hrun
  refine ⟨fun p box hbox ↦ ⟨?_, mailbox_accounted hholds hbox⟩,
    fun p count hcount ↦ ⟨?_, semaphore_accounted hholds hcount⟩⟩
  · exact decide_eq_true (hholds.invariant.nonzero (hholds.invariant.queue_out p (by simp [hbox])))
  · exact decide_eq_true
      (hholds.invariant.nonzero (hholds.invariant.semaphore_out p (by simp [hcount])))

/-- `sys_mbox_free` ends one mailbox and nothing else. -/
theorem sysMboxFree_freed {boot : ℕ} (hx : PortSessions boot x) {code : ℕ}
    (hexists : x.world.queues p ≠ none) (hexec : Exec (portReplies i) (sysMboxFree p) x code y) :
    code = 0 ∧ Freed x p y := by
  have hsound := hx.verified.initial_inv
  obtain ⟨rfl, rfl⟩ := exec_free (hsound.nonzero (hsound.queue_out p hexists)) hexec
  exact ⟨rfl, freed_freeBlock hsound.heap⟩

/-- `sys_sem_free` ends one semaphore and nothing else. -/
theorem sysSemFree_freed {boot : ℕ} (hx : PortSessions boot x) {code : ℕ}
    (hexists : x.world.semaphores p ≠ none)
    (hexec : Exec (portReplies i) (sysSemFree p) x code y) : code = 0 ∧ Freed x p y := by
  have hsound := hx.verified.initial_inv
  obtain ⟨rfl, rfl⟩ := exec_free (hsound.nonzero (hsound.semaphore_out p hexists)) hexec
  exact ⟨rfl, freed_freeBlock hsound.heap⟩

end Ax88179Aroma.Port
