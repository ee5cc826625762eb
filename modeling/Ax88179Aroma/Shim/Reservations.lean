import Ax88179Aroma.Shim.Workers

/-!
# Reservations of relay slots

Threads reserve relay slots and reap ended workers while the workers run.  A reservation lives from
its compare-exchange on `allocated` until the worker it created was reaped.  It clears `done` only
after the compare-exchange, so a reaper that looks in between takes the slot away, and two reapers
of one worker free the slot twice.  Where no worker is joined twice, a slot has one reservation.
-/

namespace Ax88179Aroma.Shim

open Effect Program

/-! ## The system -/

inductive RelayOperation where
  | reserve
  | stopAll (fuel : ℕ)
  | work (fuel : ℕ)

def slotSystem :
    System RelayThread RelayOperation Empty ShimState WorkerWorld ShimCall ShimReply where
  reply _ := workerReply
  env _ _ := none
  body
    | .caller _, .stopAll fuel => nsslRelayStopAll fuel
    | .worker slot, .work fuel => runWorker slot fuel
    | _, _ => do
      let _ ← nsslRelayReserve
      pure ()
  enabled
    | .caller _, .reserve, _ => true
    | .caller _, .stopAll _, _ => true
    | .worker slot, .work _, x => x.world.worker slot = .running
    | _, _, _ => false

/-! ## Observation -/

/-- The live reservations of each slot: threads that have claimed it and not yet created its worker,
and workers that were created and not yet reaped; and who reaps the slot. -/
structure SlotHistory where
  claims : ℕ → List RelayThread := fun _ ↦ []
  workers : ℕ → ℕ := fun _ ↦ 0
  reaper : ℕ → Option RelayThread := fun _ ↦ none

abbrev SlotWatched := Watched ShimState WorkerWorld SlotHistory

/-- A thread that frees a slot it has claimed gives its claim up; any other one has reaped the
worker, if that has ended. -/
def slotAccess (t : RelayThread) (update : ShimState → ShimState) (x : SlotWatched) :
    SlotHistory where
  claims k :=
    if Takes update x.mem k then t :: x.ghost.claims k
    else if Frees update x.mem k then (x.ghost.claims k).erase t
    else x.ghost.claims k
  workers k :=
    if Frees update x.mem k ∧ t ∉ x.ghost.claims k ∧ x.world.alive k = false then 0
    else x.ghost.workers k
  reaper k :=
    if Frees update x.mem k ∧ x.ghost.reaper k = some t then none else x.ghost.reaper k

def slotObserver : Monitor RelayThread ShimState WorkerWorld ShimCall ShimReply SlotHistory where
  access t update x := some (slotAccess t update x)
  reply
    | t, .os (.osCreateThread slot), answer, x =>
      some (if answer.code = 0 then x.ghost
      else { x.ghost with
        claims := Function.update x.ghost.claims slot ((x.ghost.claims slot).erase t)
        workers := Function.update x.ghost.workers slot (x.ghost.workers slot + 1) })
    | t, .os (.osJoinThread slot), _, x =>
      some { x.ghost with reaper := Function.update x.ghost.reaper slot (some t) }
    | _, _, _, x => some x.ghost

/-- `OSJoinThread` is called only for a thread that ended and was not joined since its creation. -/
def joinsOnce : ShimCall → SlotWatched → Bool
  | .os (.osJoinThread slot), x => x.world.worker slot = .terminated
  | _, _ => true

def slotMonitor : Monitor RelayThread ShimState WorkerWorld ShimCall ShimReply SlotHistory :=
  slotObserver.restrict (fun _ _ _ ↦ true) fun _ ↦ joinsOnce

/-! ## The invariant -/

structure SlotInv (x : SlotWatched) (k : ℕ) : Prop where
  free : allocation x.mem k = 0 → x.ghost.claims k = [] ∧ x.ghost.workers k = 0
  single : (x.ghost.claims k).length + x.ghost.workers k ≤ 1
  rest : x.ghost.workers k = 0 → x.world.worker k = .absent ∨ x.world.worker k = .joined
  reaped : ∀ u, x.ghost.reaper k = some u → x.ghost.workers k = 1 ∧ x.world.worker k = .joined

/-- The other threads leave the claims of `t` and the slot it reaps alone. -/
structure SlotRely (t : RelayThread) (x y : SlotWatched) : Prop where
  claims : ∀ k, t ∈ y.ghost.claims k ↔ t ∈ x.ghost.claims k
  reaper : ∀ k, y.ghost.reaper k = some t ↔ x.ghost.reaper k = some t

/-- A thread is created for the only reservation of its slot. -/
def createsOwn (t : RelayThread) : ShimCall → SlotWatched → Prop
  | .os (.osCreateThread slot), x => x.ghost.claims slot = [t] ∧ x.ghost.workers slot = 0
  | _, _ => True

def slotProtocol : Protocol RelayThread ShimState WorkerWorld ShimCall SlotHistory where
  inv x := ∀ k, SlotInv x k
  rely := SlotRely
  pre := createsOwn

theorem SlotRely.refl (t : RelayThread) (x : SlotWatched) : SlotRely t x x :=
  ⟨fun _ ↦ Iff.rfl, fun _ ↦ Iff.rfl⟩

theorem SlotRely.trans {t : RelayThread} {x y z : SlotWatched} (hxy : SlotRely t x y)
    (hyz : SlotRely t y z) : SlotRely t x z :=
  ⟨fun k ↦ (hyz.claims k).trans (hxy.claims k), fun k ↦ (hyz.reaper k).trans (hxy.reaper k)⟩

/-! ## Stages of a thread -/

/-- The slot that a thread has claimed and the slot that it reaps. -/
structure SlotStage (t : RelayThread) (claimed reaping : Option ℕ) (x : SlotWatched) : Prop where
  claims : ∀ k, t ∈ x.ghost.claims k ↔ claimed = some k
  reaper : ∀ k, x.ghost.reaper k = some t ↔ reaping = some k

section Stages

variable {t : RelayThread} {claimed reaping : Option ℕ} {k : ℕ} {x y : SlotWatched} {α : Type}

theorem steady_slotStage : slotProtocol.Steady t (SlotStage t claimed reaping) :=
  fun _ _ hx hrely _ ↦ ⟨fun k ↦ (hrely.claims k).trans (hx.claims k),
    fun k ↦ (hrely.reaper k).trans (hx.reaper k)⟩

abbrev SlotSecure (t : RelayThread) (program : ShimM α) (post : α → SlotWatched → Prop)
    (x : SlotWatched) : Prop :=
  Secure slotSystem slotMonitor slotProtocol t program post x

/-- An access that neither takes nor frees a slot is not recorded. -/
theorem slotAccess_quiet {update : ShimState → ShimState}
    (hsame : allocation (update x.mem) = allocation x.mem) : slotAccess t update x = x.ghost := by
  have htakes : ∀ k, ¬ Takes update x.mem k := by
    rintro k ⟨hfree, htaken⟩
    rw [hsame] at htaken
    exact htaken hfree
  have hfrees : ∀ k, ¬ Frees update x.mem k := by
    rintro k ⟨htaken, hfree⟩
    rw [hsame] at hfree
    exact htaken hfree
  have hclaims : (slotAccess t update x).claims = x.ghost.claims := funext fun k ↦ by
    simp only [slotAccess, if_neg (htakes k), if_neg (hfrees k)]
  have hworkers : (slotAccess t update x).workers = x.ghost.workers := funext fun k ↦
    if_neg fun h ↦ hfrees k h.1
  have hreaper : (slotAccess t update x).reaper = x.ghost.reaper := funext fun k ↦
    if_neg fun h ↦ hfrees k h.1
  calc slotAccess t update x
      = ⟨(slotAccess t update x).claims, (slotAccess t update x).workers,
          (slotAccess t update x).reaper⟩ := rfl
    _ = x.ghost := by rw [hclaims, hworkers, hreaper]

/-- The allocation, the history and the ended threads stay. -/
theorem permits_slotQuiet (hsame : allocation y.mem = allocation x.mem) (hghost : y.ghost = x.ghost)
    (hworker : ∀ k, (x.world.worker k = .absent ∨ x.world.worker k = .joined) →
      y.world.worker k = x.world.worker k)
    (hx : ∀ k, SlotInv x k) : slotProtocol.Permits t x y := by
  refine ⟨fun k ↦ ⟨?_, ?_, fun hnone ↦ ?_, fun u hu ↦ ?_⟩, fun u _ ↦ ⟨fun k ↦ ?_, fun k ↦ ?_⟩⟩
  · rw [hsame, hghost]
    exact (hx k).free
  · rw [hghost]
    exact (hx k).single
  · rw [hghost] at hnone
    rw [hworker k ((hx k).rest hnone)]
    exact (hx k).rest hnone
  · rw [hghost] at hu ⊢
    obtain ⟨hworkers, hjoined⟩ := (hx k).reaped u hu
    exact ⟨hworkers, (hworker k (.inr hjoined)).trans hjoined⟩
  · rw [hghost]
  · rw [hghost]

/-- A thread object changes only from one state to the next. -/
theorem worker_of_advance {w : WorkerWorld} {slot : ℕ} {before after : WorkerState}
    (habsent : before ≠ .absent) (hjoined : before ≠ .joined)
    (hk : w.worker k = .absent ∨ w.worker k = .joined) :
    (if w.worker slot = before then w.set slot after else w).worker k = w.worker k := by
  split
  · rename_i hbefore
    refine WorkerWorld.set_of_ne w ?_ after
    rintro rfl
    rw [hbefore] at hk
    rcases hk with h | h
    · exact habsent h
    · exact hjoined h
  · rfl

theorem slotReply_threadless {request : ShimCall} (hthreadless : Threadless request)
    {answer : ShimReply} {z : Machine ShimState WorkerWorld} {g : SlotHistory}
    (hreply : slotSystem.reply t request answer x.toMachine = some z)
    (haccepted : slotMonitor.reply t request answer x = some g) :
    z.mem = x.mem ∧ g = x.ghost ∧ ∀ k, (x.world.worker k = .absent ∨ x.world.worker k = .joined) →
      z.world.worker k = x.world.worker k := by
  obtain ⟨w, heffect, rfl⟩ := Option.map_eq_some_iff.mp hreply
  have hworld : ∀ k, (x.world.worker k = .absent ∨ x.world.worker k = .joined) →
      w.worker k = x.world.worker k := by
    intro k hk
    unfold workerEffect at heffect
    split at heffect
    · cases hthreadless
    · rw [← Option.some.inj heffect]
      exact worker_of_advance nofun nofun hk
    · split at heffect
      · rw [← Option.some.inj heffect]
      · cases heffect
    · cases hthreadless
    · rw [← Option.some.inj heffect]
      exact worker_of_advance nofun nofun hk
    · rw [← Option.some.inj heffect]
  refine ⟨rfl, ?_, hworld⟩
  have hobserved : slotObserver.reply t request answer x = some g := by
    simp only [slotMonitor, Monitor.restrict] at haccepted
    split at haccepted
    · exact haccepted
    · cases haccepted
  simp only [slotObserver] at hobserved
  split at hobserved
  · cases hthreadless
  · cases hthreadless
  · exact (Option.some.inj hobserved).symm

theorem secure_threadless {program : ShimM α} (hkeeps : Keeps allocation Threadless program)
    (hx : SlotStage t claimed reaping x) :
    SlotSecure t program (fun _ ↦ SlotStage t claimed reaping) x := by
  refine secure_keeps hkeeps steady_slotStage (fun y update g hview hinv hy haccess ↦ ?_)
    (fun y request hthreadless hinv hy ↦ ⟨?_, fun answer z g hreply haccepted ↦ ?_⟩) hx
  · have hghost : slotAccess t update y = g := Option.some.inj haccess
    rw [slotAccess_quiet (hview y.mem)] at hghost
    subst g
    exact ⟨permits_slotQuiet (hview y.mem) rfl (fun _ _ ↦ rfl) hinv, hy.claims, hy.reaper⟩
  · change createsOwn t request y
    unfold createsOwn
    split
    · cases hthreadless
    · trivial
  · obtain ⟨hmem, rfl, hworker⟩ := slotReply_threadless hthreadless hreply haccepted
    exact ⟨permits_slotQuiet (congrArg allocation hmem) rfl hworker hinv, hy.claims, hy.reaper⟩

/-! ## Steps on one slot -/

/-- A step of thread `t` that concerns no slot but `k`. -/
structure OneSlot (t : RelayThread) (k : ℕ) (x y : SlotWatched) : Prop where
  allocation_of_ne : ∀ j, j ≠ k → allocation y.mem j = allocation x.mem j
  worker_of_ne : ∀ j, j ≠ k → y.world.worker j = x.world.worker j
  claims_of_ne : ∀ j, j ≠ k → y.ghost.claims j = x.ghost.claims j
  workers_of_ne : ∀ j, j ≠ k → y.ghost.workers j = x.ghost.workers j
  reaper_of_ne : ∀ j, j ≠ k → y.ghost.reaper j = x.ghost.reaper j
  claims : ∀ u, u ≠ t → (u ∈ y.ghost.claims k ↔ u ∈ x.ghost.claims k)
  reaper : ∀ u, u ≠ t → (y.ghost.reaper k = some u ↔ x.ghost.reaper k = some u)
  slot : SlotInv y k

theorem OneSlot.permits (h : OneSlot t k x y) (hx : ∀ j, SlotInv x j) :
    slotProtocol.Permits t x y := by
  refine ⟨fun j ↦ ?_, fun u hu ↦ ⟨fun j ↦ ?_, fun j ↦ ?_⟩⟩
  · by_cases hj : j = k
    · rw [hj]
      exact h.slot
    · have hslot := hx j
      refine ⟨?_, ?_, ?_, ?_⟩
      · rw [h.allocation_of_ne j hj, h.claims_of_ne j hj, h.workers_of_ne j hj]
        exact hslot.free
      · rw [h.claims_of_ne j hj, h.workers_of_ne j hj]
        exact hslot.single
      · rw [h.workers_of_ne j hj, h.worker_of_ne j hj]
        exact hslot.rest
      · rw [h.reaper_of_ne j hj, h.workers_of_ne j hj, h.worker_of_ne j hj]
        exact hslot.reaped
  · by_cases hj : j = k
    · rw [hj]
      exact h.claims u hu
    · rw [h.claims_of_ne j hj]
  · by_cases hj : j = k
    · rw [hj]
      exact h.reaper u hu
    · rw [h.reaper_of_ne j hj]

/-- The stage of the thread itself after such a step. -/
theorem OneSlot.stage (h : OneSlot t k x y) (hx : SlotStage t claimed reaping x)
    {claimed' reaping' : Option ℕ}
    (hclaimed : ∀ j, j ≠ k → (claimed' = some j ↔ claimed = some j))
    (hreaping : ∀ j, j ≠ k → (reaping' = some j ↔ reaping = some j))
    (hclaims : t ∈ y.ghost.claims k ↔ claimed' = some k)
    (hreaper : y.ghost.reaper k = some t ↔ reaping' = some k) :
    SlotStage t claimed' reaping' y := by
  refine ⟨fun j ↦ ?_, fun j ↦ ?_⟩
  · by_cases hj : j = k
    · rw [hj]
      exact hclaims
    · rw [h.claims_of_ne j hj, hclaimed j hj]
      exact hx.claims j
  · by_cases hj : j = k
    · rw [hj]
      exact hreaper
    · rw [h.reaper_of_ne j hj, hreaping j hj]
      exact hx.reaper j

/-- What the monitor makes of an access that changes the allocation of slot `k` only. -/
theorem slotAccess_of_ne {update : ShimState → ShimState} {j : ℕ}
    (hsame : allocation (update x.mem) j = allocation x.mem j) :
    (slotAccess t update x).claims j = x.ghost.claims j ∧
      (slotAccess t update x).workers j = x.ghost.workers j ∧
      (slotAccess t update x).reaper j = x.ghost.reaper j := by
  have htakes : ¬ Takes update x.mem j := by
    rintro ⟨hfree, htaken⟩
    exact htaken (hsame.trans hfree)
  have hfrees : ¬ Frees update x.mem j := by
    rintro ⟨htaken, hfree⟩
    exact htaken (hsame.symm.trans hfree)
  refine ⟨?_, if_neg fun h ↦ hfrees h.1, if_neg fun h ↦ hfrees h.1⟩
  simp only [slotAccess, if_neg htakes, if_neg hfrees]

/-- The members of a list with at most one element. -/
theorem SlotInv.claims_eq (h : SlotInv x k) (hmem : t ∈ x.ghost.claims k) :
    x.ghost.claims k = [t] ∧ x.ghost.workers k = 0 := by
  have hsingle := h.single
  match hclaims : x.ghost.claims k with
  | [] =>
    rw [hclaims] at hmem
    cases hmem
  | [u] =>
    rw [hclaims] at hmem hsingle
    rw [List.mem_singleton.mp hmem]
    rw [List.length_singleton] at hsingle
    exact ⟨rfl, by omega⟩
  | u :: v :: rest =>
    rw [hclaims] at hsingle
    simp only [List.length_cons] at hsingle
    omega

/-! ## Reaping -/

theorem secure_freeReaped (hx : SlotStage t none (some k) x) :
    SlotSecure t (storeRelay k fun r ↦ { r with allocated := 0 })
      (fun _ ↦ SlotStage t none none) x := by
  refine secure_store hx steady_slotStage fun y g hstage hinv haccess ↦ ?_
  have hghost : g = slotAccess t (freeRelay k) y := (Option.some.inj haccess).symm
  have hreaper : y.ghost.reaper k = some t := (hstage.reaper k).mpr rfl
  obtain ⟨hone, hjoined⟩ := (hinv k).reaped t hreaper
  have hforeign : t ∉ y.ghost.claims k := fun h ↦ nomatch (hstage.claims k).mp h
  have hbusy : allocation y.mem k ≠ 0 := by
    intro hfree
    rw [((hinv k).free hfree).2] at hone
    cases hone
  have hfrees : Frees (freeRelay k) y.mem k := ⟨hbusy, allocation_freeRelay y.mem k⟩
  have hnone : y.ghost.claims k = [] := by
    have hsingle := (hinv k).single
    rw [hone] at hsingle
    exact List.eq_nil_of_length_eq_zero (by omega)
  have hended : y.world.alive k = false := by simp [WorkerWorld.alive, hjoined]
  have hclaims : g.claims k = [] := by
    rw [hghost]
    simp only [slotAccess, if_neg fun h : Takes (freeRelay k) y.mem k ↦ hbusy h.1, if_pos hfrees,
      hnone, List.erase_nil]
  have hworkers : g.workers k = 0 := by
    rw [hghost]
    exact if_pos ⟨hfrees, hforeign, hended⟩
  have hafter : g.reaper k = none := by
    rw [hghost]
    exact if_pos ⟨hfrees, hreaper⟩
  have hother : ∀ j, j ≠ k → g.claims j = y.ghost.claims j ∧ g.workers j = y.ghost.workers j ∧
      g.reaper j = y.ghost.reaper j := by
    intro j hj
    rw [hghost]
    exact slotAccess_of_ne (allocation_freeRelay_of_ne y.mem hj)
  have hstep : OneSlot t k y (y.access (freeRelay k) g) := {
    allocation_of_ne := fun j hj ↦ allocation_freeRelay_of_ne y.mem hj
    worker_of_ne := fun _ _ ↦ rfl
    claims_of_ne := fun j hj ↦ (hother j hj).1
    workers_of_ne := fun j hj ↦ (hother j hj).2.1
    reaper_of_ne := fun j hj ↦ (hother j hj).2.2
    claims := fun u _ ↦ by
      change u ∈ g.claims k ↔ _
      rw [hclaims, hnone]
    reaper := fun u hu ↦ by
      change g.reaper k = some u ↔ _
      rw [hafter, hreaper]
      exact iff_of_false nofun fun h ↦ hu (Option.some.inj h).symm
    slot := {
      free := fun _ ↦ ⟨hclaims, hworkers⟩
      single := by
        change (g.claims k).length + g.workers k ≤ 1
        rw [hclaims, hworkers]
        exact Nat.zero_le 1
      rest := fun _ ↦ .inr hjoined
      reaped := fun u hu ↦ nomatch hafter.symm.trans hu } }
  refine ⟨hstep.permits hinv, hstep.stage hstage (fun _ _ ↦ Iff.rfl) (fun j hj ↦ ?_) ?_ ?_⟩
  · exact iff_of_false nofun fun h ↦ hj (Option.some.inj h).symm
  · change t ∈ g.claims k ↔ _
    rw [hclaims]
    exact iff_of_false nofun nofun
  · change g.reaper k = some t ↔ _
    rw [hafter]
    exact iff_of_false nofun nofun

/-- The call that a reaper is sure of: the worker ended and nobody has joined it. -/
theorem secure_osJoinThread (hx : SlotStage t none none x) :
    SlotSecure t (os (.osJoinThread k)) (fun _ ↦ SlotStage t none (some k)) x := by
  refine secure_perform hx steady_slotStage fun y hstage hinv ↦ ⟨trivial, fun answer z g hreply hg ↦ ?_⟩
  obtain ⟨w, heffect, rfl⟩ := Option.map_eq_some_iff.mp hreply
  change (if decide (y.world.worker k = .terminated) = true then _ else none) = some g at hg
  split at hg
  · rename_i hended
    have hended : y.world.worker k = .terminated := of_decide_eq_true hended
    have hghost : g = { y.ghost with reaper := Function.update y.ghost.reaper k (some t) } :=
      (Option.some.inj hg).symm
    have hworld : w = y.world.set k .joined := by
      have hdead : y.world.alive k = false := by simp [WorkerWorld.alive, hended]
      change (if y.world.alive k = true then none else _) = some w at heffect
      rw [hdead, if_neg Bool.false_ne_true] at heffect
      exact (Option.some.inj heffect).symm
    have hone : y.ghost.workers k = 1 := by
      have hle := (hinv k).single
      have hne : y.ghost.workers k ≠ 0 := by
        intro hzero
        rcases (hinv k).rest hzero with h | h
        · cases h.symm.trans hended
        · cases h.symm.trans hended
      omega
    have hfree : y.ghost.reaper k = none := by
      cases hreaper : y.ghost.reaper k with
      | none => rfl
      | some u => cases ((hinv k).reaped u hreaper).2.symm.trans hended
    have hself : Function.update y.ghost.reaper k (some t) k = some t := Function.update_self _ _ _
    have hstep : OneSlot t k y { mem := y.mem, world := w, ghost := g } := by
      subst hghost hworld
      exact {
        allocation_of_ne := fun _ _ ↦ rfl
        worker_of_ne := fun j hj ↦ WorkerWorld.set_of_ne y.world hj _
        claims_of_ne := fun _ _ ↦ rfl
        workers_of_ne := fun _ _ ↦ rfl
        reaper_of_ne := fun j hj ↦ Function.update_of_ne hj _ _
        claims := fun _ _ ↦ Iff.rfl
        reaper := fun u hu ↦ by
          change Function.update y.ghost.reaper k (some t) k = some u ↔ _
          rw [hself, hfree]
          exact iff_of_false (fun h ↦ hu (Option.some.inj h).symm) nofun
        slot := {
          free := (hinv k).free
          single := (hinv k).single
          rest := fun hzero ↦ nomatch hone.symm.trans hzero
          reaped := fun _ _ ↦ ⟨hone, WorkerWorld.set_self _ _ _⟩ } }
    refine ⟨hstep.permits hinv, hstep.stage hstage (fun _ _ ↦ Iff.rfl) (fun j hj ↦ ?_) ?_ ?_⟩
    · exact iff_of_false (fun h ↦ hj (Option.some.inj h).symm) (by simp)
    · subst hghost
      exact hstage.claims k
    · subst hghost
      exact iff_of_true hself rfl
  · cases hg

theorem secure_reapSlot (hx : SlotStage t none none x) :
    SlotSecure t (reapSlot k) (fun _ ↦ SlotStage t none none) x := by
  have hreapable : Keeps allocation Threadless (reapable k) := by
    refine Keeps.bind (keeps_loadRelay k _) fun _ ↦ Keeps.ite (keeps_pure _) ?_
    refine Keeps.bind (keeps_loadRelay k _) fun _ ↦ Keeps.ite (keeps_pure _) ?_
    exact Keeps.bind (keeps_perform trivial) fun _ ↦ keeps_pure _
  refine (secure_bind _ _ _ _).mpr (secure_mono (secure_threadless hreapable hx) fun free y hy ↦ ?_)
  rw [secure_when]
  split
  · refine (secure_bind _ _ _ _).mpr ((secure_bind _ _ _ _).mpr ?_)
    refine secure_mono (secure_osJoinThread hy) fun _ y hy ↦ (secure_bind _ _ _ _).mpr ?_
    refine secure_mono (secure_threadless (keeps_relayStore fun _ ↦ rfl) hy) fun _ y hy ↦ ?_
    exact secure_freeReaped hy
  · exact hy

theorem secure_nsslRelayReap (hx : SlotStage t none none x) :
    SlotSecure t nsslRelayReap (fun _ ↦ SlotStage t none none) x :=
  secure_each (fun _ ↦ SlotStage t none none) hx fun _ _ _ hy ↦ secure_reapSlot hy

/-! ## Reserving -/

/-- Another thread's claim does not change while this one claims a free slot. -/
theorem secure_claimRelay (hx : SlotStage t none none x) :
    SlotSecure t (access (claimRelay k)) (fun claimed y ↦
      if claimed then SlotStage t (some k) none y else SlotStage t none none y) x := by
  refine secure_access hx steady_slotStage fun y g hstage hinv haccess ↦ ?_
  set update := fun old ↦ (claimRelay k old).2 with hupdate
  have hghost : g = slotAccess t update y := (Option.some.inj haccess).symm
  by_cases hfree : allocation y.mem k = 0
  · have hclaim : claimRelay k y.mem = (true, y.mem.setRelay k fun r ↦ { r with allocated := 1 }) :=
      if_pos hfree
    have hother : ∀ j, j ≠ k → allocation (update y.mem) j = allocation y.mem j := by
      intro j hj
      rw [hupdate]
      change allocation (claimRelay k y.mem).2 j = _
      rw [hclaim]
      exact allocation_setRelay_of_ne y.mem hj fun r ↦ { r with allocated := 1 }
    have htaken : allocation (update y.mem) k = 1 := by
      change allocation (claimRelay k y.mem).2 k = _
      rw [hclaim, allocation, ShimState.setRelay_self]
    have hnonzero : allocation (update y.mem) k ≠ 0 := by
      rw [htaken]
      exact Int.one_ne_zero
    obtain ⟨hnone, hzero⟩ := (hinv k).free hfree
    have hclaims : g.claims k = [t] := by
      rw [hghost]
      simp only [slotAccess, if_pos (⟨hfree, hnonzero⟩ : Takes update y.mem k), hnone]
    have hnotfrees : ¬ Frees update y.mem k := fun h ↦ h.1 hfree
    have hworkers : g.workers k = 0 := by
      rw [hghost]
      exact (if_neg fun h ↦ hnotfrees h.1).trans hzero
    have hreaper : g.reaper k = y.ghost.reaper k := by
      rw [hghost]
      exact if_neg fun h ↦ hnotfrees h.1
    have hunreaped : ∀ u, y.ghost.reaper k ≠ some u := by
      intro u hu
      cases hzero.symm.trans ((hinv k).reaped u hu).1
    have hkept : ∀ j, j ≠ k → g.claims j = y.ghost.claims j ∧ g.workers j = y.ghost.workers j ∧
        g.reaper j = y.ghost.reaper j := by
      intro j hj
      rw [hghost]
      exact slotAccess_of_ne (hother j hj)
    have hstep : OneSlot t k y (y.access update g) := {
      allocation_of_ne := hother
      worker_of_ne := fun _ _ ↦ rfl
      claims_of_ne := fun j hj ↦ (hkept j hj).1
      workers_of_ne := fun j hj ↦ (hkept j hj).2.1
      reaper_of_ne := fun j hj ↦ (hkept j hj).2.2
      claims := fun u hu ↦ by
        change u ∈ g.claims k ↔ _
        rw [hclaims, hnone]
        exact iff_of_false (fun h ↦ hu (List.mem_singleton.mp h)) List.not_mem_nil
      reaper := fun u _ ↦ by
        change g.reaper k = some u ↔ _
        rw [hreaper]
      slot := {
        free := fun h ↦ absurd h hnonzero
        single := by
          change (g.claims k).length + g.workers k ≤ 1
          rw [hclaims, hworkers]
          exact Nat.le_refl 1
        rest := fun _ ↦ (hinv k).rest hzero
        reaped := fun u hu ↦ absurd (hreaper.symm.trans hu) (hunreaped u) } }
    rw [hclaim, if_pos rfl]
    refine ⟨hstep.permits hinv, hstep.stage hstage (fun j hj ↦ ?_) (fun _ _ ↦ Iff.rfl) ?_ ?_⟩
    · exact iff_of_false (fun h ↦ hj (Option.some.inj h).symm) (by simp)
    · change t ∈ g.claims k ↔ _
      rw [hclaims]
      exact iff_of_true List.mem_cons_self rfl
    · exact iff_of_false (fun h ↦ hunreaped t (hreaper.symm.trans h)) (by simp)
  · have hclaim : claimRelay k y.mem = (false, y.mem) := if_neg hfree
    have hsame : allocation (update y.mem) = allocation y.mem :=
      congrArg (fun pair : Bool × ShimState ↦ allocation pair.2) hclaim
    rw [slotAccess_quiet hsame] at hghost
    subst hghost
    rw [hclaim, if_neg Bool.false_ne_true]
    exact ⟨permits_slotQuiet hsame rfl (fun _ _ ↦ rfl) hinv, hstage.claims, hstage.reaper⟩

/-- A thread whose worker could not be created gives the slot back. -/
theorem secure_freeClaimed (hx : SlotStage t (some k) none x) :
    SlotSecure t (storeRelay k fun r ↦ { r with allocated := 0 })
      (fun _ ↦ SlotStage t none none) x := by
  refine secure_store hx steady_slotStage fun y g hstage hinv haccess ↦ ?_
  have hghost : g = slotAccess t (freeRelay k) y := (Option.some.inj haccess).symm
  have hmem : t ∈ y.ghost.claims k := (hstage.claims k).mpr rfl
  obtain ⟨hone, hzero⟩ := (hinv k).claims_eq hmem
  have hbusy : allocation y.mem k ≠ 0 := by
    intro hfree
    rw [((hinv k).free hfree).1] at hmem
    cases hmem
  have hfrees : Frees (freeRelay k) y.mem k := ⟨hbusy, allocation_freeRelay y.mem k⟩
  have hclaims : g.claims k = [] := by
    rw [hghost]
    simp only [slotAccess, if_neg fun h : Takes (freeRelay k) y.mem k ↦ hbusy h.1, if_pos hfrees,
      hone, List.erase_cons_head]
  have hworkers : g.workers k = 0 := by
    rw [hghost]
    exact (if_neg fun h ↦ h.2.1 hmem).trans hzero
  have hunreaped : ∀ u, y.ghost.reaper k ≠ some u := by
    intro u hu
    cases hzero.symm.trans ((hinv k).reaped u hu).1
  have hreaper : g.reaper k = y.ghost.reaper k := by
    rw [hghost]
    exact if_neg fun h ↦ hunreaped t h.2
  have hkept : ∀ j, j ≠ k → g.claims j = y.ghost.claims j ∧ g.workers j = y.ghost.workers j ∧
      g.reaper j = y.ghost.reaper j := by
    intro j hj
    rw [hghost]
    exact slotAccess_of_ne (allocation_freeRelay_of_ne y.mem hj)
  have hstep : OneSlot t k y (y.access (freeRelay k) g) := {
    allocation_of_ne := fun j hj ↦ allocation_freeRelay_of_ne y.mem hj
    worker_of_ne := fun _ _ ↦ rfl
    claims_of_ne := fun j hj ↦ (hkept j hj).1
    workers_of_ne := fun j hj ↦ (hkept j hj).2.1
    reaper_of_ne := fun j hj ↦ (hkept j hj).2.2
    claims := fun u hu ↦ by
      change u ∈ g.claims k ↔ _
      rw [hclaims, hone]
      exact iff_of_false nofun fun h ↦ hu (List.mem_singleton.mp h)
    reaper := fun u _ ↦ by
      change g.reaper k = some u ↔ _
      rw [hreaper]
    slot := {
      free := fun _ ↦ ⟨hclaims, hworkers⟩
      single := by
        change (g.claims k).length + g.workers k ≤ 1
        rw [hclaims, hworkers]
        exact Nat.zero_le 1
      rest := fun _ ↦ (hinv k).rest hzero
      reaped := fun u hu ↦ absurd (hreaper.symm.trans hu) (hunreaped u) } }
  refine ⟨hstep.permits hinv, hstep.stage hstage (fun j hj ↦ ?_) (fun _ _ ↦ Iff.rfl) ?_ ?_⟩
  · exact iff_of_false nofun fun h ↦ hj (Option.some.inj h).symm
  · change t ∈ g.claims k ↔ _
    rw [hclaims]
    exact iff_of_false nofun nofun
  · exact iff_of_false (fun h ↦ hunreaped t (hreaper.symm.trans h)) nofun

/-- The worker of a claimed slot is created, or the slot stays claimed. -/
theorem secure_osCreateThread (hx : SlotStage t (some k) none x) :
    SlotSecure t (os (.osCreateThread k)) (fun answer y ↦
      if answer.code = 0 then SlotStage t (some k) none y else SlotStage t none none y) x := by
  refine secure_perform hx steady_slotStage fun y hstage hinv ↦ ?_
  have hmem : t ∈ y.ghost.claims k := (hstage.claims k).mpr rfl
  obtain ⟨hone, hzero⟩ := (hinv k).claims_eq hmem
  refine ⟨⟨hone, hzero⟩, fun answer z g hreply hg ↦ ?_⟩
  change (workerEffect y.world (.os (.osCreateThread k)) answer).map _ = some z at hreply
  obtain ⟨w, heffect, rfl⟩ := Option.map_eq_some_iff.mp hreply
  have hworld : (if answer.code = 0 then y.world else y.world.set k .suspended) = w :=
    Option.some.inj heffect
  have hghost : (if answer.code = 0 then y.ghost else { y.ghost with
      claims := Function.update y.ghost.claims k ((y.ghost.claims k).erase t)
      workers := Function.update y.ghost.workers k (y.ghost.workers k + 1) }) = g :=
    Option.some.inj hg
  by_cases hcode : answer.code = 0
  · rw [if_pos hcode] at hworld hghost ⊢
    subst hworld hghost
    exact ⟨permits_slotQuiet rfl rfl (fun _ _ ↦ rfl) hinv, hstage.claims, hstage.reaper⟩
  · rw [if_neg hcode] at hworld hghost ⊢
    have hclaims : g.claims k = [] := by
      rw [← hghost]
      change Function.update y.ghost.claims k _ k = []
      rw [Function.update_self, hone, List.erase_cons_head]
    have hworkers : g.workers k = 1 := by
      rw [← hghost]
      change Function.update y.ghost.workers k _ k = 1
      rw [Function.update_self, hzero]
    have hreaper : g.reaper = y.ghost.reaper := by rw [← hghost]
    have hunreaped : ∀ u, y.ghost.reaper k ≠ some u := by
      intro u hu
      cases hzero.symm.trans ((hinv k).reaped u hu).1
    have hstep : OneSlot t k y { mem := y.mem, world := w, ghost := g } := {
      allocation_of_ne := fun _ _ ↦ rfl
      worker_of_ne := fun j hj ↦ by
        rw [← hworld]
        exact WorkerWorld.set_of_ne y.world hj _
      claims_of_ne := fun j hj ↦ by
        rw [← hghost]
        exact Function.update_of_ne hj _ _
      workers_of_ne := fun j hj ↦ by
        rw [← hghost]
        exact Function.update_of_ne hj _ _
      reaper_of_ne := fun j _ ↦ congrFun hreaper j
      claims := fun u hu ↦ by
        change u ∈ g.claims k ↔ _
        rw [hclaims, hone]
        exact iff_of_false nofun fun h ↦ hu (List.mem_singleton.mp h)
      reaper := fun u _ ↦ by
        change g.reaper k = some u ↔ _
        rw [hreaper]
      slot := {
        free := fun hfree ↦ by
          rw [((hinv k).free hfree).1] at hmem
          cases hmem
        single := by
          change (g.claims k).length + g.workers k ≤ 1
          rw [hclaims, hworkers]
          exact Nat.le_refl 1
        rest := fun h ↦ nomatch hworkers.symm.trans h
        reaped := fun u hu ↦ absurd ((congrFun hreaper k).symm.trans hu) (hunreaped u) } }
    refine ⟨hstep.permits hinv, hstep.stage hstage (fun j hj ↦ ?_) (fun _ _ ↦ Iff.rfl) ?_ ?_⟩
    · exact iff_of_false nofun fun h ↦ hj (Option.some.inj h).symm
    · change t ∈ g.claims k ↔ _
      rw [hclaims]
      exact iff_of_false nofun nofun
    · exact iff_of_false (fun h ↦ hunreaped t ((congrFun hreaper k).symm.trans h)) nofun

theorem secure_nsslRelayReserveFrom (slots : List ℕ) (hx : SlotStage t none none x) :
    SlotSecure t (nsslRelayReserveFrom slots) (fun _ ↦ SlotStage t none none) x := by
  induction slots generalizing x with
  | nil => exact hx
  | cons k rest ih =>
    refine (secure_bind _ _ _ _).mpr (secure_mono (secure_claimRelay hx) fun claimed y hy ↦ ?_)
    cases claimed with
    | false => exact ih hy
    | true =>
      rw [if_pos rfl] at hy
      refine (secure_bind _ _ _ _).mpr ?_
      refine secure_mono (secure_threadless (keeps_resetRelay k) hy) fun _ y hy ↦ ?_
      refine (secure_bind _ _ _ _).mpr ?_
      refine secure_mono (secure_osCreateThread hy) fun created y hy ↦ ?_
      by_cases hcode : created.code = 0
      · rw [if_pos hcode] at hy
        rw [secure_ite, if_pos hcode]
        exact (secure_bind _ _ _ _).mpr (secure_mono (secure_freeClaimed hy) fun _ _ h ↦ h)
      · rw [if_neg hcode] at hy
        rw [secure_ite, if_neg hcode]
        refine (secure_bind _ _ _ _).mpr ?_
        exact secure_mono (secure_threadless (keeps_ignore (keeps_perform trivial)) hy)
          fun _ _ h ↦ h

theorem secure_nsslRelayStopAll (fuel : ℕ) (hx : SlotStage t none none x) :
    SlotSecure t (nsslRelayStopAll fuel) (fun _ ↦ SlotStage t none none) x := by
  have hstop : Keeps allocation Threadless (stopAllocated (List.range nsslRelayMax)) :=
    keeps_allocation (keeps_stopAllocated _)
  refine (secure_bind _ _ _ _).mpr (secure_mono (secure_threadless hstop hx) fun any y hy ↦ ?_)
  rw [secure_when]
  split
  · refine (secure_bind _ _ _ _).mpr ?_
    refine secure_mono (secure_threadless (keeps_perform trivial) hy) fun now y hy ↦ ?_
    refine (secure_bind _ _ _ _).mpr ?_
    have hwait := keeps_allocation (keeps_inert
      (keeps_waitRelays (now.code + osMillisecondsToTicks 500) fuel))
    exact secure_mono (secure_threadless hwait hy) fun _ y hy ↦ secure_nsslRelayReap hy
  · exact hy

end Stages

/-! ## Runs -/

theorem slotSecured (s : ShimState) (w : WorkerWorld)
    (hrest : ∀ k, w.worker k = .absent ∨ w.worker k = .joined) :
    Secured slotSystem slotMonitor { mem := s, world := w, ghost := {} } slotProtocol
      (fun t ↦ SlotStage t none none) (fun t ↦ SlotStage t none none) where
  rely_refl := SlotRely.refl
  rely_trans _ _ _ _ := SlotRely.trans
  idle_steady _ := steady_slotStage
  ended_steady _ := steady_slotStage
  finish_safe t _ hinv hended := ⟨⟨hinv, fun u _ ↦ SlotRely.refl u _⟩, hended⟩
  env_safe event := nomatch event
  body_secure t operation x _ hidle henabled := by
    have hreserve : SlotSecure t nsslRelayReserve (fun _ ↦ SlotStage t none none) x :=
      (secure_bind _ _ _ _).mpr (secure_mono (secure_nsslRelayReap hidle) fun _ _ hy ↦
        secure_nsslRelayReserveFrom _ hy)
    cases t with
    | caller n =>
      cases operation with
      | reserve => exact (secure_bind _ _ _ _).mpr (secure_mono hreserve fun _ _ hy ↦ hy)
      | stopAll fuel => exact secure_nsslRelayStopAll fuel hidle
      | work fuel => cases henabled
    | worker slot =>
      cases operation with
      | reserve => cases henabled
      | stopAll fuel => cases henabled
      | work fuel => exact secure_threadless (keeps_runWorker slot fuel) hidle
  initial_inv k := ⟨fun _ ↦ ⟨rfl, rfl⟩, Nat.zero_le 1, fun _ ↦ hrest k, nofun⟩
  initial_idle _ := ⟨fun _ ↦ iff_of_false nofun nofun, fun _ ↦ iff_of_false nofun nofun⟩

abbrev SlotRun := Config RelayThread ShimState WorkerWorld ShimCall ShimReply

/-- No slot has two live reservations, and a worker is created by the only one of its slot. -/
def OneOwner (c : SlotRun) (g : SlotHistory) : Prop :=
  (∀ k, (g.claims k).length + g.workers k ≤ 1) ∧
    ∀ t k next, c.threads t = some (.call (.os (.osCreateThread k)) next) →
      g.claims k = [t] ∧ g.workers k = 0

/-- Slots have one owner as long as no worker is joined twice. -/
theorem slotWatch_oneOwner (s : ShimState) (w : WorkerWorld)
    (hrest : ∀ k, w.worker k = .absent ∨ w.worker k = .joined)
    {actions : List (Action RelayThread RelayOperation Empty ShimReply)} {c : SlotRun}
    {g : SlotHistory}
    (hwatch : slotSystem.watch slotMonitor (System.start { mem := s, world := w }) {} actions =
      some (c, g)) : OneOwner c g := by
  have hsecured := slotSecured s w hrest
  refine ⟨fun k ↦ ((Secured.sound hsecured hwatch).invariant k).single, fun t k next hcall ↦ ?_⟩
  exact Secured.call_pre hsecured hwatch hcall

def slotSteps (t : RelayThread) (count : ℕ) :
    List (Action RelayThread RelayOperation Empty ShimReply) :=
  List.replicate count (.step t)

/-- A thread reserves slot 0 and then stops its worker.  While it waits for the end of the worker,
another thread reaps that and takes the slot again. -/
def reusedSlot : List (Action RelayThread RelayOperation Empty ShimReply) :=
  .start (.caller 0) .reserve :: slotSteps (.caller 0) 14 ++
  [.answer (.caller 0) { code := 1 }, .answer (.caller 0) {}, .step (.caller 0)] ++
  .start (.worker 0) (.work 2) :: slotSteps (.worker 0) 2 ++
  .start (.caller 0) (.stopAll 2) :: slotSteps (.caller 0) 9 ++ [.answer (.caller 0) {}] ++
  .answer (.worker 0) {} :: slotSteps (.worker 0) 6 ++
  [.answer (.worker 0) {}, .step (.worker 0)] ++
  .start (.caller 1) .reserve :: slotSteps (.caller 1) 2 ++
  [.answer (.caller 1) { code := 1 }, .answer (.caller 1) {}] ++ slotSteps (.caller 1) 15

theorem slotWatch_oneOwner_reusedSlot : ∃ c g,
    slotSystem.watch slotMonitor (System.start { mem := {}, world := {} }) {} reusedSlot =
      some (c, g) ∧ g.claims 0 = [.caller 1] ∧ g.workers 0 = 0 ∧
        c.machine.world.worker 0 = .joined ∧ (c.threads (.caller 0)).isSome = true ∧
        OneOwner c g := by
  have hwatch : ∃ c g, slotSystem.watch slotMonitor (System.start { mem := {}, world := {} }) {}
      reusedSlot = some (c, g) ∧ g.claims 0 = [.caller 1] ∧ g.workers 0 = 0 ∧
        c.machine.world.worker 0 = .joined ∧ (c.threads (.caller 0)).isSome = true :=
    ⟨_, _, rfl, rfl, rfl, rfl, rfl⟩
  obtain ⟨c, g, hwatch, hclaims, hworkers, hjoined, hwaits⟩ := hwatch
  exact ⟨c, g, hwatch, hclaims, hworkers, hjoined, hwaits,
    slotWatch_oneOwner {} {} (fun _ ↦ .inl rfl) hwatch⟩

/-- The shim after a relay that was used and reaped: `done` of slot 0 is still set. -/
def usedSlot : ShimState := ({} : ShimState).setRelay 0 fun r ↦ { r with done := 1 }

/-- A thread takes slot 0 again; before it clears `done` another one reaps the slot and takes it
too. -/
theorem slot_ownedTwice : ∃ actions c g,
    slotSystem.watch slotObserver
      (System.start { mem := usedSlot, world := { worker := fun _ ↦ .joined } }) {} actions =
        some (c, g) ∧ ¬ OneOwner c g := by
  have hwatch : ∃ c g, slotSystem.watch slotObserver
      (System.start { mem := usedSlot, world := { worker := fun _ ↦ .joined } }) {}
      (.start (.caller 0) .reserve :: slotSteps (.caller 0) 9 ++
        .start (.caller 1) .reserve :: slotSteps (.caller 1) 2 ++
        .answer (.caller 1) { code := 1 } :: .answer (.caller 1) {} :: slotSteps (.caller 1) 10) =
          some (c, g) ∧ g.claims 0 = [.caller 1, .caller 0] := ⟨_, _, rfl, rfl⟩
  obtain ⟨c, g, hwatch, hclaims⟩ := hwatch
  refine ⟨_, c, g, hwatch, fun hone ↦ ?_⟩
  have hle := hone.1 0
  rw [hclaims] at hle
  exact absurd (Nat.le_of_add_right_le hle) (by decide)

end Ax88179Aroma.Shim
