import Ax88179Aroma.Shim.Handshakes
import Ax88179Aroma.Shim.Transit

/-!
# Runs of bridges beside relay workers

Each operation takes the steps of `BoardStep`.  A bridge knows what is in its slot as long as the
stop flag is clear, a worker knows it once the flag is set or the bridge has published the slot.
-/

namespace Ax88179Aroma.Shim

open Effect Program

section Rules

variable {t : RelayThread} {x : TransitWatched} {k : ℕ} {p q : Board → Prop}

theorem transit_when {condition : Prop} [Decidable condition] {program : ShimM Unit}
    (hthen : condition → TransitSecure t program (fun _ ↦ q) x)
    (helse : ¬ condition → q (transitBoard x)) :
    TransitSecure t (when condition program) (fun _ ↦ q) x := by
  unfold Program.when
  split
  · exact hthen ‹_›
  · exact helse ‹_›

theorem transit_ignore {program : ShimM ShimReply}
    (hprogram : TransitSecure t program (fun _ ↦ q) x) :
    TransitSecure t (ignore program) (fun _ ↦ q) x :=
  transit_seq hprogram fun _ _ hy ↦ transit_pure hy

theorem transit_each {body : ℕ → ShimM Unit} {items : List ℕ}
    (hbody : ∀ item y, q (transitBoard y) → TransitSecure t (body item) (fun _ ↦ q) y)
    (hx : q (transitBoard x)) : TransitSecure t (each body items) (fun _ ↦ q) x := by
  induction items generalizing x with
  | nil => exact hx
  | cons item rest ih => exact transit_seq (hbody item x hx) fun _ y hy ↦ ih hy

/-! ## Frames -/

theorem keeps_slots {program : ShimM α} {allowed : ShimCall → Prop}
    (h : Keeps ShimState.control allowed program)
    (hallowed : ∀ request, allowed request → Apart request) :
    Keeps slotView Apart program := by
  refine h.mono (fun s s' hsame ↦ funext fun slot ↦ ?_) hallowed
  have hslot := congrFun (congrArg (fun c ↦ c.2.1) hsame) slot
  exact congrArg (fun c : ℤ × ℤ × ℤ × ℤ × ℤ × ℤ × ℤ ↦
    (c.1, c.2.1, c.2.2.1, c.2.2.2.2.2.1, c.2.2.2.2.2.2)) hslot

/-- A store to a relay that concerns neither its state nor its descriptors. -/
theorem keeps_slotStore {f : NsslRelay → NsslRelay}
    (h : ∀ r, ((f r).allocated, (f r).ready, (f r).stop, (f r).nativeFd, (f r).lwfd) =
      (r.allocated, r.ready, r.stop, r.nativeFd, r.lwfd)) :
    Keeps slotView Apart (storeRelay k f) := by
  refine keeps_store fun s ↦ funext fun other ↦ ?_
  by_cases hsame : other = k
  · rw [slotView, hsame, ShimState.setRelay_self, h]
    rfl
  · rw [slotView, ShimState.setRelay_of_ne s hsame]
    rfl

theorem keeps_slotLwip {request : LwipCall} (hrequest : Apart (.lwip request)) :
    Keeps slotView Apart (lwip request) :=
  Keeps.bind (keeps_perform hrequest) fun _ ↦ Keeps.bind (keeps_store fun _ ↦ rfl) fun _ ↦
    keeps_pure _

theorem keeps_slotLasterr : Keeps slotView Apart realSocketlasterr :=
  Keeps.bind (keeps_perform trivial) fun _ ↦ keeps_pure _

theorem RelayCall.apart {nativeFd lwfd : ℤ} {request : ShimCall}
    (h : RelayCall nativeFd lwfd request) : Apart request := by
  unfold RelayCall at h
  split at h <;> trivial

theorem keeps_slotLoop (slot : ℕ) (nativeFd lwfd : ℤ) (fuel : ℕ) (locals : RelayLocals) :
    Keeps slotView Apart (relayLoop slot nativeFd lwfd fuel locals) := by
  induction fuel generalizing locals with
  | zero => trivial
  | succ fuel ih =>
    refine Keeps.bind (Keeps.bind (keeps_perform trivial) fun _ ↦ keeps_pure _) fun _ ↦ ?_
    refine Keeps.bind (keeps_loadRelay slot _) fun _ ↦ Keeps.ite (keeps_pure _) ?_
    refine Keeps.bind (keeps_slots (keeps_relayCalls slot locals) fun _ ↦ RelayCall.apart) ?_
    intro step
    match step with
    | .error _ => exact keeps_pure _
    | .ok (locals, _) => exact ih locals

theorem keeps_slotReapable (slot : ℕ) : Keeps slotView Apart (reapable slot) := by
  refine Keeps.bind (keeps_loadRelay slot _) fun _ ↦ Keeps.ite (keeps_pure _) ?_
  refine Keeps.bind (keeps_loadRelay slot _) fun _ ↦ Keeps.ite (keeps_pure _) ?_
  exact Keeps.bind (keeps_perform trivial) fun _ ↦ keeps_pure _

theorem keeps_slotAnyAlive (slots : List ℕ) : Keeps slotView Apart (anyAlive slots) := by
  induction slots with
  | nil => exact keeps_pure false
  | cons slot rest ih =>
    refine Keeps.bind (keeps_loadRelay slot _) fun _ ↦ Keeps.ite ih ?_
    exact Keeps.bind (keeps_perform trivial) fun _ ↦ Keeps.bind ih fun _ ↦ keeps_pure _

theorem keeps_slotWait (deadline : ℤ) (fuel : ℕ) :
    Keeps slotView Apart (waitRelays deadline fuel) := by
  induction fuel with
  | zero => trivial
  | succ fuel ih =>
    refine Keeps.bind (keeps_perform trivial) fun _ ↦ Keeps.ite ?_ (keeps_pure ())
    refine Keeps.bind (keeps_slotAnyAlive _) fun _ ↦ Keeps.ite ?_ (keeps_pure ())
    exact Keeps.bind (keeps_ignore (keeps_perform trivial)) fun _ ↦ ih

/-! ## Stopping -/

/-- A slot is told to stop. -/
theorem transit_halt (hp : Board.Steady t p)
    (hhalt : ∀ b : Board, p b → p { b with stop := Function.update b.stop k true })
    (hx : p (transitBoard x)) :
    TransitSecure t (storeRelay k fun r ↦ { r with stop := 1 }) (fun _ ↦ p) x := by
  refine transit_store hp hx fun y hy _ _ ↦ ?_
  have hboard : slotsAfter t (fun s ↦ s.setRelay k fun r ↦ { r with stop := 1 }) y =
      { transitBoard y with stop := Function.update (transitBoard y).stop k true } := by
    rw [slotsAfter_setRelay (fun r ↦ { r with stop := 1 }) (fun _ ↦ rfl)
      (fun _ ↦ Int.negSucc_lt_zero 0) fun _ ↦ Int.negSucc_lt_zero 0]
    simp [transitBoard, Board.withRelay]
  rw [hboard]
  exact ⟨.slot (.halt k), hhalt _ hy⟩

theorem transit_stopRelay :
    TransitSecure t (storeRelay k fun r ↦ { r with stop := 1 }) (fun _ _ ↦ True) x :=
  transit_halt (Board.Steady.const True) (fun _ _ ↦ trivial) trivial

theorem transit_calm {program : ShimM α} (hkeeps : Keeps slotView Apart program) :
    TransitSecure t program (fun _ _ ↦ True) x :=
  transit_keeps hkeeps (Board.Steady.const True) trivial

theorem transit_nsslRelayStopSlot (slot : ℤ) :
    TransitSecure t (nsslRelayStopSlot slot) (fun _ _ ↦ True) x :=
  transit_when (fun _ ↦ transit_seq (transit_calm (keeps_loadRelay _ _)) fun _ _ _ ↦
    transit_when (fun _ ↦ transit_stopRelay) fun _ ↦ trivial) fun _ ↦ trivial

theorem transit_nsslRelayDetachPublicFd (fd : ℤ) :
    TransitSecure t (nsslRelayDetachPublicFd fd) (fun _ _ ↦ True) x := by
  have hfrom : ∀ (slots : List ℕ) (y : TransitWatched),
      TransitSecure t (nsslRelayDetachFrom fd slots) (fun _ _ ↦ True) y := by
    intro slots
    induction slots with
    | nil => exact fun _ ↦ trivial
    | cons slot rest ih =>
      intro y
      refine transit_seq (transit_calm (keeps_loadRelay _ _)) fun allocated y _ ↦ ?_
      split
      · exact ih y
      have hdetach : Keeps slotView Apart (access (detachSlot fd slot) : ShimM Bool) := by
        refine keeps_access fun s ↦ ?_
        unfold detachSlot
        split
        · have hstore : Keeps slotView Apart (storeRelay slot fun r ↦ { r with publicFd := -1 }) :=
            keeps_slotStore fun _ ↦ rfl
          exact hstore.1 s
        · rfl
      refine transit_seq (transit_calm hdetach) fun detached y _ ↦ ?_
      split
      · exact transit_stopRelay
      · exact ih y
  exact hfrom _ x

theorem transit_stopAllocated (slots : List ℕ) (hx : (transitBoard x).Idle t) :
    TransitSecure t (stopAllocated slots) (fun _ ↦ Board.Idle t) x := by
  induction slots generalizing x with
  | nil => exact hx
  | cons slot rest ih =>
    refine transit_seq (transit_keeps (keeps_loadRelay _ _) Board.steady_idle hx)
      fun allocated y hy ↦ ?_
    refine transit_seq (transit_when (fun _ ↦ transit_halt Board.steady_idle (fun _ h ↦ h) hy)
      fun _ ↦ hy) fun _ y hy ↦ ?_
    exact transit_seq (ih hy) fun _ _ hz ↦ transit_pure hz

/-! ## Reaping -/

theorem transit_freeSlot (hx : (transitBoard x).Idle t) :
    TransitSecure t (storeRelay k fun r ↦ { r with allocated := 0 }) (fun _ ↦ Board.Idle t) x := by
  refine transit_store Board.steady_idle hx fun y hy _ _ ↦ ?_
  change BoardStep t (transitBoard y) (slotsAfter t (freeRelay k) y) ∧
    (slotsAfter t (freeRelay k) y).Idle t
  rcases slotsAfter_free (t := t) (y := y) (k := k) with hsame | ⟨hkeeper, -⟩
  · rw [hsame]
    exact ⟨.skip, hy⟩
  · exact absurd hkeeper (hy k)

/-- `OSJoinThread` returns once the worker of the slot has ended. -/
theorem transit_join (hx : (transitBoard x).Idle t) :
    TransitSecure t (os (.osJoinThread k)) (fun _ ↦ Board.Idle t) x := by
  refine transit_perform Board.steady_idle hx fun y answer w hy _ heffect ↦ ?_
  obtain ⟨threads, hthreads, rfl⟩ := Option.map_eq_some_iff.mp heffect
  change (if y.world.threads.alive k = true then none
    else some (y.world.threads.set k .joined)) = some threads at hthreads
  split at hthreads
  · cases hthreads
  · rename_i hdead
    cases hthreads
    refine ⟨.slot (.join k fun halive ↦ hdead ?_), hy⟩
    exact decide_eq_true halive

theorem transit_reapSlot (hx : (transitBoard x).Idle t) :
    TransitSecure t (reapSlot k) (fun _ ↦ Board.Idle t) x := by
  refine transit_seq (transit_keeps (keeps_slotReapable k) Board.steady_idle hx) fun free y hy ↦ ?_
  refine transit_when (fun _ ↦ ?_) fun _ ↦ hy
  refine transit_seq (transit_ignore (transit_join hy)) fun _ y hy ↦ ?_
  refine transit_seq (transit_keeps (keeps_slotStore fun _ ↦ rfl) Board.steady_idle hy)
    fun _ y hy ↦ ?_
  exact transit_freeSlot hy

theorem transit_nsslRelayReap (hx : (transitBoard x).Idle t) :
    TransitSecure t nsslRelayReap (fun _ ↦ Board.Idle t) x :=
  transit_each (fun _ _ hy ↦ transit_reapSlot hy) hx

theorem transit_nsslRelayStopAll (fuel : ℕ) (hx : (transitBoard x).Idle t) :
    TransitSecure t (nsslRelayStopAll fuel) (fun _ ↦ Board.Idle t) x := by
  refine transit_seq (transit_stopAllocated _ hx) fun any y hy ↦ ?_
  refine transit_when (fun _ ↦ ?_) fun _ ↦ hy
  have hclock : Keeps slotView Apart (os .osGetTime) := keeps_perform trivial
  refine transit_seq (transit_keeps hclock Board.steady_idle hy) fun now y hy ↦ ?_
  refine transit_seq (transit_keeps (keeps_slotWait _ fuel) Board.steady_idle hy) fun _ y hy ↦ ?_
  exact transit_nsslRelayReap hy

theorem transit_hookNsslFinish (fuel : ℕ) (hx : (transitBoard x).Idle t) :
    TransitSecure t (ignore (hookNsslFinish fuel)) (fun _ ↦ Board.Idle t) x := by
  refine transit_ignore ?_
  have hfinish : Keeps slotView Apart (native .nsslFinish) := keeps_perform trivial
  refine transit_seq (transit_keeps hfinish Board.steady_idle hx) fun result y hy ↦ ?_
  refine transit_seq (transit_nsslRelayStopAll fuel hy) fun _ y hy ↦ ?_
  refine transit_seq (transit_keeps (keeps_store fun _ ↦ rfl) Board.steady_idle hy) fun _ y hy ↦ ?_
  have hforget : Keeps slotView Apart forgetConnections :=
    Keeps.each fun _ _ ↦ keeps_store fun _ ↦ rfl
  exact transit_seq (transit_keeps hforget Board.steady_idle hy) fun _ _ hz ↦ transit_pure hz

/-! ## Reserving -/

/-- A slot is claimed that nobody remembers and in which no worker lives. -/
theorem transit_claim (hk : k < nsslRelayMax) (hx : (transitBoard x).Idle t) :
    TransitSecure t (access (claimRelay k)) (fun claimed b ↦
      if claimed then b.Claimed t k else b.Idle t) x := by
  refine transit_rmw Board.steady_idle hx fun y hy _ hallows ↦ ?_
  have hboard := slotsAfter_claim (t := t) (y := y) (k := k)
  change BoardStep t (transitBoard y) (slotsAfter t (fun s ↦ (claimRelay k s).2) y) ∧
    if (claimRelay k y.mem).1 then (slotsAfter t (fun s ↦ (claimRelay k s).2) y).Claimed t k
    else (slotsAfter t (fun s ↦ (claimRelay k s).2) y).Idle t
  rw [hboard]
  cases hclaimed : (claimRelay k y.mem).1 with
  | false => exact ⟨.skip, hy⟩
  | true =>
    obtain ⟨hkeeper, hdead⟩ := hallows.idle k (List.mem_range.mpr hk) (takes_claim hclaimed)
    have hdead' : ¬ (transitBoard y).Alive k := fun halive ↦
      Bool.false_ne_true (hdead.symm.trans (decide_eq_true halive))
    simp only [if_true]
    refine ⟨.slot (.claim k hkeeper hdead'), fun j ↦ ?_, hdead'⟩
    by_cases hj : j = k
    · rw [hj]
      exact iff_of_true (Function.update_self _ _ _) rfl
    · refine iff_of_false (fun h ↦ hy j ?_) hj
      exact (Function.update_of_ne hj _ _).symm.trans h

/-- One of the stores that make a claimed slot a fresh one. -/
theorem transit_clear {f : NsslRelay → NsslRelay} (hallocated : ∀ r, (f r).allocated = r.allocated)
    (hnative : ∀ r : NsslRelay, (f { r with nativeFd := -1 }).nativeFd < 0)
    (hlwip : ∀ r : NsslRelay, (f { r with lwfd := -1 }).lwfd < 0) (hp : Board.Steady t p)
    (hclaimed : ∀ b, p b → b.Claimed t k)
    (hq : ∀ b r, p b → b.ready k = decide (r.ready ≠ 0) → q (b.withRelay k (f r)))
    (hx : p (transitBoard x)) : TransitSecure t (storeRelay k f) (fun _ ↦ q) x := by
  refine transit_store hp hx fun y hy _ _ ↦ ?_
  rw [slotsAfter_setRelay f hallocated hnative hlwip]
  have hkeeper := ((hclaimed _ hy).1 k).mpr rfl
  exact ⟨.slot (.clear k _ _ _ _ hkeeper (hclaimed _ hy).2), hq _ _ hy rfl⟩

theorem transit_resetRelay (hx : (transitBoard x).Claimed t k) :
    TransitSecure t (resetRelay k) (fun _ b ↦ b.Claimed t k ∧ b.Blank t k) x := by
  have hsteady : Board.Steady t fun b ↦ b.Claimed t k ∧ b.ready k = false := fun b c h hrely ↦
    ⟨Board.steady_claimed b c h.1 hrely, (Board.steady_ready b c ⟨h.1.1, h.2⟩ hrely).2⟩
  refine transit_seq (transit_clear (q := fun b ↦ b.Claimed t k ∧ b.ready k = false) (fun _ ↦ rfl)
    (fun _ ↦ Int.negSucc_lt_zero 0) (fun _ ↦ Int.negSucc_lt_zero 0) Board.steady_claimed
    (fun _ h ↦ h) (fun b _ h _ ↦ ⟨h, Function.update_self _ _ _⟩) hx) fun _ y hy ↦ ?_
  refine transit_seq (transit_clear (q := fun b ↦ b.Claimed t k ∧ b.ready k = false) (fun _ ↦ rfl)
    (fun _ ↦ Int.negSucc_lt_zero 0) (fun _ ↦ Int.negSucc_lt_zero 0) hsteady (fun _ h ↦ h.1)
    (fun b _ h hready ↦ ⟨h.1, ?_⟩) hy) fun _ y hy ↦ ?_
  · exact (Function.update_self _ _ _).trans (hready.symm.trans h.2)
  refine transit_seq (transit_keeps (keeps_slotStore fun _ ↦ rfl) hsteady hy) fun _ y hy ↦ ?_
  refine transit_seq (transit_keeps (keeps_slotStore fun _ ↦ rfl) hsteady hy) fun _ y hy ↦ ?_
  refine transit_clear (fun _ ↦ rfl) (fun _ ↦ Int.negSucc_lt_zero 0)
    (fun _ ↦ Int.negSucc_lt_zero 0) hsteady (fun _ h ↦ h.1)
    (fun b r h hready ↦ ⟨h.1, h.1.1, ?_, ?_, ?_⟩) hy
  · exact (Function.update_self _ _ _).trans (hready.symm.trans h.2)
  · simp [Board.withRelay]
  · simp [Board.withRelay]

/-- The worker of a blank slot is created. -/
theorem transit_create (hx : (transitBoard x).Claimed t k ∧ (transitBoard x).Blank t k) :
    TransitSecure t (os (.osCreateThread k)) (fun created b ↦
      created.code ≠ 0 → b.Blank t k ∧ b.worker k = .suspended) x := by
  refine transit_perform (Board.steady_claimed.and Board.steady_blank) hx
    fun y answer w hy _ heffect ↦ ?_
  change some { y.world with
    threads := if answer.code = 0 then y.world.threads else y.world.threads.set k .suspended } =
      some w at heffect
  obtain rfl := Option.some.inj heffect
  by_cases hcode : answer.code = 0
  · rw [if_pos hcode]
    exact ⟨.skip, fun h ↦ absurd hcode h⟩
  · rw [if_neg hcode]
    obtain ⟨⟨hkept, hdead⟩, hblank⟩ := hy
    refine ⟨.slot (.create k ((hkept k).mpr rfl) hdead hblank.ready hblank.native hblank.lwip),
      fun _ ↦ ⟨⟨hblank.kept, hblank.ready, hblank.native, hblank.lwip⟩, ?_⟩⟩
    exact Function.update_self _ _ _

/-- The worker that the thread has created begins to run. -/
theorem transit_resume
    (hx : (transitBoard x).Blank t k ∧ (transitBoard x).worker k = .suspended) :
    TransitSecure t (os (.osResumeThread k)) (fun _ ↦ Board.Waiting t k) x := by
  refine transit_perform Board.steady_created hx fun y answer w hy _ heffect ↦ ?_
  change some { y.world with
    threads := if y.world.threads.worker k = .suspended then y.world.threads.set k .running
      else y.world.threads } = some w at heffect
  obtain rfl := Option.some.inj heffect
  obtain ⟨hblank, hsuspended⟩ := hy
  have hworker : y.world.threads.worker k = .suspended := hsuspended
  rw [if_pos hworker]
  refine ⟨.slot (.resume k ((hblank.kept k).mpr rfl) hsuspended),
    ⟨hblank.kept, hblank.ready, hblank.native, hblank.lwip⟩, fun _ ↦ .inr ?_⟩
  exact Function.update_self _ _ _

theorem transit_giveBack :
    TransitSecure t (storeRelay k fun r ↦ { r with allocated := 0 }) (fun _ _ ↦ True) x := by
  refine transit_store (Board.Steady.const True) trivial fun y _ _ _ ↦ ⟨?_, trivial⟩
  change BoardStep t (transitBoard y) (slotsAfter t (freeRelay k) y)
  rcases slotsAfter_free (t := t) (y := y) (k := k) with hsame | ⟨hkeeper, hback⟩
  · rw [hsame]
    exact .skip
  · rw [hback]
    exact .slot (.giveBack k hkeeper)

/-- A reserved slot is blank, and its worker waits unless it was stopped. -/
theorem transit_nsslRelayReserve (hx : (transitBoard x).Idle t) :
    TransitSecure t nsslRelayReserve (fun slot b ↦
      0 ≤ slot → ∃ k < nsslRelayMax, slot = k ∧ b.Waiting t k) x := by
  have hfrom : ∀ (slots : List ℕ) (y : TransitWatched), (∀ j ∈ slots, j < nsslRelayMax) →
      (transitBoard y).Idle t → TransitSecure t (nsslRelayReserveFrom slots) (fun slot b ↦
        0 ≤ slot → ∃ k < nsslRelayMax, slot = k ∧ b.Waiting t k) y := by
    intro slots
    induction slots with
    | nil => exact fun _ _ _ h ↦ absurd h (by decide)
    | cons j rest ih =>
      intro y hslots hy
      have hj := hslots j List.mem_cons_self
      refine transit_seq (transit_claim hj hy) fun claimed y hy ↦ ?_
      cases claimed with
      | false => exact ih y (fun i hi ↦ hslots i (List.mem_cons_of_mem j hi)) hy
      | true =>
        refine transit_seq (transit_resetRelay hy) fun _ y hy ↦ ?_
        refine transit_seq (transit_create hy) fun created y hy ↦ ?_
        split
        · exact transit_seq transit_giveBack fun _ _ _ ↦ transit_pure fun h ↦ absurd h (by decide)
        · rename_i hcode
          refine transit_seq (transit_ignore (transit_resume (hy hcode))) fun _ y hy ↦ ?_
          exact transit_pure fun _ ↦ ⟨j, hj, rfl, hy⟩
  exact transit_seq (transit_nsslRelayReap hx) fun _ y hy ↦
    hfrom _ y (fun _ h ↦ List.mem_range.mp h) hy

/-! ## Bridging -/

/-- A bridge has its listener in hand. -/
def Board.Listens (t : RelayThread) (fd : ℤ) (b : Board) : Prop := b.native (.listener t) = some fd

/-- It has the descriptor that it accepted in hand. -/
def Board.Accepts (t : RelayThread) (fd : ℤ) (b : Board) : Prop := b.native (.accepted t) = some fd

theorem steady_listens {fd : ℤ} : Board.Steady t (Board.Listens t fd) := Board.steady_hand rfl

theorem steady_accepts {fd : ℤ} : Board.Steady t (Board.Accepts t fd) := Board.steady_hand rfl

/-- nsysnet opens a listener. -/
theorem transit_listen {domain type protocol : ℤ} (hx : (transitBoard x).Waiting t k) :
    TransitSecure t (native (.socket domain type protocol)) (fun answer b ↦
      b.Waiting t k ∧ (0 ≤ answer.code → b.Listens t answer.code)) x := by
  refine transit_perform Board.steady_waiting hx fun y answer w hy _ heffect ↦ ?_
  change y.world.opened answer.code = some w at heffect
  unfold TransitWorld.opened at heffect
  by_cases hcode : answer.code < 0
  · rw [if_pos hcode] at heffect
    obtain rfl := Option.some.inj heffect
    have hsame : transitBoard (passed t y (.native (.socket domain type protocol)) answer y.world) =
        transitBoard y := by
      simp only [passed, transitReply, if_pos hcode]
    rw [hsame]
    exact ⟨.skip, hy, fun h ↦ absurd hcode (Int.not_lt.mpr h)⟩
  · rw [if_neg hcode] at heffect
    obtain ⟨natives, hacquire, rfl⟩ := Option.map_eq_some_iff.mp heffect
    have hboard : transitBoard (passed t y (.native (.socket domain type protocol)) answer
        { y.world with natives := natives }) =
        { transitBoard y with
          natives := natives
          native := Function.update (transitBoard y).native (.listener t) (some answer.code) } := by
      simp only [passed, transitReply, if_neg hcode]
      rfl
    rw [hboard]
    exact ⟨.hand (.listen answer.code natives hacquire), hy.withHands,
      fun _ ↦ Function.update_self _ _ _⟩

/-- It accepts the other end of its connection. -/
theorem transit_accept {listener fd : ℤ} {addr : Bool} {addrlen : Option ℕ}
    (hx : (transitBoard x).Waiting t k ∧ (transitBoard x).Listens t fd) :
    TransitSecure t (native (.accept listener addr addrlen)) (fun answer b ↦
      (b.Waiting t k ∧ b.Listens t fd) ∧ (0 ≤ answer.code → b.Accepts t answer.code)) x := by
  refine transit_perform (Board.steady_waiting.and steady_listens) hx
    fun y answer w hy _ heffect ↦ ?_
  change y.world.opened answer.code = some w at heffect
  unfold TransitWorld.opened at heffect
  by_cases hcode : answer.code < 0
  · rw [if_pos hcode] at heffect
    obtain rfl := Option.some.inj heffect
    have hsame : transitBoard (passed t y (.native (.accept listener addr addrlen)) answer
        y.world) = transitBoard y := by
      simp only [passed, transitReply, if_pos hcode]
    rw [hsame]
    exact ⟨.skip, hy, fun h ↦ absurd hcode (Int.not_lt.mpr h)⟩
  · rw [if_neg hcode] at heffect
    obtain ⟨natives, hacquire, rfl⟩ := Option.map_eq_some_iff.mp heffect
    have hboard : transitBoard (passed t y (.native (.accept listener addr addrlen)) answer
        { y.world with natives := natives }) =
        { transitBoard y with
          natives := natives
          native := Function.update (transitBoard y).native (.accepted t) (some answer.code)
          accepted := Function.update (transitBoard y).accepted t
            (transitBoard y).natives.serial } := by
      simp only [passed, transitReply, if_neg hcode]
      rfl
    rw [hboard]
    refine ⟨.hand (.accept answer.code natives hacquire), ⟨hy.1.withHands, ?_⟩,
      fun _ ↦ Function.update_self _ _ _⟩
    have hne : NativeHand.listener t ≠ .accepted t := nofun
    change Function.update (transitBoard y).native (.accepted t) (some answer.code) (.listener t) =
      some fd
    rw [Function.update_of_ne hne]
    exact hy.2

/-- It closes its listener. -/
theorem transit_unlisten {fd : ℤ} (hp : Board.Steady t p)
    (hclose : ∀ (b : Board) natives, p b →
      p { b with natives := natives, native := Function.update b.native (.listener t) none })
    (hx : p (transitBoard x) ∧ (transitBoard x).Listens t fd) :
    TransitSecure t (native (.socketclose fd)) (fun _ ↦ p) x := by
  refine transit_perform (hp.and steady_listens) hx fun y answer w hy hinv heffect ↦ ?_
  obtain rfl := Option.some.inj heffect
  obtain ⟨hp, hlistens⟩ := hy
  have hhands : (transitReply t y (.native (.socketclose fd)) answer).native =
      Function.update (transitBoard y).native (.listener t) none := by
    funext hand
    change (if hand.closer = some t ∧ (transitBoard y).native hand = some fd then none
      else (transitBoard y).native hand) = _
    by_cases hhand : hand = .listener t
    · rw [hhand, Function.update_self]
      exact if_pos ⟨rfl, hlistens⟩
    · rw [Function.update_of_ne hhand]
      refine if_neg fun h ↦ hhand ?_
      exact hinv.holding.holder_unique hand (.listener t) fd h.2 hlistens
  have hboard : transitBoard (passed t y (.native (.socketclose fd)) answer
      { y.world with natives := y.world.natives.release fd }) =
      { transitBoard y with
        natives := (transitBoard y).natives.release fd
        native := Function.update (transitBoard y).native (.listener t) none } := by
    rw [← hhands]
    rfl
  rw [hboard]
  exact ⟨.hand (.unlisten fd hlistens), hclose _ _ hp⟩

theorem transit_bridgeFail {listener : ℤ} (slot code : ℤ)
    (hx : (transitBoard x).Listens t listener) :
    TransitSecure t (bridgeFail listener slot code) (fun _ _ ↦ True) x := by
  refine transit_seq (transit_ignore (transit_unlisten (Board.Steady.const True)
    (fun _ _ h ↦ h) ⟨trivial, hx⟩)) fun _ y _ ↦ ?_
  exact transit_seq (transit_nsslRelayStopSlot slot) fun _ _ _ ↦ trivial

theorem transit_bridgeFailNative {listener : ℤ} (slot base : ℤ)
    (hx : (transitBoard x).Listens t listener) :
    TransitSecure t (bridgeFailNative listener slot base) (fun _ _ ↦ True) x :=
  transit_seq (transit_keeps keeps_slotLasterr steady_listens hx) fun _ _ hy ↦
    transit_bridgeFail slot _ hy

/-- The accepted descriptor goes to the slot while its worker waits. -/
theorem transit_moveNative {fd : ℤ} (hk : k < nsslRelayMax) (hpos : 0 ≤ fd)
    (hx : (transitBoard x).Waiting t k ∧ (transitBoard x).Accepts t fd) :
    TransitSecure t (storeRelay k fun r ↦ { r with nativeFd := fd })
      (fun _ ↦ Board.Halfway t k) x := by
  refine transit_store (Board.steady_waiting.and steady_accepts) hx fun y hy _ hallows ↦ ?_
  obtain ⟨⟨hblank, halive⟩, haccepts⟩ := hy
  rw [slotsAfter_moveNative hk hpos]
  have hstored : storedNative (fun s ↦ s.setRelay k fun r ↦ { r with nativeFd := fd }) y.mem k =
      fd := by
    rw [storedNative_setRelay, if_pos rfl]
  have hzero := hallows.unstopped k (List.mem_range.mpr hk) (.inl (hstored.symm ▸ hpos))
  have hstop : (transitBoard y).stop k = false := decide_eq_false (not_not.mpr hzero)
  have hopen : ¬ (transitBoard y).Sealed k := by
    rintro (hset | hset)
    · rw [hstop] at hset
      cases hset
    · rw [hblank.ready] at hset
      cases hset
  refine ⟨.hand (.moveNative k fd ((hblank.kept k).mpr rfl) haccepts hpos (halive hstop) hopen
    hblank.native), hblank.kept, hblank.ready, hblank.lwip, halive⟩

/-- The lwIP descriptor follows. -/
theorem transit_moveLwip (hk : k < nsslRelayMax) (lwfd : ℤ) (hx : (transitBoard x).Halfway t k) :
    TransitSecure t (storeRelay k fun r ↦ { r with lwfd := lwfd }) (fun _ ↦ Board.Kept t k) x := by
  refine transit_store Board.steady_halfway hx fun y hy _ hallows ↦ ?_
  have hkeeper := (hy.kept k).mpr rfl
  by_cases hpos : 0 ≤ lwfd
  · rw [slotsAfter_moveLwip hk hpos]
    have hstored : storedLwip (fun s ↦ s.setRelay k fun r ↦ { r with lwfd := lwfd }) y.mem k =
        lwfd := by
      rw [storedLwip_setRelay, if_pos rfl]
    have hslot : k ∈ relaySlots := List.mem_range.mpr hk
    have hzero := hallows.unstopped k hslot (.inr (hstored.symm ▸ hpos))
    have hstop : (transitBoard y).stop k = false := decide_eq_false (not_not.mpr hzero)
    have hopen : ¬ (transitBoard y).Sealed k := by
      rintro (hset | hset)
      · rw [hstop] at hset
        cases hset
      · rw [hy.ready] at hset
        cases hset
    refine ⟨.hand (.moveLwip k lwfd hkeeper hpos (hy.alive hstop) hopen hy.lwip
      fun before hbefore ↦ ?_), hy.kept⟩
    exact hallows.new k hslot (hstored.symm ▸ hpos) _ hbefore hstored.symm
  · have hneg : lwfd < 0 := Int.not_le.mp hpos
    have hboard : slotsAfter t (fun s ↦ s.setRelay k fun r ↦ { r with lwfd := lwfd }) y =
        { transitBoard y with lwfd := Function.update (transitBoard y).lwfd k lwfd } := by
      rw [slotsAfter_setRelay (fun r ↦ { r with lwfd := lwfd }) (fun _ ↦ rfl)
        (fun _ ↦ Int.negSucc_lt_zero 0) fun _ ↦ hneg]
      simp [transitBoard, Board.withRelay]
    rw [hboard]
    exact ⟨.hand (.storeLwfd k lwfd hkeeper hneg hy.lwip), hy.kept⟩

theorem transit_publish (hx : (transitBoard x).Kept t k) :
    TransitSecure t (storeRelay k fun r ↦ { r with ready := 1 }) (fun _ _ ↦ True) x := by
  refine transit_store Board.steady_kept hx fun y hy _ _ ↦ ⟨?_, trivial⟩
  have hboard : slotsAfter t (fun s ↦ s.setRelay k fun r ↦ { r with ready := 1 }) y =
      { transitBoard y with ready := Function.update (transitBoard y).ready k true } := by
    rw [slotsAfter_setRelay (fun r ↦ { r with ready := 1 }) (fun _ ↦ rfl)
      (fun _ ↦ Int.negSucc_lt_zero 0) fun _ ↦ Int.negSucc_lt_zero 0]
    simp [transitBoard, Board.withRelay]
  rw [hboard]
  exact .slot (.publish k ((hy k).mpr rfl))

theorem transit_bridgePublish {fd : ℤ} (sockfd lwfd : ℤ) (hk : k < nsslRelayMax) (hpos : 0 ≤ fd)
    (hx : (transitBoard x).Waiting t k ∧ (transitBoard x).Accepts t fd) :
    TransitSecure t (bridgePublish sockfd lwfd fd k) (fun _ _ ↦ True) x := by
  refine transit_seq (transit_moveNative hk hpos hx) fun _ y hy ↦ ?_
  refine transit_seq (transit_moveLwip hk lwfd hy) fun _ y hy ↦ ?_
  have hadopted : Keeps slotView Apart (note (.adopted k)) :=
    Keeps.bind (keeps_perform trivial) fun _ ↦ keeps_pure _
  refine transit_seq (transit_keeps hadopted Board.steady_kept hy) fun _ y hy ↦ ?_
  refine transit_seq (transit_keeps (keeps_slotStore fun _ ↦ rfl) Board.steady_kept hy)
    fun _ y hy ↦ ?_
  have hunmap : Keeps slotView Apart (unmapFd sockfd) :=
    Keeps.bind (keeps_store fun _ ↦ rfl) fun _ ↦ keeps_store fun _ ↦ rfl
  refine transit_seq (transit_keeps hunmap Board.steady_kept hy) fun _ y hy ↦ ?_
  exact transit_seq (transit_publish hy) fun _ _ _ ↦ trivial

theorem transit_bridgeConnect {listener : ℤ} (sockfd lwfd : ℤ) (loc : Sockaddr)
    (hk : k < nsslRelayMax)
    (hx : (transitBoard x).Waiting t k ∧ (transitBoard x).Listens t listener) :
    TransitSecure t (bridgeConnect sockfd lwfd listener k loc) (fun _ _ ↦ True) x := by
  have hsteady : Board.Steady t fun b ↦ b.Waiting t k ∧ b.Listens t listener :=
    Board.steady_waiting.and steady_listens
  have hconnect : Keeps slotView Apart (native (.connect sockfd (some loc) 16)) :=
    keeps_perform trivial
  refine transit_seq (transit_keeps hconnect hsteady hx) fun connected y hy ↦ ?_
  split
  · exact transit_bridgeFailNative _ _ hy.2
  refine transit_seq (transit_accept hy) fun accepted y hy ↦ ?_
  -- the listener is closed whatever was accepted
  have hclose : TransitSecure t (ignore (native (.socketclose listener))) (fun _ b ↦
      b.Waiting t k ∧ (0 ≤ accepted.code → b.Accepts t accepted.code)) y := by
    refine transit_ignore (transit_unlisten (Board.steady_waiting.and fun b c h hrely hpos ↦
      steady_accepts b c (h hpos) hrely) (fun b natives h ↦ ⟨h.1.withHands, fun hpos ↦ ?_⟩)
        ⟨⟨hy.1.1, hy.2⟩, hy.1.2⟩)
    have hne : NativeHand.accepted t ≠ .listener t := nofun
    change Function.update b.native (.listener t) none (.accepted t) = some accepted.code
    rw [Function.update_of_ne hne]
    exact h.2 hpos
  refine transit_seq hclose fun _ y hy ↦ ?_
  split
  · refine transit_seq (transit_calm keeps_slotLasterr) fun error y _ ↦ ?_
    exact transit_seq (transit_nsslRelayStopSlot _) fun _ _ _ ↦ trivial
  · rename_i hcode
    have hpos : 0 ≤ accepted.code := Int.not_lt.mp hcode
    exact transit_bridgePublish sockfd lwfd hk hpos ⟨hy.1, hy.2 hpos⟩

theorem transit_bridgeListen {listener : ℤ} (sockfd lwfd : ℤ) (hk : k < nsslRelayMax)
    (hx : (transitBoard x).Waiting t k ∧ (transitBoard x).Listens t listener) :
    TransitSecure t (bridgeListen sockfd lwfd listener k) (fun _ _ ↦ True) x := by
  have hsteady : Board.Steady t fun b ↦ b.Waiting t k ∧ b.Listens t listener :=
    Board.steady_waiting.and steady_listens
  have hcall : ∀ (request : Export) (y : TransitWatched), Apart (.native request) →
      (transitBoard y).Waiting t k ∧ (transitBoard y).Listens t listener →
      TransitSecure t (native request)
        (fun _ b ↦ b.Waiting t k ∧ b.Listens t listener) y := fun request y hrequest hy ↦
    transit_keeps (keeps_perform hrequest) hsteady hy
  refine transit_seq (transit_keeps (keeps_slotLwip trivial) hsteady hx) fun parsed y hy ↦ ?_
  split
  · exact transit_bridgeFail _ _ hy.2
  refine transit_seq (hcall _ y trivial hy) fun bound y hy ↦ ?_
  split
  · exact transit_bridgeFailNative _ _ hy.2
  refine transit_seq (hcall _ y trivial hy) fun listening y hy ↦ ?_
  split
  · exact transit_bridgeFailNative _ _ hy.2
  refine transit_seq (hcall _ y trivial hy) fun name y hy ↦ ?_
  split
  · exact transit_bridgeFailNative _ _ hy.2
  exact transit_bridgeConnect sockfd lwfd _ hk hy

theorem transit_bridgeAxSocketToNssl (sockfd : ℤ) (hx : (transitBoard x).Idle t) :
    TransitSecure t (bridgeAxSocketToNssl sockfd) (fun _ _ ↦ True) x := by
  refine transit_seq (transit_keeps (keeps_isForeign sockfd) Board.steady_idle hx)
    fun foreign y hy ↦ ?_
  split
  · trivial
  refine transit_seq (transit_keeps (keeps_stackFd sockfd) Board.steady_idle hy) fun lwfd y hy ↦ ?_
  refine transit_seq (transit_keeps (keeps_slotLwip trivial) Board.steady_idle hy)
    fun peer y hy ↦ ?_
  split
  · trivial
  split
  · trivial
  refine transit_seq (transit_nsslRelayReserve hy) fun slot y hy ↦ ?_
  split
  · trivial
  rename_i hslot
  obtain ⟨k, hk, rfl, hwaiting⟩ := hy (Int.not_lt.mp hslot)
  refine transit_seq (transit_listen hwaiting) fun listener y hy ↦ ?_
  split
  · exact transit_seq (transit_nsslRelayStopSlot _) fun _ _ _ ↦ trivial
  · rename_i hlistener
    exact transit_bridgeListen sockfd lwfd hk ⟨hy.1, hy.2 (Int.not_lt.mp hlistener)⟩

/-! ## Workers -/

theorem transit_relayGoes (hx : (transitBoard x).Leaving k) :
    TransitSecure (.worker k) (relayGoes k) (fun _ ↦ Board.Leaving k) x := by
  refine transit_seq (transit_keeps (keeps_loadRelay k _) Board.steady_leaving hx) ?_
  exact fun _ _ hy ↦ transit_pure hy

/-- The worker waits until its slot is stopped or published. -/
theorem transit_relayWait (fuel : ℕ) (hx : (transitBoard x).Running k) :
    TransitSecure (.worker k) (relayWait k fuel) (fun _ ↦ Board.Leaving k) x := by
  induction fuel generalizing x with
  | zero => trivial
  | succ fuel ih =>
    refine transit_seq (?_ : TransitSecure _ (loadRelay k NsslRelay.stop) (fun stop b ↦
      b.Running k ∧ (stop ≠ 0 → b.stop k = true)) x) fun stop y hy ↦ ?_
    · exact transit_load Board.steady_running hx fun y hy _ ↦ ⟨hy, decide_eq_true⟩
    split
    · rename_i hstop
      exact transit_relayGoes ⟨hy.1, .inl (hy.2 hstop)⟩
    refine transit_seq (?_ : TransitSecure _ (loadRelay k NsslRelay.ready) (fun ready b ↦
      b.Running k ∧ (ready ≠ 0 → b.ready k = true)) y) fun ready y hy ↦ ?_
    · exact transit_load Board.steady_running hy.1 fun y hy _ ↦ ⟨hy, decide_eq_true⟩
    split
    · rename_i hready
      exact transit_relayGoes ⟨hy.1, .inr (hy.2 hready)⟩
    · have hsleep : Keeps slotView Apart (ignore (os (.osSleepTicks 1))) :=
        keeps_ignore (keeps_perform trivial)
      refine transit_seq (transit_keeps hsleep Board.steady_running hy.1) fun _ y hy ↦ ?_
      exact ih hy

/-- `socketclose` of the native descriptor in a slot by its worker. -/
theorem transit_closeRelay {fd : ℤ}
    (hx : (transitBoard x).Leaving k ∧ (transitBoard x).native (.relay k) = some fd) :
    TransitSecure (.worker k) (native (.socketclose fd)) (fun _ ↦ Board.HalfLeft k) x := by
  refine transit_perform Board.steady_leavingNative hx fun y answer w hy hinv heffect ↦ ?_
  obtain rfl := Option.some.inj heffect
  obtain ⟨⟨⟨hrunning, htidy⟩, hsealed⟩, hfd⟩ := hy
  have hhands : (transitReply (.worker k) y (.native (.socketclose fd)) answer).native =
      Function.update (transitBoard y).native (.relay k) none := by
    funext hand
    change (if hand.closer = some (.worker k) ∧ (transitBoard y).native hand = some fd then none
      else (transitBoard y).native hand) = _
    by_cases hhand : hand = .relay k
    · rw [hhand, Function.update_self]
      exact if_pos ⟨rfl, hfd⟩
    · rw [Function.update_of_ne hhand]
      refine if_neg fun h ↦ hhand ?_
      exact hinv.holding.holder_unique hand (.relay k) fd h.2 hfd
  have hboard : transitBoard (passed (.worker k) y (.native (.socketclose fd)) answer
      { y.world with natives := y.world.natives.release fd }) =
      { transitBoard y with
        natives := (transitBoard y).natives.release fd
        native := Function.update (transitBoard y).native (.relay k) none } := by
    rw [← hhands]
    rfl
  rw [hboard]
  refine ⟨.work k rfl (.closeNative fd hfd), hrunning, hsealed, Function.update_self _ _ _, ?_⟩
  exact (htidy (.inr hrunning)).2

/-- It closes the native descriptor that the bridge moved to its slot, if there is one. -/
theorem transit_closeNative {fd : ℤ} (hy : (transitBoard x).Leaving k ∧
      (transitBoard x).native (.relay k) = if 0 ≤ fd then some fd else none) :
    TransitSecure (.worker k) (when (fd ≥ 0) do
      ignore (native (.socketclose fd))
      storeRelay k fun r ↦ { r with nativeFd := -1 }) (fun _ ↦ Board.HalfLeft k) x := by
  refine transit_when (fun hpos ↦ ?_) fun hneg ↦ ?_
  · refine transit_seq (transit_ignore (transit_closeRelay ⟨hy.1, hy.2.trans (if_pos hpos)⟩))
      fun _ y hy ↦ ?_
    refine transit_store Board.steady_halfLeft hy fun y hy _ _ ↦ ?_
    have hboard : slotsAfter (.worker k)
        (fun s ↦ s.setRelay k fun r ↦ { r with nativeFd := -1 }) y =
        { transitBoard y with nativeFd := Function.update (transitBoard y).nativeFd k (-1) } := by
      rw [slotsAfter_setRelay (fun r ↦ { r with nativeFd := -1 }) (fun _ ↦ rfl)
        (fun _ ↦ Int.negSucc_lt_zero 0) fun _ ↦ Int.negSucc_lt_zero 0]
      simp [transitBoard, Board.withRelay]
    rw [hboard]
    exact ⟨.work k rfl (.dropNative hy.running hy.sealed hy.native),
      hy.running, hy.sealed, hy.native, hy.lwip⟩
  · obtain ⟨⟨⟨hrunning, htidy⟩, hsealed⟩, hnone⟩ := hy
    exact ⟨hrunning, hsealed, hnone.trans (if_neg hneg), (htidy (.inr hrunning)).2⟩

/-- `lwip_close` of the lwIP descriptor in a slot by its worker. -/
theorem transit_closeSlot {lwfd : ℤ}
    (hx : (transitBoard x).HalfLeft k ∧ (transitBoard x).lwip k = some lwfd) :
    TransitSecure (.worker k) (perform (.lwip (.close lwfd))) (fun _ ↦ Board.Left k) x := by
  refine transit_perform Board.steady_halfLeftLwip hx fun y answer w hy hinv heffect ↦ ?_
  obtain rfl := Option.some.inj heffect
  obtain ⟨hhalf, hlwip⟩ := hy
  have hheld : (transitReply (.worker k) y (.lwip (.close lwfd)) answer).lwip =
      Function.update (transitBoard y).lwip k none := by
    funext j
    change (if RelayThread.worker k = .worker j ∧ (transitBoard y).lwip j = some lwfd then none
      else (transitBoard y).lwip j) = _
    by_cases hj : j = k
    · rw [hj, Function.update_self]
      exact if_pos ⟨rfl, hlwip⟩
    · rw [Function.update_of_ne hj]
      exact if_neg fun h ↦ hj (RelayThread.worker.inj h.1).symm
  have hboard : transitBoard (passed (.worker k) y (.lwip (.close lwfd)) answer
      { y.world with
        lwipCloses := Function.update y.world.lwipCloses lwfd (y.world.lwipCloses lwfd + 1) }) =
      { transitBoard y with
        lwipCloses := Function.update (transitBoard y).lwipCloses lwfd
          ((transitBoard y).lwipCloses lwfd + 1)
        lwip := Function.update (transitBoard y).lwip k none } := by
    rw [← hheld]
    rfl
  rw [hboard]
  exact ⟨.work k rfl (.closeLwip lwfd hlwip), hhalf.running, hhalf.sealed, hhalf.native,
    Function.update_self _ _ _⟩

/-- It closes the lwIP descriptor that the bridge moved to its slot, if there is one. -/
theorem transit_closeLwip {lwfd : ℤ} (hy : (transitBoard x).HalfLeft k ∧
      (transitBoard x).lwip k = if 0 ≤ lwfd then some lwfd else none) :
    TransitSecure (.worker k) (when (lwfd ≥ 0) do
      ignore (perform (.lwip (.close lwfd)))
      storeRelay k fun r ↦ { r with lwfd := -1 }) (fun _ ↦ Board.Left k) x := by
  refine transit_when (fun hpos ↦ ?_) fun hneg ↦ ?_
  swap
  · exact ⟨hy.1.running, hy.1.sealed, hy.1.native, hy.2.trans (if_neg hneg)⟩
  refine transit_seq (transit_ignore (transit_closeSlot ⟨hy.1, hy.2.trans (if_pos hpos)⟩))
    fun _ y hy ↦ ?_
  refine transit_store Board.steady_left hy fun y hy _ _ ↦ ?_
  have hboard : slotsAfter (.worker k) (fun s ↦ s.setRelay k fun r ↦ { r with lwfd := -1 }) y =
      { transitBoard y with lwfd := Function.update (transitBoard y).lwfd k (-1) } := by
    rw [slotsAfter_setRelay (fun r ↦ { r with lwfd := -1 }) (fun _ ↦ rfl)
      (fun _ ↦ Int.negSucc_lt_zero 0) fun _ ↦ Int.negSucc_lt_zero 0]
    simp [transitBoard, Board.withRelay]
  rw [hboard]
  exact ⟨.work k rfl (.dropLwip hy.running hy.sealed hy.lwip), hy.running, hy.sealed, hy.native,
    hy.lwip⟩

/-- It leaves nothing behind in its slot. -/
theorem transit_relayOut (hx : (transitBoard x).Leaving k) :
    TransitSecure (.worker k) (relayOut k) (fun _ ↦ Board.Left k) x := by
  refine transit_seq (?_ : TransitSecure _ (loadRelay k NsslRelay.nativeFd) (fun fd b ↦
    b.Leaving k ∧ b.native (.relay k) = if 0 ≤ fd then some fd else none) x) fun fd y hy ↦ ?_
  · refine transit_load Board.steady_leaving hx fun y hy hinv ↦ ⟨hy, ?_⟩
    exact hinv.native_relay (hy.1.2 (.inr hy.1.1)).1
  refine transit_seq (transit_closeNative hy) fun _ y hy ↦ ?_
  refine transit_seq (?_ : TransitSecure _ (loadRelay k NsslRelay.lwfd) (fun lwfd b ↦
    b.HalfLeft k ∧ b.lwip k = if 0 ≤ lwfd then some lwfd else none) y) fun lwfd y hy ↦ ?_
  · refine transit_load Board.steady_halfLeft hy fun y hy hinv ↦ ⟨hy, ?_⟩
    exact hinv.lwip_slot hy.lwip
  refine transit_seq (transit_closeLwip hy) fun _ y hy ↦ ?_
  refine transit_seq (transit_keeps (keeps_slotStore fun _ ↦ rfl) Board.steady_left hy) ?_
  exact fun _ y hy ↦ transit_keeps (keeps_slotStore fun _ ↦ rfl) Board.steady_left hy

theorem transit_exit (hx : (transitBoard x).Left k) :
    TransitSecure (.worker k) (note (.workerExit k)) (fun _ b ↦ ¬ b.Alive k) x := by
  refine transit_seq (?_ : TransitSecure _ _ (fun _ b ↦ ¬ b.Alive k) x) fun _ _ hy ↦ hy
  refine transit_perform Board.steady_left hx fun y answer w hy _ heffect ↦ ?_
  change some { y.world with
    threads := if y.world.threads.worker k = .running then y.world.threads.set k .terminated
      else y.world.threads } = some w at heffect
  obtain rfl := Option.some.inj heffect
  have hworker : y.world.threads.worker k = .running := hy.running
  rw [if_pos hworker]
  refine ⟨.work k rfl (.exit hy.running hy.sealed hy.native hy.lwip), ?_⟩
  have hended : (y.world.threads.set k .terminated).worker k = .terminated :=
    WorkerWorld.set_self _ _ _
  rintro (halive | halive)
  · cases hended.symm.trans halive
  · cases hended.symm.trans halive

theorem transit_runWorker (fuel : ℕ) (hx : (transitBoard x).Running k) :
    TransitSecure (.worker k) (runWorker k fuel) (fun _ b ↦ ¬ b.Alive k) x := by
  refine transit_seq (?_ : TransitSecure _ _ (fun _ ↦ Board.Left k) x) fun _ y hy ↦ transit_exit hy
  refine transit_seq (transit_relayWait fuel hx) fun ready y hy ↦ ?_
  refine transit_seq (transit_when (fun _ ↦ ?_) fun _ ↦ hy) fun _ y hy ↦ transit_relayOut hy
  refine transit_seq (transit_keeps (keeps_loadRelay k _) Board.steady_leaving hy) fun fds y hy ↦ ?_
  refine transit_seq (transit_keeps (keeps_slotLoop k _ _ fuel _) Board.steady_leaving hy)
    fun exit y hy ↦ ?_
  have hend : Keeps slotView Apart (note (.relayEnd k exit)) :=
    Keeps.bind (keeps_perform trivial) fun _ ↦ keeps_pure _
  exact transit_keeps hend Board.steady_leaving hy

end Rules

/-! ## Every run -/

/-- What a thread is sure of between its operations and at the end of one. -/
def Board.Tidied (t : RelayThread) (b : Board) : Prop := ∀ k, t = .worker k → b.Tidy k

theorem steady_tidied {t : RelayThread} : Board.Steady t (Board.Tidied t) :=
  fun _ _ h hrely k hk ↦ hrely.tidy k hk (h k hk)

theorem transit_callerBody {n : ℕ} {x : TransitWatched} (operation : BridgeOperation)
    (hx : (transitBoard x).Idle (.caller n)) :
    TransitSecure (.caller n) (callerBody operation) (fun _ _ ↦ True) x := by
  cases operation with
  | bridge sockfd => exact transit_seq (transit_bridgeAxSocketToNssl sockfd hx) fun _ _ _ ↦ trivial
  | detach fd => exact transit_nsslRelayDetachPublicFd fd
  | stopSlot slot => exact transit_nsslRelayStopSlot slot
  | stopAll fuel => exact transit_mono (transit_nsslRelayStopAll fuel hx) fun _ _ _ ↦ trivial
  | finish fuel => exact transit_mono (transit_hookNsslFinish fuel hx) fun _ _ _ ↦ trivial
  | work fuel => trivial

/-- A module whose relay workers have all ended.  The slots may have been used before, and nsysnet
may have open descriptors. -/
structure WorkerFree (x : Machine ShimState TransitWorld) : Prop where
  natives : x.world.natives.Coherent
  lwip : ∀ lwfd, x.world.lwipCloses lwfd = 0
  workers : ∀ k, x.world.threads.alive k = false

/-- With the history of a run that begins. -/
def transitStart (x : Machine ShimState TransitWorld) : TransitWatched := { x with ghost := {} }

theorem WorkerFree.dead {x : Machine ShimState TransitWorld} (hx : WorkerFree x) (k : ℕ) :
    ¬ (transitBoard (transitStart x)).Alive k := fun halive ↦
  Bool.false_ne_true ((hx.workers k).symm.trans (decide_eq_true halive))

theorem WorkerFree.inv {x : Machine ShimState TransitWorld} (hx : WorkerFree x) :
    (transitBoard (transitStart x)).Inv where
  natives := hx.natives
  holding := .of_none fun _ ↦ rfl
  accepted := nofun
  relay := nofun
  lwip := nofun
  nativeAccount := .empty fun _ ↦ rfl
  lwipAccount := .empty fun _ ↦ rfl
  listed := by
    rintro l (⟨k, hk⟩ | hcloses)
    · cases hk
    · exact absurd (hx.lwip l) hcloses

theorem transit_secured {x : Machine ShimState TransitWorld} (hx : WorkerFree x) :
    Secured transitSystem transitMonitor (transitStart x) transitProtocol
      (fun t y ↦ (transitBoard y).Idle t ∧ (transitBoard y).Tidied t)
      (fun t y ↦ (transitBoard y).Tidied t) where
  rely_refl t y := Board.Rely.refl t (transitBoard y)
  rely_trans _ _ _ _ hxy hyz := hxy.trans hyz
  idle_steady t := steady_onBoard (Board.steady_idle.and steady_tidied)
  ended_steady t := steady_onBoard steady_tidied
  finish_safe t y hy htidied := by
    have hboard : transitBoard (transitMonitor.finished t y) =
        { transitBoard y with
          keeper := fun k ↦
            if (transitBoard y).keeper k = some t then none else (transitBoard y).keeper k } := rfl
    refine ⟨permits_of_boardStep hy ?_, ?_⟩
    · rw [hboard]
      exact .slot .forget
    · rw [hboard]
      refine ⟨fun k hk ↦ ?_, htidied⟩
      dsimp only at hk
      split at hk
      · cases hk
      · exact absurd hk ‹_›
  env_safe event := event.elim
  body_secure t operation y hinv hidle henabled := by
    cases t with
    | caller n =>
      have hbody : transitSystem.body (.caller n) operation = callerBody operation := by
        cases operation <;> rfl
      rw [hbody]
      exact transit_mono (transit_callerBody operation hidle.1) fun _ _ _ ↦ nofun
    | worker k =>
      cases operation with
      | work fuel =>
        have hrunning : (transitBoard y).worker k = .running := of_decide_eq_true henabled
        refine transit_mono (transit_runWorker fuel ⟨hrunning, hidle.2 k rfl⟩)
          fun _ b hdead j hj ↦ ?_
        obtain rfl := RelayThread.worker.inj hj
        exact fun halive ↦ absurd halive hdead
      | _ => cases henabled
  initial_inv := hx.inv
  initial_idle t := ⟨fun _ ↦ nofun, fun k _ halive ↦ absurd halive (hx.dead k)⟩

/-- Every descriptor that a bridge has moved to its slot is closed exactly once, and not before. -/
structure ClosedOnce (c : Config RelayThread ShimState TransitWorld ShimCall ShimReply)
    (g : TransitHistory) : Prop where
  native : ∀ id before, (id, before) ∈ g.movedNative →
    before = 0 ∧ c.machine.world.natives.releases id = 1
  lwip : ∀ lwfd before, (lwfd, before) ∈ g.movedLwip →
    before = 0 ∧ c.machine.world.lwipCloses lwfd = 1

/-- Every relay worker has ended and was reaped. -/
def Reaped (w : TransitWorld) : Prop :=
  ∀ k, w.threads.worker k = .absent ∨ w.threads.worker k = .joined

/-- In every run that meets the condition the descriptors that were moved are closed exactly once
by the time every worker was reaped. -/
theorem bridged_closed_once (x : Machine ShimState TransitWorld) (hx : WorkerFree x)
    (actions : List (Action RelayThread BridgeOperation Empty ShimReply))
    (c : Config RelayThread ShimState TransitWorld ShimCall ShimReply) (g : TransitHistory)
    (hwatch : transitSystem.watch transitMonitor (System.start x) {} actions = some (c, g))
    (hreaped : Reaped c.machine.world) : ClosedOnce c g := by
  have hinv := ((transit_secured hx).sound hwatch).invariant
  obtain ⟨hnative, hlwip⟩ := hinv.settled fun k halive ↦ by
    rcases hreaped k with hworker | hworker <;> rcases halive with halive | halive
    all_goals cases hworker.symm.trans halive
  exact ⟨hnative, hlwip⟩

/-! ### Runs -/

abbrev TransitAction := Action RelayThread BridgeOperation Empty ShimReply

/-- Steps of one thread, each run of them followed by the answer to its next call. -/
def transitScript (t : RelayThread) (moves : List (ℕ × ShimReply)) : List TransitAction :=
  moves.flatMap fun move ↦ List.replicate move.1 (.step t) ++ [.answer t move.2]

/-- Thread 0 bridges socket 3 up to the start of its worker. -/
def reservingSteps : List TransitAction :=
  .start (.caller 0) (.bridge 3) ::
    transitScript (.caller 0) [(3, peerAnswer), (15, { code := 1 }), (0, {})]

/-- The rest of the bridge: nsysnet hands out the listener 10 and accepts 11. -/
def movingSteps : List TransitAction :=
  transitScript (.caller 0) [(0, { code := 10 }), (0, { code := 1 }), (1, {}), (0, {}), (0, {}),
    (0, {}), (0, { code := 11 }), (0, {}), (2, {})] ++ List.replicate 5 (.step (.caller 0))

/-- Thread 1 stops all relays. -/
def stoppingSteps : List TransitAction :=
  .start (.caller 1) (.stopAll 1) :: List.replicate 9 (.step (.caller 1))

/-- The worker leaves its wait and finds nothing to close. -/
def leavingSteps : List TransitAction :=
  .start (.worker 0) (.work 1) :: List.replicate 6 (.step (.worker 0)) ++
    [.answer (.worker 0) {}, .step (.worker 0)]

/-- It closes both descriptors. -/
def emptyingSteps : List TransitAction :=
  .start (.worker 0) (.work 1) :: transitScript (.worker 0) [(3, {}), (2, {}), (3, {})] ++
    [.step (.worker 0)]

/-- Thread 1 has waited half a second and reaps the worker. -/
def reapingSteps : List TransitAction :=
  transitScript (.caller 1) [(0, {}), (0, { code := 62156250 }), (2, { code := 1 }), (0, {})] ++
    List.replicate 10 (.step (.caller 1))

def twoSocketsFree : Machine ShimState TransitWorld := { mem := twoSockets, world := {} }

theorem workerFree_twoSockets : WorkerFree twoSocketsFree where
  natives := Ledger.holds_empty.coherent
  lwip _ := rfl
  workers _ := rfl

/-- The thread objects after one worker was created, has run and was joined. -/
def oneReaped : ℕ → WorkerState :=
  Function.update (Function.update (Function.update (Function.update (fun _ ↦ .absent) 0 .suspended)
    0 .running) 0 .terminated) 0 .joined

theorem oneReaped_cases (k : ℕ) : oneReaped k = .absent ∨ oneReaped k = .joined := by
  by_cases hk : k = 0
  · exact .inr (by rw [hk, oneReaped, Function.update_self])
  · exact .inl (by simp only [oneReaped, Function.update_of_ne hk])

/-- A bridge that is stopped once it has returned. -/
theorem bridged_closed_once_stopped : ∃ actions c g,
    transitSystem.watch transitMonitor (System.start twoSocketsFree) {} actions = some (c, g) ∧
      g.movedNative = [(1, 0)] ∧ g.movedLwip = [(0, 0)] ∧ ClosedOnce c g := by
  have hrun : (transitSystem.watch transitMonitor (System.start twoSocketsFree) {}
      (reservingSteps ++ movingSteps ++ stoppingSteps ++ emptyingSteps ++ reapingSteps)).map
        (fun f ↦ (f.1.machine.world.threads.worker, f.2.movedNative, f.2.movedLwip)) =
      some (oneReaped, [(1, 0)], [(0, 0)]) := rfl
  obtain ⟨⟨c, g⟩, hwatch, hend⟩ := Option.map_eq_some_iff.mp hrun
  simp only [Prod.mk.injEq] at hend
  obtain ⟨hworker, hnative, hlwip⟩ := hend
  refine ⟨_, c, g, hwatch, hnative, hlwip, ?_⟩
  refine bridged_closed_once twoSocketsFree workerFree_twoSockets _ c g hwatch fun k ↦ ?_
  rw [hworker]
  exact oneReaped_cases k

/-- The relay is stopped, ends and is reaped before the bridge stores its descriptors and publishes
them: the bridge returns and nobody closes them. -/
theorem bridged_never_closed : WorkerFree twoSocketsFree ∧ ∃ actions c g,
    transitSystem.watch transitObserver (System.start twoSocketsFree) {} actions = some (c, g) ∧
      Reaped c.machine.world ∧ (c.threads (.caller 0)).isNone = true ∧
      (c.machine.mem.nsslRelays 0).ready = 1 ∧
      g.movedNative = [(1, 0)] ∧ c.machine.world.natives.releases 1 = 0 ∧
      g.movedLwip = [(0, 0)] ∧ c.machine.world.lwipCloses 0 = 0 := by
  have hrun : (transitSystem.watch transitObserver (System.start twoSocketsFree) {}
      (reservingSteps ++ stoppingSteps ++ leavingSteps ++ reapingSteps ++ movingSteps)).map
        (fun f ↦ (f.1.machine.world.threads.worker, (f.1.threads (.caller 0)).isNone,
          (f.1.machine.mem.nsslRelays 0).ready, f.2.movedNative,
          f.1.machine.world.natives.releases 1, f.2.movedLwip, f.1.machine.world.lwipCloses 0)) =
      some (oneReaped, true, 1, [(1, 0)], 0, [(0, 0)], 0) := rfl
  obtain ⟨⟨c, g⟩, hwatch, hend⟩ := Option.map_eq_some_iff.mp hrun
  simp only [Prod.mk.injEq] at hend
  obtain ⟨hworker, hrest⟩ := hend
  refine ⟨workerFree_twoSockets, _, c, g, hwatch, fun k ↦ ?_, hrest⟩
  rw [hworker]
  exact oneReaped_cases k

end Ax88179Aroma.Shim
