import Ax88179Aroma.Port.Sync

/-!
# What each step of a thread does to the others

The answers of the operating system and the writes to the history, one lemma for each: the invariant
is kept, nothing of another thread changes, and what the thread has to report changes accordingly.
-/

namespace Ax88179Aroma.Port

open Effect Net Program

variable {ι : Type}

/-! ## The objects and the clock -/

section Objects

variable {i : ι} {x : PortMachine ι}

/-- An object that exists is not being created. -/
theorem PortInv.creating_of_update (hinv : PortInv x) {queues : ℕ → Option OSMessageQueue}
    {semaphores : ℕ → Option ℕ} (hqueue : ∀ p, x.world.queues p = none → queues p = none)
    (hsemaphore : ∀ p, x.world.semaphores p = none → semaphores p = none) (k : ι) (p : ℕ)
    (hp : x.mem.history.creating k = some p) :
    x.world.heap.isOut p = true ∧ queues p = none ∧ semaphores p = none := by
  obtain ⟨hout, hnone, hsem⟩ := hinv.creating k p hp
  exact ⟨hout, hqueue p hnone, hsemaphore p hsem⟩

/-- What was none before an existing object changed is none after. -/
theorem update_eq_none {α : Type} {f : ℕ → Option α} {q p : ℕ} {value : Option α}
    (hq : f q ≠ none) (h : f p = none) : Function.update f q value p = none := by
  have hne : p ≠ q := fun hsame ↦ hq (hsame ▸ h)
  rw [Function.update_of_ne hne, h]

/-- One mailbox changes. -/
theorem PortInv.setMailbox (hinv : PortInv x) {queue : ℕ} {box box' : OSMessageQueue}
    (hbox : x.world.queues queue = some box) {entered left : ℕ → List (ι × ℕ)}
    (hother : ∀ p, p ≠ queue →
      entered p = x.mem.history.entered p ∧ left p = x.mem.history.left p)
    (hkept : MailboxKept (entered queue) (left queue) (some box')) :
    PortInv (ι := ι) {
      mem := { x.mem with history := { x.mem.history with entered := entered, left := left } }
      world := { x.world with
        queues := Function.update x.world.queues queue (some box') } } := by
  have hexists : x.world.queues queue ≠ none := hbox ▸ Option.some_ne_none box
  refine { hinv with
    queue_out := fun p hp ↦ hinv.queue_out p fun hnone ↦ hp (update_eq_none hexists hnone)
    creating := hinv.creating_of_update (fun p ↦ update_eq_none hexists) fun p h ↦ h
    mailbox := fun p ↦ ?_ }
  dsimp only
  by_cases hpq : p = queue
  · rw [hpq, Function.update_self]
    exact hkept
  · rw [Function.update_of_ne hpq, (hother p hpq).1, (hother p hpq).2]
    exact hinv.mailbox p

theorem inv_sendMessage (hinv : PortInv x) {queue : ℕ} {box : OSMessageQueue}
    (hbox : x.world.queues queue = some box) (hroom : box.messages.length < box.capacity)
    (m : OSMessage) : PortInv (sendMessage i x queue box m) := by
  refine hinv.setMailbox hbox (fun p hp ↦ ⟨Function.update_of_ne hp _ _, rfl⟩) ?_
  obtain ⟨hentered, -⟩ := hbox ▸ hinv.mailbox queue
  rw [Function.update_self]
  refine ⟨?_, ?_⟩
  · rw [List.map_append, hentered, List.map_append, List.append_assoc]
    rfl
  · rw [List.length_append]
    exact hroom

theorem inv_receiveMessage (hinv : PortInv x) {queue : ℕ} {box : OSMessageQueue} {m : OSMessage}
    {rest : List OSMessage} (hbox : x.world.queues queue = some box)
    (hmessages : box.messages = m :: rest) : PortInv (receiveMessage i x queue box m rest) := by
  refine hinv.setMailbox hbox (fun p hp ↦ ⟨rfl, Function.update_of_ne hp _ _⟩) ?_
  obtain ⟨hentered, hlength⟩ := hbox ▸ hinv.mailbox queue
  rw [hmessages] at hentered hlength
  rw [Function.update_self]
  refine ⟨?_, Nat.le_of_succ_le hlength⟩
  rw [hentered, List.map_append, List.map_cons, List.append_assoc]
  rfl

/-- One semaphore changes. -/
theorem PortInv.setSemaphore (hinv : PortInv x) {sem count count' : ℕ}
    (hcount : x.world.semaphores sem = some count) {given taken : ℕ → List ι}
    (hother : ∀ p, p ≠ sem → given p = x.mem.history.given p ∧ taken p = x.mem.history.taken p)
    (hkept : SemaphoreKept (x.mem.history.permits sem) (given sem) (taken sem) (some count')) :
    PortInv (ι := ι) {
      mem := { x.mem with history := { x.mem.history with given := given, taken := taken } }
      world := { x.world with
        semaphores := Function.update x.world.semaphores sem (some count') } } := by
  have hexists : x.world.semaphores sem ≠ none := hcount ▸ Option.some_ne_none count
  refine { hinv with
    semaphore_out := fun p hp ↦
      hinv.semaphore_out p fun hnone ↦ hp (update_eq_none hexists hnone)
    creating := hinv.creating_of_update (fun p h ↦ h) fun p ↦ update_eq_none hexists
    semaphore := fun p ↦ ?_ }
  dsimp only
  by_cases hps : p = sem
  · rw [hps, Function.update_self]
    exact hkept
  · rw [Function.update_of_ne hps, (hother p hps).1, (hother p hps).2]
    exact hinv.semaphore p

theorem inv_signal (hinv : PortInv x) {sem count : ℕ}
    (hcount : x.world.semaphores sem = some count) : PortInv (signal i x sem count) := by
  refine hinv.setSemaphore hcount (fun p hp ↦ ⟨Function.update_of_ne hp _ _, rfl⟩) ?_
  have hkept : _ + _ = _ := hcount ▸ hinv.semaphore sem
  rw [Function.update_self]
  change _ + (_ ++ [i]).length = _
  rw [List.length_append, ← Nat.add_assoc, hkept]
  rfl

theorem inv_takePermit (hinv : PortInv x) {sem count : ℕ}
    (hcount : x.world.semaphores sem = some (count + 1)) : PortInv (takePermit i x sem count) := by
  refine hinv.setSemaphore hcount (fun p hp ↦ ⟨rfl, Function.update_of_ne hp _ _⟩) ?_
  have hkept : _ + _ = _ := hcount ▸ hinv.semaphore sem
  rw [Function.update_self]
  change _ = (_ ++ [i]).length + _
  rw [List.length_append, hkept, List.length_singleton, Nat.add_assoc, Nat.add_comm 1 count]

/-- Up to the length of a run a difference of times is not cut. -/
theorem osTicksToMilliseconds_of_short {ticks limit : ℕ} (hle : ticks ≤ limit)
    (hlimit : limit * 1000 < 2 ^ 64) :
    osTicksToMilliseconds ticks = ticks * 1000 / osTimerClockSpeed := by
  rw [osTicksToMilliseconds, Nat.mod_eq_of_lt]
  exact Nat.lt_of_le_of_lt (Nat.mul_le_mul_right 1000 hle) hlimit

theorem PortInv.elapsed_lt (hinv : PortInv x) {ticks : ℕ}
    (hticks : ticks ≤ x.world.now - x.world.boot) :
    osTicksToMilliseconds ticks < sysArchTimeout.toNat ∧
      osTicksToMilliseconds ticks = ticks * 1000 / osTimerClockSpeed := by
  obtain ⟨hlt, hlimit⟩ := hinv.short
  have heq := osTicksToMilliseconds_of_short hticks hlimit
  refine ⟨?_, heq⟩
  rw [osTicksToMilliseconds_of_short (Nat.le_refl _) hlimit] at hlt
  rw [heq]
  exact Nat.lt_of_le_of_lt (Nat.div_le_div_right (Nat.mul_le_mul_right 1000 hticks)) hlt

theorem inv_freshPort (boot : ℕ) : PortInv (freshPort boot : PortMachine ι) where
  boot_le := Nat.le_refl boot
  short := by
    simp only [PortWorld.Short, freshPort, Nat.sub_self]
    decide
  heap := Ledger.holds_empty.coherent
  nonnull := rfl
  queue_out _ h := absurd rfl h
  semaphore_out _ h := absurd rfl h
  creating := nofun
  creating_unique := nofun
  mailbox _ := ⟨rfl, rfl⟩
  semaphore _ := ⟨rfl, rfl⟩
  going := nofun
  ended _ _ _ h := absurd h List.not_mem_nil

theorem inv_portTick {ticks : ℕ} {y : PortMachine ι} (hinv : PortInv x)
    (htick : portTick ticks x = some y) : PortInv y := by
  unfold portTick at htick
  split at htick
  · rename_i hshort
    cases htick
    refine { hinv with
      boot_le := Nat.le_add_right_of_le hinv.boot_le
      short := hshort
      going := fun i w hw ↦ ?_ }
    obtain ⟨hunread, hread, hpatient⟩ := hinv.going i w hw
    refine ⟨hunread, fun start hstart ↦ ?_, hpatient⟩
    obtain ⟨hboot, hlast, hnow, hslept⟩ := hread start hstart
    exact ⟨hboot, hlast, Nat.le_add_right_of_le hnow, Nat.le_add_right_of_le hslept⟩
  · cases htick

end Objects

variable [DecidableEq ι]

/-! ## Lists of events -/

theorem byThread_append_self {α : Type} (i : ι) (events : List (ι × α)) (msg : α) :
    byThread i (events ++ [(i, msg)]) = byThread i events ++ [msg] := by
  simp [byThread, List.filter_append]

theorem byThread_append_of_ne {α : Type} {i j : ι} (hne : i ≠ j) (events : List (ι × α))
    (msg : α) :
    byThread j (events ++ [(i, msg)]) = byThread j events := by
  simp [byThread, List.filter_append, hne]

theorem count_append_self (i : ι) (threads : List ι) :
    (threads ++ [i]).count i = threads.count i + 1 := by
  rw [List.count_append, List.count_singleton_self]

theorem count_append_of_ne {i j : ι} (hne : i ≠ j) (threads : List ι) :
    (threads ++ [i]).count j = threads.count j := by
  rw [List.count_append, List.count_singleton, if_neg (by simpa using hne)]
  rfl

/-- A list that grows at one place only. -/
theorem update_apply_congr {α β : Type} (project : α → β) (f : ℕ → α) (q : ℕ) (value : α)
    (hsame : project value = project (f q)) (p : ℕ) :
    project (Function.update f q value p) = project (f p) := by
  by_cases hpq : p = q
  · rw [hpq, Function.update_self, hsame]
  · rw [Function.update_of_ne hpq]

theorem atMailbox_single (p q msg : ℕ) :
    atMailbox p [(q, msg)] = if p = q then [msg] else [] := by
  by_cases hpq : p = q
  · simp [atMailbox, hpq]
  · simp [atMailbox, hpq, Ne.symm hpq]

/-! ## The answers of the operating system -/

section Answers

variable {i j : ι} {x : PortMachine ι} {work : Work}

theorem own_allocate {block : Block} {p : ℕ} {y : PortMachine ι} (hne : i ≠ j)
    (h : allocate i x block p = some y) : own j y = own j x := by
  unfold allocate at h
  split at h
  · cases h
    rfl
  · obtain ⟨heap, -, rfl⟩ := Option.map_eq_some_iff.mp h
    have hcreating : Function.update x.mem.history.creating i (some p) j =
        x.mem.history.creating j := Function.update_of_ne (Ne.symm hne) _ _
    cases block <;> first | rfl | exact Own.ext hcreating rfl rfl rfl rfl rfl rfl rfl rfl rfl rfl

theorem own_initSemaphore (hne : i ≠ j) (sem count : ℕ) :
    own j (initSemaphore i x sem count) = own j x :=
  Own.ext (Function.update_of_ne (Ne.symm hne) _ _) rfl rfl rfl rfl rfl rfl rfl rfl rfl rfl

theorem own_initMessageQueue (hne : i ≠ j) (queue capacity : ℕ) :
    own j (initMessageQueue i x queue capacity) = own j x :=
  Own.ext (Function.update_of_ne (Ne.symm hne) _ _) rfl rfl rfl rfl rfl rfl rfl rfl rfl rfl

theorem own_signal (hne : i ≠ j) (sem count : ℕ) : own j (signal i x sem count) = own j x := by
  refine Own.ext rfl rfl rfl rfl rfl (funext fun p ↦ ?_) rfl rfl rfl rfl rfl
  exact update_apply_congr (List.count j) _ _ _ (count_append_of_ne hne _) p

theorem own_takePermit (hne : i ≠ j) (sem count : ℕ) :
    own j (takePermit i x sem count) = own j x := by
  refine Own.ext rfl rfl rfl rfl rfl rfl (funext fun p ↦ ?_) rfl rfl rfl rfl
  exact update_apply_congr (List.count j) _ _ _ (count_append_of_ne hne _) p

theorem own_sendMessage (hne : i ≠ j) (queue : ℕ) (box : OSMessageQueue) (m : OSMessage) :
    own j (sendMessage i x queue box m) = own j x := by
  refine Own.ext rfl rfl rfl (funext fun p ↦ ?_) rfl rfl rfl rfl rfl rfl rfl
  exact update_apply_congr (byThread j) _ _ _ (byThread_append_of_ne hne _ _) p

theorem own_receiveMessage (hne : i ≠ j) (queue : ℕ) (box : OSMessageQueue) (m : OSMessage)
    (rest : List OSMessage) : own j (receiveMessage i x queue box m rest) = own j x := by
  refine Own.ext rfl rfl rfl rfl (funext fun p ↦ ?_) rfl rfl rfl rfl rfl rfl
  exact update_apply_congr (byThread j) _ _ _ (byThread_append_of_ne hne _ _) p

theorem own_setTiming (hne : i ≠ j) (timing : Option TimedWait) :
    own j (withHistory x (x.mem.history.setTiming i timing)) = own j x :=
  Own.ext rfl (Function.update_of_ne (Ne.symm hne) _ _) rfl rfl rfl rfl rfl rfl rfl rfl rfl

/-- A step that leaves the clock alone and keeps the objects is within what the others rely on. -/
theorem guarantees_of_own {y : PortMachine ι} (hsound : PortSound x) (hinv : PortInv y)
    (hown : ∀ j, i ≠ j → own j y = own j x) (hself : Holding i work y) (hsize : work.size ≤ 1)
    (hboot : y.world.boot = x.world.boot) (hnow : y.world.now = x.world.now)
    (hqueue : ∀ p, x.world.queues p ≠ none → y.world.queues p ≠ none)
    (hsemaphore : ∀ p, x.world.semaphores p ≠ none → y.world.semaphores p ≠ none) :
    Guarantees PortSound PortRely i x y := by
  refine ⟨{ hinv with late := fun j ↦ ?_ }, fun j hj ↦
    ⟨hown j (Ne.symm hj), hboot, Nat.le_of_eq hnow.symm, hqueue, hsemaphore⟩⟩
  by_cases hij : i = j
  · rw [← hij]
    exact ⟨work, hself, hsize⟩
  · rw [hown j hij]
    exact hsound.late j

/-- A step after which the machine is the same. -/
theorem guarantees_refl (hsound : PortSound x) : Guarantees PortSound PortRely i x x :=
  ⟨hsound, fun j _ ↦ portRely_refl j x⟩

theorem size_entered (h : work.size = 0) (event : ℕ × ℕ) :
    ({ work with entered := work.entered ++ [event] } : Work).size ≤ 1 := by
  simp only [Work.size, List.length_append, List.length_singleton] at h ⊢
  omega

theorem size_left (h : work.size = 0) (event : ℕ × ℕ) :
    ({ work with left := work.left ++ [event] } : Work).size ≤ 1 := by
  simp only [Work.size, List.length_append, List.length_singleton] at h ⊢
  omega

theorem size_given (h : work.size = 0) (sem : ℕ) :
    ({ work with given := work.given ++ [sem] } : Work).size ≤ 1 := by
  simp only [Work.size, List.length_append, List.length_singleton] at h ⊢
  omega

theorem size_taken (h : work.size = 0) (sem : ℕ) :
    ({ work with taken := work.taken ++ [sem] } : Work).size ≤ 1 := by
  simp only [Work.size, List.length_append, List.length_singleton] at h ⊢
  omega

/-- An object that is changed still exists. -/
theorem update_some_ne_none {α : Type} {f : ℕ → Option α} {q p : ℕ} (value : α) (h : f p ≠ none) :
    Function.update f q (some value) p ≠ none := by
  by_cases hpq : p = q
  · rw [hpq, Function.update_self]
    exact Option.some_ne_none value
  · rwa [Function.update_of_ne hpq]

/-! ### New objects -/

/-- A block for an object is allocated. -/
theorem inv_allocate (hinv : PortInv x) {block : Block} {p : ℕ} {y : PortMachine ι}
    (h : allocate i x block p = some y) : PortInv y := by
  unfold allocate at h
  split at h
  · cases h
    exact hinv
  · rename_i hp
    obtain ⟨heap, hheap, rfl⟩ := Option.map_eq_some_iff.mp h
    have hnonnull : heap.isOut 0 = false := by
      rw [Bool.eq_false_iff, ne_eq, Ledger.isOut_acquire_iff hinv.heap hheap, hinv.nonnull]
      exact fun hnull ↦ hnull.elim (fun hzero ↦ hp hzero.symm) Bool.false_ne_true
    have hkeep : ∀ q, x.world.heap.isOut q = true → heap.isOut q = true := fun q hq ↦
      Ledger.isOut_acquire_of_isOut hheap hq
    have hfree : x.world.heap.isOut p = false := (Ledger.acquire_eq hheap).1
    have hqueue : x.world.queues p = none := by
      by_contra hsome
      rw [hinv.queue_out p hsome] at hfree
      cases hfree
    have hsemaphore : x.world.semaphores p = none := by
      by_contra hsome
      rw [hinv.semaphore_out p hsome] at hfree
      cases hfree
    have hcases : ∀ k q, Function.update x.mem.history.creating i (some p) k = some q →
        k = i ∧ q = p ∨ q ≠ p ∧ x.mem.history.creating k = some q := by
      intro k q hk
      by_cases hki : k = i
      · rw [hki, Function.update_self] at hk
        exact .inl ⟨hki, (Option.some.inj hk).symm⟩
      · rw [Function.update_of_ne hki] at hk
        refine .inr ⟨?_, hk⟩
        rintro rfl
        rw [(hinv.creating k q hk).1] at hfree
        cases hfree
    have hobject : PortInv (ι := ι) {
        mem := { x.mem with history := x.mem.history.setCreating i (some p) }
        world := { x.world with heap := heap } } := by
      refine { hinv with
        heap := hinv.heap.acquire hheap
        nonnull := hnonnull
        queue_out := fun q hq ↦ hkeep q (hinv.queue_out q hq)
        semaphore_out := fun q hq ↦ hkeep q (hinv.semaphore_out q hq)
        creating := fun k q hk ↦ ?_
        creating_unique := fun j k q hj hk ↦ ?_ }
      · rcases hcases k q hk with ⟨-, rfl⟩ | ⟨-, hold⟩
        · exact ⟨Ledger.isOut_acquire hinv.heap hheap, hqueue, hsemaphore⟩
        · obtain ⟨hout, hnone⟩ := hinv.creating k q hold
          exact ⟨hkeep q hout, hnone⟩
      · rcases hcases j q hj with ⟨rfl, rfl⟩ | ⟨hne, hold⟩
        · rcases hcases k q hk with ⟨rfl, -⟩ | ⟨hne, -⟩
          · rfl
          · exact absurd rfl hne
        · rcases hcases k q hk with ⟨-, rfl⟩ | ⟨-, hold'⟩
          · exact absurd rfl hne
          · exact hinv.creating_unique j k q hold hold'
    have hother : PortInv (ι := ι) {
        mem := x.mem
        world := { x.world with heap := heap } } :=
      { hinv with
        heap := hinv.heap.acquire hheap
        nonnull := hnonnull
        queue_out := fun q hq ↦ hkeep q (hinv.queue_out q hq)
        semaphore_out := fun q hq ↦ hkeep q (hinv.semaphore_out q hq)
        creating := fun k q hk ↦ ⟨hkeep q (hinv.creating k q hk).1, (hinv.creating k q hk).2⟩ }
    cases block with
    | semaphore => exact hobject
    | mutex => exact hobject
    | mailbox size => exact hobject
    | thread => exact hother
    | stack size => exact hother
    | start => exact hother

/-- The creator gives up its block, which no one else creates. -/
theorem PortInv.creating_of_init (hinv : PortInv x) {p : ℕ}
    (hp : x.mem.history.creating i = some p) {k : ι} {q : ℕ}
    (hk : Function.update x.mem.history.creating i none k = some q) :
    q ≠ p ∧ x.mem.history.creating k = some q := by
  by_cases hki : k = i
  · rw [hki, Function.update_self] at hk
    cases hk
  · rw [Function.update_of_ne hki] at hk
    refine ⟨?_, hk⟩
    rintro rfl
    exact hki (hinv.creating_unique k i q hk hp)

theorem inv_initMessageQueue (hinv : PortInv x) {p capacity : ℕ}
    (hp : x.mem.history.creating i = some p) : PortInv (initMessageQueue i x p capacity) := by
  obtain ⟨hout, hnone, -⟩ := hinv.creating i p hp
  refine { hinv with
    queue_out := fun q hq ↦ ?_
    creating := fun k q hk ↦ ?_
    creating_unique := fun j k q hj hk ↦ ?_
    mailbox := fun q ↦ ?_ }
  · by_cases hqp : q = p
    · rw [hqp]
      exact hout
    · exact hinv.queue_out q fun h ↦ hq ((Function.update_of_ne hqp _ _).trans h)
  · obtain ⟨hne, hold⟩ := hinv.creating_of_init hp hk
    obtain ⟨hout', hnone', hsem⟩ := hinv.creating k q hold
    exact ⟨hout', (Function.update_of_ne hne _ _).trans hnone', hsem⟩
  · exact hinv.creating_unique j k q (hinv.creating_of_init hp hj).2
      (hinv.creating_of_init hp hk).2
  · have hkept := hinv.mailbox q
    simp only [initMessageQueue, PortHistory.setCreating]
    by_cases hqp : q = p
    · rw [hqp, hnone] at hkept
      obtain ⟨hentered, hleft⟩ := hkept
      rw [hqp, Function.update_self, hentered, hleft]
      exact ⟨rfl, Nat.zero_le _⟩
    · rw [Function.update_of_ne hqp]
      exact hkept

theorem inv_initSemaphore (hinv : PortInv x) {p count : ℕ}
    (hp : x.mem.history.creating i = some p) : PortInv (initSemaphore i x p count) := by
  obtain ⟨hout, -, hnone⟩ := hinv.creating i p hp
  refine { hinv with
    semaphore_out := fun q hq ↦ ?_
    creating := fun k q hk ↦ ?_
    creating_unique := fun j k q hj hk ↦ ?_
    semaphore := fun q ↦ ?_ }
  · by_cases hqp : q = p
    · rw [hqp]
      exact hout
    · exact hinv.semaphore_out q fun h ↦ hq ((Function.update_of_ne hqp _ _).trans h)
  · obtain ⟨hne, hold⟩ := hinv.creating_of_init hp hk
    obtain ⟨hout', hqueue, hnone'⟩ := hinv.creating k q hold
    exact ⟨hout', hqueue, (Function.update_of_ne hne _ _).trans hnone'⟩
  · exact hinv.creating_unique j k q (hinv.creating_of_init hp hj).2
      (hinv.creating_of_init hp hk).2
  · have hkept := hinv.semaphore q
    simp only [initSemaphore, PortHistory.setCreating, PortHistory.setPermits]
    by_cases hqp : q = p
    · rw [hqp, hnone] at hkept
      obtain ⟨hgiven, htaken⟩ := hkept
      rw [hqp, Function.update_self, Function.update_self, hgiven, htaken]
      exact Nat.add_comm count 0
    · rw [Function.update_of_ne hqp, Function.update_of_ne hqp]
      exact hkept

/-! ### The clock -/

theorem TimedWait.Going.reads {w : TimedWait} {boot now : ℕ} (h : w.Going boot now)
    (hboot : boot ≤ now) : (w.read now).Going boot now := by
  refine ⟨fun hnone ↦ ?_, fun start hstart ↦ ?_, h.patient⟩
  · cases hw : w.started with
    | none => exact h.unread hw
    | some start =>
      simp only [TimedWait.read, hw, Option.orElse_some] at hnone
      cases hnone
  · cases hw : w.started with
    | none =>
      simp only [TimedWait.read, hw, Option.orElse_none, Option.some.injEq] at hstart
      subst hstart
      refine ⟨hboot, Nat.le_refl _, Nat.le_refl _, ?_⟩
      rw [TimedWait.read, h.unread hw, Nat.zero_mul]
      exact Nat.le_refl _
    | some first =>
      simp only [TimedWait.read, hw, Option.orElse_some, Option.some.injEq] at hstart
      subst hstart
      obtain ⟨hfirst, hlast, hnow, hsleeps⟩ := h.read first hw
      exact ⟨hfirst, Nat.le_trans hlast hnow, Nat.le_refl _, hsleeps⟩

/-- A wait whose last reading of the clock was within its timeout sleeps once more. -/
structure TimedWait.MaySleep (w : TimedWait) (start : ℕ) : Prop where
  started : w.started = some start
  slept : start + w.sleeps * sleepTicks ≤ w.last
  within : (w.last - start) * 1000 < w.timeout.toNat * osTimerClockSpeed

theorem TimedWait.Going.slept {w : TimedWait} {boot now start : ℕ} (h : w.Going boot now)
    (hsleep : w.MaySleep start) (hwake : start + (w.sleeps + 1) * sleepTicks ≤ now) :
    w.slept.Going boot now := by
  refine ⟨fun hnone ↦ ?_, fun first hfirst ↦ ?_, .inr ?_⟩
  · cases hsleep.started.symm.trans hnone
  · obtain rfl := Option.some.inj (hsleep.started.symm.trans hfirst)
    obtain ⟨hstart, hlast, hnow, -⟩ := h.read start hsleep.started
    exact ⟨hstart, hlast, hnow, hwake⟩
  · have hle : w.sleeps * sleepTicks ≤ w.last - start := Nat.le_sub_of_add_le' hsleep.slept
    calc (w.slept.sleeps - 1) * sleepTicks * 1000 = w.sleeps * sleepTicks * 1000 := rfl
      _ ≤ (w.last - start) * 1000 := Nat.mul_le_mul_right 1000 hle
      _ < w.timeout.toNat * osTimerClockSpeed := hsleep.within

/-- The timing of one wait changes. -/
theorem PortInv.setTiming (hinv : PortInv x) {timing : Option TimedWait}
    (h : ∀ w, timing = some w → w.Going x.world.boot x.world.now) :
    PortInv (withHistory x (x.mem.history.setTiming i timing)) := by
  refine { hinv with going := fun k w hk ↦ ?_ }
  change Function.update x.mem.history.timing i timing k = some w at hk
  by_cases hki : k = i
  · rw [hki, Function.update_self] at hk
    exact h w hk
  · rw [Function.update_of_ne hki] at hk
    exact hinv.going k w hk

theorem inv_readClock (hinv : PortInv x) : PortInv (readClock i x) := by
  refine hinv.setTiming fun w hw ↦ ?_
  obtain ⟨before, hbefore, rfl⟩ := Option.map_eq_some_iff.mp hw
  exact (hinv.going i before hbefore).reads hinv.boot_le

theorem inv_awake (hinv : PortInv x) {w : TimedWait} {start : ℕ}
    (hw : x.mem.history.timing i = some w) (hsleep : w.MaySleep start)
    (hwake : start + (w.sleeps + 1) * sleepTicks ≤ x.world.now) : PortInv (awake i x) := by
  refine hinv.setTiming fun v hv ↦ ?_
  rw [hw] at hv
  obtain rfl := Option.some.inj hv
  exact (hinv.going i w hw).slept hsleep hwake

end Answers

/-! ## What a thread has to report -/

section Reports

variable {i : ι} {x : PortMachine ι} {work : Work}

theorem atMailbox_append (p : ℕ) (events : List (ℕ × ℕ)) (q msg : ℕ) :
    atMailbox p (events ++ [(q, msg)]) = atMailbox p events ++ if p = q then [msg] else [] := by
  rw [← atMailbox_single, atMailbox, List.filter_append, List.map_append]
  rfl

/-- A list that is extended at one object. -/
theorem update_append_apply {α : Type} (f : ℕ → List (ι × α)) (q : ℕ) (msg : α) (p : ℕ) :
    byThread i (Function.update f q (f q ++ [(i, msg)]) p) =
      byThread i (f p) ++ if p = q then [msg] else [] := by
  by_cases hpq : p = q
  · rw [hpq, Function.update_self, byThread_append_self, if_pos rfl]
  · rw [Function.update_of_ne hpq, if_neg hpq, List.append_nil]

theorem update_count_apply (f : ℕ → List ι) (q p : ℕ) :
    (Function.update f q (f q ++ [i]) p).count i = (f p).count i + if p = q then 1 else 0 := by
  by_cases hpq : p = q
  · rw [hpq, Function.update_self, count_append_self, if_pos rfl]
  · rw [Function.update_of_ne hpq, if_neg hpq]
    rfl

theorem count_append_single (p q : ℕ) (sems : List ℕ) :
    (sems ++ [q]).count p = sems.count p + if p = q then 1 else 0 := by
  rw [List.count_append, List.count_singleton]
  by_cases hpq : p = q
  · simp [hpq]
  · simp [hpq, Ne.symm hpq]

theorem holding_sendMessage (h : Holding i work x) (queue : ℕ) (box : OSMessageQueue)
    (m : OSMessage) :
    Holding i { work with entered := work.entered ++ [(queue, m.message)] }
      (sendMessage i x queue box m) := by
  refine { h with entered := fun p ↦ ?_ }
  refine (update_append_apply _ _ _ p).trans ?_
  rw [atMailbox_append, ← List.append_assoc]
  exact congrArg (· ++ _) (h.entered p)

theorem holding_receiveMessage (h : Holding i work x) (queue : ℕ) (box : OSMessageQueue)
    (m : OSMessage) (rest : List OSMessage) :
    Holding i { work with left := work.left ++ [(queue, m.message)] }
      (receiveMessage i x queue box m rest) := by
  refine { h with left := fun p ↦ ?_ }
  refine (update_append_apply _ _ _ p).trans ?_
  rw [atMailbox_append, ← List.append_assoc]
  exact congrArg (· ++ _) (h.left p)

theorem holding_signal (h : Holding i work x) (sem count : ℕ) :
    Holding i { work with given := work.given ++ [sem] } (signal i x sem count) := by
  refine { h with given := fun p ↦ ?_ }
  refine (update_count_apply _ _ p).trans ?_
  rw [count_append_single, ← Nat.add_assoc]
  exact congrArg (· + _) (h.given p)

theorem holding_takePermit (h : Holding i work x) (sem count : ℕ) :
    Holding i { work with taken := work.taken ++ [sem] } (takePermit i x sem count) := by
  refine { h with taken := fun p ↦ ?_ }
  refine (update_count_apply _ _ p).trans ?_
  rw [count_append_single, ← Nat.add_assoc]
  exact congrArg (· + _) (h.taken p)

theorem holding_setTiming (h : Holding i work x) (timing : Option TimedWait) :
    Holding i { work with timing := timing }
      (withHistory x (x.mem.history.setTiming i timing)) :=
  { h with timing := Function.update_self _ _ _ }

theorem holding_readClock {w : TimedWait} (h : Holding i { work with timing := some w } x) :
    Holding i { work with timing := some (w.read x.world.now) } (readClock i x) := by
  have htiming : x.mem.history.timing i = some w := h.timing
  rw [readClock, htiming]
  exact holding_setTiming h _

theorem holding_awake {w : TimedWait} (h : Holding i { work with timing := some w } x) :
    Holding i { work with timing := some w.slept } (awake i x) := by
  have htiming : x.mem.history.timing i = some w := h.timing
  rw [awake, htiming]
  exact holding_setTiming h _

/-- A block for an object is what its thread creates. -/
theorem holding_allocate {block : Block}
    (hblock : block = .semaphore ∨ block = .mutex ∨ ∃ size, block = .mailbox size)
    {p : ℕ} {y : PortMachine ι} (hp : p ≠ 0) (h : Holding i work x)
    (hy : allocate i x block p = some y) : Holding i { work with creating := some p } y := by
  unfold allocate at hy
  rw [if_neg hp] at hy
  obtain ⟨heap, -, rfl⟩ := Option.map_eq_some_iff.mp hy
  rcases hblock with rfl | rfl | ⟨size, rfl⟩
  all_goals exact { h with creating := Function.update_self _ _ _ }

theorem holding_initMessageQueue (h : Holding i work x) (p capacity : ℕ) :
    Holding i { work with creating := none } (initMessageQueue i x p capacity) :=
  { h with creating := Function.update_self _ _ _ }

theorem holding_initSemaphore (h : Holding i work x) (p count : ℕ) :
    Holding i { work with creating := none } (initSemaphore i x p count) :=
  { h with creating := Function.update_self _ _ _ }

end Reports

end Ax88179Aroma.Port
