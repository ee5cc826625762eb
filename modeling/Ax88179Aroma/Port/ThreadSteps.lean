import Ax88179Aroma.Port.Threads

/-!
# The steps of the threads

What one step does to the blocks, to the created threads and to what was recorded about them.  Each
step of a thread keeps `ThreadInv` and what the other threads rely on.
-/

namespace Ax88179Aroma.Port

open Effect Program

variable {ι : Type}

/-! ## Blocks -/

section Blocks

variable {x : ThreadMachine ι} {threads : List OSThread} {block : ℕ → ℕ × ℕ} {w : ThreadLog ι}
  {p : ℕ} {role : Option (Role ι)}

/-- Roles that say nothing about created threads. -/
def Loose (role : Option (Role ι)) : Prop := role ≠ some .waiting ∧ role ≠ some .kept

theorem QueueKept.setRole (h : QueueKept threads block w) (hold : Loose (w.role p))
    (hnew : Loose role) : QueueKept threads block (w.setRole p role) := by
  refine { h with starts := fun q ↦ ?_ }
  by_cases hq : q = p
  · subst hq
    have hleft : Function.update w.role q role q ≠ some .waiting := by
      rw [Function.update_self]
      exact hnew.1
    exact iff_of_false hleft fun hentry ↦ hold.1 ((h.starts q).mpr hentry)
  · change Function.update w.role p role q = some .waiting ↔ _
    rw [Function.update_of_ne hq]
    exact h.starts q

theorem LivesKept.setRole (h : LivesKept w) (hold : Loose (w.role p)) (hnew : Loose role) :
    LivesKept (w.setRole p role) := by
  refine { h with kept := fun t ht ↦ ?_, keptOf := fun q hq ↦ ?_ }
  · have hne : t ≠ p := by
      rintro rfl
      exact hold.2 (h.kept t ht)
    exact (Function.update_of_ne hne _ _).trans (h.kept t ht)
  · change Function.update w.role p role q = some .kept at hq
    have hne : q ≠ p := by
      rintro rfl
      rw [Function.update_self] at hq
      exact hnew.2 hq
    rw [Function.update_of_ne hne] at hq
    exact h.keptOf q hq

theorem HeapKept.acquire {heap heap' : Ledger ℕ} {roles : ℕ → Option (Role ι)}
    (h : HeapKept heap roles) (hheap : heap.acquire p = some heap') (hrole : role ≠ none) :
    HeapKept heap' (Function.update roles p role) where
  coherent := h.coherent.acquire hheap
  out q := by
    rw [Ledger.isOut_acquire_iff h.coherent hheap]
    by_cases hq : q = p
    · rw [hq, Function.update_self]
      exact iff_of_true (.inl rfl) hrole
    · rw [Function.update_of_ne hq, ← h.out q]
      exact or_iff_right hq

theorem HeapKept.release {heap : Ledger ℕ} {roles : ℕ → Option (Role ι)} (h : HeapKept heap roles) :
    HeapKept (heap.release p) (Function.update roles p none) where
  coherent := h.coherent.release
  out q := by
    rw [Ledger.isOut_release_iff h.coherent]
    by_cases hq : q = p
    · rw [hq, Function.update_self]
      exact iff_of_false (fun hne ↦ hne.1 rfl) fun hne ↦ hne rfl
    · rw [Function.update_of_ne hq, ← h.out q]
      exact and_iff_right hq

theorem HeapKept.role_none {heap heap' : Ledger ℕ} {roles : ℕ → Option (Role ι)}
    (h : HeapKept heap roles) (hheap : heap.acquire p = some heap') : roles p = none := by
  by_contra hne
  exact Bool.false_ne_true ((Ledger.acquire_eq hheap).1.symm.trans ((h.out p).mpr hne))

/-- The machine after a block changed hands on the heap. -/
def moveBlock (x : ThreadMachine ι) (p : ℕ) (role : Option (Role ι)) (heap : Ledger ℕ) :
    ThreadMachine ι :=
  { x with world := {
    port := { x.world.port with heap := heap }
    log := x.world.log.setRole p role } }

theorem ThreadInv.moveBlock (h : ThreadInv x) {heap : Ledger ℕ} (hold : Loose (x.world.log.role p))
    (hnew : Loose role) (hheap : HeapKept heap (Function.update x.world.log.role p role)) :
    ThreadInv (moveBlock x p role heap) where
  coherent := hheap.coherent
  out := hheap.out
  toLivesKept := h.toLivesKept.setRole hold hnew
  queue := h.queue.setRole hold hnew

/-- Two machines that differ at most in the semaphores, the mailboxes and the mutexes. -/
structure SameThreads (x y : ThreadMachine ι) : Prop where
  heap : y.world.port.heap = x.world.port.heap
  threads : y.world.port.threads = x.world.port.threads
  startBlock : y.mem.startBlock = x.mem.startBlock
  log : y.world.log = x.world.log

theorem ThreadInv.same {y : ThreadMachine ι} (h : ThreadInv x) (hsame : SameThreads x y) :
    ThreadInv y := by
  obtain ⟨hkept, hlives, hqueue⟩ := h
  rw [← hsame.heap, ← hsame.log] at hkept
  rw [← hsame.log] at hlives
  rw [← hsame.threads, ← hsame.startBlock, ← hsame.log] at hqueue
  exact ⟨hkept, hlives, hqueue⟩

theorem ThreadRely.same {j : ι} {y z : ThreadMachine ι} (h : ThreadRely j x y)
    (hsame : SameThreads y z) : ThreadRely j x z where
  held := hsame.log ▸ h.held
  content := hsame.startBlock ▸ h.content
  making := hsame.log ▸ h.making
  current := hsame.log ▸ h.current
  created := hsame.log ▸ h.created
  ready := hsame.threads ▸ h.ready

/-- A block changes hands away from the others. -/
theorem rely_moveBlock {j : ι} {heap : Ledger ℕ} (hold : x.world.log.role p ≠ some (.held j))
    (hnew : role ≠ some (.held j)) : ThreadRely j x (moveBlock x p role heap) where
  held q := by
    by_cases hq : q = p
    · subst hq
      refine iff_of_false ?_ hold
      change Function.update x.world.log.role q role q ≠ _
      rw [Function.update_self]
      exact hnew
    · change Function.update x.world.log.role p role q = _ ↔ _
      rw [Function.update_of_ne hq]
  content _ _ := rfl
  making _ := Iff.rfl
  current := rfl
  created _ _ h := h
  ready _ _ h := h

end Blocks

/-! ## Created threads -/

section Created

variable {x : ThreadMachine ι} {i j : ι} {p q t stack start : ℕ} {entry : OSThread}

theorem ThreadInv.fresh (h : ThreadInv x) (ht : x.world.log.role t = some (.held i)) :
    x.world.log.stage t = .absent := by
  by_contra hstage
  cases ht.symm.trans (h.kept t hstage)

theorem ThreadInv.not_start (h : ThreadInv x) (hp : x.world.log.role p = some (.held i)) :
    p ∉ x.world.port.threads.map OSThread.start := by
  intro hmem
  obtain ⟨entry, hentry, rfl⟩ := List.mem_map.mp hmem
  cases hp.symm.trans ((h.queue.starts entry.start).mpr ⟨entry, hentry, rfl⟩)

theorem ThreadInv.stage_of_mem (h : ThreadInv x) (hentry : entry ∈ x.world.port.threads) :
    x.world.log.stage entry.thread = .waiting :=
  (h.queue.waiting entry.thread).mpr ⟨entry, hentry, rfl⟩

theorem ThreadInv.ne_of_mem (h : ThreadInv x) (hentry : entry ∈ x.world.port.threads)
    (ht : x.world.log.stage t ≠ .waiting) : entry.thread ≠ t := by
  rintro rfl
  exact ht (h.stage_of_mem hentry)

theorem ThreadInv.eq_of_thread (h : ThreadInv x) {other : OSThread}
    (hentry : entry ∈ x.world.port.threads) (hother : other ∈ x.world.port.threads)
    (hsame : other.thread = entry.thread) : other = entry :=
  List.inj_on_of_nodup_map h.queue.namesNodup hother hentry hsame

theorem ThreadInv.eq_of_start (h : ThreadInv x) {other : OSThread}
    (hentry : entry ∈ x.world.port.threads) (hother : other ∈ x.world.port.threads)
    (hsame : other.start = entry.start) : other = entry :=
  List.inj_on_of_nodup_map h.queue.startsNodup hother hentry hsame

/-! ### Filling a start block -/

def written (x : ThreadMachine ι) (p : ℕ) (task : ℕ × ℕ) : ThreadMachine ι :=
  { x with mem := { x.mem with startBlock := Function.update x.mem.startBlock p task } }

theorem ThreadInv.write (h : ThreadInv x) (hp : x.world.log.role p = some (.held i))
    (task : ℕ × ℕ) : ThreadInv (Port.written x p task) := by
  refine { h with queue := { h.queue with content := fun entry hentry ↦ ?_ } }
  have hne : entry.start ≠ p := fun hsame ↦
    h.not_start hp (List.mem_map.mpr ⟨entry, hentry, hsame⟩)
  have hsame : (Port.written x p task).mem.startBlock entry.start = x.mem.startBlock entry.start :=
    Function.update_of_ne hne _ _
  rw [hsame]
  exact h.queue.content entry hentry

theorem rely_written (hp : x.world.log.role p = some (.held i)) (hj : j ≠ i) (task : ℕ × ℕ) :
    ThreadRely j x (written x p task) := by
  refine { threadRely_refl j x with content := fun q hq ↦ Function.update_of_ne ?_ _ _ }
  rintro rfl
  cases hp.symm.trans hq
  exact hj rfl

/-! ### Creating -/

/-- The machine after thread `i` has created `t`. -/
def launched (x : ThreadMachine ι) (i : ι) (t stack start : ℕ) : ThreadMachine ι :=
  { x with world := {
    port := { x.world.port with
      threads := x.world.port.threads ++ [{ thread := t, start := start }] }
    log := x.world.log.create i t stack start (x.mem.startBlock start) } }

/-- Three blocks of thread `i`. -/
structure Blocks (x : ThreadMachine ι) (i : ι) (t stack start : ℕ) : Prop where
  thread_held : x.world.log.role t = some (.held i)
  stack_held : x.world.log.role stack = some (.held i)
  start_held : x.world.log.role start = some (.held i)
  thread_ne : t ≠ start
  stack_ne : stack ≠ start
  nonnull : start ≠ 0

theorem launched_role (q : ℕ) : (launched x i t stack start).world.log.role q =
    if q = start then some .waiting else if q = stack ∨ q = t then some .kept
    else x.world.log.role q := by
  change Function.update _ _ _ q = _
  split
  · rename_i h
    rw [h, Function.update_self]
  · rename_i hstart
    rw [Function.update_of_ne hstart]
    split
    · rename_i h
      rcases h with rfl | rfl
      · rw [Function.update_self]
      · by_cases hstack : q = stack
        · rw [hstack, Function.update_self]
        · rw [Function.update_of_ne hstack, Function.update_self]
    · rename_i h
      rw [Function.update_of_ne fun hq ↦ h (.inl hq), Function.update_of_ne fun hq ↦ h (.inr hq)]

/-- Every other block keeps its role. -/
theorem Blocks.role_launched (hblocks : Blocks x i t stack start)
    (hq : x.world.log.role q ≠ some (.held i)) :
    (launched x i t stack start).world.log.role q = x.world.log.role q := by
  have hne : ∀ {p}, x.world.log.role p = some (.held i) → q ≠ p := by
    rintro p hp rfl
    exact hq hp
  rw [launched_role, if_neg (hne hblocks.start_held), if_neg]
  exact not_or.mpr ⟨hne hblocks.stack_held, hne hblocks.thread_held⟩

theorem ThreadInv.launchedHeap (h : ThreadInv x) (hblocks : Blocks x i t stack start) :
    HeapKept x.world.port.heap (launched x i t stack start).world.log.role where
  coherent := h.coherent
  out q := by
    rw [h.out q, launched_role]
    split
    · rename_i hq
      rw [hq, hblocks.start_held]
      exact iff_of_true nofun nofun
    · split
      · rename_i hq
        rcases hq with rfl | rfl
        · rw [hblocks.stack_held]
          exact iff_of_true nofun nofun
        · rw [hblocks.thread_held]
          exact iff_of_true nofun nofun
      · rfl

theorem mem_append_one {threads : List OSThread} {new : OSThread} {property : OSThread → Prop} :
    (∃ entry ∈ threads ++ [new], property entry) ↔
      (∃ entry ∈ threads, property entry) ∨ property new := by
  simp only [List.mem_append, List.mem_singleton, or_and_right, exists_or, exists_eq_left]

theorem ThreadInv.launchedQueue (h : ThreadInv x) (hblocks : Blocks x i t stack start) :
    QueueKept (launched x i t stack start).world.port.threads x.mem.startBlock
      (launched x i t stack start).world.log := by
  have hfresh := h.fresh hblocks.thread_held
  have hwaiting : x.world.log.stage t ≠ .waiting := by
    rw [hfresh]
    exact nofun
  have hother : ∀ entry ∈ x.world.port.threads, entry.thread ≠ t := fun entry hentry ↦
    h.ne_of_mem hentry hwaiting
  refine ⟨fun q ↦ ?_, ?_, fun u ↦ ?_, ?_, fun entry hentry ↦ ?_, fun entry hentry ↦ ?_,
    fun entry hentry ↦ ?_⟩
  · rw [launched_role]
    refine Iff.trans ?_ mem_append_one.symm
    split
    · rename_i hq
      exact iff_of_true rfl (.inr hq.symm)
    · rename_i hq
      refine Iff.trans ?_ (or_iff_left fun hstart ↦ hq hstart.symm).symm
      split
      · rename_i hkept
        refine iff_of_false nofun fun hentry ↦ ?_
        have hrole := (h.queue.starts q).mpr hentry
        rcases hkept with rfl | rfl
        · cases hblocks.stack_held.symm.trans hrole
        · cases hblocks.thread_held.symm.trans hrole
      · exact h.queue.starts q
  · change (List.map _ (_ ++ _)).Nodup
    rw [List.map_append, List.nodup_append]
    refine ⟨h.queue.startsNodup, List.nodup_singleton _, fun p hp q hq ↦ ?_⟩
    rw [List.mem_singleton.mp hq]
    rintro rfl
    exact h.not_start hblocks.start_held hp
  · refine Iff.trans ?_ mem_append_one.symm
    by_cases hu : u = t
    · rw [hu]
      exact iff_of_true (Function.update_self _ _ _) (.inr rfl)
    · refine Iff.trans ?_ (or_iff_left fun ht ↦ hu ht.symm).symm
      rw [← h.queue.waiting u]
      exact iff_of_eq (congrArg (· = _) (Function.update_of_ne hu _ x.world.log.stage))
  · change (List.map _ (_ ++ _)).Nodup
    rw [List.map_append, List.nodup_append]
    refine ⟨h.queue.namesNodup, List.nodup_singleton _, fun u hu v hv ↦ ?_⟩
    rw [List.mem_singleton.mp hv]
    obtain ⟨entry, hentry, rfl⟩ := List.mem_map.mp hu
    exact hother entry hentry
  · rcases List.mem_append.mp hentry with hold | hnew
    · exact (Function.update_of_ne (hother entry hold) _ _).trans (h.queue.content entry hold)
    · rw [List.mem_singleton.mp hnew]
      exact Function.update_self _ _ _
  · rcases List.mem_append.mp hentry with hold | hnew
    · refine (h.queue.resumed entry hold).imp_right fun ⟨k, hk⟩ ↦ ⟨k, ?_⟩
      exact (Function.update_of_ne (hother entry hold) _ _).trans hk
    · rw [List.mem_singleton.mp hnew]
      exact .inr ⟨i, Function.update_self _ _ _⟩
  · rcases List.mem_append.mp hentry with hold | hnew
    · exact h.queue.nonnull entry hold
    · rw [List.mem_singleton.mp hnew]
      exact hblocks.nonnull

theorem ThreadInv.launchedLives (h : ThreadInv x) (hblocks : Blocks x i t stack start) :
    LivesKept (launched x i t stack start).world.log := by
  have hfresh := h.fresh hblocks.thread_held
  have hstage : ∀ u, u ≠ t → (launched x i t stack start).world.log.stage u =
      x.world.log.stage u :=
    fun u hu ↦ Function.update_of_ne hu _ _
  have hreport : ∀ u, u ≠ t → (launched x i t stack start).world.log.report u =
      x.world.log.report u :=
    fun u hu ↦ Function.update_of_ne hu _ _
  have hcreated : ∀ u, u ≠ t → (launched x i t stack start).world.log.created u =
      x.world.log.created u :=
    fun u hu ↦ Function.update_of_ne hu _ _
  have hstageT : (launched x i t stack start).world.log.stage t = .waiting :=
    Function.update_self _ _ _
  have hpresent : (launched x i t stack start).world.log.stage t ≠ .absent := by
    rw [hstageT]
    exact nofun
  have hreportT : (launched x i t stack start).world.log.report t = .making i :=
    Function.update_self _ _ _
  have hran : t ∉ x.world.log.ran.map Prod.fst := fun hmem ↦ by
    cases hfresh.symm.trans ((h.ran t).mpr hmem)
  have hgranted : t ∉ x.world.log.granted.map Prod.fst := fun hmem ↦ by
    cases ((h.report t).mpr hfresh).symm.trans ((h.granted t).mpr hmem)
  refine ⟨fun u hu ↦ ?_, fun q hq ↦ ?_, fun u ↦ ?_, fun u ↦ ?_, fun k u ↦ ?_, fun u ↦ ?_,
    fun record hrecord ↦ ?_, h.ranNodup, fun u ↦ ?_, fun record hrecord ↦ ?_, h.grantedNodup⟩
  · by_cases hsame : u = t
    · rw [launched_role, hsame, if_neg hblocks.thread_ne, if_pos (.inr rfl)]
    · rw [hstage u hsame] at hu
      have hkept := h.kept u hu
      rw [hblocks.role_launched fun hheld ↦ by cases hkept.symm.trans hheld]
      exact hkept
  · rw [launched_role] at hq
    split at hq
    · cases hq
    · split at hq
      · rename_i hkept
        refine ⟨t, hpresent, ?_⟩
        rcases hkept with rfl | rfl
        · exact .inr (Function.update_self t q x.world.log.stackOf).symm
        · exact .inl rfl
      · obtain ⟨u, hu, hblock⟩ := h.keptOf q hq
        have hne : u ≠ t := fun hsame ↦ hu (hsame ▸ hfresh)
        refine ⟨u, (hstage u hne).trans_ne hu, hblock.imp_right fun hstack ↦ hstack.trans ?_⟩
        exact (Function.update_of_ne hne _ _).symm
  · by_cases hsame : u = t
    · subst hsame
      refine iff_of_false (fun hnone ↦ ?_) hpresent
      cases (Function.update_self u _ x.world.log.created).symm.trans hnone
    · rw [hcreated u hsame, hstage u hsame]
      exact h.created u
  · by_cases hsame : u = t
    · subst hsame
      exact iff_of_false (fun hnone ↦ by cases hreportT.symm.trans hnone) hpresent
    · rw [hreport u hsame, hstage u hsame]
      exact h.report u
  · by_cases hsame : u = t
    · subst hsame
      refine iff_of_false (fun hcurrent ↦ ?_) fun hentering ↦ by
        cases hstageT.symm.trans hentering
      cases hfresh.symm.trans ((h.current k u).mp hcurrent)
    · rw [hstage u hsame]
      exact h.current k u
  · by_cases hsame : u = t
    · subst hsame
      exact iff_of_false (fun hstage ↦ by cases hstageT.symm.trans hstage) hran
    · rw [hstage u hsame]
      exact h.ran u
  · have hne : record.1 ≠ t := fun hsame ↦ hran (hsame ▸ List.mem_map_of_mem hrecord)
    exact (hcreated _ hne).trans (h.ranOf record hrecord)
  · by_cases hsame : u = t
    · subst hsame
      exact iff_of_false (fun hreport ↦ by cases hreportT.symm.trans hreport) hgranted
    · rw [hreport u hsame]
      exact h.granted u
  · have hne : record.1 ≠ t := fun hsame ↦ hgranted (hsame ▸ List.mem_map_of_mem hrecord)
    exact (hcreated _ hne).trans (h.grantedOf record hrecord)

theorem ThreadInv.launched (h : ThreadInv x) (hblocks : Blocks x i t stack start) :
    ThreadInv (launched x i t stack start) where
  toHeapKept := h.launchedHeap hblocks
  toLivesKept := h.launchedLives hblocks
  queue := h.launchedQueue hblocks

theorem rely_launched (h : ThreadInv x) (hblocks : Blocks x i t stack start) (hj : j ≠ i) :
    ThreadRely j x (launched x i t stack start) := by
  have hfresh := h.fresh hblocks.thread_held
  refine ⟨fun q ↦ ?_, fun _ _ ↦ rfl, fun u ↦ ?_, rfl, fun u task hu ↦ ?_, fun u hu hready ↦ ?_⟩
  · by_cases hq : x.world.log.role q = some (.held i)
    · refine iff_of_false ?_ ?_
      · rw [launched_role]
        split
        · exact nofun
        · split
          · exact nofun
          · rw [hq]
            exact fun hsame ↦ hj (Role.held.inj (Option.some.inj hsame)).symm
      · rw [hq]
        exact fun hsame ↦ hj (Role.held.inj (Option.some.inj hsame)).symm
    · rw [hblocks.role_launched hq]
  · by_cases hsame : u = t
    · subst hsame
      refine iff_of_false (fun hmaking ↦ ?_) fun hmaking ↦ ?_
      · cases (Function.update_self u _ x.world.log.report).symm.trans hmaking
        exact hj rfl
      · cases ((h.report u).mpr hfresh).symm.trans hmaking
    · exact iff_of_eq (congrArg (· = _) (Function.update_of_ne hsame _ x.world.log.report))
  · have hne : u ≠ t := by
      rintro rfl
      cases ((h.created u).mpr hfresh).symm.trans hu
    exact (Function.update_of_ne hne _ _).trans hu
  · intro entry hentry hthread
    rcases List.mem_append.mp hentry with hold | hnew
    · exact hready entry hold hthread
    · rw [List.mem_singleton.mp hnew] at hthread
      cases hthread
      cases ((h.report t).mpr hfresh).symm.trans hu

/-! ### Resuming -/

def resumed (x : ThreadMachine ι) (t : ℕ) : ThreadMachine ι :=
  { x with world := { x.world with
      port := { x.world.port with
        threads := x.world.port.threads.map fun entry ↦
          if entry.thread = t then { entry with resumed := true } else entry } } }

/-- An entry after `OSResumeThread`. -/
theorem mem_resumed (hentry : entry ∈ (resumed x t).world.port.threads) :
    ∃ old ∈ x.world.port.threads, entry.thread = old.thread ∧ entry.start = old.start ∧
      (old.resumed = true ∨ entry.thread = t → entry.resumed = true) := by
  obtain ⟨old, hold, rfl⟩ := List.mem_map.mp hentry
  refine ⟨old, hold, ?_⟩
  split
  · exact ⟨rfl, rfl, fun _ ↦ rfl⟩
  · rename_i hne
    exact ⟨rfl, rfl, fun h ↦ h.resolve_right hne⟩

theorem map_resumed {view : OSThread → ℕ}
    (hview : ∀ entry : OSThread, view { entry with resumed := true } = view entry) :
    (resumed x t).world.port.threads.map view = x.world.port.threads.map view := by
  change List.map view (List.map _ _) = _
  rw [List.map_map]
  refine List.map_congr_left fun entry _ ↦ ?_
  simp only [Function.comp_apply]
  split
  · exact hview entry
  · rfl

/-- A property of a view of the entries. -/
theorem exists_iff_mem_map {threads : List OSThread} {view : OSThread → ℕ} :
    (∃ entry ∈ threads, view entry = p) ↔ p ∈ threads.map view :=
  List.mem_map.symm

theorem ThreadInv.resume (h : ThreadInv x) : ThreadInv (resumed x t) := by
  have hstarts : (resumed x t).world.port.threads.map OSThread.start =
      x.world.port.threads.map OSThread.start := map_resumed fun _ ↦ rfl
  have hnames : (resumed x t).world.port.threads.map OSThread.thread =
      x.world.port.threads.map OSThread.thread := map_resumed fun _ ↦ rfl
  refine { h with queue := ⟨fun q ↦ ?_, ?_, fun u ↦ ?_, ?_, fun entry hentry ↦ ?_,
    fun entry hentry ↦ ?_, fun entry hentry ↦ ?_⟩ }
  · rw [exists_iff_mem_map, hstarts, ← exists_iff_mem_map]
    exact h.queue.starts q
  · rw [hstarts]
    exact h.queue.startsNodup
  · rw [exists_iff_mem_map, hnames, ← exists_iff_mem_map]
    exact h.queue.waiting u
  · rw [hnames]
    exact h.queue.namesNodup
  · obtain ⟨old, hold, hthread, hstart, -⟩ := mem_resumed hentry
    rw [hthread, hstart]
    exact h.queue.content old hold
  · obtain ⟨old, hold, hthread, -, hresumed⟩ := mem_resumed hentry
    rw [hthread]
    exact (h.queue.resumed old hold).imp_left fun hready ↦ hresumed (.inl hready)
  · obtain ⟨old, hold, -, hstart, -⟩ := mem_resumed hentry
    rw [hstart]
    exact h.queue.nonnull old hold

theorem ready_resumed (u : ℕ) (hready : Ready u x.world.port.threads) :
    Ready u (resumed x t).world.port.threads := by
  intro entry hentry hthread
  obtain ⟨old, hold, hsame, -, hresumed⟩ := mem_resumed hentry
  exact hresumed (.inl (hready old hold (hsame.symm.trans hthread)))

theorem rely_resumed : ThreadRely j x (resumed x t) :=
  { threadRely_refl j x with ready := fun u _ ↦ ready_resumed u }

/-! ### Entering -/

/-- The machine after the operating system dispatched a created thread as thread `i`. -/
def entered [DecidableEq ι] (x : ThreadMachine ι) (i : ι) (entry : OSThread) : ThreadMachine ι :=
  { x with world := {
    port := { x.world.port with threads := x.world.port.threads.erase entry }
    log := x.world.log.dispatch i entry } }

section Entered

variable [DecidableEq ι]

omit [DecidableEq ι] in
theorem ThreadInv.mem_erase (h : ThreadInv x) {other : OSThread} :
    other ∈ x.world.port.threads.erase entry ↔ other ≠ entry ∧ other ∈ x.world.port.threads :=
  (List.Nodup.of_map _ h.queue.namesNodup).mem_erase_iff

theorem ThreadInv.enteredQueue (h : ThreadInv x) (hentry : entry ∈ x.world.port.threads) :
    QueueKept (entered x i entry).world.port.threads x.mem.startBlock
      (entered x i entry).world.log := by
  have hsub : (x.world.port.threads.erase entry).Sublist x.world.port.threads :=
    List.erase_sublist
  refine ⟨fun q ↦ ?_, h.queue.startsNodup.sublist (hsub.map _), fun u ↦ ?_,
    h.queue.namesNodup.sublist (hsub.map _), fun other hother ↦ ?_, fun other hother ↦ ?_,
    fun other hother ↦ ?_⟩
  · by_cases hq : q = entry.start
    · rw [hq]
      refine iff_of_false (fun hrole ↦ ?_) ?_
      · cases (Function.update_self entry.start _ x.world.log.role).symm.trans hrole
      · rintro ⟨other, hother, hsame⟩
        obtain ⟨hne, hother⟩ := h.mem_erase.mp hother
        exact hne (h.eq_of_start hentry hother hsame)
    · refine Iff.trans (iff_of_eq (congrArg (· = _) (Function.update_of_ne hq _ x.world.log.role)))
        ((h.queue.starts q).trans ⟨?_, ?_⟩)
      · rintro ⟨other, hother, rfl⟩
        exact ⟨other, h.mem_erase.mpr ⟨fun hsame ↦ hq (hsame ▸ rfl), hother⟩, rfl⟩
      · rintro ⟨other, hother, hsame⟩
        exact ⟨other, hsub.subset hother, hsame⟩
  · by_cases hu : u = entry.thread
    · rw [hu]
      refine iff_of_false (fun hstage ↦ ?_) ?_
      · cases (Function.update_self entry.thread _ x.world.log.stage).symm.trans hstage
      · rintro ⟨other, hother, hsame⟩
        obtain ⟨hne, hother⟩ := h.mem_erase.mp hother
        exact hne (h.eq_of_thread hentry hother hsame)
    · refine Iff.trans (iff_of_eq (congrArg (· = _) (Function.update_of_ne hu _ x.world.log.stage)))
        ((h.queue.waiting u).trans ⟨?_, ?_⟩)
      · rintro ⟨other, hother, rfl⟩
        exact ⟨other, h.mem_erase.mpr ⟨fun hsame ↦ hu (hsame ▸ rfl), hother⟩, rfl⟩
      · rintro ⟨other, hother, hsame⟩
        exact ⟨other, hsub.subset hother, hsame⟩
  · exact h.queue.content other (hsub.subset hother)
  · exact h.queue.resumed other (hsub.subset hother)
  · exact h.queue.nonnull other (hsub.subset hother)

theorem ThreadInv.enteredLives (h : ThreadInv x) (hentry : entry ∈ x.world.port.threads)
    (hcurrent : x.world.log.current i = none) : LivesKept (entered x i entry).world.log := by
  have hwaiting := h.stage_of_mem hentry
  have hstage : ∀ u, u ≠ entry.thread →
      (entered x i entry).world.log.stage u = x.world.log.stage u :=
    fun u hu ↦ Function.update_of_ne hu _ _
  have hstageT : (entered x i entry).world.log.stage entry.thread = .entering i :=
    Function.update_self _ _ _
  have hpresent : ∀ u, (entered x i entry).world.log.stage u = .absent ↔
      x.world.log.stage u = .absent := by
    intro u
    by_cases hu : u = entry.thread
    · rw [hu, hstageT, hwaiting]
      exact iff_of_false nofun nofun
    · rw [hstage u hu]
  have hstart : x.world.log.role entry.start = some .waiting :=
    (h.queue.starts entry.start).mpr ⟨entry, hentry, rfl⟩
  have hkept : ∀ q, (entered x i entry).world.log.role q = some .kept ↔
      x.world.log.role q = some .kept := by
    intro q
    by_cases hq : q = entry.start
    · rw [hq, hstart]
      refine iff_of_false (fun hrole ↦ ?_) nofun
      cases (Function.update_self entry.start _ x.world.log.role).symm.trans hrole
    · exact iff_of_eq (congrArg (· = _) (Function.update_of_ne hq _ x.world.log.role))
  refine { h.toLivesKept with
    kept := fun u hu ↦ (hkept u).mpr (h.kept u fun habsent ↦ hu ((hpresent u).mpr habsent))
    keptOf := fun q hq ↦ ?_
    created := fun u ↦ (h.created u).trans (hpresent u).symm
    report := fun u ↦ (h.report u).trans (hpresent u).symm
    current := fun k u ↦ ?_
    ran := fun u ↦ ?_ }
  · obtain ⟨u, hu, hblock⟩ := h.keptOf q ((hkept q).mp hq)
    exact ⟨u, fun habsent ↦ hu ((hpresent u).mp habsent), hblock⟩
  · change Function.update x.world.log.current i (some entry.thread) k = some u ↔ _
    by_cases hk : k = i
    · rw [hk, Function.update_self]
      by_cases hu : u = entry.thread
      · rw [hu]
        exact iff_of_true rfl hstageT
      · rw [hstage u hu]
        refine iff_of_false (fun hsame ↦ hu (Option.some.inj hsame).symm) fun hentering ↦ ?_
        cases hcurrent.symm.trans ((h.current i u).mpr hentering)
    · rw [Function.update_of_ne hk]
      by_cases hu : u = entry.thread
      · rw [hu, hstageT]
        refine iff_of_false (fun hrunning ↦ ?_) fun hsame ↦ hk (Stage.entering.inj hsame).symm
        cases hwaiting.symm.trans ((h.current k entry.thread).mp hrunning)
      · rw [hstage u hu]
        exact h.current k u
  · by_cases hu : u = entry.thread
    · rw [hu, hstageT]
      refine iff_of_false nofun fun hran ↦ ?_
      cases hwaiting.symm.trans ((h.ran entry.thread).mpr hran)
    · rw [hstage u hu]
      exact h.ran u

theorem ThreadInv.enter (h : ThreadInv x) (hentry : entry ∈ x.world.port.threads)
    (hcurrent : x.world.log.current i = none) : ThreadInv (entered x i entry) where
  toLivesKept := h.enteredLives hentry hcurrent
  queue := h.enteredQueue hentry
  coherent := h.coherent
  out q := by
    refine (h.out q).trans ?_
    by_cases hq : q = entry.start
    · rw [hq, (h.queue.starts entry.start).mpr ⟨entry, hentry, rfl⟩]
      refine iff_of_true nofun fun hnone ↦ ?_
      cases (Function.update_self entry.start _ x.world.log.role).symm.trans hnone
    · exact iff_of_eq (congrArg (· ≠ _) (Function.update_of_ne hq _ x.world.log.role).symm)

theorem rely_entered (h : ThreadInv x) (hentry : entry ∈ x.world.port.threads) (hj : j ≠ i) :
    ThreadRely j x (entered x i entry) := by
  refine { threadRely_refl j x with
    held := fun q ↦ ?_
    current := Function.update_of_ne hj _ _
    ready := fun u _ hready other hother ↦ hready other (List.mem_of_mem_erase hother) }
  by_cases hq : q = entry.start
  · rw [hq, (h.queue.starts entry.start).mpr ⟨entry, hentry, rfl⟩]
    refine iff_of_false (fun hrole ↦ ?_) nofun
    cases (Function.update_self entry.start _ x.world.log.role).symm.trans hrole
    exact hj rfl
  · exact iff_of_eq (congrArg (· = _) (Function.update_of_ne hq _ x.world.log.role))

/-! ### Calling the function -/

/-- The machine after thread `i` called the function of the created thread `t`. -/
def called (x : ThreadMachine ι) (i : ι) (t fn arg : ℕ) : ThreadMachine ι :=
  { x with world := { x.world with log := x.world.log.runs i t fn arg } }

theorem ThreadInv.call {fn arg : ℕ} (h : ThreadInv x) (hcurrent : x.world.log.current i = some t)
    (htask : x.world.log.created t = some (fn, arg)) : ThreadInv (called x i t fn arg) := by
  have hentering := (h.current i t).mp hcurrent
  have hnot : t ∉ x.world.log.ran.map Prod.fst := fun hran ↦ by
    cases hentering.symm.trans ((h.ran t).mpr hran)
  have hstage : ∀ u, u ≠ t → (called x i t fn arg).world.log.stage u = x.world.log.stage u :=
    fun u hu ↦ Function.update_of_ne hu _ _
  have hstageT : (called x i t fn arg).world.log.stage t = .ran := Function.update_self _ _ _
  have hpresent : ∀ u, (called x i t fn arg).world.log.stage u = .absent ↔
      x.world.log.stage u = .absent := by
    intro u
    by_cases hu : u = t
    · rw [hu, hstageT, hentering]
      exact iff_of_false nofun nofun
    · rw [hstage u hu]
  have hrecords : (called x i t fn arg).world.log.ran.map Prod.fst =
      x.world.log.ran.map Prod.fst ++ [t] := List.map_append
  have hlives : LivesKept (called x i t fn arg).world.log := by
    refine { h.toLivesKept with
      kept := fun u hu ↦ h.kept u fun habsent ↦ hu ((hpresent u).mpr habsent)
      keptOf := fun q hq ↦ ?_
      created := fun u ↦ (h.created u).trans (hpresent u).symm
      report := fun u ↦ (h.report u).trans (hpresent u).symm
      current := fun k u ↦ ?_
      ran := fun u ↦ ?_
      ranOf := fun record hrecord ↦ ?_
      ranNodup := ?_ }
    · obtain ⟨u, hu, hblock⟩ := h.keptOf q hq
      exact ⟨u, fun habsent ↦ hu ((hpresent u).mp habsent), hblock⟩
    · change Function.update x.world.log.current i none k = some u ↔ _
      by_cases hk : k = i
      · rw [hk, Function.update_self]
        refine iff_of_false nofun fun hsame ↦ ?_
        by_cases hu : u = t
        · rw [hu, hstageT] at hsame
          cases hsame
        · rw [hstage u hu] at hsame
          exact hu (Option.some.inj (((h.current i u).mpr hsame).symm.trans hcurrent))
      · rw [Function.update_of_ne hk]
        by_cases hu : u = t
        · rw [hu, hstageT]
          refine iff_of_false (fun hrunning ↦ ?_) nofun
          exact hk (Stage.entering.inj (((h.current k t).mp hrunning).symm.trans hentering))
        · rw [hstage u hu]
          exact h.current k u
    · rw [hrecords, List.mem_append, List.mem_singleton]
      by_cases hu : u = t
      · exact iff_of_true (hu ▸ hstageT) (.inr hu)
      · rw [hstage u hu, h.ran u]
        exact (or_iff_left hu).symm
    · rcases List.mem_append.mp hrecord with hold | hnew
      · exact h.ranOf record hold
      · rw [List.mem_singleton.mp hnew]
        exact htask
    · rw [hrecords, List.nodup_append]
      refine ⟨h.ranNodup, List.nodup_singleton t, fun u hu v hv ↦ ?_⟩
      rw [List.mem_singleton.mp hv]
      rintro rfl
      exact hnot hu
  refine { h with toLivesKept := hlives, queue := { h.queue with waiting := fun u ↦ ?_ } }
  refine Iff.trans ?_ (h.queue.waiting u)
  by_cases hu : u = t
  · rw [hu, hstageT, hentering]
    exact iff_of_false nofun nofun
  · rw [hstage u hu]

theorem rely_called {fn arg : ℕ} (hj : j ≠ i) : ThreadRely j x (called x i t fn arg) :=
  { threadRely_refl j x with current := Function.update_of_ne hj _ _ }

end Entered

/-! ### Returning -/

/-- The machine after `sys_thread_new` returned `t`. -/
def returned (x : ThreadMachine ι) (t fn arg : ℕ) : ThreadMachine ι :=
  { x with world := { x.world with log := x.world.log.returns t fn arg } }

theorem ThreadInv.return {fn arg : ℕ} (h : ThreadInv x) (hmaking : x.world.log.report t = .making i)
    (htask : x.world.log.created t = some (fn, arg)) (hready : Ready t x.world.port.threads) :
    ThreadInv (returned x t fn arg) := by
  have hnot : t ∉ x.world.log.granted.map Prod.fst := fun hgranted ↦ by
    cases hmaking.symm.trans ((h.granted t).mpr hgranted)
  have hreport : ∀ u, u ≠ t → (returned x t fn arg).world.log.report u = x.world.log.report u :=
    fun u hu ↦ Function.update_of_ne hu _ _
  have hreportT : (returned x t fn arg).world.log.report t = .granted := Function.update_self _ _ _
  have hrecords : (returned x t fn arg).world.log.granted.map Prod.fst =
      x.world.log.granted.map Prod.fst ++ [t] := List.map_append
  have hlives : LivesKept (returned x t fn arg).world.log := by
    refine { h.toLivesKept with
      report := fun u ↦ ?_
      granted := fun u ↦ ?_
      grantedOf := fun record hrecord ↦ ?_
      grantedNodup := ?_ }
    · by_cases hu : u = t
      · subst hu
        refine iff_of_false (fun hnone ↦ by cases hreportT.symm.trans hnone) fun habsent ↦ ?_
        cases hmaking.symm.trans ((h.report u).mpr habsent)
      · rw [hreport u hu]
        exact h.report u
    · rw [hrecords, List.mem_append, List.mem_singleton]
      by_cases hu : u = t
      · exact iff_of_true (hu ▸ hreportT) (.inr hu)
      · rw [hreport u hu, h.granted u]
        exact (or_iff_left hu).symm
    · rcases List.mem_append.mp hrecord with hold | hnew
      · exact h.grantedOf record hold
      · rw [List.mem_singleton.mp hnew]
        exact htask
    · rw [hrecords, List.nodup_append]
      refine ⟨h.grantedNodup, List.nodup_singleton t, fun u hu v hv ↦ ?_⟩
      rw [List.mem_singleton.mp hv]
      rintro rfl
      exact hnot hu
  refine { h with
    toLivesKept := hlives
    queue := { h.queue with resumed := fun entry hentry ↦ ?_ } }
  by_cases hthread : entry.thread = t
  · exact .inl (hready entry hentry hthread)
  · exact (h.queue.resumed entry hentry).imp_right fun ⟨k, hk⟩ ↦
      ⟨k, (hreport _ hthread).trans hk⟩

theorem rely_returned {fn arg : ℕ} (hmaking : x.world.log.report t = .making i) (hj : j ≠ i) :
    ThreadRely j x (returned x t fn arg) := by
  refine { threadRely_refl j x with making := fun u ↦ ?_ }
  by_cases hu : u = t
  · rw [hu, hmaking]
    refine iff_of_false (fun hsame ↦ ?_) fun hsame ↦ hj (Report.making.inj hsame).symm
    cases (Function.update_self t _ x.world.log.report).symm.trans hsame
  · exact iff_of_eq (congrArg (· = _) (Function.update_of_ne hu _ x.world.log.report))

end Created

end Ax88179Aroma.Port
