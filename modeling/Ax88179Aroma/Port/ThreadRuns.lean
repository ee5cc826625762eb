import Ax88179Aroma.Port.ThreadSteps

/-!
# Every thread runs what it was created for

`sys_thread_new` and `ax_thread_entry` against each other and against the rest of the heap's users.
-/

namespace Ax88179Aroma.Port

open Effect Program

variable {ι : Type}

/-! ## What a thread has in its hands -/

section Hands

variable {x : ThreadMachine ι} {i : ι} {blocks : ℕ → Prop} {making current : Option ℕ} {p : ℕ}

theorem stable_of_hands {assertion : ThreadMachine ι → Prop}
    (hstable : ∀ x y, assertion x → Hands i blocks making current x → ThreadRely i x y →
      assertion y) :
    Stable ThreadInv ThreadRely i
      fun x : ThreadMachine ι ↦ Hands i blocks making current x ∧ assertion x :=
  fun x y hx hrely _ ↦ ⟨hx.1.stable hrely, hstable x y hx.2 hx.1 hrely⟩

theorem stable_hands : Stable ThreadInv ThreadRely i
    (Hands i blocks making current : ThreadMachine ι → Prop) :=
  fun _ _ hx hrely _ ↦ hx.stable hrely

theorem loose_held : Loose (some (.held i : Role ι)) := ⟨by simp, by simp⟩

theorem loose_none : Loose (none : Option (Role ι)) := ⟨by simp, by simp⟩

theorem loose_other : Loose (some (.other : Role ι)) := ⟨by simp, by simp⟩

/-- Blocks change hands between a thread and the heap. -/
theorem Hands.moveBlock (h : Hands i blocks making current x) {role : Option (Role ι)}
    {heap : Ledger ℕ} : Hands i (fun q ↦ if q = p then role = some (.held i) else blocks q) making
      current (moveBlock x p role heap) where
  held q := by
    change Function.update x.world.log.role p role q = _ ↔ _
    by_cases hq : q = p
    · rw [hq, Function.update_self, if_pos rfl]
    · rw [Function.update_of_ne hq, if_neg hq]
      exact h.held q
  making := h.making
  current := h.current

theorem Hands.same {y : ThreadMachine ι} (h : Hands i blocks making current x)
    (hsame : SameThreads x y) : Hands i blocks making current y where
  held := hsame.log ▸ h.held
  making := hsame.log ▸ h.making
  current := hsame.log ▸ h.current

theorem Hands.congr {blocks' : ℕ → Prop} (h : Hands i blocks making current x)
    (hblocks : ∀ q, blocks q ↔ blocks' q) : Hands i blocks' making current x :=
  { h with held := fun q ↦ (h.held q).trans (hblocks q) }

end Hands

/-! ## Steps of the functions -/

section Rules

variable [DecidableEq ι] {x y : ThreadMachine ι} {i : ι} {blocks : ℕ → Prop}
  {making current : Option ℕ} {p t stack start fn arg : ℕ}

/-- A block that is asked for. -/
def Asks (request : PortCall) : Prop :=
  request = .malloc .start ∨ (∃ align, request = .memalign align .thread) ∨
    ∃ align size, request = .memalign align (.stack size)

theorem reply_asks {request : PortCall} (hrequest : Asks request) {answer : PortReply}
    (hreply : threadReplies i (.port request) answer x = some y) :
    answer.pointer = 0 ∧ y = x ∨ answer.pointer ≠ 0 ∧ ∃ heap,
      x.world.port.heap.acquire answer.pointer = some heap ∧
        y = moveBlock x answer.pointer (some (.held i)) heap := by
  have hcases : threadReplies i (.port request) answer x =
      if answer.pointer = 0 then some x
      else (x.world.port.heap.acquire answer.pointer).map fun heap ↦
        moveBlock x answer.pointer (some (.held i)) heap := by
    obtain rfl | ⟨align, rfl⟩ | ⟨align, size, rfl⟩ := hrequest
    all_goals
      simp only [threadReplies, portReplies, allocate, threadHistory]
      split
      · rfl
      · rw [Option.map_map]
        rfl
  rw [hcases] at hreply
  split at hreply
  · exact .inl ⟨‹_›, (Option.some.inj hreply).symm⟩
  · obtain ⟨heap, hheap, rfl⟩ := Option.map_eq_some_iff.mp hreply
    exact .inr ⟨‹_›, heap, hheap, rfl⟩

/-- A block is allocated, or there is none. -/
theorem safe_asks {request : PortCall} (hrequest : Asks request)
    (hx : Hands i blocks making current x) :
    CallSafe i (perform request) (fun answer y ↦
      Hands i (fun q ↦ blocks q ∨ answer.pointer ≠ 0 ∧ q = answer.pointer) making current y ∧
        (answer.pointer = 0 ∨ ¬blocks answer.pointer)) x := by
  refine safe_perform hx stable_hands fun y hy hinv ↦ ⟨?_, fun answer z hreply ↦ ?_⟩
  · obtain rfl | ⟨align, rfl⟩ | ⟨align, size, rfl⟩ := hrequest <;> trivial
  · rcases reply_asks hrequest hreply with ⟨hnull, rfl⟩ | ⟨hnonnull, heap, hheap, rfl⟩
    · refine ⟨⟨hinv, fun k _ ↦ threadRely_refl k _⟩, hy.congr fun q ↦ ?_, .inl hnull⟩
      exact (or_iff_left fun hq ↦ hq.1 hnull).symm
    · have hnone : y.world.log.role answer.pointer = none := hinv.toHeapKept.role_none hheap
      have hfree : ¬blocks answer.pointer := fun hheld ↦ by
        cases hnone.symm.trans ((hy.held _).mpr hheld)
      refine ⟨⟨?_, fun k hk ↦ rely_moveBlock ?_ ?_⟩, hy.moveBlock.congr fun q ↦ ?_, .inr hfree⟩
      · exact hinv.moveBlock (hnone ▸ loose_none) loose_held (hinv.toHeapKept.acquire hheap (by simp))
      · rw [hnone]
        simp
      · exact fun hsame ↦ hk (Role.held.inj (Option.some.inj hsame)).symm
      · split
        · rename_i hq
          exact iff_of_true rfl (.inr ⟨hnonnull, hq⟩)
        · rename_i hq
          exact (or_iff_left fun h ↦ hq h.2).symm

theorem reply_free {answer : PortReply}
    (hreply : threadReplies i (.port (.free p)) answer x = some y) :
    p = 0 ∧ y = x ∨
      p ≠ 0 ∧ SameThreads (moveBlock x p none (x.world.port.heap.release p)) y := by
  simp only [threadReplies, portReplies, threadHistory, Option.map_some,
    Option.some.injEq] at hreply
  subst hreply
  by_cases hnull : p = 0
  · rw [if_pos hnull, if_pos hnull]
    exact .inl ⟨hnull, rfl⟩
  · rw [if_neg hnull, if_neg hnull]
    exact .inr ⟨hnull, rfl, rfl, rfl, rfl⟩

/-- What was recorded of a created thread stays. -/
def Remembers (x y : ThreadMachine ι) : Prop :=
  ∀ u task, x.world.log.created u = some task → y.world.log.created u = some task

/-- A block in hand is freed; nothing happens to `NULL`. -/
theorem safe_free (hp : p = 0 ∨ blocks p) (hx : Hands i blocks making current x) :
    CallSafe i (invoke (.free p)) (fun _ y ↦
      Hands i (fun q ↦ blocks q ∧ (p = 0 ∨ q ≠ p)) making current y ∧ Remembers x y) x := by
  have hstable : Stable ThreadInv ThreadRely i fun y ↦
      Hands i blocks making current y ∧ Remembers x y :=
    stable_of_hands fun _ _ hknown _ hrely u task h ↦ hrely.created u task (hknown u task h)
  refine (safe_bind _ _ _ _).mpr (safe_perform ⟨hx, fun _ _ h ↦ h⟩ hstable
    fun y hy hinv ↦ ⟨?_, ?_⟩)
  · exact hp.imp_right (hy.1.held p).mpr
  · intro answer z hreply
    rcases reply_free hreply with ⟨hnull, rfl⟩ | ⟨hnonnull, hsame⟩
    · refine ⟨⟨hinv, fun k _ ↦ threadRely_refl k _⟩, hy.1.congr fun q ↦ ?_, hy.2⟩
      exact (and_iff_left (.inl hnull)).symm
    · have hheld := (hy.1.held p).mpr (hp.resolve_left hnonnull)
      refine ⟨⟨?_, fun k hk ↦ (rely_moveBlock ?_ (by simp)).same hsame⟩,
        (hy.1.moveBlock.congr fun q ↦ ?_).same hsame, fun u task h ↦ ?_⟩
      · exact (hinv.moveBlock (hheld ▸ loose_held) loose_none hinv.toHeapKept.release).same hsame
      · rw [hheld]
        exact fun hsame ↦ hk (Role.held.inj (Option.some.inj hsame)).symm
      · split
        · rename_i hq
          exact iff_of_false (by simp) fun h ↦ h.2.elim hnonnull fun hne ↦ hne hq
        · rename_i hq
          exact (and_iff_left (.inr hq)).symm
      · rw [hsame.log]
        exact hy.2 u task h

/-- A call that concerns no block and no thread. -/
def Unrelated : PortCall → Prop
  | .osDetachThread _ => True
  | .osSetThreadName _ _ => True
  | .axMark _ => True
  | _ => False

theorem safe_unrelated {request : PortCall} (hrequest : Unrelated request)
    {assertion : ThreadMachine ι → Prop} (hstable : Stable ThreadInv ThreadRely i assertion) (hx : assertion x) :
    CallSafe i (invoke request) (fun _ ↦ assertion) x := by
  refine (safe_bind _ _ _ _).mpr (safe_perform hx hstable fun y hy hinv ↦ ⟨?_, ?_⟩)
  · cases request <;> trivial
  · intro answer z hreply
    have hsame : z = y := by
      cases request <;> first | exact (Option.some.inj hreply).symm | cases hrequest
    rw [hsame]
    exact ⟨⟨hinv, fun k _ ↦ threadRely_refl k _⟩, hy⟩

/-- A field of a start block in hand is written. -/
theorem safe_write (update : PortState ι → PortState ι) (task : ℕ × ℕ → ℕ × ℕ)
    (hupdate : ∀ s, update s = { s with
      startBlock := Function.update s.startBlock start (task (s.startBlock start)) })
    (before : ℕ × ℕ → Prop) (hstart : blocks start)
    (hx : Hands i blocks making current x ∧ before (x.mem.startBlock start)) :
    CallSafe i (store update) (fun _ y ↦ Hands i blocks making current y ∧
      ∃ old, before old ∧ y.mem.startBlock start = task old) x := by
  have hstable : Stable ThreadInv ThreadRely i fun x : ThreadMachine ι ↦
      Hands i blocks making current x ∧ before (x.mem.startBlock start) := by
    refine stable_of_hands fun x y hbefore hhands hrely ↦ ?_
    rw [hrely.content start ((hhands.held start).mpr hstart)]
    exact hbefore
  refine safe_store hx hstable fun y hy hinv ↦ ?_
  have hheld := (hy.1.held start).mpr hstart
  rw [hupdate y.mem]
  refine ⟨⟨hinv.write hheld _, fun k hk ↦ rely_written hheld hk _⟩, ⟨?_, _, hy.2, ?_⟩⟩
  · exact ⟨hy.1.held, hy.1.making, hy.1.current⟩
  · exact Function.update_self _ _ _

/-- What `OSCreateThread` does: nothing, or the thread takes its blocks over. -/
theorem reply_osCreateThread {size : ℕ} {prio : ℤ} {answer : PortReply}
    (hreply : threadReplies i (.port (.osCreateThread t start (stack + size) size prio)) answer x =
      some y) :
    y = if answer.code = 0 then x else launched x i t stack start := by
  have hcases :
      threadReplies i (.port (.osCreateThread t start (stack + size) size prio)) answer x =
        some (if answer.code = 0 then x else launched x i t stack start) := by
    simp only [threadReplies, portReplies, threadHistory, Option.map_some, Nat.add_sub_cancel]
    split <;> rfl
  exact (Option.some.inj (hcases.symm.trans hreply)).symm

/-- The three blocks of a thread that is created. -/
def threadBlocks (t stack start : ℕ) (p : ℕ) : Prop := p ≠ 0 ∧ (p = t ∨ p = stack ∨ p = start)

/-- Blocks that are not `NULL` are different. -/
structure Apart (t stack start : ℕ) : Prop where
  thread_stack : t = 0 ∨ stack ≠ t
  thread_start : t = 0 ∨ start ≠ t
  stack_start : stack = 0 ∨ start ≠ stack

/-- The thread was created for its task and is not yet reported. -/
def Making (i : ι) (t : ℕ) (task : ℕ × ℕ) (x : ThreadMachine ι) : Prop :=
  Hands i (fun _ ↦ False) (some t) none x ∧ x.world.log.created t = some task

omit [DecidableEq ι] in
theorem stable_making {task : ℕ × ℕ} : Stable ThreadInv ThreadRely i (Making i t task) :=
  stable_of_hands fun _ _ htask _ hrely ↦ hrely.created t task htask

omit [DecidableEq ι] in
theorem stable_made {task : ℕ × ℕ} : Stable ThreadInv ThreadRely i fun x ↦
    Making i t task x ∧ Ready t x.world.port.threads :=
  fun _ _ hx hrely hinv ↦ ⟨stable_making _ _ hx.1 hrely hinv,
    hrely.ready t ((hx.1.1.making t).mpr rfl) hx.2⟩

theorem safe_osCreateThread {size : ℕ} {prio : ℤ} {task : ℕ × ℕ} (hapart : Apart t stack start)
    (hnull : t ≠ 0 ∧ stack ≠ 0 ∧ start ≠ 0)
    (hx : Hands i (threadBlocks t stack start) none none x ∧ x.mem.startBlock start = task) :
    CallSafe i (perform (.osCreateThread t start (stack + size) size prio)) (fun answer y ↦
      if answer.code = 0 then Hands i (threadBlocks t stack start) none none y
      else Making i t task y) x := by
  have hheld : threadBlocks t stack start t ∧ threadBlocks t stack start stack ∧
      threadBlocks t stack start start :=
    ⟨⟨hnull.1, .inl rfl⟩, ⟨hnull.2.1, .inr (.inl rfl)⟩, hnull.2.2, .inr (.inr rfl)⟩
  have hstable : Stable ThreadInv ThreadRely i fun x : ThreadMachine ι ↦
      Hands i (threadBlocks t stack start) none none x ∧ x.mem.startBlock start = task :=
    stable_of_hands fun x y htask hhands hrely ↦
      (hrely.content start ((hhands.held start).mpr hheld.2.2)).trans htask
  refine safe_perform hx hstable fun y hy hinv ↦ ?_
  have hblocks : Blocks y i t stack start :=
    ⟨(hy.1.held t).mpr hheld.1, (hy.1.held stack).mpr hheld.2.1, (hy.1.held start).mpr hheld.2.2,
      (hapart.thread_start.resolve_left hnull.1).symm,
      (hapart.stack_start.resolve_left hnull.2.1).symm, hnull.2.2⟩
  refine ⟨⟨hblocks.thread_held, ?_, hblocks.start_held⟩, fun answer z hreply ↦ ?_⟩
  · rw [Nat.add_sub_cancel]
    exact hblocks.stack_held
  rw [reply_osCreateThread hreply]
  split
  · exact ⟨⟨hinv, fun k _ ↦ threadRely_refl k _⟩, hy.1⟩
  refine ⟨⟨hinv.launched hblocks, fun k hk ↦ rely_launched hinv hblocks hk⟩, ⟨?_, ?_⟩⟩
  · refine ⟨fun q ↦ iff_of_false ?_ id, fun u ↦ ?_, hy.1.current⟩
    · rw [launched_role]
      split
      · simp
      · rename_i hstart
        split
        · simp
        · rename_i hother
          refine fun hq ↦ ?_
          rcases ((hy.1.held q).mp hq).2 with rfl | rfl | rfl
          · exact hother (.inr rfl)
          · exact hother (.inl rfl)
          · exact hstart rfl
    · by_cases hu : u = t
      · rw [hu]
        exact iff_of_true (Function.update_self _ _ _) rfl
      · refine iff_of_false (fun hmaking ↦ ?_) fun hsame ↦ hu (Option.some.inj hsame).symm
        have hold : y.world.log.report u = .making i :=
          (Function.update_of_ne hu _ y.world.log.report).symm.trans hmaking
        cases (hy.1.making u).mp hold
  · refine (Function.update_self t _ y.world.log.created).trans ?_
    rw [hy.2]

theorem safe_osResumeThread {task : ℕ × ℕ} (hx : Making i t task x) :
    CallSafe i (invoke (.osResumeThread t))
      (fun _ y ↦ Making i t task y ∧ Ready t y.world.port.threads) x := by
  refine (safe_bind _ _ _ _).mpr (safe_perform hx stable_making fun y hy hinv ↦ ⟨trivial, ?_⟩)
  intro answer z hreply
  have hresumed : z = resumed y t := (Option.some.inj hreply).symm
  rw [hresumed]
  refine ⟨⟨hinv.resume, fun k _ ↦ rely_resumed⟩, ⟨⟨hy.1.held, hy.1.making, hy.1.current⟩, hy.2⟩, ?_⟩
  intro entry hentry hthread
  obtain ⟨old, -, -, -, hready⟩ := mem_resumed hentry
  exact hready (.inr hthread)

/-- Everything in hand is freed. -/
theorem safe_freeThread (hapart : Apart t stack start)
    (hx : Hands i (threadBlocks t stack start) none none x) :
    CallSafe i (freeThread t stack start) (fun ret y ↦ ret = 0 ∧ EmptyHands i y) x := by
  have hnull : ∀ p, p = t ∨ p = stack ∨ p = start → p = 0 ∨ threadBlocks t stack start p :=
    fun p hp ↦ or_iff_not_imp_left.mpr fun hnull ↦ ⟨hnull, hp⟩
  refine (safe_bind _ _ _ _).mpr (safe_mono (safe_free (hnull t (.inl rfl)) hx) fun _ y hy ↦ ?_)
  have hstack := (hnull stack (.inr (.inl rfl))).imp_right fun h ↦ And.intro h hapart.thread_stack
  refine (safe_bind _ _ _ _).mpr (safe_mono (safe_free hstack hy.1) fun _ z hz ↦ ?_)
  have hstart := (hnull start (.inr (.inr rfl))).imp_right fun h ↦
    And.intro (And.intro h hapart.thread_start) hapart.stack_start
  refine (safe_bind _ _ _ _).mpr (safe_mono (safe_free hstart hz.1) fun _ u hu ↦ ⟨rfl, ?_⟩)
  refine hu.1.congr fun q ↦ iff_of_false ?_ id
  rintro ⟨⟨⟨⟨hq, hname⟩, ht⟩, hs⟩, hr⟩
  rcases hname with rfl | rfl | rfl
  · exact ht.elim hq fun h ↦ h rfl
  · exact hs.elim hq fun h ↦ h rfl
  · exact hr.elim hq fun h ↦ h rfl

/-- What `sys_thread_new` leaves behind. -/
def Returns (i : ι) (task : ℕ × ℕ) (ret : ℕ) (x : ThreadMachine ι) : Prop :=
  ret = 0 ∧ EmptyHands i x ∨
    ret ≠ 0 ∧ Making i ret task x ∧ Ready ret x.world.port.threads

theorem safe_launchThread {name size : ℕ} {prio : ℤ} (hapart : Apart t stack start)
    (hnull : t ≠ 0 ∧ stack ≠ 0 ∧ start ≠ 0)
    (hx : Hands i (threadBlocks t stack start) none none x) :
    CallSafe i (launchThread name fn arg t stack start size prio) (Returns i (fn, arg)) x := by
  have hstart : threadBlocks t stack start start := ⟨hnull.2.2, .inr (.inr rfl)⟩
  have hfn : CallSafe i (store (setStartFn start fn)) (fun _ y ↦
      Hands i (threadBlocks t stack start) none none y ∧
        ∃ old : ℕ × ℕ, True ∧ y.mem.startBlock start = (fn, old.2)) x :=
    safe_write (setStartFn start fn) (fun old ↦ (fn, old.2)) (fun _ ↦ rfl) (fun _ ↦ True) hstart
      ⟨hx, trivial⟩
  refine (safe_bind _ _ _ _).mpr (safe_mono hfn fun _ y hy ↦ ?_)
  have hhalf : (y.mem.startBlock start).1 = fn := by
    obtain ⟨-, old, -, hsame⟩ := hy
    rw [hsame]
  have harg : CallSafe i (store (setStartArg start arg)) (fun _ z ↦
      Hands i (threadBlocks t stack start) none none z ∧
        ∃ old : ℕ × ℕ, old.1 = fn ∧ z.mem.startBlock start = (old.1, arg)) y :=
    safe_write (setStartArg start arg) (fun old ↦ (old.1, arg)) (fun _ ↦ rfl) (fun old ↦ old.1 = fn)
      hstart ⟨hy.1, hhalf⟩
  refine (safe_bind _ _ _ _).mpr (safe_mono harg fun _ z hz ↦ ?_)
  have htask : z.mem.startBlock start = (fn, arg) := by
    obtain ⟨-, old, hold, hsame⟩ := hz
    rw [hsame, hold]
  refine (safe_bind _ _ _ _).mpr
    (safe_mono (safe_osCreateThread hapart hnull ⟨hz.1, htask⟩) fun created u hu ↦ ?_)
  rw [safe_ite]
  split
  · rename_i hrefused
    rw [if_pos hrefused] at hu
    exact safe_mono (safe_freeThread hapart hu) fun _ _ ↦ .inl
  rename_i hcreated
  rw [if_neg hcreated] at hu
  have hquiet : ∀ {request : PortCall}, Unrelated request → ∀ {v : ThreadMachine ι},
      Making i t (fn, arg) v → CallSafe i (invoke request) (fun _ ↦ Making i t (fn, arg)) v :=
    fun hrequest _ hv ↦ safe_unrelated hrequest stable_making hv
  have hdetach : Unrelated (.osDetachThread t) := trivial
  have hsetName : Unrelated (.osSetThreadName t name) := trivial
  refine (safe_bind _ _ _ _).mpr (safe_mono (hquiet hdetach hu) fun _ u hu ↦ ?_)
  refine (safe_bind _ _ _ _).mpr (safe_mono (hquiet hsetName hu) fun _ u hu ↦ ?_)
  refine (safe_bind _ _ _ _).mpr (safe_mono (safe_osResumeThread hu) fun _ u hu ↦ ?_)
  have hmark : Unrelated (.axMark axMarkThreadCreated) := trivial
  have hready := safe_unrelated hmark stable_made hu
  exact (safe_bind _ _ _ _).mpr (safe_mono hready fun _ v hv ↦ .inr ⟨hnull.1, hv⟩)

theorem safe_sysThreadNew {name : ℕ} {stacksize prio : ℤ} (hx : EmptyHands i x) :
    CallSafe i (sysThreadNew name fn arg stacksize prio) (Returns i (fn, arg)) x := by
  unfold sysThreadNew
  dsimp only
  refine (safe_bind _ _ _ _).mpr (safe_mono (safe_asks (.inr (.inl ⟨_, rfl⟩)) hx) fun t y hy ↦ ?_)
  refine (safe_bind _ _ _ _).mpr
    (safe_mono (safe_asks (.inr (.inr ⟨_, _, rfl⟩)) hy.1) fun stack z hz ↦ ?_)
  refine (safe_bind _ _ _ _).mpr (safe_mono (safe_asks (.inl rfl) hz.1) fun start u hu ↦ ?_)
  have hapart : Apart t.pointer stack.pointer start.pointer := by
    refine ⟨?_, ?_, ?_⟩
    · by_cases ht : t.pointer = 0
      · exact .inl ht
      · refine .inr fun hsame ↦ hz.2.elim (fun h ↦ ht (hsame.symm.trans h)) fun h ↦ h ?_
        exact .inr ⟨ht, hsame⟩
    · by_cases ht : t.pointer = 0
      · exact .inl ht
      · refine .inr fun hsame ↦ hu.2.elim (fun h ↦ ht (hsame.symm.trans h)) fun h ↦ h ?_
        exact .inl (.inr ⟨ht, hsame⟩)
    · by_cases hs : stack.pointer = 0
      · exact .inl hs
      · refine .inr fun hsame ↦ hu.2.elim (fun h ↦ hs (hsame.symm.trans h)) fun h ↦ h ?_
        exact .inr ⟨hs, hsame⟩
  have hhands : Hands i (threadBlocks t.pointer stack.pointer start.pointer) none none u := by
    refine hu.1.congr fun q ↦ ⟨?_, ?_⟩
    · rintro (((hfalse | ⟨hnull, rfl⟩) | ⟨hnull, rfl⟩) | ⟨hnull, rfl⟩)
      · exact hfalse.elim
      · exact ⟨hnull, .inl rfl⟩
      · exact ⟨hnull, .inr (.inl rfl)⟩
      · exact ⟨hnull, .inr (.inr rfl)⟩
    · rintro ⟨hnull, rfl | rfl | rfl⟩
      · exact .inl (.inl (.inr ⟨hnull, rfl⟩))
      · exact .inl (.inr ⟨hnull, rfl⟩)
      · exact .inr ⟨hnull, rfl⟩
  rw [safe_ite]
  split
  · exact safe_mono (safe_freeThread hapart hhands) fun _ _ ↦ .inl
  · rename_i hnull
    obtain ⟨ht, hrest⟩ := not_or.mp hnull
    exact safe_launchThread hapart ⟨ht, not_or.mp hrest⟩ hhands

/-- Thread `i` runs as the created thread `t` and holds the block that says what `t` is for. -/
def Entered (i : ι) (t start : ℕ) (task : ℕ × ℕ) (x : ThreadMachine ι) : Prop :=
  Hands i (fun q ↦ q = start) none (some t) x ∧ start ≠ 0 ∧
    x.world.log.created t = some task ∧ x.mem.startBlock start = task

omit [DecidableEq ι] in
theorem stable_entered {task : ℕ × ℕ} : Stable ThreadInv ThreadRely i (Entered i t start task) :=
  stable_of_hands fun _ _ hentered hhands hrely ↦ ⟨hentered.1, hrely.created t task hentered.2.1,
    (hrely.content start ((hhands.held start).mpr rfl)).trans hentered.2.2⟩

theorem safe_threadFn
    (hx : Hands i (fun _ ↦ False) none (some t) x ∧ x.world.log.created t = some (fn, arg)) :
    CallSafe i (invoke (.threadFn fn arg)) (fun _ ↦ EmptyHands i) x := by
  have hstable : Stable ThreadInv ThreadRely i fun x : ThreadMachine ι ↦
      Hands i (fun _ ↦ False) none (some t) x ∧ x.world.log.created t = some (fn, arg) :=
    stable_of_hands fun _ _ htask _ hrely ↦ hrely.created t _ htask
  refine (safe_bind _ _ _ _).mpr (safe_perform hx hstable fun y hy hinv ↦ ⟨?_, ?_⟩)
  · exact ⟨t, hy.1.current, hy.2⟩
  · intro answer z hreply
    have hcalled : z = called y i t fn arg := by
      have hcurrent := hy.1.current
      change some { y with world := { y.world with
        log := threadHistory i y (.threadFn fn arg) answer } } = some z at hreply
      rw [threadHistory, hcurrent] at hreply
      exact (Option.some.inj hreply).symm
    rw [hcalled]
    refine ⟨⟨hinv.call hy.1.current hy.2, fun k hk ↦ rely_called hk⟩, ?_⟩
    exact ⟨hy.1.held, hy.1.making, Function.update_self _ _ _⟩

/-- A created thread frees its block and calls what the block said. -/
theorem safe_axThreadEntry {task : ℕ × ℕ} (hx : Entered i t start task x) :
    CallSafe i (axThreadEntry start) (fun _ ↦ EmptyHands i) x := by
  unfold axThreadEntry
  have hmark : Unrelated (.axMark axMarkThreadEntered) := trivial
  refine (safe_bind _ _ _ _).mpr
    (safe_mono (safe_unrelated hmark stable_entered hx) fun _ y hy ↦ ?_)
  refine (safe_bind _ _ _ _).mpr (safe_load threadRely_refl hy stable_entered fun y hy hinv ↦ ?_)
  refine (safe_bind _ _ _ _).mpr (safe_load threadRely_refl hy stable_entered fun z hz hinv ↦ ?_)
  rw [hy.2.2.2, hz.2.2.2]
  refine (safe_bind _ _ _ _).mpr (safe_mono (safe_free (.inr (by rfl)) hz.1) fun _ u hu ↦ ?_)
  have hempty : Hands i (fun _ ↦ False) none (some t) u := hu.1.congr fun q ↦
    iff_of_false (fun hq ↦ hq.2.elim hz.2.1 fun hne ↦ hne hq.1) id
  refine (safe_bind _ _ _ _).mpr
    (safe_mono (safe_threadFn ⟨hempty, hu.2 t task hz.2.2.1⟩) fun _ v hv ↦ hv)

/-- The operating system runs a resumed thread on the block it was created with. -/
theorem safe_osDispatch (hx : EmptyHands i x) :
    Safe threadSystem ThreadInv ThreadRely threadPre i (perform (.port .osDispatch))
      (fun answer y ↦ ∃ t task, Entered i t answer.pointer task y) x := by
  refine safe_perform hx stable_hands fun y hy hinv ↦ ⟨trivial, fun answer z hreply ↦ ?_⟩
  cases hfind : dispatched y.world.port.threads answer.pointer with
  | none =>
    simp only [threadSystem, threadReplies, portReplies] at hreply
    rw [dispatched] at hfind
    rw [hfind] at hreply
    cases hreply
  | some entry =>
    have hmem : entry ∈ y.world.port.threads := List.mem_of_find?_eq_some hfind
    have hstart : entry.start = answer.pointer :=
      beq_iff_eq.mp (Bool.and_eq_true_iff.mp (List.find?_some
        (p := fun entry : OSThread ↦ entry.resumed && entry.start == answer.pointer) hfind)).2
    have hentered : z = entered y i entry := by
      simp only [threadSystem, threadReplies, portReplies, threadHistory, hfind] at hreply
      rw [dispatched] at hfind
      rw [hfind] at hreply
      exact (Option.some.inj hreply).symm
    rw [hentered]
    refine ⟨⟨hinv.enter hmem hy.current, fun k hk ↦ rely_entered hinv hmem hk⟩, entry.thread,
      y.mem.startBlock entry.start, ⟨fun q ↦ ?_, hy.making, Function.update_self _ _ _⟩, ?_⟩
    · change Function.update y.world.log.role entry.start _ q = _ ↔ _
      by_cases hq : q = entry.start
      · rw [hq, Function.update_self]
        exact iff_of_true rfl hstart
      · rw [Function.update_of_ne hq]
        exact iff_of_false (hy.held q).mp fun hsame ↦ hq (hsame.trans hstart.symm)
    · rw [← hstart]
      exact ⟨hinv.queue.nonnull entry hmem, hinv.queue.content entry hmem, rfl⟩

/-- `sys_thread_new` reports what it has created. -/
theorem safe_returned {ret : ℕ} (hx : Returns i (fn, arg) ret x) :
    Safe threadSystem ThreadInv ThreadRely threadPre i (perform (.returned ret fn arg))
      (fun _ ↦ EmptyHands i) x := by
  rcases hx with ⟨hnull, hempty⟩ | ⟨hnonnull, hmade⟩
  · refine safe_perform hempty stable_hands fun y hy hinv ↦ ⟨trivial, fun answer z hreply ↦ ?_⟩
    have hsame : z = y := by
      simp only [threadSystem, threadReplies, if_pos hnull] at hreply
      exact (Option.some.inj hreply).symm
    rw [hsame]
    exact ⟨⟨hinv, fun k _ ↦ threadRely_refl k _⟩, hy⟩
  · refine safe_perform hmade stable_made fun y hy hinv ↦ ⟨trivial, fun answer z hreply ↦ ?_⟩
    have hreturned : z = returned y ret fn arg := by
      simp only [threadSystem, threadReplies, if_neg hnonnull] at hreply
      exact (Option.some.inj hreply).symm
    have hmaking := (hy.1.1.making ret).mpr rfl
    rw [hreturned]
    refine ⟨⟨hinv.return hmaking hy.1.2 hy.2, fun k hk ↦ rely_returned hmaking hk⟩,
      hy.1.1.held, fun u ↦ iff_of_false ?_ (by simp), hy.1.1.current⟩
    change Function.update y.world.log.report ret .granted u ≠ .making i
    by_cases hu : u = ret
    · rw [hu, Function.update_self]
      simp
    · rw [Function.update_of_ne hu]
      exact fun hmaking ↦ hu (Option.some.inj ((hy.1.1.making u).mp hmaking)).symm

end Rules

/-! ## Runs -/

/-- No thread has been created and the heap is unused. -/
def noThreads : ThreadMachine ι := { mem := {}, world := {} }

theorem inv_noThreads : ThreadInv (noThreads : ThreadMachine ι) := by
  refine ⟨⟨Ledger.holds_empty.coherent, fun p ↦ ?_⟩, ?_, ?_⟩
  · exact iff_of_false Bool.false_ne_true fun h ↦ h rfl
  all_goals constructor <;> simp [noThreads]

section Run

variable [DecidableEq ι]

theorem threadSystem_verified :
    Verified threadSystem (noThreads : ThreadMachine ι) ThreadInv ThreadRely threadPre
      EmptyHands where
  rely_refl := threadRely_refl
  rely_trans := threadRely_trans
  idle_stable _ := stable_hands
  env_safe event x y hinv hstep := by
    cases event with
    | malloc p =>
      obtain ⟨heap, hheap, rfl⟩ := Option.map_eq_some_iff.mp hstep
      have hnone := hinv.toHeapKept.role_none hheap
      refine ⟨hinv.moveBlock (hnone ▸ loose_none) loose_other
        (hinv.toHeapKept.acquire hheap (by simp)), fun i ↦ rely_moveBlock ?_ (by simp)⟩
      rw [hnone]
      simp
    | free p =>
      simp only [threadSystem, heapStep] at hstep
      split at hstep
      · rename_i hother
        cases hstep
        refine ⟨hinv.moveBlock (hother ▸ loose_other) loose_none hinv.toHeapKept.release,
          fun i ↦ rely_moveBlock ?_ (by simp)⟩
        rw [hother]
        simp
      · cases hstep
  body_safe i operation x _ hx _ := by
    cases operation with
    | create name fn arg stacksize prio =>
      refine (safe_bind _ _ _ _).mpr
        (safe_mono (safe_embed.mpr (safe_sysThreadNew hx)) fun t y hy ↦ ?_)
      exact (safe_bind _ _ _ _).mpr (safe_mono (safe_returned hy) fun _ _ hz ↦ hz)
    | enter =>
      refine (safe_bind _ _ _ _).mpr (safe_mono (safe_osDispatch hx) fun start y hy ↦ ?_)
      obtain ⟨t, task, hentered⟩ := hy
      exact (safe_bind _ _ _ _).mpr
        (safe_mono (safe_embed.mpr (safe_axThreadEntry hentered)) fun _ _ hz ↦ hz)
  initial_inv := inv_noThreads
  initial_idle i := ⟨fun _ ↦ by simp [noThreads], fun _ ↦ by simp [noThreads], rfl⟩

variable {actions : List (Action ι ThreadOp HeapEvent PortReply)}
  {c : Config ι (PortState ι) (ThreadWorld ι) ThreadCall PortReply}

/-- What became of the created threads. -/
structure ThreadsAccounted (c : Config ι (PortState ι) (ThreadWorld ι) ThreadCall PortReply) :
    Prop where
  ranOnce : (c.machine.world.log.ran.map Prod.fst).Nodup
  /-- a thread calls the function it was created for, with the argument it was created for -/
  ranAs : ∀ record ∈ c.machine.world.log.ran,
    c.machine.world.log.created record.1 = some record.2
  grantedOnce : (c.machine.world.log.granted.map Prod.fst).Nodup
  /-- what it was created for is what the `sys_thread_new` that returned it was asked for -/
  grantedAs : ∀ record ∈ c.machine.world.log.granted,
    c.machine.world.log.created record.1 = some record.2
  ranAsGranted : ∀ t task asked, (t, task) ∈ c.machine.world.log.ran →
    (t, asked) ∈ c.machine.world.log.granted → task = asked
  /-- a block that is about to be freed is out, and the thread that frees it holds it -/
  frees : ∀ i p next, c.threads i = some (.call (.port (.free p)) next) → p = 0 ∨
    c.machine.world.port.heap.isOut p = true ∧ c.machine.world.log.role p = some (.held i)

/-- Every created thread calls, once, the function that it was created for, however creations,
dispatches and other users of the heap interleave, and nothing is freed twice. -/
theorem threadSystem_accounted
    (hrun : threadSystem.run (System.start noThreads) actions = some c) : ThreadsAccounted c := by
  have hinv := (threadSystem_verified.sound hrun).invariant
  refine ⟨hinv.ranNodup, hinv.ranOf, hinv.grantedNodup, hinv.grantedOf,
    fun t task asked hran hgranted ↦ ?_, fun i p next hcall ↦ ?_⟩
  · exact Option.some.inj ((hinv.ranOf _ hran).symm.trans (hinv.grantedOf _ hgranted))
  refine (threadSystem_verified.call_pre hrun hcall).imp_right fun hheld ↦ ⟨?_, hheld⟩
  rw [hinv.out p, hheld]
  simp

/-- Once every call has returned, a block that is out is the `OSThread` or the stack of a created
thread, the start block of a thread that can be dispatched, or another user's: no failed creation
leaks one. -/
theorem threadSystem_leaksNothing
    (hrun : threadSystem.run (System.start noThreads) actions = some c)
    (hidle : ∀ i, c.threads i = none) {p : ℕ} (hp : c.machine.world.port.heap.isOut p = true) :
    (∃ t task, c.machine.world.log.created t = some task ∧
        (p = t ∨ p = c.machine.world.log.stackOf t)) ∨
      (∃ entry ∈ c.machine.world.port.threads, entry.resumed = true ∧ entry.start = p) ∨
        c.machine.world.log.role p = some .other := by
  have hholds := threadSystem_verified.sound hrun
  have hinv := hholds.invariant
  obtain ⟨role, hrole⟩ := Option.ne_none_iff_exists'.mp ((hinv.out p).mp hp)
  cases role with
  | held i => exact (((hholds.idle i (hidle i)).held p).mp hrole).elim
  | waiting =>
    obtain ⟨entry, hentry, hstart⟩ := (hinv.queue.starts p).mp hrole
    refine .inr (.inl ⟨entry, hentry, (hinv.queue.resumed entry hentry).resolve_right ?_, hstart⟩)
    rintro ⟨i, hmaking⟩
    cases ((hholds.idle i (hidle i)).making entry.thread).mp hmaking
  | kept =>
    obtain ⟨t, hstage, hblock⟩ := hinv.keptOf p hrole
    obtain ⟨task, htask⟩ :=
      Option.ne_none_iff_exists'.mp fun hnone ↦ hstage ((hinv.created t).mp hnone)
    exact .inl ⟨t, task, htask, hblock⟩
  | other => exact .inr (.inr hrole)

end Run

/-! ### A thread that creates another -/

/-- One thread creates a thread at 64 for the function 7 with the argument 9, and the other is the
created thread. -/
def scheduleCreated : List (Action Bool ThreadOp HeapEvent PortReply) :=
  [.start false (.create 5 7 9 0 3), .answer false { pointer := 64 },
    .answer false { pointer := 128 }, .answer false { pointer := 192 }, .step false, .step false,
    .answer false { code := 1 }, .answer false {}, .answer false {}, .answer false {},
    .answer false {}, .answer false {}, .step false, .start true .enter,
    .answer true { pointer := 192 }, .answer true {}, .step true, .step true, .answer true {},
    .answer true {}, .step true]

theorem threadSystem_accounted_created :
    ∃ c, threadSystem.run (System.start noThreads) scheduleCreated = some c ∧
      c.machine.world.log.ran = [(64, 7, 9)] ∧ ThreadsAccounted c := by
  have hran : (threadSystem.run (System.start noThreads) scheduleCreated).map
      (fun c ↦ c.machine.world.log.ran) = some [(64, 7, 9)] := rfl
  obtain ⟨c, hrun, hc⟩ := Option.map_eq_some_iff.mp hran
  exact ⟨c, hrun, hc, threadSystem_accounted hrun⟩

/-- A creation that `OSCreateThread` refuses. -/
def scheduleFailed : List (Action Bool ThreadOp HeapEvent PortReply) :=
  [.start false (.create 5 7 9 0 3), .answer false { pointer := 64 },
    .answer false { pointer := 128 }, .answer false { pointer := 256 }, .step false, .step false,
    .answer false { code := 0 }, .answer false {}, .answer false {}, .answer false {},
    .answer false {}, .step false]

/-- The blocks of the failed creation are on the heap again, and two of them serve the next one: the
block at 128 is the stack of the created thread. -/
theorem threadSystem_leaksNothing_created :
    ∃ c, threadSystem.run (System.start noThreads) (scheduleFailed ++ scheduleCreated) = some c ∧
      c.machine.world.port.heap.isOut 256 = false ∧
      c.machine.world.port.heap.isOut 128 = true ∧
        ((∃ t task, c.machine.world.log.created t = some task ∧
            (128 = t ∨ 128 = c.machine.world.log.stackOf t)) ∨
          (∃ entry ∈ c.machine.world.port.threads, entry.resumed = true ∧ entry.start = 128) ∨
            c.machine.world.log.role 128 = some .other) := by
  have hout : (threadSystem.run (System.start noThreads) (scheduleFailed ++ scheduleCreated)).map
      (fun c ↦ (c.threads false, c.threads true, c.machine.world.port.heap.isOut 256,
        c.machine.world.port.heap.isOut 128)) = some (none, none, false, true) := rfl
  obtain ⟨c, hrun, hc⟩ := Option.map_eq_some_iff.mp hout
  obtain ⟨hfalse, hrest⟩ := Prod.mk.inj hc
  obtain ⟨htrue, hheap⟩ := Prod.mk.inj hrest
  obtain ⟨hback, hkept⟩ := Prod.mk.inj hheap
  have hidle : ∀ i, c.threads i = none := fun i ↦ by
    cases i with
    | false => exact hfalse
    | true => exact htrue
  exact ⟨c, hrun, hback, hkept, threadSystem_leaksNothing hrun hidle hkept⟩

end Ax88179Aroma.Port
