import Ax88179Aroma.Port.Lifetimes

/-!
# Critical sections

lwIP accesses a word that its threads share between `sys_mutex_lock` and `sys_mutex_unlock`, or
between `SYS_ARCH_PROTECT` and `SYS_ARCH_UNPROTECT`, which lock the one `protect_mutex`.  A mutex is
recursive, so that a section may stand in another of the same mutex.  `criticalSystem` interleaves
any number of threads with sections of any depth.  An access reads the word and writes it in two
steps; nothing but the mutex keeps the other threads out in between.
-/

namespace Ax88179Aroma.Port

open Effect Net Program

variable {ι : Type}

/-! ## Sections -/

/-- `SYS_ARCH_INC`, `SYS_ARCH_DEC`, `SYS_ARCH_SET` and `SYS_ARCH_GET`. -/
inductive WordOp where
  | inc (val : UInt32)
  | dec (val : UInt32)
  | set (val : UInt32)
  | get
  deriving DecidableEq, Repr

namespace PortHistory

variable (h : PortHistory ι) (i : ι)

def apply (mutex : ℕ) (event : WordEvent) : PortHistory ι :=
  { h with applied := Function.update h.applied mutex (h.applied mutex ++ [(i, event)]) }

def complete [DecidableEq ι] (mutex : ℕ) (event : WordEvent) : PortHistory ι :=
  { h with
    completed := Function.update h.completed i
      (Function.update (h.completed i) mutex (h.completed i mutex ++ [event])) }

end PortHistory

/-- Write the word that a mutex guards. -/
def setWord (i : ι) (mutex : ℕ) (word : UInt32) (event : WordEvent) (s : PortState ι) :
    PortState ι :=
  { s with
    word := Function.update s.word mutex word
    history := s.history.apply i mutex event }

def noteRead (i : ι) (mutex : ℕ) (s : PortState ι) : UInt32 × PortState ι :=
  (s.word mutex, { s with history := s.history.apply i mutex (.read (s.word mutex)) })

/-- What the macros do between the lock and the unlock. -/
def touch (i : ι) (mutex : ℕ) : WordOp → PortM ι WordEvent
  | .inc val => do
    let word ← load fun s ↦ s.word mutex
    store (setWord i mutex (word + val) (.added val))
    pure (.added val)
  | .dec val => do
    let word ← load fun s ↦ s.word mutex
    store (setWord i mutex (word - val) (.subtracted val))
    pure (.subtracted val)
  | .set val => do
    store (setWord i mutex val (.written val))
    pure (.written val)
  | .get => do
    let word ← access (noteRead i mutex)
    pure (.read word)

/-- A body in sections that stand in one another. -/
def nested {α β : Type} (lock : PortM ι β) (unlock : β → PortM ι Unit) (body : PortM ι α) :
    ℕ → PortM ι α
  | 0 => body
  | depth + 1 => do
    let level ← lock
    let result ← nested lock unlock body depth
    unlock level
    pure result

inductive CriticalOp where
  | mutexNew
  /-- so many sections of a mutex, and an access in the innermost -/
  | locked (mutex depth : ℕ) (op : WordOp)
  /-- the same with `SYS_ARCH_PROTECT` -/
  | protect (depth : ℕ) (op : WordOp)
  deriving DecidableEq, Repr

def criticalBody [DecidableEq ι] (i : ι) : CriticalOp → PortM ι Unit
  | .mutexNew => do
    let _ ← sysMutexNew
    pure ()
  | .locked mutex depth op => do
    let event ←
      nested (sysMutexLock mutex) (fun _ ↦ sysMutexUnlock mutex) (touch i mutex op) (depth + 1)
    record fun h ↦ h.complete i mutex event
  | .protect depth op => do
    let event ← nested sysArchProtect sysArchUnprotect (touch i protectMutex op) (depth + 1)
    record fun h ↦ h.complete i protectMutex event

/-- The mutex of a section exists. -/
def CriticalOp.ready (op : CriticalOp) (w : PortWorld ι) : Bool :=
  match op with
  | .mutexNew => true
  | .locked mutex _ _ => (w.mutexes mutex).isSome
  | .protect _ _ => (w.mutexes protectMutex).isSome

def criticalSystem [DecidableEq ι] :
    System ι CriticalOp Empty (PortState ι) (PortWorld ι) PortCall PortReply where
  reply := portReplies
  env event _ := event.elim
  body := criticalBody
  enabled _ op x := op.ready x.world

/-! ## The invariant -/

/-- The word after an access, if the access could find what it found. -/
def WordEvent.step (word : UInt32) : WordEvent → Option UInt32
  | .added val => some (word + val)
  | .subtracted val => some (word - val)
  | .written val => some val
  | .read val => if val = word then some word else none

/-- One after the other, the accesses make the word what it is and read what they read. -/
def Replays (events : List (ι × WordEvent)) (word : UInt32) : Prop :=
  (events.map Prod.snd).foldlM WordEvent.step 0 = some word

theorem Replays.append {events : List (ι × WordEvent)} {word word' : UInt32}
    (h : Replays events word) (i : ι) {event : WordEvent} (hstep : event.step word = some word') :
    Replays (events ++ [(i, event)]) word' := by
  unfold Replays at h ⊢
  rw [List.map_append, List.foldlM_append, h]
  change (event.step word).bind some = some word'
  rw [hstep]
  rfl

structure CriticalInv (x : PortMachine ι) : Prop where
  heap : x.world.heap.Coherent
  nonnull : x.world.heap.isOut 0 = false
  mutex_out : ∀ p, x.world.mutexes p ≠ none → p ≠ protectMutex → x.world.heap.isOut p = true
  creating : ∀ i p, x.mem.history.creating i = some p →
    x.world.heap.isOut p = true ∧ x.world.mutexes p = none
  creating_unique : ∀ i j p, x.mem.history.creating i = some p →
    x.mem.history.creating j = some p → i = j
  protect : x.world.mutexes protectMutex ≠ none
  owned : ∀ p m, x.world.mutexes p = some m → (m.owner = none ↔ m.count = 0)
  replays : ∀ p, Replays (x.mem.history.applied p) (x.mem.word p)

theorem CriticalInv.setMutex {x : PortMachine ι} {mutex : ℕ} (hinv : CriticalInv x)
    {m m' : OSMutex ι}
    (hm : x.world.mutexes mutex = some m) (howned : m'.owner = none ↔ m'.count = 0) :
    CriticalInv (setMutex x mutex m') := by
  have hexists : x.world.mutexes mutex ≠ none := hm ▸ Option.some_ne_none m
  refine { hinv with
    mutex_out := fun p hp ↦ hinv.mutex_out p fun hnone ↦ hp (update_eq_none hexists hnone)
    creating := fun k p hk ↦ ⟨(hinv.creating k p hk).1,
      update_eq_none hexists (hinv.creating k p hk).2⟩
    protect := update_some_ne_none _ hinv.protect
    owned := fun p n hn ↦ ?_ }
  change Function.update x.world.mutexes mutex (some m') p = some n at hn
  by_cases hp : p = mutex
  · rw [hp, Function.update_self] at hn
    exact Option.some.inj hn ▸ howned
  · rw [Function.update_of_ne hp] at hn
    exact hinv.owned p n hn

theorem CriticalInv.freeBlock {x : PortMachine ι} {p : ℕ} (hinv : CriticalInv x)
    (hp : p ≠ 0) (hcreating : ∀ i, x.mem.history.creating i = none) :
    CriticalInv (freeBlock x p) := by
  have hfreed := freed_freeBlock (p := p) hinv.heap
  refine { hinv with
    heap := hinv.heap.release
    nonnull := ?_
    mutex_out := fun q hq hne ↦ ?_
    creating := fun k q hk ↦ ?_
    protect := ?_
    owned := fun q m hm ↦ ?_ }
  · rw [Bool.eq_false_iff]
    intro hout
    have hold := ((Ledger.isOut_release_iff hinv.heap).mp hout).2
    exact Bool.false_ne_true (hinv.nonnull.symm.trans hold)
  · by_cases hqp : q = p
    · exact absurd hfreed.mutex (hqp ▸ hq)
    · obtain ⟨-, -, hsame, hout⟩ := hfreed.others q hqp
      exact hout.mpr (hinv.mutex_out q (hsame ▸ hq) hne)
  · cases (hcreating k).symm.trans hk
  · obtain ⟨-, -, hsame, -⟩ := hfreed.others protectMutex (Ne.symm hp)
    exact hsame ▸ hinv.protect
  · by_cases hqp : q = p
    · cases hfreed.mutex.symm.trans (hqp ▸ hm)
    · obtain ⟨-, -, hsame, -⟩ := hfreed.others q hqp
      exact hinv.owned q m (hsame ▸ hm)

variable [DecidableEq ι]

/-- How often a thread has locked a mutex and not unlocked it. -/
def lockDepth (i : ι) (x : PortMachine ι) (p : ℕ) : ℕ :=
  match x.world.mutexes p with
  | some m => if m.owner = some i then m.count else 0
  | none => 0

/-- What only one thread changes. -/
@[ext]
structure OwnSections where
  creating : Option ℕ
  depth : ℕ → ℕ
  applied : ℕ → List WordEvent
  completed : ℕ → List WordEvent

def ownSections (i : ι) (x : PortMachine ι) : OwnSections where
  creating := x.mem.history.creating i
  depth := lockDepth i x
  applied p := byThread i (x.mem.history.applied p)
  completed := x.mem.history.completed i

/-- While a thread holds a mutex the others leave the word under it alone. -/
structure CriticalRely (i : ι) (x y : PortMachine ι) : Prop where
  own : ownSections i y = ownSections i x
  word : ∀ p, 0 < lockDepth i x p → y.mem.word p = x.mem.word p
  mutex : ∀ p, x.world.mutexes p ≠ none → y.world.mutexes p ≠ none

theorem CriticalRely.depth {i : ι} {x y : PortMachine ι} (h : CriticalRely i x y) (p : ℕ) :
    lockDepth i y p = lockDepth i x p := congrFun (congrArg OwnSections.depth h.own) p

theorem criticalRely_refl (i : ι) (x : PortMachine ι) : CriticalRely i x x :=
  ⟨rfl, fun _ _ ↦ rfl, fun _ h ↦ h⟩

theorem criticalRely_trans (i : ι) (x y z : PortMachine ι) (hxy : CriticalRely i x y)
    (hyz : CriticalRely i y z) : CriticalRely i x z where
  own := hyz.own.trans hxy.own
  word p hp := (hyz.word p (hxy.depth p ▸ hp)).trans (hxy.word p hp)
  mutex p hp := hyz.mutex p (hxy.mutex p hp)

/-- A thread in `depth` sections of one mutex, with accesses that no completed section reports. -/
structure OwnSections.Inside (o : OwnSections) (mutex depth : ℕ) (events : List WordEvent) :
    Prop where
  creating : o.creating = none
  depth : ∀ p, o.depth p = if p = mutex then depth else 0
  applied : ∀ p, o.applied p = o.completed p ++ if p = mutex then events else []

def Inside (i : ι) (mutex depth : ℕ) (events : List WordEvent) (x : PortMachine ι) : Prop :=
  (ownSections i x).Inside mutex depth events

/-- At most one access is not reported. -/
def OwnSections.Late (o : OwnSections) : Prop :=
  ∃ mutex, ∃ events : List WordEvent, events.length ≤ 1 ∧
    ∀ p, o.applied p = o.completed p ++ if p = mutex then events else []

structure CriticalSound (x : PortMachine ι) : Prop extends CriticalInv x where
  late : ∀ i, (ownSections i x).Late

/-- Between its calls a thread holds no mutex and has nothing to report. -/
def Outside (i : ι) : PortMachine ι → Prop := Inside i protectMutex 0 []

abbrev CriticalSafe {α : Type} (i : ι) (program : PortM ι α) (post : α → PortMachine ι → Prop) :
    PortMachine ι → Prop :=
  Safe criticalSystem CriticalSound CriticalRely (fun _ _ _ ↦ True) i program post

section Steps

variable {i j : ι} {x y : PortMachine ι} {mutex mutex' depth p : ℕ} {events : List WordEvent}

theorem lockDepth_eq {m : OSMutex ι} (hm : x.world.mutexes p = some m) :
    lockDepth i x p = if m.owner = some i then m.count else 0 := by
  simp only [lockDepth, hm]

/-- At most one thread holds a mutex. -/
theorem lockDepth_unique (hi : 0 < lockDepth i x p) (hj : 0 < lockDepth j x p) : i = j := by
  cases hm : x.world.mutexes p with
  | none => simp [lockDepth, hm] at hi
  | some m =>
    rw [lockDepth_eq hm] at hi hj
    by_cases howner : m.owner = some i
    · by_cases hother : m.owner = some j
      · exact Option.some.inj (howner.symm.trans hother)
      · simp [hother] at hj
    · simp [howner] at hi

theorem Inside.other (h : Inside i mutex 0 [] x) (mutex' : ℕ) : Inside i mutex' 0 [] x where
  creating := h.creating
  depth p := (h.depth p).trans (by simp)
  applied p := (h.applied p).trans (by simp)

theorem Inside.late (h : Inside i mutex depth events x) (hlength : events.length ≤ 1) :
    (ownSections i x).Late := ⟨mutex, events, hlength, h.applied⟩

theorem stable_inside :
    Stable CriticalSound CriticalRely i (Inside i mutex depth events : PortMachine ι → Prop) := by
  intro x y hx hrely _
  rw [Inside, hrely.own]
  exact hx

/-- A step of one thread that leaves the others' part alone. -/
theorem guarantees_inside (hsound : CriticalSound x) (hinv : CriticalInv y)
    (hrely : ∀ j, j ≠ i → CriticalRely j x y) (hin : Inside i mutex depth events y)
    (hlength : events.length ≤ 1) : Guarantees CriticalSound CriticalRely i x y := by
  refine ⟨{ hinv with late := fun j ↦ ?_ }, hrely⟩
  by_cases hji : j = i
  · rw [hji]
    exact hin.late hlength
  · rw [(hrely j hji).own]
    exact hsound.late j

/-! ### Locking -/

/-- A mutex changes that is the thread's or no one's, and stays so. -/
theorem rely_setMutex {m m' : OSMutex ι} (hm : x.world.mutexes mutex = some m)
    (hbefore : m.owner = none ∨ m.owner = some i) (hafter : m'.owner = none ∨ m'.owner = some i)
    (hj : j ≠ i) : CriticalRely j x (setMutex x mutex m') := by
  have hnot : ∀ n : OSMutex ι, n.owner = none ∨ n.owner = some i → n.owner ≠ some j := by
    intro n hn hother
    rcases hn with hnone | hmine
    · cases hnone.symm.trans hother
    · exact hj (Option.some.inj (hother.symm.trans hmine))
  refine ⟨OwnSections.ext rfl (funext fun p ↦ ?_) rfl rfl, fun _ _ ↦ rfl,
    fun p hp ↦ update_some_ne_none _ hp⟩
  change lockDepth j (setMutex x mutex m') p = lockDepth j x p
  by_cases hp : p = mutex
  · subst hp
    rw [lockDepth_eq hm, lockDepth_eq (Function.update_self _ _ _), if_neg (hnot m hbefore),
      if_neg (hnot m' hafter)]
  · simp only [lockDepth, setMutex, Function.update_of_ne hp]

/-- After a mutex changed the thread is in as many sections as it has locked it. -/
theorem Inside.setMutex (h : Inside i mutex depth events x) {m' : OSMutex ι} {depth' : ℕ}
    (hdepth : (if m'.owner = some i then m'.count else 0) = depth') :
    Inside i mutex depth' events (setMutex x mutex m') where
  creating := h.creating
  applied := h.applied
  depth p := by
    change lockDepth i (Port.setMutex x mutex m') p = _
    by_cases hp : p = mutex
    · rw [if_pos hp, hp, lockDepth_eq (Function.update_self _ _ _), hdepth]
    · rw [if_neg hp]
      simp only [lockDepth, Port.setMutex, Function.update_of_ne hp]
      exact (h.depth p).trans (if_neg hp)

theorem Inside.lockDepth_self (h : Inside i mutex depth events x) :
    lockDepth i x mutex = depth := (h.depth mutex).trans (if_pos rfl)

theorem safe_osLockMutex (hlength : events.length ≤ 1) (hx : Inside i mutex depth events x) :
    CriticalSafe i (invoke (.osLockMutex mutex))
      (fun _ ↦ Inside i mutex (depth + 1) events) x := by
  refine (safe_bind _ _ _ _).mpr (safe_perform hx stable_inside fun y hy hinv ↦
    ⟨trivial, fun answer z hreply ↦ ?_⟩)
  obtain ⟨m, hm, hreply⟩ := Option.bind_eq_some_iff.mp hreply
  split at hreply
  · rename_i howner
    obtain rfl := Option.some.inj hreply
    have hcount : m.count = depth := by
      have hdepth := hy.lockDepth_self
      rw [lockDepth_eq hm] at hdepth
      rcases howner with hnone | hmine
      · rw [(hinv.owned _ _ hm).mp hnone]
        simpa [hnone] using hdepth
      · rwa [if_pos hmine] at hdepth
    have hin : Inside i mutex (depth + 1) events
        (setMutex y mutex { owner := some i, count := m.count + 1 }) :=
      hy.setMutex (by rw [if_pos rfl, hcount])
    refine ⟨guarantees_inside hinv (hinv.setMutex hm (by simp)) (fun j hj ↦ ?_) hin hlength, hin⟩
    exact rely_setMutex hm howner (.inr rfl) hj
  · cases hreply

theorem safe_osUnlockMutex (hlength : events.length ≤ 1)
    (hx : Inside i mutex (depth + 1) events x) :
    CriticalSafe i (invoke (.osUnlockMutex mutex)) (fun _ ↦ Inside i mutex depth events) x := by
  refine (safe_bind _ _ _ _).mpr (safe_perform hx stable_inside fun y hy hinv ↦
    ⟨trivial, fun answer z hreply ↦ ?_⟩)
  obtain ⟨m, hm, rfl⟩ := Option.map_eq_some_iff.mp hreply
  have hdepth := hy.lockDepth_self
  rw [lockDepth_eq hm] at hdepth
  have hmine : m.owner = some i := by
    by_contra hother
    rw [if_neg hother] at hdepth
    cases hdepth
  rw [if_pos hmine] at hdepth ⊢
  by_cases hlast : m.count = 1
  · obtain rfl : depth = 0 := by omega
    rw [if_pos hlast]
    have hin : Inside i mutex 0 events (setMutex y mutex {}) := hy.setMutex (if_neg (by simp))
    refine ⟨guarantees_inside hinv (hinv.setMutex hm (by simp)) (fun j hj ↦ ?_) hin hlength, hin⟩
    exact rely_setMutex hm (.inr hmine) (.inl rfl) hj
  · rw [if_neg hlast]
    have hin : Inside i mutex depth events
        (setMutex y mutex { owner := some i, count := m.count - 1 }) :=
      hy.setMutex (by rw [if_pos rfl, hdepth, Nat.add_sub_cancel])
    have howned : (some i = none) ↔ m.count - 1 = 0 := iff_of_false (by simp) (by omega)
    refine ⟨guarantees_inside hinv (hinv.setMutex hm howned) (fun j hj ↦ ?_) hin hlength, hin⟩
    exact rely_setMutex hm (.inr hmine) (.inr rfl) hj

/-! ### Accesses -/

/-- An access under the mutex, which no other thread holds. -/
theorem step_setWord (hsound : CriticalSound x) (hx : Inside i mutex depth [] x)
    (hdepth : 0 < depth) {event : WordEvent} {word : UInt32}
    (hstep : event.step (x.mem.word mutex) = some word) :
    Guarantees CriticalSound CriticalRely i x
        { x with mem := setWord i mutex word event x.mem } ∧
      Inside i mutex depth [event] { x with mem := setWord i mutex word event x.mem } := by
  have hin : Inside i mutex depth [event] { x with mem := setWord i mutex word event x.mem } := by
    refine ⟨hx.creating, hx.depth, fun p ↦ ?_⟩
    refine (update_append_apply _ _ _ p).trans ?_
    refine congrArg (· ++ _) ((hx.applied p).trans ?_)
    rw [ite_self, List.append_nil]
    rfl
  refine ⟨guarantees_inside hsound { hsound.toCriticalInv with replays := fun p ↦ ?_ }
    (fun j hj ↦ ⟨OwnSections.ext rfl rfl (funext fun p ↦ ?_) rfl, fun p hp ↦ ?_,
      fun _ h ↦ h⟩) hin (Nat.le_refl 1), hin⟩
  · simp only [setWord, PortHistory.apply]
    by_cases hp : p = mutex
    · rw [hp, Function.update_self, Function.update_self]
      exact (hsound.replays mutex).append i hstep
    · rw [Function.update_of_ne hp, Function.update_of_ne hp]
      exact hsound.replays p
  · exact update_apply_congr (byThread j) _ _ _ (byThread_append_of_ne (Ne.symm hj) _ _) p
  · refine Function.update_of_ne ?_ _ _
    rintro rfl
    exact hj (lockDepth_unique hp (hx.lockDepth_self.symm ▸ hdepth))

/-- The word stays while the thread holds the mutex. -/
theorem stable_word (hdepth : 0 < depth) (word : UInt32) :
    Stable CriticalSound CriticalRely i
      fun x : PortMachine ι ↦ Inside i mutex depth events x ∧ x.mem.word mutex = word := by
  intro x y hx hrely hsound
  refine ⟨stable_inside x y hx.1 hrely hsound, ?_⟩
  rw [hrely.word mutex (hx.1.lockDepth_self.symm ▸ hdepth)]
  exact hx.2

/-- A read and a write of the word; no access of another thread comes between them. -/
theorem safe_update (hx : Inside i mutex depth [] x) (hdepth : 0 < depth) {event : WordEvent}
    {change : UInt32 → UInt32} (hstep : ∀ word, event.step word = some (change word)) :
    CriticalSafe i (do
        let word ← load fun s ↦ s.word mutex
        store (setWord i mutex (change word) event)
        pure event) (fun event ↦ Inside i mutex depth [event]) x := by
  refine (safe_bind _ _ _ _).mpr (safe_load criticalRely_refl hx stable_inside
    fun y hy _ ↦ ?_)
  refine (safe_bind _ _ _ _).mpr (safe_store ⟨hy, rfl⟩ (stable_word hdepth (y.mem.word mutex))
    fun z hz hsound ↦ ?_)
  refine step_setWord hsound hz.1 hdepth ?_
  rw [hz.2]
  exact hstep (y.mem.word mutex)

theorem safe_touch (op : WordOp) (hx : Inside i mutex depth [] x) (hdepth : 0 < depth) :
    CriticalSafe i (touch i mutex op) (fun event ↦ Inside i mutex depth [event]) x := by
  cases op with
  | inc val => exact safe_update hx hdepth fun word ↦ rfl
  | dec val => exact safe_update hx hdepth fun word ↦ rfl
  | set val =>
    exact (safe_bind _ _ _ _).mpr (safe_store hx stable_inside fun y hy hsound ↦
      step_setWord hsound hy hdepth rfl)
  | get =>
    refine (safe_bind _ _ _ _).mpr (safe_access hx stable_inside fun y hy hsound ↦ ?_)
    have hfound : (WordEvent.read (y.mem.word mutex)).step (y.mem.word mutex) =
        some (y.mem.word mutex) := if_pos rfl
    have hread := step_setWord hsound hy hdepth hfound
    simp only [setWord, Function.update_eq_self] at hread
    exact hread

/-- Sections in sections. -/
theorem safe_nested {β : Type} {lock : PortM ι β} {unlock : β → PortM ι Unit}
    (hlock : ∀ (n : ℕ) (y : PortMachine ι), Inside i mutex n [] y →
      CriticalSafe i lock (fun _ ↦ Inside i mutex (n + 1) []) y)
    (hunlock : ∀ (level : β) (n : ℕ) (event : WordEvent) (y : PortMachine ι),
      Inside i mutex (n + 1) [event] y →
        CriticalSafe i (unlock level) (fun _ ↦ Inside i mutex n [event]) y)
    (op : WordOp) (more : ℕ) (hx : Inside i mutex depth [] x) (hpos : 0 < depth + more) :
    CriticalSafe i (nested lock unlock (touch i mutex op) more)
      (fun event ↦ Inside i mutex depth [event]) x := by
  induction more generalizing depth x with
  | zero => exact safe_touch op hx hpos
  | succ more ih =>
    refine (safe_bind _ _ _ _).mpr (safe_mono (hlock depth x hx) fun level y hy ↦ ?_)
    refine (safe_bind _ _ _ _).mpr (safe_mono (ih hy (by omega)) fun event z hz ↦ ?_)
    exact (safe_bind _ _ _ _).mpr (safe_mono (hunlock level depth event z hz) fun _ _ hu ↦ hu)

/-- The section has returned. -/
theorem safe_complete {event : WordEvent} (hx : Inside i mutex 0 [event] x) :
    CriticalSafe i (record fun h ↦ h.complete i mutex event) (fun _ ↦ Outside i) x := by
  refine safe_store hx stable_inside fun y hy hsound ↦ ?_
  have hin : Inside i mutex 0 []
      { y with mem := { y.mem with history := y.mem.history.complete i mutex event } } := by
    refine ⟨hy.creating, hy.depth, fun p ↦ (hy.applied p).trans ?_⟩
    simp only [ownSections, PortHistory.complete, Function.update_self]
    by_cases hp : p = mutex
    · simp [hp]
    · simp [hp]
  refine ⟨guarantees_inside hsound { hsound.toCriticalInv with } (fun j hj ↦ ?_) hin
    (Nat.zero_le 1), hin.other protectMutex⟩
  exact ⟨OwnSections.ext rfl rfl rfl (Function.update_of_ne hj _ _), fun _ _ ↦ rfl, fun _ h ↦ h⟩

/-! ### New mutexes -/

/-- A thread that creates a mutex. -/
structure MakesMutex (i : ι) (p : ℕ) (x : PortMachine ι) : Prop where
  creating : x.mem.history.creating i = some p
  depth : ∀ q, lockDepth i x q = 0
  applied : ∀ q, byThread i (x.mem.history.applied q) = x.mem.history.completed i q

theorem stable_makesMutex :
    Stable CriticalSound CriticalRely i (MakesMutex i p : PortMachine ι → Prop) := by
  intro x y hx hrely _
  have hown := hrely.own
  refine ⟨?_, fun q ↦ (hrely.depth q).trans (hx.depth q), fun q ↦ ?_⟩
  · exact (congrArg OwnSections.creating hown).trans hx.creating
  · refine (congrFun (congrArg OwnSections.applied hown) q).trans ((hx.applied q).trans ?_)
    exact (congrFun (congrArg OwnSections.completed hown) q).symm

/-- A step that is not about words. -/
theorem guarantees_quiet (hsound : CriticalSound x) (hinv : CriticalInv y)
    (hrely : ∀ j, j ≠ i → CriticalRely j x y)
    (happlied : y.mem.history.applied = x.mem.history.applied)
    (hcompleted : y.mem.history.completed = x.mem.history.completed) :
    Guarantees CriticalSound CriticalRely i x y := by
  refine ⟨{ hinv with late := fun j ↦ ?_ }, hrely⟩
  obtain ⟨mutex, events, hlength, happ⟩ := hsound.late j
  refine ⟨mutex, events, hlength, fun p ↦ ?_⟩
  simp only [ownSections, happlied, hcompleted]
  exact happ p

theorem safe_mallocMutex (hx : Outside i x) :
    CriticalSafe i (perform (.malloc .mutex)) (fun answer y ↦
      if answer.pointer = 0 then Outside i y else MakesMutex i answer.pointer y) x := by
  refine safe_perform hx stable_inside fun y hy hsound ↦ ⟨trivial, fun answer z hreply ↦ ?_⟩
  simp only [criticalSystem, portReplies, allocate] at hreply
  by_cases hnull : answer.pointer = 0
  · rw [if_pos hnull] at hreply ⊢
    obtain rfl := Option.some.inj hreply
    exact ⟨⟨hsound, fun j _ ↦ criticalRely_refl j y⟩, hy⟩
  rw [if_neg hnull] at hreply ⊢
  obtain ⟨heap, hheap, rfl⟩ := Option.map_eq_some_iff.mp hreply
  have hfree : y.world.heap.isOut answer.pointer = false := (Ledger.acquire_eq hheap).1
  have hiff := fun q ↦ Ledger.isOut_acquire_iff hsound.heap hheap (m := q)
  have hnone : y.world.mutexes answer.pointer = none := by
    by_contra hsome
    rw [hsound.mutex_out _ hsome hnull] at hfree
    cases hfree
  have hcases : ∀ k q,
      Function.update y.mem.history.creating i (some answer.pointer) k = some q →
        k = i ∧ q = answer.pointer ∨ q ≠ answer.pointer ∧ y.mem.history.creating k = some q := by
    intro k q hk
    by_cases hki : k = i
    · rw [hki, Function.update_self] at hk
      exact .inl ⟨hki, (Option.some.inj hk).symm⟩
    · rw [Function.update_of_ne hki] at hk
      refine .inr ⟨?_, hk⟩
      rintro rfl
      rw [(hsound.creating k _ hk).1] at hfree
      cases hfree
  refine ⟨guarantees_quiet hsound { hsound.toCriticalInv with
    heap := hsound.heap.acquire hheap
    nonnull := ?_
    mutex_out := fun q hq hne ↦ (hiff q).mpr (.inr (hsound.mutex_out q hq hne))
    creating := fun k q hk ↦ ?_
    creating_unique := fun j k q hj hk ↦ ?_ } (fun j hj ↦ ?_) rfl rfl,
    Function.update_self _ _ _, fun q ↦ (hy.depth q).trans (by simp),
    fun q ↦ (hy.applied q).trans ?_⟩
  · rw [Bool.eq_false_iff]
    intro hout
    rcases (hiff 0).mp hout with hzero | hold
    · exact hnull hzero.symm
    · exact Bool.false_ne_true (hsound.nonnull.symm.trans hold)
  · rcases hcases k q hk with ⟨-, rfl⟩ | ⟨-, hold⟩
    · exact ⟨(hiff _).mpr (.inl rfl), hnone⟩
    · exact ⟨(hiff q).mpr (.inr (hsound.creating k q hold).1), (hsound.creating k q hold).2⟩
  · rcases hcases j q hj with ⟨rfl, rfl⟩ | ⟨hne, hold⟩
    · rcases hcases k _ hk with ⟨rfl, -⟩ | ⟨hne, -⟩
      · rfl
      · exact absurd rfl hne
    · rcases hcases k q hk with ⟨-, rfl⟩ | ⟨-, hold'⟩
      · exact absurd rfl hne
      · exact hsound.creating_unique j k q hold hold'
  · exact ⟨OwnSections.ext (Function.update_of_ne hj _ _) rfl rfl rfl, fun _ _ ↦ rfl, fun _ h ↦ h⟩
  · rw [ite_self, List.append_nil]
    rfl

theorem safe_osInitMutex (hx : MakesMutex i p x) :
    CriticalSafe i (invoke (.osInitMutex p)) (fun _ ↦ Outside i) x := by
  refine (safe_bind _ _ _ _).mpr (safe_perform hx stable_makesMutex fun y hy hsound ↦
    ⟨trivial, fun answer z hreply ↦ ?_⟩)
  obtain rfl := Option.some.inj hreply
  obtain ⟨hout, hnone⟩ := hsound.creating i p hy.creating
  have hcases : ∀ k q, Function.update y.mem.history.creating i none k = some q →
      q ≠ p ∧ y.mem.history.creating k = some q := by
    intro k q hk
    by_cases hki : k = i
    · rw [hki, Function.update_self] at hk
      cases hk
    · rw [Function.update_of_ne hki] at hk
      refine ⟨?_, hk⟩
      rintro rfl
      exact hki (hsound.creating_unique k i q hk hy.creating)
  have hdepth : ∀ j q, lockDepth j (initMutex i y p) q = lockDepth j y q := by
    intro j q
    by_cases hq : q = p
    · subst hq
      rw [lockDepth_eq (Function.update_self _ _ _), if_neg (by simp)]
      simp only [lockDepth, hnone]
    · simp only [lockDepth, initMutex, Function.update_of_ne hq]
  refine ⟨guarantees_quiet hsound { hsound.toCriticalInv with
    mutex_out := fun q hq hne ↦ ?_
    creating := fun k q hk ↦ ?_
    creating_unique := fun j k q hj hk ↦
      hsound.creating_unique j k q (hcases j q hj).2 (hcases k q hk).2
    protect := update_some_ne_none _ hsound.protect
    owned := fun q m hm ↦ ?_ } (fun j hj ↦ ?_) rfl rfl, Function.update_self _ _ _, fun q ↦ ?_,
    fun q ↦ (hy.applied q).trans ?_⟩
  · by_cases hqp : q = p
    · rw [hqp]
      exact hout
    · exact hsound.mutex_out q (fun h ↦ hq ((Function.update_of_ne hqp _ _).trans h)) hne
  · obtain ⟨hne, hold⟩ := hcases k q hk
    exact ⟨(hsound.creating k q hold).1,
      (Function.update_of_ne hne _ _).trans (hsound.creating k q hold).2⟩
  · change Function.update y.world.mutexes p (some {}) q = some m at hm
    by_cases hqp : q = p
    · rw [hqp, Function.update_self] at hm
      exact Option.some.inj hm ▸ iff_of_true rfl rfl
    · rw [Function.update_of_ne hqp] at hm
      exact hsound.owned q m hm
  · exact ⟨OwnSections.ext (Function.update_of_ne hj _ _) (funext (hdepth j)) rfl rfl,
      fun _ _ ↦ rfl, fun _ hq ↦ update_some_ne_none _ hq⟩
  · exact (hdepth i q).trans ((hy.depth q).trans (by simp))
  · rw [ite_self, List.append_nil]
    rfl

theorem safe_sysMutexNew (hx : Outside i x) :
    CriticalSafe i sysMutexNew (fun _ ↦ Outside i) x := by
  refine (safe_bind _ _ _ _).mpr (safe_mono (safe_mallocMutex hx) fun answer y hy ↦ ?_)
  by_cases hnull : answer.pointer = 0
  · rw [if_pos hnull] at hy ⊢
    exact hy
  · rw [if_neg hnull] at hy ⊢
    exact (safe_bind _ _ _ _).mpr (safe_mono (safe_osInitMutex hy) fun _ _ hz ↦ hz)

theorem safe_criticalBody (operation : CriticalOp) (hx : Outside i x) :
    CriticalSafe i (criticalBody i operation) (fun _ ↦ Outside i) x := by
  have hnone : ([] : List WordEvent).length ≤ 1 := Nat.zero_le 1
  cases operation with
  | mutexNew => exact (safe_bind _ _ _ _).mpr (safe_mono (safe_sysMutexNew hx) fun _ _ hy ↦ hy)
  | locked mutex depth op =>
    refine (safe_bind _ _ _ _).mpr (safe_mono (safe_nested (fun n y hy ↦ ?_)
      (fun _ n event y hy ↦ ?_) op (depth + 1) (Inside.other hx mutex) (by omega))
        fun event y hy ↦ safe_complete hy)
    · exact safe_osLockMutex hnone hy
    · exact safe_osUnlockMutex (Nat.le_refl 1) hy
  | protect depth op =>
    refine (safe_bind _ _ _ _).mpr (safe_mono (safe_nested (fun n y hy ↦ ?_)
      (fun _ n event y hy ↦ ?_) op (depth + 1) hx (by omega)) fun event y hy ↦ safe_complete hy)
    · exact (safe_bind _ _ _ _).mpr
        (safe_mono (safe_osLockMutex hnone hy) fun _ _ hz ↦ hz)
    · exact safe_osUnlockMutex (Nat.le_refl 1) hy

end Steps

/-! ## Runs -/

section Runs

variable {i : ι} {x y : PortMachine ι} {p boot : ℕ}

/-- `sys_init` makes `protect_mutex`. -/
theorem exec_sysInit (hexec : Exec (portReplies i) sysInit (freshPort boot) () x) :
    x = initMutex i (freshPort boot) protectMutex := by
  have hwp : wp (portReplies i) (fun _ _ ↦ True) sysInit
      (fun _ y ↦ y = initMutex i (freshPort boot) protectMutex) (freshPort boot) := by
    simp only [sysInit, invoke, wp_bind, wp_perform, wp_pure]
    exact ⟨trivial, fun answer z hreply ↦ (Option.some.inj hreply).symm⟩
  exact hexec.post_of_wp hwp

theorem criticalSystem_verified (hinit : Exec (portReplies i) sysInit (freshPort boot) () x) :
    Verified criticalSystem x CriticalSound CriticalRely (fun _ _ _ ↦ True) Outside := by
  rw [exec_sysInit hinit]
  have hmutex : ∀ p, p ≠ protectMutex →
      (initMutex i (freshPort boot) protectMutex).world.mutexes p = none := fun p hp ↦
    Function.update_of_ne hp _ _
  have hself :
      (initMutex i (freshPort boot) protectMutex).world.mutexes protectMutex = some {} := by
    simp [initMutex]
  have hcreating : ∀ k,
      (initMutex i (freshPort boot) protectMutex).mem.history.creating k = none := by
    intro k
    simp [initMutex, PortHistory.setCreating, freshPort]
  have hidle : ∀ k, Outside k (initMutex i (freshPort boot) protectMutex) := by
    intro k
    refine ⟨hcreating k, fun p ↦ ?_, fun p ↦ by simp [ownSections, initMutex, freshPort, byThread,
      PortHistory.setCreating]⟩
    change lockDepth k (initMutex i (freshPort boot) protectMutex) p = _
    by_cases hp : p = protectMutex
    · rw [hp, lockDepth_eq hself]
      simp
    · simp only [lockDepth, hmutex p hp, ite_self]
  refine ⟨criticalRely_refl, criticalRely_trans, fun _ ↦ stable_inside,
    fun event ↦ event.elim, fun k operation y _ hy _ ↦ safe_criticalBody operation hy,
    ⟨⟨Ledger.holds_empty.coherent, rfl, fun p hp hne ↦ absurd (hmutex p hne) hp, fun k p hk ↦ ?_,
      fun j k p hj ↦ ?_, ?_, fun p m hm ↦ ?_, fun _ ↦ rfl⟩,
      fun k ↦ (hidle k).late (Nat.zero_le 1)⟩, hidle⟩
  · cases (hcreating k).symm.trans hk
  · cases (hcreating j).symm.trans hj
  · simp [hself]
  · by_cases hp : p = protectMutex
    · rw [hp, hself] at hm
      exact Option.some.inj hm ▸ iff_of_true rfl rfl
    · cases (hmutex p hp).symm.trans hm

/-- A mutex of `sys_mutex_new` is freed. -/
inductive FreesMutex (x y : PortMachine ι) : Prop where
  | mutex (i : ι) (p code : ℕ) (hvalid : sysMutexValid p = true)
      (hexists : x.world.mutexes p ≠ none)
      (hexec : Exec (portReplies i) (sysMutexFree p) x code y)

theorem Outside.freeBlock (h : Outside i x) : Outside i (freeBlock x p) where
  creating := h.creating
  applied := h.applied
  depth q := by
    refine Eq.trans ?_ (ite_self _).symm
    change lockDepth i (Port.freeBlock x p) q = 0
    by_cases hq : q = p
    · simp [lockDepth, Port.freeBlock, hq]
    · simp only [lockDepth, Port.freeBlock, Function.update_of_ne hq]
      exact (h.depth q).trans (ite_self _)

theorem CriticalSound.frees (hsound : CriticalSound x) (hidle : ∀ i, Outside i x)
    (h : FreesMutex x y) : CriticalSound y ∧ ∀ i, Outside i y := by
  obtain ⟨i, p, code, hvalid, hexists, hexec⟩ := h
  have hp : p ≠ 0 := of_decide_eq_true hvalid
  obtain ⟨-, rfl⟩ := exec_free hp hexec
  refine ⟨{ hsound.toCriticalInv.freeBlock hp fun i ↦ (hidle i).creating with
    late := fun i ↦ ?_ }, fun i ↦ (hidle i).freeBlock⟩
  exact (hidle i).freeBlock.late (Nat.zero_le 1)

abbrev CriticalConfig (ι : Type) := Config ι (PortState ι) (PortWorld ι) PortCall PortReply

/-- What the threads did under one mutex. -/
structure MutexAccounted (c : CriticalConfig ι) (p : ℕ) (m : OSMutex ι) : Prop where
  exclusive : ∀ i j, 0 < lockDepth i c.machine p → 0 < lockDepth j c.machine p → i = j
  /-- a thread leaves as many sections as it has entered -/
  idle : ∀ i, c.threads i = none → lockDepth i c.machine p = 0
  free : (∀ i, c.threads i = none) → m.owner = none ∧ m.count = 0
  /-- the accesses, one after the other, make the word what it is and read what they read -/
  replays : Replays (c.machine.mem.history.applied p) (c.machine.mem.word p)
  /-- they are the accesses of the completed sections, with at most one of each thread whose
  section is about to return -/
  completed : ∀ i, ∃ unreported : List WordEvent, unreported.length ≤ 1 ∧
    (c.threads i = none → unreported = []) ∧
    byThread i (c.machine.mem.history.applied p) =
      c.machine.mem.history.completed i p ++ unreported

/-- Sections of one mutex exclude each other at any depth, however the threads interleave and
whatever mutexes were created and freed before: no update of the word is lost, a read sees all
updates before it, and once the calls have returned every mutex is free. -/
theorem criticalSessions_accounted {initial : PortMachine ι}
    (hinit : Exec (portReplies i) sysInit (freshPort boot) () initial)
    (hx : Sessions criticalSystem FreesMutex initial x)
    {actions : List (Action ι CriticalOp Empty PortReply)} {c : CriticalConfig ι}
    (hrun : criticalSystem.run (System.start x) actions = some c) {m : OSMutex ι}
    (hm : c.machine.world.mutexes p = some m) : MutexAccounted c p m := by
  have hverified := Sessions.verified (criticalSystem_verified hinit)
    (fun _ _ hsound hidle ↦ hsound.frees hidle) hx
  have hholds := hverified.sound hrun
  have hidle : ∀ k, c.threads k = none → lockDepth k c.machine p = 0 := fun k hk ↦
    ((hholds.idle k hk).depth p).trans (ite_self _)
  have hsound := hholds.invariant
  refine ⟨fun _ _ ↦ lockDepth_unique, hidle, fun hall ↦ ?_, hsound.replays p, fun k ↦ ?_⟩
  · have hfree : m.owner = none := by
      by_contra howner
      obtain ⟨k, hk⟩ := Option.ne_none_iff_exists'.mp howner
      have hdepth := hidle k (hall k)
      rw [lockDepth_eq hm, if_pos hk] at hdepth
      exact howner ((hsound.owned p m hm).mpr hdepth)
    exact ⟨hfree, (hsound.owned p m hm).mp hfree⟩
  · cases hthread : c.threads k with
    | none =>
      refine ⟨[], Nat.zero_le 1, fun _ ↦ rfl, ((hholds.idle k hthread).applied p).trans ?_⟩
      rw [ite_self]
      rfl
    | some program =>
      obtain ⟨mutex, events, hlength, happlied⟩ := hsound.late k
      refine ⟨if p = mutex then events else [], ?_, by simp, happlied p⟩
      split
      · exact hlength
      · exact Nat.zero_le 1

end Runs

/-! ### Two threads at one word -/

/-- Thread 0 adds 1 in a section of another; thread 1, which adds 2, has to wait for both. -/
def scheduleNested : List (Action ℕ CriticalOp Empty PortReply) :=
  [.start 0 (.protect 1 (.inc 1)), .answer 0 {}, .answer 0 {}, .step 0,
    .start 1 (.protect 0 (.inc 2)), .step 0, .answer 0 {}, .answer 0 {}, .answer 1 {}, .step 1,
    .step 1, .answer 1 {}, .step 1, .step 1, .step 0, .step 0]

/-- No update is lost although the second section begins inside the first. -/
theorem criticalSessions_accounted_nested :
    ∃ c, criticalSystem.run (System.start (initMutex 0 (freshPort 0) protectMutex))
        scheduleNested = some c ∧
      c.machine.mem.word protectMutex = 3 ∧ MutexAccounted c protectMutex {} := by
  have hend : (criticalSystem.run (System.start (initMutex 0 (freshPort 0) protectMutex))
      scheduleNested).map
        (fun c ↦ (c.machine.mem.word protectMutex, c.machine.world.mutexes protectMutex)) =
      some (3, some {}) := rfl
  obtain ⟨c, hrun, hc⟩ := Option.map_eq_some_iff.mp hend
  obtain ⟨hword, hmutex⟩ := Prod.mk.inj hc
  have hinit : Exec (portReplies 0) sysInit (freshPort 0) ()
      (initMutex 0 (freshPort 0) protectMutex) := .call {} rfl (.done () _)
  exact ⟨c, hrun, hword, criticalSessions_accounted hinit .initial hrun hmutex⟩

end Ax88179Aroma.Port
