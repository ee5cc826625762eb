import Ax88179Aroma.Shim.Frames

/-!
# What a probe detects

A diagnostic probe records which public descriptors and which entries of `ai_owned` are in use when
it begins, and at its end looks for others.  The world keeps what the probe is after: the sockets
and the address lists that were created since it began, and under which numbers.
-/

namespace Ax88179Aroma.Shim.Probe

open Effect Program

variable {α : Type}

/-! ## The world -/

structure ProbeWorld where
  native : ℤ → Bool := fun _ ↦ false
  /-- the blocks of the heap in use -/
  blocks : ℕ → Bool := fun _ ↦ false
  /-- the lwIP descriptors of the sockets created since the probe began that are open -/
  sockets : ℤ → Bool := fun _ ↦ false
  /-- the public descriptors of these sockets, also of those closed since -/
  taken : ℕ → Bool := fun _ ↦ false
  /-- the heads of the lists built since the probe began that are not freed -/
  lists : ℕ → Bool := fun _ ↦ false
  /-- the entries of `ai_owned` filled since the probe began -/
  filled : ℕ → Bool := fun _ ↦ false

def ProbeWorld.openNative (w : ProbeWorld) (fd : ℤ) : Option ProbeWorld :=
  if fd < 0 then some w
  else if w.native fd = false then some { w with native := Function.update w.native fd true }
  else none

/-- What a call with a given answer does to the world. -/
def probeEffect (s : ShimState) (w : ProbeWorld) : ShimCall → ShimReply → Option ProbeWorld
  | .native (.socket _ _ _), answer => w.openNative answer.code
  | .native (.accept _ _ _), answer => w.openNative answer.code
  | .native (.socketclose fd), answer =>
    some (if answer.code = 0 then { w with native := Function.update w.native fd false } else w)
  | .lwip (.close lwfd), answer =>
    some (if answer.code = 0 then { w with sockets := Function.update w.sockets lwfd false } else w)
  | .os .malloc, answer =>
    if answer.code ≤ 0 then some w
    else if w.blocks answer.code.toNat = false then
      some { w with blocks := Function.update w.blocks answer.code.toNat true }
    else none
  | .os (.free pointer), _ =>
    some { w with
      blocks := Function.update w.blocks pointer false
      lists := Function.update w.lists pointer false }
  | .note (.tracked fd), _ =>
    some { w with
      sockets := Function.update w.sockets (s.mappedFd fd) true
      taken := Function.update w.taken fd true }
  | _, _ => some w

abbrev ProbeMachine := Machine ShimState ProbeWorld

def probeReply : Replies ShimState ProbeWorld ShimCall ShimReply := fun request answer x ↦
  (probeEffect x.mem x.world request answer).map fun w ↦ { x with world := w }

/-! ## Runs -/

inductive ProbeCall where
  | socket (domain type protocol : ℤ)
  | accept (sockfd : ℤ) (addr : Bool) (addrlen : Option ℕ)
  | socketclose (sockfd : ℤ)
  | getaddrinfo (node service : Option String) (hints : Option Addrinfo) (res : Bool)
  | freeaddrinfo (res fuel : ℕ)

namespace ProbeCall

def program : ProbeCall → ShimM ShimReply
  | .socket domain type protocol => hookSocket domain type protocol
  | .accept sockfd addr addrlen => hookAccept sockfd addr addrlen
  | .socketclose sockfd => hookSocketclose sockfd
  | .getaddrinfo node service hints res => hookGetaddrinfo node service hints res
  | .freeaddrinfo res fuel => hookFreeaddrinfo res fuel

/-- The history after a call from `x` to `y`: `getaddrinfo` returned a list of the shim when the
head was allocated in the call. -/
def record (x y : ProbeMachine) (r : ShimReply) : ProbeCall → ProbeWorld
  | .getaddrinfo _ _ _ _ => { y.world with
      lists := fun head ↦ y.world.lists head ||
        decide (head ≠ 0 ∧ (head : ℤ) ∈ r.results ∧
          y.world.blocks head = true ∧ x.world.blocks head = false)
      filled := fun i ↦ y.world.filled i ||
        decide (x.mem.aiOwned i = 0 ∧ y.mem.aiOwned i ≠ 0) }
  | _ => y.world

end ProbeCall

/-- Complete calls of the five functions, in any number and order. -/
inductive ProbeRun (x : ProbeMachine) : ProbeMachine → Prop where
  | refl : ProbeRun x x
  | call {y z : ProbeMachine} {r : ShimReply} (op : ProbeCall) (hrun : ProbeRun x y)
      (hexec : Exec probeReply op.program y r z) :
      ProbeRun x { z with world := op.record y z r }

/-- The history begins. -/
def watched (x : ProbeMachine) : ProbeMachine :=
  { x with world := { native := x.world.native, blocks := x.world.blocks } }

/-! ## The invariant -/

/-- What the probe and the five calls read and write. -/
structure ProbeTables where
  accepting : ℤ
  openMask : BitVec 32
  mappedFd : ℕ → ℤ
  baselineOpen : BitVec 32
  baselineAi : BitVec 32
  aiOwned : ℕ → ℕ

def probeTables (s : ShimState) : ProbeTables where
  accepting := s.acceptingSockets
  openMask := s.openMask
  mappedFd := s.mappedFd
  baselineOpen := s.probeBaselineOpenMask
  baselineAi := s.probeBaselineAiMask
  aiOwned := s.aiOwned

/-- The new sockets and lists are under numbers that are not in the baseline. -/
structure ProbeInv (before : BitVec 32 × BitVec 32) (t : ProbeTables) (w : ProbeWorld) : Prop where
  accepting : t.accepting ≠ 0
  baseline : (t.baselineOpen, t.baselineAi) = before
  placeholder : ∀ fd, t.openMask.getLsbD fd = true → before.1.getLsbD fd = false →
    w.native fd = true
  sockets : (∀ fd, before.1.getLsbD fd = true → w.taken fd = false) → ∀ lwfd,
    w.sockets lwfd = true →
      ∃ fd, t.openMask.getLsbD fd = true ∧ before.1.getLsbD fd = false ∧ t.mappedFd fd = lwfd
  lists : (∀ i < aiOwnedMax, before.2.getLsbD i = true → w.filled i = false) → ∀ head,
    w.lists head = true →
      head ≠ 0 ∧ ∃ i < aiOwnedMax, before.2.getLsbD i = false ∧ t.aiOwned i = head

/-- Calls that the probe does not depend on. -/
def Quiet : ShimCall → Prop
  | .native (.socket _ _ _) => False
  | .native (.accept _ _ _) => False
  | .native (.socketclose _) => False
  | .lwip (.close _) => False
  | .os .malloc => False
  | .os (.free _) => False
  | .note (.tracked _) => False
  | _ => True

theorem probeReply_quiet {request : ShimCall} (hquiet : Quiet request) {answer : ShimReply}
    {x y : ProbeMachine} (hreply : probeReply request answer x = some y) : y = x := by
  obtain ⟨w, heffect, rfl⟩ := Option.map_eq_some_iff.mp hreply
  have hsame : w = x.world := by
    unfold probeEffect at heffect
    split at heffect
    all_goals try first | exact False.elim hquiet
    exact (Option.some.inj heffect).symm
  rw [hsame]

/-- An assertion about what the probe depends on. -/
def At (P : ProbeTables → ProbeWorld → Prop) (x : ProbeMachine) : Prop :=
  P (probeTables x.mem) x.world

abbrev probeWp (program : ShimM α) (post : α → ProbeMachine → Prop) (x : ProbeMachine) : Prop :=
  wp probeReply (fun _ _ ↦ True) program post x

section Frames

variable {P : ProbeTables → ProbeWorld → Prop} {x : ProbeMachine} {allowed : ShimCall → Prop}

theorem probe_frame {program : ShimM α} (hkeeps : Keeps probeTables Quiet program) (hx : At P x) :
    probeWp program (fun _ ↦ At P) x := by
  refine wp_keeps hkeeps (fun y mem hmem hy ↦ ?_) (fun request answer y z hquiet hy hreply ↦ ?_)
    (fun _ _ _ _ ↦ trivial) hx
  · change P (probeTables mem) y.world
    rw [hmem]
    exact hy
  · rw [probeReply_quiet hquiet hreply]
    exact hy

/-- A call with its effect on the world. -/
theorem probe_perform {request : ShimCall} {post : ShimReply → ProbeMachine → Prop}
    (hpost : ∀ answer w, probeEffect x.mem x.world request answer = some w →
      post answer { x with world := w }) : probeWp (perform request) post x := by
  refine ⟨trivial, fun answer y hreply ↦ ?_⟩
  obtain ⟨w, heffect, rfl⟩ := Option.map_eq_some_iff.mp hreply
  exact hpost answer w heffect

theorem keeps_setErrno (error : ℤ) : Keeps probeTables allowed (setErrno error) :=
  keeps_store fun _ ↦ rfl

theorem keeps_lwip {request : LwipCall} (hallowed : allowed (.lwip request)) :
    Keeps probeTables allowed (lwip request) :=
  Keeps.bind (keeps_perform hallowed) fun _ ↦ Keeps.bind (keeps_setErrno _) fun _ ↦ keeps_pure _

theorem keeps_noteActivity : Keeps probeTables allowed noteActivity := by
  refine keeps_store fun s ↦ ?_
  split <;> rfl

theorem keeps_nsslRelayDetachPublicFd (fd : ℤ) :
    Keeps probeTables allowed (nsslRelayDetachPublicFd fd) := by
  unfold nsslRelayDetachPublicFd
  induction List.range nsslRelayMax with
  | nil => exact keeps_pure ()
  | cons slot rest ih =>
    refine Keeps.bind (keeps_loadRelay slot _) fun _ ↦ Keeps.ite ih ?_
    refine Keeps.bind (keeps_access fun s ↦ ?_) fun _ ↦ Keeps.ite (keeps_store fun _ ↦ rfl) ih
    unfold detachSlot
    split <;> rfl

end Frames

/-! ## Steps that keep the invariant -/

section Steps

variable {before : BitVec 32 × BitVec 32} {t : ProbeTables} {w w' : ProbeWorld}

theorem openNative_cases {n : ℤ} (h : w.openNative n = some w') :
    n < 0 ∧ w' = w ∨ 0 ≤ n ∧ w.native n = false ∧
      w' = { w with native := Function.update w.native n true } := by
  unfold ProbeWorld.openNative at h
  split at h
  · exact .inl ⟨‹_›, (Option.some.inj h).symm⟩
  · split at h
    · exact .inr ⟨by omega, ‹_›, (Option.some.inj h).symm⟩
    · cases h

theorem ProbeInv.openNative (h : ProbeInv before t w) {n : ℤ} (hopen : w.openNative n = some w') :
    ProbeInv before t w' := by
  obtain ⟨-, rfl⟩ | ⟨-, -, rfl⟩ := openNative_cases hopen
  · exact h
  · refine { h with placeholder := fun fd hfd hnew ↦ ?_ }
    by_cases hsame : (fd : ℤ) = n
    · exact hsame ▸ Function.update_self _ _ _
    · exact (Function.update_of_ne hsame _ _).trans (h.placeholder fd hfd hnew)

theorem ProbeInv.closeNative (h : ProbeInv before t w) {n : ℤ}
    (hfree : ∀ fd : ℕ, t.openMask.getLsbD fd = true → (fd : ℤ) ≠ n) :
    ProbeInv before t { w with native := Function.update w.native n false } :=
  { h with placeholder := fun fd hfd hnew ↦
      (Function.update_of_ne (hfree fd hfd) _ _).trans (h.placeholder fd hfd hnew) }

theorem eq_true_of_update_false {κ : Type} [DecidableEq κ] {f : κ → Bool} {i j : κ}
    (h : Function.update f i false j = true) : j ≠ i ∧ f j = true := by
  by_cases hsame : j = i
  · rw [hsame, Function.update_self] at h
    cases h
  · rw [Function.update_of_ne hsame] at h
    exact ⟨hsame, h⟩

theorem ProbeInv.closeLwip (h : ProbeInv before t w) (lwfd : ℤ) :
    ProbeInv before t { w with sockets := Function.update w.sockets lwfd false } :=
  { h with sockets := fun hnew other hother ↦
      h.sockets hnew other (eq_true_of_update_false hother).2 }

theorem ProbeInv.setBlocks (h : ProbeInv before t w) (blocks : ℕ → Bool) :
    ProbeInv before t { w with blocks := blocks } :=
  { h with }

theorem ProbeInv.dropList (h : ProbeInv before t w) (head : ℕ) :
    ProbeInv before t { w with lists := Function.update w.lists head false } :=
  { h with lists := fun hnew other hother ↦
      h.lists hnew other (eq_true_of_update_false hother).2 }

/-- A list that leaves the table has to be freed. -/
theorem ProbeInv.take (h : ProbeInv before t w) (i : ℕ) :
    ProbeInv before { t with aiOwned := Function.update t.aiOwned i 0 }
      { w with lists := Function.update w.lists (t.aiOwned i) false } := by
  refine { h with lists := fun hnew other hother ↦ ?_ }
  obtain ⟨hne, hlisted⟩ := eq_true_of_update_false hother
  obtain ⟨hnull, j, hj, hout, hholds⟩ := h.lists hnew other hlisted
  have hji : j ≠ i := fun hsame ↦ hne (by rw [← hholds, hsame])
  exact ⟨hnull, j, hj, hout, (Function.update_of_ne hji _ _).trans hholds⟩

/-- An empty entry is filled. -/
theorem ProbeInv.remember (h : ProbeInv before t w) {i : ℕ} (hempty : t.aiOwned i = 0) (head : ℕ) :
    ProbeInv before { t with aiOwned := Function.update t.aiOwned i head } w := by
  refine { h with lists := fun hnew other hother ↦ ?_ }
  obtain ⟨hnull, j, hj, hout, hholds⟩ := h.lists hnew other hother
  have hji : j ≠ i := fun hsame ↦ hnull (by rw [← hholds, hsame, hempty])
  exact ⟨hnull, j, hj, hout, (Function.update_of_ne hji _ _).trans hholds⟩

/-- New lists are in entries that were filled. -/
theorem ProbeInv.record (h : ProbeInv before t w) {lists filled : ℕ → Bool}
    (hfilled : ∀ i, w.filled i = true → filled i = true)
    (hlists : ∀ head, lists head = true → w.lists head = true ∨
      head ≠ 0 ∧ ∃ i < aiOwnedMax, t.aiOwned i = head ∧ filled i = true) :
    ProbeInv before t { w with lists := lists, filled := filled } := by
  refine { h with lists := fun hnew head hhead ↦ ?_ }
  have hearlier : ∀ i < aiOwnedMax, before.2.getLsbD i = true → w.filled i = false := by
    intro i hi hin
    by_contra hwas
    have hnow := hfilled i (by simpa using hwas)
    rw [show filled i = false from hnew i hi hin] at hnow
    cases hnow
  rcases hlists head hhead with hold | ⟨hnull, i, hi, hholds, hnow⟩
  · exact h.lists hearlier head hold
  · refine ⟨hnull, i, hi, ?_, hholds⟩
    by_contra hin
    rw [show filled i = false from hnew i hi (by simpa using hin)] at hnow
    cases hnow

/-- A new socket gets a number outside the baseline, or the promise is void. -/
theorem ProbeInv.track (h : ProbeInv before t w) {fd : ℕ} (hfd : fd < 32) (lwfd : ℤ)
    (hnative : w.native fd = true)
    (hfresh : t.openMask.getLsbD fd = false ∨ before.1.getLsbD fd = true) :
    ProbeInv before { t with
        mappedFd := Function.update t.mappedFd fd lwfd, openMask := t.openMask ||| bit fd }
      { w with
        sockets := Function.update w.sockets lwfd true
        taken := Function.update w.taken fd true } := by
  refine { h with
    placeholder := fun other hother hnew ↦ ?_
    sockets := fun hnew other hother ↦ ?_ }
  · rcases (getLsbD_or_bit hfd).mp hother with rfl | hmask
    · exact hnative
    · exact h.placeholder other hmask hnew
  · have hout : before.1.getLsbD fd = false := by
      by_contra hin
      have htaken : Function.update w.taken fd true fd = false := hnew fd (by simpa using hin)
      rw [Function.update_self] at htaken
      cases htaken
    have hearlier : ∀ k, before.1.getLsbD k = true → w.taken k = false := fun k hk ↦ by
      have hne : k ≠ fd := fun hsame ↦ by simp [hsame, hout] at hk
      rw [← hnew k hk]
      exact (Function.update_of_ne hne _ _).symm
    by_cases hsame : other = lwfd
    · subst hsame
      exact ⟨fd, (getLsbD_or_bit hfd).mpr (.inl rfl), hout, Function.update_self _ _ _⟩
    · have hold : w.sockets other = true := (Function.update_of_ne hsame _ _).symm.trans hother
      obtain ⟨k, hmask, hk, hmapped⟩ := h.sockets hearlier other hold
      have hne : k ≠ fd := fun hsame ↦ by simp [← hsame, hmask, hk] at hfresh
      exact ⟨k, (getLsbD_or_bit hfd).mpr (.inr hmask), hk,
        (Function.update_of_ne hne _ _).trans hmapped⟩

/-- A socket that was closed leaves the mask. -/
theorem ProbeInv.untrack (h : ProbeInv before t w) {fd : ℕ}
    (hclosed : w.sockets (t.mappedFd fd) = false) :
    ProbeInv before { t with openMask := t.openMask &&& ~~~ bit fd } w := by
  refine { h with
    placeholder := fun other hother ↦ h.placeholder other (getLsbD_and_not_bit.mp hother).2
    sockets := fun hnew other hother ↦ ?_ }
  obtain ⟨k, hmask, hk, hmapped⟩ := h.sockets hnew other hother
  refine ⟨k, getLsbD_and_not_bit.mpr ⟨fun hsame ↦ ?_, hmask⟩, hk, hmapped⟩
  rw [← hsame, hmapped, hother] at hclosed
  cases hclosed

end Steps

/-! ## Sockets -/

section Sockets

variable {before : BitVec 32 × BitVec 32} {x : ProbeMachine}

theorem probe_trackFd {fd : ℕ} {lwfd : ℤ} (hfd : fd < 32) (hx : At (ProbeInv before) x)
    (hnative : x.world.native fd = true)
    (hfresh : x.mem.openMask.getLsbD fd = false ∨ before.1.getLsbD fd = true) :
    probeWp (trackFd fd lwfd) (fun _ ↦ At (ProbeInv before)) x := by
  refine (wp_bind _ _ _ _).mpr ((wp_bind _ _ _ _).mpr ((wp_bind _ _ _ _).mpr ?_))
  refine (wp_bind _ _ _ _).mpr (probe_perform fun answer w heffect ↦ ?_)
  cases heffect
  have htracked := ProbeInv.track hx hfd lwfd hnative hfresh
  change ProbeInv before _ { x.world with
    sockets := Function.update x.world.sockets (Function.update x.mem.mappedFd fd lwfd fd) true
    taken := _ }
  rw [Function.update_self]
  exact htracked

theorem probe_placeholder (lwfd type protocol : ℤ) (hx : At (ProbeInv before) x) :
    probeWp (placeholder lwfd type protocol) (fun _ ↦ At (ProbeInv before)) x := by
  refine (wp_bind _ _ _ _).mpr (probe_perform fun fd w hopen ↦ ?_)
  have hinv : At (ProbeInv before) { x with world := w } := ProbeInv.openNative hx hopen
  refine wp_cases (fun hbad ↦ ?_) fun hgood ↦ ?_
  · have hclose : probeWp (when (fd.code ≥ 0) (ignore (native (.socketclose fd.code))))
        (fun _ ↦ At (ProbeInv before)) { x with world := w } := by
      refine wp_cases (fun hpos ↦ ?_) fun _ ↦ hinv
      refine (wp_bind _ _ _ _).mpr (probe_perform fun answer w' heffect ↦ ?_)
      cases heffect
      change ProbeInv before _ (if answer.code = 0 then _ else _)
      split
      · refine hinv.closeNative fun k hk ↦ ?_
        have := lt_of_getLsbD hk
        omega
      · exact hinv
    refine wp_seq hclose fun _ y hy ↦ ?_
    refine (wp_bind _ _ _ _).mpr ((wp_bind _ _ _ _).mpr ?_)
    refine (wp_bind _ _ _ _).mpr (probe_perform fun answer w' heffect ↦ ?_)
    cases heffect
    change ProbeInv before _ (if answer.code = 0 then _ else _)
    split
    · exact hy.closeLwip lwfd
    · exact hy
  · obtain ⟨hneg, -⟩ | ⟨hpos, hclosed, hw⟩ := openNative_cases hopen
    · omega
    have hcast : (fd.code.toNat : ℤ) = fd.code := Int.toNat_of_nonneg hpos
    have hnative : w.native (fd.code.toNat : ℤ) = true := by
      rw [hw, hcast]
      exact Function.update_self _ _ _
    refine wp_seq (probe_trackFd (by omega) hinv hnative ?_) fun _ y hy ↦ hy
    by_contra hcontra
    rw [not_or, Bool.not_eq_false, Bool.not_eq_true] at hcontra
    have hopened := ProbeInv.placeholder hx fd.code.toNat hcontra.1 hcontra.2
    rw [hcast, hclosed] at hopened
    cases hopened

theorem probe_callOpen {request : Export} (hx : At (ProbeInv before) x)
    (heffect : ∀ s w answer, probeEffect s w (.native request) answer = w.openNative answer.code) :
    probeWp (callNative request) (fun _ ↦ At (ProbeInv before)) x := by
  refine wp_seq (probe_frame (keeps_setErrno (-1)) hx) fun _ y hy ↦ ?_
  refine probe_perform fun answer w hopen ↦ ?_
  rw [heffect] at hopen
  exact ProbeInv.openNative hy hopen

theorem probe_hookSocket (domain type protocol : ℤ) (hx : At (ProbeInv before) x) :
    probeWp (hookSocket domain type protocol) (fun _ ↦ At (ProbeInv before)) x := by
  have hroute : Keeps probeTables Quiet (socketRoute domain) := by
    refine Keeps.bind (keeps_load _) fun _ ↦ Keeps.ite (keeps_pure _) ?_
    refine Keeps.bind keeps_shimAccepts fun _ ↦ Keeps.ite (keeps_pure _) ?_
    exact Keeps.bind (keeps_perform trivial) fun _ ↦ keeps_pure _
  have hsocket : Keeps probeTables Quiet (lwipSocket domain type protocol) := by
    refine Keeps.bind (keeps_lwip trivial) fun _ ↦ Keeps.ite ?_ (keeps_pure _)
    exact Keeps.bind (keeps_lwip trivial) fun _ ↦ keeps_pure _
  have hdefaults : ∀ s, Keeps probeTables Quiet (socketDefaults s (type % 16)) := fun s ↦
    Keeps.bind (keeps_ignore (keeps_lwip trivial)) fun _ ↦
      Keeps.bind (Keeps.when (keeps_ignore (keeps_lwip trivial))) fun _ ↦
        Keeps.when (keeps_ignore (keeps_lwip trivial))
  refine wp_seq (probe_frame hroute hx) fun route y hy ↦ wp_cases (fun _ ↦ ?_) fun _ ↦ ?_
  · exact probe_callOpen hy fun _ _ _ ↦ rfl
  refine wp_seq (probe_frame (keeps_setErrno 0) hy) fun _ y hy ↦ ?_
  refine wp_seq (probe_frame hsocket hy) fun s y hy ↦ wp_cases (fun _ ↦ hy) fun _ ↦ ?_
  refine wp_seq (probe_frame (hdefaults s) hy) fun _ y hy ↦ ?_
  refine wp_seq (probe_placeholder s _ protocol hy) fun fd y hy ↦ ?_
  cases fd with
  | none => exact hy
  | some fd => exact wp_seq (probe_frame keeps_noteActivity hy) fun _ _ hz ↦ hz

theorem probe_hookAccept (sockfd : ℤ) (addr : Bool) (addrlen : Option ℕ)
    (hx : At (ProbeInv before) x) :
    probeWp (hookAccept sockfd addr addrlen) (fun _ ↦ At (ProbeInv before)) x := by
  refine wp_seq (probe_frame (keeps_isForeign sockfd) hx) fun foreign y hy ↦ ?_
  refine wp_cases (fun _ ↦ probe_callOpen hy fun _ _ _ ↦ rfl) fun _ ↦ ?_
  refine wp_seq (probe_frame (keeps_setErrno 0) hy) fun _ y hy ↦ ?_
  refine wp_cases (fun _ ↦ probe_frame (Keeps.bind (keeps_setErrno efault) fun _ ↦ keeps_pure _) hy)
    fun _ ↦ ?_
  refine wp_seq (probe_frame (keeps_stackFd sockfd) hy) fun lwfd y hy ↦ ?_
  refine wp_seq (probe_frame (keeps_lwip trivial) hy) fun s y hy ↦ wp_cases (fun _ ↦ hy) fun _ ↦ ?_
  refine wp_seq (probe_frame (keeps_ignore (keeps_lwip trivial)) hy) fun _ y hy ↦ ?_
  refine wp_seq (probe_frame (keeps_ignore (keeps_lwip trivial)) hy) fun _ y hy ↦ ?_
  refine wp_seq (probe_placeholder s.code sockStream 0 hy) fun fd y hy ↦ ?_
  cases fd with
  | none => exact hy
  | some fd => exact hy

theorem probe_nativeClose {n : ℤ} (hx : At (ProbeInv before) x)
    (hfree : ∀ fd : ℕ, x.mem.openMask.getLsbD fd = true → (fd : ℤ) ≠ n) :
    probeWp (native (.socketclose n)) (fun _ ↦ At (ProbeInv before)) x := by
  refine probe_perform fun answer w heffect ↦ ?_
  cases heffect
  change ProbeInv before _ (if answer.code = 0 then _ else _)
  split
  · exact ProbeInv.closeNative hx hfree
  · exact hx

theorem probe_hookSocketclose (sockfd : ℤ) (hx : At (ProbeInv before) x) :
    probeWp (hookSocketclose sockfd) (fun _ ↦ At (ProbeInv before)) x := by
  have haccepting : x.mem.acceptingSockets ≠ 0 := ProbeInv.accepting hx
  refine (wp_bind _ _ _ _).mpr ((wp_bind _ _ _ _).mpr ((wp_bind _ _ _ _).mpr ?_))
  rw [wp_load, wp_pure, if_neg (by simpa using haccepting), wp_bind, wp_load, wp_pure]
  refine wp_cases (fun hforeign ↦ ?_) fun _ ↦ ?_
  · -- a descriptor outside the mask
    have hfree : ∀ fd : ℕ, x.mem.openMask.getLsbD fd = true → (fd : ℤ) ≠ sockfd := by
      rintro fd hfd rfl
      have := lt_of_getLsbD hfd
      simp only [decide_eq_true_eq, Int.toNat_natCast] at hforeign
      exact hforeign ⟨by omega, by omega, hfd⟩
    have hx : At (fun t w ↦ ProbeInv before t w ∧
        ∀ fd : ℕ, t.openMask.getLsbD fd = true → (fd : ℤ) ≠ sockfd) x := ⟨hx, hfree⟩
    have hforget : Keeps probeTables Quiet (forgetNative sockfd.toNat) :=
      Keeps.bind (keeps_store fun _ ↦ rfl) fun _ ↦
        Keeps.bind (keeps_store fun _ ↦ rfl) fun _ ↦ keeps_store fun _ ↦ rfl
    refine wp_seq (probe_frame (Keeps.when hforget) hx) fun _ y hy ↦ ?_
    refine wp_seq (probe_frame (keeps_nsslRelayDetachPublicFd sockfd) hy) fun _ y hy ↦ ?_
    refine wp_seq (probe_frame (keeps_setErrno (-1)) hy) fun _ y hy ↦ ?_
    exact probe_nativeClose hy.1 hy.2
  · refine wp_seq (probe_frame (keeps_setErrno 0) hx) fun _ y hy ↦ ?_
    have hclose : probeWp (lwip (.close (y.mem.mappedFd sockfd.toNat))) (fun r ↦ At fun t w ↦
        ProbeInv before t w ∧ (r.code = 0 → w.sockets (t.mappedFd sockfd.toNat) = false)) y := by
      refine (wp_bind _ _ _ _).mpr (probe_perform fun r w heffect ↦ ?_)
      cases heffect
      refine (wp_bind _ _ _ _).mpr ⟨?_, fun hcode ↦ ?_⟩
      · change ProbeInv before _ (if r.code = 0 then _ else _)
        split
        · exact ProbeInv.closeLwip hy _
        · exact hy
      · change ProbeWorld.sockets (if r.code = 0 then _ else _) _ = false
        rw [if_pos hcode]
        exact Function.update_self _ _ _
    refine (wp_bind _ _ _ _).mpr (wp_seq hclose fun r z hz ↦ ?_)
    have hrest : probeWp (when (r.code = 0) do
        untrackFd sockfd.toNat
        ignore (native (.socketclose sockfd))) (fun _ ↦ At (ProbeInv before)) z := by
      refine wp_cases (fun hcode ↦ ?_) fun _ ↦ hz.1
      have huntracked : At (ProbeInv before) { z with
          mem := { z.mem with openMask := z.mem.openMask &&& ~~~ bit sockfd.toNat } } :=
        hz.1.untrack (hz.2 hcode)
      refine (wp_bind _ _ _ _).mpr ((wp_bind _ _ _ _).mpr ?_)
      refine probe_nativeClose huntracked fun fd hfd hsame ↦ ?_
      exact (getLsbD_and_not_bit.mp hfd).1 (by rw [← hsame, Int.toNat_natCast])
    exact wp_seq hrest fun _ _ h ↦ h

end Sockets

/-! ## Address lists -/

section Lists

variable {before : BitVec 32 × BitVec 32} {x : ProbeMachine} {owned : ℕ → ℕ}

/-- The invariant with the table of lists. -/
def Owning (before : BitVec 32 × BitVec 32) (owned : ℕ → ℕ) (t : ProbeTables) (w : ProbeWorld) :
    Prop :=
  ProbeInv before t w ∧ t.aiOwned = owned

/-- Freeing a block is all that was missing for the invariant, or it was not. -/
theorem probe_free {pointer : ℕ} (hx : At (fun t w ↦ Owning before owned t
      { w with lists := Function.update w.lists pointer false }) x) :
    probeWp (ignore (os (.free pointer))) (fun _ ↦ At (Owning before owned)) x := by
  refine (wp_bind _ _ _ _).mpr (probe_perform fun answer w heffect ↦ ?_)
  cases heffect
  exact ⟨hx.1.setBlocks _, hx.2⟩

theorem Owning.dropList {t : ProbeTables} {w : ProbeWorld} (h : Owning before owned t w)
    (head : ℕ) : Owning before owned t { w with lists := Function.update w.lists head false } :=
  ⟨h.1.dropList head, h.2⟩

theorem probe_freeNodes (fuel node : ℕ) (hx : At (Owning before owned) x) :
    probeWp (freeNodes fuel node) (fun _ ↦ At (Owning before owned)) x := by
  induction fuel generalizing node x with
  | zero => trivial
  | succ fuel ih =>
    refine wp_cases (fun _ ↦ hx) fun _ ↦ (wp_bind _ _ _ _).mpr ?_
    exact wp_seq (probe_free (hx.dropList node)) fun _ y hy ↦ ih _ hy

/-- A list whose head has left the table is freed from its head on. -/
theorem probe_freeList {head : ℕ} (fuel : ℕ) (hnull : head ≠ 0)
    (hx : At (fun t w ↦ Owning before owned t
      { w with lists := Function.update w.lists head false }) x) :
    probeWp (freeNodes fuel head) (fun _ ↦ At (Owning before owned)) x := by
  cases fuel with
  | zero => trivial
  | succ fuel =>
    refine wp_cases (fun hzero ↦ absurd hzero hnull) fun _ ↦ (wp_bind _ _ _ _).mpr ?_
    exact wp_seq (probe_free hx) fun _ y hy ↦ probe_freeNodes fuel _ hy

theorem probe_hookFreeaddrinfo (res fuel : ℕ) (hx : At (ProbeInv before) x) :
    probeWp (hookFreeaddrinfo res fuel) (fun _ ↦ At (ProbeInv before)) x := by
  have hnative : probeWp (native (.freeaddrinfo res)) (fun _ ↦ At (ProbeInv before)) x :=
    probe_frame (keeps_perform trivial) hx
  refine (wp_bind _ _ _ _).mpr (wp_cases (fun _ ↦ hnative) fun hnull ↦ ?_)
  refine wp_swapAny (fun i _ hholds ↦ ?_) hnative
  have htaken := ProbeInv.take hx i
  rw [show (probeTables x.mem).aiOwned i = res from hholds] at htaken
  exact wp_seq (probe_freeList fuel hnull ⟨htaken, rfl⟩) fun _ y hy ↦ hy.1

theorem probe_convertInfos (infos : List Addrinfo) (nodes : List ℕ)
    (hx : At (Owning before owned) x) :
    probeWp (convertInfos infos nodes) (fun _ ↦ At (Owning before owned)) x := by
  induction infos generalizing nodes x with
  | nil => exact hx
  | cons info rest ih =>
    refine (wp_bind _ _ _ _).mpr (probe_perform fun node w heffect ↦ ?_)
    have hw : At (Owning before owned) { x with world := w } := by
      simp only [probeEffect] at heffect
      split at heffect
      · cases heffect
        exact hx
      · split at heffect
        · cases heffect
          exact ⟨hx.1.setBlocks _, hx.2⟩
        · cases heffect
    exact wp_cases (fun _ ↦ hw) fun _ ↦ (wp_bind _ _ _ _).mpr (ih _ hw)

theorem probe_dropInfos (nodes : List ℕ) (hx : At (Owning before owned) x) :
    probeWp (dropInfos nodes) (fun r y ↦ r.results = [] ∧ At (Owning before owned) y) x := by
  refine wp_seq (probe_frame (keeps_ignore (keeps_lwip trivial)) hx) fun _ y hy ↦ ?_
  have hfrees : probeWp (each (fun node ↦ ignore (os (.free node))) nodes)
      (fun _ ↦ At (Owning before owned)) y :=
    wp_each hy fun node _ z hz ↦ probe_free (hz.dropList node)
  exact wp_seq hfrees fun _ z hz ↦ ⟨rfl, hz⟩

/-- What `getaddrinfo` can do: nothing to the table, or one entry is filled with the head of the
list that it returns. -/
def Looked (x : ProbeMachine) (r : ShimReply) (y : ProbeMachine) : Prop :=
  (r.results = [] ∨ y.world.blocks = x.world.blocks) ∧ y.mem.aiOwned = x.mem.aiOwned ∨
    ∃ head : ℕ, ∃ i < aiOwnedMax, r.results = [(head : ℤ)] ∧ x.mem.aiOwned i = 0 ∧
      y.mem.aiOwned = Function.update x.mem.aiOwned i head

theorem probe_shimGetaddrinfoSync (node service : Option String) (hints : Option Addrinfo)
    (res : Bool) (hx : At (Owning before owned) x) :
    probeWp (shimGetaddrinfoSync node service hints res) (fun r y ↦ At (ProbeInv before) y ∧
      (r.results = [] ∧ y.mem.aiOwned = owned ∨ ∃ head : ℕ, ∃ i < aiOwnedMax,
        r.results = [(head : ℤ)] ∧ owned i = 0 ∧ y.mem.aiOwned = Function.update owned i head))
      x := by
  refine wp_cases (fun _ ↦ ⟨hx.1, .inl ⟨rfl, hx.2⟩⟩) fun _ ↦ ?_
  refine wp_seq (probe_frame (keeps_lwip trivial) hx) fun lres y hy ↦ ?_
  refine wp_cases (fun _ ↦ ⟨hy.1, .inl ⟨rfl, hy.2⟩⟩) fun _ ↦ ?_
  refine wp_seq (probe_convertInfos lres.infos [] hy) fun built z hz ↦ ?_
  have hdrop : probeWp (dropInfos built.2) (fun r y ↦ At (ProbeInv before) y ∧
      (r.results = [] ∧ y.mem.aiOwned = owned ∨ ∃ head : ℕ, ∃ i < aiOwnedMax,
        r.results = [(head : ℤ)] ∧ owned i = 0 ∧ y.mem.aiOwned = Function.update owned i head))
      z :=
    wp_mono (probe_dropInfos built.2 hz) fun r y hy ↦ ⟨hy.2.1, .inl ⟨hy.1, hy.2.2⟩⟩
  refine wp_cases (fun _ ↦ hdrop) fun _ ↦ ?_
  refine (wp_bind _ _ _ _).mpr (wp_swapAny (fun i hi hfree ↦ ?_) hdrop)
  have hown : z.mem.aiOwned = owned := hz.2
  have hkept : At (Owning before (Function.update owned i (built.2.headD 0))) { z with
      mem := { z.mem with aiOwned := Function.update z.mem.aiOwned i (built.2.headD 0) } } :=
    ⟨hz.1.remember hfree _, by rw [← hown]; rfl⟩
  refine wp_seq (probe_frame (keeps_ignore (keeps_lwip trivial)) hkept) fun _ y hy ↦ ?_
  refine ⟨hy.1, .inr ⟨built.2.headD 0, i, List.mem_range.mp hi, rfl, ?_, hy.2⟩⟩
  rw [← hown]
  exact hfree

theorem probe_hookGetaddrinfo (node service : Option String) (hints : Option Addrinfo)
    (res : Bool) (hx : At (ProbeInv before) x) :
    probeWp (hookGetaddrinfo node service hints res)
      (fun r y ↦ At (ProbeInv before) y ∧ Looked x r y) x := by
  have hx : At (fun t w ↦ Owning before x.mem.aiOwned t w ∧ w.blocks = x.world.blocks) x :=
    ⟨⟨hx, rfl⟩, rfl⟩
  have hroute : Keeps probeTables Quiet dnsRoute :=
    Keeps.bind keeps_shimAccepts fun _ ↦ Keeps.ite (keeps_pure _) <|
      Keeps.bind (keeps_perform trivial) fun _ ↦ keeps_pure _
  refine wp_seq (probe_frame hroute hx) fun route y hy ↦ wp_cases (fun _ ↦ ?_) fun _ ↦ ?_
  · refine wp_mono (probe_shimGetaddrinfoSync node service hints res hy.1) fun r z hz ↦ ?_
    refine ⟨hz.1, hz.2.imp (fun hempty ↦ ⟨.inl hempty.1, hempty.2⟩) id⟩
  · refine wp_mono (probe_frame (keeps_perform trivial) hy) fun r z hz ↦ ?_
    exact ⟨hz.1.1, .inl ⟨.inr hz.2, hz.1.2⟩⟩

/-- The history after `getaddrinfo`. -/
theorem Looked.record {y : ProbeMachine} {r : ShimReply} (h : Looked x r y)
    (hy : At (ProbeInv before) y) (node service : Option String) (hints : Option Addrinfo)
    (res : Bool) :
    ProbeInv before (probeTables y.mem)
      ((ProbeCall.getaddrinfo node service hints res).record x y r) := by
  refine ProbeInv.record hy (fun i hi ↦ by rw [hi]; rfl) fun head hhead ↦ ?_
  rcases Bool.or_eq_true_iff.mp hhead with hold | hnew
  · exact .inl hold
  obtain ⟨hnull, hresult, hblock, hwas⟩ := of_decide_eq_true hnew
  refine .inr ⟨hnull, ?_⟩
  rcases h with ⟨hempty | hblocks, -⟩ | ⟨head', i, hi, hresults, hfree, howned⟩
  · rw [hempty] at hresult
    cases hresult
  · rw [hblocks, hwas] at hblock
    cases hblock
  · rw [hresults, List.mem_singleton, Int.natCast_inj] at hresult
    subst hresult
    have hholds : y.mem.aiOwned i = head := by rw [howned, Function.update_self]
    refine ⟨i, hi, hholds, ?_⟩
    rw [decide_eq_true (⟨hfree, hholds ▸ hnull⟩ : x.mem.aiOwned i = 0 ∧ y.mem.aiOwned i ≠ 0)]
    exact Bool.or_true _

end Lists

/-! ## The probe -/

section Probe

variable {before : BitVec 32 × BitVec 32} {x y z : ProbeMachine}

/-- One call keeps the invariant, with its history. -/
theorem probeInv_call {op : ProbeCall} {r : ShimReply} (hx : At (ProbeInv before) x)
    (hexec : Exec probeReply op.program x r y) :
    At (ProbeInv before) { y with world := op.record x y r } := by
  cases op with
  | socket domain type protocol => exact hexec.post_of_wp (probe_hookSocket domain type protocol hx)
  | accept sockfd addr addrlen => exact hexec.post_of_wp (probe_hookAccept sockfd addr addrlen hx)
  | socketclose sockfd => exact hexec.post_of_wp (probe_hookSocketclose sockfd hx)
  | freeaddrinfo res fuel => exact hexec.post_of_wp (probe_hookFreeaddrinfo res fuel hx)
  | getaddrinfo node service hints res =>
    obtain ⟨hy, hlooked⟩ := hexec.post_of_wp (probe_hookGetaddrinfo node service hints res hx)
    exact hlooked.record hy node service hints res

theorem probeInv_run (hx : At (ProbeInv before) x) (hrun : ProbeRun x y) :
    At (ProbeInv before) y := by
  induction hrun with
  | refl => exact hx
  | call op _ hexec ih => exact probeInv_call ih hexec

theorem probe_probeAiMask (items : List ℕ) (hitems : ∀ i ∈ items, i < 32) :
    probeWp (probeAiMask items) (fun mask y ↦ y = x ∧
      ∀ i, mask.getLsbD i = true ↔ i ∈ items ∧ x.mem.aiOwned i ≠ 0) x := by
  induction items with
  | nil => exact ⟨rfl, fun i ↦ by simp⟩
  | cons i rest ih =>
    refine (wp_bind _ _ _ _).mpr ?_
    refine wp_seq (ih fun j hj ↦ hitems j (List.mem_cons_of_mem i hj)) ?_
    rintro mask y ⟨rfl, hmask⟩
    refine ⟨rfl, fun j ↦ ?_⟩
    change (if y.mem.aiOwned i = 0 then mask else mask ||| bit i).getLsbD j = true ↔ _
    by_cases hempty : y.mem.aiOwned i = 0
    · rw [if_pos hempty, hmask, List.mem_cons]
      constructor
      · rintro ⟨hj, hused⟩
        exact ⟨.inr hj, hused⟩
      · rintro ⟨rfl | hj, hused⟩
        · exact absurd hempty hused
        · exact ⟨hj, hused⟩
    · rw [if_neg hempty, getLsbD_or_bit (hitems i List.mem_cons_self), hmask, List.mem_cons]
      constructor
      · rintro (rfl | ⟨hj, hused⟩)
        · exact ⟨.inl rfl, hempty⟩
        · exact ⟨.inr hj, hused⟩
      · rintro ⟨rfl | hj, hused⟩
        · exact .inl rfl
        · exact .inr ⟨hj, hused⟩

/-- The entries in use, as the probe reads them. -/
theorem probe_entries : probeWp (probeAiMask (List.range aiOwnedMax)) (fun mask y ↦ y = x ∧
    ∀ i, mask.getLsbD i = true ↔ i < aiOwnedMax ∧ x.mem.aiOwned i ≠ 0) x := by
  have hitems : ∀ i ∈ List.range aiOwnedMax, i < 32 := by decide
  refine wp_mono (probe_probeAiMask _ hitems) fun mask y hy ↦ ⟨hy.1, fun i ↦ ?_⟩
  rw [hy.2 i, List.mem_range]

/-- `nsysnet_shim_begin_probe` records what is in use when it returns. -/
theorem begins_baseline (hbegin : Exec probeReply nsysnetShimBeginProbe x 0 y) :
    y.mem.acceptingSockets ≠ 0 ∧ y.mem.probeBaselineOpenMask = y.mem.openMask ∧
      ∀ i, y.mem.probeBaselineAiMask.getLsbD i = true ↔
        i < aiOwnedMax ∧ y.mem.aiOwned i ≠ 0 := by
  suffices hwp : probeWp nsysnetShimBeginProbe (fun code y ↦ code = 0 →
      y.mem.acceptingSockets ≠ 0 ∧ y.mem.probeBaselineOpenMask = y.mem.openMask ∧
        ∀ i, y.mem.probeBaselineAiMask.getLsbD i = true ↔ i < aiOwnedMax ∧ y.mem.aiOwned i ≠ 0) x
    from hbegin.post_of_wp hwp rfl
  refine (wp_bind _ _ _ _).mpr (wp_cases (fun _ ↦ nofun) fun _ ↦ ?_)
  refine wp_seq (wp_trivial fun _ _ ↦ trivial) fun ready y₁ _ ↦ wp_cases (fun _ ↦ nofun) fun _ ↦ ?_
  refine (wp_bind _ _ _ _).mpr (wp_seq (wp_trivial fun _ _ ↦ trivial) fun result y₂ _ ↦ ?_)
  refine wp_cases (fun _ ↦ nofun) fun _ ↦ (wp_bind _ _ _ _).mpr ((wp_store _ _ _).mpr ?_)
  refine wp_seq probe_entries ?_
  rintro mask _ ⟨rfl, hmask⟩
  refine (wp_bind _ _ _ _).mpr ((wp_bind _ _ _ _).mpr (probe_perform fun thread w heffect ↦ ?_))
  cases heffect
  exact fun _ ↦ ⟨Int.one_ne_zero, rfl, hmask⟩

/-- `nsysnet_shim_end_probe` returns 0 only where nothing is in use that was not recorded. -/
theorem ends_clean {fuel : ℕ} (hend : Exec probeReply (nsysnetShimEndProbe fuel) x 0 y) :
    (∀ fd, x.mem.openMask.getLsbD fd = true → x.mem.probeBaselineOpenMask.getLsbD fd = true) ∧
      ∀ i < aiOwnedMax, x.mem.aiOwned i ≠ 0 → x.mem.probeBaselineAiMask.getLsbD i = true := by
  have hsubset : ∀ mask baseline : BitVec 32, mask &&& ~~~ baseline = 0 →
      ∀ i, mask.getLsbD i = true → baseline.getLsbD i = true := by
    intro mask baseline hzero i hi
    have hbit : (mask &&& ~~~ baseline).getLsbD i = false := by
      rw [hzero]
      exact BitVec.getLsbD_zero
    rw [BitVec.getLsbD_and, BitVec.getLsbD_not, hi] at hbit
    simpa [lt_of_getLsbD hi] using hbit
  suffices hwp : probeWp (nsysnetShimEndProbe fuel) (fun code _ ↦ code = 0 →
      (∀ fd, x.mem.openMask.getLsbD fd = true → x.mem.probeBaselineOpenMask.getLsbD fd = true) ∧
        ∀ i < aiOwnedMax, x.mem.aiOwned i ≠ 0 → x.mem.probeBaselineAiMask.getLsbD i = true) x
    from hend.post_of_wp hwp rfl
  refine (wp_bind _ _ _ _).mpr ((wp_bind _ _ _ _).mpr (probe_perform fun thread w heffect ↦ ?_))
  cases heffect
  refine wp_cases (fun _ ↦ nofun) fun _ ↦ (wp_bind _ _ _ _).mpr ((wp_bind _ _ _ _).mpr ?_)
  refine wp_cases (fun _ ↦ nofun) fun hopen ↦ (wp_bind _ _ _ _).mpr ((wp_load _ _ _).mpr ?_)
  refine wp_seq probe_entries ?_
  rintro mask _ ⟨rfl, hmask⟩
  refine wp_cases (fun _ ↦ nofun) fun hentries ↦ ?_
  refine wp_mono (wp_trivial fun _ _ ↦ trivial) fun _ _ _ _ ↦ ?_
  refine ⟨hsubset _ _ (not_not.mp hopen), fun i hi hused ↦ ?_⟩
  exact hsubset _ _ (not_not.mp hentries) i ((hmask i).mpr ⟨hi, hused⟩)

end Probe

/-- A probe that ends with 0: from `x`, begun at `y`, with complete calls up to `z`. -/
structure Session (x y z : ProbeMachine) : Prop where
  begins : Exec probeReply nsysnetShimBeginProbe x 0 y
  calls : ProbeRun (watched y) z
  ends : ∃ fuel z', Exec probeReply (nsysnetShimEndProbe fuel) z 0 z'

/-- A probe that ends with 0 left no socket open and no list unfreed, unless one of them got the
number of a socket or the entry of a list that was there when the probe began. -/
theorem endProbe_detects_leaks {x y z : ProbeMachine} (h : Session x y z)
    (hnumbers : ∀ fd, y.mem.openMask.getLsbD fd = true → z.world.taken fd = false)
    (hentries : ∀ i < aiOwnedMax, y.mem.aiOwned i ≠ 0 → z.world.filled i = false) :
    (∀ lwfd, z.world.sockets lwfd = false) ∧ ∀ head, z.world.lists head = false := by
  obtain ⟨haccepting, hbaseline, hused⟩ := begins_baseline h.begins
  have hstart : At (ProbeInv (y.mem.openMask, y.mem.probeBaselineAiMask)) (watched y) := by
    refine ⟨haccepting, by rw [← hbaseline]; rfl, fun fd hfd hnew ↦ ?_, nofun, nofun⟩
    rw [show y.mem.openMask.getLsbD fd = true from hfd] at hnew
    cases hnew
  have hinv := probeInv_run hstart h.calls
  obtain ⟨fuel, z', hend⟩ := h.ends
  obtain ⟨hopen, howned⟩ := ends_clean hend
  obtain ⟨hmask, hai⟩ := Prod.mk.inj hinv.baseline
  replace hmask : z.mem.probeBaselineOpenMask = y.mem.openMask := hmask
  replace hai : z.mem.probeBaselineAiMask = y.mem.probeBaselineAiMask := hai
  refine ⟨fun lwfd ↦ ?_, fun head ↦ ?_⟩
  · by_contra hleak
    obtain ⟨fd, hfd, hnew, -⟩ := hinv.sockets hnumbers lwfd (by simpa using hleak)
    have hold := hopen fd hfd
    rw [hmask, show y.mem.openMask.getLsbD fd = false from hnew] at hold
    cases hold
  · by_contra hleak
    have hfresh : ∀ i < aiOwnedMax, y.mem.probeBaselineAiMask.getLsbD i = true →
        z.world.filled i = false := fun i hi hin ↦ hentries i hi ((hused i).mp hin).2
    obtain ⟨hnull, i, hi, hnew, hholds⟩ := hinv.lists hfresh head (by simpa using hleak)
    have hold := howned i hi (by rw [show z.mem.aiOwned i = head from hholds]; exact hnull)
    rw [hai, show y.mem.probeBaselineAiMask.getLsbD i = false from hnew] at hold
    cases hold

/-! ## Concrete probes -/

/-- Execute complete calls on given replies. -/
def runCalls : List (ProbeCall × List ShimReply) → ProbeMachine → Option ProbeMachine
  | [], x => some x
  | (op, answers) :: rest, x =>
    match run probeReply op.program answers x with
    | some (r, y, _) => runCalls rest { y with world := op.record x y r }
    | none => none

theorem ProbeRun.of_runCalls {calls : List (ProbeCall × List ShimReply)} {x y z : ProbeMachine}
    (hrun : ProbeRun x y) (hcalls : runCalls calls y = some z) : ProbeRun x z := by
  induction calls generalizing y with
  | nil =>
    cases hcalls
    exact hrun
  | cons call rest ih =>
    simp only [runCalls] at hcalls
    split at hcalls
    · rename_i r y' unused hexec
      exact ih (.call call.1 hrun (exec_of_run hexec)) hcalls
    · cases hcalls

/-- A title that has one socket and one list when the probe begins. -/
def busyModule : ProbeMachine where
  mem := {
    acceptingSockets := 1, installed := 1, openMask := bit 3, mappedFd := fun _ ↦ 5
    aiOwned := Function.update (fun _ ↦ 0) 0 32 }
  world := { native := fun fd ↦ fd = 3, blocks := Function.update (fun _ ↦ false) 32 true }

/-- Begin a probe on the thread 7, make the calls and end the probe with the code that the result
starts with. -/
def runSession (calls : List (ProbeCall × List ShimReply)) :
    Option (ℤ × ProbeMachine × ProbeMachine) :=
  match run probeReply nsysnetShimBeginProbe [{ code := 1 }, { code := 1 }, { code := 7 }]
      busyModule with
  | some (0, y, _) =>
    (runCalls calls (watched y)).bind fun z ↦
      (run probeReply (nsysnetShimEndProbe 1) [{ code := 7 }] z).map fun ended ↦ (ended.1, y, z)
  | _ => none

theorem session_of_runSession {calls : List (ProbeCall × List ShimReply)} {y z : ProbeMachine}
    (h : runSession calls = some (0, y, z)) : Session busyModule y z := by
  unfold runSession at h
  split at h
  · rename_i y' unused hbegin
    obtain ⟨z', hcalls, hend⟩ := Option.bind_eq_some_iff.mp h
    obtain ⟨⟨code, w, rest⟩, hexec, hresult⟩ := Option.map_eq_some_iff.mp hend
    cases hresult
    exact ⟨exec_of_run hbegin, .of_runCalls .refl hcalls, 1, w, exec_of_run hexec⟩
  · cases h

/-- `socket` with the lwIP descriptor 6 and the public descriptor `fd`. -/
def openSocket (fd : ℤ) : ProbeCall × List ShimReply :=
  (.socket nsnAfInet sockStream 0, [{ code := 1 }, { code := 6 }, {}, {}, { code := fd }, {}])

/-- `getaddrinfo` with a list of one node at `head`. -/
def openList (head : ℕ) : ProbeCall × List ShimReply :=
  (.getaddrinfo (some "host") none none true,
    [{ code := 1 }, { infos := [⟨0, 2, 1, 6, none, none⟩] }, { code := head }, {}])

/-- A socket and a list are opened during the probe, and both are given back. -/
theorem endProbe_detects_leaks_closed :
    ∃ y z, (Session busyModule y z ∧ z.world.taken 4 = true ∧ z.world.filled 1 = true) ∧
      (∀ lwfd, z.world.sockets lwfd = false) ∧ ∀ head, z.world.lists head = false := by
  have hrun : (runSession [openSocket 4, openList 64, (.socketclose 4, [{}, {}]),
      (.freeaddrinfo 64 2, [{}])]).map (fun result ↦
        (result.1, result.2.1.mem.openMask, result.2.1.mem.aiOwned, result.2.2.world.taken,
          result.2.2.world.filled 0, result.2.2.world.filled 1)) =
      some (0, bit 3, Function.update (fun _ ↦ 0) 0 32, Function.update (fun _ ↦ false) 4 true,
        false, true) := rfl
  obtain ⟨⟨code, y, z⟩, hresult, hview⟩ := Option.map_eq_some_iff.mp hrun
  simp only [Prod.mk.injEq] at hview
  obtain ⟨rfl, hmask, howned, htaken, hfilled, hlist⟩ := hview
  have hsession := session_of_runSession hresult
  refine ⟨y, z, ⟨hsession, by rw [htaken]; rfl, hlist⟩, endProbe_detects_leaks hsession ?_ ?_⟩
  · intro fd hfd
    rw [hmask, getLsbD_bit] at hfd
    obtain rfl : fd = 3 := by simpa using (Bool.and_eq_true_iff.mp hfd).2
    rw [htaken]
    rfl
  · intro i _ hi
    rw [howned] at hi
    obtain rfl : i = 0 := by
      by_contra hne
      exact hi (Function.update_of_ne hne _ _)
    exact hfilled

/-- The title closes its old socket during the probe and leaks a new one with the same number. -/
theorem endProbe_misses_recycled :
    ∃ y z, Session busyModule y z ∧ z.world.sockets 6 = true := by
  have hrun : (runSession [(.socketclose 3, [{}, {}]), openSocket 3]).map (fun result ↦
      (result.1, result.2.2.world.sockets 6)) = some (0, true) := rfl
  obtain ⟨⟨code, y, z⟩, hresult, hview⟩ := Option.map_eq_some_iff.mp hrun
  obtain ⟨rfl, hleak⟩ := Prod.mk.inj hview
  exact ⟨y, z, session_of_runSession hresult, hleak⟩

end Ax88179Aroma.Shim.Probe
