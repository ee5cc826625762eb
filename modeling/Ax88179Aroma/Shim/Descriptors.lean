import Ax88179Aroma.Effect.Holding
import Ax88179Aroma.Shim.Lifecycle

/-!
# Descriptors and their holders

The world of the shim's descriptor tables: the native and the lwIP descriptors that are open, the
relay threads, and history.  Every native socket has a serial number, so that a recycled descriptor
is told apart from the one before it.  Both allocators only return descriptors that are not open,
and a failing close leaves its descriptor open.

An lwIP descriptor is held by the public descriptor that maps to it or by a live relay, a native one
by the public descriptor whose placeholder it is or by a live relay.
-/

namespace Ax88179Aroma.Shim

open Effect Program

/-! ## The world -/

inductive ThreadState where
  /-- never created, or joined -/
  | absent
  | running
  | terminated
  deriving DecidableEq, Repr

structure FdWorld where
  /-- the serial number of an open native socket -/
  native : ℤ → Option ℕ := fun _ ↦ none
  serial : ℕ := 0
  lwip : ℤ → Bool := fun _ ↦ false
  /-- the thread of each relay slot -/
  thread : ℕ → ThreadState := fun _ ↦ .absent
  /-- the socket that was the placeholder of a public descriptor when it was recorded -/
  placeholder : ℕ → Option ℕ := fun _ ↦ none
  /-- the socket that a relay took over -/
  adopted : ℕ → Option ℕ := fun _ ↦ none

namespace FdWorld

def openNative (w : FdWorld) (fd : ℤ) : Option FdWorld :=
  if fd < 0 then some w
  else if w.native fd = none then
    some { w with native := Function.update w.native fd (some w.serial), serial := w.serial + 1 }
  else none

def openLwip (w : FdWorld) (lwfd : ℤ) : Option FdWorld :=
  if lwfd < 0 then some w
  else if w.lwip lwfd = false then some { w with lwip := Function.update w.lwip lwfd true }
  else none

def closeNative (w : FdWorld) (fd code : ℤ) : FdWorld :=
  if code = 0 then { w with native := Function.update w.native fd none } else w

def closeLwip (w : FdWorld) (lwfd code : ℤ) : FdWorld :=
  if code = 0 then { w with lwip := Function.update w.lwip lwfd false } else w

def setThread (w : FdWorld) (slot : ℕ) (state : ThreadState) : FdWorld :=
  { w with thread := Function.update w.thread slot state }

@[simp]
theorem setThread_self (w : FdWorld) (slot : ℕ) (state : ThreadState) :
    (w.setThread slot state).thread slot = state :=
  Function.update_self slot _ _

theorem setThread_of_ne (w : FdWorld) {slot other : ℕ} (h : other ≠ slot) (state : ThreadState) :
    (w.setThread slot state).thread other = w.thread other :=
  Function.update_of_ne h _ _

end FdWorld

/-- What a call with a given answer does to the world. -/
def fdEffect (s : ShimState) (w : FdWorld) : ShimCall → ShimReply → Option FdWorld
  | .native (.socket _ _ _), answer => w.openNative answer.code
  | .native (.accept _ _ _), answer => w.openNative answer.code
  | .native (.socketclose fd), answer => some (w.closeNative fd answer.code)
  | .native .socketcloseAll, answer =>
    some (if answer.code = 0 then { w with native := fun _ ↦ none } else w)
  | .lwip (.socket _ _ _), answer => w.openLwip answer.code
  | .lwip (.accept _), answer => w.openLwip answer.code
  | .lwip (.close lwfd), answer => some (w.closeLwip lwfd answer.code)
  | .os (.osCreateThread slot), answer =>
    some (if answer.code = 0 then w else w.setThread slot .running)
  | .os (.osIsThreadTerminated slot), answer =>
    if answer.code ≠ 0 ↔ w.thread slot ≠ .running then some w else none
  | .os (.osJoinThread slot), _ =>
    if w.thread slot = .running then none else some (w.setThread slot .absent)
  | .note (.tracked fd), _ =>
    some { w with placeholder := Function.update w.placeholder fd (w.native fd) }
  | .note (.adopted slot), _ =>
    some { w with adopted := Function.update w.adopted slot (w.native (s.nsslRelays slot).nativeFd) }
  | _, _ => some w

abbrev FdMachine := Machine ShimState FdWorld

def fdReply : Replies ShimState FdWorld ShimCall ShimReply := fun request answer x ↦
  (fdEffect x.mem x.world request answer).map fun w ↦ { x with world := w }

/-- Calls that no descriptor and no thread depends on. -/
def Inert : ShimCall → Prop
  | .native (.socket _ _ _) => False
  | .native (.accept _ _ _) => False
  | .native (.socketclose _) => False
  | .native .socketcloseAll => False
  | .lwip (.socket _ _ _) => False
  | .lwip (.accept _) => False
  | .lwip (.close _) => False
  | .os (.osCreateThread _) => False
  | .os (.osJoinThread _) => False
  | .note (.tracked _) => False
  | .note (.adopted _) => False
  | _ => True

theorem fdReply_inert {request : ShimCall} (hinert : Inert request) {answer : ShimReply}
    {x y : FdMachine} (hreply : fdReply request answer x = some y) : y = x := by
  obtain ⟨w, heffect, rfl⟩ := Option.map_eq_some_iff.mp hreply
  have hsame : w = x.world := by
    unfold fdEffect at heffect
    split at heffect
    all_goals try first | exact False.elim hinert
    · split at heffect
      · exact (Option.some.inj heffect).symm
      · cases heffect
    · exact (Option.some.inj heffect).symm
  rw [hsame]

/-! ## The tables -/

/-- What the tables of the shim say about descriptors: of each relay `allocated`, `native_fd` and
`lwfd`, of the proxy its listener and the two ends of its connection. -/
structure FdTables where
  openMask : BitVec 32
  mappedFd : ℕ → ℤ
  accepting : ℤ
  probeOwns : ℤ
  baseline : BitVec 32
  relays : ℕ → ℤ × ℤ × ℤ
  proxy : ℤ × ℤ × ℤ

def ShimState.tables (s : ShimState) : FdTables where
  openMask := s.openMask
  mappedFd := s.mappedFd
  accepting := s.acceptingSockets
  probeOwns := s.probeOwnsAccepting
  baseline := s.probeBaselineOpenMask
  relays slot := ((s.nsslRelays slot).allocated, (s.nsslRelays slot).nativeFd, (s.nsslRelays slot).lwfd)
  proxy := (s.wiiloadProxy.listenerFd, s.wiiloadProxy.axFd, s.wiiloadProxy.nativeFd)

/-- A public descriptor or a relay slot. -/
abbrev Holder := ℕ ⊕ ℕ

def lwipOwner (t : FdTables) (w : FdWorld) : Holder → Option ℤ
  | .inl fd => if t.openMask.getLsbD fd = true then some (t.mappedFd fd) else none
  | .inr slot =>
    if w.thread slot = .running ∧ 0 ≤ (t.relays slot).2.2 then some (t.relays slot).2.2 else none

def nativeOwner (t : FdTables) (w : FdWorld) : Holder → Option ℤ
  | .inl fd => if t.accepting ≠ 0 ∧ t.openMask.getLsbD fd = true then some fd else none
  | .inr slot =>
    if w.thread slot = .running ∧ 0 ≤ (t.relays slot).2.1 then some (t.relays slot).2.1 else none

/-- The descriptors of the tables are open and each has one holder.  `undrained` says that
`nsysnet_shim_stop_accepting` was not yet followed by a drain. -/
structure FdInv (undrained : Bool) (t : FdTables) (w : FdWorld) : Prop where
  lwip : Holding (fun lwfd ↦ w.lwip lwfd = true) (lwipOwner t w)
  native : Holding (fun fd ↦ w.native fd ≠ none) (nativeOwner t w)
  placeholder : t.accepting ≠ 0 → ∀ fd, t.openMask.getLsbD fd = true →
    w.native fd = w.placeholder fd
  allocated : ∀ slot, w.thread slot = .running → (t.relays slot).1 ≠ 0
  idle : t.accepting = 0 → undrained = false → t.openMask = 0
  probe : t.probeOwns ≠ 0 → t.baseline = 0
  proxy : t.proxy.1 < 0 ∧ t.proxy.2.1 < 0 ∧ t.proxy.2.2 < 0

abbrev SpareLwip (t : FdTables) (w : FdWorld) (lwfd : ℤ) : Prop :=
  Spare (fun lwfd ↦ w.lwip lwfd = true) (lwipOwner t w) lwfd

abbrev SpareNative (t : FdTables) (w : FdWorld) (fd : ℤ) : Prop :=
  Spare (fun fd ↦ w.native fd ≠ none) (nativeOwner t w) fd

/-! ## Masks -/

@[simp]
theorem getLsbD_bit (fd i : ℕ) : (bit fd).getLsbD i = (decide (i < 32) && decide (i = fd)) := by
  simp only [bit, BitVec.getLsbD_shiftLeft, BitVec.getLsbD_one]
  by_cases hi : i < 32
  · by_cases hsame : i = fd
    · simp [hsame]
    · have hother : i < fd ∨ i - fd ≠ 0 := by omega
      rcases hother with hlt | hne
      · simp [hi, hsame, hlt]
      · simp [hi, hsame, hne]
  · simp [hi]

theorem getLsbD_or_bit {mask : BitVec 32} {fd i : ℕ} (hfd : fd < 32) :
    (mask ||| bit fd).getLsbD i = true ↔ i = fd ∨ mask.getLsbD i = true := by
  rw [BitVec.getLsbD_or, getLsbD_bit, Bool.or_eq_true, Bool.and_eq_true, decide_eq_true_iff,
    decide_eq_true_iff]
  constructor
  · rintro (hmask | ⟨-, hsame⟩)
    · exact .inr hmask
    · exact .inl hsame
  · rintro (hsame | hmask)
    · exact .inr ⟨hsame ▸ hfd, hsame⟩
    · exact .inl hmask

theorem getLsbD_and_not_bit {mask : BitVec 32} {fd i : ℕ} :
    (mask &&& ~~~ bit fd).getLsbD i = true ↔ i ≠ fd ∧ mask.getLsbD i = true := by
  rw [BitVec.getLsbD_and, BitVec.getLsbD_not, getLsbD_bit]
  by_cases hi : i < 32
  · by_cases hsame : i = fd <;> simp [hi, hsame]
  · have hmask : mask.getLsbD i = false := BitVec.getLsbD_of_ge mask i (by omega)
    simp [hmask]

theorem lt_of_getLsbD {mask : BitVec 32} {i : ℕ} (h : mask.getLsbD i = true) : i < 32 := by
  by_contra hge
  rw [BitVec.getLsbD_of_ge mask i (by omega)] at h
  cases h

theorem not_getLsbD_zero (i : ℕ) : ¬ (0 : BitVec 32).getLsbD i = true := by
  rw [show (0 : BitVec 32).getLsbD i = false from BitVec.getLsbD_zero]
  exact Bool.false_ne_true

theorem zero_le_mask {mask : BitVec 32} (i : ℕ) (h : (0 : BitVec 32).getLsbD i = true) :
    mask.getLsbD i = true := absurd h (not_getLsbD_zero i)

/-! ## Steps that keep the invariant -/

section Steps

variable {u : Bool} {t t' : FdTables} {w w' : FdWorld} {fd : ℕ} {slot : ℕ} {lwfd n code : ℤ}

/-- A public descriptor in the mask holds its lwIP descriptor. -/
theorem lwipOwner_public (h : t.openMask.getLsbD fd = true) :
    lwipOwner t w (.inl fd) = some (t.mappedFd fd) := if_pos h

theorem nativeOwner_public (haccepting : t.accepting ≠ 0) (h : t.openMask.getLsbD fd = true) :
    nativeOwner t w (.inl fd) = some (fd : ℤ) := if_pos ⟨haccepting, h⟩

theorem openLwip_cases (h : w.openLwip lwfd = some w') :
    lwfd < 0 ∧ w' = w ∨ 0 ≤ lwfd ∧ w.lwip lwfd = false ∧
      w' = { w with lwip := Function.update w.lwip lwfd true } := by
  unfold FdWorld.openLwip at h
  split at h
  · exact .inl ⟨‹_›, (Option.some.inj h).symm⟩
  · split at h
    · exact .inr ⟨by omega, ‹_›, (Option.some.inj h).symm⟩
    · cases h

theorem openNative_cases (h : w.openNative n = some w') :
    n < 0 ∧ w' = w ∨ 0 ≤ n ∧ w.native n = none ∧
      w' = { w with
        native := Function.update w.native n (some w.serial), serial := w.serial + 1 } := by
  unfold FdWorld.openNative at h
  split at h
  · exact .inl ⟨‹_›, (Option.some.inj h).symm⟩
  · split at h
    · exact .inr ⟨by omega, ‹_›, (Option.some.inj h).symm⟩
    · cases h

/-- lwIP returns a fresh descriptor. -/
theorem FdInv.openLwip (h : FdInv u t w) (hopen : w.openLwip lwfd = some w') :
    FdInv u t w' ∧ (0 ≤ lwfd → SpareLwip t w' lwfd) := by
  rcases openLwip_cases hopen with ⟨hneg, rfl⟩ | ⟨hpos, hfresh, rfl⟩
  · exact ⟨h, fun hpos ↦ absurd hpos (by omega)⟩
  · have hmono : ∀ other, w.lwip other = true → Function.update w.lwip lwfd true other = true := by
      intro other hother
      by_cases hsame : other = lwfd
      · rw [hsame, Function.update_self]
      · rw [Function.update_of_ne hsame]
        exact hother
    refine ⟨{ h with lwip := h.lwip.mono hmono fun _ _ hi ↦ hi }, fun _ ↦ ?_⟩
    exact h.lwip.spare_of_fresh (by simp [hfresh]) (Function.update_self lwfd true w.lwip)

/-- nsysnet returns a fresh descriptor. -/
theorem FdInv.openNative (h : FdInv u t w) (hopen : w.openNative n = some w') :
    FdInv u t w' ∧ (0 ≤ n → SpareNative t w' n) := by
  rcases openNative_cases hopen with ⟨hneg, rfl⟩ | ⟨hpos, hfresh, rfl⟩
  · exact ⟨h, fun hpos ↦ absurd hpos (by omega)⟩
  · have hother : ∀ other, w.native other ≠ none →
        Function.update w.native n (some w.serial) other = w.native other := by
      intro other hne
      refine Function.update_of_ne (fun hsame ↦ hne ?_) _ _
      rw [hsame]
      exact hfresh
    refine ⟨{ h with native := h.native.mono (fun other hne ↦ ?_) fun _ _ hi ↦ hi,
                     placeholder := fun haccepting fd hfd ↦ ?_ }, fun _ ↦ ?_⟩
    · exact (hother other hne).trans_ne hne
    · have hopen := h.native.isOpen_of_own _ _ (nativeOwner_public haccepting hfd)
      exact (hother fd hopen).trans (h.placeholder haccepting fd hfd)
    · refine h.native.spare_of_fresh (fun hne ↦ hne hfresh) ?_
      exact (Function.update_self n _ w.native).trans_ne (Option.some_ne_none _)

theorem SpareLwip.openNative (h : SpareLwip t w lwfd) (hopen : w.openNative n = some w') :
    SpareLwip t w' lwfd := by
  rcases openNative_cases hopen with ⟨-, rfl⟩ | ⟨-, -, rfl⟩
  · exact h
  · exact h

/-- An lwIP descriptor that nobody holds is closed. -/
theorem FdInv.closeLwip (h : FdInv u t w) (hfree : ∀ i, lwipOwner t w i ≠ some lwfd) :
    FdInv u t (w.closeLwip lwfd code) := by
  unfold FdWorld.closeLwip
  split
  · refine { h with lwip := h.lwip.close hfree fun other hne hopen ↦ ?_ }
    exact (Function.update_of_ne hne _ w.lwip).trans hopen
  · exact h

/-- A native descriptor that nobody holds is closed. -/
theorem FdInv.closeNative (h : FdInv u t w) (hfree : ∀ i, nativeOwner t w i ≠ some n) :
    FdInv u t (w.closeNative n code) := by
  unfold FdWorld.closeNative
  split
  · refine { h with native := h.native.close hfree fun other hne hopen ↦ ?_,
                    placeholder := fun haccepting fd hfd ↦ ?_ }
    · exact (Function.update_of_ne hne _ w.native).trans_ne hopen
    · have hne : (fd : ℤ) ≠ n := fun hsame ↦
        hfree (.inl fd) (hsame ▸ nativeOwner_public haccepting hfd)
      exact (Function.update_of_ne hne _ w.native).trans (h.placeholder haccepting fd hfd)
  · exact h

theorem closeNative_thread : (w.closeNative n code).thread = w.thread := by
  unfold FdWorld.closeNative
  split <;> rfl

theorem closeLwip_thread : (w.closeLwip lwfd code).thread = w.thread := by
  unfold FdWorld.closeLwip
  split <;> rfl

/-- Holders depend on the world through the threads only. -/
theorem lwipOwner_congr (hthread : w'.thread = w.thread) : lwipOwner t w' = lwipOwner t w := by
  funext i
  cases i with
  | inl fd => rfl
  | inr slot => simp only [lwipOwner, hthread]

theorem nativeOwner_congr (hthread : w'.thread = w.thread) :
    nativeOwner t w' = nativeOwner t w := by
  funext i
  cases i with
  | inl fd => rfl
  | inr slot => simp only [nativeOwner, hthread]

theorem SpareLwip.closeNative (h : SpareLwip t w lwfd) :
    SpareLwip t (w.closeNative n code) lwfd := by
  rw [SpareLwip, lwipOwner_congr closeNative_thread]
  unfold FdWorld.closeNative
  split
  · exact h
  · exact h

/-- A placeholder is recorded for an lwIP descriptor. -/
theorem FdInv.track (h : FdInv u t w) (haccepting : t.accepting ≠ 0) (hfd : fd < 32)
    (hlwip : SpareLwip t w lwfd) (hnative : SpareNative t w fd) :
    FdInv u { t with
        mappedFd := Function.update t.mappedFd fd lwfd
        openMask := t.openMask ||| bit fd }
      { w with placeholder := Function.update w.placeholder fd (w.native fd) } := by
  have hnew : fd ∉ {i | t.openMask.getLsbD i = true} := fun hmem ↦
    hnative.2 (.inl fd) (nativeOwner_public haccepting hmem)
  refine { h with
    lwip := h.lwip.acquire (i := .inl fd) hlwip (fun s hs ↦ ?_) (fun j s hj hs ↦ ?_)
    native := h.native.acquire (i := .inl fd) hnative (fun s hs ↦ ?_) (fun j s hj hs ↦ ?_)
    placeholder := fun _ i hi ↦ ?_
    idle := fun hzero ↦ absurd hzero haccepting }
  · simp only [lwipOwner] at hs
    rw [if_pos ((getLsbD_or_bit hfd).mpr (.inl rfl)), Function.update_self] at hs
    exact (Option.some.inj hs).symm
  · cases j with
    | inl i =>
      have hne : i ≠ fd := fun hsame ↦ hj (hsame ▸ rfl)
      simp only [lwipOwner, getLsbD_or_bit hfd, hne, false_or, Function.update_of_ne hne] at hs
      exact hs
    | inr slot => exact hs
  · simp only [nativeOwner] at hs
    rw [if_pos ⟨haccepting, (getLsbD_or_bit hfd).mpr (.inl rfl)⟩] at hs
    exact (Option.some.inj hs).symm
  · cases j with
    | inl i =>
      have hne : i ≠ fd := fun hsame ↦ hj (hsame ▸ rfl)
      simp only [nativeOwner, getLsbD_or_bit hfd, hne, false_or] at hs
      exact hs
    | inr slot => exact hs
  · by_cases hsame : i = fd
    · simp only [hsame, Function.update_self]
    · simp only [Function.update_of_ne hsame]
      exact h.placeholder haccepting i (((getLsbD_or_bit hfd).mp hi).resolve_left hsame)

/-- The mask loses bits. -/
theorem FdInv.shrink (h : FdInv u t w) {mask : BitVec 32}
    (hmask : ∀ i, mask.getLsbD i = true → t.openMask.getLsbD i = true) :
    FdInv u { t with openMask := mask } w := by
  refine { h with
    lwip := h.lwip.mono (fun _ hopen ↦ hopen) fun i r hi ↦ ?_
    native := h.native.mono (fun _ hopen ↦ hopen) fun i r hi ↦ ?_
    placeholder := fun haccepting fd hfd ↦ h.placeholder haccepting fd (hmask fd hfd)
    idle := fun hzero hu ↦ ?_ }
  · cases i with
    | inl fd =>
      simp only [lwipOwner] at hi ⊢
      split at hi
      · rw [if_pos (hmask fd ‹_›)]
        exact hi
      · cases hi
    | inr slot => exact hi
  · cases i with
    | inl fd =>
      simp only [nativeOwner] at hi ⊢
      split at hi
      · rename_i hboth
        rw [if_pos ⟨hboth.1, hmask fd hboth.2⟩]
        exact hi
      · cases hi
    | inr slot => exact hi
  · apply BitVec.eq_of_getLsbD_eq
    intro i _
    have hnone : t.openMask.getLsbD i = false := by
      rw [h.idle hzero hu]
      exact BitVec.getLsbD_zero
    cases hi : mask.getLsbD i
    · exact BitVec.getLsbD_zero.symm
    · rw [hmask i hi] at hnone
      cases hnone

theorem FdInv.untrack (h : FdInv u t w) (fd : ℕ) :
    FdInv u { t with openMask := t.openMask &&& ~~~ bit fd } w :=
  h.shrink fun _ hi ↦ (getLsbD_and_not_bit.mp hi).2

/-- Nobody holds what a public descriptor mapped to once it left the mask. -/
theorem FdInv.free_of_untracked (h : FdInv u t w) (hfd : t.openMask.getLsbD fd = true)
    {mask : BitVec 32} (hmask : ∀ i, mask.getLsbD i = true → t.openMask.getLsbD i = true)
    (hout : mask.getLsbD fd = false) (i : Holder) :
    lwipOwner { t with openMask := mask } w i ≠ some (t.mappedFd fd) := by
  refine (h.lwip.spare_of_release (lwipOwner_public hfd) ?_ fun j s _ hj ↦ ?_).2 i
  · simp [lwipOwner, hout]
  · cases j with
    | inl k =>
      simp only [lwipOwner] at hj ⊢
      split at hj
      · rw [if_pos (hmask k ‹_›)]
        exact hj
      · cases hj
    | inr slot => exact hj

/-- Nobody holds the placeholder of a public descriptor that left the mask. -/
theorem FdInv.free_placeholder (h : FdInv u t w) (hfd : t.openMask.getLsbD fd = true)
    (haccepting : t.accepting ≠ 0) {mask : BitVec 32}
    (hmask : ∀ i, mask.getLsbD i = true → t.openMask.getLsbD i = true)
    (hout : mask.getLsbD fd = false) (i : Holder) :
    nativeOwner { t with openMask := mask } w i ≠ some (fd : ℤ) := by
  refine (h.native.spare_of_release (nativeOwner_public haccepting hfd) ?_ fun j s _ hj ↦ ?_).2 i
  · simp [nativeOwner, hout]
  · cases j with
    | inl k =>
      simp only [nativeOwner] at hj ⊢
      split at hj
      · rename_i hboth
        rw [if_pos ⟨hboth.1, hmask k hboth.2⟩]
        exact hj
      · cases hj
    | inr slot => exact hj

/-- A mapping outside the mask says nothing. -/
theorem lwipOwner_remap (hout : t.openMask.getLsbD fd = false) (lwfd : ℤ) :
    lwipOwner { t with mappedFd := Function.update t.mappedFd fd lwfd } w = lwipOwner t w := by
  funext i
  cases i with
  | inl k =>
    by_cases hsame : k = fd
    · simp only [lwipOwner, hsame, hout]
      rfl
    · simp only [lwipOwner, Function.update_of_ne hsame]
  | inr slot => rfl

theorem FdInv.remap (h : FdInv u t w) (hout : t.openMask.getLsbD fd = false) (lwfd : ℤ) :
    FdInv u { t with mappedFd := Function.update t.mappedFd fd lwfd } w := by
  have hlwip := h.lwip
  rw [← lwipOwner_remap hout lwfd] at hlwip
  exact { h with lwip := hlwip }

/-- A slot without a running thread holds nothing, whatever it says. -/
theorem lwipOwner_idleRelay (hidle : w.thread slot ≠ .running) (value : ℤ × ℤ × ℤ) :
    lwipOwner { t with relays := Function.update t.relays slot value } w = lwipOwner t w := by
  funext i
  cases i with
  | inl fd => rfl
  | inr other =>
    by_cases hsame : other = slot
    · rw [hsame, lwipOwner, lwipOwner, if_neg fun h ↦ hidle h.1, if_neg fun h ↦ hidle h.1]
    · simp only [lwipOwner, Function.update_of_ne hsame]

theorem nativeOwner_idleRelay (hidle : w.thread slot ≠ .running) (value : ℤ × ℤ × ℤ) :
    nativeOwner { t with relays := Function.update t.relays slot value } w = nativeOwner t w := by
  funext i
  cases i with
  | inl fd => rfl
  | inr other =>
    by_cases hsame : other = slot
    · rw [hsame, nativeOwner, nativeOwner, if_neg fun h ↦ hidle h.1, if_neg fun h ↦ hidle h.1]
    · simp only [nativeOwner, Function.update_of_ne hsame]

/-- A slot without a running thread may be changed in any way. -/
theorem FdInv.setIdleRelay (h : FdInv u t w) (hidle : w.thread slot ≠ .running)
    (value : ℤ × ℤ × ℤ) : FdInv u { t with relays := Function.update t.relays slot value } w := by
  refine { h with lwip := ?_, native := ?_, allocated := fun other hother ↦ ?_ }
  · rw [lwipOwner_idleRelay hidle]
    exact h.lwip
  · rw [nativeOwner_idleRelay hidle]
    exact h.native
  · have hne : other ≠ slot := fun hsame ↦ hidle (hsame ▸ hother)
    exact (congrArg Prod.fst (Function.update_of_ne hne value t.relays)).trans_ne
      (h.allocated other hother)

/-- A thread that does not run holds nothing. -/
theorem FdInv.stopThread (h : FdInv u t w) (slot : ℕ) {state : ThreadState}
    (hstate : state ≠ .running) : FdInv u t (w.setThread slot state) := by
  have hrunning : ∀ other, (w.setThread slot state).thread other = .running →
      w.thread other = .running := by
    intro other hother
    by_cases hsame : other = slot
    · simp only [FdWorld.setThread, hsame, Function.update_self] at hother
      exact absurd hother hstate
    · simp only [FdWorld.setThread, Function.update_of_ne hsame] at hother
      exact hother
  refine { h with
    lwip := h.lwip.mono (fun _ hopen ↦ hopen) fun i r hi ↦ ?_
    native := h.native.mono (fun _ hopen ↦ hopen) fun i r hi ↦ ?_
    allocated := fun other hother ↦ h.allocated other (hrunning other hother) }
  · cases i with
    | inl fd => exact hi
    | inr other =>
      simp only [lwipOwner] at hi ⊢
      split at hi
      · rename_i hboth
        rw [if_pos ⟨hrunning other hboth.1, hboth.2⟩]
        exact hi
      · cases hi
  · cases i with
    | inl fd => exact hi
    | inr other =>
      simp only [nativeOwner] at hi ⊢
      split at hi
      · rename_i hboth
        rw [if_pos ⟨hrunning other hboth.1, hboth.2⟩]
        exact hi
      · cases hi

/-- A thread starts on a slot without descriptors. -/
theorem FdInv.startThread (h : FdInv u t w) (hallocated : (t.relays slot).1 ≠ 0)
    (hnative : (t.relays slot).2.1 < 0) (hlwip : (t.relays slot).2.2 < 0) :
    FdInv u t (w.setThread slot .running) := by
  have hother : ∀ other, other ≠ slot →
      (w.setThread slot .running).thread other = w.thread other := fun other hne ↦
    Function.update_of_ne hne _ _
  refine { h with
    lwip := h.lwip.mono (fun _ hopen ↦ hopen) fun i r hi ↦ ?_
    native := h.native.mono (fun _ hopen ↦ hopen) fun i r hi ↦ ?_
    allocated := fun other hrunning ↦ ?_ }
  · cases i with
    | inl fd => exact hi
    | inr other =>
      simp only [lwipOwner] at hi ⊢
      by_cases hsame : other = slot
      · rw [hsame, if_neg fun hboth ↦ absurd hboth.2 (by omega)] at hi
        cases hi
      · rw [hother other hsame] at hi
        exact hi
  · cases i with
    | inl fd => exact hi
    | inr other =>
      simp only [nativeOwner] at hi ⊢
      by_cases hsame : other = slot
      · rw [hsame, if_neg fun hboth ↦ absurd hboth.2 (by omega)] at hi
        cases hi
      · rw [hother other hsame] at hi
        exact hi
  · by_cases hsame : other = slot
    · rw [hsame]
      exact hallocated
    · rw [hother other hsame] at hrunning
      exact h.allocated other hrunning

end Steps

end Ax88179Aroma.Shim
