import Ax88179Aroma.Shim.Options

/-!
# Marks on recycled descriptors

`open_mask`, `ftp_restart_mask` and `nssl_public_mask` name native descriptors by number, and
nsysnet recycles the numbers.  The marks of a number are cleared before the title's socket behind it
is closed, so that a new socket never finds a mark.
-/

namespace Ax88179Aroma.Shim.Marks

open Effect Program

/-! ## The world -/

inductive NativeUse where
  | closed
  | title
  /-- the private end of a relay -/
  | relay
  deriving DecidableEq, Repr

abbrev MarkMachine := Machine ShimState (ℤ → NativeUse)

/-- The allocator only returns descriptors that are not open. -/
def openTitle (w : ℤ → NativeUse) (fd : ℤ) : Option (ℤ → NativeUse) :=
  if fd < 0 then some w
  else if w fd = .closed then some (Function.update w fd .title) else none

def closeUse (w : ℤ → NativeUse) (fd code : ℤ) : ℤ → NativeUse :=
  if code = 0 then Function.update w fd .closed else w

/-- A name is reported for open descriptors only, and no private one has the FTP port. -/
def Named (w : ℤ → NativeUse) (fd : ℤ) (answer : ShimReply) : Prop :=
  answer.code = 0 → w fd = .title ∨
    w fd = .relay ∧ answer.addr.any (fun a ↦ decide (a.port = axFtpPort)) = false

instance (w : ℤ → NativeUse) (fd : ℤ) (answer : ShimReply) : Decidable (Named w fd answer) := by
  unfold Named
  infer_instance

def markEffect (s : ShimState) (w : ℤ → NativeUse) :
    ShimCall → ShimReply → Option (ℤ → NativeUse)
  | .native (.socket _ _ _), answer => openTitle w answer.code
  | .native (.accept _ _ _), answer => openTitle w answer.code
  | .native (.socketclose fd), answer => some (closeUse w fd answer.code)
  | .native .socketcloseAll, answer =>
    some (if answer.code = 0 then fun _ ↦ .closed else w)
  | .native (.getsockname fd _ _), answer => if Named w fd answer then some w else none
  | .note (.adopted slot), _ =>
    some (Function.update w (s.nsslRelays slot).nativeFd .relay)
  | _, _ => some w

def markReply : Replies ShimState (ℤ → NativeUse) ShimCall ShimReply := fun request answer x ↦
  (markEffect x.mem x.world request answer).map fun w ↦ { x with world := w }

theorem leavesMemory_markReply : LeavesMemory markReply := by
  intro request answer x y h
  obtain ⟨w, -, rfl⟩ := Option.map_eq_some_iff.mp h
  rfl

/-- Calls that open and close no native descriptor. -/
def Inert : ShimCall → Prop
  | .native (.socket _ _ _) => False
  | .native (.accept _ _ _) => False
  | .native (.socketclose _) => False
  | .native .socketcloseAll => False
  | .note (.adopted _) => False
  | _ => True

theorem markReply_inert {request : ShimCall} (hinert : Inert request) {answer : ShimReply}
    {x y : MarkMachine} (hreply : markReply request answer x = some y) : y = x := by
  obtain ⟨w, heffect, rfl⟩ := Option.map_eq_some_iff.mp hreply
  have hsame : w = x.world := by
    unfold markEffect at heffect
    split at heffect
    all_goals try first | exact False.elim hinert
    · split at heffect
      · exact (Option.some.inj heffect).symm
      · cases heffect
    · exact (Option.some.inj heffect).symm
  rw [hsame]

/-! ## The invariant -/

/-- What the shim says about descriptor numbers. -/
@[ext]
structure Masks where
  openMask : BitVec 32
  ftp : BitVec 32
  nssl : BitVec 32
  accepting : ℤ

def masks (s : ShimState) : Masks where
  openMask := s.openMask
  ftp := s.ftpRestartMask
  nssl := s.nsslPublicMask
  accepting := s.acceptingSockets

/-- Every mark is on a socket of the title, and the descriptors of lwIP have no other mark. -/
structure MarkInv (m : Masks) (w : ℤ → NativeUse) : Prop where
  owned : ∀ fd : ℕ, m.openMask.getLsbD fd = true → w fd = .title
  ftp : ∀ fd : ℕ, m.ftp.getLsbD fd = true → w fd = .title ∧ m.openMask.getLsbD fd = false
  nssl : ∀ fd : ℕ, m.nssl.getLsbD fd = true → w fd = .title ∧ m.openMask.getLsbD fd = false

/-- No mask has the descriptor. -/
def Unmarked (m : Masks) (n : ℤ) : Prop :=
  ∀ fd : ℕ, (fd : ℤ) = n → m.openMask.getLsbD fd = false ∧ m.ftp.getLsbD fd = false ∧
    m.nssl.getLsbD fd = false

section Steps

variable {m : Masks} {w w' : ℤ → NativeUse} {n : ℤ} {fd : ℕ}

theorem MarkInv.unmarked (h : MarkInv m w) (hn : w n ≠ .title) : Unmarked m n := by
  rintro fd rfl
  refine ⟨Bool.eq_false_iff.mpr fun hfd ↦ hn (h.owned fd hfd), ?_, ?_⟩
  · exact Bool.eq_false_iff.mpr fun hfd ↦ hn (h.ftp fd hfd).1
  · exact Bool.eq_false_iff.mpr fun hfd ↦ hn (h.nssl fd hfd).1

/-- An unmarked descriptor may be opened and closed. -/
theorem MarkInv.update (h : MarkInv m w) (hn : Unmarked m n) (use : NativeUse) :
    MarkInv m (Function.update w n use) where
  owned fd hfd := by
    rw [Function.update_of_ne fun hsame ↦ Bool.eq_false_iff.mp (hn fd hsame).1 hfd]
    exact h.owned fd hfd
  ftp fd hfd := by
    rw [Function.update_of_ne fun hsame ↦ Bool.eq_false_iff.mp (hn fd hsame).2.1 hfd]
    exact h.ftp fd hfd
  nssl fd hfd := by
    rw [Function.update_of_ne fun hsame ↦ Bool.eq_false_iff.mp (hn fd hsame).2.2 hfd]
    exact h.nssl fd hfd

theorem MarkInv.closeUse (h : MarkInv m w) (hn : Unmarked m n) (code : ℤ) :
    MarkInv m (closeUse w n code) := by
  unfold Marks.closeUse
  split
  · exact h.update hn .closed
  · exact h

theorem openTitle_cases (hopen : openTitle w n = some w') :
    n < 0 ∧ w' = w ∨ 0 ≤ n ∧ w n = .closed ∧ w' = Function.update w n .title := by
  unfold openTitle at hopen
  split at hopen
  · exact .inl ⟨‹_›, (Option.some.inj hopen).symm⟩
  · split at hopen
    · exact .inr ⟨by omega, ‹_›, (Option.some.inj hopen).symm⟩
    · cases hopen

/-- A descriptor that nsysnet hands out has no marks. -/
theorem MarkInv.openTitle (h : MarkInv m w) (hopen : openTitle w n = some w') :
    MarkInv m w' ∧ (0 ≤ n → Unmarked m n ∧ w' n = .title) := by
  obtain ⟨hneg, rfl⟩ | ⟨hpos, hclosed, rfl⟩ := openTitle_cases hopen
  · exact ⟨h, fun hpos ↦ absurd hpos (by omega)⟩
  · have hn : Unmarked m n := h.unmarked (by rw [hclosed]; decide)
    exact ⟨h.update hn .title, fun _ ↦ ⟨hn, Function.update_self n _ _⟩⟩

/-- Marks may be dropped. -/
theorem MarkInv.shrink {m' : Masks} (h : MarkInv m w)
    (hopen : ∀ fd : ℕ, m'.openMask.getLsbD fd = true → m.openMask.getLsbD fd = true)
    (hftp : ∀ fd : ℕ, m'.ftp.getLsbD fd = true → m.ftp.getLsbD fd = true)
    (hnssl : ∀ fd : ℕ, m'.nssl.getLsbD fd = true → m.nssl.getLsbD fd = true) :
    MarkInv m' w where
  owned fd hfd := h.owned fd (hopen fd hfd)
  ftp fd hfd := ⟨(h.ftp fd (hftp fd hfd)).1, Bool.eq_false_iff.mpr fun howned ↦
    Bool.eq_false_iff.mp (h.ftp fd (hftp fd hfd)).2 (hopen fd howned)⟩
  nssl fd hfd := ⟨(h.nssl fd (hnssl fd hfd)).1, Bool.eq_false_iff.mpr fun howned ↦
    Bool.eq_false_iff.mp (h.nssl fd (hnssl fd hfd)).2 (hopen fd howned)⟩

theorem MarkInv.track (h : MarkInv m w) (hn : Unmarked m fd) (htitle : w fd = .title)
    (hlt : fd < 32) : MarkInv { m with openMask := m.openMask ||| bit fd } w where
  owned other hother := by
    obtain rfl | hold := (getLsbD_or_bit hlt).mp hother
    · exact htitle
    · exact h.owned other hold
  ftp other hother := by
    refine ⟨(h.ftp other hother).1, Bool.eq_false_iff.mpr fun howned ↦ ?_⟩
    obtain rfl | hold := (getLsbD_or_bit hlt).mp howned
    · exact Bool.eq_false_iff.mp (hn other rfl).2.1 hother
    · exact Bool.eq_false_iff.mp (h.ftp other hother).2 hold
  nssl other hother := by
    refine ⟨(h.nssl other hother).1, Bool.eq_false_iff.mpr fun howned ↦ ?_⟩
    obtain rfl | hold := (getLsbD_or_bit hlt).mp howned
    · exact Bool.eq_false_iff.mp (hn other rfl).2.2 hother
    · exact Bool.eq_false_iff.mp (h.nssl other hother).2 hold

theorem MarkInv.markFtp (h : MarkInv m w) (htitle : w fd = .title)
    (hforeign : m.openMask.getLsbD fd = false) (hlt : fd < 32) :
    MarkInv { m with ftp := m.ftp ||| bit fd } w :=
  { h with
    ftp := fun other hother ↦ by
      obtain rfl | hold := (getLsbD_or_bit hlt).mp hother
      · exact ⟨htitle, hforeign⟩
      · exact h.ftp other hold }

theorem MarkInv.markNssl (h : MarkInv m w) (htitle : w fd = .title)
    (hforeign : m.openMask.getLsbD fd = false) (hlt : fd < 32) :
    MarkInv { m with nssl := m.nssl ||| bit fd } w :=
  { h with
    nssl := fun other hother ↦ by
      obtain rfl | hold := (getLsbD_or_bit hlt).mp hother
      · exact ⟨htitle, hforeign⟩
      · exact h.nssl other hold }

/-- All native descriptors may be closed once nothing is marked. -/
theorem MarkInv.of_empty (hopen : m.openMask = 0) (hftp : m.ftp = 0) (hnssl : m.nssl = 0) :
    MarkInv m w where
  owned fd hfd := absurd (hopen ▸ hfd) (not_getLsbD_zero fd)
  ftp fd hfd := absurd (hftp ▸ hfd) (not_getLsbD_zero fd)
  nssl fd hfd := absurd (hnssl ▸ hfd) (not_getLsbD_zero fd)

end Steps

/-! ## Frames -/

section Frames

abbrev markWp (program : ShimM α) (post : α → MarkMachine → Prop) (x : MarkMachine) : Prop :=
  wp markReply (fun _ _ ↦ True) program post x

def At (P : Masks → (ℤ → NativeUse) → Prop) (x : MarkMachine) : Prop := P (masks x.mem) x.world

variable {P : Masks → (ℤ → NativeUse) → Prop} {x : MarkMachine}

theorem mark_frame {program : ShimM α} (hkeeps : Keeps masks Inert program) (hx : At P x) :
    markWp program (fun _ ↦ At P) x := by
  refine wp_keeps hkeeps (fun y mem hmasks hy ↦ ?_) (fun request answer y z hinert hy hreply ↦ ?_)
    (fun _ _ _ _ ↦ trivial) hx
  · change P (masks mem) y.world
    rw [hmasks]
    exact hy
  · rw [markReply_inert hinert hreply]
    exact hy

theorem keeps_setErrno (error : ℤ) : Keeps masks Inert (setErrno error) := keeps_store fun _ ↦ rfl

theorem keeps_fail (error : ℤ) : Keeps masks Inert (fail error) :=
  Keeps.bind (keeps_setErrno error) fun _ ↦ keeps_pure _

theorem keeps_lwip (request : LwipCall) : Keeps masks Inert (lwip request) :=
  Keeps.bind (keeps_perform trivial) fun _ ↦ Keeps.bind (keeps_setErrno _) fun _ ↦ keeps_pure _

theorem keeps_callNative {request : Export} (hinert : Inert (.native request)) :
    Keeps masks Inert (callNative request) :=
  Keeps.bind (keeps_setErrno (-1)) fun _ ↦ keeps_perform hinert

theorem keeps_storeRelay (slot : ℕ) (update : NsslRelay → NsslRelay) :
    Keeps masks Inert (storeRelay slot update) :=
  keeps_store fun _ ↦ rfl

theorem keeps_socketRoute (domain : ℤ) : Keeps masks Inert (socketRoute domain) := by
  refine Keeps.bind (keeps_load _) fun _ ↦ Keeps.ite (keeps_pure _) ?_
  refine Keeps.bind keeps_shimAccepts fun _ ↦ Keeps.ite (keeps_pure _) ?_
  exact Keeps.bind (keeps_perform trivial) fun _ ↦ keeps_pure _

theorem keeps_lwipSocket (domain type protocol : ℤ) :
    Keeps masks Inert (lwipSocket domain type protocol) := by
  refine Keeps.bind (keeps_lwip _) fun _ ↦ Keeps.ite ?_ (keeps_pure _)
  exact Keeps.bind (keeps_lwip _) fun _ ↦ keeps_pure _

theorem keeps_socketDefaults (lwfd type : ℤ) : Keeps masks Inert (socketDefaults lwfd type) :=
  Keeps.bind (keeps_ignore (keeps_lwip _)) fun _ ↦
    Keeps.bind (Keeps.when (keeps_ignore (keeps_lwip _))) fun _ ↦
      Keeps.when (keeps_ignore (keeps_lwip _))

theorem keeps_noteActivity : Keeps masks Inert noteActivity := by
  refine keeps_store fun s ↦ ?_
  split <;> rfl

theorem keeps_nsslRelayDetachPublicFd (fd : ℤ) :
    Keeps masks Inert (nsslRelayDetachPublicFd fd) := by
  unfold nsslRelayDetachPublicFd
  induction List.range nsslRelayMax with
  | nil => exact keeps_pure _
  | cons slot rest ih =>
    refine Keeps.bind (keeps_loadRelay _ _) fun _ ↦ Keeps.ite ih ?_
    refine Keeps.bind (keeps_access fun s ↦ ?_) fun _ ↦ Keeps.ite (keeps_storeRelay _ _) ih
    unfold detachSlot
    split <;> rfl

theorem keeps_nsslRelayReap : Keeps masks Inert nsslRelayReap := by
  refine Keeps.each fun slot _ ↦ Keeps.bind ?_ fun _ ↦ Keeps.when ?_
  · refine Keeps.bind (keeps_loadRelay _ _) fun _ ↦ Keeps.ite (keeps_pure _) ?_
    refine Keeps.bind (keeps_loadRelay _ _) fun _ ↦ Keeps.ite (keeps_pure _) ?_
    exact Keeps.bind (keeps_perform trivial) fun _ ↦ keeps_pure _
  · exact Keeps.bind (keeps_ignore (keeps_perform trivial)) fun _ ↦
      Keeps.bind (keeps_storeRelay _ _) fun _ ↦ keeps_storeRelay _ _

theorem keeps_resetRelay (slot : ℕ) : Keeps masks Inert (resetRelay slot) :=
  Keeps.bind (keeps_storeRelay _ _) fun _ ↦ Keeps.bind (keeps_storeRelay _ _) fun _ ↦
    Keeps.bind (keeps_storeRelay _ _) fun _ ↦ Keeps.bind (keeps_storeRelay _ _) fun _ ↦
      keeps_storeRelay _ _

theorem keeps_nsslRelayReserve : Keeps masks Inert nsslRelayReserve := by
  refine Keeps.bind keeps_nsslRelayReap fun _ ↦ ?_
  induction List.range nsslRelayMax with
  | nil => exact keeps_pure _
  | cons slot rest ih =>
    refine Keeps.bind (keeps_access fun s ↦ ?_) fun _ ↦ Keeps.ite ih ?_
    · unfold claimRelay
      split <;> rfl
    refine Keeps.bind (keeps_resetRelay slot) fun _ ↦ Keeps.bind (keeps_perform trivial) fun _ ↦ ?_
    refine Keeps.ite (Keeps.bind (keeps_storeRelay _ _) fun _ ↦ keeps_pure _) ?_
    exact Keeps.bind (keeps_ignore (keeps_perform trivial)) fun _ ↦ keeps_pure _

theorem keeps_nsslRelayStopSlot (slot : ℤ) : Keeps masks Inert (nsslRelayStopSlot slot) :=
  Keeps.when (Keeps.bind (keeps_loadRelay _ _) fun _ ↦ Keeps.when (keeps_storeRelay _ _))

theorem keeps_stopAllocated (slots : List ℕ) : Keeps masks Inert (stopAllocated slots) := by
  induction slots with
  | nil => exact keeps_pure _
  | cons slot rest ih =>
    refine Keeps.bind (keeps_loadRelay _ _) fun _ ↦
      Keeps.bind (Keeps.when (keeps_storeRelay _ _)) fun _ ↦ Keeps.bind ih fun _ ↦ keeps_pure _

theorem keeps_anyAlive (slots : List ℕ) : Keeps masks Inert (anyAlive slots) := by
  induction slots with
  | nil => exact keeps_pure _
  | cons slot rest ih =>
    refine Keeps.bind (keeps_loadRelay _ _) fun _ ↦ Keeps.ite ih ?_
    exact Keeps.bind (keeps_perform trivial) fun _ ↦ Keeps.bind ih fun _ ↦ keeps_pure _

theorem keeps_waitRelays (deadline : ℤ) (fuel : ℕ) :
    Keeps masks Inert (waitRelays deadline fuel) := by
  induction fuel with
  | zero => trivial
  | succ fuel ih =>
    refine Keeps.bind (keeps_perform trivial) fun _ ↦ Keeps.ite ?_ (keeps_pure _)
    refine Keeps.bind (keeps_anyAlive _) fun _ ↦ Keeps.ite ?_ (keeps_pure _)
    exact Keeps.bind (keeps_ignore (keeps_perform trivial)) fun _ ↦ ih

theorem keeps_nsslRelayStopAll (fuel : ℕ) : Keeps masks Inert (nsslRelayStopAll fuel) :=
  Keeps.bind (keeps_stopAllocated _) fun _ ↦ Keeps.when (Keeps.bind (keeps_perform trivial) fun _ ↦
    Keeps.bind (keeps_waitRelays _ fuel) fun _ ↦ keeps_nsslRelayReap)

theorem keeps_forgetConnections : Keeps masks Inert forgetConnections :=
  Keeps.each fun _ _ ↦ keeps_store fun _ ↦ rfl

end Frames

/-! ## Opening -/

section Opening

variable {x : MarkMachine} {w₀ : ℤ → NativeUse}

/-- The invariant in the world `w₀`. -/
def Before (w₀ : ℤ → NativeUse) (m : Masks) (w : ℤ → NativeUse) : Prop := MarkInv m w ∧ w = w₀

/-- The invariant, and a descriptor that was not open in `w₀`, if any. -/
def Opened (w₀ : ℤ → NativeUse) (code : ℤ) (y : MarkMachine) : Prop :=
  At MarkInv y ∧ (0 ≤ code → w₀ code = .closed)

/-- A native descriptor for the title. -/
theorem mark_openNative {request : Export} (hx : At (Before w₀) x)
    (hrequest : ∀ s w answer, markEffect s w (.native request) answer = openTitle w answer.code) :
    markWp (native request) (fun r y ↦ Opened w₀ r.code y ∧
      (0 ≤ r.code → Unmarked (masks y.mem) r.code ∧ y.world r.code = .title)) x := by
  refine ⟨trivial, fun answer y hreply ↦ ?_⟩
  obtain ⟨w, heffect, rfl⟩ := Option.map_eq_some_iff.mp hreply
  rw [hrequest] at heffect
  obtain ⟨hinv, rfl⟩ := hx
  obtain ⟨hinv', hfresh⟩ := hinv.openTitle heffect
  refine ⟨⟨hinv', fun hpos ↦ ?_⟩, hfresh⟩
  obtain ⟨hneg, -⟩ | ⟨-, hclosed, -⟩ := openTitle_cases heffect
  · exact absurd hpos (by omega)
  · exact hclosed

theorem mark_callOpen {request : Export} (hx : At (Before w₀) x)
    (hrequest : ∀ s w answer, markEffect s w (.native request) answer = openTitle w answer.code) :
    markWp (callNative request) (fun r ↦ Opened w₀ r.code) x :=
  wp_seq (mark_frame (keeps_setErrno (-1)) hx) fun _ _ hy ↦
    wp_mono (mark_openNative hy hrequest) fun _ _ h ↦ h.1

theorem mark_placeholder (lwfd type protocol : ℤ) (hx : At (Before w₀) x) :
    markWp (placeholder lwfd type protocol)
      (fun r y ↦ At MarkInv y ∧ ∀ fd, r = some fd → w₀ fd = .closed) x := by
  refine wp_seq (mark_openNative hx fun _ _ _ ↦ rfl) fun fd y ⟨⟨hinv, hclosed⟩, hfresh⟩ ↦ ?_
  refine wp_cases (fun hrange ↦ ?_) fun hrange ↦ ?_
  -- A number of 32 or more is given back at once.
  · have hgive : markWp (when (fd.code ≥ 0) (ignore (native (.socketclose fd.code))))
        (fun _ ↦ At MarkInv) y := by
      rw [markWp, wp_when]
      split
      · rename_i hpos
        refine ⟨trivial, fun answer z hreply ↦ ?_⟩
        obtain ⟨w, heffect, rfl⟩ := Option.map_eq_some_iff.mp hreply
        obtain rfl := Option.some.inj heffect
        exact hinv.closeUse (hfresh hpos).1 answer.code
      · exact hinv
    refine wp_seq hgive fun _ z hz ↦ ?_
    refine wp_seq (mark_frame (keeps_ignore (keeps_lwip _)) hz) fun _ z hz ↦ ?_
    exact wp_seq (mark_frame (keeps_setErrno emfile) hz) fun _ z hz ↦ ⟨hz, nofun⟩
  · obtain ⟨n, hn⟩ : ∃ n : ℕ, fd.code = n := ⟨fd.code.toNat, by omega⟩
    rw [hn] at hfresh hclosed hrange ⊢
    obtain ⟨hunmarked, htitle⟩ := hfresh (by omega)
    have htracked := hinv.track hunmarked htitle (by omega)
    have htrack : markWp (trackFd n lwfd) (fun _ ↦ At MarkInv) y := by
      refine ⟨trivial, fun answer z hreply ↦ ?_⟩
      rw [markReply_inert (show Inert (.note (.tracked n)) from trivial) hreply]
      exact htracked
    refine wp_seq htrack fun _ z hz ↦ ⟨hz, fun fd hfd ↦ ?_⟩
    obtain rfl := Option.some.inj hfd
    exact hclosed (by omega)

theorem mark_hookSocket (domain type protocol : ℤ) (hx : At (Before w₀) x) :
    markWp (hookSocket domain type protocol) (fun r ↦ Opened w₀ r.code) x := by
  refine wp_seq (mark_frame (keeps_socketRoute domain) hx) fun route y hy ↦ ?_
  refine wp_cases (fun _ ↦ mark_callOpen hy fun _ _ _ ↦ rfl) fun _ ↦ ?_
  refine wp_seq (mark_frame (keeps_setErrno 0) hy) fun _ y hy ↦ ?_
  refine wp_seq (mark_frame (keeps_lwipSocket domain type protocol) hy) fun s y hy ↦ ?_
  refine wp_cases (fun hneg ↦ ⟨hy.1, fun hpos ↦ absurd hpos (Int.not_le.mpr hneg)⟩) fun _ ↦ ?_
  refine wp_seq (mark_frame (keeps_socketDefaults s _) hy) fun _ y hy ↦ ?_
  refine wp_seq (mark_placeholder s _ protocol hy) fun fd y ⟨hinv, hclosed⟩ ↦ ?_
  cases fd with
  | none => exact ⟨hinv, fun hpos ↦ absurd hpos (by decide)⟩
  | some fd =>
    refine wp_seq (mark_frame keeps_noteActivity hinv) fun _ z hz ↦ ?_
    exact ⟨hz, fun _ ↦ hclosed fd rfl⟩

theorem mark_hookAccept (sockfd : ℤ) (addr : Bool) (addrlen : Option ℕ) (hx : At (Before w₀) x) :
    markWp (hookAccept sockfd addr addrlen) (fun r ↦ Opened w₀ r.code) x := by
  refine wp_seq (mark_frame (keeps_isForeign sockfd) hx) fun foreign y hy ↦ ?_
  refine wp_cases (fun _ ↦ mark_callOpen hy fun _ _ _ ↦ rfl) fun _ ↦ ?_
  refine wp_seq (mark_frame (keeps_setErrno 0) hy) fun _ y hy ↦ ?_
  refine wp_cases (fun _ ↦ ?_) fun _ ↦ ?_
  · exact wp_seq (mark_frame (keeps_setErrno efault) hy) fun _ z hz ↦
      ⟨hz.1, fun hpos ↦ absurd hpos (by decide)⟩
  refine wp_seq (mark_frame (keeps_stackFd sockfd) hy) fun lwfd y hy ↦ ?_
  refine wp_seq (mark_frame (keeps_lwip _) hy) fun s y hy ↦ ?_
  refine wp_cases (fun hneg ↦ ⟨hy.1, fun hpos ↦ absurd hpos (Int.not_le.mpr hneg)⟩) fun _ ↦ ?_
  refine wp_seq (mark_frame (keeps_ignore (keeps_lwip _)) hy) fun _ y hy ↦ ?_
  refine wp_seq (mark_frame (keeps_ignore (keeps_lwip _)) hy) fun _ y hy ↦ ?_
  refine wp_seq (mark_placeholder s.code _ 0 hy) fun fd y ⟨hinv, hclosed⟩ ↦ ?_
  cases fd with
  | none => exact ⟨hinv, fun hpos ↦ absurd hpos (by decide)⟩
  | some fd => exact ⟨hinv, fun _ ↦ hclosed fd rfl⟩

end Opening

/-! ## Closing -/

section Closing

variable {x : MarkMachine}

/-- Closing an unmarked descriptor. -/
theorem mark_close {fd : ℤ} {P : Masks → Prop}
    (hx : At (fun m w ↦ MarkInv m w ∧ Unmarked m fd ∧ P m) x) :
    markWp (native (.socketclose fd)) (fun _ ↦ At fun m w ↦ MarkInv m w ∧ P m) x := by
  refine ⟨trivial, fun answer y hreply ↦ ?_⟩
  obtain ⟨w, heffect, rfl⟩ := Option.map_eq_some_iff.mp hreply
  obtain rfl := Option.some.inj heffect
  exact ⟨hx.1.closeUse hx.2.1 answer.code, hx.2.2⟩

theorem mark_ignoreClose {fd : ℤ} {P : Masks → Prop}
    (hx : At (fun m w ↦ MarkInv m w ∧ Unmarked m fd ∧ P m) x) :
    markWp (ignore (native (.socketclose fd))) (fun _ ↦ At fun m w ↦ MarkInv m w ∧ P m) x :=
  (wp_bind _ _ _ _).mpr (mark_close hx)

/-- What a native close forgets is all that a foreign descriptor can be marked with. -/
theorem mark_forgetNative (fd : ℕ) (hforeign : x.mem.openMask.getLsbD fd = false)
    (hx : At MarkInv x) :
    markWp (forgetNative fd) (fun _ ↦ At fun m w ↦ MarkInv m w ∧ Unmarked m fd) x := by
  refine ⟨?_, ?_⟩
  · exact hx.shrink (fun _ h ↦ h) (fun _ h ↦ (getLsbD_and_not_bit.mp h).2)
      fun _ h ↦ (getLsbD_and_not_bit.mp h).2
  · rintro other hother
    obtain rfl : other = fd := Int.ofNat.inj hother
    refine ⟨hforeign, Bool.eq_false_iff.mpr fun h ↦ ?_, Bool.eq_false_iff.mpr fun h ↦ ?_⟩
    · exact (getLsbD_and_not_bit.mp h).1 rfl
    · exact (getLsbD_and_not_bit.mp h).1 rfl

theorem unmarked_of_range {m : Masks} {n : ℤ} (hn : ¬(0 ≤ n ∧ n < 32)) : Unmarked m n := by
  rintro fd rfl
  have hge : 32 ≤ fd := by omega
  exact ⟨BitVec.getLsbD_of_ge _ _ hge, BitVec.getLsbD_of_ge _ _ hge, BitVec.getLsbD_of_ge _ _ hge⟩

theorem mark_untrackFd {fd : ℤ} (hfd : 0 ≤ fd)
    (hx : At (fun m w ↦ MarkInv m w ∧ m.openMask.getLsbD fd.toNat = true) x) :
    markWp (untrackFd fd.toNat) (fun _ ↦ At fun m w ↦ MarkInv m w ∧ Unmarked m fd) x := by
  refine ⟨hx.1.shrink (fun _ h ↦ (getLsbD_and_not_bit.mp h).2) (fun _ h ↦ h) fun _ h ↦ h, ?_⟩
  rintro other rfl
  refine ⟨Bool.eq_false_iff.mpr fun h ↦ ?_, Bool.eq_false_iff.mpr fun h ↦ ?_,
    Bool.eq_false_iff.mpr fun h ↦ ?_⟩
  · exact (getLsbD_and_not_bit.mp h).1 rfl
  · exact Bool.eq_false_iff.mp (hx.1.ftp other h).2 hx.2
  · exact Bool.eq_false_iff.mp (hx.1.nssl other h).2 hx.2

theorem mark_hookSocketclose (sockfd : ℤ) (haccepting : x.mem.acceptingSockets ≠ 0)
    (hx : At MarkInv x) : markWp (hookSocketclose sockfd) (fun _ ↦ At MarkInv) x := by
  refine (wp_bind _ _ _ _).mpr (wp_isForeign fun foreign howned ↦ wp_cases (fun hforeign ↦ ?_) ?_)
  · have hforget : markWp (when (0 ≤ sockfd ∧ sockfd < 32) (forgetNative sockfd.toNat))
        (fun _ ↦ At fun m w ↦ MarkInv m w ∧ Unmarked m sockfd) x := by
      rw [markWp, wp_when]
      split
      · rename_i hrange
        have hout : x.mem.openMask.getLsbD sockfd.toNat = false := by
          refine Bool.eq_false_iff.mpr fun htracked ↦ ?_
          have hfalse := howned.mpr ⟨haccepting, hrange.1, hrange.2, htracked⟩
          rw [hforeign] at hfalse
          cases hfalse
        have hforgot := mark_forgetNative sockfd.toNat hout hx
        rw [Int.toNat_of_nonneg hrange.1] at hforgot
        exact hforgot
      · exact ⟨hx, unmarked_of_range ‹_›⟩
    refine wp_seq hforget fun _ y hy ↦ ?_
    refine wp_seq (mark_frame (keeps_nsslRelayDetachPublicFd sockfd) hy) fun _ y hy ↦ ?_
    refine wp_seq (mark_frame (keeps_setErrno (-1)) hy) fun _ y hy ↦ ?_
    refine wp_mono (mark_close (P := fun _ ↦ True) ⟨hy.1, hy.2, trivial⟩) fun _ z hz ↦ hz.1
  · intro hserved
    have hown := howned.mp (Bool.eq_false_iff.mpr hserved)
    have hx : At (fun m w ↦ MarkInv m w ∧ m.openMask.getLsbD sockfd.toNat = true) x :=
      ⟨hx, hown.tracked⟩
    refine wp_seq (mark_frame (keeps_setErrno 0) hx) fun _ y hy ↦ ?_
    refine wp_seq (mark_frame (keeps_stackFd sockfd) hy) fun lwfd y hy ↦ ?_
    refine wp_seq (mark_frame (keeps_lwip _) hy) fun r y hy ↦ ?_
    have hdrop : markWp (when (r.code = 0) do
        untrackFd sockfd.toNat
        ignore (native (.socketclose sockfd))) (fun _ ↦ At MarkInv) y := by
      rw [markWp, wp_when]
      split
      · refine wp_seq (mark_untrackFd hown.nonneg hy) fun _ z hz ↦ ?_
        exact wp_mono (mark_ignoreClose (P := fun _ ↦ True) ⟨hz.1, hz.2, trivial⟩) fun _ _ h ↦ h.1
      · exact hy.1
    exact wp_seq hdrop fun _ z hz ↦ hz

theorem mark_closeMapped {P : Masks → (ℤ → NativeUse) → Prop} (mask : BitVec 32) (hx : At P x) :
    markWp (closeMapped mask) (fun _ ↦ At P) x :=
  mark_frame (Keeps.each fun _ _ ↦ Keeps.when (Keeps.bind (keeps_stackFd _) fun _ ↦
    keeps_ignore (keeps_lwip _))) hx

/-- No mark is left when the native sockets are closed. -/
theorem mark_hookSocketcloseAll (haccepting : x.mem.acceptingSockets ≠ 0) :
    markWp hookSocketcloseAll (fun _ ↦ At MarkInv) x := by
  have hcleared : At (fun m _ ↦ m.ftp = 0 ∧ m.nssl = 0 ∧ m.accepting ≠ 0)
      { x with mem := { x.mem with ftpRestartMask := 0, nsslPublicMask := 0 } } :=
    ⟨rfl, rfl, haccepting⟩
  rw [markWp, hookSocketcloseAll, wp_bind, wp_store, wp_bind, wp_store]
  refine wp_seq (mark_frame keeps_forgetConnections hcleared) fun _ y hy ↦ ?_
  refine (wp_bind _ _ _ _).mpr (wp_cases (fun hoff ↦ ?_) fun _ ↦ ?_)
  · exact absurd hy.2.2 (of_decide_eq_false hoff)
  · have hempty : At (fun m _ ↦ m.openMask = 0 ∧ m.ftp = 0 ∧ m.nssl = 0)
        { y with mem := { y.mem with openMask := 0 } } := ⟨rfl, hy.1, hy.2.1⟩
    rw [wp_bind, wp_access]
    refine wp_seq (mark_closeMapped _ hempty) fun _ y hy ↦ ?_
    refine wp_seq (mark_frame (keeps_setErrno (-1)) hy) fun _ y hy ↦ ⟨trivial, fun answer z hz ↦ ?_⟩
    change MarkInv (masks z.mem) z.world
    rw [leavesMemory_markReply _ _ _ _ hz]
    exact .of_empty hy.1 hy.2.1 hy.2.2

end Closing

/-! ## Moves between the stacks -/

section Moves

variable {x : MarkMachine}

theorem mark_untracked (fd : ℕ) (hx : At MarkInv x) : markWp (untrackFd fd) (fun _ ↦ At MarkInv) x :=
  MarkInv.shrink hx (fun _ h ↦ (getLsbD_and_not_bit.mp h).2) (fun _ h ↦ h) fun _ h ↦ h

theorem keeps_ftpRewriteBindToAx (sockfd : ℤ) (addr : Sockaddr) :
    Keeps masks Inert (ftpRewriteBindToAx sockfd addr) := by
  refine Keeps.bind (keeps_stackFd _) fun _ ↦ Keeps.bind (keeps_lwip _) fun _ ↦ ?_
  refine Keeps.ite (keeps_pure _) (Keeps.bind (keeps_perform trivial) fun _ ↦ ?_)
  refine Keeps.ite (keeps_pure _) (Keeps.ite ?_ (Keeps.ite ?_ (keeps_pure _)))
  · exact Keeps.bind (keeps_store fun _ ↦ rfl) fun _ ↦
      Keeps.bind (keeps_store fun _ ↦ rfl) fun _ ↦ keeps_pure _
  · refine Keeps.bind (keeps_load _) fun _ ↦ Keeps.ite (keeps_pure _) ?_
    exact Keeps.bind (keeps_load _) fun _ ↦ keeps_pure _

theorem mark_hookBind (sockfd : ℤ) (addr : Option Sockaddr) (addrlen : ℕ) (hx : At MarkInv x) :
    markWp (hookBind sockfd addr addrlen) (fun _ ↦ At MarkInv) x := by
  refine wp_seq (mark_frame (keeps_isForeign sockfd) hx) fun foreign y hy ↦ ?_
  refine wp_cases (fun _ ↦ mark_frame (keeps_callNative trivial) hy) fun _ ↦ ?_
  refine wp_seq (mark_frame (keeps_setErrno 0) hy) fun _ y hy ↦ ?_
  cases sockaddrToLwip addr addrlen with
  | none => exact mark_frame (keeps_fail eafnosupport) hy
  | some l =>
    refine wp_cases (fun _ ↦ ?_) fun _ ↦ ?_
    · refine wp_seq (mark_frame (keeps_stackFd sockfd) hy) fun lwfd y hy ↦ ?_
      refine wp_seq (mark_frame (keeps_ignore (keeps_lwip _)) hy) fun _ y hy ↦ ?_
      refine wp_seq (mark_untracked sockfd.toNat hy) fun _ y hy ↦ ?_
      exact mark_frame (keeps_callNative trivial) hy
    · refine mark_frame (Keeps.bind (keeps_ftpRewriteBindToAx sockfd l) fun _ ↦ ?_) hy
      exact Keeps.bind (keeps_stackFd _) fun _ ↦ Keeps.bind (keeps_lwip _) fun _ ↦ keeps_pure _

theorem mark_unmapFd (sockfd : ℤ) (hx : At MarkInv x) :
    markWp (unmapFd sockfd) (fun _ ↦ At MarkInv) x :=
  wp_seq (mark_untracked sockfd.toNat hx) fun _ _ hy ↦ mark_frame (keeps_store fun _ ↦ rfl) hy

theorem keeps_realSocketlasterr : Keeps masks Inert realSocketlasterr :=
  Keeps.bind (keeps_perform trivial) fun _ ↦ keeps_pure _

theorem mark_promoteAxSocketToNative (sockfd : ℤ) (hx : At MarkInv x) :
    markWp (promoteAxSocketToNative sockfd) (fun _ ↦ At MarkInv) x := by
  refine wp_seq (mark_frame (keeps_isForeign sockfd) hx) fun foreign y hy ↦ ?_
  refine wp_cases (fun _ ↦ hy) fun _ ↦ ?_
  refine wp_seq (mark_frame (keeps_stackFd sockfd) hy) fun lwfd y hy ↦ ?_
  refine wp_seq (mark_frame (keeps_lwip _) hy) fun peer y hy ↦ ?_
  refine wp_cases (fun _ ↦ hy) fun _ ↦ ?_
  cases sockaddrToLwip peer.addr 16 with
  | none => exact hy
  | some peer =>
    refine wp_seq (mark_frame (keeps_setErrno (-1)) hy) fun _ y hy ↦ ?_
    refine wp_seq (mark_frame (keeps_perform trivial) hy) fun rc y hy ↦ ?_
    refine wp_cases (fun _ ↦ ?_) fun _ ↦ ?_
    · exact mark_frame (Keeps.bind keeps_realSocketlasterr fun _ ↦ keeps_pure _) hy
    · refine wp_seq (mark_unmapFd sockfd hy) fun _ y hy ↦ ?_
      exact mark_frame (Keeps.bind (keeps_ignore (keeps_lwip _)) fun _ ↦ keeps_pure _) hy

/-! ## The bridge -/

/-- The public descriptor is served by lwIP, and a private one has no marks. -/
def Bridging (sockfd : ℤ) (n : ℤ) (m : Masks) (w : ℤ → NativeUse) : Prop :=
  MarkInv m w ∧ Unmarked m n ∧ m.openMask.getLsbD sockfd.toNat = true

/-- Where there is a relay, the public descriptor is a socket of the title outside `open_mask`. -/
def Bridged (sockfd slot : ℤ) (m : Masks) (w : ℤ → NativeUse) : Prop :=
  MarkInv m w ∧ (0 ≤ slot → w sockfd = .title ∧ m.openMask.getLsbD sockfd.toNat = false)

theorem Bridged.none {m : Masks} {w : ℤ → NativeUse} (sockfd : ℤ) (h : MarkInv m w) :
    Bridged sockfd (-1) m w :=
  ⟨h, fun hpos ↦ absurd hpos (by decide)⟩

variable {sockfd : ℤ}

/-- A native descriptor for the bridge itself. -/
theorem mark_openPrivate {request : Export} {P : Masks → Prop}
    (hrequest : ∀ s w answer, markEffect s w (.native request) answer = openTitle w answer.code)
    (hx : At (fun m w ↦ MarkInv m w ∧ P m) x) :
    markWp (native request) (fun r y ↦ At (fun m w ↦ MarkInv m w ∧ P m) y ∧
      (0 ≤ r.code → Unmarked (masks y.mem) r.code)) x := by
  refine ⟨trivial, fun answer z hreply ↦ ?_⟩
  obtain ⟨w, heffect, rfl⟩ := Option.map_eq_some_iff.mp hreply
  rw [hrequest] at heffect
  obtain ⟨hinv, hfresh⟩ := hx.1.openTitle heffect
  exact ⟨⟨hinv, hx.2⟩, fun hpos ↦ (hfresh hpos).1⟩

theorem mark_bridgeFail (listener slot code : ℤ) (hx : At (Bridging sockfd listener) x) :
    markWp (bridgeFail listener slot code) (fun r ↦ At (Bridged sockfd r.2)) x := by
  refine wp_seq (mark_ignoreClose hx) fun _ y hy ↦ ?_
  exact wp_seq (mark_frame (keeps_nsslRelayStopSlot slot) hy) fun _ z hz ↦ .none sockfd hz.1

theorem mark_bridgeFailNative (listener slot base : ℤ) (hx : At (Bridging sockfd listener) x) :
    markWp (bridgeFailNative listener slot base) (fun r ↦ At (Bridged sockfd r.2)) x :=
  wp_seq (mark_frame keeps_realSocketlasterr hx) fun _ _ hy ↦ mark_bridgeFail _ _ _ hy

theorem mark_bridgePublish (hsockfd : 0 ≤ sockfd) (lwfd accepted : ℤ) (slot : ℕ)
    (hx : At (Bridging sockfd accepted) x) :
    markWp (bridgePublish sockfd lwfd accepted slot) (fun r ↦ At (Bridged sockfd r.2)) x := by
  rw [markWp, bridgePublish, wp_bind, storeRelay, wp_store, wp_bind, storeRelay, wp_store,
    ShimState.setRelay_setRelay]
  have hadopt : markWp (note (.adopted slot))
      (fun _ ↦ At fun m w ↦ MarkInv m w ∧ m.openMask.getLsbD sockfd.toNat = true)
      { x with mem := x.mem.setRelay slot fun r ↦ { r with nativeFd := accepted, lwfd := lwfd } } := by
    refine ⟨trivial, fun answer y hreply ↦ ?_⟩
    obtain ⟨w, heffect, rfl⟩ := Option.map_eq_some_iff.mp hreply
    obtain rfl := Option.some.inj heffect
    simp only [ShimState.setRelay_self]
    exact ⟨hx.1.update hx.2.1 .relay, hx.2.2⟩
  refine wp_seq hadopt fun _ y hy ↦ ?_
  refine wp_seq (mark_frame (keeps_storeRelay _ _) hy) fun _ y hy ↦ ?_
  have htitle : y.world sockfd = .title := by
    have hown := hy.1.owned sockfd.toNat hy.2
    rwa [Int.toNat_of_nonneg hsockfd] at hown
  have hunmap : markWp (unmapFd sockfd) (fun _ ↦ At fun m w ↦ MarkInv m w ∧ w sockfd = .title ∧
      m.openMask.getLsbD sockfd.toNat = false) y := by
    refine ⟨mark_untracked sockfd.toNat hy.1, htitle, Bool.eq_false_iff.mpr fun h ↦ ?_⟩
    exact (getLsbD_and_not_bit.mp h).1 rfl
  refine wp_seq hunmap fun _ z hz ↦ ?_
  exact wp_seq (mark_frame (keeps_storeRelay _ _) hz) fun _ z hz ↦ ⟨hz.1, fun _ ↦ hz.2⟩

theorem mark_bridgeConnect (hsockfd : 0 ≤ sockfd) (lwfd listener slot : ℤ) (loc : Sockaddr)
    (hx : At (Bridging sockfd listener) x) :
    markWp (bridgeConnect sockfd lwfd listener slot loc) (fun r ↦ At (Bridged sockfd r.2)) x := by
  refine wp_seq (mark_frame (keeps_perform trivial) hx) fun connected y hy ↦ ?_
  refine wp_cases (fun _ ↦ mark_bridgeFailNative _ _ _ hy) fun _ ↦ ?_
  refine wp_seq (mark_openPrivate (fun _ _ _ ↦ rfl) hy) fun accepted y ⟨hy, hfresh⟩ ↦ ?_
  have hclose : At (fun m w ↦ MarkInv m w ∧ Unmarked m listener ∧
      m.openMask.getLsbD sockfd.toNat = true ∧ (0 ≤ accepted.code → Unmarked m accepted.code)) y :=
    ⟨hy.1, hy.2.1, hy.2.2, hfresh⟩
  refine wp_seq (mark_ignoreClose hclose) fun _ y hy ↦ wp_cases (fun _ ↦ ?_) fun haccepted ↦ ?_
  · refine wp_seq (mark_frame keeps_realSocketlasterr hy) fun error y hy ↦ ?_
    exact wp_seq (mark_frame (keeps_nsslRelayStopSlot slot) hy) fun _ z hz ↦ .none sockfd hz.1
  · exact mark_bridgePublish hsockfd lwfd _ _ ⟨hy.1, hy.2.2 (by omega), hy.2.1⟩

theorem mark_bridgeListen (hsockfd : 0 ≤ sockfd) (lwfd listener slot : ℤ)
    (hx : At (Bridging sockfd listener) x) :
    markWp (bridgeListen sockfd lwfd listener slot) (fun r ↦ At (Bridged sockfd r.2)) x := by
  refine wp_seq (mark_frame (keeps_lwip _) hx) fun parsed y hy ↦ ?_
  refine wp_cases (fun _ ↦ mark_bridgeFail _ _ _ hy) fun _ ↦ ?_
  refine wp_seq (mark_frame (keeps_perform trivial) hy) fun bound y hy ↦ ?_
  refine wp_cases (fun _ ↦ mark_bridgeFailNative _ _ _ hy) fun _ ↦ ?_
  refine wp_seq (mark_frame (keeps_perform trivial) hy) fun listening y hy ↦ ?_
  refine wp_cases (fun _ ↦ mark_bridgeFailNative _ _ _ hy) fun _ ↦ ?_
  refine wp_seq (mark_frame (keeps_perform trivial) hy) fun name y hy ↦ ?_
  refine wp_cases (fun _ ↦ mark_bridgeFailNative _ _ _ hy) fun _ ↦ ?_
  exact mark_bridgeConnect hsockfd lwfd listener slot _ hy

theorem mark_bridgeAxSocketToNssl (sockfd : ℤ) (hx : At MarkInv x) :
    markWp (bridgeAxSocketToNssl sockfd) (fun r ↦ At (Bridged sockfd r.2)) x := by
  refine (wp_bind _ _ _ _).mpr (wp_isForeign fun foreign howned ↦ ?_)
  refine wp_cases (fun _ ↦ .none sockfd hx) fun hserved ↦ ?_
  have hown := howned.mp (Bool.eq_false_iff.mpr hserved)
  have hx : At (fun m w ↦ MarkInv m w ∧ m.openMask.getLsbD sockfd.toNat = true) x :=
    ⟨hx, hown.tracked⟩
  refine wp_seq (mark_frame (keeps_stackFd sockfd) hx) fun lwfd y hy ↦ ?_
  refine wp_seq (mark_frame (keeps_lwip _) hy) fun peer y hy ↦ ?_
  refine wp_cases (fun _ ↦ .none sockfd hy.1) fun _ ↦ wp_cases (fun _ ↦ .none sockfd hy.1) fun _ ↦ ?_
  refine wp_seq (mark_frame keeps_nsslRelayReserve hy) fun slot y hy ↦ ?_
  refine wp_cases (fun _ ↦ .none sockfd hy.1) fun _ ↦ ?_
  refine wp_seq (mark_openPrivate (fun _ _ _ ↦ rfl) hy) fun listener y ⟨hy, hfresh⟩ ↦
    wp_cases (fun _ ↦ ?_) fun hlistener ↦ ?_
  · exact wp_seq (mark_frame (keeps_nsslRelayStopSlot slot) hy) fun _ z hz ↦ .none sockfd hz.1
  · exact mark_bridgeListen hown.nonneg lwfd _ slot ⟨hy.1, hfresh (by omega), hy.2⟩

theorem mark_nsslPrepare (sockfd : ℤ) (hx : At MarkInv x) :
    markWp (nsslPrepare sockfd) (fun r ↦ At (Bridged sockfd r.2)) x := by
  refine wp_seq (mark_frame (keeps_isForeign sockfd) hx) fun foreign y hy ↦ ?_
  refine wp_cases (fun _ ↦ .none sockfd hy) fun _ ↦ ?_
  refine wp_seq (mark_frame (keeps_load _) hy) fun bridge y hy ↦ wp_cases (fun _ ↦ ?_) fun _ ↦ ?_
  · exact wp_seq (mark_bridgeAxSocketToNssl sockfd hy) fun _ _ hz ↦ hz
  · exact wp_seq (mark_promoteAxSocketToNative sockfd hy) fun _ _ hz ↦ .none sockfd hz

/-- The descriptor of a new connection is a socket of the title outside `open_mask`. -/
theorem mark_nsslTrackPublicConnection (connection : ℤ)
    (hx : At (fun m w ↦ MarkInv m w ∧ w sockfd = .title ∧
      m.openMask.getLsbD sockfd.toNat = false) x) :
    markWp (nsslTrackPublicConnection sockfd connection) (fun _ ↦ At MarkInv) x := by
  rw [nsslTrackPublicConnection, markWp, wp_when]
  split
  · rename_i hrange
    refine hx.1.markNssl ?_ hx.2.2 (by omega)
    rw [Int.toNat_of_nonneg hrange.1]
    exact hx.2.1
  · exact hx.1

theorem mark_hookNsslCreateConnection (context : ℤ) (host : Option String)
    (hostLength options sockfd block : ℤ) (hx : At MarkInv x) :
    markWp (hookNsslCreateConnection context host hostLength options sockfd block)
      (fun _ ↦ At MarkInv) x := by
  refine wp_seq (mark_nsslPrepare sockfd hx) fun prepared y hy ↦ ?_
  refine wp_cases (fun _ ↦ hy.1) fun _ ↦ ?_
  refine wp_seq (mark_frame (keeps_perform trivial) hy) fun result y hy ↦ ?_
  have htrack : markWp (when (0 ≤ prepared.2) (if result.code < 0 then nsslRelayStopSlot prepared.2
      else nsslTrackPublicConnection sockfd result.code)) (fun _ ↦ At MarkInv) y := by
    rw [markWp, wp_when]
    split
    · rename_i hslot
      refine wp_cases (fun _ ↦ mark_frame (keeps_nsslRelayStopSlot _) hy.1) fun _ ↦ ?_
      exact mark_nsslTrackPublicConnection result.code ⟨hy.1, hy.2 hslot⟩
    · exact hy.1
  exact wp_seq htrack fun _ _ hz ↦ hz

theorem mark_hookNsslDestroyConnection (connection : ℤ) (hx : At MarkInv x) :
    markWp (hookNsslDestroyConnection connection) (fun _ ↦ At MarkInv) x := by
  refine wp_seq (mark_frame (keeps_perform trivial) hx) fun result y hy ↦ ?_
  refine wp_seq (mark_frame (keeps_load _) hy) fun mask y hy ↦ ?_
  refine wp_seq (wp_each hy fun fd _ y hy ↦ ?_) fun _ _ hz ↦ hz
  rw [wp_when]
  split
  · refine wp_seq (mark_frame (keeps_load _) hy) fun owner y hy ↦ ?_
    rw [wp_when]
    split
    · refine wp_seq (mark_frame (keeps_nsslRelayDetachPublicFd fd) hy) fun _ y hy ↦ ?_
      exact MarkInv.shrink hy (fun _ h ↦ h) (fun _ h ↦ h) fun _ h ↦ (getLsbD_and_not_bit.mp h).2
    · exact hy
  · exact hy

theorem mark_hookNsslFinish (fuel : ℕ) (hx : At MarkInv x) :
    markWp (hookNsslFinish fuel) (fun _ ↦ At MarkInv) x := by
  refine wp_seq (mark_frame (keeps_perform trivial) hx) fun result y hy ↦ ?_
  refine wp_seq (mark_frame (keeps_nsslRelayStopAll fuel) hy) fun _ y hy ↦ ?_
  rw [wp_bind, wp_store]
  have hcleared : At MarkInv { y with mem := { y.mem with nsslPublicMask := 0 } } :=
    MarkInv.shrink hy (fun _ h ↦ h) (fun _ h ↦ h) zero_le_mask
  exact wp_seq (mark_frame keeps_forgetConnections hcleared) fun _ _ hz ↦ hz

end Moves

/-! ## select and setsockopt -/

section Uses

variable {x : MarkMachine}

theorem keeps_loadMapped (fds : List ℕ) : Keeps masks Inert (loadMapped fds) := by
  induction fds with
  | nil => exact keeps_pure _
  | cons fd rest ih =>
    exact Keeps.bind (keeps_stackFd _) fun _ ↦ Keeps.bind ih fun _ ↦ keeps_pure _

theorem keeps_lwipSelectBits (nfds : ℕ) (want : BitVec 32) (sets : SelectSets)
    (tv : Option Timeval) : Keeps masks Inert (lwipSelectBits nfds want sets tv) := by
  refine Keeps.bind (keeps_loadMapped _) fun _ ↦ Keeps.bind (keeps_lwip _) fun _ ↦ ?_
  exact Keeps.ite (keeps_pure _) (Keeps.bind (keeps_loadMapped _) fun _ ↦ keeps_pure _)

theorem keeps_deadlineAfter (ticks : Option ℤ) : Keeps masks Inert (deadlineAfter ticks) := by
  cases ticks with
  | none => exact keeps_pure _
  | some ticks => exact Keeps.bind (keeps_perform trivial) fun _ ↦ keeps_pure _

theorem keeps_selectMixed (nfds : ℤ) (want nat : BitVec 32) (sets : SelectSets)
    (deadline : Option ℤ) (fuel : ℕ) :
    Keeps masks Inert (selectMixed nfds want nat sets deadline fuel) := by
  induction fuel with
  | zero => trivial
  | succ fuel ih =>
    refine Keeps.bind (keeps_perform trivial) fun _ ↦ Keeps.ite ?_ ?_
    · exact Keeps.bind (keeps_setErrno _) fun _ ↦ keeps_pure _
    refine Keeps.bind (keeps_lwipSelectBits _ _ _ _) fun _ ↦ Keeps.ite (keeps_pure _) ?_
    refine Keeps.ite (keeps_pure _) ?_
    have hrest : ∀ expired : Bool, Keeps masks Inert
        (if expired then pure (selectReply 0 (sets.restrict 0))
        else do
          ignore (os (.osSleepTicks 2))
          selectMixed nfds want nat sets deadline fuel) := fun _ ↦
      Keeps.ite (keeps_pure _) (Keeps.bind (keeps_ignore (keeps_perform trivial)) fun _ ↦ ih)
    cases deadline with
    | none => exact hrest false
    | some deadline =>
      exact Keeps.bind (keeps_perform trivial) fun _ ↦ hrest _

theorem keeps_selectRoute (nfds : ℤ) (sets : SelectSets) (timeout : Option Timeval) (fuel : ℕ)
    (want : BitVec 32) : Keeps masks Inert (selectRoute nfds sets timeout fuel want) := by
  refine Keeps.bind (keeps_load _) fun _ ↦ Keeps.ite (keeps_callNative trivial) ?_
  refine Keeps.bind (keeps_setErrno 0) fun _ ↦ Keeps.ite ?_ ?_
  · exact Keeps.bind (keeps_lwipSelectBits _ _ _ _) fun _ ↦ keeps_pure _
  · exact Keeps.bind (keeps_deadlineAfter _) fun _ ↦ keeps_selectMixed _ _ _ _ _ _

/-- A pending FTP handoff is dropped when it is reported. -/
theorem mark_hookSelect (nfds : ℤ) (readfds writefds exceptfds : Option (BitVec 32))
    (timeout : Option Timeval) (fuel : ℕ) (hx : At MarkInv x) :
    markWp (hookSelect nfds readfds writefds exceptfds timeout fuel) (fun _ ↦ At MarkInv) x := by
  refine wp_cases (fun _ ↦ mark_frame (keeps_fail einval) hx) fun _ ↦ ?_
  refine wp_seq (mark_frame (keeps_load _) hx) fun marked y hy ↦ wp_cases (fun _ ↦ ?_) fun _ ↦ ?_
  · rw [wp_bind, wp_store]
    refine mark_frame (Keeps.bind (keeps_setErrno ebadf) fun _ ↦ keeps_pure _) ?_
    refine MarkInv.shrink hy (fun _ h ↦ h) (fun fd h ↦ ?_) fun _ h ↦ h
    exact (Bool.and_eq_true_iff.mp (BitVec.getLsbD_and.symm.trans h)).1
  · exact mark_frame (keeps_selectRoute _ _ _ _ _) hy

theorem keeps_lwipSetsockopt (sockfd level optname : ℤ) (optval : Option OptValue) (optlen : ℕ) :
    Keeps masks Inert (lwipSetsockopt sockfd level optname optval optlen) :=
  Keeps.bind (keeps_stackFd _) fun _ ↦ Keeps.bind (keeps_lwip _) fun _ ↦ keeps_pure _

theorem keeps_storeCompat (fd : ℤ) (update : CompatSockState → CompatSockState) :
    Keeps masks Inert (do
      storeCompat fd update
      pure ({} : ShimReply)) :=
  Keeps.bind (keeps_store fun _ ↦ rfl) fun _ ↦ keeps_pure _

theorem keeps_compatSet (optval : Option OptValue) (optlen : ℕ) {set : ℤ → ShimM ShimReply}
    (hset : ∀ value, Keeps masks Inert (set value)) :
    Keeps masks Inert (compatSet optval optlen set) := by
  unfold compatSet
  cases compatInt optval optlen with
  | none => exact keeps_fail einval
  | some value => exact hset value

theorem keeps_setNonblocking (sockfd : ℤ) (on : Bool) :
    Keeps masks Inert (setNonblocking sockfd on) :=
  Keeps.bind (keeps_stackFd _) fun _ ↦ Keeps.bind (keeps_lwip _) fun _ ↦ keeps_pure _

theorem keeps_setSndbuf (sockfd value : ℤ) : Keeps masks Inert (setSndbuf sockfd value) := by
  refine Keeps.ite (keeps_fail einval) (Keeps.ite ?_ (keeps_storeCompat sockfd _))
  refine Keeps.bind (keeps_lwipSetsockopt _ _ _ _ _) fun _ ↦ Keeps.ite (keeps_pure _) ?_
  exact keeps_storeCompat sockfd _

theorem keeps_setRcvbuf (sockfd value : ℤ) : Keeps masks Inert (setRcvbuf sockfd value) := by
  refine Keeps.ite (keeps_fail einval) (Keeps.bind (keeps_lwipSetsockopt _ _ _ _ _) fun _ ↦ ?_)
  exact Keeps.bind (Keeps.when (keeps_store fun _ ↦ rfl)) fun _ ↦ keeps_pure _

theorem keeps_setMaxseg (sockfd value : ℤ) : Keeps masks Inert (setMaxseg sockfd value) :=
  Keeps.ite (keeps_fail einval) (keeps_storeCompat sockfd _)

theorem keeps_setLinger (sockfd : ℤ) (optval : Option OptValue) (optlen : ℕ) :
    Keeps masks Inert (setLinger sockfd optval optlen) := by
  cases optval with
  | none => exact keeps_fail einval
  | some l =>
    exact Keeps.ite (keeps_fail einval)
      (Keeps.bind (keeps_store fun _ ↦ rfl) fun _ ↦ keeps_storeCompat sockfd _)

theorem keeps_setSocketLevel (sockfd optname : ℤ) (optval : Option OptValue) (optlen : ℕ) :
    Keeps masks Inert (setSocketLevel sockfd optname optval optlen) := by
  refine Keeps.ite (keeps_setNonblocking _ _) (Keeps.ite (keeps_setNonblocking _ _) ?_)
  refine Keeps.ite (keeps_compatSet _ _ fun _ ↦ keeps_setNonblocking _ _) ?_
  refine Keeps.ite (keeps_compatSet _ _ fun _ ↦ keeps_storeCompat sockfd _) ?_
  refine Keeps.ite (keeps_compatSet _ _ fun _ ↦ keeps_pure _) ?_
  refine Keeps.ite (keeps_compatSet _ _ (keeps_setSndbuf sockfd)) ?_
  refine Keeps.ite (keeps_compatSet _ _ (keeps_setRcvbuf sockfd)) ?_
  refine Keeps.ite (keeps_fail _) (Keeps.ite (keeps_compatSet _ _ (keeps_setMaxseg sockfd)) ?_)
  refine Keeps.ite (keeps_setLinger _ _ _) (Keeps.ite (keeps_fail _) ?_)
  cases socketOptToLwip optname with
  | none => exact keeps_fail _
  | some lwopt => exact keeps_lwipSetsockopt _ _ _ _ _

theorem keeps_setTcpLevel (sockfd optname : ℤ) (optval : Option OptValue) (optlen : ℕ) :
    Keeps masks Inert (setTcpLevel sockfd optname optval optlen) := by
  refine Keeps.ite (keeps_lwipSetsockopt _ _ _ _ _) ?_
  refine Keeps.ite (keeps_compatSet _ _ fun _ ↦ keeps_storeCompat sockfd _) ?_
  refine Keeps.ite (keeps_compatSet _ _ fun _ ↦ keeps_storeCompat sockfd _) ?_
  refine Keeps.ite (keeps_compatSet _ _ fun _ ↦ keeps_storeCompat sockfd _) ?_
  exact Keeps.ite (keeps_compatSet _ _ (keeps_setMaxseg sockfd)) (keeps_fail _)

theorem keeps_hookSetsockopt (sockfd level optname : ℤ) (optval : Option OptValue) (optlen : ℕ) :
    Keeps masks Inert (hookSetsockopt sockfd level optname optval optlen) := by
  refine Keeps.bind (keeps_isForeign sockfd) fun _ ↦ Keeps.ite (keeps_callNative trivial) ?_
  refine Keeps.bind (keeps_setErrno 0) fun _ ↦ Keeps.ite (keeps_setSocketLevel _ _ _ _) ?_
  refine Keeps.ite ?_ (Keeps.ite (keeps_setTcpLevel _ _ _ _) (keeps_fail _))
  cases ipOptToLwip optname with
  | none => exact keeps_fail _
  | some lwopt => exact keeps_lwipSetsockopt _ _ _ _ _

end Uses

/-! ## The FTP handoff -/

section Handoff

variable {x : MarkMachine} {P : Masks → (ℤ → NativeUse) → Prop}

/-- Only a socket of the title has a name with the FTP port. -/
theorem mark_ftpListener (fd : ℕ) (hx : At P x) :
    markWp (ftpListener fd)
      (fun listener y ↦ At P y ∧ (listener = true → y.world fd = .title)) x := by
  refine wp_seq (mark_frame (keeps_setErrno (-1)) hx) fun _ y hy ↦ ?_
  have hname : markWp (native (.getsockname fd true (some 16)))
      (fun bound y ↦ At P y ∧ Named y.world fd bound) y := by
    refine ⟨trivial, fun answer z hreply ↦ ?_⟩
    obtain ⟨w, heffect, rfl⟩ := Option.map_eq_some_iff.mp hreply
    simp only [markEffect] at heffect
    split at heffect
    · rename_i hnamed
      obtain rfl := Option.some.inj heffect
      exact ⟨hy, hnamed⟩
    · cases heffect
  refine wp_seq hname fun bound y ⟨hy, hnamed⟩ ↦ wp_cases (fun _ ↦ ⟨hy, nofun⟩) fun hport ↦ ?_
  have htitle : y.world fd = .title := by
    obtain ⟨hcode, hport⟩ := not_or.mp hport
    obtain htitle | ⟨-, hother⟩ := hnamed (not_not.mp hcode)
    · exact htitle
    · refine absurd ?_ hport
      cases haddr : bound.addr with
      | none => rfl
      | some a =>
        rw [haddr] at hother
        have hne : ¬a.port = axFtpPort := of_decide_eq_false hother
        simp [hne]
  have hy : At (fun m w ↦ P m w ∧ w fd = .title) y := ⟨hy, htitle⟩
  refine wp_seq (mark_frame (keeps_setErrno (-1)) hy) fun _ y hy ↦ ?_
  refine wp_seq (mark_frame (keeps_perform trivial) hy) fun type y hy ↦ ?_
  refine wp_cases (fun _ ↦ ⟨hy.1, nofun⟩) fun _ ↦ ?_
  refine wp_seq (mark_frame (keeps_setErrno (-1)) hy) fun _ y hy ↦ ?_
  exact wp_seq (mark_frame (keeps_perform trivial) hy) fun peer y hy ↦ ⟨hy.1, fun _ ↦ hy.2⟩

theorem mark_markFtpListeners (fds : List ℕ) (hfds : ∀ fd ∈ fds, fd < 32)
    (hx : At (fun m w ↦ MarkInv m w ∧ m.accepting ≠ 0) x) :
    markWp (markFtpListeners fds) (fun _ ↦ At MarkInv) x := by
  induction fds generalizing x with
  | nil => exact hx.1
  | cons fd rest ih =>
    obtain ⟨hfd, hrest⟩ := List.forall_mem_cons.mp hfds
    refine (wp_bind _ _ _ _).mpr (wp_isForeign fun foreign howned ↦ ?_)
    rw [wp_bind, wp_load]
    refine wp_cases (fun _ ↦ ih hrest hx) fun hskip ↦ ?_
    have hforeign : x.mem.openMask.getLsbD fd = false := by
      refine Bool.eq_false_iff.mpr fun htracked ↦ (not_or.mp hskip).1 (howned.mpr ?_)
      exact ⟨hx.2, Int.natCast_nonneg fd, by omega, htracked⟩
    have hx : At (fun m w ↦ (MarkInv m w ∧ m.accepting ≠ 0) ∧ m.openMask.getLsbD fd = false) x :=
      ⟨hx, hforeign⟩
    refine wp_seq (mark_ftpListener fd hx) fun listener y ⟨hy, htitle⟩ ↦ ?_
    refine wp_cases (fun _ ↦ ih hrest hy.1) fun hlistener ↦ ?_
    rw [wp_bind, wp_store]
    have hmarked : At (fun m w ↦ MarkInv m w ∧ m.accepting ≠ 0)
        { y with mem := { y.mem with ftpRestartMask := y.mem.ftpRestartMask ||| bit fd } } :=
      ⟨hy.1.1.markFtp (htitle ((Bool.not_eq_false _).mp hlistener)) hy.2 hfd, hy.1.2⟩
    exact wp_seq (ih hrest hmarked) fun _ _ hz ↦ hz

theorem mark_nsysnetShimRequestFtpHandoff (haccepting : x.mem.acceptingSockets ≠ 0)
    (hx : At MarkInv x) : markWp nsysnetShimRequestFtpHandoff (fun _ ↦ At MarkInv) x := by
  have hx : At (fun m w ↦ MarkInv m w ∧ m.accepting ≠ 0) x := ⟨hx, haccepting⟩
  refine wp_seq (mark_frame keeps_shimAccepts hx) fun _ y hy ↦ wp_cases (fun _ ↦ hy.1) fun _ ↦ ?_
  refine wp_seq (mark_frame (keeps_perform trivial) hy) fun _ y hy ↦ ?_
  refine wp_cases (fun _ ↦ hy.1) fun _ ↦ ?_
  refine wp_seq (mark_frame (keeps_perform trivial) hy) fun _ y hy ↦ ?_
  refine wp_cases (fun _ ↦ hy.1) fun _ ↦ ?_
  exact mark_markFtpListeners publicFds (fun _ h ↦ List.mem_range.mp h) hy

end Handoff

/-! ## Relay workers and the lifecycle -/

section Lifecycle

variable {x : MarkMachine} {P : Masks → (ℤ → NativeUse) → Prop} {slot : ℕ} {n : ℤ}

/-- The predicate on the machine together with the private descriptor of a relay. -/
def AtRelay (P : Masks → (ℤ → NativeUse) → Prop) (slot : ℕ) (n : ℤ) (x : MarkMachine) : Prop :=
  At P x ∧ (x.mem.nsslRelays slot).nativeFd = n

theorem mark_relayFrame {program : ShimM α} (hkeeps : Keeps ShimState.control Shim.Inert program)
    (hx : AtRelay P slot n x) : markWp program (fun _ ↦ AtRelay P slot n) x := by
  have hinert : ∀ request, Shim.Inert request → Inert request := by
    intro request h
    cases request with
    | native request => cases request <;> trivial
    | lwip request => trivial
    | os request => trivial
    | note event => cases event <;> trivial
  refine wp_keeps hkeeps (fun y mem hcontrol hy ↦ ?_) (fun request answer y z hcall hy hreply ↦ ?_)
    (fun _ _ _ _ ↦ trivial) hx
  · have htables := congrArg Prod.fst hcontrol
    have hrelay := congrArg (fun c ↦ (c.2.1 slot).2.2.2.2.2.1) hcontrol
    have hmasks : masks mem = masks y.mem :=
      Masks.ext (congrArg FdTables.openMask htables) (congrArg (fun c ↦ c.2.2.1) hcontrol)
        (congrArg (fun c ↦ c.2.2.2) hcontrol) (congrArg FdTables.accepting htables)
    refine ⟨?_, hrelay.trans hy.2⟩
    change P (masks mem) y.world
    rw [hmasks]
    exact hy.1
  · rw [markReply_inert (hinert request hcall) hreply]
    exact hy

theorem keeps_lwipClose (lwfd : ℤ) :
    Keeps masks Inert (ignore (perform (.lwip (.close lwfd)))) :=
  keeps_ignore (keeps_perform trivial)

/-- A worker closes its own end, which is no socket of the title. -/
theorem mark_relayOut (hn : x.world n ≠ .title) (hx : AtRelay MarkInv slot n x) :
    markWp (relayOut slot) (fun _ ↦ At MarkInv) x := by
  obtain ⟨hinv, rfl⟩ := hx
  rw [markWp, relayOut, wp_bind, loadRelay, wp_load]
  have hclose : markWp (when ((x.mem.nsslRelays slot).nativeFd ≥ 0) do
      ignore (native (.socketclose (x.mem.nsslRelays slot).nativeFd))
      storeRelay slot fun r ↦ { r with nativeFd := -1 }) (fun _ ↦ At MarkInv) x := by
    rw [markWp, wp_when]
    split
    · refine wp_seq (mark_ignoreClose (P := fun _ ↦ True) ⟨hinv, hinv.unmarked hn, trivial⟩) ?_
      exact fun _ y hy ↦ mark_frame (keeps_storeRelay _ _) hy.1
    · exact hinv
  refine wp_seq hclose fun _ y hy ↦ ?_
  refine mark_frame (Keeps.bind (keeps_loadRelay _ _) fun _ ↦ Keeps.bind (Keeps.when ?_) fun _ ↦ ?_) hy
  · exact Keeps.bind (keeps_lwipClose _) fun _ ↦ keeps_storeRelay _ _
  · exact Keeps.bind (keeps_storeRelay _ _) fun _ ↦ keeps_storeRelay _ _

theorem mark_nsslRelayWorker (slot fuel : ℕ)
    (hprivate : x.world (x.mem.nsslRelays slot).nativeFd ≠ .title) (hx : At MarkInv x) :
    markWp (nsslRelayWorker slot fuel) (fun _ ↦ At MarkInv) x := by
  have hx : AtRelay (fun m w ↦ MarkInv m w ∧ w (x.mem.nsslRelays slot).nativeFd ≠ .title) slot
      (x.mem.nsslRelays slot).nativeFd x := ⟨⟨hx, hprivate⟩, rfl⟩
  refine wp_seq (mark_relayFrame (keeps_relayWait slot fuel) hx) fun ready y hy ↦ ?_
  have hloop : Keeps ShimState.control Shim.Inert (when ready do
      let fds ← loadRelay slot fun r ↦ (r.nativeFd, r.lwfd)
      let exit ← relayLoop slot fds.1 fds.2 fuel {}
      note (.relayEnd slot exit)) := by
    refine Keeps.when (Keeps.bind (keeps_loadRelay slot _) fun fds ↦ ?_)
    refine Keeps.bind (keeps_relayLoop slot _ _ fuel _) fun exit ↦ ?_
    exact Keeps.bind (keeps_perform trivial) fun _ ↦ keeps_pure _
  refine wp_seq (mark_relayFrame hloop hy) fun _ z hz ↦ ?_
  exact mark_relayOut hz.1.2 ⟨hz.1.1, hz.2⟩

theorem keeps_addPatches (patches : List ℕ) : Keeps masks Inert (addPatches patches) := by
  induction patches with
  | nil => exact keeps_pure _
  | cons index rest ih =>
    refine Keeps.bind (keeps_perform trivial) fun _ ↦ Keeps.ite (keeps_pure _) ?_
    exact Keeps.bind (keeps_store fun _ ↦ rfl) fun _ ↦ ih

theorem keeps_removePatches (count : ℕ) : Keeps masks Inert (removePatches count) := by
  induction count with
  | zero => exact keeps_pure ()
  | succ left ih =>
    refine Keeps.bind (keeps_store fun _ ↦ rfl) fun _ ↦ ?_
    exact Keeps.bind (keeps_ignore (keeps_perform trivial)) fun _ ↦ ih

theorem keeps_forgetOwned : Keeps masks Inert forgetOwned :=
  Keeps.each fun _ _ ↦ keeps_store fun _ ↦ rfl

/-- `accepting_sockets` is no mark. -/
theorem mark_setAccepting (accepting : ℤ) (hx : At MarkInv x) :
    At MarkInv { x with mem := { x.mem with acceptingSockets := accepting } } :=
  ⟨hx.owned, hx.ftp, hx.nssl⟩

theorem mark_nsysnetShimInstall (hx : At MarkInv x) :
    markWp nsysnetShimInstall (fun _ ↦ At MarkInv) x := by
  refine wp_seq (mark_frame (keeps_load _) hx) fun installed y hy ↦ wp_cases (fun _ ↦ ?_) fun _ ↦ ?_
  · exact mark_setAccepting 1 hy
  rw [nsysnetShimRegister, wp_bind, wp_store, wp_bind, wp_store]
  have hempty : At MarkInv { y with mem := { y.mem with acceptingSockets := 0, openMask := 0 } } :=
    MarkInv.shrink hy zero_le_mask (fun _ h ↦ h) fun _ h ↦ h
  refine wp_seq (mark_frame keeps_forgetOwned hempty) fun _ y hy ↦ ?_
  refine wp_seq (mark_frame (keeps_perform trivial) hy) fun status y hy ↦ ?_
  refine wp_cases (fun _ ↦ hy) fun _ ↦ ?_
  refine wp_seq (mark_frame (keeps_load _) hy) fun systemDns y hy ↦ ?_
  refine wp_seq (mark_frame (keeps_addPatches _) hy) fun added y hy ↦ wp_cases (fun _ ↦ ?_) fun _ ↦ ?_
  · refine mark_frame (Keeps.bind (keeps_load _) fun count ↦ ?_) hy
    exact Keeps.bind (keeps_removePatches count) fun _ ↦
      Keeps.bind (keeps_ignore (keeps_perform trivial)) fun _ ↦ keeps_pure _
  · exact mark_setAccepting 1 hy

theorem keeps_asyncDnsResetAll (fuel : ℕ) : Keeps masks Inert (asyncDnsResetAll fuel) := by
  have hlock : Keeps masks Inert (asyncDnsLock fuel) := by
    induction fuel with
    | zero => trivial
    | succ fuel ih =>
      refine Keeps.bind (keeps_access fun _ ↦ rfl) fun _ ↦ Keeps.ite (keeps_pure ()) ?_
      exact Keeps.bind (keeps_ignore (keeps_perform trivial)) fun _ ↦ ih
  refine Keeps.bind hlock fun _ ↦ ?_
  refine Keeps.bind (Keeps.each fun _ _ ↦ ?_) fun _ ↦ keeps_store fun _ ↦ rfl
  exact Keeps.bind (keeps_store fun _ ↦ rfl) fun _ ↦
    Keeps.bind (keeps_store fun _ ↦ rfl) fun _ ↦ keeps_store fun _ ↦ rfl

/-- A title begins without marks. -/
theorem mark_nsysnetShimBeginTitle (fuel : ℕ) :
    markWp (nsysnetShimBeginTitle fuel) (fun _ ↦ At MarkInv) x := by
  refine wp_seq (wp_trivial fun _ _ ↦ trivial) fun _ y _ ↦ ?_
  rw [wp_bind, wp_store]
  have hopen : At (fun m _ ↦ m.openMask = 0) { y with mem := { y.mem with openMask := 0 } } := rfl
  have hforget : Keeps masks Inert forgetMappings := Keeps.each fun _ _ ↦ keeps_store fun _ ↦ rfl
  refine wp_seq (mark_frame hforget hopen) fun _ y hy ↦ ?_
  simp only [wp_bind, wp_store]
  have hempty : At (fun m _ ↦ m.openMask = 0 ∧ m.ftp = 0 ∧ m.nssl = 0) { y with mem := { y.mem with
      probeThread := 0, probeBaselineOpenMask := 0, probeBaselineAiMask := 0, openMask := 0,
      axActivityPending := 0, ftpNativeBindIp := 0, ftpAxRedirectActive := 0, ftpRestartMask := 0,
      nsslPublicMask := 0 } } := ⟨rfl, rfl, rfl⟩
  refine wp_mono (mark_frame keeps_forgetConnections hempty) fun _ y hy ↦ ?_
  refine wp_mono (mark_frame (Keeps.each fun _ _ ↦ keeps_store fun _ ↦ rfl) hy) fun _ y hy ↦ ?_
  refine wp_mono (mark_frame (keeps_asyncDnsResetAll fuel) hy) fun _ y hy ↦ ?_
  refine wp_mono (mark_frame keeps_forgetOwned hy) fun _ y hy ↦ ?_
  exact .of_empty hy.1 hy.2.1 hy.2.2

end Lifecycle

/-! ## Runs -/

/-- Complete calls, by whom they are made. -/
inductive MarkOp where
  | title (e : Export)
  | ftpHandoff
  | relayWorker (slot : ℕ)
  | install

/-- The exports that create, drop, move, mark and configure descriptors. -/
def managesMarks : Export → Bool
  | .socket _ _ _ => true
  | .accept _ _ _ => true
  | .socketclose _ => true
  | .socketcloseAll => true
  | .bind _ _ _ => true
  | .select _ _ _ _ _ => true
  | .setsockopt _ _ _ _ _ => true
  | .nsslCreateConnection _ _ _ _ _ _ => true
  | .nsslDestroyConnection _ => true
  | .nsslFinish => true
  | _ => false

/-- The exports that return a new descriptor. -/
def opensFd : Export → Bool
  | .socket _ _ _ => true
  | .accept _ _ _ => true
  | _ => false

namespace MarkOp

def program (fuel : ℕ) : MarkOp → ShimM Unit
  | .title e => do
    let _ ← hook fuel e
    pure ()
  | .ftpHandoff => do
    let _ ← nsysnetShimRequestFtpHandoff
    pure ()
  | .relayWorker slot => nsslRelayWorker slot fuel
  | .install => do
    let _ ← nsysnetShimInstall
    pure ()

/-- The shim accepts sockets, and no relay closes a socket of the title. -/
def Enabled (x : MarkMachine) : MarkOp → Prop
  | .title e => managesMarks e = true ∧ x.mem.acceptingSockets ≠ 0
  | .ftpHandoff => x.mem.acceptingSockets ≠ 0
  | .relayWorker slot => x.world (x.mem.nsslRelays slot).nativeFd ≠ .title
  | .install => True

end MarkOp

/-- The machines of a title. -/
inductive MarkReach : MarkMachine → Prop where
  | begin {x y : MarkMachine} (fuel : ℕ)
      (exec : Exec markReply (nsysnetShimBeginTitle fuel) x () y) : MarkReach y
  | step {x y : MarkMachine} (reached : MarkReach x) (op : MarkOp) (fuel : ℕ)
      (enabled : op.Enabled x) (exec : Exec markReply (op.program fuel) x () y) : MarkReach y

section Runs

variable {x y : MarkMachine}

theorem mark_hook {e : Export} (fuel : ℕ) (he : managesMarks e = true)
    (haccepting : x.mem.acceptingSockets ≠ 0) (hx : At MarkInv x) :
    markWp (hook fuel e) (fun _ ↦ At MarkInv) x := by
  have hbefore : At (Before x.world) x := ⟨hx, rfl⟩
  cases e with
  | socket domain type protocol => exact wp_mono (mark_hookSocket _ _ _ hbefore) fun _ _ h ↦ h.1
  | accept sockfd addr addrlen => exact wp_mono (mark_hookAccept _ _ _ hbefore) fun _ _ h ↦ h.1
  | socketclose sockfd => exact mark_hookSocketclose sockfd haccepting hx
  | socketcloseAll => exact mark_hookSocketcloseAll haccepting
  | bind sockfd addr addrlen => exact mark_hookBind _ _ _ hx
  | select nfds readfds writefds exceptfds timeout => exact mark_hookSelect _ _ _ _ _ fuel hx
  | setsockopt sockfd level optname optval optlen =>
    exact mark_frame (keeps_hookSetsockopt _ _ _ _ _) hx
  | nsslCreateConnection context host hostLength options sockfd block =>
    exact mark_hookNsslCreateConnection _ _ _ _ _ _ hx
  | nsslDestroyConnection connection => exact mark_hookNsslDestroyConnection connection hx
  | nsslFinish => exact mark_hookNsslFinish fuel hx
  | _ => cases he

/-- One call keeps the invariant. -/
theorem mark_op (op : MarkOp) (fuel : ℕ) (henabled : op.Enabled x) (hx : At MarkInv x) :
    markWp (op.program fuel) (fun _ ↦ At MarkInv) x := by
  cases op with
  | title e => exact wp_seq (mark_hook fuel henabled.1 henabled.2 hx) fun _ _ hy ↦ hy
  | ftpHandoff => exact wp_seq (mark_nsysnetShimRequestFtpHandoff henabled hx) fun _ _ hy ↦ hy
  | relayWorker slot => exact mark_nsslRelayWorker slot fuel henabled hx
  | install => exact wp_seq (mark_nsysnetShimInstall hx) fun _ _ hy ↦ hy

theorem MarkReach.inv (h : MarkReach x) : At MarkInv x := by
  induction h with
  | begin fuel exec => exact exec.post_of_wp (mark_nsysnetShimBeginTitle fuel)
  | step reached op fuel enabled exec ih => exact exec.post_of_wp (mark_op op fuel enabled ih)

/-- A mask whose members `open_mask` does not have. -/
theorem and_eq_zero_of_outside {mask other : BitVec 32}
    (hother : ∀ fd : ℕ, other.getLsbD fd = true → mask.getLsbD fd = false) : mask &&& other = 0 := by
  refine BitVec.eq_of_getLsbD_eq fun fd _ ↦ ?_
  rw [BitVec.getLsbD_and, Bool.eq_false_iff.mpr (not_getLsbD_zero fd), Bool.and_eq_false_iff]
  cases hfd : other.getLsbD fd with
  | false => exact .inr rfl
  | true => exact .inl (hother fd hfd)

/-- The number of a new descriptor was nobody's. -/
theorem opens_closed {e : Export} {fuel : ℕ} {r : ShimReply} (he : opensFd e = true)
    (hx : At MarkInv x) (hexec : Exec markReply (hook fuel e) x r y) :
    (0 ≤ r.code → x.world r.code = .closed) ∧ Tracks x.mem y.mem := by
  have hbefore : At (Before x.world) x := ⟨hx, rfl⟩
  cases e with
  | socket domain type protocol =>
    exact ⟨(hexec.post_of_wp (mark_hookSocket _ _ _ hbefore)).2,
      hexec.post_of_wp (wp_hookSocket_tracks leavesMemory_markReply _ _ _)⟩
  | accept sockfd addr addrlen =>
    exact ⟨(hexec.post_of_wp (mark_hookAccept _ _ _ hbefore)).2,
      hexec.post_of_wp (wp_hookAccept_tracks leavesMemory_markReply _ _ _)⟩
  | _ => cases he

/-- A descriptor of lwIP that was just returned has the options of a fresh socket. -/
theorem opens_fresh {e : Export} {fuel : ℕ} {r : ShimReply} (he : opensFd e = true)
    (hx : At MarkInv x) (hexec : Exec markReply (hook fuel e) x r y)
    (howned : AxOwned r.code y.mem) : y.mem.options r.code.toNat = OptRegister.fresh := by
  obtain ⟨hclosed, htracks⟩ := opens_closed he hx hexec
  have hbefore : ¬AxOwned r.code x.mem := by
    intro hold
    have htitle := hx.owned r.code.toNat hold.tracked
    rw [Int.toNat_of_nonneg howned.nonneg, hclosed howned.nonneg] at htitle
    cases htitle
  rw [ShimState.options, htracks.fresh hbefore howned, OptRegister.stored_freshCompat]

/-- The marks of other stacks are never on a descriptor of lwIP, and a new descriptor of lwIP reads
the default of every mirrored option. -/
theorem recycled_fd_inherits_nothing (h : MarkReach x) :
    (x.mem.openMask &&& x.mem.ftpRestartMask = 0 ∧ x.mem.openMask &&& x.mem.nsslPublicMask = 0) ∧
    ∀ e fuel r y, opensFd e = true → Exec markReply (hook fuel e) x r y → AxOwned r.code y.mem →
      ∀ level optname register, optRegister level optname = some register →
        ∀ optval optlen answer z,
          Exec markReply (hookGetsockopt r.code level optname optval optlen) y answer z →
          (answer.code = 0 → answer.value = some register.fresh) ∧
          (optval = true → (∃ n, optlen = some n ∧ 8 ≤ n) → answer.code = 0) := by
  refine ⟨⟨?_, ?_⟩, fun e fuel r y he hexec howned level optname register hregister optval optlen
    answer z hget ↦ ⟨fun hcode ↦ ?_, ?_⟩⟩
  · exact and_eq_zero_of_outside fun fd hfd ↦ (h.inv.ftp fd hfd).2
  · exact and_eq_zero_of_outside fun fd hfd ↦ (h.inv.nssl fd hfd).2
  · have hout := hget.post_of_wp (opt_hookGetsockopt leavesMemory_markReply howned)
    rw [hout.value hcode register hregister, opens_fresh he h.inv hexec howned]
  · rintro rfl ⟨n, rfl, hroom⟩
    exact hget.post_of_wp (opt_hookGetsockopt_room hroom howned hregister)

/-- The replies to `socket` that give the lwIP descriptor `lwfd` and the public one `fd`. -/
def openReplies (lwfd fd : ℤ) : List ShimReply :=
  [{ code := 1 }, { code := lwfd }, {}, {}, { code := fd }, {}]

/-- The module before its first title. -/
def firstModule : MarkMachine := { mem := { nsslBridgeEnabled := 1 }, world := fun _ ↦ .closed }

/-- The replies to `NSSLCreateConnection` that bridge the descriptor with a listener on 4 and the
private end 5. -/
def bridgeReplies (peer : Sockaddr) : List ShimReply :=
  [{ addr := some peer }, { code := 1 }, {}, { code := 4 }, { code := 1 }, {}, {},
    { addr := some peer }, {}, { code := 5 }, {}, {}, { code := 9 }]

/-- The replies to the FTP handoff that tell of a listener on descriptor 3. -/
def markedListenerReplies : List ShimReply :=
  [{ code := 1 }, { ip := 1 }] ++ List.replicate 3 { code := -1 } ++
    [{ addr := some ⟨nsnAfInet, axFtpPort, 0⟩ }, { value := some { first := sockStream } },
      { code := -1 }] ++ List.replicate 28 { code := -1 }

/-- Descriptor 3 has its `SO_MAXMSG` set, gets both marks and is closed, and the number is used
again. -/
theorem recycled_fd_inherits_nothing_reopened :
    ∃ w x y z r answer, (MarkReach w ∧ w.mem.nsslPublicMask = bit 3 ∧
      w.mem.ftpRestartMask = bit 3 ∧
      Exec markReply (MarkOp.program 1 (.title (.socketclose 3))) w () x ∧ MarkReach x ∧
      Exec markReply (hook 1 (.socket nsnAfInet sockStream 0)) x r y ∧ r.code = 3 ∧
      Exec markReply (hookGetsockopt 3 nsnSolTcp nsnTcpMaxseg true (some 8)) y answer z) ∧
      answer.value = some { first := tcpMss } := by
  obtain ⟨x₀, x₁, x₂, x₃, x₄, x₅, x₆, x₇, z, r, answer, hbegin, hinstall, hsocket, hset, hbridge,
      hftp, hclose, hagain, hget, hcode, hon₁, hon₂, hon₃, hon₄, hon₅, hnssl, hmarked, howned⟩ :
      ∃ x₀ x₁ x₂ x₃ x₄ x₅ x₆ x₇ z r answer,
      Exec markReply (nsysnetShimBeginTitle 1) firstModule () x₀ ∧
      Exec markReply (MarkOp.program 1 .install) x₀ () x₁ ∧
      Exec markReply (MarkOp.program 1 (.title (.socket nsnAfInet sockStream 0))) x₁ () x₂ ∧
      Exec markReply (MarkOp.program 1 (.title
        (.setsockopt 3 nsnSolSocket nsnSoMaxmsg (some { first := 536 }) 4))) x₂ () x₃ ∧
      Exec markReply (MarkOp.program 1 (.title
        (.nsslCreateConnection 0 none 0 0 3 0))) x₃ () x₄ ∧
      Exec markReply (MarkOp.program 1 .ftpHandoff) x₄ () x₅ ∧
      Exec markReply (MarkOp.program 1 (.title (.socketclose 3))) x₅ () x₆ ∧
      Exec markReply (hook 1 (.socket nsnAfInet sockStream 0)) x₆ r x₇ ∧
      Exec markReply (hookGetsockopt 3 nsnSolTcp nsnTcpMaxseg true (some 8)) x₇ answer z ∧
      r.code = 3 ∧ x₁.mem.acceptingSockets ≠ 0 ∧ x₂.mem.acceptingSockets ≠ 0 ∧
      x₃.mem.acceptingSockets ≠ 0 ∧ x₄.mem.acceptingSockets ≠ 0 ∧ x₅.mem.acceptingSockets ≠ 0 ∧
      x₅.mem.nsslPublicMask = bit 3 ∧ x₅.mem.ftpRestartMask = bit 3 ∧ AxOwned 3 x₇.mem :=
    ⟨_, _, _, _, _, _, _, _, _, _, _,
      exec_of_run (show run markReply _ [] _ = some (_, _, []) from rfl),
      exec_of_run (show run markReply _ (List.replicate 37 {}) _ = some (_, _, []) from rfl),
      exec_of_run (show run markReply _ (openReplies 0 3) _ = some (_, _, []) from rfl),
      exec_of_run (show run markReply _ [] _ = some (_, _, []) from rfl),
      exec_of_run (show run markReply _ (bridgeReplies ⟨nsnAfInet, 443, 5⟩) _ = some (_, _, [])
        from rfl),
      exec_of_run (show run markReply _ markedListenerReplies _ = some (_, _, []) from rfl),
      exec_of_run (show run markReply _ [{}] _ = some (_, _, []) from rfl),
      exec_of_run (show run markReply _ (openReplies 0 3) _ = some (_, _, []) from rfl),
      exec_of_run (show run markReply _ [] _ = some (_, _, []) from rfl),
      rfl, by decide, by decide, by decide, by decide, by decide, rfl, rfl,
      ⟨by decide, by decide, by decide, by decide⟩⟩
  have h₁ : MarkReach x₁ := .step (.begin 1 hbegin) .install 1 trivial hinstall
  have h₂ : MarkReach x₂ := .step h₁ (.title _) 1 ⟨rfl, hon₁⟩ hsocket
  have h₃ : MarkReach x₃ := .step h₂ (.title _) 1 ⟨rfl, hon₂⟩ hset
  have h₄ : MarkReach x₄ := .step h₃ (.title _) 1 ⟨rfl, hon₃⟩ hbridge
  have h₅ : MarkReach x₅ := .step h₄ .ftpHandoff 1 hon₄ hftp
  have h₆ : MarkReach x₆ := .step h₅ (.title _) 1 ⟨rfl, hon₅⟩ hclose
  rw [← hcode] at hget howned
  obtain ⟨hvalue, hroom⟩ := (recycled_fd_inherits_nothing h₆).2 _ 1 r x₇ rfl hagain howned _ _
    .maxseg (by decide) true (some 8) answer z hget
  exact ⟨x₅, x₆, x₇, z, r, answer,
    ⟨h₅, hnssl, hmarked, hclose, h₆, hagain, hcode, hcode ▸ hget⟩,
    hvalue (hroom rfl ⟨8, rfl, Nat.le_refl 8⟩)⟩

end Runs

end Ax88179Aroma.Shim.Marks
