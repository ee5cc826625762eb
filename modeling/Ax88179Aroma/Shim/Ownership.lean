import Ax88179Aroma.Shim.Frames

/-!
# Ownership of descriptors

Runs of complete calls of the title, the worker and the probes, and of relay workers that finish.
Along every run the lwIP descriptors behind the public ones are open and belong to nobody else, and
while the shim accepts sockets every recorded public descriptor is the open placeholder that the
shim made for it, as long as the title never closes the private native descriptor of a live relay.
`socketclose_all` does close those, so a relay that ends later may close a placeholder.
-/

namespace Ax88179Aroma.Shim

open Effect Program

/-! ## Complete calls -/

section Wp

variable {u : Bool} {x : FdMachine} {P : FdTables → FdWorld → Prop}

/-- `post` holds after every complete execution. -/
abbrev fdWp (program : ShimM α) (post : α → FdMachine → Prop) (x : FdMachine) : Prop :=
  wp fdReply (fun _ _ ↦ True) program post x

/-- An assertion about the tables and the world. -/
def At (P : FdTables → FdWorld → Prop) (x : FdMachine) : Prop := P x.mem.tables x.world

theorem fd_frame {program : ShimM α} (hkeeps : Keeps ShimState.tables Inert program)
    (hx : At P x) : fdWp program (fun _ ↦ At P) x := by
  refine wp_keeps hkeeps (fun y mem hmem hy ↦ ?_) (fun request answer y z hinert hy hreply ↦ ?_)
    (fun _ _ _ _ ↦ trivial) hx
  · change P mem.tables y.world
    rw [hmem]
    exact hy
  · rw [fdReply_inert hinert hreply]
    exact hy

/-- A call of lwIP, with its effect on the world. -/
theorem fd_lwip (request : LwipCall) :
    fdWp (lwip request) (fun answer y ↦ y.mem.tables = x.mem.tables ∧
      fdEffect x.mem x.world (.lwip request) answer = some y.world) x := by
  refine ⟨trivial, fun answer y hreply ↦ ?_⟩
  obtain ⟨w, heffect, rfl⟩ := Option.map_eq_some_iff.mp hreply
  exact ⟨rfl, heffect⟩

/-- A call of nsysnet, with its effect on the world. -/
theorem fd_native (request : Export) :
    fdWp (native request) (fun answer y ↦ y.mem = x.mem ∧
      fdEffect x.mem x.world (.native request) answer = some y.world) x := by
  refine ⟨trivial, fun answer y hreply ↦ ?_⟩
  obtain ⟨w, heffect, rfl⟩ := Option.map_eq_some_iff.mp hreply
  exact ⟨rfl, heffect⟩

theorem fd_lwipClose (lwfd : ℤ) :
    fdWp (lwip (.close lwfd)) (fun answer y ↦ y.mem.tables = x.mem.tables ∧
      y.world = x.world.closeLwip lwfd answer.code) x :=
  wp_mono (fd_lwip _) fun _ _ h ↦ ⟨h.1, (Option.some.inj h.2).symm⟩

theorem fd_nativeClose (fd : ℤ) :
    fdWp (native (.socketclose fd)) (fun answer y ↦ y.mem = x.mem ∧
      y.world = x.world.closeNative fd answer.code) x :=
  wp_mono (fd_native _) fun _ _ h ↦ ⟨h.1, (Option.some.inj h.2).symm⟩

theorem fd_isForeign (fd : ℤ) :
    fdWp (isForeign fd) (fun foreign y ↦ y = x ∧ (foreign = false ↔ x.mem.tables.accepting ≠ 0 ∧
      0 ≤ fd ∧ fd < 32 ∧ x.mem.tables.openMask.getLsbD fd.toNat = true)) x := by
  simp only [fdWp, isForeign, shimAccepts, wp_bind, wp_load, wp_pure]
  by_cases haccepting : x.mem.acceptingSockets = 0
  · rw [if_pos (decide_eq_false (not_not.mpr haccepting))]
    exact ⟨rfl, ⟨fun h ↦ absurd h (by simp), fun h ↦ absurd haccepting h.1⟩⟩
  · rw [if_neg (by simp [haccepting])]
    refine ⟨rfl, ?_⟩
    simp only [decide_eq_false_iff_not, not_not]
    exact ⟨fun h ↦ ⟨haccepting, h⟩, fun h ↦ h.2⟩

/-! ## Creation -/

/-- An accepting shim with a spare lwIP descriptor. -/
def WithSpare (u : Bool) (lwfd : ℤ) (t : FdTables) (w : FdWorld) : Prop :=
  FdInv u t w ∧ t.accepting ≠ 0 ∧ SpareLwip t w lwfd

theorem fd_placeholder (lwfd type protocol : ℤ) (hx : At (WithSpare u lwfd) x) :
    fdWp (placeholder lwfd type protocol) (fun _ ↦ At (FdInv u)) x := by
  rw [fdWp, placeholder, wp_bind]
  refine wp_mono (fd_native _) fun fd y ⟨hmem, heffect⟩ ↦ ?_
  obtain ⟨hinv, haccepting, hspare⟩ := hx
  obtain ⟨hinv, hfresh⟩ := hinv.openNative heffect
  have hspare := hspare.openNative heffect
  rw [← hmem] at hinv haccepting hspare hfresh
  rw [wp_ite]
  split
  · -- no public descriptor: both sides are given up
    rw [wp_bind, wp_when]
    have hclose : ∀ z : FdMachine, At (WithSpare u lwfd) z → fdWp (do
        ignore (lwip (.close lwfd))
        setErrno emfile
        pure none) (fun (_ : Option ℕ) ↦ At (FdInv u)) z := by
      intro z hz
      rw [fdWp, wp_bind, ignore, wp_bind]
      refine wp_mono (fd_lwipClose lwfd) fun r y ⟨htables, hworld⟩ ↦ ?_
      change FdInv u y.mem.tables y.world
      rw [htables, hworld]
      exact hz.1.closeLwip hz.2.2.2
    split
    · rename_i hpos
      rw [ignore, wp_bind]
      refine wp_mono (fd_nativeClose _) fun r z ⟨hmem, hworld⟩ ↦ ?_
      refine hclose z ?_
      rw [At, hmem, hworld]
      exact ⟨hinv.closeNative (hfresh hpos).2, haccepting, hspare.closeNative⟩
    · exact hclose y ⟨hinv, haccepting, hspare⟩
  · rename_i hrange
    have hpos : 0 ≤ fd.code := by omega
    have hnat : ((fd.code.toNat : ℕ) : ℤ) = fd.code := Int.toNat_of_nonneg hpos
    have hfresh := hfresh hpos
    rw [← hnat] at hfresh
    rw [wp_bind]
    refine ⟨trivial, fun answer z hreply ↦ ?_⟩
    obtain ⟨w, heffect, rfl⟩ := Option.map_eq_some_iff.mp hreply
    cases heffect
    exact hinv.track haccepting (by omega) hspare hfresh

theorem fd_lwipSocket (domain type protocol : ℤ)
    (hx : At (fun t w ↦ FdInv u t w ∧ t.accepting ≠ 0) x) :
    fdWp (lwipSocket domain type protocol) (fun s ↦ At fun t w ↦
      (FdInv u t w ∧ t.accepting ≠ 0) ∧ (0 ≤ s → SpareLwip t w s)) x := by
  have hsocket : ∀ {type : ℤ} {y : FdMachine}, At (fun t w ↦ FdInv u t w ∧ t.accepting ≠ 0) y →
      fdWp (lwip (.socket domain type protocol)) (fun s ↦ At fun t w ↦
        (FdInv u t w ∧ t.accepting ≠ 0) ∧ (0 ≤ s.code → SpareLwip t w s.code)) y := by
    intro type y hy
    refine wp_mono (fd_lwip _) fun s z ⟨htables, heffect⟩ ↦ ?_
    obtain ⟨hinv, hfresh⟩ := hy.1.openLwip heffect
    rw [At, htables]
    exact ⟨⟨hinv, hy.2⟩, hfresh⟩
  rw [fdWp, lwipSocket, wp_bind]
  refine wp_mono (hsocket hx) fun first y hy ↦ ?_
  rw [wp_ite]
  split
  · rw [wp_bind]
    exact wp_mono (hsocket hy.1) fun second z hz ↦ hz
  · exact hy

theorem fd_hookSocket (domain type protocol : ℤ) (hx : At (FdInv u) x) :
    fdWp (hookSocket domain type protocol) (fun _ ↦ At (FdInv u)) x := by
  rw [fdWp, hookSocket, wp_bind]
  have hroute : fdWp (socketRoute domain)
      (fun route y ↦ y = x ∧ (route = true → x.mem.tables.accepting ≠ 0)) x := by
    rw [fdWp, socketRoute, wp_bind, wp_load, wp_ite]
    split
    · exact ⟨rfl, fun h ↦ absurd h Bool.false_ne_true⟩
    · simp only [shimAccepts, wp_bind, wp_load, wp_pure]
      rw [wp_ite]
      split
      · exact ⟨rfl, fun h ↦ absurd h Bool.false_ne_true⟩
      · rename_i haccepting
        refine ⟨trivial, fun answer y hreply ↦ ?_⟩
        cases hreply
        refine ⟨rfl, fun _ hzero ↦ haccepting ?_⟩
        exact decide_eq_false (not_not.mpr hzero)
  refine wp_mono hroute fun route y hpost ↦ ?_
  obtain ⟨hsame, haccepting⟩ := hpost
  rw [hsame, wp_ite]
  split
  · rw [callNative, wp_bind]
    refine wp_mono (fd_frame (keeps_setErrno _) hx) fun _ y hy ↦ ?_
    refine wp_mono (fd_native _) fun fd z hpost ↦ ?_
    obtain ⟨hmem, heffect⟩ := hpost
    rw [At, hmem]
    exact (FdInv.openNative hy heffect).1
  · rename_i htrue
    have hx : At (fun t w ↦ FdInv u t w ∧ t.accepting ≠ 0) x :=
      ⟨hx, haccepting (Bool.not_eq_false _ ▸ htrue)⟩
    rw [wp_bind]
    refine wp_mono (fd_frame (keeps_setErrno _) hx) fun _ y hy ↦ ?_
    rw [wp_bind]
    refine wp_mono (fd_lwipSocket domain type protocol hy) fun s y hpost ↦ ?_
    obtain ⟨hy, hspare⟩ := hpost
    rw [wp_ite]
    split
    · exact hy.1
    · rename_i hneg
      have hy : At (WithSpare u s) y := ⟨hy.1, hy.2, hspare (by omega)⟩
      rw [wp_bind]
      refine wp_mono (fd_frame (keeps_socketDefaults _ _) hy) fun _ y hy ↦ ?_
      rw [wp_bind]
      refine wp_mono (fd_placeholder _ _ _ hy) fun fd y hy ↦ ?_
      cases fd with
      | none => exact hy
      | some fd =>
        rw [wp_bind]
        exact wp_mono (fd_frame keeps_noteActivity hy) fun _ y hy ↦ hy

theorem fd_hookAccept (sockfd : ℤ) (addr : Bool) (addrlen : Option ℕ) (hx : At (FdInv u) x) :
    fdWp (hookAccept sockfd addr addrlen) (fun _ ↦ At (FdInv u)) x := by
  rw [fdWp, hookAccept, routed, wp_bind]
  refine wp_mono (fd_isForeign sockfd) fun foreign y hpost ↦ ?_
  obtain ⟨hsame, hforeign⟩ := hpost
  rw [hsame, wp_ite]
  split
  · rw [callNative, wp_bind]
    refine wp_mono (fd_frame (keeps_setErrno _) hx) fun _ y hy ↦ ?_
    refine wp_mono (fd_native _) fun fd z hpost ↦ ?_
    obtain ⟨hmem, heffect⟩ := hpost
    rw [At, hmem]
    exact (FdInv.openNative hy heffect).1
  · rename_i hours
    have hx : At (fun t w ↦ FdInv u t w ∧ t.accepting ≠ 0) x :=
      ⟨hx, (hforeign.mp (Bool.eq_false_iff.mpr hours)).1⟩
    rw [wp_bind]
    refine wp_mono (fd_frame (keeps_setErrno _) hx) fun _ y hy ↦ ?_
    rw [wp_ite]
    split
    · exact wp_mono (fd_frame (keeps_fail _) hy) fun _ z hz ↦ hz.1
    · rw [wp_bind, stackFd, wp_load, wp_bind]
      refine wp_mono (fd_lwip _) fun s z hpost ↦ ?_
      obtain ⟨htables, heffect⟩ := hpost
      obtain ⟨hinv, hfresh⟩ := hy.1.openLwip heffect
      rw [← htables] at hinv hfresh
      have haccepting : z.mem.tables.accepting ≠ 0 := by
        rw [htables]
        exact hy.2
      rw [wp_ite]
      split
      · exact hinv
      · rename_i hneg
        have hz : At (WithSpare u s.code) z := ⟨hinv, haccepting, hfresh (by omega)⟩
        rw [wp_bind]
        refine wp_mono (fd_frame (keeps_ignore (keeps_lwipSetInt _ _ _)) hz) fun _ z hz ↦ ?_
        rw [wp_bind]
        refine wp_mono (fd_frame (keeps_ignore (keeps_lwipSetInt _ _ _)) hz) fun _ z hz ↦ ?_
        rw [wp_bind]
        refine wp_mono (fd_placeholder _ _ _ hz) fun fd z hz ↦ ?_
        cases fd with
        | none => exact hz
        | some fd => exact hz

/-! ## Closing -/

/-- What a live relay holds. -/
def relayNative (t : FdTables) (w : FdWorld) (slot : ℕ) : Option ℤ := nativeOwner t w (.inr slot)

/-- A public descriptor of the shim, which maps to `lwfd`. -/
def Recorded (u : Bool) (fd : ℕ) (lwfd : ℤ) (t : FdTables) (w : FdWorld) : Prop :=
  FdInv u t w ∧ t.accepting ≠ 0 ∧ t.openMask.getLsbD fd = true ∧ t.mappedFd fd = lwfd

theorem Recorded.untrack {fd : ℕ} {lwfd : ℤ} {t : FdTables} {w : FdWorld}
    (h : Recorded u fd lwfd t w) :
    FdInv u { t with openMask := t.openMask &&& ~~~ bit fd } w ∧
      (∀ i, lwipOwner { t with openMask := t.openMask &&& ~~~ bit fd } w i ≠ some lwfd) ∧
      ∀ i, nativeOwner { t with openMask := t.openMask &&& ~~~ bit fd } w i ≠ some (fd : ℤ) := by
  obtain ⟨hinv, haccepting, hfd, hmapped⟩ := h
  have hmask : ∀ i, (t.openMask &&& ~~~ bit fd).getLsbD i = true → t.openMask.getLsbD i = true :=
    fun i hi ↦ (getLsbD_and_not_bit.mp hi).2
  have hout : (t.openMask &&& ~~~ bit fd).getLsbD fd = false :=
    Bool.eq_false_iff.mpr fun htrue ↦ (getLsbD_and_not_bit.mp htrue).1 rfl
  refine ⟨hinv.untrack fd, ?_, hinv.free_placeholder hfd haccepting hmask hout⟩
  rw [← hmapped]
  exact hinv.free_of_untracked hfd hmask hout

theorem closeLwip_free {fd lwfd code : ℤ} {t : FdTables} {w : FdWorld}
    (hfree : ∀ i, nativeOwner t w i ≠ some fd) (i : Holder) :
    nativeOwner t (w.closeLwip lwfd code) i ≠ some fd := by
  rw [nativeOwner_congr closeLwip_thread]
  exact hfree i

theorem fd_hookSocketclose (sockfd : ℤ) (hx : At (FdInv u) x)
    (hcare : ∀ slot, relayNative x.mem.tables x.world slot ≠ some sockfd) :
    fdWp (hookSocketclose sockfd) (fun _ ↦ At (FdInv u)) x := by
  rw [fdWp, hookSocketclose, wp_bind]
  refine wp_mono (fd_isForeign sockfd) fun foreign y hpost ↦ ?_
  obtain ⟨hsame, hforeign⟩ := hpost
  rw [hsame, wp_ite]
  split
  · rename_i htrue
    have hfree : ∀ i, nativeOwner x.mem.tables x.world i ≠ some sockfd := by
      intro i hi
      cases i with
      | inr slot => exact hcare slot hi
      | inl fd =>
        simp only [nativeOwner] at hi
        split at hi
        · rename_i hboth
          cases hi
          have hours := hforeign.mpr ⟨hboth.1, by omega,
            Int.ofNat_lt.mpr (lt_of_getLsbD hboth.2), hboth.2⟩
          rw [hours] at htrue
          cases htrue
        · cases hi
    have hx : At (fun t w ↦ FdInv u t w ∧ ∀ i, nativeOwner t w i ≠ some sockfd) x := ⟨hx, hfree⟩
    rw [wp_bind]
    refine wp_mono (fd_frame (Keeps.when (keeps_forgetNative _)) hx) fun _ y hy ↦ ?_
    rw [wp_bind]
    refine wp_mono (fd_frame (keeps_nsslRelayDetachPublicFd _) hy) fun _ y hy ↦ ?_
    rw [callNative, wp_bind]
    refine wp_mono (fd_frame (keeps_setErrno _) hy) fun _ y hy ↦ ?_
    refine wp_mono (fd_nativeClose _) fun r z hpost ↦ ?_
    obtain ⟨hmem, hworld⟩ := hpost
    rw [At, hmem, hworld]
    exact hy.1.closeNative hy.2
  · rename_i hours
    obtain ⟨haccepting, hpos, hlt, hfd⟩ := hforeign.mp (Bool.eq_false_iff.mpr hours)
    have hnat : ((sockfd.toNat : ℕ) : ℤ) = sockfd := Int.toNat_of_nonneg hpos
    rw [wp_bind]
    have hx : At (Recorded u sockfd.toNat (x.mem.tables.mappedFd sockfd.toNat)) x :=
      ⟨hx, haccepting, hfd, rfl⟩
    refine wp_mono (fd_frame (keeps_setErrno _) hx) fun _ y hy ↦ ?_
    rw [wp_bind, stackFd, wp_load]
    have hlwfd : y.mem.mappedFd sockfd.toNat = x.mem.tables.mappedFd sockfd.toNat := hy.2.2.2
    rw [hlwfd, wp_bind]
    refine wp_mono (fd_lwipClose _) fun r z hpost ↦ ?_
    obtain ⟨htables, hworld⟩ := hpost
    rw [wp_bind, wp_when]
    split
    · -- the lwIP descriptor is gone: the public one leaves the mask and is closed as well
      rw [wp_bind, untrackFd, wp_store, ignore, wp_bind]
      refine wp_mono (fd_nativeClose _) fun _ v hpost ↦ ?_
      obtain ⟨hmem, hclosed⟩ := hpost
      obtain ⟨hinv, hlwip, hnative⟩ := hy.untrack
      rw [hnat] at hnative
      have htables' : v.mem.tables =
          { y.mem.tables with openMask := y.mem.tables.openMask &&& ~~~ bit sockfd.toNat } := by
        rw [hmem, ← htables]
        rfl
      change FdInv u v.mem.tables v.world
      rw [htables', hclosed, hworld]
      exact (hinv.closeLwip hlwip).closeNative (closeLwip_free hnative)
    · rename_i hfailed
      change FdInv u z.mem.tables z.world
      rw [htables, hworld, FdWorld.closeLwip, if_neg hfailed]
      exact hy.1

/-- Without holders nsysnet may close everything. -/
theorem FdInv.closeAll {t : FdTables} {w : FdWorld} (h : FdInv u t w)
    (hnone : ∀ i, nativeOwner t w i = none) : FdInv u t { w with native := fun _ ↦ none } := by
  refine { h with native := .of_none hnone, placeholder := fun haccepting fd hfd ↦ ?_ }
  have hpublic := nativeOwner_public (w := w) haccepting hfd
  rw [hnone] at hpublic
  cases hpublic

theorem fd_socketcloseAll (hx : At (fun t w ↦ FdInv u t w ∧ ∀ i, nativeOwner t w i = none) x) :
    fdWp (callNative .socketcloseAll) (fun _ ↦ At (FdInv u)) x := by
  rw [fdWp, callNative, wp_bind]
  refine wp_mono (fd_frame (keeps_setErrno _) hx) fun _ y hy ↦ ?_
  refine wp_mono (fd_native _) fun r z ⟨hmem, heffect⟩ ↦ ?_
  have hworld := (Option.some.inj heffect).symm
  rw [At, hmem, hworld]
  split
  · exact hy.1.closeAll hy.2
  · exact hy.1

/-- The loop over the descriptors that left the mask. -/
theorem fd_closeMapped {t₀ : FdTables} {w₀ : FdWorld} (hinv : FdInv u t₀ w₀)
    (hx : At (fun t w ↦ FdInv u t w ∧ t = { t₀ with openMask := 0 } ∧ w.thread = w₀.thread) x) :
    fdWp (closeMapped t₀.openMask)
      (fun _ ↦ At fun t w ↦ FdInv u t w ∧ t = { t₀ with openMask := 0 } ∧
        w.thread = w₀.thread) x := by
  refine wp_each hx fun fd _ y hy ↦ ?_
  rw [wp_when]
  split
  · rename_i hfd
    rw [wp_bind, stackFd, wp_load, ignore, wp_bind]
    refine wp_mono (fd_lwipClose _) fun r z ⟨htables, hworld⟩ ↦ ?_
    have hmapped : y.mem.mappedFd ((fd : ℤ).toNat) = t₀.mappedFd fd :=
      congrArg (fun t : FdTables ↦ t.mappedFd fd) hy.2.1
    rw [hmapped] at hworld
    have hfree : ∀ i, lwipOwner { t₀ with openMask := 0 } y.world i ≠ some (t₀.mappedFd fd) := by
      rw [lwipOwner_congr hy.2.2]
      exact hinv.free_of_untracked hfd zero_le_mask BitVec.getLsbD_zero
    change FdInv u z.mem.tables z.world ∧ z.mem.tables = { t₀ with openMask := 0 } ∧
      z.world.thread = w₀.thread
    rw [htables, hworld]
    refine ⟨hy.1.closeLwip ?_, hy.2.1, closeLwip_thread.trans hy.2.2⟩
    rw [hy.2.1]
    exact hfree
  · exact hy

theorem fd_hookSocketcloseAll (hx : At (FdInv u) x)
    (hcare : ∀ slot, relayNative x.mem.tables x.world slot = none) :
    fdWp hookSocketcloseAll (fun _ ↦ At (FdInv u)) x := by
  rw [fdWp, hookSocketcloseAll, wp_bind]
  have hx : At (fun t w ↦ FdInv u t w ∧ ∀ slot, relayNative t w slot = none) x := ⟨hx, hcare⟩
  refine wp_mono (fd_frame (keeps_store fun _ ↦ rfl) hx) fun _ y hy ↦ ?_
  rw [wp_bind]
  refine wp_mono (fd_frame (keeps_store fun _ ↦ rfl) hy) fun _ y hy ↦ ?_
  rw [wp_bind]
  refine wp_mono (fd_frame keeps_forgetConnections hy) fun _ y hy ↦ ?_
  simp only [shimAccepts, wp_bind, wp_load, wp_pure]
  rw [wp_ite]
  split
  · rename_i hdown
    have hdown : y.mem.acceptingSockets = 0 := not_not.mp (of_decide_eq_false hdown)
    refine fd_socketcloseAll ⟨hy.1, fun i ↦ ?_⟩
    cases i with
    | inl fd => exact if_neg fun hboth ↦ hboth.1 hdown
    | inr slot => exact hy.2 slot
  · simp only [wp_bind, wp_access]
    have hstart : At (fun t w ↦ FdInv u t w ∧ t = { y.mem.tables with openMask := 0 } ∧
        w.thread = y.world.thread) { y with mem := { y.mem with openMask := 0 } } :=
      ⟨hy.1.shrink zero_le_mask, rfl, rfl⟩
    refine wp_mono (fd_closeMapped hy.1 hstart) fun _ z hz ↦ ?_
    refine fd_socketcloseAll ⟨hz.1, fun i ↦ ?_⟩
    rw [nativeOwner_congr hz.2.2, hz.2.1]
    cases i with
    | inl fd => exact if_neg fun hboth ↦ not_getLsbD_zero fd hboth.2
    | inr slot => exact hy.2 slot

theorem fd_hookBind (sockfd : ℤ) (addr : Option Sockaddr) (addrlen : ℕ) (hx : At (FdInv u) x) :
    fdWp (hookBind sockfd addr addrlen) (fun _ ↦ At (FdInv u)) x := by
  rw [fdWp, hookBind, routed, wp_bind]
  refine wp_mono (fd_isForeign sockfd) fun foreign y hpost ↦ ?_
  obtain ⟨hsame, hforeign⟩ := hpost
  rw [hsame, wp_ite]
  split
  · exact fd_frame (keeps_callNative trivial) hx
  · rename_i hours
    obtain ⟨haccepting, -, -, hfd⟩ := hforeign.mp (Bool.eq_false_iff.mpr hours)
    rw [wp_bind]
    have hx : At (Recorded u sockfd.toNat (x.mem.tables.mappedFd sockfd.toNat)) x :=
      ⟨hx, haccepting, hfd, rfl⟩
    refine wp_mono (fd_frame (keeps_setErrno _) hx) fun _ y hy ↦ ?_
    cases sockaddrToLwip addr addrlen with
    | none => exact wp_mono (fd_frame (keeps_fail _) hy) fun _ z hz ↦ hz.1
    | some l =>
      rw [wp_ite]
      split
      · rw [wp_bind, stackFd, wp_load]
        have hlwfd : y.mem.mappedFd sockfd.toNat = x.mem.tables.mappedFd sockfd.toNat := hy.2.2.2
        rw [hlwfd, wp_bind, ignore, wp_bind]
        refine wp_mono (fd_lwipClose _) fun r z hpost ↦ ?_
        obtain ⟨htables, hworld⟩ := hpost
        rw [wp_pure, wp_bind, untrackFd, wp_store]
        obtain ⟨hinv, hlwip, -⟩ := hy.untrack
        refine fd_frame (keeps_callNative trivial) ?_
        have htables' : ({ z.mem with openMask := z.mem.openMask &&& ~~~ bit sockfd.toNat } :
            ShimState).tables =
            { y.mem.tables with openMask := y.mem.tables.openMask &&& ~~~ bit sockfd.toNat } := by
          rw [← htables]
          rfl
        rw [At, htables', hworld]
        exact hinv.closeLwip hlwip
      · rw [wp_bind]
        refine wp_mono (fd_frame (keeps_ftpRewriteBindToAx _ _) hy) fun _ y hy ↦ ?_
        refine wp_mono (fd_frame (Keeps.bind (keeps_stackFd _) fun _ ↦
          Keeps.bind (keeps_lwip trivial) fun _ ↦ keeps_pure _) hy) fun _ z hz ↦ hz.1

end Wp

end Ax88179Aroma.Shim
