import Ax88179Aroma.Shim.Ownership

/-!
# Handover of descriptors to relays

`NSSLCreateConnection` takes a public descriptor out of the mask.  A promotion closes its lwIP
descriptor.  A bridge reserves a relay, whose thread starts without descriptors, and moves the lwIP
descriptor and an accepted native one into it; the public descriptor stays with the title.  The
worker closes both when it ends.
-/

namespace Ax88179Aroma.Shim

open Effect Program

section Handover

variable {u : Bool} {x : FdMachine} {P : FdTables → FdWorld → Prop} {t : FdTables} {w w' : FdWorld}
  {fd slot : ℕ} {lwfd n code : ℤ}

theorem tables_setRelay (s : ShimState) (slot : ℕ) (update : NsslRelay → NsslRelay) :
    (s.setRelay slot update).tables = { s.tables with
      relays := Function.update s.tables.relays slot ((update (s.nsslRelays slot)).allocated,
        (update (s.nsslRelays slot)).nativeFd, (update (s.nsslRelays slot)).lwfd) } := by
  have hrelays : (s.setRelay slot update).tables.relays =
      Function.update s.tables.relays slot ((update (s.nsslRelays slot)).allocated,
        (update (s.nsslRelays slot)).nativeFd, (update (s.nsslRelays slot)).lwfd) := by
    funext other
    by_cases hsame : other = slot
    · rw [hsame, Function.update_self]
      simp only [ShimState.tables, ShimState.setRelay_self]
    · rw [Function.update_of_ne hsame]
      simp only [ShimState.tables, ShimState.setRelay_of_ne s hsame]
  calc (s.setRelay slot update).tables
      = { s.tables with relays := (s.setRelay slot update).tables.relays } := rfl
    _ = _ := by rw [hrelays]

theorem fd_note (event : ShimNote) :
    fdWp (note event) (fun _ y ↦ y.mem = x.mem ∧
      ∃ answer, fdEffect x.mem x.world (.note event) answer = some y.world) x := by
  refine ⟨trivial, fun answer y hreply ↦ ?_⟩
  obtain ⟨w, heffect, rfl⟩ := Option.map_eq_some_iff.mp hreply
  exact ⟨rfl, answer, heffect⟩

/-! ## Reaping -/

/-- Slots without a running thread may be freed. -/
structure Reapable (P : FdTables → FdWorld → Prop) : Prop where
  join : ∀ t w slot, P t w → w.thread slot ≠ .running → P t (w.setThread slot .absent)
  change : ∀ t w slot value, P t w → w.thread slot ≠ .running →
    P { t with relays := Function.update t.relays slot value } w

theorem reapable_fdInv : Reapable (FdInv u) where
  join _ _ slot h _ := h.stopThread slot nofun
  change _ _ _ value h hidle := h.setIdleRelay hidle value

theorem Reapable.and_tables (hP : Reapable P) {Q : FdTables → Prop}
    (hQ : ∀ t slot value, Q t → Q { t with relays := Function.update t.relays slot value }) :
    Reapable fun t w ↦ P t w ∧ Q t where
  join t w slot h hidle := ⟨hP.join t w slot h.1 hidle, h.2⟩
  change t w slot value h hidle := ⟨hP.change t w slot value h.1 hidle, hQ t slot value h.2⟩

theorem fd_reapable (slot : ℕ) :
    fdWp (reapable slot) (fun free y ↦ y = x ∧
      (free = true → x.world.thread slot ≠ .running)) x := by
  rw [fdWp, reapable, wp_bind, loadRelay, wp_load, wp_ite]
  split
  · exact ⟨rfl, fun h ↦ absurd h Bool.false_ne_true⟩
  · rw [wp_bind, loadRelay, wp_load, wp_ite]
    split
    · exact ⟨rfl, fun h ↦ absurd h Bool.false_ne_true⟩
    · rw [wp_bind]
      refine ⟨trivial, fun answer y hreply ↦ ?_⟩
      obtain ⟨w, heffect, rfl⟩ := Option.map_eq_some_iff.mp hreply
      simp only [fdEffect] at heffect
      split at heffect
      · rename_i hterminated
        cases heffect
        exact ⟨rfl, fun hfree ↦ hterminated.mp (of_decide_eq_true hfree)⟩
      · cases heffect

theorem fd_reapSlot (hP : Reapable P) (slot : ℕ) (hx : At P x) :
    fdWp (reapSlot slot) (fun _ ↦ At P) x := by
  rw [fdWp, reapSlot, wp_bind]
  refine wp_mono (fd_reapable slot) fun free y hpost ↦ ?_
  obtain ⟨hsame, hidle⟩ := hpost
  rw [hsame, wp_when]
  split
  · rename_i hfree
    rw [wp_bind, ignore, os, wp_bind]
    refine ⟨trivial, fun answer z hreply ↦ ?_⟩
    obtain ⟨w, heffect, rfl⟩ := Option.map_eq_some_iff.mp hreply
    simp only [fdEffect, if_neg (hidle hfree)] at heffect
    cases heffect
    have hidle' : (x.world.setThread slot .absent).thread slot ≠ .running := by
      rw [FdWorld.setThread_self]
      decide
    have hjoined : At P { x with world := x.world.setThread slot .absent } :=
      hP.join _ _ slot hx (hidle hfree)
    change P (((x.mem.setRelay slot _).setRelay slot _).tables) _
    rw [tables_setRelay, tables_setRelay]
    exact hP.change _ _ slot _ (hP.change _ _ slot _ hjoined hidle') hidle'
  · exact hx

theorem fd_nsslRelayReap (hP : Reapable P) (hx : At P x) :
    fdWp nsslRelayReap (fun _ ↦ At P) x :=
  wp_each hx fun slot _ _ hy ↦ fd_reapSlot hP slot hy

theorem fd_nsslRelayStopAll (hP : Reapable P) (fuel : ℕ) (hx : At P x) :
    fdWp (nsslRelayStopAll fuel) (fun _ ↦ At P) x := by
  rw [fdWp, nsslRelayStopAll, wp_bind]
  refine wp_mono (fd_frame (keeps_stopAllocated _) hx) fun any y hy ↦ ?_
  rw [wp_when]
  split
  · rw [wp_bind]
    refine wp_mono (fd_frame (keeps_perform trivial) hy) fun now y hy ↦ ?_
    rw [wp_bind]
    refine wp_mono (fd_frame (keeps_inert (keeps_waitRelays _ fuel)) hy) fun _ y hy ↦ ?_
    exact fd_nsslRelayReap hP hy
  · exact hy

/-! ## Reserving -/

/-- A public descriptor of the shim while a relay without descriptors waits for it. -/
def Bridging (u : Bool) (fd : ℕ) (lwfd : ℤ) (slot : ℕ) (t : FdTables) (w : FdWorld) : Prop :=
  Recorded u fd lwfd t w ∧ w.thread slot = .running ∧ (t.relays slot).2.1 < 0 ∧
    (t.relays slot).2.2 < 0

theorem reapable_recorded : Reapable (Recorded u fd lwfd) :=
  reapable_fdInv.and_tables
    (Q := fun t ↦ t.accepting ≠ 0 ∧ t.openMask.getLsbD fd = true ∧ t.mappedFd fd = lwfd)
    fun _ _ _ h ↦ h

theorem fd_nsslRelayReserveFrom (slots : List ℕ) (hx : At (Recorded u fd lwfd) x) :
    fdWp (nsslRelayReserveFrom slots) (fun slot y ↦ At (FdInv u) y ∧
      (0 ≤ slot → At (Bridging u fd lwfd slot.toNat) y)) x := by
  induction slots with
  | nil => exact ⟨hx.1, fun hpos ↦ absurd hpos (by decide)⟩
  | cons slot rest ih =>
    rw [fdWp, nsslRelayReserveFrom, wp_bind, wp_access]
    by_cases hfree : (x.mem.nsslRelays slot).allocated = 0
    · have hidle : x.world.thread slot ≠ .running := fun hrunning ↦
        hx.1.allocated slot hrunning hfree
      simp only [claimRelay, if_pos hfree, Bool.not_true, Bool.false_eq_true, if_false]
      simp only [resetRelay, wp_bind, storeRelay, wp_store]
      set s := ((((((x.mem.setRelay slot _).setRelay slot _).setRelay slot _).setRelay slot
        _).setRelay slot _).setRelay slot _) with hs
      have htables : s.tables =
          { x.mem.tables with relays := Function.update x.mem.tables.relays slot (1, -1, -1) } := by
        rw [hs]
        simp only [tables_setRelay, Function.update_idem, ShimState.setRelay_self]
      have hreset : At (Recorded u fd lwfd) { x with mem := s } := by
        rw [At, htables]
        exact reapable_recorded.change _ _ slot _ hx hidle
      rw [os, wp_perform]
      refine ⟨trivial, fun answer z hreply ↦ ?_⟩
      obtain ⟨w, heffect, rfl⟩ := Option.map_eq_some_iff.mp hreply
      have hworld := (Option.some.inj heffect).symm
      rw [wp_ite]
      split
      · -- no thread: the slot is free again
        rename_i hnone
        rw [if_pos hnone] at hworld
        refine ⟨?_, fun hpos ↦ absurd hpos (by decide)⟩
        change FdInv u (s.setRelay slot _).tables w
        rw [tables_setRelay, hworld]
        exact reapable_fdInv.change _ _ slot _ hreset.1 hidle
      · rename_i hsome
        rw [if_neg hsome] at hworld
        have hrelay : s.tables.relays slot = (1, -1, -1) := by
          rw [htables]
          exact Function.update_self slot _ _
        have hlive : At (Bridging u fd lwfd slot) { mem := s, world := w } := by
          rw [hworld]
          refine ⟨⟨hreset.1.startThread ?_ ?_ ?_, hreset.2⟩, ?_, ?_, ?_⟩
          · change (s.tables.relays slot).1 ≠ 0
            rw [hrelay]
            decide
          · change (s.tables.relays slot).2.1 < 0
            rw [hrelay]
            decide
          · change (s.tables.relays slot).2.2 < 0
            rw [hrelay]
            decide
          · exact FdWorld.setThread_self _ _ _
          · change (s.tables.relays slot).2.1 < 0
            rw [hrelay]
            decide
          · change (s.tables.relays slot).2.2 < 0
            rw [hrelay]
            decide
        rw [wp_bind]
        exact wp_mono (fd_frame (keeps_ignore (keeps_perform trivial)) hlive) fun _ z hz ↦
          ⟨hz.1.1, fun _ ↦ hz⟩
    · simp only [claimRelay, if_neg hfree, Bool.not_false, if_true]
      exact ih

theorem fd_nsslRelayReserve (hx : At (Recorded u fd lwfd) x) :
    fdWp nsslRelayReserve (fun slot y ↦ At (FdInv u) y ∧
      (0 ≤ slot → At (Bridging u fd lwfd slot.toNat) y)) x := by
  rw [fdWp, nsslRelayReserve, wp_bind]
  exact wp_mono (fd_nsslRelayReap reapable_recorded hx) fun _ y hy ↦
    fd_nsslRelayReserveFrom _ hy

/-! ## Promotion -/

/-- The public descriptor left the mask and its mapping is forgotten. -/
def FdTables.unmap (t : FdTables) (fd : ℕ) : FdTables :=
  { t with
    openMask := t.openMask &&& ~~~ bit fd, mappedFd := Function.update t.mappedFd fd (-1) }

theorem Recorded.unmap (h : Recorded u fd lwfd t w) :
    FdInv u (t.unmap fd) w ∧ SpareLwip (t.unmap fd) w lwfd := by
  have hopen := h.1.lwip.isOpen_of_own _ _ (lwipOwner_public h.2.2.1)
  rw [h.2.2.2] at hopen
  obtain ⟨hinv, hlwip, -⟩ := h.untrack
  have hout : (t.openMask &&& ~~~ bit fd).getLsbD fd = false :=
    Bool.eq_false_iff.mpr fun htrue ↦ (getLsbD_and_not_bit.mp htrue).1 rfl
  refine ⟨hinv.remap hout (-1), hopen, ?_⟩
  rw [FdTables.unmap, lwipOwner_remap (t := { t with openMask := t.openMask &&& ~~~ bit fd }) hout]
  exact hlwip

/-- Public descriptors that stay keep their placeholders. -/
theorem nativeOwner_unmap {i : Holder} (h : nativeOwner (t.unmap fd) w i = some n) :
    nativeOwner t w i = some n := by
  cases i with
  | inl k =>
    simp only [nativeOwner, FdTables.unmap, getLsbD_and_not_bit] at h ⊢
    split at h
    · rename_i hboth
      rw [if_pos ⟨hboth.1, hboth.2.2⟩]
      exact h
    · cases h
  | inr slot => exact h

theorem fd_unmapFd {sockfd : ℤ} (hx : At (fun t w ↦ P (t.unmap sockfd.toNat) w) x) :
    fdWp (unmapFd sockfd) (fun _ ↦ At P) x := hx

theorem fd_promoteAxSocketToNative (sockfd : ℤ) (hx : At (FdInv u) x) :
    fdWp (promoteAxSocketToNative sockfd) (fun _ ↦ At (FdInv u)) x := by
  rw [fdWp, promoteAxSocketToNative, wp_bind]
  refine wp_mono (fd_isForeign sockfd) fun foreign y hpost ↦ ?_
  obtain ⟨hsame, hforeign⟩ := hpost
  rw [hsame, wp_ite]
  split
  · exact hx
  · rename_i hours
    obtain ⟨haccepting, -, -, hfd⟩ := hforeign.mp (Bool.eq_false_iff.mpr hours)
    have hx : At (Recorded u sockfd.toNat (x.mem.mappedFd sockfd.toNat)) x :=
      ⟨hx, haccepting, hfd, rfl⟩
    rw [wp_bind, stackFd, wp_load, wp_bind]
    refine wp_mono (fd_frame (keeps_lwip trivial) hx) fun peer y hy ↦ ?_
    rw [wp_ite]
    split
    · exact hy.1
    · cases sockaddrToLwip peer.addr 16 with
      | none => exact hy.1
      | some address =>
        rw [wp_bind]
        refine wp_mono (fd_frame (keeps_setErrno _) hy) fun _ y hy ↦ ?_
        rw [wp_bind]
        refine wp_mono (fd_frame (keeps_perform trivial) hy) fun rc y hy ↦ ?_
        rw [wp_ite]
        split
        · rw [wp_bind]
          exact wp_mono (fd_frame keeps_realSocketlasterr hy) fun _ z hz ↦ hz.1
        · rw [wp_bind]
          have hunmapped : At (fun t w ↦ FdInv u (t.unmap sockfd.toNat) w ∧
              SpareLwip (t.unmap sockfd.toNat) w (x.mem.mappedFd sockfd.toNat)) y := hy.unmap
          refine wp_mono (fd_unmapFd (P := fun t w ↦ FdInv u t w ∧
            SpareLwip t w (x.mem.mappedFd sockfd.toNat)) hunmapped) fun _ y hy ↦ ?_
          rw [wp_bind, ignore, wp_bind]
          refine wp_mono (fd_lwipClose _) fun _ z hpost ↦ ?_
          obtain ⟨htables, hworld⟩ := hpost
          change FdInv u z.mem.tables z.world
          rw [htables, hworld]
          exact hy.1.closeLwip hy.2.2

/-! ## The bridge -/

/-- A live relay without descriptors takes over a spare pair. -/
theorem FdInv.adopt (h : FdInv u t w) (hallocated : (t.relays slot).1 ≠ 0)
    (hlwip : SpareLwip t w lwfd) (hnative : SpareNative t w n) :
    FdInv u { t with relays := Function.update t.relays slot ((t.relays slot).1, n, lwfd) }
      { w with adopted := Function.update w.adopted slot (w.native n) } := by
  have hother : ∀ other, other ≠ slot →
      Function.update t.relays slot ((t.relays slot).1, n, lwfd) other = t.relays other :=
    fun other hne ↦ Function.update_of_ne hne _ _
  refine { h with
    lwip := h.lwip.acquire (i := .inr slot) hlwip (fun s hs ↦ ?_) (fun j s hj hs ↦ ?_)
    native := h.native.acquire (i := .inr slot) hnative (fun s hs ↦ ?_) (fun j s hj hs ↦ ?_)
    allocated := fun other hrunning ↦ ?_ }
  · simp only [lwipOwner, Function.update_self] at hs
    split at hs
    · exact (Option.some.inj hs).symm
    · cases hs
  · cases j with
    | inl k => exact hs
    | inr other =>
      simp only [lwipOwner, hother other fun hsame ↦ hj (hsame ▸ rfl)] at hs
      exact hs
  · simp only [nativeOwner, Function.update_self] at hs
    split at hs
    · exact (Option.some.inj hs).symm
    · cases hs
  · cases j with
    | inl k => exact hs
    | inr other =>
      simp only [nativeOwner, hother other fun hsame ↦ hj (hsame ▸ rfl)] at hs
      exact hs
  · change (Function.update t.relays slot ((t.relays slot).1, n, lwfd) other).1 ≠ 0
    by_cases hsame : other = slot
    · rw [hsame, Function.update_self]
      exact hallocated
    · rw [hother other hsame]
      exact h.allocated other hrunning

/-- What remains to be closed when a bridge is given up. -/
def WithListener (u : Bool) (n : ℤ) (t : FdTables) (w : FdWorld) : Prop :=
  FdInv u t w ∧ ∀ i, nativeOwner t w i ≠ some n

theorem fd_bridgeFail (listener slot code : ℤ) (hx : At (WithListener u listener) x) :
    fdWp (bridgeFail listener slot code) (fun _ ↦ At (FdInv u)) x := by
  rw [fdWp, bridgeFail, wp_bind, ignore, wp_bind]
  refine wp_mono (fd_nativeClose _) fun r y hpost ↦ ?_
  obtain ⟨hmem, hworld⟩ := hpost
  have hy : At (FdInv u) y := by
    rw [At, hmem, hworld]
    exact hx.1.closeNative hx.2
  rw [wp_pure, wp_bind]
  exact wp_mono (fd_frame (keeps_nsslRelayStopSlot _) hy) fun _ z hz ↦ hz

theorem fd_bridgeFailNative (listener slot base : ℤ) (hx : At (WithListener u listener) x) :
    fdWp (bridgeFailNative listener slot base) (fun _ ↦ At (FdInv u)) x := by
  rw [fdWp, bridgeFailNative, wp_bind]
  exact wp_mono (fd_frame keeps_realSocketlasterr hx) fun _ y hy ↦ fd_bridgeFail _ _ _ hy

theorem fd_bridgePublish (sockfd accepted : ℤ)
    (hx : At (fun t w ↦ Bridging u sockfd.toNat lwfd slot t w ∧ SpareNative t w accepted) x) :
    fdWp (bridgePublish sockfd lwfd accepted slot) (fun _ ↦ At (FdInv u)) x := by
  obtain ⟨⟨hrecorded, hrunning, hnative, hlwip⟩, hspare⟩ := hx
  obtain ⟨hinv, hfree⟩ := hrecorded.unmap
  have hspare' : SpareNative (x.mem.tables.unmap sockfd.toNat) x.world accepted :=
    ⟨hspare.1, fun i hi ↦ hspare.2 i (nativeOwner_unmap hi)⟩
  have hadopted := hinv.adopt (hinv.allocated slot hrunning) hfree hspare'
  rw [fdWp, bridgePublish, wp_bind, storeRelay, wp_store, wp_bind, storeRelay, wp_store,
    ShimState.setRelay_setRelay, wp_bind]
  refine wp_mono (fd_note _) fun _ y hpost ↦ ?_
  obtain ⟨hmem, answer, heffect⟩ := hpost
  have hworld : y.world = _ := (Option.some.inj heffect).symm
  rw [ShimState.setRelay_self] at hworld
  have hmoved : At (fun t w ↦ FdInv u (t.unmap sockfd.toNat) w) y := by
    rw [At, hmem, tables_setRelay, hworld]
    exact hadopted
  rw [wp_bind]
  refine wp_mono (fd_frame (keeps_storeRelay (fun _ ↦ rfl) (fun _ ↦ rfl) fun _ ↦ rfl) hmoved)
    fun _ y hy ↦ ?_
  rw [wp_bind]
  refine wp_mono (fd_unmapFd hy) fun _ y hy ↦ ?_
  rw [wp_bind]
  exact wp_mono (fd_frame (keeps_storeRelay (fun _ ↦ rfl) (fun _ ↦ rfl) fun _ ↦ rfl) hy)
    fun _ z hz ↦ hz

/-- A bridge with an open listener. -/
def Listening (u : Bool) (fd : ℕ) (lwfd : ℤ) (slot : ℕ) (listener : ℤ) (t : FdTables)
    (w : FdWorld) : Prop :=
  Bridging u fd lwfd slot t w ∧ SpareNative t w listener

theorem Listening.withListener {listener : ℤ} (h : Listening u fd lwfd slot listener t w) :
    WithListener u listener t w := ⟨h.1.1.1, h.2.2⟩

theorem openNative_thread (h : w.openNative n = some w') : w'.thread = w.thread := by
  rcases openNative_cases h with ⟨-, rfl⟩ | ⟨-, -, rfl⟩
  · rfl
  · rfl

/-- Opening a native descriptor keeps what a bridge has so far. -/
theorem Bridging.openNative (h : Bridging u fd lwfd slot t w) (hopen : w.openNative n = some w') :
    Bridging u fd lwfd slot t w' ∧ (0 ≤ n → SpareNative t w' n) := by
  obtain ⟨⟨hinv, hrecorded⟩, hrunning, hrest⟩ := h
  obtain ⟨hinv, hfresh⟩ := hinv.openNative hopen
  rw [← openNative_thread hopen] at hrunning
  exact ⟨⟨⟨hinv, hrecorded⟩, hrunning, hrest⟩, hfresh⟩

theorem Bridging.closeNative (h : Bridging u fd lwfd slot t w)
    (hfree : ∀ i, nativeOwner t w i ≠ some n) :
    Bridging u fd lwfd slot t (w.closeNative n code) := by
  obtain ⟨⟨hinv, hrecorded⟩, hrunning, hrest⟩ := h
  refine ⟨⟨hinv.closeNative hfree, hrecorded⟩, ?_, hrest⟩
  rw [closeNative_thread]
  exact hrunning

/-- A spare native descriptor stays spare when another one is opened. -/
theorem SpareNative.openNative {m : ℤ} (h : SpareNative t w m) (hopen : w.openNative n = some w') :
    SpareNative t w' m ∧ (0 ≤ n → n ≠ m) := by
  refine ⟨⟨?_, ?_⟩, ?_⟩
  · rcases openNative_cases hopen with ⟨-, rfl⟩ | ⟨-, hfresh, rfl⟩
    · exact h.1
    · have hne : m ≠ n := fun hsame ↦ h.1 (hsame ▸ hfresh)
      exact (Function.update_of_ne hne _ w.native).trans_ne h.1
  · rw [nativeOwner_congr (openNative_thread hopen)]
    exact h.2
  · rcases openNative_cases hopen with ⟨hneg, -⟩ | ⟨-, hfresh, -⟩
    · exact fun hpos ↦ absurd hpos (by omega)
    · exact fun _ hsame ↦ h.1 (hsame ▸ hfresh)

/-- A spare native descriptor stays spare when another one is closed. -/
theorem SpareNative.closeNative {m : ℤ} (h : SpareNative t w m) (hne : m ≠ n) :
    SpareNative t (w.closeNative n code) m := by
  refine ⟨?_, ?_⟩
  · unfold FdWorld.closeNative
    split
    · exact (Function.update_of_ne hne _ w.native).trans_ne h.1
    · exact h.1
  · rw [nativeOwner_congr closeNative_thread]
    exact h.2

theorem fd_bridgeConnect (sockfd listener slot : ℤ) (loc : Sockaddr)
    (hx : At (Listening u sockfd.toNat lwfd slot.toNat listener) x) :
    fdWp (bridgeConnect sockfd lwfd listener slot loc) (fun _ ↦ At (FdInv u)) x := by
  rw [fdWp, bridgeConnect, wp_bind]
  refine wp_mono (fd_frame (keeps_perform trivial) hx) fun connected y hy ↦ ?_
  rw [wp_ite]
  split
  · exact fd_bridgeFailNative _ _ _ hy.withListener
  · rw [wp_bind]
    refine wp_mono (fd_native _) fun accepted z hpost ↦ ?_
    obtain ⟨hmem, heffect⟩ := hpost
    obtain ⟨hbridging, hfresh⟩ := hy.1.openNative heffect
    obtain ⟨hlistener, hne⟩ := hy.2.openNative heffect
    rw [wp_bind, ignore, wp_bind]
    refine wp_mono (fd_nativeClose _) fun r v hpost ↦ ?_
    obtain ⟨hmem', hworld⟩ := hpost
    have hv : At (Bridging u sockfd.toNat lwfd slot.toNat) v := by
      rw [At, hmem', hworld, hmem]
      exact hbridging.closeNative hlistener.2
    rw [wp_pure, wp_ite]
    split
    · rw [wp_bind]
      refine wp_mono (fd_frame keeps_realSocketlasterr hv) fun _ y hy ↦ ?_
      rw [wp_bind]
      exact wp_mono (fd_frame (keeps_nsslRelayStopSlot _) hy) fun _ z hz ↦ hz.1.1
    · rename_i hneg
      refine fd_bridgePublish _ _ ⟨hv, ?_⟩
      rw [hmem', hworld, hmem]
      exact (hfresh (by omega)).closeNative (hne (by omega))

theorem fd_bridgeListen (sockfd listener slot : ℤ)
    (hx : At (Listening u sockfd.toNat lwfd slot.toNat listener) x) :
    fdWp (bridgeListen sockfd lwfd listener slot) (fun _ ↦ At (FdInv u)) x := by
  rw [fdWp, bridgeListen, wp_bind]
  refine wp_mono (fd_frame (keeps_lwip trivial) hx) fun parsed y hy ↦ ?_
  rw [wp_ite]
  split
  · exact fd_bridgeFail _ _ _ hy.withListener
  · rw [wp_bind]
    refine wp_mono (fd_frame (keeps_perform trivial) hy) fun bound y hy ↦ ?_
    rw [wp_ite]
    split
    · exact fd_bridgeFailNative _ _ _ hy.withListener
    · rw [wp_bind]
      refine wp_mono (fd_frame (keeps_perform trivial) hy) fun listening y hy ↦ ?_
      rw [wp_ite]
      split
      · exact fd_bridgeFailNative _ _ _ hy.withListener
      · rw [wp_bind]
        refine wp_mono (fd_frame (keeps_perform trivial) hy) fun name y hy ↦ ?_
        rw [wp_ite]
        split
        · exact fd_bridgeFailNative _ _ _ hy.withListener
        · exact fd_bridgeConnect _ _ _ _ hy

theorem fd_bridgeAxSocketToNssl (sockfd : ℤ) (hx : At (FdInv u) x) :
    fdWp (bridgeAxSocketToNssl sockfd) (fun _ ↦ At (FdInv u)) x := by
  rw [fdWp, bridgeAxSocketToNssl, wp_bind]
  refine wp_mono (fd_isForeign sockfd) fun foreign y hpost ↦ ?_
  obtain ⟨hsame, hforeign⟩ := hpost
  rw [hsame, wp_ite]
  split
  · exact hx
  · rename_i hours
    obtain ⟨haccepting, -, -, hfd⟩ := hforeign.mp (Bool.eq_false_iff.mpr hours)
    have hx : At (Recorded u sockfd.toNat (x.mem.mappedFd sockfd.toNat)) x :=
      ⟨hx, haccepting, hfd, rfl⟩
    rw [wp_bind, stackFd, wp_load, wp_bind]
    refine wp_mono (fd_frame (keeps_lwip trivial) hx) fun peer y hy ↦ ?_
    rw [wp_ite]
    split
    · exact hy.1
    · rw [wp_ite]
      split
      · exact hy.1
      · rw [wp_bind]
        refine wp_mono (fd_nsslRelayReserve hy) fun slot y hpost ↦ ?_
        obtain ⟨hinv, hreserved⟩ := hpost
        rw [wp_ite]
        split
        · exact hinv
        · rename_i hslot
          have hbridging := hreserved (by omega)
          rw [wp_bind]
          refine wp_mono (fd_native _) fun listener z hpost ↦ ?_
          obtain ⟨hmem, heffect⟩ := hpost
          obtain ⟨hopened, hfresh⟩ := Bridging.openNative hbridging heffect
          rw [← hmem] at hopened hfresh
          rw [wp_ite]
          split
          · rw [wp_bind]
            exact wp_mono (fd_frame (P := Bridging u _ _ _) (keeps_nsslRelayStopSlot _) hopened)
              fun _ z hz ↦ hz.1.1
          · rename_i hlistener
            exact fd_bridgeListen _ _ _ ⟨hopened, hfresh (by omega)⟩

theorem fd_hookNsslCreateConnection (context : ℤ) (host : Option String)
    (hostLength options sockfd block : ℤ) (hx : At (FdInv u) x) :
    fdWp (hookNsslCreateConnection context host hostLength options sockfd block)
      (fun _ ↦ At (FdInv u)) x := by
  have hprepare : fdWp (nsslPrepare sockfd) (fun _ ↦ At (FdInv u)) x := by
    rw [fdWp, nsslPrepare, wp_bind]
    refine wp_mono (fd_frame (keeps_isForeign sockfd) hx) fun foreign y hy ↦ ?_
    rw [wp_ite]
    split
    · exact hy
    · rw [wp_bind, wp_load, wp_ite]
      split
      · rw [wp_bind]
        exact wp_mono (fd_bridgeAxSocketToNssl sockfd hy) fun _ z hz ↦ hz
      · rw [wp_bind]
        exact wp_mono (fd_promoteAxSocketToNative sockfd hy) fun _ z hz ↦ hz
  rw [fdWp, hookNsslCreateConnection, wp_bind]
  refine wp_mono hprepare fun prepared y hy ↦ ?_
  refine fd_frame (Keeps.ite (keeps_pure _) ?_) hy
  refine Keeps.bind (keeps_perform trivial) fun result ↦ ?_
  refine Keeps.bind (Keeps.when (Keeps.ite ?_ ?_)) fun _ ↦ keeps_pure _
  · exact keeps_nsslRelayStopSlot _
  · exact keeps_nsslTrackPublicConnection _ _

/-! ## The end of a relay -/

/-- A relay that is about to end: once its thread is gone nobody holds what its slot names. -/
def Finishing (u : Bool) (slot : ℕ) (t : FdTables) (w : FdWorld) : Prop :=
  FdInv u t (w.setThread slot .terminated) ∧
    (0 ≤ (t.relays slot).2.1 →
      ∀ i, nativeOwner t (w.setThread slot .terminated) i ≠ some (t.relays slot).2.1) ∧
    (0 ≤ (t.relays slot).2.2 →
      ∀ i, lwipOwner t (w.setThread slot .terminated) i ≠ some (t.relays slot).2.2)

theorem owners_terminated (t : FdTables) (w : FdWorld) (slot : ℕ) :
    (nativeOwner t (w.setThread slot .terminated) (.inr slot) = none ∧
      ∀ i n, nativeOwner t (w.setThread slot .terminated) i = some n →
        nativeOwner t w i = some n) ∧
      lwipOwner t (w.setThread slot .terminated) (.inr slot) = none ∧
        ∀ i n, lwipOwner t (w.setThread slot .terminated) i = some n →
          lwipOwner t w i = some n := by
  have hgone : ¬ (w.setThread slot .terminated).thread slot = .running := by
    rw [FdWorld.setThread_self]
    exact nofun
  have hother : ∀ other, other ≠ slot →
      (w.setThread slot .terminated).thread other = w.thread other :=
    fun other hne ↦ w.setThread_of_ne hne _
  refine ⟨⟨if_neg fun h ↦ hgone h.1, fun i n hi ↦ ?_⟩, if_neg fun h ↦ hgone h.1, fun i n hi ↦ ?_⟩
  · cases i with
    | inl fd => exact hi
    | inr other =>
      by_cases hsame : other = slot
      · rw [hsame, nativeOwner, if_neg fun h ↦ hgone h.1] at hi
        cases hi
      · simp only [nativeOwner, hother other hsame] at hi
        exact hi
  · cases i with
    | inl fd => exact hi
    | inr other =>
      by_cases hsame : other = slot
      · rw [hsame, lwipOwner, if_neg fun h ↦ hgone h.1] at hi
        cases hi
      · simp only [lwipOwner, hother other hsame] at hi
        exact hi

theorem FdInv.finishing (h : FdInv u t w) (hrunning : w.thread slot = .running) :
    Finishing u slot t w := by
  obtain ⟨⟨hnative, hnatives⟩, hlwip, hlwips⟩ := owners_terminated t w slot
  refine ⟨h.stopThread slot nofun, fun hpos ↦ ?_, fun hpos ↦ ?_⟩
  · exact (h.native.spare_of_release (i := .inr slot) (if_pos ⟨hrunning, hpos⟩) hnative
      fun j s _ hj ↦ hnatives j s hj).2
  · exact (h.lwip.spare_of_release (i := .inr slot) (if_pos ⟨hrunning, hpos⟩) hlwip
      fun j s _ hj ↦ hlwips j s hj).2

theorem setThread_closeNative (state : ThreadState) :
    (w.closeNative n code).setThread slot state = (w.setThread slot state).closeNative n code := by
  unfold FdWorld.closeNative
  split <;> rfl

theorem setThread_closeLwip (state : ThreadState) :
    (w.closeLwip n code).setThread slot state = (w.setThread slot state).closeLwip n code := by
  unfold FdWorld.closeLwip
  split <;> rfl

theorem setThread_terminated_idle (w : FdWorld) (slot : ℕ) :
    (w.setThread slot .terminated).thread slot ≠ .running := by
  rw [FdWorld.setThread_self]
  exact nofun

theorem Finishing.closeNative (h : Finishing u slot t w) (hpos : 0 ≤ (t.relays slot).2.1) :
    Finishing u slot
      { t with
        relays := Function.update t.relays slot ((t.relays slot).1, -1, (t.relays slot).2.2) }
      (w.closeNative (t.relays slot).2.1 code) := by
  obtain ⟨hinv, hnative, hlwip⟩ := h
  have hclosed : FdInv u t
      ((w.closeNative (t.relays slot).2.1 code).setThread slot .terminated) := by
    rw [setThread_closeNative]
    exact hinv.closeNative (hnative hpos)
  have hidle := setThread_terminated_idle (w.closeNative (t.relays slot).2.1 code) slot
  have hthread : ((w.closeNative (t.relays slot).2.1 code).setThread slot .terminated).thread =
      (w.setThread slot .terminated).thread := by
    rw [setThread_closeNative, closeNative_thread]
  refine ⟨hclosed.setIdleRelay hidle _, fun hneg ↦ ?_, fun hpos ↦ ?_⟩
  · simp only [Function.update_self] at hneg
    exact absurd hneg (by decide)
  · simp only [Function.update_self] at hpos ⊢
    rw [lwipOwner_idleRelay hidle, lwipOwner_congr hthread]
    exact hlwip hpos

theorem Finishing.closeLwip (h : Finishing u slot t w) (hpos : 0 ≤ (t.relays slot).2.2) :
    FdInv u
      { t with
        relays := Function.update t.relays slot ((t.relays slot).1, (t.relays slot).2.1, -1) }
      ((w.closeLwip (t.relays slot).2.2 code).setThread slot .terminated) := by
  have hclosed : FdInv u t
      ((w.closeLwip (t.relays slot).2.2 code).setThread slot .terminated) := by
    rw [setThread_closeLwip]
    exact h.1.closeLwip (h.2.2 hpos)
  exact hclosed.setIdleRelay (setThread_terminated_idle _ slot) _

theorem fd_relayOut (slot : ℕ) (hx : At (Finishing u slot) x) :
    fdWp (relayOut slot) (fun _ ↦ At fun t w ↦ FdInv u t (w.setThread slot .terminated)) x := by
  have hend : ∀ y : FdMachine, At (fun t w ↦ FdInv u t (w.setThread slot .terminated)) y →
      fdWp (do
        storeRelay slot fun r ↦ { r with publicFd := -1 }
        storeRelay slot fun r ↦ { r with done := 1 })
        (fun _ ↦ At fun t w ↦ FdInv u t (w.setThread slot .terminated)) y := fun y hy ↦
    fd_frame (Keeps.bind (keeps_storeRelay (fun _ ↦ rfl) (fun _ ↦ rfl) fun _ ↦ rfl) fun _ ↦
      keeps_storeRelay (fun _ ↦ rfl) (fun _ ↦ rfl) fun _ ↦ rfl) hy
  have hlwip : ∀ y : FdMachine, At (Finishing u slot) y →
      fdWp (do
        let lwfd ← loadRelay slot NsslRelay.lwfd
        when (lwfd ≥ 0) do
          ignore (perform (.lwip (.close lwfd)))
          storeRelay slot fun r ↦ { r with lwfd := -1 }
        storeRelay slot fun r ↦ { r with publicFd := -1 }
        storeRelay slot fun r ↦ { r with done := 1 })
        (fun _ ↦ At fun t w ↦ FdInv u t (w.setThread slot .terminated)) y := by
    intro y hy
    rw [fdWp, wp_bind, loadRelay, wp_load, wp_bind, wp_when]
    split
    · rename_i hpos
      rw [wp_bind, ignore, wp_bind]
      refine ⟨trivial, fun answer z hreply ↦ ?_⟩
      obtain ⟨w, heffect, rfl⟩ := Option.map_eq_some_iff.mp hreply
      cases heffect
      refine hend _ ?_
      rw [At, tables_setRelay]
      exact Finishing.closeLwip hy hpos
    · exact hend y hy.1
  rw [fdWp, relayOut, wp_bind, loadRelay, wp_load, wp_bind, wp_when]
  split
  · rename_i hpos
    rw [wp_bind, ignore, wp_bind]
    refine wp_mono (fd_nativeClose _) fun r y hpost ↦ ?_
    obtain ⟨hmem, hworld⟩ := hpost
    rw [wp_pure, storeRelay, wp_store]
    refine hlwip _ ?_
    rw [At, tables_setRelay, hmem, hworld]
    exact Finishing.closeNative hx hpos
  · exact hlwip x hx

/-- A worker leaves its descriptors closed or without a holder. -/
theorem fd_nsslRelayWorker (slot fuel : ℕ) (hx : At (FdInv u) x)
    (hrunning : x.world.thread slot = .running) :
    fdWp (nsslRelayWorker slot fuel)
      (fun _ ↦ At fun t w ↦ FdInv u t (w.setThread slot .terminated)) x := by
  have hx : At (Finishing u slot) x := hx.finishing hrunning
  rw [fdWp, nsslRelayWorker, wp_bind]
  refine wp_mono (fd_frame (keeps_tables (keeps_relayWait slot fuel)) hx) fun ready y hy ↦ ?_
  rw [wp_bind]
  refine wp_mono (fd_frame (Keeps.when ?_) hy) fun _ y hy ↦ fd_relayOut slot hy
  refine Keeps.bind (keeps_loadRelay slot _) fun fds ↦ ?_
  refine Keeps.bind (keeps_tables (keeps_relayLoop slot _ _ fuel _)) fun _ ↦ ?_
  exact Keeps.bind (keeps_perform trivial) fun _ ↦ keeps_pure _

end Handover

end Ax88179Aroma.Shim
