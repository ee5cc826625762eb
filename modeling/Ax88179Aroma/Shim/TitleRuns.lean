import Ax88179Aroma.Shim.Handover

/-!
# Runs of complete calls

The worker's and the probes' part of the descriptor invariant, and the runs that start with
`nsysnet_shim_begin_title` and consist of complete calls.
-/

namespace Ax88179Aroma.Shim

open Effect Program

section Lifecycle

variable {u v : Bool} {x : FdMachine} {P : FdTables → FdWorld → Prop} {t : FdTables} {w : FdWorld}

/-! ## Teardown -/

/-- The descriptors of the Wiiload proxy may be closed. -/
structure Proxied (P : FdTables → FdWorld → Prop) : Prop where
  native : ∀ t w code, P t w → 0 ≤ t.proxy.2.2 →
    P { t with proxy := (t.proxy.1, t.proxy.2.1, -1) } (w.closeNative t.proxy.2.2 code)
  ax : ∀ t w code, P t w → 0 ≤ t.proxy.2.1 →
    P { t with proxy := (t.proxy.1, -1, t.proxy.2.2) } (w.closeLwip t.proxy.2.1 code)
  listener : ∀ t w code, P t w → 0 ≤ t.proxy.1 →
    P { t with proxy := (-1, t.proxy.2) } (w.closeLwip t.proxy.1 code)

theorem proxied_fdInv : Proxied (FdInv u) where
  native _ _ _ h hpos := absurd h.proxy.2.2 (by omega)
  ax _ _ _ h hpos := absurd h.proxy.2.1 (by omega)
  listener _ _ _ h hpos := absurd h.proxy.1 (by omega)

theorem fd_close (lwfd : ℤ) :
    fdWp (ignore (perform (.lwip (.close lwfd)))) (fun _ y ↦ y.mem = x.mem ∧
      ∃ code, y.world = x.world.closeLwip lwfd code) x := by
  rw [fdWp, ignore, wp_bind]
  refine ⟨trivial, fun answer y hreply ↦ ?_⟩
  obtain ⟨w, heffect, rfl⟩ := Option.map_eq_some_iff.mp hreply
  exact ⟨rfl, answer.code, (Option.some.inj heffect).symm⟩

theorem fd_wiiloadProxyStop (hP : Proxied P) (hx : At P x) :
    fdWp wiiloadProxyStop (fun _ ↦ At fun t w ↦ P t w ∧
      t.proxy.1 < 0 ∧ t.proxy.2.1 < 0 ∧ t.proxy.2.2 < 0) x := by
  rw [fdWp, wiiloadProxyStop, wp_bind, wiiloadProxyResetConnection, wp_bind, loadProxy, wp_load,
    wp_bind]
  have hnative : fdWp (when (x.mem.wiiloadProxy.nativeFd ≥ 0) do
      ignore (native (.shutdown x.mem.wiiloadProxy.nativeFd shutRdwr))
      ignore (native (.socketclose x.mem.wiiloadProxy.nativeFd))
      storeProxy fun p ↦ { p with nativeFd := -1 })
      (fun _ ↦ At fun t w ↦ P t w ∧ t.proxy.2.2 < 0) x := by
    rw [fdWp, wp_when]
    split
    · rename_i hpos
      have hx : At (fun t w ↦ P t w ∧ t.proxy.2.2 = x.mem.wiiloadProxy.nativeFd) x := ⟨hx, rfl⟩
      rw [wp_bind]
      refine wp_mono (fd_frame (keeps_ignore (keeps_perform trivial)) hx) fun _ y hy ↦ ?_
      rw [wp_bind, ignore, wp_bind]
      refine wp_mono (fd_nativeClose _) fun r z hpost ↦ ?_
      obtain ⟨hmem, hworld⟩ := hpost
      refine ⟨?_, (by decide : (-1 : ℤ) < 0)⟩
      have hclosed := hP.native _ _ r.code hy.1 (by rw [hy.2]; exact hpos)
      rw [hy.2, ← hworld, ← hmem] at hclosed
      exact hclosed
    · rename_i hneg
      exact ⟨hx, Int.not_le.mp hneg⟩
  refine wp_mono hnative fun _ y hy ↦ ?_
  rw [wp_bind, loadProxy, wp_load, wp_bind]
  have hax : fdWp (when (y.mem.wiiloadProxy.axFd ≥ 0) do
      ignore (perform (.lwip (.shutdown y.mem.wiiloadProxy.axFd shutRdwr)))
      ignore (perform (.lwip (.close y.mem.wiiloadProxy.axFd)))
      storeProxy fun p ↦ { p with axFd := -1 })
      (fun _ ↦ At fun t w ↦ P t w ∧ t.proxy.2.1 < 0 ∧ t.proxy.2.2 < 0) y := by
    rw [fdWp, wp_when]
    split
    · rename_i hpos
      have hy : At (fun t w ↦ (P t w ∧ t.proxy.2.2 < 0) ∧
          t.proxy.2.1 = y.mem.wiiloadProxy.axFd) y := ⟨hy, rfl⟩
      rw [wp_bind]
      refine wp_mono (fd_frame (keeps_ignore (keeps_perform trivial)) hy) fun _ z hz ↦ ?_
      rw [wp_bind]
      refine wp_mono (fd_close _) fun _ z' hpost ↦ ?_
      obtain ⟨hmem, code, hworld⟩ := hpost
      have hclosed := hP.ax _ _ code hz.1.1 (by rw [hz.2]; exact hpos)
      have hlast := hz.1.2
      rw [hz.2, ← hworld, ← hmem] at hclosed
      rw [← hmem] at hlast
      exact ⟨hclosed, (by decide : (-1 : ℤ) < 0), hlast⟩
    · rename_i hneg
      exact ⟨hy.1, Int.not_le.mp hneg, hy.2⟩
  refine wp_mono hax fun _ y hy ↦ ?_
  rw [storeProxy, wp_store, wp_bind, loadProxy, wp_load, wp_when]
  split
  · rename_i hpos
    rw [wp_bind]
    refine wp_mono (fd_close _) fun _ z hpost ↦ ?_
    obtain ⟨hmem, code, hworld⟩ := hpost
    have hclosed := hP.listener _ _ code hy.1 hpos
    refine ⟨?_, (by decide : (-1 : ℤ) < 0), ?_, ?_⟩
    · change P { z.mem.tables with proxy := (-1, z.mem.tables.proxy.2) } z.world
      rw [hworld, hmem]
      exact hclosed
    · change z.mem.tables.proxy.2.1 < 0
      rw [hmem]
      exact hy.2.1
    · change z.mem.tables.proxy.2.2 < 0
      rw [hmem]
      exact hy.2.2
  · rename_i hneg
    exact ⟨hy.1, Int.not_le.mp hneg, hy.2.1, hy.2.2⟩

/-- The shim stops accepting: only the relays hold native descriptors. -/
theorem FdInv.quiesce (h : FdInv u t w) (hmask : v = false → t.openMask = 0) :
    FdInv v { t with accepting := 0, probeOwns := 0 } w := by
  refine { h with
    native := h.native.mono (fun _ hopen ↦ hopen) fun i r hi ↦ ?_
    placeholder := fun haccepting ↦ absurd rfl haccepting
    idle := fun _ hv ↦ hmask hv
    probe := fun hprobe ↦ absurd rfl hprobe }
  cases i with
  | inl fd =>
    rw [nativeOwner, if_neg fun hboth ↦ hboth.1 rfl] at hi
    cases hi
  | inr slot => exact hi

theorem fd_nsysnetShimStopAccepting (fuel : ℕ)
    (hx : At (fun t w ↦ FdInv u t w ∧ (v = false → t.openMask = 0)) x) :
    fdWp (nsysnetShimStopAccepting fuel) (fun _ ↦ At (FdInv v)) x := by
  rw [fdWp, nsysnetShimStopAccepting, wp_bind]
  have hproxied : Proxied fun t w ↦ FdInv u t w ∧ (v = false → t.openMask = 0) :=
    ⟨fun t w code h hpos ↦ ⟨proxied_fdInv.native t w code h.1 hpos, h.2⟩,
      fun t w code h hpos ↦ ⟨proxied_fdInv.ax t w code h.1 hpos, h.2⟩,
      fun t w code h hpos ↦ ⟨proxied_fdInv.listener t w code h.1 hpos, h.2⟩⟩
  refine wp_mono (fd_wiiloadProxyStop hproxied hx) fun _ y hpost ↦ ?_
  obtain ⟨⟨hinv, hmask⟩, _⟩ := hpost
  rw [wp_bind, nsysnetShimQuiesce, wp_bind, wp_store, wp_store, wp_bind]
  refine wp_mono (fd_frame (P := FdInv v) keeps_nsslShutdownAllTracked
    (hinv.quiesce hmask)) fun _ z hz ↦ ?_
  exact fd_nsslRelayStopAll reapable_fdInv fuel hz

/-- The loop of `nsysnet_shim_drain_owned_sockets` with the tables at its start. -/
def Draining (t₀ : FdTables) (w₀ : FdWorld) (t : FdTables) (w : FdWorld) : Prop :=
  FdInv false t w ∧ t.openMask = 0 ∧ t.relays = t₀.relays ∧ w.thread = w₀.thread ∧
    ∀ fd, t.mappedFd fd = t₀.mappedFd fd ∨ t.mappedFd fd < 0

theorem Draining.free {t₀ : FdTables} {w₀ : FdWorld} (hinv : FdInv u t₀ w₀)
    (h : Draining t₀ w₀ t w) {fd : ℕ} (hfd : t₀.openMask.getLsbD fd = true) (i : Holder) :
    lwipOwner t w i ≠ some (t₀.mappedFd fd) := by
  obtain ⟨-, hmask, hrelays, hthread, -⟩ := h
  have hfree := hinv.free_of_untracked hfd zero_le_mask BitVec.getLsbD_zero
  intro hi
  cases i with
  | inl k =>
    rw [lwipOwner, if_neg (hmask ▸ not_getLsbD_zero k)] at hi
    cases hi
  | inr slot =>
    refine hfree (.inr slot) ?_
    simp only [lwipOwner, hrelays, hthread] at hi
    exact hi

theorem fd_drainFd {t₀ : FdTables} {w₀ : FdWorld} (hinv : FdInv u t₀ w₀) {fd : ℕ}
    (hfd : t₀.openMask.getLsbD fd = true) (hx : At (Draining t₀ w₀) x) :
    fdWp (drainFd fd) (fun _ ↦ At (Draining t₀ w₀)) x := by
  rw [fdWp, drainFd, wp_bind, wp_access]
  have hmapped := hx.2.2.2.2 fd
  have hforgot : At (Draining t₀ w₀) { x with
      mem := { x.mem with mappedFd := Function.update x.mem.mappedFd fd (-1) } } := by
    obtain ⟨hinv, hmask, hrelays, hthread, hrest⟩ := hx
    have hout : x.mem.tables.openMask.getLsbD fd = false := by
      rw [hmask]
      exact BitVec.getLsbD_zero
    refine ⟨hinv.remap hout (-1), hmask, hrelays, hthread, fun other ↦ ?_⟩
    by_cases hsame : other = fd
    · refine .inr ?_
      change Function.update x.mem.mappedFd fd (-1) other < 0
      rw [hsame, Function.update_self]
      decide
    · change Function.update x.mem.mappedFd fd (-1) other = _ ∨
        Function.update x.mem.mappedFd fd (-1) other < 0
      rw [Function.update_of_ne hsame]
      exact hrest other
  rw [wp_bind, wp_when]
  split
  · rename_i hpos
    have hlwfd : x.mem.mappedFd fd = t₀.mappedFd fd := hmapped.resolve_right (Int.not_lt.mpr hpos)
    rw [wp_bind]
    refine wp_mono (fd_frame (keeps_ignore (keeps_perform trivial)) hforgot) fun _ y hy ↦ ?_
    refine wp_mono (fd_close _) fun _ z hpost ↦ ?_
    obtain ⟨hmem, code, hworld⟩ := hpost
    refine fd_frame (keeps_compatStateReset fd) ?_
    rw [At, hmem, hworld]
    have hfree := Draining.free hinv hy hfd
    rw [← hlwfd] at hfree
    exact ⟨hy.1.closeLwip hfree, hy.2.1, hy.2.2.1, closeLwip_thread.trans hy.2.2.2.1, hy.2.2.2.2⟩
  · exact fd_frame (keeps_compatStateReset fd) hforgot

theorem fd_nsysnetShimDrainOwnedSockets (hx : At (FdInv u) x) :
    fdWp nsysnetShimDrainOwnedSockets (fun _ ↦ At (FdInv false)) x := by
  rw [fdWp, nsysnetShimDrainOwnedSockets, wp_bind, wp_access]
  have hempty : FdInv false { x.mem.tables with openMask := 0 } x.world := by
    have hshrunk := hx.shrink zero_le_mask
    exact { hshrunk with idle := fun _ _ ↦ rfl }
  have hstart : At (Draining x.mem.tables x.world) { x with mem := { x.mem with openMask := 0 } } :=
    ⟨hempty, rfl, rfl, rfl, fun _ ↦ .inl rfl⟩
  refine wp_mono (wp_each hstart fun fd _ y hy ↦ ?_) fun _ y hy ↦ hy.1
  rw [wp_when]
  split
  · rename_i hfd
    exact fd_drainFd hx hfd hy
  · exact hy

/-! ## The start of a title -/

/-- The part of the tables that survives `nsysnet_shim_begin_title`: relays and proxy. -/
def FdTables.quiet (t : FdTables) : FdTables :=
  { t with openMask := 0, mappedFd := fun _ ↦ -1, accepting := 0, probeOwns := 0, baseline := 0 }

/-- What `nsysnet_shim_begin_title` leaves behind. -/
def Blank (t : FdTables) : Prop :=
  t.openMask = 0 ∧ t.accepting = 0 ∧ t.probeOwns = 0 ∧ t.baseline = 0 ∧
    t.proxy.1 < 0 ∧ t.proxy.2.1 < 0 ∧ t.proxy.2.2 < 0

theorem fd_nsysnetShimBeginTitle (hreap : Reapable P) (hproxied : Proxied P) (fuel : ℕ)
    (hx : At (fun t w ↦ P t.quiet w) x) :
    fdWp (nsysnetShimBeginTitle fuel) (fun _ ↦ At fun t w ↦ P t.quiet w ∧ Blank t) x := by
  rw [fdWp, nsysnetShimBeginTitle, wp_bind, nsysnetShimStopAccepting, wp_bind]
  have hproxied' : Proxied fun t w ↦ P t.quiet w :=
    ⟨fun t w code h hpos ↦ hproxied.native t.quiet w code h hpos,
      fun t w code h hpos ↦ hproxied.ax t.quiet w code h hpos,
      fun t w code h hpos ↦ hproxied.listener t.quiet w code h hpos⟩
  refine wp_mono (fd_wiiloadProxyStop hproxied' hx) fun _ y hy ↦ ?_
  let stopped : FdTables → Prop := fun t ↦ t.accepting = 0 ∧ t.probeOwns = 0 ∧
    t.proxy.1 < 0 ∧ t.proxy.2.1 < 0 ∧ t.proxy.2.2 < 0
  rw [wp_bind, nsysnetShimQuiesce, wp_bind, wp_store, wp_store, wp_bind]
  have hquiet : At (fun t w ↦ P t.quiet w ∧ stopped t)
      { y with mem := { y.mem with acceptingSockets := 0, probeOwnsAccepting := 0 } } :=
    ⟨hy.1, rfl, rfl, hy.2⟩
  refine wp_mono (fd_frame keeps_nsslShutdownAllTracked hquiet) fun _ y hy ↦ ?_
  have hreap' : Reapable fun t w ↦ P t.quiet w ∧ stopped t :=
    Reapable.and_tables ⟨fun t w slot h hidle ↦ hreap.join t.quiet w slot h hidle,
      fun t w slot value h hidle ↦ hreap.change t.quiet w slot value h hidle⟩ fun _ _ _ h ↦ h
  refine wp_mono (fd_nsslRelayStopAll hreap' fuel hy) fun _ y hy ↦ ?_
  rw [wp_bind, wp_store, wp_bind]
  have hforget : fdWp forgetMappings (fun _ ↦ At fun t w ↦ P t.quiet w ∧ stopped t)
      { y with mem := { y.mem with openMask := 0 } } :=
    wp_each hy fun _ _ _ hz ↦ hz
  refine wp_mono hforget fun _ y hpost ↦ ?_
  obtain ⟨hP, haccepting, howns, hproxy⟩ := hpost
  simp only [wp_bind, wp_store]
  refine wp_mono (fd_frame (P := fun t w ↦ P t.quiet w ∧ Blank t) keeps_forgetConnections
    ⟨hP, rfl, haccepting, howns, rfl, hproxy⟩) fun _ y hy ↦ ?_
  refine wp_mono (fd_frame (Keeps.each fun fd _ ↦ keeps_compatStateReset fd) hy) fun _ y hy ↦ ?_
  refine wp_mono (fd_frame (keeps_inert (keeps_asyncDnsResetAll fuel)) hy) fun _ y hy ↦ ?_
  exact fd_frame keeps_forgetOwned hy

theorem lwipOwner_blank (h : t.openMask = 0) : lwipOwner t w = lwipOwner t.quiet w := by
  funext i
  cases i with
  | inl fd =>
    have hquiet : ¬ t.quiet.openMask.getLsbD fd = true := not_getLsbD_zero fd
    rw [lwipOwner, lwipOwner, if_neg (h ▸ not_getLsbD_zero fd), if_neg hquiet]
  | inr slot => rfl

theorem nativeOwner_blank (h : t.accepting = 0) : nativeOwner t w = nativeOwner t.quiet w := by
  funext i
  cases i with
  | inl fd => rw [nativeOwner, nativeOwner, if_neg fun hb ↦ hb.1 h, if_neg fun hb ↦ hb.1 rfl]
  | inr slot => rfl

theorem FdInv.of_blank (h : FdInv false t.quiet w) (hblank : Blank t) : FdInv false t w where
  lwip := (lwipOwner_blank hblank.1).symm ▸ h.lwip
  native := (nativeOwner_blank hblank.2.1).symm ▸ h.native
  placeholder haccepting := absurd hblank.2.1 haccepting
  allocated := h.allocated
  idle _ _ := hblank.1
  probe _ := hblank.2.2.2.1
  proxy := hblank.2.2.2.2

/-- Without relays nobody holds anything. -/
theorem FdInv.of_dead (hdead : ∀ slot, w.thread slot ≠ .running) (hblank : Blank t) :
    FdInv false t w := by
  have hlwip : ∀ i, lwipOwner t w i = none := by
    intro i
    cases i with
    | inl fd => exact if_neg (hblank.1 ▸ not_getLsbD_zero fd)
    | inr slot => exact if_neg fun hboth ↦ hdead slot hboth.1
  have hnative : ∀ i, nativeOwner t w i = none := by
    intro i
    cases i with
    | inl fd => exact if_neg fun hboth ↦ hboth.1 hblank.2.1
    | inr slot => exact if_neg fun hboth ↦ hdead slot hboth.1
  exact {
    lwip := .of_none hlwip
    native := .of_none hnative
    placeholder := fun haccepting ↦ absurd hblank.2.1 haccepting
    allocated := fun slot hrunning ↦ absurd hrunning (hdead slot)
    idle := fun _ _ ↦ hblank.1
    probe := fun _ ↦ hblank.2.2.2.1
    proxy := hblank.2.2.2.2 }

/-- The first title, or one whose relays are gone. -/
theorem fd_beginTitle_dead (fuel : ℕ) (hdead : ∀ slot, x.world.thread slot ≠ .running) :
    fdWp (nsysnetShimBeginTitle fuel) (fun _ ↦ At (FdInv false)) x := by
  let dead : FdTables → FdWorld → Prop := fun _ w ↦ ∀ slot, w.thread slot ≠ .running
  have hreap : Reapable dead := by
    refine ⟨fun t w slot h _ other ↦ ?_, fun t w slot value h _ ↦ h⟩
    by_cases hsame : other = slot
    · rw [hsame, FdWorld.setThread_self]
      exact nofun
    · rw [w.setThread_of_ne hsame]
      exact h other
  have hproxied : Proxied dead := by
    refine ⟨fun t w code h _ slot ↦ ?_, fun t w code h _ slot ↦ ?_, fun t w code h _ slot ↦ ?_⟩
    · rw [closeNative_thread]
      exact h slot
    · rw [closeLwip_thread]
      exact h slot
    · rw [closeLwip_thread]
      exact h slot
  exact wp_mono (fd_nsysnetShimBeginTitle hreap hproxied fuel hdead) fun _ y hy ↦
    FdInv.of_dead hy.1 hy.2

/-- A later title. -/
theorem fd_beginTitle (fuel : ℕ) (hx : At (FdInv u) x) :
    fdWp (nsysnetShimBeginTitle fuel) (fun _ ↦ At (FdInv false)) x := by
  have hquiet : At (fun t w ↦ FdInv false t.quiet w) x := by
    have hempty := (hx.shrink zero_le_mask).quiesce (v := false) fun _ ↦ rfl
    have hblank := lwipOwner_blank (t := { x.mem.tables with
      openMask := 0, accepting := 0, probeOwns := 0 }) (w := x.world) rfl
    exact { hempty with
      lwip := hblank ▸ hempty.lwip
      native := hempty.native
      placeholder := fun haccepting ↦ absurd rfl haccepting
      probe := fun _ ↦ rfl }
  exact wp_mono (fd_nsysnetShimBeginTitle reapable_fdInv proxied_fdInv fuel hquiet) fun _ y hy ↦
    hy.1.of_blank hy.2

/-! ## Installation and probes -/

/-- The shim starts accepting: before that the mask was empty. -/
theorem FdInv.accept (h : FdInv false t w) : FdInv false { t with accepting := 1 } w := by
  by_cases haccepting : t.accepting = 0
  · have hmask := h.idle haccepting rfl
    have hnone : ∀ fd, ¬ t.openMask.getLsbD fd = true := by
      intro fd
      rw [hmask]
      exact not_getLsbD_zero fd
    refine { h with
      native := h.native.mono (fun _ hopen ↦ hopen) fun i r hi ↦ ?_
      placeholder := fun _ fd hfd ↦ absurd hfd (hnone fd)
      idle := fun hzero ↦ absurd hzero Int.one_ne_zero }
    cases i with
    | inl fd =>
      rw [nativeOwner, if_neg fun hboth ↦ hnone fd hboth.2] at hi
      cases hi
    | inr slot => exact hi
  · refine { h with
      native := h.native.mono (fun _ hopen ↦ hopen) fun i r hi ↦ ?_
      placeholder := fun _ fd hfd ↦ h.placeholder haccepting fd hfd
      idle := fun hzero ↦ absurd hzero Int.one_ne_zero }
    cases i with
    | inl fd =>
      simp only [nativeOwner] at hi ⊢
      split at hi
      · rename_i hboth
        rw [if_pos ⟨haccepting, hboth.2⟩]
        exact hi
      · cases hi
    | inr slot => exact hi

theorem keeps_addPatches (patches : List ℕ) :
    Keeps ShimState.tables Inert (addPatches patches) := by
  induction patches with
  | nil => exact keeps_pure _
  | cons index rest ih =>
    refine Keeps.bind (keeps_perform trivial) fun _ ↦ Keeps.ite (keeps_pure _) ?_
    exact Keeps.bind (keeps_store fun _ ↦ rfl) fun _ ↦ ih

theorem keeps_removePatches (count : ℕ) :
    Keeps ShimState.tables Inert (removePatches count) := by
  induction count with
  | zero => exact keeps_pure ()
  | succ left ih =>
    refine Keeps.bind (keeps_store fun _ ↦ rfl) fun _ ↦ ?_
    exact Keeps.bind (keeps_ignore (keeps_perform trivial)) fun _ ↦ ih

/-- What a probe may rely on: installing again keeps an empty mask empty. -/
theorem fd_nsysnetShimInstall (hx : At (FdInv false) x) :
    fdWp nsysnetShimInstall (fun _ ↦ At fun t w ↦ FdInv false t w ∧
      (x.mem.tables.openMask = 0 → t.openMask = 0)) x := by
  rw [fdWp, nsysnetShimInstall, wp_bind, wp_load, wp_ite]
  split
  · rw [wp_bind, wp_store]
    exact ⟨hx.accept, fun hzero ↦ hzero⟩
  · rw [nsysnetShimRegister, wp_bind, wp_store, wp_bind, wp_store, wp_bind]
    have hempty : FdInv false { x.mem.tables with openMask := 0, accepting := 0 } x.world := by
      have hdown := (hx.shrink zero_le_mask).quiesce (v := false) fun _ ↦ rfl
      exact { hdown with probe := hx.probe }
    have hstart : At (fun t w ↦ FdInv false t w ∧ t.openMask = 0)
        { x with mem := { x.mem with acceptingSockets := 0, openMask := 0 } } := ⟨hempty, rfl⟩
    refine wp_mono (fd_frame keeps_forgetOwned hstart) fun _ y hy ↦ ?_
    rw [wp_bind]
    refine wp_mono (fd_frame (keeps_perform trivial) hy) fun status y hy ↦ ?_
    rw [wp_ite]
    split
    · exact ⟨hy.1, fun _ ↦ hy.2⟩
    · rw [wp_bind, wp_load, wp_bind]
      refine wp_mono (fd_frame (keeps_addPatches _) hy) fun added y hy ↦ ?_
      rw [wp_ite]
      split
      · rw [wp_bind, wp_load, wp_bind]
        refine wp_mono (fd_frame (keeps_removePatches _) hy) fun _ y hy ↦ ?_
        rw [wp_bind]
        refine wp_mono (fd_frame (keeps_ignore (keeps_perform trivial)) hy) fun _ z hz ↦ ?_
        exact ⟨hz.1, fun _ ↦ hz.2⟩
      · simp only [wp_bind, wp_store, wp_pure]
        exact ⟨hy.1.accept, fun _ ↦ hy.2⟩

theorem fd_beginProbeRecord (wasAccepting : ℤ)
    (hx : At (fun t w ↦ FdInv false t w ∧ (wasAccepting = 0 → t.openMask = 0)) x) :
    fdWp (beginProbeRecord wasAccepting) (fun _ ↦ At (FdInv false)) x := by
  rw [fdWp, beginProbeRecord, wp_bind, wp_store, wp_bind]
  -- until its last store the probe may own the switch without an empty baseline
  let recorded : FdTables → FdWorld → Prop := fun t w ↦
    FdInv false { t with probeOwns := 0 } w ∧ (wasAccepting = 0 → t.baseline = 0)
  have hrecorded : At recorded { x with
      mem := { x.mem with probeBaselineOpenMask := x.mem.openMask } } :=
    ⟨{ hx.1 with
        lwip := hx.1.lwip
        native := hx.1.native
        probe := fun howns ↦ absurd rfl howns }, hx.2⟩
  refine wp_mono (fd_frame (keeps_probeAiMask _) hrecorded) fun owned y hy ↦ ?_
  rw [wp_bind, wp_store, wp_bind]
  refine wp_mono (fd_frame (P := recorded) (keeps_perform trivial) hy) fun thread z hz ↦ ?_
  simp only [wp_bind, wp_store, wp_pure]
  have haccepted := hz.1.accept
  refine { haccepted with
    lwip := haccepted.lwip
    native := haccepted.native
    probe := fun howns ↦ ?_ }
  by_cases hzero : wasAccepting = 0
  · exact hz.2 hzero
  · exact absurd (if_neg hzero) howns

theorem fd_nsysnetShimBeginProbe (hx : At (FdInv false) x) :
    fdWp nsysnetShimBeginProbe (fun _ ↦ At (FdInv false)) x := by
  rw [fdWp, nsysnetShimBeginProbe, wp_bind, wp_load, wp_ite]
  split
  · exact hx
  · rw [wp_bind]
    have hready : Keeps ShimState.tables Inert probeReady :=
      Keeps.bind (keeps_perform trivial) fun _ ↦ Keeps.ite (keeps_pure _)
        (Keeps.bind (keeps_perform trivial) fun _ ↦ keeps_pure _)
    refine wp_mono (fd_frame hready hx) fun ready y hy ↦ ?_
    rw [wp_ite]
    split
    · exact hy
    · rw [wp_bind, wp_load, wp_bind]
      refine wp_mono (fd_nsysnetShimInstall hy) fun result z hz ↦ ?_
      rw [wp_ite]
      split
      · exact hz.1
      · refine fd_beginProbeRecord _ ⟨hz.1, fun hwas ↦ hz.2 ?_⟩
        exact hy.idle hwas rfl

theorem fd_endProbeRelease (fuel : ℕ)
    (hx : At (fun t w ↦ FdInv u t w ∧ t.openMask &&& ~~~ t.baseline = 0) x) :
    fdWp (endProbeRelease fuel) (fun _ ↦ At (FdInv u)) x := by
  rw [fdWp, endProbeRelease, wp_bind, wp_load, wp_bind]
  have hstop : fdWp (when (x.mem.probeOwnsAccepting ≠ 0) (nsysnetShimStopAccepting fuel))
      (fun _ ↦ At (FdInv u)) x := by
    rw [fdWp, wp_when]
    split
    · rename_i howns
      refine fd_nsysnetShimStopAccepting (v := u) fuel ⟨hx.1, fun _ ↦ ?_⟩
      have hmask := hx.2
      rw [hx.1.probe howns] at hmask
      rw [show ~~~ (0 : BitVec 32) = BitVec.allOnes 32 from rfl, BitVec.and_allOnes] at hmask
      exact hmask
    · exact hx.1
  refine wp_mono hstop fun _ y hy ↦ ?_
  simp only [wp_bind, wp_store, wp_pure]
  exact { hy with
    lwip := hy.lwip
    native := hy.native
    probe := fun _ ↦ rfl }

theorem fd_nsysnetShimEndProbe (fuel : ℕ) (hx : At (FdInv u) x) :
    fdWp (nsysnetShimEndProbe fuel) (fun _ ↦ At (FdInv u)) x := by
  rw [fdWp, nsysnetShimEndProbe, wp_bind, wp_load, wp_bind]
  refine wp_mono (fd_frame (keeps_perform trivial) hx) fun current y hy ↦ ?_
  rw [wp_ite]
  split
  · exact hy
  · rw [wp_bind, wp_load, wp_bind, wp_load, wp_ite]
    split
    · exact hy
    · rename_i hleak
      have hy : At (fun t w ↦ FdInv u t w ∧ t.openMask &&& ~~~ t.baseline = 0) y :=
        ⟨hy, not_not.mp hleak⟩
      rw [wp_bind, wp_load, wp_bind]
      refine wp_mono (fd_frame (keeps_probeAiMask _) hy) fun owned z hz ↦ ?_
      rw [wp_ite]
      split
      · exact hz.1
      · exact fd_endProbeRelease fuel hz

end Lifecycle

/-! ## Runs -/

/-- Complete calls, by whom they are made. -/
inductive ShimOp where
  | title (e : Export)
  | relayWorker (slot : ℕ)
  | beginProbe
  | endProbe
  | install
  | stopAccepting
  | drain
  | beginTitle

/-- The exports through which a title creates, moves and drops descriptors. -/
def managesFds : Export → Bool
  | .socket _ _ _ => true
  | .accept _ _ _ => true
  | .socketclose _ => true
  | .socketcloseAll => true
  | .bind _ _ _ => true
  | .nsslCreateConnection _ _ _ _ _ _ => true
  | _ => false

/-- The machine, and whether a `nsysnet_shim_stop_accepting` waits for its drain. -/
structure FdConfig where
  machine : FdMachine
  undrained : Bool := false

/-- Discard the result of a call. -/
def discard (program : ShimM α) : ShimM Unit := do
  let _ ← program
  pure ()

namespace ShimOp

def program (fuel : ℕ) : ShimOp → ShimM Unit
  | .title e => discard (hook fuel e)
  | .relayWorker slot => nsslRelayWorker slot fuel
  | .beginProbe => discard nsysnetShimBeginProbe
  | .endProbe => discard (nsysnetShimEndProbe fuel)
  | .install => discard nsysnetShimInstall
  | .stopAccepting => nsysnetShimStopAccepting fuel
  | .drain => nsysnetShimDrainOwnedSockets
  | .beginTitle => nsysnetShimBeginTitle fuel

/-- A relay worker runs once, and nothing is installed before a drain. -/
def enabled (c : FdConfig) : ShimOp → Bool
  | .title e => managesFds e
  | .relayWorker slot => decide (c.machine.world.thread slot = .running)
  | .beginProbe => !c.undrained
  | .install => !c.undrained
  | _ => true

/-- The configuration after the call has left the machine `y`. -/
def after (c : FdConfig) (y : FdMachine) : ShimOp → FdConfig
  | .relayWorker slot => { c with machine := { y with world := y.world.setThread slot .terminated } }
  | .stopAccepting => { machine := y, undrained := true }
  | .drain => { machine := y }
  | .beginTitle => { machine := y }
  | _ => { c with machine := y }

end ShimOp

/-- The configurations of runs whose calls all satisfy `allowed`. -/
inductive FdReach (allowed : ShimOp → FdMachine → Prop) : FdConfig → Prop where
  /-- The first title; relays of a title before it are gone. -/
  | begin {x y : FdMachine} (fuel : ℕ) (dead : ∀ slot, x.world.thread slot ≠ .running)
      (exec : Exec fdReply (nsysnetShimBeginTitle fuel) x () y) : FdReach allowed { machine := y }
  | step {c : FdConfig} {y : FdMachine} (reached : FdReach allowed c) (op : ShimOp) (fuel : ℕ)
      (enabled : op.enabled c = true) (allows : allowed op c.machine)
      (exec : Exec fdReply (op.program fuel) c.machine () y) : FdReach allowed (op.after c y)

/-- Every recorded public descriptor is the open socket that was made for it, its lwIP descriptor is
open, and it shares that with no other public descriptor and with no live relay. -/
def DescriptorsOwned (x : FdMachine) : Prop :=
  ∀ fd, x.mem.openMask.getLsbD fd = true →
    (x.world.native fd ≠ none ∧ x.world.native fd = x.world.placeholder fd) ∧
    x.world.lwip (x.mem.mappedFd fd) = true ∧
    (∀ other, x.mem.openMask.getLsbD other = true →
      x.mem.mappedFd other = x.mem.mappedFd fd → other = fd) ∧
    ∀ slot, x.world.thread slot = .running →
      (0 ≤ (x.mem.nsslRelays slot).lwfd → (x.mem.nsslRelays slot).lwfd ≠ x.mem.mappedFd fd) ∧
      (x.mem.nsslRelays slot).nativeFd ≠ fd

/-- The title does not close the private native descriptor of a live relay. -/
def Careful : ShimOp → FdMachine → Prop
  | .title (.socketclose fd), x =>
    ∀ slot, x.world.thread slot = .running → 0 ≤ fd → (x.mem.nsslRelays slot).nativeFd ≠ fd
  | .title .socketcloseAll, x =>
    ∀ slot, x.world.thread slot = .running → (x.mem.nsslRelays slot).nativeFd < 0
  | _, _ => True

section Runs

variable {u : Bool} {x : FdMachine} {c : FdConfig}

theorem fd_discard {program : ShimM α} {post : FdMachine → Prop}
    (h : fdWp program (fun _ ↦ post) x) : fdWp (discard program) (fun _ ↦ post) x := by
  rw [fdWp, discard, wp_bind]
  exact h

/-- A negative descriptor is nobody's. -/
theorem relayNative_eq_some {t : FdTables} {w : FdWorld} {slot : ℕ} {fd : ℤ}
    (h : relayNative t w slot = some fd) :
    w.thread slot = .running ∧ 0 ≤ fd ∧ (t.relays slot).2.1 = fd := by
  simp only [relayNative, nativeOwner] at h
  split at h
  · rename_i hboth
    cases h
    exact ⟨hboth.1, hboth.2, rfl⟩
  · cases h

theorem fd_title {e : Export} (fuel : ℕ) (he : managesFds e = true) (hcare : Careful (.title e) x)
    (hx : At (FdInv u) x) : fdWp (hook fuel e) (fun _ ↦ At (FdInv u)) x := by
  cases e with
  | socket domain type protocol => exact fd_hookSocket _ _ _ hx
  | accept sockfd addr addrlen => exact fd_hookAccept _ _ _ hx
  | socketclose sockfd =>
    refine fd_hookSocketclose sockfd hx fun slot hslot ↦ ?_
    obtain ⟨hrunning, hpos, hsame⟩ := relayNative_eq_some hslot
    exact hcare slot hrunning hpos hsame
  | socketcloseAll =>
    refine fd_hookSocketcloseAll hx fun slot ↦ ?_
    by_contra hsome
    obtain ⟨fd, hfd⟩ := Option.ne_none_iff_exists'.mp hsome
    obtain ⟨hrunning, hpos, hsame⟩ := relayNative_eq_some hfd
    have hneg : (x.mem.tables.relays slot).2.1 < 0 := hcare slot hrunning
    omega
  | bind sockfd addr addrlen => exact fd_hookBind _ _ _ hx
  | nsslCreateConnection context host hostLength options sockfd block =>
    exact fd_hookNsslCreateConnection _ _ _ _ _ _ hx
  | _ => cases he

/-- One call keeps the invariant. -/
theorem fdInv_after (op : ShimOp) (fuel : ℕ) (henabled : op.enabled c = true)
    (hcare : Careful op c.machine) (hc : At (FdInv c.undrained) c.machine) {y : FdMachine}
    (hexec : Exec fdReply (op.program fuel) c.machine () y) :
    At (FdInv (op.after c y).undrained) (op.after c y).machine := by
  cases op with
  | title e => exact hexec.post_of_wp (fd_discard (fd_title fuel henabled hcare hc))
  | relayWorker slot =>
    exact hexec.post_of_wp (fd_nsslRelayWorker slot fuel hc (of_decide_eq_true henabled))
  | beginProbe =>
    have henabled : c.undrained = false := Bool.not_eq_true' _ ▸ henabled
    rw [henabled] at hc
    have hy := hexec.post_of_wp (fd_discard (fd_nsysnetShimBeginProbe hc))
    rw [← henabled] at hy
    exact hy
  | endProbe => exact hexec.post_of_wp (fd_discard (fd_nsysnetShimEndProbe fuel hc))
  | install =>
    have henabled : c.undrained = false := Bool.not_eq_true' _ ▸ henabled
    rw [henabled] at hc
    have hy := hexec.post_of_wp (fd_discard (fd_nsysnetShimInstall hc))
    have hy : At (FdInv false) y := hy.1
    rw [← henabled] at hy
    exact hy
  | stopAccepting =>
    exact hexec.post_of_wp (fd_nsysnetShimStopAccepting (v := true) fuel ⟨hc, nofun⟩)
  | drain => exact hexec.post_of_wp (fd_nsysnetShimDrainOwnedSockets hc)
  | beginTitle => exact hexec.post_of_wp (fd_beginTitle fuel hc)

theorem FdReach.fdInv (h : FdReach Careful c) : At (FdInv c.undrained) c.machine := by
  induction h with
  | begin fuel dead exec => exact exec.post_of_wp (fd_beginTitle_dead fuel dead)
  | step reached op fuel enabled allows exec ih => exact fdInv_after op fuel enabled allows ih exec

/-- What the invariant says while the shim accepts sockets. -/
theorem FdInv.descriptorsOwned (h : At (FdInv u) x) (haccepting : x.mem.acceptingSockets ≠ 0) :
    DescriptorsOwned x := by
  intro fd hfd
  have hnative := nativeOwner_public (t := x.mem.tables) (w := x.world) haccepting hfd
  have hlwip := lwipOwner_public (t := x.mem.tables) (w := x.world) hfd
  refine ⟨⟨h.native.isOpen_of_own _ _ hnative, h.placeholder haccepting fd hfd⟩,
    h.lwip.isOpen_of_own _ _ hlwip, fun other hother hsame ↦ ?_, fun slot hrunning ↦ ⟨?_, ?_⟩⟩
  · have hlwip' := lwipOwner_public (t := x.mem.tables) (w := x.world) hother
    rw [show x.mem.tables.mappedFd other = x.mem.tables.mappedFd fd from hsame] at hlwip'
    exact Sum.inl.inj (h.lwip.holder_unique _ _ _ hlwip' hlwip)
  · intro hpos hsame
    have hrelay : lwipOwner x.mem.tables x.world (.inr slot) = some (x.mem.nsslRelays slot).lwfd :=
      if_pos ⟨hrunning, hpos⟩
    rw [hsame] at hrelay
    cases h.lwip.holder_unique _ _ _ hrelay hlwip
  · intro hsame
    have hpos : 0 ≤ (x.mem.nsslRelays slot).nativeFd := by omega
    have hrelay : nativeOwner x.mem.tables x.world (.inr slot) =
        some (x.mem.nsslRelays slot).nativeFd := if_pos ⟨hrunning, hpos⟩
    rw [hsame] at hrelay
    cases h.native.holder_unique _ _ _ hrelay hnative

/-- In every run in which the title closes no private descriptor of a live relay, the recorded
public descriptors are owned whenever the shim accepts sockets. -/
theorem fdReach_descriptorsOwned (h : FdReach Careful c)
    (haccepting : c.machine.mem.acceptingSockets ≠ 0) : DescriptorsOwned c.machine :=
  FdInv.descriptorsOwned h.fdInv haccepting

/-! ## Concrete runs -/

/-- Execute complete calls on given replies. -/
def runOps (fuel : ℕ) : List (ShimOp × List ShimReply) → FdConfig → Option FdConfig
  | [], c => some c
  | (op, answers) :: rest, c =>
    if op.enabled c = true then
      match run fdReply (op.program fuel) answers c.machine with
      | some (_, y, _) => runOps fuel rest (op.after c y)
      | none => none
    else none

theorem FdReach.of_runOps {allowed : ShimOp → FdMachine → Prop} {fuel : ℕ}
    {ops : List (ShimOp × List ShimReply)} {c' : FdConfig} (hc : FdReach allowed c)
    (hallowed : ∀ op ∈ ops, ∀ y, allowed op.1 y) (hrun : runOps fuel ops c = some c') :
    FdReach allowed c' := by
  induction ops generalizing c with
  | nil =>
    cases hrun
    exact hc
  | cons op rest ih =>
    simp only [runOps] at hrun
    split at hrun
    · rename_i henabled
      split at hrun
      · rename_i y unused hexec
        refine ih (.step hc op.1 fuel henabled (hallowed op List.mem_cons_self _)
          (exec_of_run hexec)) (fun other hother ↦ ?_) hrun
        exact hallowed other (List.mem_cons_of_mem op hother)
      · cases hrun
    · cases hrun

/-- The same from the first title on. -/
theorem FdReach.of_titleRun {allowed : ShimOp → FdMachine → Prop} {fuel : ℕ}
    {answers : List ShimReply} {ops : List (ShimOp × List ShimReply)} {c' : FdConfig}
    (hdead : ∀ slot, x.world.thread slot ≠ .running)
    (hallowed : ∀ op ∈ ops, ∀ y, allowed op.1 y)
    (hrun : runOps fuel ((.beginTitle, answers) :: ops) { machine := x } = some c') :
    FdReach allowed c' := by
  have henabled : ShimOp.enabled { machine := x } .beginTitle = true := rfl
  rw [runOps, if_pos henabled] at hrun
  split at hrun
  · rename_i y unused hexec
    exact FdReach.of_runOps (.begin fuel hdead (exec_of_run hexec)) hallowed hrun
  · cases hrun

/-- A module whose configuration enables the bridge. -/
def bridgedModule : FdMachine := { mem := { nsslBridgeEnabled := 1 }, world := {} }

/-- The replies to `socket` that give the lwIP descriptor `lwfd` and the public one `fd`. -/
def socketReplies (lwfd fd : ℤ) : List ShimReply :=
  [{ code := 1 }, { code := lwfd }, {}, {}, { code := fd }, {}]

/-- A peer of the title's socket. -/
def httpsPeer : Sockaddr := { family := nsnAfInet, port := 443, addr := 0x01020304 }

/-- A title whose socket 3 is bridged to NSSL, with the accepted descriptor 5 held by the relay, and
which opens two more sockets. -/
def besideRelayRun : List (ShimOp × List ShimReply) :=
  [(.beginTitle, []), (.install, List.replicate 37 {}),
    (.title (.socket nsnAfInet sockStream 0), socketReplies 0 3),
    (.title (.nsslCreateConnection 1 none 0 0 3 1),
      [{ addr := some httpsPeer }, { code := 1 }, {}, { code := 4 }, { code := 1 }, {}, {}, {}, {},
        { code := 5 }, {}, {}, {}]),
    (.title (.socket nsnAfInet sockStream 0), socketReplies 1 4),
    (.title (.socket nsnAfInet sockStream 0), socketReplies 2 6)]

/-- The title closes one of the two and opens another one, which gets the same numbers. -/
def reopenRun : List (ShimOp × List ShimReply) :=
  [(.title (.socketclose 4), [{}, {}, {}]),
    (.title (.socket nsnAfInet sockStream 0), socketReplies 1 4)]

theorem fdReach_descriptorsOwned_besideRelay :
    ∃ c, (FdReach Careful c ∧ c.machine.mem.acceptingSockets ≠ 0 ∧
      c.machine.mem.openMask = bit 4 ||| bit 6 ∧ c.machine.world.thread 0 = .running ∧
      (c.machine.mem.nsslRelays 0).nativeFd = 5) ∧ DescriptorsOwned c.machine := by
  have hrun : ((runOps 2 besideRelayRun { machine := bridgedModule }).bind fun c ↦
      (runOps 2 reopenRun c).map fun d ↦ ((c.machine.mem.acceptingSockets, c.machine.mem.openMask),
        d.machine.mem.acceptingSockets, d.machine.mem.openMask, d.machine.world.thread 0,
        (d.machine.mem.nsslRelays 0).nativeFd)) =
      some ((1, bit 4 ||| bit 6), 1, bit 4 ||| bit 6, .running, 5) := rfl
  obtain ⟨c, hc, hrun⟩ := Option.bind_eq_some_iff.mp hrun
  obtain ⟨d, hd, hview⟩ := Option.map_eq_some_iff.mp hrun
  simp only [Prod.mk.injEq] at hview
  obtain ⟨⟨hearly, hopen⟩, haccepting, hmask, hthread, hnative⟩ := hview
  have hreach : FdReach Careful c := by
    refine FdReach.of_titleRun (fun _ ↦ ThreadState.noConfusion) (fun op hop y ↦ ?_) hc
    simp only [List.mem_cons, List.not_mem_nil, or_false] at hop
    rcases hop with rfl | rfl | rfl | rfl | rfl <;> trivial
  -- the relay holds no recorded descriptor, so the title may close the socket 4
  have howned := fdReach_descriptorsOwned hreach (by rw [hearly]; decide)
  have hcareful : Careful (.title (.socketclose 4)) c.machine := fun slot hrunning _ ↦
    ((howned 4 (by rw [hopen]; decide)).2.2.2 slot hrunning).2
  have hreach : FdReach Careful d := by
    rw [reopenRun, runOps] at hd
    split at hd
    · rename_i henabled
      split at hd
      · rename_i y unused hexec
        refine FdReach.of_runOps (.step hreach _ 2 henabled hcareful (exec_of_run hexec))
          (fun op hop _ ↦ ?_) hd
        obtain rfl := List.mem_singleton.mp hop
        trivial
      · cases hd
    · cases hd
  have hne : d.machine.mem.acceptingSockets ≠ 0 := by
    rw [haccepting]
    decide
  exact ⟨d, ⟨hreach, hne, hmask, hthread, hnative⟩, fdReach_descriptorsOwned hreach hne⟩

/-- A bridged connection takes over the accepted descriptor 5; `socketclose_all` closes it together
with everything else, the next socket gets the number 5, and the relay ends. -/
def recycledRun : List (ShimOp × List ShimReply) :=
  [(.beginTitle, []), (.install, List.replicate 37 {}),
    (.title (.socket nsnAfInet sockStream 0), socketReplies 0 3),
    (.title (.nsslCreateConnection 1 none 0 0 3 1),
      [{ addr := some httpsPeer }, { code := 1 }, {}, { code := 4 }, { code := 1 }, {}, {}, {}, {},
        { code := 5 }, {}, {}, {}]),
    (.title .socketcloseAll, [{}]),
    (.title (.socket nsnAfInet sockStream 0), socketReplies 1 5),
    (.relayWorker 0, [{}, { code := -1 }, { code := nsnErrConnreset }, { code := nsnErrConnreset },
      {}, {}, {}])]

/-- The relay closed the placeholder of the new socket. -/
theorem recycled_placeholder_closed :
    ∃ c, FdReach (fun _ _ ↦ True) c ∧ c.machine.mem.acceptingSockets ≠ 0 ∧
      ¬ DescriptorsOwned c.machine := by
  have hrun : (runOps 2 recycledRun { machine := bridgedModule }).map (fun c ↦
      (c.machine.mem.acceptingSockets, c.machine.mem.openMask, c.machine.world.native 5)) =
      some (1, bit 5, none) := rfl
  obtain ⟨c, hc, hview⟩ := Option.map_eq_some_iff.mp hrun
  obtain ⟨haccepting, hrest⟩ := Prod.mk.inj hview
  obtain ⟨hmask, hclosed⟩ := Prod.mk.inj hrest
  refine ⟨c, FdReach.of_titleRun (fun _ ↦ ThreadState.noConfusion) (fun _ _ _ ↦ trivial) hc,
    haccepting ▸ Int.one_ne_zero, fun howned ↦ ?_⟩
  exact (howned 5 (by rw [hmask]; decide)).1.1 hclosed

end Runs

end Ax88179Aroma.Shim
