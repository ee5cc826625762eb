import Ax88179Aroma.Shim.Workers
import Ax88179Aroma.Shim.Nssl

/-!
# Relays of TLS connections

`NSSLCreateConnection` remembers the index of its relay slot while Nintendo's library makes the
handshake.  The relay may end in the meantime, and another connection may get the slot: then a
failing handshake stops the relay of the other one.  Where a slot is reserved only when no
unfinished call remembers it, every call stops its own relay.
-/

namespace Ax88179Aroma.Shim

open Effect Program

/-! ## The system -/

inductive ConnectOperation where
  | connect (context : ℤ) (host : Option String) (hostLength options sockfd block : ℤ)
  | work (fuel : ℕ)

def connectSystem :
    System RelayThread ConnectOperation Empty ShimState WorkerWorld ShimCall ShimReply where
  reply _ := workerReply
  env _ _ := none
  body
    | .worker slot, .work fuel => runWorker slot fuel
    | _, .connect context host hostLength options sockfd block =>
      ignore (hookNsslCreateConnection context host hostLength options sockfd block)
    | .caller _, .work _ => pure ()
  enabled
    | .caller _, .connect _ _ _ _ _ _, _ => true
    | .worker slot, .work _, x => x.world.worker slot = .running
    | _, _, _ => false

/-! ## Observation -/

/-- A call: its thread and how many calls the thread has made before. -/
abbrev Call := RelayThread × ℕ

structure CallHistory where
  /-- the thread whose unfinished call remembers the slot -/
  keeper : ℕ → Option RelayThread := fun _ ↦ none
  /-- the call that reserved the relay in the slot -/
  creator : ℕ → Option Call := fun _ ↦ none
  serial : RelayThread → ℕ := fun _ ↦ 0
  /-- the calls that set a stop flag, each with the creator of the relay -/
  stops : List (Call × Option Call) := []

abbrev CallWatched := Watched ShimState WorkerWorld CallHistory

/-- The access stores a stop flag in slot `k`, whatever was there. -/
abbrev SetsStop (update : ShimState → ShimState) (s : ShimState) (k : ℕ) : Prop :=
  ((update (s.setRelay k fun r ↦ { r with stop := 0 })).nsslRelays k).stop ≠ 0

def callAccess (t : RelayThread) (update : ShimState → ShimState) (x : CallWatched) :
    CallHistory where
  keeper k :=
    if Takes update x.mem k then some t
    else if Frees update x.mem k ∧ x.ghost.keeper k = some t then none
    else x.ghost.keeper k
  creator k := if Takes update x.mem k then some (t, x.ghost.serial t) else x.ghost.creator k
  serial := x.ghost.serial
  stops :=
    ((List.range nsslRelayMax).filter fun k ↦ SetsStop update x.mem k).map
      (fun k ↦ ((t, x.ghost.serial t), x.ghost.creator k)) ++ x.ghost.stops

/-- At the end of a call its slot is forgotten. -/
def callFinish (t : RelayThread) (g : CallHistory) : CallHistory :=
  { g with
    keeper := fun k ↦ if g.keeper k = some t then none else g.keeper k
    serial := Function.update g.serial t (g.serial t + 1) }

def callObserver : Monitor RelayThread ShimState WorkerWorld ShimCall ShimReply CallHistory where
  access t update x := some (callAccess t update x)
  reply _ _ _ x := some x.ghost
  finish := callFinish

/-- No slot is reserved that an unfinished call remembers. -/
def reservesForgotten (update : ShimState → ShimState) (x : CallWatched) : Bool :=
  ∀ k < nsslRelayMax, Takes update x.mem k → x.ghost.keeper k = none

def callMonitor : Monitor RelayThread ShimState WorkerWorld ShimCall ShimReply CallHistory :=
  callObserver.restrict (fun _ ↦ reservesForgotten) fun _ _ _ ↦ true

/-! ## The invariant -/

structure CallInv (x : CallWatched) : Prop where
  keeper : ∀ k t, x.ghost.keeper k = some t → x.ghost.creator k = some (t, x.ghost.serial t)
  stops : ∀ stop ∈ x.ghost.stops, stop.2 = some stop.1

def callProtocol : Protocol RelayThread ShimState WorkerWorld ShimCall CallHistory where
  inv := CallInv
  rely t x y := ∀ k, y.ghost.keeper k = some t ↔ x.ghost.keeper k = some t

/-- The slot that the call of a thread remembers. -/
def CallStage (t : RelayThread) (slot : Option ℕ) (x : CallWatched) : Prop :=
  ∀ k, x.ghost.keeper k = some t ↔ slot = some k

section Stages

variable {t : RelayThread} {slot : Option ℕ} {k : ℕ} {x y : CallWatched} {α : Type}

theorem steady_callStage : callProtocol.Steady t (CallStage t slot) :=
  fun _ _ hx hrely _ k ↦ (hrely k).trans (hx k)

abbrev CallSecure (t : RelayThread) (program : ShimM α) (post : α → CallWatched → Prop)
    (x : CallWatched) : Prop :=
  Secure connectSystem callMonitor callProtocol t program post x

theorem callMonitor_access {update : ShimState → ShimState} {g : CallHistory}
    (haccess : callMonitor.access t update x = some g) :
    g = callAccess t update x ∧
      ∀ k < nsslRelayMax, Takes update x.mem k → x.ghost.keeper k = none := by
  simp only [callMonitor, Monitor.restrict] at haccess
  split at haccess
  · rename_i haccepted
    exact ⟨(Option.some.inj haccess).symm, of_decide_eq_true haccepted⟩
  · cases haccess

/-- An access that reserves and stops nothing, and gives back nothing that its call remembers, is
not recorded. -/
theorem callAccess_quiet {update : ShimState → ShimState}
    (hreserves : ∀ k, ¬ Takes update x.mem k)
    (hback : ∀ k, Frees update x.mem k → x.ghost.keeper k ≠ some t)
    (hstops : ∀ k, ¬ SetsStop update x.mem k) : callAccess t update x = x.ghost := by
  have hkeeper : (callAccess t update x).keeper = x.ghost.keeper := funext fun k ↦ by
    simp only [callAccess, if_neg (hreserves k)]
    exact if_neg fun h ↦ hback k h.1 h.2
  have hcreator : (callAccess t update x).creator = x.ghost.creator := funext fun k ↦
    if_neg (hreserves k)
  have hnone : (List.range nsslRelayMax).filter (fun k ↦ SetsStop update x.mem k) = [] :=
    List.filter_eq_nil_iff.mpr fun k _ h ↦ hstops k (of_decide_eq_true h)
  have hsame : (callAccess t update x).stops = x.ghost.stops := by
    simp only [callAccess, hnone, List.map_nil, List.nil_append]
  calc callAccess t update x
      = ⟨(callAccess t update x).keeper, (callAccess t update x).creator, x.ghost.serial,
          (callAccess t update x).stops⟩ := rfl
    _ = x.ghost := by rw [hkeeper, hcreator, hsame]

theorem permits_callQuiet (hghost : y.ghost = x.ghost) (hx : CallInv x) :
    callProtocol.Permits t x y := by
  refine ⟨⟨?_, ?_⟩, fun u _ k ↦ ?_⟩
  · rw [hghost]
    exact hx.keeper
  · rw [hghost]
    exact hx.stops
  · rw [hghost]

/-- What of a relay the history depends on. -/
def stopView (s : ShimState) : ℕ → ℤ × ℤ :=
  fun slot ↦ ((s.nsslRelays slot).allocated, (s.nsslRelays slot).stop)

theorem secure_calm {program : ShimM α} (hkeeps : Keeps stopView (fun _ ↦ True) program)
    (hx : CallStage t slot x) : CallSecure t program (fun _ ↦ CallStage t slot) x := by
  refine secure_keeps hkeeps steady_callStage (fun y update g hview hinv hy haccess ↦ ?_)
    (fun y request _ hinv hy ↦ ⟨trivial, fun answer z g hreply haccepted ↦ ?_⟩) hx
  · obtain ⟨rfl, -⟩ := callMonitor_access haccess
    have hallocation : ∀ k, allocation (update y.mem) k = allocation y.mem k := fun k ↦
      congrArg Prod.fst (congrFun (hview y.mem) k)
    have hquiet : callAccess t update y = y.ghost := by
      refine callAccess_quiet (fun k h ↦ ?_) (fun k h ↦ ?_) fun k h ↦ h ?_
      · exact h.2 ((hallocation k).trans h.1)
      · exact absurd ((hallocation k).symm.trans h.2) h.1
      · refine (congrArg Prod.snd (congrFun (hview _) k)).trans ?_
        exact congrArg NsslRelay.stop (ShimState.setRelay_self y.mem k _)
    rw [hquiet]
    exact ⟨permits_callQuiet rfl hinv, hy⟩
  · have hghost : g = y.ghost := (Option.some.inj haccepted).symm
    rw [hghost]
    exact ⟨permits_callQuiet rfl hinv, hy⟩

/-! ## Frames -/

variable {allowed : ShimCall → Prop}

theorem keeps_stopView {program : ShimM α} (h : Keeps ShimState.control Inert program) :
    Keeps stopView (fun _ ↦ True) program := by
  refine h.mono (fun s s' hsame ↦ funext fun slot ↦ ?_) fun _ _ ↦ trivial
  have hslot := congrFun (congrArg (fun c ↦ c.2.1) hsame) slot
  exact congrArg (fun c : ℤ × ℤ × ℤ × ℤ × ℤ × ℤ × ℤ ↦ (c.1, c.2.2.1)) hslot

/-- A store to a relay that leaves its allocation and its stop flag alone. -/
theorem keeps_stopStore {f : NsslRelay → NsslRelay}
    (h : ∀ r, ((f r).allocated, (f r).stop) = (r.allocated, r.stop)) :
    Keeps stopView allowed (storeRelay k f) := by
  refine keeps_store fun s ↦ funext fun other ↦ ?_
  by_cases hsame : other = k
  · rw [stopView, hsame, ShimState.setRelay_self, h]
    rfl
  · rw [stopView, ShimState.setRelay_of_ne s hsame]
    rfl

theorem keeps_runWorker_stop (slot fuel : ℕ) :
    Keeps stopView (fun _ ↦ True) (runWorker slot fuel) := by
  have hclose : ∀ (fd : ℤ) (request : ShimCall) (f : NsslRelay → NsslRelay),
      (∀ r, ((f r).allocated, (f r).stop) = (r.allocated, r.stop)) →
      Keeps stopView (fun _ ↦ True) (when (fd ≥ 0) do
        ignore (perform request)
        storeRelay slot f) := fun _ _ _ h ↦
    Keeps.when (Keeps.bind (keeps_ignore (keeps_perform trivial)) fun _ ↦ keeps_stopStore h)
  refine Keeps.bind ?_ fun _ ↦ Keeps.bind (keeps_perform trivial) fun _ ↦ keeps_pure _
  refine Keeps.bind (keeps_stopView (keeps_relayWait slot fuel)) fun _ ↦ ?_
  refine Keeps.bind (Keeps.when ?_) fun _ ↦ ?_
  · refine Keeps.bind (keeps_loadRelay slot _) fun _ ↦ ?_
    refine Keeps.bind (keeps_stopView (keeps_relayLoop slot _ _ fuel _)) fun _ ↦ ?_
    exact Keeps.bind (keeps_perform trivial) fun _ ↦ keeps_pure _
  · refine Keeps.bind (keeps_loadRelay slot _) fun _ ↦ Keeps.bind (hclose _ _ _ fun _ ↦ rfl) ?_
    intro _
    refine Keeps.bind (keeps_loadRelay slot _) fun _ ↦ Keeps.bind (hclose _ _ _ fun _ ↦ rfl) ?_
    intro _
    exact Keeps.bind (keeps_stopStore fun _ ↦ rfl) fun _ ↦ keeps_stopStore fun _ ↦ rfl

theorem keeps_lwipStop (request : LwipCall) : Keeps stopView (fun _ ↦ True) (lwip request) :=
  Keeps.bind (keeps_perform trivial) fun _ ↦
    Keeps.bind (keeps_store fun _ ↦ rfl) fun _ ↦ keeps_pure _

theorem keeps_lasterrStop : Keeps stopView (fun _ ↦ True) realSocketlasterr :=
  Keeps.bind (keeps_perform trivial) fun _ ↦ keeps_pure _

theorem keeps_unmapFd (sockfd : ℤ) : Keeps stopView (fun _ ↦ True) (unmapFd sockfd) :=
  Keeps.bind (keeps_store fun _ ↦ rfl) fun _ ↦ keeps_store fun _ ↦ rfl

theorem keeps_promoteAxSocketToNative (sockfd : ℤ) :
    Keeps stopView (fun _ ↦ True) (promoteAxSocketToNative sockfd) := by
  refine Keeps.bind (keeps_isForeign sockfd) fun _ ↦ Keeps.ite (keeps_pure _) ?_
  refine Keeps.bind (keeps_stackFd sockfd) fun lwfd ↦ Keeps.bind (keeps_lwipStop _) fun peer ↦ ?_
  refine Keeps.ite (keeps_pure _) ?_
  split
  · exact keeps_pure _
  · refine Keeps.bind (keeps_store fun _ ↦ rfl) fun _ ↦ Keeps.bind (keeps_perform trivial) ?_
    intro rc
    refine Keeps.ite (Keeps.bind keeps_lasterrStop fun _ ↦ keeps_pure _) ?_
    refine Keeps.bind (keeps_unmapFd sockfd) fun _ ↦ ?_
    exact Keeps.bind (keeps_ignore (keeps_lwipStop _)) fun _ ↦ keeps_pure _

theorem stop_cleared (s : ShimState) (k : ℕ) :
    ((s.setRelay k fun r ↦ { r with stop := 0 }).nsslRelays k).stop = 0 :=
  congrArg NsslRelay.stop (ShimState.setRelay_self s k _)

theorem claimRelay_of_ne (s : ShimState) {j : ℕ} (hj : j ≠ k) :
    (claimRelay k s).2.nsslRelays j = s.nsslRelays j := by
  rw [claimRelay]
  split
  · exact ShimState.setRelay_of_ne s hj fun r ↦ { r with allocated := 1 }
  · rfl

theorem stop_claimRelay (s : ShimState) (k j : ℕ) :
    ((claimRelay k s).2.nsslRelays j).stop = (s.nsslRelays j).stop := by
  by_cases hj : j = k
  · rw [hj, claimRelay]
    split
    · change ((s.setRelay k fun r ↦ { r with allocated := 1 }).nsslRelays k).stop = _
      rw [ShimState.setRelay_self]
    · rfl
  · rw [claimRelay_of_ne s hj]

/-- A slot whose flag was cleared is not stopped by giving slot `k` back. -/
theorem stop_freeRelay (s : ShimState) (k j : ℕ) :
    ((freeRelay k (s.setRelay j fun r ↦ { r with stop := 0 })).nsslRelays j).stop = 0 := by
  by_cases hj : j = k
  · rw [hj, freeRelay, ShimState.setRelay_self, ShimState.setRelay_self]
  · rw [freeRelay, ShimState.setRelay_of_ne _ hj, ShimState.setRelay_self]

/-! ## Reserving -/

theorem secure_callReapSlot (hx : CallStage t none x) :
    CallSecure t (reapSlot k) (fun _ ↦ CallStage t none) x := by
  have hreapable : Keeps stopView (fun _ ↦ True) (reapable k) := by
    refine Keeps.bind (keeps_loadRelay k _) fun _ ↦ Keeps.ite (keeps_pure _) ?_
    refine Keeps.bind (keeps_loadRelay k _) fun _ ↦ Keeps.ite (keeps_pure _) ?_
    exact Keeps.bind (keeps_perform trivial) fun _ ↦ keeps_pure _
  refine (secure_bind _ _ _ _).mpr (secure_mono (secure_calm hreapable hx) fun free y hy ↦ ?_)
  rw [secure_when]
  split
  · have hjoin : Keeps stopView (fun _ ↦ True) (ignore (os (.osJoinThread k))) :=
      keeps_ignore (keeps_perform trivial)
    refine (secure_bind _ _ _ _).mpr (secure_mono (secure_calm hjoin hy) fun _ y hy ↦ ?_)
    refine (secure_bind _ _ _ _).mpr ?_
    refine secure_mono (secure_calm (keeps_stopStore fun _ ↦ rfl) hy) fun _ y hy ↦ ?_
    refine secure_store hy steady_callStage fun z g hz hinv haccess ↦ ?_
    obtain ⟨rfl, -⟩ := callMonitor_access haccess
    -- the call has not reserved anything yet
    have hquiet : callAccess t (fun s ↦ s.setRelay k fun r ↦ { r with allocated := 0 }) z =
        z.ghost := by
      change callAccess t (freeRelay k) z = z.ghost
      refine callAccess_quiet (fun j h ↦ ?_) (fun j _ hkeeper ↦ ?_) fun j h ↦ h ?_
      · by_cases hj : j = k
        · rw [hj] at h
          exact h.2 (allocation_freeRelay z.mem k)
        · exact h.2 ((allocation_freeRelay_of_ne z.mem hj).trans h.1)
      · cases (hz j).mp hkeeper
      · exact stop_freeRelay z.mem k j
    rw [hquiet]
    exact ⟨permits_callQuiet rfl hinv, hz⟩
  · exact hy

/-- A free slot is reserved when no unfinished call remembers it. -/
theorem secure_callClaim (hk : k < nsslRelayMax) (hx : CallStage t none x) :
    CallSecure t (access (claimRelay k)) (fun claimed y ↦
      if claimed then CallStage t (some k) y else CallStage t none y) x := by
  refine secure_access hx steady_callStage fun y g hy hinv haccess ↦ ?_
  set update := fun old ↦ (claimRelay k old).2 with hupdate
  obtain ⟨rfl, haccepted⟩ := callMonitor_access haccess
  have hnostop : ∀ j, ¬ SetsStop update y.mem j := fun j h ↦
    h ((stop_claimRelay _ k j).trans (stop_cleared y.mem j))
  have hnotakes : ∀ j, j ≠ k → ¬ Takes update y.mem j := by
    intro j hj h
    exact h.2 ((congrArg NsslRelay.allocated (claimRelay_of_ne y.mem hj)).trans h.1)
  by_cases hfree : allocation y.mem k = 0
  · have hclaim : claimRelay k y.mem = (true, y.mem.setRelay k fun r ↦ { r with allocated := 1 }) :=
      if_pos hfree
    have htaken : allocation (update y.mem) k ≠ 0 := by
      change allocation (claimRelay k y.mem).2 k ≠ 0
      rw [hclaim, allocation, ShimState.setRelay_self]
      exact Int.one_ne_zero
    have hforgotten := haccepted k hk ⟨hfree, htaken⟩
    have hself : (callAccess t update y).keeper k = some t := if_pos ⟨hfree, htaken⟩
    have hkeeper : ∀ j, j ≠ k → (callAccess t update y).keeper j = y.ghost.keeper j := by
      intro j hj
      simp only [callAccess, if_neg (hnotakes j hj)]
      exact if_neg fun h ↦ absurd ((hy j).mp h.2) (by simp)
    have hcreator : ∀ j, j ≠ k → (callAccess t update y).creator j = y.ghost.creator j :=
      fun j hj ↦ if_neg (hnotakes j hj)
    have hstops : (callAccess t update y).stops = y.ghost.stops := by
      have hnone : (List.range nsslRelayMax).filter (fun j ↦ SetsStop update y.mem j) = [] :=
        List.filter_eq_nil_iff.mpr fun j _ h ↦ hnostop j (of_decide_eq_true h)
      simp only [callAccess, hnone, List.map_nil, List.nil_append]
    rw [hclaim, if_pos rfl]
    refine ⟨⟨⟨fun j u hu ↦ ?_, fun stop hstop ↦ hinv.stops stop (hstops ▸ hstop)⟩, fun u hu j ↦ ?_⟩,
      fun j ↦ ?_⟩
    · by_cases hj : j = k
      · rw [hj] at hu ⊢
        rw [← Option.some.inj (hself.symm.trans hu)]
        exact if_pos ⟨hfree, htaken⟩
      · exact (hcreator j hj).trans (hinv.keeper j u ((hkeeper j hj).symm.trans hu))
    · change (callAccess t update y).keeper j = some u ↔ y.ghost.keeper j = some u
      by_cases hj : j = k
      · rw [hj, hself, hforgotten]
        exact iff_of_false (fun h ↦ hu (Option.some.inj h).symm) (by simp)
      · rw [hkeeper j hj]
    · change (callAccess t update y).keeper j = some t ↔ _
      by_cases hj : j = k
      · rw [hj]
        exact iff_of_true hself rfl
      · rw [hkeeper j hj]
        exact iff_of_false (fun h ↦ absurd ((hy j).mp h) (by simp)) fun h ↦ hj (Option.some.inj h).symm
  · have hclaim : claimRelay k y.mem = (false, y.mem) := if_neg hfree
    have hquiet : callAccess t update y = y.ghost := by
      refine callAccess_quiet (fun j h ↦ ?_) (fun j _ h ↦ absurd ((hy j).mp h) (by simp)) hnostop
      by_cases hj : j = k
      · rw [hj] at h
        exact hfree h.1
      · exact hnotakes j hj h
    rw [hclaim, hquiet, if_neg Bool.false_ne_true]
    exact ⟨permits_callQuiet rfl hinv, hy⟩

/-- A store of the reset: it stops nothing and keeps the slot. -/
theorem secure_resetStore {f : NsslRelay → NsslRelay} {slot : Option ℕ}
    (hallocated : ∀ r, (f r).allocated = r.allocated)
    (hstop : ∀ r : NsslRelay, (f { r with stop := 0 }).stop = 0) (hx : CallStage t slot x) :
    CallSecure t (storeRelay k f) (fun _ ↦ CallStage t slot) x := by
  refine secure_store hx steady_callStage fun y g hy hinv haccess ↦ ?_
  obtain ⟨rfl, -⟩ := callMonitor_access haccess
  have hsame : ∀ j, allocation (y.mem.setRelay k f) j = allocation y.mem j :=
    congrFun (allocation_setRelay hallocated y.mem)
  have hquiet : callAccess t (fun s ↦ s.setRelay k f) y = y.ghost := by
    refine callAccess_quiet (fun j h ↦ h.2 ((hsame j).trans h.1))
      (fun j h ↦ absurd ((hsame j).symm.trans h.2) h.1) fun j h ↦ h ?_
    by_cases hj : j = k
    · rw [hj, ShimState.setRelay_self, ShimState.setRelay_self]
      exact hstop _
    · rw [ShimState.setRelay_of_ne _ hj]
      exact stop_cleared y.mem j
  rw [hquiet]
  exact ⟨permits_callQuiet rfl hinv, hy⟩

theorem secure_callReset {slot : Option ℕ} (hx : CallStage t slot x) :
    CallSecure t (resetRelay k) (fun _ ↦ CallStage t slot) x := by
  refine (secure_bind _ _ _ _).mpr
    (secure_mono (secure_resetStore (fun _ ↦ rfl) (fun _ ↦ rfl) hx) fun _ y hy ↦ ?_)
  refine (secure_bind _ _ _ _).mpr
    (secure_mono (secure_resetStore (fun _ ↦ rfl) (fun _ ↦ rfl) hy) fun _ y hy ↦ ?_)
  refine (secure_bind _ _ _ _).mpr
    (secure_mono (secure_resetStore (fun _ ↦ rfl) (fun _ ↦ rfl) hy) fun _ y hy ↦ ?_)
  refine (secure_bind _ _ _ _).mpr
    (secure_mono (secure_resetStore (fun _ ↦ rfl) (fun _ ↦ rfl) hy) fun _ y hy ↦ ?_)
  exact secure_resetStore (fun _ ↦ rfl) (fun _ ↦ rfl) hy

/-- A call whose worker could not be created forgets the slot. -/
theorem secure_callGiveBack (hx : CallStage t (some k) x) :
    CallSecure t (storeRelay k fun r ↦ { r with allocated := 0 }) (fun _ y ↦
      ∃ slot, CallStage t slot y) x := by
  refine secure_store hx steady_callStage fun y g hy hinv haccess ↦ ?_
  obtain ⟨hghost, -⟩ := callMonitor_access haccess
  change g = callAccess t (freeRelay k) y at hghost
  have hother : ∀ j, j ≠ k → allocation (freeRelay k y.mem) j = allocation y.mem j :=
    fun j hj ↦ allocation_freeRelay_of_ne y.mem hj
  have hnotakes : ∀ j, ¬ Takes (freeRelay k) y.mem j := by
    intro j h
    by_cases hj : j = k
    · rw [hj] at h
      exact h.2 (allocation_freeRelay y.mem k)
    · exact h.2 ((hother j hj).trans h.1)
  have hcreator : g.creator = y.ghost.creator := by
    rw [hghost]
    exact funext fun j ↦ if_neg (hnotakes j)
  have hserial : g.serial = y.ghost.serial := by rw [hghost]; rfl
  have hstops : g.stops = y.ghost.stops := by
    have hnone : (List.range nsslRelayMax).filter (fun j ↦ SetsStop (freeRelay k) y.mem j) = [] :=
      List.filter_eq_nil_iff.mpr fun j _ h ↦ of_decide_eq_true h (stop_freeRelay y.mem k j)
    rw [hghost]
    simp only [callAccess, hnone, List.map_nil, List.nil_append]
  have hkeeper : ∀ j u, g.keeper j = some u → y.ghost.keeper j = some u := by
    intro j u hu
    rw [hghost] at hu
    simp only [callAccess, if_neg (hnotakes j)] at hu
    split at hu
    · cases hu
    · exact hu
  have hkept : ∀ j u, u ≠ t → y.ghost.keeper j = some u → g.keeper j = some u := by
    intro j u hu hold
    rw [hghost]
    simp only [callAccess, if_neg (hnotakes j)]
    rw [if_neg fun h ↦ hu (Option.some.inj (hold.symm.trans h.2))]
    exact hold
  refine ⟨⟨⟨fun j u hu ↦ ?_, ?_⟩, fun u hu j ↦ ⟨hkeeper j u, hkept j u hu⟩⟩, ?_⟩
  · change g.creator j = some (u, g.serial u)
    rw [hcreator, hserial]
    exact hinv.keeper j u (hkeeper j u hu)
  · change ∀ stop ∈ g.stops, _
    rw [hstops]
    exact hinv.stops
  · by_cases hheld : g.keeper k = some t
    · refine ⟨some k, fun j ↦ ⟨fun h ↦ (hy j).mp (hkeeper j t h), fun h ↦ ?_⟩⟩
      rw [← Option.some.inj h]
      exact hheld
    · refine ⟨none, fun j ↦ iff_of_false (fun h ↦ ?_) nofun⟩
      have hj := Option.some.inj ((hy j).mp (hkeeper j t h))
      exact hheld (hj ▸ h)

theorem secure_callReserve (hx : CallStage t none x) :
    CallSecure t nsslRelayReserve (fun slot y ↦ if slot < 0 then ∃ held, CallStage t held y
      else CallStage t (some slot.toNat) y) x := by
  have hfrom : ∀ (slots : List ℕ) (y : CallWatched), (∀ j ∈ slots, j < nsslRelayMax) →
      CallStage t none y → CallSecure t (nsslRelayReserveFrom slots) (fun slot y ↦
        if slot < 0 then ∃ held, CallStage t held y else CallStage t (some slot.toNat) y) y := by
    intro slots
    induction slots with
    | nil => exact fun y _ hy ↦ ⟨none, hy⟩
    | cons k rest ih =>
      intro y hslots hy
      have hk := hslots k List.mem_cons_self
      refine (secure_bind _ _ _ _).mpr (secure_mono (secure_callClaim hk hy) fun claimed y hy ↦ ?_)
      cases claimed with
      | false => exact ih y (fun j hj ↦ hslots j (List.mem_cons_of_mem k hj)) hy
      | true =>
        rw [if_pos rfl] at hy
        refine (secure_bind _ _ _ _).mpr (secure_mono (secure_callReset hy) fun _ y hy ↦ ?_)
        have hcreate : Keeps stopView (fun _ ↦ True) (os (.osCreateThread k)) :=
          keeps_perform trivial
        refine (secure_bind _ _ _ _).mpr (secure_mono (secure_calm hcreate hy) fun created y hy ↦ ?_)
        rw [secure_ite]
        split
        · refine (secure_bind _ _ _ _).mpr (secure_mono (secure_callGiveBack hy) fun _ z hz ↦ ?_)
          exact hz
        · have hresume : Keeps stopView (fun _ ↦ True) (ignore (os (.osResumeThread k))) :=
            keeps_ignore (keeps_perform trivial)
          refine (secure_bind _ _ _ _).mpr (secure_mono (secure_calm hresume hy) fun _ z hz ↦ ?_)
          rw [secure_pure, if_neg (Int.not_lt.mpr (Int.natCast_nonneg k)), Int.toNat_natCast]
          exact hz
  refine (secure_bind _ _ _ _).mpr ?_
  refine secure_mono (secure_each (fun _ ↦ CallStage t none) hx fun _ _ _ hy ↦
    secure_callReapSlot hy) fun _ y hy ↦ ?_
  exact hfrom _ y (fun j hj ↦ List.mem_range.mp hj) hy

/-! ## Stopping -/

/-- The call stops the relay that it reserved. -/
theorem secure_callStopSlot {slot : ℤ} (hx : CallStage t (some slot.toNat) x) :
    CallSecure t (nsslRelayStopSlot slot) (fun _ ↦ CallStage t (some slot.toNat)) x := by
  rw [nsslRelayStopSlot, CallSecure, secure_when]
  split
  · refine (secure_bind _ _ _ _).mpr ?_
    refine secure_mono (secure_calm (keeps_loadRelay slot.toNat _) hx) fun allocated y hy ↦ ?_
    rw [secure_when]
    split
    · refine secure_store hy steady_callStage fun z g hz hinv haccess ↦ ?_
      obtain ⟨hghost, -⟩ := callMonitor_access haccess
      set f : NsslRelay → NsslRelay := fun r ↦ { r with stop := 1 } with hf
      have hsame : ∀ j, allocation (z.mem.setRelay slot.toNat f) j = allocation z.mem j :=
        congrFun (allocation_setRelay (fun r ↦ (rfl : (f r).allocated = r.allocated)) z.mem)
      have hkeeper : g.keeper = z.ghost.keeper := by
        rw [hghost]
        funext j
        simp only [callAccess]
        rw [if_neg fun h ↦ h.2 ((hsame j).trans h.1),
          if_neg fun h ↦ h.1.1 ((hsame j).symm.trans h.1.2)]
      have hcreator : g.creator = z.ghost.creator := by
        rw [hghost]
        exact funext fun j ↦ if_neg fun h ↦ h.2 ((hsame j).trans h.1)
      have hserial : g.serial = z.ghost.serial := by rw [hghost]; rfl
      have hmine := hinv.keeper slot.toNat t ((hz slot.toNat).mpr rfl)
      refine ⟨⟨⟨fun j u hu ↦ ?_, fun stop hstop ↦ ?_⟩, fun u _ j ↦ ?_⟩, fun j ↦ ?_⟩
      · change g.creator j = some (u, g.serial u)
        rw [hcreator, hserial]
        exact hinv.keeper j u (hkeeper ▸ hu)
      · change stop ∈ g.stops at hstop
        rw [hghost] at hstop
        rcases List.mem_append.mp hstop with hnew | hold
        · obtain ⟨j, hj, rfl⟩ := List.mem_map.mp hnew
          have hsets := of_decide_eq_true (List.mem_filter.mp hj).2
          -- only the slot of the call gets a flag
          have hjk : j = slot.toNat := by
            by_contra hne
            refine hsets ?_
            rw [ShimState.setRelay_of_ne _ hne]
            exact stop_cleared z.mem j
          rw [hjk]
          exact hmine
        · exact hinv.stops stop hold
      · change g.keeper j = _ ↔ _
        rw [hkeeper]
      · change g.keeper j = _ ↔ _
        rw [hkeeper]
        exact hz j
    · exact hy
  · exact hx

/-! ## The bridge -/

/-- The slot of a finished bridge is the one that the call remembers. -/
def Bridged (t : RelayThread) (slot : ℤ) (y : CallWatched) : Prop :=
  ∃ held, CallStage t held y ∧ (0 ≤ slot → held = some slot.toNat)

theorem bridged_none (code : ℤ) {held : Option ℕ} {y : CallWatched} (hy : CallStage t held y) :
    CallSecure t (pure (code, -1)) (fun result ↦ Bridged t result.2) y :=
  ⟨held, hy, fun h ↦ absurd h (by decide : ¬ (0 : ℤ) ≤ -1)⟩

theorem secure_bridgeFail {slot : ℤ} (listener code : ℤ) (hx : CallStage t (some slot.toNat) x) :
    CallSecure t (bridgeFail listener slot code) (fun result ↦ Bridged t result.2) x := by
  have hclose : Keeps stopView (fun _ ↦ True) (ignore (native (.socketclose listener))) :=
    keeps_ignore (keeps_perform trivial)
  refine (secure_bind _ _ _ _).mpr (secure_mono (secure_calm hclose hx) fun _ y hy ↦ ?_)
  exact (secure_bind _ _ _ _).mpr (secure_mono (secure_callStopSlot hy) fun _ _ h ↦
    bridged_none code h)

theorem secure_bridgeFailNative {slot : ℤ} (listener base : ℤ)
    (hx : CallStage t (some slot.toNat) x) :
    CallSecure t (bridgeFailNative listener slot base) (fun result ↦ Bridged t result.2) x :=
  (secure_bind _ _ _ _).mpr (secure_mono (secure_calm keeps_lasterrStop hx) fun _ _ hy ↦
    secure_bridgeFail listener _ hy)

theorem secure_bridgePublish {slot : ℕ} (sockfd lwfd accepted : ℤ)
    (hx : CallStage t (some slot) x) :
    CallSecure t (bridgePublish sockfd lwfd accepted slot) (fun result ↦ Bridged t result.2) x := by
  have hnote : Keeps stopView (fun _ ↦ True) (note (.adopted slot)) :=
    Keeps.bind (keeps_perform trivial) fun _ ↦ keeps_pure _
  refine (secure_bind _ _ _ _).mpr
    (secure_mono (secure_calm (keeps_stopStore fun _ ↦ rfl) hx) fun _ y hy ↦ ?_)
  refine (secure_bind _ _ _ _).mpr
    (secure_mono (secure_calm (keeps_stopStore fun _ ↦ rfl) hy) fun _ y hy ↦ ?_)
  refine (secure_bind _ _ _ _).mpr (secure_mono (secure_calm hnote hy) fun _ y hy ↦ ?_)
  refine (secure_bind _ _ _ _).mpr
    (secure_mono (secure_calm (keeps_stopStore fun _ ↦ rfl) hy) fun _ y hy ↦ ?_)
  refine (secure_bind _ _ _ _).mpr
    (secure_mono (secure_calm (keeps_unmapFd _) hy) fun _ y hy ↦ ?_)
  exact (secure_bind _ _ _ _).mpr
    (secure_mono (secure_calm (keeps_stopStore fun _ ↦ rfl) hy) fun _ y hy ↦
      ⟨some slot, hy, fun _ ↦ rfl⟩)

theorem secure_bridgeConnect {slot : ℤ} (sockfd lwfd listener : ℤ) (loc : Sockaddr)
    (hx : CallStage t (some slot.toNat) x) :
    CallSecure t (bridgeConnect sockfd lwfd listener slot loc)
      (fun result ↦ Bridged t result.2) x := by
  have hconnect : Keeps stopView (fun _ ↦ True) (native (.connect sockfd (some loc) 16)) :=
    keeps_perform trivial
  refine (secure_bind _ _ _ _).mpr (secure_mono (secure_calm hconnect hx) fun connected y hy ↦ ?_)
  rw [secure_ite]
  split
  · exact secure_bridgeFailNative listener _ hy
  · have haccept : Keeps stopView (fun _ ↦ True) (native (.accept listener false none)) :=
      keeps_perform trivial
    have hclose : Keeps stopView (fun _ ↦ True) (ignore (native (.socketclose listener))) :=
      keeps_ignore (keeps_perform trivial)
    refine (secure_bind _ _ _ _).mpr (secure_mono (secure_calm haccept hy) fun accepted y hy ↦ ?_)
    refine (secure_bind _ _ _ _).mpr (secure_mono (secure_calm hclose hy) fun _ y hy ↦ ?_)
    rw [secure_ite]
    split
    · refine (secure_bind _ _ _ _).mpr (secure_mono (secure_calm keeps_lasterrStop hy) ?_)
      intro error y hy
      exact (secure_bind _ _ _ _).mpr (secure_mono (secure_callStopSlot hy) fun _ _ h ↦
        bridged_none _ h)
    · exact secure_bridgePublish sockfd lwfd _ hy

theorem secure_bridgeListen {slot : ℤ} (sockfd lwfd listener : ℤ)
    (hx : CallStage t (some slot.toNat) x) :
    CallSecure t (bridgeListen sockfd lwfd listener slot)
      (fun result ↦ Bridged t result.2) x := by
  have hnative : ∀ request, Keeps stopView (fun _ ↦ True) (native request) := fun _ ↦
    keeps_perform trivial
  refine (secure_bind _ _ _ _).mpr
    (secure_mono (secure_calm (keeps_lwipStop _) hx) fun parsed y hy ↦ ?_)
  rw [secure_ite]
  split
  · exact secure_bridgeFail listener _ hy
  refine (secure_bind _ _ _ _).mpr (secure_mono (secure_calm (hnative _) hy) fun bound y hy ↦ ?_)
  rw [secure_ite]
  split
  · exact secure_bridgeFailNative listener _ hy
  refine (secure_bind _ _ _ _).mpr (secure_mono (secure_calm (hnative _) hy) fun listening y hy ↦ ?_)
  rw [secure_ite]
  split
  · exact secure_bridgeFailNative listener _ hy
  refine (secure_bind _ _ _ _).mpr (secure_mono (secure_calm (hnative _) hy) fun name y hy ↦ ?_)
  rw [secure_ite]
  split
  · exact secure_bridgeFailNative listener _ hy
  · exact secure_bridgeConnect sockfd lwfd listener _ hy

theorem secure_bridgeAxSocketToNssl (sockfd : ℤ) (hx : CallStage t none x) :
    CallSecure t (bridgeAxSocketToNssl sockfd) (fun result ↦ Bridged t result.2) x := by
  refine (secure_bind _ _ _ _).mpr
    (secure_mono (secure_calm (keeps_isForeign sockfd) hx) fun foreign y hy ↦ ?_)
  rw [secure_ite]
  split
  · exact bridged_none _ hy
  refine (secure_bind _ _ _ _).mpr
    (secure_mono (secure_calm (keeps_stackFd sockfd) hy) fun lwfd y hy ↦ ?_)
  refine (secure_bind _ _ _ _).mpr
    (secure_mono (secure_calm (keeps_lwipStop _) hy) fun peer y hy ↦ ?_)
  rw [secure_ite]
  split
  · exact bridged_none _ hy
  rw [secure_ite]
  split
  · exact bridged_none _ hy
  refine (secure_bind _ _ _ _).mpr (secure_mono (secure_callReserve hy) fun slot y hy ↦ ?_)
  rw [secure_ite]
  split
  · rename_i hnegative
    rw [if_pos hnegative] at hy
    obtain ⟨held, hy⟩ := hy
    exact bridged_none _ hy
  rename_i hslot
  rw [if_neg hslot] at hy
  have hsocket : Keeps stopView (fun _ ↦ True) (native (.socket nsnAfInet sockStream 0)) :=
    keeps_perform trivial
  refine (secure_bind _ _ _ _).mpr (secure_mono (secure_calm hsocket hy) fun listener y hy ↦ ?_)
  rw [secure_ite]
  split
  · refine (secure_bind _ _ _ _).mpr (secure_mono (secure_callStopSlot hy) fun _ y hy ↦ ?_)
    exact bridged_none _ hy
  · exact secure_bridgeListen sockfd lwfd listener.code hy

/-! ## The hook -/

theorem secure_nsslPrepare (sockfd : ℤ) (hx : CallStage t none x) :
    CallSecure t (nsslPrepare sockfd) (fun prepared ↦ Bridged t prepared.2) x := by
  refine (secure_bind _ _ _ _).mpr
    (secure_mono (secure_calm (keeps_isForeign sockfd) hx) fun foreign y hy ↦ ?_)
  rw [secure_ite]
  split
  · exact ⟨none, hy, fun h ↦ absurd h (by decide)⟩
  refine (secure_bind _ _ _ _).mpr
    (secure_mono (secure_calm (keeps_load _) hy) fun bridge y hy ↦ ?_)
  rw [secure_ite]
  split
  · refine (secure_bind _ _ _ _).mpr ?_
    exact secure_mono (secure_bridgeAxSocketToNssl sockfd hy) fun _ _ h ↦ h
  · refine (secure_bind _ _ _ _).mpr ?_
    refine secure_mono (secure_calm (keeps_promoteAxSocketToNative sockfd) hy) fun _ y hy ↦ ?_
    exact ⟨none, hy, fun h ↦ absurd h (by decide)⟩

theorem secure_hookNsslCreateConnection (context : ℤ) (host : Option String)
    (hostLength options sockfd block : ℤ) (hx : CallStage t none x) :
    CallSecure t (hookNsslCreateConnection context host hostLength options sockfd block)
      (fun _ y ↦ ∃ held, CallStage t held y) x := by
  refine (secure_bind _ _ _ _).mpr ?_
  refine secure_mono (secure_nsslPrepare sockfd hx) fun prepared y ⟨held, hy, hslot⟩ ↦ ?_
  rw [secure_ite]
  split
  · exact ⟨held, hy⟩
  have hcreate : Keeps stopView (fun _ ↦ True)
      (native (.nsslCreateConnection context host hostLength options sockfd block)) :=
    keeps_perform trivial
  refine (secure_bind _ _ _ _).mpr (secure_mono (secure_calm hcreate hy) fun result y hy ↦ ?_)
  refine (secure_bind _ _ _ _).mpr ?_
  rw [secure_when]
  split
  · rename_i hremembered
    rw [hslot hremembered] at hy
    rw [secure_ite]
    split
    · exact secure_mono (secure_callStopSlot hy) fun _ z hz ↦ ⟨_, hz⟩
    · have htrack : Keeps stopView (fun _ ↦ True)
          (nsslTrackPublicConnection sockfd result.code) :=
        Keeps.when (Keeps.bind (keeps_store fun _ ↦ rfl) fun _ ↦ keeps_store fun _ ↦ rfl)
      exact secure_mono (secure_calm htrack hy) fun _ z hz ↦ ⟨_, hz⟩
  · exact ⟨held, hy⟩

end Stages

/-! ## Runs -/

theorem callSecured (s : ShimState) (w : WorkerWorld) :
    Secured connectSystem callMonitor { mem := s, world := w, ghost := {} } callProtocol
      (fun t ↦ CallStage t none) (fun t y ↦ ∃ held, CallStage t held y) where
  rely_refl _ _ _ := Iff.rfl
  rely_trans _ _ _ _ hxy hyz k := (hyz k).trans (hxy k)
  idle_steady _ := steady_callStage
  ended_steady _ _ _ hx hrely _ := ⟨hx.choose, fun k ↦ (hrely k).trans (hx.choose_spec k)⟩
  finish_safe t x hinv _ := by
    have hkeeper : ∀ k u, (callFinish t x.ghost).keeper k = some u ↔
        u ≠ t ∧ x.ghost.keeper k = some u := by
      intro k u
      simp only [callFinish]
      split
      · rename_i hmine
        refine iff_of_false nofun fun h ↦ h.1 ?_
        exact (Option.some.inj (hmine.symm.trans h.2)).symm
      · rename_i hother
        exact ⟨fun h ↦ ⟨fun hsame ↦ hother (hsame ▸ h), h⟩, fun h ↦ h.2⟩
    refine ⟨⟨⟨fun k u hu ↦ ?_, hinv.stops⟩, fun u hu k ↦ ?_⟩, fun k ↦ ?_⟩
    · obtain ⟨hne, hold⟩ := (hkeeper k u).mp hu
      refine (hinv.keeper k u hold).trans ?_
      exact congrArg (fun n ↦ some (u, n)) (Function.update_of_ne hne _ _).symm
    · exact (hkeeper k u).trans (and_iff_right hu)
    · exact iff_of_false (fun h ↦ ((hkeeper k t).mp h).1 rfl) nofun
  env_safe event := nomatch event
  body_secure t operation x _ hidle henabled := by
    cases t with
    | caller n =>
      cases operation with
      | connect context host hostLength options sockfd block =>
        refine (secure_bind _ _ _ _).mpr ?_
        exact secure_mono (secure_hookNsslCreateConnection _ _ _ _ _ _ hidle) fun _ _ h ↦ h
      | work fuel => cases henabled
    | worker slot =>
      cases operation with
      | connect context host hostLength options sockfd block => cases henabled
      | work fuel =>
        exact secure_mono (secure_calm (keeps_runWorker_stop slot fuel) hidle) fun _ _ h ↦ ⟨_, h⟩
  initial_inv := ⟨nofun, nofun⟩
  initial_idle _ _ := iff_of_false nofun nofun

/-- Every stop flag that a call has set belongs to the relay it reserved. -/
def StopsOwn (g : CallHistory) : Prop := ∀ stop ∈ g.stops, stop.2 = some stop.1

/-- A call only stops its own relay as long as no slot is reserved that an unfinished call
remembers. -/
theorem callWatch_stopsOwn (s : ShimState) (w : WorkerWorld)
    {actions : List (Action RelayThread ConnectOperation Empty ShimReply)}
    {c : Config RelayThread ShimState WorkerWorld ShimCall ShimReply} {g : CallHistory}
    (hwatch : connectSystem.watch callMonitor (System.start { mem := s, world := w }) {} actions =
      some (c, g)) : StopsOwn g :=
  (Secured.sound (callSecured s w) hwatch).invariant.stops

/-- Steps of one thread, each run of them followed by the answer to its next call. -/
def callScript (t : RelayThread) (moves : List (ℕ × ShimReply)) :
    List (Action RelayThread ConnectOperation Empty ShimReply) :=
  moves.flatMap fun move ↦ List.replicate move.1 (.step t) ++ [.answer t move.2]

/-- The shim with the AX sockets 3 and 4. -/
def twoSockets : ShimState :=
  { openMask := 0x18, mappedFd := fun fd ↦ fd - 3, acceptingSockets := 1, nsslBridgeEnabled := 1 }

def peerAnswer : ShimReply := { addr := some { family := nsnAfInet, port := 443, addr := loopback } }

/-- A bridge from the creation of its worker to the handshake. -/
def bridgeScript (t : RelayThread) (listener accepted : ℤ) :
    List (Action RelayThread ConnectOperation Empty ShimReply) :=
  callScript t [(15, { code := 1 }), (0, {}), (0, { code := listener }), (0, { code := 1 }), (1, {}),
    (0, {}), (0, {}), (0, {}), (0, { code := accepted }), (0, {}), (2, {})] ++
    List.replicate 4 (.step t)

/-- The first connection up to its handshake. -/
def firstConnection : List (Action RelayThread ConnectOperation Empty ShimReply) :=
  .start (.caller 0) (.connect 0 none 0 0 3 1) :: callScript (.caller 0) [(6, peerAnswer)] ++
    bridgeScript (.caller 0) 10 11

/-- A handshake that fails at once stops the relay of its call. -/
theorem callWatch_stopsOwn_failed : ∃ actions c g,
    connectSystem.watch callMonitor (System.start { mem := twoSockets, world := {} }) {} actions =
      some (c, g) ∧ g.stops.length = 1 ∧ StopsOwn g := by
  have hwatch : ∃ c g, connectSystem.watch callMonitor
      (System.start { mem := twoSockets, world := {} }) {}
      (firstConnection ++ .answer (.caller 0) { code := -1 } ::
        List.replicate 2 (.step (.caller 0))) = some (c, g) ∧ g.stops.length = 1 :=
    ⟨_, _, rfl, rfl⟩
  obtain ⟨c, g, hwatch, hstops⟩ := hwatch
  exact ⟨_, c, g, hwatch, hstops, callWatch_stopsOwn twoSockets {} hwatch⟩

set_option maxRecDepth 4000 in
/-- The relay of the first connection ends during the handshake, the second connection reaps it and
gets its slot, then the handshake of the first fails. -/
theorem foreign_relay_stopped : ∃ actions c g,
    connectSystem.watch callObserver (System.start { mem := twoSockets, world := {} }) {} actions =
      some (c, g) ∧ ¬ StopsOwn g := by
  have hwatch : ∃ c g, connectSystem.watch callObserver
      (System.start { mem := twoSockets, world := {} }) {}
      (firstConnection ++ .start (.worker 0) (.work 3) ::
        callScript (.worker 0) [(4, {}), (1, { code := -1 }), (0, { code := nsnErrConnreset }),
          (0, { code := nsnErrConnreset }), (1, {}), (1, {}), (2, {}), (3, {})] ++
        .step (.worker 0) :: .start (.caller 1) (.connect 0 none 0 0 4 1) ::
        callScript (.caller 1) [(6, peerAnswer), (3, { code := 1 }), (0, {})] ++
        bridgeScript (.caller 1) 10 11 ++ .answer (.caller 0) { code := -1 } ::
        List.replicate 2 (.step (.caller 0))) = some (c, g) ∧
      g.stops = [((.caller 0, 0), some (.caller 1, 0))] := ⟨_, _, rfl, rfl⟩
  obtain ⟨c, g, hwatch, hstops⟩ := hwatch
  refine ⟨_, c, g, hwatch, fun hown ↦ ?_⟩
  have hfirst := hown ((.caller 0, 0), some (.caller 1, 0)) (hstops ▸ List.mem_cons_self)
  cases hfirst

end Ax88179Aroma.Shim
