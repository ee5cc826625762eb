import Ax88179Aroma.Effect.History
import Ax88179Aroma.Shim.Board
import Ax88179Aroma.Shim.Nssl

/-!
# Bridges beside relay workers

Title threads bridge sockets while relay workers run and other threads stop relays.  A bridge stores
its two descriptors in the slot it reserved in separate steps, and the worker of that slot closes
what it finds there when it ends.  A worker that was told to stop may be gone before the bridge
stores anything, and then nobody closes the descriptors.  Where the stop flag of the slot is clear
at both stores, no slot is reserved under a worker or an unfinished bridge and no lwIP descriptor is
moved twice, every descriptor that was moved is closed exactly once.
-/

namespace Ax88179Aroma.Shim

open Effect Program

/-! ## The system -/

inductive BridgeOperation where
  | bridge (sockfd : ℤ)
  | detach (fd : ℤ)
  | stopSlot (slot : ℤ)
  | stopAll (fuel : ℕ)
  | finish (fuel : ℕ)
  | work (fuel : ℕ)

structure TransitWorld where
  natives : Ledger ℤ := {}
  lwipCloses : ℤ → ℕ := fun _ ↦ 0
  threads : WorkerWorld := {}

/-- nsysnet hands out a descriptor that is not open. -/
def TransitWorld.opened (w : TransitWorld) (code : ℤ) : Option TransitWorld :=
  if code < 0 then some w
  else (w.natives.acquire code).map fun natives ↦ { w with natives := natives }

/-- What a call does, `none` while it blocks. -/
def transitEffect (w : TransitWorld) : ShimCall → ShimReply → Option TransitWorld
  | .native (.socket _ _ _), answer => w.opened answer.code
  | .native (.accept _ _ _), answer => w.opened answer.code
  | .native (.socketclose fd), _ => some { w with natives := w.natives.release fd }
  | .lwip (.close lwfd), _ =>
    some { w with lwipCloses := Function.update w.lwipCloses lwfd (w.lwipCloses lwfd + 1) }
  | request, answer =>
    (workerEffect w.threads request answer).map fun threads ↦ { w with threads := threads }

def callerBody : BridgeOperation → ShimM Unit
  | .bridge sockfd => do
    let _ ← bridgeAxSocketToNssl sockfd
    pure ()
  | .detach fd => nsslRelayDetachPublicFd fd
  | .stopSlot slot => nsslRelayStopSlot slot
  | .stopAll fuel => nsslRelayStopAll fuel
  | .finish fuel => ignore (hookNsslFinish fuel)
  | .work _ => pure ()

def transitSystem :
    System RelayThread BridgeOperation Empty ShimState TransitWorld ShimCall ShimReply where
  reply _ request answer x := (transitEffect x.world request answer).map fun w ↦
    { x with world := w }
  env _ _ := none
  body
    | .worker slot, .work fuel => runWorker slot fuel
    | _, operation => callerBody operation
  enabled
    | .worker slot, .work _, x => x.world.threads.worker slot = .running
    | .worker _, _, _ => false
    | .caller _, .work _, _ => false
    | .caller _, _, _ => true

/-! ## History -/

structure TransitHistory where
  /-- the thread whose unfinished bridge remembers the slot -/
  keeper : ℕ → Option RelayThread := fun _ ↦ none
  native : NativeHand → Option ℤ := fun _ ↦ none
  /-- the acquisition that the last `accept` of a thread made -/
  accepted : RelayThread → ℕ := fun _ ↦ 0
  /-- the lwIP descriptor that was moved to a slot -/
  lwip : ℕ → Option ℤ := fun _ ↦ none
  /-- the acquisitions that were moved to a slot, and how often each was closed before that -/
  movedNative : List (ℕ × ℕ) := []
  movedLwip : List (ℤ × ℕ) := []

abbrev TransitWatched := Watched ShimState TransitWorld TransitHistory

/-- The native descriptor that an access stores in slot `k`, negative if it stores none. -/
def storedNative (update : ShimState → ShimState) (s : ShimState) (k : ℕ) : ℤ :=
  ((update (s.setRelay k fun r ↦ { r with nativeFd := -1 })).nsslRelays k).nativeFd

/-- The lwIP descriptor that an access stores in slot `k`, negative if it stores none. -/
def storedLwip (update : ShimState → ShimState) (s : ShimState) (k : ℕ) : ℤ :=
  ((update (s.setRelay k fun r ↦ { r with lwfd := -1 })).nsslRelays k).lwfd

def relaySlots : List ℕ := List.range nsslRelayMax

def transitAccess (t : RelayThread) (update : ShimState → ShimState) (x : TransitWatched) :
    TransitHistory where
  keeper k :=
    if Takes update x.mem k then some t
    else if Frees update x.mem k ∧ x.ghost.keeper k = some t then none
    else x.ghost.keeper k
  native
    | .listener u => x.ghost.native (.listener u)
    | .accepted u =>
      if u = t ∧ ∃ k ∈ relaySlots, 0 ≤ storedNative update x.mem k then none
      else x.ghost.native (.accepted u)
    | .relay k =>
      if 0 ≤ storedNative update x.mem k then some (storedNative update x.mem k)
      else x.ghost.native (.relay k)
  accepted := x.ghost.accepted
  lwip k :=
    if 0 ≤ storedLwip update x.mem k then some (storedLwip update x.mem k) else x.ghost.lwip k
  movedNative :=
    (relaySlots.filter fun k ↦ 0 ≤ storedNative update x.mem k).map
      (fun _ ↦ (x.ghost.accepted t, x.world.natives.releases (x.ghost.accepted t))) ++
        x.ghost.movedNative
  movedLwip :=
    (relaySlots.filter fun k ↦ 0 ≤ storedLwip update x.mem k).map
      (fun k ↦ (storedLwip update x.mem k, x.world.lwipCloses (storedLwip update x.mem k))) ++
        x.ghost.movedLwip

/-- A thread closes what it has in hand, a worker what is in its slot. -/
def NativeHand.closer : NativeHand → Option RelayThread
  | .listener t => some t
  | .accepted _ => none
  | .relay slot => some (.worker slot)

def transitReply (t : RelayThread) (x : TransitWatched) : ShimCall → ShimReply → TransitHistory
  | .native (.socket _ _ _), answer =>
    if answer.code < 0 then x.ghost
    else { x.ghost with
      native := Function.update x.ghost.native (.listener t) (some answer.code) }
  | .native (.accept _ _ _), answer =>
    if answer.code < 0 then x.ghost
    else { x.ghost with
      native := Function.update x.ghost.native (.accepted t) (some answer.code)
      accepted := Function.update x.ghost.accepted t x.world.natives.serial }
  | .native (.socketclose fd), _ =>
    { x.ghost with
      native := fun hand ↦
        if hand.closer = some t ∧ x.ghost.native hand = some fd then none
        else x.ghost.native hand }
  | .lwip (.close lwfd), _ =>
    { x.ghost with
      lwip := fun k ↦
        if t = .worker k ∧ x.ghost.lwip k = some lwfd then none else x.ghost.lwip k }
  | _, _ => x.ghost

/-- At the end of an operation its slot is forgotten. -/
def transitFinish (t : RelayThread) (g : TransitHistory) : TransitHistory :=
  { g with keeper := fun k ↦ if g.keeper k = some t then none else g.keeper k }

def transitObserver :
    Monitor RelayThread ShimState TransitWorld ShimCall ShimReply TransitHistory where
  access t update x := some (transitAccess t update x)
  reply t request answer x := some (transitReply t x request answer)
  finish := transitFinish

/-! ### The condition -/

/-- No slot is reserved that an unfinished bridge remembers or in which a worker lives. -/
def reservesIdle (update : ShimState → ShimState) (x : TransitWatched) : Bool :=
  decide (∀ k ∈ relaySlots, Takes update x.mem k →
    x.ghost.keeper k = none ∧ x.world.threads.alive k = false)

/-- A descriptor is stored only in a slot that was not told to stop. -/
def movesUnstopped (update : ShimState → ShimState) (x : TransitWatched) : Bool :=
  decide (∀ k ∈ relaySlots,
    0 ≤ storedNative update x.mem k ∨ 0 ≤ storedLwip update x.mem k →
      (x.mem.nsslRelays k).stop = 0)

/-- No lwIP descriptor is moved that was moved before. -/
def movesNew (update : ShimState → ShimState) (x : TransitWatched) : Bool :=
  decide (∀ k ∈ relaySlots, 0 ≤ storedLwip update x.mem k →
    ∀ moved ∈ x.ghost.movedLwip, moved.1 ≠ storedLwip update x.mem k)

def transitMonitor :
    Monitor RelayThread ShimState TransitWorld ShimCall ShimReply TransitHistory :=
  transitObserver.restrict
    (fun _ update x ↦ reservesIdle update x && movesUnstopped update x && movesNew update x)
    fun _ _ _ ↦ true

/-! ## The board of a run -/

def transitBoard (x : TransitWatched) : Board where
  ready k := decide ((x.mem.nsslRelays k).ready ≠ 0)
  stop k := decide ((x.mem.nsslRelays k).stop ≠ 0)
  nativeFd k := (x.mem.nsslRelays k).nativeFd
  lwfd k := (x.mem.nsslRelays k).lwfd
  worker := x.world.threads.worker
  natives := x.world.natives
  lwipCloses := x.world.lwipCloses
  keeper := x.ghost.keeper
  native := x.ghost.native
  accepted := x.ghost.accepted
  lwip := x.ghost.lwip
  movedNative := x.ghost.movedNative
  movedLwip := x.ghost.movedLwip

def transitProtocol : Protocol RelayThread ShimState TransitWorld ShimCall TransitHistory where
  inv x := (transitBoard x).Inv
  rely t x y := Board.Rely t (transitBoard x) (transitBoard y)

/-- The rest of thread `t` is safe and ends in an assertion about the board. -/
def TransitSecure {α : Type} (t : RelayThread) (program : ShimM α) (post : α → Board → Prop)
    (x : TransitWatched) : Prop :=
  Secure transitSystem transitMonitor transitProtocol t program
    (fun value y ↦ post value (transitBoard y)) x

variable {t : RelayThread} {x y : TransitWatched} {k : ℕ}

/-- A step of the board is a step of the protocol. -/
theorem permits_of_boardStep (hy : transitProtocol.inv y)
    (hstep : BoardStep t (transitBoard y) (transitBoard x)) : transitProtocol.Permits t y x :=
  ⟨hstep.inv hy, fun _ hne ↦ hstep.rely hne⟩

/-- What the monitor has checked of an access. -/
structure Allows (update : ShimState → ShimState) (y : TransitWatched) : Prop where
  idle : ∀ k ∈ relaySlots, Takes update y.mem k →
    y.ghost.keeper k = none ∧ y.world.threads.alive k = false
  unstopped : ∀ k ∈ relaySlots,
    0 ≤ storedNative update y.mem k ∨ 0 ≤ storedLwip update y.mem k →
      (y.mem.nsslRelays k).stop = 0
  new : ∀ k ∈ relaySlots, 0 ≤ storedLwip update y.mem k →
    ∀ moved ∈ y.ghost.movedLwip, moved.1 ≠ storedLwip update y.mem k

theorem transitMonitor_access {update : ShimState → ShimState} {g : TransitHistory}
    (h : transitMonitor.access t update y = some g) :
    Allows update y ∧ g = transitAccess t update y := by
  change (if (reservesIdle update y && movesUnstopped update y && movesNew update y) = true
    then some (transitAccess t update y) else none) = some g at h
  split at h
  · rename_i haccepted
    obtain ⟨hfirst, hnew⟩ := Bool.and_eq_true_iff.mp haccepted
    obtain ⟨hidle, hunstopped⟩ := Bool.and_eq_true_iff.mp hfirst
    exact ⟨⟨of_decide_eq_true hidle, of_decide_eq_true hunstopped, of_decide_eq_true hnew⟩,
      (Option.some.inj h).symm⟩
  · cases h

/-! ### Accesses -/

/-- What of a slot the board depends on. -/
def slotView (s : ShimState) : ℕ → ℤ × ℤ × ℤ × ℤ × ℤ := fun k ↦
  ((s.nsslRelays k).allocated, (s.nsslRelays k).ready, (s.nsslRelays k).stop,
    (s.nsslRelays k).nativeFd, (s.nsslRelays k).lwfd)

/-- What an access leaves on the board. -/
abbrev slotsAfter (t : RelayThread) (update : ShimState → ShimState) (y : TransitWatched) : Board :=
  transitBoard (y.access update (transitAccess t update y))

variable {update : ShimState → ShimState} {f : NsslRelay → NsslRelay}

/-- An access that reserves, frees and moves nothing leaves the history alone. -/
theorem transitAccess_quiet (htakes : ∀ j, ¬ Takes update y.mem j)
    (hfrees : ∀ j, ¬ Frees update y.mem j) (hnative : ∀ j, storedNative update y.mem j < 0)
    (hlwip : ∀ j, storedLwip update y.mem j < 0) : transitAccess t update y = y.ghost := by
  have hnative' : ∀ j, ¬ 0 ≤ storedNative update y.mem j := fun j ↦ Int.not_le.mpr (hnative j)
  have hlwip' : ∀ j, ¬ 0 ≤ storedLwip update y.mem j := fun j ↦ Int.not_le.mpr (hlwip j)
  have hhands : (transitAccess t update y).native = y.ghost.native := by
    funext hand
    cases hand <;> simp [transitAccess, hnative']
  have hrest : transitAccess t update y =
      { y.ghost with native := (transitAccess t update y).native } := by
    simp [transitAccess, htakes, hfrees, hnative', hlwip']
  rw [hrest, hhands]

theorem slotsAfter_view (hview : ∀ s, slotView (update s) = slotView s) :
    slotsAfter t update y = transitBoard y := by
  have hslot : ∀ s k, slotView (update s) k = slotView s k := fun s k ↦ congrFun (hview s) k
  have hallocated : ∀ j, allocation (update y.mem) j = allocation y.mem j := fun j ↦
    congrArg Prod.fst (hslot y.mem j)
  have hghost : transitAccess t update y = y.ghost := by
    refine transitAccess_quiet (fun j h ↦ h.2 ((hallocated j).trans h.1))
      (fun j h ↦ h.1 ((hallocated j).symm.trans h.2)) (fun j ↦ ?_) fun j ↦ ?_
    · have hsame : storedNative update y.mem j = -1 :=
        (congrArg (fun v ↦ v.2.2.2.1) (hslot _ j)).trans
          (congrArg NsslRelay.nativeFd (ShimState.setRelay_self y.mem j _))
      omega
    · have hsame : storedLwip update y.mem j = -1 :=
        (congrArg (fun v ↦ v.2.2.2.2) (hslot _ j)).trans
          (congrArg NsslRelay.lwfd (ShimState.setRelay_self y.mem j _))
      omega
  have hready : ∀ j, ((update y.mem).nsslRelays j).ready = (y.mem.nsslRelays j).ready := fun j ↦
    congrArg (fun v ↦ v.2.1) (hslot y.mem j)
  have hstop : ∀ j, ((update y.mem).nsslRelays j).stop = (y.mem.nsslRelays j).stop := fun j ↦
    congrArg (fun v ↦ v.2.2.1) (hslot y.mem j)
  have hnative : ∀ j, ((update y.mem).nsslRelays j).nativeFd = (y.mem.nsslRelays j).nativeFd :=
    fun j ↦ congrArg (fun v ↦ v.2.2.2.1) (hslot y.mem j)
  have hlwip : ∀ j, ((update y.mem).nsslRelays j).lwfd = (y.mem.nsslRelays j).lwfd := fun j ↦
    congrArg (fun v ↦ v.2.2.2.2) (hslot y.mem j)
  rw [slotsAfter, hghost]
  simp only [transitBoard, Watched.access, hready, hstop, hnative, hlwip]

/-- What the record of a slot says on the board. -/
def Board.withRelay (b : Board) (k : ℕ) (r : NsslRelay) : Board :=
  { b with
    ready := Function.update b.ready k (decide (r.ready ≠ 0))
    stop := Function.update b.stop k (decide (r.stop ≠ 0))
    nativeFd := Function.update b.nativeFd k r.nativeFd
    lwfd := Function.update b.lwfd k r.lwfd }

/-- A board whose slots are read from a table. -/
theorem transitBoard_setRelay (g : TransitHistory) :
    transitBoard (y.access (fun s ↦ s.setRelay k f) g) =
      (transitBoard { y with ghost := g }).withRelay k (f (y.mem.nsslRelays k)) := by
  have hslot : ∀ {β : Type} (view : NsslRelay → β),
      (fun j ↦ view ((y.mem.setRelay k f).nsslRelays j)) =
        Function.update (fun j ↦ view (y.mem.nsslRelays j)) k (view (f (y.mem.nsslRelays k))) := by
    intro β view
    funext j
    by_cases hj : j = k
    · rw [hj, ShimState.setRelay_self, Function.update_self]
    · rw [ShimState.setRelay_of_ne y.mem hj, Function.update_of_ne hj]
  simp only [transitBoard, Board.withRelay, Watched.access, Board.mk.injEq, and_true]
  exact ⟨hslot fun r ↦ decide (r.ready ≠ 0), hslot fun r ↦ decide (r.stop ≠ 0),
    hslot NsslRelay.nativeFd, hslot NsslRelay.lwfd⟩

theorem storedNative_setRelay (s : ShimState) (j : ℕ) :
    storedNative (fun s ↦ s.setRelay k f) s j =
      if j = k then (f { s.nsslRelays k with nativeFd := -1 }).nativeFd else -1 := by
  unfold storedNative
  split
  · rename_i hj
    rw [hj, ShimState.setRelay_self, ShimState.setRelay_self]
  · rename_i hj
    rw [ShimState.setRelay_of_ne _ hj, ShimState.setRelay_self]

theorem storedLwip_setRelay (s : ShimState) (j : ℕ) :
    storedLwip (fun s ↦ s.setRelay k f) s j =
      if j = k then (f { s.nsslRelays k with lwfd := -1 }).lwfd else -1 := by
  unfold storedLwip
  split
  · rename_i hj
    rw [hj, ShimState.setRelay_self, ShimState.setRelay_self]
  · rename_i hj
    rw [ShimState.setRelay_of_ne _ hj, ShimState.setRelay_self]

theorem not_takes_setRelay (h : ∀ r, (f r).allocated = r.allocated) (s : ShimState) (j : ℕ) :
    ¬ Takes (fun s ↦ s.setRelay k f) s j := by
  rintro ⟨hfree, htaken⟩
  exact htaken ((congrFun (allocation_setRelay h s) j).trans hfree)

theorem not_frees_setRelay (h : ∀ r, (f r).allocated = r.allocated) (s : ShimState) (j : ℕ) :
    ¬ Frees (fun s ↦ s.setRelay k f) s j := by
  rintro ⟨htaken, hfree⟩
  exact htaken ((congrFun (allocation_setRelay h s) j).symm.trans hfree)

/-- A store that moves nothing. -/
theorem slotsAfter_setRelay (f : NsslRelay → NsslRelay)
    (hallocated : ∀ r, (f r).allocated = r.allocated)
    (hnative : ∀ r : NsslRelay, (f { r with nativeFd := -1 }).nativeFd < 0)
    (hlwip : ∀ r : NsslRelay, (f { r with lwfd := -1 }).lwfd < 0) :
    slotsAfter t (fun s ↦ s.setRelay k f) y =
      (transitBoard y).withRelay k (f (y.mem.nsslRelays k)) := by
  have hghost : transitAccess t (fun s ↦ s.setRelay k f) y = y.ghost := by
    refine transitAccess_quiet (not_takes_setRelay hallocated y.mem)
      (not_frees_setRelay hallocated y.mem) (fun j ↦ ?_) fun j ↦ ?_
    · rw [storedNative_setRelay]
      split
      · exact hnative _
      · omega
    · rw [storedLwip_setRelay]
      split
      · exact hlwip _
      · omega
  rw [slotsAfter, transitBoard_setRelay, hghost]

theorem filter_relaySlots {p : ℕ → Bool} (hk : k < nsslRelayMax) (hp : ∀ j, p j = true ↔ j = k) :
    relaySlots.filter p = [k] := by
  have hsame : p = fun j ↦ j == k := by
    funext j
    rw [Bool.eq_iff_iff, hp, beq_iff_eq]
  rw [hsame, relaySlots, List.filter_beq,
    List.count_eq_one_of_mem List.nodup_range (List.mem_range.mpr hk)]
  rfl

/-- A bridge stores the descriptor it accepted. -/
theorem slotsAfter_moveNative {fd : ℤ} (hk : k < nsslRelayMax) (hpos : 0 ≤ fd) :
    slotsAfter t (fun s ↦ s.setRelay k fun r ↦ { r with nativeFd := fd }) y =
      { transitBoard y with
        nativeFd := Function.update (transitBoard y).nativeFd k fd
        native := Function.update (Function.update (transitBoard y).native (.accepted t) none)
          (.relay k) (some fd)
        movedNative := ((transitBoard y).accepted t,
          (transitBoard y).natives.releases ((transitBoard y).accepted t)) ::
            (transitBoard y).movedNative } := by
  set update : ShimState → ShimState := fun s ↦ s.setRelay k fun r ↦ { r with nativeFd := fd }
    with hupdate
  have hnative : ∀ j, 0 ≤ storedNative update y.mem j ↔ j = k := by
    intro j
    rw [hupdate, storedNative_setRelay]
    split <;> simp_all
  have hstored : storedNative update y.mem k = fd := by
    rw [hupdate, storedNative_setRelay, if_pos rfl]
  have hlwip : ∀ j, ¬ 0 ≤ storedLwip update y.mem j := by
    intro j
    rw [hupdate, storedLwip_setRelay]
    split <;> simp
  have htakes : ∀ j, ¬ Takes update y.mem j := by
    refine not_takes_setRelay ?_ y.mem
    exact fun _ ↦ rfl
  have hfrees : ∀ j, ¬ Frees update y.mem j := by
    refine not_frees_setRelay ?_ y.mem
    exact fun _ ↦ rfl
  have hhands : (transitAccess t update y).native =
      Function.update (Function.update y.ghost.native (.accepted t) none) (.relay k) (some fd) := by
    funext hand
    cases hand with
    | listener u => rfl
    | accepted u =>
      have hslot : ∃ j ∈ relaySlots, j = k := ⟨k, List.mem_range.mpr hk, rfl⟩
      simp only [transitAccess, hnative, hslot, and_true]
      by_cases hu : u = t <;> simp [Function.update, hu]
    | relay j =>
      simp only [transitAccess, hnative]
      by_cases hj : j = k <;> simp [Function.update, hj, hstored]
  have hmoved : (transitAccess t update y).movedNative =
      (y.ghost.accepted t, y.world.natives.releases (y.ghost.accepted t)) ::
        y.ghost.movedNative := by
    simp only [transitAccess, filter_relaySlots hk fun j ↦ decide_eq_true_iff.trans (hnative j)]
    rfl
  have hghost : transitAccess t update y =
      { y.ghost with
        native := (transitAccess t update y).native
        movedNative := (transitAccess t update y).movedNative } := by
    simp [transitAccess, hlwip, htakes, hfrees]
  rw [slotsAfter, hghost, hhands, hmoved, transitBoard_setRelay]
  simp [transitBoard, Board.withRelay]

/-- A bridge stores its lwIP descriptor. -/
theorem slotsAfter_moveLwip {lwfd : ℤ} (hk : k < nsslRelayMax) (hpos : 0 ≤ lwfd) :
    slotsAfter t (fun s ↦ s.setRelay k fun r ↦ { r with lwfd := lwfd }) y =
      { transitBoard y with
        lwfd := Function.update (transitBoard y).lwfd k lwfd
        lwip := Function.update (transitBoard y).lwip k (some lwfd)
        movedLwip := (lwfd, (transitBoard y).lwipCloses lwfd) :: (transitBoard y).movedLwip } := by
  set update : ShimState → ShimState := fun s ↦ s.setRelay k fun r ↦ { r with lwfd := lwfd }
    with hupdate
  have hlwip : ∀ j, 0 ≤ storedLwip update y.mem j ↔ j = k := by
    intro j
    rw [hupdate, storedLwip_setRelay]
    split <;> simp_all
  have hstored : storedLwip update y.mem k = lwfd := by
    rw [hupdate, storedLwip_setRelay, if_pos rfl]
  have hnative : ∀ j, ¬ 0 ≤ storedNative update y.mem j := by
    intro j
    rw [hupdate, storedNative_setRelay]
    split <;> simp
  have htakes : ∀ j, ¬ Takes update y.mem j := by
    refine not_takes_setRelay ?_ y.mem
    exact fun _ ↦ rfl
  have hfrees : ∀ j, ¬ Frees update y.mem j := by
    refine not_frees_setRelay ?_ y.mem
    exact fun _ ↦ rfl
  have hhands : (transitAccess t update y).native = y.ghost.native := by
    funext hand
    cases hand <;> simp [transitAccess, hnative]
  have hheld : (transitAccess t update y).lwip =
      Function.update y.ghost.lwip k (some lwfd) := by
    funext j
    simp only [transitAccess, hlwip]
    by_cases hj : j = k <;> simp [Function.update, hj, hstored]
  have hmoved : (transitAccess t update y).movedLwip =
      (lwfd, y.world.lwipCloses lwfd) :: y.ghost.movedLwip := by
    simp only [transitAccess, filter_relaySlots hk fun j ↦ decide_eq_true_iff.trans (hlwip j)]
    rw [List.map_singleton, hstored]
    rfl
  have hghost : transitAccess t update y =
      { y.ghost with
        native := (transitAccess t update y).native
        lwip := (transitAccess t update y).lwip
        movedLwip := (transitAccess t update y).movedLwip } := by
    simp [transitAccess, hnative, htakes, hfrees]
  rw [slotsAfter, hghost, hhands, hheld, hmoved, transitBoard_setRelay]
  simp [transitBoard, Board.withRelay]

/-- A compare-exchange on `allocated` changes nothing else. -/
theorem claimRelay_view {β : Type} (view : NsslRelay → β)
    (hview : ∀ r allocated, view { r with allocated := allocated } = view r) (s : ShimState)
    (k j : ℕ) : view ((claimRelay k s).2.nsslRelays j) = view (s.nsslRelays j) := by
  unfold claimRelay
  split
  · by_cases hj : j = k
    · rw [hj, ShimState.setRelay_self, hview]
    · rw [ShimState.setRelay_of_ne s hj]
  · rfl

theorem takes_claim {s : ShimState} (h : (claimRelay k s).1 = true) :
    Takes (fun s ↦ (claimRelay k s).2) s k := by
  change allocation s k = 0 ∧ allocation (claimRelay k s).2 k ≠ 0
  unfold claimRelay at h ⊢
  split
  · rename_i hfree
    refine ⟨hfree, ?_⟩
    rw [allocation, ShimState.setRelay_self]
    exact Int.one_ne_zero
  · rename_i htaken
    rw [if_neg htaken] at h
    cases h

/-- A free slot is reserved. -/
theorem slotsAfter_claim :
    slotsAfter t (fun s ↦ (claimRelay k s).2) y =
      if (claimRelay k y.mem).1 then
        { transitBoard y with keeper := Function.update (transitBoard y).keeper k (some t) }
      else transitBoard y := by
  set update : ShimState → ShimState := fun s ↦ (claimRelay k s).2 with hupdate
  have hnative : ∀ j, ¬ 0 ≤ storedNative update y.mem j := by
    intro j
    rw [hupdate, storedNative, claimRelay_view NsslRelay.nativeFd fun _ _ ↦ rfl,
      ShimState.setRelay_self]
    exact Int.not_le.mpr (Int.negSucc_lt_zero 0)
  have hlwip : ∀ j, ¬ 0 ≤ storedLwip update y.mem j := by
    intro j
    rw [hupdate, storedLwip, claimRelay_view NsslRelay.lwfd fun _ _ ↦ rfl,
      ShimState.setRelay_self]
    exact Int.not_le.mpr (Int.negSucc_lt_zero 0)
  have hother : ∀ j, j ≠ k → allocation (update y.mem) j = allocation y.mem j := by
    intro j hj
    change allocation (claimRelay k y.mem).2 j = allocation y.mem j
    unfold claimRelay
    split
    · exact allocation_setRelay_of_ne y.mem hj fun r ↦ { r with allocated := 1 }
    · rfl
  have hself : (claimRelay k y.mem).1 = true ∧ Takes update y.mem k ∨
      (claimRelay k y.mem).1 = false ∧ allocation (update y.mem) k = allocation y.mem k := by
    change (claimRelay k y.mem).1 = true ∧
      (allocation y.mem k = 0 ∧ allocation (claimRelay k y.mem).2 k ≠ 0) ∨
      (claimRelay k y.mem).1 = false ∧ allocation (claimRelay k y.mem).2 k = allocation y.mem k
    unfold claimRelay
    split
    · rename_i hfree
      refine .inl ⟨rfl, hfree, ?_⟩
      rw [allocation, ShimState.setRelay_self]
      exact Int.one_ne_zero
    · exact .inr ⟨rfl, rfl⟩
  have htakes : ∀ j, Takes update y.mem j ↔ (claimRelay k y.mem).1 = true ∧ j = k := by
    intro j
    by_cases hj : j = k
    · rw [hj]
      rcases hself with ⟨hclaimed, htaken⟩ | ⟨hclaimed, hsame⟩
      · exact iff_of_true htaken ⟨hclaimed, rfl⟩
      · exact iff_of_false (fun h ↦ h.2 (hsame.trans h.1)) fun h ↦ by simp [hclaimed] at h
    · exact iff_of_false (fun h ↦ h.2 ((hother j hj).trans h.1)) fun h ↦ hj h.2
  have hfrees : ∀ j, ¬ Frees update y.mem j := by
    rintro j ⟨htaken, hfree⟩
    by_cases hj : j = k
    · rw [hj] at htaken hfree
      rcases hself with ⟨-, hzero, -⟩ | ⟨-, hsame⟩
      · exact htaken hzero
      · exact htaken (hsame.symm.trans hfree)
    · exact htaken ((hother j hj).symm.trans hfree)
  have hhands : (transitAccess t update y).native = y.ghost.native := by
    funext hand
    cases hand <;> simp [transitAccess, hnative]
  have hkeeper : (transitAccess t update y).keeper =
      if (claimRelay k y.mem).1 then Function.update y.ghost.keeper k (some t)
      else y.ghost.keeper := by
    funext j
    simp only [transitAccess, htakes, hfrees, false_and, if_false]
    cases (claimRelay k y.mem).1 with
    | false => simp
    | true => by_cases hj : j = k <;> simp [hj]
  have hghost : transitAccess t update y =
      { y.ghost with
        keeper := (transitAccess t update y).keeper
        native := (transitAccess t update y).native } := by
    simp [transitAccess, hnative, hlwip]
  have hboard : slotsAfter t update y =
      { transitBoard y with keeper := (transitAccess t update y).keeper } := by
    rw [slotsAfter, hghost, hhands]
    have hview : ∀ {β : Type} (view : NsslRelay → β),
        (∀ r allocated, view { r with allocated := allocated } = view r) →
          (fun j ↦ view ((update y.mem).nsslRelays j)) = fun j ↦ view (y.mem.nsslRelays j) :=
      fun view h ↦ funext fun j ↦ claimRelay_view view h y.mem k j
    simp only [transitBoard, Watched.access, Board.mk.injEq, and_true]
    exact ⟨hview (fun r ↦ decide (r.ready ≠ 0)) fun _ _ ↦ rfl,
      hview (fun r ↦ decide (r.stop ≠ 0)) fun _ _ ↦ rfl, hview NsslRelay.nativeFd fun _ _ ↦ rfl,
      hview NsslRelay.lwfd fun _ _ ↦ rfl⟩
  rw [hboard, hkeeper]
  split <;> rfl

/-- A slot is freed, and forgotten if the thread has reserved it. -/
theorem slotsAfter_free :
    slotsAfter t (freeRelay k) y = transitBoard y ∨
      (transitBoard y).keeper k = some t ∧
        slotsAfter t (freeRelay k) y =
          { transitBoard y with keeper := Function.update (transitBoard y).keeper k none } := by
  have hnative : ∀ j, ¬ 0 ≤ storedNative (freeRelay k) y.mem j := by
    intro j
    change ¬ 0 ≤ storedNative (fun s ↦ s.setRelay k fun r ↦ { r with allocated := 0 }) y.mem j
    rw [storedNative_setRelay]
    split <;> simp
  have hlwip : ∀ j, ¬ 0 ≤ storedLwip (freeRelay k) y.mem j := by
    intro j
    change ¬ 0 ≤ storedLwip (fun s ↦ s.setRelay k fun r ↦ { r with allocated := 0 }) y.mem j
    rw [storedLwip_setRelay]
    split <;> simp
  have htakes : ∀ j, ¬ Takes (freeRelay k) y.mem j := by
    rintro j ⟨hfree, htaken⟩
    by_cases hj : j = k
    · rw [hj] at htaken
      exact htaken (allocation_freeRelay y.mem k)
    · exact htaken ((allocation_freeRelay_of_ne y.mem hj).trans hfree)
  have hfrees : ∀ j, Frees (freeRelay k) y.mem j → j = k := by
    rintro j ⟨htaken, hfree⟩
    by_contra hj
    exact htaken ((allocation_freeRelay_of_ne y.mem hj).symm.trans hfree)
  have hhands : (transitAccess t (freeRelay k) y).native = y.ghost.native := by
    funext hand
    cases hand <;> simp [transitAccess, hnative]
  have hghost : transitAccess t (freeRelay k) y =
      { y.ghost with
        keeper := (transitAccess t (freeRelay k) y).keeper
        native := (transitAccess t (freeRelay k) y).native } := by
    simp [transitAccess, hnative, hlwip]
  have hboard : slotsAfter t (freeRelay k) y =
      { transitBoard y with keeper := (transitAccess t (freeRelay k) y).keeper } := by
    rw [slotsAfter, hghost, hhands]
    change transitBoard (y.access (fun s ↦ s.setRelay k fun r ↦ { r with allocated := 0 }) _) = _
    rw [transitBoard_setRelay]
    simp [transitBoard, Board.withRelay]
  have hkeeper : ∀ j, (transitAccess t (freeRelay k) y).keeper j =
      if Frees (freeRelay k) y.mem j ∧ y.ghost.keeper j = some t then none
      else y.ghost.keeper j := fun j ↦ if_neg (htakes j)
  rw [hboard]
  by_cases hback : Frees (freeRelay k) y.mem k ∧ y.ghost.keeper k = some t
  · refine .inr ⟨hback.2, ?_⟩
    have hsame : (transitAccess t (freeRelay k) y).keeper =
        Function.update y.ghost.keeper k none := by
      funext j
      rw [hkeeper]
      by_cases hj : j = k
      · rw [hj, if_pos hback, Function.update_self]
      · rw [if_neg fun h ↦ hj (hfrees j h.1), Function.update_of_ne hj]
    rw [hsame]
    rfl
  · refine .inl ?_
    have hsame : (transitAccess t (freeRelay k) y).keeper = y.ghost.keeper := by
      funext j
      rw [hkeeper]
      refine if_neg fun h ↦ ?_
      rw [hfrees j h.1] at h
      exact hback h
    rw [hsame]
    rfl

/-! ### Rules for a thread -/

variable {p q : Board → Prop}

/-- Assertions about the board that others leave true. -/
theorem steady_onBoard (hp : Board.Steady t p) :
    transitProtocol.Steady t fun x ↦ p (transitBoard x) :=
  fun x y hx hrely _ ↦ hp (transitBoard x) (transitBoard y) hx hrely

section Rules

variable {α β : Type} {post : α → Board → Prop}

theorem transit_pure {value : α} (hx : post value (transitBoard x)) :
    TransitSecure t (pure value) post x := hx

/-- One program after the other. -/
theorem transit_seq {program : ShimM α} {next : α → ShimM β} {post' : β → Board → Prop}
    (hprogram : TransitSecure t program post x)
    (hnext : ∀ value y, post value (transitBoard y) → TransitSecure t (next value) post' y) :
    TransitSecure t (program >>= next) post' x :=
  (secure_bind _ _ _ _).mpr (secure_mono hprogram hnext)

theorem transit_mono {program : ShimM α} {post' : α → Board → Prop}
    (hprogram : TransitSecure t program post x) (hpost : ∀ value b, post value b → post' value b) :
    TransitSecure t program post' x :=
  secure_mono hprogram fun value y ↦ hpost value (transitBoard y)

/-- One atomic access to the slots. -/
theorem transit_rmw {next : ShimState → ShimM α} (hp : Board.Steady t p) (hx : p (transitBoard x))
    (hstep : ∀ y, p (transitBoard y) → (transitBoard y).Inv → Allows update y →
      BoardStep t (transitBoard y) (slotsAfter t update y) ∧
        TransitSecure t (next y.mem) post (y.access update (transitAccess t update y))) :
    TransitSecure t (.rmw update next) post x := by
  refine secure_rmw hx (steady_onBoard hp) fun y g hy hinv haccess ↦ ?_
  obtain ⟨hallows, rfl⟩ := transitMonitor_access haccess
  obtain ⟨hboard, hrest⟩ := hstep y hy hinv hallows
  exact ⟨permits_of_boardStep hinv hboard, hrest⟩

theorem transit_store {post : Unit → Board → Prop} (hp : Board.Steady t p)
    (hx : p (transitBoard x))
    (hstep : ∀ y, p (transitBoard y) → (transitBoard y).Inv → Allows update y →
      BoardStep t (transitBoard y) (slotsAfter t update y) ∧ post () (slotsAfter t update y)) :
    TransitSecure t (store update) post x :=
  transit_rmw hp hx hstep

theorem transit_load {view : ShimState → α} (hp : Board.Steady t p) (hx : p (transitBoard x))
    (hstep : ∀ y, p (transitBoard y) → (transitBoard y).Inv → post (view y.mem) (transitBoard y)) :
    TransitSecure t (load view) post x :=
  transit_rmw hp hx fun y hy hinv _ ↦ by
    have hboard : slotsAfter t id y = transitBoard y := slotsAfter_view fun _ ↦ rfl
    refine ⟨hboard ▸ .skip, ?_⟩
    change post (view y.mem) (slotsAfter t id y)
    rw [hboard]
    exact hstep y hy hinv

end Rules

/-- After the reply to a call. -/
abbrev passed (t : RelayThread) (y : TransitWatched) (request : ShimCall) (answer : ShimReply)
    (w : TransitWorld) : TransitWatched :=
  { mem := y.mem, world := w, ghost := transitReply t y request answer }

/-- A call that ends in an assertion about the board. -/
theorem transit_perform {request : ShimCall} {post : ShimReply → Board → Prop}
    (hp : Board.Steady t p) (hx : p (transitBoard x))
    (hstep : ∀ y answer w, p (transitBoard y) → (transitBoard y).Inv →
      transitEffect y.world request answer = some w →
      BoardStep t (transitBoard y) (transitBoard (passed t y request answer w)) ∧
        post answer (transitBoard (passed t y request answer w))) :
    TransitSecure t (perform request) post x := by
  refine secure_perform hx (steady_onBoard hp) fun y hy hinv ↦
    ⟨trivial, fun answer z g hreply haccepted ↦ ?_⟩
  obtain ⟨w, heffect, rfl⟩ := Option.map_eq_some_iff.mp hreply
  obtain rfl := Option.some.inj haccepted
  obtain ⟨hboard, hpost⟩ := hstep y answer w hy hinv heffect
  exact ⟨permits_of_boardStep hinv hboard, hpost⟩

/-- Calls that open, close, create and join nothing. -/
def Apart : ShimCall → Prop
  | .native (.socket _ _ _) => False
  | .native (.accept _ _ _) => False
  | .native (.socketclose _) => False
  | .lwip (.close _) => False
  | .os (.osCreateThread _) => False
  | .os (.osResumeThread _) => False
  | .os (.osJoinThread _) => False
  | .note (.workerExit _) => False
  | _ => True

theorem transitBoard_apart {request : ShimCall} (hrequest : Apart request) {answer : ShimReply}
    {w : TransitWorld} (heffect : transitEffect y.world request answer = some w) :
    transitBoard (passed t y request answer w) = transitBoard y := by
  have hghost : transitReply t y request answer = y.ghost := by
    unfold transitReply
    split <;> first | exact False.elim hrequest | rfl
  have hworld : w = y.world := by
    unfold transitEffect at heffect
    split at heffect
    all_goals try exact False.elim hrequest
    obtain ⟨threads, hthreads, rfl⟩ := Option.map_eq_some_iff.mp heffect
    have hsame : threads = y.world.threads := by
      unfold workerEffect at hthreads
      split at hthreads
      all_goals try exact False.elim hrequest
      · split at hthreads
        · exact (Option.some.inj hthreads).symm
        · cases hthreads
      · exact (Option.some.inj hthreads).symm
    rw [hsame]
  rw [passed, hghost, hworld]

/-- What leaves the slots and the descriptors alone leaves the board alone. -/
theorem transit_keeps {α : Type} {program : ShimM α} (hkeeps : Keeps slotView Apart program)
    (hp : Board.Steady t p) (hx : p (transitBoard x)) :
    TransitSecure t program (fun _ ↦ p) x := by
  refine secure_keeps hkeeps (steady_onBoard hp) (fun y update g hview hinv hy haccess ↦ ?_)
    (fun y request hrequest hinv hy ↦ ⟨trivial, fun answer z g hreply haccepted ↦ ?_⟩) hx
  · obtain ⟨-, rfl⟩ := transitMonitor_access haccess
    have hboard : transitBoard (y.access update (transitAccess t update y)) = transitBoard y :=
      slotsAfter_view hview
    refine ⟨permits_of_boardStep hinv ?_, ?_⟩
    · exact hboard ▸ .skip
    · exact hboard.symm ▸ hy
  · obtain ⟨w, heffect, rfl⟩ := Option.map_eq_some_iff.mp hreply
    obtain rfl := Option.some.inj haccepted
    have hboard : transitBoard (passed t y request answer w) = transitBoard y :=
      transitBoard_apart hrequest heffect
    refine ⟨permits_of_boardStep hinv ?_, ?_⟩
    · exact hboard ▸ .skip
    · exact hboard.symm ▸ hy

end Ax88179Aroma.Shim
