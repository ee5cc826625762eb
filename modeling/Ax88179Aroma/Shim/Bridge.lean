import Ax88179Aroma.Shim.Frames

/-!
# What a failed bridge leaves behind

`bridge_ax_socket_to_nssl` reserves a relay, makes a listener on the loopback interface, connects
the native placeholder to it, accepts the other end and hands both descriptors to the relay.  Each
of its failures undoes by hand what was done before.  The world keeps which native sockets are open
and which are connected, and how the calls of the bridge ended.
-/

namespace Ax88179Aroma.Shim.Bridge

open Effect Program

variable {α : Type}

/-! ## The world -/

structure BridgeWorld where
  native : ℤ → Bool := fun _ ↦ false
  connected : ℤ → Bool := fun _ ↦ false
  lwip : ℤ → Bool := fun _ ↦ false
  /-- the relay slots whose thread runs -/
  thread : ℕ → Bool := fun _ ↦ false
  /-- the slot whose thread was created in the call -/
  reserved : Option ℕ := none
  /-- whether `accept` succeeded, where it was called -/
  accepted : Option Bool := none
  /-- a `socketclose` failed -/
  unclosed : Bool := false

namespace BridgeWorld

def openNative (w : BridgeWorld) (fd : ℤ) : Option BridgeWorld :=
  if fd < 0 then some w
  else if w.native fd = false then some { w with native := Function.update w.native fd true }
  else none

def closeNative (w : BridgeWorld) (fd code : ℤ) : BridgeWorld :=
  if code = 0 then { w with
    native := Function.update w.native fd false
    connected := Function.update w.connected fd false }
  else { w with unclosed := true }

end BridgeWorld

/-- What a call with a given answer does to the world; nsysnet's errors are not negative. -/
def bridgeEffect (w : BridgeWorld) : ShimCall → ShimReply → Option BridgeWorld
  | .native (.socket _ _ _), answer => w.openNative answer.code
  | .native (.accept _ _ _), answer =>
    (w.openNative answer.code).map fun w ↦ { w with accepted := some (decide (0 ≤ answer.code)) }
  | .native (.connect fd _ _), answer =>
    some (if answer.code = 0 then { w with connected := Function.update w.connected fd true } else w)
  | .native (.socketclose fd), answer => some (w.closeNative fd answer.code)
  | .native .socketlasterr, answer => if answer.code < 0 then none else some w
  | .lwip (.close lwfd), answer =>
    some (if answer.code = 0 then { w with lwip := Function.update w.lwip lwfd false } else w)
  | .os (.osCreateThread slot), answer =>
    some (if answer.code = 0 then w
      else { w with thread := Function.update w.thread slot true, reserved := some slot })
  | .os (.osIsThreadTerminated slot), answer =>
    if answer.code ≠ 0 ↔ w.thread slot = false then some w else none
  | _, _ => some w

abbrev BridgeMachine := Machine ShimState BridgeWorld

def bridgeReply : Replies ShimState BridgeWorld ShimCall ShimReply := fun request answer x ↦
  (bridgeEffect x.world request answer).map fun w ↦ { x with world := w }

/-- Before the call. -/
def started (x : BridgeMachine) : BridgeMachine :=
  { x with world := { x.world with reserved := none, accepted := none, unclosed := false } }

/-- The thread of a slot has ended. -/
def terminated (slot : ℕ) (x : BridgeMachine) : BridgeMachine :=
  { x with world := { x.world with thread := Function.update x.world.thread slot false } }

/-! ## The tables -/

structure RelayTable where
  allocated : ℤ
  stop : ℤ
  nativeFd : ℤ
  lwfd : ℤ

/-- What the bridge reads and writes. -/
structure BridgeTables where
  openMask : BitVec 32
  mappedFd : ℕ → ℤ
  relays : ℕ → RelayTable

def relayTable (r : NsslRelay) : RelayTable where
  allocated := r.allocated
  stop := r.stop
  nativeFd := r.nativeFd
  lwfd := r.lwfd

def bridgeTables (s : ShimState) : BridgeTables where
  openMask := s.openMask
  mappedFd := s.mappedFd
  relays slot := relayTable (s.nsslRelays slot)

def BridgeTables.setRelay (t : BridgeTables) (slot : ℕ) (r : RelayTable) : BridgeTables :=
  { t with relays := Function.update t.relays slot r }

@[simp]
theorem BridgeTables.setRelay_self (t : BridgeTables) (slot : ℕ) (r : RelayTable) :
    (t.setRelay slot r).relays slot = r := Function.update_self _ _ _

theorem BridgeTables.setRelay_of_ne (t : BridgeTables) {slot other : ℕ} (hne : other ≠ slot)
    (r : RelayTable) : (t.setRelay slot r).relays other = t.relays other :=
  Function.update_of_ne hne _ _

theorem bridgeTables_setRelay (s : ShimState) (slot : ℕ) (update : NsslRelay → NsslRelay) :
    bridgeTables (s.setRelay slot update) =
      (bridgeTables s).setRelay slot (relayTable (update (s.nsslRelays slot))) := by
  have hrelays : (bridgeTables (s.setRelay slot update)).relays =
      ((bridgeTables s).setRelay slot (relayTable (update (s.nsslRelays slot)))).relays := by
    funext other
    by_cases hsame : other = slot
    · rw [hsame, BridgeTables.setRelay_self]
      simp only [bridgeTables, ShimState.setRelay_self]
    · rw [BridgeTables.setRelay_of_ne _ hsame]
      simp only [bridgeTables, ShimState.setRelay_of_ne s hsame]
  exact congrArg (fun relays ↦ ({ bridgeTables s with relays := relays } : BridgeTables)) hrelays

/-- An assertion about what the bridge depends on. -/
def At (P : BridgeTables → BridgeWorld → Prop) (x : BridgeMachine) : Prop :=
  P (bridgeTables x.mem) x.world

/-! ## What the bridge promises -/

/-- The descriptor is AX's: it has an open placeholder and no relay has its lwIP descriptor. -/
structure Held (sockfd : ℤ) (x : BridgeMachine) : Prop where
  owned : AxOwned sockfd x.mem
  placeholder : x.world.native sockfd = true
  exclusive : ∀ slot < nsslRelayMax, (x.mem.nsslRelays slot).allocated ≠ 0 →
    (x.mem.nsslRelays slot).lwfd ≠ x.mem.mappedFd sockfd.toNat

def Closes : ShimCall → Prop
  | .native (.socketclose _) => True
  | .native .socketcloseAll => True
  | .lwip (.close _) => True
  | _ => False

/-- The worker of the slot ends without a close, and the next `nssl_relay_reap` frees the slot. -/
structure Released (slot : ℕ) (x : BridgeMachine) : Prop where
  quiet : ∀ fuel request y, Makes bridgeReply (nsslRelayWorker slot fuel) x request y →
    ¬ Closes request
  ends : ∃ y, Exec bridgeReply (nsslRelayWorker slot 1) x () y
  freed : ∀ fuel y z, Exec bridgeReply (nsslRelayWorker slot fuel) x () y →
    Exec bridgeReply nsslRelayReap (terminated slot y) () z →
    (z.mem.nsslRelays slot).allocated = 0

/-- From `x` to `y` with the result `code`: everything as before, or the relay has the socket. -/
structure Restored (sockfd : ℤ) (x y : BridgeMachine) (code : ℤ) : Prop where
  failed : code ≤ 0 → y.mem.openMask = x.mem.openMask ∧ y.mem.mappedFd = x.mem.mappedFd ∧
    y.world.native = x.world.native ∧ y.world.lwip = x.world.lwip ∧
    y.world.connected sockfd = false ∧ ∀ slot, y.world.reserved = some slot → Released slot y
  bridged : code = 1 → y.mem.openMask.getLsbD sockfd.toNat = false ∧
    ∃ slot < nsslRelayMax, ∀ other < nsslRelayMax,
      (y.mem.nsslRelays other).allocated ≠ 0 ∧
        (y.mem.nsslRelays other).lwfd = x.mem.mappedFd sockfd.toNat ↔ other = slot

/-! ## Frames -/

/-- Calls that the bridge does not depend on. -/
def Quiet : ShimCall → Prop
  | .native (.socket _ _ _) => False
  | .native (.accept _ _ _) => False
  | .native (.connect _ _ _) => False
  | .native (.socketclose _) => False
  | .lwip (.close _) => False
  | .os (.osCreateThread _) => False
  | _ => True

theorem bridgeReply_quiet {request : ShimCall} (hquiet : Quiet request) {answer : ShimReply}
    {x y : BridgeMachine} (hreply : bridgeReply request answer x = some y) : y = x := by
  obtain ⟨w, heffect, rfl⟩ := Option.map_eq_some_iff.mp hreply
  have hsame : w = x.world := by
    unfold bridgeEffect at heffect
    split at heffect
    all_goals try first | exact False.elim hquiet
    · split at heffect
      · cases heffect
      · exact (Option.some.inj heffect).symm
    · split at heffect
      · exact (Option.some.inj heffect).symm
      · cases heffect
    · exact (Option.some.inj heffect).symm
  rw [hsame]

abbrev bridgeWp (program : ShimM α) (post : α → BridgeMachine → Prop) (x : BridgeMachine) : Prop :=
  wp bridgeReply (fun _ _ ↦ True) program post x

section Frames

variable {P : BridgeTables → BridgeWorld → Prop} {x : BridgeMachine} {allowed : ShimCall → Prop}

theorem bridge_frame {program : ShimM α} (hkeeps : Keeps bridgeTables Quiet program)
    (hx : At P x) : bridgeWp program (fun _ ↦ At P) x := by
  refine wp_keeps hkeeps (fun y mem hmem hy ↦ ?_) (fun request answer y z hquiet hy hreply ↦ ?_)
    (fun _ _ _ _ ↦ trivial) hx
  · change P (bridgeTables mem) y.world
    rw [hmem]
    exact hy
  · rw [bridgeReply_quiet hquiet hreply]
    exact hy

/-- A call with its effect on the world. -/
theorem bridge_perform {request : ShimCall} {post : ShimReply → BridgeMachine → Prop}
    (hpost : ∀ answer w, bridgeEffect x.world request answer = some w →
      post answer { x with world := w }) : bridgeWp (perform request) post x := by
  refine ⟨trivial, fun answer y hreply ↦ ?_⟩
  obtain ⟨w, heffect, rfl⟩ := Option.map_eq_some_iff.mp hreply
  exact hpost answer w heffect

theorem bridge_storeRelay {slot : ℕ} {update : NsslRelay → NsslRelay}
    (hx : P ((bridgeTables x.mem).setRelay slot (relayTable (update (x.mem.nsslRelays slot))))
      x.world) : bridgeWp (storeRelay slot update) (fun _ ↦ At P) x := by
  rw [← bridgeTables_setRelay] at hx
  exact hx

theorem keeps_storeRelay {slot : ℕ} {update : NsslRelay → NsslRelay}
    (hupdate : ∀ r, relayTable (update r) = relayTable r) :
    Keeps bridgeTables allowed (storeRelay slot update) := by
  refine keeps_store fun s ↦ ?_
  rw [bridgeTables_setRelay, hupdate]
  exact congrArg (fun relays ↦ ({ bridgeTables s with relays := relays } : BridgeTables))
    (Function.update_eq_self slot (bridgeTables s).relays)

theorem keeps_lwip {request : LwipCall} (hallowed : allowed (.lwip request)) :
    Keeps bridgeTables allowed (lwip request) :=
  Keeps.bind (keeps_perform hallowed) fun _ ↦
    Keeps.bind (keeps_store fun _ ↦ rfl) fun _ ↦ keeps_pure _

end Frames

/-! ## The slot -/

/-- The relay was told to stop before it got a descriptor. -/
def Stopped (slot : ℕ) (t : BridgeTables) : Prop :=
  slot < nsslRelayMax ∧ (t.relays slot).allocated ≠ 0 ∧ (t.relays slot).stop ≠ 0 ∧
    (t.relays slot).nativeFd < 0 ∧ (t.relays slot).lwfd < 0

section Slot

variable {slot : ℕ} {x : BridgeMachine}

/-- A stopped worker leaves the loop at once and closes nothing. -/
theorem wp_worker_stopped (hx : At (fun t _ ↦ Stopped slot t) x) (fuel : ℕ) :
    wp bridgeReply (fun request _ ↦ ¬ Closes request) (nsslRelayWorker slot fuel)
      (fun _ y ↦ (y.mem.nsslRelays slot).done = 1) x := by
  obtain ⟨-, -, hstop, hnative, hlwfd⟩ := hx
  replace hstop : (x.mem.nsslRelays slot).stop ≠ 0 := hstop
  replace hnative : (x.mem.nsslRelays slot).nativeFd < 0 := hnative
  replace hlwfd : (x.mem.nsslRelays slot).lwfd < 0 := hlwfd
  cases fuel with
  | zero => trivial
  | succ fuel =>
    refine (wp_bind _ _ _ _).mpr ((wp_bind _ _ _ _).mpr ((wp_load _ _ _).mpr ?_))
    rw [if_pos hstop]
    refine (wp_bind _ _ _ _).mpr ((wp_load _ _ _).mpr ?_)
    rw [wp_pure, decide_eq_false hstop]
    refine (wp_bind _ _ _ _).mpr ?_
    rw [wp_when, if_neg Bool.false_ne_true]
    refine (wp_bind _ _ _ _).mpr ((wp_load _ _ _).mpr ((wp_bind _ _ _ _).mpr ?_))
    rw [wp_when, if_neg (by omega)]
    refine (wp_bind _ _ _ _).mpr ((wp_load _ _ _).mpr ((wp_bind _ _ _ _).mpr ?_))
    rw [wp_when, if_neg (by omega)]
    refine (wp_bind _ _ _ _).mpr ((wp_store _ _ _).mpr ((wp_store _ _ _).mpr ?_))
    simp

theorem exec_worker_stopped (hx : At (fun t _ ↦ Stopped slot t) x) :
    ∃ y, Exec bridgeReply (nsslRelayWorker slot 1) x () y := by
  obtain ⟨-, -, hstop, hnative, hlwfd⟩ := hx
  replace hstop : (x.mem.nsslRelays slot).stop ≠ 0 := hstop
  replace hnative : ¬ (x.mem.nsslRelays slot).nativeFd ≥ 0 := Int.not_le.mpr hnative
  replace hlwfd : ¬ (x.mem.nsslRelays slot).lwfd ≥ 0 := Int.not_le.mpr hlwfd
  have hload : ∀ {β : Type} (view : NsslRelay → β),
      Exec bridgeReply (loadRelay slot view) x (view (x.mem.nsslRelays slot)) x :=
    fun _ ↦ .rmw (.done _ _)
  have hskip : ∀ {condition : Prop} [Decidable condition] (program : ShimM Unit), ¬ condition →
      Exec bridgeReply (when condition program) x () x := fun program hfalse ↦ by
    rw [when, if_neg hfalse]
    exact .done _ _
  have hwait : Exec bridgeReply (relayWait slot 1) x false x := by
    refine .bind (hload NsslRelay.stop) ?_
    rw [if_pos hstop]
    refine .bind (hload NsslRelay.stop) ?_
    rw [decide_eq_false hstop]
    exact .done _ _
  have hmark : ∃ y, Exec bridgeReply (do
      storeRelay slot fun r ↦ { r with publicFd := -1 }
      storeRelay slot fun r ↦ { r with done := 1 }) x () y :=
    ⟨_, .bind (.rmw (.done _ _)) (.rmw (.done _ _))⟩
  obtain ⟨y, hmark⟩ := hmark
  refine ⟨y, .bind hwait (.bind (hskip _ Bool.false_ne_true) ?_)⟩
  refine .bind (hload NsslRelay.nativeFd) (.bind (hskip _ hnative) ?_)
  exact .bind (hload NsslRelay.lwfd) (.bind (hskip _ hlwfd) hmark)

/-- `nssl_relay_reap` on one slot. -/
theorem wp_reapSlot (item : ℕ) : bridgeWp (reapSlot item) (fun _ z ↦ z.world = x.world ∧
    z.mem.openMask = x.mem.openMask ∧ z.mem.mappedFd = x.mem.mappedFd ∧
    (∀ other, other ≠ item → z.mem.nsslRelays other = x.mem.nsslRelays other) ∧
    (z.mem.nsslRelays item = x.mem.nsslRelays item ∧
        ((x.mem.nsslRelays item).done ≠ 0 → x.world.thread item = false →
          (x.mem.nsslRelays item).allocated = 0) ∨
      z.mem.nsslRelays item = { x.mem.nsslRelays item with publicFd := -1, allocated := 0 })) x := by
  have hreapable : bridgeWp (reapable item) (fun free y ↦ y = x ∧ (free = false →
      (x.mem.nsslRelays item).done ≠ 0 → x.world.thread item = false →
        (x.mem.nsslRelays item).allocated = 0)) x := by
    refine (wp_bind _ _ _ _).mpr ((wp_load _ _ _).mpr ?_)
    refine wp_cases (fun hallocated ↦ ⟨rfl, fun _ _ _ ↦ hallocated⟩) fun _ ↦ ?_
    refine (wp_bind _ _ _ _).mpr ((wp_load _ _ _).mpr ?_)
    refine wp_cases (fun hdone ↦ ⟨rfl, fun _ hne ↦ absurd hdone hne⟩) fun _ ↦ ?_
    refine (wp_bind _ _ _ _).mpr (bridge_perform fun answer w heffect ↦ ?_)
    simp only [bridgeEffect] at heffect
    split at heffect
    · rename_i hterminated
      cases heffect
      refine ⟨rfl, fun hbusy _ hdead ↦ ?_⟩
      exact absurd (hterminated.mpr hdead) (of_decide_eq_false hbusy)
    · cases heffect
  refine wp_seq hreapable ?_
  rintro free _ ⟨rfl, hkept⟩
  refine wp_cases (fun _ ↦ ?_) fun hbusy ↦ ?_
  · refine (wp_bind _ _ _ _).mpr ((wp_bind _ _ _ _).mpr (bridge_perform fun answer w heffect ↦ ?_))
    cases heffect
    refine (wp_bind _ _ _ _).mpr ((wp_store _ _ _).mpr ((wp_store _ _ _).mpr ?_))
    refine ⟨rfl, rfl, rfl, fun other hother ↦ ?_, .inr ?_⟩
    · simp only [ShimState.setRelay_of_ne _ hother]
    · simp only [ShimState.setRelay_self]
  · exact ⟨rfl, rfl, rfl, fun _ _ ↦ rfl, .inl ⟨rfl, hkept (by simpa using hbusy)⟩⟩

/-- A slot whose worker has ended is free after `nssl_relay_reap`. -/
theorem wp_reap_done (hslot : slot < nsslRelayMax) (hdone : (x.mem.nsslRelays slot).done ≠ 0)
    (hdead : x.world.thread slot = false) :
    bridgeWp nsslRelayReap (fun _ z ↦ (z.mem.nsslRelays slot).allocated = 0) x := by
  have hall : bridgeWp nsslRelayReap (fun _ z ↦
      ((z.mem.nsslRelays slot).done ≠ 0 ∧ z.world.thread slot = false) ∧
        ∀ item ∈ List.range nsslRelayMax, item = slot → (z.mem.nsslRelays slot).allocated = 0)
      x := by
    refine wp_each_mem ⟨hdone, hdead⟩ fun item y hy ↦ ?_
    refine wp_mono (wp_reapSlot item) fun _ z hz ↦ ?_
    obtain ⟨hworld, -, -, hothers, hitem⟩ := hz
    by_cases hsame : item = slot
    · subst hsame
      rcases hitem with ⟨heq, hfree⟩ | heq
      · have hallocated : (z.mem.nsslRelays item).allocated = 0 := heq ▸ hfree hy.1 hy.2
        exact ⟨⟨heq ▸ hy.1, hworld ▸ hy.2⟩, fun _ ↦ hallocated, fun _ _ _ ↦ hallocated⟩
      · have hallocated : (z.mem.nsslRelays item).allocated = 0 := by rw [heq]
        exact ⟨⟨heq ▸ hy.1, hworld ▸ hy.2⟩, fun _ ↦ hallocated, fun _ _ _ ↦ hallocated⟩
    · have heq := hothers slot (Ne.symm hsame)
      refine ⟨⟨heq ▸ hy.1, hworld ▸ hy.2⟩, fun h ↦ absurd h hsame, fun other hother h ↦ ?_⟩
      rw [heq]
      exact hother h
  exact wp_mono hall fun _ z hz ↦ hz.2 slot (List.mem_range.mpr hslot) rfl

theorem released_of_stopped (hx : At (fun t _ ↦ Stopped slot t) x) : Released slot x where
  quiet fuel _ _ hmakes := hmakes.pre_of_wp (wp_worker_stopped hx fuel)
  ends := exec_worker_stopped hx
  freed fuel y z hworker hreap := by
    have hdone := hworker.post_of_wp (wp_worker_stopped hx fuel)
    refine hreap.post_of_wp (wp_reap_done hx.1 ?_ (Function.update_self _ _ _))
    exact (show (y.mem.nsslRelays slot).done = 1 from hdone) ▸ Int.one_ne_zero

end Slot

/-! ## The stages of the bridge -/

/-- What no stage before the hand-over changes. -/
structure Calm (sockfd : ℤ) (x₀ : BridgeMachine) (t : BridgeTables) (w : BridgeWorld) : Prop where
  mask : t.openMask = x₀.mem.openMask
  mapped : t.mappedFd = x₀.mem.mappedFd
  lwip : w.lwip = x₀.world.lwip
  accepted : w.accepted = none
  exclusive : ∀ slot < nsslRelayMax, w.reserved ≠ some slot → (t.relays slot).allocated ≠ 0 →
    (t.relays slot).lwfd ≠ x₀.mem.mappedFd sockfd.toNat

/-- No relay is reserved. -/
structure Idle (sockfd : ℤ) (x₀ : BridgeMachine) (t : BridgeTables) (w : BridgeWorld) : Prop
    extends Calm sockfd x₀ t w where
  reserved : w.reserved = none
  native : w.native = x₀.world.native
  connected : w.connected = x₀.world.connected
  unclosed : w.unclosed = false

/-- The slot is reserved, and the native sockets are those in `native`. -/
structure Bridging (sockfd : ℤ) (x₀ : BridgeMachine) (slot : ℕ) (native : ℤ → Bool)
    (t : BridgeTables) (w : BridgeWorld) : Prop extends Calm sockfd x₀ t w where
  reserved : w.reserved = some slot
  slot_lt : slot < nsslRelayMax
  allocated : (t.relays slot).allocated ≠ 0
  waiting : (t.relays slot).nativeFd < 0 ∧ (t.relays slot).lwfd < 0
  native : w.native = native
  connected : w.connected = x₀.world.connected
  unclosed : w.unclosed = false

/-- The same once the listener is closed, if that succeeded. -/
structure Closed (sockfd : ℤ) (x₀ : BridgeMachine) (slot : ℕ) (t : BridgeTables)
    (w : BridgeWorld) : Prop extends Calm sockfd x₀ t w where
  reserved : w.reserved = some slot
  slot_lt : slot < nsslRelayMax
  allocated : (t.relays slot).allocated ≠ 0
  waiting : (t.relays slot).nativeFd < 0 ∧ (t.relays slot).lwfd < 0
  native : w.native = x₀.world.native ↔ w.unclosed = false
  connected : w.connected sockfd = x₀.world.connected sockfd

/-- The bridge failed before `accept`. -/
structure Failed (sockfd : ℤ) (x₀ : BridgeMachine) (t : BridgeTables) (w : BridgeWorld) : Prop
    extends Calm sockfd x₀ t w where
  native : w.native = x₀.world.native ↔ w.unclosed = false
  connected : w.connected sockfd = x₀.world.connected sockfd
  slot : ∀ slot, w.reserved = some slot → Stopped slot t

/-- The ways to return from the bridge. -/
inductive Outcome (sockfd : ℤ) (x₀ : BridgeMachine) (code : ℤ) (t : BridgeTables)
    (w : BridgeWorld) : Prop where
  | failed (hcode : code ≤ 0) (h : Failed sockfd x₀ t w)
  | refused (hcode : code ≤ 0) (haccepted : w.accepted = some false)
      (hconnected : w.connected sockfd = true)
  | bridged (hcode : code = 1) (haccepted : w.accepted = some true)
      (hmask : t.openMask.getLsbD sockfd.toNat = false)
      (hrelay : ∃ slot < nsslRelayMax, ∀ other < nsslRelayMax, (t.relays other).allocated ≠ 0 ∧
        (t.relays other).lwfd = x₀.mem.mappedFd sockfd.toNat ↔ other = slot)

section Stages

variable {sockfd : ℤ} {x₀ x : BridgeMachine} {slot : ℕ} {native : ℤ → Bool}
  {t : BridgeTables} {w w' : BridgeWorld}

theorem Calm.setRelay (h : Calm sockfd x₀ t w) {r : RelayTable}
    (hrelay : w.reserved ≠ some slot → r.allocated ≠ 0 →
      r.lwfd ≠ x₀.mem.mappedFd sockfd.toNat) : Calm sockfd x₀ (t.setRelay slot r) w := by
  refine { h with exclusive := fun other hother hfree hallocated ↦ ?_ }
  by_cases hsame : other = slot
  · subst hsame
    rw [BridgeTables.setRelay_self] at hallocated ⊢
    exact hrelay hfree hallocated
  · rw [BridgeTables.setRelay_of_ne _ hsame] at hallocated ⊢
    exact h.exclusive other hother hfree hallocated

theorem Idle.setRelay (h : Idle sockfd x₀ t w) {r : RelayTable}
    (hrelay : r.allocated ≠ 0 → r.lwfd ≠ x₀.mem.mappedFd sockfd.toNat) :
    Idle sockfd x₀ (t.setRelay slot r) w :=
  { h with toCalm := h.toCalm.setRelay fun _ ↦ hrelay }

/-- Without a reserved slot a failure leaves everything. -/
theorem Idle.failed (h : Idle sockfd x₀ t w) : Failed sockfd x₀ t w where
  toCalm := h.toCalm
  native := ⟨fun _ ↦ h.unclosed, fun _ ↦ h.native⟩
  connected := by rw [h.connected]
  slot slot hslot := by
    rw [h.reserved] at hslot
    cases hslot

theorem bridge_reap (hx : At (Idle sockfd x₀) x) :
    bridgeWp nsslRelayReap (fun _ ↦ At (Idle sockfd x₀)) x := by
  refine wp_each hx fun item _ y hy ↦ wp_mono (wp_reapSlot item) fun _ z hz ↦ ?_
  obtain ⟨hworld, hmask, hmapped, hothers, hitem⟩ := hz
  refine { hy with
    mask := hmask.trans hy.mask
    mapped := hmapped.trans hy.mapped
    exclusive := fun other hother hfree hallocated ↦ ?_
    lwip := by rw [hworld]; exact hy.lwip
    accepted := by rw [hworld]; exact hy.accepted
    reserved := by rw [hworld]; exact hy.reserved
    native := by rw [hworld]; exact hy.native
    connected := by rw [hworld]; exact hy.connected
    unclosed := by rw [hworld]; exact hy.unclosed }
  replace hallocated : (z.mem.nsslRelays other).allocated ≠ 0 := hallocated
  change (z.mem.nsslRelays other).lwfd ≠ _
  have hsame : z.mem.nsslRelays other = y.mem.nsslRelays other := by
    by_cases hother : other = item
    · subst hother
      rcases hitem with ⟨heq, -⟩ | heq
      · exact heq
      · rw [heq] at hallocated
        exact absurd rfl hallocated
    · exact hothers other hother
  rw [hsame] at hallocated ⊢
  exact hy.exclusive other hother (by rw [hworld] at hfree; exact hfree) hallocated

theorem bridge_reserveFrom (slots : List ℕ) (hslots : ∀ slot ∈ slots, slot < nsslRelayMax)
    (hx : At (Idle sockfd x₀) x) :
    bridgeWp (nsslRelayReserveFrom slots) (fun slot y ↦ (slot < 0 → At (Idle sockfd x₀) y) ∧
      (0 ≤ slot → At (Bridging sockfd x₀ slot.toNat x₀.world.native) y)) x := by
  induction slots with
  | nil => exact ⟨fun _ ↦ hx, fun hpos ↦ absurd hpos (by decide)⟩
  | cons slot rest ih =>
    rw [bridgeWp, nsslRelayReserveFrom, wp_bind, wp_access]
    by_cases hfree : (x.mem.nsslRelays slot).allocated = 0
    · simp only [claimRelay, if_pos hfree, Bool.not_true, Bool.false_eq_true, if_false]
      simp only [resetRelay, wp_bind, storeRelay, wp_store]
      set s := ((((((x.mem.setRelay slot _).setRelay slot _).setRelay slot _).setRelay slot
        _).setRelay slot _).setRelay slot _) with hs
      have hview : bridgeTables s = (bridgeTables x.mem).setRelay slot
          { allocated := 1, stop := 0, nativeFd := -1, lwfd := -1 } := by
        rw [hs]
        simp only [bridgeTables_setRelay, BridgeTables.setRelay, Function.update_idem,
          ShimState.setRelay_self, relayTable]
      refine bridge_perform fun created w heffect ↦ ?_
      have hworld := Option.some.inj heffect
      refine wp_cases (fun hnone ↦ ?_) fun hsome ↦ ?_
      · -- no thread: the slot is free again
        rw [if_pos hnone] at hworld
        have hfreed : bridgeWp (storeRelay slot fun r ↦ { r with allocated := 0 })
            (fun _ ↦ At (Idle sockfd x₀)) { mem := s, world := w } := by
          refine bridge_storeRelay ?_
          rw [← hworld]
          simp only [hview, BridgeTables.setRelay, Function.update_idem]
          exact Idle.setRelay hx fun hne ↦ absurd rfl hne
        exact wp_seq hfreed fun _ z hz ↦ ⟨fun _ ↦ hz, fun hpos ↦ absurd hpos (by decide)⟩
      · rw [if_neg hsome] at hworld
        have hreserved : At (Bridging sockfd x₀ slot x₀.world.native) { mem := s, world := w } := by
          rw [At, hview, ← hworld]
          have hcalm : Calm sockfd x₀ (bridgeTables x.mem)
              { x.world with
                thread := Function.update x.world.thread slot true, reserved := some slot } :=
            { hx with exclusive := fun other hother _ ↦
                hx.exclusive other hother (by simp [hx.reserved]) }
          exact {
            toCalm := hcalm.setRelay fun hne ↦ absurd rfl hne
            reserved := rfl
            slot_lt := hslots slot List.mem_cons_self
            allocated := by simp
            waiting := by simp
            native := hx.native
            connected := hx.connected
            unclosed := hx.unclosed }
        refine wp_seq (bridge_frame (keeps_ignore (keeps_perform trivial)) hreserved) fun _ z hz ↦ ?_
        exact ⟨fun hneg ↦ absurd hneg (by omega), fun _ ↦ hz⟩
    · simp only [claimRelay, if_neg hfree, Bool.not_false, if_true]
      exact ih fun other hother ↦ hslots other (List.mem_cons_of_mem slot hother)

/-- `nssl_relay_stop_slot` on the reserved slot. -/
theorem wp_stopSlot (hslot : slot < nsslRelayMax)
    (hallocated : (x.mem.nsslRelays slot).allocated ≠ 0) :
    bridgeWp (nsslRelayStopSlot slot) (fun _ y ↦ y.world = x.world ∧
      bridgeTables y.mem = (bridgeTables x.mem).setRelay slot
        { relayTable (x.mem.nsslRelays slot) with stop := 1 }) x := by
  refine wp_cases (fun _ ↦ ?_) fun hout ↦ absurd ⟨by omega, by omega⟩ hout
  refine (wp_bind _ _ _ _).mpr ((wp_load _ _ _).mpr (wp_cases (fun _ ↦ ?_) fun hzero ↦ ?_))
  · exact ⟨rfl, bridgeTables_setRelay _ _ _⟩
  · exact absurd hallocated hzero

/-- The bridge stops its relay and gives up. -/
theorem bridge_stop (hx : At (Closed sockfd x₀ slot) x) :
    bridgeWp (nsslRelayStopSlot slot) (fun _ ↦ At (Failed sockfd x₀)) x := by
  refine wp_mono (wp_stopSlot hx.slot_lt hx.allocated) fun _ y ⟨hworld, htables⟩ ↦ ?_
  rw [At, htables, hworld]
  refine {
    toCalm := hx.toCalm.setRelay fun hne ↦ absurd hx.reserved hne
    native := hx.native
    connected := hx.connected
    slot := fun other hother ↦ ?_ }
  rw [hx.reserved] at hother
  cases hother
  rw [Stopped, BridgeTables.setRelay_self]
  exact ⟨hx.slot_lt, hx.allocated, Int.one_ne_zero, hx.waiting⟩

/-- The native sockets while the bridge listens. -/
def listening (x₀ : BridgeMachine) (listener : ℤ) : ℤ → Bool :=
  Function.update x₀.world.native listener true

theorem bridge_fail {listener code : ℤ} (hclosed : x₀.world.native listener = false)
    (hheld : x₀.world.native sockfd = true) (hcode : code ≤ 0)
    (hx : At (Bridging sockfd x₀ slot (listening x₀ listener)) x) :
    bridgeWp (bridgeFail listener slot code)
      (fun r ↦ At (Outcome sockfd x₀ r.1)) x := by
  have hne : sockfd ≠ listener := fun hsame ↦ by
    rw [hsame, hclosed] at hheld
    cases hheld
  have hclose : bridgeWp (ignore (native (.socketclose listener)))
      (fun _ ↦ At (Closed sockfd x₀ slot)) x := by
    refine (wp_bind _ _ _ _).mpr (bridge_perform fun answer w heffect ↦ ?_)
    cases heffect
    change Closed _ _ _ _ (x.world.closeNative listener answer.code)
    have hconnected := congrFun hx.connected sockfd
    unfold BridgeWorld.closeNative
    by_cases hcode : answer.code = 0
    · rw [if_pos hcode]
      refine { hx with
        connected := (Function.update_of_ne hne _ _).trans hconnected
        native := ⟨fun _ ↦ hx.unclosed, fun _ ↦ ?_⟩ }
      change Function.update x.world.native listener false = _
      rw [hx.native, listening, Function.update_idem, ← hclosed]
      exact Function.update_eq_self _ _
    · rw [if_neg hcode]
      refine { hx with connected := hconnected, native := ⟨fun hnative ↦ ?_, nofun⟩ }
      have hopen := congrFun (hx.native.symm.trans hnative) listener
      rw [listening, Function.update_self, hclosed] at hopen
      cases hopen
  refine wp_seq hclose fun _ y hy ↦ wp_seq (bridge_stop hy) fun _ z hz ↦ ?_
  exact .failed hcode hz

/-- An error of nsysnet is part of a negative result. -/
theorem bridge_lasterr {P : BridgeTables → BridgeWorld → Prop} (hx : At P x) :
    bridgeWp realSocketlasterr (fun error y ↦ 0 ≤ error ∧ At P y) x := by
  refine (wp_bind _ _ _ _).mpr (bridge_perform fun answer w heffect ↦ ?_)
  simp only [bridgeEffect] at heffect
  split at heffect
  · cases heffect
  · cases heffect
    exact ⟨by omega, hx⟩

theorem bridge_failNative {listener base : ℤ} (hclosed : x₀.world.native listener = false)
    (hheld : x₀.world.native sockfd = true) (hbase : base ≤ 0)
    (hx : At (Bridging sockfd x₀ slot (listening x₀ listener)) x) :
    bridgeWp (bridgeFailNative listener slot base) (fun r ↦ At (Outcome sockfd x₀ r.1)) x :=
  wp_seq (bridge_lasterr hx) fun _ _ hy ↦ bridge_fail hclosed hheld (by omega) hy.2

/-- `accept` was called. -/
structure Accepted (sockfd : ℤ) (x₀ : BridgeMachine) (slot : ℕ) (success : Bool)
    (t : BridgeTables) (w : BridgeWorld) : Prop where
  accepted : w.accepted = some success
  connected : w.connected sockfd = true
  slot_lt : slot < nsslRelayMax
  allocated : (t.relays slot).allocated ≠ 0
  exclusive : ∀ other < nsslRelayMax, other ≠ slot → (t.relays other).allocated ≠ 0 →
    (t.relays other).lwfd ≠ x₀.mem.mappedFd sockfd.toNat

/-- The relay takes over both descriptors. -/
theorem bridge_publish (accepted : ℤ) (hx : At (Accepted sockfd x₀ slot true) x) :
    bridgeWp (bridgePublish sockfd (x₀.mem.mappedFd sockfd.toNat) accepted slot)
      (fun r ↦ At (Outcome sockfd x₀ r.1)) x := by
  have hstored : bridgeWp (storeRelay slot fun r ↦ { r with nativeFd := accepted })
      (fun _ ↦ At (Accepted sockfd x₀ slot true)) x := by
    refine bridge_storeRelay
      ⟨hx.accepted, hx.connected, hx.slot_lt, ?_, fun other hother hne ↦ ?_⟩
    · rw [BridgeTables.setRelay_self]
      exact hx.allocated
    · rw [BridgeTables.setRelay_of_ne _ hne]
      exact hx.exclusive other hother hne
  refine wp_seq hstored fun _ x hx ↦ ?_
  have hadopt : bridgeWp (storeRelay slot fun r ↦
      { r with lwfd := x₀.mem.mappedFd sockfd.toNat }) (fun _ ↦ At fun t w ↦
        w.accepted = some true ∧ ∀ other < nsslRelayMax, (t.relays other).allocated ≠ 0 ∧
          (t.relays other).lwfd = x₀.mem.mappedFd sockfd.toNat ↔ other = slot) x := by
    refine bridge_storeRelay ⟨hx.accepted, fun other hother ↦ ?_⟩
    by_cases hsame : other = slot
    · subst hsame
      rw [BridgeTables.setRelay_self]
      exact ⟨fun _ ↦ rfl, fun _ ↦ ⟨hx.allocated, rfl⟩⟩
    · rw [BridgeTables.setRelay_of_ne _ hsame]
      exact ⟨fun h ↦ absurd h.2 (hx.exclusive other hother hsame h.1), fun h ↦ absurd h hsame⟩
  refine wp_seq hadopt fun _ y hy ↦ ?_
  have hnote : Keeps bridgeTables Quiet (note (.adopted slot)) :=
    Keeps.bind (keeps_perform trivial) fun _ ↦ keeps_pure _
  refine wp_seq (bridge_frame hnote hy) fun _ y hy ↦ ?_
  refine wp_seq (bridge_frame (keeps_storeRelay fun _ ↦ rfl) hy) fun _ y hy ↦ ?_
  refine (wp_bind _ _ _ _).mpr ((wp_bind _ _ _ _).mpr ((wp_store _ _ _).mpr
    ((wp_store _ _ _).mpr ?_)))
  have huntracked : (y.mem.openMask &&& ~~~ bit sockfd.toNat).getLsbD sockfd.toNat = false :=
    Bool.eq_false_iff.mpr fun h ↦ (getLsbD_and_not_bit.mp h).1 rfl
  have hready : At (fun t w ↦ (w.accepted = some true ∧
      ∀ other < nsslRelayMax, (t.relays other).allocated ≠ 0 ∧
        (t.relays other).lwfd = x₀.mem.mappedFd sockfd.toNat ↔ other = slot) ∧
      t.openMask.getLsbD sockfd.toNat = false) { y with mem := { y.mem with
        openMask := y.mem.openMask &&& ~~~ bit sockfd.toNat
        mappedFd := Function.update y.mem.mappedFd sockfd.toNat (-1) } } := ⟨hy, huntracked⟩
  refine wp_seq (bridge_frame (keeps_storeRelay fun _ ↦ rfl) hready) fun _ z hz ↦ ?_
  exact .bridged rfl hz.1.1 hz.2 ⟨slot, hx.slot_lt, hz.1.2⟩

theorem openNative_connected {n : ℤ} (h : w.openNative n = some w') :
    w'.connected = w.connected := by
  unfold BridgeWorld.openNative at h
  split at h
  · cases h
    rfl
  · split at h
    · cases h
      rfl
    · cases h

theorem bridge_connect (listener : ℤ) (loc : Sockaddr) (hclosed : x₀.world.native listener = false)
    (hheld : x₀.world.native sockfd = true)
    (hx : At (Bridging sockfd x₀ slot (listening x₀ listener)) x) :
    bridgeWp (bridgeConnect sockfd (x₀.mem.mappedFd sockfd.toNat) listener slot loc)
      (fun r ↦ At (Outcome sockfd x₀ r.1)) x := by
  have hne : sockfd ≠ listener := fun hsame ↦ by
    rw [hsame, hclosed] at hheld
    cases hheld
  refine (wp_bind _ _ _ _).mpr (bridge_perform fun connected w heffect ↦ ?_)
  have hworld := Option.some.inj heffect
  refine wp_cases (fun hfail ↦ ?_) fun hsuccess ↦ ?_
  · rw [if_neg hfail] at hworld
    rw [← hworld]
    exact bridge_failNative hclosed hheld (by decide) hx
  rw [if_pos (not_not.mp hsuccess)] at hworld
  refine (wp_bind _ _ _ _).mpr (bridge_perform fun accepted w' haccept ↦ ?_)
  obtain ⟨w'', hopen, rfl⟩ := Option.map_eq_some_iff.mp haccept
  have haccepted : At (Accepted sockfd x₀ slot (decide (0 ≤ accepted.code))) { x with
      world := { w'' with accepted := some (decide (0 ≤ accepted.code)) } } := {
    accepted := rfl
    connected := by
      change w''.connected sockfd = true
      rw [openNative_connected hopen, ← hworld]
      exact Function.update_self _ _ _
    slot_lt := hx.slot_lt
    allocated := hx.allocated
    exclusive := fun other hother hsame ↦ hx.exclusive other hother
      (by rw [hx.reserved]; exact fun h ↦ hsame (Option.some.inj h).symm) }
  have hclose : bridgeWp (ignore (native (.socketclose listener)))
      (fun _ ↦ At (Accepted sockfd x₀ slot (decide (0 ≤ accepted.code)))) { x with
        world := { w'' with accepted := some (decide (0 ≤ accepted.code)) } } := by
    refine (wp_bind _ _ _ _).mpr (bridge_perform fun answer v heffect ↦ ?_)
    cases heffect
    change Accepted _ _ _ _ _ (BridgeWorld.closeNative _ listener answer.code)
    unfold BridgeWorld.closeNative
    split
    · exact { haccepted with
        connected := (Function.update_of_ne hne _ _).trans haccepted.connected }
    · exact { haccepted with }
  refine wp_seq hclose fun _ y hy ↦ wp_cases (fun hneg ↦ ?_) fun hpos ↦ ?_
  · rw [decide_eq_false (by omega)] at hy
    refine wp_seq (bridge_lasterr hy) fun error z hz ↦ ?_
    refine wp_seq (wp_stopSlot hz.2.slot_lt hz.2.allocated) fun _ v hv ↦ ?_
    refine .refused ?_ ?_ ?_
    · change -500 - error ≤ 0
      omega
    · rw [hv.1]
      exact hz.2.accepted
    · rw [hv.1]
      exact hz.2.connected
  · rw [decide_eq_true (by omega)] at hy
    rw [Int.toNat_natCast]
    exact bridge_publish accepted.code hy

theorem bridge_listen (listener : ℤ) (hclosed : x₀.world.native listener = false)
    (hheld : x₀.world.native sockfd = true)
    (hx : At (Bridging sockfd x₀ slot (listening x₀ listener)) x) :
    bridgeWp (bridgeListen sockfd (x₀.mem.mappedFd sockfd.toNat) listener slot)
      (fun r ↦ At (Outcome sockfd x₀ r.1)) x := by
  refine wp_seq (bridge_frame (keeps_lwip trivial) hx) fun parsed y hy ↦ ?_
  refine wp_cases (fun _ ↦ bridge_fail hclosed hheld (by decide) hy) fun _ ↦ ?_
  refine wp_seq (bridge_frame (keeps_perform trivial) hy) fun bound y hy ↦ ?_
  refine wp_cases (fun _ ↦ bridge_failNative hclosed hheld (by decide) hy) fun _ ↦ ?_
  refine wp_seq (bridge_frame (keeps_perform trivial) hy) fun listening y hy ↦ ?_
  refine wp_cases (fun _ ↦ bridge_failNative hclosed hheld (by decide) hy) fun _ ↦ ?_
  refine wp_seq (bridge_frame (keeps_perform trivial) hy) fun name y hy ↦ ?_
  refine wp_cases (fun _ ↦ bridge_failNative hclosed hheld (by decide) hy) fun _ ↦ ?_
  exact bridge_connect listener _ hclosed hheld hy

end Stages

/-! ## The bridge -/

theorem openNative_cases {w w' : BridgeWorld} {n : ℤ} (h : w.openNative n = some w') :
    n < 0 ∧ w' = w ∨ 0 ≤ n ∧ w.native n = false ∧
      w' = { w with native := Function.update w.native n true } := by
  unfold BridgeWorld.openNative at h
  split at h
  · exact .inl ⟨‹_›, (Option.some.inj h).symm⟩
  · split at h
    · exact .inr ⟨by omega, ‹_›, (Option.some.inj h).symm⟩
    · cases h

section Whole

variable {sockfd : ℤ} {x y : BridgeMachine}

theorem Held.idle (h : Held sockfd x) : At (Idle sockfd (started x)) (started x) where
  mask := rfl
  mapped := rfl
  lwip := rfl
  accepted := rfl
  exclusive slot hslot _ hallocated := h.exclusive slot hslot hallocated
  reserved := rfl
  native := rfl
  connected := rfl
  unclosed := rfl

theorem bridge_outcome (h : Held sockfd x) : bridgeWp (bridgeAxSocketToNssl sockfd)
    (fun r ↦ At (Outcome sockfd (started x) r.1)) (started x) := by
  have hfailed : ∀ code z, code ≤ 0 → At (Idle sockfd (started x)) z →
      At (Outcome sockfd (started x) code) z :=
    fun code z hcode hz ↦ .failed hcode hz.failed
  refine wp_seq (bridge_frame (keeps_isForeign sockfd) h.idle) fun foreign y hy ↦ ?_
  refine wp_cases (fun _ ↦ hfailed 0 y (by decide) hy) fun _ ↦ ?_
  refine (wp_bind _ _ _ _).mpr ((wp_load _ _ _).mpr ?_)
  rw [show y.mem.mappedFd = x.mem.mappedFd from hy.mapped]
  refine wp_seq (bridge_frame (keeps_lwip trivial) hy) fun peer y hy ↦ ?_
  refine wp_cases (fun _ ↦ hfailed (-1) y (by decide) hy) fun _ ↦ ?_
  refine wp_cases (fun _ ↦ hfailed (-2) y (by decide) hy) fun _ ↦ ?_
  have hreserve : bridgeWp nsslRelayReserve (fun slot z ↦
      (slot < 0 → At (Idle sockfd (started x)) z) ∧
      (0 ≤ slot → At (Bridging sockfd (started x) slot.toNat (started x).world.native) z)) y :=
    wp_seq (bridge_reap hy) fun _ z hz ↦
      bridge_reserveFrom _ (fun slot hslot ↦ List.mem_range.mp hslot) hz
  refine wp_seq hreserve fun slot y hy ↦ wp_cases (fun hneg ↦ ?_) fun hpos ↦ ?_
  · exact hfailed (-3) y (by decide) (hy.1 hneg)
  obtain ⟨slot, rfl⟩ := Int.eq_ofNat_of_zero_le (Int.not_lt.mp hpos)
  have hreserved := hy.2 (Int.not_lt.mp hpos)
  rw [Int.toNat_natCast] at hreserved
  refine (wp_bind _ _ _ _).mpr (bridge_perform fun listener w hopen ↦ ?_)
  obtain ⟨hneg, rfl⟩ | ⟨hnonneg, hclosed, rfl⟩ := openNative_cases hopen
  · refine wp_cases (fun _ ↦ ?_) fun hge ↦ absurd hneg hge
    have hclosed : At (Closed sockfd (started x) slot) y := { hreserved with
      native := ⟨fun _ ↦ hreserved.unclosed, fun _ ↦ hreserved.native⟩
      connected := by rw [hreserved.connected] }
    exact wp_seq (bridge_stop hclosed) fun _ z hz ↦ .failed (by decide) hz
  · refine wp_cases (fun hneg ↦ absurd hneg (by omega)) fun _ ↦ ?_
    have hfresh : (started x).world.native listener.code = false := by
      rw [← hclosed, hreserved.native]
    have hlistening : At (Bridging sockfd (started x) slot (listening (started x) listener.code))
        { y with world := { y.world with
          native := Function.update y.world.native listener.code true } } := by
      refine { hreserved with native := ?_ }
      change Function.update y.world.native listener.code true = _
      rw [hreserved.native]
      rfl
    exact bridge_listen listener.code hfresh h.placeholder hlistening

/-- The bridge leaves a socket as it was, or hands it over, exactly when `accept` on the loopback
connection succeeds, or is never called while the listener, if there was one, is closed and the
placeholder was not connected before. -/
theorem bridge_restores_iff {r : ℤ × ℤ} (h : Held sockfd x)
    (hexec : Exec bridgeReply (bridgeAxSocketToNssl sockfd) (started x) r y) :
    Restored sockfd x y r.1 ↔ y.world.accepted = some true ∨
      y.world.accepted = none ∧ y.world.unclosed = false ∧ x.world.connected sockfd = false := by
  rcases hexec.post_of_wp (bridge_outcome h) with
    ⟨hcode, hfailed⟩ | ⟨hcode, haccepted, hconnected⟩ | ⟨hcode, haccepted, hmask, hrelay⟩
  · have hnone : y.world.accepted = none := hfailed.accepted
    have hconnected : y.world.connected sockfd = x.world.connected sockfd := hfailed.connected
    constructor
    · rintro ⟨hrestored, -⟩
      obtain ⟨-, -, hnative, -, hunconnected, -⟩ := hrestored hcode
      exact .inr ⟨hnone, hfailed.native.mp hnative, hconnected ▸ hunconnected⟩
    · rintro (hsome | ⟨-, hclosed, hunconnected⟩)
      · rw [hnone] at hsome
        cases hsome
      · refine ⟨fun _ ↦ ⟨hfailed.mask, hfailed.mapped, hfailed.native.mpr hclosed, hfailed.lwip,
          hconnected.trans hunconnected, fun slot hslot ↦ ?_⟩, fun hone ↦ absurd hone (by omega)⟩
        exact released_of_stopped (hfailed.slot slot hslot)
  · constructor
    · rintro ⟨hrestored, -⟩
      obtain ⟨-, -, -, -, hunconnected, -⟩ := hrestored hcode
      rw [hconnected] at hunconnected
      cases hunconnected
    · rintro (hsome | ⟨hnone, -⟩)
      · rw [haccepted] at hsome
        cases hsome
      · rw [haccepted] at hnone
        cases hnone
  · exact ⟨fun _ ↦ .inl haccepted, fun _ ↦ ⟨fun hneg ↦ absurd hneg (by omega),
      fun _ ↦ ⟨hmask, hrelay⟩⟩⟩

end Whole

/-! ## Concrete bridges -/

/-- A title with one connected socket, the public descriptor 3 on lwIP's 5. -/
def titleSocket : BridgeMachine where
  mem := { acceptingSockets := 1, openMask := bit 3, mappedFd := fun _ ↦ 5 }
  world := { native := fun fd ↦ fd = 3, lwip := fun fd ↦ fd = 5 }

theorem held_titleSocket : Held 3 titleSocket where
  owned := ⟨by decide, by decide, by decide, by decide⟩
  placeholder := by decide
  exclusive _ _ hallocated := absurd rfl hallocated

/-- The replies up to the `connect` of the placeholder, with the listener 4. -/
def listenerReplies : List ShimReply :=
  [{ addr := some { family := nsnAfInet, port := 443, addr := 0x01020304 } }, { code := 1 }, {},
    { code := 4 }, { code := 1 }, {}, {}, {}]

theorem bridge_restores_refused_connect :
    ∃ y, (Held 3 titleSocket ∧ Exec bridgeReply (bridgeAxSocketToNssl 3) (started titleSocket)
      (-407, -1) y) ∧ Restored 3 titleSocket y (-407) := by
  have hrun : (run bridgeReply (bridgeAxSocketToNssl 3)
      (listenerReplies ++ [{ code := -1 }, { code := 7 }, { code := 0 }]) (started titleSocket)).map
      (fun result ↦ (result.1, result.2.1.world.accepted, result.2.1.world.unclosed)) =
      some ((-407, -1), none, false) := rfl
  obtain ⟨⟨r, y, rest⟩, hresult, hview⟩ := Option.map_eq_some_iff.mp hrun
  simp only [Prod.mk.injEq] at hview
  obtain ⟨rfl, hnone, hclosed⟩ := hview
  have hexec := exec_of_run hresult
  refine ⟨y, ⟨held_titleSocket, hexec⟩, (bridge_restores_iff held_titleSocket hexec).mpr ?_⟩
  exact .inr ⟨hnone, hclosed, rfl⟩

/-- After a failed `accept` the placeholder stays connected. -/
theorem bridge_leaves_connected :
    ∃ y, (Held 3 titleSocket ∧ Exec bridgeReply (bridgeAxSocketToNssl 3) (started titleSocket)
      (-506, -1) y) ∧ ¬ Restored 3 titleSocket y (-506) := by
  have hrun : (run bridgeReply (bridgeAxSocketToNssl 3)
      (listenerReplies ++ [{ code := 0 }, { code := -1 }, { code := 0 }, { code := 6 }])
      (started titleSocket)).map
      (fun result ↦ (result.1, result.2.1.world.connected 3)) = some ((-506, -1), true) := rfl
  obtain ⟨⟨r, y, rest⟩, hresult, hview⟩ := Option.map_eq_some_iff.mp hrun
  simp only [Prod.mk.injEq] at hview
  obtain ⟨rfl, hconnected⟩ := hview
  refine ⟨y, ⟨held_titleSocket, exec_of_run hresult⟩, fun hrestored ↦ ?_⟩
  obtain ⟨-, -, -, -, hunconnected, -⟩ := hrestored.failed (by decide)
  rw [hconnected] at hunconnected
  cases hunconnected

end Ax88179Aroma.Shim.Bridge
