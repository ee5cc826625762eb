import Ax88179Aroma.Effect.Holding
import Ax88179Aroma.Shim.Frames
import Ax88179Aroma.Shim.WiiloadPipe

/-!
# Private native descriptors

A relay owns the native socket that its bridge accepted, the Wiiload proxy the one that it connected.
Neither is in `open_mask`, and both are used later, one iteration of a pump after the other, between
any calls of the title.  Every native socket has a serial number of its own, so that a recycled
descriptor is told apart from the socket before it.
-/

namespace Ax88179Aroma.Shim.Private

open Effect Program

/-! ## The world -/

structure PrivateWorld where
  /-- the serial number of an open native socket -/
  native : ℤ → Option ℕ := fun _ ↦ none
  serial : ℕ := 0
  /-- the slots with a running worker -/
  live : ℕ → Bool := fun _ ↦ false
  /-- the socket that a relay took over -/
  adopted : ℕ → Option ℕ := fun _ ↦ none
  /-- the socket that the proxy made for its connection -/
  connected : Option ℕ := none

abbrev PrivateMachine := Machine ShimState PrivateWorld

namespace PrivateWorld

/-- The allocator returns any descriptor that is not open. -/
def openNative (polling : Bool) (w : PrivateWorld) (fd : ℤ) : Option PrivateWorld :=
  if fd < 0 then some w
  else if w.native fd = none then
    some { w with
      native := Function.update w.native fd (some w.serial)
      serial := w.serial + 1
      connected := if polling then some w.serial else w.connected }
  else none

def closeNative (w : PrivateWorld) (fd code : ℤ) : PrivateWorld :=
  if code = 0 then { w with native := Function.update w.native fd none } else w

end PrivateWorld

/-- What a call does to the world; `polling` while the proxy runs.  nsysnet numbers its errors from 0
on. -/
def privateEffect (polling : Bool) (s : ShimState) (w : PrivateWorld) :
    ShimCall → ShimReply → Option PrivateWorld
  | .native (.socket _ _ _), answer => w.openNative polling answer.code
  | .native (.accept _ _ _), answer => w.openNative polling answer.code
  | .native (.socketclose fd), answer => some (w.closeNative fd answer.code)
  | .native .socketcloseAll, answer =>
    some (if answer.code = 0 then { w with native := fun _ ↦ none } else w)
  | .native .socketlasterr, answer => if answer.code < 0 then none else some w
  | .os (.osCreateThread slot), answer =>
    some (if answer.code = 0 then w else { w with live := Function.update w.live slot true })
  | .os (.osIsThreadTerminated slot), answer =>
    if answer.code ≠ 0 ↔ w.live slot = false then some w else none
  | .note (.adopted slot), _ =>
    some { w with adopted := Function.update w.adopted slot (w.native (s.nsslRelays slot).nativeFd) }
  | _, _ => some w

def privateReply (polling : Bool) : Replies ShimState PrivateWorld ShimCall ShimReply :=
  fun request answer x ↦
    (privateEffect polling x.mem x.world request answer).map fun w ↦ { x with world := w }

/-- The descriptor that a pump uses with a call. -/
def usedFd : ShimCall → Option ℤ
  | .native (.recv fd _ _) => some fd
  | .native (.send fd _ _) => some fd
  | .native (.shutdown fd _) => some fd
  | .native (.socketclose fd) => some fd
  | _ => none

/-- Calls that no private descriptor depends on. -/
def Inert : ShimCall → Prop
  | .native (.socket _ _ _) => False
  | .native (.accept _ _ _) => False
  | .native (.socketclose _) => False
  | .native .socketcloseAll => False
  | .os (.osCreateThread _) => False
  | .note (.adopted _) => False
  | _ => True

theorem privateReply_inert {polling : Bool} {request : ShimCall} (hinert : Inert request)
    {answer : ShimReply} {x y : PrivateMachine}
    (hreply : privateReply polling request answer x = some y) : y = x := by
  obtain ⟨w, heffect, rfl⟩ := Option.map_eq_some_iff.mp hreply
  have hsame : w = x.world := by
    unfold privateEffect at heffect
    split at heffect
    all_goals try first | exact False.elim hinert
    · split at heffect
      · cases heffect
      · exact (Option.some.inj heffect).symm
    · split at heffect
      · exact (Option.some.inj heffect).symm
      · cases heffect
    · exact (Option.some.inj heffect).symm
  rw [hsame]

/-! ## One turn of a worker -/

/-- Where the worker of a slot is between two turns. -/
inductive WorkerState where
  | waiting
  | pumping (nativeFd lwfd : ℤ) (locals : RelayLocals)
  | ended
  deriving DecidableEq, Repr

/-- The label `out`, after which the thread returns. -/
def relayEnd (slot : ℕ) : ShimM WorkerState := do
  relayOut slot
  pure .ended

/-- One iteration of either loop of `nssl_relay_worker`. -/
def relayTurn (slot : ℕ) : WorkerState → ShimM WorkerState
  | .waiting => do
    let stop ← loadRelay slot NsslRelay.stop
    if stop ≠ 0 then relayEnd slot
    else do
      let ready ← loadRelay slot NsslRelay.ready
      if ready ≠ 0 then do
        let stop ← loadRelay slot NsslRelay.stop
        if stop ≠ 0 then relayEnd slot
        else do
          let fds ← loadRelay slot fun r ↦ (r.nativeFd, r.lwfd)
          pure (.pumping fds.1 fds.2 {})
      else do
        ignore (os (.osSleepTicks 1))
        pure .waiting
  | .pumping nativeFd lwfd locals => do
    let stop ← loadRelay slot NsslRelay.stop
    if stop ≠ 0 then relayEnd slot
    else do
      let step ← relayIteration slot nativeFd lwfd locals
      match step with
      | .error _ => relayEnd slot
      | .ok (locals, _) => pure (.pumping nativeFd lwfd locals)
  | .ended => pure .ended

/-! ## The invariant -/

/-- What the shim says about its private descriptors: of each relay `allocated`, `ready` and
`native_fd`, of the proxy `ax_fd` and `native_fd`. -/
@[ext]
structure Privates where
  relays : ℕ → ℤ × ℤ × ℤ
  proxy : ℤ × ℤ

def relayView (r : NsslRelay) : ℤ × ℤ × ℤ := (r.allocated, r.ready, r.nativeFd)

def privates (s : ShimState) : Privates where
  relays slot := relayView (s.nsslRelays slot)
  proxy := (s.wiiloadProxy.axFd, s.wiiloadProxy.nativeFd)

/-- What a relay, or the proxy for `none`, holds. -/
def owner (t : Privates) (w : PrivateWorld) : Option ℕ → Option ℤ
  | none => if 0 ≤ t.proxy.2 then some t.proxy.2 else none
  | some slot =>
    if w.live slot = true ∧ 0 ≤ (t.relays slot).2.2 then some (t.relays slot).2.2 else none

/-- The socket that the holder got. -/
def recorded (w : PrivateWorld) : Option ℕ → Option ℕ
  | none => w.connected
  | some slot => w.adopted slot

/-- Private descriptors are open, have one holder, and are still the sockets that they were; a pump
runs on the descriptor of its slot. -/
structure PrivateInv (pumping : ℕ → Option ℤ) (t : Privates) (w : PrivateWorld) : Prop where
  held : Holding (fun fd ↦ w.native fd ≠ none) (owner t w)
  socket : ∀ i fd, owner t w i = some fd → w.native fd = recorded w i
  allocated : ∀ slot, w.live slot = true → (t.relays slot).1 ≠ 0
  ready : ∀ slot, w.live slot = true → (t.relays slot).2.1 ≠ 0 → 0 ≤ (t.relays slot).2.2
  pumps : ∀ slot fd, pumping slot = some fd → owner t w (some slot) = some fd
  proxy : 0 ≤ t.proxy.1 ↔ 0 ≤ t.proxy.2

/-- Nobody holds the descriptor. -/
def Public (fd : ℤ) (t : Privates) (w : PrivateWorld) : Prop := ∀ i, owner t w i ≠ some fd

section Steps

variable {polling : Bool} {pumping : ℕ → Option ℤ} {t : Privates} {w w' : PrivateWorld}
  {n m code : ℤ} {slot : ℕ}

theorem openNative_cases (hopen : w.openNative polling n = some w') :
    n < 0 ∧ w' = w ∨ 0 ≤ n ∧ w.native n = none ∧ w' = { w with
      native := Function.update w.native n (some w.serial)
      serial := w.serial + 1
      connected := if polling then some w.serial else w.connected } := by
  unfold PrivateWorld.openNative at hopen
  split at hopen
  · exact .inl ⟨‹_›, (Option.some.inj hopen).symm⟩
  · split at hopen
    · exact .inr ⟨by omega, ‹_›, (Option.some.inj hopen).symm⟩
    · cases hopen

/-- A change of the sockets that nobody holds. -/
theorem PrivateInv.setNative (h : PrivateInv pumping t w) {native : ℤ → Option ℕ} (serial : ℕ)
    (hsame : ∀ i fd, owner t w i = some fd → native fd = w.native fd) :
    PrivateInv pumping t { w with native := native, serial := serial } where
  held := ⟨fun i fd hi ↦ (hsame i fd hi).trans_ne (h.held.isOpen_of_own i fd hi),
    h.held.holder_unique⟩
  socket i fd hi := (hsame i fd hi).trans <| (h.socket i fd hi).trans <| by cases i <;> rfl
  allocated := h.allocated
  ready := h.ready
  pumps := h.pumps
  proxy := h.proxy

/-- A descriptor that is not open is nobody's. -/
theorem PrivateInv.public_of_closed (h : PrivateInv pumping t w) (hclosed : w.native n = none) :
    Public n t w := fun i hi ↦ h.held.isOpen_of_own i n hi hclosed

theorem Public.update (h : Public n t w) (socket : Option ℕ) (i : Option ℕ) (fd : ℤ)
    (hi : owner t w i = some fd) : Function.update w.native n socket fd = w.native fd := by
  refine Function.update_of_ne (fun hsame ↦ h i ?_) _ _
  rw [← hsame]
  exact hi

/-- An open socket that nobody holds. -/
def Unheld (fd : ℤ) (t : Privates) (w : PrivateWorld) : Prop := w.native fd ≠ none ∧ Public fd t w

/-- A new socket outside the proxy. -/
theorem PrivateInv.openNative (h : PrivateInv pumping t w)
    (hopen : w.openNative false n = some w') :
    PrivateInv pumping t w' ∧ w'.live = w.live ∧ (0 ≤ n → Unheld n t w') ∧
      ∀ fd, Unheld fd t w → Unheld fd t w' ∧ (0 ≤ n → n ≠ fd) := by
  obtain ⟨hneg, rfl⟩ | ⟨hpos, hclosed, rfl⟩ := openNative_cases hopen
  · exact ⟨h, rfl, fun hpos ↦ absurd hpos (by omega),
      fun fd hfd ↦ ⟨hfd, fun hpos ↦ absurd hpos (by omega)⟩⟩
  have hpublic := h.public_of_closed hclosed
  refine ⟨h.setNative _ (hpublic.update _), rfl, fun _ ↦ ⟨?_, hpublic⟩, fun fd hfd ↦ ?_⟩
  · exact (Function.update_self n (some w.serial) w.native).trans_ne (Option.some_ne_none _)
  · have hne : n ≠ fd := fun hsame ↦ hfd.1 (hsame ▸ hclosed)
    exact ⟨⟨(Function.update_of_ne hne.symm _ w.native).trans_ne hfd.1, hfd.2⟩, fun _ ↦ hne⟩

theorem closeNative_live : (w.closeNative n code).live = w.live := by
  unfold PrivateWorld.closeNative
  split <;> rfl

theorem owner_congr (hlive : w'.live = w.live) : owner t w' = owner t w := by
  funext i
  cases i with
  | none => rfl
  | some slot => simp only [owner, hlive]

theorem Unheld.closeNative (h : Unheld m t w) (hne : m ≠ n) :
    Unheld m t (w.closeNative n code) := by
  refine ⟨?_, fun i hi ↦ h.2 i ((congrFun (owner_congr closeNative_live) i).symm.trans hi)⟩
  unfold PrivateWorld.closeNative
  split
  · exact (Function.update_of_ne hne none w.native).trans_ne h.1
  · exact h.1

theorem PrivateInv.closeNative (h : PrivateInv pumping t w) (hpublic : Public n t w) :
    PrivateInv pumping t (w.closeNative n code) := by
  unfold PrivateWorld.closeNative
  split
  · exact h.setNative w.serial (hpublic.update none)
  · exact h

/-- Without holders nsysnet may close everything. -/
theorem PrivateInv.closeAll (h : PrivateInv pumping t w) (hnone : ∀ i, owner t w i = none) :
    PrivateInv pumping t { w with native := fun _ ↦ none } := by
  refine h.setNative w.serial fun i fd hi ↦ ?_
  rw [hnone i] at hi
  cases hi

/-- The holders and their sockets are the same. -/
theorem PrivateInv.of_owner (h : PrivateInv pumping t w) {t' : Privates}
    (howner : owner t' w' = owner t w) (hnative : w'.native = w.native)
    (hrecorded : recorded w' = recorded w)
    (hallocated : ∀ slot, w'.live slot = true → (t'.relays slot).1 ≠ 0)
    (hready : ∀ slot, w'.live slot = true → (t'.relays slot).2.1 ≠ 0 → 0 ≤ (t'.relays slot).2.2)
    (hproxy : t'.proxy = t.proxy) : PrivateInv pumping t' w' where
  held := by
    rw [howner, hnative]
    exact h.held
  socket := by
    rw [howner, hnative, hrecorded]
    exact h.socket
  allocated := hallocated
  ready := hready
  pumps := by
    rw [howner]
    exact h.pumps
  proxy := by
    rw [hproxy]
    exact h.proxy

/-- The view after a store to one relay. -/
def Privates.setRelay (t : Privates) (slot : ℕ) (value : ℤ × ℤ × ℤ) : Privates :=
  { t with relays := Function.update t.relays slot value }

@[simp]
theorem Privates.setRelay_self (t : Privates) (slot : ℕ) (value : ℤ × ℤ × ℤ) :
    (t.setRelay slot value).relays slot = value := Function.update_self _ _ _

theorem Privates.setRelay_of_ne (t : Privates) {slot other : ℕ} (hne : other ≠ slot)
    (value : ℤ × ℤ × ℤ) : (t.setRelay slot value).relays other = t.relays other :=
  Function.update_of_ne hne _ _

@[simp]
theorem Privates.setRelay_proxy (t : Privates) (slot : ℕ) (value : ℤ × ℤ × ℤ) :
    (t.setRelay slot value).proxy = t.proxy := rfl

/-- Only the holder of a slot depends on its relay. -/
theorem owner_setRelay_of_ne {i : Option ℕ} (hi : i ≠ some slot) (value : ℤ × ℤ × ℤ) :
    owner (t.setRelay slot value) w i = owner t w i := by
  cases i with
  | none => rfl
  | some other =>
    have hne : other ≠ slot := fun hsame ↦ hi (hsame ▸ rfl)
    simp only [owner, t.setRelay_of_ne hne]

/-- A store to the relay of a slot without a worker, or one that keeps what the worker holds. -/
theorem PrivateInv.setRelay (h : PrivateInv pumping t w) {value : ℤ × ℤ × ℤ}
    (hvalue : w.live slot = true → value.1 ≠ 0 ∧ value.2.2 = (t.relays slot).2.2 ∧
      (value.2.1 ≠ 0 → 0 ≤ value.2.2)) : PrivateInv pumping (t.setRelay slot value) w := by
  refine h.of_owner (funext fun i ↦ ?_) rfl rfl (fun other hlive ↦ ?_) (fun other hlive ↦ ?_) rfl
  · by_cases hi : i = some slot
    · by_cases hlive : w.live slot = true
      · simp only [hi, owner, t.setRelay_self, (hvalue hlive).2.1]
      · rw [hi, owner, if_neg fun hboth ↦ hlive hboth.1, owner, if_neg fun hboth ↦ hlive hboth.1]
    · exact owner_setRelay_of_ne hi value
  · by_cases hsame : other = slot
    · rw [hsame] at hlive ⊢
      rw [t.setRelay_self]
      exact (hvalue hlive).1
    · rw [t.setRelay_of_ne hsame]
      exact h.allocated other hlive
  · by_cases hsame : other = slot
    · rw [hsame] at hlive ⊢
      rw [t.setRelay_self]
      exact (hvalue hlive).2.2
    · rw [t.setRelay_of_ne hsame]
      exact h.ready other hlive

theorem PrivateInv.setIdle (h : PrivateInv pumping t w) (hidle : w.live slot = false)
    (value : ℤ × ℤ × ℤ) : PrivateInv pumping (t.setRelay slot value) w := by
  refine h.setRelay fun hlive ↦ ?_
  rw [hidle] at hlive
  cases hlive

/-- A relay that was claimed and reset gets its worker. -/
theorem PrivateInv.start (h : PrivateInv pumping t w) (hrelay : t.relays slot = (1, 0, -1)) :
    PrivateInv pumping t { w with live := Function.update w.live slot true } := by
  have hother : ∀ other, other ≠ slot → Function.update w.live slot true other = w.live other :=
    fun other hne ↦ Function.update_of_ne hne true w.live
  refine h.of_owner (funext fun i ↦ ?_) rfl rfl (fun other hlive ↦ ?_) (fun other hlive ↦ ?_) rfl
  · cases i with
    | none => rfl
    | some other =>
      by_cases hsame : other = slot
      · simp only [owner, hsame, hrelay]
        exact (if_neg fun hboth ↦ absurd hboth.2 (by decide)).trans
          (if_neg fun hboth ↦ absurd hboth.2 (by decide)).symm
      · simp only [owner, hother other hsame]
  · by_cases hsame : other = slot
    · rw [hsame, hrelay]
      decide
    · exact h.allocated other ((hother other hsame).symm.trans hlive)
  · by_cases hsame : other = slot
    · rw [hsame, hrelay]
      exact fun hready ↦ absurd rfl hready
    · exact h.ready other ((hother other hsame).symm.trans hlive)

/-- A relay without a descriptor takes over one that is open and public. -/
theorem PrivateInv.adopt (h : PrivateInv pumping t w) (hlive : w.live slot = true)
    (hrelay : (t.relays slot).2.2 < 0) (hpos : 0 ≤ n) (hopen : w.native n ≠ none)
    (hpublic : Public n t w) :
    PrivateInv pumping (t.setRelay slot ((t.relays slot).1, (t.relays slot).2.1, n))
      { w with adopted := Function.update w.adopted slot (w.native n) } := by
  set t' := t.setRelay slot ((t.relays slot).1, (t.relays slot).2.1, n) with ht'
  have hself : owner t' w (some slot) = some n := by
    simp only [owner, ht', t.setRelay_self]
    exact if_pos ⟨hlive, hpos⟩
  have hnone : owner t w (some slot) = none := if_neg fun hboth ↦ absurd hboth.2 (by omega)
  have hothers : ∀ i, i ≠ some slot → owner t' w i = owner t w i := fun i hi ↦
    owner_setRelay_of_ne hi _
  refine ⟨?_, fun i fd hi ↦ ?_, fun other hother ↦ ?_, fun other hother ↦ ?_, fun other fd hfd ↦ ?_,
    h.proxy⟩
  · refine h.held.acquire (i := some slot) ⟨hopen, hpublic⟩ (fun fd hfd ↦ ?_) fun i fd hi hfd ↦ ?_
    · exact (Option.some.inj (hself.symm.trans hfd)).symm
    · exact (hothers i hi).symm.trans hfd
  · by_cases hsame : i = some slot
    · rw [hsame] at hi ⊢
      rw [← Option.some.inj (hself.symm.trans hi)]
      exact (Function.update_self slot (w.native n) w.adopted).symm
    · refine (h.socket i fd ((hothers i hsame).symm.trans hi)).trans ?_
      cases i with
      | none => rfl
      | some other =>
        have hne : other ≠ slot := fun heq ↦ hsame (heq ▸ rfl)
        exact (Function.update_of_ne hne _ w.adopted).symm
  · by_cases hsame : other = slot
    · rw [hsame, ht', t.setRelay_self]
      exact h.allocated slot hlive
    · rw [ht', t.setRelay_of_ne hsame]
      exact h.allocated other hother
  · by_cases hsame : other = slot
    · rw [hsame, ht', t.setRelay_self]
      exact fun _ ↦ hpos
    · rw [ht', t.setRelay_of_ne hsame]
      exact h.ready other hother
  · have hheld := h.pumps other fd hfd
    by_cases hsame : other = slot
    · rw [hsame, hnone] at hheld
      cases hheld
    · exact (hothers _ fun heq ↦ hsame (Option.some.inj heq)).trans hheld

end Steps

/-! ## Frames -/

/-- An assertion about the private descriptors. -/
def At (P : Privates → PrivateWorld → Prop) (x : PrivateMachine) : Prop := P (privates x.mem) x.world

section Frames

variable {P : Privates → PrivateWorld → Prop} {x : PrivateMachine} {polling : Bool}
  {pre : ShimCall → PrivateMachine → Prop} {allowed : ShimCall → Prop}

theorem private_frame {program : ShimM α} (hkeeps : Keeps privates allowed program)
    (hinert : ∀ request, allowed request → Inert request)
    (hpre : ∀ request y, allowed request → At P y → pre request y) (hx : At P x) :
    wp (privateReply polling) pre program (fun _ ↦ At P) x := by
  refine wp_keeps hkeeps (fun y mem hmem hy ↦ ?_) (fun request answer y z hallowed hy hreply ↦ ?_)
    hpre hx
  · change P (privates mem) y.world
    rw [hmem]
    exact hy
  · rw [privateReply_inert (hinert request hallowed) hreply]
    exact hy

/-- A call with its effect on the world. -/
theorem private_perform {request : ShimCall} {post : ShimReply → PrivateMachine → Prop}
    (hpre : pre request x)
    (hpost : ∀ answer w, privateEffect polling x.mem x.world request answer = some w →
      post answer { x with world := w }) :
    wp (privateReply polling) pre (perform request) post x := by
  refine ⟨hpre, fun answer y hreply ↦ ?_⟩
  obtain ⟨w, heffect, rfl⟩ := Option.map_eq_some_iff.mp hreply
  exact hpost answer w heffect

theorem privates_setRelay (s : ShimState) (slot : ℕ) (update : NsslRelay → NsslRelay) :
    privates (s.setRelay slot update) =
      (privates s).setRelay slot (relayView (update (s.nsslRelays slot))) := by
  have hrelays : (privates (s.setRelay slot update)).relays =
      ((privates s).setRelay slot (relayView (update (s.nsslRelays slot)))).relays := by
    funext other
    by_cases hsame : other = slot
    · rw [hsame, Privates.setRelay_self]
      simp only [privates, ShimState.setRelay_self]
    · rw [Privates.setRelay_of_ne _ hsame]
      simp only [privates, ShimState.setRelay_of_ne s hsame]
  exact congrArg (fun relays ↦ ({ privates s with relays := relays } : Privates)) hrelays

theorem private_storeRelay {slot : ℕ} {update : NsslRelay → NsslRelay}
    (hx : P ((privates x.mem).setRelay slot (relayView (update (x.mem.nsslRelays slot)))) x.world) :
    wp (privateReply polling) pre (storeRelay slot update) (fun _ ↦ At P) x := by
  rw [← privates_setRelay] at hx
  exact hx

theorem keeps_storeRelay {slot : ℕ} {update : NsslRelay → NsslRelay}
    (hupdate : ∀ r, relayView (update r) = relayView r) :
    Keeps privates allowed (storeRelay slot update) := by
  refine keeps_store fun s ↦ ?_
  rw [privates_setRelay, hupdate]
  exact congrArg (fun relays ↦ ({ privates s with relays := relays } : Privates))
    (Function.update_eq_self slot (privates s).relays)

theorem keeps_setErrno (error : ℤ) : Keeps privates allowed (setErrno error) :=
  keeps_store fun _ ↦ rfl

theorem keeps_fail (error : ℤ) : Keeps privates allowed (fail error) :=
  Keeps.bind (keeps_setErrno error) fun _ ↦ keeps_pure _

theorem keeps_lwip {request : LwipCall} (hallowed : allowed (.lwip request)) :
    Keeps privates allowed (lwip request) :=
  Keeps.bind (keeps_perform hallowed) fun _ ↦ Keeps.bind (keeps_setErrno _) fun _ ↦ keeps_pure _

theorem keeps_callNative {request : Export} (hallowed : allowed (.native request)) :
    Keeps privates allowed (callNative request) :=
  Keeps.bind (keeps_setErrno (-1)) fun _ ↦ keeps_perform hallowed

theorem keeps_untrackFd (fd : ℕ) : Keeps privates allowed (untrackFd fd) := keeps_store fun _ ↦ rfl

theorem keeps_unmapFd (sockfd : ℤ) : Keeps privates allowed (unmapFd sockfd) :=
  Keeps.bind (keeps_untrackFd _) fun _ ↦ keeps_store fun _ ↦ rfl

theorem keeps_forgetNative (fd : ℕ) : Keeps privates allowed (forgetNative fd) :=
  Keeps.bind (keeps_store fun _ ↦ rfl) fun _ ↦
    Keeps.bind (keeps_store fun _ ↦ rfl) fun _ ↦ keeps_store fun _ ↦ rfl

theorem keeps_forgetConnections : Keeps privates allowed forgetConnections :=
  Keeps.each fun _ _ ↦ keeps_store fun _ ↦ rfl

theorem keeps_noteActivity : Keeps privates allowed noteActivity := by
  refine keeps_store fun s ↦ ?_
  split <;> rfl

theorem keeps_nsslTrackPublicConnection (fd connection : ℤ) :
    Keeps privates allowed (nsslTrackPublicConnection fd connection) :=
  Keeps.when (Keeps.bind (keeps_store fun _ ↦ rfl) fun _ ↦ keeps_store fun _ ↦ rfl)

theorem keeps_nsslRelayStopSlot (slot : ℤ) : Keeps privates allowed (nsslRelayStopSlot slot) :=
  Keeps.when <| Keeps.bind (keeps_loadRelay _ _) fun _ ↦
    Keeps.when (keeps_storeRelay fun _ ↦ rfl)

theorem keeps_nsslRelayDetachPublicFd (fd : ℤ) :
    Keeps privates allowed (nsslRelayDetachPublicFd fd) := by
  have hdetach : ∀ slot s, privates (detachSlot fd slot s).2 = privates s := by
    intro slot s
    unfold detachSlot
    split
    · exact (keeps_storeRelay (fun _ ↦ rfl) :
        Keeps privates allowed (storeRelay slot fun r ↦ { r with publicFd := -1 })).1 s
    · rfl
  unfold nsslRelayDetachPublicFd
  induction List.range nsslRelayMax with
  | nil => exact keeps_pure ()
  | cons slot rest ih =>
    refine Keeps.bind (keeps_loadRelay slot _) fun _ ↦ Keeps.ite ih ?_
    exact Keeps.bind (keeps_access (hdetach slot)) fun _ ↦
      Keeps.ite (keeps_storeRelay fun _ ↦ rfl) ih

end Frames

/-! ## The title -/

section Title

variable {pumping : ℕ → Option ℤ} {P : Privates → PrivateWorld → Prop} {x : PrivateMachine}
  {slot : ℕ}

abbrev titleWp (program : ShimM α) (post : α → PrivateMachine → Prop) (x : PrivateMachine) : Prop :=
  wp (privateReply false) (fun _ _ ↦ True) program post x

theorem title_frame {program : ShimM α} (hkeeps : Keeps privates Inert program) (hx : At P x) :
    titleWp program (fun _ ↦ At P) x :=
  private_frame hkeeps (fun _ hinert ↦ hinert) (fun _ _ _ _ ↦ trivial) hx

theorem title_close {fd : ℤ} (hx : At (fun t w ↦ PrivateInv pumping t w ∧ Public fd t w) x) :
    titleWp (native (.socketclose fd)) (fun _ ↦ At (PrivateInv pumping)) x := by
  refine private_perform trivial fun answer w heffect ↦ ?_
  cases heffect
  exact hx.1.closeNative hx.2

theorem title_placeholder (lwfd type protocol : ℤ) (hx : At (PrivateInv pumping) x) :
    titleWp (placeholder lwfd type protocol) (fun _ ↦ At (PrivateInv pumping)) x := by
  refine (wp_bind _ _ _ _).mpr (private_perform trivial fun fd w hopen ↦ ?_)
  obtain ⟨hinv, -, hfresh, -⟩ := PrivateInv.openNative hx hopen
  refine wp_cases (fun _ ↦ ?_) fun _ ↦ ?_
  · have hclose : titleWp (when (fd.code ≥ 0) (ignore (native (.socketclose fd.code))))
        (fun _ ↦ At (PrivateInv pumping)) { x with world := w } := by
      refine wp_cases (fun hpos ↦ ?_) fun _ ↦ hinv
      exact wp_seq (title_close ⟨hinv, (hfresh hpos).2⟩) fun _ _ hy ↦ hy
    refine wp_seq hclose fun _ y hy ↦ title_frame ?_ hy
    exact Keeps.bind (keeps_ignore (keeps_lwip trivial)) fun _ ↦
      Keeps.bind (keeps_setErrno emfile) fun _ ↦ keeps_pure _
  · refine title_frame (Keeps.bind ?_ fun _ ↦ keeps_pure _) (x := { x with world := w }) hinv
    refine Keeps.bind (keeps_store fun _ ↦ rfl) fun _ ↦ Keeps.bind (keeps_store fun _ ↦ rfl)
      fun _ ↦ Keeps.bind (keeps_store fun _ ↦ rfl) fun _ ↦ ?_
    exact Keeps.bind (keeps_perform trivial) fun _ ↦ keeps_pure _

theorem title_callOpen {request : Export} (hx : At (PrivateInv pumping) x)
    (heffect : ∀ s w answer, privateEffect false s w (.native request) answer =
      w.openNative false answer.code) :
    titleWp (callNative request) (fun _ ↦ At (PrivateInv pumping)) x := by
  refine wp_seq (title_frame (keeps_setErrno (-1)) hx) fun _ y hy ↦ ?_
  refine private_perform trivial fun answer w hopen ↦ ?_
  rw [heffect] at hopen
  exact (PrivateInv.openNative hy hopen).1

theorem title_hookSocket (domain type protocol : ℤ) (hx : At (PrivateInv pumping) x) :
    titleWp (hookSocket domain type protocol) (fun _ ↦ At (PrivateInv pumping)) x := by
  have hroute : Keeps privates Inert (socketRoute domain) := by
    refine Keeps.bind (keeps_load _) fun _ ↦ Keeps.ite (keeps_pure _) ?_
    refine Keeps.bind keeps_shimAccepts fun _ ↦ Keeps.ite (keeps_pure _) ?_
    exact Keeps.bind (keeps_perform trivial) fun _ ↦ keeps_pure _
  have hsocket : Keeps privates Inert (lwipSocket domain type protocol) := by
    refine Keeps.bind (keeps_lwip trivial) fun _ ↦ Keeps.ite ?_ (keeps_pure _)
    exact Keeps.bind (keeps_lwip trivial) fun _ ↦ keeps_pure _
  refine wp_seq (title_frame hroute hx) fun route y hy ↦ wp_cases (fun _ ↦ ?_) fun _ ↦ ?_
  · exact title_callOpen hy fun _ _ _ ↦ rfl
  refine wp_seq (title_frame (keeps_setErrno 0) hy) fun _ y hy ↦ ?_
  refine wp_seq (title_frame hsocket hy) fun s y hy ↦ wp_cases (fun _ ↦ hy) fun _ ↦ ?_
  have hdefaults : Keeps privates Inert (socketDefaults s (type % 16)) :=
    Keeps.bind (keeps_ignore (keeps_lwip trivial)) fun _ ↦
      Keeps.bind (Keeps.when (keeps_ignore (keeps_lwip trivial))) fun _ ↦
        Keeps.when (keeps_ignore (keeps_lwip trivial))
  refine wp_seq (title_frame hdefaults hy) fun _ y hy ↦ ?_
  refine wp_seq (title_placeholder s _ protocol hy) fun fd y hy ↦ ?_
  cases fd with
  | none => exact hy
  | some fd => exact wp_seq (title_frame keeps_noteActivity hy) fun _ _ hz ↦ hz

theorem title_hookAccept (sockfd : ℤ) (addr : Bool) (addrlen : Option ℕ)
    (hx : At (PrivateInv pumping) x) :
    titleWp (hookAccept sockfd addr addrlen) (fun _ ↦ At (PrivateInv pumping)) x := by
  refine wp_seq (title_frame (keeps_isForeign sockfd) hx) fun foreign y hy ↦ ?_
  refine wp_cases (fun _ ↦ title_callOpen hy fun _ _ _ ↦ rfl) fun _ ↦ ?_
  refine wp_seq (title_frame (keeps_setErrno 0) hy) fun _ y hy ↦ ?_
  refine wp_cases (fun _ ↦ title_frame (keeps_fail efault) hy) fun _ ↦ ?_
  refine wp_seq (title_frame (keeps_stackFd sockfd) hy) fun lwfd y hy ↦ ?_
  refine wp_seq (title_frame (keeps_lwip trivial) hy) fun s y hy ↦ wp_cases (fun _ ↦ hy) fun _ ↦ ?_
  refine wp_seq (title_frame (keeps_ignore (keeps_lwip trivial)) hy) fun _ y hy ↦ ?_
  refine wp_seq (title_frame (keeps_ignore (keeps_lwip trivial)) hy) fun _ y hy ↦ ?_
  refine wp_seq (title_placeholder s.code sockStream 0 hy) fun fd y hy ↦ ?_
  cases fd with
  | none => exact hy
  | some fd => exact hy

/-- A title that closes a descriptor of its own. -/
theorem title_hookSocketclose (sockfd : ℤ) (hx : At (PrivateInv pumping) x)
    (hpublic : At (Public sockfd) x) :
    titleWp (hookSocketclose sockfd) (fun _ ↦ At (PrivateInv pumping)) x := by
  have hx : At (fun t w ↦ PrivateInv pumping t w ∧ Public sockfd t w) x := ⟨hx, hpublic⟩
  refine wp_seq (title_frame (keeps_isForeign sockfd) hx) fun foreign y hy ↦ ?_
  refine wp_cases (fun _ ↦ ?_) fun _ ↦ ?_
  · refine wp_seq (title_frame (Keeps.when (keeps_forgetNative _)) hy) fun _ y hy ↦ ?_
    refine wp_seq (title_frame (keeps_nsslRelayDetachPublicFd sockfd) hy) fun _ y hy ↦ ?_
    exact wp_seq (title_frame (keeps_setErrno (-1)) hy) fun _ y hy ↦ title_close hy
  · refine wp_seq (title_frame (keeps_setErrno 0) hy) fun _ y hy ↦ ?_
    refine wp_seq (title_frame (keeps_stackFd sockfd) hy) fun lwfd y hy ↦ ?_
    refine wp_seq (title_frame (keeps_lwip trivial) hy) fun r y hy ↦ ?_
    have hclose : titleWp (when (r.code = 0) do
        untrackFd sockfd.toNat
        ignore (native (.socketclose sockfd))) (fun _ ↦ At (PrivateInv pumping)) y := by
      refine wp_cases (fun _ ↦ ?_) fun _ ↦ hy.1
      refine wp_seq (title_frame (keeps_untrackFd _) hy) fun _ z hz ↦ ?_
      exact wp_seq (title_close hz) fun _ _ h ↦ h
    exact wp_seq hclose fun _ _ hz ↦ hz

/-- Without private descriptors the title may close everything. -/
theorem title_hookSocketcloseAll (hx : At (PrivateInv pumping) x)
    (hnone : At (fun t w ↦ ∀ i, owner t w i = none) x) :
    titleWp hookSocketcloseAll (fun _ ↦ At (PrivateInv pumping)) x := by
  have hall : ∀ y : PrivateMachine,
      At (fun t w ↦ PrivateInv pumping t w ∧ ∀ i, owner t w i = none) y →
      titleWp (callNative .socketcloseAll) (fun _ ↦ At (PrivateInv pumping)) y := by
    intro y hy
    refine wp_seq (title_frame (keeps_setErrno (-1)) hy) fun _ z hz ↦ ?_
    refine private_perform trivial fun answer w heffect ↦ ?_
    have hworld := Option.some.inj heffect
    split at hworld
    · rw [← hworld]
      exact hz.1.closeAll hz.2
    · rw [← hworld]
      exact hz.1
  have hx : At (fun t w ↦ PrivateInv pumping t w ∧ ∀ i, owner t w i = none) x := ⟨hx, hnone⟩
  refine wp_seq (title_frame (keeps_store fun _ ↦ rfl) hx) fun _ y hy ↦ ?_
  refine wp_seq (title_frame (keeps_store fun _ ↦ rfl) hy) fun _ y hy ↦ ?_
  refine wp_seq (title_frame keeps_forgetConnections hy) fun _ y hy ↦ ?_
  refine wp_seq (title_frame keeps_shimAccepts hy) fun accepting y hy ↦ ?_
  refine wp_cases (fun _ ↦ hall y hy) fun _ ↦ ?_
  refine wp_seq (title_frame (keeps_access fun _ ↦ rfl) hy) fun mask y hy ↦ ?_
  refine wp_seq (title_frame (Keeps.each fun fd _ ↦ Keeps.when ?_) hy) fun _ z hz ↦ hall z hz
  exact Keeps.bind (keeps_stackFd _) fun _ ↦ keeps_ignore (keeps_lwip trivial)

theorem keeps_hookBind (sockfd : ℤ) (addr : Option Sockaddr) (addrlen : ℕ) :
    Keeps privates Inert (hookBind sockfd addr addrlen) := by
  have hrewrite : ∀ l, Keeps privates Inert (ftpRewriteBindToAx sockfd l) := by
    intro l
    refine Keeps.bind (keeps_stackFd _) fun _ ↦ Keeps.bind (keeps_lwip trivial) fun _ ↦ ?_
    refine Keeps.ite (keeps_pure _) (Keeps.bind (keeps_perform trivial) fun _ ↦ ?_)
    refine Keeps.ite (keeps_pure _) (Keeps.ite ?_ (Keeps.ite ?_ (keeps_pure _)))
    · exact Keeps.bind (keeps_store fun _ ↦ rfl) fun _ ↦
        Keeps.bind (keeps_store fun _ ↦ rfl) fun _ ↦ keeps_pure _
    · refine Keeps.bind (keeps_load _) fun _ ↦ Keeps.ite (keeps_pure _) ?_
      exact Keeps.bind (keeps_load _) fun _ ↦ keeps_pure _
  refine Keeps.bind (keeps_isForeign sockfd) fun _ ↦ Keeps.ite (keeps_callNative trivial) ?_
  refine Keeps.bind (keeps_setErrno 0) fun _ ↦ ?_
  cases sockaddrToLwip addr addrlen with
  | none => exact keeps_fail eafnosupport
  | some l =>
    refine Keeps.ite ?_ (Keeps.bind (hrewrite l) fun _ ↦ ?_)
    · refine Keeps.bind (keeps_stackFd _) fun _ ↦ ?_
      refine Keeps.bind (keeps_ignore (keeps_lwip trivial)) fun _ ↦ ?_
      exact Keeps.bind (keeps_untrackFd _) fun _ ↦ keeps_callNative trivial
    · exact Keeps.bind (keeps_stackFd _) fun _ ↦
        Keeps.bind (keeps_lwip trivial) fun _ ↦ keeps_pure _

end Title

/-! ## The bridge -/

/-- A reserved relay waits for its descriptor. -/
def Bridging (pumping : ℕ → Option ℤ) (slot : ℕ) (t : Privates) (w : PrivateWorld) : Prop :=
  PrivateInv pumping t w ∧ w.live slot = true ∧ (t.relays slot).2.2 < 0

section Bridge

variable {pumping : ℕ → Option ℤ} {x : PrivateMachine} {slot : ℕ}

theorem title_reapSlot (slot : ℕ) (hx : At (PrivateInv pumping) x) :
    titleWp (reapSlot slot) (fun _ ↦ At (PrivateInv pumping)) x := by
  have hreapable : titleWp (reapable slot) (fun free y ↦ At (PrivateInv pumping) y ∧
      (free = true → y.world.live slot = false)) x := by
    refine wp_seq (title_frame (keeps_loadRelay slot _) hx) fun _ y hy ↦ ?_
    refine wp_cases (fun _ ↦ ⟨hy, nofun⟩) fun _ ↦ ?_
    refine wp_seq (title_frame (keeps_loadRelay slot _) hy) fun _ y hy ↦ ?_
    refine wp_cases (fun _ ↦ ⟨hy, nofun⟩) fun _ ↦ ?_
    refine (wp_bind _ _ _ _).mpr (private_perform trivial fun terminated w heffect ↦ ?_)
    simp only [privateEffect] at heffect
    split at heffect
    · rename_i hterminated
      cases heffect
      exact ⟨hy, fun hfree ↦ hterminated.mp (of_decide_eq_true hfree)⟩
    · cases heffect
  refine wp_seq hreapable fun free y ⟨hy, hidle⟩ ↦ wp_cases (fun hfree ↦ ?_) fun _ ↦ hy
  have hy : At (fun t w ↦ PrivateInv pumping t w ∧ w.live slot = false) y := ⟨hy, hidle hfree⟩
  refine wp_seq (title_frame (keeps_ignore (keeps_perform trivial)) hy) fun _ z hz ↦ ?_
  refine wp_seq (title_frame (keeps_storeRelay fun _ ↦ rfl) hz) fun _ v hv ↦ ?_
  exact private_storeRelay (hv.1.setIdle hv.2 _)

theorem title_nsslRelayReserveFrom (slots : List ℕ) (hx : At (PrivateInv pumping) x) :
    titleWp (nsslRelayReserveFrom slots) (fun slot y ↦ At (PrivateInv pumping) y ∧
      (0 ≤ slot → At (Bridging pumping slot.toNat) y)) x := by
  induction slots with
  | nil => exact ⟨hx, fun hpos ↦ absurd hpos (by decide)⟩
  | cons slot rest ih =>
    rw [titleWp, nsslRelayReserveFrom, wp_bind, wp_access]
    by_cases hfree : (x.mem.nsslRelays slot).allocated = 0
    · have hidle : x.world.live slot = false :=
        Bool.eq_false_iff.mpr fun hlive ↦ hx.allocated slot hlive hfree
      simp only [claimRelay, if_pos hfree, Bool.not_true, Bool.false_eq_true, if_false]
      simp only [resetRelay, wp_bind, storeRelay, wp_store]
      set s := ((((((x.mem.setRelay slot _).setRelay slot _).setRelay slot _).setRelay slot
        _).setRelay slot _).setRelay slot _) with hs
      have hview : privates s = (privates x.mem).setRelay slot (1, 0, -1) := by
        rw [hs]
        simp only [privates_setRelay, Privates.setRelay, Function.update_idem,
          ShimState.setRelay_self, relayView]
      have hreset : PrivateInv pumping (privates s) x.world := by
        rw [hview]
        exact hx.setIdle hidle _
      refine private_perform trivial fun created w heffect ↦ ?_
      have hworld := Option.some.inj heffect
      refine wp_cases (fun hnone ↦ ?_) fun hsome ↦ ?_
      · -- no thread: the slot is free again
        rw [if_pos hnone] at hworld
        rw [← hworld]
        have hfreed : titleWp (storeRelay slot fun r ↦ { r with allocated := 0 })
            (fun _ ↦ At (PrivateInv pumping)) { mem := s, world := x.world } :=
          private_storeRelay (hreset.setIdle hidle _)
        exact wp_seq hfreed fun _ z hz ↦ ⟨hz, fun hpos ↦ absurd hpos (by decide)⟩
      · rw [if_neg hsome] at hworld
        have hrelay : (privates s).relays slot = (1, 0, -1) := by
          rw [hview]
          exact Privates.setRelay_self _ _ _
        have hlive : At (Bridging pumping slot) { mem := s, world := w } := by
          rw [← hworld]
          refine ⟨hreset.start hrelay, Function.update_self slot true x.world.live, ?_⟩
          change ((privates s).relays slot).2.2 < 0
          rw [hrelay]
          decide
        refine wp_seq (title_frame (keeps_ignore (keeps_perform trivial)) hlive) fun _ z hz ↦ ?_
        exact ⟨hz.1, fun _ ↦ hz⟩
    · simp only [claimRelay, if_neg hfree, Bool.not_false, if_true]
      exact ih

/-- The bridge is given up. -/
theorem title_bridgeFail (listener slot code : ℤ)
    (hx : At (fun t w ↦ PrivateInv pumping t w ∧ Public listener t w) x) :
    titleWp (bridgeFail listener slot code) (fun _ ↦ At (PrivateInv pumping)) x := by
  have hclose : titleWp (ignore (native (.socketclose listener)))
      (fun _ ↦ At (PrivateInv pumping)) x := wp_seq (title_close hx) fun _ _ hy ↦ hy
  refine wp_seq hclose fun _ y hy ↦ ?_
  exact wp_seq (title_frame (keeps_nsslRelayStopSlot slot) hy) fun _ _ hz ↦ hz

theorem keeps_realSocketlasterr : Keeps privates Inert realSocketlasterr :=
  Keeps.bind (keeps_perform trivial) fun _ ↦ keeps_pure _

theorem title_bridgeFailNative (listener slot base : ℤ)
    (hx : At (fun t w ↦ PrivateInv pumping t w ∧ Public listener t w) x) :
    titleWp (bridgeFailNative listener slot base) (fun _ ↦ At (PrivateInv pumping)) x :=
  wp_seq (title_frame keeps_realSocketlasterr hx) fun _ _ hy ↦ title_bridgeFail _ _ _ hy

theorem title_bridgePublish (sockfd lwfd accepted : ℤ) (hpos : 0 ≤ accepted)
    (hx : At (fun t w ↦ Bridging pumping slot t w ∧ Unheld accepted t w) x) :
    titleWp (bridgePublish sockfd lwfd accepted slot) (fun _ ↦ At (PrivateInv pumping)) x := by
  obtain ⟨⟨hinv, hlive, hneg⟩, hopen, hpublic⟩ := hx
  rw [titleWp, bridgePublish, wp_bind, storeRelay, wp_store, wp_bind, storeRelay, wp_store,
    ShimState.setRelay_setRelay]
  set s := x.mem.setRelay slot fun r ↦ { r with nativeFd := accepted, lwfd := lwfd } with hs
  have hview : privates s = (privates x.mem).setRelay slot
      (((privates x.mem).relays slot).1, ((privates x.mem).relays slot).2.1, accepted) := by
    rw [hs, privates_setRelay]
    rfl
  have hnote : titleWp (note (.adopted slot)) (fun _ ↦ At fun t w ↦ PrivateInv pumping t w ∧
      0 ≤ (t.relays slot).2.2) { x with mem := s } := by
    refine (wp_bind _ _ _ _).mpr (private_perform trivial fun answer w heffect ↦ ?_)
    have hworld := Option.some.inj heffect
    have hfd : (s.nsslRelays slot).nativeFd = accepted := by
      rw [hs, ShimState.setRelay_self]
    rw [hfd] at hworld
    refine ⟨?_, ?_⟩
    · rw [← hworld]
      change PrivateInv pumping (privates s) _
      rw [hview]
      exact hinv.adopt hlive hneg hpos hopen hpublic
    · change 0 ≤ (s.nsslRelays slot).nativeFd
      rw [hfd]
      exact hpos
  refine wp_seq hnote fun _ y hy ↦ ?_
  refine wp_seq (title_frame (keeps_storeRelay fun _ ↦ rfl) hy) fun _ y hy ↦ ?_
  refine wp_seq (title_frame (keeps_unmapFd sockfd) hy) fun _ y hy ↦ ?_
  have hready : titleWp (storeRelay slot fun r ↦ { r with ready := 1 })
      (fun _ ↦ At (PrivateInv pumping)) y :=
    private_storeRelay (hy.1.setRelay fun hlive ↦ ⟨hy.1.allocated slot hlive, rfl, fun _ ↦ hy.2⟩)
  exact wp_seq hready fun _ _ hz ↦ hz

theorem title_bridgeConnect (sockfd lwfd listener slot : ℤ) (loc : Sockaddr)
    (hx : At (fun t w ↦ Bridging pumping slot.toNat t w ∧ Unheld listener t w) x) :
    titleWp (bridgeConnect sockfd lwfd listener slot loc) (fun _ ↦ At (PrivateInv pumping)) x := by
  refine wp_seq (title_frame (keeps_perform trivial) hx) fun connected y hy ↦ ?_
  refine wp_cases (fun _ ↦ title_bridgeFailNative _ _ _ ⟨hy.1.1, hy.2.2⟩) fun _ ↦ ?_
  refine (wp_bind _ _ _ _).mpr (private_perform trivial fun accepted w hopen ↦ ?_)
  obtain ⟨⟨hinv, hlive, hneg⟩, hlistener⟩ := hy
  obtain ⟨hinv, hsame, hfresh, hothers⟩ := hinv.openNative hopen
  obtain ⟨hlistener, hne⟩ := hothers listener hlistener
  have hclose : titleWp (ignore (native (.socketclose listener)))
      (fun _ ↦ At fun t w ↦ Bridging pumping slot.toNat t w ∧
        (0 ≤ accepted.code → Unheld accepted.code t w)) { y with world := w } := by
    refine (wp_bind _ _ _ _).mpr (private_perform trivial fun answer w' heffect ↦ ?_)
    cases heffect
    refine ⟨⟨hinv.closeNative hlistener.2, ?_, hneg⟩, fun hpos ↦ ?_⟩
    · rw [closeNative_live, hsame]
      exact hlive
    · exact (hfresh hpos).closeNative (hne hpos)
  refine wp_seq hclose fun _ z hz ↦ wp_cases (fun _ ↦ ?_) fun hpos ↦ ?_
  · refine wp_seq (title_frame keeps_realSocketlasterr hz) fun _ z hz ↦ ?_
    exact wp_seq (title_frame (keeps_nsslRelayStopSlot slot) hz) fun _ v hv ↦ hv.1.1
  · exact title_bridgePublish _ _ _ (by omega) ⟨hz.1, hz.2 (by omega)⟩

theorem title_bridgeListen (sockfd lwfd listener slot : ℤ)
    (hx : At (fun t w ↦ Bridging pumping slot.toNat t w ∧ Unheld listener t w) x) :
    titleWp (bridgeListen sockfd lwfd listener slot) (fun _ ↦ At (PrivateInv pumping)) x := by
  refine wp_seq (title_frame (keeps_lwip trivial) hx) fun parsed y hy ↦ ?_
  refine wp_cases (fun _ ↦ title_bridgeFail _ _ _ ⟨hy.1.1, hy.2.2⟩) fun _ ↦ ?_
  refine wp_seq (title_frame (keeps_perform trivial) hy) fun bound y hy ↦ ?_
  refine wp_cases (fun _ ↦ title_bridgeFailNative _ _ _ ⟨hy.1.1, hy.2.2⟩) fun _ ↦ ?_
  refine wp_seq (title_frame (keeps_perform trivial) hy) fun listening y hy ↦ ?_
  refine wp_cases (fun _ ↦ title_bridgeFailNative _ _ _ ⟨hy.1.1, hy.2.2⟩) fun _ ↦ ?_
  refine wp_seq (title_frame (keeps_perform trivial) hy) fun name y hy ↦ ?_
  refine wp_cases (fun _ ↦ title_bridgeFailNative _ _ _ ⟨hy.1.1, hy.2.2⟩) fun _ ↦ ?_
  exact title_bridgeConnect _ _ _ _ _ hy

theorem title_bridgeAxSocketToNssl (sockfd : ℤ) (hx : At (PrivateInv pumping) x) :
    titleWp (bridgeAxSocketToNssl sockfd) (fun _ ↦ At (PrivateInv pumping)) x := by
  refine wp_seq (title_frame (keeps_isForeign sockfd) hx) fun foreign y hy ↦ ?_
  refine wp_cases (fun _ ↦ hy) fun _ ↦ ?_
  refine wp_seq (title_frame (keeps_stackFd sockfd) hy) fun lwfd y hy ↦ ?_
  refine wp_seq (title_frame (keeps_lwip trivial) hy) fun peer y hy ↦ ?_
  refine wp_cases (fun _ ↦ hy) fun _ ↦ wp_cases (fun _ ↦ hy) fun _ ↦ ?_
  have hreserve : titleWp nsslRelayReserve (fun slot z ↦ At (PrivateInv pumping) z ∧
      (0 ≤ slot → At (Bridging pumping slot.toNat) z)) y := by
    refine wp_seq (wp_each hy fun slot _ z hz ↦ title_reapSlot slot hz) fun _ z hz ↦ ?_
    exact title_nsslRelayReserveFrom _ hz
  refine wp_seq hreserve fun slot z ⟨hz, hreserved⟩ ↦ wp_cases (fun _ ↦ hz) fun hslot ↦ ?_
  obtain ⟨hinv, hlive, hneg⟩ := hreserved (by omega)
  refine (wp_bind _ _ _ _).mpr (private_perform trivial fun listener w hopen ↦ ?_)
  obtain ⟨hinv, hsame, hfresh, -⟩ := hinv.openNative hopen
  refine wp_cases (fun _ ↦ ?_) fun hpos ↦ ?_
  · exact wp_seq (title_frame (keeps_nsslRelayStopSlot slot) (x := { z with world := w }) hinv)
      fun _ _ hv ↦ hv
  · refine title_bridgeListen _ _ _ _ ⟨⟨hinv, ?_, hneg⟩, hfresh (by omega)⟩
    rw [hsame]
    exact hlive

theorem keeps_promoteAxSocketToNative (sockfd : ℤ) :
    Keeps privates Inert (promoteAxSocketToNative sockfd) := by
  refine Keeps.bind (keeps_isForeign sockfd) fun _ ↦ Keeps.ite (keeps_pure _) ?_
  refine Keeps.bind (keeps_stackFd sockfd) fun _ ↦ Keeps.bind (keeps_lwip trivial) fun peer ↦ ?_
  refine Keeps.ite (keeps_pure _) ?_
  cases sockaddrToLwip peer.addr 16 with
  | none => exact keeps_pure _
  | some address =>
    refine Keeps.bind (keeps_setErrno (-1)) fun _ ↦ Keeps.bind (keeps_perform trivial) fun _ ↦ ?_
    refine Keeps.ite (Keeps.bind keeps_realSocketlasterr fun _ ↦ keeps_pure _) ?_
    refine Keeps.bind (keeps_unmapFd sockfd) fun _ ↦ ?_
    exact Keeps.bind (keeps_ignore (keeps_lwip trivial)) fun _ ↦ keeps_pure _

theorem title_hookNsslCreateConnection (context : ℤ) (host : Option String)
    (hostLength options sockfd block : ℤ) (hx : At (PrivateInv pumping) x) :
    titleWp (hookNsslCreateConnection context host hostLength options sockfd block)
      (fun _ ↦ At (PrivateInv pumping)) x := by
  have hprepare : titleWp (nsslPrepare sockfd) (fun _ ↦ At (PrivateInv pumping)) x := by
    refine wp_seq (title_frame (keeps_isForeign sockfd) hx) fun foreign y hy ↦ ?_
    refine wp_cases (fun _ ↦ hy) fun _ ↦ ?_
    refine wp_seq (title_frame (keeps_load _) hy) fun bridge y hy ↦ ?_
    refine wp_cases (fun _ ↦ ?_) fun _ ↦ ?_
    · exact wp_seq (title_bridgeAxSocketToNssl sockfd hy) fun _ _ hz ↦ hz
    · exact wp_seq (title_frame (keeps_promoteAxSocketToNative sockfd) hy) fun _ _ hz ↦ hz
  refine wp_seq hprepare fun prepared y hy ↦ ?_
  refine title_frame (Keeps.ite (keeps_pure _) (Keeps.bind (keeps_perform trivial) fun _ ↦ ?_)) hy
  refine Keeps.bind (Keeps.when (Keeps.ite ?_ ?_)) fun _ ↦ keeps_pure _
  · exact keeps_nsslRelayStopSlot _
  · exact keeps_nsslTrackPublicConnection _ _

end Bridge

end Ax88179Aroma.Shim.Private
