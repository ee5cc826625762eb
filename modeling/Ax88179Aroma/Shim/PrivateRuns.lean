import Ax88179Aroma.Shim.Private
import Ax88179Aroma.Shim.TitleRuns

/-!
# Runs with private descriptors

The title calls its hooks, the relays make one turn at a time and the worker of the module polls the
proxy, in any order.  As long as the title closes no private descriptor, every call of a relay or of
the proxy is made on the socket that was accepted or connected for it.  `socketclose_all` closes
the private descriptors too, and a pump then goes on with a socket of the title.
-/

namespace Ax88179Aroma.Shim.Private

open Effect Program

/-- A call on a descriptor is a call on this socket. -/
def OnSocket (socket : PrivateWorld → Option ℕ) (request : ShimCall) (x : PrivateMachine) : Prop :=
  ∀ fd, usedFd request = some fd →
    x.world.native fd ≠ none ∧ x.world.native fd = socket x.world

theorem onSocket_of_owner {pumping : ℕ → Option ℤ} {x : PrivateMachine} {i : Option ℕ} {fd : ℤ}
    (h : At (PrivateInv pumping) x) (hi : owner (privates x.mem) x.world i = some fd)
    {request : ShimCall} (hused : ∀ n, usedFd request = some n → n = fd) :
    OnSocket (fun w ↦ recorded w i) request x := by
  intro n hn
  rw [hused n hn]
  exact ⟨h.held.isOpen_of_own i fd hi, h.socket i fd hi⟩

theorem onSocket_of_unused {socket : PrivateWorld → Option ℕ} {request : ShimCall}
    {x : PrivateMachine} (hunused : usedFd request = none) : OnSocket socket request x := by
  intro fd hfd
  rw [hunused] at hfd
  cases hfd

/-! ## Relays -/

namespace PrivateWorld

/-- The worker of a slot has ended. -/
def stop (w : PrivateWorld) (slot : ℕ) : PrivateWorld :=
  { w with live := Function.update w.live slot false }

theorem stop_self (w : PrivateWorld) (slot : ℕ) : (w.stop slot).live slot = false :=
  Function.update_self _ _ _

theorem stop_of_ne (w : PrivateWorld) {slot other : ℕ} (hne : other ≠ slot) :
    (w.stop slot).live other = w.live other := Function.update_of_ne hne _ _

theorem stop_closeNative (w : PrivateWorld) (slot : ℕ) (fd code : ℤ) :
    (w.closeNative fd code).stop slot = (w.stop slot).closeNative fd code := by
  unfold closeNative
  split <;> rfl

end PrivateWorld

section Relays

variable {pumping : ℕ → Option ℤ} {t : Privates} {w : PrivateWorld} {x : PrivateMachine} {slot : ℕ}

theorem owner_stop_self (t : Privates) (w : PrivateWorld) (slot : ℕ) :
    owner t (w.stop slot) (some slot) = none := by
  refine if_neg fun hboth ↦ ?_
  rw [w.stop_self] at hboth
  cases hboth.1

theorem owner_stop_of_ne {i : Option ℕ} (hi : i ≠ some slot) :
    owner t (w.stop slot) i = owner t w i := by
  cases i with
  | none => rfl
  | some other =>
    have hne : other ≠ slot := fun hsame ↦ hi (hsame ▸ rfl)
    simp only [owner, w.stop_of_ne hne]

/-- When a worker has ended its descriptor is nobody's. -/
theorem PrivateInv.stop (h : PrivateInv pumping t w) (slot : ℕ) :
    PrivateInv (Function.update pumping slot none) t (w.stop slot) ∧
      ∀ fd, owner t w (some slot) = some fd → Public fd t (w.stop slot) := by
  have hkeep : ∀ i fd, owner t (w.stop slot) i = some fd → i ≠ some slot ∧ owner t w i = some fd := by
    intro i fd hi
    have hne : i ≠ some slot := by
      intro hsame
      rw [hsame, owner_stop_self] at hi
      cases hi
    exact ⟨hne, (owner_stop_of_ne hne).symm.trans hi⟩
  have hlive : ∀ other, (w.stop slot).live other = true → w.live other = true := by
    intro other hother
    by_cases hsame : other = slot
    · rw [hsame, w.stop_self] at hother
      cases hother
    · exact (w.stop_of_ne hsame).symm.trans hother
  refine ⟨⟨h.held.mono (fun _ hopen ↦ hopen) fun i fd hi ↦ (hkeep i fd hi).2,
    fun i fd hi ↦ ?_, fun other hother ↦ h.allocated other (hlive other hother),
    fun other hother ↦ h.ready other (hlive other hother), fun other fd hfd ↦ ?_, h.proxy⟩,
    fun fd hfd i hi ↦ ?_⟩
  · refine (h.socket i fd (hkeep i fd hi).2).trans ?_
    cases i with
    | none => rfl
    | some other => rfl
  · by_cases hsame : other = slot
    · rw [hsame, Function.update_self] at hfd
      cases hfd
    · rw [Function.update_of_ne hsame] at hfd
      exact (owner_stop_of_ne fun heq ↦ hsame (Option.some.inj heq)).trans (h.pumps other fd hfd)
  · obtain ⟨hne, hsome⟩ := hkeep i fd hi
    exact hne (h.held.holder_unique i (some slot) fd hsome hfd)

/-- What a turn of a relay promises about its calls. -/
abbrev relayWp (slot : ℕ) (program : ShimM α) (post : α → PrivateMachine → Prop)
    (x : PrivateMachine) : Prop :=
  wp (privateReply false) (OnSocket fun w ↦ w.adopted slot) program post x

/-- Calls on no descriptor that leave the world as it is. -/
def Quiet (request : ShimCall) : Prop := Inert request ∧ usedFd request = none

theorem relay_frame {P : Privates → PrivateWorld → Prop} {program : ShimM α}
    (hkeeps : Keeps privates Quiet program) (hx : At P x) :
    relayWp slot program (fun _ ↦ At P) x :=
  private_frame hkeeps (fun _ hquiet ↦ hquiet.1) (fun _ _ hquiet _ ↦ onSocket_of_unused hquiet.2) hx

/-- The worker closes its descriptor. -/
theorem relay_relayOut (hx : At (PrivateInv pumping) x) (hlive : x.world.live slot = true) :
    relayWp slot (relayOut slot) (fun _ ↦ At fun t w ↦
      PrivateInv (Function.update pumping slot none) t (w.stop slot)) x := by
  have hfd : relayWp slot (loadRelay slot NsslRelay.nativeFd) (fun fd y ↦ y = x ∧
      fd = ((privates x.mem).relays slot).2.2) x := ⟨rfl, rfl⟩
  obtain ⟨hstopped, hpublic⟩ := PrivateInv.stop hx slot
  refine wp_seq hfd fun fd y ⟨hy, hfd⟩ ↦ ?_
  rw [hy]
  have hclose : relayWp slot (when (fd ≥ 0) do
      ignore (native (.socketclose fd))
      storeRelay slot fun r ↦ { r with nativeFd := -1 })
      (fun _ ↦ At fun t w ↦ PrivateInv (Function.update pumping slot none) t (w.stop slot)) x := by
    refine wp_cases (fun hpos ↦ ?_) fun _ ↦ hstopped
    have hown : owner (privates x.mem) x.world (some slot) = some fd := by
      rw [hfd] at hpos ⊢
      exact if_pos ⟨hlive, hpos⟩
    have hcall : relayWp slot (ignore (native (.socketclose fd))) (fun _ ↦ At fun t w ↦
        PrivateInv (Function.update pumping slot none) t (w.stop slot)) x := by
      have hpre : OnSocket (fun w ↦ w.adopted slot) (.native (.socketclose fd)) x :=
        onSocket_of_owner hx hown fun n hn ↦ (Option.some.inj hn).symm
      refine (wp_bind _ _ _ _).mpr (private_perform hpre fun answer w heffect ↦ ?_)
      cases heffect
      change PrivateInv _ (privates x.mem) ((x.world.closeNative fd answer.code).stop slot)
      rw [PrivateWorld.stop_closeNative]
      exact hstopped.closeNative (hpublic fd hown)
    refine wp_seq hcall fun _ y hy ↦ private_storeRelay ?_
    exact PrivateInv.setIdle hy (y.world.stop_self slot) _
  refine wp_seq hclose fun _ y hy ↦ relay_frame ?_ hy
  refine Keeps.bind (keeps_loadRelay slot _) fun _ ↦ Keeps.bind (Keeps.when ?_) fun _ ↦ ?_
  · exact Keeps.bind (keeps_ignore (keeps_perform ⟨trivial, rfl⟩)) fun _ ↦
      keeps_storeRelay fun _ ↦ rfl
  · exact Keeps.bind (keeps_storeRelay fun _ ↦ rfl) fun _ ↦ keeps_storeRelay fun _ ↦ rfl

/-- Where the worker of a slot pumps. -/
def WorkerState.nativeFd : WorkerState → Option ℤ
  | .pumping nativeFd _ _ => some nativeFd
  | _ => none

theorem privates_of_control {s s' : ShimState} (h : s.control = s'.control) :
    privates s = privates s' := by
  have hrelays : (privates s).relays = (privates s').relays := funext fun slot ↦ by
    have hrelay := congrFun (congrArg (fun c ↦ c.2.1) h) slot
    exact Prod.ext (congrArg (fun r ↦ r.1) hrelay)
      (Prod.ext (congrArg (fun r ↦ r.2.1) hrelay) (congrArg (fun r ↦ r.2.2.2.2.2.1) hrelay))
  have hproxy : (privates s).proxy = (privates s').proxy :=
    congrArg (fun c : FdTables × _ ↦ c.1.proxy.2) h
  exact Privates.ext hrelays hproxy

theorem inert_of_relayCall {nativeFd lwfd : ℤ} {request : ShimCall}
    (h : RelayCall nativeFd lwfd request) :
    Inert request ∧ ∀ fd, usedFd request = some fd → fd = nativeFd := by
  have hinert : Inert request := by
    unfold RelayCall at h
    split at h <;> trivial
  refine ⟨hinert, fun fd hfd ↦ ?_⟩
  unfold RelayCall at h
  split at h <;> simp_all [usedFd]

/-- The label `out` ends the turn. -/
theorem relay_relayEnd (hx : At (PrivateInv pumping) x) (hlive : x.world.live slot = true) :
    relayWp slot (relayEnd slot) (fun state y ↦ state = .ended ∧ At (fun t w ↦
      PrivateInv (Function.update pumping slot none) t (w.stop slot)) y) x :=
  wp_seq (relay_relayOut hx hlive) fun _ _ hy ↦ ⟨rfl, hy⟩

/-- After a turn the worker has ended, or it pumps on the descriptor of its slot if at all. -/
def AfterTurn (pumping : ℕ → Option ℤ) (slot : ℕ) (state : WorkerState) (y : PrivateMachine) :
    Prop :=
  state = .ended ∧ At (fun t w ↦
      PrivateInv (Function.update pumping slot none) t (w.stop slot)) y ∨
    state ≠ .ended ∧ At (PrivateInv (Function.update pumping slot state.nativeFd)) y

theorem relay_relayTurn (state : WorkerState) (hx : At (PrivateInv pumping) x)
    (hlive : x.world.live slot = true) (hstate : pumping slot = state.nativeFd) :
    relayWp slot (relayTurn slot state) (AfterTurn pumping slot) x := by
  have hsame : Function.update pumping slot state.nativeFd = pumping := by
    rw [← hstate]
    exact Function.update_eq_self slot pumping
  have hx : At (fun t w ↦ PrivateInv pumping t w ∧ w.live slot = true) x := ⟨hx, hlive⟩
  have hend : ∀ y, At (fun t w ↦ PrivateInv pumping t w ∧ w.live slot = true) y →
      relayWp slot (relayEnd slot) (AfterTurn pumping slot) y := fun y hy ↦
    wp_mono (relay_relayEnd hy.1 hy.2) fun _ _ hz ↦ .inl hz
  cases state with
  | waiting =>
    refine wp_seq (relay_frame (keeps_loadRelay slot _) hx) fun stop y hy ↦ ?_
    refine wp_cases (fun _ ↦ hend y hy) fun _ ↦ ?_
    have hready : relayWp slot (loadRelay slot NsslRelay.ready) (fun ready z ↦ z = y ∧
        ready = ((privates y.mem).relays slot).2.1) y := ⟨rfl, rfl⟩
    refine wp_seq hready fun ready z ⟨hz, hready⟩ ↦ ?_
    rw [hz]
    refine wp_cases (fun hset ↦ ?_) fun _ ↦ ?_
    · rw [hready] at hset
      have hy' : At (fun t w ↦ (PrivateInv pumping t w ∧ w.live slot = true) ∧
          0 ≤ (t.relays slot).2.2) y := ⟨hy, hy.1.ready slot hy.2 hset⟩
      refine wp_seq (relay_frame (keeps_loadRelay slot _) hy') fun stop z hz ↦ ?_
      refine wp_cases (fun _ ↦ hend z hz.1) fun _ ↦ ?_
      refine .inr ⟨nofun, ?_⟩
      have hown : owner (privates z.mem) z.world (some slot) =
          some (z.mem.nsslRelays slot).nativeFd := if_pos ⟨hz.1.2, hz.2⟩
      refine { hz.1.1 with pumps := fun other fd hfd ↦ ?_ }
      by_cases hother : other = slot
      · rw [hother, Function.update_self] at hfd
        rw [hother, ← hfd]
        exact hown
      · rw [Function.update_of_ne hother] at hfd
        exact hz.1.1.pumps other fd hfd
    · refine wp_seq (relay_frame (keeps_ignore (keeps_perform ⟨trivial, rfl⟩)) hy) fun _ z hz ↦ ?_
      refine .inr ⟨nofun, ?_⟩
      rw [hsame]
      exact hz.1
  | pumping nativeFd lwfd locals =>
    refine wp_seq (relay_frame (keeps_loadRelay slot _) hx) fun stop y hy ↦ ?_
    refine wp_cases (fun _ ↦ hend y hy) fun _ ↦ ?_
    have hiteration : relayWp slot (relayIteration slot nativeFd lwfd locals)
        (fun _ ↦ At fun t w ↦ PrivateInv pumping t w ∧ w.live slot = true) y := by
      have hkeeps : Keeps privates (RelayCall nativeFd lwfd)
          (relayIteration slot nativeFd lwfd locals) :=
        (keeps_relayCalls slot locals).mono (fun _ _ h ↦ privates_of_control h) fun _ h ↦ h
      refine private_frame hkeeps (fun request h ↦ (inert_of_relayCall h).1)
        (fun request z h hz ↦ ?_) hy
      exact onSocket_of_owner hz.1 (hz.1.pumps slot nativeFd hstate) (inert_of_relayCall h).2
    refine wp_seq hiteration fun step z hz ↦ ?_
    match step with
    | .error _ => exact hend z hz
    | .ok (locals, _) =>
      refine .inr ⟨nofun, ?_⟩
      change PrivateInv (Function.update pumping slot (some nativeFd)) (privates z.mem) z.world
      rw [show Function.update pumping slot (some nativeFd) = pumping from hsame]
      exact hz.1
  | ended => exact .inl ⟨rfl, (PrivateInv.stop hx.1 slot).1⟩

end Relays

/-! ## The proxy -/

namespace Privates

/-- The proxy without a connection. -/
def unconnected (t : Privates) : Privates := { t with proxy := (-1, -1) }

end Privates

section Proxy

variable {pumping : ℕ → Option ℤ} {t : Privates} {w w' : PrivateWorld} {x : PrivateMachine}
  {fd n : ℤ}

/-- A connection with its native end. -/
def Connected (pumping : ℕ → Option ℤ) (fd : ℤ) (t : Privates) (w : PrivateWorld) : Prop :=
  PrivateInv pumping t w ∧ 0 ≤ fd ∧ t.proxy.2 = fd

/-- A connection that waits for its native end. -/
def Connecting (pumping : ℕ → Option ℤ) (t : Privates) (w : PrivateWorld) : Prop :=
  PrivateInv pumping t.unconnected w ∧ 0 ≤ t.proxy.1 ∧ t.proxy.2 < 0

/-- A connection that is about to be dropped: its native end is nobody's but still its own. -/
def Dropping (pumping : ℕ → Option ℤ) (t : Privates) (w : PrivateWorld) : Prop :=
  PrivateInv pumping t.unconnected w ∧ (0 ≤ t.proxy.2 →
    Unheld t.proxy.2 t.unconnected w ∧ w.native t.proxy.2 = w.connected)

theorem owner_unconnected_none (t : Privates) (w : PrivateWorld) :
    owner t.unconnected w none = none := by
  simp [owner, Privates.unconnected]

theorem owner_unconnected {i : Option ℕ} (hi : i ≠ none) :
    owner t.unconnected w i = owner t w i := by
  cases i with
  | none => exact absurd rfl hi
  | some slot => rfl

theorem PrivateInv.dropping (h : PrivateInv pumping t w) : Dropping pumping t w := by
  have hkeep : ∀ i n, owner t.unconnected w i = some n → i ≠ none ∧ owner t w i = some n := by
    intro i n hi
    have hne : i ≠ none := by
      intro hnone
      rw [hnone, owner_unconnected_none] at hi
      cases hi
    exact ⟨hne, (owner_unconnected hne).symm.trans hi⟩
  refine ⟨⟨h.held.mono (fun _ hopen ↦ hopen) fun i n hi ↦ (hkeep i n hi).2,
    fun i n hi ↦ h.socket i n (hkeep i n hi).2, h.allocated, h.ready, h.pumps, ?_⟩, fun hpos ↦ ?_⟩
  · simp [Privates.unconnected]
  · have hown : owner t w none = some t.proxy.2 := if_pos hpos
    refine ⟨⟨h.held.isOpen_of_own none _ hown, fun i hi ↦ ?_⟩, h.socket none _ hown⟩
    obtain ⟨hne, hsome⟩ := hkeep i _ hi
    exact hne (h.held.holder_unique i none _ hsome hown)

theorem Connecting.dropping (h : Connecting pumping t w) : Dropping pumping t w :=
  ⟨h.1, fun hpos ↦ absurd hpos (by have := h.2.2; omega)⟩

/-- The proxy has let go of its connection. -/
theorem Dropping.dropped (h : Dropping pumping t w) (hax : t.proxy.1 < 0)
    (hnative : t.proxy.2 < 0) : PrivateInv pumping t w := by
  have howner : owner t w = owner t.unconnected w := by
    funext i
    cases i with
    | none => exact (if_neg (by omega)).trans (owner_unconnected_none t w).symm
    | some slot => rfl
  have hinv := h.1
  refine ⟨?_, ?_, hinv.allocated, hinv.ready, hinv.pumps, ?_⟩
  · rw [howner]
    exact hinv.held
  · rw [howner]
    exact hinv.socket
  · exact ⟨fun hpos ↦ absurd hpos (by omega), fun hpos ↦ absurd hpos (by omega)⟩

/-- The socket of a new connection. -/
theorem Connecting.openNative (h : Connecting pumping t w) (hopen : w.openNative true n = some w') :
    Connecting pumping t w' ∧
      (0 ≤ n → Unheld n t.unconnected w' ∧ w'.native n = w'.connected) := by
  obtain ⟨hneg, rfl⟩ | ⟨hpos, hclosed, rfl⟩ := openNative_cases hopen
  · exact ⟨h, fun hpos ↦ absurd hpos (by omega)⟩
  obtain ⟨hinv, hrest⟩ := h
  have hpublic := hinv.public_of_closed hclosed
  have hnew := Function.update_self n (some w.serial) w.native
  have hset := hinv.setNative (w.serial + 1) (hpublic.update (some w.serial))
  refine ⟨⟨⟨hset.held, fun i fd hi ↦ ?_, hset.allocated, hset.ready, hset.pumps, hset.proxy⟩,
    hrest⟩, fun _ ↦ ⟨⟨hnew.trans_ne (Option.some_ne_none _), hpublic⟩, hnew⟩⟩
  cases i with
  | none =>
    have hnone := owner_unconnected_none t w
    exact absurd (hnone.symm.trans hi) (Option.some_ne_none fd).symm
  | some slot => exact hset.socket (some slot) fd hi

/-- The socket becomes the native end. -/
theorem Connecting.connect (h : Connecting pumping t w) (hpos : 0 ≤ n)
    (hunheld : Unheld n t.unconnected w) (hsocket : w.native n = w.connected) :
    Connected pumping n { t with proxy := (t.proxy.1, n) } w := by
  obtain ⟨hinv, hax, -⟩ := h
  set t' : Privates := { t with proxy := (t.proxy.1, n) }
  have hself : owner t' w none = some n := if_pos hpos
  have hothers : ∀ i, i ≠ none → owner t' w i = owner t.unconnected w i := by
    intro i hi
    cases i with
    | none => exact absurd rfl hi
    | some slot => rfl
  refine ⟨⟨?_, fun i m hi ↦ ?_, hinv.allocated, hinv.ready, hinv.pumps, ?_⟩, hpos, rfl⟩
  · refine hinv.held.acquire (i := none) hunheld (fun m hm ↦ ?_) fun i m hi hm ↦ ?_
    · exact (Option.some.inj (hself.symm.trans hm)).symm
    · exact (hothers i hi).symm.trans hm
  · cases i with
    | none =>
      rw [← Option.some.inj (hself.symm.trans hi)]
      exact hsocket
    | some slot => exact hinv.socket (some slot) m hi
  · exact ⟨fun _ ↦ hpos, fun _ ↦ hax⟩

abbrev pollWp (program : ShimM α) (post : α → PrivateMachine → Prop) (x : PrivateMachine) : Prop :=
  wp (privateReply true) (OnSocket PrivateWorld.connected) program post x

theorem poll_frame {P : Privates → PrivateWorld → Prop} {program : ShimM α}
    (hkeeps : Keeps privates Quiet program) (hx : At P x) : pollWp program (fun _ ↦ At P) x :=
  private_frame hkeeps (fun _ hquiet ↦ hquiet.1) (fun _ _ hquiet _ ↦ onSocket_of_unused hquiet.2) hx

theorem poll_storeProxy {P : Privates → PrivateWorld → Prop}
    {update : WiiloadProxyState → WiiloadProxyState}
    (hx : P { privates x.mem with
      proxy := ((update x.mem.wiiloadProxy).axFd, (update x.mem.wiiloadProxy).nativeFd) } x.world) :
    pollWp (storeProxy update) (fun _ ↦ At P) x := hx

theorem poll_ignoreClose {P : Privates → PrivateWorld → Prop}
    (hsocket : x.world.native fd ≠ none ∧ x.world.native fd = x.world.connected)
    (hx : ∀ code, P (privates x.mem) (x.world.closeNative fd code)) :
    pollWp (ignore (native (.socketclose fd))) (fun _ ↦ At P) x := by
  have hpre : OnSocket PrivateWorld.connected (.native (.socketclose fd)) x := by
    intro m hm
    cases hm
    exact hsocket
  refine (wp_bind _ _ _ _).mpr (private_perform hpre fun answer w heffect ↦ ?_)
  cases heffect
  exact hx answer.code

theorem Dropping.closeNative {code : ℤ} (h : Dropping pumping t w) (hpos : 0 ≤ t.proxy.2) :
    PrivateInv pumping t.unconnected (w.closeNative t.proxy.2 code) :=
  h.1.closeNative (h.2 hpos).1.2

theorem poll_wiiloadProxyResetConnection (hx : At (Dropping pumping) x) :
    pollWp wiiloadProxyResetConnection (fun _ ↦ At (PrivateInv pumping)) x := by
  have hfd : pollWp (loadProxy WiiloadProxyState.nativeFd) (fun fd y ↦ y = x ∧
      fd = (privates x.mem).proxy.2) x := ⟨rfl, rfl⟩
  refine wp_seq hfd fun fd y ⟨hy, hfd⟩ ↦ ?_
  rw [hy]
  have hnative : pollWp (when (fd ≥ 0) do
      ignore (native (.shutdown fd shutRdwr))
      ignore (native (.socketclose fd))
      storeProxy fun p ↦ { p with nativeFd := -1 })
      (fun _ ↦ At fun t w ↦ Dropping pumping t w ∧ t.proxy.2 < 0) x := by
    refine wp_cases (fun hpos ↦ ?_) fun hneg ↦ ⟨hx, by omega⟩
    rw [hfd] at hpos ⊢
    obtain ⟨hunheld, hsocket⟩ := hx.2 hpos
    have hshutdown : pollWp (ignore (native (.shutdown (privates x.mem).proxy.2 shutRdwr)))
        (fun _ y ↦ y = x) x := by
      have hpre : OnSocket PrivateWorld.connected
          (.native (.shutdown (privates x.mem).proxy.2 shutRdwr)) x := by
        intro m hm
        cases hm
        exact ⟨hunheld.1, hsocket⟩
      refine (wp_bind _ _ _ _).mpr (private_perform hpre fun answer w heffect ↦ ?_)
      cases heffect
      rfl
    refine wp_seq hshutdown fun _ y hy ↦ ?_
    rw [hy]
    have hclose : pollWp (ignore (native (.socketclose (privates x.mem).proxy.2)))
        (fun _ ↦ At fun t w ↦ PrivateInv pumping t.unconnected w) x :=
      poll_ignoreClose ⟨hunheld.1, hsocket⟩ fun code ↦ Dropping.closeNative hx hpos
    refine wp_seq hclose fun _ z hz ↦ poll_storeProxy ?_
    have hneg : (-1 : ℤ) < 0 := by decide
    exact ⟨⟨hz, fun hpos ↦ absurd hpos (Int.not_le.mpr hneg)⟩, hneg⟩
  refine wp_seq hnative fun _ y hy ↦ ?_
  have hax : pollWp (loadProxy WiiloadProxyState.axFd) (fun fd z ↦ z = y ∧
      fd = (privates y.mem).proxy.1) y := ⟨rfl, rfl⟩
  refine wp_seq hax fun ax z ⟨hz, hax⟩ ↦ ?_
  rw [hz]
  have hlwip : pollWp (when (ax ≥ 0) do
      ignore (perform (.lwip (.shutdown ax shutRdwr)))
      ignore (perform (.lwip (.close ax)))
      storeProxy fun p ↦ { p with axFd := -1 }) (fun _ ↦ At (PrivateInv pumping)) y := by
    refine wp_cases (fun _ ↦ ?_) fun hneg ↦ ?_
    · refine wp_seq (poll_frame (keeps_ignore (keeps_perform ⟨trivial, rfl⟩)) hy) fun _ v hv ↦ ?_
      refine wp_seq (poll_frame (keeps_ignore (keeps_perform ⟨trivial, rfl⟩)) hv) fun _ v hv ↦ ?_
      refine poll_storeProxy (Dropping.dropped ⟨hv.1.1, fun hpos ↦ ?_⟩ (by decide : (-1 : ℤ) < 0) hv.2)
      exact absurd hpos (Int.not_le.mpr hv.2)
    · rw [hax] at hneg
      exact Dropping.dropped hy.1 (by omega) hy.2
  refine wp_seq hlwip fun _ v hv ↦ poll_frame ?_ hv
  exact keeps_store fun _ ↦ rfl

/-- A step of the pump keeps the connection or drops it. -/
def AfterStep (pumping : ℕ → Option ℤ) (fd : ℤ) (step : ProxyStep) (y : PrivateMachine) : Prop :=
  match step with
  | .ok _ => At (Connected pumping fd) y
  | .error _ => At (PrivateInv pumping) y

/-- Calls on one descriptor that leave the world as it is. -/
def OnFd (fd : ℤ) (request : ShimCall) : Prop :=
  Inert request ∧ ∀ n, usedFd request = some n → n = fd

theorem poll_connected {program : ShimM α} (hkeeps : Keeps privates (OnFd fd) program)
    (hx : At (Connected pumping fd) x) : pollWp program (fun _ ↦ At (Connected pumping fd)) x := by
  refine private_frame hkeeps (fun _ hcall ↦ hcall.1) (fun request y hcall hy ↦ ?_) hx
  obtain ⟨hinv, hpos, hfd⟩ := hy
  have hown : owner (privates y.mem) y.world none = some fd := by
    rw [← hfd] at hpos ⊢
    exact if_pos hpos
  exact onSocket_of_owner hinv hown hcall.2

theorem poll_nativeFd (hx : At (Connected pumping fd) x) :
    pollWp (loadProxy WiiloadProxyState.nativeFd) (fun n y ↦ n = fd ∧
      At (Connected pumping fd) y) x := ⟨hx.2.2, hx⟩

theorem keeps_storeProxy {allowed : ShimCall → Prop}
    {update : WiiloadProxyState → WiiloadProxyState} (hax : ∀ p, (update p).axFd = p.axFd)
    (hnative : ∀ p, (update p).nativeFd = p.nativeFd) :
    Keeps privates allowed (storeProxy update) :=
  keeps_store fun s ↦ Privates.ext rfl (Prod.ext (hax s.wiiloadProxy) (hnative s.wiiloadProxy))

theorem keeps_lasterrOn : Keeps privates (OnFd fd) realSocketlasterr :=
  Keeps.bind (keeps_perform ⟨trivial, nofun⟩) fun _ ↦ keeps_pure _

/-- The store that a phase ends with. -/
theorem poll_store {progress : Bool} {update : WiiloadProxyState → WiiloadProxyState}
    (hax : ∀ p, (update p).axFd = p.axFd) (hnative : ∀ p, (update p).nativeFd = p.nativeFd)
    (hx : At (Connected pumping fd) x) :
    pollWp (do
      storeProxy update
      pure (.ok progress)) (AfterStep pumping fd) x :=
  wp_seq (poll_connected (keeps_storeProxy hax hnative) hx) fun _ _ hy ↦ hy

theorem poll_wiiloadProxyDrop (site : DropSite) (error : ℤ) (hx : At (Connected pumping fd) x) :
    pollWp (wiiloadProxyDrop site error) (AfterStep pumping fd) x :=
  wp_seq (poll_wiiloadProxyResetConnection hx.1.dropping) fun _ _ hy ↦ hy

theorem poll_proxyFlushToNative (progress : Bool) (hx : At (Connected pumping fd) x) :
    pollWp (proxyFlushToNative progress) (AfterStep pumping fd) x := by
  refine wp_seq (poll_connected (keeps_load _) hx) fun half y hy ↦ ?_
  refine wp_cases (fun _ ↦ hy) fun _ ↦ wp_seq (poll_nativeFd hy) fun n y ⟨hn, hy⟩ ↦ ?_
  refine wp_seq (poll_connected (keeps_load _) hy) fun buf y hy ↦ ?_
  have hsend : OnFd fd (.native (.send n buf nsnMsgDontwait)) :=
    ⟨trivial, fun m hm ↦ (Option.some.inj hm).symm.trans hn⟩
  refine wp_seq (poll_connected (keeps_perform hsend) hy) fun sent y hy ↦ ?_
  refine wp_cases (fun _ ↦ poll_store (fun _ ↦ rfl) (fun _ ↦ rfl) hy) fun _ ↦ ?_
  refine wp_cases (fun _ ↦ ?_) fun _ ↦ hy
  refine wp_seq (poll_connected keeps_lasterrOn hy) fun error y hy ↦ ?_
  exact wp_cases (fun _ ↦ poll_wiiloadProxyDrop _ _ hy) fun _ ↦ hy

theorem poll_proxyPullFromAx (progress : Bool) (hx : At (Connected pumping fd) x) :
    pollWp (proxyPullFromAx progress) (AfterStep pumping fd) x := by
  refine wp_seq (poll_connected (keeps_load _) hx) fun half y hy ↦ ?_
  refine wp_cases (fun _ ↦ ?_) fun _ ↦ hy
  refine wp_seq (poll_connected (keeps_load _) hy) fun ax y hy ↦ ?_
  refine wp_seq (poll_connected (keeps_perform ⟨trivial, nofun⟩) hy) fun received y hy ↦ ?_
  refine wp_cases (fun _ ↦ poll_store (fun _ ↦ rfl) (fun _ ↦ rfl) hy) fun _ ↦ ?_
  refine wp_cases (fun _ ↦ poll_store (fun _ ↦ rfl) (fun _ ↦ rfl) hy) fun _ ↦ ?_
  exact wp_cases (fun _ ↦ poll_wiiloadProxyDrop _ _ hy) fun _ ↦ hy

theorem poll_proxyShutdownNative (progress : Bool) (hx : At (Connected pumping fd) x) :
    pollWp (proxyShutdownNative progress) (AfterStep pumping fd) x := by
  refine wp_seq (poll_connected (keeps_load _) hx) fun half y hy ↦ ?_
  refine wp_cases (fun _ ↦ wp_seq (poll_nativeFd hy) fun n y ⟨hn, hy⟩ ↦ ?_) fun _ ↦ hy
  have hshutdown : OnFd fd (.native (.shutdown n shutWr)) :=
    ⟨trivial, fun m hm ↦ (Option.some.inj hm).symm.trans hn⟩
  refine wp_seq (poll_connected (keeps_ignore (keeps_perform hshutdown)) hy) fun _ y hy ↦ ?_
  exact poll_store (fun _ ↦ rfl) (fun _ ↦ rfl) hy

theorem poll_proxyFlushToAx (progress : Bool) (hx : At (Connected pumping fd) x) :
    pollWp (proxyFlushToAx progress) (AfterStep pumping fd) x := by
  refine wp_seq (poll_connected (keeps_load _) hx) fun half y hy ↦ ?_
  refine wp_cases (fun _ ↦ hy) fun _ ↦ wp_seq (poll_connected (keeps_load _) hy) fun ax y hy ↦ ?_
  refine wp_seq (poll_connected (keeps_load _) hy) fun buf y hy ↦ ?_
  refine wp_seq (poll_connected (keeps_perform ⟨trivial, nofun⟩) hy) fun sent y hy ↦ ?_
  refine wp_cases (fun _ ↦ poll_store (fun _ ↦ rfl) (fun _ ↦ rfl) hy) fun _ ↦ ?_
  exact wp_cases (fun _ ↦ poll_wiiloadProxyDrop _ _ hy) fun _ ↦ hy

theorem poll_proxyPullFromNative (progress : Bool) (hx : At (Connected pumping fd) x) :
    pollWp (proxyPullFromNative progress) (AfterStep pumping fd) x := by
  refine wp_seq (poll_connected (keeps_load _) hx) fun half y hy ↦ ?_
  refine wp_cases (fun _ ↦ wp_seq (poll_nativeFd hy) fun n y ⟨hn, hy⟩ ↦ ?_) fun _ ↦ hy
  have hrecv : OnFd fd (.native (.recv n wiiloadProxyBuf nsnMsgDontwait)) :=
    ⟨trivial, fun m hm ↦ (Option.some.inj hm).symm.trans hn⟩
  refine wp_seq (poll_connected (keeps_perform hrecv) hy) fun received y hy ↦ ?_
  refine wp_cases (fun _ ↦ poll_store (fun _ ↦ rfl) (fun _ ↦ rfl) hy) fun _ ↦ ?_
  refine wp_cases (fun _ ↦ poll_store (fun _ ↦ rfl) (fun _ ↦ rfl) hy) fun _ ↦ ?_
  refine wp_seq (poll_connected keeps_lasterrOn hy) fun error y hy ↦ ?_
  refine wp_cases (fun _ ↦ hy) fun _ ↦ ?_
  exact wp_cases (fun _ ↦ poll_store (fun _ ↦ rfl) (fun _ ↦ rfl) hy) fun _ ↦
    poll_wiiloadProxyDrop _ _ hy

theorem poll_proxyShutdownAx (progress : Bool) (hx : At (Connected pumping fd) x) :
    pollWp (proxyShutdownAx progress) (AfterStep pumping fd) x := by
  refine wp_seq (poll_connected (keeps_load _) hx) fun half y hy ↦ ?_
  refine wp_cases (fun _ ↦ wp_seq (poll_connected (keeps_load _) hy) fun ax y hy ↦ ?_) fun _ ↦ hy
  refine wp_seq (poll_connected (keeps_ignore (keeps_perform ⟨trivial, nofun⟩)) hy) fun _ y hy ↦ ?_
  exact poll_store (fun _ ↦ rfl) (fun _ ↦ rfl) hy

theorem poll_proxyFinish (progress : Bool) (hx : At (Connected pumping fd) x) :
    pollWp (proxyFinish progress) (AfterStep pumping fd) x := by
  refine wp_seq (poll_connected (keeps_load _) hx) fun halves y hy ↦ ?_
  refine wp_cases (fun _ ↦ ?_) fun _ ↦ hy
  exact wp_seq (poll_wiiloadProxyResetConnection hy.1.dropping) fun _ _ hz ↦ hz

theorem poll_proxyThen {first : ShimM ProxyStep} {next : Bool → ShimM ProxyStep}
    (hfirst : pollWp first (AfterStep pumping fd) x)
    (hnext : ∀ progress y, At (Connected pumping fd) y →
      pollWp (next progress) (AfterStep pumping fd) y) :
    pollWp (proxyThen first next) (AfterStep pumping fd) x := by
  refine wp_seq hfirst fun step y hy ↦ ?_
  match step with
  | .error _ => exact hy
  | .ok progress => exact hnext progress y hy

theorem poll_proxyIteration (hx : At (Connected pumping fd) x) :
    pollWp proxyIteration (AfterStep pumping fd) x := by
  refine poll_proxyThen (poll_proxyFlushToNative false hx) fun progress y hy ↦ ?_
  refine poll_proxyThen (poll_proxyPullFromAx progress hy) fun progress y hy ↦ ?_
  refine poll_proxyThen (poll_proxyShutdownNative progress hy) fun progress y hy ↦ ?_
  refine poll_proxyThen (poll_proxyFlushToAx progress hy) fun progress y hy ↦ ?_
  refine poll_proxyThen (poll_proxyPullFromNative progress hy) fun progress y hy ↦ ?_
  exact poll_proxyThen (poll_proxyShutdownAx progress hy) fun progress y hy ↦
    poll_proxyFinish progress hy

theorem poll_proxyPump (left : ℕ) (hx : At (Connected pumping fd) x) :
    pollWp (proxyPump left) (fun _ ↦ At (PrivateInv pumping)) x := by
  induction left generalizing x with
  | zero => exact hx.1
  | succ left ih =>
    refine wp_seq (poll_proxyIteration hx) fun step y hy ↦ ?_
    match step with
    | .error _ => exact hy
    | .ok progress => exact wp_cases (fun _ ↦ ih hy) fun _ ↦ hy.1

theorem poll_wiiloadProxyConnectNative (hx : At (Connecting pumping) x) :
    pollWp wiiloadProxyConnectNative (fun result ↦ At fun t w ↦
      (result = 0 → ∃ fd, Connected pumping fd t w) ∧ (result ≠ 0 → Dropping pumping t w)) x := by
  have hsocket : OnSocket PrivateWorld.connected (.native (.socket nsnAfInet sockStream 0)) x :=
    onSocket_of_unused rfl
  refine (wp_bind _ _ _ _).mpr (private_perform hsocket fun nativeFd w hopen ↦ ?_)
  obtain ⟨hconnecting, hfresh⟩ := Connecting.openNative hx hopen
  refine wp_cases (fun _ ↦ ?_) fun hpos ↦ ?_
  · exact ⟨fun hzero ↦ absurd hzero (by decide), fun _ ↦ hconnecting.dropping⟩
  have hpos : 0 ≤ nativeFd.code := by omega
  have hx : At (fun t w ↦ Connecting pumping t w ∧ Unheld nativeFd.code t.unconnected w ∧
      w.native nativeFd.code = w.connected) { x with world := w } :=
    ⟨hconnecting, hfresh hpos⟩
  -- the exits that give the new socket up
  have hclose : ∀ y : PrivateMachine, At (fun t w ↦ Connecting pumping t w ∧
      Unheld nativeFd.code t.unconnected w ∧ w.native nativeFd.code = w.connected) y →
      pollWp (ignore (native (.socketclose nativeFd.code))) (fun _ ↦ At (Dropping pumping)) y := by
    intro y hy
    refine poll_ignoreClose ⟨hy.2.1.1, hy.2.2⟩ fun code ↦ ?_
    exact Connecting.dropping ⟨hy.1.1.closeNative hy.2.1.2, hy.1.2⟩
  refine wp_seq (poll_frame (keeps_perform ⟨trivial, rfl⟩) hx) fun parsed y hy ↦ ?_
  refine wp_cases (fun _ ↦ wp_seq (hclose y hy) fun _ _ hz ↦ ?_) fun _ ↦ ?_
  · exact ⟨fun hzero ↦ absurd hzero (by decide), fun _ ↦ hz⟩
  refine wp_seq (poll_frame (keeps_perform ⟨trivial, rfl⟩) hy) fun connected y hy ↦ ?_
  refine wp_cases (fun _ ↦ ?_) fun _ ↦ ?_
  · have hlasterr : pollWp realSocketlasterr (fun error z ↦ 0 ≤ error ∧ z = y) y := by
      refine (wp_bind _ _ _ _).mpr
        (private_perform (onSocket_of_unused rfl) fun answer w heffect ↦ ?_)
      simp only [privateEffect] at heffect
      split at heffect
      · cases heffect
      · cases heffect
        exact ⟨by omega, rfl⟩
    refine wp_seq hlasterr fun error z hpost ↦ ?_
    obtain ⟨herror, hz⟩ := hpost
    rw [hz]
    refine wp_seq (hclose y hy) fun _ v hv ↦ ?_
    exact ⟨fun hzero ↦ absurd hzero (by omega), fun _ ↦ hv⟩
  · have hstore : pollWp (storeProxy fun p ↦ { p with nativeFd := nativeFd.code })
        (fun _ ↦ At (Connected pumping nativeFd.code)) y :=
      poll_storeProxy (hy.1.connect hpos hy.2.1 hy.2.2)
    exact wp_seq hstore fun _ z hz ↦
      ⟨fun _ ↦ ⟨nativeFd.code, hz⟩, fun hne ↦ absurd rfl hne⟩

theorem poll_wiiloadProxyAccept (hx : At (PrivateInv pumping) x)
    (hax : (privates x.mem).proxy.1 < 0) :
    pollWp wiiloadProxyAccept (fun connected ↦ At fun t w ↦
      if connected then ∃ fd, Connected pumping fd t w else PrivateInv pumping t w) x := by
  have hx : At (fun t w ↦ PrivateInv pumping t w ∧ t.proxy.2 < 0) x := by
    refine ⟨hx, ?_⟩
    by_contra hpos
    have := hx.proxy.mpr (by omega)
    omega
  refine wp_seq (poll_frame (keeps_load _) hx) fun listener y hy ↦ ?_
  refine wp_seq (poll_frame (keeps_perform ⟨trivial, rfl⟩) hy) fun ax y hy ↦ ?_
  refine wp_cases (fun _ ↦ hy.1) fun hpos ↦ ?_
  refine wp_seq (poll_frame (keeps_ignore (keeps_perform ⟨trivial, rfl⟩)) hy) fun _ y hy ↦ ?_
  have hstore : pollWp (storeProxy fun p ↦ { p with axFd := ax.code })
      (fun _ ↦ At (Connecting pumping)) y :=
    poll_storeProxy ⟨hy.1.dropping.1, Int.not_lt.mp hpos, hy.2⟩
  refine wp_seq hstore fun _ y hy ↦ ?_
  refine wp_seq (poll_wiiloadProxyConnectNative hy) fun result y hy ↦ ?_
  refine wp_cases (fun hfailed ↦ ?_) fun hdone ↦ ?_
  · exact wp_seq (poll_wiiloadProxyResetConnection (hy.2 hfailed)) fun _ _ hz ↦ hz
  · have hconnected : At (fun t w ↦ ∃ fd, Connected pumping fd t w) y := hy.1 (not_not.mp hdone)
    exact wp_seq (poll_frame (keeps_storeProxy (fun _ ↦ rfl) fun _ ↦ rfl) hconnected)
      fun _ _ hz ↦ hz

theorem poll_wiiloadProxyPoll (hx : At (PrivateInv pumping) x) :
    pollWp wiiloadProxyPoll (fun _ ↦ At (PrivateInv pumping)) x := by
  have hload : pollWp (loadProxy fun p ↦ (p.listenerFd, p.axFd)) (fun fds y ↦ y = x ∧
      fds.2 = (privates x.mem).proxy.1) x := ⟨rfl, rfl⟩
  refine wp_seq hload fun fds y ⟨hy, hax⟩ ↦ ?_
  rw [hy]
  refine wp_cases (fun _ ↦ hx) fun _ ↦ wp_cases (fun hneg ↦ ?_) fun hpos ↦ ?_
  · refine wp_seq (poll_wiiloadProxyAccept hx (hax ▸ hneg)) fun connected y hy ↦ ?_
    cases connected with
    | false => exact hy
    | true =>
      obtain ⟨fd, hfd⟩ := hy
      exact poll_proxyPump wiiloadProxyIterations hfd
  · have hpos := hx.proxy.mp (hax ▸ Int.not_lt.mp hpos)
    exact poll_proxyPump wiiloadProxyIterations ⟨hx, hpos, rfl⟩

/-- The other calls of the worker of the module. -/
theorem poll_op (op : Proxy.ProxyOp) (hx : At (PrivateInv pumping) x) :
    pollWp op.program (fun _ ↦ At (PrivateInv pumping)) x := by
  cases op with
  | start =>
    refine wp_seq (poll_frame ?_ hx) fun _ _ hy ↦ hy
    have husable : Keeps privates Quiet wiiloadProxyUsable := by
      refine Keeps.bind (keeps_load _) fun _ ↦ Keeps.ite (keeps_pure _) ?_
      refine Keeps.bind (keeps_perform ⟨trivial, rfl⟩) fun _ ↦ Keeps.ite (keeps_pure _) ?_
      exact Keeps.bind (keeps_perform ⟨trivial, rfl⟩) fun _ ↦ keeps_pure _
    have hgiveUp : ∀ listener result,
        Keeps privates Quiet (wiiloadProxyGiveUp listener result) := fun _ _ ↦
      Keeps.bind (keeps_ignore (keeps_perform ⟨trivial, rfl⟩)) fun _ ↦ keeps_pure _
    refine Keeps.bind (keeps_load _) fun _ ↦ Keeps.ite (keeps_pure _) ?_
    refine Keeps.bind husable fun _ ↦ Keeps.ite (keeps_pure _) ?_
    refine Keeps.bind (keeps_perform ⟨trivial, rfl⟩) fun _ ↦ Keeps.ite (keeps_pure _) ?_
    refine Keeps.bind (keeps_ignore (keeps_perform ⟨trivial, rfl⟩)) fun _ ↦ ?_
    refine Keeps.bind (keeps_perform ⟨trivial, rfl⟩) fun _ ↦ ?_
    refine Keeps.bind (keeps_perform ⟨trivial, rfl⟩) fun _ ↦ Keeps.ite (hgiveUp _ _) ?_
    refine Keeps.bind (keeps_perform ⟨trivial, rfl⟩) fun _ ↦ Keeps.ite (hgiveUp _ _) ?_
    refine Keeps.bind (keeps_perform ⟨trivial, rfl⟩) fun _ ↦ Keeps.ite (hgiveUp _ _) ?_
    exact Keeps.bind (keeps_storeProxy (fun _ ↦ rfl) fun _ ↦ rfl) fun _ ↦ keeps_pure _
  | poll => exact poll_wiiloadProxyPoll hx
  | stop =>
    have hclose : Keeps privates Quiet (do
        let listenerFd ← loadProxy WiiloadProxyState.listenerFd
        when (listenerFd ≥ 0) do
          ignore (perform (.lwip (.close listenerFd)))
          storeProxy fun p ↦ { p with listenerFd := -1 }) := by
      refine Keeps.bind (keeps_load _) fun _ ↦ Keeps.when ?_
      exact Keeps.bind (keeps_ignore (keeps_perform ⟨trivial, rfl⟩)) fun _ ↦
        keeps_storeProxy (fun _ ↦ rfl) fun _ ↦ rfl
    have hstop : pollWp wiiloadProxyStop (fun _ ↦ At (PrivateInv pumping)) x :=
      wp_seq (poll_wiiloadProxyResetConnection hx.dropping) fun _ _ hy ↦ poll_frame hclose hy
    exact wp_seq hstop fun _ _ hy ↦ hy

end Proxy

/-! ## Runs -/

/-- The machine, and where the worker of each slot is. -/
structure PrivateConfig where
  machine : PrivateMachine
  worker : ℕ → WorkerState := fun _ ↦ .waiting

/-- A worker that ended leaves its slot to the next one. -/
def PrivateConfig.afterTurn (c : PrivateConfig) (slot : ℕ) (state : WorkerState)
    (y : PrivateMachine) : PrivateConfig :=
  if state = .ended then
    { machine := { y with world := y.world.stop slot }
      worker := Function.update c.worker slot .waiting }
  else { machine := y, worker := Function.update c.worker slot state }

/-- The configurations between complete calls of the title that satisfy `allowed`, single turns of
the relays and calls of the worker of the module. -/
inductive PrivateReach (allowed : Export → PrivateMachine → Prop) : PrivateConfig → Prop where
  /-- no relay runs and the proxy has no connection -/
  | begin {x : PrivateMachine} (idle : ∀ slot, x.world.live slot = false)
      (ax : x.mem.wiiloadProxy.axFd < 0) (native : x.mem.wiiloadProxy.nativeFd < 0) :
      PrivateReach allowed { machine := x }
  | title {c : PrivateConfig} {y : PrivateMachine} {answer : ShimReply}
      (reached : PrivateReach allowed c) (e : Export) (fuel : ℕ) (manages : managesFds e = true)
      (allows : allowed e c.machine)
      (exec : Exec (privateReply false) (hook fuel e) c.machine answer y) :
      PrivateReach allowed { c with machine := y }
  | relay {c : PrivateConfig} {y : PrivateMachine} {state : WorkerState}
      (reached : PrivateReach allowed c) (slot : ℕ) (live : c.machine.world.live slot = true)
      (exec : Exec (privateReply false) (relayTurn slot (c.worker slot)) c.machine state y) :
      PrivateReach allowed (c.afterTurn slot state y)
  | proxy {c : PrivateConfig} {y : PrivateMachine} {last : Option ProxyEnd}
      (reached : PrivateReach allowed c) (op : Proxy.ProxyOp)
      (exec : Exec (privateReply true) op.program c.machine last y) :
      PrivateReach allowed { c with machine := y }

/-- The title closes no private descriptor. -/
def Spares : Export → PrivateMachine → Prop
  | .socketclose fd, x => At (Public fd) x
  | .socketcloseAll, x => At (fun t w ↦ ∀ i, owner t w i = none) x
  | _, _ => True

/-- Every call of a relay and of the proxy on a native descriptor is made on the socket that was
accepted or connected for it. -/
def PrivateCallsOwn (c : PrivateConfig) : Prop :=
  (∀ slot request y, c.machine.world.live slot = true →
    Makes (privateReply false) (relayTurn slot (c.worker slot)) c.machine request y →
    OnSocket (fun w ↦ w.adopted slot) request y) ∧
  ∀ (op : Proxy.ProxyOp) request y,
    Makes (privateReply true) op.program c.machine request y →
    OnSocket PrivateWorld.connected request y

section Runs

variable {c : PrivateConfig}

theorem title_hook {pumping : ℕ → Option ℤ} {x : PrivateMachine} {e : Export} (fuel : ℕ)
    (he : managesFds e = true) (hspares : Spares e x) (hx : At (PrivateInv pumping) x) :
    titleWp (hook fuel e) (fun _ ↦ At (PrivateInv pumping)) x := by
  cases e with
  | socket domain type protocol => exact title_hookSocket _ _ _ hx
  | accept sockfd addr addrlen => exact title_hookAccept _ _ _ hx
  | socketclose sockfd => exact title_hookSocketclose sockfd hx hspares
  | socketcloseAll => exact title_hookSocketcloseAll hx hspares
  | bind sockfd addr addrlen => exact title_frame (keeps_hookBind _ _ _) hx
  | nsslCreateConnection context host hostLength options sockfd block =>
    exact title_hookNsslCreateConnection _ _ _ _ _ _ hx
  | _ => cases he

theorem nativeFd_update (worker : ℕ → WorkerState) (slot : ℕ) (state : WorkerState) :
    (fun other ↦ (Function.update worker slot state other).nativeFd) =
      Function.update (fun other ↦ (worker other).nativeFd) slot state.nativeFd := by
  funext other
  by_cases hsame : other = slot
  · rw [hsame, Function.update_self, Function.update_self]
  · rw [Function.update_of_ne hsame, Function.update_of_ne hsame]

/-- The invariant holds along every run whose title spares the private descriptors. -/
theorem PrivateReach.inv (h : PrivateReach Spares c) :
    At (PrivateInv fun slot ↦ (c.worker slot).nativeFd) c.machine := by
  induction h with
  | @begin x idle ax native =>
    have hnone : ∀ i, owner (privates x.mem) x.world i = none := by
      intro i
      cases i with
      | none => exact if_neg (Int.not_le.mpr native)
      | some slot =>
        exact if_neg fun hboth ↦ Bool.false_ne_true ((idle slot).symm.trans hboth.1)
    refine ⟨.of_none hnone, fun i fd hi ↦ ?_, fun slot hlive ↦ ?_, fun slot hlive ↦ ?_, nofun, ?_⟩
    · exact absurd ((hnone i).symm.trans hi) (Option.some_ne_none fd).symm
    · exact absurd ((idle slot).symm.trans hlive) Bool.false_ne_true
    · exact absurd ((idle slot).symm.trans hlive) Bool.false_ne_true
    · exact ⟨fun hpos ↦ absurd ax (Int.not_lt.mpr hpos),
        fun hpos ↦ absurd native (Int.not_lt.mpr hpos)⟩
  | title reached e fuel manages allows exec ih =>
    exact exec.post_of_wp (title_hook fuel manages allows ih)
  | @relay c y state reached slot live exec ih =>
    have hturn := exec.post_of_wp (relay_relayTurn (c.worker slot) ih live rfl)
    rcases hturn with ⟨hended, hy⟩ | ⟨hrunning, hy⟩
    · rw [PrivateConfig.afterTurn, if_pos hended, nativeFd_update]
      exact hy
    · rw [PrivateConfig.afterTurn, if_neg hrunning, nativeFd_update]
      exact hy
  | proxy reached op exec ih => exact exec.post_of_wp (poll_op op ih)

/-- As long as the title closes no private descriptor, the relays and the proxy stay on the sockets
that were accepted and connected for them. -/
theorem privateReach_callsOwn (h : PrivateReach Spares c) : PrivateCallsOwn c := by
  have hinv := h.inv
  refine ⟨fun slot request y hlive hmakes ↦ ?_, fun op request y hmakes ↦ ?_⟩
  · exact hmakes.pre_of_wp (relay_relayTurn (c.worker slot) hinv hlive rfl)
  · exact hmakes.pre_of_wp (poll_op op hinv)

/-! ## Concrete runs -/

/-- A step of a run. -/
inductive PrivateOp where
  | title (e : Export)
  | relay (slot : ℕ)

/-- Execute steps on given replies. -/
def runPrivate : List (PrivateOp × List ShimReply) → PrivateConfig → Option PrivateConfig
  | [], c => some c
  | (.title e, answers) :: rest, c =>
    if managesFds e = true then
      match run (privateReply false) (hook 1 e) answers c.machine with
      | some (_, y, _) => runPrivate rest { c with machine := y }
      | none => none
    else none
  | (.relay slot, answers) :: rest, c =>
    if c.machine.world.live slot = true then
      match run (privateReply false) (relayTurn slot (c.worker slot)) answers c.machine with
      | some (state, y, _) => runPrivate rest (c.afterTurn slot state y)
      | none => none
    else none

theorem PrivateReach.of_run {allowed : Export → PrivateMachine → Prop}
    {ops : List (PrivateOp × List ShimReply)} {c' : PrivateConfig}
    (hallowed : ∀ e answers, (PrivateOp.title e, answers) ∈ ops → ∀ x, allowed e x)
    (hc : PrivateReach allowed c) (hrun : runPrivate ops c = some c') : PrivateReach allowed c' := by
  induction ops generalizing c with
  | nil =>
    cases hrun
    exact hc
  | cons op rest ih =>
    have hrest : ∀ e answers, (PrivateOp.title e, answers) ∈ rest → ∀ x, allowed e x :=
      fun e answers hmem ↦ hallowed e answers (List.mem_cons_of_mem op hmem)
    obtain ⟨op, answers⟩ := op
    cases op with
    | title e =>
      simp only [runPrivate] at hrun
      split at hrun
      · rename_i hmanages
        split at hrun
        · rename_i hexec
          exact ih hrest (.title hc e 1 hmanages (hallowed e answers List.mem_cons_self _)
            (exec_of_run hexec)) hrun
        · cases hrun
      · cases hrun
    | relay slot =>
      simp only [runPrivate] at hrun
      split at hrun
      · rename_i hlive
        split at hrun
        · rename_i hexec
          exact ih hrest (.relay hc slot hlive (exec_of_run hexec)) hrun
        · cases hrun
      · cases hrun

/-- An accepting shim that bridges connections. -/
def bridging : PrivateConfig :=
  { machine := { mem := { acceptingSockets := 1, nsslBridgeEnabled := 1 }, world := {} } }

theorem reach_bridging {allowed : Export → PrivateMachine → Prop} : PrivateReach allowed bridging :=
  .begin (fun _ ↦ rfl) (by decide) (by decide)

/-- A bridged connection, whose relay took over the accepted descriptor 5 and pumps. -/
def bridgedSteps : List (PrivateOp × List ShimReply) :=
  [(.title (.socket nsnAfInet sockStream 0), socketReplies 0 3),
    (.title (.nsslCreateConnection 1 none 0 0 3 1),
      [{ addr := some httpsPeer }, { code := 1 }, {}, { code := 4 }, { code := 1 }, {}, {}, {}, {},
        { code := 5 }, {}, {}, {}]),
    (.relay 0, [])]

/-- A pumping relay receives from its descriptor. -/
theorem makes_recv {slot : ℕ} (fd lwfd : ℤ) {x : PrivateMachine}
    (hstop : (x.mem.nsslRelays slot).stop = 0) :
    Makes (privateReply false) (relayTurn slot (.pumping fd lwfd {})) x
      (.native (.recv fd nsslRelayBuf nsnMsgDontwait)) x := by
  refine Makes.rmw ?_
  change Makes _ (if (x.mem.nsslRelays slot).stop ≠ 0 then relayEnd slot else _) x _ x
  rw [if_neg (not_not.mpr hstop)]
  exact .here _ _ x

theorem privateReach_callsOwn_bridged :
    ∃ c, (PrivateReach Spares c ∧ c.machine.world.live 0 = true ∧
      Makes (privateReply false) (relayTurn 0 (c.worker 0)) c.machine
        (.native (.recv 5 nsslRelayBuf nsnMsgDontwait)) c.machine) ∧ PrivateCallsOwn c := by
  have hrun : (runPrivate bridgedSteps bridging).map (fun c ↦ (c.machine.world.live 0,
      c.worker 0, (c.machine.mem.nsslRelays 0).stop)) = some (true, .pumping 5 0 {}, 0) := rfl
  obtain ⟨c, hc, hview⟩ := Option.map_eq_some_iff.mp hrun
  obtain ⟨hlive, hrest⟩ := Prod.mk.inj hview
  obtain ⟨hworker, hstop⟩ := Prod.mk.inj hrest
  have hreach : PrivateReach Spares c := by
    refine PrivateReach.of_run (fun e answers hmem x ↦ ?_) reach_bridging hc
    simp only [bridgedSteps, List.mem_cons, Prod.mk.injEq, PrivateOp.title.injEq, reduceCtorEq,
      false_and, List.not_mem_nil, or_false] at hmem
    rcases hmem with ⟨rfl, -⟩ | ⟨rfl, -⟩
    · trivial
    · trivial
  refine ⟨c, ⟨hreach, hlive, ?_⟩, privateReach_callsOwn hreach⟩
  rw [hworker]
  exact makes_recv 5 0 hstop

/-- `socketclose_all` closed the private descriptor, and the relay receives from the next socket of
the title. -/
theorem recycled_descriptor_read :
    ∃ c, PrivateReach (fun _ _ ↦ True) c ∧ ¬ PrivateCallsOwn c := by
  have hrun : (runPrivate (bridgedSteps ++ [(.title .socketcloseAll, [{ code := 0 }]),
      (.title (.socket nsnAfInet sockStream 0), socketReplies 1 5)]) bridging).map (fun c ↦
      (c.machine.world.live 0, c.worker 0, (c.machine.mem.nsslRelays 0).stop,
        c.machine.world.native 5, c.machine.world.adopted 0)) =
      some (true, .pumping 5 0 {}, 0, some 3, some 2) := rfl
  obtain ⟨c, hc, hview⟩ := Option.map_eq_some_iff.mp hrun
  obtain ⟨hlive, hrest⟩ := Prod.mk.inj hview
  obtain ⟨hworker, hrest⟩ := Prod.mk.inj hrest
  obtain ⟨hstop, hrest⟩ := Prod.mk.inj hrest
  obtain ⟨hnative, hadopted⟩ := Prod.mk.inj hrest
  refine ⟨c, PrivateReach.of_run (fun _ _ _ _ ↦ trivial) reach_bridging hc, fun howned ↦ ?_⟩
  have hmakes := makes_recv 5 0 hstop
  rw [← hworker] at hmakes
  have hsame : c.machine.world.native 5 = c.machine.world.adopted 0 :=
    (howned.1 0 _ _ hlive hmakes 5 rfl).2
  rw [hnative, hadopted] at hsame
  cases hsame

end Runs

end Ax88179Aroma.Shim.Private
