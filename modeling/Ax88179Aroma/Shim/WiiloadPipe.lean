import Ax88179Aroma.Effect.Ledger
import Ax88179Aroma.Shim.Pipe
import Ax88179Aroma.Shim.Wiiload

/-!
# The Wiiload proxy is a faithful pipe

The world keeps the two streams of the current connection and a ledger for each stack, in which a
close counts for the socket that was last opened under its number.  Between the calls of the module
either both ends of a connection are open, and then the accepted bytes of each direction followed by
the waiting ones are the received ones, or there is no connection.
-/

namespace Ax88179Aroma.Shim.Proxy

open Effect Program

/-! ## The world -/

structure ProxyWorld where
  /-- the two ends of the last connection -/
  axFd : ℤ := -1
  nativeFd : ℤ := -1
  toNative : Stream := {}
  toAx : Stream := {}
  /-- `socketlasterr` is about a failed `recv` -/
  recvFailed : Bool := false
  lwip : Ledger ℤ := {}
  native : Ledger ℤ := {}

abbrev ProxyMachine := Machine ShimState ProxyWorld

/-- The end of the native stream may be reported as an error. -/
def reportError (w : ProxyWorld) (error : ℤ) : ProxyWorld :=
  if w.recvFailed = true ∧ nsslNativePeerClosed error = true then
    { w with toAx := { w.toAx with ended := true } }
  else w

/-- Both allocators only return descriptors that are not open, and nsysnet numbers its errors from 0
on, as `errno_to_nsn` lists them. -/
def proxyEffect (w : ProxyWorld) : ShimCall → ShimReply → Option ProxyWorld
  | .lwip (.socket _ _ _), answer =>
    if answer.code < 0 then some w
    else (w.lwip.acquire answer.code).map fun lwip ↦ { w with lwip := lwip }
  | .lwip (.accept _), answer =>
    if answer.code < 0 then some w
    else (w.lwip.acquire answer.code).map fun lwip ↦
      { w with lwip := lwip, axFd := answer.code, toNative := {}, toAx := {} }
  | .lwip (.close fd), _ => some { w with lwip := w.lwip.release fd }
  | .lwip (.recv fd len _), answer =>
    if fd = w.axFd then
      (w.toNative.receive len answer).map fun stream ↦ { w with toNative := stream }
    else some w
  | .lwip (.send fd buf _), answer =>
    if fd = w.axFd then (w.toAx.send buf answer).map fun stream ↦ { w with toAx := stream }
    else some w
  | .lwip (.shutdown fd how), _ =>
    some (if fd = w.axFd ∧ how = shutWr then { w with toAx := w.toAx.shutdown } else w)
  | .native (.socket _ _ _), answer =>
    if answer.code < 0 then some w
    else (w.native.acquire answer.code).map fun native ↦
      { w with native := native, nativeFd := answer.code }
  | .native (.connect _ _ _), _ => some { w with recvFailed := false }
  | .native (.socketclose fd), _ => some { w with native := w.native.release fd }
  | .native (.recv fd len _), answer =>
    if fd = w.nativeFd then
      (w.toAx.receive len answer).map fun stream ↦
        { w with toAx := stream, recvFailed := decide (answer.code < 0) }
    else some w
  | .native (.send fd buf _), answer =>
    if fd = w.nativeFd then
      (w.toNative.send buf answer).map fun stream ↦
        { w with toNative := stream, recvFailed := false }
    else some w
  | .native (.shutdown fd how), _ =>
    some (if fd = w.nativeFd ∧ how = shutWr then { w with toNative := w.toNative.shutdown } else w)
  | .native .socketlasterr, answer =>
    if answer.code < 0 then none else some (reportError w answer.code)
  | _, _ => some w

def proxyReply : Replies ShimState ProxyWorld ShimCall ShimReply := fun request answer x ↦
  (proxyEffect x.world request answer).map fun w ↦ { x with world := w }

/-- What holds when the proxy makes a call: `SHUT_WR` goes to the sink of a stream that ended and was
delivered, once, and nothing is sent to it afterwards. -/
def proxyPre : ShimCall → ProxyMachine → Prop
  | .lwip (.shutdown fd how), x => how = shutWr →
    fd = x.world.axFd ∧ x.world.toAx.shutdowns = 0 ∧ x.world.toAx.Delivered
  | .native (.shutdown fd how), x => how = shutWr →
    fd = x.world.nativeFd ∧ x.world.toNative.shutdowns = 0 ∧ x.world.toNative.Delivered
  | .lwip (.send fd _ _), x => fd = x.world.axFd ∧ x.world.toAx.shutdowns = 0
  | .native (.send fd _ _), x => fd = x.world.nativeFd ∧ x.world.toNative.shutdowns = 0
  | _, _ => True

/-! ## The invariant -/

/-- The descriptors among the values of some fields, which are negative without one. -/
def descriptors (fields : List ℤ) : List ℤ := fields.filter fun fd ↦ decide (0 ≤ fd)

/-- The proxy holds exactly what it opened and did not close. -/
structure Owned (p : WiiloadProxyState) (w : ProxyWorld) : Prop where
  lwip : w.lwip.Holds (descriptors [p.axFd, p.listenerFd])
  native : w.native.Holds (descriptors [p.nativeFd])
  ax_none : p.axFd < 0 → p.axFd = -1
  native_none : p.nativeFd < 0 → p.nativeFd = -1

/-- There is no connection. -/
def Closed (p : WiiloadProxyState) (w : ProxyWorld) : Prop :=
  Owned p w ∧ p.axFd = -1 ∧ p.nativeFd = -1

/-- Both ends of a connection are open, and both directions hold. -/
structure Connected (p : WiiloadProxyState) (w : ProxyWorld) : Prop where
  owned : Owned p w
  listener : 0 ≤ p.listenerFd
  ax : 0 ≤ p.axFd
  native : 0 ≤ p.nativeFd
  axFd_eq : p.axFd = w.axFd
  nativeFd_eq : p.nativeFd = w.nativeFd
  toNative : Buffered wiiloadProxyBuf p.toNativeHalf w.toNative p.toNative p.axToNative
  toAx : Buffered wiiloadProxyBuf p.toAxHalf w.toAx p.toAx p.nativeToAx

/-- What holds between the calls of the module. -/
def ProxyInv (p : WiiloadProxyState) (w : ProxyWorld) : Prop := Closed p w ∨ Connected p w

section Steps

variable {x : ProxyMachine} {P Q : WiiloadProxyState → ProxyWorld → Prop}

def At (P : WiiloadProxyState → ProxyWorld → Prop) (x : ProxyMachine) : Prop :=
  P x.mem.wiiloadProxy x.world

abbrev proxyWp (program : ShimM α) (post : α → ProxyMachine → Prop) (x : ProxyMachine) : Prop :=
  wp proxyReply proxyPre program post x

theorem descriptors_cons_nonneg {fd : ℤ} {rest : List ℤ} (h : 0 ≤ fd) :
    descriptors (fd :: rest) = fd :: descriptors rest :=
  List.filter_cons_of_pos (decide_eq_true h)

theorem descriptors_cons_neg {fd : ℤ} {rest : List ℤ} (h : ¬0 ≤ fd) :
    descriptors (fd :: rest) = descriptors rest :=
  List.filter_cons_of_neg fun hpos ↦ h (of_decide_eq_true hpos)

/-- A call about which the world says something for every answer. -/
theorem proxy_perform {request : ShimCall} {post : ShimReply → ProxyMachine → Prop}
    (hpre : proxyPre request x)
    (hpost : ∀ answer w, proxyEffect x.world request answer = some w →
      post answer { x with world := w }) : proxyWp (perform request) post x := by
  refine ⟨hpre, fun answer y hreply ↦ ?_⟩
  obtain ⟨w, heffect, rfl⟩ := Option.map_eq_some_iff.mp hreply
  exact hpost answer w heffect

/-- A call whose result is ignored. -/
theorem proxy_ignore {request : ShimCall} {post : Unit → ProxyMachine → Prop}
    (hpre : proxyPre request x)
    (hpost : ∀ answer w, proxyEffect x.world request answer = some w →
      post () { x with world := w }) : proxyWp (ignore (perform request)) post x :=
  (wp_bind _ _ _ _).mpr (proxy_perform hpre hpost)

/-- Calls that open, close and move nothing. -/
def Inert : ShimCall → Prop
  | .lwip (.setsockopt _ _ _ _ _) => True
  | .lwip (.bind _ _) => True
  | .lwip (.listen _ _) => True
  | .lwip (.ioctlNonblocking _ _) => True
  | .lwip (.inetPton _) => True
  | .os _ => True
  | _ => False

theorem proxyEffect_inert {request : ShimCall} (hinert : Inert request) (w : ProxyWorld)
    (answer : ShimReply) : proxyEffect w request answer = some w := by
  cases request with
  | lwip request => cases request <;> first | rfl | cases hinert
  | os request => rfl
  | native request => cases hinert
  | note event => cases hinert

theorem proxyPre_inert {request : ShimCall} (hinert : Inert request) : proxyPre request x := by
  cases request with
  | lwip request => cases request <;> trivial
  | os request => trivial
  | native request => cases hinert
  | note event => cases hinert

theorem proxy_inert {request : ShimCall} (hinert : Inert request) (hx : At P x) :
    proxyWp (perform request) (fun _ ↦ At P) x := by
  refine proxy_perform (proxyPre_inert hinert) fun answer w heffect ↦ ?_
  rw [proxyEffect_inert hinert] at heffect
  obtain rfl := Option.some.inj heffect
  exact hx

theorem proxy_ignoreInert {request : ShimCall} (hinert : Inert request) (hx : At P x) :
    proxyWp (ignore (perform request)) (fun _ ↦ At P) x :=
  (wp_bind _ _ _ _).mpr (proxy_inert hinert hx)

/-! ## Closing -/

/-- What is known about the two streams. -/
abbrev Streams := Stream → Stream → Prop

/-- `SHUT_RDWR` is not counted. -/
theorem proxyEffect_shutRdwr (w : ProxyWorld) (fd : ℤ) (answer : ShimReply) :
    proxyEffect w (.native (.shutdown fd shutRdwr)) answer = some w ∧
      proxyEffect w (.lwip (.shutdown fd shutRdwr)) answer = some w :=
  ⟨congrArg some (if_neg fun h ↦ absurd h.2 (by decide)),
    congrArg some (if_neg fun h ↦ absurd h.2 (by decide))⟩

/-- Close the native end of a connection, if there is one. -/
theorem proxy_closeNative {S : Streams} (hx : At (fun p w ↦ Owned p w ∧ S w.toNative w.toAx) x) :
    proxyWp (when (x.mem.wiiloadProxy.nativeFd ≥ 0) do
      ignore (native (.shutdown x.mem.wiiloadProxy.nativeFd shutRdwr))
      ignore (native (.socketclose x.mem.wiiloadProxy.nativeFd))
      storeProxy fun p ↦ { p with nativeFd := -1 })
      (fun _ ↦ At fun p w ↦ Owned p w ∧ p.nativeFd = -1 ∧ S w.toNative w.toAx) x := by
  rw [proxyWp, wp_when]
  split
  · rename_i hopen
    refine (wp_bind _ _ _ _).mpr (proxy_ignore (fun h ↦ absurd h (by decide)) fun _ w heffect ↦ ?_)
    rw [(proxyEffect_shutRdwr _ _ _).1] at heffect
    obtain rfl := Option.some.inj heffect
    refine (wp_bind _ _ _ _).mpr (proxy_ignore trivial fun _ w heffect ↦ ?_)
    obtain rfl := Option.some.inj heffect
    have hheld := hx.1.native
    rw [descriptors_cons_nonneg hopen] at hheld
    exact ⟨⟨hx.1.lwip, hheld.release, hx.1.ax_none, fun _ ↦ rfl⟩, rfl, hx.2⟩
  · rename_i hnone
    exact ⟨hx.1, hx.1.native_none (by omega), hx.2⟩

/-- Close the lwIP end. -/
theorem proxy_closeAx {S : Streams}
    (hx : At (fun p w ↦ Owned p w ∧ p.nativeFd = -1 ∧ S w.toNative w.toAx) x) :
    proxyWp (when (x.mem.wiiloadProxy.axFd ≥ 0) do
      ignore (perform (.lwip (.shutdown x.mem.wiiloadProxy.axFd shutRdwr)))
      ignore (perform (.lwip (.close x.mem.wiiloadProxy.axFd)))
      storeProxy fun p ↦ { p with axFd := -1 })
      (fun _ ↦ At fun p w ↦ Closed p w ∧ S w.toNative w.toAx) x := by
  rw [proxyWp, wp_when]
  split
  · rename_i hopen
    refine (wp_bind _ _ _ _).mpr (proxy_ignore (fun h ↦ absurd h (by decide)) fun _ w heffect ↦ ?_)
    rw [(proxyEffect_shutRdwr _ _ _).2] at heffect
    obtain rfl := Option.some.inj heffect
    refine (wp_bind _ _ _ _).mpr (proxy_ignore trivial fun _ w heffect ↦ ?_)
    obtain rfl := Option.some.inj heffect
    have hheld := hx.1.lwip
    rw [descriptors_cons_nonneg hopen] at hheld
    exact ⟨⟨⟨hheld.release, hx.1.native, fun _ ↦ rfl, hx.1.native_none⟩, rfl, hx.2.1⟩, hx.2.2⟩
  · rename_i hnone
    exact ⟨⟨hx.1, hx.1.ax_none (by omega), hx.2.1⟩, hx.2.2⟩

theorem proxy_resetConnection {S : Streams}
    (hx : At (fun p w ↦ Owned p w ∧ S w.toNative w.toAx) x) :
    proxyWp wiiloadProxyResetConnection
      (fun _ ↦ At fun p w ↦ Closed p w ∧ S w.toNative w.toAx) x := by
  rw [proxyWp, wiiloadProxyResetConnection, wp_bind, loadProxy, wp_load]
  refine wp_seq (proxy_closeNative hx) fun _ y hy ↦ ?_
  rw [wp_bind, loadProxy, wp_load]
  refine wp_seq (proxy_closeAx hy) fun _ z hz ↦ ?_
  exact ⟨⟨⟨hz.1.1.lwip, hz.1.1.native, hz.1.1.ax_none, hz.1.1.native_none⟩, hz.1.2⟩, hz.2⟩

/-- Everything that was opened was closed once. -/
def Settled (w : ProxyWorld) : Prop :=
  (∀ id < w.lwip.serial, w.lwip.releases id = 1) ∧
    ∀ id < w.native.serial, w.native.releases id = 1

theorem proxy_stop (hx : At Owned x) :
    proxyWp wiiloadProxyStop (fun _ ↦ At fun p w ↦ Closed p w ∧ Settled w) x := by
  refine wp_seq (proxy_resetConnection (S := fun _ _ ↦ True) ⟨hx, trivial⟩) fun _ y ⟨hy, _⟩ ↦ ?_
  obtain ⟨howned, hax, hnative⟩ := hy
  have hlwip : y.world.lwip.Holds (descriptors [y.mem.wiiloadProxy.listenerFd]) := by
    have h := howned.lwip
    rwa [hax, descriptors_cons_neg (by decide)] at h
  have hnone : y.world.native.Holds [] := by
    have h := howned.native
    rwa [hnative] at h
  rw [wp_bind, loadProxy, wp_load, wp_when]
  split
  · rename_i hopen
    rw [descriptors_cons_nonneg hopen] at hlwip
    refine (wp_bind _ _ _ _).mpr (proxy_ignore trivial fun _ w heffect ↦ ?_)
    obtain rfl := Option.some.inj heffect
    have hempty := hlwip.release
    refine ⟨⟨⟨?_, howned.native, howned.ax_none, howned.native_none⟩, hax, hnative⟩,
      hempty.released, hnone.released⟩
    change Ledger.Holds _ (descriptors [y.mem.wiiloadProxy.axFd, -1])
    rw [hax]
    exact hempty
  · rename_i hlistener
    rw [descriptors_cons_neg hlistener] at hlwip
    exact ⟨⟨howned, hax, hnative⟩, hlwip.released, hnone.released⟩

/-! ## The listener -/

/-- A new socket that is not yet the listener. -/
structure Pending (listener : ℤ) (p : WiiloadProxyState) (w : ProxyWorld) : Prop where
  nonneg : 0 ≤ listener
  lwip : w.lwip.Holds [listener]
  native : w.native.Holds []
  none : p.listenerFd < 0 ∧ p.axFd = -1 ∧ p.nativeFd = -1

theorem Closed.lwip {p : WiiloadProxyState} {w : ProxyWorld} (h : Closed p w) :
    w.lwip.Holds (descriptors [p.listenerFd]) := by
  have hheld := h.1.lwip
  rwa [h.2.1, descriptors_cons_neg (by decide)] at hheld

theorem Closed.native {p : WiiloadProxyState} {w : ProxyWorld} (h : Closed p w) :
    w.native.Holds [] := by
  have hheld := h.1.native
  rwa [h.2.2] at hheld

/-- Without a connection the proxy holds at most its listener. -/
theorem closed_of_holds {p : WiiloadProxyState} {w : ProxyWorld}
    (hlwip : w.lwip.Holds (descriptors [p.listenerFd])) (hnative : w.native.Holds [])
    (hax : p.axFd = -1) (hfd : p.nativeFd = -1) : Closed p w := by
  refine ⟨⟨?_, ?_, fun _ ↦ hax, fun _ ↦ hfd⟩, hax, hfd⟩
  · rw [hax, descriptors_cons_neg (by decide)]
    exact hlwip
  · rw [hfd]
    exact hnative

theorem proxy_giveUp {listener : ℤ} (result : ℤ) (hx : At (Pending listener) x) :
    proxyWp (wiiloadProxyGiveUp listener result) (fun _ ↦ At Closed) x := by
  refine (wp_bind _ _ _ _).mpr (proxy_ignore trivial fun _ w heffect ↦ ?_)
  obtain rfl := Option.some.inj heffect
  obtain ⟨hlistener, hax, hfd⟩ := hx.none
  refine closed_of_holds ?_ hx.native hax hfd
  rw [descriptors_cons_neg (Int.not_le.mpr hlistener)]
  exact hx.lwip.release

theorem proxy_listen {listener : ℤ} (hx : At (Pending listener) x) :
    proxyWp (wiiloadProxyListen listener) (fun _ ↦ At Closed) x := by
  refine wp_seq (proxy_ignoreInert trivial hx) fun _ y hy ↦ ?_
  refine wp_seq (proxy_inert trivial hy) fun ip y hy ↦ ?_
  refine wp_seq (proxy_inert trivial hy) fun bound y hy ↦ ?_
  refine wp_cases (fun _ ↦ proxy_giveUp _ hy) fun _ ↦ ?_
  refine wp_seq (proxy_inert trivial hy) fun listening y hy ↦ ?_
  refine wp_cases (fun _ ↦ proxy_giveUp _ hy) fun _ ↦ ?_
  refine wp_seq (proxy_inert trivial hy) fun nonblocking y hy ↦ ?_
  refine wp_cases (fun _ ↦ proxy_giveUp _ hy) fun _ ↦ ?_
  refine closed_of_holds ?_ hy.native hy.none.2.1 hy.none.2.2
  exact (descriptors_cons_nonneg hy.nonneg).symm ▸ hy.lwip

theorem proxy_usable (hx : At P x) : proxyWp wiiloadProxyUsable (fun _ ↦ At P) x := by
  rw [proxyWp, wiiloadProxyUsable, wp_bind, wp_load]
  refine wp_cases (fun _ ↦ hx) fun _ ↦ ?_
  refine wp_seq (proxy_inert trivial hx) fun ready y hy ↦ wp_cases (fun _ ↦ hy) fun _ ↦ ?_
  exact wp_seq (proxy_inert trivial hy) fun ip z hz ↦ hz

theorem proxy_start (hx : At ProxyInv x) : proxyWp wiiloadProxyStart (fun _ ↦ At ProxyInv) x := by
  rw [proxyWp, wiiloadProxyStart, wp_bind, loadProxy, wp_load]
  refine wp_cases (fun _ ↦ hx) fun hnone ↦ ?_
  have hclosed : At (fun p w ↦ Closed p w ∧ p.listenerFd < 0) x := by
    obtain hclosed | hconnected := hx
    · exact ⟨hclosed, by omega⟩
    · exact absurd hconnected.listener hnone
  refine wp_seq (proxy_usable hclosed) fun usable y hy ↦ wp_cases (fun _ ↦ .inl hy.1) fun _ ↦ ?_
  refine (wp_bind _ _ _ _).mpr (proxy_perform trivial fun listener w heffect ↦ ?_)
  rw [proxyEffect] at heffect
  refine wp_cases (fun hfailed ↦ ?_) fun hopen ↦ ?_
  · rw [if_pos hfailed] at heffect
    obtain rfl := Option.some.inj heffect
    exact .inl hy.1
  · rw [if_neg hopen] at heffect
    obtain ⟨lwip, hacquire, rfl⟩ := Option.map_eq_some_iff.mp heffect
    have hheld := hy.1.lwip
    rw [descriptors_cons_neg (Int.not_le.mpr hy.2)] at hheld
    refine wp_mono (proxy_listen ⟨by omega, hheld.acquire hacquire, hy.1.native, hy.2, hy.1.2⟩) ?_
    exact fun _ z hz ↦ .inl hz

/-! ## A new connection -/

/-- The lwIP end of a connection, and the native sockets that were made for it. -/
structure Joining (sockets : List ℤ) (p : WiiloadProxyState) (w : ProxyWorld) : Prop where
  lwip : w.lwip.Holds [p.axFd, p.listenerFd]
  native : w.native.Holds sockets
  listener : 0 ≤ p.listenerFd
  ax : 0 ≤ p.axFd
  none : p.nativeFd = -1
  axFd_eq : p.axFd = w.axFd
  fresh : w.toNative = {} ∧ w.toAx = {}

theorem Joining.owned {p : WiiloadProxyState} {w : ProxyWorld} (h : Joining [] p w) : Owned p w where
  lwip := by
    rw [descriptors_cons_nonneg h.ax, descriptors_cons_nonneg h.listener]
    exact h.lwip
  native := by
    rw [h.none]
    exact h.native
  ax_none hneg := absurd h.ax (by omega)
  native_none _ := h.none

/-- Both ends are open, and nothing was transferred. -/
structure Joined (p : WiiloadProxyState) (w : ProxyWorld) : Prop where
  owned : Owned p w
  listener : 0 ≤ p.listenerFd
  ax : 0 ≤ p.axFd
  native : 0 ≤ p.nativeFd
  axFd_eq : p.axFd = w.axFd
  nativeFd_eq : p.nativeFd = w.nativeFd
  fresh : w.toNative = {} ∧ w.toAx = {}

theorem proxy_connectNative (hx : At (Joining []) x) :
    proxyWp wiiloadProxyConnectNative
      (fun result ↦ if result = 0 then At Joined else At Owned) x := by
  have hgiveUp : ∀ (result : ℤ) {y fd}, result ≠ 0 → At (Joining [fd]) y → proxyWp (do
      ignore (native (.socketclose fd))
      pure result) (fun result ↦ if result = 0 then At Joined else At Owned) y := by
    intro result y fd hresult hy
    refine (wp_bind _ _ _ _).mpr (proxy_ignore trivial fun _ w heffect ↦ ?_)
    obtain rfl := Option.some.inj heffect
    rw [wp_pure, if_neg hresult]
    have hclosed : At (Joining []) { y with world := { y.world with
        native := y.world.native.release fd } } :=
      ⟨hy.lwip, hy.native.release, hy.listener, hy.ax, hy.none, hy.axFd_eq, hy.fresh⟩
    exact hclosed.owned
  refine (wp_bind _ _ _ _).mpr (proxy_perform trivial fun socket w heffect ↦ ?_)
  rw [proxyEffect] at heffect
  refine wp_cases (fun hfailed ↦ ?_) fun hopen ↦ ?_
  · rw [if_pos hfailed] at heffect
    obtain rfl := Option.some.inj heffect
    exact Joining.owned hx
  rw [if_neg hopen] at heffect
  obtain ⟨ledger, hacquire, rfl⟩ := Option.map_eq_some_iff.mp heffect
  have hy : At (fun p w ↦ Joining [socket.code] p w ∧ socket.code = w.nativeFd) { x with
      world := { x.world with native := ledger, nativeFd := socket.code } } :=
    ⟨⟨hx.lwip, hx.native.acquire hacquire, hx.listener, hx.ax, hx.none, hx.axFd_eq, hx.fresh⟩, rfl⟩
  refine wp_seq (proxy_inert trivial hy) fun parsed y hy ↦ ?_
  refine wp_cases (fun _ ↦ hgiveUp (-2) (by decide) hy.1) fun _ ↦ ?_
  refine (wp_bind _ _ _ _).mpr (proxy_perform trivial fun connected w heffect ↦ ?_)
  obtain rfl := Option.some.inj heffect
  refine wp_cases (fun _ ↦ ?_) fun _ ↦ ?_
  · refine (wp_bind _ _ _ _).mpr ((wp_bind _ _ _ _).mpr (proxy_perform trivial ?_))
    intro error w heffect
    rw [proxyEffect] at heffect
    split at heffect
    · cases heffect
    · rename_i hpos
      obtain rfl := Option.some.inj heffect
      exact hgiveUp _ (by omega) ⟨hy.1.lwip, hy.1.native, hy.1.listener, hy.1.ax, hy.1.none,
        hy.1.axFd_eq, hy.1.fresh⟩
  · refine ⟨⟨?_, ?_, fun h ↦ absurd hy.1.ax (Int.not_le.mpr h), fun h ↦ ?_⟩, hy.1.listener,
      hy.1.ax, Int.not_lt.mp hopen, hy.1.axFd_eq, hy.2, hy.1.fresh⟩
    · exact (descriptors_cons_nonneg hy.1.ax).symm ▸ (descriptors_cons_nonneg hy.1.listener).symm ▸
        hy.1.lwip
    · exact (descriptors_cons_nonneg (Int.not_lt.mp hopen)).symm ▸ hy.1.native
    · exact absurd h hopen

/-- A poll without a connection may take one. -/
theorem proxy_accept (hlistener : 0 ≤ x.mem.wiiloadProxy.listenerFd) (hx : At Closed x) :
    proxyWp wiiloadProxyAccept
      (fun connected ↦ if connected = true then At Connected else At Closed) x := by
  rw [proxyWp, wiiloadProxyAccept, wp_bind, loadProxy, wp_load]
  refine (wp_bind _ _ _ _).mpr (proxy_perform trivial fun accepted w heffect ↦ ?_)
  rw [proxyEffect] at heffect
  refine wp_cases (fun hfailed ↦ ?_) fun hopen ↦ ?_
  · rw [if_pos hfailed] at heffect
    obtain rfl := Option.some.inj heffect
    exact hx
  rw [if_neg hopen] at heffect
  obtain ⟨ledger, hacquire, rfl⟩ := Option.map_eq_some_iff.mp heffect
  have hnone : x.world.native.Holds [] := Closed.native hx
  have hheld := Closed.lwip hx
  rw [descriptors_cons_nonneg hlistener] at hheld
  have hy : At (fun p w ↦ Joining [] { p with axFd := accepted.code } w) { x with
      world := { x.world with
        lwip := ledger, axFd := accepted.code, toNative := {}, toAx := {} } } :=
    ⟨hheld.acquire hacquire, hnone, hlistener, Int.not_lt.mp hopen, hx.2.2, rfl, rfl, rfl⟩
  refine wp_seq (proxy_ignoreInert trivial hy) fun _ y hy ↦ ?_
  rw [wp_bind, storeProxy, wp_store]
  refine wp_seq (proxy_connectNative hy) fun connected z hz ↦ wp_cases (fun hfailed ↦ ?_) ?_
  · rw [if_neg hfailed] at hz
    refine wp_seq (proxy_resetConnection (S := fun _ _ ↦ True) ⟨hz, trivial⟩) fun _ z hz ↦ ?_
    exact hz.1
  · intro hconnected
    rw [if_pos (not_not.mp hconnected)] at hz
    have howned := hz.owned
    refine ⟨⟨howned.lwip, howned.native, howned.ax_none, howned.native_none⟩, hz.listener, hz.ax,
      hz.native, hz.axFd_eq, hz.nativeFd_eq, ?_, ?_⟩
    · rw [hz.fresh.1]
      exact .empty _ _
    · rw [hz.fresh.2]
      exact .empty _ _

/-! ## The pump -/

/-- The descriptors of the proxy. -/
def fds (p : WiiloadProxyState) : ℤ × ℤ × ℤ := (p.listenerFd, p.axFd, p.nativeFd)

/-- What the world says about them. -/
def ends (w : ProxyWorld) : ℤ × ℤ × Ledger ℤ × Ledger ℤ := (w.axFd, w.nativeFd, w.lwip, w.native)

/-- The pump moves bytes and no descriptors. -/
theorem Connected.move {p p' : WiiloadProxyState} {w w' : ProxyWorld} (h : Connected p w)
    (hfds : fds p' = fds p) (hends : ends w' = ends w)
    (htoNative : Buffered wiiloadProxyBuf p'.toNativeHalf w'.toNative p'.toNative p'.axToNative)
    (htoAx : Buffered wiiloadProxyBuf p'.toAxHalf w'.toAx p'.toAx p'.nativeToAx) :
    Connected p' w' := by
  obtain ⟨⟨hlwip, hnative, hax, hfd⟩, hlistener, hopen, hopen', haxeq, hfdeq, -, -⟩ := h
  simp only [fds, ends, Prod.mk.injEq] at hfds hends
  obtain ⟨rlistener, rax, rfd⟩ := hfds
  obtain ⟨wax, wfd, wlwip, wnative⟩ := hends
  rw [← rlistener, ← rax, ← wlwip] at hlwip
  rw [← rfd, ← wnative] at hnative
  rw [← rax] at hax hopen
  rw [← rfd] at hfd hopen'
  rw [← rlistener] at hlistener
  rw [← rax, ← wax] at haxeq
  rw [← rfd, ← wfd] at hfdeq
  exact ⟨⟨hlwip, hnative, hax, hfd⟩, hlistener, hopen, hopen', haxeq, hfdeq, htoNative, htoAx⟩

/-- What a phase leaves behind. -/
def StepHolds : ProxyStep → ProxyMachine → Prop
  | .ok _, x => At Connected x
  | .error last, x => At Closed x ∧
    (last = .transferDone → x.world.toNative.Delivered ∧ x.world.toAx.Delivered)

theorem proxy_then {first : ShimM ProxyStep} {next : Bool → ShimM ProxyStep}
    (hfirst : proxyWp first StepHolds x)
    (hnext : ∀ progress y, At Connected y → proxyWp (next progress) StepHolds y) :
    proxyWp (proxyThen first next) StepHolds x := by
  refine wp_seq hfirst fun step y hy ↦ ?_
  cases step with
  | error last => exact hy
  | ok progress => exact hnext progress y hy

theorem proxy_drop (site : DropSite) (error : ℤ) (hx : At Connected x) :
    proxyWp (wiiloadProxyDrop site error) StepHolds x :=
  wp_seq (proxy_resetConnection (S := fun _ _ ↦ True) ⟨hx.owned, trivial⟩) fun _ _ hy ↦
    ⟨hy.1, nofun⟩

theorem reportError_of_closed {w : ProxyWorld} {error : ℤ} (hfailed : w.recvFailed = true)
    (hclosed : nsslNativePeerClosed error = true) :
    reportError w error = { w with toAx := { w.toAx with ended := true } } :=
  if_pos ⟨hfailed, hclosed⟩

theorem reportError_of_other {w : ProxyWorld} {error : ℤ}
    (hother : ¬(w.recvFailed = true ∧ nsslNativePeerClosed error = true)) :
    reportError w error = w :=
  if_neg hother

/-- What is known of the world after `socketlasterr`. -/
theorem proxy_lasterr {post : ℤ → ProxyMachine → Prop}
    (hpost : ∀ error, post error { x with world := reportError x.world error }) :
    proxyWp realSocketlasterr post x := by
  refine (wp_bind _ _ _ _).mpr (proxy_perform trivial fun answer w heffect ↦ ?_)
  rw [proxyEffect] at heffect
  split at heffect
  · cases heffect
  · obtain rfl := Option.some.inj heffect
    exact hpost answer.code

theorem proxy_flushToNative (progress : Bool) (hx : At Connected x) :
    proxyWp (proxyFlushToNative progress) StepHolds x := by
  rw [proxyWp, proxyFlushToNative, wp_bind, loadProxy, wp_load]
  refine wp_cases (fun _ ↦ hx) fun hlen ↦ ?_
  rw [wp_bind, loadProxy, wp_load, wp_bind, loadProxy, wp_load]
  refine (wp_bind _ _ _ _).mpr (proxy_perform ⟨hx.nativeFd_eq, hx.toNative.shutdowns_eq_zero hlen⟩
    fun sent w heffect ↦ ?_)
  rw [proxyEffect, if_pos hx.nativeFd_eq] at heffect
  obtain ⟨stream, hsend, rfl⟩ := Option.map_eq_some_iff.mp heffect
  refine wp_cases (fun hpos ↦ hx.move rfl rfl (hx.toNative.advance hpos hsend) hx.toAx) fun hpos ↦ ?_
  obtain rfl := send_of_not_pos hsend hpos
  have hsame : At Connected { x with world := { x.world with recvFailed := false } } :=
    hx.move rfl rfl hx.toNative hx.toAx
  refine wp_cases (fun _ ↦ ?_) fun _ ↦ hsame
  refine wp_seq (proxy_lasterr fun error ↦ ?_) fun error y (hy : At Connected y) ↦
    wp_cases (fun _ ↦ proxy_drop _ _ hy) fun _ ↦ hy
  -- the error is about the `send`, not about the end of the other stream
  rw [reportError_of_other fun h ↦ Bool.false_ne_true h.1]
  exact hsame

theorem proxy_flushToAx (progress : Bool) (hx : At Connected x) :
    proxyWp (proxyFlushToAx progress) StepHolds x := by
  rw [proxyWp, proxyFlushToAx, wp_bind, loadProxy, wp_load]
  refine wp_cases (fun _ ↦ hx) fun hlen ↦ ?_
  rw [wp_bind, loadProxy, wp_load, wp_bind, loadProxy, wp_load]
  refine (wp_bind _ _ _ _).mpr (proxy_perform ⟨hx.axFd_eq, hx.toAx.shutdowns_eq_zero hlen⟩
    fun sent w heffect ↦ ?_)
  rw [proxyEffect, if_pos hx.axFd_eq] at heffect
  obtain ⟨stream, hsend, rfl⟩ := Option.map_eq_some_iff.mp heffect
  refine wp_cases (fun hpos ↦ hx.move rfl rfl hx.toNative (hx.toAx.advance hpos hsend)) fun hpos ↦ ?_
  obtain rfl := send_of_not_pos hsend hpos
  exact wp_cases (fun _ ↦ proxy_drop _ _ hx) fun _ ↦ hx

theorem proxy_pullFromAx (progress : Bool) (hx : At Connected x) :
    proxyWp (proxyPullFromAx progress) StepHolds x := by
  rw [proxyWp, proxyPullFromAx, wp_bind, loadProxy, wp_load]
  refine wp_cases (fun hpull ↦ ?_) fun _ ↦ hx
  rw [wp_bind, loadProxy, wp_load]
  refine (wp_bind _ _ _ _).mpr (proxy_perform trivial fun received w heffect ↦ ?_)
  rw [proxyEffect, if_pos hx.axFd_eq] at heffect
  obtain ⟨stream, hreceive, rfl⟩ := Option.map_eq_some_iff.mp heffect
  refine wp_cases (fun hpos ↦ ?_) fun hpos ↦ wp_cases (fun hzero ↦ ?_) fun hzero ↦ ?_
  · exact hx.move rfl rfl (hx.toNative.fill hpull.1 hpull.2 hpos hreceive) hx.toAx
  · obtain rfl := receive_of_zero hreceive hpos hzero
    exact hx.move rfl rfl (hx.toNative.finish hpull.1) hx.toAx
  · obtain rfl := receive_of_neg hreceive hpos hzero
    exact wp_cases (fun _ ↦ proxy_drop _ _ hx) fun _ ↦ hx

theorem proxy_pullFromNative (progress : Bool) (hx : At Connected x) :
    proxyWp (proxyPullFromNative progress) StepHolds x := by
  rw [proxyWp, proxyPullFromNative, wp_bind, loadProxy, wp_load]
  refine wp_cases (fun hpull ↦ ?_) fun _ ↦ hx
  rw [wp_bind, loadProxy, wp_load]
  refine (wp_bind _ _ _ _).mpr (proxy_perform trivial fun received w heffect ↦ ?_)
  rw [proxyEffect, if_pos hx.nativeFd_eq] at heffect
  obtain ⟨stream, hreceive, rfl⟩ := Option.map_eq_some_iff.mp heffect
  refine wp_cases (fun hpos ↦ ?_) fun hpos ↦ wp_cases (fun hzero ↦ ?_) fun hzero ↦ ?_
  · exact hx.move rfl rfl hx.toNative (hx.toAx.fill hpull.1 hpull.2 hpos hreceive)
  · obtain rfl := receive_of_zero hreceive hpos hzero
    exact hx.move rfl rfl hx.toNative (hx.toAx.finish hpull.1)
  · obtain rfl := receive_of_neg hreceive hpos hzero
    refine (wp_bind _ _ _ _).mpr (proxy_lasterr fun error ↦ ?_)
    have hfailed : decide (received.code < 0) = true := decide_eq_true (by omega)
    have hsame : At Connected { x with world := { x.world with
        recvFailed := decide (received.code < 0) } } := hx.move rfl rfl hx.toNative hx.toAx
    by_cases hclosed : nsslNativePeerClosed error = true
    · refine wp_cases (fun hblock ↦ ?_) fun _ ↦ wp_cases (fun _ ↦ ?_) fun hopen ↦ ?_
      · exact absurd (hblock ▸ hclosed) (by decide)
      · rw [reportError_of_closed hfailed hclosed]
        exact hx.move rfl rfl hx.toNative (hx.toAx.finish hpull.1)
      · exact absurd hclosed hopen
    · rw [reportError_of_other fun h ↦ hclosed h.2]
      refine wp_cases (fun _ ↦ hsame) fun _ ↦ wp_cases (fun hyes ↦ absurd hyes hclosed) fun _ ↦ ?_
      exact proxy_drop _ _ hsame

theorem proxy_shutdownNative (progress : Bool) (hx : At Connected x) :
    proxyWp (proxyShutdownNative progress) StepHolds x := by
  rw [proxyWp, proxyShutdownNative, wp_bind, loadProxy, wp_load]
  refine wp_cases (fun ⟨hended, hempty, hfirst⟩ ↦ ?_) fun _ ↦ hx
  rw [wp_bind, loadProxy, wp_load]
  have hcount : x.world.toNative.shutdowns = 0 := by
    rw [hx.toNative.shutdowns, hfirst]
    rfl
  refine (wp_bind _ _ _ _).mpr (proxy_ignore (fun _ ↦ ⟨hx.nativeFd_eq, hcount,
    hx.toNative.delivered_of_ended hended hempty⟩) fun _ w heffect ↦ ?_)
  rw [proxyEffect, if_pos ⟨hx.nativeFd_eq, rfl⟩] at heffect
  obtain rfl := Option.some.inj heffect
  exact hx.move rfl rfl (hx.toNative.shut hended hempty hfirst) hx.toAx

theorem proxy_shutdownAx (progress : Bool) (hx : At Connected x) :
    proxyWp (proxyShutdownAx progress) StepHolds x := by
  rw [proxyWp, proxyShutdownAx, wp_bind, loadProxy, wp_load]
  refine wp_cases (fun ⟨hended, hempty, hfirst⟩ ↦ ?_) fun _ ↦ hx
  rw [wp_bind, loadProxy, wp_load]
  have hcount : x.world.toAx.shutdowns = 0 := by
    rw [hx.toAx.shutdowns, hfirst]
    rfl
  refine (wp_bind _ _ _ _).mpr (proxy_ignore (fun _ ↦ ⟨hx.axFd_eq, hcount,
    hx.toAx.delivered_of_ended hended hempty⟩) fun _ w heffect ↦ ?_)
  rw [proxyEffect, if_pos ⟨hx.axFd_eq, rfl⟩] at heffect
  obtain rfl := Option.some.inj heffect
  exact hx.move rfl rfl hx.toNative (hx.toAx.shut hended hempty hfirst)

theorem proxy_finish (progress : Bool) (hx : At Connected x) :
    proxyWp (proxyFinish progress) StepHolds x := by
  rw [proxyWp, proxyFinish, wp_bind, loadProxy, wp_load]
  refine wp_cases (fun ⟨hax, hnative, htoNative, htoAx⟩ ↦ ?_) fun _ ↦ hx
  have hdelivered : At (fun p w ↦ Owned p w ∧ w.toNative.Delivered ∧ w.toAx.Delivered) x :=
    ⟨hx.owned, hx.toNative.delivered_of_ended hax htoNative,
      hx.toAx.delivered_of_ended hnative htoAx⟩
  refine wp_seq (proxy_resetConnection (S := fun toNative toAx ↦
    toNative.Delivered ∧ toAx.Delivered) hdelivered) fun _ y hy ↦ ?_
  exact ⟨hy.1, fun _ ↦ hy.2⟩

theorem proxy_iteration (hx : At Connected x) : proxyWp proxyIteration StepHolds x := by
  refine proxy_then (proxy_flushToNative false hx) fun progress y hy ↦ ?_
  refine proxy_then (proxy_pullFromAx progress hy) fun progress y hy ↦ ?_
  refine proxy_then (proxy_shutdownNative progress hy) fun progress y hy ↦ ?_
  refine proxy_then (proxy_flushToAx progress hy) fun progress y hy ↦ ?_
  refine proxy_then (proxy_pullFromNative progress hy) fun progress y hy ↦ ?_
  exact proxy_then (proxy_shutdownAx progress hy) fun progress y hy ↦ proxy_finish progress hy

/-- What a poll leaves behind. -/
def PollHolds : Option ProxyEnd → ProxyMachine → Prop
  | none, x => At Connected x
  | some last, x => StepHolds (.error last) x

theorem proxy_pump (left : ℕ) (hx : At Connected x) : proxyWp (proxyPump left) PollHolds x := by
  induction left generalizing x with
  | zero => exact hx
  | succ left ih =>
    refine wp_seq (proxy_iteration hx) fun step y hy ↦ ?_
    cases step with
    | error last => exact hy
    | ok progress => exact wp_cases (fun _ ↦ ih hy) fun _ ↦ hy

theorem proxy_poll (hx : At ProxyInv x) :
    proxyWp wiiloadProxyPoll (fun last y ↦ At ProxyInv y ∧
      (last = some .transferDone → y.world.toNative.Delivered ∧ y.world.toAx.Delivered) ∧
      (last = none → 0 ≤ x.mem.wiiloadProxy.axFd → 0 ≤ y.mem.wiiloadProxy.axFd)) x := by
  have hpumped : ∀ last y, PollHolds last y → At ProxyInv y ∧
      (last = some .transferDone → y.world.toNative.Delivered ∧ y.world.toAx.Delivered) ∧
      (last = none → 0 ≤ x.mem.wiiloadProxy.axFd → 0 ≤ y.mem.wiiloadProxy.axFd) := by
    intro last y hy
    cases last with
    | none => exact ⟨.inr hy, nofun, fun _ _ ↦ hy.ax⟩
    | some last => exact ⟨.inl hy.1, fun hdone ↦ hy.2 (Option.some.inj hdone), nofun⟩
  rw [proxyWp, wiiloadProxyPoll, wp_bind, loadProxy, wp_load]
  refine wp_cases (fun _ ↦ ⟨hx, nofun, fun _ hax ↦ hax⟩) fun hlistener ↦ ?_
  refine wp_cases (fun hnone ↦ ?_) fun hopen ↦ ?_
  · have hclosed : At Closed x := by
      obtain hclosed | hconnected := hx
      · exact hclosed
      · exact absurd hconnected.ax (Int.not_le.mpr hnone)
    refine wp_seq (proxy_accept (Int.not_lt.mp hlistener) hclosed) fun connected y hy ↦ ?_
    refine wp_cases (fun hyes ↦ ?_) fun hno ↦ ?_
    · rw [if_pos hyes] at hy
      exact wp_mono (proxy_pump _ hy) hpumped
    · rw [if_neg hno] at hy
      exact ⟨.inl hy, nofun, fun _ hax ↦ absurd hax (Int.not_le.mpr hnone)⟩
  · have hconnected : At Connected x := by
      obtain hclosed | hconnected := hx
      · exact absurd (hclosed.2.1 ▸ (by decide : (-1 : ℤ) < 0)) hopen
      · exact hconnected
    exact wp_mono (proxy_pump _ hconnected) hpumped

end Steps

/-! ## Runs -/

/-- The calls that the worker of the module makes. -/
inductive ProxyOp where
  | start
  | poll
  | stop
  deriving DecidableEq, Repr

def ProxyOp.program : ProxyOp → ShimM (Option ProxyEnd)
  | .start => do
    let _ ← wiiloadProxyStart
    pure none
  | .poll => wiiloadProxyPoll
  | .stop => do
    wiiloadProxyStop
    pure none

/-- The machines between the calls of the worker. -/
inductive ProxyReach : ProxyMachine → Prop where
  | begin {x : ProxyMachine} (proxy : x.mem.wiiloadProxy = {}) (world : x.world = {}) : ProxyReach x
  /-- the other parts of the shim run -/
  | other {x y : ProxyMachine} (reached : ProxyReach x)
      (proxy : y.mem.wiiloadProxy = x.mem.wiiloadProxy) (world : y.world = x.world) : ProxyReach y
  | step {x y : ProxyMachine} {last : Option ProxyEnd} (reached : ProxyReach x) (op : ProxyOp)
      (exec : Exec proxyReply op.program x last y) : ProxyReach y

/-- The accepted bytes followed by the waiting ones are the received ones. -/
def Carries (half : HalfPipe) (stream : Stream) (buffer : Memory) : Prop :=
  stream.accepted ++ buffer.slice half.off half.len = stream.received ∧
    half.off + half.len ≤ wiiloadProxyBuf

section Runs

variable {x y : ProxyMachine}

theorem ProxyInv.owned {p : WiiloadProxyState} {w : ProxyWorld} (h : ProxyInv p w) : Owned p w := by
  obtain hclosed | hconnected := h
  · exact hclosed.1
  · exact hconnected.owned

theorem proxy_op (op : ProxyOp) (hx : At ProxyInv x) :
    proxyWp op.program (fun _ ↦ At ProxyInv) x := by
  cases op with
  | start => exact wp_seq (proxy_start hx) fun _ _ hy ↦ hy
  | poll => exact wp_mono (proxy_poll hx) fun _ _ hy ↦ hy.1
  | stop => exact wp_seq (proxy_stop hx.owned) fun _ _ hy ↦ .inl hy.1

theorem ProxyReach.inv (h : ProxyReach x) : At ProxyInv x := by
  induction h with
  | begin proxy world =>
    rw [At, proxy, world]
    exact .inl (closed_of_holds Ledger.holds_empty Ledger.holds_empty rfl rfl)
  | other reached proxy world ih =>
    rw [At, proxy, world]
    exact ih
  | step reached op exec ih => exact exec.post_of_wp (proxy_op op ih)

/-- Both ends are open or none is; both directions of an open connection are faithful; `SHUT_WR` goes
to each sink at most once, after everything was delivered; a transfer that is done has delivered
both streams, and only a logged end closes a connection; and after a stop everything that was
opened was closed exactly once. -/
theorem proxy_faithful (h : ProxyReach x) :
    (x.mem.wiiloadProxy.axFd = -1 ∧ x.mem.wiiloadProxy.nativeFd = -1 ∨
      0 ≤ x.mem.wiiloadProxy.axFd ∧ 0 ≤ x.mem.wiiloadProxy.nativeFd ∧
      x.world.lwip.isOut x.mem.wiiloadProxy.axFd = true ∧
      x.world.native.isOut x.mem.wiiloadProxy.nativeFd = true) ∧
    (0 ≤ x.mem.wiiloadProxy.axFd →
      Carries x.mem.wiiloadProxy.toNativeHalf x.world.toNative x.mem.wiiloadProxy.toNative ∧
      Carries x.mem.wiiloadProxy.toAxHalf x.world.toAx x.mem.wiiloadProxy.toAx) ∧
    (∀ (op : ProxyOp) request y, Makes proxyReply op.program x request y → proxyPre request y) ∧
    (∀ last y, Exec proxyReply ProxyOp.poll.program x last y →
      (last = some .transferDone → y.world.toNative.Delivered ∧ y.world.toAx.Delivered) ∧
      (last = none → 0 ≤ x.mem.wiiloadProxy.axFd → 0 ≤ y.mem.wiiloadProxy.axFd)) ∧
    ∀ last y, Exec proxyReply ProxyOp.stop.program x last y → Settled y.world := by
  have hinv := h.inv
  refine ⟨?_, fun hopen ↦ ?_, fun op request y hmakes ↦ hmakes.pre_of_wp (proxy_op op hinv),
    fun last y hexec ↦ (hexec.post_of_wp (proxy_poll hinv)).2, fun last y hexec ↦ ?_⟩
  · obtain hclosed | hconnected := hinv
    · exact .inl hclosed.2
    · have hlwip := hconnected.owned.lwip
      have hnative := hconnected.owned.native
      rw [descriptors_cons_nonneg hconnected.ax] at hlwip
      rw [descriptors_cons_nonneg hconnected.native] at hnative
      exact .inr ⟨hconnected.ax, hconnected.native, hlwip.isOut List.mem_cons_self,
        hnative.isOut List.mem_cons_self⟩
  · obtain hclosed | hconnected := hinv
    · exact absurd (hclosed.2.1 ▸ hopen) (by decide)
    · exact ⟨⟨hconnected.toNative.bytes, hconnected.toNative.bound⟩, hconnected.toAx.bytes,
        hconnected.toAx.bound⟩
  · have hstop : proxyWp ProxyOp.stop.program (fun _ y ↦ Settled y.world) x :=
      wp_seq (proxy_stop hinv.owned) fun _ _ hy ↦ hy.2
    exact hexec.post_of_wp hstop

/-- A module whose adapter serves an address. -/
def freshProxy : ProxyMachine := { mem := {}, world := {} }

/-- One byte goes to Wiiload, which sends nothing back. -/
def oneByteReplies : List ShimReply :=
  [{ code := 1 }, {}, { code := 5 }, { code := 1 }, {}, { code := 1, bytes := [7] }, {}, {},
    { code := 1 }, {}, {}, {}, {}, {}, {}]

theorem proxy_faithful_oneByte :
    ∃ x y z, (ProxyReach x ∧ Exec proxyReply ProxyOp.poll.program x (some .transferDone) y ∧
      Exec proxyReply ProxyOp.stop.program y none z ∧ y.world.toNative.accepted = [7]) ∧
      y.world.toNative.Delivered ∧ y.world.toAx.Delivered ∧ Settled z.world := by
  obtain ⟨x, y, z, hstart, hpoll, hstop, hbyte⟩ : ∃ x y z,
      Exec proxyReply ProxyOp.start.program freshProxy none x ∧
      Exec proxyReply ProxyOp.poll.program x (some .transferDone) y ∧
      Exec proxyReply ProxyOp.stop.program y none z ∧ y.world.toNative.accepted = [7] :=
    ⟨_, _, _,
      exec_of_run (show run proxyReply _ [{ code := 1 }, { ip := 1 }, { code := 0 }, {}, { ip := 1 },
        {}, {}, {}] _ = some (_, _, []) from rfl),
      exec_of_run (show run proxyReply _ oneByteReplies _ = some (_, _, []) from rfl),
      exec_of_run (show run proxyReply _ [{}] _ = some (_, _, []) from rfl), rfl⟩
  have hx : ProxyReach x := .step (.begin rfl rfl) .start hstart
  have hy : ProxyReach y := .step hx .poll hpoll
  have hdelivered := ((proxy_faithful hx).2.2.2.1 _ y hpoll).1 rfl
  exact ⟨x, y, z, ⟨hx, hpoll, hstop, hbyte⟩, hdelivered.1, hdelivered.2,
    (proxy_faithful hy).2.2.2.2 none z hstop⟩

end Runs

end Ax88179Aroma.Shim.Proxy
