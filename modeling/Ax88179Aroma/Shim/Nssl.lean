import Ax88179Aroma.Shim.Sockets

/-!
# NSSL hooks

Nintendo's TLS needs a native descriptor.  `NSSLCreateConnection` therefore takes an AX socket out
of `open_mask`: in bridge mode its lwIP descriptor goes to a relay and the public descriptor is
connected to the relay over the loopback interface, otherwise the public descriptor is connected to
the peer itself and the lwIP descriptor is closed.
-/

namespace Ax88179Aroma.Shim

open Effect Program

def nsslInvalidFd : ℤ := -0x280010

/-- `127.0.0.1` -/
def loopback : UInt32 := 0x7f000001

/-! ## Tracking of public connections -/

def nsslTrackPublicConnection (fd connection : ℤ) : ShimM Unit :=
  when (0 ≤ fd ∧ fd < 32 ∧ 0 ≤ connection) do
    store fun s ↦
      { s with nsslConnectionByFd := Function.update s.nsslConnectionByFd fd.toNat connection }
    store fun s ↦ { s with nsslPublicMask := s.nsslPublicMask ||| bit fd.toNat }

def nsslUntrackPublicFd (fd : ℕ) : ShimM Unit := do
  store fun s ↦ { s with nsslPublicMask := s.nsslPublicMask &&& ~~~ bit fd }
  store fun s ↦ { s with nsslConnectionByFd := Function.update s.nsslConnectionByFd fd (-1) }

def nsslPublicFdIsLoopback (fd : ℕ) : ShimM Bool := do
  setErrno (-1)
  let peer ← native (.getpeername fd true (some 16))
  pure (decide (peer.code = 0 ∧
    peer.addr.any (fun a ↦ a.family = nsnAfInet ∧ a.addr = loopback) = true))

/-- Wake the transport of one tracked connection, or forget a stale one. -/
def nsslShutdownTracked (fd : ℕ) : ShimM Unit := do
  let alive ← nsslPublicFdIsLoopback fd
  if alive then ignore (native (.shutdown fd shutRdwr)) else nsslUntrackPublicFd fd

def nsslShutdownAllTracked : ShimM Unit := do
  let mask ← load ShimState.nsslPublicMask
  each (fun fd ↦ when (mask.getLsbD fd = true) (nsslShutdownTracked fd)) publicFds

/-! ## Promotion -/

/-- `mapped_fd[sockfd] = -1` after the descriptor left `open_mask`. -/
def unmapFd (sockfd : ℤ) : ShimM Unit := do
  untrackFd sockfd.toNat
  store fun s ↦ { s with mappedFd := Function.update s.mappedFd sockfd.toNat (-1) }

/-- Connect the native placeholder to the peer and discard lwIP. -/
def promoteAxSocketToNative (sockfd : ℤ) : ShimM ℤ := do
  let foreign ← isForeign sockfd
  if foreign then pure 0
  else do
    let lwfd ← stackFd sockfd
    let peer ← lwip (.getpeername lwfd)
    if peer.code ≠ 0 then pure (-1)
    else
      match sockaddrToLwip peer.addr 16 with
      | none => pure (-2)
      | some peer => do
        setErrno (-1)
        let rc ← native (.connect sockfd (some peer) 16)
        if rc.code ≠ 0 then do
          let error ← realSocketlasterr
          pure (-100 - error)
        else do
          unmapFd sockfd
          ignore (lwip (.close lwfd))
          pure 1

/-! ## The bridge -/

/-- Give up a bridge: close the listener and stop the reserved relay.  As everywhere in the bridge,
the second component is `*relay_slot_out`. -/
def bridgeFail (listener : ℤ) (slot code : ℤ) : ShimM (ℤ × ℤ) := do
  ignore (native (.socketclose listener))
  nsslRelayStopSlot slot
  pure (code, -1)

/-- The same after a failed native call, whose error is part of the result. -/
def bridgeFailNative (listener : ℤ) (slot base : ℤ) : ShimM (ℤ × ℤ) := do
  let error ← realSocketlasterr
  bridgeFail listener slot (base - error)

/-- The end of `bridge_ax_socket_to_nssl`: the relay takes over both descriptors. -/
def bridgePublish (sockfd lwfd accepted : ℤ) (slot : ℕ) : ShimM (ℤ × ℤ) := do
  storeRelay slot fun r ↦ { r with nativeFd := accepted }
  storeRelay slot fun r ↦ { r with lwfd := lwfd }
  note (.adopted slot)
  storeRelay slot fun r ↦ { r with publicFd := sockfd }
  unmapFd sockfd
  storeRelay slot fun r ↦ { r with ready := 1 }
  pure (1, slot)

/-- Connect the public descriptor to the listener and take the other end. -/
def bridgeConnect (sockfd lwfd listener slot : ℤ) (loc : Sockaddr) : ShimM (ℤ × ℤ) := do
  let connected ← native (.connect sockfd (some loc) 16)
  if connected.code ≠ 0 then bridgeFailNative listener slot (-400)
  else do
    let accepted ← native (.accept listener false none)
    ignore (native (.socketclose listener))
    if accepted.code < 0 then do
      let error ← realSocketlasterr
      nsslRelayStopSlot slot
      pure (-500 - error, -1)
    else bridgePublish sockfd lwfd accepted.code slot.toNat

/-- Make the listener on the loopback interface. -/
def bridgeListen (sockfd lwfd listener slot : ℤ) : ShimM (ℤ × ℤ) := do
  let parsed ← lwip (.inetPton "127.0.0.1")
  if parsed.code ≠ 1 then bridgeFail listener slot (-5)
  else do
    let loc : Sockaddr := { family := nsnAfInet, port := 0, addr := loopback }
    let bound ← native (.bind listener (some loc) 16)
    if bound.code ≠ 0 then bridgeFailNative listener slot (-100)
    else do
      let listening ← native (.listen listener 1)
      if listening.code ≠ 0 then bridgeFailNative listener slot (-200)
      else do
        let name ← native (.getsockname listener true (some 16))
        if name.code ≠ 0 then bridgeFailNative listener slot (-300)
        else bridgeConnect sockfd lwfd listener slot (name.addr.getD loc)

/-- The result of the bridge and the slot of its relay, `-1` without one. -/
def bridgeAxSocketToNssl (sockfd : ℤ) : ShimM (ℤ × ℤ) := do
  let foreign ← isForeign sockfd
  if foreign then pure (0, -1)
  else do
    let lwfd ← stackFd sockfd
    let peer ← lwip (.getpeername lwfd)
    if peer.code ≠ 0 then pure (-1, -1)
    else if sockaddrToLwip peer.addr 16 = none then pure (-2, -1)
    else do
      let slot ← nsslRelayReserve
      if slot < 0 then pure (-3, -1)
      else do
        let listener ← native (.socket nsnAfInet sockStream 0)
        if listener.code < 0 then do
          nsslRelayStopSlot slot
          pure (-4, -1)
        else bridgeListen sockfd lwfd listener.code slot

/-! ## The hooks -/

/-- What `NSSLCreateConnection` does before the original: whether to go on, and the relay. -/
def nsslPrepare (sockfd : ℤ) : ShimM (Bool × ℤ) := do
  let foreign ← isForeign sockfd
  if foreign then pure (true, -1)
  else do
    let bridge ← load ShimState.nsslBridgeEnabled
    if bridge ≠ 0 then do
      let result ← bridgeAxSocketToNssl sockfd
      pure (decide (0 < result.1), result.2)
    else do
      let _ ← promoteAxSocketToNative sockfd
      pure (true, -1)

def hookNsslCreateConnection (context : ℤ) (host : Option String)
    (hostLength options sockfd block : ℤ) : ShimM ShimReply := do
  let prepared ← nsslPrepare sockfd
  if prepared.1 = false then pure { code := nsslInvalidFd }
  else do
    let result ← native (.nsslCreateConnection context host hostLength options sockfd block)
    when (0 ≤ prepared.2)
      (if result.code < 0 then nsslRelayStopSlot prepared.2
      else nsslTrackPublicConnection sockfd result.code)
    pure result

/-- Forget one public descriptor of a destroyed connection. -/
def nsslRelease (connection : ℤ) (fd : ℕ) : ShimM Unit := do
  let owner ← load fun s ↦ s.nsslConnectionByFd fd
  when (owner = connection) do
    nsslRelayDetachPublicFd fd
    nsslUntrackPublicFd fd

def hookNsslDestroyConnection (connection : ℤ) : ShimM ShimReply := do
  let result ← native (.nsslDestroyConnection connection)
  let mask ← load ShimState.nsslPublicMask
  each (fun fd ↦ when (mask.getLsbD fd = true) (nsslRelease connection fd)) publicFds
  pure result

def hookNsslFinish (fuel : ℕ) : ShimM ShimReply := do
  let result ← native .nsslFinish
  nsslRelayStopAll fuel
  store fun s ↦ { s with nsslPublicMask := 0 }
  forgetConnections
  pure result

end Ax88179Aroma.Shim
