import Ax88179Aroma.Shim.Lifecycle

/-!
# The Wiiload proxy

A private lwIP listener on the address of the adapter takes one connection at a time and forwards it
to the Wiiload server of the console on the loopback interface.  The worker of the module polls the
proxy; all its state is kept in `wiiload_proxy` between the polls.

The result of a poll is the line that it logs about the end of a connection, if any.
-/

namespace Ax88179Aroma.Shim

open Effect Program

def wiiloadProxyBuf : ℕ := 8192
def wiiloadProxyIterations : ℕ := 64
def lwipAfInet : ℤ := 2
def lwipSoReuseaddr : ℤ := 0x0004

/-- The call that a connection was dropped at. -/
inductive DropSite where
  | nativeSend
  | axRecv
  | axSend
  | nativeRecv
  deriving DecidableEq, Repr

/-- The two lines that the proxy logs about the end of a connection. -/
inductive ProxyEnd where
  | drop (site : DropSite) (error : ℤ)
  | transferDone
  deriving DecidableEq, Repr

/-! ## The listener -/

/-- The listener could not be set up. -/
def wiiloadProxyGiveUp (listener result : ℤ) : ShimM ℤ := do
  ignore (perform (.lwip (.close listener)))
  pure result

/-- Make a new socket the listener of the proxy. -/
def wiiloadProxyListen (listener : ℤ) : ShimM ℤ := do
  ignore (perform (.lwip
    (.setsockopt listener lwipSolSocket lwipSoReuseaddr (some { first := 1 }) 4)))
  let ip ← os .axNetIp4
  let loc : Sockaddr := { family := lwipAfInet, port := axNativePortWiiload, addr := ip.ip }
  let bound ← perform (.lwip (.bind listener loc))
  if bound.code ≠ 0 then wiiloadProxyGiveUp listener (-100 - bound.errno)
  else do
    let listening ← perform (.lwip (.listen listener 1))
    if listening.code ≠ 0 then wiiloadProxyGiveUp listener (-200 - listening.errno)
    else do
      let nonblocking ← perform (.lwip (.ioctlNonblocking listener true))
      if nonblocking.code ≠ 0 then wiiloadProxyGiveUp listener (-300 - nonblocking.errno)
      else do
        storeProxy fun p ↦ { p with listenerFd := listener }
        pure 1

/-- Whether the adapter serves an address. -/
def wiiloadProxyUsable : ShimM Bool := do
  let force ← load ShimState.forceNative
  if force ≠ 0 then pure false
  else do
    let ready ← os .axNetStackReady
    if ready.code = 0 then pure false
    else do
      let ip ← os .axNetIp4
      pure (decide (ip.ip ≠ 0))

def wiiloadProxyStart : ShimM ℤ := do
  let listenerFd ← loadProxy WiiloadProxyState.listenerFd
  if listenerFd ≥ 0 then pure 1
  else do
    let usable ← wiiloadProxyUsable
    if usable = false then pure 0
    else do
      let listener ← perform (.lwip (.socket lwipAfInet sockStream 0))
      if listener.code < 0 then pure (-1)
      else wiiloadProxyListen listener.code

/-! ## A new connection -/

def wiiloadProxyConnectNative : ShimM ℤ := do
  let nativeFd ← native (.socket nsnAfInet sockStream 0)
  if nativeFd.code < 0 then pure (-1)
  else do
    let parsed ← perform (.lwip (.inetPton "127.0.0.1"))
    if parsed.code ≠ 1 then do
      ignore (native (.socketclose nativeFd.code))
      pure (-2)
    else do
      let target : Sockaddr := { family := nsnAfInet, port := axNativePortWiiload, addr := loopback }
      let connected ← native (.connect nativeFd.code (some target) 16)
      if connected.code ≠ 0 then do
        let error ← realSocketlasterr
        ignore (native (.socketclose nativeFd.code))
        pure (-100 - error)
      else do
        storeProxy fun p ↦ { p with nativeFd := nativeFd.code }
        pure 0

/-- Take a connection if one waits; `false` when there is none to pump. -/
def wiiloadProxyAccept : ShimM Bool := do
  let listenerFd ← loadProxy WiiloadProxyState.listenerFd
  let axFd ← perform (.lwip (.accept listenerFd))
  if axFd.code < 0 then pure false
  else do
    ignore (perform (.lwip (.ioctlNonblocking axFd.code true)))
    storeProxy fun p ↦ { p with axFd := axFd.code }
    let connected ← wiiloadProxyConnectNative
    if connected ≠ 0 then do
      wiiloadProxyResetConnection
      pure false
    else do
      storeProxy fun p ↦ { p with toNativeHalf := {}, toAxHalf := {}, axToNative := 0, nativeToAx := 0 }
      pure true

/-! ## The pump -/

/-- `progress`, or the end of the connection. -/
abbrev ProxyStep := Except ProxyEnd Bool

/-- Go on unless the connection ended. -/
def proxyThen (first : ShimM ProxyStep) (next : Bool → ShimM ProxyStep) : ShimM ProxyStep := do
  let step ← first
  match step with
  | .error last => pure (.error last)
  | .ok progress => next progress

def wiiloadProxyDrop (site : DropSite) (error : ℤ) : ShimM ProxyStep := do
  wiiloadProxyResetConnection
  pure (.error (.drop site error))

/-- PC/AX to native Wiiload: flush what waits for the native socket. -/
def proxyFlushToNative (progress : Bool) : ShimM ProxyStep := do
  let half ← loadProxy WiiloadProxyState.toNativeHalf
  if half.len = 0 then pure (.ok progress)
  else do
    let fd ← loadProxy WiiloadProxyState.nativeFd
    let buf ← loadProxy fun p ↦ p.toNative.slice half.off half.len
    let sent ← native (.send fd buf nsnMsgDontwait)
    if sent.code > 0 then do
      storeProxy fun p ↦ { p with
        axToNative := p.axToNative + UInt64.ofNat sent.code.toNat
        toNativeHalf := p.toNativeHalf.advance sent.code.toNat }
      pure (.ok true)
    else if sent.code < 0 then do
      let error ← realSocketlasterr
      if error ≠ nsnErrWouldblock then wiiloadProxyDrop .nativeSend error
      else pure (.ok progress)
    else pure (.ok progress)

def proxyPullFromAx (progress : Bool) : ShimM ProxyStep := do
  let half ← loadProxy WiiloadProxyState.toNativeHalf
  if half.len = 0 ∧ half.rxOpen = true then do
    let fd ← loadProxy WiiloadProxyState.axFd
    let received ← perform (.lwip (.recv fd wiiloadProxyBuf msgDontwait))
    if received.code > 0 then do
      storeProxy fun p ↦ { p with
        toNative := p.toNative.copy (Memory.ofList received.bytes) received.code.toNat
        toNativeHalf := p.toNativeHalf.fill received.code.toNat }
      pure (.ok true)
    else if received.code = 0 then do
      storeProxy fun p ↦ { p with toNativeHalf := { p.toNativeHalf with rxOpen := false } }
      pure (.ok true)
    else if received.errno ≠ ewouldblock ∧ received.errno ≠ eagain then
      wiiloadProxyDrop .axRecv received.errno
    else pure (.ok progress)
  else pure (.ok progress)

def proxyShutdownNative (progress : Bool) : ShimM ProxyStep := do
  let half ← loadProxy WiiloadProxyState.toNativeHalf
  if half.rxOpen = false ∧ half.len = 0 ∧ half.wrShutdown = false then do
    let fd ← loadProxy WiiloadProxyState.nativeFd
    ignore (native (.shutdown fd shutWr))
    storeProxy fun p ↦ { p with toNativeHalf := { p.toNativeHalf with wrShutdown := true } }
    pure (.ok true)
  else pure (.ok progress)

/-- Native Wiiload to PC/AX: flush what waits for the lwIP socket. -/
def proxyFlushToAx (progress : Bool) : ShimM ProxyStep := do
  let half ← loadProxy WiiloadProxyState.toAxHalf
  if half.len = 0 then pure (.ok progress)
  else do
    let fd ← loadProxy WiiloadProxyState.axFd
    let buf ← loadProxy fun p ↦ p.toAx.slice half.off half.len
    let sent ← perform (.lwip (.send fd buf msgDontwait))
    if sent.code > 0 then do
      storeProxy fun p ↦ { p with
        nativeToAx := p.nativeToAx + UInt64.ofNat sent.code.toNat
        toAxHalf := p.toAxHalf.advance sent.code.toNat }
      pure (.ok true)
    else if sent.code < 0 ∧ sent.errno ≠ ewouldblock ∧ sent.errno ≠ eagain then
      wiiloadProxyDrop .axSend sent.errno
    else pure (.ok progress)

/-- An error that says that the peer is gone is the end of its stream. -/
def proxyPullFromNative (progress : Bool) : ShimM ProxyStep := do
  let half ← loadProxy WiiloadProxyState.toAxHalf
  if half.len = 0 ∧ half.rxOpen = true then do
    let fd ← loadProxy WiiloadProxyState.nativeFd
    let received ← native (.recv fd wiiloadProxyBuf nsnMsgDontwait)
    if received.code > 0 then do
      storeProxy fun p ↦ { p with
        toAx := p.toAx.copy (Memory.ofList received.bytes) received.code.toNat
        toAxHalf := p.toAxHalf.fill received.code.toNat }
      pure (.ok true)
    else if received.code = 0 then do
      storeProxy fun p ↦ { p with toAxHalf := { p.toAxHalf with rxOpen := false } }
      pure (.ok true)
    else do
      let error ← realSocketlasterr
      if error = nsnErrWouldblock then pure (.ok progress)
      else if nsslNativePeerClosed error then do
        storeProxy fun p ↦ { p with toAxHalf := { p.toAxHalf with rxOpen := false } }
        pure (.ok true)
      else wiiloadProxyDrop .nativeRecv error
  else pure (.ok progress)

def proxyShutdownAx (progress : Bool) : ShimM ProxyStep := do
  let half ← loadProxy WiiloadProxyState.toAxHalf
  if half.rxOpen = false ∧ half.len = 0 ∧ half.wrShutdown = false then do
    let fd ← loadProxy WiiloadProxyState.axFd
    ignore (perform (.lwip (.shutdown fd shutWr)))
    storeProxy fun p ↦ { p with toAxHalf := { p.toAxHalf with wrShutdown := true } }
    pure (.ok true)
  else pure (.ok progress)

/-- The connection ends when both directions are finished. -/
def proxyFinish (progress : Bool) : ShimM ProxyStep := do
  let halves ← loadProxy fun p ↦ (p.toNativeHalf, p.toAxHalf)
  if halves.1.rxOpen = false ∧ halves.2.rxOpen = false ∧ halves.1.len = 0 ∧ halves.2.len = 0 then do
    wiiloadProxyResetConnection
    pure (.error .transferDone)
  else pure (.ok progress)

def proxyIteration : ShimM ProxyStep :=
  proxyThen (proxyFlushToNative false) fun progress ↦
    proxyThen (proxyPullFromAx progress) fun progress ↦
      proxyThen (proxyShutdownNative progress) fun progress ↦
        proxyThen (proxyFlushToAx progress) fun progress ↦
          proxyThen (proxyPullFromNative progress) fun progress ↦
            proxyThen (proxyShutdownAx progress) proxyFinish

/-- Several chunks per poll, until nothing moves. -/
def proxyPump : ℕ → ShimM (Option ProxyEnd)
  | 0 => pure none
  | left + 1 => do
    let step ← proxyIteration
    match step with
    | .error last => pure (some last)
    | .ok progress => if progress then proxyPump left else pure none

def wiiloadProxyPoll : ShimM (Option ProxyEnd) := do
  let fds ← loadProxy fun p ↦ (p.listenerFd, p.axFd)
  if fds.1 < 0 then pure none
  else if fds.2 < 0 then do
    let connected ← wiiloadProxyAccept
    if connected then proxyPump wiiloadProxyIterations else pure none
  else proxyPump wiiloadProxyIterations

end Ax88179Aroma.Shim
