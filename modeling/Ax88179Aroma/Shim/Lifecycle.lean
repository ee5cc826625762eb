import Ax88179Aroma.Shim.Dns
import Ax88179Aroma.Shim.Nssl
import Ax88179Aroma.Shim.SockOpt

/-!
# Lifecycle of the shim

What the module's worker and its probes do to the shim: registration of the hooks, the switch
`accepting_sockets`, and the teardown of a title.  `hook` collects the patched exports.
-/

namespace Ax88179Aroma.Shim

open Effect Program

/-! ## Wiiload proxy -/

def storeProxy (update : WiiloadProxyState → WiiloadProxyState) : ShimM Unit :=
  store fun s ↦ { s with wiiloadProxy := update s.wiiloadProxy }

def loadProxy (view : WiiloadProxyState → α) : ShimM α := load fun s ↦ view s.wiiloadProxy

def wiiloadProxyResetConnection : ShimM Unit := do
  let nativeFd ← loadProxy WiiloadProxyState.nativeFd
  when (nativeFd ≥ 0) do
    ignore (native (.shutdown nativeFd shutRdwr))
    ignore (native (.socketclose nativeFd))
    storeProxy fun p ↦ { p with nativeFd := -1 }
  let axFd ← loadProxy WiiloadProxyState.axFd
  when (axFd ≥ 0) do
    ignore (perform (.lwip (.shutdown axFd shutRdwr)))
    ignore (perform (.lwip (.close axFd)))
    storeProxy fun p ↦ { p with axFd := -1 }
  storeProxy fun p ↦ { p with
    toNativeHalf := { rxOpen := false }, toAxHalf := { rxOpen := false },
    axToNative := 0, nativeToAx := 0 }

def wiiloadProxyStop : ShimM Unit := do
  wiiloadProxyResetConnection
  let listenerFd ← loadProxy WiiloadProxyState.listenerFd
  when (listenerFd ≥ 0) do
    ignore (perform (.lwip (.close listenerFd)))
    storeProxy fun p ↦ { p with listenerFd := -1 }

/-! ## Teardown -/

def nsysnetShimQuiesce : ShimM Unit := do
  store fun s ↦ { s with acceptingSockets := 0 }
  store fun s ↦ { s with probeOwnsAccepting := 0 }

/-- Retire the lwIP descriptor behind one public descriptor. -/
def drainFd (fd : ℕ) : ShimM Unit := do
  let lwfd ← access fun s ↦
    (s.mappedFd fd, { s with mappedFd := Function.update s.mappedFd fd (-1) })
  when (lwfd ≥ 0) do
    ignore (perform (.lwip (.shutdown lwfd shutRdwr)))
    ignore (perform (.lwip (.close lwfd)))
  compatStateReset fd

def nsysnetShimDrainOwnedSockets : ShimM Unit := do
  let mask ← access fun s ↦ (s.openMask, { s with openMask := 0 })
  each (fun fd ↦ when (mask.getLsbD fd = true) (drainFd fd)) publicFds

def nsysnetShimStopAccepting (fuel : ℕ) : ShimM Unit := do
  wiiloadProxyStop
  nsysnetShimQuiesce
  nsslShutdownAllTracked
  nsslRelayStopAll fuel

def forgetMappings : ShimM Unit :=
  each (fun fd ↦ store fun s ↦ { s with mappedFd := Function.update s.mappedFd fd (-1) }) publicFds

def forgetOwned : ShimM Unit :=
  each (fun i ↦ store fun s ↦ { s with aiOwned := Function.update s.aiOwned i 0 })
    (List.range aiOwnedMax)

def compatStateResetAll : ShimM Unit := each compatStateReset publicFds

def nsysnetShimBeginTitle (fuel : ℕ) : ShimM Unit := do
  nsysnetShimStopAccepting fuel
  store fun s ↦ { s with openMask := 0 }
  forgetMappings
  store fun s ↦ { s with probeThread := 0 }
  store fun s ↦ { s with probeBaselineOpenMask := 0 }
  store fun s ↦ { s with probeBaselineAiMask := 0 }
  store fun s ↦ { s with openMask := 0 }
  store fun s ↦ { s with axActivityPending := 0 }
  store fun s ↦ { s with ftpNativeBindIp := 0 }
  store fun s ↦ { s with ftpAxRedirectActive := 0 }
  store fun s ↦ { s with ftpRestartMask := 0 }
  store fun s ↦ { s with nsslPublicMask := 0 }
  forgetConnections
  compatStateResetAll
  asyncDnsResetAll fuel
  forgetOwned

/-! ## Registration -/

/-- The 25 standard hooks, and the 11 DNS hooks unless the system resolves names. -/
def patchCount (systemDns : ℤ) : ℕ := if systemDns = 0 then 36 else 25

/-- Register the hooks; `false` when one was refused. -/
def addPatches : List ℕ → ShimM Bool
  | [] => pure true
  | index :: rest => do
    let status ← os (.functionPatcherAddFunctionPatch index)
    if status.code ≠ 0 then pure false
    else do
      store fun s ↦ { s with handleCount := if s.handleCount < 128 then s.handleCount + 1 else s.handleCount }
      addPatches rest

/-- The label `fail` of `nsysnet_shim_install`. -/
def removePatches : ℕ → ShimM Unit
  | 0 => pure ()
  | left + 1 => do
    store fun s ↦ { s with handleCount := left }
    ignore (os .functionPatcherRemoveFunctionPatch)
    removePatches left

def nsysnetShimRegister : ShimM ℤ := do
  store fun s ↦ { s with acceptingSockets := 0 }
  store fun s ↦ { s with openMask := 0 }
  forgetOwned
  let status ← os .functionPatcherInitLibrary
  if status.code ≠ 0 then pure (-1)
  else do
    let systemDns ← load ShimState.systemDns
    let added ← addPatches (List.range (patchCount systemDns))
    if added = false then do
      let count ← load ShimState.handleCount
      removePatches count
      ignore (os .functionPatcherDeInitLibrary)
      pure (-1)
    else do
      store fun s ↦ { s with installed := 1 }
      store fun s ↦ { s with acceptingSockets := 1 }
      pure 0

def nsysnetShimInstall : ShimM ℤ := do
  let installed ← load ShimState.installed
  if installed ≠ 0 then do
    store fun s ↦ { s with acceptingSockets := 1 }
    pure 0
  else nsysnetShimRegister

/-! ## Probes -/

/-- The entries of `ai_owned` in use. -/
def probeAiMask : List ℕ → ShimM (BitVec 32)
  | [] => pure 0
  | i :: rest => do
    let head ← load fun s ↦ s.aiOwned i
    let mask ← probeAiMask rest
    pure (if head = 0 then mask else mask ||| bit i)

/-- `ax_net_stack_ready() && ax_net_address()` -/
def probeReady : ShimM Bool := do
  let ready ← os .axNetStackReady
  if ready.code = 0 then pure false
  else do
    let address ← os .axNetAddress
    pure (decide (address.code ≠ 0))

/-- The rest of `nsysnet_shim_begin_probe` once the hooks are installed. -/
def beginProbeRecord (wasAccepting : ℤ) : ShimM ℤ := do
  store fun s ↦ { s with probeBaselineOpenMask := s.openMask }
  let owned ← probeAiMask (List.range aiOwnedMax)
  store fun s ↦ { s with probeBaselineAiMask := owned }
  let thread ← os .osGetCurrentThread
  store fun s ↦ { s with probeThread := thread.code }
  store fun s ↦ { s with acceptingSockets := 1 }
  store fun s ↦ { s with probeOwnsAccepting := if wasAccepting = 0 then 1 else 0 }
  pure 0

def nsysnetShimBeginProbe : ShimM ℤ := do
  let thread ← load ShimState.probeThread
  if thread ≠ 0 then pure (-3)
  else do
    let ready ← probeReady
    if ready = false then pure (-4)
    else do
      let wasAccepting ← load ShimState.acceptingSockets
      let result ← nsysnetShimInstall
      if result < 0 then pure (-1) else beginProbeRecord wasAccepting

/-- The rest of `nsysnet_shim_end_probe` when nothing leaked. -/
def endProbeRelease (fuel : ℕ) : ShimM ℤ := do
  let owns ← load ShimState.probeOwnsAccepting
  when (owns ≠ 0) (nsysnetShimStopAccepting fuel)
  store fun s ↦ { s with probeOwnsAccepting := 0 }
  store fun s ↦ { s with probeThread := 0 }
  store fun s ↦ { s with probeBaselineOpenMask := 0 }
  store fun s ↦ { s with probeBaselineAiMask := 0 }
  pure 0

def nsysnetShimEndProbe (fuel : ℕ) : ShimM ℤ := do
  let thread ← load ShimState.probeThread
  let current ← os .osGetCurrentThread
  if thread ≠ current.code then pure (-3)
  else do
    let baselineOpen ← load ShimState.probeBaselineOpenMask
    let currentOpen ← load ShimState.openMask
    if currentOpen &&& ~~~ baselineOpen ≠ 0 then pure (-5)
    else do
      let baselineAi ← load ShimState.probeBaselineAiMask
      let currentAi ← probeAiMask (List.range aiOwnedMax)
      if currentAi &&& ~~~ baselineAi ≠ 0 then pure (-5)
      else endProbeRelease fuel

/-! ## FTP handoff -/

/-- Whether a native descriptor is a stream listener on the FTP port: its accepted connections have
the same port, but also a peer. -/
def ftpListener (fd : ℕ) : ShimM Bool := do
  setErrno (-1)
  let bound ← native (.getsockname fd true (some 16))
  if bound.code ≠ 0 ∨
      bound.addr.any (fun a ↦ a.family = nsnAfInet ∧ a.port = axFtpPort) = false then pure false
  else do
    setErrno (-1)
    let type ← native (.getsockopt fd nsnSolSocket nsnSoType true (some 4))
    if type.code ≠ 0 ∨ type.value.map OptValue.first ≠ some sockStream then pure false
    else do
      setErrno (-1)
      let peer ← native (.getpeername fd true (some 16))
      pure (decide (peer.code ≠ 0))

/-- The loop over the public descriptors, with the number of new marks. -/
def markFtpListeners : List ℕ → ShimM ℤ
  | [] => pure 0
  | fd :: rest => do
    let foreign ← isForeign fd
    let marked ← load ShimState.ftpRestartMask
    if foreign = false ∨ marked.getLsbD fd = true then markFtpListeners rest
    else do
      let listener ← ftpListener fd
      if listener = false then markFtpListeners rest
      else do
        store fun s ↦ { s with ftpRestartMask := s.ftpRestartMask ||| bit fd }
        let others ← markFtpListeners rest
        pure (others + 1)

def nsysnetShimRequestFtpHandoff : ShimM ℤ := do
  let accepting ← shimAccepts
  if accepting = false then pure 0
  else do
    let ready ← os .axNetStackReady
    if ready.code = 0 then pure 0
    else do
      let ax ← os .axNetIp4
      if ax.ip = 0 then pure 0 else markFtpListeners publicFds

/-! ## The patched exports -/

/-- What a title's call of a patched export runs. -/
def hook (fuel : ℕ) : Export → ShimM ShimReply
  | .socket domain type protocol => hookSocket domain type protocol
  | .socketclose sockfd => hookSocketclose sockfd
  | .socketcloseAll => hookSocketcloseAll
  | .bind sockfd addr addrlen => hookBind sockfd addr addrlen
  | .connect sockfd addr addrlen => hookConnect sockfd addr addrlen
  | .listen sockfd backlog => hookListen sockfd backlog
  | .accept sockfd addr addrlen => hookAccept sockfd addr addrlen
  | .shutdown sockfd how => hookShutdown sockfd how
  | .send sockfd buf flags => hookSend sockfd buf flags
  | .sendto sockfd buf flags dest addrlen => hookSendto sockfd buf flags dest addrlen
  | .sendtoMulti sockfd buf flags destv => hookSendtoMulti sockfd buf flags destv
  | .sendtoMultiEx sockfd flags b count => hookSendtoMultiEx sockfd flags b count
  | .recv sockfd len flags => hookRecv sockfd len flags
  | .recvfrom sockfd len flags srcAddr addrlen => hookRecvfrom sockfd len flags srcAddr addrlen
  | .recvfromEx sockfd len flags srcAddr addrlen extra extraLen =>
    hookRecvfromEx sockfd len flags srcAddr addrlen extra extraLen
  | .recvfromMulti sockfd flags b datagramLen count timeout =>
    hookRecvfromMulti sockfd flags b datagramLen count timeout
  | .select nfds readfds writefds exceptfds timeout =>
    hookSelect nfds readfds writefds exceptfds timeout fuel
  | .getsockname sockfd addr addrlen => hookGetsockname sockfd addr addrlen
  | .getpeername sockfd addr addrlen => hookGetpeername sockfd addr addrlen
  | .setsockopt sockfd level optname optval optlen =>
    hookSetsockopt sockfd level optname optval optlen
  | .getsockopt sockfd level optname optval optlen =>
    hookGetsockopt sockfd level optname optval optlen
  | .socketlasterr => hookSocketlasterr
  | .nsslCreateConnection context host hostLength options sockfd block =>
    hookNsslCreateConnection context host hostLength options sockfd block
  | .nsslDestroyConnection connection => hookNsslDestroyConnection connection
  | .nsslFinish => hookNsslFinish fuel
  | .gethostbyname name => hookGethostbyname name
  | .gethostbyaddr addr len type => hookGethostbyaddr addr len type
  | .getaddrinfo node service hints res => hookGetaddrinfo node service hints res
  | .getaddrinfoRs node service hints res => hookGetaddrinfoRs node service hints res
  | .getaddrinfoAsync node service hints res => hookGetaddrinfoAsync node service hints res fuel
  | .getaddrinfoAsyncRs node service hints res =>
    hookGetaddrinfoAsyncRs node service hints res fuel
  | .dnsAbortByHname hostname => hookDnsAbortByHname hostname
  | .freeaddrinfo res => hookFreeaddrinfo res fuel
  | .getnameinfo addr addrlen host hostlen serv servlen flags =>
    hookGetnameinfo addr addrlen host hostlen serv servlen flags
  | .getHErrno => hookGetHErrno
  | .gaiStrerror ecode => hookGaiStrerror ecode

end Ax88179Aroma.Shim
