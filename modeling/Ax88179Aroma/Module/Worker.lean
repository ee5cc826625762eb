import Ax88179Aroma.Net.Interface

/-!
# The worker of the module

`run_network` and `recover_adapter` of `aroma_module/main.c` over the functions of `net/ax_net.c`.
The worker exclusively owns the adapter handle: it opens it, gives it to the interface, and closes
or abandons it again.

`stopping` and `title_ending` are set by other threads, so reading one of them is a call that may
answer anything; so is reading the clock, which counts milliseconds here.  Logged texts and progress
marks are left out, the UDP logger is opened and closed as in the source.
-/

namespace Ax88179Aroma.Module

open Effect Program Net

/-- The functions of the socket shim that the worker calls. -/
inductive ShimCall where
  | setTraceLevel (level : ℤ)
  | setSystemDns (enabled : ℤ)
  | setForceNative (enabled : ℤ)
  | setNsslBridge (enabled : ℤ)
  | install
  | requestFtpHandoff
  | wiiloadProxyStart
  | wiiloadProxyPoll
  | wiiloadProxyStop
  | takeAxActivity
  | stopAccepting
  | drainOwnedSockets
  deriving DecidableEq, Repr

inductive ModuleCall where
  | net (call : NetCall)
  | shim (call : ShimCall)
  /-- replies with the handle, 0 for `NULL` -/
  | ax88179Open
  | ax88179Close (ax : ℕ)
  | ax88179AbandonTitle (ax : ℕ)
  | ax88179ForceColdNextOpen
  | iosuPatchApply
  | whbLogUdpInit
  | whbLogUdpDeinit
  | osGetTime
  | osSleepMs (ms : ℕ)
  | loadStopping
  | loadTitleEnding
  deriving DecidableEq, Repr

abbrev ModuleM := Program NetState ModuleCall NetReply

/-- The seven settings, and whether the build left the shim out. -/
structure ModuleConfig where
  keepFirst : ℤ := 1
  shimTrace : ℤ := 0
  systemDns : ℤ := 0
  forceNative : ℤ := 0
  nsslBridge : ℤ := 0
  ftpHandoff : ℤ := 1
  wiiloadProxy : ℤ := 0
  disableShim : Bool := false
  deriving DecidableEq, Repr

/-- A function of the interface, called by the worker. -/
def net (program : NetM α) : ModuleM α := embed .net program

/-- A call whose result the source ignores. -/
def invoke (request : ModuleCall) : ModuleM Unit := do
  let _ ← perform request
  pure ()

def loadStopping : ModuleM Bool := do
  let answer ← perform .loadStopping
  pure (decide (answer.code ≠ 0))

def osGetTime : ModuleM ℤ := do
  let answer ← perform .osGetTime
  pure answer.code

/-! ## Recovery -/

/-- Poll until the interface has an address, the adapter disappears again, the worker is stopped or
the deadline has passed. -/
def awaitHealth (deadline : ℤ) : ℕ → ModuleM Bool
  | 0 => .diverge
  | fuel + 1 => do
    let stopping ← loadStopping
    if stopping then pure false
    else do
      let now ← osGetTime
      if ¬ now < deadline then pure false
      else do
        let n ← net (axNetPoll fuel)
        if n = -2 then pure false
        else do
          let ip ← net axNetAddress
          if ip.isSome then do
            invoke .whbLogUdpInit
            pure true
          else do
            invoke (.osSleepMs 20)
            awaitHealth deadline fuel

/-- Stop the interface and close its handle. -/
def stopAndClose (ax fuel : ℕ) : ModuleM Unit := do
  net (axNetStop fuel)
  invoke (.ax88179Close ax)

/-- The candidates one after the other: the return value and the handle left in `*current`. -/
def tryCandidates : ℕ → ModuleM (ℤ × ℕ)
  | 0 => .diverge
  | fuel + 1 => do
    let stopping ← loadStopping
    if stopping then pure (-1, 0)
    else do
      invoke (.osSleepMs 1000)
      let opened ← perform .ax88179Open
      let candidate := opened.code.toNat
      if candidate = 0 then tryCandidates fuel
      else do
        let started ← net (axNetStart candidate)
        if started ≠ 0 then do
          invoke (.ax88179Close candidate)
          invoke .ax88179ForceColdNextOpen
          tryCandidates fuel
        else do
          let now ← osGetTime
          let healthy ← awaitHealth (now + 35000) fuel
          if healthy then pure (0, candidate)
          else do
            stopAndClose candidate fuel
            invoke .ax88179ForceColdNextOpen
            tryCandidates fuel

def recoverAdapter (current fuel : ℕ) : ModuleM (ℤ × ℕ) := do
  invoke .whbLogUdpDeinit
  when (current ≠ 0) (stopAndClose current fuel)
  invoke .ax88179ForceColdNextOpen
  tryCandidates fuel

/-! ## Bring-up -/

/-- The start guard; `true` when the worker was stopped meanwhile. -/
def startGuard : ℕ → ModuleM Bool
  | 0 => pure false
  | rounds + 1 => do
    let stopping ← loadStopping
    if stopping then pure true
    else do
      invoke (.osSleepMs 100)
      startGuard rounds

/-- Hand the configuration over and forget what the previous title left behind. -/
def applyConfig (config : ModuleConfig) : ModuleM Unit := do
  invoke (.shim (.setTraceLevel config.shimTrace))
  invoke (.shim (.setSystemDns config.systemDns))
  invoke (.shim (.setForceNative config.forceNative))
  invoke (.shim (.setNsslBridge config.nsslBridge))
  net (axNetSetSessionLeaseMode config.keepFirst)
  net axNetForget
  invoke .iosuPatchApply

/-- Poll until the interface has an address or the deadline has passed. -/
def awaitLease (deadline : ℤ) : ℕ → ModuleM Bool
  | 0 => .diverge
  | fuel + 1 => do
    let now ← osGetTime
    if ¬ now < deadline then pure false
    else do
      let n ← net (axNetPoll fuel)
      if n < 0 then do
        let now ← osGetTime
        if now ≥ deadline then pure false
        else do
          invoke (.osSleepMs 100)
          awaitLease deadline fuel
      else do
        let ip ← net axNetAddress
        let now ← osGetTime
        if now ≥ deadline then pure ip.isSome
        else do
          invoke (.osSleepMs 100)
          if ip.isSome then pure true else awaitLease deadline fuel

/-- The local variables of the main loop. -/
structure WorkerLocals where
  ax : ℕ
  previousIp : Option UInt32 := none
  lastBeat : UInt32 := 0
  ftpHandoffPending : Bool := false
  ftpHandoffNext : ℤ := 0
  ftpHandoffDeadline : ℤ := 0
  deriving DecidableEq, Repr

/-- Ask for the FTP handoff, and again later when there is no listener yet. -/
def startHandoff (config : ModuleConfig) (locals : WorkerLocals) : ModuleM WorkerLocals :=
  if config.ftpHandoff ≠ 0 then do
    let handoff ← perform (.shim .requestFtpHandoff)
    if handoff.code > 0 then pure locals
    else do
      let now ← osGetTime
      pure { locals with
        ftpHandoffPending := true
        ftpHandoffNext := now + 250
        ftpHandoffDeadline := now + 15000 }
  else pure locals

/-- Install the hooks, ask for the FTP handoff and start the proxy. -/
def installShim (config : ModuleConfig) (locals : WorkerLocals) : ModuleM WorkerLocals :=
  if config.disableShim then pure locals
  else do
    let installed ← perform (.shim .install)
    if installed.code ≠ 0 then pure locals
    else do
      let locals ← startHandoff config locals
      when (config.wiiloadProxy ≠ 0) (invoke (.shim .wiiloadProxyStart))
      pure locals

/-! ## The main loop -/

/-- The adapter has disappeared: rebuild it.  A nonzero number means that the worker is to stop. -/
def recoverInLoop (config : ModuleConfig) (locals : WorkerLocals) (fuel : ℕ) :
    ModuleM (ℤ × WorkerLocals) := do
  when (config.wiiloadProxy ≠ 0) (invoke (.shim .wiiloadProxyStop))
  let (recovered, ax) ← recoverAdapter locals.ax fuel
  let locals := { locals with ax := ax, previousIp := none }
  if recovered ≠ 0 then pure (-1, locals)
  else do
    when (config.wiiloadProxy ≠ 0) (invoke (.shim .wiiloadProxyStart))
    if config.disableShim = false ∧ config.ftpHandoff ≠ 0 then do
      let now ← osGetTime
      pure (0, { locals with
        ftpHandoffPending := true
        ftpHandoffNext := now
        ftpHandoffDeadline := now + 15000 })
    else pure (0, locals)

/-- Retry the FTP handoff when its time has come. -/
def retryHandoff (config : ModuleConfig) (locals : WorkerLocals) : ModuleM WorkerLocals :=
  if config.disableShim = false ∧ config.ftpHandoff ≠ 0 ∧ locals.ftpHandoffPending then do
    let now ← osGetTime
    if now ≥ locals.ftpHandoffNext then do
      let answer ← perform (.shim .requestFtpHandoff)
      if answer.code > 0 then pure { locals with ftpHandoffPending := false }
      else if now ≥ locals.ftpHandoffDeadline then
        pure { locals with ftpHandoffPending := false }
      else pure { locals with ftpHandoffNext := now + 250 }
    else pure locals
  else pure locals

/-- Follow changes of the address. -/
def followAddress (ip : Option UInt32) (locals : WorkerLocals) : ModuleM WorkerLocals :=
  if ip.isSome ∧ ip ≠ locals.previousIp then do
    invoke .whbLogUdpDeinit
    invoke .whbLogUdpInit
    pure { locals with previousIp := ip }
  else pure { locals with previousIp := if ip.isNone then none else locals.previousIp }

/-- The status line while there is no address, at most every three seconds. -/
def heartbeat (ip : Option UInt32) (locals : WorkerLocals) : ModuleM WorkerLocals :=
  if ip.isNone then do
    let time ← osGetTime
    let now := UInt32.ofInt time
    if now - locals.lastBeat ≥ 3000 then do
      net axNetStatus
      pure { locals with lastBeat := now }
    else pure locals
  else pure locals

/-- One pass of the main loop after a poll that returned `n`; `true` when the exit was requested. -/
def serve (config : ModuleConfig) (n : ℤ) (locals : WorkerLocals) :
    ModuleM (Bool × WorkerLocals) := do
  when (config.wiiloadProxy ≠ 0) (invoke (.shim .wiiloadProxyPoll))
  let locals ← retryHandoff config locals
  let ip ← net axNetAddress
  invoke (.shim .takeAxActivity)
  let locals ← followAddress ip locals
  let locals ← heartbeat ip locals
  when (n < 0) (invoke (.osSleepMs 1))
  let exit ← net axDisplayCheckExit
  pure (decide (exit ≠ 0), locals)

/-- The main loop, which ends with the handle in `ax`. -/
def mainLoop (config : ModuleConfig) (locals : WorkerLocals) : ℕ → ModuleM ℕ
  | 0 => .diverge
  | fuel + 1 => do
    let stopping ← loadStopping
    if stopping then pure locals.ax
    else do
      let n ← net (axNetPoll fuel)
      if n = -2 then do
        let (recovered, locals) ← recoverInLoop config locals fuel
        if recovered ≠ 0 then pure locals.ax else mainLoop config locals fuel
      else do
        let (exit, locals) ← serve config n locals
        if exit then pure locals.ax else mainLoop config locals fuel

/-- Retire the interface and the handle, by closing them or, when the title ends, by leaving them to
the system. -/
def retire (config : ModuleConfig) (ax fuel : ℕ) : ModuleM Unit := do
  let ending ← perform .loadTitleEnding
  let endingTitle := ending.code ≠ 0
  when (config.disableShim = false) do
    invoke (.shim .stopAccepting)
    when (¬ endingTitle) (invoke (.shim .drainOwnedSockets))
  if endingTitle then do
    let _ ← net axNetAbandonTitle
    when (ax ≠ 0) (invoke (.ax88179AbandonTitle ax))
  else do
    net (axNetStop fuel)
    when (ax ≠ 0) (invoke (.ax88179Close ax))

/-- The worker with an open adapter. -/
def runAdapter (config : ModuleConfig) (ax fuel : ℕ) : ModuleM Unit := do
  let started ← net (axNetStart ax)
  if started ≠ 0 then invoke (.ax88179Close ax)
  else do
    let now ← osGetTime
    let leased ← awaitLease (now + 30000) fuel
    if !leased then stopAndClose ax fuel
    else do
      let locals ← installShim config { ax := ax }
      let ax ← mainLoop config locals fuel
      retire config ax fuel

def runNetwork (config : ModuleConfig) (fuel : ℕ) : ModuleM ℤ := do
  invoke .whbLogUdpInit
  let stopped ← startGuard 20
  when (stopped = false) do
    applyConfig config
    let opened ← perform .ax88179Open
    when (opened.code.toNat ≠ 0) (runAdapter config opened.code.toNat fuel)
  invoke .whbLogUdpDeinit
  pure 0

end Ax88179Aroma.Module
