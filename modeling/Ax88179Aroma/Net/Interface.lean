import Ax88179Aroma.Net.State

/-!
# The interface between the adapter and lwIP

The functions of `net/ax_net.c`.  `send_frame` runs in the stack, under the core lock; the other
functions run in the worker.  The bytes of a frame are copied into its slot and read out of it one
at a time, so nothing is assumed about how these accesses interleave.

`replies` says what each call of the outside can answer.  The queue is a bounded FIFO.  lwIP and the
adapter driver may return anything; of their state only the pending timeouts of `beat_cb` are kept.
-/

namespace Ax88179Aroma.Net

open Effect Program

/-! ## The transmit slots -/

namespace NetState

/-- The frame in the slot of a message. -/
def frameOf (s : NetState) (m : OSMessage) : List UInt8 :=
  (s.txPool m.message).slice 0 m.args0

def setHistory (s : NetState) (update : TxHistory → TxHistory) : NetState :=
  { s with history := update s.history }

/-- Write one byte of a slot. -/
def writePool (s : NetState) (slot index : ℕ) (byte : UInt8) : NetState :=
  { s with txPool := Function.update s.txPool slot (Function.update (s.txPool slot) index byte) }

def setInUse (s : NetState) (slot : ℕ) (value : ℤ) : NetState :=
  { s with txInUse := Function.update s.txInUse slot value }

/-- The message enters the queue and `send_frame` gives up its slot. -/
def post (s : NetState) (m : OSMessage) : NetState :=
  { s with
    txQueue := { s.txQueue with messages := s.txQueue.messages ++ [m] }
    history := {
      s.history with filling := none, posted := s.history.posted ++ [s.frameOf m] } }

/-- The worker takes the first message. -/
def take (s : NetState) (m : OSMessage) (rest : List OSMessage) : NetState :=
  { s with
    txQueue := { s.txQueue with messages := rest }
    history := { s.history with worker := .taken m } }

/-- The worker hands a frame to the driver. -/
def pass (s : NetState) (frame : List UInt8) : NetState :=
  s.setHistory fun history ↦
    { history with
      worker := match history.worker with
        | .taken m => .passed m
        | phase => phase
      settled := history.settled ++ [.sent frame] }

/-- The worker releases a slot; a frame that it did not hand over is discarded. -/
def retire (s : NetState) (slot : ℕ) : NetState :=
  (s.setInUse slot 0).setHistory fun history ↦
    { history with
      worker := .idle
      settled := match history.worker with
        | .taken m => history.settled ++ [.discarded history.operation (s.frameOf m)]
        | _ => history.settled }

end NetState

/-- The compare-exchange of one flag from 0 to 1. -/
def claim (slot : ℕ) (s : NetState) : Bool × NetState :=
  if s.txInUse slot = 0 then
    (true, (s.setInUse slot 1).setHistory fun history ↦ { history with filling := some slot })
  else (false, s)

/-- The loop over the flags: the first slot that could be claimed. -/
def claimSlot : List ℕ → NetM (Option ℕ)
  | [] => pure none
  | slot :: rest => do
    let claimed ← access (claim slot)
    if claimed then pure (some slot) else claimSlot rest

/-- `atomic_store(&tx_in_use[slot], 0)` in `send_frame` -/
def unclaim (slot : ℕ) : NetM Unit :=
  store fun s ↦ (s.setInUse slot 0).setHistory fun history ↦ { history with filling := none }

/-- The bytes that `pbuf_copy_partial` collects along a chain. -/
def copiedBytes : List (List UInt8) → ℕ → ℕ → List UInt8
  | [], _, _ => []
  | payload :: rest, len, offset =>
    if len = 0 then []
    else if offset ≠ 0 ∧ offset ≥ payload.length then
      copiedBytes rest len (offset - payload.length)
    else
      let count := min (payload.length - offset) len
      (payload.drop offset).take count ++ copiedBytes rest (len - count) 0

/-- Copy the first bytes of a list into a slot, one at a time. -/
def fillPool (slot : ℕ) (bytes : List UInt8) : ℕ → NetM Unit
  | 0 => pure ()
  | count + 1 => do
    fillPool slot bytes count
    store fun s ↦ s.writePool slot count (bytes.getD count 0)

/-- `pbuf_copy_partial(p, tx_pool[slot], len, 0)`, which returns the number of bytes copied. -/
def pbufCopyPartial (p : Pbuf) (slot len : ℕ) : NetM ℕ := do
  let bytes := copiedBytes p.chain len 0
  fillPool slot bytes bytes.length
  pure bytes.length

/-- The part of `send_frame` after a slot was claimed. -/
def sendClaimed (p : Pbuf) (slot : ℕ) : NetM ℤ := do
  let copied ← pbufCopyPartial p slot p.totLen
  if copied ≠ p.totLen then do
    unclaim slot
    pure errBuf
  else do
    let sent ← perform (.osSendMessage { message := slot, args0 := p.totLen })
    if sent.code = 0 then do
      unclaim slot
      store fun s ↦ { s with statTxDrop := s.statTxDrop + 1 }
      pure errMem
    else do
      store fun s ↦ { s with statTxQ := s.statTxQ + 1 }
      pure errOk

def sendFrame (p : Pbuf) : NetM ℤ :=
  if p.totLen > txSlotSize then pure errBuf
  else do
    let slot ← claimSlot (List.range txSlots)
    match slot with
    | none => do
      store fun s ↦ { s with statTxDrop := s.statTxDrop + 1 }
      pure errMem
    | some slot => sendClaimed p slot

/-- The bytes of a slot, read one at a time. -/
def readPool (slot : ℕ) : ℕ → NetM (List UInt8)
  | 0 => pure []
  | count + 1 => do
    let before ← readPool slot count
    let byte ← load fun s ↦ s.txPool slot count
    pure (before ++ [byte])

/-- `ax88179_send` on the frame of a message, with its counters. -/
def transmit (ax : ℕ) (m : OSMessage) : NetM Unit := do
  let frame ← readPool m.message m.args0
  let result ← perform (.ax88179Send ax frame)
  if result.code = 0 then store fun s ↦ { s with statTxOk := s.statTxOk + 1 }
  else store fun s ↦ { s with statTxErr := s.statTxErr + 1 }

def drainTx (ax : ℕ) (send : ℤ) : ℕ → NetM Unit
  | 0 => .diverge
  | fuel + 1 => do
    let received ← perform .osReceiveMessage
    match received.message with
    | none => pure ()
    | some m => do
      when (send ≠ 0) (transmit ax m)
      store fun s ↦ s.retire m.message
      drainTx ax send fuel

/-! ## Start and stop -/

/-- A call whose result the source ignores. -/
def invoke (request : NetCall) : NetM Unit := do
  let _ ← perform request
  pure ()

/-- Remove what a previous start left in lwIP's list. -/
def removeLeftover : NetM Unit := do
  let inList ← load fun s ↦ s.netifInList
  when (inList ≠ 0) do
    let dhcp ← perform .netifDhcpData
    when (dhcp.code ≠ 0) do
      invoke .dhcpStop
      invoke .dhcpCleanup
    invoke .netifRemove
    store fun s ↦ { s with netifInList := 0 }

/-- Restore the cached lease or start DHCP; `false` when DHCP could not be started. -/
def setupAddress (restoreLease : Bool) : NetM Bool :=
  if restoreLease then do
    let lease ← load fun s ↦ (s.sessionIp, s.sessionNetmask, s.sessionGateway)
    invoke (.netifSetAddr lease.1 lease.2.1 lease.2.2)
    pure true
  else do
    let started ← perform .dhcpStart
    if started.code ≠ errOk then do
      invoke .dhcpCleanup
      invoke .netifRemove
      store fun s ↦ { s with netifInList := 0 }
      pure false
    else pure true

/-- The part of `setup_netif` after `netif_add` succeeded. -/
def setupAdded (linkUp restoreLease : Bool) : NetM ℤ := do
  store fun s ↦ { s with netifInList := 1 }
  invoke .netifSetDefault
  invoke .netifSetUp
  when linkUp (invoke .netifSetLinkUp)
  let ready ← setupAddress restoreLease
  if ready then do
    invoke (.sysTimeout 500)
    pure errOk
  else pure errIf

/-- `setup_netif`, which returns the `err` of its context. -/
def setupNetif (ax : ℕ) (linkUp restoreLease : Bool) : NetM ℤ := do
  removeLeftover
  store fun s ↦ { s with ifaceState := 0 }
  let added ← perform (.netifAdd ax)
  if added.code = 0 then pure errIf else setupAdded linkUp restoreLease

/-- The branch of `ax_net_start` for a stack that was not brought up yet. -/
def initStack : NetM Unit := do
  each (fun slot ↦ store fun s ↦ s.setInUse slot 0) (List.range txSlots)
  store fun s ↦ { s with txQueue := { capacity := txSlots, messages := [] } }
  invoke .tcpipInit
  store fun s ↦ { s with initialized := 1 }

/-- `session_lease_mode && session_lease_valid` -/
def NetState.restoreLease (s : NetState) : Bool :=
  decide (s.sessionLeaseMode ≠ 0 ∧ s.sessionLeaseValid ≠ 0)

/-- The part of `ax_net_start` on a stack that is up. -/
def startInterface (ax : ℕ) : NetM ℤ := do
  let restoreLease ← load NetState.restoreLease
  store fun s ↦ { s with currentUsingCachedLease := if restoreLease then 1 else 0 }
  let link ← perform (.ax88179Link ax)
  let linkUp := decide (link.code = 1)
  invoke .lockTcpipCore
  let err ← setupNetif ax linkUp restoreLease
  invoke .unlockTcpipCore
  if err ≠ errOk then pure (-1)
  else do
    let now ← perform .sysNow
    store fun s ↦
      { s with
        active := 1
        lastLink := UInt32.ofInt now.code
        lastLinkUp := if linkUp then 1 else 0
        linkErrors := 0 }
    pure 0

def axNetStart (ax : ℕ) : NetM ℤ := do
  let active ← load fun s ↦ s.active
  if active ≠ 0 ∨ ax = 0 then pure (-1)
  else do
    let initialized ← load fun s ↦ s.initialized
    when (initialized = 0) initStack
    startInterface ax

/-- `dhcp_stop` when the lease is kept for the session, else `dhcp_release_and_stop` -/
def stopDhcp : NetM Unit := do
  let keep ← load NetState.restoreLease
  invoke (if keep then .dhcpStop else .dhcpReleaseAndStop)
  invoke .dhcpCleanup

def stopNetif : NetM Unit := do
  let dhcp ← perform .netifDhcpData
  when (dhcp.code ≠ 0) stopDhcp
  invoke .netifSetDown
  invoke .netifRemove
  store fun s ↦ { s with netifInList := 0 }

def axNetStop (fuel : ℕ) : NetM Unit := do
  let active ← load fun s ↦ s.active
  if active = 0 then pure ()
  else do
    invoke .lockTcpipCore
    stopNetif
    invoke .unlockTcpipCore
    let ax ← load fun s ↦ s.ifaceState
    drainTx ax 0 fuel
    store fun s ↦ { s with active := 0 }

/-! ## Polling -/

def setLink (up : ℤ) : NetM Unit := do
  invoke .lockTcpipCore
  invoke (if up ≠ 0 then .netifSetLinkUp else .netifSetLinkDown)
  invoke .unlockTcpipCore

/-- Whether `pbuf_take` or the input function of the interface refused the frame. -/
def inputRefused (p : ℤ) (frame : List UInt8) : NetM Bool := do
  let taken ← perform (.pbufTake p frame)
  if taken.code ≠ errOk then pure true
  else do
    let input ← perform (.ifaceInput p)
    pure (decide (input.code ≠ errOk))

/-- The frame that `ax88179_receive` returned goes to lwIP. -/
def inputRxFrame (frame : List UInt8) : NetM Unit := do
  store fun s ↦ { s with statRxOk := s.statRxOk + 1 }
  let p ← perform (.pbufAlloc frame.length)
  if p.code = 0 then store fun s ↦ { s with statInDrop := s.statInDrop + 1 }
  else do
    let refused ← inputRefused p.code frame
    if refused then do
      store fun s ↦ { s with statInDrop := s.statInDrop + 1 }
      invoke (.pbufFree p.code)
    else store fun s ↦ { s with statInOk := s.statInOk + 1 }

/-- One `ax88179_receive` into `rx_frame`: the return value and the bytes it stored. -/
def receiveFrame (timeoutUs : ℤ) : NetM (ℤ × List UInt8) := do
  let ax ← load fun s ↦ s.ifaceState
  let received ← perform (.ax88179Receive ax rxFrameSize timeoutUs)
  pure (received.code, received.bytes.slice 0 received.code.toNat)

/-- Harvest the frames that follow the first one. -/
def harvest : ℕ → NetM Unit
  | 0 => .diverge
  | fuel + 1 => do
    let more ← receiveFrame 0
    if more.1 > 0 then do
      inputRxFrame more.2
      harvest fuel
    else if more.1 < 0 then store fun s ↦ { s with statRxErr := s.statRxErr + 1 }
    else pure ()

/-- Bring the link down for lwIP after three failed reads. -/
def linkLost : NetM Bool := do
  let lastLinkUp ← load fun s ↦ s.lastLinkUp
  when (lastLinkUp ≠ 0) do
    setLink 0
    store fun s ↦ { s with lastLinkUp := 0 }
  pure true

/-- The link check of `ax_net_poll`; `true` when the adapter has most likely disappeared. -/
def pollLink (now : UInt32) : NetM Bool := do
  let ax ← load fun s ↦ s.ifaceState
  let up ← perform (.ax88179Link ax)
  store fun s ↦ { s with lastLink := now }
  let lastLinkUp ← load fun s ↦ s.lastLinkUp
  when (up.code ≥ 0 ∧ up.code ≠ lastLinkUp) do
    setLink up.code
    store fun s ↦ { s with lastLinkUp := up.code }
  let linkErrors ← access fun s ↦
    let linkErrors := if up.code < 0 then s.linkErrors + 1 else 0
    (linkErrors, { s with linkErrors := linkErrors })
  if linkErrors ≥ 3 then linkLost else pure false

/-- The link is checked every 500 ms. -/
def pollLinkIfDue (now : UInt32) : NetM Bool := do
  let lastLink ← load fun s ↦ s.lastLink
  if now - lastLink ≥ 500 then pollLink now else pure false

/-- What `ax_net_poll` does with the result of its first receive. -/
def inputReceived (received : ℤ × List UInt8) (fuel : ℕ) : NetM Unit :=
  if received.1 > 0 then do
    inputRxFrame received.2
    harvest fuel
  else if received.1 < 0 then store fun s ↦ { s with statRxErr := s.statRxErr + 1 }
  else store fun s ↦ { s with statRxIdle := s.statRxIdle + 1 }

/-- The part of `ax_net_poll` after the link check. -/
def pollFrames (fuel : ℕ) : NetM ℤ := do
  let ax ← load fun s ↦ s.ifaceState
  drainTx ax 1 fuel
  let received ← receiveFrame 5000
  inputReceived received fuel
  let ax ← load fun s ↦ s.ifaceState
  drainTx ax 1 fuel
  pure received.1

def axNetPoll (fuel : ℕ) : NetM ℤ := do
  let active ← load fun s ↦ s.active
  if active = 0 then pure (-1)
  else do
    let now ← perform .sysNow
    let lost ← pollLinkIfDue (UInt32.ofInt now.code)
    if lost then pure (-2) else pollFrames fuel

/-! ## Between titles and on the timer -/

def axNetForget : NetM Unit := do
  invoke .lwipPortResetAll
  store fun s ↦
    { s with
      netifInList := 0
      ifaceState := 0
      initialized := 0
      active := 0
      linkErrors := 0
      lastLinkUp := 0
      statRxOk := 0
      statRxErr := 0
      statRxIdle := 0
      statTxQ := 0
      statTxDrop := 0
      statTxOk := 0
      statTxErr := 0
      statInOk := 0
      statInDrop := 0
      statBeats := 0 }

def axNetSetSessionLeaseMode (enabled : ℤ) : NetM Unit := do
  store fun s ↦ { s with sessionLeaseMode := enabled }
  when (enabled = 0) (store fun s ↦ { s with sessionLeaseValid := 0 })

/-- Terminate the stack thread of the outgoing title without taking its state apart. -/
def axNetAbandonTitle : NetM ℤ := do
  let initialized ← load fun s ↦ s.initialized
  let shutdown ← if initialized ≠ 0 then perform .tcpipShutdown else pure {}
  store fun s ↦ { s with active := 0, initialized := 0, netifInList := 0 }
  pure shutdown.code

/-- Keep the first lease of the session. -/
def rememberLease (ip : UInt32) : NetM Unit := do
  let fresh ← load fun s ↦ decide (s.sessionLeaseMode ≠ 0 ∧ s.sessionLeaseValid = 0)
  if fresh then do
    let supplied ← perform .dhcpSuppliedAddress
    if supplied.code ≠ 0 then do
      let netmask ← perform .netifIp4Netmask
      let gateway ← perform .netifIp4Gw
      store fun s ↦
        { s with
          sessionIp := ip
          sessionNetmask := UInt32.ofInt netmask.code
          sessionGateway := UInt32.ofInt gateway.code
          sessionLeaseValid := 1 }
    else pure ()
  else pure ()

/-- The address whose text the source returns, `none` for `NULL`. -/
def axNetAddress : NetM (Option UInt32) := do
  let active ← load fun s ↦ s.active
  if active = 0 then pure none
  else do
    let up ← perform .netifIsLinkUp
    if up.code = 0 then pure none
    else do
      let answer ← perform .netifIp4Addr
      let ip := UInt32.ofInt answer.code
      if ip = 0 then pure none
      else do
        rememberLease ip
        pure (some ip)

/-- What `ax_net_status` reads from the adapter; the text itself is left out. -/
def axNetStatus : NetM Unit := do
  let active ← load fun s ↦ s.active
  when (active ≠ 0) do
    invoke .netifDhcpData
    invoke .netifIsLinkUp
    let ax ← load fun s ↦ s.ifaceState
    invoke (.ax88179LastBulk ax)
    invoke (.ax88179LastBulkUs ax)

/-- A stub in the source. -/
def axDisplayCheckExit : NetM ℤ := pure 0

def beatCb : NetM Unit := do
  store fun s ↦ { s with statBeats := s.statBeats + 1 }
  invoke (.sysTimeout 500)

/-! ## The outside -/

/-- The pending timeouts of `beat_cb`. -/
structure NetWorld where
  beats : ℕ := 0
  deriving DecidableEq, Repr

abbrev NetMachine := Machine NetState NetWorld

def replies : Replies NetState NetWorld NetCall NetReply
  | .osSendMessage m, answer, x =>
    if x.mem.txQueue.messages.length < x.mem.txQueue.capacity then
      if answer.code ≠ 0 then some { x with mem := x.mem.post m } else none
    else if answer.code = 0 then some x
    else none
  | .osReceiveMessage, answer, x =>
    match x.mem.txQueue.messages with
    | [] => if answer.message = none then some x else none
    | m :: rest =>
      if answer.message = some m then some { x with mem := x.mem.take m rest } else none
  | .ax88179Send _ frame, _, x => some { x with mem := x.mem.pass frame }
  | .netifAdd ax, _, x => some { x with mem := { x.mem with ifaceState := ax } }
  | .sysTimeout _, _, x => some { x with world := { beats := x.world.beats + 1 } }
  | .lwipPortResetAll, _, x => some { x with world := { beats := 0 } }
  | _, _, x => some x

/-- The static data as the module is loaded, before any call. -/
def freshModule : NetMachine where
  mem := {}
  world := {}

/-! ## Calls apart from the transmit path and the timeouts -/

/-- Neither the queue nor the driver's send nor the timeouts are involved. -/
def NetCall.quiet : NetCall → Bool
  | .osSendMessage _ => false
  | .osReceiveMessage => false
  | .ax88179Send .. => false
  | .sysTimeout _ => false
  | .lwipPortResetAll => false
  | _ => true

/-- What the supervision of the link and of the interface leaves alone. -/
def NetState.core (s : NetState) : TxState × ℤ × ℤ × Bool :=
  (s.toTxState, s.initialized, s.active, s.restoreLease)

/-- A program that only supervises. -/
abbrev Supervises (program : NetM α) : Prop :=
  Keeps NetState.core (fun request ↦ request.quiet = true) program

theorem replies_quiet {request : NetCall} {answer : NetReply} {x y : NetMachine}
    (hquiet : request.quiet = true) (hreply : replies request answer x = some y) :
    y.world = x.world ∧ y.mem.core = x.mem.core := by
  cases request <;> cases hquiet <;> cases hreply <;> exact ⟨rfl, rfl⟩

theorem supervises_invoke {request : NetCall} (hquiet : request.quiet = true) :
    Supervises (invoke request) :=
  Keeps.bind (keeps_perform hquiet) fun _ ↦ keeps_pure ()

theorem supervises_removeLeftover : Supervises removeLeftover := by
  refine Keeps.bind (keeps_load _) fun inList ↦ Keeps.when ?_
  refine Keeps.bind (keeps_perform rfl) fun dhcp ↦ ?_
  refine Keeps.bind (Keeps.when ?_) fun _ ↦ ?_
  · exact Keeps.bind (supervises_invoke rfl) fun _ ↦ supervises_invoke rfl
  · exact Keeps.bind (supervises_invoke rfl) fun _ ↦ keeps_store fun _ ↦ rfl

theorem supervises_setupAddress (restoreLease : Bool) : Supervises (setupAddress restoreLease) := by
  refine Keeps.ite ?_ ?_
  · refine Keeps.bind (keeps_load _) fun lease ↦ ?_
    exact Keeps.bind (supervises_invoke rfl) fun _ ↦ keeps_pure true
  · refine Keeps.bind (keeps_perform rfl) fun started ↦ Keeps.ite ?_ (keeps_pure true)
    refine Keeps.bind (supervises_invoke rfl) fun _ ↦ Keeps.bind (supervises_invoke rfl) fun _ ↦ ?_
    exact Keeps.bind (keeps_store fun _ ↦ rfl) fun _ ↦ keeps_pure false

theorem supervises_stopNetif : Supervises stopNetif := by
  have hdhcp : Supervises stopDhcp := by
    refine Keeps.bind (keeps_load _) fun keep ↦ Keeps.bind (supervises_invoke ?_) fun _ ↦
      supervises_invoke rfl
    cases keep <;> rfl
  refine Keeps.bind (keeps_perform rfl) fun dhcp ↦ Keeps.bind (Keeps.when hdhcp) fun _ ↦ ?_
  refine Keeps.bind (supervises_invoke rfl) fun _ ↦ Keeps.bind (supervises_invoke rfl) fun _ ↦ ?_
  exact keeps_store fun _ ↦ rfl

theorem supervises_setLink (up : ℤ) : Supervises (setLink up) := by
  refine Keeps.bind (supervises_invoke rfl) fun _ ↦ Keeps.bind (supervises_invoke ?_) fun _ ↦
    supervises_invoke rfl
  split <;> rfl

theorem supervises_inputRxFrame (frame : List UInt8) : Supervises (inputRxFrame frame) := by
  have hrefused : ∀ p, Supervises (inputRefused p frame) := fun p ↦
    Keeps.bind (keeps_perform rfl) fun taken ↦ Keeps.ite (keeps_pure true)
      (Keeps.bind (keeps_perform rfl) fun input ↦ keeps_pure _)
  refine Keeps.bind (keeps_store fun _ ↦ rfl) fun _ ↦ Keeps.bind (keeps_perform rfl) fun p ↦ ?_
  refine Keeps.ite (keeps_store fun _ ↦ rfl) (Keeps.bind (hrefused p.code) fun refused ↦ ?_)
  refine Keeps.ite ?_ (keeps_store fun _ ↦ rfl)
  exact Keeps.bind (keeps_store fun _ ↦ rfl) fun _ ↦ supervises_invoke rfl

theorem supervises_receiveFrame (timeoutUs : ℤ) : Supervises (receiveFrame timeoutUs) :=
  Keeps.bind (keeps_load _) fun _ ↦ Keeps.bind (keeps_perform rfl) fun _ ↦ keeps_pure _

theorem supervises_harvest (fuel : ℕ) : Supervises (harvest fuel) := by
  induction fuel with
  | zero => trivial
  | succ fuel ih =>
    refine Keeps.bind (supervises_receiveFrame 0) fun more ↦ Keeps.ite ?_ ?_
    · exact Keeps.bind (supervises_inputRxFrame more.2) fun _ ↦ ih
    · exact Keeps.ite (keeps_store fun _ ↦ rfl) (keeps_pure ())

theorem supervises_inputReceived (received : ℤ × List UInt8) (fuel : ℕ) :
    Supervises (inputReceived received fuel) := by
  refine Keeps.ite ?_ (Keeps.ite (keeps_store fun _ ↦ rfl) (keeps_store fun _ ↦ rfl))
  exact Keeps.bind (supervises_inputRxFrame received.2) fun _ ↦ supervises_harvest fuel

theorem supervises_pollLinkIfDue (now : UInt32) : Supervises (pollLinkIfDue now) := by
  have hfollow : ∀ up : ℤ, Supervises (do
      setLink up
      store fun s ↦ { s with lastLinkUp := up }) := fun up ↦
    Keeps.bind (supervises_setLink up) fun _ ↦ keeps_store fun _ ↦ rfl
  have hlost : Supervises linkLost :=
    Keeps.bind (keeps_load _) fun _ ↦ Keeps.bind (Keeps.when (hfollow 0)) fun _ ↦ keeps_pure true
  have hpoll : Supervises (pollLink now) := by
    refine Keeps.bind (keeps_load _) fun ax ↦ Keeps.bind (keeps_perform rfl) fun up ↦ ?_
    refine Keeps.bind (keeps_store fun _ ↦ rfl) fun _ ↦ Keeps.bind (keeps_load _) fun lastLinkUp ↦ ?_
    refine Keeps.bind (Keeps.when (hfollow up.code)) fun _ ↦ ?_
    exact Keeps.bind (keeps_access fun _ ↦ rfl) fun _ ↦ Keeps.ite hlost (keeps_pure false)
  exact Keeps.bind (keeps_load _) fun _ ↦ Keeps.ite hpoll (keeps_pure false)

end Ax88179Aroma.Net
