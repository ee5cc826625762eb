import Ax88179Aroma.Shim.State

/-!
# NSSL relays

A relay slot owns a worker thread that copies bytes between a private native descriptor, the local
end of Nintendo's TLS connection, and an lwIP descriptor.  Every call of the worker is
nonblocking, and it stops when `stop` is set, on an error, when the local peer is gone, or when both
sources have ended and everything was delivered.
-/

namespace Ax88179Aroma.Shim

open Effect Program

def nsnErrWouldblock : ℤ := 6
def nsnErrConnreset : ℤ := 8
def nsnErrNotconn : ℤ := 9
def nsnErrPipe : ℤ := 13

def native (request : Export) : ShimM ShimReply := perform (.native request)

def os (request : OsCall) : ShimM ShimReply := perform (.os request)

def note (event : ShimNote) : ShimM Unit := do
  let _ ← perform (.note event)
  pure ()

/-- A call whose result the source ignores. -/
def ignore (program : ShimM ShimReply) : ShimM Unit := do
  let _ ← program
  pure ()

def realSocketlasterr : ShimM ℤ := do
  let reply ← native .socketlasterr
  pure reply.code

def loadRelay (slot : ℕ) (view : NsslRelay → α) : ShimM α := load fun s ↦ view (s.nsslRelays slot)

def storeRelay (slot : ℕ) (update : NsslRelay → NsslRelay) : ShimM Unit :=
  store fun s ↦ s.setRelay slot update

/-! ## The slots -/

/-- The compare-exchange of `public_fd` in `nssl_relay_detach_public_fd`. -/
def detachSlot (fd : ℤ) (slot : ℕ) (s : ShimState) : Bool × ShimState :=
  if (s.nsslRelays slot).publicFd = fd then
    (true, s.setRelay slot fun r ↦ { r with publicFd := -1 })
  else (false, s)

def nsslRelayDetachFrom (fd : ℤ) : List ℕ → ShimM Unit
  | [] => pure ()
  | slot :: rest => do
    let allocated ← loadRelay slot NsslRelay.allocated
    if allocated = 0 then nsslRelayDetachFrom fd rest
    else do
      let detached ← access (detachSlot fd slot)
      if detached then storeRelay slot fun r ↦ { r with stop := 1 }
      else nsslRelayDetachFrom fd rest

def nsslRelayDetachPublicFd (fd : ℤ) : ShimM Unit :=
  nsslRelayDetachFrom fd (List.range nsslRelayMax)

def nsslNativePeerClosed (error : ℤ) : Bool :=
  error = nsnErrConnreset ∨ error = nsnErrNotconn ∨ error = nsnErrPipe

/-- Whether `nssl_relay_reap` may free a slot. -/
def reapable (slot : ℕ) : ShimM Bool := do
  let allocated ← loadRelay slot NsslRelay.allocated
  if allocated = 0 then pure false
  else do
    let done ← loadRelay slot NsslRelay.done
    if done = 0 then pure false
    else do
      let terminated ← os (.osIsThreadTerminated slot)
      pure (decide (terminated.code ≠ 0))

def reapSlot (slot : ℕ) : ShimM Unit := do
  let free ← reapable slot
  when free do
    ignore (os (.osJoinThread slot))
    storeRelay slot fun r ↦ { r with publicFd := -1 }
    storeRelay slot fun r ↦ { r with allocated := 0 }

def nsslRelayReap : ShimM Unit := each reapSlot (List.range nsslRelayMax)

/-- The compare-exchange of `allocated` in `nssl_relay_reserve`. -/
def claimRelay (slot : ℕ) (s : ShimState) : Bool × ShimState :=
  if (s.nsslRelays slot).allocated = 0 then
    (true, s.setRelay slot fun r ↦ { r with allocated := 1 })
  else (false, s)

/-- The stores that make a claimed slot a fresh one. -/
def resetRelay (slot : ℕ) : ShimM Unit := do
  storeRelay slot fun r ↦ { r with ready := 0 }
  storeRelay slot fun r ↦ { r with stop := 0 }
  storeRelay slot fun r ↦ { r with done := 0 }
  storeRelay slot fun r ↦ { r with publicFd := -1 }
  storeRelay slot fun r ↦
    { r with nativeFd := -1, lwfd := -1, error := 0, nativeToAx := 0, axToNative := 0 }

/-- The loop over the slots; `-1` when none is free or no thread could be created. -/
def nsslRelayReserveFrom : List ℕ → ShimM ℤ
  | [] => pure (-1)
  | slot :: rest => do
    let claimed ← access (claimRelay slot)
    if !claimed then nsslRelayReserveFrom rest
    else do
      resetRelay slot
      let created ← os (.osCreateThread slot)
      if created.code = 0 then do
        storeRelay slot fun r ↦ { r with allocated := 0 }
        pure (-1)
      else do
        ignore (os (.osResumeThread slot))
        pure slot

def nsslRelayReserve : ShimM ℤ := do
  nsslRelayReap
  nsslRelayReserveFrom (List.range nsslRelayMax)

def nsslRelayStopSlot (slot : ℤ) : ShimM Unit :=
  when (0 ≤ slot ∧ slot < nsslRelayMax) do
    let allocated ← loadRelay slot.toNat NsslRelay.allocated
    when (allocated ≠ 0) (storeRelay slot.toNat fun r ↦ { r with stop := 1 })

/-- The first loop of `nssl_relay_stop_all`: whether any slot was allocated. -/
def stopAllocated : List ℕ → ShimM Bool
  | [] => pure false
  | slot :: rest => do
    let allocated ← loadRelay slot NsslRelay.allocated
    when (allocated ≠ 0) (storeRelay slot fun r ↦ { r with stop := 1 })
    let any ← stopAllocated rest
    pure (decide (allocated ≠ 0) || any)

/-- Whether an allocated slot has a thread that runs. -/
def anyAlive : List ℕ → ShimM Bool
  | [] => pure false
  | slot :: rest => do
    let allocated ← loadRelay slot NsslRelay.allocated
    if allocated = 0 then anyAlive rest
    else do
      let terminated ← os (.osIsThreadTerminated slot)
      let any ← anyAlive rest
      pure (decide (terminated.code = 0) || any)

/-- Wait until no relay thread runs or the deadline has passed. -/
def waitRelays (deadline : ℤ) : ℕ → ShimM Unit
  | 0 => .diverge
  | fuel + 1 => do
    let now ← os .osGetTime
    if now.code < deadline then do
      let alive ← anyAlive (List.range nsslRelayMax)
      if alive then do
        ignore (os (.osSleepTicks 1))
        waitRelays deadline fuel
      else pure ()
    else pure ()

/-- Ticks of one millisecond of the OS clock, 248625 kHz / 4. -/
def osMillisecondsToTicks (ms : ℕ) : ℤ := ms * 62156250 / 1000

def nsslRelayStopAll (fuel : ℕ) : ShimM Unit := do
  let any ← stopAllocated (List.range nsslRelayMax)
  when any do
    let now ← os .osGetTime
    waitRelays (now.code + osMillisecondsToTicks 500) fuel
    nsslRelayReap

/-! ## The worker -/

/-- The sink accepted `n` of the waiting bytes. -/
def HalfPipe.advance (half : HalfPipe) (n : ℕ) : HalfPipe :=
  { half with off := if half.len - n = 0 then 0 else half.off + n, len := half.len - n }

/-- `n` bytes were received into the buffer. -/
def HalfPipe.fill (half : HalfPipe) (n : ℕ) : HalfPipe := { half with off := 0, len := n }

/-- The local variables and `progress`, or the reason to leave the loop. -/
abbrev RelayStep := Except RelayExit (RelayLocals × Bool)

/-- Go on unless the loop was left. -/
def andThen (first : ShimM RelayStep) (next : RelayLocals → Bool → ShimM RelayStep) :
    ShimM RelayStep := do
  let step ← first
  match step with
  | .error exit => pure (.error exit)
  | .ok (locals, progress) => next locals progress

def relayError (slot : ℕ) (error : ℤ) : ShimM RelayStep := do
  storeRelay slot fun r ↦ { r with error := error }
  pure (.error .error)

/-- Flush bytes from NSSL toward lwIP. -/
def flushToAx (slot : ℕ) (lwfd : ℤ) (locals : RelayLocals) (progress : Bool) :
    ShimM RelayStep :=
  if locals.toAx.len = 0 then pure (.ok (locals, progress))
  else do
    let buf ← loadRelay slot fun r ↦ r.toAx.slice locals.toAx.off locals.toAx.len
    let sent ← perform (.lwip (.send lwfd buf msgDontwait))
    if sent.code > 0 then do
      storeRelay slot fun r ↦ { r with nativeToAx := r.nativeToAx + UInt64.ofNat sent.code.toNat }
      pure (.ok ({ locals with toAx := locals.toAx.advance sent.code.toNat }, true))
    else if sent.code < 0 ∧ sent.errno ≠ ewouldblock ∧ sent.errno ≠ eagain then
      relayError slot (1000 + sent.errno)
    else pure (.ok (locals, progress))

/-- Pull bytes from the local NSSL socket. -/
def pullFromNative (slot : ℕ) (nativeFd : ℤ) (locals : RelayLocals) (progress : Bool) :
    ShimM RelayStep :=
  if locals.toAx.len = 0 ∧ locals.toAx.rxOpen = true then do
    let received ← native (.recv nativeFd nsslRelayBuf nsnMsgDontwait)
    if received.code > 0 then do
      storeRelay slot fun r ↦
        { r with toAx := r.toAx.copy (Memory.ofList received.bytes) received.code.toNat }
      pure (.ok ({ locals with toAx := locals.toAx.fill received.code.toNat }, true))
    else if received.code = 0 then
      pure (.ok ({ locals with toAx := { locals.toAx with rxOpen := false } }, true))
    else do
      let error ← realSocketlasterr
      if error = nsnErrWouldblock then pure (.ok (locals, progress))
      else do
        let error ← realSocketlasterr
        relayError slot (2000 + error)
  else pure (.ok (locals, progress))

/-- Propagate the end of NSSL's stream to lwIP. -/
def shutdownAx (lwfd : ℤ) (locals : RelayLocals) (progress : Bool) : ShimM RelayStep :=
  if locals.toAx.rxOpen = false ∧ locals.toAx.len = 0 ∧ locals.toAx.wrShutdown = false then do
    ignore (perform (.lwip (.shutdown lwfd shutWr)))
    pure (.ok ({ locals with toAx := { locals.toAx with wrShutdown := true } }, true))
  else pure (.ok (locals, progress))

/-- Flush bytes from the server toward NSSL. -/
def flushToNative (slot : ℕ) (nativeFd : ℤ) (locals : RelayLocals) (progress : Bool) :
    ShimM RelayStep :=
  if locals.toNative.len = 0 then pure (.ok (locals, progress))
  else do
    let buf ← loadRelay slot fun r ↦ r.toNative.slice locals.toNative.off locals.toNative.len
    let sent ← native (.send nativeFd buf nsnMsgDontwait)
    if sent.code > 0 then do
      storeRelay slot fun r ↦ { r with axToNative := r.axToNative + UInt64.ofNat sent.code.toNat }
      pure (.ok ({ locals with toNative := locals.toNative.advance sent.code.toNat }, true))
    else if sent.code < 0 then do
      let error ← realSocketlasterr
      if error = nsnErrWouldblock then pure (.ok (locals, progress))
      else if nsslNativePeerClosed error then pure (.error .peerClosed)
      else relayError slot (3000 + error)
    else pure (.ok (locals, progress))

/-- Pull bytes from the lwIP socket. -/
def pullFromAx (slot : ℕ) (lwfd : ℤ) (locals : RelayLocals) (progress : Bool) :
    ShimM RelayStep :=
  if locals.toNative.len = 0 ∧ locals.toNative.rxOpen = true then do
    let received ← perform (.lwip (.recv lwfd nsslRelayBuf msgDontwait))
    if received.code > 0 then do
      storeRelay slot fun r ↦
        { r with toNative := r.toNative.copy (Memory.ofList received.bytes) received.code.toNat }
      pure (.ok ({ locals with toNative := locals.toNative.fill received.code.toNat }, true))
    else if received.code = 0 then
      pure (.ok ({ locals with toNative := { locals.toNative with rxOpen := false } }, true))
    else if received.errno ≠ ewouldblock ∧ received.errno ≠ eagain then
      relayError slot (4000 + received.errno)
    else pure (.ok (locals, progress))
  else pure (.ok (locals, progress))

/-- Make NSSL observe the end of the server's stream. -/
def shutdownNative (nativeFd : ℤ) (locals : RelayLocals) (progress : Bool) : ShimM RelayStep :=
  if locals.toNative.rxOpen = false ∧ locals.toNative.len = 0 ∧
      locals.toNative.wrShutdown = false then do
    ignore (native (.shutdown nativeFd shutWr))
    pure (.ok ({ locals with toNative := { locals.toNative with wrShutdown := true } }, true))
  else pure (.ok (locals, progress))

/-- The end of an iteration: leave when both directions are finished, sleep without progress. -/
def relayRest (locals : RelayLocals) (progress : Bool) : ShimM RelayStep :=
  if locals.toAx.rxOpen = false ∧ locals.toNative.rxOpen = false ∧ locals.toAx.len = 0 ∧
      locals.toNative.len = 0 then pure (.error .drained)
  else do
    when (progress = false) (ignore (os (.osSleepTicks 1)))
    pure (.ok (locals, progress))

/-- One iteration of the loop. -/
def relayIteration (slot : ℕ) (nativeFd lwfd : ℤ) (locals : RelayLocals) : ShimM RelayStep :=
  andThen (flushToAx slot lwfd locals false) fun locals progress ↦
    andThen (pullFromNative slot nativeFd locals progress) fun locals progress ↦
      andThen (shutdownAx lwfd locals progress) fun locals progress ↦
        andThen (flushToNative slot nativeFd locals progress) fun locals progress ↦
          andThen (pullFromAx slot lwfd locals progress) fun locals progress ↦
            andThen (shutdownNative nativeFd locals progress) relayRest

def relayLoop (slot : ℕ) (nativeFd lwfd : ℤ) : ℕ → RelayLocals → ShimM RelayExit
  | 0, _ => .diverge
  | fuel + 1, locals => do
    note (.relayHead slot locals)
    let stop ← loadRelay slot NsslRelay.stop
    if stop ≠ 0 then pure .stop
    else do
      let step ← relayIteration slot nativeFd lwfd locals
      match step with
      | .error exit => pure exit
      | .ok (locals, _) => relayLoop slot nativeFd lwfd fuel locals

/-- The test of `stop` after the wait. -/
def relayGoes (slot : ℕ) : ShimM Bool := do
  let stop ← loadRelay slot NsslRelay.stop
  pure (decide (stop = 0))

/-- Wait until the bridge has published the descriptors; `false` when stopped before that. -/
def relayWait (slot : ℕ) : ℕ → ShimM Bool
  | 0 => .diverge
  | fuel + 1 => do
    let stop ← loadRelay slot NsslRelay.stop
    if stop ≠ 0 then relayGoes slot
    else do
      let ready ← loadRelay slot NsslRelay.ready
      if ready ≠ 0 then relayGoes slot
      else do
        ignore (os (.osSleepTicks 1))
        relayWait slot fuel

/-- The label `out` of the worker: close what the slot owns and mark it as done. -/
def relayOut (slot : ℕ) : ShimM Unit := do
  let nativeFd ← loadRelay slot NsslRelay.nativeFd
  when (nativeFd ≥ 0) do
    ignore (native (.socketclose nativeFd))
    storeRelay slot fun r ↦ { r with nativeFd := -1 }
  let lwfd ← loadRelay slot NsslRelay.lwfd
  when (lwfd ≥ 0) do
    ignore (perform (.lwip (.close lwfd)))
    storeRelay slot fun r ↦ { r with lwfd := -1 }
  storeRelay slot fun r ↦ { r with publicFd := -1 }
  storeRelay slot fun r ↦ { r with done := 1 }

def nsslRelayWorker (slot fuel : ℕ) : ShimM Unit := do
  let ready ← relayWait slot fuel
  when ready do
    let fds ← loadRelay slot fun r ↦ (r.nativeFd, r.lwfd)
    let exit ← relayLoop slot fds.1 fds.2 fuel {}
    note (.relayEnd slot exit)
  relayOut slot

end Ax88179Aroma.Shim
