import Ax88179Aroma.Shim.Relay

/-!
# Socket hooks

The hooks of `aroma_module/nsysnet_shim.c` for sockets, except the socket options.  A public
descriptor is a native placeholder; where `open_mask` has its bit, the hooks serve it on the lwIP
descriptor in `mapped_fd`, unless `accepting_sockets` is off.  Every other descriptor is foreign and
goes to nsysnet.
-/

namespace Ax88179Aroma.Shim

open Effect Program

/-! ## Routing -/

def bit (fd : ℕ) : BitVec 32 := 1#32 <<< fd

def setErrno (error : ℤ) : ShimM Unit := store fun s ↦ { s with errno := error }

/-- A call into lwIP, which leaves its error in `errno`. -/
def lwip (request : LwipCall) : ShimM ShimReply := do
  let reply ← perform (.lwip request)
  setErrno reply.errno
  pure reply

theorem total_lwip (request : LwipCall) : Total (lwip request) :=
  (total_perform _).bind fun _ ↦ (total_store _).bind fun _ ↦ total_pure _

/-- A call of the original export; `-1` says that its error is in nsysnet. -/
def callNative (request : Export) : ShimM ShimReply := do
  setErrno (-1)
  native request

/-- Return `-1` with an error of the shim. -/
def fail (error : ℤ) : ShimM ShimReply := do
  setErrno error
  pure { code := -1 }

def shimAccepts : ShimM Bool := do
  let accepting ← load ShimState.acceptingSockets
  pure (decide (accepting ≠ 0))

def stackFd (fd : ℤ) : ShimM ℤ := load fun s ↦ s.mappedFd fd.toNat

def tcpMss : ℤ := 1460

/-- The option state of a fresh socket. -/
def freshCompat : CompatSockState := { tcpMaxseg := tcpMss, sndbuf := 8192, rcvbuf := 8192 }

def compatStateReset (fd : ℕ) : ShimM Unit := store fun s ↦ s.setCompat fd fun _ ↦ freshCompat

def trackFd (fd : ℕ) (lwfd : ℤ) : ShimM Unit := do
  compatStateReset fd
  store fun s ↦ { s with mappedFd := Function.update s.mappedFd fd lwfd }
  store fun s ↦ { s with openMask := s.openMask ||| bit fd }
  note (.tracked fd)

def untrackFd (fd : ℕ) : ShimM Unit :=
  store fun s ↦ { s with openMask := s.openMask &&& ~~~ bit fd }

/-- Whether `fd` belongs to nsysnet: always once `accepting_sockets` is off. -/
def isForeign (fd : ℤ) : ShimM Bool := do
  let accepting ← shimAccepts
  if accepting = false then pure true
  else do
    let mask ← load ShimState.openMask
    pure (decide ¬ (0 ≤ fd ∧ fd < 32 ∧ mask.getLsbD fd.toNat = true))

/-- The shape of most hooks on a descriptor. -/
def routed (fd : ℤ) (request : Export) (served : ShimM ShimReply) : ShimM ShimReply := do
  let foreign ← isForeign fd
  if foreign then callNative request
  else do
    setErrno 0
    served

/-! ## Errors and addresses -/

/-- The values of newlib's `errno` in the order of nsysnet's errors; `-999` has none. -/
def nsnErrors : List ℤ :=
  [0, 105, 116, 127, 95, 113, 11, 111, 104, 128, 120, 22, 122, 32, 121, -999, 109, 16, 12, 125, 112,
    106, 119, 5, 108]

def errnoToNsn (e : ℤ) : ℤ :=
  match nsnErrors.idxOf? e with
  | some i => i
  | none =>
    if e = efault then 29
    else if e = 114 then 30
    else if e = 123 then 31
    else if e = 107 then 32
    else if e = 19 then 42
    else if e = ebadf then 49
    else if e = 140 then 50
    else if e = emfile then 51
    else 23

def flagTo (flags source target : BitVec 32) : BitVec 32 :=
  if flags &&& source = 0 then 0 else target

def msgFlagsToLwip (f : BitVec 32) : BitVec 32 :=
  flagTo f nsnMsgPeek msgPeek ||| flagTo f nsnMsgDontwait msgDontwait ||| flagTo f nsnMsgOob msgOob

/-- `none` when the family is not supported. -/
def sockaddrToLwip (addr : Option Sockaddr) (len : ℕ) : Option Sockaddr :=
  match addr with
  | none => none
  | some a => if len < 8 ∨ a.family ≠ nsnAfInet then none else some a

/-- What is written to the caller's address: nothing when there is no room for it. -/
def sockaddrToNsn (cap : ℕ) (addr : Sockaddr) : Option Sockaddr :=
  if cap < 16 then none
  else if addr.family ≠ nsnAfInet then some { family := 0, port := 0, addr := 0 }
  else some addr

/-- The peer that lwIP reported, where the caller asked for it. -/
def senderTo (wanted : Bool) (addrlen : Option ℕ) (r : ShimReply) : Option Sockaddr :=
  if r.code ≥ 0 ∧ wanted = true then r.addr.bind (sockaddrToNsn (addrlen.getD 0)) else none

def nativePort (port : UInt16) : Bool := port = axNativePortWiiload

def lwipSolSocket : ℤ := 0xfff
def lwipSoBroadcast : ℤ := 0x0020
def lwipSoSndbuf : ℤ := 0x1001
def lwipSoRcvbuf : ℤ := 0x1002
def lwipSoType : ℤ := 0x1008

/-- `lwip_setsockopt` of one integer. -/
def lwipSetInt (lwfd optname value : ℤ) : ShimM ShimReply :=
  lwip (.setsockopt lwfd lwipSolSocket optname (some { first := value }) 4)

/-! ## Creation -/

/-- Whether `socket` goes to lwIP. -/
def socketRoute (domain : ℤ) : ShimM Bool := do
  let force ← load ShimState.forceNative
  if force ≠ 0 then pure false
  else do
    let accepting ← shimAccepts
    if accepting = false then pure false
    else do
      let ready ← os .axNetStackReady
      pure (decide (ready.code ≠ 0 ∧ domain = nsnAfInet))

/-- `lwip_socket`, and once more without the flag bits of the type. -/
def lwipSocket (domain type protocol : ℤ) : ShimM ℤ := do
  let first ← lwip (.socket domain type protocol)
  if first.code < 0 ∧ type / 16 ≠ 0 then do
    let second ← lwip (.socket domain (type % 16) protocol)
    pure second.code
  else pure first.code

/-- The defaults of a fresh native socket. -/
def socketDefaults (lwfd type : ℤ) : ShimM Unit := do
  ignore (lwipSetInt lwfd lwipSoRcvbuf 8192)
  when (type = sockStream) (ignore (lwipSetInt lwfd lwipSoSndbuf 8192))
  when (type = sockDgram) (ignore (lwipSetInt lwfd lwipSoBroadcast 1))

/-- Reserve a native placeholder for an lwIP socket; without one the socket is given up. -/
def placeholder (lwfd type protocol : ℤ) : ShimM (Option ℕ) := do
  let fd ← native (.socket nsnAfInet type protocol)
  if fd.code < 0 ∨ fd.code ≥ 32 then do
    when (fd.code ≥ 0) (ignore (native (.socketclose fd.code)))
    ignore (lwip (.close lwfd))
    setErrno emfile
    pure none
  else do
    trackFd fd.code.toNat lwfd
    pure (some fd.code.toNat)

/-- The compare-exchange of `ax_activity_pending` from 0 to 1. -/
def noteActivity : ShimM Unit :=
  store fun s ↦ if s.axActivityPending = 0 then { s with axActivityPending := 1 } else s

def hookSocket (domain type protocol : ℤ) : ShimM ShimReply := do
  let route ← socketRoute domain
  if route = false then callNative (.socket domain type protocol)
  else do
    setErrno 0
    let s ← lwipSocket domain type protocol
    if s < 0 then pure { code := s }
    else do
      socketDefaults s (type % 16)
      let fd ← placeholder s (type % 16) protocol
      match fd with
      | none => pure { code := -1 }
      | some fd => do
        noteActivity
        pure { code := fd }

def hookAccept (sockfd : ℤ) (addr : Bool) (addrlen : Option ℕ) : ShimM ShimReply :=
  routed sockfd (.accept sockfd addr addrlen) do
    if addr = true ∧ addrlen = none then fail efault
    else do
      let lwfd ← stackFd sockfd
      let s ← lwip (.accept lwfd)
      if s.code < 0 then pure { code := s.code }
      else do
        ignore (lwipSetInt s.code lwipSoSndbuf 8192)
        ignore (lwipSetInt s.code lwipSoRcvbuf 8192)
        let fd ← placeholder s.code sockStream 0
        match fd with
        | none => pure { code := -1 }
        | some fd => pure { code := fd, addr := senderTo addr addrlen s }

/-! ## Closing -/

/-- What the shim forgets about a native descriptor that is closed. -/
def forgetNative (fd : ℕ) : ShimM Unit := do
  store fun s ↦ { s with ftpRestartMask := s.ftpRestartMask &&& ~~~ bit fd }
  store fun s ↦ { s with nsslPublicMask := s.nsslPublicMask &&& ~~~ bit fd }
  store fun s ↦ { s with nsslConnectionByFd := Function.update s.nsslConnectionByFd fd (-1) }

def hookSocketclose (sockfd : ℤ) : ShimM ShimReply := do
  let foreign ← isForeign sockfd
  if foreign then do
    when (0 ≤ sockfd ∧ sockfd < 32) (forgetNative sockfd.toNat)
    nsslRelayDetachPublicFd sockfd
    callNative (.socketclose sockfd)
  else do
    setErrno 0
    let lwfd ← stackFd sockfd
    let r ← lwip (.close lwfd)
    when (r.code = 0) do
      untrackFd sockfd.toNat
      ignore (native (.socketclose sockfd))
    pure { code := r.code }

/-- All public descriptors, in the order of the loops over them. -/
def publicFds : List ℕ := List.range 32

def forgetConnections : ShimM Unit :=
  each (fun fd ↦ store fun s ↦
    { s with nsslConnectionByFd := Function.update s.nsslConnectionByFd fd (-1) }) publicFds

/-- `lwip_close` of the descriptors in a mask. -/
def closeMapped (mask : BitVec 32) : ShimM Unit :=
  each (fun fd ↦ when (mask.getLsbD fd = true) do
    let lwfd ← stackFd fd
    ignore (lwip (.close lwfd))) publicFds

def hookSocketcloseAll : ShimM ShimReply := do
  store fun s ↦ { s with ftpRestartMask := 0 }
  store fun s ↦ { s with nsslPublicMask := 0 }
  forgetConnections
  let accepting ← shimAccepts
  if accepting = false then callNative .socketcloseAll
  else do
    let mask ← access fun s ↦ (s.openMask, { s with openMask := 0 })
    closeMapped mask
    callNative .socketcloseAll

/-! ## Connections -/

/-- The address that `ftp_rewrite_bind_to_ax` leaves for `lwip_bind`. -/
def ftpRewriteBindToAx (sockfd : ℤ) (addr : Sockaddr) : ShimM Sockaddr := do
  let lwfd ← stackFd sockfd
  let type ← lwip (.getsockopt lwfd lwipSolSocket lwipSoType)
  if type.code ≠ 0 ∨ type.value.map OptValue.first ≠ some sockStream then pure addr
  else do
    let ax ← os .axNetIp4
    if ax.ip = 0 then pure addr
    else if addr.port = axFtpPort then do
      store fun s ↦ { s with ftpNativeBindIp := addr.addr }
      store fun s ↦ { s with ftpAxRedirectActive := 1 }
      pure { addr with addr := ax.ip }
    else if addr.port = 0 then do
      let active ← load ShimState.ftpAxRedirectActive
      if active = 0 then pure addr
      else do
        let nativeIp ← load ShimState.ftpNativeBindIp
        pure (if addr.addr = nativeIp then { addr with addr := ax.ip } else addr)
    else pure addr

def hookBind (sockfd : ℤ) (addr : Option Sockaddr) (addrlen : ℕ) : ShimM ShimReply :=
  routed sockfd (.bind sockfd addr addrlen) do
    match sockaddrToLwip addr addrlen with
    | none => fail eafnosupport
    | some l =>
      if nativePort l.port then do
        let lwfd ← stackFd sockfd
        ignore (lwip (.close lwfd))
        untrackFd sockfd.toNat
        callNative (.bind sockfd addr addrlen)
      else do
        let l ← ftpRewriteBindToAx sockfd l
        let lwfd ← stackFd sockfd
        let r ← lwip (.bind lwfd l)
        pure { code := r.code }

def hookConnect (sockfd : ℤ) (addr : Option Sockaddr) (addrlen : ℕ) : ShimM ShimReply :=
  routed sockfd (.connect sockfd addr addrlen) do
    match sockaddrToLwip addr addrlen with
    | none => fail eafnosupport
    | some l => do
      let lwfd ← stackFd sockfd
      let r ← lwip (.connect lwfd l)
      pure { code := r.code }

def hookListen (sockfd backlog : ℤ) : ShimM ShimReply :=
  routed sockfd (.listen sockfd backlog) do
    let lwfd ← stackFd sockfd
    let r ← lwip (.listen lwfd backlog)
    pure { code := r.code }

def hookShutdown (sockfd how : ℤ) : ShimM ShimReply :=
  routed sockfd (.shutdown sockfd how) do
    let lwfd ← stackFd sockfd
    let r ← lwip (.shutdown lwfd how)
    pure { code := r.code }

/-! ## Sending -/

def hookSend (sockfd : ℤ) (buf : List UInt8) (flags : BitVec 32) : ShimM ShimReply :=
  routed sockfd (.send sockfd buf flags) do
    let lwfd ← stackFd sockfd
    let r ← lwip (.send lwfd buf (msgFlagsToLwip flags))
    pure { code := r.code }

def hookSendto (sockfd : ℤ) (buf : List UInt8) (flags : BitVec 32) (dest : Option Sockaddr)
    (addrlen : ℕ) : ShimM ShimReply :=
  routed sockfd (.sendto sockfd buf flags dest addrlen) do
    match dest with
    | none => do
      let lwfd ← stackFd sockfd
      let r ← lwip (.sendto lwfd buf (msgFlagsToLwip flags) none)
      pure { code := r.code }
    | some dest =>
      match sockaddrToLwip (some dest) addrlen with
      | none => fail eafnosupport
      | some l => do
        let lwfd ← stackFd sockfd
        let r ← lwip (.sendto lwfd buf (msgFlagsToLwip flags) (some l))
        pure { code := r.code }

/-- The loop of `sendto_multi` over the destinations. -/
def sendtoEach (sockfd : ℤ) (buf : List UInt8) (flags : BitVec 32) : List Sockaddr → ShimM ShimReply
  | [] => pure { code := buf.length }
  | dest :: rest =>
    match sockaddrToLwip (some dest) 16 with
    | none => fail eafnosupport
    | some l => do
      let lwfd ← stackFd sockfd
      let r ← lwip (.sendto lwfd buf (msgFlagsToLwip flags) (some l))
      if r.code < 0 then pure { code := -1 }
      else if r.code ≠ buf.length then fail eio
      else sendtoEach sockfd buf flags rest

def hookSendtoMulti (sockfd : ℤ) (buf : List UInt8) (flags : BitVec 32) (destv : List Sockaddr) :
    ShimM ShimReply :=
  routed sockfd (.sendtoMulti sockfd buf flags destv) (sendtoEach sockfd buf flags destv)

def nsnIpcPtrOk (p : UInt32) : Bool := p ≠ 0 ∧ p &&& 0x3f = 0

def nsnIpcPad (size : UInt32) : UInt32 := (size + 0x3f) &&& ~~~ 0x3f

/-- The loop of `sendto_multi_ex` that adds up the lengths; `none` for an invalid one. -/
def sumLens (b : SendtoMultiExBuffers) : ℕ → ℕ → ℕ → ShimM (Option ℕ)
  | 0, _, total => pure (some total)
  | left + 1, i, total => do
    note (.touch .datagramLens (4 * i) 4)
    if b.lens i < 0 then pure none
    else if total + (b.lens i).toNat > 0xffffffff then pure none
    else sumLens b left (i + 1) (total + (b.lens i).toNat)

/-- Whether the declared extents hold `count` entries and `total` bytes. -/
def sendtoExtents (b : SendtoMultiExBuffers) (count total : ℕ) : Bool :=
  nsnIpcPad (.ofNat total) ≤ b.bufferlen ∧
    nsnIpcPad (.ofNat count * 4) ≤ b.datagramLensLen ∧
    nsnIpcPad (.ofNat count * 16) ≤ b.destslen ∧
    nsnIpcPad (.ofNat count * 4) ≤ b.resultslen

/-- The loop that clears the results. -/
def clearResults (count : ℕ) : ShimM Unit :=
  each (fun i ↦ note (.touch .results (4 * i) 4)) (List.range count)

/-- The sending loop of `sendto_multi_ex`: `off` bytes of the buffer are behind it. -/
def sendSlices (sockfd : ℤ) (flags : BitVec 32) (b : SendtoMultiExBuffers) :
    ℕ → ℕ → ℕ → ℤ → List ℤ → ShimM ShimReply
  | 0, _, _, total, results => pure { code := total, results := results }
  | left + 1, i, off, total, results => do
    note (.touch .datagramLens (4 * i) 4)
    note (.touch .dests (16 * i) 16)
    match sockaddrToLwip (some (b.destAt i)) 16 with
    | none => do
      note (.touch .results (4 * i) 4)
      setErrno eafnosupport
      pure { code := -1, results := results.set i (-1) }
    | some dest => do
      note (.touch .buffer off (b.lens i).toNat)
      let lwfd ← stackFd sockfd
      let rc ← lwip (.sendto lwfd (b.data.slice off (b.lens i).toNat) (msgFlagsToLwip flags)
        (some dest))
      note (.touch .results (4 * i) 4)
      if rc.code < 0 then pure { code := -1, results := results.set i rc.code }
      else
        sendSlices sockfd flags b left (i + 1) (off + (b.lens i).toNat) (total + rc.code)
          (results.set i rc.code)

/-- The alignment that nsysnet asks of the pointers and lengths of `sendto_multi_ex`. -/
def SendtoMultiExBuffers.aligned (b : SendtoMultiExBuffers) : Bool :=
  nsnIpcPtrOk b.self ∧ nsnIpcPtrOk b.buffer ∧ nsnIpcPtrOk b.datagramLens ∧ nsnIpcPtrOk b.dests ∧
    nsnIpcPtrOk b.results ∧ b.bufferlen &&& 0x3f = 0 ∧ b.datagramLensLen &&& 0x3f = 0 ∧
    b.destslen &&& 0x3f = 0 ∧ b.resultslen &&& 0x3f = 0

def hookSendtoMultiEx (sockfd : ℤ) (flags : BitVec 32) (b : Option SendtoMultiExBuffers)
    (count : ℤ) : ShimM ShimReply :=
  routed sockfd (.sendtoMultiEx sockfd flags b count) do
    match b with
    | none => fail einval
    | some b =>
      if count < 0 then fail einval
      else if count = 0 then pure {}
      else if b.aligned = false then fail einval
      else do
        let total ← sumLens b count.toNat 0 0
        match total with
        | none => fail einval
        | some total =>
          if sendtoExtents b count.toNat total = false then fail einval
          else do
            clearResults count.toNat
            sendSlices sockfd flags b count.toNat 0 0 0 (List.replicate count.toNat 0)

/-! ## Receiving -/

def hookRecv (sockfd : ℤ) (len : ℕ) (flags : BitVec 32) : ShimM ShimReply :=
  routed sockfd (.recv sockfd len flags) do
    let lwfd ← stackFd sockfd
    let r ← lwip (.recv lwfd len (msgFlagsToLwip flags))
    pure { code := r.code, bytes := r.bytes }

def hookRecvfrom (sockfd : ℤ) (len : ℕ) (flags : BitVec 32) (srcAddr : Bool)
    (addrlen : Option ℕ) : ShimM ShimReply :=
  routed sockfd (.recvfrom sockfd len flags srcAddr addrlen) do
    if srcAddr = true ∧ addrlen = none then fail efault
    else do
      let lwfd ← stackFd sockfd
      let r ← lwip (.recvfrom lwfd len (msgFlagsToLwip flags))
      pure { code := r.code, bytes := r.bytes, addr := senderTo srcAddr addrlen r }

/-- The extra output area of `recvfrom_ex`: the TTL first when asked for, then zeros. -/
def recvExtra (flags : BitVec 32) (ttl : UInt8) (len : ℕ) : List UInt8 :=
  (List.replicate len 0).set 0 (if flags &&& nsnMsgIpRecvttl = 0 then 0 else ttl)

def hookRecvfromEx (sockfd : ℤ) (len : ℕ) (flags : BitVec 32) (srcAddr : Bool)
    (addrlen : Option ℕ) (extra : Bool) (extraLen : ℤ) : ShimM ShimReply :=
  routed sockfd (.recvfromEx sockfd len flags srcAddr addrlen extra extraLen) do
    if srcAddr = true ∧ addrlen = none then fail efault
    else if extraLen = 0 then fail einval
    else do
      let lwfd ← stackFd sockfd
      let r ← lwip (.recvfromWithTtl lwfd len (msgFlagsToLwip flags))
      pure {
        code := r.code
        bytes := r.bytes
        extra := if r.code ≥ 0 ∧ extra = true ∧ extraLen > 0 then
          some (recvExtra flags r.ttl extraLen.toNat) else none
        addr := senderTo srcAddr addrlen r }

def Timeval.invalid (tv : Timeval) : Bool := tv.tvSec < 0 ∨ tv.tvUsec < 0 ∨ tv.tvUsec ≥ 1000000

def Timeval.micros (tv : Timeval) : ℕ := tv.tvSec.toNat * 1000000 + tv.tvUsec.toNat

def osMicrosecondsToTicks (us : ℕ) : ℤ := us * 62156250 / 1000000

def osTicksToMicroseconds (ticks : ℤ) : ℕ := (ticks * 1000000 / 62156250).toNat

def RecvfromMultiBuffers.aligned (b : RecvfromMultiBuffers) : Bool :=
  nsnIpcPtrOk b.self ∧ nsnIpcPtrOk b.buffer ∧ nsnIpcPtrOk b.froms ∧ nsnIpcPtrOk b.results ∧
    b.bufferlen &&& 0x3f = 0 ∧ b.fromslen &&& 0x3f = 0 ∧ b.resultslen &&& 0x3f = 0

def recvfromExtents (b : RecvfromMultiBuffers) (datagramLen count : ℕ) : Bool :=
  datagramLen * count ≤ 0xffffffff ∧ nsnIpcPad (.ofNat (datagramLen * count)) ≤ b.bufferlen ∧
    nsnIpcPad (.ofNat count * 16) ≤ b.fromslen ∧ nsnIpcPad (.ofNat count * 4) ≤ b.resultslen

/-- What `recvfrom_multi` returns with: the results and senders written so far. -/
def recvMultiReply (code : ℤ) (results : List ℤ) (froms : List Sockaddr) (data : List UInt8) :
    ShimReply :=
  { code := code, results := results, froms := froms, bytes := data }

/-- Wait for the descriptor until the deadline: 0 when it passed, negative on an error. -/
def waitReadable (lwfd : ℤ) (deadline : ℤ) : ShimM ℤ := do
  let now ← os .osGetTime
  if now.code ≥ deadline then pure 0
  else do
    let us := osTicksToMicroseconds (deadline - now.code)
    let ready ← lwip (.select (lwfd + 1) (some [lwfd]) none none
      (some { tvSec := us / 1000000, tvUsec := us % 1000000 }))
    pure ready.code

/-- The receive loop of `recvfrom_multi`, with what was received so far. -/
def recvLoop (lwfd : ℤ) (flags : BitVec 32) (datagramLen : ℕ) (deadline : Option ℤ) :
    ℕ → ℕ → List ℤ → List Sockaddr → List UInt8 → ShimM ShimReply
  | 0, i, results, froms, data => pure (recvMultiReply i results froms data)
  | left + 1, i, results, froms, data => do
    let ready ← match deadline with
      | none => pure 1
      | some deadline => waitReadable lwfd deadline
    if ready = 0 then do
      note (.touch .results (4 * i) 4)
      setErrno 0
      pure (recvMultiReply i (results.set i (-1)) froms data)
    else if ready < 0 then do
      note (.touch .results (4 * i) 4)
      pure (recvMultiReply (if i = 0 then -1 else i) (results.set i (-1)) froms data)
    else do
      note (.touch .buffer (UInt32.ofNat i * UInt32.ofNat datagramLen).toNat datagramLen)
      let rc ← lwip (.recvfrom lwfd datagramLen (msgFlagsToLwip flags))
      note (.touch .results (4 * i) 4)
      if rc.code < 0 then
        if rc.errno = ewouldblock ∨ rc.errno = eagain then do
          setErrno 0
          pure (recvMultiReply i (results.set i rc.code) froms data)
        else pure (recvMultiReply (if i = 0 then -1 else i) (results.set i rc.code) froms data)
      else do
        note (.touch .froms (16 * i) 16)
        recvLoop lwfd flags datagramLen deadline left (i + 1) (results.set i rc.code)
          (froms ++ (rc.addr.bind (sockaddrToNsn 16)).toList) (data ++ rc.bytes)

/-- The deadline of `recvfrom_multi` and `select`. -/
def deadlineAfter (ticks : Option ℤ) : ShimM (Option ℤ) :=
  match ticks with
  | none => pure none
  | some ticks => do
    let now ← os .osGetTime
    pure (some (now.code + ticks))

def hookRecvfromMulti (sockfd : ℤ) (flags : BitVec 32) (b : Option RecvfromMultiBuffers)
    (datagramLen count : ℤ) (timeout : Option Timeval) : ShimM ShimReply :=
  routed sockfd (.recvfromMulti sockfd flags b datagramLen count timeout) do
    match b with
    | none => fail einval
    | some b =>
      if datagramLen < 0 ∨ count < 0 ∨ timeout.any Timeval.invalid = true then fail einval
      else if count = 0 then pure {}
      else if b.aligned = false ∨ recvfromExtents b datagramLen.toNat count.toNat = false then
        fail einval
      else do
        clearResults count.toNat
        let deadline ← deadlineAfter (timeout.map fun tv ↦ osMicrosecondsToTicks tv.micros)
        let lwfd ← stackFd sockfd
        recvLoop lwfd flags datagramLen.toNat deadline count.toNat 0
          (List.replicate count.toNat 0) [] []

/-! ## select -/

/-- The bits below `nfds`. -/
def lowBits (nfds : ℕ) : BitVec 32 := if nfds = 32 then BitVec.allOnes 32 else bit nfds - 1

/-- The descriptors that a call of `select` names. -/
def selectWant (nfds : ℤ) (readfds writefds exceptfds : Option (BitVec 32)) : BitVec 32 :=
  (readfds.getD 0 ||| writefds.getD 0 ||| exceptfds.getD 0) &&& lowBits nfds.toNat

/-- Arguments that `select` refuses. -/
def selectInvalid (nfds : ℤ) (timeout : Option Timeval) : Bool :=
  nfds < 0 ∨ nfds > 32 ∨ timeout.any Timeval.invalid = true

/-- The wanted public descriptors with their lwIP descriptors. -/
def loadMapped : List ℕ → ShimM (List (ℕ × ℤ))
  | [] => pure []
  | fd :: rest => do
    let lwfd ← stackFd fd
    let pairs ← loadMapped rest
    pure ((fd, lwfd) :: pairs)

/-- `FD_SET` of the descriptors whose bit is set. -/
def fdSet (pairs : List (ℕ × ℤ)) (bits : BitVec 32) : List ℤ :=
  (pairs.filter fun pair ↦ bits.getLsbD pair.1).map Prod.snd

/-- The bits of the descriptors that `FD_ISSET` finds. -/
def fdIsSet (pairs : List (ℕ × ℤ)) (ready : List ℤ) : BitVec 32 :=
  pairs.foldl (fun bits pair ↦ if pair.2 ∈ ready then bits ||| bit pair.1 else bits) 0

structure SelectSets where
  r : Option (BitVec 32)
  w : Option (BitVec 32)
  e : Option (BitVec 32)

/-- One pass of lwIP's select over the bits in `want`. -/
def lwipSelectBits (nfds : ℕ) (want : BitVec 32) (sets : SelectSets) (tv : Option Timeval) :
    ShimM (ℤ × SelectSets) := do
  let fds := (List.range nfds).filter fun fd ↦ want.getLsbD fd
  let pairs ← loadMapped fds
  let ln := pairs.foldl (fun ln pair ↦ if pair.2 ≥ ln then pair.2 + 1 else ln) 0
  let rc ← lwip (.select ln (sets.r.map (fdSet pairs)) (sets.w.map (fdSet pairs))
    (sets.e.map (fdSet pairs)) tv)
  if rc.code < 0 then pure (rc.code, sets)
  else do
    let pairs ← loadMapped fds
    pure (rc.code, {
      r := sets.r.map fun _ ↦ fdIsSet pairs rc.ready.1
      w := sets.w.map fun _ ↦ fdIsSet pairs rc.ready.2.1
      e := sets.e.map fun _ ↦ fdIsSet pairs rc.ready.2.2 })

def SelectSets.restrict (sets : SelectSets) (mask : BitVec 32) : SelectSets where
  r := sets.r.map (· &&& mask)
  w := sets.w.map (· &&& mask)
  e := sets.e.map (· &&& mask)

def selectReply (code : ℤ) (sets : SelectSets) : ShimReply :=
  { code := code, readfds := sets.r, writefds := sets.w, exceptfds := sets.e }

/-- One of the sets of a mixed `select`: both halves, as far as each stack reported any. -/
def mergeSet (wanted nativeSet axSet : Option (BitVec 32)) (nativeAny axAny : Bool) :
    Option (BitVec 32) :=
  wanted.map fun _ ↦
    (if nativeAny then nativeSet.getD 0 else 0) ||| (if axAny then axSet.getD 0 else 0)

/-- The polling loop over descriptors of both stacks; `nat` are the native ones. -/
def selectMixed (nfds : ℤ) (want nat : BitVec 32) (sets : SelectSets) (deadline : Option ℤ) :
    ℕ → ShimM ShimReply
  | 0 => .diverge
  | fuel + 1 => do
    let zero : Timeval := { tvSec := 0, tvUsec := 0 }
    let halves := sets.restrict nat
    let rcN ← native (.select nfds halves.r halves.w halves.e (some zero))
    if rcN.code < 0 then do
      setErrno (-1)
      pure { code := -1 }
    else do
      let ax ← lwipSelectBits nfds.toNat (want &&& ~~~ nat) (sets.restrict (~~~ nat)) (some zero)
      if ax.1 < 0 then pure { code := -1 }
      else if rcN.code > 0 ∨ ax.1 > 0 then
        pure (selectReply (max rcN.code 0 + max ax.1 0) {
          r := mergeSet sets.r rcN.readfds ax.2.r (decide (rcN.code > 0)) (decide (ax.1 > 0))
          w := mergeSet sets.w rcN.writefds ax.2.w (decide (rcN.code > 0)) (decide (ax.1 > 0))
          e := mergeSet sets.e rcN.exceptfds ax.2.e (decide (rcN.code > 0)) (decide (ax.1 > 0)) })
      else do
        let expired ← match deadline with
          | none => pure false
          | some deadline => do
            let now ← os .osGetTime
            pure (decide (now.code ≥ deadline))
        if expired then pure (selectReply 0 (sets.restrict 0))
        else do
          ignore (os (.osSleepTicks 2))
          selectMixed nfds want nat sets deadline fuel

/-- Serve a `select` where the descriptors in `nat` are native. -/
def selectServe (nfds : ℤ) (sets : SelectSets) (timeout : Option Timeval) (fuel : ℕ)
    (want nat : BitVec 32) : ShimM ShimReply :=
  if nat = want then callNative (.select nfds sets.r sets.w sets.e timeout)
  else do
    setErrno 0
    if nat = 0 then do
      let ax ← lwipSelectBits nfds.toNat want sets timeout
      pure (if ax.1 ≥ 0 then selectReply ax.1 ax.2 else { code := ax.1 })
    else do
      let deadline ← deadlineAfter (timeout.map fun tv ↦
        osMillisecondsToTicks (tv.tvSec.toNat * 1000 + tv.tvUsec.toNat / 1000))
      selectMixed nfds want nat sets deadline fuel

/-- `select` over the descriptors in `want`: those outside `open_mask` are native. -/
def selectRoute (nfds : ℤ) (sets : SelectSets) (timeout : Option Timeval) (fuel : ℕ)
    (want : BitVec 32) : ShimM ShimReply := do
  let mask ← load ShimState.openMask
  selectServe nfds sets timeout fuel want (want &&& ~~~ mask)

/-- `select` after its arguments were checked; a pending FTP handoff fails it once. -/
def selectChecked (nfds : ℤ) (sets : SelectSets) (timeout : Option Timeval) (fuel : ℕ)
    (want : BitVec 32) : ShimM ShimReply := do
  let marked ← load ShimState.ftpRestartMask
  if want &&& marked ≠ 0 then do
    store fun s ↦ { s with ftpRestartMask := s.ftpRestartMask &&& ~~~ (want &&& marked) }
    setErrno ebadf
    pure (selectReply (-1) (sets.restrict 0))
  else selectRoute nfds sets timeout fuel want

def hookSelect (nfds : ℤ) (readfds writefds exceptfds : Option (BitVec 32))
    (timeout : Option Timeval) (fuel : ℕ) : ShimM ShimReply :=
  if selectInvalid nfds timeout then fail einval
  else
    selectChecked nfds { r := readfds, w := writefds, e := exceptfds } timeout fuel
      (selectWant nfds readfds writefds exceptfds)

/-! ## Names and errors -/

/-- The local address, with the address of the interface for a connected wildcard socket. -/
def boundAddress (sockfd : ℤ) (l : Sockaddr) : ShimM Sockaddr :=
  if l.family = nsnAfInet ∧ l.addr = 0 then do
    let lwfd ← stackFd sockfd
    let peer ← lwip (.getpeername lwfd)
    if peer.code = 0 then do
      let ax ← os .axNetIp4
      setErrno 0
      pure (if ax.ip = 0 then l else { l with addr := ax.ip })
    else do
      setErrno 0
      pure l
  else pure l

def hookGetsockname (sockfd : ℤ) (addr : Bool) (addrlen : Option ℕ) : ShimM ShimReply :=
  routed sockfd (.getsockname sockfd addr addrlen) do
    match addr, addrlen with
    | true, some cap => do
      let lwfd ← stackFd sockfd
      let r ← lwip (.getsockname lwfd)
      if r.code ≠ 0 then pure { code := r.code }
      else do
        let l ← boundAddress sockfd (r.addr.getD { family := 0, port := 0, addr := 0 })
        pure { addr := sockaddrToNsn cap l }
    | _, _ => fail efault

def hookGetpeername (sockfd : ℤ) (addr : Bool) (addrlen : Option ℕ) : ShimM ShimReply :=
  routed sockfd (.getpeername sockfd addr addrlen) do
    match addr, addrlen with
    | true, some cap => do
      let lwfd ← stackFd sockfd
      let r ← lwip (.getpeername lwfd)
      pure { code := r.code, addr := if r.code = 0 then r.addr.bind (sockaddrToNsn cap) else none }
    | _, _ => fail efault

def hookSocketlasterr : ShimM ShimReply := do
  let force ← load ShimState.forceNative
  if force ≠ 0 then native .socketlasterr
  else do
    let error ← load ShimState.errno
    if error < 0 then native .socketlasterr
    else pure { code := errnoToNsn error }

/-! ## Serving a descriptor -/

/-- The descriptor is served by lwIP. -/
structure AxOwned (fd : ℤ) (s : ShimState) : Prop where
  accepting : s.acceptingSockets ≠ 0
  nonneg : 0 ≤ fd
  lt : fd < 32
  tracked : s.openMask.getLsbD fd.toNat = true

section Owned

variable {W : Type} {reply : Replies ShimState W ShimCall ShimReply}
  {pre : ShimCall → Machine ShimState W → Prop} {x : Machine ShimState W} {fd : ℤ}

/-- The hooks of a descriptor of lwIP serve it after they cleared `errno`. -/
theorem wp_routed_owned (howned : AxOwned fd x.mem) {request : Export} {served : ShimM ShimReply}
    {post : ShimReply → Machine ShimState W → Prop} :
    wp reply pre (routed fd request served) post x ↔
      wp reply pre served post { x with mem := { x.mem with errno := 0 } } := by
  have hmember : (decide ¬(0 ≤ fd ∧ fd < 32 ∧ x.mem.openMask.getLsbD fd.toNat = true)) = false :=
    decide_eq_false (not_not.mpr ⟨howned.nonneg, howned.lt, howned.tracked⟩)
  have haccepts : (decide (x.mem.acceptingSockets ≠ 0)) = true := decide_eq_true howned.accepting
  simp only [routed, isForeign, shimAccepts, setErrno, wp_bind, wp_load, wp_pure, wp_ite, wp_store,
    haccepts, hmember, Bool.true_eq_false, Bool.false_eq_true, if_false]

/-- `is_foreign` changes nothing and tells whether lwIP serves the descriptor. -/
theorem wp_isForeign {post : Bool → Machine ShimState W → Prop}
    (hpost : ∀ foreign, (foreign = false ↔ AxOwned fd x.mem) → post foreign x) :
    wp reply pre (isForeign fd) post x := by
  refine (wp_bind _ _ _ _).mpr (wp_cases (fun hoff ↦ ?_) fun hon ↦ ?_)
  · refine hpost true ⟨nofun, fun howned ↦ ?_⟩
    exact absurd howned.accepting (of_decide_eq_false hoff)
  · have haccepting := of_decide_eq_true (Bool.not_eq_false _ |>.mp hon)
    refine hpost _ (decide_eq_false_iff_not.trans (not_not.trans ⟨fun h ↦ ?_, fun h ↦ ?_⟩))
    · exact ⟨haccepting, h.1, h.2.1, h.2.2⟩
    · exact ⟨h.nonneg, h.lt, h.tracked⟩

end Owned

/-- A title with one descriptor of lwIP. -/
def ownedShim : ShimState :=
  { acceptingSockets := 1, openMask := 8, mappedFd := fun _ ↦ 0 }

theorem ownedShim_owned : AxOwned 3 ownedShim :=
  ⟨by decide, by decide, by decide, by decide⟩

end Ax88179Aroma.Shim
