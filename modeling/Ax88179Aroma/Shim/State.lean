import Ax88179Aroma.Effect.Memory
import Ax88179Aroma.Effect.Program
import Mathlib.Data.Int.Notation

/-!
# State of the nsysnet shim

The static data of `aroma_module/nsysnet_shim.c` and its interface to the outside.  Each patched
export of nsysnet is one constructor of `Export` with its arguments: a title calls the hook of that
name, and the hook may call the original function of the same name.  Pointers to structures are
their contents, with `none` for `NULL`; what a call writes through its pointers is part of the reply.

Masks over the 32 public descriptors are bit vectors.  Calls named `note` are history only.
Logging, tracing and thread attributes are left out.
-/

namespace Ax88179Aroma.Shim

open Effect

/-! ## The nsysnet ABI -/

def nsnAfInet : ℤ := 2
def sockStream : ℤ := 1
def sockDgram : ℤ := 2
def shutWr : ℤ := 1
def shutRdwr : ℤ := 2

/-- lwIP's `MSG_DONTWAIT` -/
def msgDontwait : BitVec 32 := 0x08
def msgPeek : BitVec 32 := 0x01
def msgOob : BitVec 32 := 0x04

def nsnMsgOob : BitVec 32 := 0x0001
def nsnMsgPeek : BitVec 32 := 0x0002
def nsnMsgDontwait : BitVec 32 := 0x0020
def nsnMsgIpRecvttl : BitVec 32 := 0x0040

def axFtpPort : UInt16 := 21
def axNativePortWiiload : UInt16 := 4299

/-! The values of newlib's `errno` that the shim names. -/

def ebadf : ℤ := 9
def eagain : ℤ := 11
def ewouldblock : ℤ := 11
def efault : ℤ := 14
def einval : ℤ := 22
def emfile : ℤ := 24
def eio : ℤ := 5
def eafnosupport : ℤ := 106
def enoprotoopt : ℤ := 109

/-- An IPv4 socket address; port and address are in network byte order, which is the order of the
processor. -/
structure Sockaddr where
  family : ℤ
  port : UInt16
  addr : UInt32
  deriving DecidableEq, Repr

structure Timeval where
  tvSec : ℤ
  tvUsec : ℤ
  deriving DecidableEq, Repr

/-- `struct nsn_sendto_multi_ex_buffers` at the address `self`, with what its pointers lead to. -/
structure SendtoMultiExBuffers where
  self : UInt32
  buffer : UInt32
  bufferlen : UInt32
  datagramLens : UInt32
  datagramLensLen : UInt32
  dests : UInt32
  destslen : UInt32
  results : UInt32
  resultslen : UInt32
  data : Memory
  lens : ℕ → ℤ
  destAt : ℕ → Sockaddr

/-- `struct nsn_recvfrom_multi_buffers` at the address `self`. -/
structure RecvfromMultiBuffers where
  self : UInt32
  buffer : UInt32
  bufferlen : UInt32
  froms : UInt32
  fromslen : UInt32
  results : UInt32
  resultslen : UInt32

/-- The integers an option value holds: one, or the two of `struct linger`. -/
structure OptValue where
  first : ℤ
  second : ℤ := 0
  deriving DecidableEq, Repr

structure Addrinfo where
  aiFlags : BitVec 32
  aiFamily : ℤ
  aiSocktype : ℤ
  aiProtocol : ℤ
  aiAddr : Option Sockaddr := none
  aiCanonname : Option String := none
  deriving DecidableEq, Repr

/-- The patched exports of nsysnet.  An output pointer is the flag that it is not `NULL`. -/
inductive Export where
  | socket (domain type protocol : ℤ)
  | socketclose (sockfd : ℤ)
  | socketcloseAll
  | bind (sockfd : ℤ) (addr : Option Sockaddr) (addrlen : ℕ)
  | connect (sockfd : ℤ) (addr : Option Sockaddr) (addrlen : ℕ)
  | listen (sockfd backlog : ℤ)
  | accept (sockfd : ℤ) (addr : Bool) (addrlen : Option ℕ)
  | shutdown (sockfd how : ℤ)
  | send (sockfd : ℤ) (buf : List UInt8) (flags : BitVec 32)
  | sendto (sockfd : ℤ) (buf : List UInt8) (flags : BitVec 32) (dest : Option Sockaddr)
      (addrlen : ℕ)
  | sendtoMulti (sockfd : ℤ) (buf : List UInt8) (flags : BitVec 32) (destv : List Sockaddr)
  | sendtoMultiEx (sockfd : ℤ) (flags : BitVec 32) (b : Option SendtoMultiExBuffers) (count : ℤ)
  | recv (sockfd : ℤ) (len : ℕ) (flags : BitVec 32)
  | recvfrom (sockfd : ℤ) (len : ℕ) (flags : BitVec 32) (srcAddr : Bool) (addrlen : Option ℕ)
  | recvfromEx (sockfd : ℤ) (len : ℕ) (flags : BitVec 32) (srcAddr : Bool) (addrlen : Option ℕ)
      (extra : Bool) (extraLen : ℤ)
  | recvfromMulti (sockfd : ℤ) (flags : BitVec 32) (b : Option RecvfromMultiBuffers)
      (datagramLen count : ℤ) (timeout : Option Timeval)
  | select (nfds : ℤ) (readfds writefds exceptfds : Option (BitVec 32)) (timeout : Option Timeval)
  | getsockname (sockfd : ℤ) (addr : Bool) (addrlen : Option ℕ)
  | getpeername (sockfd : ℤ) (addr : Bool) (addrlen : Option ℕ)
  | setsockopt (sockfd level optname : ℤ) (optval : Option OptValue) (optlen : ℕ)
  | getsockopt (sockfd level optname : ℤ) (optval : Bool) (optlen : Option ℕ)
  | socketlasterr
  | nsslCreateConnection (context : ℤ) (host : Option String) (hostLength options sockfd block : ℤ)
  | nsslDestroyConnection (connection : ℤ)
  | nsslFinish
  | gethostbyname (name : Option String)
  | gethostbyaddr (addr : Option UInt32) (len : ℕ) (type : ℤ)
  | getaddrinfo (node service : Option String) (hints : Option Addrinfo) (res : Bool)
  | getaddrinfoRs (node service : Option String) (hints : Option Addrinfo) (res : Bool)
  | getaddrinfoAsync (node service : Option String) (hints : Option Addrinfo) (res : Bool)
  | getaddrinfoAsyncRs (node service : Option String) (hints : Option Addrinfo) (res : Bool)
  | dnsAbortByHname (hostname : Option String)
  | freeaddrinfo (res : ℕ)
  | getnameinfo (addr : Option Sockaddr) (addrlen : ℕ) (host : Bool) (hostlen : ℕ) (serv : Bool)
      (servlen : ℕ) (flags : BitVec 32)
  | getHErrno
  | gaiStrerror (ecode : ℤ)

/-! ## Calls -/

/-- The calls into lwIP's socket and DNS layers. -/
inductive LwipCall where
  | socket (domain type protocol : ℤ)
  | close (lwfd : ℤ)
  | bind (lwfd : ℤ) (addr : Sockaddr)
  | connect (lwfd : ℤ) (addr : Sockaddr)
  | listen (lwfd backlog : ℤ)
  | accept (lwfd : ℤ)
  | shutdown (lwfd how : ℤ)
  | send (lwfd : ℤ) (buf : List UInt8) (flags : BitVec 32)
  | sendto (lwfd : ℤ) (buf : List UInt8) (flags : BitVec 32) (dest : Option Sockaddr)
  | recv (lwfd : ℤ) (len : ℕ) (flags : BitVec 32)
  | recvfrom (lwfd : ℤ) (len : ℕ) (flags : BitVec 32)
  | recvfromWithTtl (lwfd : ℤ) (len : ℕ) (flags : BitVec 32)
  | select (nfds : ℤ) (readfds writefds exceptfds : Option (List ℤ)) (timeout : Option Timeval)
  | getsockname (lwfd : ℤ)
  | getpeername (lwfd : ℤ)
  | setsockopt (lwfd level optname : ℤ) (optval : Option OptValue) (optlen : ℕ)
  | getsockopt (lwfd level optname : ℤ)
  | ioctlNonblocking (lwfd : ℤ) (on : Bool)
  | ioctlReadable (lwfd : ℤ)
  | fcntlGetfl (lwfd : ℤ)
  | inetPton (text : String)
  | gethostbyname (name : Option String)
  | getaddrinfo (node service : Option String) (hints : Option Addrinfo)
  | freeaddrinfo
  | dnsGetserver (index : ℕ)
  /-- the isolated PTR client, a series of `lwip_*` socket calls -/
  | ptrDnsQueryServer (server : UInt32) (reverseName : String)
  | dnsGethostbyname (name : String) (token : BitVec 32)

/-- Calls into coreinit, the function patcher, the heap and the network interface. -/
inductive OsCall where
  | axNetStackReady
  | axNetIp4
  | axNetAddress
  | osGetTime
  | osSleepTicks (ms : ℕ)
  | osGetCurrentThread
  | osCreateThread (slot : ℕ)
  | osResumeThread (slot : ℕ)
  | osIsThreadTerminated (slot : ℕ)
  | osJoinThread (slot : ℕ)
  | functionPatcherInitLibrary
  | functionPatcherAddFunctionPatch (index : ℕ)
  | functionPatcherRemoveFunctionPatch
  | functionPatcherDeInitLibrary
  | osYieldThread
  | malloc
  | free (pointer : ℕ)
  deriving DecidableEq, Repr

/-- One direction of a relay: the bytes `[off, off + len)` of its buffer wait for the sink.
`rxOpen` until the source reported the end of its stream, `wrShutdown` once the sink was told. -/
structure HalfPipe where
  off : ℕ := 0
  len : ℕ := 0
  rxOpen : Bool := true
  wrShutdown : Bool := false
  deriving DecidableEq, Repr

/-- The local variables of a relay worker: `to_ax_off`, `to_ax_len`, `native_rx_open` and
`ax_wr_shutdown`, then their counterparts for the way back. -/
structure RelayLocals where
  toAx : HalfPipe := {}
  toNative : HalfPipe := {}
  deriving DecidableEq, Repr

/-- Why a relay worker left its loop. -/
inductive RelayExit where
  | stop
  | error
  | peerClosed
  | drained
  deriving DecidableEq, Repr

/-- The arrays of a `sendto_multi_ex` or `recvfrom_multi` request. -/
inductive Region where
  | datagramLens
  | dests
  | buffer
  | froms
  | results
  deriving DecidableEq, Repr

/-- Where the shim or a relay worker is. -/
inductive ShimNote where
  | tracked (fd : ℕ)
  /-- a relay took over its descriptors -/
  | adopted (slot : ℕ)
  /-- the bytes `[offset, offset + size)` of an array are read or written -/
  | touch (region : Region) (offset size : ℕ)
  | relayHead (slot : ℕ) (locals : RelayLocals)
  | relayEnd (slot : ℕ) (exit : RelayExit)
  /-- lwIP calls back for a request -/
  | dnsCallback (token : BitVec 32)
  | dnsReturned
  /-- a relay worker returns to the OS -/
  | workerExit (slot : ℕ)
  /-- a title enters and leaves `socketclose` -/
  | closeBegin (fd : ℤ)
  | closeEnd (fd : ℤ)
  deriving DecidableEq, Repr

inductive ShimCall where
  | native (request : Export)
  | lwip (request : LwipCall)
  | os (request : OsCall)
  | note (event : ShimNote)

/-- What a call returns: its value, newlib's `errno` after it, and what it wrote through its
pointers. -/
structure ShimReply where
  code : ℤ := 0
  errno : ℤ := 0
  hErrno : ℤ := 0
  addr : Option Sockaddr := none
  ip : UInt32 := 0
  bytes : List UInt8 := []
  ttl : UInt8 := 0
  extra : Option (List UInt8) := none
  value : Option OptValue := none
  readfds : Option (BitVec 32) := none
  writefds : Option (BitVec 32) := none
  exceptfds : Option (BitVec 32) := none
  ready : List ℤ × List ℤ × List ℤ := ([], [], [])
  results : List ℤ := []
  froms : List Sockaddr := []
  host : Option String := none
  serv : Option String := none
  infos : List Addrinfo := []

/-! ## The static data -/

/-- Title-visible option state of a public descriptor. -/
structure CompatSockState where
  solFlags : BitVec 32 := 0
  tcpAckdelay : ℤ := 0
  tcpNoackdelay : ℤ := 0
  tcpMaxseg : ℤ := 0
  tcpUnknown : ℤ := 0
  lingerOn : ℤ := 0
  lingerSecs : ℤ := 0
  sndbuf : ℤ := 0
  rcvbuf : ℤ := 0
  deriving DecidableEq, Repr

def nsslRelayMax : ℕ := 8
def nsslRelayBuf : ℕ := 4096

/-- `struct nssl_relay` without its thread. -/
structure NsslRelay where
  allocated : ℤ := 0
  ready : ℤ := 0
  stop : ℤ := 0
  done : ℤ := 0
  publicFd : ℤ := 0
  nativeFd : ℤ := 0
  lwfd : ℤ := 0
  error : ℤ := 0
  nativeToAx : UInt64 := 0
  axToNative : UInt64 := 0
  toAx : Memory := fun _ ↦ 0
  toNative : Memory := fun _ ↦ 0

inductive AsyncDnsState where
  | free
  | pending
  | ready
  | failed
  | claimed
  deriving DecidableEq, Repr

structure AsyncDnsSlot where
  state : AsyncDnsState := .free
  ticket : BitVec 32 := 0
  name : String := ""
  deriving DecidableEq, Repr

/-- The descriptors and the two directions of the Wiiload proxy. -/
structure WiiloadProxyState where
  listenerFd : ℤ := -1
  axFd : ℤ := -1
  nativeFd : ℤ := -1
  /-- `ax_rx_open`, `to_native_off`, `to_native_len` and `native_wr_shutdown` -/
  toNativeHalf : HalfPipe := { rxOpen := false }
  /-- `native_rx_open`, `to_ax_off`, `to_ax_len` and `ax_wr_shutdown` -/
  toAxHalf : HalfPipe := { rxOpen := false }
  axToNative : UInt64 := 0
  nativeToAx : UInt64 := 0
  toNative : Memory := fun _ ↦ 0
  toAx : Memory := fun _ ↦ 0

def asyncDnsMax : ℕ := 8
def aiOwnedMax : ℕ := 8

structure ShimState where
  openMask : BitVec 32 := 0
  mappedFd : ℕ → ℤ := fun _ ↦ 0
  acceptingSockets : ℤ := 0
  probeThread : ℤ := 0
  probeOwnsAccepting : ℤ := 0
  probeBaselineOpenMask : BitVec 32 := 0
  probeBaselineAiMask : BitVec 32 := 0
  systemDns : ℤ := 0
  forceNative : ℤ := 0
  axActivityPending : ℤ := 0
  nsslBridgeEnabled : ℤ := 0
  ftpNativeBindIp : UInt32 := 0
  ftpAxRedirectActive : ℤ := 0
  ftpRestartMask : BitVec 32 := 0
  nsslPublicMask : BitVec 32 := 0
  nsslConnectionByFd : ℕ → ℤ := fun _ ↦ 0
  compatSock : ℕ → CompatSockState := fun _ ↦ {}
  nsslRelays : ℕ → NsslRelay := fun _ ↦ {}
  wiiloadProxy : WiiloadProxyState := {}
  /-- heads of the address lists that the shim allocated, 0 for `NULL` -/
  aiOwned : ℕ → ℕ := fun _ ↦ 0
  /-- the field `ai_next` of the nodes that the shim allocated -/
  aiNext : ℕ → ℕ := fun _ ↦ 0
  asyncDnsSlots : ℕ → AsyncDnsSlot := fun _ ↦ {}
  asyncDnsTicketCounter : BitVec 32 := 1
  asyncDnsTableLock : Bool := false
  installed : ℤ := 0
  handleCount : ℕ := 0
  /-- newlib's `errno` and `h_errno` of the calling thread -/
  errno : ℤ := 0
  hErrno : ℤ := 0

namespace ShimState

def setRelay (s : ShimState) (slot : ℕ) (update : NsslRelay → NsslRelay) : ShimState :=
  { s with nsslRelays := Function.update s.nsslRelays slot (update (s.nsslRelays slot)) }

def setCompat (s : ShimState) (fd : ℕ) (update : CompatSockState → CompatSockState) : ShimState :=
  { s with compatSock := Function.update s.compatSock fd (update (s.compatSock fd)) }

def setAsyncDns (s : ShimState) (slot : ℕ) (update : AsyncDnsSlot → AsyncDnsSlot) : ShimState :=
  { s with asyncDnsSlots := Function.update s.asyncDnsSlots slot (update (s.asyncDnsSlots slot)) }

@[simp]
theorem setRelay_self (s : ShimState) (slot : ℕ) (update : NsslRelay → NsslRelay) :
    (s.setRelay slot update).nsslRelays slot = update (s.nsslRelays slot) :=
  Function.update_self slot _ _

theorem setRelay_of_ne (s : ShimState) {slot other : ℕ} (h : other ≠ slot)
    (update : NsslRelay → NsslRelay) :
    (s.setRelay slot update).nsslRelays other = s.nsslRelays other :=
  Function.update_of_ne h _ _

theorem setRelay_setRelay (s : ShimState) (slot : ℕ) (first second : NsslRelay → NsslRelay) :
    (s.setRelay slot first).setRelay slot second = s.setRelay slot fun r ↦ second (first r) := by
  simp only [setRelay, Function.update_self, Function.update_idem]

end ShimState

abbrev ShimM := Program ShimState ShimCall ShimReply

end Ax88179Aroma.Shim
