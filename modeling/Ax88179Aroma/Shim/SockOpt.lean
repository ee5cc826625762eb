import Ax88179Aroma.Shim.Sockets

/-!
# Socket options

`setsockopt` and `getsockopt`.  Options that lwIP does not have per socket live in `compat_sock`;
the others are translated, never passed on by number.
-/

namespace Ax88179Aroma.Shim

open Effect Program

def nsnSolSocket : ℤ := -1
def nsnSolTcp : ℤ := 6
def ipprotoIp : ℤ := 0
def ipprotoTcp : ℤ := 6

def nsnSoReuseaddr : ℤ := 0x0004
def nsnSoKeepalive : ℤ := 0x0008
def nsnSoDontroute : ℤ := 0x0010
def nsnSoBroadcast : ℤ := 0x0020
def nsnSoLinger : ℤ := 0x0080
def nsnSoOobinline : ℤ := 0x0100
def nsnSoTcpsack : ℤ := 0x0200
def nsnSoWinscale : ℤ := 0x0400
def nsnSoSndbuf : ℤ := 0x1001
def nsnSoRcvbuf : ℤ := 0x1002
def nsnSoSndlowat : ℤ := 0x1003
def nsnSoRcvlowat : ℤ := 0x1004
def nsnSoError : ℤ := 0x1007
def nsnSoType : ℤ := 0x1008
def nsnSoHopcnt : ℤ := 0x1009
def nsnSoMaxmsg : ℤ := 0x1010
def nsnSoRxdata : ℤ := 0x1011
def nsnSoTxdata : ℤ := 0x1012
def nsnSoMyaddr : ℤ := 0x1013
def nsnSoNbio : ℤ := 0x1014
def nsnSoBio : ℤ := 0x1015
def nsnSoNonblock : ℤ := 0x1016
def nsnSoNoslowstart : ℤ := 0x4000

def nsnTcpAckdelaytime : ℤ := 0x2001
def nsnTcpNoackdelay : ℤ := 0x2002
def nsnTcpMaxseg : ℤ := 0x2003
def nsnTcpNodelay : ℤ := 0x2004
def nsnTcpUnknown : ℤ := 0x2005

def lwipSoTxdata : ℤ := 0x1012
def lwipTcpNodelay : ℤ := 0x01
def lwipONonblock : BitVec 32 := 1

/-- The options whose number lwIP shares; `none` for the others. -/
def socketOptToLwip (opt : ℤ) : Option ℤ :=
  if opt = nsnSoReuseaddr then some 0x0004
  else if opt = nsnSoKeepalive then some 0x0008
  else if opt = nsnSoBroadcast then some 0x0020
  else if opt = nsnSoError then some 0x1007
  else if opt = nsnSoType then some 0x1008
  else none

/-- `IP_TOS`, `IP_TTL`, `IP_MULTICAST_IF`, `IP_MULTICAST_TTL`, `IP_MULTICAST_LOOP`,
`IP_ADD_MEMBERSHIP` and `IP_DROP_MEMBERSHIP`. -/
def ipOptToLwip (opt : ℤ) : Option ℤ :=
  if opt = 3 then some 1
  else if opt = 4 then some 2
  else if opt = 9 then some 6
  else if opt = 10 then some 5
  else if opt = 11 then some 7
  else if opt = 12 then some 3
  else if opt = 13 then some 4
  else none

/-! ## Title-visible state -/

def storeCompat (fd : ℤ) (update : CompatSockState → CompatSockState) : ShimM Unit :=
  store fun s ↦ s.setCompat fd.toNat update

def loadCompat (fd : ℤ) (view : CompatSockState → α) : ShimM α :=
  load fun s ↦ view (s.compatSock fd.toNat)

def compatFlagSet (fd : ℤ) (flag : BitVec 32) (enabled : Bool) : ShimM Unit :=
  storeCompat fd fun c ↦
    { c with solFlags := if enabled then c.solFlags ||| flag else c.solFlags &&& ~~~ flag }

/-- The flag itself when it is set. -/
def compatFlagValue (fd : ℤ) (flag : BitVec 32) : ShimM ℤ :=
  loadCompat fd fun c ↦ if c.solFlags &&& flag = 0 then 0 else flag.toInt

/-- The integer of an option value, which must be there. -/
def compatInt (optval : Option OptValue) (optlen : ℕ) : Option ℤ :=
  match optval with
  | none => none
  | some value => if optlen < 4 then none else some value.first

/-- Store an integer option value; `EINVAL` without one. -/
def compatSet (optval : Option OptValue) (optlen : ℕ) (set : ℤ → ShimM ShimReply) :
    ShimM ShimReply :=
  match compatInt optval optlen with
  | none => fail einval
  | some value => set value

/-- Whether the caller has room for `size` bytes. -/
def hasRoom (optval : Bool) (optlen : Option ℕ) (size : ℕ) : Bool :=
  optval = true ∧ size ≤ optlen.getD 0

def compatGetInt (optval : Bool) (optlen : Option ℕ) (value : ℤ) : ShimM ShimReply :=
  if hasRoom optval optlen 4 then pure { value := some { first := value } } else fail einval

def setNonblocking (sockfd : ℤ) (on : Bool) : ShimM ShimReply := do
  let lwfd ← stackFd sockfd
  let r ← lwip (.ioctlNonblocking lwfd on)
  pure { code := r.code }

/-- `lwip_setsockopt` with the caller's value. -/
def lwipSetsockopt (sockfd level optname : ℤ) (optval : Option OptValue) (optlen : ℕ) :
    ShimM ShimReply := do
  let lwfd ← stackFd sockfd
  let r ← lwip (.setsockopt lwfd level optname optval optlen)
  pure { code := r.code }

/-- `lwip_getsockopt` into the caller's value. -/
def lwipGetsockopt (sockfd level optname : ℤ) : ShimM ShimReply := do
  let lwfd ← stackFd sockfd
  let r ← lwip (.getsockopt lwfd level optname)
  pure { code := r.code, value := r.value }

/-! ## setsockopt -/

/-- The options that only keep a bit. -/
def isFlagOption (optname : ℤ) : Bool :=
  optname = nsnSoDontroute ∨ optname = nsnSoOobinline ∨ optname = nsnSoTcpsack ∨
    optname = nsnSoWinscale

def setSndbuf (sockfd value : ℤ) : ShimM ShimReply :=
  if value > 65535 then fail einval
  else if value ≥ 0 then do
    let r ← lwipSetsockopt sockfd lwipSolSocket lwipSoSndbuf (some { first := value }) 4
    if r.code ≠ 0 then pure r
    else do
      storeCompat sockfd fun c ↦ { c with sndbuf := value }
      pure {}
  else do
    storeCompat sockfd fun c ↦ { c with sndbuf := value }
    pure {}

def setRcvbuf (sockfd value : ℤ) : ShimM ShimReply :=
  if value > 65535 then fail einval
  else do
    let r ← lwipSetsockopt sockfd lwipSolSocket lwipSoRcvbuf (some { first := value }) 4
    when (r.code = 0) (storeCompat sockfd fun c ↦ { c with rcvbuf := value })
    pure r

/-- `SO_MAXMSG` and `TCP_MAXSEG` share one value. -/
def setMaxseg (sockfd value : ℤ) : ShimM ShimReply :=
  if value ≤ 0 then fail einval
  else do
    storeCompat sockfd fun c ↦ { c with tcpMaxseg := value }
    pure {}

def setLinger (sockfd : ℤ) (optval : Option OptValue) (optlen : ℕ) : ShimM ShimReply :=
  match optval with
  | none => fail einval
  | some l =>
    if optlen < 8 ∨ l.second < 0 then fail einval
    else do
      storeCompat sockfd fun c ↦ { c with lingerOn := if l.first = 0 then 0 else 1 }
      storeCompat sockfd fun c ↦ { c with lingerSecs := l.second }
      pure {}

def setSocketLevel (sockfd optname : ℤ) (optval : Option OptValue) (optlen : ℕ) :
    ShimM ShimReply :=
  if optname = nsnSoNbio then setNonblocking sockfd true
  else if optname = nsnSoBio then setNonblocking sockfd false
  else if optname = nsnSoNonblock then
    compatSet optval optlen fun value ↦ setNonblocking sockfd (decide (value ≠ 0))
  else if isFlagOption optname then
    compatSet optval optlen fun value ↦ do
      compatFlagSet sockfd (.ofInt 32 optname) (decide (value ≠ 0))
      pure {}
  else if optname = nsnSoNoslowstart then compatSet optval optlen fun _ ↦ pure {}
  else if optname = nsnSoSndbuf then compatSet optval optlen (setSndbuf sockfd)
  else if optname = nsnSoRcvbuf then compatSet optval optlen (setRcvbuf sockfd)
  else if optname = nsnSoSndlowat ∨ optname = nsnSoRcvlowat then fail enoprotoopt
  else if optname = nsnSoMaxmsg then compatSet optval optlen (setMaxseg sockfd)
  else if optname = nsnSoLinger then setLinger sockfd optval optlen
  else if optname = nsnSoRxdata ∨ optname = nsnSoTxdata ∨ optname = nsnSoMyaddr then
    fail enoprotoopt
  else
    match socketOptToLwip optname with
    | none => fail enoprotoopt
    | some lwopt => lwipSetsockopt sockfd lwipSolSocket lwopt optval optlen

def setTcpLevel (sockfd optname : ℤ) (optval : Option OptValue) (optlen : ℕ) : ShimM ShimReply :=
  if optname = nsnTcpNodelay then lwipSetsockopt sockfd ipprotoTcp lwipTcpNodelay optval optlen
  else if optname = nsnTcpAckdelaytime then
    compatSet optval optlen fun value ↦ do
      storeCompat sockfd fun c ↦ { c with tcpAckdelay := value }
      pure {}
  else if optname = nsnTcpNoackdelay then
    compatSet optval optlen fun value ↦ do
      storeCompat sockfd fun c ↦ { c with tcpNoackdelay := value }
      pure {}
  else if optname = nsnTcpUnknown then
    compatSet optval optlen fun value ↦ do
      storeCompat sockfd fun c ↦ { c with tcpUnknown := value }
      pure {}
  else if optname = nsnTcpMaxseg then compatSet optval optlen (setMaxseg sockfd)
  else fail enoprotoopt

def hookSetsockopt (sockfd level optname : ℤ) (optval : Option OptValue) (optlen : ℕ) :
    ShimM ShimReply :=
  routed sockfd (.setsockopt sockfd level optname optval optlen)
    (if level = nsnSolSocket then setSocketLevel sockfd optname optval optlen
    else if level = ipprotoIp then
      match ipOptToLwip optname with
      | none => fail enoprotoopt
      | some lwopt => lwipSetsockopt sockfd ipprotoIp lwopt optval optlen
    else if level = nsnSolTcp then setTcpLevel sockfd optname optval optlen
    else fail enoprotoopt)

/-! ## getsockopt -/

def getNonblock (sockfd : ℤ) (optval : Bool) (optlen : Option ℕ) : ShimM ShimReply :=
  if hasRoom optval optlen 4 then do
    let lwfd ← stackFd sockfd
    let fl ← lwip (.fcntlGetfl lwfd)
    if fl.code < 0 then pure { code := -1 }
    else
      pure { value := some { first := if .ofInt 32 fl.code &&& lwipONonblock = 0 then 0 else 1 } }
  else fail einval

def getRxdata (sockfd : ℤ) (optval : Bool) (optlen : Option ℕ) : ShimM ShimReply :=
  if hasRoom optval optlen 4 then do
    let lwfd ← stackFd sockfd
    let r ← lwip (.ioctlReadable lwfd)
    pure { code := r.code, value := if r.code = 0 then r.value else none }
  else fail einval

def getTxdata (sockfd : ℤ) (optval : Bool) (optlen : Option ℕ) : ShimM ShimReply := do
  let r ← lwipGetsockopt sockfd lwipSolSocket lwipSoTxdata
  if r.code ≠ 0 then pure { code := r.code }
  else compatGetInt optval optlen ((r.value.getD { first := 0 }).first)

def getMyaddr (optval : Bool) (optlen : Option ℕ) : ShimM ShimReply :=
  if hasRoom optval optlen 4 then do
    let ax ← os .axNetIp4
    pure { value := some { first := ax.ip.toNat } }
  else fail einval

/-- `getsockopt` of an integer in `compat_sock`. -/
def getCompat (sockfd : ℤ) (optval : Bool) (optlen : Option ℕ) (view : CompatSockState → ℤ) :
    ShimM ShimReply := do
  let value ← loadCompat sockfd view
  compatGetInt optval optlen value

def getFlag (sockfd optname : ℤ) (optval : Bool) (optlen : Option ℕ) : ShimM ShimReply := do
  let value ← compatFlagValue sockfd (.ofInt 32 optname)
  compatGetInt optval optlen value

def getLinger (sockfd : ℤ) (optval : Bool) (optlen : Option ℕ) : ShimM ShimReply :=
  if hasRoom optval optlen 8 then do
    let on ← loadCompat sockfd CompatSockState.lingerOn
    let secs ← loadCompat sockfd CompatSockState.lingerSecs
    pure { value := some { first := if on = 0 then 0 else nsnSoLinger, second := secs } }
  else fail einval

/-- The options that lwIP keeps; `SO_ERROR` is translated back. -/
def getLwipOption (sockfd optname lwopt : ℤ) (optval : Bool) (optlen : Option ℕ) :
    ShimM ShimReply := do
  let r ← lwipGetsockopt sockfd lwipSolSocket lwopt
  if r.code = 0 ∧ optname = nsnSoError ∧ hasRoom optval optlen 4 = true then
    pure { r with value := r.value.map fun v ↦ { v with first := errnoToNsn v.first } }
  else pure r

def getSocketLevel (sockfd optname : ℤ) (optval : Bool) (optlen : Option ℕ) : ShimM ShimReply :=
  if optname = nsnSoNonblock then getNonblock sockfd optval optlen
  else if optname = nsnSoNbio ∨ optname = nsnSoBio ∨ optname = nsnSoNoslowstart then
    fail enoprotoopt
  else if isFlagOption optname then getFlag sockfd optname optval optlen
  else if optname = nsnSoRxdata then getRxdata sockfd optval optlen
  else if optname = nsnSoTxdata then getTxdata sockfd optval optlen
  else if optname = nsnSoMyaddr then getMyaddr optval optlen
  else if optname = nsnSoSndbuf then getCompat sockfd optval optlen CompatSockState.sndbuf
  else if optname = nsnSoRcvbuf then getCompat sockfd optval optlen CompatSockState.rcvbuf
  else if optname = nsnSoSndlowat ∨ optname = nsnSoRcvlowat ∨ optname = nsnSoHopcnt then
    compatGetInt optval optlen 0
  else if optname = nsnSoMaxmsg then getCompat sockfd optval optlen CompatSockState.tcpMaxseg
  else if optname = nsnSoLinger then getLinger sockfd optval optlen
  else
    match socketOptToLwip optname with
    | none => fail enoprotoopt
    | some lwopt => getLwipOption sockfd optname lwopt optval optlen

def getTcpLevel (sockfd optname : ℤ) (optval : Bool) (optlen : Option ℕ) : ShimM ShimReply :=
  if optname = nsnTcpNodelay then lwipGetsockopt sockfd ipprotoTcp lwipTcpNodelay
  else if optname = nsnTcpAckdelaytime then
    getCompat sockfd optval optlen CompatSockState.tcpAckdelay
  else if optname = nsnTcpNoackdelay then
    getCompat sockfd optval optlen CompatSockState.tcpNoackdelay
  else if optname = nsnTcpMaxseg then getCompat sockfd optval optlen CompatSockState.tcpMaxseg
  else if optname = nsnTcpUnknown then getCompat sockfd optval optlen CompatSockState.tcpUnknown
  else fail enoprotoopt

def hookGetsockopt (sockfd level optname : ℤ) (optval : Bool) (optlen : Option ℕ) :
    ShimM ShimReply :=
  routed sockfd (.getsockopt sockfd level optname optval optlen)
    (if level = nsnSolSocket then getSocketLevel sockfd optname optval optlen
    else if level = ipprotoIp then
      match ipOptToLwip optname with
      | none => fail enoprotoopt
      | some lwopt => lwipGetsockopt sockfd ipprotoIp lwopt
    else if level = nsnSolTcp then getTcpLevel sockfd optname optval optlen
    else fail enoprotoopt)

end Ax88179Aroma.Shim
