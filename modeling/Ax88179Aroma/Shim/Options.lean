import Ax88179Aroma.Shim.Frames

/-!
# Socket options as registers

The options that the shim mirrors are registers of each public descriptor: what `getsockopt` reads
is what the last successful `setsockopt` of the same option wrote, as the native stack normalises
it, or the default of a fresh socket.  Four of them are bits of one word, and `SO_MAXMSG` and
`TCP_MAXSEG` are one register.
-/

namespace Ax88179Aroma.Shim

open Effect Program

/-! ## Registers -/

inductive FlagOption where
  | dontroute
  | oobinline
  | tcpsack
  | winscale
  deriving DecidableEq, Repr

def FlagOption.optname : FlagOption → ℤ
  | .dontroute => nsnSoDontroute
  | .oobinline => nsnSoOobinline
  | .tcpsack => nsnSoTcpsack
  | .winscale => nsnSoWinscale

def FlagOption.mask (flag : FlagOption) : BitVec 32 := .ofInt 32 flag.optname

inductive OptRegister where
  | flag (option : FlagOption)
  | sndbuf
  | rcvbuf
  | maxseg
  | linger
  | ackdelay
  | noackdelay
  | unknown
  deriving DecidableEq, Repr

/-- The register behind an option, `none` for one that is not mirrored. -/
def optRegister (level optname : ℤ) : Option OptRegister :=
  if level = nsnSolSocket then
    if optname = nsnSoDontroute then some (.flag .dontroute)
    else if optname = nsnSoOobinline then some (.flag .oobinline)
    else if optname = nsnSoTcpsack then some (.flag .tcpsack)
    else if optname = nsnSoWinscale then some (.flag .winscale)
    else if optname = nsnSoSndbuf then some .sndbuf
    else if optname = nsnSoRcvbuf then some .rcvbuf
    else if optname = nsnSoMaxmsg then some .maxseg
    else if optname = nsnSoLinger then some .linger
    else none
  else if level = nsnSolTcp then
    if optname = nsnTcpAckdelaytime then some .ackdelay
    else if optname = nsnTcpNoackdelay then some .noackdelay
    else if optname = nsnTcpMaxseg then some .maxseg
    else if optname = nsnTcpUnknown then some .unknown
    else none
  else none

namespace OptRegister

/-- What the native stack reports after a value was set. -/
def normalise : OptRegister → OptValue → OptValue
  | .flag option, value => { first := if value.first = 0 then 0 else option.optname }
  | .linger, value =>
    { first := if value.first = 0 then 0 else nsnSoLinger, second := value.second }
  | _, value => { first := value.first }

/-- What the native stack reports of a fresh socket. -/
def fresh : OptRegister → OptValue
  | .sndbuf => { first := 8192 }
  | .rcvbuf => { first := 8192 }
  | .maxseg => { first := tcpMss }
  | _ => { first := 0 }

/-- What the record of a descriptor holds. -/
def stored (c : CompatSockState) : OptRegister → OptValue
  | .flag option => { first := if c.solFlags &&& option.mask = 0 then 0 else option.mask.toInt }
  | .sndbuf => { first := c.sndbuf }
  | .rcvbuf => { first := c.rcvbuf }
  | .maxseg => { first := c.tcpMaxseg }
  | .linger => { first := if c.lingerOn = 0 then 0 else nsnSoLinger, second := c.lingerSecs }
  | .ackdelay => { first := c.tcpAckdelay }
  | .noackdelay => { first := c.tcpNoackdelay }
  | .unknown => { first := c.tcpUnknown }

theorem stored_freshCompat : stored freshCompat = fresh := by
  funext register
  cases register with
  | flag option => cases option <;> decide
  | _ => rfl

end OptRegister

/-- The registers of all descriptors. -/
def ShimState.options (s : ShimState) (fd : ℕ) : OptRegister → OptValue :=
  OptRegister.stored (s.compatSock fd)

/-! ## Calls and histories -/

inductive OptCall where
  | set (sockfd level optname : ℤ) (optval : Option OptValue) (optlen : ℕ)
  | get (sockfd level optname : ℤ) (optval : Bool) (optlen : Option ℕ)

namespace OptCall

def sockfd : OptCall → ℤ
  | set sockfd _ _ _ _ => sockfd
  | get sockfd _ _ _ _ => sockfd

def program : OptCall → ShimM ShimReply
  | set sockfd level optname optval optlen => hookSetsockopt sockfd level optname optval optlen
  | get sockfd level optname optval optlen => hookGetsockopt sockfd level optname optval optlen

end OptCall

/-- A completed call. -/
structure OptEvent where
  call : OptCall
  reply : ShimReply

/-- The value that a successful `setsockopt` of a register of `fd` was given. -/
def OptEvent.written (fd : ℤ) (register : OptRegister) (event : OptEvent) : Option OptValue :=
  match event.call with
  | .set sockfd level optname optval _ =>
    if event.reply.code = 0 ∧ sockfd = fd ∧ optRegister level optname = some register then optval
    else none
  | .get _ _ _ _ _ => none

/-- The last value written to a register, as it reads back. -/
def lastWritten (fd : ℤ) (register : OptRegister) (history : List OptEvent) : OptValue :=
  ((history.filterMap (OptEvent.written fd register)).getLast?.map register.normalise).getD
    register.fresh

/-- Every outside call may answer anything. -/
def optReply : Replies ShimState Unit ShimCall ShimReply := fun _ _ x ↦ some x

/-- `socket` or `accept` made `fd` a descriptor of lwIP. -/
inductive Created (fd : ℤ) : Machine ShimState Unit → Prop where
  | socket {x y : Machine ShimState Unit} {domain type protocol : ℤ} {reply : ShimReply}
      (before : ¬AxOwned fd x.mem) (after : AxOwned fd y.mem)
      (exec : Exec optReply (hookSocket domain type protocol) x reply y) : Created fd y
  | accept {x y : Machine ShimState Unit} {sockfd : ℤ} {addr : Bool} {addrlen : Option ℕ}
      {reply : ShimReply} (before : ¬AxOwned fd x.mem) (after : AxOwned fd y.mem)
      (exec : Exec optReply (hookAccept sockfd addr addrlen) x reply y) : Created fd y

/-- Complete option calls on descriptors of lwIP, one after the other. -/
inductive OptRun (x : Machine ShimState Unit) : List OptEvent → Machine ShimState Unit → Prop where
  | start : OptRun x [] x
  | step {history : List OptEvent} {y z : Machine ShimState Unit} {event : OptEvent}
      (rest : OptRun x history y) (owned : AxOwned event.call.sockfd y.mem)
      (exec : Exec optReply event.call.program y event.reply z) : OptRun x (history ++ [event]) z

/-! ## Writes -/

section Write

variable {c : CompatSockState}

/-- The record of a descriptor after one register was written. -/
def Writes (register : OptRegister) (value : OptValue) (c c' : CompatSockState) : Prop :=
  OptRegister.stored c' = Function.update (OptRegister.stored c) register (register.normalise value)

theorem writes_sndbuf (value : OptValue) :
    Writes .sndbuf value c { c with sndbuf := value.first } := by
  funext other
  cases other <;> rfl

theorem writes_rcvbuf (value : OptValue) :
    Writes .rcvbuf value c { c with rcvbuf := value.first } := by
  funext other
  cases other <;> rfl

theorem writes_maxseg (value : OptValue) :
    Writes .maxseg value c { c with tcpMaxseg := value.first } := by
  funext other
  cases other <;> rfl

theorem writes_ackdelay (value : OptValue) :
    Writes .ackdelay value c { c with tcpAckdelay := value.first } := by
  funext other
  cases other <;> rfl

theorem writes_noackdelay (value : OptValue) :
    Writes .noackdelay value c { c with tcpNoackdelay := value.first } := by
  funext other
  cases other <;> rfl

theorem writes_unknown (value : OptValue) :
    Writes .unknown value c { c with tcpUnknown := value.first } := by
  funext other
  cases other <;> rfl

theorem writes_linger (value : OptValue) :
    Writes .linger value c
      { c with lingerOn := if value.first = 0 then 0 else 1, lingerSecs := value.second } := by
  funext other
  cases other with
  | linger =>
    rw [Function.update_self]
    by_cases hoff : value.first = 0 <;> simp [OptRegister.stored, OptRegister.normalise, hoff]
  | _ => rfl

theorem mask_ne_zero (flag : FlagOption) : flag.mask ≠ 0 := by
  cases flag <;> decide

theorem mask_disjoint {flag other : FlagOption} (hne : other ≠ flag) :
    flag.mask &&& other.mask = 0#32 := by
  revert hne
  cases flag <;> cases other <;> decide

theorem mask_outside {flag other : FlagOption} (hne : other ≠ flag) :
    ~~~ flag.mask &&& other.mask = other.mask := by
  revert hne
  cases flag <;> cases other <;> decide

/-- Setting one bit leaves the other flags alone. -/
theorem writes_flag_on (flag : FlagOption) {value : OptValue} (hon : value.first ≠ 0) :
    Writes (.flag flag) value c { c with solFlags := c.solFlags ||| flag.mask } := by
  funext register
  cases register with
  | flag other =>
    by_cases hsame : other = flag
    · subst hsame
      have hset : (c.solFlags ||| other.mask) &&& other.mask = other.mask := by
        ext i
        simp only [BitVec.getElem_and, BitVec.getElem_or]
        cases c.solFlags[i] <;> cases other.mask[i] <;> rfl
      have hint : other.mask.toInt = other.optname := by cases other <;> decide
      rw [Function.update_self]
      simp only [OptRegister.stored, OptRegister.normalise, hset, if_neg hon,
        if_neg (mask_ne_zero other), hint]
    · have hother : (c.solFlags ||| flag.mask) &&& other.mask = c.solFlags &&& other.mask := by
        rw [BitVec.and_comm, BitVec.and_or_distrib_left, BitVec.and_comm other.mask flag.mask,
          mask_disjoint hsame, BitVec.or_zero, BitVec.and_comm]
      rw [Function.update_of_ne fun h ↦ hsame (OptRegister.flag.inj h)]
      simp only [OptRegister.stored, hother]
  | _ => rfl

/-- Clearing one bit leaves the other flags alone. -/
theorem writes_flag_off (flag : FlagOption) {value : OptValue} (hoff : value.first = 0) :
    Writes (.flag flag) value c { c with solFlags := c.solFlags &&& ~~~ flag.mask } := by
  funext register
  cases register with
  | flag other =>
    by_cases hsame : other = flag
    · subst hsame
      have hclear : c.solFlags &&& ~~~ other.mask &&& other.mask = 0 := by
        ext i
        simp
      rw [Function.update_self]
      simp only [OptRegister.stored, OptRegister.normalise, hclear, if_pos hoff, if_true]
    · have hother : c.solFlags &&& ~~~ flag.mask &&& other.mask = c.solFlags &&& other.mask := by
        rw [BitVec.and_assoc, mask_outside hsame]
      rw [Function.update_of_ne fun h ↦ hsame (OptRegister.flag.inj h)]
      simp only [OptRegister.stored, hother]
  | _ => rfl

end Write

/-! ## setsockopt -/

section Set

variable {x : Machine ShimState Unit} {sockfd optname : ℤ} {optval : Option OptValue} {optlen : ℕ}

abbrev optWp (program : ShimM α) (post : α → Machine ShimState Unit → Prop)
    (x : Machine ShimState Unit) : Prop :=
  wp optReply (fun _ _ ↦ True) program post x

/-- What a call may do to the shim: write one register and return 0, or change no register. -/
structure SetOutcome (sockfd : ℤ) (register : Option OptRegister) (optval : Option OptValue)
    (x : Machine ShimState Unit) (reply : ShimReply) (y : Machine ShimState Unit) : Prop where
  openMask : y.mem.openMask = x.mem.openMask
  accepting : y.mem.acceptingSockets = x.mem.acceptingSockets
  registers : (y.mem.compatSock = x.mem.compatSock ∧ (reply.code = 0 → register = none)) ∨
    (reply.code = 0 ∧ ∃ written value, register = some written ∧ optval = some value ∧
      ∃ c, Writes written value (x.mem.compatSock sockfd.toNat) c ∧
        y.mem.compatSock = Function.update x.mem.compatSock sockfd.toNat c)

theorem opt_fail {register : Option OptRegister} (error : ℤ) :
    optWp (fail error) (SetOutcome sockfd register optval x) x :=
  ⟨rfl, rfl, .inl ⟨rfl, nofun⟩⟩

theorem opt_lwipSetsockopt {level : ℤ} {value : Option OptValue} {size : ℕ}
    {post : ShimReply → Machine ShimState Unit → Prop}
    (hpost : ∀ code error : ℤ,
      post { code := code } { x with mem := { x.mem with errno := error } }) :
    optWp (lwipSetsockopt sockfd level optname value size) post x := by
  refine ⟨trivial, fun answer y hy ↦ ?_⟩
  obtain rfl := Option.some.inj hy
  exact hpost answer.code answer.errno

theorem opt_setNonblocking (on : Bool) :
    optWp (setNonblocking sockfd on) (SetOutcome sockfd none optval x) x := by
  refine ⟨trivial, fun answer y hy ↦ ?_⟩
  obtain rfl := Option.some.inj hy
  exact ⟨rfl, rfl, .inl ⟨rfl, fun _ ↦ rfl⟩⟩

theorem opt_compatSet {register : Option OptRegister} {set : ℤ → ShimM ShimReply}
    (hset : ∀ value : OptValue,
      optWp (set value.first) (SetOutcome sockfd register (some value) x) x) :
    optWp (compatSet optval optlen set) (SetOutcome sockfd register optval x) x := by
  cases optval with
  | none => exact opt_fail einval
  | some value =>
    rw [compatSet, compatInt]
    by_cases hshort : optlen < 4
    · rw [if_pos hshort]
      exact opt_fail einval
    · rw [if_neg hshort]
      exact hset value

/-- The outcome of a write to the record of the descriptor. -/
theorem setOutcome_write {written : OptRegister} {value : OptValue} {error : ℤ}
    {update : CompatSockState → CompatSockState}
    (hwrites : ∀ c, Writes written value c (update c)) :
    SetOutcome sockfd (some written) (some value) x {}
      { x with mem := ShimState.setCompat { x.mem with errno := error } sockfd.toNat update } where
  openMask := rfl
  accepting := rfl
  registers := .inr ⟨rfl, written, value, rfl, rfl, _, hwrites _, rfl⟩

/-- The same when `errno` is left alone. -/
theorem opt_storeCompat {written : OptRegister} {value : OptValue}
    {update : CompatSockState → CompatSockState}
    (hwrites : ∀ c, Writes written value c (update c)) :
    optWp (do
      storeCompat sockfd update
      pure {}) (SetOutcome sockfd (some written) (some value) x) x :=
  setOutcome_write hwrites

theorem opt_setSndbuf (value : OptValue) :
    optWp (setSndbuf sockfd value.first) (SetOutcome sockfd (some .sndbuf) (some value) x) x := by
  rw [setSndbuf, optWp, wp_ite]
  split
  · exact opt_fail einval
  · rw [wp_ite]
    split
    · refine (wp_bind _ _ _ _).mpr (opt_lwipSetsockopt fun code error ↦ ?_)
      rw [wp_ite]
      split
      · rename_i hfailed
        exact ⟨rfl, rfl, .inl ⟨rfl, fun hzero ↦ absurd hzero hfailed⟩⟩
      · exact setOutcome_write fun _ ↦ writes_sndbuf value
    · exact opt_storeCompat fun _ ↦ writes_sndbuf value

theorem opt_setRcvbuf (value : OptValue) :
    optWp (setRcvbuf sockfd value.first) (SetOutcome sockfd (some .rcvbuf) (some value) x) x := by
  rw [setRcvbuf, optWp, wp_ite]
  split
  · exact opt_fail einval
  · refine (wp_bind _ _ _ _).mpr (opt_lwipSetsockopt fun code error ↦ ?_)
    rw [wp_bind, wp_when]
    split
    · rename_i hzero
      have hcode : code = 0 := hzero
      subst hcode
      exact setOutcome_write fun _ ↦ writes_rcvbuf value
    · rename_i hfailed
      exact ⟨rfl, rfl, .inl ⟨rfl, fun hzero ↦ absurd hzero hfailed⟩⟩

theorem opt_setMaxseg (value : OptValue) :
    optWp (setMaxseg sockfd value.first) (SetOutcome sockfd (some .maxseg) (some value) x) x := by
  rw [setMaxseg, optWp, wp_ite]
  split
  · exact opt_fail einval
  · exact opt_storeCompat fun _ ↦ writes_maxseg value

/-- The two stores of `SO_LINGER` are one write. -/
theorem opt_setLinger :
    optWp (setLinger sockfd optval optlen) (SetOutcome sockfd (some .linger) optval x) x := by
  cases optval with
  | none => exact opt_fail einval
  | some value =>
    rw [setLinger, optWp, wp_ite]
    split
    · exact opt_fail einval
    · refine ⟨rfl, rfl, .inr ⟨rfl, _, value, rfl, rfl, _, writes_linger value, ?_⟩⟩
      simp only [ShimState.setCompat, Function.update_self, Function.update_idem]

theorem opt_flag (flag : FlagOption) (value : OptValue) :
    optWp (do
      compatFlagSet sockfd flag.mask (decide (value.first ≠ 0))
      pure {}) (SetOutcome sockfd (some (.flag flag)) (some value) x) x := by
  by_cases hoff : value.first = 0
  · rw [decide_eq_false (not_not.mpr hoff)]
    exact opt_storeCompat fun _ ↦ writes_flag_off flag hoff
  · rw [decide_eq_true hoff]
    exact opt_storeCompat fun _ ↦ writes_flag_on flag hoff

theorem exists_flagOption (h : isFlagOption optname = true) :
    ∃ flag : FlagOption, optname = flag.optname ∧
      optRegister nsnSolSocket optname = some (.flag flag) := by
  obtain rfl | rfl | rfl | rfl := of_decide_eq_true h
  · exact ⟨.dontroute, rfl, by decide⟩
  · exact ⟨.oobinline, rfl, by decide⟩
  · exact ⟨.tcpsack, rfl, by decide⟩
  · exact ⟨.winscale, rfl, by decide⟩

theorem optRegister_socket_none (hflag : ¬isFlagOption optname = true)
    (hsndbuf : optname ≠ nsnSoSndbuf) (hrcvbuf : optname ≠ nsnSoRcvbuf)
    (hmaxmsg : optname ≠ nsnSoMaxmsg) (hlinger : optname ≠ nsnSoLinger) :
    optRegister nsnSolSocket optname = none := by
  simp only [isFlagOption, decide_eq_true_eq, not_or] at hflag
  simp only [optRegister, if_true, if_neg hflag.1, if_neg hflag.2.1, if_neg hflag.2.2.1,
    if_neg hflag.2.2.2, if_neg hsndbuf, if_neg hrcvbuf, if_neg hmaxmsg, if_neg hlinger]

/-- A call that reaches lwIP writes no register. -/
theorem opt_forwarded {level lwopt : ℤ} {register : Option OptRegister}
    (hregister : register = none) :
    optWp (lwipSetsockopt sockfd level lwopt optval optlen)
      (SetOutcome sockfd register optval x) x :=
  opt_lwipSetsockopt fun _ _ ↦ ⟨rfl, rfl, .inl ⟨rfl, fun _ ↦ hregister⟩⟩

theorem opt_setSocketLevel :
    optWp (setSocketLevel sockfd optname optval optlen)
      (SetOutcome sockfd (optRegister nsnSolSocket optname) optval x) x := by
  unfold setSocketLevel
  refine wp_cases (fun hname ↦ ?_) fun _ ↦ ?_
  · subst hname
    exact opt_setNonblocking true
  refine wp_cases (fun hname ↦ ?_) fun _ ↦ ?_
  · subst hname
    exact opt_setNonblocking false
  refine wp_cases (fun hname ↦ ?_) fun _ ↦ ?_
  · subst hname
    exact opt_compatSet fun _ ↦ opt_setNonblocking _
  refine wp_cases (fun hflag ↦ ?_) fun hflag ↦ ?_
  · obtain ⟨flag, rfl, hregister⟩ := exists_flagOption hflag
    rw [hregister]
    exact opt_compatSet (opt_flag flag)
  refine wp_cases (fun hname ↦ ?_) fun _ ↦ ?_
  · subst hname
    exact opt_compatSet fun _ ↦ ⟨rfl, rfl, .inl ⟨rfl, fun _ ↦ rfl⟩⟩
  refine wp_cases (fun hname ↦ ?_) fun hsndbuf ↦ ?_
  · subst hname
    exact opt_compatSet opt_setSndbuf
  refine wp_cases (fun hname ↦ ?_) fun hrcvbuf ↦ ?_
  · subst hname
    exact opt_compatSet opt_setRcvbuf
  refine wp_cases (fun _ ↦ ?_) fun _ ↦ ?_
  · exact opt_fail enoprotoopt
  refine wp_cases (fun hname ↦ ?_) fun hmaxmsg ↦ ?_
  · subst hname
    exact opt_compatSet opt_setMaxseg
  refine wp_cases (fun hname ↦ ?_) fun hlinger ↦ ?_
  · subst hname
    exact opt_setLinger
  refine wp_cases (fun _ ↦ ?_) fun _ ↦ ?_
  · exact opt_fail enoprotoopt
  cases socketOptToLwip optname with
  | none => exact opt_fail enoprotoopt
  | some lwopt =>
    exact opt_forwarded (optRegister_socket_none hflag hsndbuf hrcvbuf hmaxmsg hlinger)

theorem opt_setTcpLevel :
    optWp (setTcpLevel sockfd optname optval optlen)
      (SetOutcome sockfd (optRegister nsnSolTcp optname) optval x) x := by
  unfold setTcpLevel
  refine wp_cases (fun hname ↦ ?_) fun _ ↦ ?_
  · subst hname
    exact opt_forwarded rfl
  refine wp_cases (fun hname ↦ ?_) fun _ ↦ ?_
  · subst hname
    exact opt_compatSet fun value ↦ opt_storeCompat fun _ ↦ writes_ackdelay value
  refine wp_cases (fun hname ↦ ?_) fun _ ↦ ?_
  · subst hname
    exact opt_compatSet fun value ↦ opt_storeCompat fun _ ↦ writes_noackdelay value
  refine wp_cases (fun hname ↦ ?_) fun _ ↦ ?_
  · subst hname
    exact opt_compatSet fun value ↦ opt_storeCompat fun _ ↦ writes_unknown value
  refine wp_cases (fun hname ↦ ?_) fun _ ↦ ?_
  · subst hname
    exact opt_compatSet opt_setMaxseg
  · exact opt_fail enoprotoopt

/-- One call of `setsockopt` on a descriptor of lwIP. -/
theorem opt_hookSetsockopt {level : ℤ} (howned : AxOwned sockfd x.mem) :
    optWp (hookSetsockopt sockfd level optname optval optlen)
      (SetOutcome sockfd (optRegister level optname) optval x) x := by
  unfold hookSetsockopt
  refine (wp_routed_owned howned).mpr ?_
  suffices hserved : ∀ y : Machine ShimState Unit, optWp _
      (SetOutcome sockfd (optRegister level optname) optval y) y from
    wp_mono (hserved _) fun _ _ h ↦ ⟨h.openMask, h.accepting, h.registers⟩
  intro y
  split
  · rename_i hlevel
    subst hlevel
    exact opt_setSocketLevel
  split
  · rename_i hlevel
    subst hlevel
    cases ipOptToLwip optname with
    | none => exact opt_fail enoprotoopt
    | some lwopt => exact opt_forwarded rfl
  split
  · rename_i hlevel
    subst hlevel
    exact opt_setTcpLevel
  · exact opt_fail enoprotoopt

end Set

/-! ## getsockopt -/

section Get

variable {W : Type} {reply : Replies ShimState W ShimCall ShimReply} {x : Machine ShimState W}
  {sockfd optname : ℤ} {optval : Bool} {optlen : Option ℕ}

/-- The outside does not write to the shim's memory. -/
def LeavesMemory (reply : Replies ShimState W ShimCall ShimReply) : Prop :=
  ∀ request answer x y, reply request answer x = some y → y.mem = x.mem

/-- The registers and what decides who owns a descriptor. -/
def optionView (s : ShimState) : BitVec 32 × ℤ × (ℕ → CompatSockState) :=
  (s.openMask, s.acceptingSockets, s.compatSock)

/-- Nothing changes, and a mirrored option reads as its register. -/
structure GetOutcome (sockfd : ℤ) (register : Option OptRegister) (x : Machine ShimState W)
    (reply : ShimReply) (y : Machine ShimState W) : Prop where
  view : optionView y.mem = optionView x.mem
  value : reply.code = 0 → ∀ read, register = some read →
    reply.value = some (x.mem.options sockfd.toNat read)

theorem getOutcome_fail {register : Option OptRegister} (error : ℤ) :
    wp reply (fun _ _ ↦ True) (fail error) (GetOutcome sockfd register x) x :=
  ⟨rfl, nofun⟩

theorem wp_optionView (hreply : LeavesMemory reply) {program : ShimM α}
    (hkeeps : Keeps optionView (fun _ ↦ True) program) {s : ShimState}
    (hx : optionView x.mem = optionView s) :
    wp reply (fun _ _ ↦ True) program (fun _ y ↦ optionView y.mem = optionView s) x := by
  refine wp_keeps hkeeps (fun y mem hview hy ↦ hview.trans hy) (fun request answer y z _ hy hz ↦ ?_)
    (fun _ _ _ _ ↦ trivial) hx
  rw [hreply request answer y z hz]
  exact hy

theorem getOutcome_frame (hreply : LeavesMemory reply) {program : ShimM ShimReply}
    (hkeeps : Keeps optionView (fun _ ↦ True) program) :
    wp reply (fun _ _ ↦ True) program (GetOutcome sockfd none x) x :=
  wp_mono (wp_optionView hreply hkeeps rfl) fun _ _ hview ↦ ⟨hview, fun _ ↦ nofun⟩

theorem keeps_lwipOption (request : LwipCall) :
    Keeps optionView (fun _ ↦ True) (lwip request) :=
  Keeps.bind (keeps_perform trivial) fun _ ↦
    Keeps.bind (keeps_store fun _ ↦ rfl) fun _ ↦ keeps_pure _

theorem keeps_failOption (error : ℤ) : Keeps optionView (fun _ ↦ True) (fail error) :=
  Keeps.bind (keeps_store fun _ ↦ rfl) fun _ ↦ keeps_pure _

theorem keeps_compatGetInt (value : ℤ) :
    Keeps optionView (fun _ ↦ True) (compatGetInt optval optlen value) :=
  Keeps.ite (keeps_pure _) (keeps_failOption einval)

theorem keeps_lwipGetsockopt (level lwopt : ℤ) :
    Keeps optionView (fun _ ↦ True) (lwipGetsockopt sockfd level lwopt) :=
  Keeps.bind (keeps_load _) fun _ ↦ Keeps.bind (keeps_lwipOption _) fun _ ↦ keeps_pure _

theorem keeps_getNonblock :
    Keeps optionView (fun _ ↦ True) (getNonblock sockfd optval optlen) := by
  refine Keeps.ite (Keeps.bind (keeps_load _) fun _ ↦ ?_) (keeps_failOption einval)
  exact Keeps.bind (keeps_lwipOption _) fun _ ↦ Keeps.ite (keeps_pure _) (keeps_pure _)

theorem keeps_getRxdata : Keeps optionView (fun _ ↦ True) (getRxdata sockfd optval optlen) := by
  refine Keeps.ite (Keeps.bind (keeps_load _) fun _ ↦ ?_) (keeps_failOption einval)
  exact Keeps.bind (keeps_lwipOption _) fun _ ↦ keeps_pure _

theorem keeps_getTxdata : Keeps optionView (fun _ ↦ True) (getTxdata sockfd optval optlen) :=
  Keeps.bind (keeps_lwipGetsockopt _ _) fun _ ↦ Keeps.ite (keeps_pure _) (keeps_compatGetInt _)

theorem keeps_getMyaddr : Keeps optionView (fun _ ↦ True) (getMyaddr optval optlen) :=
  Keeps.ite (Keeps.bind (keeps_perform trivial) fun _ ↦ keeps_pure _) (keeps_failOption einval)

theorem keeps_getLwipOption (lwopt : ℤ) :
    Keeps optionView (fun _ ↦ True) (getLwipOption sockfd optname lwopt optval optlen) :=
  Keeps.bind (keeps_lwipGetsockopt _ _) fun _ ↦ Keeps.ite (keeps_pure _) (keeps_pure _)

/-- An integer of the record. -/
theorem opt_getCompat {read : OptRegister} {view : CompatSockState → ℤ}
    (hview : ∀ c, OptRegister.stored c read = { first := view c }) :
    wp reply (fun _ _ ↦ True) (getCompat sockfd optval optlen view)
      (GetOutcome sockfd (some read) x) x := by
  refine (wp_ite _ _ _ _ _).mpr ?_
  split
  · refine ⟨rfl, fun _ other hother ↦ ?_⟩
    obtain rfl := Option.some.inj hother
    exact congrArg some (hview _).symm
  · exact getOutcome_fail einval

theorem opt_getFlag (flag : FlagOption) :
    wp reply (fun _ _ ↦ True) (getFlag sockfd flag.optname optval optlen)
      (GetOutcome sockfd (some (.flag flag)) x) x :=
  opt_getCompat fun _ ↦ rfl

theorem opt_getLinger :
    wp reply (fun _ _ ↦ True) (getLinger sockfd optval optlen)
      (GetOutcome sockfd (some .linger) x) x := by
  rw [getLinger, wp_ite]
  split
  · refine ⟨rfl, fun _ other hother ↦ ?_⟩
    obtain rfl := Option.some.inj hother
    rfl
  · exact getOutcome_fail einval

theorem opt_getSocketLevel (hreply : LeavesMemory reply) :
    wp reply (fun _ _ ↦ True) (getSocketLevel sockfd optname optval optlen)
      (GetOutcome sockfd (optRegister nsnSolSocket optname) x) x := by
  unfold getSocketLevel
  refine wp_cases (fun hname ↦ ?_) fun _ ↦ ?_
  · subst hname
    exact getOutcome_frame hreply keeps_getNonblock
  refine wp_cases (fun _ ↦ ?_) fun _ ↦ ?_
  · exact getOutcome_fail enoprotoopt
  refine wp_cases (fun hflag ↦ ?_) fun hflag ↦ ?_
  · obtain ⟨flag, rfl, hregister⟩ := exists_flagOption hflag
    rw [hregister]
    exact opt_getFlag flag
  refine wp_cases (fun hname ↦ ?_) fun _ ↦ ?_
  · subst hname
    exact getOutcome_frame hreply keeps_getRxdata
  refine wp_cases (fun hname ↦ ?_) fun _ ↦ ?_
  · subst hname
    exact getOutcome_frame hreply keeps_getTxdata
  refine wp_cases (fun hname ↦ ?_) fun _ ↦ ?_
  · subst hname
    exact getOutcome_frame hreply keeps_getMyaddr
  refine wp_cases (fun hname ↦ ?_) fun hsndbuf ↦ ?_
  · subst hname
    exact opt_getCompat fun _ ↦ rfl
  refine wp_cases (fun hname ↦ ?_) fun hrcvbuf ↦ ?_
  · subst hname
    exact opt_getCompat fun _ ↦ rfl
  refine wp_cases (fun hname ↦ ?_) fun _ ↦ ?_
  · obtain rfl | rfl | rfl := hname <;> exact getOutcome_frame hreply (keeps_compatGetInt 0)
  refine wp_cases (fun hname ↦ ?_) fun hmaxmsg ↦ ?_
  · subst hname
    exact opt_getCompat fun _ ↦ rfl
  refine wp_cases (fun hname ↦ ?_) fun hlinger ↦ ?_
  · subst hname
    exact opt_getLinger
  have hregister : optRegister nsnSolSocket optname = none :=
    optRegister_socket_none hflag hsndbuf hrcvbuf hmaxmsg hlinger
  cases socketOptToLwip optname with
  | none => exact getOutcome_fail enoprotoopt
  | some lwopt =>
    rw [hregister]
    exact getOutcome_frame hreply (keeps_getLwipOption lwopt)

theorem opt_getTcpLevel (hreply : LeavesMemory reply) :
    wp reply (fun _ _ ↦ True) (getTcpLevel sockfd optname optval optlen)
      (GetOutcome sockfd (optRegister nsnSolTcp optname) x) x := by
  unfold getTcpLevel
  refine wp_cases (fun hname ↦ ?_) fun _ ↦ ?_
  · subst hname
    exact getOutcome_frame hreply (keeps_lwipGetsockopt _ _)
  refine wp_cases (fun hname ↦ ?_) fun _ ↦ ?_
  · subst hname
    exact opt_getCompat fun _ ↦ rfl
  refine wp_cases (fun hname ↦ ?_) fun _ ↦ ?_
  · subst hname
    exact opt_getCompat fun _ ↦ rfl
  refine wp_cases (fun hname ↦ ?_) fun _ ↦ ?_
  · subst hname
    exact opt_getCompat fun _ ↦ rfl
  refine wp_cases (fun hname ↦ ?_) fun _ ↦ ?_
  · subst hname
    exact opt_getCompat fun _ ↦ rfl
  · exact getOutcome_fail enoprotoopt

/-- One call of `getsockopt` on a descriptor of lwIP. -/
theorem opt_hookGetsockopt (hreply : LeavesMemory reply) {level : ℤ}
    (howned : AxOwned sockfd x.mem) :
    wp reply (fun _ _ ↦ True) (hookGetsockopt sockfd level optname optval optlen)
      (GetOutcome sockfd (optRegister level optname) x) x := by
  unfold hookGetsockopt
  refine (wp_routed_owned howned).mpr ?_
  suffices hserved : ∀ y : Machine ShimState W, wp reply (fun _ _ ↦ True) _
      (GetOutcome sockfd (optRegister level optname) y) y from
    wp_mono (hserved _) fun _ _ h ↦ ⟨h.view, h.value⟩
  intro y
  split
  · rename_i hlevel
    subst hlevel
    exact opt_getSocketLevel hreply
  split
  · rename_i hlevel
    subst hlevel
    cases ipOptToLwip optname with
    | none => exact getOutcome_fail enoprotoopt
    | some lwopt => exact getOutcome_frame hreply (keeps_lwipGetsockopt _ _)
  split
  · rename_i hlevel
    subst hlevel
    exact opt_getTcpLevel hreply
  · exact getOutcome_fail enoprotoopt

/-- A buffer of 8 bytes holds every option. -/
theorem opt_getCompat_room {n : ℕ} (hroom : 8 ≤ n) (view : CompatSockState → ℤ) :
    wp reply (fun _ _ ↦ True) (getCompat sockfd true (some n) view) (fun r _ ↦ r.code = 0) x := by
  have hint : 4 ≤ n := by omega
  exact wp_cases (fun _ ↦ rfl) fun hsmall ↦ absurd (decide_eq_true ⟨rfl, hint⟩) hsmall

theorem opt_getLinger_room {n : ℕ} (hroom : 8 ≤ n) :
    wp reply (fun _ _ ↦ True) (getLinger sockfd true (some n)) (fun r _ ↦ r.code = 0) x :=
  wp_cases (fun _ ↦ rfl) fun hsmall ↦ absurd (decide_eq_true ⟨rfl, hroom⟩) hsmall

/-- A mirrored option is read whenever there is room for it. -/
theorem opt_hookGetsockopt_room {level : ℤ} {register : OptRegister} {n : ℕ} (hroom : 8 ≤ n)
    (howned : AxOwned sockfd x.mem) (hregister : optRegister level optname = some register) :
    wp reply (fun _ _ ↦ True) (hookGetsockopt sockfd level optname true (some n))
      (fun r _ ↦ r.code = 0) x := by
  refine (wp_routed_owned howned).mpr ?_
  unfold optRegister at hregister
  split at hregister
  · subst level
    repeat' split at hregister
    all_goals first
      | (subst optname; exact opt_getCompat_room hroom _)
      | (subst optname; exact opt_getLinger_room hroom)
      | cases hregister
  split at hregister
  · subst level
    repeat' split at hregister
    all_goals first
      | (subst optname; exact opt_getCompat_room hroom _)
      | cases hregister
  · cases hregister

/-! ## Creation -/

/-- One descriptor may join `open_mask`, with the options of a fresh socket. -/
def Tracks (s t : ShimState) : Prop :=
  t.acceptingSockets = s.acceptingSockets ∧
    (t.openMask = s.openMask ∨ ∃ fd < 32, t.openMask = s.openMask ||| bit fd ∧
      t.compatSock fd = freshCompat)

theorem Tracks.congr {s s' t t' : ShimState} (h : Tracks s t)
    (hs : optionView s = optionView s') (ht : optionView t' = optionView t) : Tracks s' t' := by
  simp only [optionView, Prod.mk.injEq] at hs ht
  simp only [Tracks, ← hs, ht]
  exact h

theorem tracks_none {s t : ShimState} (hview : optionView t = optionView s) : Tracks s t := by
  simp only [optionView, Prod.mk.injEq] at hview
  exact ⟨hview.2.1, .inl hview.1⟩

theorem wp_tracks_none (hreply : LeavesMemory reply) {program : ShimM α} {s : ShimState}
    (hkeeps : Keeps optionView (fun _ ↦ True) program) (hx : optionView x.mem = optionView s) :
    wp reply (fun _ _ ↦ True) program (fun _ y ↦ Tracks s y.mem) x :=
  wp_mono (wp_optionView hreply hkeeps hx) fun _ _ hview ↦ tracks_none hview

theorem keeps_callNativeOption (request : Export) :
    Keeps optionView (fun _ ↦ True) (callNative request) :=
  Keeps.bind (keeps_store fun _ ↦ rfl) fun _ ↦ keeps_perform trivial

theorem keeps_socketRouteOption (domain : ℤ) :
    Keeps optionView (fun _ ↦ True) (socketRoute domain) := by
  refine Keeps.bind (keeps_load _) fun _ ↦ Keeps.ite (keeps_pure _) ?_
  refine Keeps.bind keeps_shimAccepts fun _ ↦ Keeps.ite (keeps_pure _) ?_
  exact Keeps.bind (keeps_perform trivial) fun _ ↦ keeps_pure _

theorem keeps_lwipSocketOption (domain type protocol : ℤ) :
    Keeps optionView (fun _ ↦ True) (lwipSocket domain type protocol) := by
  refine Keeps.bind (keeps_lwipOption _) fun _ ↦ Keeps.ite ?_ (keeps_pure _)
  exact Keeps.bind (keeps_lwipOption _) fun _ ↦ keeps_pure _

theorem keeps_socketDefaultsOption (lwfd type : ℤ) :
    Keeps optionView (fun _ ↦ True) (socketDefaults lwfd type) :=
  Keeps.bind (keeps_ignore (keeps_lwipOption _)) fun _ ↦
    Keeps.bind (Keeps.when (keeps_ignore (keeps_lwipOption _))) fun _ ↦
      Keeps.when (keeps_ignore (keeps_lwipOption _))

theorem keeps_noteActivityOption : Keeps optionView (fun _ ↦ True) noteActivity := by
  refine keeps_store fun s ↦ ?_
  split <;> rfl

theorem wp_trackFd (hreply : LeavesMemory reply) {fd : ℕ} (hfd : fd < 32) (lwfd : ℤ)
    {s : ShimState} (hx : optionView x.mem = optionView s) :
    wp reply (fun _ _ ↦ True) (trackFd fd lwfd) (fun _ y ↦ Tracks s y.mem) x := by
  refine ⟨trivial, fun answer y hy ↦ ?_⟩
  have htracks : Tracks x.mem y.mem := by
    rw [hreply _ _ _ _ hy]
    exact ⟨rfl, .inr ⟨fd, hfd, rfl, Function.update_self fd _ _⟩⟩
  exact htracks.congr hx rfl

theorem wp_placeholder (hreply : LeavesMemory reply) (lwfd type protocol : ℤ) {s : ShimState}
    (hx : optionView x.mem = optionView s) :
    wp reply (fun _ _ ↦ True) (placeholder lwfd type protocol) (fun _ y ↦ Tracks s y.mem) x := by
  refine wp_seq (wp_optionView hreply (keeps_perform trivial) hx) fun fd y hy ↦ ?_
  rw [wp_ite]
  split
  · refine wp_tracks_none hreply (Keeps.bind (Keeps.when (keeps_ignore (keeps_perform trivial)))
      fun _ ↦ Keeps.bind (keeps_ignore (keeps_lwipOption _)) fun _ ↦ ?_) hy
    exact Keeps.bind (show Keeps _ _ (setErrno emfile) from keeps_store fun _ ↦ rfl) fun _ ↦
      keeps_pure _
  · rename_i hrange
    have hfd : fd.code.toNat < 32 := by omega
    exact wp_seq (wp_trackFd hreply hfd lwfd hy) fun _ z hz ↦ hz

/-- `socket` adds at most its own descriptor to `open_mask`. -/
theorem wp_hookSocket_tracks (hreply : LeavesMemory reply) (domain type protocol : ℤ) :
    wp reply (fun _ _ ↦ True) (hookSocket domain type protocol)
      (fun _ y ↦ Tracks x.mem y.mem) x := by
  refine wp_seq (wp_optionView hreply (keeps_socketRouteOption domain) rfl) fun route y hy ↦ ?_
  rw [wp_ite]
  split
  · exact wp_tracks_none hreply (keeps_callNativeOption _) hy
  refine wp_seq (wp_optionView hreply (show Keeps _ _ (setErrno 0) from keeps_store fun _ ↦ rfl) hy)
    fun _ y hy ↦ ?_
  refine wp_seq (wp_optionView hreply (keeps_lwipSocketOption domain type protocol) hy)
    fun s y hy ↦ ?_
  rw [wp_ite]
  split
  · exact tracks_none hy
  refine wp_seq (wp_optionView hreply (keeps_socketDefaultsOption s _) hy) fun _ y hy ↦ ?_
  refine wp_seq (wp_placeholder hreply s _ protocol hy) fun fd y htracks ↦ ?_
  cases fd with
  | none => exact htracks
  | some fd =>
    refine wp_seq (wp_optionView hreply keeps_noteActivityOption rfl) fun _ z hz ↦ ?_
    exact htracks.congr rfl hz

/-- So does `accept`. -/
theorem wp_hookAccept_tracks (hreply : LeavesMemory reply) (sockfd : ℤ) (addr : Bool)
    (addrlen : Option ℕ) :
    wp reply (fun _ _ ↦ True) (hookAccept sockfd addr addrlen)
      (fun _ y ↦ Tracks x.mem y.mem) x := by
  refine wp_seq (wp_optionView hreply (keeps_isForeign sockfd) rfl) fun foreign y hy ↦ ?_
  rw [wp_ite]
  split
  · exact wp_tracks_none hreply (keeps_callNativeOption _) hy
  refine wp_seq (wp_optionView hreply (show Keeps _ _ (setErrno 0) from keeps_store fun _ ↦ rfl) hy)
    fun _ y hy ↦ ?_
  rw [wp_ite]
  split
  · exact wp_tracks_none hreply (keeps_failOption _) hy
  refine wp_seq (wp_optionView hreply (keeps_stackFd sockfd) hy) fun lwfd y hy ↦ ?_
  refine wp_seq (wp_optionView hreply (keeps_lwipOption _) hy) fun s y hy ↦ ?_
  rw [wp_ite]
  split
  · exact tracks_none hy
  refine wp_seq (wp_optionView hreply (keeps_ignore (keeps_lwipOption _)) hy) fun _ y hy ↦ ?_
  refine wp_seq (wp_optionView hreply (keeps_ignore (keeps_lwipOption _)) hy) fun _ y hy ↦ ?_
  refine wp_seq (wp_placeholder hreply s.code _ 0 hy) fun fd y htracks ↦ ?_
  cases fd with
  | none => exact htracks
  | some fd => exact htracks

/-- A descriptor that a call made one of lwIP has the options of a fresh socket. -/
theorem Tracks.fresh {s t : ShimState} (h : Tracks s t) {fd : ℤ} (hbefore : ¬AxOwned fd s)
    (hafter : AxOwned fd t) : t.compatSock fd.toNat = freshCompat := by
  obtain ⟨haccepting, hsame | ⟨created, hlt, hmask, hfresh⟩⟩ := h
  · refine absurd ⟨haccepting ▸ hafter.accepting, hafter.nonneg, hafter.lt, ?_⟩ hbefore
    rw [← hsame]
    exact hafter.tracked
  · have htracked := hafter.tracked
    rw [hmask, getLsbD_or_bit hlt] at htracked
    obtain rfl | hold := htracked
    · exact hfresh
    · exact absurd ⟨haccepting ▸ hafter.accepting, hafter.nonneg, hafter.lt, hold⟩ hbefore

end Get

/-! ## Runs -/

section Runs

variable {x y z : Machine ShimState Unit} {fd : ℤ}

theorem leavesMemory_optReply : LeavesMemory optReply := by
  intro request answer x y h
  rw [← Option.some.inj h]

theorem Created.owned (h : Created fd x) : AxOwned fd x.mem := by
  cases h with
  | socket before after exec => exact after
  | accept before after exec => exact after

theorem Created.fresh (h : Created fd x) : x.mem.options fd.toNat = OptRegister.fresh := by
  suffices hfresh : x.mem.compatSock fd.toNat = freshCompat by
    rw [ShimState.options, hfresh, OptRegister.stored_freshCompat]
  cases h with
  | socket before after exec =>
    exact (exec.post_of_wp (wp_hookSocket_tracks leavesMemory_optReply _ _ _)).fresh before after
  | accept before after exec =>
    exact (exec.post_of_wp (wp_hookAccept_tracks leavesMemory_optReply _ _ _)).fresh before after

theorem AxOwned.of_view {s t : ShimState} (h : AxOwned fd s) (hmask : t.openMask = s.openMask)
    (haccepting : t.acceptingSockets = s.acceptingSockets) : AxOwned fd t :=
  ⟨haccepting ▸ h.accepting, h.nonneg, h.lt, hmask ▸ h.tracked⟩

theorem lastWritten_append (register : OptRegister) (history : List OptEvent) (event : OptEvent) :
    lastWritten fd register (history ++ [event]) =
      ((event.written fd register).map register.normalise).getD
        (lastWritten fd register history) := by
  rw [lastWritten, List.filterMap_append]
  cases hwritten : event.written fd register with
  | none => simp [hwritten, lastWritten]
  | some value => simp [hwritten]

/-- One call: the registers of `fd` change as its history says. -/
theorem opt_step {event : OptEvent} (howned : AxOwned event.call.sockfd y.mem) (hfd : 0 ≤ fd)
    (hexec : Exec optReply event.call.program y event.reply z) :
    z.mem.openMask = y.mem.openMask ∧ z.mem.acceptingSockets = y.mem.acceptingSockets ∧
      ∀ register, z.mem.options fd.toNat register =
        ((event.written fd register).map register.normalise).getD
          (y.mem.options fd.toNat register) := by
  obtain ⟨call, reply⟩ := event
  cases call with
  | get sockfd level optname optval optlen =>
    have hout := hexec.post_of_wp (opt_hookGetsockopt leavesMemory_optReply howned)
    have hview := hout.view
    simp only [optionView, Prod.mk.injEq] at hview
    refine ⟨hview.1, hview.2.1, fun register ↦ ?_⟩
    rw [ShimState.options, hview.2.2]
    rfl
  | set sockfd level optname optval optlen =>
    have hout := hexec.post_of_wp (opt_hookSetsockopt howned)
    refine ⟨hout.openMask, hout.accepting, fun register ↦ ?_⟩
    simp only [OptEvent.written, ShimState.options]
    obtain ⟨hsame, hfailed⟩ | ⟨hcode, written, value, hregister, rfl, c, hwrites, hcompat⟩ :=
      hout.registers
    · rw [hsame, if_neg]
      · rfl
      · rintro ⟨hzero, -, hregister⟩
        rw [hfailed hzero] at hregister
        cases hregister
    · rw [hcompat]
      by_cases hsame : sockfd = fd
      · subst hsame
        rw [Function.update_self, hwrites]
        by_cases hwritten : register = written
        · subst hwritten
          rw [Function.update_self, if_pos ⟨hcode, rfl, hregister⟩]
          rfl
        · rw [Function.update_of_ne hwritten, if_neg]
          · rfl
          · rintro ⟨-, -, hother⟩
            exact hwritten (Option.some.inj (hother.symm.trans hregister))
      · have hne : fd.toNat ≠ sockfd.toNat := by
          have hsock := howned.nonneg
          change 0 ≤ sockfd at hsock
          omega
        rw [Function.update_of_ne hne, if_neg fun h ↦ hsame h.2.1]
        rfl

/-- After any calls, the registers of `fd` hold what was last written to them. -/
theorem OptRun.registers {history : List OptEvent} (hcreated : Created fd x)
    (hrun : OptRun x history y) :
    AxOwned fd y.mem ∧
      ∀ register, y.mem.options fd.toNat register = lastWritten fd register history := by
  induction hrun with
  | start =>
    refine ⟨hcreated.owned, fun register ↦ ?_⟩
    rw [hcreated.fresh]
    rfl
  | step rest howned hexec ih =>
    obtain ⟨hmask, haccepting, hregisters⟩ := opt_step howned hcreated.owned.nonneg hexec
    refine ⟨ih.1.of_view hmask haccepting, fun register ↦ ?_⟩
    rw [hregisters, ih.2, lastWritten_append]

/-- A successful `getsockopt` of a mirrored option returns what the last successful `setsockopt` of
the same register of the same descriptor gave it, and a failing `setsockopt` changes no register. -/
theorem sockopt_registers {history : List OptEvent} (hcreated : Created fd x)
    (hrun : OptRun x history y) :
    (∀ level optname optval optlen reply z register,
      Exec optReply (hookGetsockopt fd level optname optval optlen) y reply z → reply.code = 0 →
      optRegister level optname = some register →
        reply.value = some (lastWritten fd register history)) ∧
    ∀ sockfd level optname optval optlen reply z, AxOwned sockfd y.mem →
      Exec optReply (hookSetsockopt sockfd level optname optval optlen) y reply z →
      reply.code = -1 → ∀ other, z.mem.options other = y.mem.options other := by
  obtain ⟨howned, hregisters⟩ := hrun.registers hcreated
  constructor
  · intro level optname optval optlen reply z register hexec hcode hregister
    have hout := hexec.post_of_wp (opt_hookGetsockopt leavesMemory_optReply howned)
    rw [hout.value hcode register hregister, hregisters]
  · intro sockfd level optname optval optlen reply z hsockfd hexec hcode other
    have hout := hexec.post_of_wp (opt_hookSetsockopt hsockfd)
    obtain ⟨hsame, -⟩ | ⟨hzero, -⟩ := hout.registers
    · rw [ShimState.options, ShimState.options, hsame]
    · rw [hcode] at hzero
      cases hzero

/-- A title without sockets. -/
def bareTitle : Machine ShimState Unit := { mem := { acceptingSockets := 1 }, world := () }

/-- `SO_MAXMSG` of 536 bytes. -/
def maxmsgEvent : OptEvent :=
  { call := .set 3 nsnSolSocket nsnSoMaxmsg (some { first := 536 }) 4, reply := {} }

/-- `TCP_MAXSEG` reads what `SO_MAXMSG` wrote. -/
theorem sockopt_registers_maxseg :
    ∃ x y z reply, Created 3 x ∧ OptRun x [maxmsgEvent] y ∧
      Exec optReply (hookGetsockopt 3 nsnSolTcp nsnTcpMaxseg true (some 4)) y reply z ∧
      reply.value = some { first := 536 } := by
  obtain ⟨x, y, z, reply, hsocket, howned, hset, hget, hcode⟩ : ∃ x y z reply,
      Exec optReply (hookSocket nsnAfInet sockStream 0) bareTitle { code := 3 } x ∧
      AxOwned 3 x.mem ∧ Exec optReply maxmsgEvent.call.program x maxmsgEvent.reply y ∧
      Exec optReply (hookGetsockopt 3 nsnSolTcp nsnTcpMaxseg true (some 4)) y reply z ∧
      reply.code = 0 :=
    ⟨_, _, _, _,
      exec_of_run (show run optReply _ [{ code := 1 }, { code := 5 }, {}, {}, { code := 3 }, {}]
        bareTitle = some (_, _, []) from rfl),
      ⟨by decide, by decide, by decide, by decide⟩,
      exec_of_run (show run optReply _ [] _ = some (_, _, []) from rfl),
      exec_of_run (show run optReply _ [] _ = some (_, _, []) from rfl), rfl⟩
  have hcreated : Created 3 x := .socket (fun h ↦ absurd h.tracked (by decide)) howned hsocket
  have hrun : OptRun x [maxmsgEvent] y := .step .start howned hset
  exact ⟨x, y, z, reply, hcreated, hrun, hget,
    (sockopt_registers hcreated hrun).1 _ _ _ _ reply z .maxseg hget hcode (by decide)⟩

end Runs

end Ax88179Aroma.Shim
