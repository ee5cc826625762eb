import Ax88179Aroma.Shim.Sockets

/-!
# DNS hooks

Name resolution.  Lists that the shim builds are remembered in `ai_owned`, so that `freeaddrinfo`
frees only those; asynchronous lookups are kept in a table of slots keyed by the host name, and a
callback of lwIP names its slot by a token with the ticket of the request.
-/

namespace Ax88179Aroma.Shim

open Effect Program

def nsnEaiFail : ℤ := 4
def nsnEaiFamily : ℤ := 5
def nsnEaiMemory : ℤ := 6
def nsnEaiNoname : ℤ := 8
def nsnEaiService : ℤ := 9
def nsnEaiBadhints : ℤ := 12
def nsnEaiInprogress : ℤ := 15
def nsnNiNamereqd : BitVec 32 := 0x0004
def dnsMaxServers : ℕ := 2
def dnsMaxNameLength : ℕ := 256

/-- Whether the DNS hooks serve the call themselves. -/
def dnsRoute : ShimM Bool := do
  let accepting ← shimAccepts
  if accepting = false then pure false
  else do
    let ready ← os .axNetStackReady
    pure (decide (ready.code ≠ 0))

/-- The shape of the DNS hooks. -/
def dnsRouted (request : Export) (served : ShimM ShimReply) : ShimM ShimReply := do
  let route ← dnsRoute
  if route then served else native request

def dnsRewriteName (name : String) : String :=
  if name = "nncs1.app.nintendowifi.net" then "nncs1.app.pretendo.cc"
  else if name = "nncs2.app.nintendowifi.net" then "nncs2.app.pretendo.cc"
  else name

/-! ## Hosts -/

/-- lwIP's values of `h_errno` to nsysnet's. -/
def hErrnoToNsn (e : ℤ) : ℤ :=
  if e = 210 then 1 else if e = 213 then 2 else if e = 212 then 3 else if e = 211 then 4 else e

def hookGethostbyname (name : Option String) : ShimM ShimReply :=
  dnsRouted (.gethostbyname name) do
    let h ← lwip (.gethostbyname (name.map dnsRewriteName))
    store fun s ↦ { s with hErrno := if h.code = 0 then hErrnoToNsn h.hErrno else h.hErrno }
    pure h

/-- The four bytes of an address, the first one on the wire first. -/
def addressBytes (addr : UInt32) : List ℕ :=
  [addr.toNat / 2 ^ 24, addr.toNat / 2 ^ 16 % 2 ^ 8, addr.toNat / 2 ^ 8 % 2 ^ 8, addr.toNat % 2 ^ 8]

def dotted (bytes : List ℕ) : String := ".".intercalate (bytes.map toString)

/-- Ask the configured servers in turn. -/
def ptrDnsServers (reverseName : String) : List ℕ → ShimM (Option String)
  | [] => pure none
  | i :: rest => do
    let server ← lwip (.dnsGetserver i)
    if server.ip = 0 then ptrDnsServers reverseName rest
    else do
      let answer ← lwip (.ptrDnsQueryServer server.ip reverseName)
      if answer.code = 0 then pure answer.host else ptrDnsServers reverseName rest

def ptrDnsLookupIpv4 (addr : UInt32) : ShimM (Option String) :=
  ptrDnsServers (dotted (addressBytes addr).reverse ++ ".in-addr.arpa") (List.range dnsMaxServers)

def hookGethostbyaddr (addr : Option UInt32) (len : ℕ) (type : ℤ) : ShimM ShimReply :=
  dnsRouted (.gethostbyaddr addr len type) do
    match addr with
    | none => pure {}
    | some address =>
      if len ≠ 4 ∨ type ≠ nsnAfInet then pure {}
      else do
        let saved ← load ShimState.errno
        let host ← ptrDnsLookupIpv4 address
        setErrno saved
        pure { code := if host.isSome then 1 else 0, host := host }

/-! ## Address lists -/

/-- The compare-exchange of one entry of `ai_owned`. -/
def swapOwned (i expected desired : ℕ) (s : ShimState) : Bool × ShimState :=
  if s.aiOwned i = expected then (true, { s with aiOwned := Function.update s.aiOwned i desired })
  else (false, s)

/-- The first entry of a list where the compare-exchange succeeds. -/
def swapAny (expected desired : ℕ) : List ℕ → ShimM Bool
  | [] => pure false
  | i :: rest => do
    let swapped ← access (swapOwned i expected desired)
    if swapped then pure true else swapAny expected desired rest

/-- A scan without interference either swaps one entry or leaves the table as it is. -/
theorem wp_swapAny {W : Type} {reply : Replies ShimState W ShimCall ShimReply}
    {pre : ShimCall → Machine ShimState W → Prop} {expected desired : ℕ} {items : List ℕ}
    {post : Bool → Machine ShimState W → Prop} {x : Machine ShimState W}
    (hfound : ∀ i ∈ items, x.mem.aiOwned i = expected → post true
      { x with mem := { x.mem with aiOwned := Function.update x.mem.aiOwned i desired } })
    (hnone : post false x) : wp reply pre (swapAny expected desired items) post x := by
  induction items with
  | nil => exact hnone
  | cons i rest ih =>
    refine (wp_bind _ _ _ _).mpr ((wp_access _ _ _).mpr ?_)
    unfold swapOwned
    by_cases hi : x.mem.aiOwned i = expected
    · rw [if_pos hi]
      exact hfound i List.mem_cons_self hi
    · rw [if_neg hi]
      exact ih fun j hj ↦ hfound j (List.mem_cons_of_mem i hj)

theorem total_swapAny (expected desired : ℕ) (items : List ℕ) :
    Total (swapAny expected desired items) := by
  induction items with
  | nil => exact total_pure _
  | cons i rest ih => exact (total_access _).bind fun _ ↦ Total.ite (fun _ ↦ total_pure _) fun _ ↦ ih

def aiRemember (head : ℕ) : ShimM Bool := swapAny 0 head (List.range aiOwnedMax)

def aiIsOurs (head : ℕ) : ShimM Bool :=
  if head = 0 then pure false else swapAny head 0 (List.range aiOwnedMax)

def eaiToNsn (e : ℤ) : ℤ :=
  if e = 200 then nsnEaiNoname
  else if e = 201 then nsnEaiService
  else if e = 203 then nsnEaiMemory
  else if e = 204 then nsnEaiFamily
  else nsnEaiFail

def aiFlagsToLwip (f : BitVec 32) : BitVec 32 :=
  flagTo f 0x01 0x01 ||| flagTo f 0x02 0x02 ||| flagTo f 0x04 0x04 ||| flagTo f 0x08 0x10 |||
    flagTo f 0x10 0x20 ||| flagTo f 0x20 0x40

/-- The node of nsysnet's list for a node of lwIP's. -/
def infoToNsn (info : Addrinfo) : Addrinfo :=
  { info with aiAddr := info.aiAddr.bind (sockaddrToNsn 16) }

/-- Append a node behind `last`, where there is one. -/
def linkNode (last : Option ℕ) (node : ℕ) : ShimM Unit :=
  store fun s ↦ { s with
    aiNext := match last with
      | none => Function.update s.aiNext node 0
      | some last => Function.update (Function.update s.aiNext node 0) last node }

/-- Convert lwIP's list; the pointers of the nodes so far, and whether the heap gave out. -/
def convertInfos : List Addrinfo → List ℕ → ShimM (Bool × List ℕ)
  | [], nodes => pure (true, nodes)
  | _ :: rest, nodes => do
    let node ← os .malloc
    if node.code ≤ 0 then pure (false, nodes)
    else do
      linkNode nodes.getLast? node.code.toNat
      convertInfos rest (nodes ++ [node.code.toNat])

/-- The label `fail` of `shim_getaddrinfo_sync`. -/
def dropInfos (nodes : List ℕ) : ShimM ShimReply := do
  ignore (lwip .freeaddrinfo)
  each (fun node ↦ ignore (os (.free node))) nodes
  pure { code := nsnEaiMemory }

def shimGetaddrinfoSync (node service : Option String) (hints : Option Addrinfo) (res : Bool) :
    ShimM ShimReply :=
  if res = false then pure { code := nsnEaiFail }
  else do
    let lh := hints.map fun h ↦ { h with aiFlags := aiFlagsToLwip h.aiFlags }
    let lres ← lwip (.getaddrinfo (node.map dnsRewriteName) service lh)
    if lres.code ≠ 0 then pure { code := eaiToNsn lres.code }
    else do
      let built ← convertInfos lres.infos []
      if built.1 = false then dropInfos built.2
      else do
        let kept ← aiRemember (built.2.headD 0)
        if kept = false then dropInfos built.2
        else do
          ignore (lwip .freeaddrinfo)
          pure { infos := lres.infos.map infoToNsn, results := [built.2.headD 0] }

def hookGetaddrinfo (node service : Option String) (hints : Option Addrinfo) (res : Bool) :
    ShimM ShimReply :=
  dnsRouted (.getaddrinfo node service hints res) (shimGetaddrinfoSync node service hints res)

def hookGetaddrinfoRs (node service : Option String) (hints : Option Addrinfo) (res : Bool) :
    ShimM ShimReply :=
  dnsRouted (.getaddrinfoRs node service hints res) (shimGetaddrinfoSync node service hints res)

/-- Free a list of the shim from `node` on. -/
def freeNodes : ℕ → ℕ → ShimM Unit
  | 0, _ => .diverge
  | fuel + 1, node =>
    if node = 0 then pure ()
    else do
      let next ← load fun s ↦ s.aiNext node
      ignore (os (.free node))
      freeNodes fuel next

def hookFreeaddrinfo (res fuel : ℕ) : ShimM ShimReply := do
  let ours ← aiIsOurs res
  if ours = false then native (.freeaddrinfo res)
  else do
    freeNodes fuel res
    pure {}

/-! ## Asynchronous lookups -/

/-- The test-and-set of the table lock. -/
def tryLock (s : ShimState) : Bool × ShimState :=
  (!s.asyncDnsTableLock, { s with asyncDnsTableLock := true })

def asyncDnsLock : ℕ → ShimM Unit
  | 0 => .diverge
  | fuel + 1 => do
    let free ← access tryLock
    if free then pure ()
    else do
      ignore (os .osYieldThread)
      asyncDnsLock fuel

def asyncDnsUnlock : ShimM Unit := store fun s ↦ { s with asyncDnsTableLock := false }

def storeAsyncDns (slot : ℕ) (update : AsyncDnsSlot → AsyncDnsSlot) : ShimM Unit :=
  store fun s ↦ s.setAsyncDns slot update

def loadAsyncDns (slot : ℕ) (view : AsyncDnsSlot → α) : ShimM α :=
  load fun s ↦ view (s.asyncDnsSlots slot)

def asyncDnsNewTicket : ShimM (BitVec 32) := do
  let counter ← access fun s ↦
    (s.asyncDnsTicketCounter, { s with asyncDnsTicketCounter := s.asyncDnsTicketCounter + 1 })
  let ticket := counter &&& 0x0fffffff
  pure (if ticket = 0 then 1 else ticket)

def asyncDnsFind (name : String) : List ℕ → ShimM (Option ℕ)
  | [] => pure none
  | i :: rest => do
    let state ← loadAsyncDns i AsyncDnsSlot.state
    if state = .free ∨ state = .claimed then asyncDnsFind name rest
    else do
      let other ← loadAsyncDns i AsyncDnsSlot.name
      if other = name then pure (some i) else asyncDnsFind name rest

def asyncDnsFindLocked (name : String) : ShimM (Option ℕ) :=
  asyncDnsFind name (List.range asyncDnsMax)

/-- The compare-exchange of a slot's state. -/
def swapAsyncDns (slot : ℕ) (expected desired : AsyncDnsState) (s : ShimState) :
    Bool × ShimState :=
  if (s.asyncDnsSlots slot).state = expected then
    (true, s.setAsyncDns slot fun a ↦ { a with state := desired })
  else (false, s)

/-- The argument of a callback: the ticket above the index of the slot, counted from one. -/
def asyncDnsToken (ticket : BitVec 32) (slot : ℕ) : BitVec 32 := ticket <<< 4 ||| .ofNat 32 (slot + 1)

/-- The claimed slot with its ticket. -/
def asyncDnsClaim (name : String) : List ℕ → ShimM (Option (ℕ × BitVec 32))
  | [] => pure none
  | i :: rest => do
    let claimed ← access (swapAsyncDns i .free .claimed)
    if claimed = false then asyncDnsClaim name rest
    else do
      let ticket ← asyncDnsNewTicket
      storeAsyncDns i fun a ↦ { a with ticket := ticket }
      storeAsyncDns i fun a ↦ { a with name := name }
      storeAsyncDns i fun a ↦ { a with state := .pending }
      pure (some (i, ticket))

def asyncDnsClaimLocked (name : String) : ShimM (Option (ℕ × BitVec 32)) :=
  if name.utf8ByteSize > dnsMaxNameLength then pure none
  else asyncDnsClaim name (List.range asyncDnsMax)

def asyncDnsReleaseIfTicket (slot : ℕ) (ticket : BitVec 32) : ShimM Unit := do
  let current ← loadAsyncDns slot AsyncDnsSlot.ticket
  when (current = ticket) do
    storeAsyncDns slot fun a ↦ { a with state := .free }
    storeAsyncDns slot fun a ↦ { a with ticket := 0 }

/-- lwIP's callback; `found` says whether there is an address. -/
def asyncDnsFound (token : BitVec 32) (found : Bool) : ShimM Unit := do
  let index := (token &&& 0x0f).toNat
  when (1 ≤ index ∧ index ≤ asyncDnsMax) do
    let current ← loadAsyncDns (index - 1) AsyncDnsSlot.ticket
    when (current = token >>> 4) do
      let _ ← access (swapAsyncDns (index - 1) .pending (if found then .ready else .failed))
      pure ()

def errOk : ℤ := 0
def errMem : ℤ := -1
def errInprogress : ℤ := -5

def asyncDnsRawErrorToNsn (err : ℤ) : ℤ := if err = errMem then nsnEaiMemory else nsnEaiFail

/-- Start a lookup in a claimed slot. -/
def asyncDnsStart (node service : Option String) (hints : Option Addrinfo) (name : String)
    (slot : ℕ) (ticket : BitVec 32) : ShimM ShimReply := do
  let err ← lwip (.dnsGethostbyname name (asyncDnsToken ticket slot))
  if err.code = errInprogress then pure { code := nsnEaiInprogress }
  else do
    asyncDnsReleaseIfTicket slot ticket
    if err.code = errOk then shimGetaddrinfoSync node service hints true
    else pure { code := asyncDnsRawErrorToNsn err.code }

/-- Poll the lookup that a host name already has. -/
def asyncDnsPoll (node service : Option String) (hints : Option Addrinfo) (slot : ℕ) :
    ShimM ShimReply := do
  let state ← loadAsyncDns slot AsyncDnsSlot.state
  if state = .pending then do
    asyncDnsUnlock
    pure { code := nsnEaiInprogress }
  else do
    storeAsyncDns slot fun a ↦ { a with state := .free }
    storeAsyncDns slot fun a ↦ { a with ticket := 0 }
    asyncDnsUnlock
    if state = .failed then pure { code := nsnEaiNoname }
    else shimGetaddrinfoSync node service hints true

def shimGetaddrinfoAsync (node service : Option String) (hints : Option Addrinfo) (res : Bool)
    (fuel : ℕ) : ShimM ShimReply :=
  if res = false then pure { code := nsnEaiFail }
  else
    match node with
    | none => shimGetaddrinfoSync none service hints true
    | some name =>
      if dnsRewriteName name = "" then pure { code := nsnEaiNoname }
      else do
        asyncDnsLock fuel
        let existing ← asyncDnsFindLocked (dnsRewriteName name)
        match existing with
        | some slot => asyncDnsPoll node service hints slot
        | none => do
          let claimed ← asyncDnsClaimLocked (dnsRewriteName name)
          asyncDnsUnlock
          match claimed with
          | none => pure { code := nsnEaiMemory }
          | some (slot, ticket) =>
            asyncDnsStart node service hints (dnsRewriteName name) slot ticket

def hookGetaddrinfoAsync (node service : Option String) (hints : Option Addrinfo) (res : Bool)
    (fuel : ℕ) : ShimM ShimReply :=
  dnsRouted (.getaddrinfoAsync node service hints res)
    (shimGetaddrinfoAsync node service hints res fuel)

def hookGetaddrinfoAsyncRs (node service : Option String) (hints : Option Addrinfo) (res : Bool)
    (fuel : ℕ) : ShimM ShimReply :=
  dnsRouted (.getaddrinfoAsyncRs node service hints res)
    (shimGetaddrinfoAsync node service hints res fuel)

def asyncDnsResetAll (fuel : ℕ) : ShimM Unit := do
  asyncDnsLock fuel
  each (fun i ↦ do
    storeAsyncDns i fun a ↦ { a with ticket := 0 }
    storeAsyncDns i fun a ↦ { a with state := .free }
    storeAsyncDns i fun a ↦ { a with name := "" }) (List.range asyncDnsMax)
  asyncDnsUnlock

def hookDnsAbortByHname (hostname : Option String) : ShimM ShimReply :=
  dnsRouted (.dnsAbortByHname hostname) (pure {})

/-! ## Texts -/

/-- The shape of the hooks that only look at `accepting_sockets`. -/
def acceptRouted (request : Export) (served : ShimM ShimReply) : ShimM ShimReply := do
  let accepting ← shimAccepts
  if accepting then served else native request

/-- The output of `snprintf`, `none` when it does not fit. -/
def fitting (wanted : Bool) (cap : ℕ) (text : String) : Option (Option String) :=
  if wanted = false then some none
  else if text.utf8ByteSize ≥ cap then none
  else some (some text)

def getnameinfo (addr : Sockaddr) (host : Bool) (hostlen : ℕ) (serv : Bool) (servlen : ℕ) :
    ShimReply :=
  match fitting host hostlen (dotted (addressBytes addr.addr)) with
  | none => { code := nsnEaiBadhints }
  | some hostText =>
    match fitting serv servlen (toString addr.port.toNat) with
    | none => { code := nsnEaiBadhints, host := hostText }
    | some servText => { host := hostText, serv := servText }

def hookGetnameinfo (addr : Option Sockaddr) (addrlen : ℕ) (host : Bool) (hostlen : ℕ)
    (serv : Bool) (servlen : ℕ) (flags : BitVec 32) : ShimM ShimReply :=
  acceptRouted (.getnameinfo addr addrlen host hostlen serv servlen flags)
    (if addrlen < 16 then pure { code := nsnEaiFamily }
    else
      match addr with
      | none => pure { code := nsnEaiFamily }
      | some a =>
        if a.family ≠ nsnAfInet then pure { code := nsnEaiFamily }
        else if flags &&& nsnNiNamereqd ≠ 0 then pure { code := nsnEaiNoname }
        else pure (getnameinfo a host hostlen serv servlen))

/-- The pointer that `get_h_errno` returns leads to this value. -/
def hookGetHErrno : ShimM ShimReply :=
  acceptRouted .getHErrno do
    let error ← load ShimState.hErrno
    pure { hErrno := error }

def gaiTexts : List String :=
  ["success", "address family not supported", "temporary failure in name resolution",
    "invalid flags", "non-recoverable failure in name resolution", "address family not supported",
    "out of memory", "no address associated with name", "name or service not known",
    "service not supported for socket type", "socket type not supported", "system error",
    "invalid hints", "unsupported protocol", "buffer overflow"]

def gaiStrerror (ecode : ℤ) : String :=
  if 0 ≤ ecode then gaiTexts.getD ecode.toNat "unknown error" else "unknown error"

def hookGaiStrerror (ecode : ℤ) : ShimM ShimReply :=
  acceptRouted (.gaiStrerror ecode) (pure { host := some (gaiStrerror ecode) })

end Ax88179Aroma.Shim
