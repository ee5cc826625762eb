import Ax88179Aroma.Dns.Query
import Ax88179Aroma.Shim.Dns
import Ax88179Aroma.Shim.PtrResponse

/-!
# The reverse DNS client

`ptr_dns_query_server` around its parser, and `ptr_dns_lookup_ipv4`, which asks the configured
servers in turn.  The low halves of the two stack addresses that enter a query's id are one
parameter; lwIP's core lock around `dns_getserver` is part of that call.
-/

namespace Ax88179Aroma.Shim

open Effect Program

def ptrDnsPort : UInt16 := 53
def ptrDnsPacketMax : ℕ := 512
def ptrDnsTimeoutUs : ℤ := 750000
def ipprotoUdp : ℤ := 17

def ptrDnsPut16 (packet : Buffer) (index value : ℕ) : Except Fault Buffer :=
  packet.storeMany index [UInt8.ofNat (value >>> 8), UInt8.ofNat value]

/-- The bytes of `query` that are sent; `none` is −1. -/
def ptrDnsBuildQuery (id : UInt16) (reverseName : List UInt8) :
    Except Fault (Option (List UInt8)) := do
  let query ← ptrDnsPut16 (List.replicate ptrDnsPacketMax 0) 0 id.toNat
  let query ← ptrDnsPut16 query 2 0x0100
  let query ← ptrDnsPut16 query 4 1
  let (code, query, queryLen) ← ptrDnsEncodeName query 12 reverseName
  if code < 0 then return none
  if queryLen + 4 > query.length then return none
  let query ← ptrDnsPut16 query queryLen 12
  let query ← ptrDnsPut16 query (queryLen + 2) 1
  let bytes ← query.loadMany 0 (queryLen + 4)
  return some bytes

/-- The socket calls of `ptr_dns_query_server`; `none` where it returns −1 before it reads. -/
def ptrDnsExchange (server : UInt32) (query : List UInt8) : ShimM (Option (List UInt8)) := do
  let fd ← lwip (.socket nsnAfInet sockDgram ipprotoUdp)
  if fd.code < 0 then pure none
  else do
    let sent ← lwip (.sendto fd.code query 0 (some ⟨nsnAfInet, ptrDnsPort, server⟩))
    if sent.code ≠ query.length then do
      ignore (lwip (.close fd.code))
      pure none
    else do
      let ready ← lwip
        (.select (fd.code + 1) (some [fd.code]) none none (some ⟨0, ptrDnsTimeoutUs⟩))
      if ready.code ≤ 0 then do
        ignore (lwip (.close fd.code))
        pure none
      else do
        let received ← lwip (.recvfrom fd.code ptrDnsPacketMax 0)
        ignore (lwip (.close fd.code))
        pure (some (received.bytes.take received.code.toNat))

/-- The query with a given id: the result code and the result buffer. -/
def ptrDnsQueryWith (server : UInt32) (id : UInt16) (reverseName : List UInt8) (result : Buffer) :
    ShimM (Except Fault (ℤ × Buffer)) :=
  match ptrDnsBuildQuery id reverseName with
  | .error fault => pure (.error fault)
  | .ok none => pure (.ok (-1, result))
  | .ok (some query) => do
    let response ← ptrDnsExchange server query
    match response with
    | none => pure (.ok (-1, result))
    | some packet => pure (ptrDnsReadResponse packet id result)

def ptrDnsQueryServer (server : UInt32) (pointers : UInt16) (reverseName : List UInt8)
    (result : Buffer) : ShimM (Except Fault (ℤ × Buffer)) :=
  if server = 0 then pure (.ok (-1, result))
  else do
    let time ← os .osGetTime
    ptrDnsQueryWith server (UInt16.ofInt time.code ^^^ pointers) reverseName result

/-- The loop of `ptr_dns_lookup_ipv4`. -/
def ptrDnsAskServers (pointers : UInt16) (reverseName : List UInt8) :
    List ℕ → Buffer → ShimM (Except Fault (ℤ × Buffer))
  | [], result => pure (.ok (-1, result))
  | i :: rest, result => do
    let server ← lwip (.dnsGetserver i)
    if server.ip = 0 then ptrDnsAskServers pointers reverseName rest result
    else do
      let answer ← ptrDnsQueryServer server.ip pointers reverseName result
      match answer with
      | .error fault => pure (.error fault)
      | .ok (code, result) =>
        if code = 0 then pure (.ok (0, result))
        else ptrDnsAskServers pointers reverseName rest result

/-- What `snprintf` writes, with its NUL in 64 bytes or else −1. -/
def ptrDnsLookupInto (addr : UInt32) (pointers : UInt16) (result : Buffer) :
    ShimM (Except Fault (ℤ × Buffer)) :=
  if (Dns.ascii (dotted (addressBytes addr).reverse ++ ".in-addr.arpa")).length ≥ 64 then
    pure (.ok (-1, result))
  else
    ptrDnsAskServers pointers (Dns.ascii (dotted (addressBytes addr).reverse ++ ".in-addr.arpa"))
      (List.range dnsMaxServers) result

/-! ## The query on the wire -/

theorem lt_of_mem_addressBytes {addr : UInt32} {n : ℕ} (h : n ∈ addressBytes addr) : n < 256 := by
  have hword : addr.toNat < 2 ^ 32 := addr.toNat_lt
  simp only [addressBytes, List.mem_cons, List.not_mem_nil, or_false] at h
  omega

/-- The name that stands for an address. -/
def reverseDomain (addr : UInt32) : Dns.DomainName where
  labels := Dns.reverseLabels (addressBytes addr)
  labels_valid := fun _ hmem ↦
    (Dns.isTextLabel_of_mem_reverseLabels (fun _ ↦ lt_of_mem_addressBytes) hmem).isLabel
  short := by
    have hlength : (Dns.nameWire (Dns.reverseLabels (addressBytes addr))).length ≤ 30 :=
      Dns.length_reverseLabels_le fun _ ↦ lt_of_mem_addressBytes
    omega

theorem length_reverseDomain_le (addr : UInt32) :
    (Dns.nameWire (reverseDomain addr).labels).length ≤ 30 :=
  Dns.length_reverseLabels_le fun _ ↦ lt_of_mem_addressBytes

/-- The text that `snprintf` writes is the reverse name, label by label. -/
theorem ascii_reverseName (addr : UInt32) :
    Dns.ascii (dotted (addressBytes addr).reverse ++ ".in-addr.arpa") =
      Dns.dotted (reverseDomain addr).labels := by
  have htext : ∀ a b c d : String, ".".intercalate [d, c, b, a] ++ ".in-addr.arpa" =
      d ++ "." ++ c ++ "." ++ b ++ "." ++ a ++ "." ++ "in-addr" ++ "." ++ "arpa" := by
    intro a b c d
    have hfour : ".".intercalate [d, c, b, a] = d ++ "." ++ c ++ "." ++ b ++ "." ++ a := rfl
    have hzone : ".in-addr.arpa" = "." ++ "in-addr" ++ "." ++ "arpa" := by decide
    simp only [hfour, hzone, String.append_assoc]
  have hdot : Dns.ascii "." = [Dns.dot] := by decide
  rw [dotted, addressBytes]
  simp only [List.reverse_cons, List.reverse_nil, List.nil_append, List.cons_append, List.map_cons,
    List.map_nil, htext, Dns.ascii_append, hdot, reverseDomain, Dns.reverseLabels, addressBytes,
    Dns.dotted_cons_cons, Dns.dotted_singleton, Dns.decimal, List.append_assoc]

theorem put16_spec (packet : Buffer) (index value : ℕ) (h : index + 2 ≤ packet.length) :
    ∃ after, ptrDnsPut16 packet index value = .ok after ∧ after.length = packet.length ∧
      after.Holds index (Dns.wire16 value) ∧
      ∀ k, k < index ∨ index + 2 ≤ k → after[k]? = packet[k]? := by
  have hbytes : [UInt8.ofNat (value >>> 8), UInt8.ofNat value] = Dns.wire16 value := by
    rw [Dns.wire16, Nat.shiftRight_eq_div_pow]
    congr 2
    apply UInt8.toNat_inj.mp
    simp
  rw [ptrDnsPut16, hbytes]
  exact Buffer.exists_storeMany h

theorem holds_wire16_congr {packet other : Buffer} {start value : ℕ}
    (h : packet.Holds start (Dns.wire16 value))
    (hsame : ∀ index, index < start + 2 → other[index]? = packet[index]?) :
    other.Holds start (Dns.wire16 value) :=
  h.congr fun index _ hindex ↦ hsame index hindex

/-- The bytes sent are the encoded query. -/
theorem buildQuery_eq (id : UInt16) (addr : UInt32) :
    ptrDnsBuildQuery id (Dns.dotted (reverseDomain addr).labels) =
      .ok (some (Dns.ptrQuery id (reverseDomain addr)).wire) := by
  have hshort := length_reverseDomain_le addr
  have hne : (reverseDomain addr).labels ≠ [] := Dns.reverseLabels_ne_nil (addressBytes addr)
  have htext : ∀ label ∈ (reverseDomain addr).labels, Dns.IsTextLabel label := fun _ hmem ↦
    Dns.isTextLabel_of_mem_reverseLabels (fun _ ↦ lt_of_mem_addressBytes) hmem
  have hblank : (List.replicate ptrDnsPacketMax (0 : UInt8)).length = 512 := List.length_replicate
  obtain ⟨query₁, hput₁, hsize₁, hid, hsame₁⟩ :=
    put16_spec (List.replicate ptrDnsPacketMax 0) 0 id.toNat (by omega)
  obtain ⟨query₂, hput₂, hsize₂, hflags, hsame₂⟩ := put16_spec query₁ 2 0x0100 (by omega)
  obtain ⟨query₃, hput₃, hsize₃, hcount, hsame₃⟩ := put16_spec query₂ 4 1 (by omega)
  obtain ⟨code, query₄, stop, hencode, hsize₄, hsame₄, hok, hname, -⟩ :=
    ptrDnsEncodeName_dotted hne htext (.inl rfl) query₃ 12
  obtain rfl : code = 0 := hok.mpr (by omega)
  obtain ⟨hstop, hname⟩ := hname rfl
  obtain ⟨query₅, hput₅, hsize₅, htype, hsame₅⟩ := put16_spec query₄ stop 12 (by omega)
  obtain ⟨query₆, hput₆, hsize₆, hcls, hsame₆⟩ := put16_spec query₅ (stop + 2) 1 (by omega)
  -- what one write puts in place, the later ones leave alone
  have hlate : ∀ index, index < stop → query₆[index]? = query₄[index]? := fun index hindex ↦
    (hsame₆ index (.inl (by omega))).trans (hsame₅ index (.inl hindex))
  have hearly : ∀ index, index < 12 → query₆[index]? = query₃[index]? := fun index hindex ↦
    (hlate index (by omega)).trans (hsame₄ index (.inl hindex))
  have hzeros : query₆.Holds 6 (List.replicate 6 0) := by
    intro k hk
    rw [List.length_replicate] at hk
    rw [hearly _ (by omega), hsame₃ _ (.inr (by omega)), hsame₂ _ (.inr (by omega)),
      hsame₁ _ (.inr (by omega)), ptrDnsPacketMax, List.getElem?_replicate_of_lt (by omega),
      List.getElem?_replicate_of_lt hk]
  have hwire : query₆.Holds 0 (Dns.ptrQuery id (reverseDomain addr)).wire := by
    rw [Dns.wire_ptrQuery]
    simp only [Buffer.holds_append, List.length_append, Dns.length_wire16, List.length_replicate,
      Nat.zero_add, Nat.reduceAdd, ← hstop]
    refine ⟨⟨⟨⟨⟨⟨?_, ?_⟩, ?_⟩, hzeros⟩, ?_⟩, ?_⟩, hcls⟩
    · exact holds_wire16_congr hid fun index hindex ↦ (hearly index (by omega)).trans
        ((hsame₃ index (.inl (by omega))).trans (hsame₂ index (.inl hindex)))
    · exact holds_wire16_congr hflags fun index hindex ↦ (hearly index (by omega)).trans
        (hsame₃ index (.inl hindex))
    · exact holds_wire16_congr hcount fun index hindex ↦ hearly index (by omega)
    · exact hname.congr fun index _ hindex ↦ hlate index (by omega)
    · exact holds_wire16_congr htype fun index hindex ↦ hsame₆ index (.inl hindex)
  have hlength : (Dns.ptrQuery id (reverseDomain addr)).wire.length = stop + 4 := by
    rw [Dns.wire_ptrQuery]
    simp only [List.length_append, Dns.length_wire16, List.length_replicate]
    omega
  have hload : query₆.loadMany 0 (stop + 4) =
      .ok (Dns.ptrQuery id (reverseDomain addr)).wire := by
    rw [Buffer.loadMany_eq (by omega), ← hlength, hwire.slice]
  rw [List.append_nil] at hencode
  rw [ptrDnsBuildQuery, hput₁, Buffer.ok_bind, hput₂, Buffer.ok_bind, hput₃, Buffer.ok_bind,
    hencode, Buffer.ok_bind]
  dsimp only
  rw [if_neg (by decide), if_neg (by omega), hput₅, Buffer.ok_bind, hput₆, Buffer.ok_bind, hload]
  rfl

-- 512 bytes are too many to evaluate on the way to a call.
attribute [irreducible] ptrDnsBuildQuery

/-! ## Servers -/

/-- The configured servers and the datagram that each sends back, by the number of datagrams sent
before.  Where the network is lossy, calls may fail and datagrams may not arrive in time. -/
structure Resolver where
  servers : ℕ → UInt32
  answers : ℕ → UInt32 → List UInt8 → Option (List UInt8)
  lossy : Bool

/-- The open sockets, and the datagrams sent with their receivers, the last one first. -/
structure ResolverWorld where
  sockets : List ℤ := []
  asked : List (UInt32 × List UInt8) := []

/-- The configured servers among `items`, in the order of their indices. -/
def Resolver.configured (net : Resolver) (items : List ℕ) : List UInt32 :=
  (items.map net.servers).filter fun server ↦ server ≠ 0

/-- The datagram that waits for the client. -/
def Resolver.waiting (net : Resolver) : List (UInt32 × List UInt8) → Option (List UInt8)
  | [] => none
  | (server, query) :: before => net.answers before.length server query

def ResolverWorld.send (world : ResolverWorld) (dest : Option Sockaddr) (bytes : List UInt8) :
    ResolverWorld :=
  { world with asked := ((dest.map Sockaddr.addr).getD 0, bytes) :: world.asked }

/-- The calls of the client; other calls have no reply. -/
def resolverReply (net : Resolver) : Replies ShimState ResolverWorld ShimCall ShimReply
  | .os .osGetTime, _, x => some x
  | .lwip (.dnsGetserver i), answer, x => if answer.ip = net.servers i then some x else none
  | .lwip (.socket _ _ _), answer, x =>
    if answer.code < 0 then if net.lossy then some x else none
    else if answer.code ∈ x.world.sockets then none
    else some { x with world := { x.world with sockets := answer.code :: x.world.sockets } }
  | .lwip (.sendto _ bytes _ dest), answer, x =>
    if answer.code = bytes.length then some { x with world := x.world.send dest bytes }
    else if net.lossy then some x
    else none
  | .lwip (.select _ _ _ _ _), answer, x =>
    if net.lossy ∨ (0 < answer.code ↔ (net.waiting x.world.asked).isSome) then some x else none
  | .lwip (.recvfrom _ len _), answer, x =>
    if answer.code < 0 then if net.lossy then some x else none
    else if answer.code = answer.bytes.length ∧
        (net.waiting x.world.asked).map (List.take len) = some answer.bytes then some x
    else none
  | .lwip (.close fd), _, x =>
    some { x with world := { x.world with sockets := x.world.sockets.erase fd } }
  | _, _, _ => none

/-- What each call of a lookup may rely on: a socket is created where none is open beside the
`kept` ones, only that one is used, and every datagram is a query for the address, sent to the
name service of a configured server. -/
def resolverPre (net : Resolver) (addr : UInt32) (kept : List ℤ) :
    ShimCall → Machine ShimState ResolverWorld → Prop
  | .os request, _ => request = .osGetTime
  | .lwip (.dnsGetserver i), x => i < dnsMaxServers ∧ x.world.sockets = kept
  | .lwip (.socket domain type protocol), x =>
    x.world.sockets = kept ∧ domain = nsnAfInet ∧ type = sockDgram ∧ protocol = ipprotoUdp
  | .lwip (.sendto fd bytes flags dest), x =>
    x.world.sockets = fd :: kept ∧ flags = 0 ∧
      (∃ id, bytes = (Dns.ptrQuery id (reverseDomain addr)).wire) ∧
      ∃ i < dnsMaxServers, net.servers i ≠ 0 ∧
        dest = some ⟨nsnAfInet, ptrDnsPort, net.servers i⟩
  | .lwip (.select nfds readfds writefds exceptfds timeout), x =>
    ∃ fd, x.world.sockets = fd :: kept ∧ nfds = fd + 1 ∧ readfds = some [fd] ∧ writefds = none ∧
      exceptfds = none ∧ timeout = some ⟨0, ptrDnsTimeoutUs⟩
  | .lwip (.recvfrom fd len _), x => x.world.sockets = fd :: kept ∧ len = ptrDnsPacketMax
  | .lwip (.close fd), x => x.world.sockets = fd :: kept
  | _, _ => False

/-- What an exchange can bring: the datagram that waits, nothing when there is none, and either of
nothing or an empty datagram when the network loses it. -/
inductive Heard (net : Resolver) (waiting : Option (List UInt8)) : Option (List UInt8) → Prop
  | datagram {bytes : List UInt8} (h : waiting = some bytes) :
      Heard net waiting (some (bytes.take ptrDnsPacketMax))
  | silence (h : waiting = none) : Heard net waiting none
  | lost {response : Option (List UInt8)} (hlossy : net.lossy = true)
      (h : response = none ∨ response = some []) : Heard net waiting response

/-- An exchange closes its socket, sends at most one datagram and leaves all but `errno`. -/
structure Exchanged (net : Resolver) (server : UInt32) (query : List UInt8)
    (x : Machine ShimState ResolverWorld) (response : Option (List UInt8))
    (y : Machine ShimState ResolverWorld) : Prop where
  memory : ∃ errno, y.mem = { x.mem with errno := errno }
  sockets_eq : y.world.sockets = x.world.sockets
  asked : y.world.asked = x.world.asked ∨ y.world.asked = (server, query) :: x.world.asked
  heard : Heard net (net.answers x.world.asked.length server query) response

section Exchange

variable {net : Resolver} {addr server : UInt32} {query : List UInt8}
  {x y : Machine ShimState ResolverWorld}

/-- A call into lwIP for the client. -/
theorem wp_ptrDnsCall {request : LwipCall} {kept : List ℤ}
    {post : ShimReply → Machine ShimState ResolverWorld → Prop}
    (hpre : resolverPre net addr kept (.lwip request) y)
    (hpost : ∀ answer z, resolverReply net (.lwip request) answer y = some z →
      post answer { z with mem := { z.mem with errno := answer.errno } }) :
    wp (resolverReply net) (resolverPre net addr kept) (lwip request) post y :=
  ⟨hpre, hpost⟩

/-- Closing the socket ends every path. -/
theorem wp_ptrDnsClose {fd : ℤ} {kept : List ℤ} {α : Type} {value : α}
    {post : α → Machine ShimState ResolverWorld → Prop} (hsockets : y.world.sockets = fd :: kept)
    (hpost : ∀ errno,
      post value ⟨{ y.mem with errno := errno }, { y.world with sockets := kept }⟩) :
    wp (resolverReply net) (resolverPre net addr kept)
      (ignore (lwip (.close fd)) >>= fun _ ↦ pure value) post y := by
  refine (wp_bind _ _ _ _).mpr ((wp_bind _ _ _ _).mpr
    (wp_ptrDnsCall hsockets fun answer z hreply ↦ ?_))
  obtain rfl := Option.some.inj hreply
  rw [hsockets, List.erase_cons_head]
  exact hpost answer.errno

/-- Once the query is sent, the socket holds what the server sends back. -/
theorem wp_ptrDnsExchange (hquery : ∃ id, query = (Dns.ptrQuery id (reverseDomain addr)).wire)
    (hserver : ∃ i < dnsMaxServers, net.servers i ≠ 0 ∧ server = net.servers i) :
    wp (resolverReply net) (resolverPre net addr x.world.sockets) (ptrDnsExchange server query)
      (Exchanged net server query x) x := by
  refine (wp_bind _ _ _ _).mpr (wp_ptrDnsCall ⟨rfl, rfl, rfl, rfl⟩ fun fd y hfd ↦ ?_)
  simp only [resolverReply] at hfd
  split_ifs at hfd with hneg hlossy hmem
  · obtain rfl := Option.some.inj hfd
    rw [if_pos hneg]
    exact ⟨⟨_, rfl⟩, rfl, .inl rfl, .lost hlossy (.inl rfl)⟩
  obtain rfl := Option.some.inj hfd
  obtain ⟨i, hi, hset, rfl⟩ := hserver
  rw [if_neg hneg]
  refine (wp_bind _ _ _ _).mpr
    (wp_ptrDnsCall ⟨rfl, rfl, hquery, i, hi, hset, rfl⟩ fun sent y hsent ↦ ?_)
  simp only [resolverReply] at hsent
  split_ifs at hsent with hall hlossy
  swap
  · obtain rfl := Option.some.inj hsent
    rw [if_pos hall]
    exact wp_ptrDnsClose rfl fun _ ↦ ⟨⟨_, rfl⟩, rfl, .inl rfl, .lost hlossy (.inl rfl)⟩
  obtain rfl := Option.some.inj hsent
  rw [if_neg (not_not.mpr hall)]
  refine (wp_bind _ _ _ _).mpr
    (wp_ptrDnsCall ⟨fd.code, rfl, rfl, rfl, rfl, rfl, rfl⟩ fun ready y hready ↦ ?_)
  simp only [resolverReply] at hready
  split_ifs at hready with hwaits
  obtain rfl := Option.some.inj hready
  by_cases hnone : ready.code ≤ 0
  · rw [if_pos hnone]
    refine wp_ptrDnsClose rfl fun _ ↦ ⟨⟨_, rfl⟩, rfl, .inr rfl, ?_⟩
    rcases hwaits with hlossy | hiff
    · exact .lost hlossy (.inl rfl)
    · refine .silence (Option.not_isSome_iff_eq_none.mp fun hsome ↦ ?_)
      exact absurd (hiff.mpr hsome) (by omega)
  rw [if_neg hnone]
  refine (wp_bind _ _ _ _).mpr (wp_ptrDnsCall ⟨rfl, rfl⟩ fun received y hreceived ↦ ?_)
  simp only [resolverReply] at hreceived
  split_ifs at hreceived with hneg hlossy hbytes
  · obtain rfl := Option.some.inj hreceived
    refine wp_ptrDnsClose rfl fun _ ↦ ⟨⟨_, rfl⟩, rfl, .inr rfl, .lost hlossy (.inr ?_)⟩
    rw [show received.code.toNat = 0 by omega]
    rfl
  · obtain rfl := Option.some.inj hreceived
    obtain ⟨hlength, hwaiting⟩ := hbytes
    obtain ⟨bytes, hbytes, htake⟩ := Option.map_eq_some_iff.mp hwaiting
    refine wp_ptrDnsClose rfl fun _ ↦ ⟨⟨_, rfl⟩, rfl, .inr rfl, ?_⟩
    rw [List.take_of_length_le (by omega), ← htake]
    exact .datagram hbytes

end Exchange

/-! ## The servers in turn -/

/-- What the parser makes of what an exchange brought. -/
def ptrDnsOutcome (id : UInt16) (result : Buffer) : Option (List UInt8) → Except Fault (ℤ × Buffer)
  | none => .ok (-1, result)
  | some packet => ptrDnsReadResponse packet id result

/-- The outcomes of asking one server. -/
def Asks (net : Resolver) (addr server : UInt32) (result : Buffer)
    (outcome : Except Fault (ℤ × Buffer)) : Prop :=
  ∃ count id response,
    Heard net (net.answers count server (Dns.ptrQuery id (reverseDomain addr)).wire) response ∧
      outcome = ptrDnsOutcome id result response

/-- The outcomes of asking the configured servers in turn until one finds a name. -/
inductive InTurn (net : Resolver) (addr : UInt32) :
    List ℕ → Buffer → Except Fault (ℤ × Buffer) → Prop
  | none (result : Buffer) : InTurn net addr [] result (.ok (-1, result))
  | unset {i : ℕ} {rest : List ℕ} {result : Buffer} {outcome : Except Fault (ℤ × Buffer)}
      (hserver : net.servers i = 0) (hrest : InTurn net addr rest result outcome) :
      InTurn net addr (i :: rest) result outcome
  | fault {i : ℕ} {rest : List ℕ} {result : Buffer} {fault : Fault} (hserver : net.servers i ≠ 0)
      (hasks : Asks net addr (net.servers i) result (.error fault)) :
      InTurn net addr (i :: rest) result (.error fault)
  | found {i : ℕ} {rest : List ℕ} {result after : Buffer} (hserver : net.servers i ≠ 0)
      (hasks : Asks net addr (net.servers i) result (.ok (0, after))) :
      InTurn net addr (i :: rest) result (.ok (0, after))
  | next {i : ℕ} {rest : List ℕ} {result between : Buffer} {code : ℤ}
      {outcome : Except Fault (ℤ × Buffer)} (hserver : net.servers i ≠ 0)
      (hasks : Asks net addr (net.servers i) result (.ok (code, between))) (hcode : code ≠ 0)
      (hrest : InTurn net addr rest between outcome) :
      InTurn net addr (i :: rest) result outcome

/-- A lookup closes its sockets, sends at most one datagram to each of `servers`, in their order,
and leaves all but `errno`. -/
structure Frugal (servers : List UInt32) (x y : Machine ShimState ResolverWorld) : Prop where
  memory : ∃ errno, y.mem = { x.mem with errno := errno }
  sockets_eq : y.world.sockets = x.world.sockets
  asked : ∃ sent : List (UInt32 × List UInt8), y.world.asked = sent.reverse ++ x.world.asked ∧
    (sent.map Prod.fst).Sublist servers

theorem Frugal.trans {first second : List UInt32} {x y z : Machine ShimState ResolverWorld}
    (hfirst : Frugal first x y) (hsecond : Frugal second y z) : Frugal (first ++ second) x z := by
  obtain ⟨⟨errno, hmem⟩, hsockets, sent, hasked, hsent⟩ := hfirst
  obtain ⟨⟨errno', hmem'⟩, hsockets', sent', hasked', hsent'⟩ := hsecond
  refine ⟨⟨errno', by rw [hmem', hmem]⟩, hsockets'.trans hsockets, sent ++ sent', ?_, ?_⟩
  · rw [hasked', hasked, List.reverse_append, List.append_assoc]
  · rw [List.map_append]
    exact hsent.append hsent'

theorem Frugal.mono {servers more : List UInt32} {x y : Machine ShimState ResolverWorld}
    (h : Frugal servers x y) (hsub : servers.Sublist more) : Frugal more x y := by
  obtain ⟨sent, hasked, hsent⟩ := h.asked
  exact ⟨h.memory, h.sockets_eq, sent, hasked, hsent.trans hsub⟩

theorem Exchanged.frugal {net : Resolver} {server : UInt32} {query : List UInt8}
    {response : Option (List UInt8)} {x y : Machine ShimState ResolverWorld}
    (h : Exchanged net server query x response y) : Frugal [server] x y := by
  refine ⟨h.memory, h.sockets_eq, ?_⟩
  rcases h.asked with hsame | hsent
  · exact ⟨[], hsame, List.nil_sublist _⟩
  · exact ⟨[(server, query)], hsent, List.Sublist.refl _⟩

theorem Resolver.configured_cons (net : Resolver) (i : ℕ) (items : List ℕ) :
    net.configured (i :: items) =
      if net.servers i = 0 then net.configured items
      else net.servers i :: net.configured items := by
  rw [Resolver.configured, List.map_cons, List.filter_cons]
  by_cases hzero : net.servers i = 0
  · simp [hzero, Resolver.configured]
  · simp [hzero, Resolver.configured]

section Lookup

variable {net : Resolver} {addr : UInt32} {pointers : UInt16} {kept : List ℤ}
  {x : Machine ShimState ResolverWorld}

theorem wp_ptrDnsQueryWith {server : UInt32} (id : UInt16) (result : Buffer)
    (hkept : x.world.sockets = kept)
    (hserver : ∃ i < dnsMaxServers, net.servers i ≠ 0 ∧ server = net.servers i) :
    wp (resolverReply net) (resolverPre net addr kept)
      (ptrDnsQueryWith server id (Dns.dotted (reverseDomain addr).labels) result)
      (fun outcome y ↦ Asks net addr server result outcome ∧ Frugal [server] x y) x := by
  subst hkept
  unfold ptrDnsQueryWith
  rw [buildQuery_eq]
  refine wp_seq (wp_ptrDnsExchange ⟨id, rfl⟩ hserver) fun response y hexchanged ↦ ?_
  have hasks : Asks net addr server result (ptrDnsOutcome id result response) :=
    ⟨_, id, response, hexchanged.heard, rfl⟩
  cases response with
  | none => exact ⟨hasks, hexchanged.frugal⟩
  | some packet => exact ⟨hasks, hexchanged.frugal⟩

theorem wp_ptrDnsQueryServer {server : UInt32} (result : Buffer) (hkept : x.world.sockets = kept)
    (hserver : ∃ i < dnsMaxServers, net.servers i ≠ 0 ∧ server = net.servers i) :
    wp (resolverReply net) (resolverPre net addr kept)
      (ptrDnsQueryServer server pointers (Dns.dotted (reverseDomain addr).labels) result)
      (fun outcome y ↦ Asks net addr server result outcome ∧ Frugal [server] x y) x := by
  have hset : server ≠ 0 := by
    obtain ⟨i, -, hset, rfl⟩ := hserver
    exact hset
  rw [ptrDnsQueryServer, if_neg hset]
  refine (wp_bind _ _ _ _).mpr ⟨rfl, fun time y htime ↦ ?_⟩
  obtain rfl := Option.some.inj htime
  exact wp_ptrDnsQueryWith _ result hkept hserver

/-- The loop gives one of the outcomes of asking the servers in turn. -/
theorem wp_ptrDnsAskServers {items : List ℕ} (hitems : ∀ i ∈ items, i < dnsMaxServers)
    (result : Buffer) (hkept : x.world.sockets = kept) :
    wp (resolverReply net) (resolverPre net addr kept)
      (ptrDnsAskServers pointers (Dns.dotted (reverseDomain addr).labels) items result)
      (fun outcome y ↦ InTurn net addr items result outcome ∧ Frugal (net.configured items) x y)
      x := by
  induction items generalizing x result with
  | nil => exact ⟨.none result, ⟨_, rfl⟩, rfl, [], rfl, List.nil_sublist _⟩
  | cons i rest ih =>
    have hi := hitems i List.mem_cons_self
    have hrest : ∀ j ∈ rest, j < dnsMaxServers := fun j hj ↦ hitems j (List.mem_cons_of_mem i hj)
    refine (wp_bind _ _ _ _).mpr (wp_ptrDnsCall ⟨hi, hkept⟩ fun server y hserver ↦ ?_)
    simp only [resolverReply] at hserver
    split_ifs at hserver with hip
    obtain rfl := Option.some.inj hserver
    obtain ⟨y, hy⟩ : ∃ y : Machine ShimState ResolverWorld,
        y = { x with mem := { x.mem with errno := server.errno } } := ⟨_, rfl⟩
    have hstart : Frugal [] x y := by
      rw [hy]
      exact ⟨⟨_, rfl⟩, rfl, [], rfl, List.nil_sublist _⟩
    have hkept' := hstart.sockets_eq.trans hkept
    rw [hip, ← hy]
    refine wp_cases (fun hunset ↦ ?_) fun hset ↦ ?_
    · refine wp_mono (ih hrest result hkept') fun outcome z ⟨hturn, hfrugal⟩ ↦
        ⟨.unset hunset hturn, ?_⟩
      rw [Resolver.configured_cons, if_pos hunset]
      exact hstart.trans hfrugal
    · refine wp_seq (wp_ptrDnsQueryServer result hkept' ⟨i, hi, hset, rfl⟩)
        fun answer z ⟨hasks, hone⟩ ↦ ?_
      have hsofar : Frugal [net.servers i] x z := hstart.trans hone
      have hfirst : [net.servers i].Sublist (net.servers i :: net.configured rest) :=
        (List.nil_sublist _).cons_cons _
      rw [Resolver.configured_cons, if_neg hset]
      cases answer with
      | error fault => exact ⟨.fault hset hasks, hsofar.mono hfirst⟩
      | ok answer =>
        obtain ⟨code, between⟩ := answer
        refine wp_cases (fun hzero ↦ ?_) fun hnonzero ↦ ?_
        · subst hzero
          exact ⟨.found hset hasks, hsofar.mono hfirst⟩
        · refine wp_mono (ih hrest between (hsofar.sockets_eq.trans hkept))
            fun outcome w ⟨hturn, hfrugal⟩ ↦ ⟨.next hset hasks hnonzero hturn, ?_⟩
          exact hsofar.trans hfrugal

/-- The whole lookup; the reverse name always fits its 64 bytes. -/
theorem wp_ptrDnsLookupInto (result : Buffer) :
    wp (resolverReply net) (resolverPre net addr x.world.sockets)
      (ptrDnsLookupInto addr pointers result)
      (fun outcome y ↦ InTurn net addr (List.range dnsMaxServers) result outcome ∧
        Frugal (net.configured (List.range dnsMaxServers)) x y) x := by
  have hwire := Dns.length_nameWire (reverseDomain addr).labels
  have htext := Dns.length_dotted (Dns.reverseLabels_ne_nil (addressBytes addr))
  have hshort := length_reverseDomain_le addr
  have hname : (reverseDomain addr).labels = Dns.reverseLabels (addressBytes addr) := rfl
  rw [ptrDnsLookupInto, ascii_reverseName, if_neg (by rw [hname] at hwire hshort ⊢; omega)]
  exact wp_ptrDnsAskServers (fun i hi ↦ List.mem_range.mp hi) result rfl

end Lookup

attribute [irreducible] ptrDnsLookupInto

section Outcome

variable {net : Resolver} {addr : UInt32}

theorem Asks.inside {server : UInt32} {result : Buffer} {outcome : Except Fault (ℤ × Buffer)}
    (h : Asks net addr server result outcome) :
    ∃ code after, outcome = .ok (code, after) ∧ after.length = result.length ∧
      (code = 0 ∨ code = -1) := by
  obtain ⟨count, id, response, -, rfl⟩ := h
  cases response with
  | none => exact ⟨-1, result, rfl, rfl, .inr rfl⟩
  | some packet => exact ptrDnsReadResponse_inside packet id result

theorem InTurn.inside {items : List ℕ} {result : Buffer} {outcome : Except Fault (ℤ × Buffer)}
    (h : InTurn net addr items result outcome) :
    ∃ code after, outcome = .ok (code, after) ∧ after.length = result.length ∧
      (code = 0 ∨ code = -1) := by
  induction h with
  | none result => exact ⟨-1, result, rfl, rfl, .inr rfl⟩
  | unset hserver hrest ih => exact ih
  | fault hserver hasks =>
    obtain ⟨code, after, hresult, -⟩ := hasks.inside
    cases hresult
  | found hserver hasks => exact hasks.inside
  | next hserver hasks hcode hrest ih =>
    obtain ⟨code, after, hresult, hlength, -⟩ := hasks.inside
    obtain ⟨rfl, rfl⟩ := Prod.mk.inj (Except.ok.inj hresult)
    obtain ⟨code, last, houtcome, hlast, hlate⟩ := ih
    exact ⟨code, last, houtcome, hlast.trans hlength, hlate⟩

end Outcome

/-- Whatever the network does, a reverse lookup stays inside its buffers, sends nothing but queries
for its address to the name service of the configured servers, at most one to each and in their
order, uses no socket but its own, one at a time, and closes it. -/
theorem ptrDnsLookup_contained (net : Resolver) (addr : UInt32) (pointers : UInt16)
    (result : Buffer) (x : Machine ShimState ResolverWorld) :
    wp (resolverReply net) (resolverPre net addr x.world.sockets)
      (ptrDnsLookupInto addr pointers result)
      (fun outcome y ↦ (∃ code after, outcome = .ok (code, after) ∧
          after.length = result.length ∧ (code = 0 ∨ code = -1)) ∧
        Frugal (net.configured (List.range dnsMaxServers)) x y) x := by
  refine wp_mono (wp_ptrDnsLookupInto result) ?_
  rintro outcome y ⟨hturn, hfrugal⟩
  exact ⟨hturn.inside, hfrugal⟩

/-! ## Truthful servers -/

/-- A response whose first PTR record holds the host name, compressed or not, within the steps that
the decoder takes; what else the message carries is free. -/
structure Tells (message : Dns.Message) (id : UInt16) (host : Dns.DomainName) : Prop where
  response : IsResponse message id
  fits : message.wire.length ≤ ptrDnsPacketMax
  first : ∃ before entry after, message.placedAnswers = before ++ entry :: after ∧
    (∀ other ∈ before, ¬IsPtr other.2) ∧ IsPtr entry.2 ∧ ∃ pointers stop,
      Dns.Walk message.wire entry.1 host.labels pointers stop ∧ pointers ≤ 32 ∧
        host.labels.length + pointers ≤ 127 ∧ stop ≤ entry.1 + entry.2.rdata.length

/-- A message that is no valid response to the query, or one without a PTR record. -/
structure Denies (message : Dns.Message) (id : UInt16) : Prop where
  fits : message.wire.length ≤ ptrDnsPacketMax
  nothing : ¬IsResponse message id ∨ ∀ record ∈ message.answers, ¬IsPtr record

/-- What a server has to say about an address. -/
inductive ServerView where
  | silent
  | denies
  | tells (host : Dns.DomainName)

def ServerView.host : ServerView → Option Dns.DomainName
  | .tells host => some host
  | _ => none

/-- Every server sends back what its view is, whenever it is asked and with whatever id. -/
structure ServesAs (net : Resolver) (addr : UInt32) (views : UInt32 → ServerView) : Prop where
  silent : ∀ server, views server = .silent → ∀ count id,
    net.answers count server (Dns.ptrQuery id (reverseDomain addr)).wire = none
  denies : ∀ server, views server = .denies → ∀ count id, ∃ message,
    net.answers count server (Dns.ptrQuery id (reverseDomain addr)).wire = some message.wire ∧
      Denies message id
  tells : ∀ server host, views server = .tells host → ∀ count id, ∃ message,
    net.answers count server (Dns.ptrQuery id (reverseDomain addr)).wire = some message.wire ∧
      Tells message id host

/-- The host names that the configured servers know, in the order of the servers. -/
def Resolver.told (net : Resolver) (views : UInt32 → ServerView) (items : List ℕ) :
    List Dns.DomainName :=
  items.filterMap fun i ↦
    if net.servers i = 0 then none else (views (net.servers i)).host

/-- The outcome is 0 with one of the names or −1; where nothing is lost it is the first name, and
−1 only without one. -/
def Resolves (net : Resolver) (told : List Dns.DomainName) (outcome : Except Fault (ℤ × Buffer)) :
    Prop :=
  ∃ code after, outcome = .ok (code, after) ∧
    ((code = 0 ∧ ∃ host ∈ told, after.Holds 0 (Dns.dotted host.labels ++ [0]) ∧
        (net.lossy = false → told.head? = some host)) ∨
      (code = -1 ∧ (net.lossy = false → told = [])))

theorem mem_of_mem_placed {start : ℕ} {records : List Dns.Record} {entry : ℕ × Dns.Record}
    (h : entry ∈ Dns.placed start records) : entry.2 ∈ records := by
  induction records generalizing start with
  | nil => cases h
  | cons record records ih =>
    rcases List.mem_cons.mp h with rfl | hmem
    · exact List.mem_cons_self
    · exact List.mem_cons_of_mem _ (ih hmem)

/-- A message that is no valid response is refused before its records are read. -/
theorem readResponse_refused {message : Dns.Message} {id : UInt16} (result : Buffer)
    (hmessage : ¬IsResponse message id) :
    ptrDnsReadResponse message.wire id result = .ok (-1, result) := by
  have hlength := message.length_wire
  obtain ⟨packet, hpacket⟩ : ∃ packet : Buffer, packet = message.wire := ⟨_, rfl⟩
  obtain ⟨hheader, -, -⟩ := Dns.Message.holds_wire hpacket
  rw [← hpacket] at hlength ⊢
  simp only [Dns.Message.header, Buffer.holds_append, List.length_append,
    Dns.length_wire16] at hheader
  obtain ⟨⟨⟨⟨⟨hid, hflags⟩, -⟩, -⟩, -⟩, -⟩ := hheader
  rw [ptrDnsReadResponse, if_neg (by omega), get16_holds message.id.toNat_lt hid, Buffer.ok_bind]
  split_ifs with hother
  · rfl
  rw [get16_holds message.flags.toNat_lt hflags, Buffer.ok_bind, if_pos]
  · rfl
  · by_contra hgood
    obtain ⟨hresponse, htruncated, hcode⟩ : message.flags.toNat &&& 0x8000 ≠ 0 ∧
        message.flags.toNat &&& 0x0200 = 0 ∧ message.flags.toNat &&& 0x000f = 0 := by
      simpa only [not_or, not_not] using hgood
    exact hmessage ⟨UInt16.toNat_inj.mp (not_not.mp hother), hresponse, htruncated, hcode⟩

theorem Denies.readResponse {message : Dns.Message} {id : UInt16} {result : Buffer}
    (h : Denies message id) (hresult : result.length ≠ 0) :
    ∃ after, ptrDnsReadResponse message.wire id result = .ok (-1, after) := by
  by_cases hresponse : IsResponse message id
  · have hnone := h.nothing.resolve_left (not_not.mpr hresponse)
    obtain ⟨code, after, houtcome, ⟨-, text, ⟨before, entry, rest, hsplit, -, hptr, -⟩, -⟩ |
      ⟨rfl, -⟩⟩ := readResponse_finds hresponse h.fits hresult
    · have hmem : entry ∈ message.placedAnswers := by
        rw [hsplit]
        exact List.mem_append_right _ List.mem_cons_self
      exact absurd hptr (hnone entry.2 (mem_of_mem_placed hmem))
    · exact ⟨after, houtcome⟩
  · exact ⟨result, readResponse_refused result hresponse⟩

/-- The parser reads the host name off a truthful response. -/
theorem Tells.readResponse {message : Dns.Message} {id : UInt16} {host : Dns.DomainName}
    {result : Buffer} (h : Tells message id host) (hresult : 254 ≤ result.length) :
    ∃ after, ptrDnsReadResponse message.wire id result = .ok (0, after) ∧
      after.Holds 0 (Dns.dotted host.labels ++ [0]) := by
  obtain ⟨before, entry, rest, hplaced, hbefore, hptr, hname⟩ := h.first
  obtain ⟨pointers, stop, hwalk, hpointers, hsteps, -⟩ := hname
  have hlong := host.length_dotted_le
  have hread : ReadsThrough message.wire result.length entry (Dns.dotted host.labels) :=
    ⟨stop, host.labels, pointers, hwalk, hpointers, hsteps, rfl, by omega⟩
  obtain ⟨code, after, houtcome, ⟨rfl, text, ⟨front, found, back, hsplit, hfront, hptr', hread'⟩,
    hholds⟩ | ⟨rfl, hnone⟩⟩ := readResponse_finds h.response h.fits (by omega : result.length ≠ 0)
  · obtain rfl := split_unique (hplaced.symm.trans hsplit)
      (fun other hmem hnames ↦ hbefore other hmem hnames.1) hfront
      ⟨hptr, _, hread⟩ ⟨hptr', text, hread'⟩
    obtain ⟨stop, hread⟩ := hread
    obtain ⟨stop', hread'⟩ := hread'
    obtain ⟨rfl, -⟩ := hread.unique hread'
    exact ⟨after, houtcome, hholds⟩
  · refine absurd ⟨hptr, _, hread⟩ (hnone entry ?_)
    rw [hplaced]
    exact List.mem_append_right _ List.mem_cons_self

section Truthful

variable {net : Resolver} {addr : UInt32} {views : UInt32 → ServerView}

/-- What one server makes of a lookup. -/
theorem Asks.view {server : UInt32} {result : Buffer} {outcome : Except Fault (ℤ × Buffer)}
    (h : Asks net addr server result outcome) (hserves : ServesAs net addr views)
    (hresult : 254 ≤ result.length) :
    ∃ code after, outcome = .ok (code, after) ∧
      ((code = 0 ∧ ∃ host, (views server).host = some host ∧
          after.Holds 0 (Dns.dotted host.labels ++ [0])) ∨
        (code = -1 ∧ (net.lossy = false → (views server).host = none))) := by
  obtain ⟨count, id, response, hheard, rfl⟩ := h
  cases hheard with
  | datagram hwaiting =>
    cases hview : views server with
    | silent =>
      cases hwaiting.symm.trans (hserves.silent server hview count id)
    | denies =>
      obtain ⟨message, hanswer, hdenies⟩ := hserves.denies server hview count id
      obtain rfl := Option.some.inj (hwaiting.symm.trans hanswer)
      obtain ⟨after, houtcome⟩ := hdenies.readResponse (by omega : result.length ≠ 0)
      rw [ptrDnsOutcome, List.take_of_length_le hdenies.fits]
      exact ⟨-1, after, houtcome, .inr ⟨rfl, fun _ ↦ rfl⟩⟩
    | tells host =>
      obtain ⟨message, hanswer, htells⟩ := hserves.tells server host hview count id
      obtain rfl := Option.some.inj (hwaiting.symm.trans hanswer)
      obtain ⟨after, houtcome, hholds⟩ := htells.readResponse hresult
      rw [ptrDnsOutcome, List.take_of_length_le htells.fits]
      exact ⟨0, after, houtcome, .inl ⟨rfl, host, rfl, hholds⟩⟩
  | silence hwaiting =>
    refine ⟨-1, result, rfl, .inr ⟨rfl, fun _ ↦ ?_⟩⟩
    cases hview : views server with
    | silent => rfl
    | denies => rfl
    | tells host =>
      obtain ⟨message, hanswer, -⟩ := hserves.tells server host hview count id
      cases hwaiting.symm.trans hanswer
  | lost hlossy hresponse =>
    refine ⟨-1, result, ?_, .inr ⟨rfl, fun hnot ↦ ?_⟩⟩
    · rcases hresponse with rfl | rfl
      · rfl
      · rfl
    · rw [hlossy] at hnot
      cases hnot

theorem Resolves.mono (first : List Dns.DomainName) {rest : List Dns.DomainName}
    {outcome : Except Fault (ℤ × Buffer)} (h : Resolves net rest outcome)
    (hfirst : net.lossy = false → first = []) :
    Resolves net (first ++ rest) outcome := by
  obtain ⟨code, after, houtcome, ⟨rfl, host, hmem, hholds, hhead⟩ | ⟨rfl, hnone⟩⟩ := h
  · refine ⟨0, after, houtcome, .inl ⟨rfl, host, List.mem_append_right _ hmem, hholds, ?_⟩⟩
    intro hlossless
    rw [hfirst hlossless]
    exact hhead hlossless
  · refine ⟨-1, after, houtcome, .inr ⟨rfl, fun hlossless ↦ ?_⟩⟩
    rw [hfirst hlossless, hnone hlossless]
    rfl

theorem InTurn.resolves {items : List ℕ} {result : Buffer} {outcome : Except Fault (ℤ × Buffer)}
    (h : InTurn net addr items result outcome) (hserves : ServesAs net addr views)
    (hresult : 254 ≤ result.length) : Resolves net (net.told views items) outcome := by
  induction h with
  | none result => exact ⟨-1, result, rfl, .inr ⟨rfl, fun _ ↦ rfl⟩⟩
  | unset hserver hrest ih =>
    rw [Resolver.told, List.filterMap_cons, if_pos hserver]
    exact ih hresult
  | fault hserver hasks =>
    obtain ⟨code, after, houtcome, -⟩ := hasks.inside
    cases houtcome
  | found hserver hasks =>
    obtain ⟨code, after, houtcome, ⟨-, host, hhost, hholds⟩ | ⟨rfl, -⟩⟩ :=
      hasks.view hserves hresult
    · obtain ⟨-, rfl⟩ := Prod.mk.inj (Except.ok.inj houtcome)
      rw [Resolver.told, List.filterMap_cons, if_neg hserver, hhost]
      exact ⟨0, _, rfl, .inl ⟨rfl, host, List.mem_cons_self, hholds, fun _ ↦ rfl⟩⟩
    · cases houtcome
  | next hserver hasks hcode hrest ih =>
    obtain ⟨code, after, houtcome, hlength, -⟩ := hasks.inside
    obtain ⟨rfl, rfl⟩ := Prod.mk.inj (Except.ok.inj houtcome)
    obtain ⟨code, after, houtcome, ⟨rfl, -⟩ | ⟨rfl, hnone⟩⟩ := hasks.view hserves hresult
    · exact absurd (Prod.mk.inj (Except.ok.inj houtcome)).1 hcode
    · have hlate := ih (by omega)
      rw [Resolver.told, List.filterMap_cons, if_neg hserver]
      cases hhost : (views (net.servers _)).host with
      | none => exact hlate
      | some host =>
        exact hlate.mono [host] fun hlossless ↦ by
          cases hhost.symm.trans (hnone hlossless)

end Truthful

/-- Against servers that are silent, deny or tell the truth, a reverse lookup never gives a wrong
name; where nothing is lost it gives the name of the first configured server that knows one, and
fails only if none does. -/
theorem ptrDnsLookup_truthful (net : Resolver) (addr : UInt32) (views : UInt32 → ServerView)
    (pointers : UInt16) (result : Buffer) (x : Machine ShimState ResolverWorld)
    (hserves : ServesAs net addr views) (hresult : 254 ≤ result.length) :
    wp (resolverReply net) (resolverPre net addr x.world.sockets)
      (ptrDnsLookupInto addr pointers result)
      (fun outcome _ ↦ Resolves net (net.told views (List.range dnsMaxServers)) outcome) x := by
  refine wp_mono (wp_ptrDnsLookupInto result) ?_
  rintro outcome y ⟨hturn, -⟩
  exact hturn.resolves hserves hresult

def hostB : Dns.DomainName := ⟨[[98]], by decide, by decide⟩

/-- The name `b` where it stands in full, at the position 12. -/
def ownerB : Dns.OwnerName :=
  ⟨[[98]], [0], by decide, by decide, Dns.isEnding_root⟩

theorem pointer_short : ([192, 12] : List UInt8).length < 65536 := by decide

/-- A response that names `b` by a pointer into its question. -/
def hostMessage (id : UInt16) : Dns.Message where
  id := id
  flags := 0x8180
  questions := [⟨ownerB, 12, 1⟩]
  answers := [⟨rootName, 12, 1, 0, [192, 12], pointer_short⟩]
  authority := []
  additional := []

theorem isResponse_hostMessage (id : UInt16) : IsResponse (hostMessage id) id := by
  have hflags : (hostMessage id).flags = 0x8180 := rfl
  refine ⟨rfl, ?_, ?_, ?_⟩
  all_goals
    rw [hflags]
    decide

theorem tells_hostMessage (id : UInt16) : Tells (hostMessage id) id hostB := by
  have hname : Dns.Walk (hostMessage id).wire 12 [[98]] 0 15 :=
    .label (show (hostMessage id).wire[12]? = some 1 from rfl) (by decide) (by decide)
      (Nat.le_of_ble_eq_true rfl) (.root rfl)
  have hwalk : Dns.Walk (hostMessage id).wire 30 [[98]] 1 32 :=
    .pointer (show (hostMessage id).wire[30]? = some 192 from rfl) (by decide)
      (show (hostMessage id).wire[31]? = some 12 from rfl) (Nat.le_of_ble_eq_true rfl) hname
  refine ⟨isResponse_hostMessage id, Nat.le_of_ble_eq_true rfl, [], _, [], rfl, by simp, ⟨rfl, rfl⟩,
    1, 32, hwalk, by decide, by decide, ?_⟩
  exact Nat.le_of_ble_eq_true rfl

/-- One server at the address 5, which answers every query under its id. -/
def oneServer : Resolver where
  servers := fun i ↦ if i = 0 then 5 else 0
  answers := fun _ server query ↦
    if server = 5 then some (query.take 2 ++ (hostMessage 0).wire.drop 2) else none
  lossy := false

theorem ptrDnsLookup_truthful_one :
    wp (resolverReply oneServer) (resolverPre oneServer 0x7f000001 [])
      (ptrDnsLookupInto 0x7f000001 0 (List.replicate 256 0))
      (fun outcome _ ↦ Resolves oneServer [hostB] outcome) ⟨{}, {}⟩ := by
  refine ptrDnsLookup_truthful oneServer 0x7f000001
    (fun server ↦ if server = 5 then .tells hostB else .silent) 0 (List.replicate 256 0) ⟨{}, {}⟩
    ⟨fun server hview count id ↦ ?_, fun server hview count id ↦ ?_,
      fun server host hview count id ↦ ?_⟩ (by rw [List.length_replicate]; omega)
  · split_ifs at hview with hserver
    exact if_neg hserver
  · split_ifs at hview
  · split_ifs at hview with hserver
    obtain rfl := ServerView.tells.inj hview
    refine ⟨hostMessage id, (if_pos hserver).trans ?_, tells_hostMessage id⟩
    rw [Dns.wire_ptrQuery]
    rfl

end Ax88179Aroma.Shim
