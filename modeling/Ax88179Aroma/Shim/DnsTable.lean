import Ax88179Aroma.Shim.Dns

/-!
# The table of asynchronous lookups

Each operation on the table is one step here: the section of `shim_getaddrinfo_async` under the
lock, a release, a callback of lwIP and the reset at a title change.  Callbacks come in any order
and at any time, also for requests whose slot was released, reset and claimed again.  As long as
tickets do not repeat, a callback changes the table only for the request it belongs to.
-/

namespace Ax88179Aroma.Shim

open Effect Program

/-! ## The section under the lock -/

/-- What `shim_getaddrinfo_async` found or did under the lock. -/
inductive DnsLookup where
  | polled (slot : ℕ) (state : AsyncDnsState)
  | claimed (slot : ℕ) (ticket : BitVec 32)
  | full
  deriving DecidableEq, Repr

/-- The poll of an existing slot. -/
def asyncDnsConsume (slot : ℕ) : ShimM DnsLookup := do
  let state ← loadAsyncDns slot AsyncDnsSlot.state
  if state = .pending then pure (.polled slot state)
  else do
    storeAsyncDns slot fun a ↦ { a with state := .free }
    storeAsyncDns slot fun a ↦ { a with ticket := 0 }
    pure (.polled slot state)

def asyncDnsLookup (name : String) : ShimM DnsLookup := do
  let existing ← asyncDnsFindLocked name
  match existing with
  | some slot => asyncDnsConsume slot
  | none => do
    let claimed ← asyncDnsClaimLocked name
    match claimed with
    | none => pure .full
    | some (slot, ticket) => pure (.claimed slot ticket)

/-- What follows the section under the lock. -/
def asyncDnsFinish (node service : Option String) (hints : Option Addrinfo) (name : String) :
    DnsLookup → ShimM ShimReply
  | .polled _ state =>
    if state = .pending then pure { code := nsnEaiInprogress }
    else if state = .failed then pure { code := nsnEaiNoname }
    else shimGetaddrinfoSync node service hints true
  | .claimed slot ticket => asyncDnsStart node service hints name slot ticket
  | .full => pure { code := nsnEaiMemory }

/-- `shim_getaddrinfo_async` is its section under the lock and what follows. -/
theorem shimGetaddrinfoAsync_eq (name : String) (service : Option String)
    (hints : Option Addrinfo) (fuel : ℕ) (hname : dnsRewriteName name ≠ "") :
    shimGetaddrinfoAsync (some name) service hints true fuel = (do
      asyncDnsLock fuel
      let found ← asyncDnsLookup (dnsRewriteName name)
      asyncDnsUnlock
      asyncDnsFinish (some name) service hints (dnsRewriteName name) found) := by
  have hlawful : LawfulMonad ShimM := lawfulMonad
  simp only [shimGetaddrinfoAsync, Bool.true_eq_false, if_false, hname, asyncDnsLookup, bind_assoc]
  refine congrArg _ (funext fun _ ↦ congrArg _ (funext fun existing ↦ ?_))
  cases existing with
  | some slot =>
    simp only [asyncDnsPoll, asyncDnsConsume, bind_assoc]
    refine congrArg _ (funext fun state ↦ ?_)
    by_cases hpending : state = .pending
    · simp only [hpending, if_true, pure_bind, asyncDnsFinish]
    · simp only [hpending, if_false, bind_assoc, pure_bind, asyncDnsFinish]
  | none =>
    simp only [bind_assoc]
    refine congrArg _ (funext fun claimed ↦ ?_)
    cases claimed with
    | none => rfl
    | some pair => rfl

/-! ## Steps -/

/-- A request that was issued: its slot, ticket and host name, and the title it was made in. -/
structure DnsRequest where
  slot : ℕ
  ticket : BitVec 32
  name : String
  generation : ℕ
  deriving DecidableEq, Repr

def DnsRequest.token (q : DnsRequest) : BitVec 32 := asyncDnsToken q.ticket q.slot

/-- The shim, the requests so far, the answers that lwIP gave, and who each slot belongs to. -/
structure DnsConfig where
  mem : ShimState := {}
  requests : List DnsRequest := []
  generation : ℕ := 0
  answers : List (DnsRequest × Bool) := []
  owner : ℕ → Option DnsRequest := fun _ ↦ none

/-- The outside answers anything; the operations make no calls. -/
abbrev tableReply : Replies ShimState Unit ShimCall ShimReply := fun _ _ x ↦ some x

/-- The complete execution of one operation. -/
abbrev TableExec (program : ShimM α) (s : ShimState) (value : α) (s' : ShimState) : Prop :=
  Exec tableReply program { mem := s, world := () } value { mem := s', world := () }

namespace DnsConfig

/-- History after a lookup of `name`. -/
def looked (c : DnsConfig) (name : String) (found : DnsLookup) (s : ShimState) : DnsConfig :=
  match found with
  | .polled slot state =>
    { c with mem := s, owner := if state = .pending then c.owner else Function.update c.owner slot none }
  | .claimed slot ticket =>
    let q : DnsRequest := ⟨slot, ticket, name, c.generation⟩
    { c with mem := s, requests := q :: c.requests, owner := Function.update c.owner slot (some q) }
  | .full => { c with mem := s }

/-- History after a release: a request gives up the slot that still belongs to it. -/
def released (c : DnsConfig) (q : DnsRequest) (s : ShimState) : DnsConfig :=
  { c with
    mem := s
    owner := if c.owner q.slot = some q then Function.update c.owner q.slot none else c.owner }

/-- History after a callback. -/
def answered (c : DnsConfig) (q : DnsRequest) (found : Bool) (s : ShimState) : DnsConfig :=
  { c with mem := s, answers := (q, found) :: c.answers }

/-- History after a title change. -/
def reset (c : DnsConfig) (s : ShimState) : DnsConfig :=
  { c with mem := s, generation := c.generation + 1, owner := fun _ ↦ none }

end DnsConfig

/-- The configurations that any order of operations reaches. -/
inductive DnsReach : DnsConfig → Prop where
  | start : DnsReach {}
  | lookup {c : DnsConfig} (reached : DnsReach c) (name : String) (found : DnsLookup)
      (s : ShimState) (exec : TableExec (asyncDnsLookup name) c.mem found s) :
      DnsReach (c.looked name found s)
  | release {c : DnsConfig} (reached : DnsReach c) (q : DnsRequest) (issued : q ∈ c.requests)
      (s : ShimState) (exec : TableExec (asyncDnsReleaseIfTicket q.slot q.ticket) c.mem () s) :
      DnsReach (c.released q s)
  | callback {c : DnsConfig} (reached : DnsReach c) (q : DnsRequest) (issued : q ∈ c.requests)
      (found : Bool) (s : ShimState) (exec : TableExec (asyncDnsFound q.token found) c.mem () s) :
      DnsReach (c.answered q found s)
  | reset {c : DnsConfig} (reached : DnsReach c) (fuel : ℕ) (s : ShimState)
      (exec : TableExec (asyncDnsResetAll fuel) c.mem () s) : DnsReach (c.reset s)

/-! ## Tokens -/

theorem token_toNat {slot : ℕ} (hslot : slot < asyncDnsMax) (ticket : BitVec 32) :
    (asyncDnsToken ticket slot).toNat = ticket.toNat * 16 % 2 ^ 32 + (slot + 1) := by
  have hsmall : slot + 1 < 2 ^ 4 := by
    have : asyncDnsMax = 8 := rfl
    omega
  have hindex : (BitVec.ofNat 32 (slot + 1)).toNat = slot + 1 := by
    rw [BitVec.toNat_ofNat]
    exact Nat.mod_eq_of_lt (by omega)
  have hhigh : ticket.toNat * 16 % 2 ^ 32 = 2 ^ 4 * (ticket.toNat % 2 ^ 28) := by omega
  rw [asyncDnsToken, BitVec.toNat_or, hindex, BitVec.toNat_shiftLeft, Nat.shiftLeft_eq,
    show (2 : ℕ) ^ 4 = 16 from rfl, hhigh, Nat.two_pow_add_eq_or_of_lt hsmall]

theorem token_index {slot : ℕ} (hslot : slot < asyncDnsMax) (ticket : BitVec 32) :
    (asyncDnsToken ticket slot &&& 0x0f).toNat = slot + 1 := by
  have hmax : asyncDnsMax = 8 := rfl
  rw [BitVec.toNat_and, token_toNat hslot, show (0x0f : BitVec 32).toNat = 2 ^ 4 - 1 from rfl,
    Nat.and_two_pow_sub_one_eq_mod]
  omega

theorem token_ticket {slot : ℕ} (hslot : slot < asyncDnsMax) {ticket : BitVec 32}
    (hticket : ticket.toNat < 2 ^ 28) : asyncDnsToken ticket slot >>> 4 = ticket := by
  have hmax : asyncDnsMax = 8 := rfl
  apply BitVec.eq_of_toNat_eq
  rw [BitVec.toNat_ushiftRight, token_toNat hslot, Nat.shiftRight_eq_div_pow]
  omega

/-! ## What the operations do -/

section Operations

variable {s : ShimState} {name : String}

abbrev tableWp (program : ShimM α) (post : α → ShimState → Prop) (s : ShimState) : Prop :=
  wp tableReply (fun _ _ ↦ True) program (fun value y ↦ post value y.mem) { mem := s, world := () }

/-- A slot that holds a lookup. -/
def Busy (s : ShimState) (i : ℕ) : Prop :=
  (s.asyncDnsSlots i).state ≠ .free ∧ (s.asyncDnsSlots i).state ≠ .claimed

theorem wp_asyncDnsFind (name : String) (slots : List ℕ) :
    tableWp (asyncDnsFind name slots) (fun found s' ↦ s' = s ∧ match found with
      | none => ∀ i ∈ slots, Busy s i → (s.asyncDnsSlots i).name ≠ name
      | some i => i ∈ slots ∧ Busy s i ∧ (s.asyncDnsSlots i).name = name) s := by
  induction slots with
  | nil => exact ⟨rfl, nofun⟩
  | cons i rest ih =>
    have hskip : (Busy s i → (s.asyncDnsSlots i).name ≠ name) →
        tableWp (asyncDnsFind name rest) (fun found s' ↦ s' = s ∧ match found with
          | none => ∀ j ∈ i :: rest, Busy s j → (s.asyncDnsSlots j).name ≠ name
          | some j => j ∈ i :: rest ∧ Busy s j ∧ (s.asyncDnsSlots j).name = name) s := by
      intro hi
      refine wp_mono ih fun found y ⟨hsame, hfound⟩ ↦ ⟨hsame, ?_⟩
      cases found with
      | none =>
        intro j hj
        rcases List.mem_cons.mp hj with rfl | hrest
        · exact hi
        · exact hfound j hrest
      | some j => exact ⟨List.mem_cons_of_mem i hfound.1, hfound.2⟩
    rw [tableWp, asyncDnsFind, wp_bind, loadAsyncDns, wp_load, wp_ite]
    split
    · rename_i hidle
      refine hskip fun hbusy ↦ ?_
      rcases hidle with hfree | hclaimed
      · exact absurd hfree hbusy.1
      · exact absurd hclaimed hbusy.2
    · rename_i hbusy
      rw [not_or] at hbusy
      rw [wp_bind, loadAsyncDns, wp_load, wp_ite]
      split
      · rename_i hname
        exact ⟨rfl, List.mem_cons_self, hbusy, hname⟩
      · rename_i hname
        exact hskip fun _ ↦ hname

/-- The ticket that `async_dns_new_ticket` makes of the counter. -/
def nextTicket (s : ShimState) : BitVec 32 :=
  if s.asyncDnsTicketCounter &&& 0x0fffffff = 0 then 1 else s.asyncDnsTicketCounter &&& 0x0fffffff

/-- A slot taken for `name`. -/
def claimSlot (s : ShimState) (i : ℕ) (name : String) : ShimState :=
  { s with
    asyncDnsTicketCounter := s.asyncDnsTicketCounter + 1
    asyncDnsSlots := Function.update s.asyncDnsSlots i ⟨.pending, nextTicket s, name⟩ }

@[simp]
theorem setAsyncDns_self (s : ShimState) (i : ℕ) (f : AsyncDnsSlot → AsyncDnsSlot) :
    (s.setAsyncDns i f).asyncDnsSlots i = f (s.asyncDnsSlots i) :=
  Function.update_self i _ _

theorem setAsyncDns_of_ne (s : ShimState) {i j : ℕ} (h : j ≠ i) (f : AsyncDnsSlot → AsyncDnsSlot) :
    (s.setAsyncDns i f).asyncDnsSlots j = s.asyncDnsSlots j :=
  Function.update_of_ne h _ _

theorem setAsyncDns_setAsyncDns (s : ShimState) (i : ℕ) (f g : AsyncDnsSlot → AsyncDnsSlot) :
    (s.setAsyncDns i f).setAsyncDns i g = s.setAsyncDns i fun a ↦ g (f a) := by
  simp only [ShimState.setAsyncDns, Function.update_self, Function.update_idem]

theorem wp_asyncDnsClaim (name : String) (slots : List ℕ) :
    tableWp (asyncDnsClaim name slots) (fun claimed s' ↦ match claimed with
      | none => s' = s
      | some (i, ticket) => i ∈ slots ∧ (s.asyncDnsSlots i).state = .free ∧
          ticket = nextTicket s ∧ s' = claimSlot s i name) s := by
  induction slots with
  | nil => exact rfl
  | cons i rest ih =>
    rw [tableWp, asyncDnsClaim, wp_bind, wp_access]
    by_cases hfree : (s.asyncDnsSlots i).state = .free
    · simp only [swapAsyncDns, if_pos hfree, Bool.true_eq_false, if_false]
      simp only [asyncDnsNewTicket, storeAsyncDns, wp_bind, wp_access, wp_store, wp_pure]
      refine ⟨List.mem_cons_self, hfree, rfl, ?_⟩
      simp only [ShimState.setAsyncDns, Function.update_self, Function.update_idem]
      rfl
    · simp only [swapAsyncDns, if_neg hfree, if_true]
      refine wp_mono ih fun claimed y hclaimed ↦ ?_
      cases claimed with
      | none => exact hclaimed
      | some pair => exact ⟨List.mem_cons_of_mem i hclaimed.1, hclaimed.2⟩

/-- A slot given up. -/
def freeSlot (s : ShimState) (i : ℕ) : ShimState :=
  s.setAsyncDns i fun a ↦ { a with state := .free, ticket := 0 }

theorem wp_asyncDnsLookup (name : String) :
    tableWp (asyncDnsLookup name) (fun found s' ↦ match found with
      | .polled i state => i < asyncDnsMax ∧ Busy s i ∧ (s.asyncDnsSlots i).name = name ∧
          state = (s.asyncDnsSlots i).state ∧
          s' = if state = .pending then s else freeSlot s i
      | .claimed i ticket => i < asyncDnsMax ∧ (s.asyncDnsSlots i).state = .free ∧
          ticket = nextTicket s ∧ s' = claimSlot s i name ∧
          ∀ j < asyncDnsMax, Busy s j → (s.asyncDnsSlots j).name ≠ name
      | .full => s' = s) s := by
  rw [tableWp, asyncDnsLookup, wp_bind]
  refine wp_mono (wp_asyncDnsFind (s := s) name _) fun existing y ⟨hsame, hfound⟩ ↦ ?_
  obtain ⟨mem, world⟩ := y
  change mem = s at hsame
  subst mem
  cases existing with
  | some i =>
    obtain ⟨hi, hbusy, hname⟩ := hfound
    rw [List.mem_range] at hi
    change wp tableReply _ (asyncDnsConsume i) _ _
    rw [asyncDnsConsume, wp_bind, loadAsyncDns, wp_load, wp_ite]
    split
    · rename_i hpending
      refine ⟨hi, hbusy, hname, rfl, ?_⟩
      rw [if_pos hpending]
    · rename_i hdone
      simp only [storeAsyncDns, wp_bind, wp_store, wp_pure, setAsyncDns_setAsyncDns]
      refine ⟨hi, hbusy, hname, trivial, ?_⟩
      rw [if_neg hdone]
      rfl
  | none =>
    refine (wp_bind (asyncDnsClaimLocked name) _ _ _).mpr ?_
    rw [asyncDnsClaimLocked, wp_ite]
    split
    · exact rfl
    · refine wp_mono (wp_asyncDnsClaim (s := s) name _) fun claimed y hclaimed ↦ ?_
      cases claimed with
      | none => exact hclaimed
      | some pair =>
        obtain ⟨hi, hfree, hticket, hafter⟩ := hclaimed
        exact ⟨List.mem_range.mp hi, hfree, hticket, hafter,
          fun j hj ↦ hfound j (List.mem_range.mpr hj)⟩

theorem wp_asyncDnsReleaseIfTicket (i : ℕ) (ticket : BitVec 32) :
    tableWp (asyncDnsReleaseIfTicket i ticket) (fun _ s' ↦
      s' = if (s.asyncDnsSlots i).ticket = ticket then freeSlot s i else s) s := by
  rw [tableWp, asyncDnsReleaseIfTicket, wp_bind, loadAsyncDns, wp_load, wp_when]
  split
  · simp only [storeAsyncDns, wp_bind, wp_store, setAsyncDns_setAsyncDns]
    rfl
  · rfl

theorem wp_asyncDnsFound {i : ℕ} (hi : i < asyncDnsMax) {ticket : BitVec 32}
    (hticket : ticket.toNat < 2 ^ 28) (found : Bool) :
    tableWp (asyncDnsFound (asyncDnsToken ticket i) found) (fun _ s' ↦
      s' = if (s.asyncDnsSlots i).ticket = ticket ∧ (s.asyncDnsSlots i).state = .pending then
          s.setAsyncDns i fun a ↦ { a with state := if found then .ready else .failed }
        else s) s := by
  have hindex : (asyncDnsToken ticket i &&& 0x0f).toNat = i + 1 := token_index hi ticket
  have hmax : asyncDnsMax = 8 := rfl
  rw [tableWp, asyncDnsFound, hindex, Nat.add_sub_cancel, token_ticket hi hticket, wp_when,
    if_pos (by omega), wp_bind, loadAsyncDns, wp_load, wp_when]
  by_cases hsame : (s.asyncDnsSlots i).ticket = ticket
  · rw [if_pos hsame, wp_bind, wp_access]
    by_cases hpending : (s.asyncDnsSlots i).state = .pending
    · rw [if_pos ⟨hsame, hpending⟩, swapAsyncDns, if_pos hpending]
      rfl
    · rw [if_neg fun h ↦ hpending h.2, swapAsyncDns, if_neg hpending]
      rfl
  · rw [if_neg hsame, if_neg fun h ↦ hsame h.1]

/-- What a reset leaves in the slots. -/
theorem wp_asyncDnsResetAll (fuel : ℕ) :
    tableWp (asyncDnsResetAll fuel) (fun _ s' ↦
      s'.asyncDnsTicketCounter = s.asyncDnsTicketCounter ∧
      ∀ i < asyncDnsMax, s'.asyncDnsSlots i = ⟨.free, 0, ""⟩) s := by
  rw [tableWp, asyncDnsResetAll, wp_bind]
  have hlock : wp tableReply (fun _ _ ↦ True) (asyncDnsLock fuel)
      (fun _ y ↦ y.mem.asyncDnsTicketCounter = s.asyncDnsTicketCounter)
      { mem := s, world := () } := by
    have hkeeps : Keeps ShimState.asyncDnsTicketCounter (fun _ ↦ True) (asyncDnsLock fuel) := by
      induction fuel with
      | zero => trivial
      | succ fuel ih =>
        refine Keeps.bind (keeps_access fun _ ↦ rfl) fun _ ↦ Keeps.ite (keeps_pure ()) ?_
        exact Keeps.bind (Keeps.bind (keeps_perform trivial) fun _ ↦ keeps_pure ()) fun _ ↦ ih
    refine wp_keeps hkeeps ?_ ?_ ?_ ?_
    · exact fun y mem hmem hy ↦ hmem.trans hy
    · intro _ _ y z _ hy hreply
      cases hreply
      exact hy
    · exact fun _ _ _ _ ↦ trivial
    · rfl
  refine wp_mono hlock fun _ y hy ↦ ?_
  rw [wp_bind]
  have hslots : wp tableReply (fun _ _ ↦ True) (each (fun i ↦ do
      storeAsyncDns i fun a ↦ { a with ticket := 0 }
      storeAsyncDns i fun a ↦ { a with state := .free }
      storeAsyncDns i fun a ↦ { a with name := "" }) (List.range asyncDnsMax))
      (fun _ z ↦ z.mem.asyncDnsTicketCounter = s.asyncDnsTicketCounter ∧
        ∀ i ∈ List.range asyncDnsMax, z.mem.asyncDnsSlots i = ⟨.free, 0, ""⟩) y := by
    refine wp_each_mem ?_ fun i z hz ↦ ?_
    · exact hy
    · simp only [storeAsyncDns, wp_bind, wp_store, setAsyncDns_setAsyncDns]
      refine ⟨hz, Function.update_self i _ _, fun other hother ↦ ?_⟩
      by_cases hsame : other = i
      · rw [hsame]
        exact Function.update_self i _ _
      · exact (Function.update_of_ne hsame _ _).trans hother
  exact wp_mono hslots fun _ z hz ↦ ⟨hz.1, fun i hi ↦ hz.2 i (List.mem_range.mpr hi)⟩

end Operations

/-! ## The invariant -/

/-- A slot and the request that it belongs to. -/
structure Serves (c : DnsConfig) (i : ℕ) (q : DnsRequest) : Prop where
  issued : q ∈ c.requests
  slot : q.slot = i
  current : q.generation = c.generation
  ticket : (c.mem.asyncDnsSlots i).ticket = q.ticket
  name : (c.mem.asyncDnsSlots i).name = q.name
  state : (c.mem.asyncDnsSlots i).state = .pending ∨
    (c.mem.asyncDnsSlots i).state = .ready ∧ (q, true) ∈ c.answers ∨
    (c.mem.asyncDnsSlots i).state = .failed ∧ (q, false) ∈ c.answers

/-- What holds between operations, while tickets do not repeat. -/
structure DnsInv (c : DnsConfig) : Prop where
  counter : c.mem.asyncDnsTicketCounter.toNat = 1 + c.requests.length
  below : ∀ q ∈ c.requests, q.slot < asyncDnsMax
  ticket : ∀ q ∈ c.requests, 1 ≤ q.ticket.toNat ∧ q.ticket.toNat ≤ c.requests.length
  unique : ∀ q ∈ c.requests, ∀ q' ∈ c.requests, q.ticket = q'.ticket → q = q'
  owned : ∀ i < asyncDnsMax, ∀ q, c.owner i = some q → Serves c i q
  spare : ∀ i < asyncDnsMax, c.owner i = none →
    (c.mem.asyncDnsSlots i).state = .free ∧ (c.mem.asyncDnsSlots i).ticket = 0
  names : ∀ i < asyncDnsMax, ∀ j < asyncDnsMax, Busy c.mem i → Busy c.mem j →
    (c.mem.asyncDnsSlots i).name = (c.mem.asyncDnsSlots j).name → i = j

section Invariant

variable {c : DnsConfig} {i : ℕ} {q : DnsRequest}

theorem Serves.busy (h : Serves c i q) : Busy c.mem i := by
  rcases h.state with hpending | ⟨hready, -⟩ | ⟨hfailed, -⟩
  · rw [Busy, hpending]
    exact ⟨nofun, nofun⟩
  · rw [Busy, hready]
    exact ⟨nofun, nofun⟩
  · rw [Busy, hfailed]
    exact ⟨nofun, nofun⟩

/-- A request is served as long as its slot is left alone. -/
theorem Serves.congr {c' : DnsConfig} (h : Serves c i q)
    (hslot : c'.mem.asyncDnsSlots i = c.mem.asyncDnsSlots i)
    (hrequests : ∀ q ∈ c.requests, q ∈ c'.requests) (hgeneration : c'.generation = c.generation)
    (hanswers : ∀ a ∈ c.answers, a ∈ c'.answers) : Serves c' i q where
  issued := hrequests q h.issued
  slot := h.slot
  current := h.current.trans hgeneration.symm
  ticket := hslot ▸ h.ticket
  name := hslot ▸ h.name
  state := by
    rw [hslot]
    rcases h.state with hpending | ⟨hready, hyes⟩ | ⟨hfailed, hno⟩
    · exact .inl hpending
    · exact .inr (.inl ⟨hready, hanswers _ hyes⟩)
    · exact .inr (.inr ⟨hfailed, hanswers _ hno⟩)

namespace DnsInv

theorem start : DnsInv {} where
  counter := rfl
  below := nofun
  ticket := nofun
  unique := nofun
  owned := nofun
  spare _ _ _ := ⟨rfl, rfl⟩
  names _ _ _ _ hbusy := absurd rfl hbusy.1

/-- A busy slot belongs to a request. -/
theorem serves (h : DnsInv c) (hi : i < asyncDnsMax) (hbusy : Busy c.mem i) :
    ∃ q, c.owner i = some q ∧ Serves c i q := by
  cases howner : c.owner i with
  | none => exact absurd (h.spare i hi howner).1 hbusy.1
  | some q => exact ⟨q, rfl, h.owned i hi q howner⟩

/-- A slot with the ticket of a request belongs to it. -/
theorem owner_of_ticket (h : DnsInv c) (hq : q ∈ c.requests)
    (hticket : (c.mem.asyncDnsSlots q.slot).ticket = q.ticket) : c.owner q.slot = some q := by
  have hslot := h.below q hq
  cases howner : c.owner q.slot with
  | none =>
    have hzero := (h.spare q.slot hslot howner).2
    have hpos := (h.ticket q hq).1
    rw [← hticket, hzero] at hpos
    exact absurd hpos (by decide)
  | some other =>
    have hserves := h.owned q.slot hslot other howner
    rw [h.unique other hserves.issued q hq (hserves.ticket.symm.trans hticket)]

theorem nextTicket_toNat (h : DnsInv c) (hfew : c.requests.length + 1 < 2 ^ 28 - 1) :
    (nextTicket c.mem).toNat = 1 + c.requests.length := by
  have hmasked : (c.mem.asyncDnsTicketCounter &&& 0x0fffffff).toNat = 1 + c.requests.length := by
    rw [BitVec.toNat_and, h.counter, show (0x0fffffff : BitVec 32).toNat = 2 ^ 28 - 1 from rfl,
      Nat.and_two_pow_sub_one_eq_mod]
    omega
  rw [nextTicket, if_neg, hmasked]
  intro hzero
  rw [hzero] at hmasked
  exact absurd hmasked (by rw [show (0 : BitVec 32).toNat = 0 from rfl]; omega)

/-- A slot of a request is given up: it is polled, released or reset. -/
theorem free (h : DnsInv c) (i : ℕ) :
    DnsInv { c with mem := freeSlot c.mem i, owner := Function.update c.owner i none } := by
  have hother : ∀ j, j ≠ i → (freeSlot c.mem i).asyncDnsSlots j = c.mem.asyncDnsSlots j :=
    fun j hne ↦ Function.update_of_ne hne _ _
  have hself : (freeSlot c.mem i).asyncDnsSlots i =
      { c.mem.asyncDnsSlots i with state := .free, ticket := 0 } := Function.update_self i _ _
  have hbusy : ∀ j, Busy (freeSlot c.mem i) j → j ≠ i ∧ Busy c.mem j := by
    intro j hj
    have hne : j ≠ i := by
      rintro rfl
      exact hj.1 (by rw [hself])
    refine ⟨hne, ?_⟩
    rw [Busy, hother j hne] at hj
    exact hj
  refine { h with owned := fun j hj q hq ↦ ?_, spare := fun j hj hnone ↦ ?_, names := ?_ }
  · change Function.update c.owner i none j = some q at hq
    have hne : j ≠ i := by
      rintro rfl
      rw [Function.update_self] at hq
      cases hq
    rw [Function.update_of_ne hne] at hq
    exact (h.owned j hj q hq).congr (hother j hne) (fun _ h ↦ h) rfl fun _ h ↦ h
  · change Function.update c.owner i none j = none at hnone
    by_cases hne : j = i
    · rw [hne]
      change ((freeSlot c.mem i).asyncDnsSlots i).state = _ ∧
        ((freeSlot c.mem i).asyncDnsSlots i).ticket = _
      rw [hself]
      exact ⟨rfl, rfl⟩
    · rw [Function.update_of_ne hne] at hnone
      change ((freeSlot c.mem i).asyncDnsSlots j).state = _ ∧
        ((freeSlot c.mem i).asyncDnsSlots j).ticket = _
      rw [hother j hne]
      exact h.spare j hj hnone
  · intro j hj k hk hbj hbk hname
    obtain ⟨hnj, hbj⟩ := hbusy j hbj
    obtain ⟨hnk, hbk⟩ := hbusy k hbk
    change ((freeSlot c.mem i).asyncDnsSlots j).name =
      ((freeSlot c.mem i).asyncDnsSlots k).name at hname
    rw [hother j hnj, hother k hnk] at hname
    exact h.names j hj k hk hbj hbk hname

/-- A free slot is claimed for a name that no other slot has. -/
theorem claim (h : DnsInv c) (hi : i < asyncDnsMax) (hfree : (c.mem.asyncDnsSlots i).state = .free)
    {name : String} (hnew : ∀ j < asyncDnsMax, Busy c.mem j → (c.mem.asyncDnsSlots j).name ≠ name)
    (hfew : c.requests.length + 1 < 2 ^ 28 - 1) :
    DnsInv (c.looked name (.claimed i (nextTicket c.mem)) (claimSlot c.mem i name)) := by
  have hticket := h.nextTicket_toNat hfew
  have hother : ∀ j, j ≠ i → (claimSlot c.mem i name).asyncDnsSlots j = c.mem.asyncDnsSlots j :=
    fun j hne ↦ Function.update_of_ne hne _ _
  have hself : (claimSlot c.mem i name).asyncDnsSlots i = ⟨.pending, nextTicket c.mem, name⟩ :=
    Function.update_self i _ _
  have hbusy : ∀ j, j ≠ i → Busy (claimSlot c.mem i name) j → Busy c.mem j := by
    intro j hne hj
    rw [Busy, hother j hne] at hj
    exact hj
  have hfresh : ∀ q ∈ c.requests, q.ticket ≠ nextTicket c.mem := by
    intro q hq hsame
    have hle := (h.ticket q hq).2
    rw [hsame, hticket] at hle
    omega
  refine { counter := ?_, below := ?_, ticket := ?_, unique := ?_, owned := ?_, spare := ?_,
           names := ?_ }
  · change (c.mem.asyncDnsTicketCounter + 1).toNat = 1 + (c.requests.length + 1)
    rw [BitVec.toNat_add, h.counter, show (1 : BitVec 32).toNat = 1 from rfl]
    omega
  · intro q hq
    rcases List.mem_cons.mp hq with rfl | hold
    · exact hi
    · exact h.below q hold
  · intro q hq
    rcases List.mem_cons.mp hq with rfl | hold
    · change 1 ≤ (nextTicket c.mem).toNat ∧ (nextTicket c.mem).toNat ≤ c.requests.length + 1
      omega
    · have hbounds := h.ticket q hold
      change 1 ≤ q.ticket.toNat ∧ q.ticket.toNat ≤ c.requests.length + 1
      omega
  · intro q hq q' hq' hsame
    rcases List.mem_cons.mp hq with rfl | hold
    · rcases List.mem_cons.mp hq' with rfl | hold'
      · rfl
      · exact absurd hsame.symm (hfresh q' hold')
    · rcases List.mem_cons.mp hq' with rfl | hold'
      · exact absurd hsame (hfresh q hold)
      · exact h.unique q hold q' hold' hsame
  · intro j hj q hq
    change Function.update c.owner i _ j = some q at hq
    by_cases hne : j = i
    · rw [hne, Function.update_self] at hq
      rw [hne, ← Option.some.inj hq]
      exact {
        issued := List.mem_cons_self
        slot := rfl
        current := rfl
        ticket := congrArg AsyncDnsSlot.ticket hself
        name := congrArg AsyncDnsSlot.name hself
        state := .inl (congrArg AsyncDnsSlot.state hself) }
    · rw [Function.update_of_ne hne] at hq
      exact (h.owned j hj q hq).congr (hother j hne) (fun _ h ↦ List.mem_cons_of_mem _ h) rfl
        fun _ h ↦ h
  · intro j hj hnone
    change Function.update c.owner i _ j = none at hnone
    have hne : j ≠ i := by
      rintro rfl
      rw [Function.update_self] at hnone
      cases hnone
    rw [Function.update_of_ne hne] at hnone
    change ((claimSlot c.mem i name).asyncDnsSlots j).state = _ ∧
      ((claimSlot c.mem i name).asyncDnsSlots j).ticket = _
    rw [hother j hne]
    exact h.spare j hj hnone
  · intro j hj k hk hbj hbk hname
    change ((claimSlot c.mem i name).asyncDnsSlots j).name =
      ((claimSlot c.mem i name).asyncDnsSlots k).name at hname
    by_cases hnj : j = i
    · by_cases hnk : k = i
      · rw [hnj, hnk]
      · rw [hnj, hself, hother k hnk] at hname
        exact absurd hname.symm (hnew k hk (hbusy k hnk hbk))
    · by_cases hnk : k = i
      · rw [hnk, hself, hother j hnj] at hname
        exact absurd hname (hnew j hj (hbusy j hnj hbj))
      · rw [hother j hnj, hother k hnk] at hname
        exact h.names j hj k hk (hbusy j hnj hbj) (hbusy k hnk hbk) hname

/-- A callback is recorded that changed nothing. -/
theorem answered (h : DnsInv c) (q : DnsRequest) (found : Bool) :
    DnsInv (c.answered q found c.mem) where
  counter := h.counter
  below := h.below
  ticket := h.ticket
  unique := h.unique
  owned i hi q hq :=
    (h.owned i hi q hq).congr rfl (fun _ h ↦ h) rfl fun _ h ↦ List.mem_cons_of_mem _ h
  spare := h.spare
  names := h.names

/-- A callback completes the lookup of its own request. -/
theorem complete (h : DnsInv c) (hq : q ∈ c.requests) (howner : c.owner q.slot = some q)
    (found : Bool) :
    DnsInv (c.answered q found (c.mem.setAsyncDns q.slot fun a ↦
      { a with state := if found then .ready else .failed })) := by
  have hslot := h.below q hq
  set s := c.mem.setAsyncDns q.slot fun a ↦
    { a with state := if found then .ready else .failed } with hs
  have hother : ∀ j, j ≠ q.slot → s.asyncDnsSlots j = c.mem.asyncDnsSlots j :=
    fun j hne ↦ Function.update_of_ne hne _ _
  have hself : s.asyncDnsSlots q.slot =
      { c.mem.asyncDnsSlots q.slot with state := if found then .ready else .failed } :=
    Function.update_self _ _ _
  have hserves := h.owned q.slot hslot q howner
  have hbusy : ∀ j, Busy s j → Busy c.mem j := by
    intro j hj
    by_cases hne : j = q.slot
    · rw [hne]
      exact hserves.busy
    · rw [Busy, hother j hne] at hj
      exact hj
  have hname : ∀ j, (s.asyncDnsSlots j).name = (c.mem.asyncDnsSlots j).name := by
    intro j
    by_cases hne : j = q.slot
    · rw [hne, hself]
    · rw [hother j hne]
  refine { h with owned := fun i hi other hother' ↦ ?_, spare := fun i hi hnone ↦ ?_, names := ?_ }
  · change c.owner i = some other at hother'
    by_cases hne : i = q.slot
    · rw [hne, howner] at hother'
      rw [hne, ← Option.some.inj hother']
      exact {
        issued := hserves.issued
        slot := rfl
        current := hserves.current
        ticket := (congrArg AsyncDnsSlot.ticket hself).trans hserves.ticket
        name := (hname q.slot).trans hserves.name
        state := by
          change (s.asyncDnsSlots q.slot).state = _ ∨ (s.asyncDnsSlots q.slot).state = _ ∧ _ ∨
            (s.asyncDnsSlots q.slot).state = _ ∧ _
          rw [hself]
          cases found with
          | true => exact .inr (.inl ⟨rfl, List.mem_cons_self⟩)
          | false => exact .inr (.inr ⟨rfl, List.mem_cons_self⟩) }
    · exact (h.owned i hi other hother').congr (hother i hne) (fun _ h ↦ h) rfl
        fun _ h ↦ List.mem_cons_of_mem _ h
  · change c.owner i = none at hnone
    have hne : i ≠ q.slot := by
      rintro rfl
      rw [howner] at hnone
      cases hnone
    change (s.asyncDnsSlots i).state = _ ∧ (s.asyncDnsSlots i).ticket = _
    rw [hother i hne]
    exact h.spare i hi hnone
  · intro i hi j hj hbi hbj hsame
    change (s.asyncDnsSlots i).name = (s.asyncDnsSlots j).name at hsame
    rw [hname i, hname j] at hsame
    exact h.names i hi j hj (hbusy i hbi) (hbusy j hbj) hsame

/-- A title change empties the table and keeps the counter. -/
theorem reset (h : DnsInv c) {s : ShimState}
    (hcounter : s.asyncDnsTicketCounter = c.mem.asyncDnsTicketCounter)
    (hslots : ∀ i < asyncDnsMax, s.asyncDnsSlots i = ⟨.free, 0, ""⟩) : DnsInv (c.reset s) where
  counter := (congrArg BitVec.toNat hcounter).trans h.counter
  below := h.below
  ticket := h.ticket
  unique := h.unique
  owned _ _ _ hq := nomatch hq
  spare i hi _ := by
    change (s.asyncDnsSlots i).state = _ ∧ (s.asyncDnsSlots i).ticket = _
    rw [hslots i hi]
    exact ⟨rfl, rfl⟩
  names i hi _ _ hbusy := by
    have hbusy : Busy s i := hbusy
    rw [Busy, hslots i hi] at hbusy
    exact absurd rfl hbusy.1

theorem ticket_lt (h : DnsInv c) (hfew : c.requests.length < 2 ^ 28 - 1) (hq : q ∈ c.requests) :
    q.ticket.toNat < 2 ^ 28 := by
  have := (h.ticket q hq).2
  omega

end DnsInv

theorem DnsReach.inv (h : DnsReach c) (hfew : c.requests.length < 2 ^ 28 - 1) : DnsInv c := by
  induction h with
  | start => exact .start
  | @lookup c reached name found s exec ih =>
    have hfound := exec.post_of_wp (wp_asyncDnsLookup name)
    cases found with
    | polled i state =>
      have hinv := ih hfew
      obtain ⟨hi, hbusy, hname, hstate, rfl⟩ := hfound
      rw [DnsConfig.looked]
      by_cases hpending : state = .pending
      · rw [if_pos hpending, if_pos hpending]
        exact hinv
      · rw [if_neg hpending, if_neg hpending]
        exact hinv.free i
    | claimed i ticket =>
      obtain ⟨hi, hfree, rfl, rfl, hnew⟩ := hfound
      have hfew : c.requests.length + 1 < 2 ^ 28 - 1 := hfew
      exact (ih (by omega)).claim hi hfree hnew hfew
    | full =>
      have hsame : s = c.mem := hfound
      rw [hsame]
      exact ih hfew
  | @release c reached q issued s exec ih =>
    have hinv := ih hfew
    have hafter : s = _ := exec.post_of_wp (wp_asyncDnsReleaseIfTicket q.slot q.ticket)
    rw [DnsConfig.released]
    by_cases hticket : (c.mem.asyncDnsSlots q.slot).ticket = q.ticket
    · rw [hafter, if_pos hticket, if_pos (hinv.owner_of_ticket issued hticket)]
      exact hinv.free q.slot
    · have hforeign : c.owner q.slot ≠ some q := fun howner ↦
        hticket (hinv.owned q.slot (hinv.below q issued) q howner).ticket
      rw [hafter, if_neg hticket, if_neg hforeign]
      exact hinv
  | @callback c reached q issued found s exec ih =>
    have hinv := ih hfew
    have hafter : s = _ := exec.post_of_wp (wp_asyncDnsFound (hinv.below q issued)
      (hinv.ticket_lt hfew issued) found)
    rw [hafter]
    split
    · rename_i hboth
      exact hinv.complete issued (hinv.owner_of_ticket issued hboth.1) found
    · exact hinv.answered q found
  | @reset c reached fuel s exec ih =>
    obtain ⟨hcounter, hslots⟩ := exec.post_of_wp (wp_asyncDnsResetAll fuel)
    exact (ih hfew).reset hcounter hslots

/-- In every order of operations with fewer than `2 ^ 28 - 1` requests: a callback changes the table
only while its slot belongs to its request and is pending, a verdict comes from a request made for
the same name since the last reset, tokens are decoded to what they were built from, and no two
lookups in the table have the same name. -/
theorem dnsReach_safe (h : DnsReach c) (hfew : c.requests.length < 2 ^ 28 - 1) :
    (∀ q ∈ c.requests, ∀ found s, TableExec (asyncDnsFound q.token found) c.mem () s →
      s ≠ c.mem →
      c.owner q.slot = some q ∧ (c.mem.asyncDnsSlots q.slot).state = .pending) ∧
    (∀ name slot state s, TableExec (asyncDnsLookup name) c.mem (.polled slot state) s →
      state ≠ .pending →
      ∃ q ∈ c.requests, q.name = name ∧ q.generation = c.generation ∧
        (state = .ready ∧ (q, true) ∈ c.answers ∨ state = .failed ∧ (q, false) ∈ c.answers)) ∧
    (∀ q ∈ c.requests, (q.token &&& 0x0f).toNat = q.slot + 1 ∧ q.token >>> 4 = q.ticket) ∧
    ∀ i < asyncDnsMax, ∀ j < asyncDnsMax, Busy c.mem i → Busy c.mem j →
      (c.mem.asyncDnsSlots i).name = (c.mem.asyncDnsSlots j).name → i = j := by
  have hinv := h.inv hfew
  refine ⟨fun q hq found s hexec hne ↦ ?_, fun name slot state s hexec hdone ↦ ?_, fun q hq ↦ ?_,
    hinv.names⟩
  · have hafter : s = _ := hexec.post_of_wp (wp_asyncDnsFound (hinv.below q hq)
      (hinv.ticket_lt hfew hq) found)
    by_cases hboth : (c.mem.asyncDnsSlots q.slot).ticket = q.ticket ∧
        (c.mem.asyncDnsSlots q.slot).state = .pending
    · exact ⟨hinv.owner_of_ticket hq hboth.1, hboth.2⟩
    · rw [if_neg hboth] at hafter
      exact absurd hafter hne
  · obtain ⟨hi, hbusy, hname, rfl, -⟩ := hexec.post_of_wp (wp_asyncDnsLookup name)
    obtain ⟨q, -, hserves⟩ := hinv.serves hi hbusy
    refine ⟨q, hserves.issued, hserves.name.symm.trans hname, hserves.current, ?_⟩
    exact hserves.state.resolve_left hdone
  · exact ⟨token_index (hinv.below q hq) q.ticket,
      token_ticket (hinv.below q hq) (hinv.ticket_lt hfew hq)⟩

end Invariant

theorem tableExec_of_run {program : ShimM α} {s s' : ShimState} {value : α}
    (hrun : run tableReply program [] { mem := s, world := () } =
      some (value, { mem := s', world := () }, [])) : TableExec program s value s' :=
  exec_of_run hrun

/-- A lookup before a title change and one of another name after it share a slot; the late callback
of the first leaves the second alone. -/
theorem dnsReach_safe_stale : ∃ c, DnsReach c ∧
    c.requests = [⟨0, 2, "b.example", 1⟩, ⟨0, 1, "a.example", 0⟩] ∧
    c.owner 0 = some ⟨0, 2, "b.example", 1⟩ ∧
    ∃ s, TableExec (asyncDnsFound (asyncDnsToken 1 0) true) c.mem () s ∧ s = c.mem := by
  have hfirst := DnsReach.lookup .start "a.example" (.claimed 0 1) _ (tableExec_of_run rfl)
  have hreset := hfirst.reset 1 _ (tableExec_of_run rfl)
  have hsecond := hreset.lookup "b.example" (.claimed 0 2) _ (tableExec_of_run rfl)
  refine ⟨_, hsecond, rfl, rfl, _, tableExec_of_run rfl, ?_⟩
  by_contra hchanged
  have howner := ((dnsReach_safe hsecond (by decide)).1 ⟨0, 1, "a.example", 0⟩
    (List.mem_cons_of_mem _ List.mem_cons_self) true _ (tableExec_of_run rfl) hchanged).1
  cases howner

end Ax88179Aroma.Shim
