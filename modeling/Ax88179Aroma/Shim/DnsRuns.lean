import Ax88179Aroma.Effect.History
import Ax88179Aroma.Shim.Frames
import Ax88179Aroma.Shim.DnsTable

/-!
# Concurrent lookups

Title threads look host names up while lwIP calls back, one atomic access after the other.  The
claim of a slot and the poll of one run under the table lock, the callback and the release of a
slot that was not needed do not.  The release makes the slot free before it clears the ticket, so
a claim in between loses its ticket.  Where no claim comes in between, every pending slot has a
request for which lwIP still has to call back or is doing so.
-/

namespace Ax88179Aroma.Shim

open Effect Program

/-! ## The system -/

/-- Threads of the title, and threads on which lwIP calls back. -/
inductive DnsThread where
  | title (n : ℕ)
  | lwip (n : ℕ)
  deriving DecidableEq, Repr

inductive DnsOperation where
  | lookup (node service : Option String) (hints : Option Addrinfo) (res : Bool) (fuel : ℕ)
  | callback (token : BitVec 32) (found : Bool)

/-- What lwIP knows of its requests. -/
structure DnsWorld where
  /-- requests in progress, by their tokens -/
  waiting : List (BitVec 32) := []
  /-- the request that a thread calls back for -/
  calling : DnsThread → Option (BitVec 32) := fun _ ↦ none

/-- lwIP takes a request when it answers `ERR_INPROGRESS`, and calls back once for each. -/
def dnsReply (t : DnsThread) : Replies ShimState DnsWorld ShimCall ShimReply
  | .lwip (.dnsGethostbyname _ token), answer, x =>
    some (if answer.code = errInprogress then
      { x with world := { x.world with waiting := token :: x.world.waiting } }
    else x)
  | .note (.dnsCallback token), _, x =>
    if token ∈ x.world.waiting then
      some { x with
        world := {
          waiting := x.world.waiting.erase token
          calling := Function.update x.world.calling t (some token) } }
    else none
  | .note .dnsReturned, _, x =>
    some { x with world := { x.world with calling := Function.update x.world.calling t none } }
  | _, _, x => some x

/-- A callback as lwIP makes it. -/
def dnsDeliver (token : BitVec 32) (found : Bool) : ShimM Unit := do
  note (.dnsCallback token)
  asyncDnsFound token found
  note .dnsReturned

def dnsSystem : System DnsThread DnsOperation Empty ShimState DnsWorld ShimCall ShimReply where
  reply := dnsReply
  env _ _ := none
  body
    | _, .lookup node service hints res fuel =>
      ignore (shimGetaddrinfoAsync node service hints res fuel)
    | _, .callback token found => dnsDeliver token found
  enabled
    | .title _, .lookup _ _ _ _ _, _ => true
    | .lwip _, .callback _ _, _ => true
    | _, _, _ => false

/-! ## Observation -/

/-- Who works on a slot, and who has the table lock.  A title thread works on a slot from its claim
until lwIP took the request or the second store of the release, a thread of lwIP from the beginning
of the callback until it set the verdict. -/
structure DnsGhost where
  holder : ℕ → Option DnsThread := fun _ ↦ none
  locker : Option DnsThread := none

def asyncState (s : ShimState) (k : ℕ) : AsyncDnsState := (s.asyncDnsSlots k).state

/-- The access claims slot `k`. -/
abbrev Claims (update : ShimState → ShimState) (s : ShimState) (k : ℕ) : Prop :=
  asyncState s k = .free ∧ asyncState (update s) k = .claimed

/-- The access stores zero in the ticket of the free slot `k`, whatever was there. -/
abbrev ClearsTicket (update : ShimState → ShimState) (s : ShimState) (k : ℕ) : Prop :=
  asyncState s k = .free ∧
    ((update (s.setAsyncDns k fun a ↦ { a with ticket := 1 })).asyncDnsSlots k).ticket = 0

/-- The access sets the verdict of slot `k`. -/
abbrev Completes (update : ShimState → ShimState) (s : ShimState) (k : ℕ) : Prop :=
  asyncState s k = .pending ∧
    (asyncState (update s) k = .ready ∨ asyncState (update s) k = .failed)

abbrev DnsWatched := Watched ShimState DnsWorld DnsGhost

def holderAfter (t : DnsThread) (update : ShimState → ShimState) (x : DnsWatched) (k : ℕ) :
    Option DnsThread :=
  if Claims update x.mem k then some t
  else if x.ghost.holder k = some t ∧ (ClearsTicket update x.mem k ∨ Completes update x.mem k) then
    none
  else x.ghost.holder k

def lockerAfter (t : DnsThread) (update : ShimState → ShimState) (x : DnsWatched) :
    Option DnsThread :=
  if x.mem.asyncDnsTableLock = false ∧ (update x.mem).asyncDnsTableLock = true then some t
  else if x.mem.asyncDnsTableLock = true ∧ (update x.mem).asyncDnsTableLock = false then none
  else x.ghost.locker

/-- The slot that a token names. -/
def slotOf (token : BitVec 32) : ℕ := (token &&& 0x0f).toNat - 1

/-- A claim is refused while the thread that released the slot has not cleared its ticket. -/
def dnsMonitor : Monitor DnsThread ShimState DnsWorld ShimCall ShimReply DnsGhost where
  access t update x :=
    if ∀ k < asyncDnsMax, Claims update x.mem k → x.ghost.holder k = none then
      some { holder := holderAfter t update x, locker := lockerAfter t update x }
    else none
  reply
    | _, .lwip (.dnsGethostbyname _ token), answer, x =>
      some (if answer.code = errInprogress then
        { x.ghost with holder := Function.update x.ghost.holder (slotOf token) none }
      else x.ghost)
    | t, .note (.dnsCallback token), _, x =>
      some { x.ghost with holder := Function.update x.ghost.holder (slotOf token) (some t) }
    | _, _, _, x => some x.ghost

/-! ## The invariant -/

/-- What a slot is in, given who works on it. -/
structure SlotOk (x : DnsWatched) (k : ℕ) : Prop where
  ticket : asyncState x.mem k = .pending →
    (x.mem.asyncDnsSlots k).ticket ≠ 0 ∧ (x.mem.asyncDnsSlots k).ticket.toNat < 2 ^ 28
  waits : asyncState x.mem k = .pending → x.ghost.holder k = none →
    k < asyncDnsMax ∧ asyncDnsToken (x.mem.asyncDnsSlots k).ticket k ∈ x.world.waiting
  answered : ∀ n, x.ghost.holder k = some (.lwip n) → k < asyncDnsMax ∧
    asyncState x.mem k = .pending ∧
      x.world.calling (.lwip n) = some (asyncDnsToken (x.mem.asyncDnsSlots k).ticket k)
  verdict : asyncState x.mem k = .ready ∨ asyncState x.mem k = .failed → x.ghost.holder k = none
  claimed : asyncState x.mem k = .claimed →
    x.ghost.holder k = x.ghost.locker ∧ x.ghost.locker ≠ none

structure DnsSafe (x : DnsWatched) : Prop where
  slots : ∀ k, SlotOk x k
  nodup : x.world.waiting.Nodup
  waiting : ∀ token ∈ x.world.waiting, ∃ k < asyncDnsMax, asyncState x.mem k = .pending ∧
    x.ghost.holder k = none ∧ token = asyncDnsToken (x.mem.asyncDnsSlots k).ticket k
  lock : x.mem.asyncDnsTableLock = true ↔ x.ghost.locker ≠ none

/-- A state that only the thread with the lock changes. -/
abbrev Settled (state : AsyncDnsState) : Prop :=
  state = .free ∨ state = .ready ∨ state = .failed

/-- What the other threads leave to thread `t`. -/
structure DnsRely (t : DnsThread) (x y : DnsWatched) : Prop where
  held : ∀ k, y.ghost.holder k = some t ↔ x.ghost.holder k = some t
  slot : ∀ k, x.ghost.holder k = some t → asyncState x.mem k ≠ .free →
    y.mem.asyncDnsSlots k = x.mem.asyncDnsSlots k
  window : ∀ k, x.ghost.holder k = some t → asyncState x.mem k = .free →
    asyncState y.mem k = .free
  lock : y.ghost.locker = some t ↔ x.ghost.locker = some t
  settled : x.ghost.locker = some t → ∀ k, Settled (asyncState x.mem k) →
    asyncState y.mem k = asyncState x.mem k
  calling : y.world.calling t = x.world.calling t

def dnsProtocol : Protocol DnsThread ShimState DnsWorld ShimCall DnsGhost where
  inv := DnsSafe
  rely := DnsRely

namespace DnsRely

theorem refl (t : DnsThread) (x : DnsWatched) : DnsRely t x x where
  held _ := Iff.rfl
  slot _ _ _ := rfl
  window _ _ h := h
  lock := Iff.rfl
  settled _ _ _ := rfl
  calling := rfl

theorem trans {t : DnsThread} {x y z : DnsWatched} (hxy : DnsRely t x y) (hyz : DnsRely t y z) :
    DnsRely t x z where
  held k := (hyz.held k).trans (hxy.held k)
  slot k hheld hbusy := by
    have hsame := hxy.slot k hheld hbusy
    have hbusy' : asyncState y.mem k ≠ .free := by
      rw [asyncState, hsame]
      exact hbusy
    exact (hyz.slot k ((hxy.held k).mpr hheld) hbusy').trans hsame
  window k hheld hfree := hyz.window k ((hxy.held k).mpr hheld) (hxy.window k hheld hfree)
  lock := hyz.lock.trans hxy.lock
  settled hlock k hsettled := by
    have hsame := hxy.settled hlock k hsettled
    have hsettled' : Settled (asyncState y.mem k) := by
      rw [hsame]
      exact hsettled
    exact (hyz.settled (hxy.lock.mpr hlock) k hsettled').trans hsame
  calling := hyz.calling.trans hxy.calling

end DnsRely

/-! ## Steps -/

section Steps

variable {t : DnsThread} {x y : DnsWatched} {k : ℕ} {g : DnsGhost}
  {update : ShimState → ShimState}

/-- A step of thread `t` that touches no slot but `k`, which lwIP is not working on. -/
structure SlotStep (t : DnsThread) (k : ℕ) (x y : DnsWatched) : Prop where
  world : y.world = x.world
  lock : y.mem.asyncDnsTableLock = x.mem.asyncDnsTableLock
  locker : y.ghost.locker = x.ghost.locker
  others : ∀ j, j ≠ k → y.mem.asyncDnsSlots j = x.mem.asyncDnsSlots j ∧
    y.ghost.holder j = x.ghost.holder j
  ours : asyncState x.mem k = .pending → x.ghost.holder k ≠ none
  held : ∀ u, u ≠ t → (y.ghost.holder k = some u ↔ x.ghost.holder k = some u)
  window : ∀ u, u ≠ t → x.ghost.holder k = some u →
    asyncState x.mem k = .free ∧ asyncState y.mem k = .free
  settled : ∀ u, u ≠ t → x.ghost.locker = some u → Settled (asyncState x.mem k) →
    asyncState y.mem k = asyncState x.mem k
  slot : SlotOk y k

/-- What is said of a slot depends on little else. -/
theorem SlotOk.congr {j : ℕ} (h : SlotOk x j)
    (hslot : y.mem.asyncDnsSlots j = x.mem.asyncDnsSlots j)
    (hholder : y.ghost.holder j = x.ghost.holder j) (hlocker : y.ghost.locker = x.ghost.locker)
    (hworld : y.world = x.world) : SlotOk y j := by
  have hstate : asyncState y.mem j = asyncState x.mem j := congrArg AsyncDnsSlot.state hslot
  refine ⟨?_, ?_, ?_, ?_, ?_⟩
  · rw [hstate, hslot]
    exact h.ticket
  · rw [hstate, hslot, hholder, hworld]
    exact h.waits
  · rw [hstate, hslot, hholder, hworld]
    exact h.answered
  · rw [hstate, hholder]
    exact h.verdict
  · rw [hstate, hholder, hlocker]
    exact h.claimed

theorem SlotStep.safe (h : SlotStep t k x y) (hx : DnsSafe x) : DnsSafe y where
  slots j := by
    by_cases hj : j = k
    · rw [hj]
      exact h.slot
    · exact (hx.slots j).congr (h.others j hj).1 (h.others j hj).2 h.locker h.world
  nodup := by
    rw [h.world]
    exact hx.nodup
  waiting token htoken := by
    rw [h.world] at htoken
    obtain ⟨j, hlt, hpending, hholder, htoken⟩ := hx.waiting token htoken
    have hj : j ≠ k := by
      rintro rfl
      exact h.ours hpending hholder
    obtain ⟨hslot, hkept⟩ := h.others j hj
    refine ⟨j, hlt, ?_, ?_, ?_⟩
    · rw [asyncState, hslot]
      exact hpending
    · rw [hkept]
      exact hholder
    · rw [hslot]
      exact htoken
  lock := by
    rw [h.lock, h.locker]
    exact hx.lock

theorem SlotStep.rely (h : SlotStep t k x y) {u : DnsThread} (hu : u ≠ t) : DnsRely u x y where
  held j := by
    by_cases hj : j = k
    · rw [hj]
      exact h.held u hu
    · rw [(h.others j hj).2]
  slot j hheld hbusy := by
    have hj : j ≠ k := by
      rintro rfl
      exact hbusy (h.window u hu hheld).1
    exact (h.others j hj).1
  window j hheld hfree := by
    by_cases hj : j = k
    · rw [hj] at hheld ⊢
      exact (h.window u hu hheld).2
    · rw [asyncState, (h.others j hj).1]
      exact hfree
  lock := by rw [h.locker]
  settled hlock j hsettled := by
    by_cases hj : j = k
    · rw [hj] at hsettled ⊢
      exact h.settled u hu hlock hsettled
    · exact congrArg AsyncDnsSlot.state (h.others j hj).1
  calling := by rw [h.world]

theorem SlotStep.permits (h : SlotStep t k x y) (hx : DnsSafe x) : dnsProtocol.Permits t x y :=
  ⟨h.safe hx, fun _ hu ↦ h.rely hu⟩

theorem access_eq (haccess : dnsMonitor.access t update x = some g) :
    g = ⟨holderAfter t update x, lockerAfter t update x⟩ ∧
      ∀ k < asyncDnsMax, Claims update x.mem k → x.ghost.holder k = none := by
  simp only [dnsMonitor] at haccess
  split at haccess
  · rename_i haccepted
    exact ⟨(Option.some.inj haccess).symm, haccepted⟩
  · cases haccess

/-- An access that does not touch a slot leaves it with its thread. -/
theorem holderAfter_same (hslot : ∀ s, (update s).asyncDnsSlots k = s.asyncDnsSlots k) :
    holderAfter t update x k = x.ghost.holder k := by
  have hstate : asyncState (update x.mem) k = asyncState x.mem k :=
    congrArg AsyncDnsSlot.state (hslot x.mem)
  have hclaims : ¬ Claims update x.mem k := by
    rw [Claims, hstate]
    rintro ⟨hfree, hclaimed⟩
    rw [hfree] at hclaimed
    cases hclaimed
  have hclears : ¬ ClearsTicket update x.mem k := by
    rw [ClearsTicket, hslot, setAsyncDns_self]
    rintro ⟨-, hone⟩
    exact (by decide : (1 : BitVec 32) ≠ 0) hone
  have hcompletes : ¬ Completes update x.mem k := by
    rw [Completes, hstate]
    rintro ⟨hpending, hready | hfailed⟩
    · rw [hpending] at hready
      cases hready
    · rw [hpending] at hfailed
      cases hfailed
  rw [holderAfter, if_neg hclaims, if_neg]
  rintro ⟨-, hc | hc⟩
  · exact hclears hc
  · exact hcompletes hc

theorem lockerAfter_same (hlock : (update x.mem).asyncDnsTableLock = x.mem.asyncDnsTableLock) :
    lockerAfter t update x = x.ghost.locker := by
  rw [lockerAfter, hlock]
  cases x.mem.asyncDnsTableLock <;> simp

/-- What of the memory the protocol looks at. -/
def dnsView (s : ShimState) : (ℕ → AsyncDnsSlot) × Bool := (s.asyncDnsSlots, s.asyncDnsTableLock)

/-- An access that touches neither the table nor the lock is not recorded. -/
theorem access_quiet (haccess : dnsMonitor.access t update x = some g)
    (hview : ∀ s, dnsView (update s) = dnsView s) : g = x.ghost := by
  obtain ⟨rfl, -⟩ := access_eq haccess
  have hholder : holderAfter t update x = x.ghost.holder := funext fun k ↦
    holderAfter_same fun s ↦ congrFun (congrArg Prod.fst (hview s)) k
  rw [hholder, lockerAfter_same (congrArg Prod.snd (hview x.mem))]

theorem permits_quiet (hview : dnsView y.mem = dnsView x.mem) (hghost : y.ghost = x.ghost)
    (hworld : y.world = x.world) (hx : DnsSafe x) : dnsProtocol.Permits t x y := by
  have hslots : y.mem.asyncDnsSlots = x.mem.asyncDnsSlots := congrArg Prod.fst hview
  have hlock : y.mem.asyncDnsTableLock = x.mem.asyncDnsTableLock := congrArg Prod.snd hview
  have hstate : ∀ k, asyncState y.mem k = asyncState x.mem k := fun k ↦ by
    rw [asyncState, hslots, asyncState]
  refine ⟨⟨fun k ↦ ?_, ?_, ?_, ?_⟩, fun u _ ↦ ⟨fun k ↦ ?_, fun k _ _ ↦ ?_, fun k _ hfree ↦ ?_, ?_,
    fun _ k _ ↦ hstate k, ?_⟩⟩
  · exact (hx.slots k).congr (congrFun hslots k) (by rw [hghost]) (by rw [hghost]) hworld
  · rw [hworld]
    exact hx.nodup
  · rw [hworld, hghost, hslots]
    intro token htoken
    obtain ⟨k, hlt, hpending, hrest⟩ := hx.waiting token htoken
    exact ⟨k, hlt, (hstate k).trans hpending, hrest⟩
  · rw [hlock, hghost]
    exact hx.lock
  · rw [hghost]
  · rw [hslots]
  · exact (hstate k).trans hfree
  · rw [hghost]
  · rw [hworld]

/-- The lock is taken or given back. -/
theorem permits_locker (hslots : y.mem.asyncDnsSlots = x.mem.asyncDnsSlots)
    (hholder : y.ghost.holder = x.ghost.holder) (hworld : y.world = x.world)
    (hnone : ∀ k, asyncState x.mem k ≠ .claimed)
    (hbefore : ∀ u, u ≠ t → x.ghost.locker ≠ some u) (hafter : ∀ u, u ≠ t → y.ghost.locker ≠ some u)
    (hlock : y.mem.asyncDnsTableLock = true ↔ y.ghost.locker ≠ none) (hx : DnsSafe x) :
    dnsProtocol.Permits t x y := by
  have hstate : ∀ k, asyncState y.mem k = asyncState x.mem k := fun k ↦ by
    rw [asyncState, hslots, asyncState]
  refine ⟨⟨fun k ↦ ⟨?_, ?_, ?_, ?_, fun hclaimed ↦ ?_⟩, ?_, ?_, hlock⟩, fun u hu ↦ ⟨fun k ↦ ?_,
    fun k _ _ ↦ ?_, fun k _ hfree ↦ ?_, ?_, fun _ k _ ↦ hstate k, ?_⟩⟩
  · rw [hstate, hslots]
    exact (hx.slots k).ticket
  · rw [hstate, hslots, hholder, hworld]
    exact (hx.slots k).waits
  · rw [hstate, hslots, hholder, hworld]
    exact (hx.slots k).answered
  · rw [hstate, hholder]
    exact (hx.slots k).verdict
  · rw [hstate] at hclaimed
    exact absurd hclaimed (hnone k)
  · rw [hworld]
    exact hx.nodup
  · rw [hworld, hholder, hslots]
    intro token htoken
    obtain ⟨k, hlt, hpending, hrest⟩ := hx.waiting token htoken
    exact ⟨k, hlt, (hstate k).trans hpending, hrest⟩
  · rw [hholder]
  · rw [hslots]
  · exact (hstate k).trans hfree
  · exact iff_of_false (hafter u hu) (hbefore u hu)
  · rw [hworld]

end Steps

/-! ## Stages of a thread -/

/-- The slot a thread works on, whether it has the lock, and the request it calls back for. -/
structure Stage (t : DnsThread) (held : Option ℕ) (locked : Bool) (call : Option (BitVec 32))
    (x : DnsWatched) : Prop where
  held : ∀ k, x.ghost.holder k = some t ↔ held = some k
  locked : x.ghost.locker = some t ↔ locked = true
  calling : x.world.calling t = call

section Stages

variable {t : DnsThread} {held : Option ℕ} {locked : Bool} {call : Option (BitVec 32)} {k : ℕ}
  {x y : DnsWatched} {α : Type}

theorem Stage.rely (h : Stage t held locked call x) (hrely : DnsRely t x y) :
    Stage t held locked call y where
  held k := (hrely.held k).trans (h.held k)
  locked := hrely.lock.trans h.locked
  calling := hrely.calling.trans h.calling

theorem steady_stage : dnsProtocol.Steady t (Stage t held locked call) :=
  fun _ _ hx hrely _ ↦ hx.rely hrely

/-- A thread that works on slot `k` in a state that is not free. -/
def Works (t : DnsThread) (k : ℕ) (locked : Bool) (call : Option (BitVec 32))
    (slot : AsyncDnsSlot → Prop) (x : DnsWatched) : Prop :=
  Stage t (some k) locked call x ∧ asyncState x.mem k ≠ .free ∧ slot (x.mem.asyncDnsSlots k)

theorem steady_works {slot : AsyncDnsSlot → Prop} :
    dnsProtocol.Steady t (Works t k locked call slot) := by
  rintro x y ⟨hstage, hbusy, hslot⟩ hrely -
  have hsame := DnsRely.slot hrely k ((hstage.held k).mpr rfl) hbusy
  refine ⟨hstage.rely hrely, ?_, ?_⟩
  · rw [asyncState, hsame]
    exact hbusy
  · rw [hsame]
    exact hslot

/-- A thread that has made its slot free and not yet cleared the ticket. -/
def Clearing (t : DnsThread) (k : ℕ) (x : DnsWatched) : Prop :=
  Stage t (some k) false none x ∧ asyncState x.mem k = .free

theorem steady_clearing : dnsProtocol.Steady t (Clearing t k) := by
  rintro x y ⟨hstage, hfree⟩ hrely -
  exact ⟨hstage.rely hrely, DnsRely.window hrely k ((hstage.held k).mpr rfl) hfree⟩

/-- A thread with the lock that polls slot `k`. -/
def Polling (t : DnsThread) (k : ℕ) (state : AsyncDnsState) (x : DnsWatched) : Prop :=
  Stage t none true none x ∧ asyncState x.mem k = state ∧ Settled state

theorem steady_polling {state : AsyncDnsState} : dnsProtocol.Steady t (Polling t k state) := by
  rintro x y ⟨hstage, rfl, hsettled⟩ hrely -
  exact ⟨hstage.rely hrely, DnsRely.settled hrely (hstage.locked.mpr rfl) k hsettled, hsettled⟩

abbrev DnsSecure (t : DnsThread) (program : ShimM α) (post : α → DnsWatched → Prop)
    (x : DnsWatched) : Prop :=
  Secure dnsSystem dnsMonitor dnsProtocol t program post x

theorem secure_dnsLoad {view : ShimState → α} {post : α → DnsWatched → Prop}
    {assertion : DnsWatched → Prop} (hx : assertion x) (hsteady : dnsProtocol.Steady t assertion)
    (hstep : ∀ y, assertion y → DnsSafe y → post (view y.mem) y) :
    DnsSecure t (load view) post x := by
  refine secure_rmw hx hsteady fun y g hy hinv haccess ↦ ?_
  have hghost := access_quiet haccess fun _ ↦ rfl
  subst g
  exact ⟨permits_quiet rfl rfl rfl hinv, hstep y hy hinv⟩

/-- A store that touches neither the table nor the lock. -/
theorem secure_dnsStore {update : ShimState → ShimState} {assertion : DnsWatched → Prop}
    (hview : ∀ s, dnsView (update s) = dnsView s) (hx : assertion x)
    (hsteady : dnsProtocol.Steady t assertion)
    (hkept : ∀ y, assertion y → assertion (y.access update y.ghost)) :
    DnsSecure t (store update) (fun _ ↦ assertion) x := by
  refine secure_store hx hsteady fun y g hy hinv haccess ↦ ?_
  have hghost := access_quiet haccess hview
  subst g
  exact ⟨permits_quiet (hview _) rfl rfl hinv, hkept y hy⟩

/-- Code that leaves the table, the lock and the requests alone. -/
def OutsideTable : ShimCall → Prop
  | .lwip (.dnsGethostbyname _ _) => False
  | .note (.dnsCallback _) => False
  | .note .dnsReturned => False
  | _ => True

theorem reply_outside {request : ShimCall} (houtside : OutsideTable request) {answer : ShimReply}
    {z : Machine ShimState DnsWorld} {g : DnsGhost}
    (hreply : dnsSystem.reply t request answer x.toMachine = some z)
    (haccepted : dnsMonitor.reply t request answer x = some g) :
    z = x.toMachine ∧ g = x.ghost := by
  change dnsReply t request answer x.toMachine = some z at hreply
  simp only [dnsMonitor] at haccepted
  unfold dnsReply at hreply
  split at hreply
  · cases houtside
  · cases houtside
  · cases houtside
  · split at haccepted
    · cases houtside
    · cases houtside
    · cases hreply
      cases haccepted
      exact ⟨rfl, rfl⟩

theorem secure_outside {program : ShimM α} (hkeeps : Keeps dnsView OutsideTable program)
    (hx : Stage t held locked call x) :
    DnsSecure t program (fun _ ↦ Stage t held locked call) x := by
  refine secure_keeps hkeeps steady_stage (fun y update g hview hinv hy haccess ↦ ?_)
    (fun y request houtside hinv hy ↦ ⟨trivial, fun answer z g hreply haccepted ↦ ?_⟩) hx
  · have hghost := access_quiet haccess hview
    subst g
    exact ⟨permits_quiet (hview _) rfl rfl hinv, hy.held, hy.locked, hy.calling⟩
  · obtain ⟨rfl, rfl⟩ := reply_outside houtside hreply haccepted
    exact ⟨permits_quiet rfl rfl rfl hinv, hy⟩

/-! ## The lock -/

/-- No slot is between its claim and its publication while the thread with the lock works on
none. -/
theorem Stage.not_claimed (h : Stage t none true call x) (hx : DnsSafe x) (k : ℕ) :
    asyncState x.mem k ≠ .claimed := by
  intro hclaimed
  have hholder := ((hx.slots k).claimed hclaimed).1
  rw [h.locked.mpr rfl] at hholder
  cases (h.held k).mp hholder

theorem secure_asyncDnsLock (fuel : ℕ) (hx : Stage t none false none x) :
    DnsSecure t (asyncDnsLock fuel) (fun _ ↦ Stage t none true none) x := by
  induction fuel generalizing x with
  | zero => trivial
  | succ fuel ih =>
    refine (secure_bind _ _ _ _).mpr ?_
    refine secure_access hx steady_stage fun y g hy hinv haccess ↦ ?_
    obtain ⟨rfl, -⟩ := access_eq haccess
    have hholder : holderAfter t (fun old ↦ (tryLock old).2) y = y.ghost.holder :=
      funext fun k ↦ holderAfter_same fun _ ↦ rfl
    rw [hholder]
    cases hlock : y.mem.asyncDnsTableLock with
    | false =>
      have hlocker : lockerAfter t (fun old ↦ (tryLock old).2) y = some t := if_pos ⟨hlock, rfl⟩
      have hnobody : y.ghost.locker = none := by
        by_contra hsome
        rw [hinv.lock.mpr hsome] at hlock
        cases hlock
      have hfree : (tryLock y.mem).1 = true := by rw [tryLock, hlock]; rfl
      rw [hlocker, hfree]
      refine ⟨permits_locker rfl rfl rfl (fun k hclaimed ↦ ?_) (fun u _ ↦ ?_) (fun u hu ↦ ?_) ?_
        hinv, ?_⟩
      · exact ((hinv.slots k).claimed hclaimed).2 hnobody
      · rw [hnobody]
        exact nofun
      · exact fun hsame ↦ hu (Option.some.inj hsame).symm
      · exact iff_of_true rfl (Option.some_ne_none t)
      · exact ⟨hy.held, iff_of_true rfl rfl, hy.calling⟩
    | true =>
      have hlocker : lockerAfter t (fun old ↦ (tryLock old).2) y = y.ghost.locker :=
        lockerAfter_same hlock.symm
      have hbusy : (tryLock y.mem).1 = false := by rw [tryLock, hlock]; rfl
      rw [hlocker, hbusy]
      refine ⟨permits_quiet (Prod.ext rfl hlock.symm) rfl rfl hinv, ?_⟩
      have hstage : Stage t none false none (y.access (fun old ↦ (tryLock old).2) y.ghost) :=
        ⟨hy.held, hy.locked, hy.calling⟩
      rw [if_neg Bool.false_ne_true, secure_bind]
      refine secure_mono (secure_outside ?_ hstage) fun _ z hz ↦ ih hz
      exact keeps_ignore (keeps_perform trivial)

theorem secure_asyncDnsUnlock {assertion after : DnsWatched → Prop} (hx : assertion x)
    (hsteady : dnsProtocol.Steady t assertion)
    (hlocked : ∀ y, assertion y → DnsSafe y → y.ghost.locker = some t)
    (hnone : ∀ y, assertion y → DnsSafe y → ∀ k, asyncState y.mem k ≠ .claimed)
    (hafter : ∀ y, assertion y → after (y.access (fun s ↦ { s with asyncDnsTableLock := false })
      { y.ghost with locker := none })) :
    DnsSecure t asyncDnsUnlock (fun _ ↦ after) x := by
  refine secure_store hx hsteady fun y g hy hinv haccess ↦ ?_
  obtain ⟨rfl, -⟩ := access_eq haccess
  have hlock : y.mem.asyncDnsTableLock = true := by
    rw [hinv.lock, hlocked y hy hinv]
    exact Option.some_ne_none t
  have hholder : holderAfter t (fun s ↦ { s with asyncDnsTableLock := false }) y = y.ghost.holder :=
    funext fun k ↦ holderAfter_same fun _ ↦ rfl
  have hlocker : lockerAfter t (fun s ↦ { s with asyncDnsTableLock := false }) y = none := by
    rw [lockerAfter, hlock]
    rfl
  rw [hholder, hlocker]
  refine ⟨permits_locker rfl rfl rfl (hnone y hy hinv) (fun u hu ↦ ?_) (fun u _ ↦ nofun) ?_ hinv,
    hafter y hy⟩
  · rw [hlocked y hy hinv]
    exact fun hsame ↦ hu (Option.some.inj hsame).symm
  · exact iff_of_false Bool.false_ne_true fun h ↦ h rfl

theorem secure_unlock_stage (hx : Stage t none true none x) :
    DnsSecure t asyncDnsUnlock (fun _ ↦ Stage t none false none) x :=
  secure_asyncDnsUnlock hx steady_stage (fun _ hy _ ↦ hy.locked.mpr rfl)
    (fun _ hy hinv ↦ hy.not_claimed hinv)
    fun _ hy ↦ ⟨hy.held, iff_of_false nofun Bool.false_ne_true, hy.calling⟩

/-! ## Polls -/

/-- A store to a slot that is polled leaves it free. -/
theorem secure_pollStore {state : AsyncDnsState} {f : AsyncDnsSlot → AsyncDnsSlot}
    (hfree : ∀ a, a.state = state → (f a).state = .free) (hx : Polling t k state x) :
    DnsSecure t (storeAsyncDns k f) (fun _ ↦ Polling t k .free) x := by
  refine secure_store hx steady_polling fun y g ⟨hstage, hstate, hsettled⟩ hinv haccess ↦ ?_
  obtain ⟨rfl, -⟩ := access_eq haccess
  have hafter : asyncState (y.mem.setAsyncDns k f) k = .free := by
    rw [asyncState, setAsyncDns_self]
    exact hfree _ hstate
  have hforeign : y.ghost.holder k ≠ some t := fun h ↦ nomatch (hstage.held k).mp h
  have hother : ∀ j, j ≠ k → holderAfter t (fun s ↦ s.setAsyncDns k f) y j = y.ghost.holder j :=
    fun j hj ↦ holderAfter_same fun s ↦ setAsyncDns_of_ne s hj f
  have hself : holderAfter t (fun s ↦ s.setAsyncDns k f) y k = y.ghost.holder k := by
    rw [holderAfter, if_neg, if_neg fun h ↦ hforeign h.1]
    rintro ⟨-, hclaimed⟩
    rw [hafter] at hclaimed
    cases hclaimed
  have hwindow : ∀ u, y.ghost.holder k = some u → asyncState y.mem k = .free := by
    intro u hu
    rw [hstate]
    refine hsettled.resolve_right fun hverdict ↦ ?_
    rw [← hstate] at hverdict
    rw [(hinv.slots k).verdict hverdict] at hu
    cases hu
  have hpending : asyncState y.mem k ≠ .pending := by
    rw [hstate]
    rcases hsettled with rfl | rfl | rfl <;> exact nofun
  have hlocker : lockerAfter t (fun s ↦ s.setAsyncDns k f) y = y.ghost.locker :=
    lockerAfter_same rfl
  refine ⟨SlotStep.permits (k := k) ?_ hinv, ⟨fun j ↦ ?_, ?_, hstage.calling⟩, hafter, .inl rfl⟩
  · exact {
      world := rfl
      lock := rfl
      locker := hlocker
      others := fun j hj ↦ ⟨setAsyncDns_of_ne y.mem hj f, hother j hj⟩
      ours := fun h ↦ absurd h hpending
      held := fun u _ ↦ by
        change holderAfter t _ y k = some u ↔ _
        rw [hself]
      window := fun u _ hu ↦ ⟨hwindow u hu, hafter⟩
      settled := fun u hu hlock _ ↦ by
        rw [hstage.locked.mpr rfl] at hlock
        exact absurd (Option.some.inj hlock).symm hu
      slot := {
        ticket := fun h ↦ nomatch hafter.symm.trans h
        waits := fun h ↦ nomatch hafter.symm.trans h
        answered := fun n hn ↦ by
          change holderAfter t _ y k = _ at hn
          rw [hself] at hn
          exact absurd ((hinv.slots k).answered n hn).2.1 hpending
        verdict := fun h ↦ by
          rcases h with h | h <;> cases hafter.symm.trans h
        claimed := fun h ↦ nomatch hafter.symm.trans h } }
  · change holderAfter t _ y j = some t ↔ _
    by_cases hj : j = k
    · rw [hj, hself]
      exact hstage.held k
    · rw [hother j hj]
      exact hstage.held j
  · exact ⟨fun h ↦ hstage.locked.mp (hlocker.symm.trans h),
      fun h ↦ hlocker.trans (hstage.locked.mpr h)⟩

/-- The poll of a slot under the lock. -/
theorem secure_asyncDnsConsume (hx : Stage t none true none x) :
    DnsSecure t (asyncDnsConsume k) (fun found y ↦
      (∃ state, found = .polled k state) ∧ Stage t none true none y) x := by
  refine (secure_bind _ _ _ _).mpr ?_
  refine secure_dnsLoad hx steady_stage fun y hy hinv ↦ ?_
  rw [secure_ite]
  split
  · exact ⟨⟨_, rfl⟩, hy⟩
  · rename_i hdone
    have hsettled : Settled (asyncState y.mem k) := by
      have hclaimed := hy.not_claimed hinv k
      change asyncState y.mem k ≠ .pending at hdone
      revert hdone hclaimed
      cases asyncState y.mem k <;> simp [Settled]
    refine (secure_bind _ _ _ _).mpr ?_
    refine secure_mono (secure_pollStore (fun _ _ ↦ rfl) ⟨hy, rfl, hsettled⟩) fun _ z hz ↦ ?_
    refine (secure_bind _ _ _ _).mpr ?_
    exact secure_mono (secure_pollStore (fun _ h ↦ h) hz) fun _ _ hw ↦ ⟨⟨_, rfl⟩, hw.1⟩

theorem secure_asyncDnsFind (name : String) (slots : List ℕ) (hx : Stage t none true none x) :
    DnsSecure t (asyncDnsFind name slots) (fun _ ↦ Stage t none true none) x := by
  refine secure_outside ?_ hx
  induction slots with
  | nil => exact keeps_pure _
  | cons i rest ih =>
    refine Keeps.bind (keeps_load _) fun _ ↦ Keeps.ite ih ?_
    exact Keeps.bind (keeps_load _) fun _ ↦ Keeps.ite (keeps_pure _) ih

end Stages

/-! ## Compare-exchange of a slot -/

section Swap

variable {s : ShimState} {k j : ℕ} {expected desired : AsyncDnsState}

theorem swapAsyncDns_pos (h : asyncState s k = expected) :
    swapAsyncDns k expected desired s =
      (true, s.setAsyncDns k fun a ↦ { a with state := desired }) := if_pos h

theorem swapAsyncDns_neg (h : asyncState s k ≠ expected) :
    swapAsyncDns k expected desired s = (false, s) := if_neg h

theorem swapAsyncDns_of_ne (s : ShimState) (hj : j ≠ k) :
    (swapAsyncDns k expected desired s).2.asyncDnsSlots j = s.asyncDnsSlots j := by
  by_cases h : asyncState s k = expected
  · rw [swapAsyncDns_pos h]
    exact setAsyncDns_of_ne s hj fun a ↦ { a with state := desired }
  · rw [swapAsyncDns_neg h]

theorem swapAsyncDns_lock (s : ShimState) :
    (swapAsyncDns k expected desired s).2.asyncDnsTableLock = s.asyncDnsTableLock := by
  by_cases h : asyncState s k = expected
  · rw [swapAsyncDns_pos h]
    rfl
  · rw [swapAsyncDns_neg h]

end Swap

/-! ## Claims and releases -/

section Claims

variable {n k : ℕ} {locked : Bool} {x y : DnsWatched}

/-- What a title thread may make of the slot it works on. -/
def Workable (locked : Bool) (a : AsyncDnsSlot) : Prop :=
  a.state = .free ∨ a.state = .claimed ∧ locked = true ∨
    a.state = .pending ∧ a.ticket ≠ 0 ∧ a.ticket.toNat < 2 ^ 28

/-- A store of a title thread to the slot it works on. -/
theorem permits_workStore {f : AsyncDnsSlot → AsyncDnsSlot} {slot : AsyncDnsSlot → Prop}
    {g : DnsGhost} (hy : Works (.title n) k locked none slot y) (hinv : DnsSafe y)
    (hwork : ∀ a, slot a → Workable locked (f a))
    (haccess : dnsMonitor.access (.title n) (fun s ↦ s.setAsyncDns k f) y = some g) :
    dnsProtocol.Permits (.title n) y (y.access (fun s ↦ s.setAsyncDns k f) g) ∧
      Stage (.title n) (some k) locked none (y.access (fun s ↦ s.setAsyncDns k f) g) := by
  obtain ⟨hstage, hbusy, hslot⟩ := hy
  obtain ⟨rfl, -⟩ := access_eq haccess
  have hholder : y.ghost.holder k = some (.title n) := (hstage.held k).mpr rfl
  have hafter : (y.mem.setAsyncDns k f).asyncDnsSlots k = f (y.mem.asyncDnsSlots k) :=
    setAsyncDns_self _ _ _
  have hworkable := hwork _ hslot
  have hundecided : ¬ (asyncState (y.mem.setAsyncDns k f) k = .ready ∨
      asyncState (y.mem.setAsyncDns k f) k = .failed) := by
    rw [asyncState, hafter]
    rcases hworkable with h | h | h <;> simp [h]
  have hother : ∀ j, j ≠ k →
      holderAfter (.title n) (fun s ↦ s.setAsyncDns k f) y j = y.ghost.holder j :=
    fun j hj ↦ holderAfter_same fun s ↦ setAsyncDns_of_ne s hj f
  have hself : holderAfter (.title n) (fun s ↦ s.setAsyncDns k f) y k = some (.title n) := by
    rw [holderAfter, if_neg fun h ↦ hbusy h.1, if_neg, hholder]
    rintro ⟨-, hclears | hcompletes⟩
    · exact hbusy hclears.1
    · exact hundecided hcompletes.2
  have hlocker : lockerAfter (.title n) (fun s ↦ s.setAsyncDns k f) y = y.ghost.locker :=
    lockerAfter_same rfl
  refine ⟨SlotStep.permits (k := k) ?_ hinv, fun j ↦ ?_, ?_, hstage.calling⟩
  · exact {
      world := rfl
      lock := rfl
      locker := hlocker
      others := fun j hj ↦ ⟨setAsyncDns_of_ne y.mem hj f, hother j hj⟩
      ours := fun _ hnone ↦ nomatch hholder.symm.trans hnone
      held := fun u hu ↦ by
        change holderAfter _ _ y k = some u ↔ _
        rw [hself, hholder]
      window := fun u hu h ↦ absurd (Option.some.inj (h.symm.trans hholder)) hu
      settled := fun u _ _ hsettled ↦ by
        rcases hsettled with hfree | hverdict
        · exact absurd hfree hbusy
        · cases hholder.symm.trans ((hinv.slots k).verdict hverdict)
      slot := {
        ticket := fun h ↦ by
          change asyncState (y.mem.setAsyncDns k f) k = _ at h
          change ((y.mem.setAsyncDns k f).asyncDnsSlots k).ticket ≠ 0 ∧
            ((y.mem.setAsyncDns k f).asyncDnsSlots k).ticket.toNat < 2 ^ 28
          rw [asyncState, hafter] at h
          rw [hafter]
          rcases hworkable with hfree | hclaimed | hpending
          · cases hfree.symm.trans h
          · cases hclaimed.1.symm.trans h
          · exact hpending.2
        waits := fun _ hnone ↦ nomatch hself.symm.trans hnone
        answered := fun m hm ↦ nomatch hself.symm.trans hm
        verdict := fun h ↦ absurd h hundecided
        claimed := fun h ↦ by
          change asyncState (y.mem.setAsyncDns k f) k = _ at h
          rw [asyncState, hafter] at h
          rcases hworkable with hfree | hclaimed | hpending
          · cases hfree.symm.trans h
          · have hmine := hlocker.trans (hstage.locked.mpr hclaimed.2)
            exact ⟨hself.trans hmine.symm, fun hnone ↦ nomatch hmine.symm.trans hnone⟩
          · cases hpending.1.symm.trans h } }
  · change holderAfter _ _ y j = some _ ↔ _
    by_cases hj : j = k
    · rw [hj, hself]
      exact iff_of_true rfl rfl
    · rw [hother j hj]
      exact hstage.held j
  · exact ⟨fun h ↦ hstage.locked.mp (hlocker.symm.trans h),
      fun h ↦ hlocker.trans (hstage.locked.mpr h)⟩

theorem secure_workStore {f : AsyncDnsSlot → AsyncDnsSlot} {slot slot' : AsyncDnsSlot → Prop}
    (hwork : ∀ a, slot a → Workable locked (f a))
    (hafter : ∀ a, slot a → (f a).state ≠ .free ∧ slot' (f a))
    (hx : Works (.title n) k locked none slot x) :
    DnsSecure (.title n) (storeAsyncDns k f) (fun _ ↦ Works (.title n) k locked none slot') x := by
  refine secure_store hx steady_works fun y g hy hinv haccess ↦ ?_
  obtain ⟨hpermits, hstage⟩ := permits_workStore hy hinv hwork haccess
  obtain ⟨hbusy, hslot⟩ := hafter _ hy.2.2
  refine ⟨hpermits, hstage, ?_, ?_⟩
  · change asyncState (y.mem.setAsyncDns k f) k ≠ .free
    rw [asyncState, setAsyncDns_self]
    exact hbusy
  · change slot' ((y.mem.setAsyncDns k f).asyncDnsSlots k)
    rw [setAsyncDns_self]
    exact hslot

/-- The ticket of a claim is neither zero nor too large for a token. -/
theorem secure_asyncDnsNewTicket {slot : AsyncDnsSlot → Prop}
    (hx : Works (.title n) k locked none slot x) :
    DnsSecure (.title n) asyncDnsNewTicket (fun ticket y ↦
      Works (.title n) k locked none slot y ∧ ticket ≠ 0 ∧ ticket.toNat < 2 ^ 28) x := by
  refine (secure_bind _ _ _ _).mpr ?_
  refine secure_access hx steady_works fun y g hy hinv haccess ↦ ?_
  have hghost := access_quiet haccess fun _ ↦ rfl
  subst g
  refine ⟨permits_quiet rfl rfl rfl hinv, ⟨⟨hy.1.held, hy.1.locked, hy.1.calling⟩, hy.2⟩, ?_⟩
  split
  · exact ⟨by decide, by decide⟩
  · rename_i hnonzero
    refine ⟨hnonzero, ?_⟩
    rw [BitVec.toNat_and, show (0x0fffffff : BitVec 32).toNat = 2 ^ 28 - 1 from rfl,
      Nat.and_two_pow_sub_one_eq_mod]
    exact Nat.mod_lt _ (by decide)

/-- The slot after a claim: taken, or as it was. -/
theorem secure_swapFree (hk : k < asyncDnsMax) (hx : Stage (.title n) none true none x) :
    DnsSecure (.title n) (access (swapAsyncDns k .free .claimed)) (fun claimed y ↦
      if claimed then Works (.title n) k true none (fun a ↦ a.state = .claimed) y
      else Stage (.title n) none true none y) x := by
  refine secure_access hx steady_stage fun y g hstage hinv haccess ↦ ?_
  set update := fun old ↦ (swapAsyncDns k .free .claimed old).2 with hupdate
  obtain ⟨rfl, haccepted⟩ := access_eq haccess
  have hlock : (update y.mem).asyncDnsTableLock = y.mem.asyncDnsTableLock := swapAsyncDns_lock y.mem
  have hlocker : lockerAfter (.title n) update y = y.ghost.locker := lockerAfter_same hlock
  have hother : ∀ j, j ≠ k → holderAfter (.title n) update y j = y.ghost.holder j :=
    fun j hj ↦ holderAfter_same fun s ↦ swapAsyncDns_of_ne s hj
  by_cases hfree : asyncState y.mem k = .free
  · have hswap : swapAsyncDns k .free .claimed y.mem = _ := swapAsyncDns_pos hfree
    have hafter : update y.mem = y.mem.setAsyncDns k fun a ↦ { a with state := .claimed } :=
      congrArg Prod.snd hswap
    have hclaimed : asyncState (update y.mem) k = .claimed := by
      rw [hafter, asyncState, setAsyncDns_self]
    have hnobody := haccepted k hk ⟨hfree, hclaimed⟩
    have hself : holderAfter (.title n) update y k = some (.title n) := if_pos ⟨hfree, hclaimed⟩
    have hmine := hlocker.trans (hstage.locked.mpr rfl)
    rw [congrArg Prod.fst hswap, if_pos rfl]
    refine ⟨SlotStep.permits (k := k) ?_ hinv, ⟨fun j ↦ ?_, ?_, hstage.calling⟩, ?_, hclaimed⟩
    · exact {
        world := rfl
        lock := hlock
        locker := hlocker
        others := fun j hj ↦ ⟨swapAsyncDns_of_ne y.mem hj, hother j hj⟩
        ours := fun h ↦ nomatch hfree.symm.trans h
        held := fun u hu ↦ by
          change holderAfter _ _ y k = some u ↔ _
          rw [hself, hnobody]
          exact iff_of_false (fun h ↦ hu (Option.some.inj h).symm) nofun
        window := fun u _ h ↦ nomatch hnobody.symm.trans h
        settled := fun u hu hlock _ ↦ by
          rw [hstage.locked.mpr rfl] at hlock
          exact absurd (Option.some.inj hlock).symm hu
        slot := {
          ticket := fun h ↦ nomatch hclaimed.symm.trans h
          waits := fun h ↦ nomatch hclaimed.symm.trans h
          answered := fun m hm ↦ nomatch hself.symm.trans hm
          verdict := fun h ↦ by rcases h with h | h <;> cases hclaimed.symm.trans h
          claimed := fun _ ↦
            ⟨hself.trans hmine.symm, fun hnone ↦ nomatch hmine.symm.trans hnone⟩ } }
    · change holderAfter _ _ y j = some _ ↔ _
      by_cases hj : j = k
      · rw [hj, hself]
        exact iff_of_true rfl rfl
      · rw [hother j hj, hstage.held j]
        exact iff_of_false nofun fun h ↦ hj (Option.some.inj h).symm
    · exact iff_of_true hmine rfl
    · exact fun h ↦ nomatch hclaimed.symm.trans h
  · have hswap : swapAsyncDns k .free .claimed y.mem = _ := swapAsyncDns_neg hfree
    have hself : holderAfter (.title n) update y k = y.ghost.holder k := by
      rw [holderAfter, if_neg fun h ↦ hfree h.1, if_neg]
      rintro ⟨hmine, -⟩
      cases (hstage.held k).mp hmine
    have hghost : (⟨holderAfter (.title n) update y, lockerAfter (.title n) update y⟩ : DnsGhost) =
        y.ghost := by
      rw [hlocker, show holderAfter (.title n) update y = y.ghost.holder from ?_]
      funext j
      by_cases hj : j = k
      · rw [hj, hself]
      · exact hother j hj
    rw [congrArg Prod.fst hswap, hghost, if_neg Bool.false_ne_true]
    exact ⟨permits_quiet (congrArg dnsView (congrArg Prod.snd hswap)) rfl rfl hinv, hstage.held, hstage.locked,
      hstage.calling⟩

/-- A published claim. -/
abbrev Published (ticket : BitVec 32) (a : AsyncDnsSlot) : Prop :=
  a.state = .pending ∧ a.ticket = ticket

/-- The stores that publish a claim. -/
theorem secure_publish {name : String} {ticket : BitVec 32} (hk : k < asyncDnsMax)
    (hnonzero : ticket ≠ 0) (hsmall : ticket.toNat < 2 ^ 28)
    (hx : Works (.title n) k true none (fun a ↦ a.state = .claimed) x) :
    DnsSecure (.title n) (do
      storeAsyncDns k fun a ↦ { a with ticket := ticket }
      storeAsyncDns k fun a ↦ { a with name := name }
      storeAsyncDns k fun a ↦ { a with state := .pending }
      pure (some (k, ticket))) (fun claimed y ↦ match claimed with
      | none => Stage (.title n) none true none y
      | some (k, ticket) => k < asyncDnsMax ∧
          Works (.title n) k true none (Published ticket) y) x := by
  have hbusy : ∀ a : AsyncDnsSlot, a.state = .claimed → a.state ≠ .free := by
    intro a ha hfree
    cases ha.symm.trans hfree
  have hticket : DnsSecure (.title n) (storeAsyncDns k fun a ↦ { a with ticket := ticket })
      (fun _ ↦ Works (.title n) k true none fun a ↦ a.state = .claimed ∧ a.ticket = ticket) x :=
    secure_workStore (fun a ha ↦ .inr (.inl ⟨ha, rfl⟩)) (fun a ha ↦ ⟨hbusy a ha, ha, rfl⟩) hx
  refine (secure_bind _ _ _ _).mpr (secure_mono hticket fun _ y hy ↦ ?_)
  have hname : DnsSecure (.title n) (storeAsyncDns k fun a ↦ { a with name := name })
      (fun _ ↦ Works (.title n) k true none fun a ↦ a.state = .claimed ∧ a.ticket = ticket) y :=
    secure_workStore (fun a ha ↦ .inr (.inl ⟨ha.1, rfl⟩)) (fun a ha ↦ ⟨hbusy a ha.1, ha⟩) hy
  refine (secure_bind _ _ _ _).mpr (secure_mono hname fun _ y hy ↦ ?_)
  have hstate : DnsSecure (.title n) (storeAsyncDns k fun a ↦ { a with state := .pending })
      (fun _ ↦ Works (.title n) k true none (Published ticket)) y :=
    secure_workStore (fun a (ha : a.state = .claimed ∧ a.ticket = ticket) ↦
      .inr (.inr ⟨rfl, fun h ↦ hnonzero (ha.2.symm.trans h),
        lt_of_eq_of_lt (congrArg BitVec.toNat ha.2) hsmall⟩)) (fun a ha ↦ ⟨nofun, rfl, ha.2⟩) hy
  refine (secure_bind _ _ _ _).mpr (secure_mono hstate fun _ y hy ↦ ?_)
  exact ⟨hk, hy⟩

theorem secure_asyncDnsClaim (name : String) (slots : List ℕ)
    (hslots : ∀ k ∈ slots, k < asyncDnsMax) (hx : Stage (.title n) none true none x) :
    DnsSecure (.title n) (asyncDnsClaim name slots) (fun claimed y ↦ match claimed with
      | none => Stage (.title n) none true none y
      | some (k, ticket) => k < asyncDnsMax ∧
          Works (.title n) k true none (Published ticket) y) x := by
  induction slots generalizing x with
  | nil => exact hx
  | cons k rest ih =>
    have hk := hslots k List.mem_cons_self
    refine (secure_bind _ _ _ _).mpr ?_
    refine secure_mono (secure_swapFree hk hx) fun claimed y hy ↦ ?_
    cases claimed with
    | false => exact ih (fun j hj ↦ hslots j (List.mem_cons_of_mem k hj)) hy
    | true =>
      rw [if_pos rfl] at hy
      rw [if_neg (by decide : ¬ true = false)]
      refine (secure_bind _ _ _ _).mpr ?_
      refine secure_mono (secure_asyncDnsNewTicket hy) fun ticket y ⟨hy, hnonzero, hsmall⟩ ↦ ?_
      exact secure_publish hk hnonzero hsmall hy

/-- The second store of a release: the slot is nobody's. -/
theorem secure_clearTicket (hx : Clearing (.title n) k x) :
    DnsSecure (.title n) (storeAsyncDns k fun a ↦ { a with ticket := 0 })
      (fun _ ↦ Stage (.title n) none false none) x := by
  refine secure_store hx steady_clearing fun y g ⟨hstage, hfree⟩ hinv haccess ↦ ?_
  set update := fun s : ShimState ↦ s.setAsyncDns k fun a ↦ { a with ticket := 0 } with hupdate
  obtain ⟨rfl, -⟩ := access_eq haccess
  have hholder : y.ghost.holder k = some (.title n) := (hstage.held k).mpr rfl
  have hafter : asyncState (update y.mem) k = .free := by
    rw [hupdate, asyncState, setAsyncDns_self]
    exact hfree
  have hclears : ClearsTicket update y.mem k := by
    refine ⟨hfree, ?_⟩
    rw [hupdate, setAsyncDns_self]
  have hother : ∀ j, j ≠ k → holderAfter (.title n) update y j = y.ghost.holder j :=
    fun j hj ↦ holderAfter_same fun s ↦ setAsyncDns_of_ne s hj _
  have hself : holderAfter (.title n) update y k = none := by
    have hclaims : ¬ Claims update y.mem k := by
      rintro ⟨-, hclaimed⟩
      cases hafter.symm.trans hclaimed
    rw [holderAfter, if_neg hclaims, if_pos ⟨hholder, .inl hclears⟩]
  have hlocker : lockerAfter (.title n) update y = y.ghost.locker := lockerAfter_same rfl
  refine ⟨SlotStep.permits (k := k) ?_ hinv, fun j ↦ ?_, ?_, hstage.calling⟩
  · exact {
      world := rfl
      lock := rfl
      locker := hlocker
      others := fun j hj ↦ ⟨setAsyncDns_of_ne y.mem hj fun a ↦ { a with ticket := 0 }, hother j hj⟩
      ours := fun h ↦ nomatch hfree.symm.trans h
      held := fun u hu ↦ by
        change holderAfter _ _ y k = some u ↔ _
        rw [hself, hholder]
        exact iff_of_false nofun fun h ↦ hu (Option.some.inj h).symm
      window := fun u _ _ ↦ ⟨hfree, hafter⟩
      settled := fun u _ _ _ ↦ hafter.trans hfree.symm
      slot := {
        ticket := fun h ↦ nomatch hafter.symm.trans h
        waits := fun h ↦ nomatch hafter.symm.trans h
        answered := fun m hm ↦ nomatch hself.symm.trans hm
        verdict := fun _ ↦ hself
        claimed := fun h ↦ nomatch hafter.symm.trans h } }
  · change holderAfter _ _ y j = some _ ↔ _
    by_cases hj : j = k
    · rw [hj, hself]
      exact iff_of_false nofun nofun
    · rw [hother j hj, hstage.held j]
      exact iff_of_false (fun h ↦ hj (Option.some.inj h).symm) nofun
  · exact ⟨fun h ↦ hstage.locked.mp (hlocker.symm.trans h),
      fun h ↦ hlocker.trans (hstage.locked.mpr h)⟩

theorem secure_asyncDnsReleaseIfTicket {ticket : BitVec 32}
    (hx : Works (.title n) k false none (Published ticket) x) :
    DnsSecure (.title n) (asyncDnsReleaseIfTicket k ticket)
      (fun _ ↦ Stage (.title n) none false none) x := by
  refine (secure_bind _ _ _ _).mpr ?_
  refine secure_dnsLoad hx steady_works fun y hy hinv ↦ ?_
  rw [secure_when, if_pos hy.2.2.2, secure_bind]
  refine secure_store hy steady_works fun z g hz hinv haccess ↦ ?_
  obtain ⟨hpermits, hstage⟩ := permits_workStore hz hinv (fun _ _ ↦ .inl rfl) haccess
  refine ⟨hpermits, secure_clearTicket ⟨hstage, ?_⟩⟩
  exact congrArg AsyncDnsSlot.state
    (setAsyncDns_self z.mem k fun a ↦ { a with state := .free })

theorem slotOf_token (hk : k < asyncDnsMax) (ticket : BitVec 32) :
    slotOf (asyncDnsToken ticket k) = k := by
  rw [slotOf, token_index hk]
  rfl

/-- lwIP takes the request of a published claim. -/
theorem permits_taken {ticket : BitVec 32} (hk : k < asyncDnsMax)
    (hy : Works (.title n) k false none (Published ticket) y) (hinv : DnsSafe y) :
    let z : DnsWatched := {
      mem := y.mem
      world := { y.world with waiting := asyncDnsToken ticket k :: y.world.waiting }
      ghost := { y.ghost with holder := Function.update y.ghost.holder k none } }
    dnsProtocol.Permits (.title n) y z ∧ Stage (.title n) none false none z := by
  obtain ⟨hstage, hbusy, hpending, hticket⟩ := hy
  have hholder : y.ghost.holder k = some (.title n) := (hstage.held k).mpr rfl
  have hother : ∀ j, j ≠ k → Function.update y.ghost.holder k none j = y.ghost.holder j :=
    fun j hj ↦ Function.update_of_ne hj _ _
  have hself : Function.update y.ghost.holder k none k = none := Function.update_self _ _ _
  have hkept : ∀ u, u ≠ .title n → ∀ j,
      Function.update y.ghost.holder k none j = some u ↔ y.ghost.holder j = some u := by
    intro u hu j
    by_cases hj : j = k
    · rw [hj, hself, hholder]
      exact iff_of_false nofun fun h ↦ hu (Option.some.inj h).symm
    · rw [hother j hj]
  refine ⟨⟨⟨fun j ↦ ?_, ?_, fun token htoken ↦ ?_, hinv.lock⟩, fun u hu ↦ ?_⟩, fun j ↦ ?_,
    hstage.locked, hstage.calling⟩
  · by_cases hj : j = k
    · rw [hj]
      refine ⟨(hinv.slots k).ticket, fun _ _ ↦ ⟨hk, ?_⟩, fun m hm ↦ ?_, fun _ ↦ hself,
        fun h ↦ nomatch hpending.symm.trans h⟩
      · change asyncDnsToken (y.mem.asyncDnsSlots k).ticket k ∈ _
        rw [hticket]
        exact List.mem_cons_self
      · cases hself.symm.trans hm
    · have hslot := hinv.slots j
      refine ⟨hslot.ticket, fun h hnone ↦ ?_, fun m hm ↦ ?_, fun h ↦ ?_, fun h ↦ ?_⟩
      · have hold := hslot.waits h ((hother j hj).symm.trans hnone)
        exact ⟨hold.1, List.mem_cons_of_mem _ hold.2⟩
      · exact hslot.answered m ((hother j hj).symm.trans hm)
      · exact (hother j hj).trans (hslot.verdict h)
      · exact ⟨(hother j hj).trans (hslot.claimed h).1, (hslot.claimed h).2⟩
  · refine List.nodup_cons.mpr ⟨fun hmem ↦ ?_, hinv.nodup⟩
    obtain ⟨j, hlt, -, hnone, htoken⟩ := hinv.waiting _ hmem
    have hsame := congrArg slotOf htoken
    rw [slotOf_token hk, slotOf_token hlt] at hsame
    rw [← hsame, hholder] at hnone
    cases hnone
  · rcases List.mem_cons.mp htoken with rfl | hold
    · exact ⟨k, hk, hpending, hself, congrArg (asyncDnsToken · k) hticket.symm⟩
    · obtain ⟨j, hlt, hstate, hnone, htoken⟩ := hinv.waiting token hold
      have hj : j ≠ k := by
        rintro rfl
        cases hholder.symm.trans hnone
      exact ⟨j, hlt, hstate, (hother j hj).trans hnone, htoken⟩
  · exact {
      held := hkept u hu
      slot := fun _ _ _ ↦ rfl
      window := fun _ _ h ↦ h
      lock := Iff.rfl
      settled := fun _ _ _ ↦ rfl
      calling := rfl }
  · change Function.update y.ghost.holder k none j = some _ ↔ _
    by_cases hj : j = k
    · rw [hj, hself]
      exact iff_of_false nofun nofun
    · rw [hother j hj, hstage.held j]
      exact iff_of_false (fun h ↦ hj (Option.some.inj h).symm) nofun

theorem keeps_dnsSwapAny (expected desired : ℕ) (entries : List ℕ) :
    Keeps dnsView OutsideTable (swapAny expected desired entries) := by
  induction entries with
  | nil => exact keeps_pure _
  | cons i rest ih =>
    refine Keeps.bind (keeps_access fun old ↦ ?_) fun _ ↦ Keeps.ite (keeps_pure _) ih
    rw [swapOwned]
    split <;> rfl

theorem keeps_lwipOutside {request : LwipCall} (hrequest : OutsideTable (.lwip request)) :
    Keeps dnsView OutsideTable (lwip request) :=
  Keeps.bind (keeps_perform hrequest) fun _ ↦
    Keeps.bind (keeps_store fun _ ↦ rfl) fun _ ↦ keeps_pure _

theorem keeps_convertInfos (infos : List Addrinfo) (nodes : List ℕ) :
    Keeps dnsView OutsideTable (convertInfos infos nodes) := by
  induction infos generalizing nodes with
  | nil => exact keeps_pure _
  | cons info rest ih =>
    refine Keeps.bind (keeps_perform trivial) fun _ ↦ Keeps.ite (keeps_pure _) ?_
    exact Keeps.bind (keeps_store fun _ ↦ rfl) fun _ ↦ ih _

theorem keeps_dropInfos (nodes : List ℕ) : Keeps dnsView OutsideTable (dropInfos nodes) := by
  refine Keeps.bind (keeps_ignore (keeps_lwipOutside trivial)) fun _ ↦ ?_
  refine Keeps.bind (Keeps.each fun _ _ ↦ ?_) fun _ ↦ keeps_pure _
  exact keeps_ignore (keeps_perform trivial)

/-- The synchronous lookup does not touch the table. -/
theorem keeps_shimGetaddrinfoSync (node service : Option String) (hints : Option Addrinfo)
    (res : Bool) : Keeps dnsView OutsideTable (shimGetaddrinfoSync node service hints res) := by
  refine Keeps.ite (keeps_pure _) (Keeps.bind (keeps_lwipOutside trivial) fun lres ↦ ?_)
  refine Keeps.ite (keeps_pure _) (Keeps.bind (keeps_convertInfos _ _) fun built ↦ ?_)
  refine Keeps.ite (keeps_dropInfos _) (Keeps.bind (keeps_dnsSwapAny _ _ _) fun kept ↦ ?_)
  refine Keeps.ite (keeps_dropInfos _) ?_
  exact Keeps.bind (keeps_ignore (keeps_lwipOutside trivial)) fun _ ↦ keeps_pure _

/-- The request of a published claim and what follows. -/
theorem secure_asyncDnsStart {node service : Option String} {hints : Option Addrinfo}
    {name : String} {ticket : BitVec 32} (hk : k < asyncDnsMax)
    (hx : Works (.title n) k false none (Published ticket) x) :
    DnsSecure (.title n) (asyncDnsStart node service hints name k ticket)
      (fun _ ↦ Stage (.title n) none false none) x := by
  have hrequest : DnsSecure (.title n) (perform (.lwip (.dnsGethostbyname name
      (asyncDnsToken ticket k)))) (fun answer y ↦
        if answer.code = errInprogress then Stage (.title n) none false none y
        else Works (.title n) k false none (Published ticket) y) x := by
    refine secure_perform hx steady_works fun y hy hinv ↦ ⟨trivial, fun answer z g hreply hg ↦ ?_⟩
    by_cases hcode : answer.code = errInprogress
    · have hz : z = { y.toMachine with
          world := { y.world with waiting := asyncDnsToken ticket k :: y.world.waiting } } := by
        change some (if answer.code = errInprogress then _ else _) = some z at hreply
        rw [if_pos hcode] at hreply
        exact (Option.some.inj hreply).symm
      have hghost : g = { y.ghost with holder := Function.update y.ghost.holder k none } := by
        change some (if answer.code = errInprogress then _ else _) = some g at hg
        rw [if_pos hcode, slotOf_token hk] at hg
        exact (Option.some.inj hg).symm
      rw [if_pos hcode, hz, hghost]
      exact permits_taken hk hy hinv
    · have hz : z = y.toMachine := by
        change some (if answer.code = errInprogress then _ else _) = some z at hreply
        rw [if_neg hcode] at hreply
        exact (Option.some.inj hreply).symm
      have hghost : g = y.ghost := by
        change some (if answer.code = errInprogress then _ else _) = some g at hg
        rw [if_neg hcode] at hg
        exact (Option.some.inj hg).symm
      rw [if_neg hcode, hz, hghost]
      exact ⟨permits_quiet rfl rfl rfl hinv, hy⟩
  refine (secure_bind _ _ _ _).mpr ((secure_bind _ _ _ _).mpr (secure_mono hrequest ?_))
  intro answer y hy
  refine (secure_bind _ _ _ _).mpr ?_
  by_cases hcode : answer.code = errInprogress
  · rw [if_pos hcode] at hy
    refine secure_mono (secure_dnsStore (fun _ ↦ rfl) hy steady_stage fun z hz ↦
      ⟨hz.held, hz.locked, hz.calling⟩) fun _ z hz ↦ ?_
    rw [secure_pure, secure_ite, if_pos hcode]
    exact hz
  · rw [if_neg hcode] at hy
    refine secure_mono (secure_dnsStore (fun _ ↦ rfl) hy steady_works fun z hz ↦
      ⟨⟨hz.1.held, hz.1.locked, hz.1.calling⟩, hz.2⟩) fun _ z hz ↦ ?_
    rw [secure_pure, secure_ite, if_neg hcode, secure_bind]
    refine secure_mono (secure_asyncDnsReleaseIfTicket hz) fun _ z hz ↦ ?_
    rw [secure_ite]
    split
    · exact secure_outside (keeps_shimGetaddrinfoSync _ _ _ _) hz
    · exact hz

theorem secure_unlock_works {ticket : BitVec 32}
    (hx : Works (.title n) k true none (Published ticket) x) :
    DnsSecure (.title n) asyncDnsUnlock
      (fun _ ↦ Works (.title n) k false none (Published ticket)) x := by
  refine secure_asyncDnsUnlock hx steady_works (fun _ hy _ ↦ hy.1.locked.mpr rfl)
    (fun y hy hinv j hclaimed ↦ ?_) fun y hy ↦ ?_
  · have hholder := ((hinv.slots j).claimed hclaimed).1
    rw [hy.1.locked.mpr rfl] at hholder
    have hj := Option.some.inj ((hy.1.held j).mp hholder)
    rw [← hj] at hclaimed
    cases hy.2.2.1.symm.trans hclaimed
  · exact ⟨⟨hy.1.held, iff_of_false nofun Bool.false_ne_true, hy.1.calling⟩, hy.2⟩

/-- What the section under the lock leaves behind. -/
def LookedUp (n : ℕ) (locked : Bool) : DnsLookup → DnsWatched → Prop
  | .claimed k ticket, x => k < asyncDnsMax ∧ Works (.title n) k locked none (Published ticket) x
  | _, x => Stage (.title n) none locked none x

theorem secure_asyncDnsLookup (name : String) (hx : Stage (.title n) none true none x) :
    DnsSecure (.title n) (asyncDnsLookup name) (LookedUp n true) x := by
  refine (secure_bind _ _ _ _).mpr ?_
  refine secure_mono (secure_asyncDnsFind name _ hx) fun existing y hy ↦ ?_
  cases existing with
  | some k =>
    refine secure_mono (secure_asyncDnsConsume hy) fun found z ⟨⟨state, hfound⟩, hz⟩ ↦ ?_
    rw [hfound]
    exact hz
  | none =>
    refine (secure_bind _ _ _ _).mpr ?_
    rw [asyncDnsClaimLocked, secure_ite]
    split
    · exact hy
    · refine secure_mono (secure_asyncDnsClaim name _ (fun k hk ↦ List.mem_range.mp hk) hy) ?_
      intro claimed z hz
      cases claimed with
      | none => exact hz
      | some pair => exact hz

theorem secure_shimGetaddrinfoAsync (node service : Option String) (hints : Option Addrinfo)
    (res : Bool) (fuel : ℕ) (hx : Stage (.title n) none false none x) :
    DnsSecure (.title n) (shimGetaddrinfoAsync node service hints res fuel)
      (fun _ ↦ Stage (.title n) none false none) x := by
  cases res with
  | false => exact hx
  | true =>
    cases node with
    | none => exact secure_outside (keeps_shimGetaddrinfoSync _ _ _ _) hx
    | some name =>
      by_cases hname : dnsRewriteName name = ""
      · rw [shimGetaddrinfoAsync, if_neg (by decide : ¬ true = false)]
        change Secure _ _ _ _ (if dnsRewriteName name = "" then _ else _) _ _
        rw [secure_ite, if_pos hname]
        exact hx
      · rw [shimGetaddrinfoAsync_eq name service hints fuel hname]
        refine (secure_bind _ _ _ _).mpr (secure_mono (secure_asyncDnsLock fuel hx) ?_)
        intro _ y hy
        refine (secure_bind _ _ _ _).mpr (secure_mono (secure_asyncDnsLookup _ hy) ?_)
        intro found y hy
        cases found with
        | polled k state =>
          refine (secure_bind _ _ _ _).mpr (secure_mono (secure_unlock_stage hy) fun _ y hy ↦ ?_)
          rw [asyncDnsFinish, secure_ite]
          split
          · exact hy
          · rw [secure_ite]
            split
            · exact hy
            · exact secure_outside (keeps_shimGetaddrinfoSync _ _ _ _) hy
        | claimed k ticket =>
          refine (secure_bind _ _ _ _).mpr (secure_mono (secure_unlock_works hy.2) fun _ z hz ↦ ?_)
          exact secure_asyncDnsStart hy.1 hz
        | full =>
          exact (secure_bind _ _ _ _).mpr (secure_mono (secure_unlock_stage hy) fun _ _ hz ↦ hz)

end Claims

/-! ## Callbacks -/

section Callbacks

variable {n k : ℕ} {token : BitVec 32} {x y : DnsWatched}

/-- A slot whose request a thread of lwIP answers. -/
abbrev Answers (k : ℕ) (token : BitVec 32) (a : AsyncDnsSlot) : Prop :=
  a.state = .pending ∧ token = asyncDnsToken a.ticket k

/-- lwIP hands a request to the thread that calls back. -/
theorem permits_called (hk : k < asyncDnsMax) (hstage : Stage (.lwip n) none false none y)
    (hpending : asyncState y.mem k = .pending) (hnone : y.ghost.holder k = none)
    (htoken : token = asyncDnsToken (y.mem.asyncDnsSlots k).ticket k) (hinv : DnsSafe y) :
    let z : DnsWatched := {
      mem := y.mem
      world := {
        waiting := y.world.waiting.erase token
        calling := Function.update y.world.calling (.lwip n) (some token) }
      ghost := { y.ghost with holder := Function.update y.ghost.holder k (some (.lwip n)) } }
    dnsProtocol.Permits (.lwip n) y z ∧
      Works (.lwip n) k false (some token) (Answers k token) z := by
  have hother : ∀ j, j ≠ k →
      Function.update y.ghost.holder k (some (DnsThread.lwip n)) j = y.ghost.holder j :=
    fun j hj ↦ Function.update_of_ne hj _ _
  have hself : Function.update y.ghost.holder k (some (DnsThread.lwip n)) k = some (.lwip n) :=
    Function.update_self _ _ _
  have hcalling : Function.update y.world.calling (.lwip n) (some token) (.lwip n) = some token :=
    Function.update_self _ _ _
  have hforeign : ∀ j, y.ghost.holder j ≠ some (.lwip n) := fun j h ↦ nomatch (hstage.held j).mp h
  -- the token of another slot differs in its index
  have hdistinct : ∀ j, j < asyncDnsMax → j ≠ k →
      asyncDnsToken (y.mem.asyncDnsSlots j).ticket j ≠ token := by
    intro j hj hne hsame
    have hindex := congrArg slotOf (hsame.trans htoken)
    rw [slotOf_token hj, slotOf_token hk] at hindex
    exact hne hindex
  refine ⟨⟨⟨fun j ↦ ?_, hinv.nodup.erase token, fun other hmem ↦ ?_, hinv.lock⟩, fun u hu ↦ ?_⟩,
    ⟨fun j ↦ ?_, hstage.locked, hcalling⟩, fun h ↦ (nomatch hpending.symm.trans h), hpending,
    htoken⟩
  · have hslot := hinv.slots j
    by_cases hj : j = k
    · rw [hj]
      refine ⟨(hinv.slots k).ticket, fun _ h ↦ (nomatch hself.symm.trans h), fun m hm ↦ ?_,
        fun h ↦ ?_, fun h ↦ (nomatch hpending.symm.trans h)⟩
      · have hm : DnsThread.lwip m = .lwip n := Option.some.inj (hm.symm.trans hself)
        rw [hm]
        exact ⟨hk, hpending, hcalling.trans (congrArg some htoken)⟩
      · rcases h with h | h <;> cases hpending.symm.trans h
    · refine ⟨hslot.ticket, fun h hfree ↦ ?_, fun m hm ↦ ?_, fun h ↦ ?_, fun h ↦ ?_⟩
      · obtain ⟨hlt, hmem⟩ := hslot.waits h ((hother j hj).symm.trans hfree)
        exact ⟨hlt, (List.mem_erase_of_ne (hdistinct j hlt hj)).mpr hmem⟩
      · have hm := (hother j hj).symm.trans hm
        have hne : DnsThread.lwip m ≠ .lwip n := fun h ↦ hforeign j (h ▸ hm)
        obtain ⟨hlt, hstate, hcall⟩ := hslot.answered m hm
        exact ⟨hlt, hstate, (Function.update_of_ne hne _ _).trans hcall⟩
      · exact (hother j hj).trans (hslot.verdict h)
      · exact ⟨(hother j hj).trans (hslot.claimed h).1, (hslot.claimed h).2⟩
  · obtain ⟨hne, hmem⟩ := (hinv.nodup.mem_erase_iff).mp hmem
    obtain ⟨j, hlt, hstate, hfree, hsame⟩ := hinv.waiting other hmem
    have hj : j ≠ k := by
      rintro rfl
      exact hne (hsame.trans htoken.symm)
    exact ⟨j, hlt, hstate, (hother j hj).trans hfree, hsame⟩
  · refine ⟨fun j ↦ ?_, fun _ _ _ ↦ rfl, fun _ _ h ↦ h, Iff.rfl, fun _ _ _ ↦ rfl, ?_⟩
    · change Function.update y.ghost.holder k _ j = _ ↔ _
      by_cases hj : j = k
      · rw [hj, hself, hnone]
        exact iff_of_false (fun h ↦ hu (Option.some.inj h).symm) nofun
      · rw [hother j hj]
    · exact Function.update_of_ne hu _ _
  · change Function.update y.ghost.holder k _ j = _ ↔ _
    by_cases hj : j = k
    · rw [hj, hself]
      exact iff_of_true rfl rfl
    · rw [hother j hj]
      exact iff_of_false (hforeign j) fun h ↦ hj (Option.some.inj h).symm

/-- lwIP begins a callback. -/
theorem secure_dnsCallback (hx : Stage (.lwip n) none false none x) :
    DnsSecure (.lwip n) (note (.dnsCallback token)) (fun _ y ↦ ∃ k < asyncDnsMax,
      Works (.lwip n) k false (some token) (Answers k token) y) x := by
  refine (secure_bind _ _ _ _).mpr ?_
  refine secure_perform hx steady_stage fun y hstage hinv ↦ ⟨trivial, fun answer z g hreply hg ↦ ?_⟩
  change (if token ∈ y.world.waiting then _ else _) = some z at hreply
  split at hreply
  · rename_i hwaiting
    obtain ⟨k, hk, hpending, hnone, htoken⟩ := hinv.waiting token hwaiting
    have hslot : slotOf token = k := by rw [htoken, slotOf_token hk]
    have hz := (Option.some.inj hreply).symm
    have hghost := (Option.some.inj hg).symm
    subst hz
    subst hghost
    rw [hslot]
    obtain ⟨hpermits, hworks⟩ := permits_called hk hstage hpending hnone htoken hinv
    exact ⟨hpermits, k, hk, hworks⟩
  · cases hreply

/-- The callback sets the verdict of its request. -/
theorem secure_swapPending {verdict : AsyncDnsState} (hverdict : verdict = .ready ∨ verdict = .failed)
    (hx : Works (.lwip n) k false (some token) (Answers k token) x) :
    DnsSecure (.lwip n) (access (swapAsyncDns k .pending verdict))
      (fun _ ↦ Stage (.lwip n) none false (some token)) x := by
  refine secure_access hx steady_works fun y g ⟨hstage, hbusy, hpending, htoken⟩ hinv haccess ↦ ?_
  set update := fun old ↦ (swapAsyncDns k .pending verdict old).2 with hupdate
  obtain ⟨rfl, -⟩ := access_eq haccess
  have hholder : y.ghost.holder k = some (.lwip n) := (hstage.held k).mpr rfl
  have hlock : (update y.mem).asyncDnsTableLock = y.mem.asyncDnsTableLock := swapAsyncDns_lock y.mem
  have hlocker : lockerAfter (.lwip n) update y = y.ghost.locker := lockerAfter_same hlock
  have hother : ∀ j, j ≠ k → holderAfter (.lwip n) update y j = y.ghost.holder j :=
    fun j hj ↦ holderAfter_same fun s ↦ swapAsyncDns_of_ne s hj
  have hswap : swapAsyncDns k .pending verdict y.mem = _ := swapAsyncDns_pos hpending
  have hafter : asyncState (update y.mem) k = verdict := by
    change asyncState (swapAsyncDns k .pending verdict y.mem).2 k = verdict
    rw [hswap, asyncState, setAsyncDns_self]
  have hself : holderAfter (.lwip n) update y k = none := by
    have hcompletes : Completes update y.mem k := ⟨hpending, by rwa [hafter]⟩
    rw [holderAfter, if_neg fun h ↦ hbusy h.1, if_pos ⟨hholder, .inr hcompletes⟩]
  have hdone : ∀ state, asyncState (update y.mem) k = state → state = .ready ∨ state = .failed := by
    rintro state rfl
    rwa [hafter]
  refine ⟨SlotStep.permits (k := k) ?_ hinv, fun j ↦ ?_, ?_, hstage.calling⟩
  · exact {
      world := rfl
      lock := hlock
      locker := hlocker
      others := fun j hj ↦ ⟨swapAsyncDns_of_ne y.mem hj, hother j hj⟩
      ours := fun _ hnone ↦ nomatch hholder.symm.trans hnone
      held := fun u hu ↦ by
        change holderAfter _ _ y k = some u ↔ _
        rw [hself, hholder]
        exact iff_of_false nofun fun h ↦ hu (Option.some.inj h).symm
      window := fun u hu h ↦ absurd (Option.some.inj (h.symm.trans hholder)) hu
      settled := fun u _ _ hsettled ↦ by
        rw [asyncState, hpending] at hsettled
        rcases hsettled with h | h | h <;> cases h
      slot := {
        ticket := fun h ↦ by rcases hdone _ h with h | h <;> cases h
        waits := fun h ↦ by rcases hdone _ h with h | h <;> cases h
        answered := fun m hm ↦ nomatch hself.symm.trans hm
        verdict := fun _ ↦ hself
        claimed := fun h ↦ by rcases hdone _ h with h | h <;> cases h } }
  · change holderAfter _ _ y j = some _ ↔ _
    by_cases hj : j = k
    · rw [hj, hself]
      exact iff_of_false nofun nofun
    · rw [hother j hj, hstage.held j]
      exact iff_of_false (fun h ↦ hj (Option.some.inj h).symm) nofun
  · exact ⟨fun h ↦ hstage.locked.mp (hlocker.symm.trans h),
      fun h ↦ hlocker.trans (hstage.locked.mpr h)⟩

/-- The callback returns to lwIP. -/
theorem secure_dnsReturned (hx : Stage (.lwip n) none false (some token) x) :
    DnsSecure (.lwip n) (note .dnsReturned) (fun _ ↦ Stage (.lwip n) none false none) x := by
  refine (secure_bind _ _ _ _).mpr ?_
  refine secure_perform hx steady_stage fun y hstage hinv ↦ ⟨trivial, fun answer z g hreply hg ↦ ?_⟩
  have hz := (Option.some.inj hreply).symm
  have hghost := (Option.some.inj hg).symm
  subst hz
  subst hghost
  have hforeign : ∀ j, y.ghost.holder j ≠ some (.lwip n) := fun j h ↦ nomatch (hstage.held j).mp h
  refine ⟨⟨⟨fun j ↦ ?_, hinv.nodup, hinv.waiting, hinv.lock⟩, fun u hu ↦ ?_⟩, hstage.held,
    hstage.locked, Function.update_self _ _ _⟩
  · have hslot := hinv.slots j
    refine ⟨hslot.ticket, hslot.waits, fun m hm ↦ ?_, hslot.verdict, hslot.claimed⟩
    have hne : DnsThread.lwip m ≠ .lwip n := fun h ↦ hforeign j (h ▸ hm)
    obtain ⟨hlt, hstate, hcall⟩ := hslot.answered m hm
    exact ⟨hlt, hstate, (Function.update_of_ne hne _ _).trans hcall⟩
  · exact ⟨fun _ ↦ Iff.rfl, fun _ _ _ ↦ rfl, fun _ _ h ↦ h, Iff.rfl, fun _ _ _ ↦ rfl,
      Function.update_of_ne hu _ _⟩

theorem secure_dnsDeliver (found : Bool) (hx : Stage (.lwip n) none false none x) :
    DnsSecure (.lwip n) (dnsDeliver token found) (fun _ ↦ Stage (.lwip n) none false none) x := by
  refine (secure_bind _ _ _ _).mpr (secure_mono (secure_dnsCallback hx) fun _ y ⟨k, hk, hy⟩ ↦ ?_)
  have hindex : (token &&& 0x0f).toNat = k + 1 := by
    rw [hy.2.2.2]
    exact token_index hk _
  refine (secure_bind _ _ _ _).mpr ?_
  have hmax : k + 1 ≤ asyncDnsMax := hk
  rw [asyncDnsFound, secure_when, hindex, if_pos ⟨by omega, hmax⟩, Nat.add_sub_cancel]
  refine (secure_bind _ _ _ _).mpr (secure_dnsLoad hy steady_works fun z hz hinv ↦ ?_)
  have hticket : (z.mem.asyncDnsSlots k).ticket = token >>> 4 := by
    rw [hz.2.2.2, token_ticket hk ((hinv.slots k).ticket hz.2.2.1).2]
  rw [secure_when, if_pos hticket]
  have hverdict : ∀ found : Bool, (if found then AsyncDnsState.ready else .failed) = .ready ∨
      (if found then AsyncDnsState.ready else .failed) = .failed := by decide
  refine (secure_bind _ _ _ _).mpr (secure_mono (secure_swapPending (hverdict found) hz) ?_)
  exact fun _ w hw ↦ secure_dnsReturned hw

end Callbacks

/-! ## Runs -/

/-- The shim with an empty table. -/
def emptyTable (s : ShimState) : Machine ShimState DnsWorld where
  mem := { s with asyncDnsSlots := fun _ ↦ {}, asyncDnsTableLock := false }
  world := {}

abbrev DnsRun := Config DnsThread ShimState DnsWorld ShimCall ShimReply

theorem dnsSecured (s : ShimState) :
    Secured dnsSystem dnsMonitor { emptyTable s with ghost := {} } dnsProtocol
      (fun t ↦ Stage t none false none) (fun t ↦ Stage t none false none) where
  rely_refl := DnsRely.refl
  rely_trans _ _ _ _ := DnsRely.trans
  idle_steady _ := steady_stage
  ended_steady _ := steady_stage
  finish_safe t _ hinv hended := ⟨⟨hinv, fun u _ ↦ DnsRely.refl u _⟩, hended⟩
  env_safe event := nomatch event
  body_secure t operation x _ hidle henabled := by
    cases t with
    | title n =>
      cases operation with
      | lookup node service hints res fuel =>
        refine (secure_bind _ _ _ _).mpr ?_
        exact secure_mono (secure_shimGetaddrinfoAsync node service hints res fuel hidle)
          fun _ _ hy ↦ hy
      | callback token found => cases henabled
    | lwip n =>
      cases operation with
      | lookup node service hints res fuel => cases henabled
      | callback token found => exact secure_dnsDeliver found hidle
  initial_inv := {
    slots := fun _ ↦ ⟨nofun, nofun, nofun, fun _ ↦ rfl, nofun⟩
    nodup := List.nodup_nil
    waiting := nofun
    lock := iff_of_false Bool.false_ne_true fun h ↦ h rfl }
  initial_idle _ := ⟨fun _ ↦ iff_of_false nofun nofun, iff_of_false nofun Bool.false_ne_true, rfl⟩

/-- A request whose callback has not returned yet. -/
def Outstanding (c : DnsRun) (token : BitVec 32) : Prop :=
  token ∈ c.machine.world.waiting ∨
    ∃ n, c.threads (.lwip n) ≠ none ∧ c.machine.world.calling (.lwip n) = some token

/-- While no thread looks a name up, every pending slot has a nonzero ticket and an outstanding
request with this ticket, whose callback completes the slot. -/
def NoneOrphaned (c : DnsRun) : Prop :=
  (∀ n, c.threads (.title n) = none) → ∀ k, asyncState c.machine.mem k = .pending →
    (c.machine.mem.asyncDnsSlots k).ticket ≠ 0 ∧
      ∃ token, Outstanding c token ∧ token >>> 4 = (c.machine.mem.asyncDnsSlots k).ticket ∧
        ∀ found s, TableExec (asyncDnsFound token found) c.machine.mem () s →
          asyncState s k = if found then .ready else .failed

/-- No lookup is orphaned as long as no slot is claimed between the two stores of its release. -/
theorem dnsWatch_noneOrphaned (s : ShimState) {actions : List (Action DnsThread DnsOperation Empty
      ShimReply)} {c : DnsRun} {g : DnsGhost}
    (hwatch : dnsSystem.watch dnsMonitor (System.start (emptyTable s)) {} actions = some (c, g)) :
    NoneOrphaned c := by
  intro hquiet k hpending
  have hholds := Secured.sound (dnsSecured s) hwatch
  have hslot := hholds.invariant.slots k
  obtain ⟨hnonzero, hsmall⟩ := hslot.ticket hpending
  have houtstanding : k < asyncDnsMax ∧
      Outstanding c (asyncDnsToken (c.machine.mem.asyncDnsSlots k).ticket k) := by
    cases hholder : g.holder k with
    | none =>
      obtain ⟨hk, hwaiting⟩ := hslot.waits hpending hholder
      exact ⟨hk, .inl hwaiting⟩
    | some t =>
      cases t with
      | title n => cases ((hholds.idle (.title n) (hquiet n)).held k).mp hholder
      | lwip n =>
        obtain ⟨hk, -, hcalling⟩ := hslot.answered n hholder
        refine ⟨hk, .inr ⟨n, fun hidle ↦ ?_, hcalling⟩⟩
        cases ((hholds.idle (.lwip n) hidle).held k).mp hholder
  obtain ⟨hk, htoken⟩ := houtstanding
  refine ⟨hnonzero, _, htoken, token_ticket hk hsmall, fun found s' hexec ↦ ?_⟩
  have hafter : s' = _ := hexec.post_of_wp (wp_asyncDnsFound hk hsmall found)
  rw [if_pos ⟨rfl, hpending⟩] at hafter
  rw [hafter, asyncState, setAsyncDns_self]

/-- Steps of one thread. -/
def dnsSteps (t : DnsThread) (count : ℕ) :
    List (Action DnsThread DnsOperation Empty ShimReply) :=
  List.replicate count (.step t)

/-- A lookup up to its request. -/
def beginLookup (n : ℕ) (name : String) : List (Action DnsThread DnsOperation Empty ShimReply) :=
  .start (.title n) (.lookup (some name) none none true 1) :: dnsSteps (.title n) 15

/-- A lookup that lwIP answers at once releases slot 0.  Between its two stores another thread,
which has found the slot taken, claims slot 1; afterwards the first thread claims slot 0 again. -/
def besideRelease : List (Action DnsThread DnsOperation Empty ShimReply) :=
  beginLookup 0 "a.example" ++ .answer (.title 0) {} :: dnsSteps (.title 0) 2 ++
  .start (.title 1) (.lookup (some "b.example") none none true 1) :: dnsSteps (.title 1) 11 ++
  [.step (.title 0), .step (.title 1), .step (.title 0)] ++ dnsSteps (.title 1) 5 ++
  .answer (.title 1) { code := errInprogress } :: dnsSteps (.title 1) 2 ++
  .answer (.title 0) { code := 200 } :: dnsSteps (.title 0) 2 ++
  .start (.title 0) (.lookup (some "c.example") none none true 1) :: dnsSteps (.title 0) 16 ++
  .answer (.title 0) { code := errInprogress } :: dnsSteps (.title 0) 2

set_option maxRecDepth 2000 in
theorem dnsWatch_noneOrphaned_besideRelease : ∃ c g,
    dnsSystem.watch dnsMonitor (System.start (emptyTable {})) {} besideRelease = some (c, g) ∧
      (∀ n, c.threads (.title n) = none) ∧ asyncState c.machine.mem 0 = .pending ∧
      asyncState c.machine.mem 1 = .pending ∧ NoneOrphaned c := by
  have hwatch : ∃ c g, dnsSystem.watch dnsMonitor (System.start (emptyTable {})) {}
      besideRelease = some (c, g) ∧ (∀ n, c.threads (.title n) = none) ∧
        asyncState c.machine.mem 0 = .pending ∧ asyncState c.machine.mem 1 = .pending := by
    refine ⟨_, _, rfl, fun n ↦ ?_, rfl, rfl⟩
    rcases n with _ | _ | n <;> rfl
  obtain ⟨c, g, hwatch, hquiet, hfirst, hsecond⟩ := hwatch
  exact ⟨c, g, hwatch, hquiet, hfirst, hsecond, dnsWatch_noneOrphaned {} hwatch⟩

/-- A lookup that lwIP answers at once makes slot 0 free, another one claims it and is taken by lwIP,
then the first clears the ticket: the second waits for ever. -/
theorem lookup_orphaned : ∃ actions c,
    dnsSystem.run (System.start (emptyTable {})) actions = some c ∧ ¬ NoneOrphaned c := by
  have hrun : ∃ c, dnsSystem.run (System.start (emptyTable {}))
      (beginLookup 0 "a.example" ++ .answer (.title 0) {} :: dnsSteps (.title 0) 3 ++
        beginLookup 1 "b.example" ++ .answer (.title 1) { code := errInprogress } ::
        dnsSteps (.title 1) 2 ++ dnsSteps (.title 0) 1 ++
        .answer (.title 0) { code := 200 } :: dnsSteps (.title 0) 2) = some c ∧
      (∀ n, c.threads (.title n) = none) ∧ asyncState c.machine.mem 0 = .pending ∧
      (c.machine.mem.asyncDnsSlots 0).ticket = 0 := by
    refine ⟨_, rfl, fun n ↦ ?_, rfl, rfl⟩
    match n with
    | 0 => rfl
    | 1 => rfl
    | n + 2 => rfl
  obtain ⟨c, hrun, hquiet, hpending, hzero⟩ := hrun
  exact ⟨_, c, hrun, fun h ↦ (h hquiet 0 hpending).1 hzero⟩

end Ax88179Aroma.Shim
