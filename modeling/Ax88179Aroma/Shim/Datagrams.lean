import Ax88179Aroma.Shim.Multi
import Ax88179Aroma.Effect.Memory

/-!
# The datagrams behind `recvfrom_multi`

Datagrams arrive at a socket in some order, and a successful `lwip_recvfrom` without the peek flag
removes the oldest one.  The world keeps how many were removed, what lwIP stored at the addresses
that it was given, and how its calls ended; the clock and `lwip_select` may answer anything.
-/

namespace Ax88179Aroma.Shim

open Effect Program

/-- A datagram of an IPv4 sender; lwIP is built without IPv6. -/
structure Datagram where
  sender : Sockaddr
  bytes : List UInt8
  inet : sender.family = nsnAfInet

/-- The bytes that fit into a slot. -/
def Datagram.kept (datagram : Datagram) (len : ℕ) : List UInt8 := datagram.bytes.take len

theorem sockaddrToNsn_sender (datagram : Datagram) :
    sockaddrToNsn 16 datagram.sender = some datagram.sender := by
  unfold sockaddrToNsn
  rw [if_neg (by decide), if_neg (not_not.mpr datagram.inet)]

inductive LwipOutcome where
  | select (code : ℤ)
  | receive (code errno : ℤ)
  deriving DecidableEq, Repr

structure DatagramWorld where
  /-- the datagrams in the order of their arrival -/
  arrived : ℕ → Datagram
  removed : ℕ := 0
  outcomes : List LwipOutcome := []
  /-- the address that the next receive gets -/
  slot : ℕ := 0
  buffer : Memory := fun _ ↦ 0

namespace DatagramWorld

def log (world : DatagramWorld) (outcome : LwipOutcome) : DatagramWorld :=
  { world with outcomes := world.outcomes ++ [outcome] }

/-- The oldest datagram that was not removed. -/
def oldest (world : DatagramWorld) : Datagram := world.arrived world.removed

/-- What lwIP does when it hands out the oldest datagram. -/
def deliver (world : DatagramWorld) (len : ℕ) (flags : BitVec 32) : DatagramWorld :=
  { world with
    removed := if flags &&& msgPeek = 0 then world.removed + 1 else world.removed
    buffer := world.buffer.write world.slot (world.oldest.kept len) }

end DatagramWorld

abbrev DatagramMachine := Machine ShimState DatagramWorld

/-- lwIP reports the length of what it stored, and the sender. -/
def datagramReply : Replies ShimState DatagramWorld ShimCall ShimReply
  | .note (.touch .buffer offset _), _, x =>
    some { x with world := { x.world with slot := offset } }
  | .lwip (.select _ _ _ _ _), answer, x =>
    some { x with world := x.world.log (.select answer.code) }
  | .lwip (.recvfrom _ len flags), answer, x =>
    let logged := x.world.log (.receive answer.code answer.errno)
    if answer.code < 0 then some { x with world := logged }
    else if answer.code = (x.world.oldest.kept len).length ∧
        answer.addr = some x.world.oldest.sender then
      some { x with world := logged.deliver len flags }
    else none
  | _, _, x => some x

/-! ## What is promised -/

/-- The datagrams removed are reported in order, and nothing else is. -/
structure Accounts (datagramLen count : ℕ) (before : DatagramWorld) (result : ShimReply)
    (after : DatagramWorld) : Prop where
  arrived_eq : after.arrived = before.arrived
  removed_eq : after.removed = before.removed + result.code.toNat
  code_ge : -1 ≤ result.code
  reported : ∀ i < result.code.toNat,
    let datagram := before.arrived (before.removed + i)
    result.results[i]? = some ((datagram.kept datagramLen).length : ℤ) ∧
      after.buffer.slice (i * datagramLen) (datagram.kept datagramLen).length =
        datagram.kept datagramLen ∧
      result.froms[i]? = some datagram.sender
  cleared : ∀ i, result.code.toNat < i → i < count → result.results[i]? = some 0

/-- A failed select, or a failed receive that was not for want of data, with nothing before. -/
def HardFailure : List LwipOutcome → Prop
  | [.select code] => code < 0
  | [.receive code errno] => code < 0 ∧ errno ≠ ewouldblock ∧ errno ≠ eagain
  | [.select ready, .receive code errno] =>
    0 < ready ∧ code < 0 ∧ errno ≠ ewouldblock ∧ errno ≠ eagain
  | _ => False

/-! ## The loop -/

/-- After `i` datagrams were received. -/
structure Progress (datagramLen count : ℕ) (before : DatagramWorld) (i : ℕ) (results : List ℤ)
    (froms : List Sockaddr) (world : DatagramWorld) : Prop where
  arrived_eq : world.arrived = before.arrived
  removed_eq : world.removed = before.removed + i
  length_results : results.length = count
  length_froms : froms.length = i
  reported : ∀ j < i,
    let datagram := before.arrived (before.removed + j)
    results[j]? = some ((datagram.kept datagramLen).length : ℤ) ∧
      world.buffer.slice (j * datagramLen) (datagram.kept datagramLen).length =
        datagram.kept datagramLen ∧
      froms[j]? = some datagram.sender
  cleared : ∀ j, i ≤ j → j < count → results[j]? = some 0

section Loop

variable {datagramLen count i : ℕ} {before : DatagramWorld} {results : List ℤ}
  {froms : List Sockaddr} {world : DatagramWorld}

/-- What the calls of a turn log does not matter. -/
theorem Progress.logged (h : Progress datagramLen count before i results froms world)
    (outcomes : List LwipOutcome) (slot : ℕ) :
    Progress datagramLen count before i results froms
      { world with outcomes := outcomes, slot := slot } :=
  ⟨h.arrived_eq, h.removed_eq, h.length_results, h.length_froms, h.reported, h.cleared⟩

/-- Every exit of the loop: the result at `i` is the only one that may have changed. -/
theorem Progress.accounts (h : Progress datagramLen count before i results froms world)
    {code : ℤ} (hcode : code.toNat = i) (hge : -1 ≤ code) {results' : List ℤ}
    (hsame : ∀ j, j ≠ i → results'[j]? = results[j]?) (data : List UInt8) :
    Accounts datagramLen count before (recvMultiReply code results' froms data) world where
  arrived_eq := h.arrived_eq
  removed_eq := by
    rw [h.removed_eq]
    exact congrArg _ hcode.symm
  code_ge := hge
  reported := by
    intro j hj datagram
    have hlt : j < i := hcode ▸ hj
    obtain ⟨hresult, hslice, hfrom⟩ := h.reported j hlt
    exact ⟨(hsame j hlt.ne).trans hresult, hslice, hfrom⟩
  cleared := by
    intro j hj hcount
    have hlt : i < j := hcode ▸ hj
    exact (hsame j hlt.ne').trans (h.cleared j hlt.le hcount)

/-- A received datagram goes to its own slot, behind the slots of the others. -/
theorem Progress.deliver (h : Progress datagramLen count before i results froms world)
    (hi : i < count) (hslot : world.slot = i * datagramLen) {flags : BitVec 32}
    (hpeek : flags &&& msgPeek = 0) :
    Progress datagramLen count before (i + 1)
      (results.set i ((world.oldest.kept datagramLen).length : ℤ))
      (froms ++ [world.oldest.sender]) (world.deliver datagramLen flags) := by
  have holdest : world.oldest = before.arrived (before.removed + i) := by
    unfold DatagramWorld.oldest
    rw [h.arrived_eq, h.removed_eq]
  refine ⟨h.arrived_eq, ?_, ?_, ?_, ?_, ?_⟩
  · change (if flags &&& msgPeek = 0 then world.removed + 1 else world.removed) = _
    rw [if_pos hpeek, h.removed_eq, Nat.add_assoc]
  · rw [List.length_set, h.length_results]
  · rw [List.length_append, h.length_froms]
    rfl
  · intro j hj datagram
    change _ ∧ (world.buffer.write world.slot (world.oldest.kept datagramLen)).slice _ _ = _ ∧ _
    rcases Nat.lt_succ_iff_lt_or_eq.mp hj with hlt | rfl
    · obtain ⟨hresult, hslice, hfrom⟩ := h.reported j hlt
      have hkept : (datagram.kept datagramLen).length ≤ datagramLen := List.length_take_le _ _
      have hbehind : j * datagramLen + (datagram.kept datagramLen).length ≤ world.slot := by
        rw [hslot]
        have hnext : (j + 1) * datagramLen ≤ i * datagramLen := Nat.mul_le_mul_right _ hlt
        rw [Nat.succ_mul] at hnext
        omega
      refine ⟨?_, ?_, ?_⟩
      · rw [List.getElem?_set_ne hlt.ne']
        exact hresult
      · rw [Memory.slice_write_of_disjoint (.inl hbehind)]
        exact hslice
      · rw [List.getElem?_append_left (h.length_froms.symm ▸ hlt)]
        exact hfrom
    · rw [show datagram = world.oldest from holdest.symm, ← hslot]
      refine ⟨?_, Memory.slice_write_self _ _ _, ?_⟩
      · exact List.getElem?_set_self (h.length_results.symm ▸ hi)
      · rw [List.getElem?_append_right h.length_froms.le, h.length_froms, Nat.sub_self]
        rfl
  · intro j hj hcount
    rw [List.getElem?_set_ne (Nat.ne_of_lt hj)]
    exact h.cleared j (Nat.le_of_succ_le hj) hcount

end Loop

/-- What one receive does. -/
theorem datagramReply_recvfrom {lwfd : ℤ} {len : ℕ} {flags : BitVec 32} {answer : ShimReply}
    {x y : DatagramMachine}
    (h : datagramReply (.lwip (.recvfrom lwfd len flags)) answer x = some y) :
    answer.code < 0 ∧ y.world = x.world.log (.receive answer.code answer.errno) ∨
    answer.code = (x.world.oldest.kept len).length ∧ answer.addr = some x.world.oldest.sender ∧
      y.world = (x.world.log (.receive answer.code answer.errno)).deliver len flags := by
  simp only [datagramReply] at h
  split at h
  · cases h
    exact .inl ⟨‹_›, rfl⟩
  · split at h
    · rename_i hanswer
      cases h
      exact .inr ⟨hanswer.1, hanswer.2, rfl⟩
    · cases h

section Wp

variable {pre : ShimCall → DatagramMachine → Prop}

/-- The wait of a turn logs at most its select. -/
theorem wp_ready (hpre : ∀ request y, pre request y) (lwfd : ℤ) (deadline : Option ℤ)
    (x : DatagramMachine) :
    wp datagramReply pre
      (match deadline with
        | none => pure 1
        | some deadline => waitReadable lwfd deadline)
      (fun ready y ↦ ∃ logged, y.world = { x.world with outcomes := x.world.outcomes ++ logged } ∧
        (logged = [] ∧ 0 ≤ ready ∨ logged = [.select ready])) x := by
  cases deadline with
  | none => exact ⟨[], by rw [List.append_nil], .inl ⟨rfl, by decide⟩⟩
  | some deadline =>
    refine (wp_bind _ _ _ _).mpr ⟨hpre _ _, fun now y hnow ↦ ?_⟩
    cases hnow
    refine wp_cases (fun _ ↦ ⟨[], by rw [List.append_nil], .inl ⟨rfl, le_refl 0⟩⟩) fun _ ↦ ?_
    refine (wp_bind _ _ _ _).mpr ((wp_bind _ _ _ _).mpr ⟨hpre _ _, fun ready y hready ↦ ?_⟩)
    cases hready
    exact ⟨[.select ready.code], rfl, .inr rfl⟩

/-- What the loop ends with, from entry `i` on. -/
theorem wp_recvLoop (hpre : ∀ request y, pre request y) {datagramLen count : ℕ}
    (hsize : datagramLen * count ≤ 0xffffffff) {flags : BitVec 32}
    (hpeek : msgFlagsToLwip flags &&& msgPeek = 0) (lwfd : ℤ) (deadline : Option ℤ)
    {before : DatagramWorld} (left : ℕ) {i : ℕ} {results : List ℤ} {froms : List Sockaddr}
    (data : List UInt8) {x : DatagramMachine} (hcount : i + left = count)
    (hx : Progress datagramLen count before i results froms x.world)
    (hfirst : i = 0 → x.world.outcomes = before.outcomes) :
    wp datagramReply pre
      (recvLoop lwfd flags datagramLen deadline left i results froms data)
      (fun result y ↦ Accounts datagramLen count before result y.world ∧
        (result.code = -1 → ∃ logged, y.world.outcomes = before.outcomes ++ logged ∧
          HardFailure logged)) x := by
  induction left generalizing i results froms data x with
  | zero =>
    refine ⟨hx.accounts (Int.toNat_natCast i) (by omega) (fun _ _ ↦ rfl) data, fun hcode ↦ ?_⟩
    exact absurd hcode (by change (i : ℤ) ≠ -1; omega)
  | succ left ih =>
    have hset : ∀ value j, j ≠ i → (results.set i value)[j]? = results[j]? := fun value j hne ↦
      List.getElem?_set_ne hne.symm
    have hexit : ((if i = 0 then -1 else (i : ℤ)) : ℤ).toNat = i := by
      split <;> omega
    have hge : -1 ≤ ((if i = 0 then -1 else (i : ℤ)) : ℤ) := by
      split <;> omega
    have hzero : ((if i = 0 then -1 else (i : ℤ)) : ℤ) = -1 → i = 0 := by
      split
      · exact fun _ ↦ ‹_›
      · omega
    -- The offset is computed in 32 bits, which hold the whole buffer.
    have hoffset : (UInt32.ofNat i * UInt32.ofNat datagramLen).toNat = i * datagramLen := by
      have hle : i * datagramLen ≤ datagramLen * count := by
        rw [Nat.mul_comm]
        exact Nat.mul_le_mul_left _ (by omega)
      rw [← UInt32.ofNat_mul, UInt32.toNat_ofNat_of_lt' (Nat.lt_of_le_of_lt (hle.trans hsize)
        (by decide))]
    cases deadline
    case' none => refine wp_seq (wp_ready hpre lwfd none x) fun ready y hy ↦ ?_
    case' some deadline => refine wp_seq (wp_ready hpre lwfd (some deadline) x) fun ready y hy ↦ ?_
    all_goals
      obtain ⟨logged, hworld, hlogged⟩ := hy
      have hy : Progress datagramLen count before i results froms y.world := by
        rw [hworld]
        exact hx.logged _ _
      have houtcomes : i = 0 → y.world.outcomes = before.outcomes ++ logged := fun hi ↦ by
        rw [hworld, ← hfirst hi]
      refine wp_cases (fun hready ↦ ?_) fun hready ↦ wp_cases (fun hfailed ↦ ?_) fun hok ↦ ?_
      · -- the deadline has passed
        refine (wp_bind _ _ _ _).mpr ((wp_bind _ _ _ _).mpr ⟨hpre _ _, fun _ z hz ↦ ?_⟩)
        cases hz
        refine ⟨hy.accounts (Int.toNat_natCast i) (by omega) (hset (-1)) data, fun hcode ↦ ?_⟩
        exact absurd hcode (by change (i : ℤ) ≠ -1; omega)
      · -- the select failed
        refine (wp_bind _ _ _ _).mpr ((wp_bind _ _ _ _).mpr ⟨hpre _ _, fun _ z hz ↦ ?_⟩)
        cases hz
        refine ⟨hy.accounts hexit hge (hset (-1)) data, fun hcode ↦ ?_⟩
        refine ⟨logged, houtcomes (hzero hcode), ?_⟩
        rcases hlogged with ⟨-, hnonneg⟩ | rfl
        · exact absurd hfailed (not_lt.mpr hnonneg)
        · exact hfailed
      · refine (wp_bind _ _ _ _).mpr ((wp_bind _ _ _ _).mpr ⟨hpre _ _, fun _ z hz ↦ ?_⟩)
        cases hz
        refine (wp_bind _ _ _ _).mpr ((wp_bind _ _ _ _).mpr ⟨hpre _ _, fun rc w hrc ↦ ?_⟩)
        refine (wp_bind _ _ _ _).mpr ((wp_bind _ _ _ _).mpr ⟨hpre _ _, fun _ z hz ↦ ?_⟩)
        cases hz
        have hpositive : 0 < ready := by omega
        rcases datagramReply_recvfrom hrc with ⟨hfailed, hafter⟩ | ⟨hcode, haddr, hafter⟩
        · have hw : Progress datagramLen count before i results froms w.world := by
            rw [hafter]
            exact hy.logged _ _
          refine wp_cases (fun _ ↦ ?_) fun hnonneg ↦ absurd hfailed hnonneg
          refine wp_cases (fun _ ↦ ?_) fun hhard ↦ ?_
          · refine ⟨hw.accounts (Int.toNat_natCast i) (by omega) (hset rc.code) data, ?_⟩
            exact fun hcode ↦ absurd hcode (by change (i : ℤ) ≠ -1; omega)
          · refine ⟨hw.accounts hexit hge (hset rc.code) data, fun hcode ↦ ?_⟩
            refine ⟨logged ++ [.receive rc.code rc.errno], ?_, ?_⟩
            · change w.world.outcomes = _
              rw [hafter, ← List.append_assoc, ← houtcomes (hzero hcode)]
              rfl
            · have hhard := not_or.mp hhard
              rcases hlogged with ⟨rfl, -⟩ | rfl
              · exact ⟨hfailed, hhard.1, hhard.2⟩
              · exact ⟨hpositive, hfailed, hhard.1, hhard.2⟩
        · have hslot := (hy.logged (y.world.outcomes ++ [.receive rc.code rc.errno])
            (UInt32.ofNat i * UInt32.ofNat datagramLen).toNat).deliver (by omega) hoffset hpeek
          have hsender : (rc.addr.bind (sockaddrToNsn 16)).toList = [y.world.oldest.sender] := by
            rw [haddr]
            exact congrArg Option.toList (sockaddrToNsn_sender y.world.oldest)
          refine wp_cases (fun hfailed ↦ absurd hfailed (by rw [hcode]; omega)) fun _ ↦ ?_
          refine (wp_bind _ _ _ _).mpr ((wp_bind _ _ _ _).mpr ⟨hpre _ _, fun _ z hz ↦ ?_⟩)
          cases hz
          rw [hsender, hcode]
          refine ih _ (by omega) ?_ nofun
          change Progress datagramLen count before (i + 1) _ _ w.world
          rw [hafter]
          exact hslot

end Wp

/-! ## The hook -/

theorem datagramReply_exists (request : ShimCall) (x : DatagramMachine) :
    ∃ answer y, datagramReply request answer x = some y := by
  refine ⟨{ code := -1 }, ?_⟩
  unfold datagramReply
  split
  · exact ⟨_, rfl⟩
  · exact ⟨_, rfl⟩
  · exact ⟨_, if_pos (by decide)⟩
  · exact ⟨_, rfl⟩

theorem total_note (event : ShimNote) : Total (note event) :=
  (total_perform _).bind fun _ ↦ total_pure _

theorem total_waitReadable (lwfd deadline : ℤ) : Total (waitReadable lwfd deadline) :=
  (total_perform _).bind fun _ ↦ Total.ite (fun _ ↦ total_pure _) fun _ ↦
    (total_lwip _).bind fun _ ↦ total_pure _

theorem total_recvLoop (lwfd : ℤ) (flags : BitVec 32) (datagramLen : ℕ) (deadline : Option ℤ)
    (left i : ℕ) (results : List ℤ) (froms : List Sockaddr) (data : List UInt8) :
    Total (recvLoop lwfd flags datagramLen deadline left i results froms data) := by
  induction left generalizing i results froms data with
  | zero => exact total_pure _
  | succ left ih =>
    cases deadline
    case' none => refine (total_pure _).bind fun ready ↦ ?_
    case' some deadline => refine (total_waitReadable lwfd deadline).bind fun ready ↦ ?_
    all_goals
      refine Total.ite (fun _ ↦ ?_) fun _ ↦ Total.ite (fun _ ↦ ?_) fun _ ↦ ?_
      · exact (total_note _).bind fun _ ↦ (total_store _).bind fun _ ↦ total_pure _
      · exact (total_note _).bind fun _ ↦ total_pure _
      · refine (total_note _).bind fun _ ↦ (total_lwip _).bind fun rc ↦ (total_note _).bind fun _ ↦ ?_
        refine Total.ite (fun _ ↦ Total.ite (fun _ ↦ ?_) fun _ ↦ total_pure _) fun _ ↦ ?_
        · exact (total_store _).bind fun _ ↦ total_pure _
        · exact (total_note _).bind fun _ ↦ ih _ _ _ _

/-- `recvfrom_multi` returns. -/
theorem total_hookRecvfromMulti (sockfd : ℤ) (flags : BitVec 32)
    (b : Option RecvfromMultiBuffers) (datagramLen count : ℤ) (timeout : Option Timeval) :
    Total (hookRecvfromMulti sockfd flags b datagramLen count timeout) := by
  have hfail : ∀ error, Total (fail error) := fun error ↦
    (total_store _).bind fun _ ↦ total_pure _
  have hforeign : Total (isForeign sockfd) :=
    ((total_load _).bind fun _ ↦ total_pure _).bind fun _ ↦
      Total.ite (fun _ ↦ total_pure _) fun _ ↦ (total_load _).bind fun _ ↦ total_pure _
  refine hforeign.bind fun _ ↦ Total.ite (fun _ ↦ (total_store _).bind fun _ ↦ total_perform _)
    fun _ ↦ (total_store _).bind fun _ ↦ ?_
  cases b with
  | none => exact hfail _
  | some b =>
    refine Total.ite (fun _ ↦ hfail _) fun _ ↦ Total.ite (fun _ ↦ total_pure _) fun _ ↦
      Total.ite (fun _ ↦ hfail _) fun _ ↦ ?_
    refine (Total.each (fun _ ↦ total_note _) _).bind fun _ ↦ Total.bind ?_ fun deadline ↦
      (total_load _).bind fun lwfd ↦ total_recvLoop _ _ _ _ _ _ _ _ _
    cases timeout with
    | none => exact total_pure _
    | some tv => exact (total_perform _).bind fun _ ↦ total_pure _

/-- A request that `recvfrom_multi` does not refuse. -/
def RecvValid (b : Option RecvfromMultiBuffers) (datagramLen count : ℤ)
    (timeout : Option Timeval) : Prop :=
  ∃ buffers ∈ b, ¬(datagramLen < 0 ∨ count < 0 ∨ timeout.any Timeval.invalid = true) ∧
    (count ≠ 0 → RecvAccepted buffers datagramLen count timeout)

theorem msgFlagsToLwip_peek {flags : BitVec 32} (h : flags &&& nsnMsgPeek = 0) :
    msgFlagsToLwip flags &&& msgPeek = 0 := by
  unfold msgFlagsToLwip flagTo
  rw [if_pos h]
  split <;> split <;> decide

/-- A valid request accounts for what it removed, and fails only when its first call failed; any
other request fails and leaves the socket alone. -/
def RecvOutcome (valid : Prop) (datagramLen count : ℕ) (before : DatagramWorld)
    (result : ShimReply) (after : DatagramWorld) : Prop :=
  (valid → Accounts datagramLen count before result after) ∧
    (¬ valid → result.code = -1 ∧ after = before) ∧
    (valid → result.code = -1 →
      ∃ logged, after.outcomes = before.outcomes ++ logged ∧ HardFailure logged)

/-- The arrays before the first receive. -/
theorem progress_start (datagramLen count : ℕ) (world : DatagramWorld) :
    Progress datagramLen count world 0 (List.replicate count 0) [] world where
  arrived_eq := rfl
  removed_eq := rfl
  length_results := List.length_replicate
  length_froms := rfl
  reported := nofun
  cleared := fun j _ hj ↦ by rw [List.getElem?_replicate, if_pos hj]

/-- What the checks and the loop end with. -/
theorem wp_hookRecvfromMulti {x : DatagramMachine} {sockfd : ℤ} (howned : AxOwned sockfd x.mem)
    {flags : BitVec 32} (hpeek : flags &&& nsnMsgPeek = 0) (b : Option RecvfromMultiBuffers)
    (datagramLen count : ℤ) (timeout : Option Timeval) :
    wp datagramReply (fun _ _ ↦ True) (hookRecvfromMulti sockfd flags b datagramLen count timeout)
      (fun result y ↦ RecvOutcome (RecvValid b datagramLen count timeout) datagramLen.toNat
        count.toNat x.world result y.world) x := by
  have hrefused : ∀ {y : DatagramMachine}, y.world = x.world →
      ¬ RecvValid b datagramLen count timeout →
      wp datagramReply (fun _ _ ↦ True) (fail einval) (fun result y ↦
        RecvOutcome (RecvValid b datagramLen count timeout) datagramLen.toNat count.toNat x.world
          result y.world) y :=
    fun hworld hinvalid ↦ ⟨fun h ↦ absurd h hinvalid, fun _ ↦ ⟨rfl, hworld⟩,
      fun h ↦ absurd h hinvalid⟩
  unfold hookRecvfromMulti
  rw [wp_routed_owned howned]
  cases b with
  | none => exact hrefused rfl nofun
  | some b =>
    refine wp_cases (fun hbad ↦ hrefused rfl ?_) fun hgood ↦ wp_cases (fun hzero ↦ ?_) fun hcount ↦
      wp_cases (fun hbad ↦ hrefused rfl ?_) fun hfits ↦ ?_
    · rintro ⟨buffers, -, hgood, -⟩
      exact hgood hbad
    · subst hzero
      have hvalid : RecvValid (some b) datagramLen 0 timeout :=
        ⟨b, rfl, hgood, fun h ↦ absurd rfl h⟩
      have hnone : Accounts datagramLen.toNat 0 x.world {} x.world :=
        ⟨rfl, rfl, by decide, nofun, fun _ _ hlt ↦ absurd hlt (Nat.not_lt_zero _)⟩
      exact ⟨fun _ ↦ hnone, fun h ↦ absurd hvalid h, fun _ ↦ nofun⟩
    · rintro ⟨buffers, hbuffers, -, haccepted⟩
      cases hbuffers
      exact (haccepted hcount).2.2 hbad
    · have hvalid : RecvValid (some b) datagramLen count timeout :=
        ⟨b, rfl, hgood, fun _ ↦ ⟨hgood, hcount, hfits⟩⟩
      have hextents : recvfromExtents b datagramLen.toNat count.toNat = true := by
        simpa using (not_or.mp hfits).2
      have hclear : ∀ y : DatagramMachine, y.world = x.world →
          wp datagramReply (fun _ _ ↦ True) (clearResults count.toNat)
            (fun _ z ↦ z.world = x.world) y := fun y hy ↦
        wp_each hy fun i _ y hy ↦ ⟨trivial, fun answer z hz ↦ by
          cases hz
          exact hy⟩
      refine wp_seq (hclear _ rfl) fun _ y hy ↦ ?_
      have hdeadline : wp datagramReply (fun _ _ ↦ True)
          (deadlineAfter (timeout.map fun tv ↦ osMicrosecondsToTicks tv.micros))
          (fun _ z ↦ z.world = x.world) y := by
        cases timeout with
        | none => exact hy
        | some tv =>
          refine ⟨trivial, fun answer z hz ↦ ?_⟩
          cases hz
          exact hy
      refine wp_seq hdeadline fun deadline z hz ↦ (wp_bind _ _ _ _).mpr ((wp_load _ _ _).mpr ?_)
      have hstart := progress_start datagramLen.toNat count.toNat x.world
      rw [← hz] at hstart
      refine wp_mono (wp_recvLoop (fun _ _ ↦ trivial) (of_decide_eq_true hextents).1
        (msgFlagsToLwip_peek hpeek) _ deadline count.toNat [] (Nat.zero_add _) hstart fun _ ↦ rfl)
        fun result w hw ↦ ?_
      rw [hz] at hw
      exact ⟨fun _ ↦ hw.1, fun h ↦ absurd hvalid h, fun _ ↦ hw.2⟩

/-- `recvfrom_multi` returns, and accounts for every datagram that it removes from the socket. -/
theorem hookRecvfromMulti_accounts {x : DatagramMachine} {sockfd : ℤ}
    (howned : AxOwned sockfd x.mem) {flags : BitVec 32} (hpeek : flags &&& nsnMsgPeek = 0)
    (b : Option RecvfromMultiBuffers) (datagramLen count : ℤ) (timeout : Option Timeval) :
    (∃ result y, Exec datagramReply
      (hookRecvfromMulti sockfd flags b datagramLen count timeout) x result y) ∧
    ∀ result y, Exec datagramReply
        (hookRecvfromMulti sockfd flags b datagramLen count timeout) x result y →
      (RecvValid b datagramLen count timeout →
        Accounts datagramLen.toNat count.toNat x.world result y.world) ∧
      (result.code = -1 → y.world.removed = x.world.removed ∧
        (¬ RecvValid b datagramLen count timeout ∨
          ∃ logged, y.world.outcomes = x.world.outcomes ++ logged ∧ HardFailure logged)) := by
  refine ⟨(total_hookRecvfromMulti sockfd flags b datagramLen count timeout).exists_exec
    datagramReply_exists x, fun result y hexec ↦ ?_⟩
  obtain ⟨haccounts, hrefused, hfailure⟩ :=
    hexec.post_of_wp (wp_hookRecvfromMulti howned hpeek b datagramLen count timeout)
  refine ⟨haccounts, fun hcode ↦ ?_⟩
  by_cases hvalid : RecvValid b datagramLen count timeout
  · refine ⟨?_, .inr (hfailure hvalid hcode)⟩
    rw [(haccounts hvalid).removed_eq, hcode]
    rfl
  · exact ⟨congrArg DatagramWorld.removed (hrefused hvalid).2, .inl hvalid⟩

/-- Two datagrams, the second longer than its slot, and then a socket without data. -/
theorem hookRecvfromMulti_accounts_two :
    let arrived : ℕ → Datagram := fun n ↦
      ⟨⟨nsnAfInet, 1000, .ofNat n⟩, List.replicate (10 * (n + 1)) (.ofNat n), rfl⟩
    ∃ result y, Exec datagramReply
        (hookRecvfromMulti 3 0 (some smallRecvBuffers) 16 4 none)
        { mem := ownedShim, world := { arrived := arrived } } result y ∧
      result.code = 2 ∧ y.world.removed = 2 ∧ result.results = [10, 16, -1, 0] ∧
      y.world.buffer.slice 16 16 = List.replicate 16 1 := by
  intro arrived
  let answers : List ShimReply := [{}, {}, {}, {}, {},
    { code := 10, addr := some (arrived 0).sender }, {}, {}, {},
    { code := 16, addr := some (arrived 1).sender }, {}, {}, {}, { code := -1, errno := 11 }, {}]
  have hrun : (run datagramReply (hookRecvfromMulti 3 0 (some smallRecvBuffers) 16 4 none) answers
      { mem := ownedShim, world := { arrived := arrived } }).map
        (fun out ↦ (out.1.code, out.1.results)) = some (2, [10, 16, -1, 0]) := by decide +kernel
  obtain ⟨⟨result, y, rest⟩, hrun, hresult⟩ := Option.map_eq_some_iff.mp hrun
  obtain ⟨hcode, hresults⟩ := Prod.mk.inj hresult
  have hexec := exec_of_run hrun
  obtain ⟨haccounts, -⟩ := (hookRecvfromMulti_accounts ownedShim_owned (by decide)
    (some smallRecvBuffers) 16 4 none).2 result y hexec
  have haccounts := haccounts ⟨smallRecvBuffers, rfl, by decide, fun _ ↦
    ⟨by decide, by decide, by decide⟩⟩
  have hremoved := haccounts.removed_eq
  have hslot := (haccounts.reported 1 (by rw [hcode]; decide)).2.1
  rw [hcode] at hremoved
  exact ⟨result, y, hexec, hcode, hremoved, hresults, hslot⟩

end Ax88179Aroma.Shim
