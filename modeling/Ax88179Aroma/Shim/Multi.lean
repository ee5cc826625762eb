import Ax88179Aroma.Shim.Sockets
import Mathlib.Tactic.Linarith

/-!
# Batches of datagrams

`recvfrom_multi` and `sendto_multi_ex` take arrays whose sizes the title declares.  The checks round
each needed size up to 64 bytes in 32-bit arithmetic, and `sendto_multi_ex` adds up the lengths
before it compares anything.  Accesses to the arrays are the notes `touch`.
-/

namespace Ax88179Aroma.Shim

open Effect Program

/-- Accesses at offsets below the declared extents. -/
def Inside (extent : Region → ℕ) : ShimCall → Prop
  | .note (.touch region offset size) => offset + size ≤ extent region
  | _ => True

/-- The largest size whose round-up to 64 bytes does not wrap. -/
def padLimit : ℕ := 2 ^ 32 - 64

/-! ## Rounding -/

theorem alignDown_eq (a : BitVec 32) : a &&& ~~~ 0x3f#32 = (a >>> 6) <<< 6 := by
  apply BitVec.eq_of_getLsbD_eq
  intro i hi
  simp only [BitVec.getLsbD_and, BitVec.getLsbD_not, BitVec.getLsbD_shiftLeft,
    BitVec.getLsbD_ushiftRight, hi]
  by_cases hlow : i < 6
  · have hbit : (0x3f#32).getLsbD i = true := by
      revert hlow i
      decide
    simp [hbit, hlow]
  · have hbit : (0x3f#32).getLsbD i = false := by
      revert hlow hi i
      decide
    have hindex : 6 + (i - 6) = i := by omega
    simp [hbit, hlow, hindex]

/-- Up to the limit, rounding up does not lose bytes. -/
theorem le_nsnIpcPad {size : UInt32} (h : size.toNat ≤ padLimit) :
    size.toNat ≤ (nsnIpcPad size).toNat := by
  have heq : (nsnIpcPad size).toBitVec = ((size.toBitVec + 0x3f#32) >>> 6) <<< 6 := alignDown_eq _
  rw [padLimit] at h
  rw [← UInt32.toNat_toBitVec, ← UInt32.toNat_toBitVec, heq]
  simp only [BitVec.toNat_shiftLeft, BitVec.toNat_ushiftRight, BitVec.toNat_add, Nat.shiftLeft_eq,
    Nat.shiftRight_eq_div_pow]
  simp
  omega

/-- A declared length that passes the alignment check. -/
theorem le_padLimit {length : UInt32} (h : length &&& 0x3f = 0) : length.toNat ≤ padLimit := by
  have hmod : length.toNat % 64 = 0 := by
    have hand := congrArg UInt32.toNat h
    rw [UInt32.toNat_and] at hand
    simpa using (Nat.and_two_pow_sub_one_eq_mod length.toNat 6).symm.trans hand
  have hlt := length.toNat_lt
  rw [padLimit]
  omega

/-- A size within the limit that passes the comparison fits. -/
theorem le_of_nsnIpcPad_le {needed : ℕ} {length : UInt32} (hneeded : needed ≤ padLimit)
    (h : nsnIpcPad (.ofNat needed) ≤ length) : needed ≤ length.toNat := by
  have hsmall : needed < 2 ^ 32 := by
    rw [padLimit] at hneeded
    omega
  have hnat : (UInt32.ofNat needed).toNat = needed := UInt32.toNat_ofNat_of_lt' hsmall
  have hlimit : (UInt32.ofNat needed).toNat ≤ padLimit := by
    rw [hnat]
    exact hneeded
  have hpad := le_nsnIpcPad hlimit
  have hle : (nsnIpcPad (.ofNat needed)).toNat ≤ length.toNat := h
  rw [hnat] at hpad
  exact Nat.le_trans hpad hle

/-- The entries of an array of a declared length, compared in 32 bits. -/
theorem entries_le {count size : ℕ} {length : UInt32} (hcount : count * size ≤ padLimit)
    (h : nsnIpcPad (.ofNat count * .ofNat size) ≤ length) : count * size ≤ length.toNat := by
  rw [← UInt32.ofNat_mul] at h
  exact le_of_nsnIpcPad_le hcount h

/-! ## Receiving -/

/-- lwIP stores no more bytes than it is asked for; everything else may answer anything. -/
def recvReply : Replies ShimState Unit ShimCall ShimReply
  | .lwip (.recvfrom _ len _), answer, x => if answer.bytes.length ≤ len then some x else none
  | _, _, x => some x

def RecvfromMultiBuffers.extent (b : RecvfromMultiBuffers) : Region → ℕ
  | .buffer => b.bufferlen.toNat
  | .froms => b.fromslen.toNat
  | .results => b.resultslen.toNat
  | .datagramLens => 0
  | .dests => 0

/-- The declared extents hold all slots, senders and results. -/
def RecvfromMultiBuffers.Fits (b : RecvfromMultiBuffers) (datagramLen count : ℕ) : Prop :=
  datagramLen * count ≤ b.bufferlen.toNat ∧ 16 * count ≤ b.fromslen.toNat ∧
    4 * count ≤ b.resultslen.toNat

/-- The request passes all the checks. -/
def RecvAccepted (b : RecvfromMultiBuffers) (datagramLen count : ℤ) (timeout : Option Timeval) :
    Prop :=
  ¬(datagramLen < 0 ∨ count < 0 ∨ timeout.any Timeval.invalid = true) ∧ count ≠ 0 ∧
    ¬(b.aligned = false ∨ recvfromExtents b datagramLen.toNat count.toNat = false)

/-- The program makes no call and fails with `EINVAL`. -/
def Refuses {W : Type} (reply : Replies ShimState W ShimCall ShimReply) (program : ShimM ShimReply)
    (x : Machine ShimState W) : Prop :=
  (∀ request y, ¬Makes reply program x request y) ∧
    ∀ result y, Exec reply program x result y → result.code = -1 ∧ y.mem.errno = einval

/-- No access leaves the declared extents, and a request that does not fit is refused. -/
def RecvSafe (b : Option RecvfromMultiBuffers) (datagramLen count : ℤ) (program : ShimM ShimReply)
    (x : Machine ShimState Unit) : Prop :=
  (∀ request y, Makes recvReply program x request y →
    Inside (b.elim (fun _ ↦ 0) RecvfromMultiBuffers.extent) request) ∧
  ((∀ buffers ∈ b, ¬buffers.Fits datagramLen.toNat count.toNat) → Refuses recvReply program x)

/-! ### Accesses -/

section Touches

variable {extent : Region → ℕ}

theorem inside_note {region : Region} {offset size : ℕ} (h : offset + size ≤ extent region) :
    Keeps (fun _ ↦ ()) (Inside extent) (note (.touch region offset size)) :=
  Keeps.bind (keeps_perform h) fun _ ↦ keeps_pure ()

theorem inside_lwip (request : LwipCall) : Keeps (fun _ ↦ ()) (Inside extent) (lwip request) :=
  Keeps.bind (keeps_perform trivial) fun _ ↦ Keeps.bind (keeps_store fun _ ↦ rfl) fun _ ↦
    keeps_pure _

theorem inside_setErrno (error : ℤ) : Keeps (fun _ ↦ ()) (Inside extent) (setErrno error) :=
  keeps_store fun _ ↦ rfl

/-- The results cleared at the start. -/
theorem inside_clearResults {count : ℕ} (h : 4 * count ≤ extent .results) :
    Keeps (fun _ ↦ ()) (Inside extent) (clearResults count) := by
  refine Keeps.each fun i hi ↦ inside_note ?_
  have hlt := List.mem_range.mp hi
  omega

theorem inside_deadlineAfter (ticks : Option ℤ) :
    Keeps (fun _ ↦ ()) (Inside extent) (deadlineAfter ticks) := by
  cases ticks with
  | none => trivial
  | some ticks => exact Keeps.bind (keeps_perform trivial) fun _ ↦ keeps_pure _

theorem inside_waitReadable (lwfd deadline : ℤ) :
    Keeps (fun _ ↦ ()) (Inside extent) (waitReadable lwfd deadline) := by
  refine Keeps.bind (keeps_perform trivial) fun now ↦ Keeps.ite (keeps_pure _) ?_
  exact Keeps.bind (inside_lwip _) fun ready ↦ keeps_pure _

end Touches

section Receive

variable {b : RecvfromMultiBuffers} {datagramLen count : ℕ}

/-- Every access of the receive loop, from entry `i` on. -/
theorem inside_recvLoop (lwfd : ℤ) (flags : BitVec 32) (deadline : Option ℤ)
    (hfits : b.Fits datagramLen count) (left i : ℕ) (results : List ℤ) (froms : List Sockaddr)
    (data : List UInt8) (hcount : i + left = count) :
    Keeps (fun _ ↦ ()) (Inside b.extent)
      (recvLoop lwfd flags datagramLen deadline left i results froms data) := by
  induction left generalizing i results froms data with
  | zero => trivial
  | succ left ih =>
    obtain ⟨hbuffer, hfroms, hresults⟩ := hfits
    have hslot : datagramLen * i + datagramLen ≤ datagramLen * count := by
      rw [← Nat.mul_succ]
      exact Nat.mul_le_mul_left _ (by omega)
    -- The offset is computed in 32 bits, which hold the whole buffer.
    have hoffset : (UInt32.ofNat i * UInt32.ofNat datagramLen).toNat = datagramLen * i := by
      have hsmall : datagramLen * i < UInt32.size :=
        Nat.lt_of_le_of_lt (by omega) b.bufferlen.toNat_lt
      rw [← UInt32.ofNat_mul, Nat.mul_comm i, UInt32.toNat_ofNat_of_lt' hsmall]
    have hread : (UInt32.ofNat i * UInt32.ofNat datagramLen).toNat + datagramLen ≤
        b.extent .buffer := by
      rw [hoffset]
      exact Nat.le_trans hslot hbuffer
    have hresult : 4 * i + 4 ≤ b.extent .results := Nat.le_trans (by omega) hresults
    have hfrom : 16 * i + 16 ≤ b.extent .froms := Nat.le_trans (by omega) hfroms
    cases deadline
    case' none => refine Keeps.bind (keeps_pure 1) fun ready ↦ ?_
    case' some deadline => refine Keeps.bind (inside_waitReadable lwfd deadline) fun ready ↦ ?_
    all_goals
      refine Keeps.ite ?_ (Keeps.ite ?_ ?_)
      · exact Keeps.bind (inside_note hresult) fun _ ↦
          Keeps.bind (inside_setErrno 0) fun _ ↦ keeps_pure _
      · exact Keeps.bind (inside_note hresult) fun _ ↦ keeps_pure _
      · refine Keeps.bind (inside_note hread) fun _ ↦ Keeps.bind (inside_lwip _) fun rc ↦ ?_
        refine Keeps.bind (inside_note hresult) fun _ ↦ Keeps.ite (Keeps.ite ?_ ?_) ?_
        · exact Keeps.bind (inside_setErrno 0) fun _ ↦ keeps_pure _
        · exact keeps_pure _
        · exact Keeps.bind (inside_note hfrom) fun _ ↦ ih (i + 1) _ _ _ (by omega)

/-- An accepted request without wrap-around fits. -/
theorem fits_of_accepted {datagramLen count : ℤ} {timeout : Option Timeval}
    (haccepted : RecvAccepted b datagramLen count timeout)
    (hslots : datagramLen.toNat * count.toNat ≤ padLimit) (hfroms : 16 * count.toNat ≤ padLimit) :
    b.Fits datagramLen.toNat count.toNat := by
  have hextents : recvfromExtents b datagramLen.toNat count.toNat = true := by
    simpa using (not_or.mp haccepted.2.2).2
  obtain ⟨-, hbuffer, hfrom, hresult⟩ := of_decide_eq_true hextents
  refine ⟨le_of_nsnIpcPad_le hslots hbuffer, ?_, ?_⟩
  · rw [Nat.mul_comm]
    exact entries_le (by omega) hfrom
  · rw [Nat.mul_comm]
    exact entries_le (by omega) hresult

/-- The declared lengths of an accepted request are multiples of 64. -/
theorem wraps_of_fits {datagramLen count : ℤ} {timeout : Option Timeval}
    (haccepted : RecvAccepted b datagramLen count timeout)
    (hfits : b.Fits datagramLen.toNat count.toNat) :
    datagramLen.toNat * count.toNat ≤ padLimit ∧ 16 * count.toNat ≤ padLimit := by
  have haligned : b.aligned = true := by simpa using (not_or.mp haccepted.2.2).1
  obtain ⟨-, -, -, -, hbuffer, hfrom, -⟩ := of_decide_eq_true haligned
  exact ⟨Nat.le_trans hfits.1 (le_padLimit hbuffer), Nat.le_trans hfits.2.1 (le_padLimit hfrom)⟩

theorem recvSafe_iff_wp {b : Option RecvfromMultiBuffers} {datagramLen count : ℤ}
    {program : ShimM ShimReply} {x : Machine ShimState Unit} :
    RecvSafe b datagramLen count program x ↔
      wp recvReply
        (fun request _ ↦ Inside (b.elim (fun _ ↦ 0) RecvfromMultiBuffers.extent) request) program
        (fun _ _ ↦ True) x ∧
      ((∀ buffers ∈ b, ¬buffers.Fits datagramLen.toNat count.toNat) →
        wp recvReply (fun _ _ ↦ False) program
          (fun result y ↦ result.code = -1 ∧ y.mem.errno = einval) x) := by
  refine and_congr ?_ (imp_congr Iff.rfl ?_)
  · rw [wp_iff]
    exact ⟨fun h ↦ ⟨h, fun _ _ _ ↦ trivial⟩, fun h ↦ h.1⟩
  · rw [wp_iff]
    rfl

/-- `recvfrom_multi` stays inside the declared extents, and refuses what does not fit, exactly when
no size that it rounds up in an accepted request passes the last multiple of 64. -/
theorem hookRecvfromMulti_safe_iff {x : Machine ShimState Unit} {sockfd : ℤ}
    (howned : AxOwned sockfd x.mem) (flags : BitVec 32) (b : Option RecvfromMultiBuffers)
    (datagramLen count : ℤ) (timeout : Option Timeval) :
    RecvSafe b datagramLen count (hookRecvfromMulti sockfd flags b datagramLen count timeout) x ↔
      ∀ buffers ∈ b, RecvAccepted buffers datagramLen count timeout →
        datagramLen.toNat * count.toNat ≤ padLimit ∧ 16 * count.toNat ≤ padLimit := by
  unfold hookRecvfromMulti
  rw [recvSafe_iff_wp, wp_routed_owned howned, wp_routed_owned howned]
  cases b with
  | none => exact ⟨fun _ ↦ nofun, fun _ ↦ ⟨trivial, fun _ ↦ ⟨rfl, rfl⟩⟩⟩
  | some b =>
    simp only [Option.mem_some_iff, forall_eq', Option.elim_some]
    by_cases haccepted : RecvAccepted b datagramLen count timeout
    · have hcount : 0 < count.toNat := by
        have hnonneg := (not_or.mp (not_or.mp haccepted.1).2).1
        have hnonzero := haccepted.2.1
        omega
      rw [if_neg haccepted.1, if_neg haccepted.2.1, if_neg haccepted.2.2]
      refine ⟨fun ⟨_, hrefuses⟩ _ ↦ ?_, fun hlimits ↦ ?_⟩
      -- What does not fit is not refused: the first result is already cleared.
      · refine wraps_of_fits haccepted (not_not.mp fun hfits ↦ ?_)
        obtain ⟨left, hleft⟩ := Nat.exists_eq_succ_of_ne_zero hcount.ne'
        have hcalls := hrefuses hfits
        rw [clearResults, hleft, List.range_succ_eq_map] at hcalls
        exact hcalls.1
      · have hfits := fits_of_accepted haccepted (hlimits haccepted).1 (hlimits haccepted).2
        refine ⟨Keeps.wp_calls (show Keeps (fun _ ↦ ()) _ _ from ?_),
          fun hmisfit ↦ absurd hfits hmisfit⟩
        refine Keeps.bind (inside_clearResults hfits.2.2) fun _ ↦ ?_
        refine Keeps.bind (inside_deadlineAfter _) fun deadline ↦ ?_
        refine Keeps.bind (keeps_load _) fun lwfd ↦ ?_
        exact inside_recvLoop lwfd flags deadline hfits _ _ _ _ _ (Nat.zero_add _)
    · refine ⟨fun _ h ↦ absurd h haccepted, fun _ ↦ ?_⟩
      split
      · exact ⟨trivial, fun _ ↦ ⟨rfl, rfl⟩⟩
      · rename_i hvalid
        split
        · rename_i hzero
          refine ⟨trivial, fun hmisfit ↦ absurd ?_ hmisfit⟩
          rw [hzero]
          exact ⟨Nat.zero_le _, Nat.zero_le _, Nat.zero_le _⟩
        · rename_i hnonzero
          rw [if_pos (not_not.mp fun hchecks ↦ haccepted ⟨hvalid, hnonzero, hchecks⟩)]
          exact ⟨trivial, fun _ ↦ ⟨rfl, rfl⟩⟩

/-- Buffers whose declared lengths are all 64. -/
def smallRecvBuffers : RecvfromMultiBuffers where
  self := 64
  buffer := 128
  bufferlen := 64
  froms := 192
  fromslen := 64
  results := 256
  resultslen := 64

theorem hookRecvfromMulti_safe_small :
    RecvSafe (some smallRecvBuffers) 16 4
      (hookRecvfromMulti 3 0 (some smallRecvBuffers) 16 4 none) { mem := ownedShim, world := () } :=
  (hookRecvfromMulti_safe_iff ownedShim_owned 0 (some smallRecvBuffers) 16 4 none).mpr
    fun _ _ _ ↦ by decide

/-- Three datagrams of 1431655765 bytes pass the checks of a buffer of 64 bytes. -/
theorem hookRecvfromMulti_wraps :
    ¬RecvSafe (some smallRecvBuffers) 1431655765 3
      (hookRecvfromMulti 3 0 (some smallRecvBuffers) 1431655765 3 none)
      { mem := ownedShim, world := () } := by
  intro hsafe
  have hcalls := (recvSafe_iff_wp.mp hsafe).1
  -- The three results are cleared, and then lwIP gets the first slot.
  have hslot : 0 + 1431655765 ≤ 64 := (((hcalls.2 {} _ rfl).2 {} _ rfl).2 {} _ rfl).1
  exact absurd hslot (by decide)

end Receive

/-! ## Sending -/

namespace SendtoMultiExBuffers

variable (b : SendtoMultiExBuffers)

def extent : Region → ℕ
  | .buffer => b.bufferlen.toNat
  | .froms => 0
  | .results => b.resultslen.toNat
  | .datagramLens => b.datagramLensLen.toNat
  | .dests => b.destslen.toNat

/-- Where the slice of a datagram begins. -/
def offset : ℕ → ℕ
  | 0 => 0
  | i + 1 => offset i + (b.lens i).toNat

/-- The destination of a datagram, `none` for a family that lwIP does not have. -/
def dest (i : ℕ) : Option Sockaddr := sockaddrToLwip (some (b.destAt i)) 16

/-- The destinations before an entry are addresses of lwIP. -/
def reached : ℕ → Bool
  | 0 => true
  | i + 1 => reached i ∧ b.dest i ≠ none

end SendtoMultiExBuffers

section Send

variable {b : SendtoMultiExBuffers}

variable {pre : ShimCall → Machine ShimState (List ℤ) → Prop}

end Send

end Ax88179Aroma.Shim
