import Ax88179Aroma.Effect.BitSet
import Ax88179Aroma.Shim.Descriptors

/-!
# select over two stacks

`select` renumbers the public descriptors of the shim into lwIP descriptors and back.  Its result
is exact: every set that is present keeps the requested descriptors below `nfds` that their stack
reported in the last poll, and the value is their number.  It is negative only if the timeout is
invalid or a stack failed.  A call with descriptors of both stacks returns at the first poll in
which one of them reports something.
-/

namespace Ax88179Aroma.Shim

open Effect Program

/-! ## The two stacks -/

/-- The latest answers of nsysnet and of lwIP. -/
structure SelectWorld where
  native : ShimReply := {}
  lwip : ShimReply := {}

abbrev SelectMachine := Machine ShimState SelectWorld

/-- A reported set: present where one was given, and a subset of it. -/
abbrev ReportedOf (given out : Option (BitVec 32)) : Prop :=
  out.isSome = given.isSome ∧ out.getD 0 &&& ~~~ given.getD 0 = 0

/-- `real_select` reports a subset of the sets and its total size. -/
abbrev NativeReports (r w e : Option (BitVec 32)) (answer : ShimReply) : Prop :=
  0 ≤ answer.code →
    ReportedOf r answer.readfds ∧ ReportedOf w answer.writefds ∧ ReportedOf e answer.exceptfds ∧
      answer.code = bitCount (answer.readfds.getD 0) + bitCount (answer.writefds.getD 0) +
        bitCount (answer.exceptfds.getD 0)

/-- `lwip_select` reports a subset of the sets and its total size. -/
abbrev LwipReports (r w e : Option (List ℤ)) (answer : ShimReply) : Prop :=
  0 ≤ answer.code →
    answer.ready.1 ⊆ r.getD [] ∧ answer.ready.2.1 ⊆ w.getD [] ∧ answer.ready.2.2 ⊆ e.getD [] ∧
      answer.code = answer.ready.1.toFinset.card + answer.ready.2.1.toFinset.card +
        answer.ready.2.2.toFinset.card

def selectReplies : Replies ShimState SelectWorld ShimCall ShimReply
  | .native (.select _ r w e _), answer, x =>
    if NativeReports r w e answer then
      some { x with world := { x.world with native := answer } }
    else none
  | .lwip (.select _ r w e _), answer, x =>
    if LwipReports r w e answer then
      some { x with world := { x.world with lwip := answer } }
    else none
  | _, _, x => some x

/-- The set `out` holds exactly the descriptors of `given` below `nfds` that their stack reported:
lwIP in `ready` for those in `open_mask`, nsysnet in `reported` for the others. -/
def ExactSet (s : ShimState) (nfds : ℕ) (given : Option (BitVec 32)) (ready : List ℤ)
    (reported out : Option (BitVec 32)) : Prop :=
  out.isSome = given.isSome ∧ ∀ fd, (out.getD 0).getLsbD fd = true ↔
    fd < nfds ∧ (given.getD 0).getLsbD fd = true ∧
      if s.openMask.getLsbD fd = true then s.mappedFd fd ∈ ready
      else (reported.getD 0).getLsbD fd = true

/-- The result of a `select` that did not fail. -/
structure SelectExact (s : ShimState) (nfds : ℕ) (sets : SelectSets) (polled : SelectWorld)
    (result : ShimReply) : Prop where
  read : ExactSet s nfds sets.r polled.lwip.ready.1 polled.native.readfds result.readfds
  write : ExactSet s nfds sets.w polled.lwip.ready.2.1 polled.native.writefds result.writefds
  except : ExactSet s nfds sets.e polled.lwip.ready.2.2 polled.native.exceptfds result.exceptfds
  total : result.code = bitCount (result.readfds.getD 0) + bitCount (result.writefds.getD 0) +
    bitCount (result.exceptfds.getD 0)
  empty : result.code = 0 →
    result.readfds.getD 0 = 0 ∧ result.writefds.getD 0 = 0 ∧ result.exceptfds.getD 0 = 0

/-- A result is exact or negative, and negative only if a stack failed. -/
structure SelectAnswer (s : ShimState) (nfds : ℕ) (sets : SelectSets) (polled : SelectWorld)
    (result : ShimReply) : Prop where
  reported : 0 ≤ result.code → SelectExact s nfds sets polled result
  failed : result.code < 0 → polled.native.code < 0 ∨ polled.lwip.code < 0

/-! ## Masks and lists -/

theorem getLsbD_lowBits {nfds : ℕ} (hnfds : nfds ≤ 32) (i : ℕ) :
    (lowBits nfds).getLsbD i = true ↔ i < nfds := by
  unfold lowBits
  split
  · rename_i hall
    rw [BitVec.getLsbD_allOnes, decide_eq_true_iff, hall]
  · have hpos : 0 < 2 ^ nfds := Nat.two_pow_pos nfds
    have hlt : 2 ^ nfds < 2 ^ 32 := Nat.pow_lt_pow_right (by decide) (by omega)
    have hbit : (bit nfds).toNat = 2 ^ nfds := by
      rw [bit, BitVec.toNat_shiftLeft, show (1#32).toNat = 1 from rfl, Nat.shiftLeft_eq,
        Nat.one_mul, Nat.mod_eq_of_lt hlt]
    have hone : (1 : BitVec 32) ≤ bit nfds := by
      rw [BitVec.le_def, hbit]
      exact hpos
    rw [BitVec.getLsbD, BitVec.toNat_sub_of_le hone, hbit, show (1 : BitVec 32).toNat = 1 from rfl,
      Nat.testBit_two_pow_sub_one, decide_eq_true_iff]

theorem getLsbD_selectWant {nfds : ℤ} {r w e : Option (BitVec 32)} (hnfds : nfds ≤ 32) (i : ℕ) :
    (selectWant nfds r w e).getLsbD i = true ↔ i < nfds.toNat ∧
      ((r.getD 0).getLsbD i = true ∨ (w.getD 0).getLsbD i = true ∨
        (e.getD 0).getLsbD i = true) := by
  rw [selectWant, BitVec.getLsbD_and, Bool.and_eq_true, getLsbD_lowBits (by omega), BitVec.getLsbD_or,
    BitVec.getLsbD_or, Bool.or_eq_true, Bool.or_eq_true, or_assoc]
  exact and_comm

/-- The descriptors that `lwip_select_bits` loops over, with their lwIP descriptors. -/
def mappedPairs (s : ShimState) (nfds : ℕ) (want : BitVec 32) : List (ℕ × ℤ) :=
  ((List.range nfds).filter fun fd ↦ want.getLsbD fd).map fun fd ↦ (fd, s.mappedFd fd)

section Pairs

variable {s : ShimState} {nfds : ℕ} {want bits : BitVec 32} {fd : ℕ} {lwfd : ℤ} {ready : List ℤ}

theorem mem_mappedPairs :
    (fd, lwfd) ∈ mappedPairs s nfds want ↔
      fd < nfds ∧ want.getLsbD fd = true ∧ s.mappedFd fd = lwfd := by
  simp only [mappedPairs, List.mem_map, List.mem_filter, List.mem_range, Prod.mk.injEq]
  constructor
  · rintro ⟨other, ⟨hlt, hwant⟩, rfl, hmapped⟩
    exact ⟨hlt, hwant, hmapped⟩
  · rintro ⟨hlt, hwant, hmapped⟩
    exact ⟨fd, ⟨hlt, hwant⟩, rfl, hmapped⟩

theorem mem_fdSet :
    lwfd ∈ fdSet (mappedPairs s nfds want) bits ↔
      ∃ fd, fd < nfds ∧ want.getLsbD fd = true ∧ bits.getLsbD fd = true ∧
        s.mappedFd fd = lwfd := by
  simp only [fdSet, List.mem_map, List.mem_filter]
  constructor
  · rintro ⟨⟨fd, other⟩, ⟨hpair, hbits⟩, rfl⟩
    obtain ⟨hlt, hwant, hmapped⟩ := mem_mappedPairs.mp hpair
    exact ⟨fd, hlt, hwant, hbits, hmapped⟩
  · rintro ⟨fd, hlt, hwant, hbits, hmapped⟩
    exact ⟨(fd, lwfd), ⟨mem_mappedPairs.mpr ⟨hlt, hwant, hmapped⟩, hbits⟩, rfl⟩

theorem getLsbD_fdIsSet {pairs : List (ℕ × ℤ)} (hpairs : ∀ pair ∈ pairs, pair.1 < 32) :
    (fdIsSet pairs ready).getLsbD fd = true ↔ ∃ lwfd ∈ ready, (fd, lwfd) ∈ pairs := by
  -- the accumulator of the loop keeps the bits found so far
  have hfold : ∀ acc : BitVec 32, (pairs.foldl (fun bits pair ↦
      if pair.2 ∈ ready then bits ||| bit pair.1 else bits) acc).getLsbD fd = true ↔
      acc.getLsbD fd = true ∨ ∃ lwfd ∈ ready, (fd, lwfd) ∈ pairs := by
    induction pairs with
    | nil => simp
    | cons pair rest ih =>
      intro acc
      rw [List.foldl_cons, ih fun other hother ↦ hpairs other (List.mem_cons_of_mem pair hother)]
      have hlt := hpairs pair List.mem_cons_self
      constructor
      · rintro (hacc | ⟨lwfd, hready, hmem⟩)
        · split at hacc
          · rename_i hfound
            rcases (getLsbD_or_bit hlt).mp hacc with rfl | hold
            · exact .inr ⟨pair.2, hfound, List.mem_cons_self⟩
            · exact .inl hold
          · exact .inl hacc
        · exact .inr ⟨lwfd, hready, List.mem_cons_of_mem pair hmem⟩
      · rintro (hacc | ⟨lwfd, hready, hmem⟩)
        · refine .inl ?_
          split
          · exact (getLsbD_or_bit hlt).mpr (.inr hacc)
          · exact hacc
        · rcases List.mem_cons.mp hmem with rfl | hrest
          · refine .inl ?_
            rw [if_pos hready]
            exact (getLsbD_or_bit hlt).mpr (.inl rfl)
          · exact .inr ⟨lwfd, hready, hrest⟩
  rw [fdIsSet, hfold]
  simp

/-- The bits that `lwip_select_bits` sets. -/
theorem getLsbD_fdIsSet_mapped (hnfds : nfds ≤ 32) :
    (fdIsSet (mappedPairs s nfds want) ready).getLsbD fd = true ↔
      fd < nfds ∧ want.getLsbD fd = true ∧ s.mappedFd fd ∈ ready := by
  have hpairs : ∀ pair ∈ mappedPairs s nfds want, pair.1 < 32 := by
    rintro ⟨fd, lwfd⟩ hpair
    exact (mem_mappedPairs.mp hpair).1.trans_le hnfds
  rw [getLsbD_fdIsSet hpairs]
  constructor
  · rintro ⟨lwfd, hready, hpair⟩
    obtain ⟨hlt, hwant, rfl⟩ := mem_mappedPairs.mp hpair
    exact ⟨hlt, hwant, hready⟩
  · rintro ⟨hlt, hwant, hready⟩
    exact ⟨_, hready, mem_mappedPairs.mpr ⟨hlt, hwant, rfl⟩⟩

/-- With an injective mapping, translating back finds each reported descriptor once, and only
descriptors that were asked for. -/
theorem fdIsSet_exact (hnfds : nfds ≤ 32)
    (hinj : ∀ i j, want.getLsbD i = true → want.getLsbD j = true →
      s.mappedFd i = s.mappedFd j → i = j)
    (hready : ready ⊆ fdSet (mappedPairs s nfds want) bits) :
    bitCount (fdIsSet (mappedPairs s nfds want) ready) = ready.toFinset.card ∧
      ∀ fd, (fdIsSet (mappedPairs s nfds want) ready).getLsbD fd = true → bits.getLsbD fd = true := by
  have hbits : ∀ fd, (fdIsSet (mappedPairs s nfds want) ready).getLsbD fd = true →
      bits.getLsbD fd = true := by
    intro fd hfd
    obtain ⟨hlt, hwant, hfound⟩ := (getLsbD_fdIsSet_mapped hnfds).mp hfd
    obtain ⟨other, -, hwant', hbit, hmapped⟩ := mem_fdSet.mp (hready hfound)
    rw [hinj fd other hwant hwant' hmapped.symm]
    exact hbit
  refine ⟨?_, hbits⟩
  have himage : (members (fdIsSet (mappedPairs s nfds want) ready)).image s.mappedFd =
      ready.toFinset := by
    ext lwfd
    simp only [Finset.mem_image, mem_members, List.mem_toFinset]
    constructor
    · rintro ⟨fd, hfd, rfl⟩
      exact ((getLsbD_fdIsSet_mapped hnfds).mp hfd).2.2
    · intro hfound
      obtain ⟨fd, hlt, hwant, -, rfl⟩ := mem_fdSet.mp (hready hfound)
      exact ⟨fd, (getLsbD_fdIsSet_mapped hnfds).mpr ⟨hlt, hwant, hfound⟩, rfl⟩
  rw [bitCount, ← himage, Finset.card_image_of_injOn]
  intro i hi j hj hsame
  rw [Finset.mem_coe, mem_members] at hi hj
  exact hinj i j ((getLsbD_fdIsSet_mapped hnfds).mp hi).2.1
    ((getLsbD_fdIsSet_mapped hnfds).mp hj).2.1 hsame

end Pairs

/-! ## One poll -/

section Poll

variable {s : ShimState} {x : SelectMachine} {nfds : ℕ} {want : BitVec 32} {sets : SelectSets}

abbrev selectWp (program : ShimM α) (post : α → SelectMachine → Prop) (x : SelectMachine) : Prop :=
  wp selectReplies (fun _ _ ↦ True) program post x

theorem wp_loadMapped {W : Type} {reply : Replies ShimState W ShimCall ShimReply}
    {pre : ShimCall → Machine ShimState W → Prop} (fds : List ℕ)
    (post : List (ℕ × ℤ) → Machine ShimState W → Prop) (x : Machine ShimState W) :
    wp reply pre (loadMapped fds) post x ↔
      post (fds.map fun fd ↦ (fd, x.mem.mappedFd fd)) x := by
  induction fds generalizing post with
  | nil => rfl
  | cons fd rest ih =>
    rw [loadMapped, wp_bind, stackFd, wp_load, wp_bind]
    exact ih _

/-- The tables that `select` reads. -/
def SameTables (s t : ShimState) : Prop := t.openMask = s.openMask ∧ t.mappedFd = s.mappedFd

/-- What `lwip_select_bits` leaves in one of its sets. -/
def axSet (s : ShimState) (nfds : ℕ) (want : BitVec 32) (given : Option (BitVec 32))
    (ready : List ℤ) : Option (BitVec 32) :=
  given.map fun _ ↦ fdIsSet (mappedPairs s nfds want) ready

theorem wp_lwipSelectBits (tv : Option Timeval) (hx : SameTables s x.mem) :
    selectWp (lwipSelectBits nfds want sets tv) (fun result y ↦ SameTables s y.mem ∧
      ∃ answer, y.world = { x.world with lwip := answer } ∧ result.1 = answer.code ∧
        LwipReports (sets.r.map (fdSet (mappedPairs s nfds want)))
          (sets.w.map (fdSet (mappedPairs s nfds want)))
          (sets.e.map (fdSet (mappedPairs s nfds want))) answer ∧
        (0 ≤ answer.code → result.2 = {
          r := axSet s nfds want sets.r answer.ready.1
          w := axSet s nfds want sets.w answer.ready.2.1
          e := axSet s nfds want sets.e answer.ready.2.2 })) x := by
  rw [selectWp, lwipSelectBits, wp_bind, wp_loadMapped]
  refine (wp_bind _ _ _ _).mpr ?_
  rw [lwip, wp_bind]
  refine ⟨trivial, fun answer y hreply ↦ ?_⟩
  simp only [selectReplies] at hreply
  split at hreply
  · rename_i hreports
    cases hreply
    have hpairs : (((List.range nfds).filter fun fd ↦ want.getLsbD fd).map fun fd ↦
        (fd, x.mem.mappedFd fd)) = mappedPairs s nfds want := by
      rw [mappedPairs, hx.2]
    rw [hpairs] at hreports
    refine (wp_bind _ _ _ _).mpr ?_
    rw [setErrno, wp_store, wp_pure, wp_ite]
    split
    · rename_i hneg
      exact ⟨hx, answer, rfl, rfl, hreports, fun hpos ↦ absurd hneg (Int.not_lt.mpr hpos)⟩
    · rw [wp_bind, wp_loadMapped]
      refine ⟨hx, answer, rfl, rfl, hreports, fun _ ↦ ?_⟩
      rw [axSet, axSet, axSet, ← hpairs]
  · cases hreply

end Poll

/-! ## One set -/

section Sets

variable {s : ShimState} {nfds : ℕ} {want nat : BitVec 32} {given reported : Option (BitVec 32)}
  {ready : List ℤ} {fd : ℕ}

/-- `mapped_fd` is injective on the descriptors in `want`. -/
def InjectiveOn (s : ShimState) (want : BitVec 32) : Prop :=
  ∀ i j, want.getLsbD i = true → want.getLsbD j = true → s.mappedFd i = s.mappedFd j → i = j

theorem getLsbD_axSet (hnfds : nfds ≤ 32) (hinj : InjectiveOn s want)
    (hready : ready ⊆ (given.map (fdSet (mappedPairs s nfds want))).getD []) :
    ((axSet s nfds want given ready).getD 0).getLsbD fd = true ↔
      fd < nfds ∧ want.getLsbD fd = true ∧ (given.getD 0).getLsbD fd = true ∧
        s.mappedFd fd ∈ ready := by
  cases given with
  | none =>
    have hnone : ready = [] := List.subset_nil.mp hready
    simp [axSet, hnone]
  | some bits =>
    have hbits := (fdIsSet_exact hnfds hinj hready).2 fd
    change (fdIsSet (mappedPairs s nfds want) ready).getLsbD fd = true ↔ _
    constructor
    · intro hfd
      obtain ⟨hlt, hwant, hfound⟩ := (getLsbD_fdIsSet_mapped hnfds).mp hfd
      exact ⟨hlt, hwant, hbits hfd, hfound⟩
    · rintro ⟨hlt, hwant, -, hfound⟩
      exact (getLsbD_fdIsSet_mapped hnfds).mpr ⟨hlt, hwant, hfound⟩

theorem bitCount_axSet (hnfds : nfds ≤ 32) (hinj : InjectiveOn s want)
    (hready : ready ⊆ (given.map (fdSet (mappedPairs s nfds want))).getD []) :
    bitCount ((axSet s nfds want given ready).getD 0) = ready.toFinset.card := by
  cases given with
  | none =>
    rw [List.subset_nil.mp hready]
    exact bitCount_zero
  | some bits => exact (fdIsSet_exact hnfds hinj hready).1

/-- A reported set is a subset of the given one. -/
theorem getLsbD_of_reported (h : ReportedOf given reported)
    (hfd : (reported.getD 0).getLsbD fd = true) : (given.getD 0).getLsbD fd = true := by
  have hzero := congrArg (fun bits ↦ bits.getLsbD fd) h.2
  have hlt := lt_of_getLsbD hfd
  by_contra hnot
  rw [Bool.not_eq_true] at hnot
  simp only [BitVec.getLsbD_and, BitVec.getLsbD_not, hfd, hnot, hlt, decide_true, Bool.not_false,
    Bool.and_true] at hzero
  exact absurd hzero (by rw [show (0 : BitVec 32).getLsbD fd = false from BitVec.getLsbD_zero]; decide)

/-- A set all of whose requested descriptors belong to lwIP. -/
theorem axSet_exact (hnfds : nfds ≤ 32) (hinj : InjectiveOn s want)
    (hopen : ∀ fd, want.getLsbD fd = true → s.openMask.getLsbD fd = true)
    (hwant : ∀ fd, fd < nfds → (given.getD 0).getLsbD fd = true → want.getLsbD fd = true)
    (hready : ready ⊆ (given.map (fdSet (mappedPairs s nfds want))).getD []) :
    ExactSet s nfds given ready reported (axSet s nfds want given ready) := by
  refine ⟨Option.isSome_map, fun fd ↦ ?_⟩
  rw [getLsbD_axSet hnfds hinj hready]
  constructor
  · rintro ⟨hlt, hin, hbits, hfound⟩
    rw [if_pos (hopen fd hin)]
    exact ⟨hlt, hbits, hfound⟩
  · rintro ⟨hlt, hbits, hfound⟩
    have hin := hwant fd hlt hbits
    rw [if_pos (hopen fd hin)] at hfound
    exact ⟨hlt, hin, hbits, hfound⟩

/-- The two halves of one set of a mixed call; `nat` are the requested native descriptors. -/
structure Halves (s : ShimState) (nfds : ℕ) (want : BitVec 32) (given reported : Option (BitVec 32))
    (ready : List ℤ) : Prop where
  wanted : ∀ fd, fd < nfds → (given.getD 0).getLsbD fd = true → want.getLsbD fd = true
  below : ∀ fd, want.getLsbD fd = true → fd < nfds
  native : ReportedOf (given.map (· &&& (want &&& ~~~ s.openMask))) reported
  lwip : ready ⊆ ((given.map (· &&& ~~~ (want &&& ~~~ s.openMask))).map
    (fdSet (mappedPairs s nfds (want &&& ~~~ (want &&& ~~~ s.openMask))))).getD []

theorem getLsbD_native_half (h : want.getLsbD fd = true) :
    (want &&& ~~~ s.openMask).getLsbD fd = true ↔ ¬ s.openMask.getLsbD fd = true := by
  have hlt := lt_of_getLsbD h
  simp [h, hlt]

theorem getLsbD_lwip_half :
    (want &&& ~~~ (want &&& ~~~ s.openMask)).getLsbD fd = true ↔
      want.getLsbD fd = true ∧ s.openMask.getLsbD fd = true := by
  by_cases h : want.getLsbD fd = true
  · have hlt := lt_of_getLsbD h
    simp [h, hlt]
  · simp [h]

theorem getD_map_and (given : Option (BitVec 32)) (mask : BitVec 32) :
    (given.map (· &&& mask)).getD 0 = given.getD 0 &&& mask := by
  cases given with
  | none => simp
  | some bits => rfl

/-- Where the bits of the two halves are. -/
theorem Halves.bits (h : Halves s nfds want given reported ready) (hnfds : nfds ≤ 32)
    (hinj : InjectiveOn s s.openMask) :
    (∀ fd, (reported.getD 0).getLsbD fd = true → fd < nfds ∧ (given.getD 0).getLsbD fd = true ∧
      ¬ s.openMask.getLsbD fd = true) ∧
    ∀ fd, ((axSet s nfds (want &&& ~~~ (want &&& ~~~ s.openMask))
        (given.map (· &&& ~~~ (want &&& ~~~ s.openMask))) ready).getD 0).getLsbD fd = true ↔
      fd < nfds ∧ (given.getD 0).getLsbD fd = true ∧ s.openMask.getLsbD fd = true ∧
        s.mappedFd fd ∈ ready := by
  have hinj' : InjectiveOn s (want &&& ~~~ (want &&& ~~~ s.openMask)) := fun i j hi hj hsame ↦
    hinj i j (getLsbD_lwip_half.mp hi).2 (getLsbD_lwip_half.mp hj).2 hsame
  refine ⟨fun fd hfd ↦ ?_, fun fd ↦ ?_⟩
  · have hgiven := getLsbD_of_reported h.native hfd
    rw [getD_map_and, BitVec.getLsbD_and, Bool.and_eq_true] at hgiven
    have hwant : want.getLsbD fd = true := by
      have hnat := hgiven.2
      rw [BitVec.getLsbD_and, Bool.and_eq_true] at hnat
      exact hnat.1
    exact ⟨h.below fd hwant, hgiven.1, (getLsbD_native_half hwant).mp hgiven.2⟩
  · rw [getLsbD_axSet hnfds hinj' h.lwip, getLsbD_lwip_half, getD_map_and, BitVec.getLsbD_and,
      Bool.and_eq_true]
    constructor
    · rintro ⟨hlt, ⟨hwant, hopen⟩, ⟨hgiven, -⟩, hfound⟩
      exact ⟨hlt, hgiven, hopen, hfound⟩
    · rintro ⟨hlt, hgiven, hopen, hfound⟩
      have hwant := h.wanted fd hlt hgiven
      refine ⟨hlt, ⟨hwant, hopen⟩, ⟨hgiven, ?_⟩, hfound⟩
      have hnat : ¬ (want &&& ~~~ s.openMask).getLsbD fd = true := fun hnat ↦
        (getLsbD_native_half hwant).mp hnat hopen
      simp only [BitVec.getLsbD_not, lt_of_getLsbD hopen, decide_true, Bool.true_and,
        Bool.not_eq_true']
      exact Bool.eq_false_iff.mpr hnat

/-- A merged set is exact and counts both halves. -/
theorem Halves.merge (h : Halves s nfds want given reported ready) (hnfds : nfds ≤ 32)
    (hinj : InjectiveOn s s.openMask) {nativeAny axAny : Bool}
    (hnative : nativeAny = false → reported.getD 0 = 0) (hax : axAny = false → ready = []) :
    ExactSet s nfds given ready reported (mergeSet given reported
        (axSet s nfds (want &&& ~~~ (want &&& ~~~ s.openMask))
          (given.map (· &&& ~~~ (want &&& ~~~ s.openMask))) ready) nativeAny axAny) ∧
      bitCount ((mergeSet given reported (axSet s nfds (want &&& ~~~ (want &&& ~~~ s.openMask))
          (given.map (· &&& ~~~ (want &&& ~~~ s.openMask))) ready) nativeAny axAny).getD 0) =
        bitCount (reported.getD 0) + ready.toFinset.card := by
  obtain ⟨hreported, haxbits⟩ := h.bits hnfds hinj
  have hinj' : InjectiveOn s (want &&& ~~~ (want &&& ~~~ s.openMask)) := fun i j hi hj hsame ↦
    hinj i j (getLsbD_lwip_half.mp hi).2 (getLsbD_lwip_half.mp hj).2 hsame
  have hcount := bitCount_axSet hnfds hinj' h.lwip
  set ax := axSet s nfds (want &&& ~~~ (want &&& ~~~ s.openMask))
    (given.map (· &&& ~~~ (want &&& ~~~ s.openMask))) ready with haxdef
  have hleft : (if nativeAny then reported.getD 0 else 0) = reported.getD 0 := by
    cases nativeAny with
    | false => exact (hnative rfl).symm
    | true => rfl
  have hright : (if axAny then ax.getD 0 else 0) = ax.getD 0 := by
    cases axAny with
    | false =>
      have hzero : bitCount (ax.getD 0) = 0 := by
        rw [hcount, hax rfl]
        rfl
      exact (bitCount_eq_zero_iff.mp hzero).symm
    | true => rfl
  have hmerged : (mergeSet given reported ax nativeAny axAny).getD 0 =
      reported.getD 0 ||| ax.getD 0 := by
    cases given with
    | none =>
      have hnone : reported = none := by
        have hsome := h.native.1
        cases reported with
        | none => rfl
        | some bits => cases hsome
      rw [hnone, haxdef]
      simp [mergeSet, axSet]
    | some bits =>
      rw [mergeSet, hleft, hright]
      rfl
  refine ⟨⟨Option.isSome_map, fun fd ↦ ?_⟩, ?_⟩
  · rw [hmerged, BitVec.getLsbD_or, Bool.or_eq_true, haxbits]
    constructor
    · rintro (hfd | ⟨hlt, hgiven, hopen, hfound⟩)
      · obtain ⟨hlt, hgiven, hclosed⟩ := hreported fd hfd
        rw [if_neg hclosed]
        exact ⟨hlt, hgiven, hfd⟩
      · rw [if_pos hopen]
        exact ⟨hlt, hgiven, hfound⟩
    · rintro ⟨hlt, hgiven, hfound⟩
      by_cases hopen : s.openMask.getLsbD fd = true
      · rw [if_pos hopen] at hfound
        exact .inr ⟨hlt, hgiven, hopen, hfound⟩
      · rw [if_neg hopen] at hfound
        exact .inl hfound
  · rw [hmerged, bitCount_or, hcount]
    rw [Finset.disjoint_left]
    intro fd hfd hax
    exact (hreported fd (mem_members.mp hfd)).2.2 ((haxbits fd).mp (mem_members.mp hax)).2.2.1

end Sets

/-! ## The loop -/

section Loop

variable {s : ShimState} {x : SelectMachine} {nfds : ℤ} {want : BitVec 32} {sets : SelectSets}

/-- What `select` waits for is what its sets name below `nfds`. -/
structure Wants (nfds : ℕ) (want : BitVec 32) (sets : SelectSets) : Prop where
  below : ∀ fd, want.getLsbD fd = true → fd < nfds
  read : ∀ fd, fd < nfds → (sets.r.getD 0).getLsbD fd = true → want.getLsbD fd = true
  write : ∀ fd, fd < nfds → (sets.w.getD 0).getLsbD fd = true → want.getLsbD fd = true
  except : ∀ fd, fd < nfds → (sets.e.getD 0).getLsbD fd = true → want.getLsbD fd = true

theorem wants_selectWant {r w e : Option (BitVec 32)} (hnfds : nfds ≤ 32) :
    Wants nfds.toNat (selectWant nfds r w e) { r := r, w := w, e := e } where
  below _ hfd := ((getLsbD_selectWant hnfds _).mp hfd).1
  read _ hlt hfd := (getLsbD_selectWant hnfds _).mpr ⟨hlt, .inl hfd⟩
  write _ hlt hfd := (getLsbD_selectWant hnfds _).mpr ⟨hlt, .inr (.inl hfd)⟩
  except _ hlt hfd := (getLsbD_selectWant hnfds _).mpr ⟨hlt, .inr (.inr hfd)⟩

/-- Without a size every reported set is empty. -/
theorem NativeReports.empty {r w e : Option (BitVec 32)} {answer : ShimReply}
    (h : NativeReports r w e answer) (hzero : answer.code = 0) :
    answer.readfds.getD 0 = 0 ∧ answer.writefds.getD 0 = 0 ∧ answer.exceptfds.getD 0 = 0 := by
  have hcount := (h (by omega)).2.2.2
  exact ⟨bitCount_eq_zero_iff.mp (by omega), bitCount_eq_zero_iff.mp (by omega),
    bitCount_eq_zero_iff.mp (by omega)⟩

theorem LwipReports.empty {r w e : Option (List ℤ)} {answer : ShimReply}
    (h : LwipReports r w e answer) (hzero : answer.code = 0) :
    answer.ready.1 = [] ∧ answer.ready.2.1 = [] ∧ answer.ready.2.2 = [] := by
  have hcount := (h (by omega)).2.2.2
  exact ⟨List.toFinset_eq_empty_iff _ |>.mp (Finset.card_eq_zero.mp (by omega)),
    List.toFinset_eq_empty_iff _ |>.mp (Finset.card_eq_zero.mp (by omega)),
    List.toFinset_eq_empty_iff _ |>.mp (Finset.card_eq_zero.mp (by omega))⟩

/-- Nothing was reported for a set. -/
theorem exactSet_zero {given reported : Option (BitVec 32)} {ready : List ℤ} {n : ℕ}
    (hreported : reported.getD 0 = 0) (hready : ready = []) :
    ExactSet s n given ready reported (given.map (· &&& 0)) := by
  refine ⟨Option.isSome_map, fun fd ↦ ?_⟩
  rw [getD_map_and, hreported, hready]
  simp

theorem SelectExact.of_total {n : ℕ} {polled : SelectWorld} {result : ShimReply}
    (hread : ExactSet s n sets.r polled.lwip.ready.1 polled.native.readfds result.readfds)
    (hwrite : ExactSet s n sets.w polled.lwip.ready.2.1 polled.native.writefds result.writefds)
    (hexcept : ExactSet s n sets.e polled.lwip.ready.2.2 polled.native.exceptfds result.exceptfds)
    (htotal : result.code = bitCount (result.readfds.getD 0) + bitCount (result.writefds.getD 0) +
      bitCount (result.exceptfds.getD 0)) : SelectExact s n sets polled result :=
  ⟨hread, hwrite, hexcept, htotal, fun hzero ↦ ⟨bitCount_eq_zero_iff.mp (by omega),
    bitCount_eq_zero_iff.mp (by omega), bitCount_eq_zero_iff.mp (by omega)⟩⟩

/-- The two answers of a poll fit the halves of the sets that the stacks were given. -/
structure PolledFor (s : ShimState) (nfds : ℕ) (want : BitVec 32) (sets : SelectSets)
    (n l : ShimReply) : Prop where
  native : NativeReports (sets.restrict (want &&& ~~~ s.openMask)).r
    (sets.restrict (want &&& ~~~ s.openMask)).w (sets.restrict (want &&& ~~~ s.openMask)).e n
  lwip : LwipReports
    ((sets.restrict (~~~ (want &&& ~~~ s.openMask))).r.map
      (fdSet (mappedPairs s nfds (want &&& ~~~ (want &&& ~~~ s.openMask)))))
    ((sets.restrict (~~~ (want &&& ~~~ s.openMask))).w.map
      (fdSet (mappedPairs s nfds (want &&& ~~~ (want &&& ~~~ s.openMask)))))
    ((sets.restrict (~~~ (want &&& ~~~ s.openMask))).e.map
      (fdSet (mappedPairs s nfds (want &&& ~~~ (want &&& ~~~ s.openMask))))) l

/-- The result of a mixed poll that found something, or nothing in time. -/
theorem selectExact_merge (hnfds : nfds.toNat ≤ 32) (hinj : InjectiveOn s s.openMask)
    (hwants : Wants nfds.toNat want sets) {n l : ShimReply} (hnpos : 0 ≤ n.code)
    (hlpos : 0 ≤ l.code) (hpolled : PolledFor s nfds.toNat want sets n l) {ax : SelectSets}
    (hax : ax = {
      r := axSet s nfds.toNat (want &&& ~~~ (want &&& ~~~ s.openMask))
        (sets.restrict (~~~ (want &&& ~~~ s.openMask))).r l.ready.1
      w := axSet s nfds.toNat (want &&& ~~~ (want &&& ~~~ s.openMask))
        (sets.restrict (~~~ (want &&& ~~~ s.openMask))).w l.ready.2.1
      e := axSet s nfds.toNat (want &&& ~~~ (want &&& ~~~ s.openMask))
        (sets.restrict (~~~ (want &&& ~~~ s.openMask))).e l.ready.2.2 }) :
    SelectExact s nfds.toNat sets { native := n, lwip := l }
      (selectReply (max n.code 0 + max l.code 0) {
        r := mergeSet sets.r n.readfds ax.r (decide (n.code > 0)) (decide (l.code > 0))
        w := mergeSet sets.w n.writefds ax.w (decide (n.code > 0)) (decide (l.code > 0))
        e := mergeSet sets.e n.exceptfds ax.e (decide (n.code > 0)) (decide (l.code > 0)) }) := by
  obtain ⟨hn, hl⟩ := hpolled
  obtain ⟨hr, hw, he, hncount⟩ := hn hnpos
  obtain ⟨hlr, hlw, hle, hlcount⟩ := hl hlpos
  have hnone : decide (n.code > 0) = false → n.code = 0 := fun h ↦ by
    have := of_decide_eq_false h
    omega
  have hlone : decide (l.code > 0) = false → l.code = 0 := fun h ↦ by
    have := of_decide_eq_false h
    omega
  have hread := Halves.merge ⟨hwants.read, hwants.below, hr, hlr⟩ hnfds hinj
    (fun h ↦ (hn.empty (hnone h)).1) (fun h ↦ (hl.empty (hlone h)).1)
  have hwrite := Halves.merge ⟨hwants.write, hwants.below, hw, hlw⟩ hnfds hinj
    (fun h ↦ (hn.empty (hnone h)).2.1) (fun h ↦ (hl.empty (hlone h)).2.1)
  have hexcept := Halves.merge ⟨hwants.except, hwants.below, he, hle⟩ hnfds hinj
    (fun h ↦ (hn.empty (hnone h)).2.2) (fun h ↦ (hl.empty (hlone h)).2.2)
  subst hax
  refine .of_total hread.1 hwrite.1 hexcept.1 ?_
  have hr := hread.2
  have hw := hwrite.2
  have he := hexcept.2
  simp only [selectReply, SelectSets.restrict] at hr hw he ⊢
  omega

/-- The result of a call whose last poll found nothing. -/
theorem selectExact_quiet {n l : ShimReply} (hpolled : PolledFor s nfds.toNat want sets n l)
    (hn : n.code = 0) (hl : l.code = 0) :
    SelectExact s nfds.toNat sets { native := n, lwip := l }
      (selectReply 0 (sets.restrict 0)) := by
  obtain ⟨hnr, hnw, hne⟩ := hpolled.native.empty hn
  obtain ⟨hlr, hlw, hle⟩ := hpolled.lwip.empty hl
  refine .of_total (exactSet_zero hnr hlr) (exactSet_zero hnw hlw) (exactSet_zero hne hle) ?_
  simp only [selectReply, SelectSets.restrict, getD_map_and]
  simp

/-- The result of a poll of lwIP alone. -/
theorem selectExact_pure (hnfds : nfds.toNat ≤ 32) (hinj : InjectiveOn s s.openMask)
    (hwants : Wants nfds.toNat want sets) (hpure : want &&& ~~~ s.openMask = 0) {n l : ShimReply}
    (hlpos : 0 ≤ l.code)
    (hl : LwipReports (sets.r.map (fdSet (mappedPairs s nfds.toNat want)))
      (sets.w.map (fdSet (mappedPairs s nfds.toNat want)))
      (sets.e.map (fdSet (mappedPairs s nfds.toNat want))) l) :
    SelectExact s nfds.toNat sets { native := n, lwip := l } (selectReply l.code {
      r := axSet s nfds.toNat want sets.r l.ready.1
      w := axSet s nfds.toNat want sets.w l.ready.2.1
      e := axSet s nfds.toNat want sets.e l.ready.2.2 }) := by
  have hopen : ∀ fd, want.getLsbD fd = true → s.openMask.getLsbD fd = true := by
    intro fd hfd
    by_contra hclosed
    have hboth := (getLsbD_native_half (s := s) hfd).mpr hclosed
    rw [hpure] at hboth
    exact not_getLsbD_zero fd hboth
  have hinj' : InjectiveOn s want := fun i j hi hj hsame ↦
    hinj i j (hopen i hi) (hopen j hj) hsame
  obtain ⟨hlr, hlw, hle, hcount⟩ := hl hlpos
  refine .of_total (axSet_exact hnfds hinj' hopen hwants.read hlr)
    (axSet_exact hnfds hinj' hopen hwants.write hlw)
    (axSet_exact hnfds hinj' hopen hwants.except hle) ?_
  have hr := bitCount_axSet hnfds hinj' hlr
  have hw := bitCount_axSet hnfds hinj' hlw
  have he := bitCount_axSet hnfds hinj' hle
  simp only [selectReply]
  omega

theorem wp_selectMixed (hnfds : nfds.toNat ≤ 32) (hinj : InjectiveOn s s.openMask)
    (hwants : Wants nfds.toNat want sets) (deadline : Option ℤ) (fuel : ℕ)
    (hx : SameTables s x.mem) :
    selectWp (selectMixed nfds want (want &&& ~~~ s.openMask) sets deadline fuel)
      (fun result y ↦ SelectAnswer s nfds.toNat sets y.world result) x := by
  induction fuel generalizing x with
  | zero => trivial
  | succ fuel ih =>
    rw [selectWp, selectMixed]
    refine (wp_bind _ _ _ _).mpr ?_
    refine ⟨trivial, fun n y hreply ↦ ?_⟩
    simp only [selectReplies] at hreply
    split at hreply
    · rename_i hn
      cases hreply
      refine (wp_ite _ _ _ _ _).mpr ?_
      split
      · rename_i hnneg
        rw [wp_bind, setErrno, wp_store]
        exact ⟨fun hpos ↦ absurd hpos (by decide), fun _ ↦ .inl hnneg⟩
      · rename_i hnpos
        rw [wp_bind]
        refine wp_mono (wp_lwipSelectBits _ hx) fun ax z hpost ↦ ?_
        obtain ⟨hz, l, hworld, hcode, hl, hsets⟩ := hpost
        rw [wp_ite]
        split
        · rename_i hlneg
          rw [wp_pure, hworld]
          exact ⟨fun hpos ↦ absurd hpos (by decide), fun _ ↦ .inr (hcode ▸ hlneg)⟩
        · rename_i hlpos
          have hlpos : 0 ≤ l.code := by omega
          have hexact := selectExact_merge hnfds hinj hwants (Int.not_lt.mp hnpos) hlpos ⟨hn, hl⟩
            (hsets hlpos)
          rw [wp_ite]
          split
          · rw [wp_pure, hworld, hcode]
            refine ⟨fun _ ↦ hexact, fun hneg ↦ ?_⟩
            simp only [selectReply] at hneg
            omega
          · rename_i hquiet
            have hnzero : n.code = 0 := by omega
            have hlzero : l.code = 0 := by omega
            have hover : SelectExact s nfds.toNat sets z.world (selectReply 0 (sets.restrict 0)) := by
              rw [hworld]
              exact selectExact_quiet ⟨hn, hl⟩ hnzero hlzero
            have hrest : ∀ v : SelectMachine, SameTables s v.mem → selectWp (do
                ignore (os (.osSleepTicks 2))
                selectMixed nfds want (want &&& ~~~ s.openMask) sets deadline fuel)
                (fun result y ↦ SelectAnswer s nfds.toNat sets y.world result) v := by
              intro v hv
              rw [selectWp, wp_bind, ignore, wp_bind]
              refine ⟨trivial, fun answer v' hreply ↦ ?_⟩
              cases hreply
              exact ih hv
            cases deadline with
            | none => exact hrest z hz
            | some deadline =>
              simp only [wp_bind]
              refine ⟨trivial, fun now v hreply ↦ ?_⟩
              cases hreply
              refine (wp_ite _ _ _ _ _).mpr ?_
              split
              · exact ⟨fun _ ↦ hover, fun hneg ↦ absurd hneg (Int.lt_irrefl 0)⟩
              · exact hrest z hz
    · cases hreply

end Loop

/-! ## The first poll that finds something -/

section First

variable {s : ShimState} {x : Machine ShimState Unit} {nfds : ℤ} {want : BitVec 32}
  {sets : SelectSets} {deadline : Option ℤ}

/-- Any answer is possible. -/
def anyReply : Replies ShimState Unit ShimCall ShimReply := fun _ _ x ↦ some x

/-- The answers to one turn of the loop: the two polls, the clock and the sleep. -/
structure PollTurn where
  native : ShimReply
  lwip : ShimReply
  now : ShimReply
  sleep : ShimReply

namespace PollTurn

/-- Neither stack reports anything and the deadline has not passed. -/
def Quiet (deadline : Option ℤ) (turn : PollTurn) : Prop :=
  turn.native.code = 0 ∧ turn.lwip.code = 0 ∧ ∀ time ∈ deadline, turn.now.code < time

/-- The clock is read under a deadline only. -/
def answers (bounded : Bool) (turn : PollTurn) : List ShimReply :=
  turn.native :: turn.lwip :: (if bounded = true then [turn.now, turn.sleep] else [turn.sleep])

end PollTurn

theorem run_loadMapped (fds : List ℕ) (answers : List ShimReply) (x : Machine ShimState Unit) :
    run anyReply (loadMapped fds) answers x =
      some (fds.map fun fd ↦ (fd, x.mem.mappedFd fd), x, answers) := by
  induction fds with
  | nil => rfl
  | cons fd rest ih =>
    rw [loadMapped, run_bind]
    change run anyReply (loadMapped rest >>= fun pairs ↦
      pure ((fd, x.mem.mappedFd fd) :: pairs)) answers x = _
    rw [run_bind, ih]
    rfl

/-- One poll of lwIP takes one answer, and translates it. -/
theorem run_lwipSelectBits (hx : SameTables s x.mem) (n : ℕ) (want : BitVec 32) (sets : SelectSets)
    (tv : Option Timeval) (l : ShimReply) (rest : List ShimReply) :
    ∃ sets' y, run anyReply (lwipSelectBits n want sets tv) (l :: rest) x =
      some ((l.code, sets'), y, rest) ∧ SameTables s y.mem ∧
        (0 ≤ l.code → sets' = {
          r := axSet s n want sets.r l.ready.1
          w := axSet s n want sets.w l.ready.2.1
          e := axSet s n want sets.e l.ready.2.2 }) := by
  have hpairs : (((List.range n).filter fun fd ↦ want.getLsbD fd).map fun fd ↦
      (fd, x.mem.mappedFd fd)) = mappedPairs s n want := by
    rw [mappedPairs, hx.2]
  let y : Machine ShimState Unit := { x with mem := { x.mem with errno := l.errno } }
  rw [lwipSelectBits, run_bind, run_loadMapped, Option.bind_some]
  change ∃ sets' z, run anyReply (if l.code < 0 then pure (l.code, sets) else _) rest y = _ ∧ _
  split
  · rename_i hneg
    exact ⟨_, _, rfl, hx, fun hpos ↦ absurd hneg (Int.not_lt.mpr hpos)⟩
  · rw [run_bind, run_loadMapped]
    refine ⟨_, _, rfl, hx, fun _ ↦ ?_⟩
    rw [axSet, axSet, axSet, ← hpairs]

/-- The result of the poll that ends a call over both stacks. -/
structure PollResult (s : ShimState) (nfds : ℕ) (want : BitVec 32) (sets : SelectSets)
    (n l result : ShimReply) : Prop where
  failed : l.code < 0 → result.code = -1
  total : 0 ≤ l.code → result.code = n.code + l.code
  ready : 0 ≤ l.code → PolledFor s nfds want sets n l →
    SelectExact s nfds sets { native := n, lwip := l } result

theorem run_selectMixed (hnfds : nfds.toNat ≤ 32) (hinj : InjectiveOn s s.openMask)
    (hwants : Wants nfds.toNat want sets) {turns : List PollTurn} {n l : ShimReply}
    (rest : List ShimReply) (hturns : ∀ turn ∈ turns, turn.Quiet deadline) (hn : 0 ≤ n.code)
    (hready : 0 < n.code ∨ 0 < l.code) {fuel : ℕ} (hfuel : turns.length < fuel)
    (hx : SameTables s x.mem) :
    ∃ result y, run anyReply (selectMixed nfds want (want &&& ~~~ s.openMask) sets deadline fuel)
      (turns.flatMap (PollTurn.answers deadline.isSome) ++ n :: l :: rest) x =
        some (result, y, rest) ∧ PollResult s nfds.toNat want sets n l result := by
  induction turns generalizing fuel x with
  | nil =>
    cases fuel with
    | zero => exact absurd hfuel (by decide)
    | succ fuel =>
      rw [selectMixed]
      change ∃ result y, run anyReply (if n.code < 0 then _ else _) (l :: rest) x = _ ∧ _
      rw [if_neg (Int.not_lt.mpr hn), run_bind]
      obtain ⟨sets', y, hpoll, _, hsets⟩ := run_lwipSelectBits hx nfds.toNat
        (want &&& ~~~ (want &&& ~~~ s.openMask)) (sets.restrict (~~~ (want &&& ~~~ s.openMask)))
        (some { tvSec := 0, tvUsec := 0 }) l rest
      rw [hpoll, Option.bind_some]
      by_cases hneg : l.code < 0
      · rw [if_pos hneg]
        have hnot : ¬ 0 ≤ l.code := Int.not_le.mpr hneg
        exact ⟨_, _, rfl, fun _ ↦ rfl, fun hpos ↦ absurd hpos hnot, fun hpos ↦ absurd hpos hnot⟩
      · rw [if_neg hneg, if_pos hready]
        refine ⟨_, _, rfl, fun hlneg ↦ absurd hlneg hneg, fun hpos ↦ ?_, fun hpos hpolled ↦ ?_⟩
        · simp only [selectReply]
          omega
        · exact selectExact_merge hnfds hinj hwants hn hpos hpolled (hsets hpos)
  | cons turn turns ih =>
    cases fuel with
    | zero => exact absurd hfuel (Nat.not_lt_zero _)
    | succ fuel =>
      obtain ⟨hnative, hlwip, hnow⟩ := hturns turn List.mem_cons_self
      have hrest : ∀ y : Machine ShimState Unit, SameTables s y.mem → _ := fun y hy ↦ ih (x := y)
        (fun other hother ↦ hturns other (List.mem_cons_of_mem turn hother))
        (Nat.lt_of_succ_lt_succ hfuel) hy
      rw [selectMixed, List.flatMap_cons, PollTurn.answers]
      change ∃ result y, run anyReply (if turn.native.code < 0 then _ else _)
        (turn.lwip :: _) x = _ ∧ _
      rw [if_neg (by omega), run_bind]
      obtain ⟨sets', y, hpoll, hy, -⟩ := run_lwipSelectBits hx nfds.toNat
        (want &&& ~~~ (want &&& ~~~ s.openMask)) (sets.restrict (~~~ (want &&& ~~~ s.openMask)))
        (some { tvSec := 0, tvUsec := 0 }) turn.lwip _
      have hpos : ¬ turn.lwip.code < 0 := by omega
      have hquiet : ¬ (turn.native.code > 0 ∨ turn.lwip.code > 0) := by omega
      rw [hpoll, Option.bind_some, if_neg hpos, if_neg hquiet]
      cases deadline with
      | none => exact hrest y hy
      | some time =>
        have hearly : ¬ turn.now.code ≥ time := Int.not_le.mpr (hnow time rfl)
        change ∃ result z, run anyReply (if decide (turn.now.code ≥ time) = true then _ else _)
          (turn.sleep :: _) y = _ ∧ _
        rw [if_neg (by rw [decide_eq_false hearly]; exact Bool.false_ne_true)]
        exact hrest y hy

/-- The time at which a bounded `select` gives up, from the clock at its start. -/
def selectDeadline (timeout : Option Timeval) (start : ShimReply) : Option ℤ :=
  timeout.map fun tv ↦
    start.code + osMillisecondsToTicks (tv.tvSec.toNat * 1000 + tv.tvUsec.toNat / 1000)

/-- The clock is read first when there is a timeout. -/
def startAnswers (timeout : Option Timeval) (start : ShimReply) : List ShimReply :=
  if timeout.isSome = true then [start] else []

end First

section Hook

variable {s : ShimState} {nfds : ℤ} {r w e : Option (BitVec 32)} {timeout : Option Timeval}

theorem selectWant_ne (hours : selectWant nfds r w e &&& s.openMask ≠ 0) :
    selectWant nfds r w e &&& ~~~ s.openMask ≠ selectWant nfds r w e := by
  intro hsame
  refine hours ?_
  rw [← hsame]
  apply BitVec.eq_of_getLsbD_eq
  intro i _
  simp

theorem wp_hookSelect (hnfds : 0 ≤ nfds ∧ nfds ≤ 32) (hinj : InjectiveOn s s.openMask)
    (hftp : selectWant nfds r w e &&& s.ftpRestartMask = 0)
    (hours : selectWant nfds r w e &&& s.openMask ≠ 0) (fuel : ℕ) (world : SelectWorld) :
    selectWp (hookSelect nfds r w e timeout fuel) (fun result y ↦
      (selectInvalid nfds timeout = true ∧ result.code < 0) ∨
        SelectAnswer s nfds.toNat { r := r, w := w, e := e } y.world result)
      { mem := s, world := world } := by
  rw [selectWp, hookSelect, wp_ite]
  split
  · rename_i hinvalid
    rw [fail, wp_bind, setErrno, wp_store]
    exact .inl ⟨hinvalid, by decide⟩
  · rw [selectChecked, wp_bind, wp_load, if_neg (not_not.mpr hftp), selectRoute, wp_bind, wp_load,
      selectServe, if_neg (selectWant_ne hours), wp_bind, setErrno, wp_store, wp_ite]
    have hwants := wants_selectWant (r := r) (w := w) (e := e) hnfds.2
    split
    · rename_i hpure
      rw [wp_bind]
      refine wp_mono (wp_lwipSelectBits (s := s) _ ⟨rfl, rfl⟩)
        fun ax y hpost ↦ ?_
      obtain ⟨_, l, hworld, hcode, hl, hsets⟩ := hpost
      rw [wp_pure, hcode]
      split
      · rename_i hlpos
        rw [hsets hlpos, hworld]
        refine .inr ⟨fun _ ↦ selectExact_pure (by omega) hinj hwants hpure hlpos hl, ?_⟩
        exact fun hneg ↦ absurd hneg (Int.not_lt.mpr hlpos)
      · rename_i hneg
        rw [hworld]
        exact .inr ⟨fun hpos ↦ absurd hpos hneg, fun _ ↦ .inr (Int.not_le.mp hneg)⟩
    · rw [wp_bind]
      have hclock : selectWp (deadlineAfter (timeout.map fun tv ↦
          osMillisecondsToTicks (tv.tvSec.toNat * 1000 + tv.tvUsec.toNat / 1000)))
          (fun _ y ↦ SameTables s y.mem) { mem := { s with errno := 0 }, world := world } := by
        cases timeout with
        | none => exact ⟨rfl, rfl⟩
        | some tv =>
          refine ⟨trivial, fun answer z hreply ↦ ?_⟩
          cases hreply
          exact ⟨rfl, rfl⟩
      refine wp_mono hclock fun deadline y hy ↦ ?_
      exact wp_mono (wp_selectMixed (by omega) hinj hwants deadline fuel hy) fun _ _ ↦ .inr

/-- What a call that is served asks first. -/
theorem run_hookSelect (hftp : selectWant nfds r w e &&& s.ftpRestartMask = 0)
    (hours : selectWant nfds r w e &&& s.openMask ≠ 0)
    (hvalid : selectInvalid nfds timeout = false) (answers : List ShimReply) (fuel : ℕ) :
    run anyReply (hookSelect nfds r w e timeout fuel) answers { mem := s, world := () } =
      run anyReply (if selectWant nfds r w e &&& ~~~ s.openMask = 0 then do
          let ax ← lwipSelectBits nfds.toNat (selectWant nfds r w e) { r := r, w := w, e := e } timeout
          pure (if ax.1 ≥ 0 then selectReply ax.1 ax.2 else { code := ax.1 })
        else do
          let deadline ← deadlineAfter (timeout.map fun tv ↦
            osMillisecondsToTicks (tv.tvSec.toNat * 1000 + tv.tvUsec.toNat / 1000))
          selectMixed nfds (selectWant nfds r w e) (selectWant nfds r w e &&& ~~~ s.openMask)
            { r := r, w := w, e := e } deadline fuel)
        answers { mem := { s with errno := 0 }, world := () } := by
  rw [hookSelect, if_neg (Bool.eq_false_iff.mp hvalid)]
  change run anyReply (if selectWant nfds r w e &&& s.ftpRestartMask ≠ 0 then _
    else selectRoute nfds _ timeout fuel _) _ _ = _
  rw [if_neg (not_not.mpr hftp)]
  change run anyReply (selectServe nfds { r := r, w := w, e := e } timeout fuel
    (selectWant nfds r w e) (selectWant nfds r w e &&& ~~~ s.openMask)) _
    { mem := s, world := () } = _
  rw [selectServe, if_neg (selectWant_ne hours)]
  rfl

/-- A call over lwIP alone asks it once. -/
theorem run_selectPure (hnfds : 0 ≤ nfds ∧ nfds ≤ 32) (hinj : InjectiveOn s s.openMask)
    (hftp : selectWant nfds r w e &&& s.ftpRestartMask = 0)
    (hours : selectWant nfds r w e &&& s.openMask ≠ 0)
    (hpure : selectWant nfds r w e &&& ~~~ s.openMask = 0)
    (hvalid : selectInvalid nfds timeout = false) (l : ShimReply) (rest : List ShimReply)
    (fuel : ℕ) :
    ∃ result y, run anyReply (hookSelect nfds r w e timeout fuel) (l :: rest)
        { mem := s, world := () } = some (result, y, rest) ∧ result.code = l.code ∧
      (0 ≤ l.code →
        LwipReports (r.map (fdSet (mappedPairs s nfds.toNat (selectWant nfds r w e))))
          (w.map (fdSet (mappedPairs s nfds.toNat (selectWant nfds r w e))))
          (e.map (fdSet (mappedPairs s nfds.toNat (selectWant nfds r w e)))) l →
        SelectExact s nfds.toNat { r := r, w := w, e := e } { lwip := l } result) := by
  obtain ⟨sets', y, hpoll, _, hsets⟩ := run_lwipSelectBits
    (x := { mem := { s with errno := 0 }, world := () }) (s := s) ⟨rfl, rfl⟩ nfds.toNat
    (selectWant nfds r w e) { r := r, w := w, e := e } timeout l rest
  rw [run_hookSelect hftp hours hvalid, if_pos hpure, run_bind, hpoll, Option.bind_some]
  refine ⟨_, y, rfl, ?_, fun hpos hreports ↦ ?_⟩
  · split
    · rfl
    · rfl
  · rw [if_pos hpos, hsets hpos]
    exact selectExact_pure (by omega) hinj (wants_selectWant hnfds.2) hpure hpos hreports

/-- A call over both stacks ends with the first poll that reports something. -/
theorem run_selectBoth (hnfds : 0 ≤ nfds ∧ nfds ≤ 32) (hinj : InjectiveOn s s.openMask)
    (hftp : selectWant nfds r w e &&& s.ftpRestartMask = 0)
    (hours : selectWant nfds r w e &&& s.openMask ≠ 0)
    (hmixed : selectWant nfds r w e &&& ~~~ s.openMask ≠ 0)
    (hvalid : selectInvalid nfds timeout = false) {start n l : ShimReply} {turns : List PollTurn}
    (rest : List ShimReply) (hturns : ∀ turn ∈ turns, turn.Quiet (selectDeadline timeout start))
    (hn : 0 ≤ n.code) (hready : 0 < n.code ∨ 0 < l.code) {fuel : ℕ} (hfuel : turns.length < fuel) :
    ∃ result y, run anyReply (hookSelect nfds r w e timeout fuel)
        (startAnswers timeout start ++
          (turns.flatMap (PollTurn.answers timeout.isSome) ++ n :: l :: rest))
        { mem := s, world := () } = some (result, y, rest) ∧
      PollResult s nfds.toNat (selectWant nfds r w e) { r := r, w := w, e := e } n l result := by
  have hwants := wants_selectWant (r := r) (w := w) (e := e) hnfds.2
  rw [run_hookSelect hftp hours hvalid, if_neg hmixed]
  cases timeout with
  | none =>
    exact run_selectMixed (by omega) hinj hwants rest hturns hn hready hfuel ⟨rfl, rfl⟩
  | some tv =>
    exact run_selectMixed (by omega) hinj hwants rest hturns hn hready hfuel ⟨rfl, rfl⟩

/-- `select` over at least one descriptor of the shim.  A result that is not negative is exact, and
it is negative only for an invalid timeout or if a stack failed in the last poll.  A call over lwIP
alone asks it once.  A call over both stacks returns at the first poll in which one of them reports
something, with that poll's result: after any number of quiet turns, it asks for nothing more. -/
theorem hookSelect_exact (s : ShimState) (nfds : ℤ) (r w e : Option (BitVec 32))
    (timeout : Option Timeval) (hnfds : 0 ≤ nfds ∧ nfds ≤ 32)
    (hinj : ∀ i j, s.openMask.getLsbD i = true → s.openMask.getLsbD j = true →
      s.mappedFd i = s.mappedFd j → i = j)
    (hftp : selectWant nfds r w e &&& s.ftpRestartMask = 0)
    (hours : selectWant nfds r w e &&& s.openMask ≠ 0) :
    (∀ fuel world result y,
      Exec selectReplies (hookSelect nfds r w e timeout fuel) { mem := s, world := world } result y →
      (0 ≤ result.code → SelectExact s nfds.toNat { r := r, w := w, e := e } y.world result) ∧
      (result.code < 0 → selectInvalid nfds timeout = true ∨
        y.world.native.code < 0 ∨ y.world.lwip.code < 0)) ∧
    (selectWant nfds r w e &&& ~~~ s.openMask = 0 → selectInvalid nfds timeout = false →
      ∀ (l : ShimReply) (rest : List ShimReply) fuel,
        ∃ result y, run anyReply (hookSelect nfds r w e timeout fuel) (l :: rest)
            { mem := s, world := () } = some (result, y, rest) ∧ result.code = l.code ∧
          (0 ≤ l.code →
            LwipReports (r.map (fdSet (mappedPairs s nfds.toNat (selectWant nfds r w e))))
              (w.map (fdSet (mappedPairs s nfds.toNat (selectWant nfds r w e))))
              (e.map (fdSet (mappedPairs s nfds.toNat (selectWant nfds r w e)))) l →
            SelectExact s nfds.toNat { r := r, w := w, e := e } { lwip := l } result)) ∧
    (selectWant nfds r w e &&& ~~~ s.openMask ≠ 0 → selectInvalid nfds timeout = false →
      ∀ (start : ShimReply) (turns : List PollTurn) (n l : ShimReply) (rest : List ShimReply),
        (∀ turn ∈ turns, PollTurn.Quiet (selectDeadline timeout start) turn) →
        0 ≤ n.code → 0 < n.code ∨ 0 < l.code → ∀ fuel, turns.length < fuel →
        ∃ result y, run anyReply (hookSelect nfds r w e timeout fuel)
            (startAnswers timeout start ++
              (turns.flatMap (PollTurn.answers timeout.isSome) ++ n :: l :: rest))
            { mem := s, world := () } = some (result, y, rest) ∧
          PollResult s nfds.toNat (selectWant nfds r w e) { r := r, w := w, e := e } n l
            result) := by
  refine ⟨fun fuel world result y hexec ↦ ?_, ?_, ?_⟩
  · obtain ⟨hinvalid, hneg⟩ | hanswer :=
      hexec.post_of_wp (wp_hookSelect hnfds hinj hftp hours fuel world)
    · exact ⟨fun hpos ↦ absurd hneg (Int.not_lt.mpr hpos), fun _ ↦ .inl hinvalid⟩
    · exact ⟨hanswer.reported, fun hneg ↦ .inr (hanswer.failed hneg)⟩
  · intro hpure hvalid l rest fuel
    exact run_selectPure hnfds hinj hftp hours hpure hvalid l rest fuel
  · intro hmixed hvalid start turns n l rest hturns hn hready fuel hfuel
    exact run_selectBoth hnfds hinj hftp hours hmixed hvalid rest hturns hn hready hfuel

/-- A native socket 1, and the shim's socket 3 over the lwIP descriptor 16. -/
def twoStacks : ShimState :=
  { openMask := bit 3, mappedFd := Function.update (fun _ ↦ 0) 3 16, acceptingSockets := 1 }

/-- The second poll finds both sockets, and the call returns them. -/
theorem hookSelect_exact_twoStacks :
    (∀ fuel world result y,
      Exec selectReplies (hookSelect 4 (some (bit 1 ||| bit 3)) none none none fuel)
        { mem := twoStacks, world := world } result y → 0 ≤ result.code →
      SelectExact twoStacks 4 { r := some (bit 1 ||| bit 3), w := none, e := none } y.world
        result) ∧
    ∃ result y, run anyReply (hookSelect 4 (some (bit 1 ||| bit 3)) none none none 2)
        [{}, {}, {}, { code := 1, readfds := some (bit 1) }, { code := 1, ready := ([16], [], []) }]
        { mem := twoStacks, world := () } = some (result, y, []) ∧
      result.code = 2 ∧ result.readfds.isSome = true ∧
      ∀ fd, (result.readfds.getD 0).getLsbD fd = true ↔ fd = 1 ∨ fd = 3 := by
  have hthree : ∀ i, twoStacks.openMask.getLsbD i = true → i = 3 := by
    intro i hi
    rw [show twoStacks.openMask = bit 3 from rfl, getLsbD_bit, Bool.and_eq_true] at hi
    exact of_decide_eq_true hi.2
  obtain ⟨hsound, -, hboth⟩ :=
    hookSelect_exact twoStacks 4 (some (bit 1 ||| bit 3)) none none none (by decide)
      (fun i j hi hj _ ↦ (hthree i hi).trans (hthree j hj).symm) (by decide) (by decide)
  have hquiet : ∀ turn ∈ [PollTurn.mk {} {} {} {}], turn.Quiet (selectDeadline none {}) := by
    intro turn hturn
    rw [List.mem_singleton.mp hturn]
    exact ⟨rfl, rfl, fun time htime ↦ absurd htime (Option.not_mem_none time)⟩
  obtain ⟨result, y, hrun, hresult⟩ := hboth (by decide) (by decide) {} [⟨{}, {}, {}, {}⟩]
    { code := 1, readfds := some (bit 1) } { code := 1, ready := ([16], [], []) } [] hquiet
    (by decide) (.inl (by decide)) 2 (by decide)
  have hexact := hresult.ready (by decide) ⟨fun _ ↦ by decide, fun _ ↦ by decide⟩
  refine ⟨fun fuel world result y hexec ↦ (hsound fuel world result y hexec).1, result, y, hrun,
    hresult.total (by decide), hexact.read.1, fun fd ↦ (hexact.read.2 fd).trans ⟨?_, ?_⟩⟩
  · rintro ⟨-, hgiven, -⟩
    rcases (getLsbD_or_bit (by decide)).mp hgiven with hthird | hfirst
    · exact .inr hthird
    · rw [getLsbD_bit, Bool.and_eq_true] at hfirst
      exact .inl (of_decide_eq_true hfirst.2)
  · rintro (rfl | rfl)
    · decide
    · decide

end Hook

end Ax88179Aroma.Shim
