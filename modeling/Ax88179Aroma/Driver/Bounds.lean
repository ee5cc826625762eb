import Ax88179Aroma.Driver.Link
import Ax88179Aroma.Driver.Ring
import Ax88179Aroma.Effect.Concurrency
import Mathlib.Data.List.Pairwise

/-!
# The parser stays inside the aggregate

Nothing is assumed about UHS here: control and bulk calls return any code, a copy from a DMA buffer
delivers any bytes, and between any two steps the ring slots may change to anything.  The history
keeps, for every aggregate that was copied into `g_rx`, its length and what the parser read in it.
-/

namespace Ax88179Aroma.Driver

open Effect Program

/-! ## What the parser may read -/

namespace RxRead

/-- One past the last index that is read. -/
def stop : RxRead → ℕ
  | .trailer first => first + 4
  | .descriptor _ first => first + 4
  | .frame first count => first + count

def descriptorIndex : RxRead → Option ℕ
  | .descriptor index _ => some index
  | _ => none

def frameRange : RxRead → Option (ℕ × ℕ)
  | .frame first count => some (first, count)
  | _ => none

theorem mem_descriptorIndex {reads : List RxRead} {index : ℕ}
    (h : index ∈ reads.filterMap descriptorIndex) : ∃ first, .descriptor index first ∈ reads := by
  obtain ⟨read, hread, hindex⟩ := List.mem_filterMap.mp h
  cases read with
  | descriptor other first =>
    cases hindex
    exact ⟨first, hread⟩
  | trailer first => cases hindex
  | frame first count => cases hindex

theorem mem_frameRange {reads : List RxRead} {first count : ℕ}
    (h : (first, count) ∈ reads.filterMap frameRange) : .frame first count ∈ reads := by
  obtain ⟨read, hread, hrange⟩ := List.mem_filterMap.mp h
  cases read with
  | frame other count =>
    cases hrange
    exact hread
  | trailer first => cases hrange
  | descriptor index first => cases hrange

end RxRead

/-- The reads in one aggregate: all inside its length, no descriptor twice, and frames from
disjoint ranges in increasing order, all below the descriptor table. -/
structure WellRead (length table : ℕ) (reads : List RxRead) : Prop where
  inside : ∀ read ∈ reads, read.stop ≤ length
  descriptors : (reads.filterMap RxRead.descriptorIndex).Pairwise (· < ·)
  frames : (reads.filterMap RxRead.frameRange).Pairwise
    fun left right ↦ left.1 < right.1 ∧ left.1 + left.2 ≤ right.1
  table_eq : ∀ index first, .descriptor index first ∈ reads → first = table + 4 * index
  below : ∀ first count, .frame first count ∈ reads → 14 ≤ count ∧ first + count ≤ table

/-- The cursor has everything that was read behind it. -/
structure Parsing (ax : Ax88179) (length table : ℕ) (reads : List RxRead) : Prop where
  inBounds : InBounds ax length
  wellRead : WellRead length table reads
  table_eq : ax.rxNext < ax.rxFrames → ax.rxHdrOffset = table
  descriptors : ax.rxNext < ax.rxFrames →
    ∀ index first, .descriptor index first ∈ reads → index < ax.rxNext
  frames : ax.rxNext < ax.rxFrames →
    ∀ first count, .frame first count ∈ reads → first + count ≤ ax.rxPos

theorem WellRead.nil (length table : ℕ) : WellRead length table [] :=
  ⟨fun _ h ↦ (List.not_mem_nil h).elim, .nil, .nil, fun _ _ h ↦ (List.not_mem_nil h).elim,
    fun _ _ h ↦ (List.not_mem_nil h).elim⟩

/-- The trailer is read first. -/
theorem WellRead.trailer {length first : ℕ} (hlength : first + 4 ≤ length) (table : ℕ) :
    WellRead length table [.trailer first] := by
  refine ⟨fun read hread ↦ ?_, .nil, .nil, fun _ _ h ↦ ?_, fun _ _ h ↦ ?_⟩
  · rw [List.mem_singleton.mp hread]
    exact hlength
  · cases List.mem_singleton.mp h
  · cases List.mem_singleton.mp h

section Extend

variable {length table : ℕ} {reads : List RxRead} (hx : WellRead length table reads)

include hx

/-- A descriptor behind all others is read. -/
theorem WellRead.descriptor {index : ℕ} (hlength : table + 4 * index + 4 ≤ length)
    (hlast : ∀ other first, .descriptor other first ∈ reads → other < index) :
    WellRead length table (reads ++ [.descriptor index (table + 4 * index)]) := by
  refine ⟨fun read hread ↦ ?_, ?_, ?_, fun other first hother ↦ ?_, fun first count hframe ↦ ?_⟩
  · obtain hread | hread := List.mem_append.mp hread
    · exact hx.inside read hread
    · rw [List.mem_singleton.mp hread]
      exact hlength
  · rw [List.filterMap_append]
    refine List.pairwise_append.mpr ⟨hx.descriptors, List.pairwise_singleton _ _, ?_⟩
    intro left hleft right hright
    obtain rfl : right = index := List.mem_singleton.mp hright
    obtain ⟨first, hmem⟩ := RxRead.mem_descriptorIndex hleft
    exact hlast left first hmem
  · rw [List.filterMap_append]
    exact (List.append_nil _).symm ▸ hx.frames
  · obtain hother | hother := List.mem_append.mp hother
    · exact hx.table_eq other first hother
    · cases List.mem_singleton.mp hother
      rfl
  · obtain hframe | hframe := List.mem_append.mp hframe
    · exact hx.below first count hframe
    · cases List.mem_singleton.mp hframe

/-- A frame behind all others is read. -/
theorem WellRead.frame {first count : ℕ} (hcount : 14 ≤ count) (htable : first + count ≤ table)
    (hlength : table ≤ length)
    (hlast : ∀ other size, .frame other size ∈ reads → other + size ≤ first) :
    WellRead length table (reads ++ [.frame first count]) := by
  refine ⟨fun read hread ↦ ?_, ?_, ?_, fun other start hother ↦ ?_, fun other size hframe ↦ ?_⟩
  · obtain hread | hread := List.mem_append.mp hread
    · exact hx.inside read hread
    · rw [List.mem_singleton.mp hread]
      exact htable.trans hlength
  · rw [List.filterMap_append]
    exact (List.append_nil _).symm ▸ hx.descriptors
  · rw [List.filterMap_append]
    refine List.pairwise_append.mpr ⟨hx.frames, List.pairwise_singleton _ _, ?_⟩
    intro left hleft right hright
    obtain rfl : right = (first, count) := List.mem_singleton.mp hright
    have hmem := RxRead.mem_frameRange hleft
    have hmin := (hx.below left.1 left.2 hmem).1
    have hle := hlast left.1 left.2 hmem
    exact ⟨by dsimp only; omega, hle⟩
  · obtain hother | hother := List.mem_append.mp hother
    · exact hx.table_eq other start hother
    · cases List.mem_singleton.mp hother
  · obtain hframe | hframe := List.mem_append.mp hframe
    · exact hx.below other size hframe
    · cases List.mem_singleton.mp hframe
      exact ⟨hcount, htable⟩

end Extend

namespace Parsing

variable {ax : Ax88179} {length table : ℕ} {reads : List RxRead}

theorem of_drained (hwell : WellRead length table reads) (hdrained : ax.rxFrames ≤ ax.rxNext) :
    Parsing ax length table reads :=
  ⟨.of_le hdrained length, hwell, fun h ↦ absurd h (not_lt.mpr hdrained),
    fun h ↦ absurd h (not_lt.mpr hdrained), fun h ↦ absurd h (not_lt.mpr hdrained)⟩

/-- One turn of the loop reads one descriptor and at most one frame. -/
theorem unwrapNext (hx : Parsing ax length table reads) (hmore : ax.rxNext < ax.rxFrames)
    (gRx : Memory) (maxLength : ℤ) :
    Parsing (unwrapNext gRx maxLength ax).1 length table
      (reads ++ (unwrapNext gRx maxLength ax).2.2) := by
  have hin := hx.inBounds.unwrapNext hmore gRx maxLength
  have htable := hx.inBounds.table hmore
  have hpos := hx.inBounds.pos hmore
  have heq := hx.table_eq hmore
  have hdescriptor : WellRead length table
      (reads ++ [.descriptor ax.rxNext (ax.rxHdrOffset + 4 * ax.rxNext)]) := by
    rw [heq]
    exact hx.wellRead.descriptor (by omega) (hx.descriptors hmore)
  have hbehind : ∀ index first, .descriptor index first ∈
      reads ++ [.descriptor ax.rxNext (ax.rxHdrOffset + 4 * ax.rxNext)] →
        index < ax.rxNext + 1 := fun index first hmem ↦ by
    obtain hmem | hmem := List.mem_append.mp hmem
    · exact Nat.lt_succ_of_lt (hx.descriptors hmore index first hmem)
    · cases List.mem_singleton.mp hmem
      exact Nat.lt_succ_self _
  have hframes : ∀ first count, .frame first count ∈
      reads ++ [.descriptor ax.rxNext (ax.rxHdrOffset + 4 * ax.rxNext)] →
        first + count ≤ ax.rxPos := fun first count hmem ↦ by
    obtain hmem | hmem := List.mem_append.mp hmem
    · exact hx.frames hmore first count hmem
    · cases List.mem_singleton.mp hmem
  have hstep := unwrapNext_step gRx maxLength ax
  generalize Driver.unwrapNext gRx maxLength ax = outcome at hstep hin
  cases hstep with
  | skip pos hle _ =>
    exact ⟨hin, hdescriptor, fun _ ↦ heq, fun _ ↦ hbehind,
      fun _ first count hmem ↦ (hframes first count hmem).trans hle⟩
  | malformed => exact of_drained hdescriptor (Nat.zero_le _)
  | frame count pos hmin hmax hle hbelow =>
    have hsplit : reads ++ [.descriptor ax.rxNext (ax.rxHdrOffset + 4 * ax.rxNext),
        .frame (ax.rxPos + 2) count] =
          reads ++ [.descriptor ax.rxNext (ax.rxHdrOffset + 4 * ax.rxNext)] ++
            [.frame (ax.rxPos + 2) count] := by
      rw [List.append_assoc]
      rfl
    dsimp only
    rw [hsplit]
    refine ⟨hin, ?_, fun _ ↦ heq, fun _ index first hmem ↦ ?_, fun _ first size hmem ↦ ?_⟩
    · refine hdescriptor.frame hmin (by omega) (by omega) fun first size hmem ↦ ?_
      have hbefore := hframes first size hmem
      omega
    · obtain hmem | hmem := List.mem_append.mp hmem
      · exact hbehind index first hmem
      · cases List.mem_singleton.mp hmem
    · obtain hmem | hmem := List.mem_append.mp hmem
      · have hbefore := hframes first size hmem
        dsimp only
        omega
      · cases List.mem_singleton.mp hmem
        dsimp only
        omega

end Parsing

/-- The result of a parser call and the place it was copied from. -/
structure ResultRead (gRx : Memory) (maxLength : ℤ) (result : Received) (reads : List RxRead) :
    Prop where
  frame : 0 < result.ret → 14 ≤ result.ret ∧ result.ret ≤ maxLength ∧
    ∃ first, reads.getLast? = some (.frame first result.ret.toNat) ∧
      result.frame = gRx.slice first result.ret.toNat
  none : result.ret ≤ 0 → reads.filterMap RxRead.frameRange = []

theorem ResultRead.prepend {gRx : Memory} {maxLength : ℤ} {result : Received}
    {reads : List RxRead} (hx : ResultRead gRx maxLength result reads) (index first : ℕ) :
    ResultRead gRx maxLength result (.descriptor index first :: reads) := by
  refine ⟨fun hpositive ↦ ?_, fun hle ↦ hx.none hle⟩
  obtain ⟨hmin, hmax, start, hlast, hframe⟩ := hx.frame hpositive
  refine ⟨hmin, hmax, start, ?_, hframe⟩
  rw [List.getLast?_cons, hlast]
  rfl

/-- A whole parser call stays inside the aggregate. -/
theorem Parsing.receive {ax : Ax88179} {length table : ℕ} {reads : List RxRead}
    (hx : Parsing ax length table reads) (gRx : Memory) {maxLength : ℤ}
    (hmax : 14 ≤ maxLength) :
    let out := receiveBufferedImpl gRx maxLength ax
    Parsing out.1 length table (reads ++ out.2.2) ∧
      ResultRead gRx maxLength out.2.1 out.2.2 := by
  have hneg : ¬ (0 : ℤ) < -1 := by decide
  induction ax using descriptor_induction generalizing reads with
  | step ax ih =>
    rw [receiveBufferedImpl_eq hmax ax]
    by_cases hmore : ax.rxNext < ax.rxFrames
    · rw [if_pos hmore]
      have hnext := hx.unwrapNext hmore gRx maxLength
      have hstep := unwrapNext_step gRx maxLength ax
      generalize Driver.unwrapNext gRx maxLength ax = outcome at hstep hnext
      cases hstep with
      | skip pos hpos htable =>
        obtain ⟨hparsing, hresult⟩ :=
          ih hmore { ax with rxNext := ax.rxNext + 1, rxPos := pos } rfl rfl hnext
        rw [List.append_assoc] at hparsing
        exact ⟨hparsing, hresult.prepend _ _⟩
      | malformed => exact ⟨hnext, fun h ↦ absurd h hneg, fun _ ↦ rfl⟩
      | frame count pos hmin hmax' hpos htable =>
        refine ⟨hnext, fun _ ↦ ⟨?_, hmax', ax.rxPos + 2, rfl, rfl⟩, fun hle ↦ ?_⟩
        · dsimp only
          omega
        · dsimp only at hle
          omega
    · rw [if_neg hmore]
      refine ⟨?_, fun h ↦ absurd h (lt_irrefl 0), fun _ ↦ rfl⟩
      rw [List.append_nil]
      exact hx

/-- Loading an aggregate reads its trailer and puts the cursor at its start. -/
theorem axRxLoadAggregate_parsing (gRx : Memory) {actual : ℕ} (hactual : 4 ≤ actual)
    (ax : Ax88179) :
    let out := axRxLoadAggregate gRx actual ax
    Parsing out.1 actual out.1.rxHdrOffset out.2.2 := by
  have hreads : (axRxLoadAggregate gRx actual ax).2.2 = [.trailer (actual - 4)] := by
    unfold axRxLoadAggregate
    dsimp only
    split_ifs <;> rfl
  dsimp only
  rw [hreads]
  refine ⟨axRxLoadAggregate_inBounds gRx hactual ax, .trailer (by omega) _, fun _ ↦ rfl,
    fun _ index first hmem ↦ ?_, fun _ first count hmem ↦ ?_⟩
  · cases List.mem_singleton.mp hmem
  · cases List.mem_singleton.mp hmem

/-! ## Termination -/

/-- `count` turns of the `while` loop of `ax88179_receive_buffered_impl`, from a handle to the
handle and the result at its exit. -/
inductive LoopRun (gRx : Memory) (maxLength : ℤ) :
    ℕ → Ax88179 → Ax88179 → Received → Prop where
  | stop {ax : Ax88179} (h : ¬ ax.rxNext < ax.rxFrames) : LoopRun gRx maxLength 0 ax ax ⟨0, []⟩
  | next {ax ax' last : Ax88179} {count : ℕ} {result : Received} {reads : List RxRead}
      (h : ax.rxNext < ax.rxFrames) (hskip : unwrapNext gRx maxLength ax = (ax', .skip, reads))
      (hrest : LoopRun gRx maxLength count ax' last result) :
      LoopRun gRx maxLength (count + 1) ax last result
  | malformed {ax ax' : Ax88179} {reads : List RxRead} (h : ax.rxNext < ax.rxFrames)
      (hbad : unwrapNext gRx maxLength ax = (ax', .malformed, reads)) :
      LoopRun gRx maxLength 1 ax ax' ⟨-1, []⟩
  | frame {ax ax' : Ax88179} {reads : List RxRead} {packetLen : ℤ} {bytes : List UInt8}
      (h : ax.rxNext < ax.rxFrames)
      (hframe : unwrapNext gRx maxLength ax = (ax', .frame packetLen bytes, reads)) :
      LoopRun gRx maxLength 1 ax ax' ⟨packetLen, bytes⟩

/-- The loop ends after at most one turn for each descriptor that is left, with the result of
`receiveBufferedImpl`. -/
theorem receiveBufferedImpl_terminates (gRx : Memory) {maxLength : ℤ} (hmax : 14 ≤ maxLength)
    (ax : Ax88179) :
    ∃ count ≤ ax.rxFrames - ax.rxNext, LoopRun gRx maxLength count ax
      (receiveBufferedImpl gRx maxLength ax).1 (receiveBufferedImpl gRx maxLength ax).2.1 := by
  induction ax using descriptor_induction with
  | step ax ih =>
    rw [receiveBufferedImpl_eq hmax ax]
    by_cases hmore : ax.rxNext < ax.rxFrames
    · rw [if_pos hmore]
      have hstep := unwrapNext_step gRx maxLength ax
      rcases hout : unwrapNext gRx maxLength ax with ⟨ax', what, reads⟩
      rw [hout] at hstep
      cases hstep with
      | skip pos hpos htable =>
        obtain ⟨count, hcount, hrun⟩ :=
          ih hmore { ax with rxNext := ax.rxNext + 1, rxPos := pos } rfl rfl
        exact ⟨count + 1, by dsimp only at hcount; omega, .next hmore hout hrun⟩
      | malformed => exact ⟨1, by omega, .malformed hmore hout⟩
      | frame count pos hmin hmax' hpos htable => exact ⟨1, by omega, .frame hmore hout⟩
    · rw [if_neg hmore]
      exact ⟨0, Nat.zero_le _, .stop hmore⟩

/-! ## Runs under arbitrary device behaviour -/

/-- What the parser did: the length and the reads of the aggregate that is in `g_rx`, those of the
earlier aggregates, and what was returned for which `max_length`. -/
structure RxHistory where
  length : ℕ := 0
  reads : List RxRead := []
  past : List (ℕ × List RxRead) := []
  returned : List (ℤ × Received) := []

abbrev RxMachine := Machine DriverState RxHistory

def RxHistory.record (history : RxHistory) : RxNote → RxHistory
  | .loaded reads => { history with reads := history.reads ++ reads }
  | .parsed _ reads => { history with reads := history.reads ++ reads }
  | .returned maxLength result =>
    { history with returned := history.returned ++ [(maxLength, result)] }
  | _ => history

/-- UHS may answer anything; a copy into `g_rx` begins a new aggregate. -/
def anyReply : Replies DriverState RxHistory UhsCall UhsReply
  | .memcpyBuffer _ count, _, x =>
    some { x with
      world := { x.world with
        length := count
        reads := []
        past := x.world.past ++ [(x.world.length, x.world.reads)] } }
  | .note event, _, x => some { x with world := x.world.record event }
  | _, _, x => some x

inductive RxOperation where
  | link
  | receive (maxLength timeoutUs : ℤ)
  | receiveBuffered (maxLength : ℤ)
  deriving DecidableEq, Repr

def rxBody : RxOperation → DriverM Unit
  | .link => do
    let _ ← ax88179Link
    pure ()
  | .receive maxLength timeoutUs => do
    let result ← ax88179Receive maxLength timeoutUs
    note (.returned maxLength result)
  | .receiveBuffered maxLength => do
    let result ← ax88179ReceiveBuffered maxLength
    note (.returned maxLength result)

/-- The owner of the handle; the environment sets the ring slots to anything. -/
def rxSystem : System Unit RxOperation (SlotIndex → AxRxAsyncSlot) DriverState RxHistory UhsCall
    UhsReply where
  reply _ := anyReply
  env slots x := some { x with mem := { x.mem with gRxSlots := slots } }
  body _ := rxBody
  enabled _ operation _ :=
    match operation with
    | .link => true
    | .receive maxLength _ => 14 ≤ maxLength
    | .receiveBuffered maxLength => 14 ≤ maxLength

/-- An assertion about the state that only the owner of the handle changes. -/
abbrev RxOwned := Ax88179 → Memory → RxHistory → Prop

def RxOwned.holds (owned : RxOwned) (x : RxMachine) : Prop :=
  owned x.mem.ax x.mem.gRx x.world

theorem rxOwned_env (inv : RxMachine → Prop) (owned : RxOwned) :
    EnvStable rxSystem inv owned.holds := by
  intro slots x y _ hx henv
  cases henv
  exact hx

/-- The aggregate in `g_rx` was read properly so far. -/
def CurrentOk (history : RxHistory) : Prop :=
  ∃ table, WellRead history.length table history.reads

/-- Every aggregate so far was read properly, and every frame length was as asked for. -/
structure HistoryOk (history : RxHistory) : Prop where
  current : CurrentOk history
  past : ∀ aggregate ∈ history.past, ∃ table, WellRead aggregate.1 table aggregate.2
  returned : ∀ entry ∈ history.returned,
    0 < entry.2.ret → 14 ≤ entry.2.ret ∧ entry.2.ret ≤ entry.1

/-- The history is in order, and the cursor stands inside the aggregate in `g_rx`. -/
structure RxInv (x : RxMachine) : Prop extends HistoryOk x.world where
  inBounds : InBounds x.mem.ax x.world.length

/-- A store outside the parser's cursor keeps the invariant. -/
theorem RxInv.store {x : RxMachine} {mem : DriverState} (hinv : RxInv x)
    (hnext : mem.ax.rxNext = x.mem.ax.rxNext) (hframes : mem.ax.rxFrames = x.mem.ax.rxFrames)
    (htable : mem.ax.rxHdrOffset = x.mem.ax.rxHdrOffset) (hpos : mem.ax.rxPos = x.mem.ax.rxPos) :
    RxInv { x with mem := mem } := by
  refine ⟨hinv.toHistoryOk, ?_, ?_⟩
  · rw [hnext, hframes, htable]
    exact hinv.inBounds.table
  · rw [hnext, hframes, htable, hpos]
    exact hinv.inBounds.pos

/-- A parsed frame is a copy of the range that was read last. -/
def parsedPre : UhsCall → RxMachine → Prop
  | .note (.parsed result reads), x => 0 < result.ret →
      ∃ first, reads.getLast? = some (.frame first result.ret.toNat) ∧
        result.frame = x.mem.gRx.slice first result.ret.toNat
  | _, _ => True

/-- The parser is done with the aggregate in `g_rx`. -/
def drainedRx (known : RxHistory → Prop) : RxOwned := fun ax _ history ↦
  known history ∧ ax.rxFrames ≤ ax.rxNext

/-- The cursor stands in the aggregate in `g_rx`. -/
def parsingRx : RxOwned := fun ax _ history ↦
  ∃ table, Parsing ax history.length table history.reads

/-- As `parsingRx`, and drained unless the result is positive. -/
def resultRx (result : ℤ) : RxOwned := fun ax gRx history ↦
  parsingRx ax gRx history ∧ (result ≤ 0 → ax.rxFrames ≤ ax.rxNext)

section Operations

variable {x : RxMachine}

/-- A call that UHS answers without an effect on the history. -/
theorem rx_perform (owned : RxOwned) {request : UhsCall} {post : UhsReply → RxMachine → Prop}
    (hreply : ∀ answer x, anyReply request answer x = some x)
    (hpre : ∀ x, parsedPre request x) (hx : owned.holds x)
    (hstep : ∀ answer y, owned.holds y → post answer y) :
    Solo rxSystem RxInv parsedPre (.perform request) post x := by
  refine solo_perform (rxOwned_env _ owned) hx fun y hinv hy ↦ ⟨hpre y, fun answer z hanswer ↦ ?_⟩
  obtain rfl : y = z := Option.some.inj ((hreply answer y).symm.trans hanswer)
  exact ⟨hinv, hstep answer y hy⟩

theorem rx_control (owned : RxOwned) (read : Bool) (cmd value index size : ℕ)
    (data : List UInt8) (hx : owned.holds x) :
    Solo rxSystem RxInv parsedPre (control read cmd value index size data)
      (fun _ ↦ owned.holds) x := by
  unfold control
  simp only [Solo, safe_bind, safe_ite, safe_pure]
  split
  · exact hx
  refine rx_perform owned (fun _ _ ↦ rfl) (fun _ ↦ trivial) hx fun answer y hy ↦ ?_
  split
  · exact hy
  · split
    · exact hy
    · exact hy

theorem rx_ax88179ReadPhy (owned : RxOwned) (reg : ℕ) (hx : owned.holds x) :
    Solo rxSystem RxInv parsedPre (ax88179ReadPhy reg) (fun _ ↦ owned.holds) x := by
  simp only [ax88179ReadPhy, Solo, safe_bind, safe_pure]
  exact rx_control owned _ _ _ _ _ _ hx

theorem rx_macWrite16 (owned : RxOwned) (reg value : ℕ) (hx : owned.holds x) :
    Solo rxSystem RxInv parsedPre (macWrite16 reg value) (fun _ ↦ owned.holds) x := by
  unfold macWrite16 regWrite
  exact rx_control owned _ _ _ _ _ _ hx

theorem rx_waitTxFifo (owned : RxOwned) (tries : ℕ) (hx : owned.holds x) :
    Solo rxSystem RxInv parsedPre (waitTxFifo tries) (fun _ ↦ owned.holds) x := by
  induction tries generalizing x with
  | zero => exact hx
  | succ tries ih =>
    simp only [waitTxFifo, Solo, safe_bind]
    refine safe_mono (rx_control owned _ _ _ _ _ _ hx) fun fifo y hy ↦ ?_
    cases fifo with
    | none => exact hy
    | some bytes =>
      simp only [safe_ite, safe_bind, safe_pure]
      split
      · exact hy
      · exact rx_perform owned (fun _ _ ↦ rfl) (fun _ ↦ trivial) hy fun _ y hy ↦ ih hy

theorem rx_allDone (owned : RxOwned) {steps : List (DriverM (Option Memory))}
    (hsteps : ∀ step ∈ steps, ∀ y, owned.holds y →
      Solo rxSystem RxInv parsedPre step (fun _ ↦ owned.holds) y) (hx : owned.holds x) :
    Solo rxSystem RxInv parsedPre (allDone steps) (fun _ ↦ owned.holds) x := by
  induction steps generalizing x with
  | nil => exact hx
  | cons step rest ih =>
    simp only [allDone, Solo, safe_bind, safe_ite, safe_pure]
    refine safe_mono (hsteps step List.mem_cons_self x hx) fun done y hy ↦ ?_
    split
    · exact ih (fun other hother ↦ hsteps other (List.mem_cons_of_mem step hother)) hy
    · exact hy

/-- A link change empties the parser and keeps the history. -/
theorem rx_clear (medium : ℕ) (hinv : RxInv x) :
    RxInv { x with mem := x.mem.setAx fun ax ↦ { ax with medium := medium, rxFrames := 0 } } ∧
      parsingRx.holds { x with mem := x.mem.setAx fun ax ↦
        { ax with medium := medium, rxFrames := 0 } } := by
  obtain ⟨table, hwell⟩ := hinv.current
  exact ⟨⟨hinv.toHistoryOk, .of_le (Nat.zero_le _) _⟩, table, .of_drained hwell (Nat.zero_le _)⟩

theorem rx_linkDownFinish (written : Option Memory) (hx : parsingRx.holds x) :
    Solo rxSystem RxInv parsedPre (linkDownFinish written) (fun _ ↦ parsingRx.holds) x := by
  cases written with
  | none => exact hx
  | some bytes =>
    simp only [linkDownFinish, Solo, safe_bind, safe_pure]
    exact solo_store (rxOwned_env _ parsingRx) hx fun y hinv _ ↦ rx_clear 0 hinv

theorem rx_linkDown (hx : parsingRx.holds x) :
    Solo rxSystem RxInv parsedPre linkDown (fun _ ↦ parsingRx.holds) x := by
  simp only [linkDown, Solo, safe_bind]
  refine solo_load (rxOwned_env _ parsingRx) hx fun y _ hy ↦ ?_
  split
  · rw [safe_bind]
    exact safe_mono (rx_macWrite16 parsingRx _ _ hy) fun written y hy ↦ rx_linkDownFinish written hy
  · rw [safe_bind, safe_pure]
    exact rx_linkDownFinish _ hy

theorem rx_changeMedium (speed medium : ℕ) (hx : parsingRx.holds x) :
    Solo rxSystem RxInv parsedPre (changeMedium speed medium) (fun _ ↦ parsingRx.holds) x := by
  simp only [changeMedium, Solo, safe_bind]
  refine safe_mono (rx_control parsingRx _ _ _ _ _ _ hx) fun usb y hy ↦ ?_
  cases usb with
  | none => exact hy
  | some bytes =>
    simp only [safe_bind, safe_ite, safe_pure]
    refine safe_mono (rx_allDone parsingRx (fun step hstep y hy ↦ ?_) hy) fun prepared y hy ↦ ?_
    · simp only [List.mem_cons, List.not_mem_nil, or_false] at hstep
      obtain rfl | rfl | rfl | rfl := hstep
      · exact rx_macWrite16 parsingRx _ _ hy
      · exact rx_macWrite16 parsingRx _ _ hy
      · exact rx_control parsingRx _ _ _ _ _ _ hy
      · exact rx_macWrite16 parsingRx _ _ hy
    split
    · exact hy
    refine safe_mono (rx_waitTxFifo parsingRx 10 hy) fun ready y hy ↦ ?_
    split
    · exact hy
    refine safe_mono (rx_macWrite16 parsingRx _ _ hy) fun written y hy ↦ ?_
    cases written with
    | none => exact hy
    | some bytes =>
      simp only [safe_bind, safe_pure]
      exact solo_store (rxOwned_env _ parsingRx) hy fun y hinv _ ↦ rx_clear medium hinv

theorem rx_linkDecide (bmsr status : Option ℕ) (hx : parsingRx.holds x) :
    Solo rxSystem RxInv parsedPre (linkDecide bmsr status) (fun _ ↦ parsingRx.holds) x := by
  rcases bmsr with _ | bmsr
  · exact hx
  rcases status with _ | status
  · exact hx
  simp only [linkDecide, Solo, safe_bind, safe_ite, safe_pure]
  split
  · exact hx
  split
  · exact rx_linkDown hx
  refine solo_load (rxOwned_env _ parsingRx) hx fun y _ hy ↦ ?_
  split
  · exact rx_changeMedium _ _ hy
  · exact hy

theorem rx_readPhyAfter (before : Option ℕ) (reg : ℕ) (hx : parsingRx.holds x) :
    Solo rxSystem RxInv parsedPre (readPhyAfter before reg) (fun _ ↦ parsingRx.holds) x := by
  unfold readPhyAfter
  split
  · exact rx_ax88179ReadPhy parsingRx reg hx
  · exact hx

theorem rx_ax88179Link (hx : parsingRx.holds x) :
    Solo rxSystem RxInv parsedPre ax88179Link (fun _ ↦ parsingRx.holds) x := by
  simp only [ax88179Link, Solo, safe_bind]
  refine safe_mono (rx_ax88179ReadPhy parsingRx 1 hx) fun first y hy ↦ ?_
  refine safe_mono (rx_readPhyAfter first 1 hy) fun bmsr y hy ↦ ?_
  refine safe_mono (rx_readPhyAfter bmsr 0x11 hy) fun status y hy ↦ ?_
  exact rx_linkDecide bmsr status hy

/-! ### Receiving -/

theorem rx_note {event : RxNote} (owned : RxOwned) {post : Unit → RxMachine → Prop}
    (hx : owned.holds x)
    (hstep : ∀ y, RxInv y → owned.holds y → parsedPre (.note event) y ∧
      RxInv { y with world := y.world.record event } ∧
        post () { y with world := y.world.record event }) :
    Solo rxSystem RxInv parsedPre (note event) post x := by
  simp only [note, Solo, safe_bind, safe_pure]
  refine solo_perform (rxOwned_env _ owned) hx fun y hinv hy ↦
    ⟨(hstep y hinv hy).1, fun answer z hreply ↦ ?_⟩
  cases hreply
  exact (hstep y hinv hy).2

/-- Submitting touches neither the cursor nor the history. -/
theorem rx_axRxSubmitSlot (index : SlotIndex) (owned : RxOwned)
    (howned : ∀ ax gRx history code, owned ax gRx history →
      owned { ax with lastBulk := code } gRx history) (hx : owned.holds x) :
    Solo rxSystem RxInv parsedPre (axRxSubmitSlot index) (fun _ ↦ owned.holds) x := by
  simp only [axRxSubmitSlot, Solo, safe_bind, safe_ite, safe_pure]
  refine solo_store (rxOwned_env _ owned) hx fun y hinv hy ↦ ⟨hinv.store rfl rfl rfl rfl, ?_⟩
  refine solo_store (rxOwned_env _ owned) hy fun y hinv hy ↦ ⟨hinv.store rfl rfl rfl rfl, ?_⟩
  refine rx_perform owned (fun _ _ ↦ rfl) (fun _ ↦ trivial) hy fun answer y hy ↦ ?_
  split
  · refine solo_store (rxOwned_env _ owned) hy fun y hinv hy ↦ ⟨hinv.store rfl rfl rfl rfl, ?_⟩
    exact solo_store (rxOwned_env _ owned) hy fun y hinv hy ↦
      ⟨hinv.store rfl rfl rfl rfl, howned _ _ _ _ hy⟩
  · exact hy

theorem rx_axRxSubmitAll (indices : List SlotIndex) (hx : (drainedRx CurrentOk).holds x) :
    Solo rxSystem RxInv parsedPre (axRxSubmitAll indices)
      (fun _ ↦ (drainedRx CurrentOk).holds) x := by
  induction indices generalizing x with
  | nil => exact hx
  | cons index rest ih =>
    simp only [axRxSubmitAll, Solo, safe_bind, safe_ite, safe_pure]
    refine safe_mono (rx_axRxSubmitSlot index (drainedRx CurrentOk) (fun _ _ _ _ h ↦ h) hx)
      fun rc y hy ↦ ?_
    split
    · exact solo_store (rxOwned_env _ (drainedRx CurrentOk)) hy fun y hinv hy ↦
        ⟨hinv.store rfl rfl rfl rfl, hy⟩
    · exact ih hy

theorem rx_axRxStartAsync (hx : (drainedRx CurrentOk).holds x) :
    Solo rxSystem RxInv parsedPre axRxStartAsync (fun _ ↦ (drainedRx CurrentOk).holds) x := by
  simp only [axRxStartAsync, Solo, safe_bind, safe_pure]
  refine rx_note (drainedRx CurrentOk) hx fun y hinv hy ↦ ⟨trivial, hinv, ?_⟩
  refine solo_store (rxOwned_env _ (drainedRx CurrentOk)) hy fun y hinv hy ↦
    ⟨hinv.store rfl rfl rfl rfl, ?_⟩
  refine rx_perform (drainedRx CurrentOk) (fun _ _ ↦ rfl) (fun _ ↦ trivial) hy fun _ y hy ↦ ?_
  refine solo_store (rxOwned_env _ (drainedRx CurrentOk)) hy fun y hinv hy ↦
    ⟨hinv.store rfl rfl rfl rfl, ?_⟩
  refine safe_mono (solo_each (fun _ ↦ (drainedRx CurrentOk).holds) hy
    fun index rest y hy ↦ ?_) fun _ y hy ↦ ?_
  · exact solo_store (rxOwned_env _ (drainedRx CurrentOk)) hy fun y hinv hy ↦
      ⟨hinv.store rfl rfl rfl rfl, hy⟩
  refine safe_mono (rx_axRxSubmitAll axRxSlots hy) fun rc y hy ↦ ?_
  exact rx_note (drainedRx CurrentOk) hy fun y hinv hy ↦ ⟨trivial, hinv, hy⟩

theorem resultRx_of_drained {result : ℤ} (hx : (drainedRx CurrentOk).holds x) :
    (resultRx result).holds x := by
  obtain ⟨⟨table, hwell⟩, hdrained⟩ := hx
  exact ⟨⟨table, .of_drained hwell hdrained⟩, fun _ ↦ hdrained⟩

/-- A copy into `g_rx` closes the history of the aggregate that was there. -/
theorem rx_memcpyBuffer (index : SlotIndex) (actual : ℕ) (hx : (drainedRx CurrentOk).holds x) :
    Solo rxSystem RxInv parsedPre (.perform (.memcpyBuffer index actual))
      (fun _ ↦ (drainedRx fun history ↦ history.length = actual ∧ history.reads = []).holds) x := by
  refine solo_perform (rxOwned_env _ (drainedRx CurrentOk)) hx fun y hinv hy ↦
    ⟨trivial, fun answer z hreply ↦ ?_⟩
  cases hreply
  refine ⟨⟨⟨⟨0, .nil _ _⟩, fun aggregate haggregate ↦ ?_, hinv.returned⟩, .of_le hy.2 _⟩,
    ⟨rfl, rfl⟩, hy.2⟩
  obtain hold | hnew := List.mem_append.mp haggregate
  · exact hinv.past aggregate hold
  · rw [List.mem_singleton.mp hnew]
    exact hinv.current

theorem rx_axRxTakeDone (index : SlotIndex) (hx : (drainedRx CurrentOk).holds x) :
    Solo rxSystem RxInv parsedPre (axRxTakeDone index) (fun rc ↦ (resultRx rc).holds) x := by
  have hdrained : EnvStable rxSystem RxInv (drainedRx CurrentOk).holds := rxOwned_env _ _
  simp only [axRxTakeDone, Solo, safe_bind, safe_ite, safe_pure]
  refine solo_load hdrained hx fun y _ hy ↦ ?_
  generalize (y.mem.gRxSlots index).ret = ret
  refine solo_load hdrained hy fun y _ hy ↦ ?_
  generalize (y.mem.gRxSlots index).actual = actual
  refine rx_note (drainedRx CurrentOk) hy fun y hinv hy ↦ ⟨trivial, hinv, ?_⟩
  refine solo_store hdrained hy fun y hinv hy ↦ ⟨hinv.store rfl rfl rfl rfl, ?_⟩
  split
  · refine solo_store hdrained hy fun y hinv hy ↦ ⟨hinv.store rfl rfl rfl rfl, ?_⟩
    refine safe_mono (rx_axRxSubmitSlot index (drainedRx CurrentOk) (fun _ _ _ _ h ↦ h) hy)
      fun _ y hy ↦ resultRx_of_drained hy
  · rename_i hgood
    let copied : RxOwned := drainedRx fun history ↦ history.length = actual ∧ history.reads = []
    refine safe_mono (rx_memcpyBuffer index actual hy) fun answer y hy ↦ ?_
    refine solo_store (rxOwned_env _ copied) hy fun y hinv hy ↦ ⟨hinv.store rfl rfl rfl rfl, ?_⟩
    refine solo_store (rxOwned_env _ copied) hy fun y hinv hy ↦ ⟨hinv.store rfl rfl rfl rfl, ?_⟩
    refine safe_mono (rx_axRxSubmitSlot index copied (fun _ _ _ _ h ↦ h) hy) fun _ y hy ↦ ?_
    have hactual : 4 ≤ actual := by omega
    refine solo_access (rxOwned_env _ copied) hy fun y hinv hy ↦ ?_
    obtain ⟨⟨hlength, hreads⟩, -⟩ := hy
    have hin := axRxLoadAggregate_inBounds y.mem.gRx hactual y.mem.ax
    refine ⟨⟨hinv.toHistoryOk, hlength ▸ hin⟩, ?_⟩
    have hparsing := axRxLoadAggregate_parsing y.mem.gRx hactual y.mem.ax
    have hempty := axRxLoadAggregate_drained y.mem.gRx actual y.mem.ax
    dsimp only
    generalize axRxLoadAggregate y.mem.gRx actual y.mem.ax = out at hparsing hempty
    refine rx_note (fun ax _ history ↦ ax = out.1 ∧ history.length = actual ∧ history.reads = [])
      ⟨rfl, hlength, hreads⟩ fun y hinv hy ↦ ?_
    obtain ⟨hax, hlength, hreads⟩ := hy
    have hcurrent : Parsing y.mem.ax y.world.length out.1.rxHdrOffset
        (y.world.reads ++ out.2.2) := by
      rw [hax, hlength, hreads]
      exact hparsing
    refine ⟨trivial, ⟨⟨⟨_, hcurrent.wellRead⟩, hinv.past, hinv.returned⟩, hinv.inBounds⟩,
      ⟨_, hcurrent⟩, fun hle ↦ ?_⟩
    dsimp only
    rw [hax]
    exact hempty hle

theorem rx_axRxTakeCompleted (hx : (drainedRx CurrentOk).holds x) :
    Solo rxSystem RxInv parsedPre axRxTakeCompleted (fun rc ↦ (resultRx rc).holds) x := by
  have hdrained : EnvStable rxSystem RxInv (drainedRx CurrentOk).holds := rxOwned_env _ _
  simp only [axRxTakeCompleted, Solo, safe_bind, safe_ite, safe_pure]
  refine solo_load hdrained hx fun y _ hy ↦ solo_load hdrained hy fun y _ hy ↦ ?_
  split
  · exact resultRx_of_drained hy
  · exact rx_axRxTakeDone _ hy

/-- What a receive call leaves: a positive result is a frame of the length asked for. -/
def receivedRx (maxLength : ℤ) (result : Received) : RxOwned := fun ax gRx history ↦
  parsingRx ax gRx history ∧ (0 < result.ret → 14 ≤ result.ret ∧ result.ret ≤ maxLength)

theorem rx_ax88179ReceiveBuffered {maxLength : ℤ} (hmax : 14 ≤ maxLength)
    (hx : parsingRx.holds x) :
    Solo rxSystem RxInv parsedPre (ax88179ReceiveBuffered maxLength)
      (fun result y ↦ (receivedRx maxLength result).holds y ∧
        (result.ret ≤ 0 → y.mem.ax.rxFrames ≤ y.mem.ax.rxNext)) x := by
  simp only [ax88179ReceiveBuffered, Solo, safe_bind, safe_pure]
  refine solo_access (rxOwned_env _ parsingRx) hx fun y hinv hy ↦ ?_
  obtain ⟨table, hparsing⟩ := hy
  obtain ⟨hparsing', hresult⟩ := hparsing.receive y.mem.gRx hmax
  refine ⟨⟨hinv.toHistoryOk, hparsing'.inBounds⟩, ?_⟩
  have hdrained := (receiveBufferedImpl_buffered hmax y.mem.gRx y.mem.ax).2
  dsimp only
  generalize receiveBufferedImpl y.mem.gRx maxLength y.mem.ax = out at hparsing' hresult hdrained
  refine rx_note (fun ax gRx history ↦ ax = out.1 ∧ gRx = y.mem.gRx ∧
    history.length = y.world.length ∧ history.reads = y.world.reads) ⟨rfl, rfl, rfl, rfl⟩
      fun z hinv hz ↦ ?_
  obtain ⟨hax, hgRx, hlength, hreads⟩ := hz
  have hcurrent : Parsing z.mem.ax z.world.length table (z.world.reads ++ out.2.2) := by
    rw [hax, hlength, hreads]
    exact hparsing'
  refine ⟨fun hpositive ↦ ?_, ⟨⟨⟨_, hcurrent.wellRead⟩, hinv.past, hinv.returned⟩, hinv.inBounds⟩,
    ⟨⟨_, hcurrent⟩, fun hpositive ↦ ?_⟩, fun hle ↦ ?_⟩
  · rw [hgRx]
    exact (hresult.frame hpositive).2.2
  · obtain ⟨hmin, hle, -⟩ := hresult.frame hpositive
    exact ⟨hmin, hle⟩
  · dsimp only
    rw [hax]
    exact hdrained hle

/-- Without a frame a call may return any code that is not positive. -/
theorem receivedRx_of_result {maxLength loaded : ℤ} (hle : loaded ≤ 0)
    (hx : (resultRx loaded).holds x) : (receivedRx maxLength ⟨loaded, []⟩).holds x :=
  ⟨hx.1, fun hpositive ↦ absurd hpositive (not_lt.mpr hle)⟩

theorem rx_ax88179ReceiveNext {maxLength : ℤ} (hmax : 14 ≤ maxLength) (timeoutUs : ℤ)
    (hx : (drainedRx CurrentOk).holds x) :
    Solo rxSystem RxInv parsedPre (ax88179ReceiveNext maxLength timeoutUs)
      (fun result ↦ (receivedRx maxLength result).holds) x := by
  have hfinish : ∀ (loaded : ℤ) (y : RxMachine), (resultRx loaded).holds y →
      Solo rxSystem RxInv parsedPre
        (if loaded ≤ 0 then pure ⟨loaded, []⟩ else ax88179ReceiveBuffered maxLength)
          (fun result ↦ (receivedRx maxLength result).holds) y := by
    intro loaded y hy
    split
    · rename_i hle
      exact receivedRx_of_result hle hy
    · exact safe_mono (rx_ax88179ReceiveBuffered hmax hy.1) fun _ _ h ↦ h.1
  simp only [ax88179ReceiveNext, Solo, safe_bind]
  refine safe_mono (rx_axRxTakeCompleted hx) fun first y hy ↦ ?_
  split
  · rename_i hwait
    obtain ⟨⟨table, hparsing⟩, hempty⟩ := hy
    have hdrained : (drainedRx CurrentOk).holds y := ⟨⟨table, hparsing.wellRead⟩, hempty (by omega)⟩
    rw [safe_bind]
    refine rx_perform (drainedRx CurrentOk) (fun _ _ ↦ rfl) (fun _ ↦ trivial) hdrained
      fun _ y hy ↦ ?_
    rw [safe_bind]
    exact safe_mono (rx_axRxTakeCompleted hy) fun loaded y hy ↦ hfinish loaded y hy
  · exact hfinish first y hy

theorem rx_ax88179Receive {maxLength : ℤ} (hmax : 14 ≤ maxLength) (timeoutUs : ℤ)
    (hx : parsingRx.holds x) :
    Solo rxSystem RxInv parsedPre (ax88179Receive maxLength timeoutUs)
      (fun result ↦ (receivedRx maxLength result).holds) x := by
  have hneg : ¬ (0 : ℤ) < -1 := by decide
  unfold ax88179Receive
  simp only [Solo, safe_bind, safe_ite, safe_pure]
  split
  · rename_i hshort
    exact absurd hmax (not_le.mpr hshort)
  refine solo_load (rxOwned_env _ parsingRx) hx fun y _ hy ↦ ?_
  split
  · exact ⟨hy, fun h ↦ absurd h (lt_irrefl 0)⟩
  refine safe_mono (rx_ax88179ReceiveBuffered hmax hy) fun n y hy ↦ ?_
  split
  · exact hy.1
  rename_i hzero
  obtain ⟨⟨⟨table, hparsing⟩, -⟩, hempty⟩ := hy
  have hdrained : (drainedRx CurrentOk).holds y :=
    ⟨⟨table, hparsing.wellRead⟩, hempty (not_not.mp hzero).le⟩
  refine solo_load (rxOwned_env _ (drainedRx CurrentOk)) hdrained fun y _ hy ↦ ?_
  split
  · exact rx_ax88179ReceiveNext hmax timeoutUs hy
  refine safe_mono (rx_axRxStartAsync hy) fun rc y hy ↦ ?_
  split
  · have hresult : (resultRx (-1)).holds y := resultRx_of_drained hy
    exact ⟨hresult.1, fun h ↦ absurd h hneg⟩
  · exact rx_ax88179ReceiveNext hmax timeoutUs hy

theorem rx_returned {maxLength : ℤ} {result : Received}
    (hx : (receivedRx maxLength result).holds x) :
    Solo rxSystem RxInv parsedPre (note (.returned maxLength result))
      (fun _ ↦ parsingRx.holds) x := by
  refine rx_note (receivedRx maxLength result) hx fun y hinv hy ↦
    ⟨trivial, ⟨⟨hinv.current, hinv.past, fun entry hentry ↦ ?_⟩, hinv.inBounds⟩, hy.1⟩
  obtain hold | hnew := List.mem_append.mp hentry
  · exact hinv.returned entry hold
  · rw [List.mem_singleton.mp hnew]
    exact hy.2

theorem rx_rxBody {operation : RxOperation} (henabled : rxSystem.enabled () operation x = true)
    (hx : parsingRx.holds x) :
    Solo rxSystem RxInv parsedPre (rxBody operation) (fun _ ↦ parsingRx.holds) x := by
  cases operation with
  | link =>
    simp only [rxBody, Solo, safe_bind, safe_pure]
    exact rx_ax88179Link hx
  | receive maxLength timeoutUs =>
    simp only [rxBody, Solo, safe_bind]
    refine safe_mono (rx_ax88179Receive (of_decide_eq_true henabled) timeoutUs hx)
      fun result y hy ↦ rx_returned hy
  | receiveBuffered maxLength =>
    simp only [rxBody, Solo, safe_bind]
    refine safe_mono (rx_ax88179ReceiveBuffered (of_decide_eq_true henabled) hx)
      fun result y hy ↦ rx_returned hy.1

end Operations

/-! ## Whole runs -/

abbrev RxConfig := Config Unit DriverState RxHistory UhsCall UhsReply

/-- Every aggregate was read inside its own length, with no descriptor used twice and frames from
disjoint, increasing ranges below the table; every frame that the parser hands out is a copy of the
range it read last and has the length asked for; what the parser makes of `g_rx` depends only on the
bytes of the aggregate that was copied last; and the descriptor loop ends from here. -/
structure RxSafe (c : RxConfig) : Prop where
  history : HistoryOk c.machine.world
  parsed : ∀ result reads next,
    c.threads () = some (.call (.note (.parsed result reads)) next) → 0 < result.ret →
      ∃ first, reads.getLast? = some (.frame first result.ret.toNat) ∧
        result.frame = c.machine.mem.gRx.slice first result.ret.toNat
  loads : 4 ≤ c.machine.world.length → ∀ gRx : Memory,
    (∀ index < c.machine.world.length, gRx index = c.machine.mem.gRx index) →
      axRxLoadAggregate gRx c.machine.world.length c.machine.mem.ax =
        axRxLoadAggregate c.machine.mem.gRx c.machine.world.length c.machine.mem.ax
  receives : ∀ maxLength, 14 ≤ maxLength → ∀ gRx : Memory,
    (∀ index < c.machine.world.length, gRx index = c.machine.mem.gRx index) →
      receiveBufferedImpl gRx maxLength c.machine.mem.ax =
        receiveBufferedImpl c.machine.mem.gRx maxLength c.machine.mem.ax
  terminates : ∀ maxLength, 14 ≤ maxLength →
    ∃ count ≤ c.machine.mem.ax.rxFrames - c.machine.mem.ax.rxNext,
      LoopRun c.machine.mem.gRx maxLength count c.machine.mem.ax
        (receiveBufferedImpl c.machine.mem.gRx maxLength c.machine.mem.ax).1
        (receiveBufferedImpl c.machine.mem.gRx maxLength c.machine.mem.ax).2.1

/-- In every run of `ax88179_link`, `ax88179_receive` and `ax88179_receive_buffered` on one handle,
whatever UHS does, the parser stays inside the aggregate that was copied last. -/
theorem rxSystem_safe {x : RxMachine} (hempty : x.mem.ax.rxFrames ≤ x.mem.ax.rxNext)
    (hworld : x.world = {}) {actions : List (Action Unit RxOperation _ UhsReply)} {c : RxConfig}
    (hrun : rxSystem.run (System.start x) actions = some c) : RxSafe c := by
  have hinv : RxInv x := by
    refine ⟨?_, .of_le hempty _⟩
    rw [hworld]
    exact ⟨⟨0, .nil _ _⟩, fun _ h ↦ (List.not_mem_nil h).elim,
      fun _ h ↦ (List.not_mem_nil h).elim⟩
  have hx : parsingRx.holds x := by
    obtain ⟨table, hwell⟩ := hinv.current
    exact ⟨table, .of_drained hwell hempty⟩
  have hverified : Verified rxSystem x RxInv (fun _ ↦ Interference rxSystem RxInv)
      (fun _ ↦ parsedPre) (fun _ ↦ parsingRx.holds) :=
    solo_verified (rxOwned_env _ parsingRx)
      (fun _ _ _ _ h henv ↦ by cases henv; exact h.store rfl rfl rfl rfl)
      (fun _ _ _ hy henabled ↦ rx_rxBody henabled hy) hinv hx
  have hsafe := (hverified.sound hrun).invariant
  refine ⟨hsafe.toHistoryOk, fun result reads next hcall ↦ ?_, fun hlength gRx hagree ↦ ?_,
    fun maxLength hmax gRx hagree ↦ ?_, fun maxLength hmax ↦ ?_⟩
  · exact hverified.call_pre hrun hcall
  · exact axRxLoadAggregate_agree hagree hlength
  · exact receiveBufferedImpl_agree hagree hsafe.inBounds hmax
  · exact receiveBufferedImpl_terminates _ hmax _

/-- A receive call that finds slot 0 done with `smallAggregate`, whatever the slots were before. -/
def smallRun : List (Action Unit RxOperation (SlotIndex → AxRxAsyncSlot) UhsReply) :=
  [.start () (.receive 1514 0), .step (), .step (), .answer () {}, .step (), .step (),
    .env fun _ ↦ { state := .done, ret := 32, actual := 32 }, .step (), .step (), .step (),
    .answer () {}, .step (), .answer () { bytes := smallAggregate }, .step (), .step (), .step (),
    .step (), .answer () {}, .step (), .answer () {}, .step (), .answer () {}, .answer () {},
    .step ()]

theorem rxSystem_safe_smallRun :
    ∃ c, rxSystem.run
        (System.start ⟨{ ax := { medium := 1, rxAsyncStarted := true } }, {}⟩) smallRun = some c ∧
      c.machine.world.returned = [(1514, ⟨14, List.replicate 14 7⟩)] ∧ RxSafe c := by
  have hrun : (rxSystem.run
      (System.start ⟨{ ax := { medium := 1, rxAsyncStarted := true } }, {}⟩) smallRun).map
        (fun c ↦ c.machine.world.returned) = some [(1514, ⟨14, List.replicate 14 7⟩)] := by
    rfl
  obtain ⟨c, hc, hreturned⟩ := Option.map_eq_some_iff.mp hrun
  exact ⟨c, hc, hreturned, rxSystem_safe (Nat.le_refl 0) rfl hc⟩

end Ax88179Aroma.Driver
