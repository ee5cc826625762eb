import Ax88179Aroma.Driver.Uhs
import Mathlib.Data.List.Infix
import Mathlib.Data.Nat.Bitwise

/-!
# The chip's framing and its inverse

A reference encoder for receive aggregates: the records in order, each padded to a multiple of
eight bytes, filler up to the descriptor table, one little-endian descriptor per entry, filler
again, and the trailer with the number of descriptors and the offset of their table.  The driver
inverts it: a completed transfer that carries an encoded aggregate is loaded, and the receive calls
that follow return exactly the frames of its good records.
-/

namespace Ax88179Aroma.Driver

open Effect Program

/-! ## Reference encoder -/

/-- One descriptor with the bytes of its record.  A dummy descriptor has no bytes.  `low` and
`spare` are the descriptor bits that the driver ignores. -/
structure RxEntry where
  bytes : List UInt8
  padding : List UInt8
  low : ℕ
  crcErr : Bool
  spare : Bool
  dropErr : Bool
  length_le : bytes.length ≤ 8191
  padding_length : bytes.length + padding.length = (bytes.length + 7) / 8 * 8
  low_lt : low < 2 ^ 16

namespace RxEntry

def descriptor (entry : RxEntry) : ℕ :=
  entry.low + entry.bytes.length * 2 ^ 16 + entry.crcErr.toNat * 2 ^ 29 +
    entry.spare.toNat * 2 ^ 30 + entry.dropErr.toNat * 2 ^ 31

/-- The frame between the two alignment bytes and the four bytes of FCS. -/
def frame (entry : RxEntry) : List UInt8 :=
  (entry.bytes.drop 2).take (entry.bytes.length - 6)

/-- The record carries neither error flag and a frame of 14 to `maxLength` bytes. -/
def Delivered (entry : RxEntry) (maxLength : ℤ) : Prop :=
  entry.crcErr = false ∧ entry.dropErr = false ∧ 6 ≤ entry.bytes.length ∧
    14 ≤ (entry.bytes.length : ℤ) - 6 ∧ (entry.bytes.length : ℤ) - 6 ≤ maxLength

instance (entry : RxEntry) (maxLength : ℤ) : Decidable (entry.Delivered maxLength) :=
  inferInstanceAs (Decidable (_ ∧ _))

end RxEntry

/-- Four bytes, least significant first. -/
def leBytes (value : ℕ) : List UInt8 :=
  [UInt8.ofNat value, UInt8.ofNat (value / 2 ^ 8), UInt8.ofNat (value / 2 ^ 16),
    UInt8.ofNat (value / 2 ^ 24)]

/-- The frames that a caller with room for `maxLength` bytes is to receive, in order. -/
def deliverable (maxLength : ℤ) (entries : List RxEntry) : List (List UInt8) :=
  (entries.filter fun entry ↦ entry.Delivered maxLength).map RxEntry.frame

def encodeRecords (entries : List RxEntry) : List UInt8 :=
  entries.flatMap fun entry ↦ entry.bytes ++ entry.padding

def encodeTable (entries : List RxEntry) : List UInt8 :=
  entries.flatMap fun entry ↦ leBytes entry.descriptor

/-- What the chip sends in one transfer. -/
structure RxAggregate where
  entries : List RxEntry
  gap : List UInt8
  tail : List UInt8
  nonempty : entries ≠ []
  table_lt : (encodeRecords entries).length + gap.length < 2 ^ 16
  size_le : (encodeRecords entries).length + gap.length + 4 * entries.length + tail.length + 4 ≤
    rxBufferSize

namespace RxAggregate

/-- Offset of the descriptor table. -/
def table (aggregate : RxAggregate) : ℕ :=
  (encodeRecords aggregate.entries).length + aggregate.gap.length

/-- `count | offset << 16` -/
def trailer (aggregate : RxAggregate) : ℕ :=
  aggregate.entries.length ||| aggregate.table <<< 16

def encode (aggregate : RxAggregate) : List UInt8 :=
  encodeRecords aggregate.entries ++ aggregate.gap ++ encodeTable aggregate.entries ++
    aggregate.tail ++ leBytes aggregate.trailer

end RxAggregate

@[simp]
theorem deliverable_cons (maxLength : ℤ) (entry : RxEntry) (rest : List RxEntry) :
    deliverable maxLength (entry :: rest) =
      if entry.Delivered maxLength then entry.frame :: deliverable maxLength rest
      else deliverable maxLength rest := by
  unfold deliverable
  rw [List.filter_cons]
  by_cases hdelivered : entry.Delivered maxLength
  · simp [hdelivered]
  · simp [hdelivered]

/-! ## Words and flags -/

theorem le32_eq (memory : Memory) (first : ℕ) :
    le32 memory first = (memory first).toNat + (memory (first + 1)).toNat * 2 ^ 8 +
      (memory (first + 2)).toNat * 2 ^ 16 + (memory (first + 3)).toNat * 2 ^ 24 := by
  have h0 := (memory first).toNat_lt
  have h1 := (memory (first + 1)).toNat_lt
  have h2 := (memory (first + 2)).toNat_lt
  unfold le32
  generalize (memory first).toNat = b0 at *
  generalize (memory (first + 1)).toNat = b1 at *
  generalize (memory (first + 2)).toNat = b2 at *
  generalize (memory (first + 3)).toNat = b3 at *
  have hlow : b0 ||| b1 <<< 8 = b1 <<< 8 + b0 := by
    rw [Nat.or_comm, Nat.shiftLeft_add_eq_or_of_lt h0]
  have hmid : b0 ||| b1 <<< 8 ||| b2 <<< 16 = b2 <<< 16 + (b1 <<< 8 + b0) := by
    have hlt : b1 <<< 8 + b0 < 2 ^ 16 := by
      rw [Nat.shiftLeft_eq]
      omega
    rw [hlow, Nat.or_comm, Nat.shiftLeft_add_eq_or_of_lt hlt]
  have hlt : b2 <<< 16 + (b1 <<< 8 + b0) < 2 ^ 24 := by
    simp only [Nat.shiftLeft_eq]
    omega
  rw [hmid, Nat.or_comm, ← Nat.shiftLeft_add_eq_or_of_lt hlt]
  simp only [Nat.shiftLeft_eq]
  omega

theorem le32_of_leBytes {memory : Memory} {first value : ℕ} (hvalue : value < 2 ^ 32)
    (h : ∀ k byte, (leBytes value)[k]? = some byte → memory (first + k) = byte) :
    le32 memory first = value := by
  have h0 := h 0 _ rfl
  have h1 := h 1 _ rfl
  have h2 := h 2 _ rfl
  have h3 := h 3 _ rfl
  rw [Nat.add_zero] at h0
  rw [le32_eq, h0, h1, h2, h3]
  simp only [UInt8.toNat_ofNat']
  omega

theorem RxEntry.descriptor_lt (entry : RxEntry) : entry.descriptor < 2 ^ 32 := by
  have hlength := entry.length_le
  have hlow := entry.low_lt
  have hcrc := entry.crcErr.toNat_lt
  have hspare := entry.spare.toNat_lt
  have hdrop := entry.dropErr.toNat_lt
  unfold RxEntry.descriptor
  omega

theorem RxEntry.descriptor_length (entry : RxEntry) :
    (entry.descriptor >>> 16) &&& 0x1FFF = entry.bytes.length := by
  have hmask : (0x1FFF : ℕ) = 2 ^ 13 - 1 := rfl
  have hlength := entry.length_le
  have hlow := entry.low_lt
  rw [hmask, Nat.and_two_pow_sub_one_eq_mod, Nat.shiftRight_eq_div_pow]
  unfold RxEntry.descriptor
  omega

theorem and_two_pow_ne_zero (d i : ℕ) : d &&& 2 ^ i ≠ 0 ↔ d / 2 ^ i % 2 = 1 := by
  have hpos : 0 < 2 ^ i := Nat.two_pow_pos i
  rw [Nat.and_two_pow, Nat.testBit_eq_decide_div_mod_eq]
  by_cases hbit : d / 2 ^ i % 2 = 1
  · simp [hbit]
  · simp [hbit]

theorem RxEntry.descriptor_flags (entry : RxEntry) :
    entry.descriptor &&& (axRxhdrCrcErr ||| axRxhdrDropErr) ≠ 0 ↔
      entry.crcErr = true ∨ entry.dropErr = true := by
  have hcrc : axRxhdrCrcErr = 2 ^ 29 := rfl
  have hdrop : axRxhdrDropErr = 2 ^ 31 := rfl
  have hcrcBit : entry.descriptor / 2 ^ 29 % 2 = entry.crcErr.toNat := by
    have hlength := entry.length_le
    have hlow := entry.low_lt
    have hbit := entry.crcErr.toNat_lt
    unfold RxEntry.descriptor
    omega
  have hdropBit : entry.descriptor / 2 ^ 31 % 2 = entry.dropErr.toNat := by
    have hlength := entry.length_le
    have hlow := entry.low_lt
    have hspare := entry.spare.toNat_lt
    have hcrc := entry.crcErr.toNat_lt
    have hbit := entry.dropErr.toNat_lt
    unfold RxEntry.descriptor
    omega
  rw [Nat.and_or_distrib_left, ne_eq, Nat.or_eq_zero_iff, not_and_or, hcrc, hdrop]
  refine or_congr ((and_two_pow_ne_zero _ 29).trans ?_) ((and_two_pow_ne_zero _ 31).trans ?_)
  · rw [hcrcBit, Bool.toNat_eq_one]
  · rw [hdropBit, Bool.toNat_eq_one]

/-! ## The cursor inside an encoded aggregate -/

/-- The memory starts with the given bytes. -/
def Carries (memory : Memory) (bytes : List UInt8) : Prop :=
  ∀ k byte, bytes[k]? = some byte → memory k = byte

theorem Carries.middle {memory : Memory} {before middle after : List UInt8}
    (h : Carries memory (before ++ middle ++ after)) {k : ℕ} {byte : UInt8}
    (hbyte : middle[k]? = some byte) : memory (before.length + k) = byte := by
  refine h (before.length + k) byte ?_
  obtain ⟨hk, -⟩ := List.getElem?_eq_some_iff.mp hbyte
  rw [List.append_assoc, List.getElem?_append_right (Nat.le_add_right _ _),
    Nat.add_sub_cancel_left, List.getElem?_append_left hk, hbyte]

/-- The entries in `done` are behind the cursor and those in `rest` are ahead of it. -/
structure CursorAt (aggregate : RxAggregate) (done rest : List RxEntry) (ax : Ax88179) : Prop where
  split : aggregate.entries = done ++ rest
  next : ax.rxNext = done.length
  frames : ax.rxFrames = aggregate.entries.length
  table : ax.rxHdrOffset = aggregate.table
  pos : ax.rxPos = (encodeRecords done).length

@[simp]
theorem encodeRecords_append (left right : List RxEntry) :
    encodeRecords (left ++ right) = encodeRecords left ++ encodeRecords right :=
  List.flatMap_append

@[simp]
theorem encodeTable_append (left right : List RxEntry) :
    encodeTable (left ++ right) = encodeTable left ++ encodeTable right :=
  List.flatMap_append

theorem length_encodeTable (entries : List RxEntry) :
    (encodeTable entries).length = 4 * entries.length := by
  induction entries with
  | nil => rfl
  | cons entry rest ih =>
    have hcons : encodeTable (entry :: rest) = leBytes entry.descriptor ++ encodeTable rest := rfl
    rw [hcons, List.length_append, ih, List.length_cons]
    simp only [leBytes, List.length_cons, List.length_nil]
    omega

theorem length_encodeRecords_cons (entry : RxEntry) (rest : List RxEntry) :
    (encodeRecords (entry :: rest)).length =
      (entry.bytes.length + 7) / 8 * 8 + (encodeRecords rest).length := by
  have hcons : encodeRecords (entry :: rest) =
      entry.bytes ++ entry.padding ++ encodeRecords rest := rfl
  rw [hcons, List.length_append, List.length_append, entry.padding_length]

namespace CursorAt

variable {aggregate : RxAggregate} {done rest : List RxEntry} {entry : RxEntry} {ax : Ax88179}
  {gRx : Memory}

/-- The word at the cursor in the table is the descriptor of the next entry. -/
theorem le32_descriptor (hcursor : CursorAt aggregate done (entry :: rest) ax)
    (hdata : Carries gRx aggregate.encode) :
    le32 gRx (ax.rxHdrOffset + 4 * ax.rxNext) = entry.descriptor := by
  refine le32_of_leBytes entry.descriptor_lt fun k byte hbyte ↦ ?_
  have hsplit : aggregate.encode =
      (encodeRecords aggregate.entries ++ aggregate.gap ++ encodeTable done) ++
        leBytes entry.descriptor ++ (encodeTable rest ++ aggregate.tail ++
          leBytes aggregate.trailer) := by
    have htable : encodeTable aggregate.entries =
        encodeTable done ++ (leBytes entry.descriptor ++ encodeTable rest) := by
      rw [hcursor.split, encodeTable_append]
      rfl
    unfold RxAggregate.encode
    rw [htable]
    simp only [List.append_assoc]
  rw [hsplit] at hdata
  have hbefore : (encodeRecords aggregate.entries ++ aggregate.gap ++ encodeTable done).length =
      ax.rxHdrOffset + 4 * ax.rxNext := by
    rw [List.length_append, List.length_append, length_encodeTable, hcursor.table, hcursor.next]
    rfl
  have hmiddle := hdata.middle hbyte
  rwa [hbefore] at hmiddle

/-- The bytes of the next record start at the data cursor. -/
theorem record_bytes (hcursor : CursorAt aggregate done (entry :: rest) ax)
    (hdata : Carries gRx aggregate.encode) {k : ℕ} {byte : UInt8}
    (hbyte : entry.bytes[k]? = some byte) : gRx (ax.rxPos + k) = byte := by
  have hsplit : aggregate.encode =
      encodeRecords done ++ entry.bytes ++ (entry.padding ++ encodeRecords rest ++
        aggregate.gap ++ encodeTable aggregate.entries ++ aggregate.tail ++
          leBytes aggregate.trailer) := by
    have hrecords : encodeRecords aggregate.entries =
        encodeRecords done ++ (entry.bytes ++ entry.padding ++ encodeRecords rest) := by
      rw [hcursor.split, encodeRecords_append]
      rfl
    unfold RxAggregate.encode
    rw [hrecords]
    simp only [List.append_assoc]
  rw [hsplit] at hdata
  rw [hcursor.pos]
  exact hdata.middle hbyte

/-- The frame of the next record stands two bytes behind the data cursor. -/
theorem slice_frame (hcursor : CursorAt aggregate done (entry :: rest) ax)
    (hdata : Carries gRx aggregate.encode) (hlength : 6 ≤ entry.bytes.length) :
    gRx.slice (ax.rxPos + 2) (entry.bytes.length - 6) = entry.frame := by
  unfold RxEntry.frame
  apply List.ext_getElem
  · rw [Memory.length_slice, List.length_take, List.length_drop]
    omega
  · intro k hleft hright
    rw [Memory.length_slice] at hleft
    have hk : 2 + k < entry.bytes.length := by omega
    simp only [Memory.slice, List.getElem_map, List.getElem_range, List.getElem_take,
      List.getElem_drop]
    rw [Nat.add_assoc]
    exact hcursor.record_bytes hdata (List.getElem?_eq_getElem hk)

/-- The next record ends before the descriptor table. -/
theorem fits (hcursor : CursorAt aggregate done (entry :: rest) ax) :
    ax.rxPos + (entry.bytes.length + 7) / 8 * 8 ≤ ax.rxHdrOffset := by
  have htotal : (encodeRecords aggregate.entries).length =
      ax.rxPos + ((entry.bytes.length + 7) / 8 * 8 + (encodeRecords rest).length) := by
    rw [hcursor.split, encodeRecords_append, List.length_append, length_encodeRecords_cons,
      hcursor.pos]
  have htable := hcursor.table
  unfold RxAggregate.table at htable
  omega

/-- The cursor after one descriptor. -/
def advance (ax : Ax88179) (entry : RxEntry) : Ax88179 :=
  { ax with
    rxNext := ax.rxNext + 1
    rxPos := ax.rxPos + (entry.bytes.length + 7) / 8 * 8 }

theorem advance_cursor (hcursor : CursorAt aggregate done (entry :: rest) ax) :
    CursorAt aggregate (done ++ [entry]) rest (advance ax entry) where
  split := by rw [hcursor.split, List.append_assoc, List.singleton_append]
  next := by simp only [advance, hcursor.next, List.length_append, List.length_singleton]
  frames := hcursor.frames
  table := hcursor.table
  pos := by
    rw [encodeRecords_append, List.length_append, length_encodeRecords_cons, ← hcursor.pos]
    rfl

/-- One turn of the loop on the next entry: a deliverable record gives its frame, everything else
is skipped, and the cursor advances over exactly this entry. -/
theorem unwrapNext_entry (hcursor : CursorAt aggregate done (entry :: rest) ax)
    (hdata : Carries gRx aggregate.encode) (maxLength : ℤ) :
    ∃ reads, unwrapNext gRx maxLength ax =
      if entry.Delivered maxLength then
        (advance ax entry, .frame entry.frame.length entry.frame, reads)
      else (advance ax entry, .skip, reads) := by
  have hfit := hcursor.fits
  unfold unwrapNext
  dsimp only
  rw [hcursor.le32_descriptor hdata, entry.descriptor_length]
  by_cases hzero : entry.bytes.length = 0
  · have hnot : ¬ entry.Delivered maxLength := fun h ↦ by
      have := h.2.2.1
      omega
    simp only [if_pos hzero, if_neg hnot]
    refine ⟨_, Prod.ext ?_ rfl⟩
    simp [advance, hzero]
  · simp only [if_neg hzero, if_neg (not_lt.mpr hfit)]
    by_cases hflags : entry.crcErr = true ∨ entry.dropErr = true
    · have hnot : ¬ entry.Delivered maxLength := fun h ↦ by
        have hcrc := h.1
        have hdrop := h.2.1
        simp [hcrc, hdrop] at hflags
      have herror : entry.descriptor &&& (axRxhdrCrcErr ||| axRxhdrDropErr) ≠ 0 ∨
          (entry.bytes.length : ℤ) - 2 - 4 < 14 := .inl (entry.descriptor_flags.mpr hflags)
      simp only [if_pos herror, if_neg hnot]
      exact ⟨_, rfl⟩
    · have hclear : ¬ entry.descriptor &&& (axRxhdrCrcErr ||| axRxhdrDropErr) ≠ 0 :=
        fun h ↦ hflags (entry.descriptor_flags.mp h)
      obtain ⟨hcrc, hdrop⟩ := not_or.mp hflags
      simp only [Bool.not_eq_true] at hcrc hdrop
      by_cases hshort : (entry.bytes.length : ℤ) - 2 - 4 < 14
      · have hnot : ¬ entry.Delivered maxLength := fun h ↦ by
          have := h.2.2.2.1
          omega
        have herror : entry.descriptor &&& (axRxhdrCrcErr ||| axRxhdrDropErr) ≠ 0 ∨
            (entry.bytes.length : ℤ) - 2 - 4 < 14 := .inr hshort
        simp only [if_pos herror, if_neg hnot]
        exact ⟨_, rfl⟩
      · simp only [if_neg (not_or.mpr ⟨hclear, hshort⟩)]
        by_cases hlong : (entry.bytes.length : ℤ) - 2 - 4 > maxLength
        · have hnot : ¬ entry.Delivered maxLength := fun h ↦ by
            have := h.2.2.2.2
            omega
          simp only [if_pos hlong, if_neg hnot]
          exact ⟨_, rfl⟩
        · have hdelivered : entry.Delivered maxLength :=
            ⟨hcrc, hdrop, by omega, by omega, by omega⟩
          have hcount : ((entry.bytes.length : ℤ) - 2 - 4).toNat = entry.bytes.length - 6 := by
            omega
          have hslice := hcursor.slice_frame hdata hdelivered.2.2.1
          have hframe : (entry.frame.length : ℤ) = (entry.bytes.length : ℤ) - 2 - 4 := by
            rw [← hslice, Memory.length_slice]
            omega
          simp only [if_neg hlong, if_pos hdelivered, hcount, hslice, hframe]
          exact ⟨_, rfl⟩

/-- A receive call returns the first deliverable frame ahead of the cursor, or 0 when there is
none, and leaves a cursor that stands before the rest. -/
theorem receive (hcursor : CursorAt aggregate done rest ax)
    (hdata : Carries gRx aggregate.encode) {maxLength : ℤ} (hmax : 14 ≤ maxLength) :
    let out := receiveBufferedImpl gRx maxLength ax
    ∃ done' rest', CursorAt aggregate done' rest' out.1 ∧
      deliverable maxLength rest' = (deliverable maxLength rest).tail ∧
      out.2.1 = match deliverable maxLength rest with
        | [] => ⟨0, []⟩
        | frame :: _ => ⟨frame.length, frame⟩ := by
  induction rest generalizing done ax with
  | nil =>
    have hend : ¬ ax.rxNext < ax.rxFrames := by
      rw [hcursor.next, hcursor.frames, hcursor.split, List.append_nil]
      exact lt_irrefl _
    rw [receiveBufferedImpl_eq hmax, if_neg hend]
    exact ⟨done, [], hcursor, rfl, rfl⟩
  | cons entry rest ih =>
    have hmore : ax.rxNext < ax.rxFrames := by
      rw [hcursor.next, hcursor.frames, hcursor.split, List.length_append, List.length_cons]
      omega
    obtain ⟨reads, hstep⟩ := hcursor.unwrapNext_entry hdata maxLength
    rw [receiveBufferedImpl_eq hmax, if_pos hmore, hstep]
    by_cases hdelivered : entry.Delivered maxLength
    · rw [deliverable_cons, if_pos hdelivered, if_pos hdelivered]
      exact ⟨_, rest, hcursor.advance_cursor, rfl, rfl⟩
    · rw [deliverable_cons, if_neg hdelivered, if_neg hdelivered]
      exact ih hcursor.advance_cursor

end CursorAt

/-! ## Loading and receiving -/

/-- `count` successive `ax88179_receive_buffered` calls. -/
def receiveBufferedTimes (maxLength : ℤ) : ℕ → DriverM (List Received)
  | 0 => pure []
  | count + 1 => do
    let first ← ax88179ReceiveBuffered maxLength
    let rest ← receiveBufferedTimes maxLength count
    pure (first :: rest)

/-- The results of `count` calls that deliver the given frames and then nothing. -/
def deliveries (frames : List (List UInt8)) : ℕ → List Received
  | 0 => []
  | count + 1 =>
    match frames with
    | [] => ⟨0, []⟩ :: deliveries [] count
    | frame :: rest => ⟨frame.length, frame⟩ :: deliveries rest count

theorem wp_receiveBufferedTimes {aggregate : RxAggregate} {done rest : List RxEntry}
    {maxLength : ℤ} (hmax : 14 ≤ maxLength) {x : UhsMachine}
    (hcursor : CursorAt aggregate done rest x.mem.ax)
    (hdata : Carries x.mem.gRx aggregate.encode) (count : ℕ) :
    wp uhsReply (fun _ _ ↦ True) (receiveBufferedTimes maxLength count)
      (fun results _ ↦ results = deliveries (deliverable maxLength rest) count) x := by
  induction count generalizing done rest x with
  | zero => rfl
  | succ count ih =>
    obtain ⟨done', rest', hcursor', hahead, hresult⟩ := hcursor.receive hdata hmax
    have hnext : deliveries (deliverable maxLength rest) (count + 1) =
        (receiveBufferedImpl x.mem.gRx maxLength x.mem.ax).2.1 ::
          deliveries (deliverable maxLength rest') count := by
      rw [hresult, hahead]
      cases deliverable maxLength rest <;> rfl
    simp only [receiveBufferedTimes, ax88179ReceiveBuffered, note, wp_bind, wp_access, wp_perform,
      wp_pure, true_and]
    intro answer y hreply
    cases hreply
    refine wp_mono (ih hcursor' hdata) fun results z hresults ↦ ?_
    rw [hnext, hresults]

theorem RxAggregate.length_encode (aggregate : RxAggregate) : aggregate.encode.length =
    aggregate.table + 4 * aggregate.entries.length + aggregate.tail.length + 4 := by
  simp only [RxAggregate.encode, RxAggregate.table, List.length_append, length_encodeTable,
    leBytes, List.length_cons, List.length_nil]

/-- The trailer of an encoded aggregate is read back, and its table is accepted. -/
theorem axRxLoadAggregate_encode (aggregate : RxAggregate) {gRx : Memory}
    (hdata : Carries gRx aggregate.encode) (ax : Ax88179) :
    (axRxLoadAggregate gRx aggregate.encode.length ax).2.1 = 1 ∧
      CursorAt aggregate [] aggregate.entries
        (axRxLoadAggregate gRx aggregate.encode.length ax).1 := by
  have hsize := aggregate.size_le
  have htable := aggregate.table_lt
  have hpositive := List.length_pos_of_ne_nil aggregate.nonempty
  have hcount : aggregate.entries.length < 2 ^ 16 := by
    unfold rxBufferSize at hsize
    omega
  have htrailer : aggregate.trailer = aggregate.table * 2 ^ 16 + aggregate.entries.length := by
    unfold RxAggregate.trailer
    rw [Nat.or_comm, ← Nat.shiftLeft_add_eq_or_of_lt hcount, Nat.shiftLeft_eq]
  have hlength := aggregate.length_encode
  have hword : le32 gRx (aggregate.encode.length - 4) =
      aggregate.table * 2 ^ 16 + aggregate.entries.length := by
    rw [← htrailer]
    refine le32_of_leBytes ?_ fun k byte hbyte ↦ ?_
    · rw [htrailer]
      unfold RxAggregate.table
      omega
    · have hlast : aggregate.encode = (encodeRecords aggregate.entries ++ aggregate.gap ++
          encodeTable aggregate.entries ++ aggregate.tail) ++ leBytes aggregate.trailer ++ [] := by
        rw [List.append_nil]
        rfl
      have hbefore : (encodeRecords aggregate.entries ++ aggregate.gap ++
          encodeTable aggregate.entries ++ aggregate.tail).length =
            aggregate.encode.length - 4 := by
        rw [hlength]
        simp only [RxAggregate.table, List.length_append, length_encodeTable]
        omega
      rw [hlast] at hdata
      have hmiddle := hdata.middle hbyte
      rwa [hbefore] at hmiddle
  have hframes : (aggregate.table * 2 ^ 16 + aggregate.entries.length) &&& 0xFFFF =
      aggregate.entries.length := by
    have hmask : (0xFFFF : ℕ) = 2 ^ 16 - 1 := rfl
    rw [hmask, Nat.and_two_pow_sub_one_eq_mod]
    omega
  have hoffset : ((aggregate.table * 2 ^ 16 + aggregate.entries.length) >>> 16) &&& 0xFFFF =
      aggregate.table := by
    have hmask : (0xFFFF : ℕ) = 2 ^ 16 - 1 := rfl
    rw [hmask, Nat.and_two_pow_sub_one_eq_mod, Nat.shiftRight_eq_div_pow]
    unfold RxAggregate.table
    omega
  unfold axRxLoadAggregate
  dsimp only
  rw [hword, hframes, hoffset, if_neg (by omega), if_neg (by omega)]
  exact ⟨rfl, ⟨rfl, rfl, rfl, rfl, rfl⟩⟩

/-- A submission leaves the snapshot and the cursor alone. -/
theorem wp_axRxSubmitSlot (index : SlotIndex) (x : UhsMachine) :
    wp uhsReply (fun _ _ ↦ True) (axRxSubmitSlot index)
      (fun _ y ↦ y.mem.gRx = x.mem.gRx) x := by
  simp only [axRxSubmitSlot, wp_bind, wp_store, wp_perform, wp_ite, wp_pure, true_and]
  intro answer y hreply
  cases hreply
  split <;> rfl

/-- The consumed slot holds a completed transfer with the encoded bytes of an aggregate. -/
structure Completed (aggregate : RxAggregate) (x : UhsMachine) : Prop where
  state : (x.mem.gRxSlots x.mem.ax.rxConsume).state = .done
  ret : 0 ≤ (x.mem.gRxSlots x.mem.ax.rxConsume).ret
  actual : (x.mem.gRxSlots x.mem.ax.rxConsume).actual = aggregate.encode.length
  data : Carries (x.world.buffers x.mem.ax.rxConsume) aggregate.encode

theorem Carries.of_slice {source target : Memory} {bytes : List UInt8}
    (hsource : Carries source bytes)
    (hslice : target.slice 0 bytes.length = source.slice 0 bytes.length) :
    Carries target bytes := by
  intro k byte hbyte
  obtain ⟨hk, -⟩ := List.getElem?_eq_some_iff.mp hbyte
  rw [← hsource k byte hbyte]
  exact Memory.eq_of_slice hslice hk

/-- `ax_rx_take_completed` loads an encoded aggregate and returns 1, whether or not its slot can be
submitted again. -/
theorem wp_axRxTakeCompleted_encode {aggregate : RxAggregate} {x : UhsMachine}
    (hx : Completed aggregate x) :
    wp uhsReply (fun _ _ ↦ True) axRxTakeCompleted
      (fun loaded y ↦ loaded = 1 ∧ CursorAt aggregate [] aggregate.entries y.mem.ax ∧
        Carries y.mem.gRx aggregate.encode) x := by
  have hsize : aggregate.encode.length ≤ rxBufferSize := by
    rw [aggregate.length_encode]
    exact aggregate.size_le
  have hgood : ¬ ((x.mem.gRxSlots x.mem.ax.rxConsume).ret < 0 ∨
      (x.mem.gRxSlots x.mem.ax.rxConsume).actual < 4 ∨
        (x.mem.gRxSlots x.mem.ax.rxConsume).actual > rxBufferSize) := by
    have hret := hx.ret
    rw [hx.actual]
    rw [aggregate.length_encode] at *
    omega
  simp only [axRxTakeCompleted, axRxTakeDone, note, wp_bind, wp_load, wp_ite, wp_perform, wp_pure, wp_store,
    wp_access, true_and, hx.state, ne_eq, not_true_eq_false, if_false]
  intro consumed y hconsume
  cases hconsume
  rw [if_neg hgood]
  intro copied z hcopy
  simp only [uhsReply, hx.actual] at hcopy ⊢
  split at hcopy
  · rename_i hslice
    cases hcopy
    refine wp_mono (wp_axRxSubmitSlot _ _) fun submitted z hsubmit answer w hnote ↦ ?_
    cases hnote
    have hdata : Carries z.mem.gRx aggregate.encode := by
      rw [hsubmit]
      refine (hx.data.of_slice hslice).of_slice ?_
      exact Memory.slice_congr fun index _ hindex ↦ Memory.copy_of_lt (by omega)
    obtain ⟨hloaded, hcursor⟩ := axRxLoadAggregate_encode aggregate hdata z.mem.ax
    exact ⟨hloaded, hcursor, hdata⟩
  · cases hcopy

/-! ## Round trip -/

/-- `ax_rx_take_completed` and then `count` calls of `ax88179_receive_buffered`. -/
def takeThenReceive (maxLength : ℤ) (count : ℕ) : DriverM (ℤ × List Received) := do
  let loaded ← axRxTakeCompleted
  let results ← receiveBufferedTimes maxLength count
  pure (loaded, results)

theorem exists_uhsReply (request : UhsCall) (x : UhsMachine) :
    ∃ answer y, uhsReply request answer x = some y := by
  cases request with
  | handle request => exact ⟨{}, _, rfl⟩
  | memcpyBuffer index count => exact ⟨{ bytes := x.world.buffers index }, x, if_pos rfl⟩
  | osWaitEventWithTimeout timeoutUs => exact ⟨{}, x, rfl⟩
  | submitBulkRequestAsync index => exact ⟨{}, _, rfl⟩
  | osInitEvent => exact ⟨{}, _, rfl⟩
  | note event => exact ⟨{}, _, rfl⟩
  | submitControlRequest read cmd value index size data => exact ⟨{}, _, rfl⟩
  | osSleepMs ms => exact ⟨{}, _, rfl⟩

theorem total_note (event : RxNote) : Total (note event) :=
  (total_perform _).bind fun _ ↦ total_pure _

theorem total_axRxSubmitSlot (index : SlotIndex) : Total (axRxSubmitSlot index) := by
  refine (total_store _).bind fun _ ↦ (total_store _).bind fun _ ↦ (total_perform _).bind fun _ ↦ ?_
  refine .ite (fun _ ↦ ?_) fun _ ↦ total_pure _
  exact (total_store _).bind fun _ ↦ (total_store _).bind fun _ ↦ total_pure _

theorem total_axRxTakeCompleted : Total axRxTakeCompleted := by
  refine (total_load _).bind fun index ↦ (total_load _).bind fun state ↦ ?_
  refine .ite (fun _ ↦ total_pure _) fun _ ↦ ?_
  refine (total_load _).bind fun ret ↦ (total_load _).bind fun actual ↦ ?_
  refine (total_note _).bind fun _ ↦ (total_store _).bind fun _ ↦ .ite (fun _ ↦ ?_) fun _ ↦ ?_
  · refine (total_store _).bind fun _ ↦ (total_axRxSubmitSlot index).bind fun _ ↦ total_pure _
  · refine (total_perform _).bind fun _ ↦ (total_store _).bind fun _ ↦ (total_store _).bind fun _ ↦ ?_
    refine (total_axRxSubmitSlot index).bind fun _ ↦ (total_access _).bind fun _ ↦ ?_
    exact (total_note _).bind fun _ ↦ total_pure _

theorem total_receiveBufferedTimes (maxLength : ℤ) (count : ℕ) :
    Total (receiveBufferedTimes maxLength count) := by
  induction count with
  | zero => exact total_pure _
  | succ count ih =>
    have hreceive : Total (ax88179ReceiveBuffered maxLength) :=
      (total_access _).bind fun _ ↦ (total_note _).bind fun _ ↦ total_pure _
    exact hreceive.bind fun _ ↦ ih.bind fun _ ↦ total_pure _

/-- Decoding inverts the chip's framing: from a completed transfer that carries an encoded
aggregate, `ax_rx_take_completed` returns 1, and the receive calls that follow return the frames of
the good records one by one, in order and byte for byte, and 0 from then on. -/
theorem takeThenReceive_encode (aggregate : RxAggregate) {maxLength : ℤ} (hmax : 14 ≤ maxLength)
    {x : UhsMachine} (hx : Completed aggregate x) (count : ℕ) :
    (∃ result y, Exec uhsReply (takeThenReceive maxLength count) x result y) ∧
      ∀ result y, Exec uhsReply (takeThenReceive maxLength count) x result y →
        result = (1, deliveries (deliverable maxLength aggregate.entries) count) := by
  constructor
  · refine Total.exists_exec exists_uhsReply ?_ x
    refine total_axRxTakeCompleted.bind fun _ ↦ ?_
    exact (total_receiveBufferedTimes maxLength count).bind fun _ ↦ total_pure _
  · intro result y hexec
    have hwp : wp uhsReply (fun _ _ ↦ True) (takeThenReceive maxLength count)
        (fun result _ ↦ result =
          (1, deliveries (deliverable maxLength aggregate.entries) count)) x := by
      simp only [takeThenReceive, wp_bind, wp_pure]
      refine wp_mono (wp_axRxTakeCompleted_encode hx) fun loaded z hz ↦ ?_
      obtain ⟨rfl, hcursor, hdata⟩ := hz
      refine wp_mono (wp_receiveBufferedTimes hmax hcursor hdata count) fun results _ hresults ↦ ?_
      rw [hresults]
    exact hexec.post_of_wp hwp

/-- A dummy descriptor, a record with a CRC error, a good record and one that is too long. -/
def mixedAggregate : RxAggregate where
  entries := [
    ⟨[], [], 0, true, false, false, by decide, rfl, by decide⟩,
    ⟨List.replicate 20 9, List.replicate 4 0, 7, true, false, false, by decide, rfl, by decide⟩,
    ⟨[0xEE, 0xEE] ++ List.replicate 14 1 ++ [1, 2, 3, 4], List.replicate 4 0, 0, false, true, false,
      by decide, rfl, by decide⟩,
    ⟨List.replicate 30 5, List.replicate 2 0, 0, false, false, false, by decide, rfl, by decide⟩]
  gap := [0xAA]
  tail := [0xBB, 0xBB]
  nonempty := List.cons_ne_nil _ _
  table_lt := by decide
  size_le := by decide

/-- Slot 0 holds the completed transfer of `aggregate`. -/
def completedMachine (aggregate : RxAggregate) : UhsMachine where
  mem := { gRxSlots := fun _ ↦ { state := .done, actual := aggregate.encode.length } }
  world := { buffers := fun _ ↦ .ofList aggregate.encode }

theorem carries_ofList (bytes : List UInt8) : Carries (.ofList bytes) bytes := by
  intro k byte hbyte
  rw [Memory.ofList, List.getD_eq_getElem?_getD, hbyte, Option.getD_some]

theorem takeThenReceive_encode_mixed :
    Completed mixedAggregate (completedMachine mixedAggregate) ∧
      (∃ result y, Exec uhsReply (takeThenReceive 20 3) (completedMachine mixedAggregate) result y) ∧
      ∀ result y, Exec uhsReply (takeThenReceive 20 3) (completedMachine mixedAggregate) result y →
        result = (1, [⟨14, List.replicate 14 1⟩, ⟨0, []⟩, ⟨0, []⟩]) := by
  have hx : Completed mixedAggregate (completedMachine mixedAggregate) :=
    ⟨rfl, le_refl 0, rfl, carries_ofList _⟩
  have hmax : (14 : ℤ) ≤ 20 := by decide
  exact ⟨hx, takeThenReceive_encode mixedAggregate hmax hx 3⟩

end Ax88179Aroma.Driver
