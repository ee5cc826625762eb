import Ax88179Aroma.Dns.Message
import Ax88179Aroma.Shim.PtrDns

/-!
# Parsing a reverse DNS response

The part of `ptr_dns_query_server` behind `lwip_recvfrom`: the header checks, the loop over the
questions and the loop over the answers.  Each value that `offset` takes is checked against the
packet.
-/

namespace Ax88179Aroma.Shim

open Effect Dns

def ptrDnsGet16 (packet : Buffer) (index : ℕ) : Except Fault ℕ := do
  let high ← packet.load index
  let low ← packet.load (index + 1)
  return high.toNat <<< 8 ||| low.toNat

/-- The loop over the questions; `none` is −1. -/
def ptrDnsSkipQuestions (packet : Buffer) : ℕ → ℕ → Except Fault (Option ℕ)
  | 0, offset => .ok (some offset)
  | questions + 1, offset => do
    match ← ptrDnsSkipName packet offset with
    | none => return none
    | some offset =>
      let offset ← packet.cursor offset
      if offset + 4 > packet.length then return none
      let offset ← packet.cursor (offset + 4)
      ptrDnsSkipQuestions packet questions offset

/-- The data of a record, decoded only for type 12 and class 1. -/
def ptrDnsDecodeRecord (packet : Buffer) (offset type cls : ℕ) (result : Buffer) :
    Except Fault (ℤ × Buffer) :=
  if type = 12 ∧ cls = 1 then ptrDnsDecodeName packet offset result
  else .ok (-1, result)

/-- The loop over the answers. -/
def ptrDnsReadAnswers (packet : Buffer) : ℕ → ℕ → Buffer → Except Fault (ℤ × Buffer)
  | 0, _, result => .ok (-1, result)
  | answers + 1, offset, result => do
    match ← ptrDnsSkipName packet offset with
    | none => return (-1, result)
    | some offset =>
      let offset ← packet.cursor offset
      if offset + 10 > packet.length then return (-1, result)
      let type ← ptrDnsGet16 packet offset
      let cls ← ptrDnsGet16 packet (offset + 2)
      let rdlen ← ptrDnsGet16 packet (offset + 8)
      let offset ← packet.cursor (offset + 10)
      if offset + rdlen > packet.length then return (-1, result)
      let (code, result) ← ptrDnsDecodeRecord packet offset type cls result
      if code = 0 then return (0, result)
      let offset ← packet.cursor (offset + rdlen)
      ptrDnsReadAnswers packet answers offset result

/-- What `ptr_dns_query_server` makes of the received bytes: the result code and the result
buffer. -/
def ptrDnsReadResponse (packet : Buffer) (id : UInt16) (result : Buffer) :
    Except Fault (ℤ × Buffer) :=
  if packet.length < 12 then .ok (-1, result)
  else do
    let received ← ptrDnsGet16 packet 0
    if received ≠ id.toNat then return (-1, result)
    let flags ← ptrDnsGet16 packet 2
    if flags &&& 0x8000 = 0 ∨ flags &&& 0x0200 ≠ 0 ∨ flags &&& 0x000f ≠ 0 then return (-1, result)
    let questions ← ptrDnsGet16 packet 4
    let answers ← ptrDnsGet16 packet 6
    match ← ptrDnsSkipQuestions packet questions 12 with
    | none => return (-1, result)
    | some offset => ptrDnsReadAnswers packet answers offset result

/-! ## Staying inside the packet -/

theorem exists_get16 {packet : Buffer} {index : ℕ} (h : index + 2 ≤ packet.length) :
    ∃ value, ptrDnsGet16 packet index = .ok value := by
  obtain ⟨high, -, hhigh⟩ := Buffer.exists_load (show index < packet.length by omega)
  obtain ⟨low, -, hlow⟩ := Buffer.exists_load (show index + 1 < packet.length by omega)
  exact ⟨_, by rw [ptrDnsGet16, hhigh, Buffer.ok_bind, hlow]; rfl⟩

theorem ptrDnsSkipQuestions_inside (packet : Buffer) (questions : ℕ) :
    ∀ {offset : ℕ}, offset ≤ packet.length →
      ∃ skipped, ptrDnsSkipQuestions packet questions offset = .ok skipped ∧
        ∀ stop ∈ skipped, stop ≤ packet.length := by
  induction questions with
  | zero =>
    intro offset hoffset
    exact ⟨some offset, rfl, by simpa using hoffset⟩
  | succ questions ih =>
    intro offset hoffset
    obtain ⟨skipped, hskip, hinside⟩ := ptrDnsSkipLabels_inside packet 128 offset
    rw [ptrDnsSkipQuestions, ptrDnsSkipName, hskip, Buffer.ok_bind]
    cases skipped with
    | none => exact ⟨none, rfl, by simp⟩
    | some stop =>
      have hstop := hinside stop rfl
      simp only [Buffer.cursor_eq hstop, Buffer.ok_bind]
      split_ifs with hlong
      · exact ⟨none, rfl, by simp⟩
      · rw [Buffer.cursor_eq (by omega), Buffer.ok_bind]
        exact ih (by omega)

theorem ptrDnsDecodeRecord_inside (packet : Buffer) (offset type cls : ℕ) (result : Buffer) :
    ∃ code after, ptrDnsDecodeRecord packet offset type cls result = .ok (code, after) ∧
      after.length = result.length ∧ (code = 0 ∨ code = -1) := by
  rw [ptrDnsDecodeRecord]
  split
  · by_cases hresult : result.length = 0
    · exact ⟨-1, result, if_pos hresult, rfl, .inr rfl⟩
    · obtain ⟨code, after, hdecode, hsize, hcode⟩ := ptrDnsDecodeName_spec packet offset hresult
      exact ⟨code, after, hdecode, hsize, hcode.imp And.left And.left⟩
  · exact ⟨-1, result, rfl, rfl, .inr rfl⟩

theorem ptrDnsReadAnswers_inside (packet : Buffer) (answers : ℕ) :
    ∀ {offset : ℕ} (result : Buffer), offset ≤ packet.length →
      ∃ code after, ptrDnsReadAnswers packet answers offset result = .ok (code, after) ∧
        after.length = result.length ∧ (code = 0 ∨ code = -1) := by
  induction answers with
  | zero =>
    intro offset result hoffset
    exact ⟨-1, result, rfl, rfl, .inr rfl⟩
  | succ answers ih =>
    intro offset result hoffset
    obtain ⟨skipped, hskip, hinside⟩ := ptrDnsSkipLabels_inside packet 128 offset
    rw [ptrDnsReadAnswers, ptrDnsSkipName, hskip, Buffer.ok_bind]
    cases skipped with
    | none => exact ⟨-1, result, rfl, rfl, .inr rfl⟩
    | some stop =>
      have hstop := hinside stop rfl
      simp only [Buffer.cursor_eq hstop, Buffer.ok_bind]
      split_ifs with hlong
      · exact ⟨-1, result, rfl, rfl, .inr rfl⟩
      obtain ⟨type, htype⟩ := exists_get16 (show stop + 2 ≤ packet.length by omega)
      obtain ⟨cls, hcls⟩ := exists_get16 (show stop + 2 + 2 ≤ packet.length by omega)
      obtain ⟨rdlen, hrdlen⟩ := exists_get16 (show stop + 8 + 2 ≤ packet.length by omega)
      rw [htype, Buffer.ok_bind, hcls, Buffer.ok_bind, hrdlen, Buffer.ok_bind,
        Buffer.cursor_eq (by omega), Buffer.ok_bind]
      split_ifs with hdata
      · exact ⟨-1, result, rfl, rfl, .inr rfl⟩
      obtain ⟨code, after, hdecode, hsize, hcode⟩ :=
        ptrDnsDecodeRecord_inside packet (stop + 10) type cls result
      rw [hdecode, Buffer.ok_bind]
      dsimp only
      split_ifs with hzero
      · exact ⟨0, after, rfl, hsize, .inl rfl⟩
      · rw [Buffer.cursor_eq (by omega), Buffer.ok_bind]
        obtain ⟨code, last, hrest, hlast, hcode⟩ := ih after (show stop + 10 + rdlen ≤ _ by omega)
        exact ⟨code, last, hrest, hlast.trans hsize, hcode⟩

theorem ptrDnsReadResponse_inside (packet : Buffer) (id : UInt16) (result : Buffer) :
    ∃ code after, ptrDnsReadResponse packet id result = .ok (code, after) ∧
      after.length = result.length ∧ (code = 0 ∨ code = -1) := by
  rw [ptrDnsReadResponse]
  split_ifs with hshort
  · exact ⟨-1, result, rfl, rfl, .inr rfl⟩
  obtain ⟨received, hreceived⟩ := exists_get16 (show 0 + 2 ≤ packet.length by omega)
  obtain ⟨flags, hflags⟩ := exists_get16 (show 2 + 2 ≤ packet.length by omega)
  obtain ⟨questions, hquestions⟩ := exists_get16 (show 4 + 2 ≤ packet.length by omega)
  obtain ⟨answers, hanswers⟩ := exists_get16 (show 6 + 2 ≤ packet.length by omega)
  rw [hreceived, Buffer.ok_bind]
  split_ifs with hid
  · exact ⟨-1, result, rfl, rfl, .inr rfl⟩
  rw [hflags, Buffer.ok_bind]
  split_ifs with hbits
  · exact ⟨-1, result, rfl, rfl, .inr rfl⟩
  obtain ⟨skipped, hskip, hinside⟩ :=
    ptrDnsSkipQuestions_inside packet questions (show 12 ≤ packet.length by omega)
  rw [hquestions, Buffer.ok_bind, hanswers, Buffer.ok_bind, hskip, Buffer.ok_bind]
  cases skipped with
  | none => exact ⟨-1, result, rfl, rfl, .inr rfl⟩
  | some stop => exact ptrDnsReadAnswers_inside packet answers result (hinside stop rfl)

/-! ## Finding the record -/

/-- A name can be read from the start of a record's data, wherever in the message its bytes are. -/
def ReadsThrough (packet : Buffer) (outLen : ℕ) (entry : ℕ × Record) (text : List UInt8) : Prop :=
  ∃ stop, ReadsAs packet entry.1 outLen text stop

/-- The data of a record holds a name: the bytes it has in place do not run past the data. -/
def ReadsWithin (packet : Buffer) (outLen : ℕ) (entry : ℕ × Record) (text : List UInt8) : Prop :=
  ∃ stop, ReadsAs packet entry.1 outLen text stop ∧ stop ≤ entry.1 + entry.2.rdata.length

def IsPtr (record : Record) : Prop := record.type = 12 ∧ record.cls = 1

/-- A PTR record whose data decodes, for a notion of decoding. -/
def Names (reads : ℕ × Record → List UInt8 → Prop) (entry : ℕ × Record) : Prop :=
  IsPtr entry.2 ∧ ∃ text, reads entry text

/-- The text that the first PTR record whose data decodes gives. -/
def FirstText (reads : ℕ × Record → List UInt8 → Prop) (entries : List (ℕ × Record))
    (text : List UInt8) : Prop :=
  ∃ before entry after, entries = before ++ entry :: after ∧ (∀ other ∈ before, ¬Names reads other) ∧
    IsPtr entry.2 ∧ reads entry text

/-- The outcome is 0 with the text of the first such record, or −1 if there is none. -/
def FindsFirst (reads : ℕ × Record → List UInt8 → Prop) (entries : List (ℕ × Record))
    (outcome : Except Fault (ℤ × Buffer)) : Prop :=
  ∃ code after, outcome = .ok (code, after) ∧
    ((code = 0 ∧ ∃ text, FirstText reads entries text ∧ after.Holds 0 (text ++ [0])) ∨
      (code = -1 ∧ ∀ entry ∈ entries, ¬Names reads entry))

theorem FindsFirst.cons {reads : ℕ × Record → List UInt8 → Prop} {entry : ℕ × Record}
    {entries : List (ℕ × Record)} {outcome : Except Fault (ℤ × Buffer)}
    (hentry : ¬Names reads entry) (h : FindsFirst reads entries outcome) :
    FindsFirst reads (entry :: entries) outcome := by
  obtain ⟨code, after, houtcome, ⟨rfl, text, hfirst, hholds⟩ | ⟨rfl, hnone⟩⟩ := h
  · obtain ⟨before, found, rest, rfl, hbefore, hfound⟩ := hfirst
    refine ⟨0, after, houtcome, .inl ⟨rfl, text, ⟨entry :: before, found, rest, rfl, ?_, hfound⟩,
      hholds⟩⟩
    intro other hmem
    rcases List.mem_cons.mp hmem with rfl | hmem
    · exact hentry
    · exact hbefore other hmem
  · refine ⟨-1, after, houtcome, .inr ⟨rfl, fun other hmem ↦ ?_⟩⟩
    rcases List.mem_cons.mp hmem with rfl | hmem
    · exact hentry
    · exact hnone other hmem

theorem get16_holds {packet : Buffer} {index value : ℕ} (hvalue : value < 65536)
    (h : packet.Holds index (wire16 value)) : ptrDnsGet16 packet index = .ok value := by
  obtain ⟨hhigh, hrest⟩ := Buffer.holds_cons.mp h
  have hlow := (Buffer.holds_cons.mp hrest).1
  have hbound : (UInt8.ofNat (value % 256)).toNat < 2 ^ 8 := UInt8.toNat_lt _
  rw [ptrDnsGet16, Buffer.load_eq hhigh, Buffer.ok_bind, Buffer.load_eq hlow, Buffer.ok_bind,
    ← Nat.shiftLeft_add_eq_or_of_lt hbound, Nat.shiftLeft_eq, UInt8.toNat_ofNat', UInt8.toNat_ofNat']
  change Except.ok _ = _
  congr 1
  omega

theorem skipName_holds {packet : Buffer} {offset : ℕ} (name : OwnerName)
    (h : packet.Holds offset name.wire) :
    ptrDnsSkipName packet offset = .ok (some (offset + name.wire.length)) :=
  ptrDnsSkipLabels_holds name.ending_valid name.labels_valid (Nat.lt_succ_of_le name.labels_few) h

theorem skipQuestions_holds {packet : Buffer} (questions : List Question) :
    ∀ {offset : ℕ}, packet.Holds offset (questions.flatMap Question.wire) →
      ptrDnsSkipQuestions packet questions.length offset =
        .ok (some (offset + (questions.flatMap Question.wire).length)) := by
  induction questions with
  | nil =>
    intro offset h
    rfl
  | cons question questions ih =>
    intro offset h
    rw [List.flatMap_cons, Buffer.holds_append] at h
    obtain ⟨hhere, hrest⟩ := h
    have hinside := hhere.length_le (List.length_pos_iff.mp question.length_wire_pos)
    have hlength : question.wire.length = question.name.wire.length + 4 := by
      simp [Question.wire]
    have hnext := ih hrest
    rw [Question.wire, Buffer.holds_append] at hhere
    rw [List.length_cons, ptrDnsSkipQuestions, skipName_holds question.name hhere.1, Buffer.ok_bind]
    dsimp only
    rw [Buffer.cursor_eq (by omega), Buffer.ok_bind, if_neg (by omega),
      Buffer.cursor_eq (by omega), Buffer.ok_bind, Nat.add_assoc, ← hlength, hnext,
      List.flatMap_cons, List.length_append, Nat.add_assoc]

theorem isPtr_iff (record : Record) :
    record.type.toNat = 12 ∧ record.cls.toNat = 1 ↔ IsPtr record := by
  rw [IsPtr, ← UInt16.toNat_inj, ← UInt16.toNat_inj (a := record.cls)]
  rfl

theorem decodeRecord_spec (packet : Buffer) (start : ℕ) (record : Record) {result : Buffer}
    (hresult : result.length ≠ 0) :
    ∃ code after, ptrDnsDecodeRecord packet start record.type.toNat record.cls.toNat result =
        .ok (code, after) ∧ after.length = result.length ∧
      ((code = 0 ∧ IsPtr record ∧ ∃ text, ReadsThrough packet result.length (start, record) text ∧
          after.Holds 0 (text ++ [0])) ∨
        (code = -1 ∧ ¬Names (ReadsThrough packet result.length) (start, record))) := by
  by_cases hptr : IsPtr record
  · obtain ⟨code, after, hdecode, hsize, hanswer⟩ := ptrDnsDecodeName_spec packet start hresult
    refine ⟨code, after, (if_pos ((isPtr_iff record).mpr hptr)).trans hdecode, hsize, ?_⟩
    rcases hanswer with ⟨rfl, text, stop, hread, hholds⟩ | ⟨rfl, hnone⟩
    · exact .inl ⟨rfl, hptr, text, ⟨stop, hread⟩, hholds⟩
    · refine .inr ⟨rfl, ?_⟩
      rintro ⟨-, text, stop, hread⟩
      exact hnone text stop hread
  · exact ⟨-1, result, if_neg (mt (isPtr_iff record).mp hptr), rfl, .inr ⟨rfl, fun h ↦ hptr h.1⟩⟩

/-- Reading a record of the message decides whether it names a text, and moves on if not. -/
theorem readAnswers_record {packet : Buffer} {offset answers : ℕ} {record : Record}
    {result : Buffer} {entries : List (ℕ × Record)} (hresult : result.length ≠ 0)
    (hhere : packet.Holds offset record.wire)
    (hrest : ∀ after : Buffer, after.length = result.length →
      FindsFirst (ReadsThrough packet result.length) entries
        (ptrDnsReadAnswers packet answers (offset + record.wire.length) after)) :
    FindsFirst (ReadsThrough packet result.length)
      ((offset + record.name.wire.length + 10, record) :: entries)
      (ptrDnsReadAnswers packet (answers + 1) offset result) := by
  have hinside := hhere.length_le (List.length_pos_iff.mp record.length_wire_pos)
  have hlength : record.wire.length = record.name.wire.length + 10 + record.rdata.length := by
    rw [Record.wire, List.length_append, List.length_append, Record.length_fixed]
    omega
  rw [Record.wire, Buffer.holds_append, Buffer.holds_append, Record.fixed] at hhere
  obtain ⟨hname, hfixed, -⟩ := hhere
  simp only [Buffer.holds_append, List.length_append, length_wire16] at hfixed
  obtain ⟨⟨⟨htype, hcls⟩, -⟩, hrdlen⟩ := hfixed
  set stop := offset + record.name.wire.length with hstop
  have hdata : offset + record.wire.length = stop + 10 + record.rdata.length := by omega
  rw [ptrDnsReadAnswers, skipName_holds record.name hname, Buffer.ok_bind]
  dsimp only
  rw [Buffer.cursor_eq (by omega), Buffer.ok_bind, if_neg (by omega),
    get16_holds record.type.toNat_lt htype, Buffer.ok_bind,
    get16_holds record.cls.toNat_lt hcls, Buffer.ok_bind,
    get16_holds record.rdata_short hrdlen, Buffer.ok_bind,
    Buffer.cursor_eq (by omega), Buffer.ok_bind, if_neg (by omega)]
  obtain ⟨code, after, hdecode, hsize, hanswer⟩ := decodeRecord_spec packet (stop + 10) record hresult
  rw [hdecode, Buffer.ok_bind]
  dsimp only
  rcases hanswer with ⟨rfl, hptr, text, hread, hholds⟩ | ⟨rfl, hno⟩
  · rw [if_pos rfl]
    exact ⟨0, after, rfl, .inl ⟨rfl, text, ⟨[], _, entries, rfl, by simp, hptr, hread⟩, hholds⟩⟩
  · rw [if_neg (by decide), Buffer.cursor_eq (by omega), Buffer.ok_bind, ← hdata]
    exact (hrest after hsize).cons hno

theorem readAnswers_holds {packet : Buffer} (records : List Record) :
    ∀ {offset : ℕ} {result : Buffer}, result.length ≠ 0 →
      packet.Holds offset (records.flatMap Record.wire) →
      FindsFirst (ReadsThrough packet result.length) (placed offset records)
        (ptrDnsReadAnswers packet records.length offset result) := by
  induction records with
  | nil =>
    intro offset result hresult h
    exact ⟨-1, result, rfl, .inr ⟨rfl, by simp [placed]⟩⟩
  | cons record records ih =>
    intro offset result hresult h
    rw [List.flatMap_cons, Buffer.holds_append] at h
    refine readAnswers_record hresult h.1 fun after hsize ↦ ?_
    rw [← hsize] at hresult ⊢
    exact ih hresult h.2

/-- A response with the matching id, not truncated and without an error code. -/
structure IsResponse (message : Message) (id : UInt16) : Prop where
  id_eq : message.id = id
  response : message.flags.toNat &&& 0x8000 ≠ 0
  not_truncated : message.flags.toNat &&& 0x0200 = 0
  no_error : message.flags.toNat &&& 0x000f = 0

/-- On every encoded response the parser finds the first PTR record from whose data a name can be
read. -/
theorem readResponse_finds {message : Message} {id : UInt16} {result : Buffer}
    (hmessage : IsResponse message id) (hsize : message.wire.length ≤ 512)
    (hresult : result.length ≠ 0) :
    FindsFirst (ReadsThrough message.wire result.length) message.placedAnswers
      (ptrDnsReadResponse message.wire id result) := by
  have hquestions := length_le_flatMap Question.length_wire_pos message.questions
  have hanswers := length_le_flatMap Record.length_wire_pos message.answers
  have hlength := message.length_wire
  obtain ⟨packet, hpacket⟩ : ∃ packet : Buffer, packet = message.wire := ⟨_, rfl⟩
  obtain ⟨hheader, hasked, hanswered⟩ := Message.holds_wire hpacket
  rw [← hpacket] at hsize hlength ⊢
  simp only [Message.header, Buffer.holds_append, List.length_append, length_wire16] at hheader
  obtain ⟨⟨⟨⟨⟨hid, hflags⟩, hcount⟩, hcount'⟩, -⟩, -⟩ := hheader
  rw [ptrDnsReadResponse, if_neg (by omega), get16_holds message.id.toNat_lt hid, Buffer.ok_bind,
    if_neg (by rw [hmessage.id_eq]; exact fun h ↦ h rfl),
    get16_holds message.flags.toNat_lt hflags, Buffer.ok_bind,
    if_neg (by rintro (h | h | h)
               · exact hmessage.response h
               · exact h hmessage.not_truncated
               · exact h hmessage.no_error),
    get16_holds (by omega) hcount, Buffer.ok_bind, get16_holds (by omega) hcount', Buffer.ok_bind,
    skipQuestions_holds message.questions hasked, Buffer.ok_bind]
  exact readAnswers_holds message.answers hresult hanswered

/-! ## Names that run past their record -/

/-- The bytes of a C string. -/
def cString (bytes : List UInt8) : List UInt8 := bytes.takeWhile (· != 0)

/-- The outcome is 0 with the name of the first PTR record whose data decodes, read as a C string,
or −1 if there is none. -/
def AnswersWith (reads : ℕ × Record → List UInt8 → Prop) (entries : List (ℕ × Record))
    (outcome : Except Fault (ℤ × Buffer)) : Prop :=
  ∃ code after, outcome = .ok (code, after) ∧
    ((code = 0 ∧ ∃ text, FirstText reads entries text ∧ cString after = cString text) ∨
      (code = -1 ∧ ∀ entry ∈ entries, ¬Names reads entry))

/-- The first PTR record from whose data a name can be read has that name's bytes inside its data,
or spells the same string as the first PTR record that has. -/
def FirstContained (packet : Buffer) (outLen : ℕ) (entries : List (ℕ × Record)) : Prop :=
  ∀ before entry after, entries = before ++ entry :: after →
    (∀ other ∈ before, ¬Names (ReadsThrough packet outLen) other) → IsPtr entry.2 →
    ∀ text stop, ReadsAs packet entry.1 outLen text stop →
      stop ≤ entry.1 + entry.2.rdata.length ∨
        ∃ other, FirstText (ReadsWithin packet outLen) entries other ∧
          cString other = cString text

theorem cString_append_nul (text rest : List UInt8) :
    cString (text ++ 0 :: rest) = cString text := by
  induction text with
  | nil => rfl
  | cons byte text ih =>
    rw [cString, cString, List.cons_append, List.takeWhile_cons, List.takeWhile_cons]
    split
    · exact congrArg (byte :: ·) ih
    · rfl

theorem cString_eq_of_holds {buffer : Buffer} {text : List UInt8}
    (h : buffer.Holds 0 (text ++ [0])) : cString buffer = cString text := by
  have hslice := h.slice
  rw [List.drop_zero] at hslice
  rw [← List.take_append_drop (text ++ [0]).length buffer, hslice, List.append_assoc]
  exact cString_append_nul text _

theorem ReadsWithin.through {packet : Buffer} {outLen : ℕ} {entry : ℕ × Record}
    {text : List UInt8} (h : ReadsWithin packet outLen entry text) :
    ReadsThrough packet outLen entry text := by
  obtain ⟨stop, hread, -⟩ := h
  exact ⟨stop, hread⟩

theorem not_names_within {packet : Buffer} {outLen : ℕ} {entry : ℕ × Record}
    (h : ¬Names (ReadsThrough packet outLen) entry) : ¬Names (ReadsWithin packet outLen) entry := by
  rintro ⟨hptr, text, hread⟩
  exact h ⟨hptr, text, hread.through⟩

/-- Two splits of a list at its first element of a kind are the same. -/
theorem split_unique {α : Type} {kind : α → Prop} {before before' after after' : List α}
    {entry entry' : α} (h : before ++ entry :: after = before' ++ entry' :: after')
    (hbefore : ∀ other ∈ before, ¬kind other) (hbefore' : ∀ other ∈ before', ¬kind other)
    (hentry : kind entry) (hentry' : kind entry') : entry = entry' := by
  induction before generalizing before' with
  | nil =>
    cases before' with
    | nil => exact (List.cons.inj h).1
    | cons first before' =>
      obtain ⟨rfl, -⟩ := List.cons.inj h
      exact absurd hentry (hbefore' _ List.mem_cons_self)
  | cons first before ih =>
    cases before' with
    | nil =>
      obtain ⟨rfl, -⟩ := List.cons.inj h
      exact absurd hentry' (hbefore _ List.mem_cons_self)
    | cons first' before' =>
      obtain ⟨-, h⟩ := List.cons.inj h
      exact ih h (fun other hmem ↦ hbefore other (List.mem_cons_of_mem _ hmem))
        fun other hmem ↦ hbefore' other (List.mem_cons_of_mem _ hmem)

theorem answersWith_iff {packet : Buffer} {outLen : ℕ} {entries : List (ℕ × Record)}
    {outcome : Except Fault (ℤ × Buffer)}
    (h : FindsFirst (ReadsThrough packet outLen) entries outcome) :
    AnswersWith (ReadsWithin packet outLen) entries outcome ↔
      FirstContained packet outLen entries := by
  obtain ⟨code, after, rfl, ⟨rfl, text, ⟨before, entry, rest, rfl, hbefore, hptr, stop, hread⟩,
    hholds⟩ | ⟨rfl, hnone⟩⟩ := h
  · have hstring := cString_eq_of_holds hholds
    constructor
    · rintro ⟨code, after, houtcome, ⟨rfl, other, hfirst, hother⟩ | ⟨rfl, -⟩⟩
      · intro before' entry' rest' hsplit hbefore' hptr' text' stop' hread'
        obtain ⟨-, rfl⟩ := Prod.mk.inj (Except.ok.inj houtcome)
        have hsame : entry = entry' := split_unique hsplit hbefore hbefore'
          ⟨hptr, text, stop, hread⟩ ⟨hptr', text', stop', hread'⟩
        subst hsame
        obtain ⟨rfl, -⟩ := hread.unique hread'
        exact .inr ⟨other, hfirst, hother.symm.trans hstring⟩
      · exact absurd (Prod.mk.inj (Except.ok.inj houtcome)).1 (by decide)
    · intro hcontained
      rcases hcontained before entry rest rfl hbefore hptr text stop hread with
        hstop | ⟨other, hfirst, hother⟩
      · refine ⟨0, after, rfl, .inl ⟨rfl, text, ⟨before, entry, rest, rfl, ?_, hptr, stop, hread,
          hstop⟩, hstring⟩⟩
        exact fun other hmem ↦ not_names_within (hbefore other hmem)
      · exact ⟨0, after, rfl, .inl ⟨rfl, other, hfirst, hstring.trans hother.symm⟩⟩
  · refine iff_of_true ⟨-1, after, rfl, .inr ⟨rfl, fun entry hmem ↦
      not_names_within (hnone entry hmem)⟩⟩ ?_
    rintro before entry rest rfl - hptr text stop hread
    exact absurd ⟨hptr, text, stop, hread⟩ (hnone entry (by simp))

/-- Parsing never leaves the packet, and on every encoded response it answers with the first PTR
record whose data decodes exactly when the first name it can read stays inside its record. -/
theorem ptrDnsReadResponse_answers_iff (packet : Buffer) (id : UInt16) (result : Buffer)
    (hsize : packet.length ≤ 512) :
    (∃ code after, ptrDnsReadResponse packet id result = .ok (code, after) ∧
      after.length = result.length ∧ (code = 0 ∨ code = -1)) ∧
    ∀ message : Message, packet = message.wire → IsResponse message id → result.length ≠ 0 →
      (AnswersWith (ReadsWithin message.wire result.length) message.placedAnswers
          (ptrDnsReadResponse message.wire id result) ↔
        FirstContained message.wire result.length message.placedAnswers) := by
  refine ⟨ptrDnsReadResponse_inside packet id result, ?_⟩
  rintro message rfl hmessage hresult
  exact answersWith_iff (readResponse_finds hmessage hsize hresult)

def rootName : OwnerName :=
  ⟨[], [0], by simp, by decide, isEnding_root⟩

theorem wireB_short : ([1, 98, 0] : List UInt8).length < 65536 := by decide

/-- A PTR record that names `b`. -/
def ptrMessage : Message where
  id := 7
  flags := 0x8000
  questions := []
  answers := [⟨rootName, 12, 1, 0, [1, 98, 0], wireB_short⟩]
  authority := []
  additional := []

theorem ptrDnsReadResponse_answers_iff_ptr :
    AnswersWith (ReadsWithin ptrMessage.wire 8) ptrMessage.placedAnswers
      (ptrDnsReadResponse ptrMessage.wire 7 (List.replicate 8 9)) := by
  refine ((ptrDnsReadResponse_answers_iff ptrMessage.wire 7 (List.replicate 8 9) (by decide)).2
    ptrMessage rfl ⟨rfl, by decide, by decide, by decide⟩ (by decide)).mpr ?_
  intro before entry after hsplit hbefore hptr text stop hread
  have hentry : entry = (23, ⟨rootName, 12, 1, 0, [1, 98, 0], by decide⟩) := by
    have hmem : entry ∈ ptrMessage.placedAnswers := by
      rw [hsplit]
      simp
    exact List.mem_singleton.mp hmem
  subst hentry
  have hwalk : Walk ptrMessage.wire 23 [[98]] 0 26 :=
    Walk.of_holds (by decide) (by unfold Buffer.Holds; decide)
  obtain ⟨labels, pointers, hwalk', -⟩ := hread
  obtain ⟨-, -, rfl⟩ := hwalk.unique hwalk'
  exact .inl (by decide)

/-- An address record after a PTR record without data. -/
def emptyPtrMessage : Message where
  id := 7
  flags := 0x8000
  questions := []
  answers :=
    [⟨rootName, 12, 1, 0, [], by decide⟩,
      ⟨⟨[[97]], [0], by decide, by decide, .inl rfl⟩, 1, 1, 0, [10, 0, 0, 1], by decide⟩]
  authority := []
  additional := []

/-- The owner name of the next record is taken for the missing data of the PTR record. -/
theorem emptyPtr_answers_next_owner :
    ptrDnsReadResponse emptyPtrMessage.wire 7 (List.replicate 8 9) =
        .ok (0, [97, 0, 9, 9, 9, 9, 9, 9]) ∧
      IsResponse emptyPtrMessage 7 ∧ emptyPtrMessage.wire.length ≤ 512 ∧
      ¬AnswersWith (ReadsWithin emptyPtrMessage.wire 8) emptyPtrMessage.placedAnswers
        (ptrDnsReadResponse emptyPtrMessage.wire 7 (List.replicate 8 9)) := by
  have hrun : ptrDnsReadResponse emptyPtrMessage.wire 7 (List.replicate 8 9) =
      .ok (0, [97, 0, 9, 9, 9, 9, 9, 9]) := by decide
  refine ⟨hrun, ⟨rfl, by decide, by decide, by decide⟩, by decide, ?_⟩
  rw [hrun]
  rintro ⟨code, after, houtcome, ⟨rfl, text, hfirst, -⟩ | ⟨rfl, -⟩⟩
  · obtain ⟨before, entry, rest, hsplit, -, hptr, stop, ⟨labels, pointers, hwalk, -⟩, hstop⟩ := hfirst
    have hmem : entry ∈ emptyPtrMessage.placedAnswers := by
      rw [hsplit]
      simp
    have hlt := hwalk.lt_stop
    simp only [Message.placedAnswers, emptyPtrMessage, placed, List.mem_cons, List.not_mem_nil,
      or_false] at hmem
    rcases hmem with rfl | rfl
    · simp at hstop
      omega
    · exact absurd hptr.1 (by decide)
  · exact absurd (Prod.mk.inj (Except.ok.inj houtcome)).1 (by decide)

end Ax88179Aroma.Shim
