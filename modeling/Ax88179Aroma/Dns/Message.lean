import Ax88179Aroma.Dns.Name

/-!
# Domain messages on the wire

A reference encoder for messages: the twelve header bytes, the questions, and the records of the
three sections.  Owner names stand in plain or compressed form and the data of a record is
arbitrary, so a well-formed message is one that the encoder produces.
-/

namespace Ax88179Aroma.Dns

open Effect

/-- Two bytes, the high one first. -/
def wire16 (value : ℕ) : List UInt8 := [UInt8.ofNat (value / 256), UInt8.ofNat (value % 256)]

/-- A name in the form it has in place: labels, then a zero byte or a pointer. -/
structure OwnerName where
  labels : List (List UInt8)
  ending : List UInt8
  labels_valid : ∀ label ∈ labels, IsLabel label
  labels_few : labels.length ≤ 127
  ending_valid : IsEnding ending

def OwnerName.wire (name : OwnerName) : List UInt8 := labelsWire name.labels ++ name.ending

structure Question where
  name : OwnerName
  type : UInt16
  cls : UInt16

def Question.wire (question : Question) : List UInt8 :=
  question.name.wire ++ (wire16 question.type.toNat ++ wire16 question.cls.toNat)

structure Record where
  name : OwnerName
  type : UInt16
  cls : UInt16
  ttl : UInt32
  rdata : List UInt8
  rdata_short : rdata.length < 65536

/-- Type, class, time to live and data length. -/
def Record.fixed (record : Record) : List UInt8 :=
  wire16 record.type.toNat ++ wire16 record.cls.toNat ++
    (wire16 (record.ttl.toNat / 65536) ++ wire16 (record.ttl.toNat % 65536)) ++
    wire16 record.rdata.length

def Record.wire (record : Record) : List UInt8 :=
  record.name.wire ++ (record.fixed ++ record.rdata)

structure Message where
  id : UInt16
  flags : UInt16
  questions : List Question
  answers : List Record
  authority : List Record
  additional : List Record

def Message.header (message : Message) : List UInt8 :=
  wire16 message.id.toNat ++ wire16 message.flags.toNat ++ wire16 message.questions.length ++
    wire16 message.answers.length ++ wire16 message.authority.length ++
    wire16 message.additional.length

def Message.wire (message : Message) : List UInt8 :=
  message.header ++ (message.questions.flatMap Question.wire ++
    (message.answers.flatMap Record.wire ++
      (message.authority.flatMap Record.wire ++ message.additional.flatMap Record.wire)))

/-- The records of a section that starts at a position, each with the position of its data. -/
def placed : ℕ → List Record → List (ℕ × Record)
  | _, [] => []
  | start, record :: records =>
    (start + record.name.wire.length + 10, record) :: placed (start + record.wire.length) records

/-- The answers, each with the position of its data in the encoded message. -/
def Message.placedAnswers (message : Message) : List (ℕ × Record) :=
  placed (12 + (message.questions.flatMap Question.wire).length) message.answers

@[simp]
theorem length_wire16 (value : ℕ) : (wire16 value).length = 2 := rfl

@[simp]
theorem Record.length_fixed (record : Record) : record.fixed.length = 10 := by
  simp [fixed]

@[simp]
theorem Message.length_header (message : Message) : message.header.length = 12 := by
  simp [header]

theorem Message.holds_wire {message : Message} {packet : Buffer} (h : packet = message.wire) :
    packet.Holds 0 message.header ∧ packet.Holds 12 (message.questions.flatMap Question.wire) ∧
      packet.Holds (12 + (message.questions.flatMap Question.wire).length)
        (message.answers.flatMap Record.wire) := by
  have hwhole : packet.Holds 0 message.wire := by
    rw [← h]
    exact packet.holds_self
  rw [wire, Buffer.holds_append, Buffer.holds_append, Buffer.holds_append, length_header,
    Nat.zero_add] at hwhole
  exact ⟨hwhole.1, hwhole.2.1, hwhole.2.2.1⟩

theorem Message.length_wire (message : Message) :
    message.wire.length = 12 + ((message.questions.flatMap Question.wire).length +
      ((message.answers.flatMap Record.wire).length +
        ((message.authority.flatMap Record.wire).length +
          (message.additional.flatMap Record.wire).length))) := by
  simp only [wire, List.length_append, length_header]

theorem IsEnding.length_pos {bytes : List UInt8} (h : IsEnding bytes) : 0 < bytes.length := by
  rcases h with rfl | ⟨high, low, rfl, -⟩
  · exact Nat.succ_pos _
  · exact Nat.succ_pos _

theorem OwnerName.length_wire_pos (name : OwnerName) : 0 < name.wire.length := by
  have hending := name.ending_valid.length_pos
  rw [wire, List.length_append]
  omega

/-- A section takes at least as many bytes as it has entries. -/
theorem length_le_flatMap {α : Type} {wire : α → List UInt8} (hwire : ∀ a, 0 < (wire a).length)
    (entries : List α) : entries.length ≤ (entries.flatMap wire).length := by
  induction entries with
  | nil => exact Nat.le_refl _
  | cons entry entries ih =>
    have hentry := hwire entry
    rw [List.flatMap_cons, List.length_append, List.length_cons]
    omega

theorem Question.length_wire_pos (question : Question) : 0 < question.wire.length := by
  have hname := question.name.length_wire_pos
  rw [wire, List.length_append]
  omega

theorem Record.length_wire_pos (record : Record) : 0 < record.wire.length := by
  have hname := record.name.length_wire_pos
  rw [wire, List.length_append]
  omega

end Ax88179Aroma.Dns
