import Ax88179Aroma.Dns.Message

/-!
# Reverse lookups

The query for the host name of an address, and what a server may send back.  A name of the domain
name system fits 255 bytes on the wire; the name that stands for an address is its four bytes in
decimal, the last one first, under `in-addr.arpa`.
-/

namespace Ax88179Aroma.Dns

open Effect

/-- A name within the limits of the domain name system. -/
structure DomainName where
  labels : List (List UInt8)
  labels_valid : ∀ label ∈ labels, IsLabel label
  short : (nameWire labels).length ≤ 255

theorem DomainName.labels_few (name : DomainName) : name.labels.length ≤ 127 := by
  have htwo := two_mul_length_le name.labels_valid
  have hwire := length_nameWire name.labels
  have hshort := name.short
  omega

theorem DomainName.length_dotted_le (name : DomainName) : (dotted name.labels).length ≤ 253 := by
  have hwire := length_nameWire name.labels
  have hshort := name.short
  by_cases hempty : name.labels = []
  · rw [hempty]
    exact Nat.zero_le _
  · have htext := length_dotted hempty
    omega

/-- The name written out in place. -/
def DomainName.owner (name : DomainName) : OwnerName :=
  ⟨name.labels, [0], name.labels_valid, name.labels_few, isEnding_root⟩

@[simp]
theorem DomainName.wire_owner (name : DomainName) : name.owner.wire = nameWire name.labels := rfl

/-- A recursive query for the records of a name that point to another name. -/
def ptrQuery (id : UInt16) (name : DomainName) : Message where
  id := id
  flags := 0x0100
  questions := [⟨name.owner, 12, 1⟩]
  answers := []
  authority := []
  additional := []

theorem wire_ptrQuery (id : UInt16) (name : DomainName) :
    (ptrQuery id name).wire =
      wire16 id.toNat ++ wire16 0x0100 ++ wire16 1 ++ List.replicate 6 0 ++ nameWire name.labels ++
        wire16 12 ++ wire16 1 := by
  simp only [Message.wire, Message.header, ptrQuery, Question.wire, List.flatMap_cons,
    List.flatMap_nil, List.append_nil, List.length_cons, List.length_nil, DomainName.wire_owner,
    List.append_assoc]
  rfl

/-! ## The name of an address -/

/-- The bytes of an ASCII text. -/
def ascii (text : String) : List UInt8 := text.toList.map fun c ↦ UInt8.ofNat c.toNat

/-- A byte in decimal. -/
def decimal (n : ℕ) : List UInt8 := ascii (toString n)

theorem ascii_append (first second : String) :
    ascii (first ++ second) = ascii first ++ ascii second := by
  simp [ascii]

theorem decimal_eq_digits (n : ℕ) :
    decimal n = (Nat.toDigits 10 n).map fun c ↦ UInt8.ofNat c.toNat := by
  simp [decimal, ascii, toString, Nat.repr]

theorem decimal_spec : ∀ n < 256, dot ∉ decimal n ∧ 0 ∉ decimal n ∧ 0 < (decimal n).length ∧
    (decimal n).length ≤ 3 := by
  simp only [decimal_eq_digits]
  decide +kernel

theorem isTextLabel_decimal {n : ℕ} (h : n < 256) : IsTextLabel (decimal n) := by
  obtain ⟨hdot, hnul, hpos, hshort⟩ := decimal_spec n h
  exact ⟨⟨hpos, by omega⟩, hdot, hnul⟩

/-- The labels that stand for the address with these four bytes. -/
def reverseLabels (octets : List ℕ) : List (List UInt8) :=
  octets.reverse.map decimal ++ [ascii "in-addr", ascii "arpa"]

theorem isTextLabel_of_mem_reverseLabels {octets : List ℕ} (h : ∀ n ∈ octets, n < 256)
    {label : List UInt8} (hmem : label ∈ reverseLabels octets) : IsTextLabel label := by
  rcases List.mem_append.mp hmem with hmem | hmem
  · obtain ⟨n, hn, rfl⟩ := List.mem_map.mp hmem
    exact isTextLabel_decimal (h n (List.mem_reverse.mp hn))
  · rcases List.mem_cons.mp hmem with rfl | hmem
    · exact ⟨by decide, by decide, by decide⟩
    · obtain rfl := List.mem_singleton.mp hmem
      exact ⟨by decide, by decide, by decide⟩

theorem length_labelsWire_append (first second : List (List UInt8)) :
    (labelsWire (first ++ second)).length =
      (labelsWire first).length + (labelsWire second).length := by
  simp [labelsWire]

theorem length_labelsWire_decimal_le (octets : List ℕ) (h : ∀ n ∈ octets, n < 256) :
    (labelsWire (octets.map decimal)).length ≤ 4 * octets.length := by
  induction octets with
  | nil => exact Nat.le_refl _
  | cons n octets ih =>
    have hrest := ih fun other hmem ↦ h other (List.mem_cons_of_mem _ hmem)
    have hdigits := (decimal_spec n (h n List.mem_cons_self)).2.2.2
    rw [List.map_cons, labelsWire_cons, List.length_append, length_labelWire, List.length_cons]
    omega

theorem length_reverseLabels_le {octets : List ℕ} (h : ∀ n ∈ octets, n < 256) :
    (nameWire (reverseLabels octets)).length ≤ 4 * octets.length + 14 := by
  have hdigits := length_labelsWire_decimal_le octets.reverse fun n hmem ↦
    h n (List.mem_reverse.mp hmem)
  rw [List.length_reverse] at hdigits
  have hzone : (labelsWire [ascii "in-addr", ascii "arpa"]).length = 13 := by decide
  rw [length_nameWire, reverseLabels, length_labelsWire_append]
  omega

theorem reverseLabels_ne_nil (octets : List ℕ) : reverseLabels octets ≠ [] := by
  simp [reverseLabels]

end Ax88179Aroma.Dns
