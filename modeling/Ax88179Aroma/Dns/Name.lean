import Ax88179Aroma.Effect.Buffer

/-!
# Domain names on the wire

A name is a list of labels.  Its plain wire form is each label after its length byte, closed by a
zero byte; its text joins the labels by dots.  In a message the rest of a name may be replaced by
a two-byte pointer to another place of the message, so what a name says is given by a walk through
the message.
-/

namespace Ax88179Aroma.Dns

open Effect

def dot : UInt8 := 46

/-- A label that a length byte can announce. -/
def IsLabel (label : List UInt8) : Prop := 0 < label.length ∧ label.length ≤ 63

instance (label : List UInt8) : Decidable (IsLabel label) :=
  inferInstanceAs (Decidable (_ ∧ _))

/-- A label that can also stand in a dotted C string. -/
structure IsTextLabel (label : List UInt8) : Prop where
  isLabel : IsLabel label
  no_dot : dot ∉ label
  no_nul : 0 ∉ label

def labelWire (label : List UInt8) : List UInt8 := UInt8.ofNat label.length :: label

def labelsWire (labels : List (List UInt8)) : List UInt8 := labels.flatMap labelWire

/-- The plain wire form of a name. -/
def nameWire (labels : List (List UInt8)) : List UInt8 := labelsWire labels ++ [0]

/-- The text of a name, without a trailing dot. -/
def dotted (labels : List (List UInt8)) : List UInt8 := List.intercalate [dot] labels

/-- One more label behind a text. -/
def joinLabel (text label : List UInt8) : List UInt8 :=
  if text = [] then label else text ++ dot :: label

/-- The bytes that may end a name in place: the zero byte, or a pointer. -/
def IsEnding (bytes : List UInt8) : Prop :=
  bytes = [0] ∨ ∃ high low : UInt8, bytes = [high, low] ∧ 192 ≤ high.toNat

theorem isEnding_root : IsEnding [0] := .inl rfl

/-- The labels of the name at a position, the pointers followed on the way, and the position after
the bytes that stand in place. -/
inductive Walk (packet : Buffer) : ℕ → List (List UInt8) → ℕ → ℕ → Prop
  | root {position : ℕ} (hbyte : packet[position]? = some 0) :
      Walk packet position [] 0 (position + 1)
  | label {position pointers stop : ℕ} {length : UInt8} {labels : List (List UInt8)}
      (hbyte : packet[position]? = some length) (hpos : 0 < length.toNat)
      (hshort : length.toNat ≤ 63) (hinside : position + 1 + length.toNat ≤ packet.length)
      (hrest : Walk packet (position + 1 + length.toNat) labels pointers stop) :
      Walk packet position ((packet.drop (position + 1)).take length.toNat :: labels) pointers stop
  | pointer {position pointers stop : ℕ} {high low : UInt8} {labels : List (List UInt8)}
      (hhigh : packet[position]? = some high) (htag : 192 ≤ high.toNat)
      (hlow : packet[position + 1]? = some low)
      (hinside : (high.toNat - 192) * 256 + low.toNat < packet.length)
      (hrest : Walk packet ((high.toNat - 192) * 256 + low.toNat) labels pointers stop) :
      Walk packet position labels (pointers + 1) (position + 2)

@[simp]
theorem labelsWire_nil : labelsWire [] = [] := rfl

@[simp]
theorem labelsWire_cons (label : List UInt8) (labels : List (List UInt8)) :
    labelsWire (label :: labels) = labelWire label ++ labelsWire labels := rfl

@[simp]
theorem length_labelWire (label : List UInt8) : (labelWire label).length = label.length + 1 := rfl

theorem length_nameWire (labels : List (List UInt8)) :
    (nameWire labels).length = (labelsWire labels).length + 1 := by
  simp [nameWire]

theorem IsLabel.ne_nil {label : List UInt8} (h : IsLabel label) : label ≠ [] :=
  List.length_pos_iff.mp h.1

theorem IsLabel.toNat_length {label : List UInt8} (h : IsLabel label) :
    (UInt8.ofNat label.length).toNat = label.length := by
  have hsmall := h.2
  rw [UInt8.toNat_ofNat']
  omega

/-- Every label takes at least two bytes on the wire. -/
theorem two_mul_length_le {labels : List (List UInt8)} (h : ∀ label ∈ labels, IsLabel label) :
    2 * labels.length ≤ (labelsWire labels).length := by
  induction labels with
  | nil => simp
  | cons label labels ih =>
    have hrest := ih fun other hmem ↦ h other (List.mem_cons_of_mem _ hmem)
    have hlabel := (h label List.mem_cons_self).1
    simp only [labelsWire_cons, List.length_append, length_labelWire, List.length_cons]
    omega

theorem dotted_cons_cons (label next : List UInt8) (labels : List (List UInt8)) :
    dotted (label :: next :: labels) = label ++ dot :: dotted (next :: labels) := by
  simp [dotted, List.intercalate, List.intersperse]

theorem dotted_singleton (label : List UInt8) : dotted [label] = label := by
  simp [dotted, List.intercalate, List.intersperse]

theorem length_joinLabel_le (text label : List UInt8) :
    text.length ≤ (joinLabel text label).length := by
  rw [joinLabel]
  split
  · simp_all
  · simp

theorem foldl_joinLabel_of_ne_nil {text : List UInt8} (htext : text ≠ []) :
    ∀ labels : List (List UInt8), labels.foldl joinLabel text = dotted (text :: labels) := by
  intro labels
  induction labels generalizing text with
  | nil => exact (dotted_singleton text).symm
  | cons label labels ih =>
    have hjoin : joinLabel text label = text ++ dot :: label := if_neg htext
    rw [List.foldl_cons, hjoin, ih (by simp)]
    cases labels with
    | nil => rw [dotted_singleton, dotted_cons_cons, dotted_singleton]
    | cons next labels =>
      rw [dotted_cons_cons, dotted_cons_cons, dotted_cons_cons, List.append_assoc]
      rfl

/-- Adding the labels one by one gives the text of the name. -/
theorem foldl_joinLabel {labels : List (List UInt8)} (h : ∀ label ∈ labels, IsLabel label) :
    labels.foldl joinLabel [] = dotted labels := by
  cases labels with
  | nil => rfl
  | cons label labels =>
    exact foldl_joinLabel_of_ne_nil (h label List.mem_cons_self).ne_nil labels

theorem length_le_foldl_joinLabel (text : List UInt8) (labels : List (List UInt8)) :
    text.length ≤ (labels.foldl joinLabel text).length := by
  induction labels generalizing text with
  | nil => exact Nat.le_refl _
  | cons label labels ih => exact Nat.le_trans (length_joinLabel_le text label) (ih _)

/-- The text of a name is two bytes shorter than its wire form. -/
theorem length_dotted {labels : List (List UInt8)} (h : labels ≠ []) :
    (dotted labels).length + 1 = (labelsWire labels).length := by
  induction labels with
  | nil => exact absurd rfl h
  | cons label rest ih =>
    cases rest with
    | nil => simp [dotted_singleton]
    | cons next rest =>
      have hrest := ih (List.cons_ne_nil _ _)
      rw [dotted_cons_cons, labelsWire_cons, List.length_append, List.length_append,
        List.length_cons, length_labelWire]
      omega

namespace Walk

variable {packet : Buffer}

theorem isLabel {position pointers stop : ℕ} {labels : List (List UInt8)}
    (h : Walk packet position labels pointers stop) : ∀ label ∈ labels, IsLabel label := by
  induction h with
  | root hbyte => simp
  | label hbyte hpos hshort hinside hrest ih =>
    intro label hmem
    rcases List.mem_cons.mp hmem with rfl | hmem
    · rw [IsLabel, Buffer.length_slice_le hinside]
      exact ⟨hpos, hshort⟩
    · exact ih label hmem
  | pointer hhigh htag hlow hinside hrest ih => exact ih

/-- What the byte at the position says about the walk. -/
theorem cases_byte {position pointers stop : ℕ} {labels : List (List UInt8)} {byte : UInt8}
    (h : Walk packet position labels pointers stop) (hbyte : packet[position]? = some byte) :
    (byte = 0 ∧ labels = [] ∧ pointers = 0 ∧ stop = position + 1) ∨
    (0 < byte.toNat ∧ byte.toNat ≤ 63 ∧ position + 1 + byte.toNat ≤ packet.length ∧
      ∃ rest, labels = (packet.drop (position + 1)).take byte.toNat :: rest ∧
        Walk packet (position + 1 + byte.toNat) rest pointers stop) ∨
    (192 ≤ byte.toNat ∧ ∃ low count stop', packet[position + 1]? = some low ∧
      (byte.toNat - 192) * 256 + low.toNat < packet.length ∧ pointers = count + 1 ∧
      stop = position + 2 ∧
      Walk packet ((byte.toNat - 192) * 256 + low.toNat) labels count stop') := by
  cases h with
  | root hzero =>
    obtain rfl : byte = 0 := by simpa [hbyte] using hzero
    exact .inl ⟨rfl, rfl, rfl, rfl⟩
  | label hlength hpos hshort hinside hrest =>
    obtain rfl := Option.some.inj (hbyte.symm.trans hlength)
    exact .inr (.inl ⟨hpos, hshort, hinside, _, rfl, hrest⟩)
  | pointer hhigh htag hlow hinside hrest =>
    obtain rfl := Option.some.inj (hbyte.symm.trans hhigh)
    exact .inr (.inr ⟨htag, _, _, _, hlow, hinside, rfl, rfl, hrest⟩)

theorem lt_length {position pointers stop : ℕ} {labels : List (List UInt8)}
    (h : Walk packet position labels pointers stop) : position < packet.length := by
  cases h with
  | root hbyte => exact Buffer.lt_length_of_getElem? hbyte
  | label hbyte => exact Buffer.lt_length_of_getElem? hbyte
  | pointer hhigh => exact Buffer.lt_length_of_getElem? hhigh

/-- A name takes at least one byte in place. -/
theorem lt_stop {position pointers stop : ℕ} {labels : List (List UInt8)}
    (h : Walk packet position labels pointers stop) : position < stop := by
  induction h with
  | root hbyte => omega
  | label hbyte hpos hshort hinside hrest ih => omega
  | pointer hhigh htag hlow hinside hrest ih => omega

/-- A packet gives at most one walk from a position. -/
theorem unique {position pointers stop pointers' stop' : ℕ} {labels labels' : List (List UInt8)}
    (h : Walk packet position labels pointers stop)
    (h' : Walk packet position labels' pointers' stop') :
    labels' = labels ∧ pointers' = pointers ∧ stop' = stop := by
  induction h generalizing labels' pointers' stop' with
  | root hbyte =>
    rcases h'.cases_byte hbyte with ⟨-, rfl, rfl, rfl⟩ | ⟨hpos, -⟩ | ⟨htag, -⟩
    · exact ⟨rfl, rfl, rfl⟩
    · exact absurd hpos (by decide)
    · exact absurd htag (by decide)
  | label hbyte hpos hshort hinside hrest ih =>
    rcases h'.cases_byte hbyte with ⟨rfl, -⟩ | ⟨-, -, -, rest, rfl, hwalk⟩ | ⟨htag, -⟩
    · exact absurd hpos (by decide)
    · obtain ⟨rfl, rfl, rfl⟩ := ih hwalk
      exact ⟨rfl, rfl, rfl⟩
    · omega
  | pointer hhigh htag hlow hinside hrest ih =>
    rcases h'.cases_byte hhigh with ⟨rfl, -⟩ | ⟨-, hshort, -⟩ |
      ⟨-, low, count, stop, hlow', -, rfl, rfl, hwalk⟩
    · exact absurd htag (by decide)
    · omega
    · obtain rfl := Option.some.inj (hlow.symm.trans hlow')
      obtain ⟨rfl, rfl, -⟩ := ih hwalk
      exact ⟨rfl, rfl, rfl⟩

/-- A plain name is walked in place. -/
theorem of_holds {position : ℕ} {labels : List (List UInt8)}
    (hlabels : ∀ label ∈ labels, IsLabel label)
    (h : packet.Holds position (nameWire labels)) :
    Walk packet position labels 0 (position + (nameWire labels).length) := by
  induction labels generalizing position with
  | nil => exact Walk.root (Buffer.holds_cons.mp h).1
  | cons label labels ih =>
    have hlabel := hlabels label List.mem_cons_self
    have hlength := hlabel.toNat_length
    rw [nameWire, labelsWire_cons, List.append_assoc, Buffer.holds_append, labelWire,
      Buffer.holds_cons, List.length_cons] at h
    obtain ⟨⟨hbyte, hbytes⟩, hrest⟩ := h
    rw [show position + (label.length + 1) = position + 1 + label.length by omega] at hrest
    have hwalk := ih (fun other hmem ↦ hlabels other (List.mem_cons_of_mem _ hmem)) hrest
    have hstep := Walk.label hbyte (by rw [hlength]; exact hlabel.1) (by rw [hlength]; exact hlabel.2)
      (by rw [hlength]; exact hbytes.length_le hlabel.ne_nil) (by rw [hlength]; exact hwalk)
    rw [hlength, hbytes.slice] at hstep
    rw [length_nameWire, labelsWire_cons, List.length_append, length_labelWire]
    rw [length_nameWire] at hstep
    convert hstep using 1
    omega

end Walk

end Ax88179Aroma.Dns
