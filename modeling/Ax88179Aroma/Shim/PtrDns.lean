import Mathlib.Data.Int.Basic
import Mathlib.Data.List.TakeWhile
import Ax88179Aroma.Dns.Name

/-!
# Names in the reverse DNS client

The shim's own small DNS client encodes the reverse name of its query, skips the owner names of a
response and decodes the name that a PTR record carries.  The three loops are embedded with checked
accesses to the packet and to the result buffer; a packet, a capacity and a result length of the
source are here a buffer and its length.  Positions are natural numbers: all of them lie in one
packet.
-/

namespace Ax88179Aroma.Shim

open Effect Dns

/-- The `while (*cur)` loop of `ptr_dns_encode_name`: whether it did not return −1, the packet and
the position reached. -/
def ptrDnsEncodeLabels (packet : Buffer) (pos : ℕ) (cur : List UInt8) :
    Except Fault (Bool × Buffer × ℕ) :=
  if cur = [] then .ok (true, packet, pos)
  else
    let label := cur.takeWhile (· != dot)
    let n := label.length
    if n = 0 ∨ n > 63 ∨ pos + 1 + n ≥ packet.length then .ok (false, packet, pos)
    else do
      let packet ← packet.storeMany pos [UInt8.ofNat n]
      let packet ← packet.storeMany (pos + 1) label
      match hrest : cur.dropWhile (· != dot) with
      | [] => .ok (true, packet, pos + 1 + n)
      | _ :: rest => ptrDnsEncodeLabels packet (pos + 1 + n) rest
termination_by cur.length
decreasing_by
  have hlength := congrArg List.length hrest
  have hle := (List.dropWhile_suffix (l := cur) (· != dot)).length_le
  rw [List.length_cons] at hlength
  omega

/-- The result code, the packet and the offset, which moves only on success.  The name is the bytes
of the C string before its NUL. -/
def ptrDnsEncodeName (packet : Buffer) (offset : ℕ) (name : List UInt8) :
    Except Fault (ℤ × Buffer × ℕ) := do
  let (ok, packet, pos) ← ptrDnsEncodeLabels packet offset name
  if ok = false then return (-1, packet, offset)
  if pos ≥ packet.length then return (-1, packet, offset)
  let packet ← packet.storeMany pos [0]
  return (0, packet, pos + 1)

/-- The `for` loop of `ptr_dns_skip_name`, at most as many rounds as given; `none` is −1. -/
def ptrDnsSkipLabels (packet : Buffer) : ℕ → ℕ → Except Fault (Option ℕ)
  | 0, _ => .ok none
  | rounds + 1, pos =>
    if pos ≥ packet.length then .ok none
    else do
      let c ← packet.load pos
      if c = 0 then return some (pos + 1)
      if c &&& 0xc0 = 0xc0 then
        if pos + 1 ≥ packet.length then return none
        return some (pos + 2)
      if c &&& 0xc0 ≠ 0 ∨ c > 63 ∨ pos + 1 + c.toNat > packet.length then return none
      ptrDnsSkipLabels packet rounds (pos + 1 + c.toNat)

/-- The offset after the name. -/
def ptrDnsSkipName (packet : Buffer) (offset : ℕ) : Except Fault (Option ℕ) :=
  ptrDnsSkipLabels packet 128 offset

/-- `if (used)`: the dot before every label but the first; `none` is −1. -/
def ptrDnsPutDot (used : ℕ) (out : Buffer) : Except Fault (Option (ℕ × Buffer)) :=
  if used = 0 then .ok (some (used, out))
  else if used + 1 ≥ out.length then .ok none
  else do
    let out ← out.storeMany used [dot]
    return some (used + 1, out)

/-- The `while (labels++ < 128)` loop of `ptr_dns_decode_name`, at most as many rounds as given:
the result code and the result buffer. -/
def ptrDnsDecodeLabels (packet : Buffer) :
    ℕ → ℕ → ℕ → ℕ → Buffer → Except Fault (ℤ × Buffer)
  | 0, _, _, _, out => .ok (-1, out)
  | rounds + 1, pos, used, jumps, out =>
    if pos ≥ packet.length then .ok (-1, out)
    else do
      let c ← packet.load pos
      if c = 0 then
        let out ← out.storeMany used [0]
        return (0, out)
      if c &&& 0xc0 = 0xc0 then
        if pos + 1 ≥ packet.length ∨ jumps + 1 > 32 then return (-1, out)
        let low ← packet.load (pos + 1)
        let target := (c &&& 0x3f).toNat <<< 8 ||| low.toNat
        if target ≥ packet.length then return (-1, out)
        ptrDnsDecodeLabels packet rounds target used (jumps + 1) out
      else
        if c &&& 0xc0 ≠ 0 ∨ c > 63 ∨ pos + 1 + c.toNat > packet.length then return (-1, out)
        match ← ptrDnsPutDot used out with
        | none => return (-1, out)
        | some (used, out) =>
          if used + c.toNat ≥ out.length then return (-1, out)
          let label ← packet.loadMany (pos + 1) c.toNat
          let out ← out.storeMany used label
          ptrDnsDecodeLabels packet rounds (pos + 1 + c.toNat) (used + c.toNat) jumps out

/-- The result code and the result buffer; an empty buffer also stands for a missing one. -/
def ptrDnsDecodeName (packet : Buffer) (offset : ℕ) (out : Buffer) : Except Fault (ℤ × Buffer) :=
  if out.length = 0 then .ok (-1, out)
  else ptrDnsDecodeLabels packet 128 offset 0 0 out

/-! ## Length bytes and pointers -/

theorem forall_uint8 {motive : UInt8 → Prop} (h : ∀ n < 256, motive (UInt8.ofNat n)) (c : UInt8) :
    motive c := by
  have hc := h c.toNat c.toNat_lt
  rwa [UInt8.ofNat_toNat] at hc

theorem pointerTag_iff (c : UInt8) : c &&& 0xc0 = 0xc0 ↔ 192 ≤ c.toNat := by
  revert c
  exact forall_uint8 (by decide +kernel)

theorem labelTag_iff (c : UInt8) : (c &&& 0xc0 ≠ 0 ∨ c > 63) ↔ 64 ≤ c.toNat := by
  revert c
  exact forall_uint8 (by decide +kernel)

theorem pointerMask_eq (c : UInt8) : 192 ≤ c.toNat → (c &&& 0x3f).toNat = c.toNat - 192 := by
  revert c
  exact forall_uint8 (by decide +kernel)

theorem pointerTarget_eq {c low : UInt8} (hc : 192 ≤ c.toNat) :
    (c &&& 0x3f).toNat <<< 8 ||| low.toNat = (c.toNat - 192) * 256 + low.toNat := by
  have hlow : low.toNat < 2 ^ 8 := low.toNat_lt
  rw [← Nat.shiftLeft_add_eq_or_of_lt hlow, Nat.shiftLeft_eq, pointerMask_eq c hc]

theorem toNat_pos_of_ne_zero {c : UInt8} (hc : c ≠ 0) : 0 < c.toNat := by
  rcases Nat.eq_zero_or_pos c.toNat with hzero | hpos
  · exact absurd (UInt8.toNat_inj.mp hzero) hc
  · exact hpos

/-! ## Skipping -/

/-- Skipping stays inside the packet. -/
theorem ptrDnsSkipLabels_inside (packet : Buffer) (rounds : ℕ) :
    ∀ pos, ∃ skipped, ptrDnsSkipLabels packet rounds pos = .ok skipped ∧
      ∀ stop ∈ skipped, stop ≤ packet.length := by
  induction rounds with
  | zero =>
    intro pos
    exact ⟨none, rfl, by simp⟩
  | succ rounds ih =>
    intro pos
    rw [ptrDnsSkipLabels]
    by_cases hend : pos ≥ packet.length
    · rw [if_pos hend]
      exact ⟨none, rfl, by simp⟩
    obtain ⟨c, hbyte, hload⟩ := Buffer.exists_load (Nat.not_le.mp hend)
    rw [if_neg hend, hload, Buffer.ok_bind]
    split_ifs with hzero htag hshort hbad
    · exact ⟨_, rfl, by simp; omega⟩
    · exact ⟨none, rfl, by simp⟩
    · exact ⟨_, rfl, by simp; omega⟩
    · exact ⟨none, rfl, by simp⟩
    · exact ih _

/-- A name in place, of fewer labels than rounds, is skipped as a whole. -/
theorem ptrDnsSkipLabels_holds {packet : Buffer} {ending : List UInt8} (hending : IsEnding ending)
    {labels : List (List UInt8)} (hlabels : ∀ label ∈ labels, IsLabel label) :
    ∀ {rounds pos : ℕ}, labels.length < rounds →
      packet.Holds pos (labelsWire labels ++ ending) →
      ptrDnsSkipLabels packet rounds pos =
        .ok (some (pos + (labelsWire labels ++ ending).length)) := by
  induction labels with
  | nil =>
    intro rounds pos hrounds hholds
    obtain ⟨rounds, rfl⟩ := Nat.exists_eq_succ_of_ne_zero (Nat.ne_of_gt hrounds)
    rw [labelsWire_nil, List.nil_append] at hholds ⊢
    rcases hending with rfl | ⟨high, low, rfl, htag⟩
    · have hbyte := (Buffer.holds_cons.mp hholds).1
      have hlt := Buffer.lt_length_of_getElem? hbyte
      rw [ptrDnsSkipLabels, if_neg (by omega), Buffer.load_eq hbyte, Buffer.ok_bind, if_pos rfl]
      rfl
    · obtain ⟨hbyte, hrest⟩ := Buffer.holds_cons.mp hholds
      have hlt := Buffer.lt_length_of_getElem? (Buffer.holds_cons.mp hrest).1
      have hzero : high ≠ 0 := by
        rintro rfl
        exact absurd htag (by decide)
      rw [ptrDnsSkipLabels, if_neg (by omega), Buffer.load_eq hbyte, Buffer.ok_bind, if_neg hzero,
        if_pos ((pointerTag_iff high).mpr htag), if_neg (by omega)]
      rfl
  | cons label labels ih =>
    intro rounds pos hrounds hholds
    obtain ⟨rounds, rfl⟩ := Nat.exists_eq_succ_of_ne_zero (show rounds ≠ 0 by omega)
    have hlabel := hlabels label List.mem_cons_self
    have hlength := hlabel.toNat_length
    have hpos := hlabel.1
    have hshort := hlabel.2
    rw [labelsWire_cons, List.append_assoc, Buffer.holds_append, labelWire, Buffer.holds_cons,
      List.length_cons] at hholds
    obtain ⟨⟨hbyte, hbytes⟩, hrest⟩ := hholds
    have hinside := hbytes.length_le hlabel.ne_nil
    have hzero : UInt8.ofNat label.length ≠ 0 := by
      intro h
      rw [h] at hlength
      exact absurd hlength.symm (Nat.ne_of_gt hpos)
    have hnext := ih (fun other hmem ↦ hlabels other (List.mem_cons_of_mem _ hmem))
      (Nat.lt_of_succ_lt_succ hrounds) hrest
    rw [ptrDnsSkipLabels, if_neg (by omega), Buffer.load_eq hbyte, Buffer.ok_bind, if_neg hzero,
      if_neg (by rw [pointerTag_iff]; omega), if_neg (by rw [← or_assoc, labelTag_iff]; omega),
      hlength, show pos + 1 + label.length = pos + (label.length + 1) by omega, hnext,
      labelsWire_cons, List.append_assoc, @List.length_append _ (labelWire label),
      length_labelWire, Nat.add_assoc pos]

/-! ## Decoding -/

/-- What stands in front of the next label. -/
def lead (text : List UInt8) : List UInt8 := if text = [] then [] else text ++ [dot]

theorem joinLabel_eq_lead (text label : List UInt8) : joinLabel text label = lead text ++ label := by
  rw [joinLabel, lead]
  split <;> simp

theorem ptrDnsPutDot_spec {text : List UInt8} {out : Buffer} (htext : out.Holds 0 text) :
    (out.length ≤ (lead text).length ∧ ptrDnsPutDot text.length out = .ok none) ∨
    ∃ after, ptrDnsPutDot text.length out = .ok (some ((lead text).length, after)) ∧
      after.length = out.length ∧ after.Holds 0 (lead text) := by
  rw [ptrDnsPutDot, lead]
  by_cases hempty : text = []
  · rw [if_pos (List.length_eq_zero_iff.mpr hempty), if_pos hempty, hempty]
    exact .inr ⟨out, rfl, rfl, Buffer.holds_nil _ _⟩
  · rw [if_neg (mt List.length_eq_zero_iff.mp hempty), if_neg hempty]
    have hlength : (text ++ [dot]).length = text.length + 1 := List.length_append
    rw [hlength]
    by_cases hfull : text.length + 1 ≥ out.length
    · exact .inl ⟨hfull, if_pos hfull⟩
    · rw [if_neg hfull]
      have hinside : text.length + [dot].length ≤ out.length := by
        rw [List.length_singleton]
        omega
      obtain ⟨after, hstore, hsize, hdot, hsame⟩ := Buffer.exists_storeMany hinside
      refine .inr ⟨after, by rw [hstore]; rfl, hsize, ?_⟩
      rw [Buffer.holds_append, Nat.zero_add]
      exact ⟨htext.congr fun index _ hlt ↦ hsame index (.inl (by omega)), hdot⟩

/-- The walk from a position ends within the loop's limits: the text read so far and the labels
still met fit the result buffer. -/
structure Legible (packet : Buffer) (rounds pos jumps : ℕ) (text : List UInt8) (room : ℕ)
    (labels : List (List UInt8)) (pointers stop : ℕ) : Prop where
  walk : Walk packet pos labels pointers stop
  jumps_le : jumps + pointers ≤ 32
  rounds_lt : labels.length + pointers < rounds
  fits : (labels.foldl joinLabel text).length < room

/-- The decoder's answer from a position on is right. -/
def DecodesFrom (packet : Buffer) (rounds pos jumps : ℕ) (text : List UInt8) (out : Buffer)
    (result : Except Fault (ℤ × Buffer)) : Prop :=
  ∃ code after, result = .ok (code, after) ∧ after.length = out.length ∧
    ((code = 0 ∧ ∃ labels pointers stop,
        Legible packet rounds pos jumps text out.length labels pointers stop ∧
        after.Holds 0 (labels.foldl joinLabel text ++ [0])) ∨
      (code = -1 ∧ ∀ labels pointers stop,
        ¬Legible packet rounds pos jumps text out.length labels pointers stop))

section Round

variable {packet : Buffer} {rounds pos jumps : ℕ} {text : List UInt8} {out : Buffer}

theorem DecodesFrom.refuse {after : Buffer} (hsize : after.length = out.length)
    (h : ∀ labels pointers stop,
      ¬Legible packet rounds pos jumps text out.length labels pointers stop) :
    DecodesFrom packet rounds pos jumps text out (.ok (-1, after)) :=
  ⟨-1, after, rfl, hsize, .inr ⟨rfl, h⟩⟩

theorem decodesFrom_root (hroom : text.length < out.length) (htext : out.Holds 0 text)
    (hjumps : jumps ≤ 32) (hbyte : packet[pos]? = some 0) :
    DecodesFrom packet (rounds + 1) pos jumps text out
      (ptrDnsDecodeLabels packet (rounds + 1) pos text.length jumps out) := by
  have hlt := Buffer.lt_length_of_getElem? hbyte
  obtain ⟨after, hstore, hsize, hnul, hsame⟩ :=
    Buffer.exists_storeMany (show text.length + ([0] : List UInt8).length ≤ out.length from hroom)
  rw [ptrDnsDecodeLabels, if_neg (by omega), Buffer.load_eq hbyte, Buffer.ok_bind, if_pos rfl,
    hstore]
  refine ⟨0, after, rfl, hsize, .inl ⟨rfl, [], 0, pos + 1,
    ⟨Walk.root hbyte, hjumps, Nat.succ_pos _, hroom⟩, ?_⟩⟩
  rw [List.foldl_nil, Buffer.holds_append, Nat.zero_add]
  exact ⟨htext.congr fun index _ hindex ↦ hsame index (.inl (by omega)), hnul⟩

theorem decodesFrom_pointer {c low : UInt8} (hbyte : packet[pos]? = some c)
    (htag : 192 ≤ c.toNat) (hjumps : jumps < 32) (hlow : packet[pos + 1]? = some low)
    (htarget : (c.toNat - 192) * 256 + low.toNat < packet.length)
    (hrest : DecodesFrom packet rounds ((c.toNat - 192) * 256 + low.toNat) (jumps + 1) text out
      (ptrDnsDecodeLabels packet rounds ((c.toNat - 192) * 256 + low.toNat) text.length (jumps + 1)
        out)) :
    DecodesFrom packet (rounds + 1) pos jumps text out
      (ptrDnsDecodeLabels packet (rounds + 1) pos text.length jumps out) := by
  have hlt := Buffer.lt_length_of_getElem? hbyte
  have hlt' := Buffer.lt_length_of_getElem? hlow
  have hzero : c ≠ 0 := by
    rintro rfl
    exact absurd htag (by decide)
  rw [ptrDnsDecodeLabels, if_neg (by omega), Buffer.load_eq hbyte, Buffer.ok_bind, if_neg hzero,
    if_pos ((pointerTag_iff c).mpr htag), if_neg (by omega), Buffer.load_eq hlow, Buffer.ok_bind]
  simp only [pointerTarget_eq htag]
  rw [if_neg (by omega)]
  obtain ⟨code, after, hresult, hsize, ⟨rfl, labels, pointers, stop, hread, hholds⟩ |
    ⟨rfl, hnone⟩⟩ := hrest
  · refine ⟨0, after, hresult, hsize, .inl ⟨rfl, labels, pointers + 1, pos + 2, ?_, hholds⟩⟩
    obtain ⟨hwalk, hjumps, hrounds, hfits⟩ := hread
    exact ⟨Walk.pointer hbyte htag hlow htarget hwalk, by omega, by omega, hfits⟩
  · refine ⟨-1, after, hresult, hsize, .inr ⟨rfl, fun labels pointers stop hread ↦ ?_⟩⟩
    obtain ⟨hwalk, hjumps, hrounds, hfits⟩ := hread
    rcases hwalk.cases_byte hbyte with ⟨rfl, -⟩ | ⟨-, hshort, -⟩ |
      ⟨-, low', count, stop', hlow', -, rfl, -, hwalk⟩
    · exact hzero rfl
    · omega
    · obtain rfl := Option.some.inj (hlow.symm.trans hlow')
      exact hnone labels count stop' ⟨hwalk, by omega, by omega, hfits⟩

theorem decodesFrom_pointer_refused {c : UInt8} (hbyte : packet[pos]? = some c)
    (htag : 192 ≤ c.toNat)
    (hbad : ∀ low, packet[pos + 1]? = some low →
      jumps ≥ 32 ∨ (c.toNat - 192) * 256 + low.toNat ≥ packet.length) :
    DecodesFrom packet (rounds + 1) pos jumps text out
      (ptrDnsDecodeLabels packet (rounds + 1) pos text.length jumps out) := by
  have hlt := Buffer.lt_length_of_getElem? hbyte
  have hzero : c ≠ 0 := by
    rintro rfl
    exact absurd htag (by decide)
  have hnone : ∀ labels pointers stop,
      ¬Legible packet (rounds + 1) pos jumps text out.length labels pointers stop := by
    rintro labels pointers stop ⟨hwalk, hjumps, -, -⟩
    rcases hwalk.cases_byte hbyte with ⟨rfl, -⟩ | ⟨-, hshort, -⟩ |
      ⟨-, low, count, stop', hlow, htarget, rfl, -, -⟩
    · exact hzero rfl
    · omega
    · rcases hbad low hlow with h | h <;> omega
  rw [ptrDnsDecodeLabels, if_neg (by omega), Buffer.load_eq hbyte, Buffer.ok_bind, if_neg hzero,
    if_pos ((pointerTag_iff c).mpr htag)]
  split_ifs with hcheck
  · exact .refuse rfl hnone
  · obtain ⟨low, hlow, hload⟩ := Buffer.exists_load (show pos + 1 < packet.length by omega)
    rw [hload, Buffer.ok_bind]
    simp only [pointerTarget_eq htag]
    rw [if_pos (by rcases hbad low hlow with h | h <;> omega)]
    exact .refuse rfl hnone

theorem decodesFrom_label_refused {c : UInt8} (hbyte : packet[pos]? = some c) (hzero : c ≠ 0)
    (htag : c.toNat < 192) (hbad : 64 ≤ c.toNat ∨ pos + 1 + c.toNat > packet.length) :
    DecodesFrom packet (rounds + 1) pos jumps text out
      (ptrDnsDecodeLabels packet (rounds + 1) pos text.length jumps out) := by
  have hlt := Buffer.lt_length_of_getElem? hbyte
  rw [ptrDnsDecodeLabels, if_neg (by omega), Buffer.load_eq hbyte, Buffer.ok_bind, if_neg hzero,
    if_neg (by rw [pointerTag_iff]; omega), if_pos (by rw [← or_assoc, labelTag_iff]; exact hbad)]
  refine .refuse rfl fun labels pointers stop hread ↦ ?_
  rcases hread.walk.cases_byte hbyte with ⟨rfl, -⟩ | ⟨-, hshort, hinside, -⟩ | ⟨hhigh, -⟩
  · exact hzero rfl
  · omega
  · omega

theorem decodesFrom_label {c : UInt8} (htext : out.Holds 0 text) (hbyte : packet[pos]? = some c)
    (hzero : c ≠ 0) (hshort : c.toNat ≤ 63) (hinside : pos + 1 + c.toNat ≤ packet.length)
    (hrest : ∀ after : Buffer, after.length = out.length →
      (joinLabel text ((packet.drop (pos + 1)).take c.toNat)).length < after.length →
      after.Holds 0 (joinLabel text ((packet.drop (pos + 1)).take c.toNat)) →
      DecodesFrom packet rounds (pos + 1 + c.toNat) jumps
        (joinLabel text ((packet.drop (pos + 1)).take c.toNat)) after
        (ptrDnsDecodeLabels packet rounds (pos + 1 + c.toNat)
          (joinLabel text ((packet.drop (pos + 1)).take c.toNat)).length jumps after)) :
    DecodesFrom packet (rounds + 1) pos jumps text out
      (ptrDnsDecodeLabels packet (rounds + 1) pos text.length jumps out) := by
  have hlt := Buffer.lt_length_of_getElem? hbyte
  have hpos := toNat_pos_of_ne_zero hzero
  set label := (packet.drop (pos + 1)).take c.toNat with hlabel
  have hcount : label.length = c.toNat := Buffer.length_slice_le hinside
  have hjoin := joinLabel_eq_lead text label
  have hjoined : (joinLabel text label).length = (lead text).length + c.toNat := by
    rw [hjoin, List.length_append, hcount]
  -- every walk from here reads this label first
  have hfirst : ∀ {labels pointers stop},
      Legible packet (rounds + 1) pos jumps text out.length labels pointers stop →
        ∃ rest, labels = label :: rest ∧
          Legible packet rounds (pos + 1 + c.toNat) jumps (joinLabel text label) out.length rest
            pointers stop := by
    rintro labels pointers stop ⟨hwalk, hjumps, hrounds, hfits⟩
    rcases hwalk.cases_byte hbyte with ⟨rfl, -⟩ | ⟨-, -, -, rest, rfl, hnext⟩ | ⟨htag, -⟩
    · exact absurd rfl hzero
    · rw [List.length_cons] at hrounds
      exact ⟨rest, rfl, hnext, hjumps, by omega, hfits⟩
    · omega
  have htoolong : out.length ≤ (joinLabel text label).length → ∀ labels pointers stop,
      ¬Legible packet (rounds + 1) pos jumps text out.length labels pointers stop := by
    intro hlong labels pointers stop hread
    obtain ⟨rest, rfl, hnext⟩ := hfirst hread
    have hle := length_le_foldl_joinLabel (joinLabel text label) rest
    have hfits := hnext.fits
    omega
  rw [ptrDnsDecodeLabels, if_neg (by omega), Buffer.load_eq hbyte, Buffer.ok_bind, if_neg hzero,
    if_neg (by rw [pointerTag_iff]; omega), if_neg (by rw [← or_assoc, labelTag_iff]; omega)]
  rcases ptrDnsPutDot_spec htext with ⟨hfull, hdot⟩ | ⟨spaced, hdot, hsize, hlead⟩
  · rw [hdot]
    exact .refuse rfl (htoolong (by omega))
  · rw [hdot]
    simp only [Buffer.ok_bind]
    by_cases hfull : (lead text).length + c.toNat ≥ spaced.length
    · rw [if_pos hfull]
      exact .refuse hsize (htoolong (by omega))
    · rw [if_neg hfull, Buffer.loadMany_eq hinside, Buffer.ok_bind, ← hlabel]
      have hroom : (lead text).length + label.length ≤ spaced.length := by omega
      obtain ⟨copied, hcopy, hcopied, hhere, hsame⟩ := Buffer.exists_storeMany hroom
      have hholds : copied.Holds 0 (joinLabel text label) := by
        rw [hjoin, Buffer.holds_append, Nat.zero_add]
        exact ⟨hlead.congr fun index _ hindex ↦ hsame index (.inl (by omega)), hhere⟩
      have hlengths : copied.length = out.length := hcopied.trans hsize
      rw [hcopy, Buffer.ok_bind, ← hjoined]
      obtain ⟨code, after, hresult, hafter, hanswer⟩ :=
        hrest copied hlengths (by omega) hholds
      rw [hlengths] at hafter hanswer
      refine ⟨code, after, hresult, hafter, ?_⟩
      rcases hanswer with ⟨rfl, labels, pointers, stop, hread, hafter⟩ | ⟨rfl, hnone⟩
      · refine .inl ⟨rfl, label :: labels, pointers, stop, ?_, hafter⟩
        obtain ⟨hwalk, hjumps, hrounds, hfits⟩ := hread
        exact ⟨Walk.label hbyte hpos hshort hinside hwalk, hjumps, by rw [List.length_cons]; omega,
          hfits⟩
      · refine .inr ⟨rfl, fun labels pointers stop hread ↦ ?_⟩
        obtain ⟨rest, rfl, hnext⟩ := hfirst hread
        exact hnone rest pointers stop hnext

end Round

theorem ptrDnsDecodeLabels_spec (packet : Buffer) (rounds : ℕ) :
    ∀ {pos jumps : ℕ} {text : List UInt8} {out : Buffer}, text.length < out.length →
      out.Holds 0 text → jumps ≤ 32 →
      DecodesFrom packet rounds pos jumps text out
        (ptrDnsDecodeLabels packet rounds pos text.length jumps out) := by
  induction rounds with
  | zero =>
    intro pos jumps text out hroom htext hjumps
    exact .refuse rfl fun labels pointers stop hread ↦ absurd hread.rounds_lt (Nat.not_lt_zero _)
  | succ rounds ih =>
    intro pos jumps text out hroom htext hjumps
    by_cases hend : pos ≥ packet.length
    · rw [ptrDnsDecodeLabels, if_pos hend]
      exact .refuse rfl fun labels pointers stop hread ↦
        absurd hread.walk.lt_length (Nat.not_lt.mpr hend)
    obtain ⟨c, hbyte, hload⟩ := Buffer.exists_load (Nat.not_le.mp hend)
    by_cases hzero : c = 0
    · subst hzero
      exact decodesFrom_root hroom htext hjumps hbyte
    by_cases htag : 192 ≤ c.toNat
    · by_cases hgood : ∃ low, packet[pos + 1]? = some low ∧ jumps < 32 ∧
          (c.toNat - 192) * 256 + low.toNat < packet.length
      · obtain ⟨low, hlow, hcount, htarget⟩ := hgood
        exact decodesFrom_pointer hbyte htag hcount hlow htarget (ih hroom htext hcount)
      · refine decodesFrom_pointer_refused hbyte htag fun low hlow ↦ ?_
        by_contra hboth
        exact hgood ⟨low, hlow, by omega, by omega⟩
    · by_cases hgood : c.toNat ≤ 63 ∧ pos + 1 + c.toNat ≤ packet.length
      · exact decodesFrom_label htext hbyte hzero hgood.1 hgood.2 fun after _ hfit hholds ↦
          ih hfit hholds hjumps
      · exact decodesFrom_label_refused hbyte hzero (by omega) (by omega)

/-- The name at an offset reads as a text that fits a result buffer, within the decoder's limits. -/
def ReadsAs (packet : Buffer) (offset outLen : ℕ) (text : List UInt8) (stop : ℕ) : Prop :=
  ∃ labels pointers, Walk packet offset labels pointers stop ∧ pointers ≤ 32 ∧
    labels.length + pointers ≤ 127 ∧ text = dotted labels ∧ text.length ≤ outLen - 1

theorem ReadsAs.unique {packet : Buffer} {offset outLen stop stop' : ℕ} {text text' : List UInt8}
    (h : ReadsAs packet offset outLen text stop) (h' : ReadsAs packet offset outLen text' stop') :
    text' = text ∧ stop' = stop := by
  obtain ⟨labels, pointers, hwalk, -, -, rfl, -⟩ := h
  obtain ⟨labels', pointers', hwalk', -, -, rfl, -⟩ := h'
  obtain ⟨rfl, -, rfl⟩ := hwalk.unique hwalk'
  exact ⟨rfl, rfl⟩

theorem readsAs_of_legible {packet : Buffer} {offset outLen pointers stop : ℕ}
    {labels : List (List UInt8)}
    (h : Legible packet 128 offset 0 [] outLen labels pointers stop) :
    ReadsAs packet offset outLen (labels.foldl joinLabel []) stop := by
  obtain ⟨hwalk, hjumps, hrounds, hfits⟩ := h
  exact ⟨labels, pointers, hwalk, by omega, by omega, foldl_joinLabel hwalk.isLabel, by omega⟩

theorem ReadsAs.legible {packet : Buffer} {offset outLen stop : ℕ} {text : List UInt8}
    (hout : outLen ≠ 0) (h : ReadsAs packet offset outLen text stop) :
    ∃ labels pointers, Legible packet 128 offset 0 [] outLen labels pointers stop := by
  obtain ⟨labels, pointers, hwalk, hjumps, hrounds, rfl, hfits⟩ := h
  refine ⟨labels, pointers, hwalk, by omega, by omega, ?_⟩
  rw [foldl_joinLabel hwalk.isLabel]
  omega

theorem ptrDnsDecodeName_spec (packet : Buffer) (offset : ℕ) {out : Buffer}
    (hout : out.length ≠ 0) :
    ∃ code after, ptrDnsDecodeName packet offset out = .ok (code, after) ∧
      after.length = out.length ∧
      ((code = 0 ∧ ∃ text stop, ReadsAs packet offset out.length text stop ∧
          after.Holds 0 (text ++ [0])) ∨
        (code = -1 ∧ ∀ text stop, ¬ReadsAs packet offset out.length text stop)) := by
  have hempty : ([] : List UInt8).length < out.length := Nat.pos_of_ne_zero hout
  obtain ⟨code, after, hresult, hsize, hanswer⟩ :=
    ptrDnsDecodeLabels_spec packet 128 hempty (Buffer.holds_nil out 0) (Nat.zero_le 32)
  refine ⟨code, after, (if_neg hout).trans hresult, hsize, ?_⟩
  rcases hanswer with ⟨rfl, labels, pointers, stop, hread, hholds⟩ | ⟨rfl, hnone⟩
  · exact .inl ⟨rfl, _, stop, readsAs_of_legible hread, hholds⟩
  · refine .inr ⟨rfl, fun text stop hread ↦ ?_⟩
    obtain ⟨labels, pointers, hread⟩ := hread.legible hout
    exact hnone labels pointers stop hread

/-- Decoding is exact and stays inside both buffers, for every packet and every offset. -/
theorem ptrDnsDecodeName_exact (packet : Buffer) (offset : ℕ) (out : Buffer)
    (hout : 1 ≤ out.length) :
    ∃ code after, ptrDnsDecodeName packet offset out = .ok (code, after) ∧
      after.length = out.length ∧ (code = 0 ∨ code = -1) ∧
      (code = 0 ↔ ∃ labels pointers stop, Walk packet offset labels pointers stop ∧
        pointers ≤ 32 ∧ labels.length + pointers ≤ 127 ∧
        (dotted labels).length ≤ out.length - 1) ∧
      (code = 0 → ∀ labels pointers stop, Walk packet offset labels pointers stop →
        after.Holds 0 (dotted labels ++ [0])) := by
  obtain ⟨code, after, hresult, hsize, hanswer⟩ :=
    ptrDnsDecodeName_spec packet offset (Nat.pos_iff_ne_zero.mp hout)
  refine ⟨code, after, hresult, hsize, ?_⟩
  rcases hanswer with ⟨rfl, text, stop, hread, hholds⟩ | ⟨rfl, hnone⟩
  · obtain ⟨labels, pointers, hwalk, hjumps, hrounds, rfl, hfits⟩ := hread
    refine ⟨.inl rfl, ⟨fun _ ↦ ⟨labels, pointers, stop, hwalk, hjumps, hrounds, hfits⟩,
      fun _ ↦ rfl⟩, fun _ labels' pointers' stop' hwalk' ↦ ?_⟩
    obtain ⟨rfl, -, -⟩ := hwalk.unique hwalk'
    exact hholds
  · refine ⟨.inr rfl, ⟨fun h ↦ absurd h (by decide), ?_⟩, fun h ↦ absurd h (by decide)⟩
    rintro ⟨labels, pointers, stop, hwalk, hjumps, hrounds, hfits⟩
    exact absurd ⟨labels, pointers, hwalk, hjumps, hrounds, rfl, hfits⟩ (hnone (dotted labels) stop)

/-- A name that ends in a pointer backwards, and a pointer to itself. -/
theorem ptrDnsDecodeName_exact_compressed :
    ptrDnsDecodeName [1, 97, 0, 1, 98, 0xc0, 0, 0xc0, 7] 3 [9, 9, 9, 9] = .ok (0, [98, 46, 97, 0]) ∧
      (∃ code after, ptrDnsDecodeName [1, 97, 0, 1, 98, 0xc0, 0, 0xc0, 7] 7 [9, 9, 9, 9] =
        .ok (code, after) ∧ (code = 0 ∨ code = -1)) := by
  refine ⟨by decide, ?_⟩
  obtain ⟨code, after, hresult, -, hcode, -⟩ :=
    ptrDnsDecodeName_exact [1, 97, 0, 1, 98, 0xc0, 0, 0xc0, 7] 7 [9, 9, 9, 9] (by decide)
  exact ⟨code, after, hresult, hcode⟩

/-! ## Encoding -/

theorem takeWhile_label {label : List UInt8} (h : dot ∉ label) (rest : List UInt8) :
    (label ++ dot :: rest).takeWhile (· != dot) = label ∧
      (label ++ dot :: rest).dropWhile (· != dot) = dot :: rest := by
  have hall : ∀ byte ∈ label, (byte != dot) = true := by
    intro byte hmem
    exact bne_iff_ne.mpr fun heq ↦ h (heq ▸ hmem)
  rw [List.takeWhile_append_of_pos hall, List.dropWhile_append_of_pos hall]
  simp

theorem takeWhile_last {label : List UInt8} (h : dot ∉ label) :
    label.takeWhile (· != dot) = label ∧ label.dropWhile (· != dot) = [] := by
  have hall : ∀ byte ∈ label, (byte != dot) = true := by
    intro byte hmem
    exact bne_iff_ne.mpr fun heq ↦ h (heq ▸ hmem)
  exact ⟨List.takeWhile_eq_self_iff.mpr hall, List.dropWhile_eq_nil_iff.mpr hall⟩

/-- The checks that refuse a label. -/
def LabelRefused (packet : Buffer) (pos : ℕ) (label : List UInt8) : Prop :=
  label.length = 0 ∨ label.length > 63 ∨ pos + 1 + label.length ≥ packet.length

theorem encodeLabels_refused {packet : Buffer} {pos : ℕ} {cur label : List UInt8} (hcur : cur ≠ [])
    (hlabel : cur.takeWhile (· != dot) = label) (hbad : LabelRefused packet pos label) :
    ptrDnsEncodeLabels packet pos cur = .ok (false, packet, pos) := by
  rw [ptrDnsEncodeLabels, if_neg hcur]
  simp only [hlabel]
  exact if_pos hbad

/-- A label that passes the checks is written with its length byte, and nothing else is. -/
theorem encodeLabels_written {packet : Buffer} {pos : ℕ} {cur label : List UInt8} (hcur : cur ≠ [])
    (hlabel : cur.takeWhile (· != dot) = label) (hgood : ¬LabelRefused packet pos label) :
    ∃ after, after.length = packet.length ∧ after.Holds pos (labelWire label) ∧
      (∀ index, index < pos ∨ pos + (labelWire label).length ≤ index →
        after[index]? = packet[index]?) ∧
      (cur.dropWhile (· != dot) = [] → ptrDnsEncodeLabels packet pos cur =
        .ok (true, after, pos + (labelWire label).length)) ∧
      ∀ rest, cur.dropWhile (· != dot) = dot :: rest → ptrDnsEncodeLabels packet pos cur =
        ptrDnsEncodeLabels after (pos + (labelWire label).length) rest := by
  rw [LabelRefused] at hgood
  obtain ⟨counted, hcount, hsize, hbyte, hsame⟩ := Buffer.exists_storeMany
    (show pos + [UInt8.ofNat label.length].length ≤ packet.length by
      rw [List.length_singleton]; omega)
  obtain ⟨after, hcopy, hsize', hbytes, hsame'⟩ := Buffer.exists_storeMany
    (show pos + 1 + label.length ≤ counted.length by omega)
  have hwire : pos + (labelWire label).length = pos + 1 + label.length := by
    rw [length_labelWire]
    omega
  rw [List.length_singleton] at hsame
  refine ⟨after, hsize'.trans hsize, ?_, fun index hindex ↦ ?_, fun hlast ↦ ?_, fun rest hrest ↦ ?_⟩
  · rw [labelWire, Buffer.holds_cons]
    exact ⟨(hsame' pos (.inl (by omega))).trans (Buffer.holds_cons.mp hbyte).1, hbytes⟩
  · rw [hsame' index (by omega), hsame index (by omega)]
  · rw [ptrDnsEncodeLabels, if_neg hcur]
    simp only [hlabel]
    rw [if_neg hgood, hcount, Buffer.ok_bind, hcopy, Buffer.ok_bind, hwire]
    split
    · rfl
    · simp_all
  · rw [ptrDnsEncodeLabels, if_neg hcur]
    simp only [hlabel]
    rw [if_neg hgood, hcount, Buffer.ok_bind, hcopy, Buffer.ok_bind, hwire]
    split
    · simp_all
    · simp_all

theorem labelRefused_iff {packet : Buffer} {pos : ℕ} {label : List UInt8} (h : IsLabel label) :
    LabelRefused packet pos label ↔ packet.length ≤ pos + (labelWire label).length := by
  have hpos := h.1
  have hshort := h.2
  rw [LabelRefused, length_labelWire]
  omega

/-- How far the loop gets with a list of labels: whether it stays below the capacity, and what it
has written. -/
def EncodesLabels (packet : Buffer) (pos : ℕ) (wire : List UInt8)
    (result : Except Fault (Bool × Buffer × ℕ)) : Prop :=
  ∃ ok after stop, result = .ok (ok, after, stop) ∧ after.length = packet.length ∧
    (∀ index, index < pos ∨ pos + wire.length ≤ index → after[index]? = packet[index]?) ∧
    (ok = true ↔ pos + wire.length < packet.length) ∧
    (ok = true → stop = pos + wire.length ∧ after.Holds pos wire)

theorem encodesLabels_refused {packet : Buffer} {pos : ℕ} {wire cur label : List UInt8}
    (hcur : cur ≠ []) (hlabel : cur.takeWhile (· != dot) = label)
    (hbad : LabelRefused packet pos label) (hlong : packet.length ≤ pos + wire.length) :
    EncodesLabels packet pos wire (ptrDnsEncodeLabels packet pos cur) := by
  refine ⟨false, packet, pos, encodeLabels_refused hcur hlabel hbad, rfl, fun _ _ ↦ rfl, ?_, ?_⟩
  · exact iff_of_false (by decide) (Nat.not_lt.mpr hlong)
  · exact fun h ↦ absurd h (by decide)

/-- The last label, with or without a dot behind it. -/
theorem encodesLabels_last {label tail : List UInt8} (hlabel : IsTextLabel label)
    (htail : tail = [] ∨ tail = [dot]) (packet : Buffer) (pos : ℕ) :
    EncodesLabels packet pos (labelWire label) (ptrDnsEncodeLabels packet pos (label ++ tail)) := by
  have hcur : label ++ tail ≠ [] := by
    simp [hlabel.isLabel.ne_nil]
  obtain ⟨htake, hdrop⟩ : (label ++ tail).takeWhile (· != dot) = label ∧
      (label ++ tail).dropWhile (· != dot) = tail := by
    rcases htail with rfl | rfl
    · rw [List.append_nil]
      exact takeWhile_last hlabel.no_dot
    · exact takeWhile_label hlabel.no_dot []
  by_cases hbad : LabelRefused packet pos label
  · exact encodesLabels_refused hcur htake hbad ((labelRefused_iff hlabel.isLabel).mp hbad)
  · obtain ⟨after, hsize, hholds, hsame, hlast, hmore⟩ := encodeLabels_written hcur htake hbad
    have hresult : ptrDnsEncodeLabels packet pos (label ++ tail) =
        .ok (true, after, pos + (labelWire label).length) := by
      rcases htail with rfl | rfl
      · exact hlast hdrop
      · rw [hmore [] hdrop, ptrDnsEncodeLabels, if_pos rfl]
    rw [labelRefused_iff hlabel.isLabel] at hbad
    exact ⟨true, after, _, hresult, hsize, hsame, iff_of_true rfl (by omega), fun _ ↦ ⟨rfl, hholds⟩⟩

theorem encodesLabels_dotted {labels : List (List UInt8)} {tail : List UInt8} (hne : labels ≠ [])
    (hlabels : ∀ label ∈ labels, IsTextLabel label) (htail : tail = [] ∨ tail = [dot]) :
    ∀ (packet : Buffer) (pos : ℕ),
      EncodesLabels packet pos (labelsWire labels)
        (ptrDnsEncodeLabels packet pos (dotted labels ++ tail)) := by
  induction labels with
  | nil => exact absurd rfl hne
  | cons label rest ih =>
    intro packet pos
    have hlabel := hlabels label List.mem_cons_self
    cases rest with
    | nil =>
      rw [dotted_singleton, labelsWire_cons, labelsWire_nil, List.append_nil]
      exact encodesLabels_last hlabel htail packet pos
    | cons next rest =>
      have hrest := ih (List.cons_ne_nil _ _) fun other hmem ↦
        hlabels other (List.mem_cons_of_mem _ hmem)
      have hwire : (labelsWire (label :: next :: rest)).length =
          (labelWire label).length + (labelsWire (next :: rest)).length := by
        rw [labelsWire_cons, List.length_append]
      rw [dotted_cons_cons, List.append_assoc, List.cons_append]
      set cur := label ++ dot :: (dotted (next :: rest) ++ tail) with hdef
      have hcur : cur ≠ [] := by simp [hdef]
      obtain ⟨htake, hdrop⟩ := takeWhile_label hlabel.no_dot (dotted (next :: rest) ++ tail)
      by_cases hbad : LabelRefused packet pos label
      · have hlong := (labelRefused_iff hlabel.isLabel).mp hbad
        exact encodesLabels_refused hcur htake hbad (by omega)
      · obtain ⟨written, hsize, hholds, hsame, -, hmore⟩ := encodeLabels_written hcur htake hbad
        obtain ⟨ok, after, stop, hresult, hsize', hsame', hok, hstop⟩ :=
          hrest written (pos + (labelWire label).length)
        refine ⟨ok, after, stop, (hmore _ hdrop).trans hresult, hsize'.trans hsize, ?_, ?_, ?_⟩
        · intro index hindex
          rw [hsame' index (by omega), hsame index (by omega)]
        · rw [hok, hsize, hwire, Nat.add_assoc]
        · intro htrue
          obtain ⟨rfl, hlater⟩ := hstop htrue
          refine ⟨by omega, ?_⟩
          rw [labelsWire_cons, Buffer.holds_append]
          exact ⟨hholds.congr fun index hge hlt ↦ hsame' index (.inl hlt), hlater⟩

/-- A name with an empty label before the last one, or with a label that is too long, is refused. -/
theorem encodeLabels_bad {labels : List (List UInt8)} (hlabels : ∀ label ∈ labels, dot ∉ label)
    (hbad : [] ∈ labels.dropLast ∨ ∃ label ∈ labels, 63 < label.length) :
    ∀ (packet : Buffer) (pos : ℕ),
      ∃ after stop, ptrDnsEncodeLabels packet pos (dotted labels) = .ok (false, after, stop) := by
  induction labels with
  | nil => simp at hbad
  | cons label rest ih =>
    intro packet pos
    have hlabel := hlabels label List.mem_cons_self
    cases rest with
    | nil =>
      rw [dotted_singleton]
      obtain hlong : 63 < label.length := by simpa using hbad
      refine ⟨packet, pos, encodeLabels_refused ?_ (takeWhile_last hlabel).1 (.inr (.inl hlong))⟩
      rintro rfl
      exact absurd hlong (by decide)
    | cons next rest =>
      obtain ⟨htake, hdrop⟩ := takeWhile_label hlabel (dotted (next :: rest))
      have hcur : label ++ dot :: dotted (next :: rest) ≠ [] := by simp
      rw [dotted_cons_cons]
      by_cases hrefused : LabelRefused packet pos label
      · exact ⟨packet, pos, encodeLabels_refused hcur htake hrefused⟩
      · obtain ⟨written, -, -, -, -, hmore⟩ := encodeLabels_written hcur htake hrefused
        have hkeep : label ≠ [] ∧ ¬63 < label.length := by
          rw [LabelRefused] at hrefused
          exact ⟨fun h ↦ hrefused (.inl (by rw [h]; rfl)), fun h ↦ hrefused (.inr (.inl h))⟩
        rw [hmore _ hdrop]
        refine ih (fun other hmem ↦ hlabels other (List.mem_cons_of_mem _ hmem)) ?_ _ _
        rcases hbad with hempty | ⟨long, hmem, hlong⟩
        · rw [List.dropLast_cons_cons, List.mem_cons] at hempty
          exact .inl (hempty.resolve_left fun h ↦ hkeep.1 h.symm)
        · rcases List.mem_cons.mp hmem with rfl | hmem
          · exact absurd hlong hkeep.2
          · exact .inr ⟨long, hmem, hlong⟩

/-- What encoding does with the dotted text of a list of labels. -/
theorem ptrDnsEncodeName_dotted {labels : List (List UInt8)} {tail : List UInt8}
    (hne : labels ≠ []) (hlabels : ∀ label ∈ labels, IsTextLabel label)
    (htail : tail = [] ∨ tail = [dot]) (packet : Buffer) (offset : ℕ) :
    ∃ code after stop, ptrDnsEncodeName packet offset (dotted labels ++ tail) =
        .ok (code, after, stop) ∧ after.length = packet.length ∧
      (∀ index, index < offset ∨ offset + (nameWire labels).length ≤ index →
        after[index]? = packet[index]?) ∧
      (code = 0 ↔ offset + (nameWire labels).length ≤ packet.length) ∧
      (code = 0 → stop = offset + (nameWire labels).length ∧
        after.Holds offset (nameWire labels)) ∧
      (code ≠ 0 → code = -1 ∧ stop = offset) := by
  obtain ⟨ok, written, stop, hresult, hsize, hsame, hok, hstop⟩ :=
    encodesLabels_dotted hne hlabels htail packet offset
  have hwire := length_nameWire labels
  rw [ptrDnsEncodeName, hresult, Buffer.ok_bind]
  cases ok with
  | false =>
    have hlong : ¬offset + (labelsWire labels).length < packet.length := fun h ↦
      absurd (hok.mpr h) (by decide)
    refine ⟨-1, written, offset, rfl, hsize, fun index hindex ↦ hsame index (by omega), ?_, ?_, ?_⟩
    · exact iff_of_false (by decide) (by omega)
    · exact fun h ↦ absurd h (by decide)
    · exact fun _ ↦ ⟨rfl, rfl⟩
  | true =>
    have hroom := hok.mp rfl
    obtain ⟨rfl, hholds⟩ := hstop rfl
    have hlast : offset + (labelsWire labels).length + ([0] : List UInt8).length ≤
        written.length := by
      rw [List.length_singleton]
      omega
    obtain ⟨after, hstore, hsize', hzero, hsame'⟩ := Buffer.exists_storeMany hlast
    rw [List.length_singleton] at hsame'
    simp only [Bool.true_eq_false, if_false]
    rw [if_neg (by omega), hstore]
    refine ⟨0, after, _, rfl, hsize'.trans hsize, fun index hindex ↦ ?_, ?_, fun _ ↦ ⟨?_, ?_⟩, ?_⟩
    · rw [hsame' index (by omega), hsame index (by omega)]
    · exact iff_of_true rfl (by omega)
    · omega
    · rw [nameWire, Buffer.holds_append]
      exact ⟨hholds.congr fun index _ hindex ↦ hsame' index (.inl (by omega)), hzero⟩
    · exact fun h ↦ absurd rfl h

/-- Encoding, skipping and decoding agree on every name of the wire's size. -/
theorem ptrDns_names_agree :
    (∀ labels : List (List UInt8), labels ≠ [] → (∀ label ∈ labels, IsTextLabel label) →
      (nameWire labels).length ≤ 255 → ∀ offset : ℕ,
        (∀ (packet : Buffer) (tail : List UInt8), tail = [] ∨ tail = [dot] →
          ∃ code after stop, ptrDnsEncodeName packet offset (dotted labels ++ tail) =
              .ok (code, after, stop) ∧ after.length = packet.length ∧
            (∀ index, index < offset ∨ offset + (nameWire labels).length ≤ index →
              after[index]? = packet[index]?) ∧
            (code = 0 ↔ offset + (nameWire labels).length ≤ packet.length) ∧
            (code = 0 → stop = offset + (nameWire labels).length ∧
              after.Holds offset (nameWire labels)) ∧
            (code ≠ 0 → code = -1 ∧ stop = offset)) ∧
        ∀ packet : Buffer, packet.Holds offset (nameWire labels) →
          ptrDnsSkipName packet offset = .ok (some (offset + (nameWire labels).length)) ∧
          ∀ out : Buffer, (nameWire labels).length - 1 ≤ out.length →
            ∃ after, ptrDnsDecodeName packet offset out = .ok (0, after) ∧
              after.Holds 0 (dotted labels ++ [0])) ∧
    (∀ labels : List (List UInt8), (∀ label ∈ labels, dot ∉ label) →
      ([] ∈ labels.dropLast ∨ ∃ label ∈ labels, 63 < label.length) →
      ∀ (packet : Buffer) (offset : ℕ),
        ∃ after, ptrDnsEncodeName packet offset (dotted labels) = .ok (-1, after, offset)) := by
  constructor
  · intro labels hne hlabels hwire offset
    have hwireLabels : ∀ label ∈ labels, IsLabel label := fun label hmem ↦
      (hlabels label hmem).isLabel
    have htwo := two_mul_length_le hwireLabels
    have hname := length_nameWire labels
    have htext := length_dotted hne
    refine ⟨fun packet tail htail ↦ ptrDnsEncodeName_dotted hne hlabels htail packet offset,
      fun packet hholds ↦ ⟨?_, fun out hout ↦ ?_⟩⟩
    · exact ptrDnsSkipLabels_holds (.inl rfl) hwireLabels (by omega) hholds
    · have hread : ReadsAs packet offset out.length (dotted labels)
          (offset + (nameWire labels).length) :=
        ⟨labels, 0, Walk.of_holds hwireLabels hholds, by omega, by omega, rfl, by omega⟩
      obtain ⟨code, after, hresult, -, hanswer⟩ :=
        ptrDnsDecodeName_spec packet offset (show out.length ≠ 0 by omega)
      rcases hanswer with ⟨rfl, text, stop, hread', hafter⟩ | ⟨-, hnone⟩
      · obtain ⟨rfl, -⟩ := hread.unique hread'
        exact ⟨after, hresult, hafter⟩
      · exact absurd hread (hnone _ _)
  · intro labels hlabels hbad packet offset
    obtain ⟨after, stop, hresult⟩ := encodeLabels_bad hlabels hbad packet offset
    exact ⟨after, by rw [ptrDnsEncodeName, hresult]; rfl⟩

/-- The name `a.b` takes five bytes, and `.b` is refused. -/
theorem ptrDns_names_agree_small :
    ptrDnsSkipName [1, 97, 1, 98, 0] 0 = .ok (some 5) ∧
      ∃ after, ptrDnsEncodeName [9, 9, 9, 9] 0 [dot, 98] = .ok (-1, after, 0) := by
  have hlabels : ∀ label ∈ [[97], [(98 : UInt8)]], IsTextLabel label := by
    intro label hmem
    rcases List.mem_cons.mp hmem with rfl | hmem
    · exact ⟨by decide, by decide, by decide⟩
    · obtain rfl := List.mem_singleton.mp hmem
      exact ⟨by decide, by decide, by decide⟩
  obtain ⟨-, hread⟩ := ptrDns_names_agree.1 [[97], [98]] (by decide) hlabels (by decide) 0
  obtain ⟨hskip, -⟩ := hread [1, 97, 1, 98, 0] (by unfold Buffer.Holds; decide)
  exact ⟨hskip, ptrDns_names_agree.2 [[], [98]] (by decide) (.inl (by decide)) [9, 9, 9, 9] 0⟩

end Ax88179Aroma.Shim
