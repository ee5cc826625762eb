import Ax88179Aroma.Driver.Framing
import Ax88179Aroma.Driver.Open

/-!
# Sending a frame

`ax88179_send` builds the transfer of one frame in the static buffer `g_tx` and submits it to the
bulk OUT endpoint.  Two little-endian words stand in front of the frame, which is padded with zeros
to the minimal length; a transfer that would fill its last USB packet gets one byte more.

The transfer is a function of the frame and of the packet size, whatever `g_tx` held before.
-/

namespace Ax88179Aroma.Driver

open Effect Program

/-! ## The function -/

/-- The handle and `g_tx`. -/
structure TxState where
  ax : Ax88179 := {}
  gTx : Memory := fun _ ↦ 0

/-- `UhsSubmitBulkRequest` toward the adapter, with the bytes of the buffer. -/
inductive TxCall where
  | uhsSubmitBulkRequest (ifHandle endpoint : ℕ) (data : List UInt8) (timeoutMs : ℕ)
  deriving DecidableEq, Repr

abbrev TxM := Program TxState TxCall ℤ

def txMinimum : ℕ := 60

/-- The value of `hdr1` for a transfer that fills its last packet. -/
def txPadFlag : ℕ := 0x80008000

def putByte (index value : ℕ) : TxM Unit :=
  store fun s ↦ { s with gTx := Function.update s.gTx index (UInt8.ofNat value) }

/-- `memset(g_tx + start, 0, count)` -/
def clearBytes (start count : ℕ) : TxM Unit :=
  store fun s ↦ { s with
    gTx := fun index ↦ if start ≤ index ∧ index < start + count then 0 else s.gTx index }

/-- `memcpy(g_tx + start, source, count)` -/
def putBytes (start : ℕ) (source : Memory) (count : ℕ) : TxM Unit :=
  store fun s ↦ { s with
    gTx := fun index ↦
      if start ≤ index ∧ index < start + count then source (index - start) else s.gTx index }

/-- The part of `ax88179_send` after its arguments were checked. -/
def sendChecked (frame : Memory) (length : ℕ) : TxM ℤ := do
  let wireLength := if length < txMinimum then txMinimum else length
  let packet ← load fun s ↦ s.ax.txMaxpacket
  let hdr0 := wireLength
  let hdr1 := if (wireLength + 8) % packet = 0 then txPadFlag else 0
  putByte 0 (hdr0 &&& 0xFF)
  putByte 1 ((hdr0 >>> 8) &&& 0xFF)
  putByte 2 ((hdr0 >>> 16) &&& 0xFF)
  putByte 3 ((hdr0 >>> 24) &&& 0xFF)
  each (fun i ↦ putByte (4 + i) (hdr1 >>> (8 * i))) (List.range 4)
  clearBytes 8 wireLength
  putBytes 8 frame length
  when (hdr1 ≠ 0) (putByte (wireLength + 8) 0)
  let transferLength := if hdr1 ≠ 0 then wireLength + 9 else wireLength + 8
  let request ← load fun s ↦
    TxCall.uhsSubmitBulkRequest s.ax.ifHandle s.ax.epOut (s.gTx.slice 0 transferLength) 1000
  let r ← perform request
  store fun s ↦ { s with ax := { s.ax with lastBulk := r } }
  pure (if r = transferLength then 0 else -1)

/-- `ax88179_send`; the arguments say whether the handle is there and what `frame` points to. -/
def ax88179Send (handle : Bool) (frame : Option Memory) (length : ℤ) : TxM ℤ := do
  let medium ← load fun s ↦ s.ax.medium
  match frame with
  | none => pure (-1)
  | some frame =>
    if handle = false ∨ medium = 0 ∨ length < 14 ∨ length > 1518 then pure (-1)
    else sendChecked frame length.toNat

/-! ## The format -/

/-- The length of a frame on the wire. -/
def wireLength (frame : List UInt8) : ℕ := max txMinimum frame.length

/-- The control word. -/
def txControl (packet : ℕ) (frame : List UInt8) : ℕ :=
  if (wireLength frame + 8) % packet = 0 then txPadFlag else 0

/-- The transfer of a frame over packets of the given size. -/
def txTransfer (packet : ℕ) (frame : List UInt8) : List UInt8 :=
  leBytes (wireLength frame) ++ leBytes (txControl packet frame) ++ frame ++
    List.replicate (wireLength frame - frame.length) 0 ++
    if txControl packet frame ≠ 0 then [0] else []

theorem length_txTransfer (packet : ℕ) (frame : List UInt8) :
    (txTransfer packet frame).length =
      wireLength frame + 8 + if (wireLength frame + 8) % packet = 0 then 1 else 0 := by
  have hle : frame.length ≤ wireLength frame := Nat.le_max_right _ _
  unfold txTransfer txControl
  split
  · simp [leBytes, txPadFlag]
    omega
  · simp [leBytes]
    omega

/-- A receiver reads the length from the first word, and the padded frame behind the second. -/
theorem txTransfer_read (packet : ℕ) (frame : List UInt8) (hlength : frame.length ≤ 1518) :
    le32 (Memory.ofList (txTransfer packet frame)) 0 = wireLength frame ∧
      ((txTransfer packet frame).drop 8).take (wireLength frame) =
        frame ++ List.replicate (wireLength frame - frame.length) 0 := by
  have hle : frame.length ≤ wireLength frame := Nat.le_max_right _ _
  constructor
  · refine le32_of_leBytes (by unfold wireLength txMinimum; omega) fun k byte hk ↦ ?_
    have hlt : k < 4 := (List.getElem?_eq_some_iff.mp hk).1
    have hget : (txTransfer packet frame)[k]? = some byte := by
      unfold txTransfer
      simp only [List.append_assoc]
      rw [List.getElem?_append_left (by exact hlt)]
      exact hk
    rw [Nat.zero_add, Memory.ofList, List.getD_eq_getElem?_getD, hget]
    rfl
  · have hbody : (txTransfer packet frame).drop 8 =
        (frame ++ List.replicate (wireLength frame - frame.length) 0) ++
          if txControl packet frame ≠ 0 then [0] else [] := rfl
    have hcount : (frame ++ List.replicate (wireLength frame - frame.length) (0 : UInt8)).length =
        wireLength frame := by
      simp
      omega
    rw [hbody, List.take_append_of_le_length (Nat.le_of_eq hcount.symm),
      List.take_of_length_le (Nat.le_of_eq hcount)]

/-- The last packet of a transfer is never full. -/
theorem length_txTransfer_mod {packet : ℕ} (hpacket : 1 < packet) (frame : List UInt8) :
    (txTransfer packet frame).length % packet ≠ 0 := by
  rw [length_txTransfer]
  split
  · rename_i hfull
    rw [Nat.add_mod, hfull, Nat.zero_add, Nat.mod_mod, Nat.mod_eq_of_lt hpacket]
    decide
  · exact ‹_›

/-! ## The packet size -/

/-- The sizes that the driver accepts. -/
def LegalPacket (size : ℕ) : Prop := size = 64 ∨ size = 512 ∨ size = 1024

theorem bulkPacketSize_legal {mps : ℕ} (h : bulkPacketSize mps ≠ 0) :
    LegalPacket (bulkPacketSize mps) := by
  unfold bulkPacketSize at h ⊢
  dsimp only at h ⊢
  generalize (if mps = 64 ∨ mps = 512 ∨ mps = 1024 then mps
    else (mps >>> 8 ||| mps <<< 8) % 2 ^ 16) = size at h ⊢
  split
  · assumption
  · rename_i hillegal
    rw [if_neg hillegal] at h
    exact absurd rfl h

theorem takeOutEndpoint_legal {descriptor : UhsEndpointDescriptor} {ax : Ax88179}
    (h : ax.txMaxpacket = 0 ∨ LegalPacket ax.txMaxpacket) :
    (takeOutEndpoint descriptor ax).txMaxpacket = 0 ∨
      LegalPacket (takeOutEndpoint descriptor ax).txMaxpacket := by
  unfold takeOutEndpoint
  split
  · dsimp only
    split
    · exact .inr (bulkPacketSize_legal ‹_›)
    · exact h
  · exact h

/-- IN descriptors do not concern the OUT endpoint. -/
theorem takeInEndpoint_out (descriptor : UhsEndpointDescriptor) (ax : Ax88179) :
    (takeInEndpoint descriptor ax).txMaxpacket = ax.txMaxpacket ∧
      (takeInEndpoint descriptor ax).epOut = ax.epOut := by
  unfold takeInEndpoint
  split
  · dsimp only
    split
    · exact ⟨rfl, rfl⟩
    · split
      · exact ⟨rfl, rfl⟩
      · exact ⟨rfl, rfl⟩
  · exact ⟨rfl, rfl⟩

/-- One turn of the loop of `find_endpoints`. -/
def endpointTurn (profile : UhsInterfaceProfile) (ax : Ax88179) (i : Fin 16) : Ax88179 :=
  takeOutEndpoint (profile.outEndpoints i) (takeInEndpoint (profile.inEndpoints i) ax)

theorem foldl_endpointTurn_legal (profile : UhsInterfaceProfile) (indices : List (Fin 16))
    (ax : Ax88179) (h : ax.txMaxpacket = 0 ∨ LegalPacket ax.txMaxpacket) :
    (indices.foldl (endpointTurn profile) ax).txMaxpacket = 0 ∨
      LegalPacket (indices.foldl (endpointTurn profile) ax).txMaxpacket := by
  induction indices generalizing ax with
  | nil => exact h
  | cons i rest ih =>
    rw [List.foldl_cons]
    refine ih _ (takeOutEndpoint_legal ?_)
    rw [(takeInEndpoint_out _ _).1]
    exact h

/-- A handle from `calloc` whose endpoints were found has a legal packet size. -/
theorem findEndpoints_legal {profile : UhsInterfaceProfile} {ax : Ax88179}
    (hfresh : ax.txMaxpacket = 0) (hfound : endpointsFound (findEndpoints profile ax)) :
    LegalPacket (findEndpoints profile ax).txMaxpacket :=
  (foldl_endpointTurn_legal profile (List.finRange 16)
    { ax with epIn := 0, epOut := 0, epIrq := 0 } (.inl hfresh)).resolve_left hfound.2.2

/-- A descriptor that the walk takes for the OUT endpoint, while it has none. -/
def UhsEndpointDescriptor.BulkOut (descriptor : UhsEndpointDescriptor) : Prop :=
  descriptor.bLength ≠ 0 ∧ descriptor.bEndpointAddress &&& 0x80 = 0 ∧
    descriptor.bmAttributes &&& 0x03 = 0x02

instance (descriptor : UhsEndpointDescriptor) : Decidable descriptor.BulkOut :=
  inferInstanceAs (Decidable (_ ∧ _ ∧ _))

/-- The number and the size of the OUT endpoint stay what they are while no descriptor is taken. -/
theorem foldl_endpointTurn_out (profile : UhsInterfaceProfile) (indices : List (Fin 16))
    (ax : Ax88179) (h : ax.epOut ≠ 0 ∨ ∀ i ∈ indices, ¬ (profile.outEndpoints i).BulkOut) :
    (indices.foldl (endpointTurn profile) ax).txMaxpacket = ax.txMaxpacket ∧
      (indices.foldl (endpointTurn profile) ax).epOut = ax.epOut := by
  induction indices generalizing ax with
  | nil => exact ⟨rfl, rfl⟩
  | cons i rest ih =>
    have hin := takeInEndpoint_out (profile.inEndpoints i) ax
    have hturn : endpointTurn profile ax i = takeInEndpoint (profile.inEndpoints i) ax := by
      refine if_neg fun htaken ↦ ?_
      rcases h with h | h
      · exact h (hin.2.symm.trans htaken.2.2.2)
      · exact h i List.mem_cons_self ⟨htaken.1, htaken.2.1, htaken.2.2.1⟩
    rw [List.foldl_cons, hturn]
    have hrest := ih (takeInEndpoint (profile.inEndpoints i) ax) (by
      rw [hin.2]
      exact h.imp_right fun h j hj ↦ h j (List.mem_cons_of_mem i hj))
    exact ⟨hrest.1.trans hin.1, hrest.2.trans hin.2⟩

/-- The first bulk OUT descriptor gives the endpoint and its packet size. -/
theorem findEndpoints_out {profile : UhsInterfaceProfile} {ax : Ax88179} {i : Fin 16}
    (hfirst : (List.finRange 16).find? (fun i ↦ (profile.outEndpoints i).BulkOut) = some i)
    (hnumber : (profile.outEndpoints i).bEndpointAddress &&& 0x0F ≠ 0)
    (hfresh : ax.txMaxpacket = 0) (hfound : endpointsFound (findEndpoints profile ax)) :
    (findEndpoints profile ax).epOut = (profile.outEndpoints i).bEndpointAddress &&& 0x0F ∧
      (findEndpoints profile ax).txMaxpacket =
        bulkPacketSize (profile.outEndpoints i).wMaxPacketSize := by
  obtain ⟨hbulk, before, after, hsplit, hbefore⟩ := List.find?_eq_some_iff_append.mp hfirst
  have hwalk : findEndpoints profile ax = after.foldl (endpointTurn profile) (endpointTurn profile
      (before.foldl (endpointTurn profile) { ax with epIn := 0, epOut := 0, epIrq := 0 }) i) := by
    unfold findEndpoints
    rw [hsplit, List.foldl_append]
    rfl
  generalize hstart : before.foldl (endpointTurn profile)
    { ax with epIn := 0, epOut := 0, epIrq := 0 } = start at hwalk
  have hkept := foldl_endpointTurn_out profile before { ax with epIn := 0, epOut := 0, epIrq := 0 }
    (.inr fun j hj hbulk ↦ absurd (hbefore j hj) (by simpa using hbulk))
  rw [hstart] at hkept
  have hin := takeInEndpoint_out (profile.inEndpoints i) start
  have htaken : endpointTurn profile start i = { takeInEndpoint (profile.inEndpoints i) start with
      epOut := (profile.outEndpoints i).bEndpointAddress &&& 0x0F
      epOutMask := 1 <<< ((profile.outEndpoints i).bEndpointAddress &&& 0x0F)
      txMaxpacket := if bulkPacketSize (profile.outEndpoints i).wMaxPacketSize ≠ 0
        then bulkPacketSize (profile.outEndpoints i).wMaxPacketSize
        else (takeInEndpoint (profile.inEndpoints i) start).txMaxpacket } := by
    have hbulk := of_decide_eq_true hbulk
    exact if_pos ⟨hbulk.1, hbulk.2.1, hbulk.2.2, hin.2.trans hkept.2⟩
  have hend := foldl_endpointTurn_out profile after
    (endpointTurn profile start i) (.inl (by rw [htaken]; exact hnumber))
  rw [← hwalk, htaken] at hend
  refine ⟨hend.2, ?_⟩
  by_cases hsize : bulkPacketSize (profile.outEndpoints i).wMaxPacketSize = 0
  · have hzero : (takeInEndpoint (profile.inEndpoints i) start).txMaxpacket = 0 :=
      hin.1.trans (hkept.1.trans hfresh)
    rw [hsize, if_neg (not_not.mpr rfl), hzero] at hend
    exact absurd hend.1 hfound.2.2
  · rw [if_pos hsize] at hend
    exact hend.1

/-! ## What is submitted -/

/-- The outside keeps the requests; it may answer each with any value. -/
def txReply : Replies TxState (List TxCall) TxCall ℤ :=
  fun request _ x ↦ some { x with world := x.world ++ [request] }

/-- `g_tx` when the transfer of the first `length` bytes of `frame` is submitted. -/
def txImage (packet : ℕ) (frame : Memory) (length : ℕ) (gTx : Memory) : Memory := fun index ↦
  let wire := max txMinimum length
  let control := if (wire + 8) % packet = 0 then txPadFlag else 0
  if index < 4 then UInt8.ofNat (wire >>> (8 * index))
  else if index < 8 then UInt8.ofNat (control >>> (8 * (index - 4)))
  else if index < 8 + length then frame (index - 8)
  else if index < 8 + wire then 0
  else if control ≠ 0 ∧ index = wire + 8 then 0
  else gTx index

/-- The bytes submitted are those of the format. -/
theorem slice_txImage (packet : ℕ) (frame : Memory) (length : ℕ) (gTx : Memory) :
    (txImage packet frame length gTx).slice 0
        (txTransfer packet (frame.slice 0 length)).length =
      txTransfer packet (frame.slice 0 length) := by
  have hwire : wireLength (frame.slice 0 length) = max txMinimum length := by
    rw [wireLength, Memory.length_slice]
  have hle : length ≤ max txMinimum length := Nat.le_max_right _ _
  have hlength := length_txTransfer packet (frame.slice 0 length)
  have htotal : (txTransfer packet (frame.slice 0 length)).length = 4 + (4 + (length +
      (max txMinimum length - length + if txControl packet (frame.slice 0 length) ≠ 0
        then 1 else 0))) := by
    rw [hlength, txControl, hwire]
    split
    · rw [if_pos (by decide)]
      omega
    · rw [if_neg (by decide)]
      omega
  have hcontrol : txControl packet (frame.slice 0 length) =
      if (max txMinimum length + 8) % packet = 0 then txPadFlag else 0 := by
    rw [txControl, hwire]
  have hframe : (txImage packet frame length gTx).slice 8 length = frame.slice 0 length := by
    refine List.map_congr_left fun k hk ↦ ?_
    have hlt : k < length := List.mem_range.mp hk
    unfold txImage
    dsimp only
    rw [if_neg (by omega), if_neg (by omega), if_pos (by omega), Nat.add_sub_cancel_left,
      Nat.zero_add]
  have hpadding : (txImage packet frame length gTx).slice (8 + length)
      (max txMinimum length - length) = List.replicate (max txMinimum length - length) 0 := by
    refine List.eq_replicate_iff.mpr ⟨Memory.length_slice _ _ _, fun byte hbyte ↦ ?_⟩
    obtain ⟨k, hk, rfl⟩ := List.mem_map.mp hbyte
    have hlt : k < max txMinimum length - length := List.mem_range.mp hk
    unfold txImage
    dsimp only
    rw [if_neg (by omega), if_neg (by omega), if_neg (by omega), if_pos (by omega)]
  have hlast : (txImage packet frame length gTx).slice (8 + length +
      (max txMinimum length - length)) (if txControl packet (frame.slice 0 length) ≠ 0
        then 1 else 0) = if txControl packet (frame.slice 0 length) ≠ 0 then [0] else [] := by
    split
    · rename_i hpad
      rw [hcontrol] at hpad
      have hend : 8 + length + (max txMinimum length - length) = max txMinimum length + 8 := by
        omega
      rw [hend]
      change [txImage packet frame length gTx (max txMinimum length + 8)] = [0]
      unfold txImage
      dsimp only
      rw [if_neg (by omega), if_neg (by omega), if_neg (by omega), if_neg (by omega),
        if_pos ⟨hpad, rfl⟩]
    · rfl
  rw [htotal, Memory.slice_add, Memory.slice_add, Memory.slice_add, Memory.slice_add, txTransfer,
    hwire]
  simp only [Nat.zero_add, List.append_assoc]
  rw [hframe, hpadding, hlast]
  have hword : (txImage packet frame length gTx).slice 0 4 = leBytes (max txMinimum length) := by
    simp [Memory.slice, List.range_succ, txImage, leBytes, Nat.shiftRight_eq_div_pow]
  have hflag : (txImage packet frame length gTx).slice 4 4 =
      leBytes (txControl packet (frame.slice 0 length)) := by
    rw [hcontrol]
    simp [Memory.slice, List.range_succ, txImage, leBytes, Nat.shiftRight_eq_div_pow]
  rw [hword, hflag, Memory.length_slice]

/-- The four stores of a little-endian word. -/
def putWord (start value : ℕ) (gTx : Memory) : Memory :=
  Function.update (Function.update (Function.update (Function.update gTx start (UInt8.ofNat value))
    (start + 1) (UInt8.ofNat (value >>> 8))) (start + 2) (UInt8.ofNat (value >>> 16)))
    (start + 3) (UInt8.ofNat (value >>> 24))

theorem putWord_apply (start value : ℕ) (gTx : Memory) (index : ℕ) :
    putWord start value gTx index =
      if start ≤ index ∧ index < start + 4 then UInt8.ofNat (value >>> (8 * (index - start)))
      else gTx index := by
  unfold putWord
  split
  · obtain ⟨k, rfl⟩ := Nat.exists_eq_add_of_le ‹start ≤ index ∧ index < start + 4›.1
    have hk : k = 0 ∨ k = 1 ∨ k = 2 ∨ k = 3 := by omega
    rw [Nat.add_sub_cancel_left]
    rcases hk with rfl | rfl | rfl | rfl <;> simp
  · rw [Function.update_of_ne (by omega), Function.update_of_ne (by omega),
      Function.update_of_ne (by omega), Function.update_of_ne (by omega)]

theorem ofNat_and (value : ℕ) : UInt8.ofNat (value &&& 0xFF) = UInt8.ofNat value := by
  apply UInt8.toNat_inj.mp
  rw [UInt8.toNat_ofNat', UInt8.toNat_ofNat', show 0xFF = 2 ^ 8 - 1 from rfl,
    Nat.and_two_pow_sub_one_eq_mod, Nat.mod_mod]

/-- The buffer after the header, the zeros and the frame were stored. -/
def txFilled (control : ℕ) (frame : Memory) (length : ℕ) (gTx : Memory) : Memory := fun index ↦
  if 8 ≤ index ∧ index < 8 + length then frame (index - 8)
  else if 8 ≤ index ∧ index < 8 + max txMinimum length then 0
  else putWord 4 control (putWord 0 (max txMinimum length) gTx) index

theorem txFilled_eq_txImage {packet length : ℕ}
    (hfull : (max txMinimum length + 8) % packet ≠ 0) (frame gTx : Memory) :
    txFilled 0 frame length gTx = txImage packet frame length gTx := by
  funext index
  unfold txFilled txImage
  rw [putWord_apply, putWord_apply]
  dsimp only
  rw [if_neg hfull]
  grind

theorem update_txFilled_eq_txImage {packet length : ℕ}
    (hfull : (max txMinimum length + 8) % packet = 0) (frame gTx : Memory) :
    Function.update (txFilled txPadFlag frame length gTx) (max txMinimum length + 8) 0 =
      txImage packet frame length gTx := by
  funext index
  rw [Function.update_apply]
  unfold txFilled txImage
  rw [putWord_apply, putWord_apply]
  dsimp only
  rw [if_pos hfull]
  grind [txPadFlag]

/-- One transfer is submitted, and its success is the success of the call. -/
theorem run_sendChecked (frame : Memory) (length : ℕ) (answer : ℤ)
    (x : Machine TxState (List TxCall)) :
    run txReply (sendChecked frame length) [answer] x = some
      (if answer = (txTransfer x.mem.ax.txMaxpacket (frame.slice 0 length)).length then 0 else -1,
        { mem := { ax := { x.mem.ax with lastBulk := answer },
                   gTx := txImage x.mem.ax.txMaxpacket frame length x.mem.gTx },
          world := x.world ++ [.uhsSubmitBulkRequest x.mem.ax.ifHandle x.mem.ax.epOut
            (txTransfer x.mem.ax.txMaxpacket (frame.slice 0 length)) 1000] }, []) := by
  have hwire : (if length < txMinimum then txMinimum else length) = max txMinimum length := by
    split <;> omega
  have hlength := length_txTransfer x.mem.ax.txMaxpacket (frame.slice 0 length)
  rw [wireLength, Memory.length_slice] at hlength
  have hslice := slice_txImage x.mem.ax.txMaxpacket frame length x.mem.gTx
  unfold sendChecked
  dsimp only
  rw [hwire]
  have hrange : List.range 4 = [0, 1, 2, 3] := rfl
  by_cases hfull : (max txMinimum length + 8) % x.mem.ax.txMaxpacket = 0
  · have hflag : (txPadFlag ≠ 0) = True := eq_true (by decide)
    rw [if_pos hfull] at hlength
    rw [← update_txFilled_eq_txImage hfull, hlength] at hslice
    simp only [run_bind, run, load, store, perform, Program.bind, each, when, putByte, clearBytes,
      putBytes, txReply, hrange, Option.bind_some, ofNat_and, id, hfull, hflag, if_true]
    rw [← update_txFilled_eq_txImage hfull, hlength, ← hslice]
    rfl
  · have hflag : ((0 : ℕ) ≠ 0) = False := eq_false (by decide)
    rw [if_neg hfull] at hlength
    rw [← txFilled_eq_txImage hfull, hlength] at hslice
    simp only [run_bind, run, load, store, perform, Program.bind, each, when, putByte, clearBytes,
      putBytes, txReply, hrange, Option.bind_some, ofNat_and, id, hfull, hflag, if_false]
    rw [← txFilled_eq_txImage hfull, hlength, ← hslice]
    rfl

/-- Arguments that `ax88179_send` refuses. -/
def SendRefused (handle : Bool) (frame : Option Memory) (length : ℤ) (ax : Ax88179) : Prop :=
  handle = false ∨ ax.medium = 0 ∨ frame = none ∨ length < 14 ∨ 1518 < length

/-- A refused frame makes no call and changes nothing. -/
theorem run_ax88179Send_refused {handle : Bool} {frame : Option Memory} {length : ℤ}
    {x : Machine TxState (List TxCall)} (h : SendRefused handle frame length x.mem.ax) :
    run txReply (ax88179Send handle frame length) [] x = some (-1, x, []) := by
  cases frame with
  | none => rfl
  | some frame =>
    have hguard : handle = false ∨ x.mem.ax.medium = 0 ∨ length < 14 ∨ length > 1518 := by
      rcases h with h | h | h | h
      · exact .inl h
      · exact .inr (.inl h)
      · cases h
      · exact .inr (.inr h)
    unfold ax88179Send
    rw [run_bind]
    change run txReply (if handle = false ∨ x.mem.ax.medium = 0 ∨ length < 14 ∨ length > 1518
      then pure (-1) else sendChecked frame length.toNat) [] x = _
    rw [if_pos hguard]
    rfl

theorem run_ax88179Send {handle : Bool} {frame : Memory} {length : ℤ}
    {x : Machine TxState (List TxCall)} (h : ¬ SendRefused handle (some frame) length x.mem.ax)
    (answers : List ℤ) :
    run txReply (ax88179Send handle (some frame) length) answers x =
      run txReply (sendChecked frame length.toNat) answers x := by
  have hguard : ¬ (handle = false ∨ x.mem.ax.medium = 0 ∨ length < 14 ∨ length > 1518) := by
    rintro (hhandle | hmedium | hlength)
    · exact h (.inl hhandle)
    · exact h (.inr (.inl hmedium))
    · exact h (.inr (.inr (.inr hlength)))
  unfold ax88179Send
  rw [run_bind]
  change run txReply (if handle = false ∨ x.mem.ax.medium = 0 ∨ length < 14 ∨ length > 1518
    then pure (-1) else sendChecked frame length.toNat) answers x = _
  rw [if_neg hguard]

/-- The size that `find_endpoints` took from the profile decides the transfer of every frame. -/
theorem ax88179Send_submits (profile : UhsInterfaceProfile) (fresh : Ax88179)
    (hfresh : fresh.txMaxpacket = 0) (haccepted : endpointsFound (findEndpoints profile fresh))
    (x : Machine TxState (List TxCall))
    (hpacket : x.mem.ax.txMaxpacket = (findEndpoints profile fresh).txMaxpacket)
    (hout : x.mem.ax.epOut = (findEndpoints profile fresh).epOut)
    (handle : Bool) (frame : Option Memory) (length : ℤ) :
    (LegalPacket x.mem.ax.txMaxpacket ∧ ∀ i,
      (List.finRange 16).find? (fun i ↦ (profile.outEndpoints i).BulkOut) = some i →
      (profile.outEndpoints i).bEndpointAddress &&& 0x0F ≠ 0 →
      x.mem.ax.epOut = (profile.outEndpoints i).bEndpointAddress &&& 0x0F ∧
      x.mem.ax.txMaxpacket = bulkPacketSize (profile.outEndpoints i).wMaxPacketSize) ∧
    (SendRefused handle frame length x.mem.ax →
      run txReply (ax88179Send handle frame length) [] x = some (-1, x, [])) ∧
    (¬ SendRefused handle frame length x.mem.ax → ∃ bytes : List UInt8,
      frame.map (Memory.slice · 0 length.toNat) = some bytes ∧ bytes.length = length ∧
      (∀ answer, ∃ y, run txReply (ax88179Send handle frame length) [answer] x =
          some (if answer = (txTransfer x.mem.ax.txMaxpacket bytes).length then 0 else -1, y, []) ∧
        y.world = x.world ++ [.uhsSubmitBulkRequest x.mem.ax.ifHandle x.mem.ax.epOut
          (txTransfer x.mem.ax.txMaxpacket bytes) 1000]) ∧
      (txTransfer x.mem.ax.txMaxpacket bytes).length ≤ txBufferSize ∧
      (txTransfer x.mem.ax.txMaxpacket bytes).length % x.mem.ax.txMaxpacket ≠ 0 ∧
      le32 (Memory.ofList (txTransfer x.mem.ax.txMaxpacket bytes)) 0 = wireLength bytes ∧
      ((txTransfer x.mem.ax.txMaxpacket bytes).drop 8).take (wireLength bytes) =
        bytes ++ List.replicate (wireLength bytes - bytes.length) 0) := by
  have hlegal : LegalPacket x.mem.ax.txMaxpacket := hpacket ▸ findEndpoints_legal hfresh haccepted
  refine ⟨⟨hlegal, fun i hfirst hnumber ↦ ?_⟩, run_ax88179Send_refused, fun haccept ↦ ?_⟩
  · rw [hpacket, hout]
    exact findEndpoints_out hfirst hnumber hfresh haccepted
  cases frame with
  | none => exact absurd (.inr (.inr (.inl rfl))) haccept
  | some frame =>
    have hrange : 14 ≤ length ∧ length ≤ 1518 := by
      by_contra hout
      exact haccept (.inr (.inr (.inr (by omega))))
    have hbytes : (frame.slice 0 length.toNat).length = length.toNat := Memory.length_slice _ _ _
    have hone : 1 < x.mem.ax.txMaxpacket := by
      rcases hlegal with hsize | hsize | hsize <;> omega
    refine ⟨frame.slice 0 length.toNat, rfl, by omega, fun answer ↦ ?_, ?_,
      length_txTransfer_mod hone _, txTransfer_read _ _ (by omega)⟩
    · rw [run_ax88179Send haccept, run_sendChecked]
      exact ⟨_, rfl, rfl⟩
    · rw [length_txTransfer, wireLength, hbytes, txBufferSize, txMinimum]
      split <;> omega

/-- A frame of 504 bytes over an endpoint whose size 512 stands in the other byte order. -/
theorem ax88179Send_submits_padded :
    let profile : UhsInterfaceProfile :=
      { inEndpoints := fun i ↦ if i = 1 then ⟨7, 0x82, 2, 2⟩ else {}
        outEndpoints := fun i ↦ if i = 3 then ⟨7, 0x03, 2, 2⟩ else {} }
    let ax : Ax88179 := { epOut := 3, txMaxpacket := 512, medium := 0x133 }
    let frame : Memory := fun index ↦ UInt8.ofNat index
    endpointsFound (findEndpoints profile {}) ∧
    ∀ gTx : Memory, ∃ y, run txReply (ax88179Send true (some frame) 504) [513] ⟨⟨ax, gTx⟩, []⟩ =
        some (0, y, []) ∧
      y.world = [.uhsSubmitBulkRequest 0 3 (txTransfer 512 (frame.slice 0 504)) 1000] := by
  intro profile ax frame
  have hfound : endpointsFound (findEndpoints profile {}) := by decide
  have hpacket : ax.txMaxpacket = (findEndpoints profile {}).txMaxpacket := by decide
  have hout : ax.epOut = (findEndpoints profile {}).epOut := by decide
  refine ⟨hfound, fun gTx ↦ ?_⟩
  obtain ⟨-, -, hsubmits⟩ := ax88179Send_submits profile {} rfl hfound ⟨⟨ax, gTx⟩, []⟩ hpacket hout
    true (some frame) 504
  have hargs : ¬ SendRefused true (some frame) 504 ax := by
    rintro (h | h | h | h | h)
    · cases h
    · cases h
    · cases h
    · exact absurd h (by decide)
    · exact absurd h (by decide)
  obtain ⟨bytes, hbytes, -, hrun, -⟩ := hsubmits hargs
  obtain rfl : frame.slice 0 504 = bytes := Option.some.inj hbytes
  obtain ⟨y, hrun, hworld⟩ := hrun 513
  have hlength : (txTransfer 512 (frame.slice 0 504)).length = 513 := by
    rw [length_txTransfer, wireLength, Memory.length_slice]
    rfl
  rw [hlength] at hrun
  exact ⟨y, hrun, hworld⟩

end Ax88179Aroma.Driver
