import Ax88179Aroma.Driver.State
import Mathlib.Algebra.Order.Group.Int

/-!
# Unwrapping a receive aggregate

A bulk transfer ends in a trailer that gives the number of descriptors and the offset of their
table; the records stand before the table in the order of the descriptors.  `axRxLoadAggregate` is
the last part of `ax_rx_take_completed`, which resets the cursor to a fresh snapshot, and
`receiveBufferedImpl` is the loop that returns one frame per call.  Both also list what they read
in `g_rx`.

`unwrapNext_step` says once what one turn of the loop can do, and every property of whole calls is
derived from it.
-/

namespace Ax88179Aroma.Driver

open Effect

/-- A 32-bit little-endian word of the chip. -/
def le32 (memory : Memory) (first : ℕ) : ℕ :=
  (memory first).toNat ||| (memory (first + 1)).toNat <<< 8 |||
    (memory (first + 2)).toNat <<< 16 ||| (memory (first + 3)).toNat <<< 24

/-- What one descriptor comes to. -/
inductive Unwrapped where
  | skip
  | malformed
  | frame (packetLen : ℤ) (bytes : List UInt8)
  deriving DecidableEq, Repr

/-- One turn of the descriptor loop: the handle after it, its outcome and its reads. -/
def unwrapNext (gRx : Memory) (maxLength : ℤ) (ax : Ax88179) :
    Ax88179 × Unwrapped × List RxRead :=
  let first := ax.rxHdrOffset + 4 * ax.rxNext
  let d := le32 gRx first
  let desc := RxRead.descriptor ax.rxNext first
  let ax := { ax with rxNext := ax.rxNext + 1 }
  let length := (d >>> 16) &&& 0x1FFF
  if length = 0 then (ax, .skip, [desc])
  else
    -- `(length + 7) & ~7`
    let padded := (length + 7) / 8 * 8
    if ax.rxPos + padded > ax.rxHdrOffset then
      ({ ax with rxFrames := 0 }, .malformed, [desc])
    else
      let packet := ax.rxPos + 2
      let packetLen : ℤ := (length : ℤ) - 2 - 4
      let ax := { ax with rxPos := ax.rxPos + padded }
      if d &&& (axRxhdrCrcErr ||| axRxhdrDropErr) ≠ 0 ∨ packetLen < 14 then
        (ax, .skip, [desc])
      else if packetLen > maxLength then (ax, .skip, [desc])
      else
        (ax, .frame packetLen (gRx.slice packet packetLen.toNat),
          [desc, .frame packet packetLen.toNat])

/-- The descriptor loop; the first argument counts the descriptors that are left. -/
def receiveBufferedLoop (gRx : Memory) (maxLength : ℤ) :
    ℕ → Ax88179 → Ax88179 × Received × List RxRead
  | 0, ax => (ax, ⟨0, []⟩, [])
  | left + 1, ax =>
    if ax.rxNext < ax.rxFrames then
      match unwrapNext gRx maxLength ax with
      | (ax', .skip, reads) =>
        let rest := receiveBufferedLoop gRx maxLength left ax'
        (rest.1, rest.2.1, reads ++ rest.2.2)
      | (ax', .malformed, reads) => (ax', ⟨-1, []⟩, reads)
      | (ax', .frame packetLen bytes, reads) => (ax', ⟨packetLen, bytes⟩, reads)
    else (ax, ⟨0, []⟩, [])

/-- `ax88179_receive_buffered_impl` on a valid handle and frame pointer. -/
def receiveBufferedImpl (gRx : Memory) (maxLength : ℤ) (ax : Ax88179) :
    Ax88179 × Received × List RxRead :=
  if maxLength < 14 then (ax, ⟨-1, []⟩, [])
  else receiveBufferedLoop gRx maxLength (ax.rxFrames - ax.rxNext) ax

/-- Reset the cursor to a snapshot of `actual` bytes: 1 loaded, 0 empty, -1 inconsistent. -/
def axRxLoadAggregate (gRx : Memory) (actual : ℕ) (ax : Ax88179) : Ax88179 × ℤ × List RxRead :=
  let rxHdr := le32 gRx (actual - 4)
  let ax := { ax with
    rxLen := actual
    rxFrames := rxHdr &&& 0xFFFF
    rxHdrOffset := (rxHdr >>> 16) &&& 0xFFFF
    rxNext := 0
    rxPos := 0 }
  let reads := [RxRead.trailer (actual - 4)]
  if ax.rxFrames = 0 then (ax, 0, reads)
  else if ax.rxHdrOffset + 4 * ax.rxFrames > ax.rxLen - 4 then
    ({ ax with rxFrames := 0 }, -1, reads)
  else (ax, 1, reads)

/-! ## What one turn does -/

/-- The possible effects of one turn of the descriptor loop. -/
inductive UnwrapStep (gRx : Memory) (maxLength : ℤ) (ax : Ax88179) :
    Ax88179 × Unwrapped × List RxRead → Prop where
  | skip (pos : ℕ) (hpos : ax.rxPos ≤ pos) (htable : pos = ax.rxPos ∨ pos ≤ ax.rxHdrOffset) :
      UnwrapStep gRx maxLength ax
        ({ ax with rxNext := ax.rxNext + 1, rxPos := pos }, .skip,
          [.descriptor ax.rxNext (ax.rxHdrOffset + 4 * ax.rxNext)])
  | malformed :
      UnwrapStep gRx maxLength ax
        ({ ax with rxNext := ax.rxNext + 1, rxFrames := 0 }, .malformed,
          [.descriptor ax.rxNext (ax.rxHdrOffset + 4 * ax.rxNext)])
  | frame (count pos : ℕ) (hmin : 14 ≤ count) (hmax : (count : ℤ) ≤ maxLength)
      (hpos : ax.rxPos + 2 + count + 4 ≤ pos) (htable : pos ≤ ax.rxHdrOffset) :
      UnwrapStep gRx maxLength ax
        ({ ax with rxNext := ax.rxNext + 1, rxPos := pos },
          .frame count (gRx.slice (ax.rxPos + 2) count),
          [.descriptor ax.rxNext (ax.rxHdrOffset + 4 * ax.rxNext),
            .frame (ax.rxPos + 2) count])

theorem unwrapNext_step (gRx : Memory) (maxLength : ℤ) (ax : Ax88179) :
    UnwrapStep gRx maxLength ax (unwrapNext gRx maxLength ax) := by
  unfold unwrapNext
  dsimp only
  generalize le32 gRx (ax.rxHdrOffset + 4 * ax.rxNext) = d
  generalize (d >>> 16) &&& 0x1FFF = length
  split_ifs with hzero hfit herror hmax
  · exact .skip ax.rxPos le_rfl (.inl rfl)
  · exact .malformed
  · exact .skip _ (by omega) (.inr (by omega))
  · exact .skip _ (by omega) (.inr (by omega))
  · obtain ⟨-, hmin⟩ := not_or.mp herror
    have hcount : ((length : ℤ) - 2 - 4) = (((length : ℤ) - 2 - 4).toNat : ℤ) := by omega
    rw [hcount, Int.toNat_natCast]
    exact .frame _ _ (by omega) (by omega) (by omega) (by omega)

/-! ## The loop as an equation -/

/-- The `while` loop: a skipped descriptor continues with the rest, anything else returns. -/
theorem receiveBufferedImpl_eq {gRx : Memory} {maxLength : ℤ} (hmax : 14 ≤ maxLength)
    (ax : Ax88179) :
    receiveBufferedImpl gRx maxLength ax =
      if ax.rxNext < ax.rxFrames then
        match unwrapNext gRx maxLength ax with
        | (ax', .skip, reads) =>
          let rest := receiveBufferedImpl gRx maxLength ax'
          (rest.1, rest.2.1, reads ++ rest.2.2)
        | (ax', .malformed, reads) => (ax', ⟨-1, []⟩, reads)
        | (ax', .frame packetLen bytes, reads) => (ax', ⟨packetLen, bytes⟩, reads)
      else (ax, ⟨0, []⟩, []) := by
  have hnot : ¬ maxLength < 14 := not_lt.mpr hmax
  unfold receiveBufferedImpl
  rw [if_neg hnot]
  by_cases hmore : ax.rxNext < ax.rxFrames
  · obtain ⟨left, hleft⟩ : ∃ left, ax.rxFrames - ax.rxNext = left + 1 :=
      ⟨ax.rxFrames - ax.rxNext - 1, by omega⟩
    rw [hleft, receiveBufferedLoop, if_pos hmore, if_pos hmore]
    have hstep := unwrapNext_step gRx maxLength ax
    generalize unwrapNext gRx maxLength ax = outcome at hstep
    cases hstep with
    | skip pos hpos htable =>
      have hrest : ax.rxFrames - (ax.rxNext + 1) = left := by omega
      simp only [if_neg hnot, hrest]
    | malformed => rfl
    | frame count pos hmin hmax' hpos htable => rfl
  · have hleft : ax.rxFrames - ax.rxNext = 0 := by omega
    rw [hleft, if_neg hmore]
    rfl

/-- Induction along the descriptors that are left. -/
theorem descriptor_induction {motive : Ax88179 → Prop}
    (step : ∀ ax, (ax.rxNext < ax.rxFrames → ∀ ax', ax'.rxFrames = ax.rxFrames →
      ax'.rxNext = ax.rxNext + 1 → motive ax') → motive ax) (ax : Ax88179) : motive ax := by
  obtain ⟨left, hleft⟩ : ∃ left, ax.rxFrames - ax.rxNext = left := ⟨_, rfl⟩
  induction left generalizing ax with
  | zero => exact step ax fun hmore ↦ by omega
  | succ left ih =>
    exact step ax fun _ ax' hframes hnext ↦ ih ax' (by omega)

/-- The receive loop moves the cursor only. -/
theorem receiveBufferedImpl_keeps (gRx : Memory) (maxLength : ℤ) (ax : Ax88179) :
    (receiveBufferedImpl gRx maxLength ax).1.medium = ax.medium ∧
      (receiveBufferedImpl gRx maxLength ax).1.rxAsyncStarted = ax.rxAsyncStarted ∧
        (receiveBufferedImpl gRx maxLength ax).1.rxConsume = ax.rxConsume := by
  by_cases hmax : 14 ≤ maxLength
  · induction ax using descriptor_induction with
    | step ax ih =>
      rw [receiveBufferedImpl_eq hmax ax]
      by_cases hmore : ax.rxNext < ax.rxFrames
      · rw [if_pos hmore]
        have hstep := unwrapNext_step gRx maxLength ax
        generalize unwrapNext gRx maxLength ax = outcome at hstep
        cases hstep with
        | skip pos hpos htable => exact ih hmore _ rfl rfl
        | malformed => exact ⟨rfl, rfl, rfl⟩
        | frame count pos hmin hmax' hpos htable => exact ⟨rfl, rfl, rfl⟩
      · rw [if_neg hmore]
        exact ⟨rfl, rfl, rfl⟩
  · unfold receiveBufferedImpl
    rw [if_pos (not_le.mp hmax)]
    exact ⟨rfl, rfl, rfl⟩

theorem axRxLoadAggregate_keeps (gRx : Memory) (actual : ℕ) (ax : Ax88179) :
    (axRxLoadAggregate gRx actual ax).1.medium = ax.medium ∧
      (axRxLoadAggregate gRx actual ax).1.rxAsyncStarted = ax.rxAsyncStarted ∧
        (axRxLoadAggregate gRx actual ax).1.rxConsume = ax.rxConsume := by
  unfold axRxLoadAggregate
  dsimp only
  split_ifs <;> exact ⟨rfl, rfl, rfl⟩

/-! ## The frames of a snapshot -/

def bufferedFramesLoop (gRx : Memory) (maxLength : ℤ) : ℕ → Ax88179 → List (List UInt8)
  | 0, _ => []
  | left + 1, ax =>
    match unwrapNext gRx maxLength ax with
    | (ax', .skip, _) => bufferedFramesLoop gRx maxLength left ax'
    | (_, .malformed, _) => []
    | (ax', .frame _ bytes, _) => bytes :: bufferedFramesLoop gRx maxLength left ax'

/-- The frames that the snapshot still holds at the cursor, up to the first malformed record. -/
def bufferedFrames (gRx : Memory) (maxLength : ℤ) (ax : Ax88179) : List (List UInt8) :=
  bufferedFramesLoop gRx maxLength (ax.rxFrames - ax.rxNext) ax

theorem bufferedFrames_of_le {gRx : Memory} {maxLength : ℤ} {ax : Ax88179}
    (h : ax.rxFrames ≤ ax.rxNext) : bufferedFrames gRx maxLength ax = [] := by
  unfold bufferedFrames
  rw [Nat.sub_eq_zero_of_le h]
  rfl

theorem bufferedFrames_of_lt {gRx : Memory} {maxLength : ℤ} {ax : Ax88179}
    (h : ax.rxNext < ax.rxFrames) :
    bufferedFrames gRx maxLength ax =
      match unwrapNext gRx maxLength ax with
      | (ax', .skip, _) => bufferedFrames gRx maxLength ax'
      | (_, .malformed, _) => []
      | (ax', .frame _ bytes, _) => bytes :: bufferedFrames gRx maxLength ax' := by
  obtain ⟨left, hleft⟩ : ∃ left, ax.rxFrames - ax.rxNext = left + 1 :=
    ⟨ax.rxFrames - ax.rxNext - 1, by omega⟩
  have hrest : ax.rxFrames - (ax.rxNext + 1) = left := by omega
  unfold bufferedFrames
  rw [hleft, bufferedFramesLoop]
  have hstep := unwrapNext_step gRx maxLength ax
  generalize unwrapNext gRx maxLength ax = outcome at hstep
  cases hstep with
  | skip pos hpos htable => simp only [hrest]
  | malformed => rfl
  | frame count pos hmin hmax hpos htable => simp only [hrest]

/-! ## The parser reads inside the aggregate -/

/-- The descriptors that are left stand before the trailer, and the data cursor before the table. -/
structure InBounds (ax : Ax88179) (length : ℕ) : Prop where
  table : ax.rxNext < ax.rxFrames → ax.rxHdrOffset + 4 * ax.rxFrames + 4 ≤ length
  pos : ax.rxNext < ax.rxFrames → ax.rxPos ≤ ax.rxHdrOffset

theorem InBounds.of_le {ax : Ax88179} (h : ax.rxFrames ≤ ax.rxNext) (length : ℕ) :
    InBounds ax length :=
  ⟨fun hmore ↦ absurd hmore (not_lt.mpr h), fun hmore ↦ absurd hmore (not_lt.mpr h)⟩

theorem InBounds.unwrapNext {ax : Ax88179} {length : ℕ} (hx : InBounds ax length)
    (hmore : ax.rxNext < ax.rxFrames) (gRx : Memory) (maxLength : ℤ) :
    InBounds (unwrapNext gRx maxLength ax).1 length := by
  have htable := hx.table hmore
  have hpos := hx.pos hmore
  have hstep := unwrapNext_step gRx maxLength ax
  generalize Driver.unwrapNext gRx maxLength ax = outcome at hstep
  cases hstep with
  | skip pos hle hin => exact ⟨fun _ ↦ htable, fun _ ↦ by dsimp only; omega⟩
  | malformed => exact .of_le (Nat.zero_le _) length
  | frame count pos hmin hmax hle hin => exact ⟨fun _ ↦ htable, fun _ ↦ hin⟩

/-- A loaded aggregate of at least four bytes has its table in bounds. -/
theorem axRxLoadAggregate_inBounds (gRx : Memory) {actual : ℕ} (hactual : 4 ≤ actual)
    (ax : Ax88179) : InBounds (axRxLoadAggregate gRx actual ax).1 actual := by
  unfold axRxLoadAggregate
  dsimp only
  split
  · exact .of_le (by dsimp only; omega) actual
  · split
    · exact .of_le (Nat.zero_le _) actual
    · exact ⟨fun _ ↦ by dsimp only; omega, fun _ ↦ Nat.zero_le _⟩

/-- The parser's cursor: all that decoding depends on besides the snapshot. -/
structure SameCursor (left right : Ax88179) : Prop where
  frames : left.rxFrames = right.rxFrames
  next : left.rxNext = right.rxNext
  table : left.rxHdrOffset = right.rxHdrOffset
  pos : left.rxPos = right.rxPos

section Congruence

variable {gRx gRx' : Memory} {length : ℕ} {ax ax' : Ax88179}

theorem le32_congr {first : ℕ} (hagree : ∀ index < length, gRx index = gRx' index)
    (hfirst : first + 4 ≤ length) : le32 gRx first = le32 gRx' first := by
  unfold le32
  rw [hagree first (by omega), hagree (first + 1) (by omega), hagree (first + 2) (by omega),
    hagree (first + 3) (by omega)]

theorem unwrapNext_congr (hagree : ∀ index < length, gRx index = gRx' index)
    (hcursor : SameCursor ax ax') (hin : InBounds ax length) (hmore : ax.rxNext < ax.rxFrames)
    (maxLength : ℤ) :
    SameCursor (unwrapNext gRx maxLength ax).1 (unwrapNext gRx' maxLength ax').1 ∧
      (unwrapNext gRx maxLength ax).2.1 = (unwrapNext gRx' maxLength ax').2.1 := by
  have htable := hin.table hmore
  have hword : le32 gRx (ax.rxHdrOffset + 4 * ax.rxNext) =
      le32 gRx' (ax'.rxHdrOffset + 4 * ax'.rxNext) := by
    rw [← hcursor.table, ← hcursor.next]
    exact le32_congr hagree (by omega)
  unfold unwrapNext
  dsimp only
  rw [hword, ← hcursor.pos, ← hcursor.table]
  generalize le32 gRx' _ = d
  split_ifs with hzero hfit herror hmax
  · exact ⟨⟨hcursor.frames, congrArg (· + 1) hcursor.next, rfl, rfl⟩, rfl⟩
  · exact ⟨⟨rfl, congrArg (· + 1) hcursor.next, rfl, rfl⟩, rfl⟩
  · exact ⟨⟨hcursor.frames, congrArg (· + 1) hcursor.next, rfl, rfl⟩, rfl⟩
  · exact ⟨⟨hcursor.frames, congrArg (· + 1) hcursor.next, rfl, rfl⟩, rfl⟩
  · refine ⟨⟨hcursor.frames, congrArg (· + 1) hcursor.next, rfl, rfl⟩, ?_⟩
    have hslice : gRx.slice (ax.rxPos + 2) (((d >>> 16 &&& 0x1FFF : ℕ) : ℤ) - 2 - 4).toNat =
        gRx'.slice (ax.rxPos + 2) (((d >>> 16 &&& 0x1FFF : ℕ) : ℤ) - 2 - 4).toNat :=
      Memory.slice_congr fun index _ hindex ↦ hagree index (by omega)
    dsimp only
    rw [hslice]

/-- What a snapshot holds depends on the bytes of the aggregate only, not on what an earlier one
left behind it. -/
theorem bufferedFrames_congr (hagree : ∀ index < length, gRx index = gRx' index)
    (hcursor : SameCursor ax ax') (hin : InBounds ax length) (maxLength : ℤ) :
    bufferedFrames gRx maxLength ax = bufferedFrames gRx' maxLength ax' := by
  induction ax using descriptor_induction generalizing ax' with
  | step ax ih =>
    by_cases hmore : ax.rxNext < ax.rxFrames
    · have hmore' : ax'.rxNext < ax'.rxFrames := by rwa [← hcursor.next, ← hcursor.frames]
      obtain ⟨hnext, hsame⟩ := unwrapNext_congr hagree hcursor hin hmore maxLength
      have hin' := hin.unwrapNext hmore gRx maxLength
      rw [bufferedFrames_of_lt hmore, bufferedFrames_of_lt hmore']
      have hstep := unwrapNext_step gRx maxLength ax
      generalize unwrapNext gRx maxLength ax = outcome at *
      generalize unwrapNext gRx' maxLength ax' = outcome' at *
      obtain ⟨axNext', what', reads'⟩ := outcome'
      obtain rfl : outcome.2.1 = what' := hsame
      cases hstep with
      | skip pos hle htable =>
        dsimp only at hnext hin' ⊢
        refine ih hmore _ ?_ ?_ hnext hin' <;> rfl
      | malformed => rfl
      | frame count pos hmin hmax hle htable =>
        dsimp only at hnext hin' ⊢
        refine congrArg _ (ih hmore _ ?_ ?_ hnext hin') <;> rfl
    · have hmore' : ¬ ax'.rxNext < ax'.rxFrames := by rwa [← hcursor.next, ← hcursor.frames]
      rw [bufferedFrames_of_le (not_lt.mp hmore), bufferedFrames_of_le (not_lt.mp hmore')]

theorem axRxLoadAggregate_congr {actual : ℕ} (hagree : ∀ index < actual, gRx index = gRx' index)
    (hactual : 4 ≤ actual) :
    SameCursor (axRxLoadAggregate gRx actual ax).1 (axRxLoadAggregate gRx' actual ax').1 := by
  unfold axRxLoadAggregate
  dsimp only
  rw [le32_congr hagree (by omega)]
  split_ifs <;> exact ⟨rfl, rfl, rfl, rfl⟩

/-- One turn decodes bytes of the aggregate only. -/
theorem unwrapNext_agree (hagree : ∀ index < length, gRx index = gRx' index)
    (hin : InBounds ax length) (hmore : ax.rxNext < ax.rxFrames) (maxLength : ℤ) :
    unwrapNext gRx maxLength ax = unwrapNext gRx' maxLength ax := by
  have htable := hin.table hmore
  have hword : le32 gRx (ax.rxHdrOffset + 4 * ax.rxNext) =
      le32 gRx' (ax.rxHdrOffset + 4 * ax.rxNext) := le32_congr hagree (by omega)
  unfold unwrapNext
  dsimp only
  rw [hword]
  generalize le32 gRx' _ = d
  split_ifs with hzero hfit herror hmax
  · rfl
  · rfl
  · rfl
  · rfl
  · have hslice : gRx.slice (ax.rxPos + 2) (((d >>> 16 &&& 0x1FFF : ℕ) : ℤ) - 2 - 4).toNat =
        gRx'.slice (ax.rxPos + 2) (((d >>> 16 &&& 0x1FFF : ℕ) : ℤ) - 2 - 4).toNat :=
      Memory.slice_congr fun index _ hindex ↦ hagree index (by omega)
    rw [hslice]

theorem receiveBufferedImpl_agree (hagree : ∀ index < length, gRx index = gRx' index)
    (hin : InBounds ax length) {maxLength : ℤ} (hmax : 14 ≤ maxLength) :
    receiveBufferedImpl gRx maxLength ax = receiveBufferedImpl gRx' maxLength ax := by
  induction ax using descriptor_induction with
  | step ax ih =>
    rw [receiveBufferedImpl_eq hmax ax, receiveBufferedImpl_eq hmax ax]
    by_cases hmore : ax.rxNext < ax.rxFrames
    · rw [if_pos hmore, if_pos hmore, unwrapNext_agree hagree hin hmore]
      have hin' := hin.unwrapNext hmore gRx' maxLength
      have hstep := unwrapNext_step gRx' maxLength ax
      generalize unwrapNext gRx' maxLength ax = outcome at hstep hin'
      cases hstep with
      | skip pos hpos htable =>
        dsimp only at hin' ⊢
        rw [ih hmore { ax with rxNext := ax.rxNext + 1, rxPos := pos } rfl rfl hin']
      | malformed => rfl
      | frame count pos hmin hmax' hpos htable => rfl
    · rw [if_neg hmore, if_neg hmore]

theorem axRxLoadAggregate_agree {actual : ℕ} (hagree : ∀ index < actual, gRx index = gRx' index)
    (hactual : 4 ≤ actual) :
    axRxLoadAggregate gRx actual ax = axRxLoadAggregate gRx' actual ax := by
  unfold axRxLoadAggregate
  rw [le32_congr hagree (by omega)]

end Congruence

/-- One receive call takes exactly the first frame that the snapshot still holds.  Without one it
leaves a cursor that holds nothing any more. -/
theorem receiveBufferedImpl_frames {maxLength : ℤ} (hmax : 14 ≤ maxLength) (gRx : Memory)
    (ax : Ax88179) :
    let out := receiveBufferedImpl gRx maxLength ax
    (0 < out.2.1.ret ∧
      bufferedFrames gRx maxLength ax = out.2.1.frame :: bufferedFrames gRx maxLength out.1) ∨
    (out.2.1.ret ≤ 0 ∧ -1 ≤ out.2.1.ret ∧ out.2.1.frame = [] ∧
      bufferedFrames gRx maxLength ax = [] ∧ out.1.rxFrames ≤ out.1.rxNext) := by
  induction ax using descriptor_induction with
  | step ax ih =>
    rw [receiveBufferedImpl_eq hmax ax]
    by_cases hmore : ax.rxNext < ax.rxFrames
    · rw [if_pos hmore, bufferedFrames_of_lt hmore]
      have hstep := unwrapNext_step gRx maxLength ax
      generalize unwrapNext gRx maxLength ax = outcome at hstep
      cases hstep with
      | skip pos hpos htable => exact ih hmore _ rfl rfl
      | malformed =>
        have hneg : (-1 : ℤ) ≤ 0 := by decide
        exact .inr ⟨hneg, le_refl (-1 : ℤ), rfl, rfl, Nat.zero_le _⟩
      | frame count pos hmin hmax' hpos htable =>
        have hpositive : (0 : ℤ) < count := by omega
        exact .inl ⟨hpositive, rfl⟩
    · rw [if_neg hmore]
      have hle : ax.rxFrames ≤ ax.rxNext := not_lt.mp hmore
      have hneg : (-1 : ℤ) ≤ 0 := by decide
      exact .inr ⟨le_rfl, hneg, rfl, bufferedFrames_of_le hle, hle⟩

/-- The frame that a receive call handed to its caller. -/
def Received.frames (result : Received) : List (List UInt8) :=
  if 0 < result.ret then [result.frame] else []

/-- The frame that the parser takes is the first one that the snapshot holds. -/
theorem receiveBufferedImpl_buffered {maxLength : ℤ} (hmax : 14 ≤ maxLength) (gRx : Memory) (ax : Ax88179) :
    let out := receiveBufferedImpl gRx maxLength ax
    bufferedFrames gRx maxLength ax = out.2.1.frames ++ bufferedFrames gRx maxLength out.1 ∧
      (out.2.1.ret ≤ 0 → out.1.rxFrames ≤ out.1.rxNext) := by
  obtain ⟨hpositive, hframes⟩ | ⟨hle, -, -, hnone, hdrained⟩ :=
    receiveBufferedImpl_frames hmax gRx ax
  · refine ⟨?_, fun hle ↦ absurd hpositive (not_lt.mpr hle)⟩
    unfold Received.frames
    rw [if_pos hpositive]
    exact hframes
  · refine ⟨?_, fun _ ↦ hdrained⟩
    unfold Received.frames
    rw [if_neg (not_lt.mpr hle), hnone, bufferedFrames_of_le hdrained]
    rfl

theorem axRxLoadAggregate_drained (gRx : Memory) (actual : ℕ) (ax : Ax88179)
    (h : (axRxLoadAggregate gRx actual ax).2.1 ≤ 0) :
    (axRxLoadAggregate gRx actual ax).1.rxFrames ≤
      (axRxLoadAggregate gRx actual ax).1.rxNext := by
  unfold axRxLoadAggregate at h ⊢
  dsimp only at h ⊢
  split_ifs at h ⊢ with hempty hbad
  · exact hempty.le
  · exact Nat.zero_le _
  · have hpositive : ¬ (1 : ℤ) ≤ 0 := by decide
    exact absurd h hpositive

/-- One record of 20 bytes, its descriptor and the trailer. -/
def smallAggregate : Memory :=
  .ofList (List.replicate 24 7 ++ [0, 0, 20, 0] ++ [1, 0, 24, 0])

end Ax88179Aroma.Driver
