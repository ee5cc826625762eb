import Mathlib.Algebra.Order.Ring.Int
import Mathlib.Algebra.Order.Ring.Nat
import Mathlib.Data.List.Basic
import Mathlib.Tactic.Common

/-!
# Buffers with checked accesses

A buffer is the list of its bytes.  An access outside it is a fault that stops the program, so a
program that returns a value on every input never left its buffers.  A cursor that a program
keeps into a buffer can be checked in the same way.
-/

namespace Ax88179Aroma.Effect

/-- An access a program must not make. -/
inductive Fault
  | load (stop : ℕ)
  | store (stop : ℕ)
  | cursor (position : ℕ)
deriving DecidableEq, Repr

abbrev Buffer := List UInt8

namespace Buffer

/-- The `count` bytes from `start` on. -/
def loadMany (buffer : Buffer) (start count : ℕ) : Except Fault (List UInt8) :=
  if start + count ≤ buffer.length then .ok ((buffer.drop start).take count)
  else .error (.load (start + count))

def load (buffer : Buffer) (index : ℕ) : Except Fault UInt8 :=
  match buffer[index]? with
  | some byte => .ok byte
  | none => .error (.load (index + 1))

/-- Overwrite the bytes from `start` on. -/
def storeMany (buffer : Buffer) (start : ℕ) (bytes : List UInt8) : Except Fault Buffer :=
  if start + bytes.length ≤ buffer.length then
    .ok (buffer.take start ++ bytes ++ buffer.drop (start + bytes.length))
  else .error (.store (start + bytes.length))

/-- A cursor may point at most to the end of the buffer. -/
def cursor (buffer : Buffer) (position : ℕ) : Except Fault ℕ :=
  if position ≤ buffer.length then .ok position else .error (.cursor position)

/-- The buffer holds the given bytes from `start` on. -/
def Holds (buffer : Buffer) (start : ℕ) (bytes : List UInt8) : Prop :=
  ∀ k < bytes.length, buffer[start + k]? = bytes[k]?

@[simp]
theorem ok_bind {α β : Type} (value : α) (next : α → Except Fault β) :
    (Except.ok value >>= next) = next value := rfl

theorem load_eq {buffer : Buffer} {index : ℕ} {byte : UInt8} (h : buffer[index]? = some byte) :
    buffer.load index = .ok byte := by
  rw [load, h]

theorem exists_load {buffer : Buffer} {index : ℕ} (h : index < buffer.length) :
    ∃ byte, buffer[index]? = some byte ∧ buffer.load index = .ok byte := by
  have hget : buffer[index]? = some buffer[index] := List.getElem?_eq_getElem h
  exact ⟨buffer[index], hget, load_eq hget⟩

theorem lt_length_of_getElem? {buffer : Buffer} {index : ℕ} {byte : UInt8}
    (h : buffer[index]? = some byte) : index < buffer.length :=
  (List.getElem?_eq_some_iff.mp h).1

theorem loadMany_eq {buffer : Buffer} {start count : ℕ} (h : start + count ≤ buffer.length) :
    buffer.loadMany start count = .ok ((buffer.drop start).take count) := if_pos h

theorem cursor_eq {buffer : Buffer} {position : ℕ} (h : position ≤ buffer.length) :
    buffer.cursor position = .ok position := if_pos h

theorem length_slice_le {buffer : Buffer} {start count : ℕ} (h : start + count ≤ buffer.length) :
    ((buffer.drop start).take count).length = count := by
  rw [List.length_take, List.length_drop]
  omega

@[simp]
theorem holds_nil (buffer : Buffer) (start : ℕ) : buffer.Holds start [] := by
  intro k hk
  exact absurd hk (Nat.not_lt_zero k)

theorem holds_self (buffer : Buffer) : buffer.Holds 0 buffer := by
  intro k _
  rw [Nat.zero_add]

theorem holds_cons {buffer : Buffer} {start : ℕ} {byte : UInt8} {bytes : List UInt8} :
    buffer.Holds start (byte :: bytes) ↔
      buffer[start]? = some byte ∧ buffer.Holds (start + 1) bytes := by
  constructor
  · intro h
    refine ⟨by simpa using h 0 (Nat.succ_pos _), fun k hk ↦ ?_⟩
    have hnext := h (k + 1) (Nat.succ_lt_succ hk)
    rw [show start + 1 + k = start + (k + 1) by omega, hnext]
    rfl
  · rintro ⟨hfirst, hrest⟩ k hk
    cases k with
    | zero => simpa using hfirst
    | succ k =>
      have hnext := hrest k (Nat.lt_of_succ_lt_succ hk)
      rw [show start + (k + 1) = start + 1 + k by omega, hnext]
      rfl

theorem holds_append {buffer : Buffer} {first second : List UInt8} :
    ∀ {start : ℕ}, buffer.Holds start (first ++ second) ↔
      buffer.Holds start first ∧ buffer.Holds (start + first.length) second := by
  induction first with
  | nil =>
    intro start
    simp
  | cons byte rest ih =>
    intro start
    rw [List.cons_append, holds_cons, holds_cons, ih, and_assoc, List.length_cons,
      show start + 1 + rest.length = start + (rest.length + 1) by omega]

theorem Holds.length_le {buffer : Buffer} {start : ℕ} {bytes : List UInt8}
    (h : buffer.Holds start bytes) (hbytes : bytes ≠ []) :
    start + bytes.length ≤ buffer.length := by
  have hpos := List.length_pos_iff.mpr hbytes
  have hlast := h (bytes.length - 1) (by omega)
  have hlt := lt_length_of_getElem? (hlast.trans (List.getElem?_eq_getElem (by omega)))
  omega

/-- Reading back what the buffer holds. -/
theorem Holds.slice {buffer : Buffer} {start : ℕ} {bytes : List UInt8}
    (h : buffer.Holds start bytes) : (buffer.drop start).take bytes.length = bytes := by
  apply List.ext_getElem?
  intro k
  by_cases hk : k < bytes.length
  · rw [List.getElem?_take_of_lt hk, List.getElem?_drop, h k hk]
  · rw [List.getElem?_eq_none (by simp; omega), List.getElem?_eq_none (by omega)]

theorem Holds.congr {buffer other : Buffer} {start : ℕ} {bytes : List UInt8}
    (h : buffer.Holds start bytes)
    (hsame : ∀ index, start ≤ index → index < start + bytes.length →
      other[index]? = buffer[index]?) : other.Holds start bytes := by
  intro k hk
  rw [hsame (start + k) (by omega) (by omega), h k hk]

theorem holds_of_append {front bytes back : List UInt8} {start : ℕ}
    (hfront : front.length = start) : Holds (front ++ bytes ++ back) start bytes := by
  intro k hk
  rw [List.append_assoc, List.getElem?_append_right (by omega),
    List.getElem?_append_left (by omega), hfront, Nat.add_sub_cancel_left]

/-- What a write inside the buffer does: the bytes are there and the others are as before. -/
theorem exists_storeMany {buffer : Buffer} {start : ℕ} {bytes : List UInt8}
    (h : start + bytes.length ≤ buffer.length) :
    ∃ after, buffer.storeMany start bytes = .ok after ∧ after.length = buffer.length ∧
      after.Holds start bytes ∧
      ∀ index, index < start ∨ start + bytes.length ≤ index → after[index]? = buffer[index]? := by
  have hfront : (buffer.take start).length = start := by
    rw [List.length_take]
    omega
  refine ⟨_, if_pos h, ?_, holds_of_append hfront, fun index hindex ↦ ?_⟩
  · simp only [List.length_append, List.length_take, List.length_drop]
    omega
  · rcases hindex with hlt | hge
    · rw [List.append_assoc, List.getElem?_append_left (by omega),
        List.getElem?_take_of_lt hlt]
    · rw [List.getElem?_append_right (by rw [List.length_append, hfront]; exact hge),
        List.getElem?_drop, List.length_append, hfront]
      congr 1
      omega

end Buffer

end Ax88179Aroma.Effect
