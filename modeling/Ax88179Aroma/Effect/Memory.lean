import Mathlib.Data.List.Basic
import Mathlib.Tactic.Common

/-!
# Byte memory

A buffer of the source is a function from indices to bytes.  `slice` reads a range of it and
`copy` overwrites a prefix of it, as `memcpy` does.
-/

namespace Ax88179Aroma.Effect

abbrev Memory := ℕ → UInt8

namespace Memory

/-- The `count` bytes from index `start` on. -/
def slice (memory : Memory) (start count : ℕ) : List UInt8 :=
  (List.range count).map fun k ↦ memory (start + k)

/-- Overwrite the first `count` bytes. -/
def copy (memory source : Memory) (count : ℕ) : Memory :=
  fun index ↦ if index < count then source index else memory index

/-- Overwrite the bytes from index `start` on. -/
def write (memory : Memory) (start : ℕ) (bytes : List UInt8) : Memory :=
  fun index ↦ if start ≤ index then bytes.getD (index - start) (memory index) else memory index

/-- A buffer that starts with the given bytes and continues with zeros. -/
def ofList (bytes : List UInt8) : Memory :=
  fun index ↦ bytes.getD index 0

@[simp]
theorem length_slice (memory : Memory) (start count : ℕ) :
    (memory.slice start count).length = count := by
  simp [slice]

theorem slice_succ (memory : Memory) (start count : ℕ) :
    memory.slice start (count + 1) = memory.slice start count ++ [memory (start + count)] := by
  rw [slice, List.range_succ, List.map_append]
  rfl

/-- A range splits at any of its indices. -/
theorem slice_add (memory : Memory) (start first second : ℕ) :
    memory.slice start (first + second) =
      memory.slice start first ++ memory.slice (start + first) second := by
  simp only [slice, List.range_add, List.map_append, List.map_map, Nat.add_assoc]
  rfl

theorem slice_congr {left right : Memory} {start count : ℕ}
    (h : ∀ index, start ≤ index → index < start + count → left index = right index) :
    left.slice start count = right.slice start count := by
  refine List.map_congr_left fun k hk ↦ ?_
  have hlt : k < count := List.mem_range.mp hk
  exact h (start + k) (by omega) (by omega)

theorem eq_of_slice {left right : Memory} {count index : ℕ}
    (h : left.slice 0 count = right.slice 0 count) (hindex : index < count) :
    left index = right index := by
  have hkth := congrArg (fun list ↦ list[index]?) h
  simpa [slice, hindex] using hkth

theorem copy_of_lt {memory source : Memory} {count index : ℕ} (h : index < count) :
    memory.copy source count index = source index := if_pos h

/-- What was copied from a list is read back. -/
theorem slice_copy_ofList (memory : Memory) (bytes : List UInt8) :
    (memory.copy (ofList bytes) bytes.length).slice 0 bytes.length = bytes := by
  refine List.ext_getElem (length_slice _ _ _) fun index _ hindex ↦ ?_
  simp [slice, copy, ofList, hindex]

theorem slice_write_self (memory : Memory) (start : ℕ) (bytes : List UInt8) :
    (memory.write start bytes).slice start bytes.length = bytes := by
  refine List.ext_getElem (length_slice _ _ _) fun index _ hindex ↦ ?_
  simp [slice, write, hindex]

/-- A range that ends before the bytes written or starts behind them is kept. -/
theorem slice_write_of_disjoint {memory : Memory} {start first count : ℕ} {bytes : List UInt8}
    (h : first + count ≤ start ∨ start + bytes.length ≤ first) :
    (memory.write start bytes).slice first count = memory.slice first count := by
  refine slice_congr fun index hlow hhigh ↦ ?_
  unfold write
  split
  · rw [List.getD_eq_getElem?_getD, List.getElem?_eq_none (by omega)]
    rfl
  · rfl

end Memory

end Ax88179Aroma.Effect
