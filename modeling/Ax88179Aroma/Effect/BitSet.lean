import Mathlib.Data.Finset.Card
import Mathlib.Data.Finset.Range

/-!
# Bit vectors as sets

The set bits of a vector as a finite set of numbers, and how the bitwise operations act on it.
-/

namespace Ax88179Aroma.Effect

variable {n i : ℕ} {s t : BitVec n}

/-- The positions of the set bits. -/
def members (s : BitVec n) : Finset ℕ := {i ∈ Finset.range n | s.getLsbD i = true}

@[simp]
theorem mem_members : i ∈ members s ↔ s.getLsbD i = true := by
  rw [members, Finset.mem_filter, Finset.mem_range]
  refine and_iff_right_of_imp fun h ↦ ?_
  by_contra hge
  rw [BitVec.getLsbD_of_ge s i (by omega)] at h
  cases h

theorem members_or : members (s ||| t) = members s ∪ members t := by
  ext i
  simp

theorem members_eq_empty_iff : members s = ∅ ↔ s = 0 := by
  constructor
  · intro h
    apply BitVec.eq_of_getLsbD_eq
    intro i _
    have hi : i ∉ members s := h ▸ Finset.notMem_empty i
    rw [mem_members, Bool.not_eq_true] at hi
    exact hi.trans BitVec.getLsbD_zero.symm
  · rintro rfl
    ext i
    simp

/-- The number of set bits. -/
def bitCount (s : BitVec n) : ℕ := (members s).card

@[simp]
theorem bitCount_zero : bitCount 0#n = 0 :=
  Finset.card_eq_zero.mpr (members_eq_empty_iff.mpr rfl)

theorem bitCount_eq_zero_iff : bitCount s = 0 ↔ s = 0 :=
  Finset.card_eq_zero.trans members_eq_empty_iff

/-- The set bits of two vectors without a common one. -/
theorem bitCount_or (h : Disjoint (members s) (members t)) :
    bitCount (s ||| t) = bitCount s + bitCount t := by
  rw [bitCount, members_or, Finset.card_union_of_disjoint h, bitCount, bitCount]

end Ax88179Aroma.Effect
