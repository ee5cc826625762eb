import Mathlib.Data.Finset.Card
import Mathlib.Data.Finset.Range
import Mathlib.Data.List.Nodup
import Mathlib.Data.List.Perm.Basic

/-!
# Slots and their owners

A fixed number of slots carries one flag each.  `Marked count owners flags` says that the list of
owners names pairwise distinct slots and that exactly these are flagged.  Taking a free slot adds an
owner, releasing one removes it, and handing slots over only permutes the list.
-/

namespace Ax88179Aroma.Effect

/-- `owners` are distinct slots below `count`, and a slot is flagged exactly when it is owned. -/
structure Marked (count : ℕ) (owners : List ℕ) (flags : ℕ → ℤ) : Prop where
  nodup : owners.Nodup
  bound : ∀ slot ∈ owners, slot < count
  flags_eq : ∀ slot < count, flags slot = if slot ∈ owners then 1 else 0

namespace Marked

variable {count slot : ℕ} {owners owners' : List ℕ} {flags : ℕ → ℤ}

theorem not_mem (h : Marked count owners flags) (hslot : slot < count) (hfree : flags slot = 0) :
    slot ∉ owners := by
  intro hmem
  have hone := h.flags_eq slot hslot
  rw [hfree, if_pos hmem] at hone
  omega

theorem length_le (h : Marked count owners flags) : owners.length ≤ count := by
  have hsubset : owners.toFinset ⊆ Finset.range count := fun slot hslot ↦
    Finset.mem_range.mpr (h.bound slot (List.mem_toFinset.mp hslot))
  calc owners.length = owners.toFinset.card := (List.toFinset_card_of_nodup h.nodup).symm
    _ ≤ (Finset.range count).card := Finset.card_le_card hsubset
    _ = count := Finset.card_range count

theorem perm (h : Marked count owners flags) (hperm : owners'.Perm owners) :
    Marked count owners' flags where
  nodup := hperm.nodup_iff.mpr h.nodup
  bound slot hslot := h.bound slot (hperm.mem_iff.mp hslot)
  flags_eq slot hslot := by
    rw [h.flags_eq slot hslot]
    simp only [hperm.mem_iff]

/-- A free slot is taken. -/
theorem take (h : Marked count owners flags) (hslot : slot < count) (hfree : flags slot = 0) :
    Marked count (slot :: owners) (Function.update flags slot 1) where
  nodup := List.nodup_cons.mpr ⟨h.not_mem hslot hfree, h.nodup⟩
  bound other hother := by
    rcases List.mem_cons.mp hother with rfl | hother
    · exact hslot
    · exact h.bound other hother
  flags_eq other hother := by
    by_cases hsame : other = slot
    · rw [hsame, Function.update_self, if_pos List.mem_cons_self]
    · rw [Function.update_of_ne hsame, h.flags_eq other hother]
      simp only [List.mem_cons, hsame, false_or]

/-- An owned slot is released. -/
theorem release (h : Marked count (slot :: owners) flags) :
    Marked count owners (Function.update flags slot 0) := by
  obtain ⟨hnot, hnodup⟩ := List.nodup_cons.mp h.nodup
  refine ⟨hnodup, fun other hother ↦ h.bound other (List.mem_cons_of_mem slot hother), ?_⟩
  intro other hother
  by_cases hsame : other = slot
  · rw [hsame, Function.update_self, if_neg hnot]
  · rw [Function.update_of_ne hsame, h.flags_eq other hother]
    simp only [List.mem_cons, hsame, false_or]

end Marked

end Ax88179Aroma.Effect
