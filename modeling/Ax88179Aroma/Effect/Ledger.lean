import Mathlib.Logic.Function.Basic
import Mathlib.Data.List.Nodup

/-!
# Ledgers of recycled handles

A handle may be given out again after it was taken back.  A ledger gives every acquisition a serial
number of its own and counts how often each was released.  `Holds ledger held` says that the handles
`held` are out and that every other acquisition was released exactly once.
-/

namespace Ax88179Aroma.Effect

structure Ledger (κ : Type) where
  /-- the last acquisition of a handle -/
  last : κ → Option ℕ := fun _ ↦ none
  serial : ℕ := 0
  /-- the releases of each acquisition -/
  releases : ℕ → ℕ := fun _ ↦ 0

namespace Ledger

variable {κ : Type}

def isOut (l : Ledger κ) (n : κ) : Bool :=
  match l.last n with
  | some id => decide (l.releases id = 0)
  | none => false

/-- Only handles that are not out are given out. -/
def acquire [DecidableEq κ] (l : Ledger κ) (n : κ) : Option (Ledger κ) :=
  if l.isOut n then none
  else some { l with last := Function.update l.last n (some l.serial), serial := l.serial + 1 }

/-- A release counts for the last acquisition, also when that was released before. -/
def release (l : Ledger κ) (n : κ) : Ledger κ :=
  match l.last n with
  | some id => { l with releases := Function.update l.releases id (l.releases id + 1) }
  | none => l

/-- Exactly the acquisitions behind `held` are still to be released. -/
structure Holds (l : Ledger κ) (held : List κ) : Prop where
  nodup : held.Nodup
  out : ∀ n ∈ held, ∃ id, l.last n = some id ∧ l.releases id = 0
  last_lt : ∀ n id, l.last n = some id → id < l.serial
  last_inj : ∀ m n id, l.last m = some id → l.last n = some id → m = n
  settled : ∀ id < l.serial,
    l.releases id = 1 ∨ l.releases id = 0 ∧ ∃ n ∈ held, l.last n = some id
  fresh : ∀ id, l.serial ≤ id → l.releases id = 0

variable {l l' : Ledger κ} {held : List κ} {n : κ}

theorem isOut_iff : l.isOut n = true ↔ ∃ id, l.last n = some id ∧ l.releases id = 0 := by
  unfold isOut
  split
  · rename_i id hlast
    refine ⟨fun h ↦ ⟨id, hlast, of_decide_eq_true h⟩, ?_⟩
    rintro ⟨other, hother, hzero⟩
    obtain rfl := Option.some.inj (hlast.symm.trans hother)
    exact decide_eq_true hzero
  · rename_i hlast
    refine ⟨nofun, ?_⟩
    rintro ⟨other, hother, -⟩
    cases hlast.symm.trans hother

theorem acquire_eq [DecidableEq κ] (h : l.acquire n = some l') : l.isOut n = false ∧
    l' = { l with last := Function.update l.last n (some l.serial), serial := l.serial + 1 } := by
  unfold acquire at h
  split at h
  · cases h
  · rename_i hfree
    exact ⟨Bool.eq_false_iff.mpr hfree, (Option.some.inj h).symm⟩

theorem release_eq {id : ℕ} (h : l.last n = some id) :
    l.release n = { l with releases := Function.update l.releases id (l.releases id + 1) } := by
  simp only [release, h]

/-! ### Serial numbers -/

/-- Every acquisition has a serial number of its own. -/
structure Coherent (l : Ledger κ) : Prop where
  last_lt : ∀ n id, l.last n = some id → id < l.serial
  last_inj : ∀ m n id, l.last m = some id → l.last n = some id → m = n
  fresh : ∀ id, l.serial ≤ id → l.releases id = 0

namespace Coherent

theorem acquire [DecidableEq κ] (h : Coherent l) (hacquire : l.acquire n = some l') :
    Coherent l' := by
  obtain ⟨-, rfl⟩ := acquire_eq hacquire
  have hcases : ∀ m id, Function.update l.last n (some l.serial) m = some id →
      m = n ∧ id = l.serial ∨ l.last m = some id ∧ id < l.serial := by
    intro m id hm
    by_cases hsame : m = n
    · rw [hsame, Function.update_self] at hm
      exact .inl ⟨hsame, (Option.some.inj hm).symm⟩
    · rw [Function.update_of_ne hsame] at hm
      exact .inr ⟨hm, h.last_lt m id hm⟩
  refine ⟨fun m id hm ↦ ?_, fun m k id hm hk ↦ ?_, fun id hid ↦ h.fresh id (Nat.le_of_succ_le hid)⟩
  · dsimp only
    rcases hcases m id hm with ⟨-, rfl⟩ | ⟨-, hlt⟩ <;> omega
  · rcases hcases m id hm with ⟨rfl, rfl⟩ | ⟨hlast, hlt⟩
    · rcases hcases k _ hk with ⟨rfl, -⟩ | ⟨-, hlt⟩
      · rfl
      · omega
    · rcases hcases k id hk with ⟨-, rfl⟩ | ⟨hlast', -⟩
      · omega
      · exact h.last_inj m k id hlast hlast'

theorem release (h : Coherent l) : Coherent (l.release n) := by
  cases hlast : l.last n with
  | none =>
    have hsame : l.release n = l := by simp only [Ledger.release, hlast]
    rw [hsame]
    exact h
  | some id =>
    rw [release_eq hlast]
    refine ⟨h.last_lt, h.last_inj, fun other hge ↦ ?_⟩
    have hlt := h.last_lt n id hlast
    have hge' : l.serial ≤ other := hge
    exact (Function.update_of_ne (by omega) _ _).trans (h.fresh other hge)

end Coherent

/-- What is out stays out. -/
theorem isOut_acquire_of_isOut [DecidableEq κ] (h : l.acquire n = some l') {m : κ}
    (hm : l.isOut m = true) : l'.isOut m = true := by
  obtain ⟨hfree, rfl⟩ := acquire_eq h
  have hne : m ≠ n := by
    rintro rfl
    rw [hm] at hfree
    cases hfree
  obtain ⟨id, hlast, hzero⟩ := isOut_iff.mp hm
  exact isOut_iff.mpr ⟨id, (Function.update_of_ne hne _ _).trans hlast, hzero⟩

theorem isOut_acquire [DecidableEq κ] (hl : Coherent l) (h : l.acquire n = some l') :
    l'.isOut n = true := by
  obtain ⟨-, rfl⟩ := acquire_eq h
  exact isOut_iff.mpr ⟨l.serial, Function.update_self _ _ _, hl.fresh _ (Nat.le_refl _)⟩

theorem isOut_release_of_ne (hl : Coherent l) {m : κ} (hne : m ≠ n) (hm : l.isOut m = true) :
    (l.release n).isOut m = true := by
  obtain ⟨id, hlast, hzero⟩ := isOut_iff.mp hm
  cases hn : l.last n with
  | none =>
    have hsame : l.release n = l := by simp only [release, hn]
    exact hsame.symm ▸ hm
  | some other =>
    have hid : id ≠ other := fun hsame ↦ hne (hl.last_inj m n id hlast (hsame ▸ hn))
    rw [release_eq hn]
    exact isOut_iff.mpr ⟨id, hlast, (Function.update_of_ne hid _ _).trans hzero⟩

theorem isOut_acquire_iff [DecidableEq κ] (hl : Coherent l) (h : l.acquire n = some l') {m : κ} :
    l'.isOut m = true ↔ m = n ∨ l.isOut m = true := by
  refine ⟨fun hm ↦ or_iff_not_imp_left.mpr fun hne ↦ ?_, ?_⟩
  · obtain ⟨-, rfl⟩ := acquire_eq h
    obtain ⟨id, hlast, hzero⟩ := isOut_iff.mp hm
    exact isOut_iff.mpr ⟨id, (Function.update_of_ne hne _ _).symm.trans hlast, hzero⟩
  · rintro (rfl | hm)
    · exact isOut_acquire hl h
    · exact isOut_acquire_of_isOut h hm

/-- A release takes back exactly the handle it names. -/
theorem isOut_release_iff (hl : Coherent l) {m : κ} :
    (l.release n).isOut m = true ↔ m ≠ n ∧ l.isOut m = true := by
  refine ⟨fun hm ↦ ?_, fun hm ↦ isOut_release_of_ne hl hm.1 hm.2⟩
  cases hn : l.last n with
  | none =>
    have hsame : l.release n = l := by simp only [release, hn]
    rw [hsame] at hm
    obtain ⟨id, hlast, -⟩ := isOut_iff.mp hm
    refine ⟨?_, hm⟩
    rintro rfl
    cases hn.symm.trans hlast
  | some other =>
    obtain ⟨id, hlast, hzero⟩ := isOut_iff.mp hm
    rw [release_eq hn] at hlast hzero
    change l.last m = some id at hlast
    change Function.update l.releases other (l.releases other + 1) id = 0 at hzero
    have hid : id ≠ other := by
      rintro rfl
      rw [Function.update_self] at hzero
      exact absurd hzero (Nat.succ_ne_zero _)
    rw [Function.update_of_ne hid] at hzero
    refine ⟨?_, isOut_iff.mpr ⟨id, hlast, hzero⟩⟩
    rintro rfl
    exact hid (Option.some.inj (hlast.symm.trans hn))

theorem holds_empty : Holds ({} : Ledger κ) [] where
  nodup := List.nodup_nil
  out _ h := absurd h List.not_mem_nil
  last_lt := nofun
  last_inj := nofun
  settled _ h := absurd h (Nat.not_lt_zero _)
  fresh _ _ := rfl

namespace Holds

theorem isOut (h : Holds l held) (hn : n ∈ held) : l.isOut n = true := isOut_iff.mpr (h.out n hn)

theorem coherent (h : Holds l held) : Coherent l := ⟨h.last_lt, h.last_inj, h.fresh⟩

theorem acquire [DecidableEq κ] (h : Holds l held) (hacquire : l.acquire n = some l') :
    Holds l' (n :: held) := by
  obtain ⟨hlt, hinj, hfresh⟩ := h.coherent.acquire hacquire
  have hout : l'.isOut n = true := isOut_acquire h.coherent hacquire
  have hkeep : ∀ m ∈ held, l'.isOut m = true := fun m hm ↦
    isOut_acquire_of_isOut hacquire (h.isOut hm)
  obtain ⟨hfree, rfl⟩ := acquire_eq hacquire
  have hnot : ∀ m ∈ held, m ≠ n := by
    rintro m hm rfl
    rw [h.isOut hm] at hfree
    cases hfree
  refine ⟨List.nodup_cons.mpr ⟨fun hn ↦ hnot n hn rfl, h.nodup⟩, fun m hm ↦ ?_, hlt, hinj,
    fun id hid ↦ ?_, hfresh⟩
  · obtain rfl | hm := List.mem_cons.mp hm
    · exact isOut_iff.mp hout
    · exact isOut_iff.mp (hkeep m hm)
  · obtain hlt | rfl := Nat.lt_succ_iff_lt_or_eq.mp hid
    · refine (h.settled id hlt).imp_right ?_
      rintro ⟨hzero, m, hm, hlast⟩
      exact ⟨hzero, m, List.mem_cons_of_mem n hm,
        (Function.update_of_ne (hnot m hm) _ _).trans hlast⟩
    · exact .inr ⟨h.fresh _ (Nat.le_refl _), n, List.mem_cons_self, Function.update_self _ _ _⟩

theorem release (h : Holds l (n :: held)) : Holds (l.release n) held := by
  obtain ⟨hlt, hinj, hfresh⟩ := (h.coherent.release : Coherent (l.release n))
  obtain ⟨id, hlast, hzero⟩ := h.out n List.mem_cons_self
  obtain ⟨hnot, hnodup⟩ := List.nodup_cons.mp h.nodup
  have hkeep : ∀ m ∈ held, (l.release n).isOut m = true := fun m hm ↦
    isOut_release_of_ne h.coherent (fun hsame ↦ hnot (hsame ▸ hm))
      (h.isOut (List.mem_cons_of_mem n hm))
  refine ⟨hnodup, fun m hm ↦ isOut_iff.mp (hkeep m hm), hlt, hinj, fun other hother ↦ ?_, hfresh⟩
  rw [release_eq hlast, hzero]
  rw [release_eq hlast] at hother
  by_cases hsame : other = id
  · exact .inl (hsame ▸ Function.update_self _ _ _)
  · have hsame' : Function.update l.releases id (0 + 1) other = l.releases other :=
      Function.update_of_ne hsame _ _
    obtain hone | ⟨hout, m, hm, hlastm⟩ := h.settled other hother
    · exact .inl (hsame'.trans hone)
    refine .inr ⟨hsame'.trans hout, m, ?_, hlastm⟩
    obtain rfl | hm := List.mem_cons.mp hm
    · exact absurd (Option.some.inj (hlastm.symm.trans hlast)) hsame
    · exact hm

/-- When nothing is held, every acquisition was released exactly once. -/
theorem released (h : Holds l []) : ∀ id < l.serial, l.releases id = 1 := by
  intro id hid
  obtain hone | ⟨-, n, hn, -⟩ := h.settled id hid
  · exact hone
  · cases hn

end Holds

end Ledger

end Ax88179Aroma.Effect
