import Mathlib.Logic.Function.Basic
import Mathlib.Tactic.Common

/-!
# Holders of open resources

An allocator hands out resources and takes them back.  `Holding isOpen own` says that whatever is
held is open and has one holder.  Opening keeps it, closing keeps it for resources that nobody
holds, and a resource that is open and free may be acquired.
-/

namespace Ax88179Aroma.Effect

variable {ι ρ : Type}

/-- What the holders `ι` have of the open resources. -/
structure Holding (isOpen : ρ → Prop) (own : ι → Option ρ) : Prop where
  isOpen_of_own : ∀ i r, own i = some r → isOpen r
  holder_unique : ∀ i j r, own i = some r → own j = some r → i = j

/-- An open resource without a holder. -/
def Spare (isOpen : ρ → Prop) (own : ι → Option ρ) (r : ρ) : Prop :=
  isOpen r ∧ ∀ i, own i ≠ some r

namespace Holding

variable {isOpen isOpen' : ρ → Prop} {own own' : ι → Option ρ} {r : ρ}

/-- Without holders anything may be closed. -/
theorem of_none (h : ∀ i, own i = none) : Holding isOpen own where
  isOpen_of_own i r hi := absurd ((h i).symm.trans hi) (Option.some_ne_none r).symm
  holder_unique i _ r hi := absurd ((h i).symm.trans hi) (Option.some_ne_none r).symm

/-- Holders may let go and more resources may be open. -/
theorem mono (h : Holding isOpen own) (hopen : ∀ r, isOpen r → isOpen' r)
    (hown : ∀ i r, own' i = some r → own i = some r) : Holding isOpen' own' where
  isOpen_of_own i r hi := hopen r (h.isOpen_of_own i r (hown i r hi))
  holder_unique i j r hi hj := h.holder_unique i j r (hown i r hi) (hown j r hj)

/-- A resource that nobody holds is closed. -/
theorem close (h : Holding isOpen own) (hfree : ∀ i, own i ≠ some r)
    (hopen : ∀ s, s ≠ r → isOpen s → isOpen' s) : Holding isOpen' own where
  isOpen_of_own i s hi := hopen s (fun hsame ↦ hfree i (hsame ▸ hi)) (h.isOpen_of_own i s hi)
  holder_unique := h.holder_unique

/-- One holder takes a spare resource, the others keep at most what they had. -/
theorem acquire (h : Holding isOpen own) {i : ι} (hspare : Spare isOpen own r)
    (hself : ∀ s, own' i = some s → s = r)
    (hothers : ∀ j s, j ≠ i → own' j = some s → own j = some s) : Holding isOpen own' := by
  have hnot : ∀ j, j ≠ i → own' j ≠ some r := fun j hj hsome ↦
    hspare.2 j (hothers j r hj hsome)
  refine ⟨fun j s hs ↦ ?_, fun j k s hj hk ↦ ?_⟩
  · by_cases hji : j = i
    · rw [hji] at hs
      rw [hself s hs]
      exact hspare.1
    · exact h.isOpen_of_own j s (hothers j s hji hs)
  · by_cases hji : j = i
    · by_cases hki : k = i
      · rw [hji, hki]
      · rw [hji] at hj
        rw [hself s hj] at hk
        exact absurd hk (hnot k hki)
    · by_cases hki : k = i
      · rw [hki] at hk
        rw [hself s hk] at hj
        exact absurd hj (hnot j hji)
      · exact h.holder_unique j k s (hothers j s hji hj) (hothers k s hki hk)

/-- What a holder lets go becomes spare. -/
theorem spare_of_release (h : Holding isOpen own) {i : ι} (hi : own i = some r)
    (hself : own' i = none) (hothers : ∀ j s, j ≠ i → own' j = some s → own j = some s) :
    Spare isOpen own' r := by
  refine ⟨h.isOpen_of_own i r hi, fun j hj ↦ ?_⟩
  by_cases hji : j = i
  · rw [hji, hself] at hj
    cases hj
  · exact hji (h.holder_unique j i r (hothers j r hji hj) hi)

/-- A resource that was not open before is spare once it is. -/
theorem spare_of_fresh (h : Holding isOpen own) (hfresh : ¬ isOpen r) (hopen : isOpen' r) :
    Spare isOpen' own r :=
  ⟨hopen, fun i hi ↦ hfresh (h.isOpen_of_own i r hi)⟩

/-- One holder lets go of a resource, which is then closed or left to nobody. -/
theorem drop (h : Holding isOpen own) {i : ι} (hi : own i = some r) (hself : own' i = none)
    (hothers : ∀ j s, j ≠ i → own' j = some s → own j = some s)
    (hopen : ∀ s, s ≠ r → isOpen s → isOpen' s) : Holding isOpen' own' := by
  have hless : Holding isOpen own' := by
    refine h.mono (fun _ hs ↦ hs) fun j s hj ↦ ?_
    by_cases hji : j = i
    · rw [hji, hself] at hj
      cases hj
    · exact hothers j s hji hj
  exact hless.close (h.spare_of_release hi hself hothers).2 hopen

/-- A resource goes from one holder to another. -/
theorem transfer (h : Holding isOpen own) {i j : ι} (hi : own i = some r) (hfrom : own' i = none)
    (hto : ∀ s, own' j = some s → s = r)
    (hothers : ∀ k s, k ≠ i → k ≠ j → own' k = some s → own k = some s) :
    Holding isOpen own' := by
  have hsource : ∀ k s, own' k = some s → own k = some s ∨ k = j ∧ s = r := by
    intro k s hk
    by_cases hki : k = i
    · rw [hki, hfrom] at hk
      cases hk
    · by_cases hkj : k = j
      · rw [hkj] at hk
        exact .inr ⟨hkj, hto s hk⟩
      · exact .inl (hothers k s hki hkj hk)
  have hnot : ∀ k, own k = some r → own' k ≠ some r := by
    intro k hk hk'
    rw [h.holder_unique k i r hk hi, hfrom] at hk'
    cases hk'
  refine ⟨fun k s hk ↦ ?_, fun k l s hk hl ↦ ?_⟩
  · rcases hsource k s hk with hold | ⟨-, rfl⟩
    · exact h.isOpen_of_own k s hold
    · exact h.isOpen_of_own i s hi
  · rcases hsource k s hk with hold | ⟨rfl, rfl⟩
    · rcases hsource l s hl with hold' | ⟨rfl, rfl⟩
      · exact h.holder_unique k l s hold hold'
      · exact absurd hk (hnot k hold)
    · rcases hsource l s hl with hold' | ⟨rfl, -⟩
      · exact absurd hl (hnot l hold')
      · rfl

end Holding

/-! ## Resources that are handed over -/

/-- `closes` counts how often each resource was closed and `moved` lists those handed over, with the
count at that time.  Each was open then; now a holder has it or it was closed once. -/
structure Accounted (closes : ρ → ℕ) (held : ι → Option ρ) (moved : List (ρ × ℕ)) : Prop where
  holding : Holding (fun r ↦ closes r = 0) held
  settled : ∀ r before, (r, before) ∈ moved → before = 0 ∧ (closes r = 1 ∨ ∃ i, held i = some r)

namespace Accounted

variable {closes : ρ → ℕ} {held : ι → Option ρ} {moved : List (ρ × ℕ)} {i : ι} {r : ρ}

theorem empty (h : ∀ i, held i = none) : Accounted closes held [] where
  holding := .of_none h
  settled _ _ h := absurd h List.not_mem_nil

/-- An open resource that nobody holds goes to a holder without one. -/
theorem move [DecidableEq ι] (h : Accounted closes held moved) (hi : held i = none)
    (hopen : closes r = 0) (hfree : ∀ j, held j ≠ some r) :
    Accounted closes (Function.update held i (some r)) ((r, closes r) :: moved) := by
  have hother : ∀ j s, j ≠ i → Function.update held i (some r) j = some s → held j = some s :=
    fun j s hj hs ↦ (Function.update_of_ne hj _ _).symm.trans hs
  refine ⟨h.holding.acquire (i := i) ⟨hopen, hfree⟩ (fun s hs ↦ ?_) hother, fun s before hs ↦ ?_⟩
  · rw [Function.update_self] at hs
    exact (Option.some.inj hs).symm
  · rcases List.mem_cons.mp hs with hsame | hold
    · obtain ⟨rfl, rfl⟩ := Prod.mk.inj hsame
      exact ⟨hopen, .inr ⟨i, Function.update_self _ _ _⟩⟩
    · obtain ⟨hzero, hsettled⟩ := h.settled s before hold
      refine ⟨hzero, hsettled.imp_right ?_⟩
      rintro ⟨j, hj⟩
      refine ⟨j, (Function.update_of_ne ?_ _ _).trans hj⟩
      rintro rfl
      cases hi.symm.trans hj

/-- A holder closes what it has. -/
theorem close [DecidableEq ι] [DecidableEq ρ] (h : Accounted closes held moved)
    (hi : held i = some r) :
    Accounted (Function.update closes r (closes r + 1)) (Function.update held i none) moved := by
  have hzero : closes r = 0 := h.holding.isOpen_of_own i r hi
  refine ⟨h.holding.drop hi (Function.update_self _ _ _)
    (fun j s hj hs ↦ (Function.update_of_ne hj _ _).symm.trans hs)
    fun s hs hopen ↦ (Function.update_of_ne hs _ _).trans hopen, fun s before hs ↦ ?_⟩
  obtain ⟨hbefore, hsettled⟩ := h.settled s before hs
  refine ⟨hbefore, ?_⟩
  by_cases hsame : s = r
  · rw [hsame, Function.update_self, hzero]
    exact .inl rfl
  · rw [Function.update_of_ne hsame]
    refine hsettled.imp_right ?_
    rintro ⟨j, hj⟩
    refine ⟨j, (Function.update_of_ne ?_ _ _).trans hj⟩
    rintro rfl
    exact hsame (Option.some.inj (hj.symm.trans hi))

/-- A resource that nobody holds is closed for the first time. -/
theorem closeOther [DecidableEq ρ] (h : Accounted closes held moved) (hopen : closes r = 0)
    (hfree : ∀ j, held j ≠ some r) :
    Accounted (Function.update closes r (closes r + 1)) held moved := by
  refine ⟨h.holding.close hfree fun s hs hzero ↦ (Function.update_of_ne hs _ _).trans hzero,
    fun s before hs ↦ ?_⟩
  obtain ⟨hbefore, hsettled⟩ := h.settled s before hs
  refine ⟨hbefore, hsettled.imp_left fun hone ↦ ?_⟩
  have hne : s ≠ r := by
    rintro rfl
    rw [hopen] at hone
    cases hone
  exact (Function.update_of_ne hne _ _).trans hone

/-- Once nobody holds anything, what was handed over was closed exactly once. -/
theorem closed_once (h : Accounted closes held moved) (hnone : ∀ i, held i = none) {before : ℕ}
    (hr : (r, before) ∈ moved) : before = 0 ∧ closes r = 1 := by
  obtain ⟨hbefore, hone | ⟨i, hi⟩⟩ := h.settled r before hr
  · exact ⟨hbefore, hone⟩
  · cases (hnone i).symm.trans hi

end Accounted

end Ax88179Aroma.Effect
