import Mathlib.Algebra.Order.Ring.Int
import Mathlib.Algebra.Order.Ring.Nat
import Ax88179Aroma.Effect.Holding

/-!
# Descriptors in the hands of threads

What the title threads, the tables and the two stacks have of descriptors, without the programs.  A
public descriptor is in one standing at a time; while a hook creates or closes it, the standing says
which thread does and how far it is.  `DeskStep` has one constructor for each way in which a thread
may change the tables or the open descriptors.  Every step keeps `Desk.Inv` and leaves what other
threads have in hand.
-/

namespace Ax88179Aroma.Shim

open Effect Function

/-- Where a public descriptor stands. -/
inductive Standing where
  | free
  /-- a thread was handed the placeholder -/
  | reserved (t : ℕ)
  | tracked
  /-- its closer has closed the lwIP descriptor -/
  | released (t : ℕ)
  /-- its closer has taken it out of `open_mask` -/
  | untracked (t : ℕ)
  /-- a `socketclose_all` has taken it out of `open_mask` -/
  | taken (t : ℕ)
  /-- a `socketclose_all` has called `lwip_close` for it -/
  | emptied (t : ℕ)
  deriving DecidableEq, Repr

namespace Standing

/-- The thread that brings a descriptor into its next standing. -/
def hand : Standing → Option ℕ
  | .free => none
  | .reserved t => some t
  | .tracked => none
  | .released t => some t
  | .untracked t => some t
  | .taken t => some t
  | .emptied t => some t

/-- Whether `open_mask` has the bit. -/
def masked : Standing → Bool
  | .tracked => true
  | .released _ => true
  | _ => false

/-- Whether the mapping is the only way to the lwIP descriptor. -/
def holds : Standing → Bool
  | .tracked => true
  | .taken _ => true
  | _ => false

end Standing

structure Desk where
  mask : ℕ → Bool
  mapped : ℕ → ℤ
  /-- the serial number of an open native socket -/
  native : ℤ → Option ℕ
  lwip : ℤ → Bool
  /-- the lwIP descriptor that a `socket` or `accept` has not recorded yet -/
  fresh : ℕ → Option ℤ
  standing : ℕ → Standing
  /-- who is in `socketclose` of a descriptor -/
  closer : ℤ → Option ℕ

/-- The lwIP descriptors of the public descriptors and of the threads. -/
def Desk.own (d : Desk) : ℕ ⊕ ℕ → Option ℤ
  | .inl fd => if (d.standing fd).holds then some (d.mapped fd) else none
  | .inr t => d.fresh t

structure Desk.Inv (d : Desk) : Prop where
  mask : ∀ fd, d.mask fd = (d.standing fd).masked
  range : ∀ fd, d.standing fd ≠ .free → fd < 32
  native : ∀ fd : ℕ, d.standing fd ≠ .free → d.native fd ≠ none
  closing : ∀ (fd : ℕ) t, d.standing fd = .released t ∨ d.standing fd = .untracked t →
    d.closer fd = some t
  taken : ∀ (fd : ℕ) t, d.standing fd = .taken t ∨ d.standing fd = .emptied t →
    d.closer fd = none
  lwip : Holding (fun lwfd ↦ d.lwip lwfd = true) d.own
  /-- a mapping that was released leads to no open descriptor -/
  stale : ∀ fd t, d.standing fd = .released t → d.lwip (d.mapped fd) = false

/-- What a thread relies on: nobody else touches what it has in hand, or the tracked descriptor that
it is closing. -/
structure Desk.Rely (t : ℕ) (d e : Desk) : Prop where
  fresh : e.fresh t = d.fresh t
  closer : ∀ n, e.closer n = some t ↔ d.closer n = some t
  hand : ∀ fd, (d.standing fd).hand = some t ∨ (e.standing fd).hand = some t →
    e.standing fd = d.standing fd ∧ e.mapped fd = d.mapped fd
  closing : ∀ fd : ℕ, d.closer fd = some t → d.standing fd = .tracked →
    e.standing fd = .tracked ∧ e.mapped fd = d.mapped fd

theorem Desk.Rely.refl (t : ℕ) (d : Desk) : Desk.Rely t d d where
  fresh := rfl
  closer _ := Iff.rfl
  hand _ _ := ⟨rfl, rfl⟩
  closing _ _ h := ⟨h, rfl⟩

theorem Desk.Rely.trans {t : ℕ} {c d e : Desk} (hcd : Desk.Rely t c d) (hde : Desk.Rely t d e) :
    Desk.Rely t c e where
  fresh := hde.fresh.trans hcd.fresh
  closer n := (hde.closer n).trans (hcd.closer n)
  hand fd h := by
    rcases h with hc | he
    · obtain ⟨hstanding, hmapped⟩ := hcd.hand fd (.inl hc)
      obtain ⟨hstanding', hmapped'⟩ := hde.hand fd (.inl (hstanding ▸ hc))
      exact ⟨hstanding'.trans hstanding, hmapped'.trans hmapped⟩
    · obtain ⟨hstanding', hmapped'⟩ := hde.hand fd (.inr he)
      obtain ⟨hstanding, hmapped⟩ := hcd.hand fd (.inr (hstanding' ▸ he))
      exact ⟨hstanding'.trans hstanding, hmapped'.trans hmapped⟩
  closing fd hcloser htracked := by
    obtain ⟨hd, hmapped⟩ := hcd.closing fd hcloser htracked
    obtain ⟨he, hmapped'⟩ := hde.closing fd ((hcd.closer fd).mpr hcloser) hd
    exact ⟨he, hmapped'.trans hmapped⟩

/-- Other threads do not falsify the assertion. -/
def Desk.Steady (t : ℕ) (assertion : Desk → Prop) : Prop :=
  ∀ d e, assertion d → Desk.Rely t d e → assertion e

namespace Desk.Steady

variable {t : ℕ} {p q : Desk → Prop}

theorem and (hp : Desk.Steady t p) (hq : Desk.Steady t q) : Desk.Steady t fun d ↦ p d ∧ q d :=
  fun d e h hrely ↦ ⟨hp d e h.1 hrely, hq d e h.2 hrely⟩

theorem const (p : Prop) : Desk.Steady t fun _ ↦ p := fun _ _ h _ ↦ h

/-- What thread `t` may assume while it closes nothing. -/
theorem idle (t : ℕ) : Desk.Steady t fun d ↦ ∀ n, d.closer n ≠ some t :=
  fun _ _ h hrely n hcloser ↦ h n ((hrely.closer n).mp hcloser)

theorem fresh (t : ℕ) (lwfd : ℤ) : Desk.Steady t fun d ↦ d.fresh t = some lwfd :=
  fun _ _ h hrely ↦ hrely.fresh.trans h

/-- Thread `t` closes one descriptor. -/
theorem closes (t : ℕ) (n : ℤ) : Desk.Steady t fun d ↦ ∀ m, d.closer m = some t ↔ m = n :=
  fun _ _ h hrely m ↦ (hrely.closer m).trans (h m)

theorem standing {s : Standing} (hs : s.hand = some t) (fd : ℕ) :
    Desk.Steady t fun d ↦ d.standing fd = s := by
  intro d e h hrely
  exact ((hrely.hand fd (.inl (h ▸ hs))).1).trans h

theorem mapped {s : Standing} (hs : s.hand = some t) (fd : ℕ) (lwfd : ℤ) :
    Desk.Steady t fun d ↦ d.standing fd = s ∧ d.mapped fd = lwfd := by
  rintro d e ⟨h, hmapped⟩ hrely
  obtain ⟨hstanding, hsame⟩ := hrely.hand fd (.inl (h ▸ hs))
  exact ⟨hstanding.trans h, hsame.trans hmapped⟩

theorem imp (c : Prop) (hp : Desk.Steady t p) : Desk.Steady t fun d ↦ c → p d :=
  fun d e h hrely hc ↦ hp d e (h hc) hrely

/-- Thread `t` is not about to close a descriptor. -/
theorem notClosed (t : ℕ) (n : ℤ) :
    Desk.Steady t fun d ↦ ∀ fd : ℕ, (fd : ℤ) = n →
      d.standing fd ≠ .released t ∧ d.standing fd ≠ .untracked t := by
  intro d e h hrely fd hfd
  refine ⟨fun hstanding ↦ ?_, fun hstanding ↦ ?_⟩
  · have hsame := (hrely.hand fd (.inr (hstanding ▸ rfl))).1
    exact (h fd hfd).1 (hsame.symm.trans hstanding)
  · have hsame := (hrely.hand fd (.inr (hstanding ▸ rfl))).1
    exact (h fd hfd).2 (hsame.symm.trans hstanding)

/-- A tracked descriptor waits for its closer. -/
theorem closing (t fd : ℕ) :
    Desk.Steady t fun d ↦ (∀ m, d.closer m = some t ↔ m = fd) ∧ d.standing fd = .tracked := by
  rintro d e ⟨hcloses, htracked⟩ hrely
  exact ⟨closes t fd d e hcloses hrely,
    (hrely.closing fd ((hcloses fd).mpr rfl) htracked).1⟩

theorem closingMapped (t fd : ℕ) (lwfd : ℤ) :
    Desk.Steady t fun d ↦ ((∀ m, d.closer m = some t ↔ m = fd) ∧ d.standing fd = .tracked) ∧
      d.mapped fd = lwfd := by
  rintro d e ⟨⟨hcloses, htracked⟩, hmapped⟩ hrely
  obtain ⟨hstanding, hsame⟩ := hrely.closing fd ((hcloses fd).mpr rfl) htracked
  exact ⟨⟨closes t fd d e hcloses hrely, hstanding⟩, hsame.trans hmapped⟩

end Desk.Steady

/-- The steps of thread `t`. -/
inductive DeskStep (t : ℕ) (d : Desk) : Desk → Prop
  | skip : DeskStep t d d
  | openLwip (lwfd : ℤ) (hclosed : d.lwip lwfd = false)
      (hunmapped : ∀ fd, d.mask fd = true → d.mapped fd ≠ lwfd) :
      DeskStep t d
        { d with lwip := update d.lwip lwfd true, fresh := update d.fresh t (some lwfd) }
  | openNative (n : ℤ) (serial : ℕ) (hclosed : d.native n = none) :
      DeskStep t d { d with native := update d.native n (some serial) }
  | reserve (fd serial : ℕ) (hfd : fd < 32) (hclosed : d.native fd = none) :
      DeskStep t d
        { d with
          native := update d.native fd (some serial)
          standing := update d.standing fd (.reserved t) }
  | remap (fd : ℕ) (lwfd : ℤ) (hfd : d.standing fd = .reserved t) :
      DeskStep t d { d with mapped := update d.mapped fd lwfd }
  | track (fd : ℕ) (hfd : d.standing fd = .reserved t) (hfresh : d.fresh t = some (d.mapped fd)) :
      DeskStep t d
        { d with
          mask := update d.mask fd true
          standing := update d.standing fd .tracked
          fresh := update d.fresh t none }
  /-- `lwip_close` of a descriptor that is given up -/
  | drop (lwfd : ℤ) (value : Bool) (hfresh : d.fresh t = some lwfd) :
      DeskStep t d
        { d with lwip := update d.lwip lwfd value, fresh := update d.fresh t none }
  | release (fd : ℕ) (hfd : d.standing fd = .tracked) (hcloser : d.closer fd = some t) :
      DeskStep t d
        { d with
          lwip := update d.lwip (d.mapped fd) false
          standing := update d.standing fd (.released t) }
  | untrack (fd : ℕ) (hfd : d.standing fd = .released t) :
      DeskStep t d
        { d with
          mask := update d.mask fd false
          standing := update d.standing fd (.untracked t) }
  | closeOwn (fd : ℕ) (value : Option ℕ) (hfd : d.standing fd = .untracked t) :
      DeskStep t d
        { d with native := update d.native fd value, standing := update d.standing fd .free }
  | closeForeign (n : ℤ) (value : Option ℕ) (hfree : ∀ fd : ℕ, (fd : ℤ) = n → d.standing fd = .free) :
      DeskStep t d { d with native := update d.native n value }
  | take (hcloser : ∀ fd : ℕ, d.mask fd = true → d.closer fd = none) :
      DeskStep t d
        { d with
          mask := fun _ ↦ false
          standing := fun fd ↦ if d.mask fd = true then .taken t else d.standing fd }
  | empty (fd : ℕ) (value : Bool) (hfd : d.standing fd = .taken t) :
      DeskStep t d
        { d with
          lwip := update d.lwip (d.mapped fd) value
          standing := update d.standing fd (.emptied t) }
  | closeAll (native : ℤ → Option ℕ)
      (hkept : ∀ fd : ℕ, d.standing fd ≠ .free → d.standing fd ≠ .taken t →
        d.standing fd ≠ .emptied t → native fd ≠ none) :
      DeskStep t d
        { d with
          native := native
          standing := fun fd ↦
            if d.standing fd = .taken t ∨ d.standing fd = .emptied t then .free
            else d.standing fd }
  | beginClose (n : ℤ) (hcloser : d.closer n = none)
      (huntaken : ∀ (fd : ℕ) u, (fd : ℤ) = n → d.standing fd ≠ .taken u ∧ d.standing fd ≠ .emptied u) :
      DeskStep t d { d with closer := update d.closer n (some t) }
  | endClose (n : ℤ) (hcloser : d.closer n = some t)
      (hopen : ∀ fd : ℕ, (fd : ℤ) = n → d.standing fd ≠ .released t ∧ d.standing fd ≠ .untracked t) :
      DeskStep t d { d with closer := update d.closer n none }

variable {t u : ℕ} {d e : Desk}

theorem Standing.masked_iff {s : Standing} :
    s.masked = true ↔ s = .tracked ∨ ∃ t, s = .released t := by
  cases s <;> simp [Standing.masked]

@[simp]
theorem Desk.own_inl {fd : ℕ} {lwfd : ℤ} :
    d.own (.inl fd) = some lwfd ↔ (d.standing fd).holds = true ∧ d.mapped fd = lwfd := by
  simp [Desk.own]

@[simp]
theorem Desk.own_inr : d.own (.inr t) = d.fresh t := rfl

/-- A descriptor in the mask that nobody is closing is tracked. -/
theorem Desk.Inv.tracked (h : d.Inv) {fd : ℕ} (hmask : d.mask fd = true)
    (hcloser : ∀ u, d.standing fd = .released u → d.closer fd ≠ some u) :
    d.standing fd = .tracked := by
  rw [h.mask fd] at hmask
  rcases Standing.masked_iff.mp hmask with htracked | ⟨u, hreleased⟩
  · exact htracked
  · exact absurd (h.closing fd u (.inl hreleased)) (hcloser u hreleased)

/-- No other public descriptor leads to what a public descriptor holds. -/
theorem Desk.Inv.holder_unique (h : d.Inv) {fd other : ℕ} (hfd : (d.standing fd).holds = true)
    (hother : (d.standing other).holds = true) (hsame : d.mapped other = d.mapped fd) :
    other = fd :=
  Sum.inl.inj (h.lwip.holder_unique (.inl other) (.inl fd) _ (Desk.own_inl.mpr ⟨hother, hsame⟩)
    (Desk.own_inl.mpr ⟨hfd, rfl⟩))

theorem Desk.Inv.fresh_ne (h : d.Inv) {fd : ℕ} (hfd : (d.standing fd).holds = true) (t : ℕ) :
    d.fresh t ≠ some (d.mapped fd) := by
  intro hfresh
  cases h.lwip.holder_unique (.inr t) (.inl fd) _ hfresh (Desk.own_inl.mpr ⟨hfd, rfl⟩)

/-- A step is within what every other thread relies on. -/
theorem DeskStep.rely (h : DeskStep t d e) (hinv : d.Inv) (hne : u ≠ t) : Desk.Rely u d e := by
  obtain ⟨hmask, hrange, hnative, hclosing, htaken, hlwip, hstale⟩ := id hinv
  cases h with
  | skip => exact .refl u d
  | take hcloser =>
    have htracked : ∀ fd, d.mask fd = true → d.standing fd = .tracked := fun fd hfd ↦
      hinv.tracked hfd fun u _ ↦ by simp [hcloser fd hfd]
    constructor <;> dsimp only <;> grind [Standing.hand]
  | _ =>
    constructor <;> dsimp only [update] <;> grind [Standing.hand, Standing.masked]

/-- Nobody acquires an lwIP descriptor. -/
theorem Desk.own_of_le
    (hpublic : ∀ fd, (e.standing fd).holds = true →
      (d.standing fd).holds = true ∧ e.mapped fd = d.mapped fd)
    (hfresh : e.fresh = d.fresh) (i : ℕ ⊕ ℕ) (lwfd : ℤ) (hi : e.own i = some lwfd) :
    d.own i = some lwfd := by
  cases i with
  | inl fd =>
    rw [Desk.own_inl] at hi ⊢
    obtain ⟨hholds, hmapped⟩ := hpublic fd hi.1
    exact ⟨hholds, hmapped.symm.trans hi.2⟩
  | inr t =>
    rw [Desk.own_inr] at hi ⊢
    exact hfresh ▸ hi

/-- A public descriptor gives up its lwIP descriptor. -/
theorem Desk.Inv.drop_public (h : d.Inv) {fd : ℕ} {standing : Standing} {value : Bool}
    (hfd : (d.standing fd).holds = true) (hstanding : standing.holds = false) :
    Holding (fun lwfd ↦ update d.lwip (d.mapped fd) value lwfd = true)
      { d with
        lwip := update d.lwip (d.mapped fd) value
        standing := update d.standing fd standing : Desk }.own := by
  refine h.lwip.drop (i := .inl fd) (Desk.own_inl.mpr ⟨hfd, rfl⟩) ?_ (fun j lwfd hj hown ↦ ?_)
    fun lwfd hne hopen ↦ ?_
  · simp [Desk.own, hstanding]
  · cases j with
    | inl other =>
      have hother : other ≠ fd := fun hsame ↦ hj (hsame ▸ rfl)
      simpa [Desk.own, hother] using hown
    | inr t => exact hown
  · rw [update_of_ne hne]
    exact hopen

theorem DeskStep.lwip (h : DeskStep t d e) (hinv : d.Inv) :
    Holding (fun lwfd ↦ e.lwip lwfd = true) e.own := by
  cases h with
  | skip => exact hinv.lwip
  | openLwip lwfd hclosed hunmapped =>
    have hmono : ∀ other, d.lwip other = true → update d.lwip lwfd true other = true := by
      intro other hother
      by_cases hsame : other = lwfd
      · rw [hsame, update_self]
      · rw [update_of_ne hsame]
        exact hother
    have hspare : Spare (fun other ↦ update d.lwip lwfd true other = true) d.own lwfd :=
      hinv.lwip.spare_of_fresh (by simp [hclosed]) (update_self lwfd true d.lwip)
    refine (hinv.lwip.mono hmono fun _ _ hi ↦ hi).acquire (i := .inr t) hspare (fun other hown ↦ ?_)
      fun j other hj hown ↦ ?_
    · simpa using hown.symm
    · cases j with
      | inl fd => exact hown
      | inr u =>
        have hother : u ≠ t := fun hsame ↦ hj (hsame ▸ rfl)
        simpa [hother] using hown
  | track fd hfd hfresh =>
    refine hinv.lwip.transfer (i := .inr t) (j := .inl fd) hfresh ?_ (fun lwfd hown ↦ ?_)
      fun k lwfd hkt hkfd hown ↦ ?_
    · simp
    · exact (Desk.own_inl.mp hown).2.symm
    · cases k with
      | inl other =>
        have hother : other ≠ fd := fun hsame ↦ hkfd (hsame ▸ rfl)
        simpa [Desk.own, hother] using hown
      | inr u =>
        have hother : u ≠ t := fun hsame ↦ hkt (hsame ▸ rfl)
        simpa [hother] using hown
  | drop lwfd value hfresh =>
    refine hinv.lwip.drop (i := .inr t) hfresh ?_ (fun j other hj hown ↦ ?_) fun other hne hopen ↦ ?_
    · simp
    · cases j with
      | inl fd => exact hown
      | inr u =>
        have hother : u ≠ t := fun hsame ↦ hj (hsame ▸ rfl)
        simpa [hother] using hown
    · dsimp only
      rw [update_of_ne hne]
      exact hopen
  | release fd hfd hcloser => exact hinv.drop_public (by rw [hfd]; rfl) rfl
  | empty fd value hfd => exact hinv.drop_public (by rw [hfd]; rfl) rfl
  | take hcloser =>
    refine hinv.lwip.mono (fun _ hopen ↦ hopen) (Desk.own_of_le (fun fd hholds ↦ ?_) rfl)
    dsimp only at hholds ⊢
    split at hholds
    · rename_i hmask
      rw [hinv.tracked hmask fun u _ ↦ by simp [hcloser fd hmask]]
      exact ⟨rfl, rfl⟩
    · exact ⟨hholds, rfl⟩
  | _ =>
    refine hinv.lwip.mono (fun _ hopen ↦ hopen) (Desk.own_of_le (fun fd hholds ↦ ?_) rfl)
    dsimp only [update] at hholds ⊢
    grind [Standing.holds]

/-- A step keeps the invariant. -/
theorem DeskStep.inv (h : DeskStep t d e) (hinv : d.Inv) : e.Inv := by
  have hlwip := h.lwip hinv
  have hopen : ∀ lwfd, d.fresh t = some lwfd → d.lwip lwfd = true := fun lwfd hfresh ↦
    hinv.lwip.isOpen_of_own (.inr t) lwfd hfresh
  have hheld : ∀ fd, d.standing fd = .taken t → d.lwip (d.mapped fd) = true := fun fd hfd ↦
    hinv.lwip.isOpen_of_own (.inl fd) _ (Desk.own_inl.mpr ⟨by rw [hfd]; rfl, rfl⟩)
  obtain ⟨hmask, hrange, hnative, hclosing, htaken, -, hstale⟩ := id hinv
  cases h with
  | skip => exact hinv
  | _ =>
    constructor
    case lwip => exact hlwip
    all_goals
      dsimp only [update]
      grind [Standing.masked, Standing.hand]

/-! ## What the tables are for -/

/-- A public descriptor that leads to an open lwIP descriptor holds it. -/
theorem Desk.Inv.holds_of_open (h : d.Inv) {fd : ℕ} (hmask : d.mask fd = true)
    (hopen : d.lwip (d.mapped fd) = true) : (d.standing fd).holds = true := by
  rw [h.mask fd] at hmask
  rcases Standing.masked_iff.mp hmask with htracked | ⟨u, hreleased⟩
  · rw [htracked]
    rfl
  · rw [h.stale fd u hreleased] at hopen
    cases hopen

/-- No two public descriptors lead to one open lwIP descriptor. -/
theorem Desk.Inv.mapped_unique (h : d.Inv) {fd other : ℕ} (hfd : d.mask fd = true)
    (hother : d.mask other = true) (hsame : d.mapped fd = d.mapped other)
    (hopen : d.lwip (d.mapped fd) = true) : fd = other :=
  h.holder_unique (h.holds_of_open hother (hsame ▸ hopen)) (h.holds_of_open hfd hopen) hsame

/-- Every public descriptor has an open placeholder. -/
theorem Desk.Inv.placeholder (h : d.Inv) {fd : ℕ} (hfd : d.mask fd = true) :
    d.native fd ≠ none := by
  refine h.native fd fun hfree ↦ ?_
  rw [h.mask fd, hfree] at hfd
  cases hfd

end Ax88179Aroma.Shim
