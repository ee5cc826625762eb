import Ax88179Aroma.Effect.Holding
import Ax88179Aroma.Effect.Ledger
import Ax88179Aroma.Shim.Workers

/-!
# Descriptors on their way through relay slots

What the bridges, the relay workers and nsysnet have of descriptors, without the programs.  A bridge
keeps the slot it has reserved until it returns.  It accepts a native descriptor and moves it to the
slot, then the lwIP descriptor; the worker closes what is in its slot once the slot is sealed, that
is once it was told to stop or the bridge has published it.  `BoardStep` has one constructor for
each way in which a thread may change the slots.  Every step keeps `Board.Inv` and leaves what other
threads rely on.
-/

namespace Ax88179Aroma.Shim

open Effect Function

/-- Who has a native descriptor in hand. -/
inductive NativeHand where
  | listener (t : RelayThread)
  | accepted (t : RelayThread)
  | relay (slot : ℕ)
  deriving DecidableEq, Repr

/-- The thread that closes or moves the descriptor before it is in a slot. -/
def NativeHand.thread : NativeHand → Option RelayThread
  | .listener t => some t
  | .accepted t => some t
  | .relay _ => none

structure Board where
  ready : ℕ → Bool
  stop : ℕ → Bool
  nativeFd : ℕ → ℤ
  lwfd : ℕ → ℤ
  worker : ℕ → WorkerState
  natives : Ledger ℤ
  /-- the calls of `lwip_close` for each descriptor -/
  lwipCloses : ℤ → ℕ
  /-- whose unfinished bridge remembers the slot -/
  keeper : ℕ → Option RelayThread
  native : NativeHand → Option ℤ
  /-- the acquisition that the last `accept` of a thread made -/
  accepted : RelayThread → ℕ
  /-- the lwIP descriptor that was moved to a slot -/
  lwip : ℕ → Option ℤ
  /-- the acquisitions that were moved to a slot, and how often each was closed before that -/
  movedNative : List (ℕ × ℕ)
  movedLwip : List (ℤ × ℕ)

namespace Board

/-- The worker of a slot has not ended. -/
def Alive (b : Board) (k : ℕ) : Prop := b.worker k = .suspended ∨ b.worker k = .running

/-- The worker of a slot may leave its wait for the bridge. -/
def Sealed (b : Board) (k : ℕ) : Prop := b.stop k = true ∨ b.ready k = true

/-- The worker of a slot finds no descriptor that was not moved there. -/
def Tidy (b : Board) (k : ℕ) : Prop :=
  b.Alive k → (0 ≤ b.nativeFd k → b.native (.relay k) ≠ none) ∧ (0 ≤ b.lwfd k → b.lwip k ≠ none)

/-- The acquisition behind the native descriptor of a slot. -/
def serial (b : Board) (k : ℕ) : Option ℕ := (b.native (.relay k)).bind b.natives.last

structure Inv (b : Board) : Prop where
  natives : Ledger.Coherent b.natives
  holding : Holding (fun fd ↦ b.natives.isOut fd = true) b.native
  accepted : ∀ t fd, b.native (.accepted t) = some fd → b.natives.last fd = some (b.accepted t)
  relay : ∀ k fd, b.native (.relay k) = some fd → b.nativeFd k = fd ∧ 0 ≤ fd ∧ b.Alive k
  lwip : ∀ k l, b.lwip k = some l → b.lwfd k = l ∧ 0 ≤ l ∧ b.Alive k
  nativeAccount : Accounted b.natives.releases b.serial b.movedNative
  lwipAccount : Accounted b.lwipCloses b.lwip b.movedLwip
  /-- only descriptors that were moved are held and closed -/
  listed : ∀ l, (∃ k, b.lwip k = some l) ∨ b.lwipCloses l ≠ 0 → ∃ before, (l, before) ∈ b.movedLwip

/-- What thread `u` relies on.  A caller relies on what it has in hand and on the slot it keeps,
whose worker waits for it until the slot is sealed; a worker relies on its slot once that is
sealed. -/
structure Rely (u : RelayThread) (b c : Board) : Prop where
  keeper : ∀ k, c.keeper k = some u ↔ b.keeper k = some u
  native : ∀ h : NativeHand, h.thread = some u → c.native h = b.native h
  accepted : c.accepted u = b.accepted u
  alive : ∀ k, b.keeper k = some u → c.Alive k → b.Alive k
  ready : ∀ k, b.keeper k = some u → c.ready k = b.ready k
  suspended : ∀ k, b.keeper k = some u → b.worker k = .suspended → c.worker k = .suspended
  stop : ∀ k, b.keeper k = some u → c.stop k = false → b.stop k = false
  empty : ∀ k, b.keeper k = some u →
    (b.nativeFd k < 0 → c.nativeFd k < 0) ∧ (b.lwfd k < 0 → c.lwfd k < 0)
  waiting : ∀ k, b.keeper k = some u → c.stop k = false → b.ready k = false → b.Alive k → c.Alive k
  running : ∀ k, u = .worker k → b.worker k = .running → c.worker k = .running
  sealed : ∀ k, u = .worker k → b.worker k = .running → b.Sealed k → c.Sealed k ∧
    c.nativeFd k = b.nativeFd k ∧ (0 ≤ b.lwfd k ∨ 0 ≤ c.lwfd k → c.lwfd k = b.lwfd k) ∧
      c.native (.relay k) = b.native (.relay k) ∧ c.lwip k = b.lwip k
  tidy : ∀ k, u = .worker k → b.Tidy k → c.Tidy k

variable {u : RelayThread} {b c d : Board}

theorem Rely.refl (u : RelayThread) (b : Board) : Rely u b b where
  keeper _ := Iff.rfl
  native _ _ := rfl
  accepted := rfl
  alive _ _ h := h
  ready _ _ := rfl
  suspended _ _ h := h
  stop _ _ h := h
  empty _ _ := ⟨id, id⟩
  waiting _ _ _ _ h := h
  running _ _ h := h
  sealed _ _ _ h := ⟨h, rfl, fun _ ↦ rfl, rfl, rfl⟩
  tidy _ _ h := h

theorem Rely.trans (hbc : Rely u b c) (hcd : Rely u c d) : Rely u b d where
  keeper k := (hcd.keeper k).trans (hbc.keeper k)
  native h hu := (hcd.native h hu).trans (hbc.native h hu)
  accepted := hcd.accepted.trans hbc.accepted
  alive k hk hd := hbc.alive k hk (hcd.alive k ((hbc.keeper k).mpr hk) hd)
  ready k hk := (hcd.ready k ((hbc.keeper k).mpr hk)).trans (hbc.ready k hk)
  suspended k hk h := hcd.suspended k ((hbc.keeper k).mpr hk) (hbc.suspended k hk h)
  stop k hk h := hbc.stop k hk (hcd.stop k ((hbc.keeper k).mpr hk) h)
  empty k hk := by
    obtain ⟨hnative, hlwip⟩ := hbc.empty k hk
    obtain ⟨hnative', hlwip'⟩ := hcd.empty k ((hbc.keeper k).mpr hk)
    exact ⟨fun h ↦ hnative' (hnative h), fun h ↦ hlwip' (hlwip h)⟩
  waiting k hk hstop hready halive := by
    have hk' := (hbc.keeper k).mpr hk
    have hmid := hbc.waiting k hk (hcd.stop k hk' hstop) hready halive
    exact hcd.waiting k hk' hstop ((hbc.ready k hk).trans hready) hmid
  running k hu h := hcd.running k hu (hbc.running k hu h)
  sealed k hu hrun hsealed := by
    obtain ⟨hmid, hnative, hlwip, hheld, hlheld⟩ := hbc.sealed k hu hrun hsealed
    obtain ⟨hend, hnative', hlwip', hheld', hlheld'⟩ := hcd.sealed k hu (hbc.running k hu hrun) hmid
    refine ⟨hend, hnative'.trans hnative, fun hpos ↦ ?_, hheld'.trans hheld, hlheld'.trans hlheld⟩
    rcases hpos with hb | hd
    · have hsame := hlwip (.inl hb)
      exact (hlwip' (.inl (hsame ▸ hb))).trans hsame
    · have hsame := hlwip' (.inr hd)
      exact hsame.trans (hlwip (.inr (hsame ▸ hd)))
  tidy k hu h := hcd.tidy k hu (hbc.tidy k hu h)

end Board

/-! ## Steps -/

/-- What a thread does to slots, apart from moving descriptors. -/
inductive RelaySlotStep (t : RelayThread) (b : Board) : Board → Prop
  | claim (k : ℕ) (hkeeper : b.keeper k = none) (hdead : ¬ b.Alive k) :
      RelaySlotStep t b { b with keeper := update b.keeper k (some t) }
  /-- the stores that make a claimed slot a fresh one -/
  | clear (k : ℕ) (ready stop : Bool) (nativeFd lwfd : ℤ) (hkeeper : b.keeper k = some t)
      (hdead : ¬ b.Alive k) :
      RelaySlotStep t b
        { b with
          ready := update b.ready k ready
          stop := update b.stop k stop
          nativeFd := update b.nativeFd k nativeFd
          lwfd := update b.lwfd k lwfd }
  | create (k : ℕ) (hkeeper : b.keeper k = some t) (hdead : ¬ b.Alive k)
      (hready : b.ready k = false) (hnative : b.nativeFd k < 0) (hlwip : b.lwfd k < 0) :
      RelaySlotStep t b { b with worker := update b.worker k .suspended }
  | resume (k : ℕ) (hkeeper : b.keeper k = some t) (hsuspended : b.worker k = .suspended) :
      RelaySlotStep t b { b with worker := update b.worker k .running }
  | join (k : ℕ) (hdead : ¬ b.Alive k) :
      RelaySlotStep t b { b with worker := update b.worker k .joined }
  | halt (k : ℕ) : RelaySlotStep t b { b with stop := update b.stop k true }
  | publish (k : ℕ) (hkeeper : b.keeper k = some t) :
      RelaySlotStep t b { b with ready := update b.ready k true }
  | giveBack (k : ℕ) (hkeeper : b.keeper k = some t) :
      RelaySlotStep t b { b with keeper := update b.keeper k none }
  | forget : RelaySlotStep t b
      { b with keeper := fun k ↦ if b.keeper k = some t then none else b.keeper k }

/-- What a bridge does with descriptors.  Its slot is not sealed when it moves one there. -/
inductive HandStep (t : RelayThread) (b : Board) : Board → Prop
  | listen (fd : ℤ) (natives : Ledger ℤ) (hacquire : b.natives.acquire fd = some natives) :
      HandStep t b
        { b with natives := natives, native := update b.native (.listener t) (some fd) }
  | accept (fd : ℤ) (natives : Ledger ℤ) (hacquire : b.natives.acquire fd = some natives) :
      HandStep t b
        { b with
          natives := natives
          native := update b.native (.accepted t) (some fd)
          accepted := update b.accepted t b.natives.serial }
  | unlisten (fd : ℤ) (hfd : b.native (.listener t) = some fd) :
      HandStep t b
        { b with
          natives := b.natives.release fd
          native := update b.native (.listener t) none }
  | moveNative (k : ℕ) (fd : ℤ) (hkeeper : b.keeper k = some t)
      (hfd : b.native (.accepted t) = some fd) (hpos : 0 ≤ fd) (halive : b.Alive k)
      (hopen : ¬ b.Sealed k) (hempty : b.nativeFd k < 0) :
      HandStep t b
        { b with
          nativeFd := update b.nativeFd k fd
          native := update (update b.native (.accepted t) none) (.relay k) (some fd)
          movedNative := (b.accepted t, b.natives.releases (b.accepted t)) :: b.movedNative }
  | moveLwip (k : ℕ) (l : ℤ) (hkeeper : b.keeper k = some t) (hpos : 0 ≤ l) (halive : b.Alive k)
      (hopen : ¬ b.Sealed k) (hempty : b.lwfd k < 0) (hnew : ∀ before, (l, before) ∉ b.movedLwip) :
      HandStep t b
        { b with
          lwfd := update b.lwfd k l
          lwip := update b.lwip k (some l)
          movedLwip := (l, b.lwipCloses l) :: b.movedLwip }
  /-- a store of no descriptor -/
  | storeLwfd (k : ℕ) (l : ℤ) (hkeeper : b.keeper k = some t) (hneg : l < 0)
      (hempty : b.lwfd k < 0) :
      HandStep t b { b with lwfd := update b.lwfd k l }

/-- What the worker of slot `k` does once the slot is sealed. -/
inductive WorkerStep (k : ℕ) (b : Board) : Board → Prop
  | closeNative (fd : ℤ) (hfd : b.native (.relay k) = some fd) :
      WorkerStep k b
        { b with
          natives := b.natives.release fd
          native := update b.native (.relay k) none }
  | dropNative (hrunning : b.worker k = .running) (hsealed : b.Sealed k)
      (hnone : b.native (.relay k) = none) :
      WorkerStep k b { b with nativeFd := update b.nativeFd k (-1) }
  | closeLwip (l : ℤ) (hl : b.lwip k = some l) :
      WorkerStep k b
        { b with
          lwipCloses := update b.lwipCloses l (b.lwipCloses l + 1)
          lwip := update b.lwip k none }
  | dropLwip (hrunning : b.worker k = .running) (hsealed : b.Sealed k) (hnone : b.lwip k = none) :
      WorkerStep k b { b with lwfd := update b.lwfd k (-1) }
  | exit (hrunning : b.worker k = .running) (hsealed : b.Sealed k)
      (hnative : b.native (.relay k) = none) (hlwip : b.lwip k = none) :
      WorkerStep k b { b with worker := update b.worker k .terminated }

inductive BoardStep (t : RelayThread) (b : Board) : Board → Prop
  | skip : BoardStep t b b
  | slot {c : Board} (h : RelaySlotStep t b c) : BoardStep t b c
  | hand {c : Board} (h : HandStep t b c) : BoardStep t b c
  | work {c : Board} (k : ℕ) (ht : t = .worker k) (h : WorkerStep k b c) : BoardStep t b c

variable {t u : RelayThread} {b c : Board} {k : ℕ}

/-! ### What others rely on -/

theorem RelaySlotStep.rely (h : RelaySlotStep t b c) (hne : u ≠ t) : Board.Rely u b c := by
  cases h with
  | _ =>
    constructor <;> dsimp only [update, Board.Alive, Board.Sealed, Board.Tidy] <;>
      grind [NativeHand.thread, Board.Alive, Board.Sealed]

theorem HandStep.rely (h : HandStep t b c) (hne : u ≠ t) : Board.Rely u b c := by
  cases h with
  | _ =>
    constructor <;> dsimp only [update, Board.Alive, Board.Sealed, Board.Tidy] <;>
      grind [NativeHand.thread, Board.Alive, Board.Sealed]

theorem WorkerStep.rely (h : WorkerStep k b c) (hne : u ≠ .worker k) : Board.Rely u b c := by
  cases h with
  | _ =>
    constructor <;> dsimp only [update, Board.Alive, Board.Sealed, Board.Tidy] <;>
      grind [NativeHand.thread, Board.Alive, Board.Sealed]

/-- A step is within what every other thread relies on. -/
theorem BoardStep.rely (h : BoardStep t b c) (hne : u ≠ t) : Board.Rely u b c := by
  cases h with
  | skip => exact .refl u b
  | slot h => exact h.rely hne
  | hand h => exact h.rely hne
  | work k ht h => exact h.rely (ht ▸ hne)

/-! ### The invariant -/

theorem RelaySlotStep.inv (h : RelaySlotStep t b c) (hinv : b.Inv) : c.Inv := by
  obtain ⟨hnatives, hholding, haccepted, hrelay, hlwip, haccount, hlwipAccount, hlisted⟩ := hinv
  cases h with
  | _ =>
    refine ⟨hnatives, hholding, haccepted, ?_, ?_, haccount, hlwipAccount, hlisted⟩ <;>
      dsimp only [update, Board.Alive] <;> grind [Board.Alive]

namespace Board

variable {fd l : ℤ} {hand : NativeHand} {id : ℕ} {natives : Ledger ℤ}

theorem serial_eq_some : b.serial k = some id ↔
    ∃ fd, b.native (.relay k) = some fd ∧ b.natives.last fd = some id := by
  simp only [serial, Option.bind_eq_some_iff]

/-- Somebody holds the descriptor, so its last acquisition was not released. -/
theorem Inv.last_of_hand (h : b.Inv) (hfd : b.native hand = some fd) :
    ∃ id, b.natives.last fd = some id ∧ b.natives.releases id = 0 :=
  Ledger.isOut_iff.mp (h.holding.isOpen_of_own hand fd hfd)

/-- The acquisition of a descriptor in other hands is in no slot. -/
theorem Inv.serial_ne (h : b.Inv) (hfd : b.native hand = some fd)
    (hlast : b.natives.last fd = some id) (hhand : ∀ k, hand ≠ .relay k) (k : ℕ) :
    b.serial k ≠ some id := by
  intro hk
  obtain ⟨other, hother, hsame⟩ := serial_eq_some.mp hk
  rw [h.natives.last_inj other fd id hsame hlast] at hother
  exact hhand k (h.holding.holder_unique hand (.relay k) fd hfd hother)

/-- What the slot says of a descriptor that was moved there. -/
theorem Inv.native_relay (h : b.Inv) (hmoved : 0 ≤ b.nativeFd k → b.native (.relay k) ≠ none) :
    b.native (.relay k) = if 0 ≤ b.nativeFd k then some (b.nativeFd k) else none := by
  cases hk : b.native (.relay k) with
  | none => exact (if_neg fun hpos ↦ hmoved hpos hk).symm
  | some fd =>
    obtain ⟨hslot, hpos, -⟩ := h.relay k fd hk
    rw [hslot, if_pos hpos]

theorem Inv.lwip_slot (h : b.Inv) (hmoved : 0 ≤ b.lwfd k → b.lwip k ≠ none) :
    b.lwip k = if 0 ≤ b.lwfd k then some (b.lwfd k) else none := by
  cases hk : b.lwip k with
  | none => exact (if_neg fun hpos ↦ hmoved hpos hk).symm
  | some l =>
    obtain ⟨hslot, hpos, -⟩ := h.lwip k l hk
    rw [hslot, if_pos hpos]

/-- A thread acquires a descriptor. -/
theorem Inv.acquire (h : b.Inv) (hacquire : b.natives.acquire fd = some natives)
    (hhand : ∀ k, hand ≠ .relay k) {accepted : RelayThread → ℕ}
    (haccepted : ∀ t, hand ≠ .accepted t → accepted t = b.accepted t)
    (hlatest : ∀ t, hand = .accepted t → accepted t = b.natives.serial) :
    Inv { b with
      natives := natives
      native := update b.native hand (some fd)
      accepted := accepted } := by
  obtain ⟨hfree, hnatives⟩ := Ledger.acquire_eq hacquire
  have hne : ∀ other fd', b.native other = some fd' → fd' ≠ fd := by
    rintro other fd' hfd' rfl
    rw [h.holding.isOpen_of_own other fd' hfd'] at hfree
    cases hfree
  have hlast : ∀ fd', fd' ≠ fd → natives.last fd' = b.natives.last fd' := by
    intro fd' hfd'
    rw [hnatives]
    exact update_of_ne hfd' _ _
  have hrelay : ∀ k, update b.native hand (some fd) (.relay k) = b.native (.relay k) := fun k ↦
    update_of_ne (hhand k).symm _ _
  have hserial : ∀ k, (b.native (.relay k)).bind natives.last = b.serial k := by
    intro k
    cases hk : b.native (.relay k) with
    | none => simp only [serial, hk, Option.bind_none]
    | some fd' =>
      simp only [serial, hk, Option.bind_some]
      exact hlast fd' (hne _ _ hk)
  refine ⟨h.natives.acquire hacquire, ?_, fun t fd' hfd' ↦ ?_, fun k fd' hfd' ↦ ?_, h.lwip, ?_,
    h.lwipAccount, h.listed⟩
  · refine (h.holding.mono (fun _ hout ↦ Ledger.isOut_acquire_of_isOut hacquire hout)
      fun _ _ hown ↦ hown).acquire (i := hand) (r := fd) ?_ (fun fd' hfd' ↦ ?_)
      fun other fd' hother hfd' ↦ (update_of_ne hother _ _).symm.trans hfd'
    · exact ⟨Ledger.isOut_acquire h.natives hacquire, fun other hother ↦ hne other fd hother rfl⟩
    · dsimp only at hfd'
      rw [update_self] at hfd'
      exact (Option.some.inj hfd').symm
  · by_cases ht : hand = .accepted t
    · subst ht
      dsimp only at hfd' ⊢
      rw [update_self] at hfd'
      obtain rfl := Option.some.inj hfd'
      rw [hlatest t rfl, hnatives]
      exact update_self _ _ _
    · have hold : b.native (.accepted t) = some fd' :=
        (update_of_ne (Ne.symm ht) _ _).symm.trans hfd'
      dsimp only
      rw [haccepted t ht]
      exact (hlast fd' (hne _ _ hold)).trans (h.accepted t fd' hold)
  · exact h.relay k fd' ((hrelay k).symm.trans hfd')
  · have hsame : Board.serial { b with
        natives := natives
        native := update b.native hand (some fd)
        accepted := accepted } = b.serial := by
      funext k
      rw [← hserial k, ← hrelay k]
      rfl
    rw [hsame]
    have hreleases : natives.releases = b.natives.releases := by rw [hnatives]
    exact hreleases.symm ▸ h.nativeAccount

/-- A thread closes a descriptor that was not moved. -/
theorem Inv.unlisten (h : b.Inv) (hfd : b.native (.listener t) = some fd) :
    Inv { b with
      natives := b.natives.release fd
      native := update b.native (.listener t) none } := by
  obtain ⟨id, hlast, hzero⟩ := h.last_of_hand hfd
  have hother : ∀ other fd', update b.native (.listener t) none other = some fd' →
      b.native other = some fd' := by
    intro other fd' hfd'
    by_cases hsame : other = .listener t
    · rw [hsame, update_self] at hfd'
      cases hfd'
    · exact (update_of_ne hsame _ _).symm.trans hfd'
  have hserial : Board.serial { b with
      natives := b.natives.release fd
      native := update b.native (.listener t) none } = b.serial := by
    funext k
    simp only [serial, Ledger.release_eq hlast, update_of_ne (show NativeHand.relay k ≠ .listener t
      from nofun)]
  refine ⟨h.natives.release, ?_, fun u fd' hfd' ↦ ?_,
    fun k fd' hfd' ↦ h.relay k fd' (hother _ _ hfd'), h.lwip, ?_, h.lwipAccount, h.listed⟩
  · exact h.holding.drop hfd (update_self _ _ _) (fun other fd' _ hfd' ↦ hother other fd' hfd')
      fun fd' hne hout ↦ Ledger.isOut_release_of_ne h.natives hne hout
  · have hlasts : (b.natives.release fd).last = b.natives.last := by rw [Ledger.release_eq hlast]
    exact (congrFun hlasts fd').trans (h.accepted u fd' (hother _ _ hfd'))
  · rw [hserial, show (b.natives.release fd).releases =
      update b.natives.releases id (b.natives.releases id + 1) by rw [Ledger.release_eq hlast]]
    exact h.nativeAccount.closeOther hzero (h.serial_ne hfd hlast nofun)

/-- A bridge moves the descriptor it accepted into its slot. -/
theorem Inv.moveNative (h : b.Inv) (hfd : b.native (.accepted t) = some fd) (hpos : 0 ≤ fd)
    (halive : b.Alive k) (hempty : b.nativeFd k < 0) :
    Inv { b with
      nativeFd := update b.nativeFd k fd
      native := update (update b.native (.accepted t) none) (.relay k) (some fd)
      movedNative := (b.accepted t, b.natives.releases (b.accepted t)) :: b.movedNative } := by
  have hnone : b.native (.relay k) = none := by
    cases hk : b.native (.relay k) with
    | none => rfl
    | some fd' =>
      obtain ⟨hslot, hpos', -⟩ := h.relay k fd' hk
      omega
  have hlast := h.accepted t fd hfd
  have hzero : b.natives.releases (b.accepted t) = 0 := by
    obtain ⟨id, hid, hzero⟩ := h.last_of_hand hfd
    rwa [Option.some.inj (hlast.symm.trans hid)]
  have hother : ∀ other fd', other ≠ .relay k →
      update (update b.native (.accepted t) none) (.relay k) (some fd) other = some fd' →
      b.native other = some fd' := by
    intro other fd' hne hfd'
    rw [update_of_ne hne] at hfd'
    by_cases hsame : other = .accepted t
    · rw [hsame, update_self] at hfd'
      cases hfd'
    · exact (update_of_ne hsame _ _).symm.trans hfd'
  have hserial : Board.serial { b with
      nativeFd := update b.nativeFd k fd
      native := update (update b.native (.accepted t) none) (.relay k) (some fd)
      movedNative := (b.accepted t, b.natives.releases (b.accepted t)) :: b.movedNative } =
      update b.serial k (some (b.accepted t)) := by
    funext j
    by_cases hj : j = k
    · rw [hj, update_self]
      simp only [serial, update_self, Option.bind_some]
      exact hlast
    · rw [update_of_ne hj]
      simp only [serial, update_of_ne (show NativeHand.relay j ≠ .relay k from
        fun hsame ↦ hj (NativeHand.relay.inj hsame)), update_of_ne (show NativeHand.relay j ≠
          .accepted t from nofun)]
  refine ⟨h.natives, ?_, fun u fd' hfd' ↦ h.accepted u fd' (hother _ _ nofun hfd'),
    fun j fd' hfd' ↦ ?_, h.lwip, ?_, h.lwipAccount, h.listed⟩
  · refine h.holding.transfer (j := .relay k) hfd ?_ (fun fd' hfd' ↦ ?_)
      fun other fd' _ hne hfd' ↦ hother other fd' hne hfd'
    · dsimp only
      rw [update_of_ne (show NativeHand.accepted t ≠ .relay k from nofun), update_self]
    · dsimp only at hfd'
      rw [update_self] at hfd'
      exact (Option.some.inj hfd').symm
  · by_cases hj : j = k
    · subst hj
      dsimp only at hfd' ⊢
      rw [update_self] at hfd' ⊢
      obtain rfl := Option.some.inj hfd'
      exact ⟨rfl, hpos, halive⟩
    · obtain ⟨hslot, hrest⟩ := h.relay j fd' (hother _ _ (by simpa using hj) hfd')
      exact ⟨(update_of_ne hj _ _).trans hslot, hrest⟩
  · rw [hserial]
    refine h.nativeAccount.move ?_ hzero (h.serial_ne hfd hlast nofun)
    simp only [serial, hnone, Option.bind_none]

/-- A bridge moves its lwIP descriptor into its slot. -/
theorem Inv.moveLwip (h : b.Inv) (hpos : 0 ≤ l) (halive : b.Alive k) (hempty : b.lwfd k < 0)
    (hnew : ∀ before, (l, before) ∉ b.movedLwip) :
    Inv { b with
      lwfd := update b.lwfd k l
      lwip := update b.lwip k (some l)
      movedLwip := (l, b.lwipCloses l) :: b.movedLwip } := by
  have hnone : b.lwip k = none := by
    cases hk : b.lwip k with
    | none => rfl
    | some other =>
      obtain ⟨hslot, hpos', -⟩ := h.lwip k other hk
      omega
  have hunlisted : ¬ ((∃ j, b.lwip j = some l) ∨ b.lwipCloses l ≠ 0) := fun hlisted ↦ by
    obtain ⟨before, hbefore⟩ := h.listed l hlisted
    exact hnew before hbefore
  obtain ⟨hfree, hzero⟩ := not_or.mp hunlisted
  refine ⟨h.natives, h.holding, h.accepted, h.relay, fun j other hother ↦ ?_, h.nativeAccount, ?_,
    fun other hother ↦ ?_⟩
  · by_cases hj : j = k
    · subst hj
      dsimp only at hother ⊢
      rw [update_self] at hother ⊢
      obtain rfl := Option.some.inj hother
      exact ⟨rfl, hpos, halive⟩
    · obtain ⟨hslot, hrest⟩ := h.lwip j other ((update_of_ne hj _ _).symm.trans hother)
      exact ⟨(update_of_ne hj _ _).trans hslot, hrest⟩
  · exact h.lwipAccount.move hnone (not_not.mp hzero) (not_exists.mp hfree)
  · by_cases hsame : other = l
    · exact ⟨_, List.mem_cons.mpr (.inl (by rw [hsame]))⟩
    · refine (h.listed other (hother.imp_left ?_)).imp fun before hbefore ↦
        List.mem_cons_of_mem _ hbefore
      rintro ⟨j, hj⟩
      by_cases hjk : j = k
      · dsimp only at hj
        rw [hjk, update_self] at hj
        exact absurd (Option.some.inj hj).symm hsame
      · exact ⟨j, (update_of_ne hjk _ _).symm.trans hj⟩

/-- The worker of a slot closes the native descriptor that was moved there. -/
theorem Inv.closeNative (h : b.Inv) (hfd : b.native (.relay k) = some fd) :
    Inv { b with
      natives := b.natives.release fd
      native := update b.native (.relay k) none } := by
  obtain ⟨id, hlast, hzero⟩ := h.last_of_hand hfd
  have hother : ∀ other fd', update b.native (.relay k) none other = some fd' →
      b.native other = some fd' := by
    intro other fd' hfd'
    by_cases hsame : other = .relay k
    · rw [hsame, update_self] at hfd'
      cases hfd'
    · exact (update_of_ne hsame _ _).symm.trans hfd'
  have hserial : Board.serial { b with
      natives := b.natives.release fd
      native := update b.native (.relay k) none } = update b.serial k none := by
    funext j
    by_cases hj : j = k
    · rw [hj, update_self]
      simp only [serial, update_self, Option.bind_none]
    · rw [update_of_ne hj]
      simp only [serial, Ledger.release_eq hlast, update_of_ne (show NativeHand.relay j ≠ .relay k
        from fun hsame ↦ hj (NativeHand.relay.inj hsame))]
  refine ⟨h.natives.release, ?_, fun u fd' hfd' ↦ ?_,
    fun j fd' hfd' ↦ h.relay j fd' (hother _ _ hfd'), h.lwip, ?_, h.lwipAccount, h.listed⟩
  · exact h.holding.drop hfd (update_self _ _ _) (fun other fd' _ hfd' ↦ hother other fd' hfd')
      fun fd' hne hout ↦ Ledger.isOut_release_of_ne h.natives hne hout
  · have hlasts : (b.natives.release fd).last = b.natives.last := by rw [Ledger.release_eq hlast]
    exact (congrFun hlasts fd').trans (h.accepted u fd' (hother _ _ hfd'))
  · rw [hserial, show (b.natives.release fd).releases =
      update b.natives.releases id (b.natives.releases id + 1) by rw [Ledger.release_eq hlast]]
    exact h.nativeAccount.close (serial_eq_some.mpr ⟨fd, hfd, hlast⟩)

/-- The worker of a slot closes the lwIP descriptor that was moved there. -/
theorem Inv.closeLwip (h : b.Inv) (hl : b.lwip k = some l) :
    Inv { b with
      lwipCloses := update b.lwipCloses l (b.lwipCloses l + 1)
      lwip := update b.lwip k none } := by
  have hother : ∀ j other, update b.lwip k none j = some other → b.lwip j = some other := by
    intro j other hj
    by_cases hsame : j = k
    · rw [hsame, update_self] at hj
      cases hj
    · exact (update_of_ne hsame _ _).symm.trans hj
  refine ⟨h.natives, h.holding, h.accepted, h.relay,
    fun j other hj ↦ h.lwip j other (hother j other hj), h.nativeAccount, h.lwipAccount.close hl,
    fun other hlisted ↦ ?_⟩
  by_cases hsame : other = l
  · rw [hsame]
    exact h.listed l (.inl ⟨k, hl⟩)
  · refine h.listed other (hlisted.imp (fun hj ↦ ?_) fun hcloses ↦ ?_)
    · exact hj.imp fun j hj ↦ hother j other hj
    · exact fun hzero ↦ hcloses ((update_of_ne hsame _ _).trans hzero)

end Board

theorem HandStep.inv (h : HandStep t b c) (hinv : b.Inv) : c.Inv := by
  cases h with
  | listen fd natives hacquire =>
    refine hinv.acquire hacquire ?_ (fun _ _ ↦ rfl) ?_
    · nofun
    · nofun
  | accept fd natives hacquire =>
    refine hinv.acquire hacquire ?_ (fun u hu ↦ update_of_ne ?_ _ _) fun u hu ↦ ?_
    · nofun
    · rintro rfl
      exact hu rfl
    · rw [← NativeHand.accepted.inj hu]
      exact update_self _ _ _
  | unlisten fd hfd => exact hinv.unlisten hfd
  | moveNative k fd hkeeper hfd hpos halive hopen hempty =>
    exact hinv.moveNative hfd hpos halive hempty
  | moveLwip k l hkeeper hpos halive hopen hempty hnew =>
    exact hinv.moveLwip hpos halive hempty hnew
  | storeLwfd k l hkeeper hneg hempty =>
    obtain ⟨hnatives, hholding, haccepted, hrelay, hlwip, haccount, hlwipAccount, hlisted⟩ := hinv
    refine ⟨hnatives, hholding, haccepted, hrelay, ?_, haccount, hlwipAccount, hlisted⟩
    dsimp only [update, Board.Alive]
    grind [Board.Alive]

theorem WorkerStep.inv (h : WorkerStep k b c) (hinv : b.Inv) : c.Inv := by
  cases h with
  | closeNative fd hfd => exact hinv.closeNative hfd
  | closeLwip l hl => exact hinv.closeLwip hl
  | _ =>
    obtain ⟨hnatives, hholding, haccepted, hrelay, hlwip, haccount, hlwipAccount, hlisted⟩ := hinv
    refine ⟨hnatives, hholding, haccepted, ?_, ?_, haccount, hlwipAccount, hlisted⟩ <;>
      dsimp only [update, Board.Alive] <;> grind [Board.Alive]

theorem BoardStep.inv (h : BoardStep t b c) (hinv : b.Inv) : c.Inv := by
  cases h with
  | skip => exact hinv
  | slot h => exact h.inv hinv
  | hand h => exact h.inv hinv
  | work k ht h => exact h.inv hinv

/-- Once no worker is left, every descriptor that was moved was closed once, and not before. -/
theorem Board.Inv.settled (h : b.Inv) (hended : ∀ k, ¬ b.Alive k) :
    (∀ id before, (id, before) ∈ b.movedNative → before = 0 ∧ b.natives.releases id = 1) ∧
      ∀ l before, (l, before) ∈ b.movedLwip → before = 0 ∧ b.lwipCloses l = 1 := by
  have hserial : ∀ k, b.serial k = none := by
    intro k
    cases hk : b.native (.relay k) with
    | none => simp only [Board.serial, hk, Option.bind_none]
    | some fd => exact absurd (h.relay k fd hk).2.2 (hended k)
  have hlwip : ∀ k, b.lwip k = none := by
    intro k
    cases hk : b.lwip k with
    | none => rfl
    | some l => exact absurd (h.lwip k l hk).2.2 (hended k)
  exact ⟨fun id before hid ↦ h.nativeAccount.closed_once hserial hid,
    fun l before hl ↦ h.lwipAccount.closed_once hlwip hl⟩

/-! ### Stages of a thread -/

namespace Board

/-- Other threads do not falsify the assertion. -/
def Steady (t : RelayThread) (assertion : Board → Prop) : Prop :=
  ∀ b c, assertion b → Rely t b c → assertion c

/-- Thread `t` keeps no slot. -/
def Idle (t : RelayThread) (b : Board) : Prop := ∀ k, b.keeper k ≠ some t

/-- Thread `t` keeps slot `k` and no other one. -/
def Kept (t : RelayThread) (k : ℕ) (b : Board) : Prop := ∀ j, b.keeper j = some t ↔ j = k

/-- A kept slot without a worker. -/
def Claimed (t : RelayThread) (k : ℕ) (b : Board) : Prop := b.Kept t k ∧ ¬ b.Alive k

/-- A kept slot that is not published and has no descriptors. -/
structure Blank (t : RelayThread) (k : ℕ) (b : Board) : Prop where
  kept : b.Kept t k
  ready : b.ready k = false
  native : b.nativeFd k < 0
  lwip : b.lwfd k < 0

/-- The worker of a blank slot waits for the bridge, unless it was stopped. -/
def Waiting (t : RelayThread) (k : ℕ) (b : Board) : Prop :=
  b.Blank t k ∧ (b.stop k = false → b.Alive k)

/-- Slots do not depend on what threads have in hand. -/
theorem Waiting.withHands {b : Board} {t : RelayThread} {k : ℕ} (h : b.Waiting t k)
    {natives : Ledger ℤ} {native : NativeHand → Option ℤ} {accepted : RelayThread → ℕ} :
    Waiting t k { b with natives := natives, native := native, accepted := accepted } :=
  ⟨⟨h.1.kept, h.1.ready, h.1.native, h.1.lwip⟩, h.2⟩

/-- The native descriptor is in the slot and the lwIP descriptor is not. -/
structure Halfway (t : RelayThread) (k : ℕ) (b : Board) : Prop where
  kept : b.Kept t k
  ready : b.ready k = false
  lwip : b.lwfd k < 0
  alive : b.stop k = false → b.Alive k

/-- The worker of slot `k` runs and finds no descriptor that was not moved there. -/
def Running (k : ℕ) (b : Board) : Prop := b.worker k = .running ∧ b.Tidy k

/-- It has left its wait. -/
def Leaving (k : ℕ) (b : Board) : Prop := b.Running k ∧ b.Sealed k

/-- It has dealt with the native descriptor. -/
structure HalfLeft (k : ℕ) (b : Board) : Prop where
  running : b.worker k = .running
  sealed : b.Sealed k
  native : b.native (.relay k) = none
  lwip : 0 ≤ b.lwfd k → b.lwip k ≠ none

structure Left (k : ℕ) (b : Board) : Prop where
  running : b.worker k = .running
  sealed : b.Sealed k
  native : b.native (.relay k) = none
  lwip : b.lwip k = none

variable {p q : Board → Prop} {fd l : ℤ}

theorem Steady.and (hp : Steady t p) (hq : Steady t q) : Steady t fun b ↦ p b ∧ q b :=
  fun b c h hrely ↦ ⟨hp b c h.1 hrely, hq b c h.2 hrely⟩

theorem Steady.const (p : Prop) : Steady t fun _ ↦ p := fun _ _ h _ ↦ h

theorem steady_idle : Steady t (Idle t) := fun _ _ h hrely k hk ↦ h k ((hrely.keeper k).mp hk)

theorem steady_kept : Steady t (Kept t k) := fun _ _ h hrely j ↦ (hrely.keeper j).trans (h j)

theorem steady_claimed : Steady t (Claimed t k) := fun b c h hrely ↦
  ⟨steady_kept b c h.1 hrely, fun halive ↦ h.2 (hrely.alive k ((h.1 k).mpr rfl) halive)⟩

theorem steady_ready {value : Bool} : Steady t fun b ↦ b.Kept t k ∧ b.ready k = value :=
  fun b c h hrely ↦
    ⟨steady_kept b c h.1 hrely, (hrely.ready k ((h.1 k).mpr rfl)).trans h.2⟩

theorem steady_blank : Steady t (Blank t k) := by
  intro b c h hrely
  have hk := (h.kept k).mpr rfl
  obtain ⟨hnative, hlwip⟩ := hrely.empty k hk
  exact ⟨steady_kept b c h.kept hrely, (hrely.ready k hk).trans h.ready, hnative h.native,
    hlwip h.lwip⟩

theorem steady_created : Steady t fun b ↦ b.Blank t k ∧ b.worker k = .suspended :=
  fun b c h hrely ↦ ⟨steady_blank b c h.1 hrely,
    hrely.suspended k ((h.1.kept k).mpr rfl) h.2⟩

theorem steady_waiting : Steady t (Waiting t k) := by
  intro b c h hrely
  have hk := (h.1.kept k).mpr rfl
  exact ⟨steady_blank b c h.1 hrely, fun hstop ↦
    hrely.waiting k hk hstop h.1.ready (h.2 (hrely.stop k hk hstop))⟩

theorem steady_halfway : Steady t (Halfway t k) := by
  intro b c h hrely
  have hk := (h.kept k).mpr rfl
  exact ⟨steady_kept b c h.kept hrely, (hrely.ready k hk).trans h.ready,
    (hrely.empty k hk).2 h.lwip,
    fun hstop ↦ hrely.waiting k hk hstop h.ready (h.alive (hrely.stop k hk hstop))⟩

theorem steady_hand {hand : NativeHand} (hhand : hand.thread = some t) :
    Steady t fun b ↦ b.native hand = some fd :=
  fun _ _ h hrely ↦ (hrely.native hand hhand).trans h

theorem steady_running : Steady (.worker k) (Running k) := fun _ _ h hrely ↦
  ⟨hrely.running k rfl h.1, hrely.tidy k rfl h.2⟩

theorem steady_leaving : Steady (.worker k) (Leaving k) := fun b c h hrely ↦
  ⟨steady_running b c h.1 hrely, (hrely.sealed k rfl h.1.1 h.2).1⟩

theorem steady_leavingNative {held : Option ℤ} :
    Steady (.worker k) fun b ↦ b.Leaving k ∧ b.native (.relay k) = held := by
  intro b c h hrely
  obtain ⟨-, -, -, hnative, -⟩ := hrely.sealed k rfl h.1.1.1 h.1.2
  exact ⟨steady_leaving b c h.1 hrely, hnative.trans h.2⟩

theorem steady_halfLeft : Steady (.worker k) (HalfLeft k) := by
  intro b c h hrely
  obtain ⟨hsealed, -, hlwfd, hnative, hlwip⟩ := hrely.sealed k rfl h.running h.sealed
  refine ⟨hrely.running k rfl h.running, hsealed, hnative.trans h.native, fun hpos ↦ ?_⟩
  rw [hlwfd (.inr hpos)] at hpos
  rw [hlwip]
  exact h.lwip hpos

theorem steady_halfLeftLwip :
    Steady (.worker k) fun b ↦ b.HalfLeft k ∧ b.lwip k = some l := by
  intro b c h hrely
  obtain ⟨-, -, -, -, hlwip⟩ := hrely.sealed k rfl h.1.running h.1.sealed
  exact ⟨steady_halfLeft b c h.1 hrely, hlwip.trans h.2⟩

theorem steady_left : Steady (.worker k) (Left k) := by
  intro b c h hrely
  obtain ⟨hsealed, -, -, hnative, hlwip⟩ := hrely.sealed k rfl h.running h.sealed
  exact ⟨hrely.running k rfl h.running, hsealed, hnative.trans h.native, hlwip.trans h.lwip⟩

end Board

end Ax88179Aroma.Shim
