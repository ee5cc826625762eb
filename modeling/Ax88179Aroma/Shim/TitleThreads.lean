import Ax88179Aroma.Effect.History
import Ax88179Aroma.Shim.Desk
import Ax88179Aroma.Shim.Frames

/-!
# Sockets of concurrent title threads

Title threads run `socket`, `accept`, `socketclose` and `socketclose_all` at the same time.  Each
hook calls lwIP, calls nsysnet and updates the tables in separate steps; in between its descriptors
are in its hands.  A history beside the run says which those are.

`socketclose` releases the lwIP descriptor before it drops the mapping, and `socketclose_all` drops
the mappings before it closes the placeholders.  As long as lwIP does not hand out a descriptor that
a stale mapping leads to, and no placeholder is closed that another thread was handed in between,
the tables stay consistent.
-/

namespace Ax88179Aroma.Shim

open Effect Program

/-! ## The system -/

inductive TitleOperation where
  | socket (domain type protocol : ℤ)
  | accept (sockfd : ℤ) (addr : Bool) (addrlen : Option ℕ)
  | socketclose (sockfd : ℤ)
  | socketcloseAll

def titleBody : TitleOperation → ShimM Unit
  | .socket domain type protocol => ignore (hookSocket domain type protocol)
  | .accept sockfd addr addrlen => ignore (hookAccept sockfd addr addrlen)
  | .socketclose sockfd => do
    note (.closeBegin sockfd)
    ignore (hookSocketclose sockfd)
    note (.closeEnd sockfd)
  | .socketcloseAll => ignore hookSocketcloseAll

def titleSystem : System ℕ TitleOperation Empty ShimState FdWorld ShimCall ShimReply where
  reply _ := fdReply
  env _ _ := none
  body _ := titleBody
  enabled _ _ _ := true

/-! ## History -/

structure TitleHistory where
  /-- the lwIP descriptor that a `socket` or `accept` has not recorded yet -/
  fresh : ℕ → Option ℤ := fun _ ↦ none
  standing : ℕ → Standing
  /-- who is in `socketclose` of a descriptor -/
  closer : ℤ → Option ℕ := fun _ ↦ none

/-- Nobody has anything in hand. -/
def TitleHistory.start (s : ShimState) : TitleHistory where
  standing fd := if s.openMask.getLsbD fd = true then .tracked else .free

abbrev TitleWatched := Watched ShimState FdWorld TitleHistory

/-- The bit of `fd` goes from set to clear. -/
def Clears (update : ShimState → ShimState) (s : ShimState) (fd : ℕ) : Prop :=
  s.openMask.getLsbD fd = true ∧ (update s).openMask.getLsbD fd = false

/-- The bit of `fd` goes from clear to set. -/
def Sets (update : ShimState → ShimState) (s : ShimState) (fd : ℕ) : Prop :=
  s.openMask.getLsbD fd = false ∧ (update s).openMask.getLsbD fd = true

instance (update : ShimState → ShimState) (s : ShimState) (fd : ℕ) :
    Decidable (Clears update s fd) := inferInstanceAs (Decidable (_ ∧ _))

instance (update : ShimState → ShimState) (s : ShimState) (fd : ℕ) :
    Decidable (Sets update s fd) := inferInstanceAs (Decidable (_ ∧ _))

/-- Thread `t` takes a descriptor out of `open_mask`. -/
def Standing.cleared (t : ℕ) : Standing → Standing
  | .released u => .untracked u
  | _ => .taken t

def titleAccess (t : ℕ) (update : ShimState → ShimState) (x : TitleWatched) : TitleHistory where
  fresh u := if u = t ∧ ∃ fd ∈ publicFds, Sets update x.mem fd then none else x.ghost.fresh u
  standing fd :=
    if Sets update x.mem fd then .tracked
    else if Clears update x.mem fd then (x.ghost.standing fd).cleared t
    else x.ghost.standing fd
  closer := x.ghost.closer

/-- A thread has called `lwip_close` for its own fresh descriptor, for a public descriptor that it
has taken or for the one that it closes. -/
def TitleHistory.closedLwip (g : TitleHistory) (t : ℕ) (lwfd code : ℤ) (s : ShimState) :
    TitleHistory :=
  if g.fresh t = some lwfd then { g with fresh := Function.update g.fresh t none }
  else
    { g with
      standing := fun fd ↦
        if s.mappedFd fd = lwfd ∧ g.standing fd = .taken t then .emptied t
        else if s.mappedFd fd = lwfd ∧ g.standing fd = .tracked ∧ g.closer fd = some t ∧ code = 0
        then .released t
        else g.standing fd }

def titleReply (t : ℕ) (x : TitleWatched) : ShimCall → ShimReply → TitleHistory
  | .lwip (.socket _ _ _), answer =>
    if answer.code < 0 then x.ghost
    else { x.ghost with fresh := Function.update x.ghost.fresh t (some answer.code) }
  | .lwip (.accept _), answer =>
    if answer.code < 0 then x.ghost
    else { x.ghost with fresh := Function.update x.ghost.fresh t (some answer.code) }
  | .native (.socket _ _ _), answer =>
    if x.ghost.fresh t ≠ none ∧ 0 ≤ answer.code ∧ answer.code < 32 then
      { x.ghost with
        standing := Function.update x.ghost.standing answer.code.toNat (.reserved t) }
    else x.ghost
  | .lwip (.close lwfd), answer => x.ghost.closedLwip t lwfd answer.code x.mem
  | .native (.socketclose fd), _ =>
    { x.ghost with
      standing := fun k ↦
        if (k : ℤ) = fd ∧ x.ghost.standing k = .untracked t then .free else x.ghost.standing k }
  | .native .socketcloseAll, _ =>
    { x.ghost with
      standing := fun k ↦
        if x.ghost.standing k = .taken t ∨ x.ghost.standing k = .emptied t then .free
        else x.ghost.standing k }
  | .note (.closeBegin fd), _ =>
    { x.ghost with closer := Function.update x.ghost.closer fd (some t) }
  | .note (.closeEnd fd), _ => { x.ghost with closer := Function.update x.ghost.closer fd none }
  | _, _ => x.ghost

def titleObserver : Monitor ℕ ShimState FdWorld ShimCall ShimReply TitleHistory where
  access t update x := some (titleAccess t update x)
  reply t request answer x := some (titleReply t x request answer)

/-! ### One thread closes a descriptor -/

/-- Whose `socketclose_all` closes a descriptor. -/
def Standing.collector : Standing → Option ℕ
  | .taken t => some t
  | .emptied t => some t
  | _ => none

/-- Nobody takes a public descriptor out of `open_mask` that another thread is closing. -/
def takesUnclosed (t : ℕ) (update : ShimState → ShimState) (x : TitleWatched) : Bool :=
  decide (∀ fd ∈ publicFds, Clears update x.mem fd →
    x.ghost.closer fd = none ∨ x.ghost.closer fd = some t)

/-- A thread begins to close a descriptor only while no other one closes it or has taken it, and
`real_socketclose_all` is called only while no thread closes an open descriptor and no other one
has taken one. -/
def closesAlone (t : ℕ) : ShimCall → TitleWatched → Bool
  | .note (.closeBegin fd), x =>
    decide (x.ghost.closer fd = none ∧
      (0 ≤ fd → (x.ghost.standing fd.toNat).collector = none))
  | .native .socketcloseAll, x =>
    decide (∀ fd ∈ publicFds, (x.world.native (fd : ℕ) = none ∨ x.ghost.closer (fd : ℕ) = none) ∧
      ((x.ghost.standing fd).collector = none ∨ (x.ghost.standing fd).collector = some t))
  | _, _ => true

/-- Runs of titles in which no descriptor is closed by two threads. -/
def titleMonitor : Monitor ℕ ShimState FdWorld ShimCall ShimReply TitleHistory :=
  titleObserver.restrict takesUnclosed closesAlone

/-! ### The windows -/

/-- No public descriptor in `open_mask` still leads to `lwfd`. -/
def unmapped (lwfd : ℤ) (x : TitleWatched) : Bool :=
  decide (0 ≤ lwfd → ∀ fd ∈ publicFds, x.mem.openMask.getLsbD fd = true →
    x.mem.mappedFd fd ≠ lwfd)

/-- No thread was handed the placeholder `fd` to record it, or has recorded it. -/
def unplaced (fd : ℕ) (x : TitleWatched) : Bool :=
  decide (x.mem.openMask.getLsbD fd = false) &&
    match x.ghost.standing fd with
    | .reserved _ => false
    | _ => true

/-- lwIP hands out no descriptor that a public descriptor in `open_mask` still maps to; no
placeholder is recorded or in hand when `real_socketclose_all` closes the native sockets; and a
`socketclose` that goes to nsysnet closes no placeholder that another thread was handed meanwhile. -/
def outsideWindows (t : ℕ) : ShimCall → ShimReply → TitleWatched → Bool
  | .lwip (.socket _ _ _), answer, x => unmapped answer.code x
  | .lwip (.accept _), answer, x => unmapped answer.code x
  | .native .socketcloseAll, answer, x =>
    decide (answer.code = 0 → ∀ fd ∈ publicFds, unplaced fd x = true)
  | .native (.socketclose fd), answer, x =>
    decide (answer.code = 0 → 0 ≤ fd → fd < 32 →
      x.ghost.standing fd.toNat = .untracked t ∨ unplaced fd.toNat x = true)
  | _, _, _ => true

def windowMonitor : Monitor ℕ ShimState FdWorld ShimCall ShimReply TitleHistory :=
  titleMonitor.sift outsideWindows

/-! ## The desk of a run -/

def titleDesk (x : TitleWatched) : Desk where
  mask := x.mem.openMask.getLsbD
  mapped := x.mem.mappedFd
  native := x.world.native
  lwip := x.world.lwip
  fresh := x.ghost.fresh
  standing := x.ghost.standing
  closer := x.ghost.closer

def titleProtocol : Protocol ℕ ShimState FdWorld ShimCall TitleHistory where
  inv x := x.mem.acceptingSockets ≠ 0 ∧ (titleDesk x).Inv
  rely t x y := Desk.Rely t (titleDesk x) (titleDesk y)

/-- The rest of thread `t` is safe and ends in an assertion about the desk. -/
def TitleSecure {α : Type} (t : ℕ) (program : ShimM α) (post : α → Desk → Prop)
    (x : TitleWatched) : Prop :=
  Secure titleSystem windowMonitor titleProtocol t program (fun value y ↦ post value (titleDesk y)) x

variable {t : ℕ} {x y : TitleWatched}

/-- A step of the desk is a step of the protocol. -/
theorem permits_of_deskStep (hy : titleProtocol.inv y) (haccepting : x.mem.acceptingSockets ≠ 0)
    (hstep : DeskStep t (titleDesk y) (titleDesk x)) : titleProtocol.Permits t y x :=
  ⟨⟨haccepting, hstep.inv hy.2⟩, fun _ hne ↦ hstep.rely hy.2 hne⟩

/-! ### Accesses -/

theorem windowMonitor_access {update : ShimState → ShimState} {g : TitleHistory}
    (h : windowMonitor.access t update y = some g) :
    (∀ fd, Clears update y.mem fd → y.ghost.closer fd = none ∨ y.ghost.closer fd = some t) ∧
      g = titleAccess t update y := by
  change (if takesUnclosed t update y then some (titleAccess t update y) else none) = some g at h
  split at h
  · rename_i hunclosed
    refine ⟨fun fd hclears ↦ ?_, (Option.some.inj h).symm⟩
    have hfd : fd ∈ publicFds := List.mem_range.mpr (lt_of_getLsbD hclears.1)
    exact of_decide_eq_true hunclosed fd hfd hclears
  · cases h

/-- An access that leaves `open_mask` leaves the history. -/
theorem titleAccess_of_mask {update : ShimState → ShimState}
    (hmask : (update y.mem).openMask = y.mem.openMask) : titleAccess t update y = y.ghost := by
  have hsets : ∀ fd, ¬ Sets update y.mem fd := by
    rintro fd ⟨hclear, hset⟩
    rw [hmask, hclear] at hset
    cases hset
  have hclears : ∀ fd, ¬ Clears update y.mem fd := by
    rintro fd ⟨hset, hclear⟩
    rw [hmask, hset] at hclear
    cases hclear
  simp [titleAccess, hsets, hclears]

/-- What an access leaves on the desk. -/
abbrev deskAfter (t : ℕ) (update : ShimState → ShimState) (y : TitleWatched) : Desk :=
  titleDesk (y.access update (titleAccess t update y))

variable {update : ShimState → ShimState} {fd : ℕ}

theorem deskAfter_of_mask (hmask : (update y.mem).openMask = y.mem.openMask) :
    deskAfter t update y = { titleDesk y with mapped := (update y.mem).mappedFd } := by
  rw [deskAfter, titleAccess_of_mask hmask]
  simp only [titleDesk, Watched.access, hmask]

/-- The mask gains a bit. -/
theorem deskAfter_track (hfd : fd < 32) (hclear : y.mem.openMask.getLsbD fd = false)
    (hmask : (update y.mem).openMask = y.mem.openMask ||| bit fd)
    (hmapped : (update y.mem).mappedFd = y.mem.mappedFd) :
    deskAfter t update y =
      { titleDesk y with
        mask := Function.update (titleDesk y).mask fd true
        standing := Function.update (titleDesk y).standing fd .tracked
        fresh := Function.update (titleDesk y).fresh t none } := by
  have hafter : ∀ k, (update y.mem).openMask.getLsbD k =
      Function.update y.mem.openMask.getLsbD fd true k := by
    intro k
    rw [hmask, Bool.eq_iff_iff, getLsbD_or_bit hfd]
    by_cases hsame : k = fd <;> simp [hsame]
  have hsets : ∀ k, Sets update y.mem k ↔ k = fd := by
    intro k
    rw [Sets, hafter]
    by_cases hsame : k = fd <;> simp [hsame, hclear]
  have hclears : ∀ k, ¬ Clears update y.mem k := by
    intro k
    rw [Clears, hafter]
    by_cases hsame : k = fd <;> simp [hsame, hclear]
  have hpublic : ∃ k ∈ publicFds, k = fd := ⟨fd, List.mem_range.mpr hfd, rfl⟩
  simp only [deskAfter, titleDesk, titleAccess, Watched.access, hsets, hclears, hpublic, hmapped,
    and_true, if_false, Desk.mk.injEq, true_and]
  refine ⟨funext hafter, funext fun u ↦ ?_, funext fun k ↦ ?_⟩
  · by_cases hsame : u = t <;> simp [hsame]
  · by_cases hsame : k = fd <;> simp [hsame]

/-- The mask loses bits. -/
theorem deskAfter_clear {gone : ℕ → Prop} [DecidablePred gone]
    (hmask : ∀ k, (update y.mem).openMask.getLsbD k =
      if gone k then false else y.mem.openMask.getLsbD k)
    (hmapped : (update y.mem).mappedFd = y.mem.mappedFd) :
    deskAfter t update y =
      { titleDesk y with
        mask := fun k ↦ if gone k then false else (titleDesk y).mask k
        standing := fun k ↦
          if gone k ∧ (titleDesk y).mask k = true then ((titleDesk y).standing k).cleared t
          else (titleDesk y).standing k } := by
  have hsets : ∀ k, ¬ Sets update y.mem k := by
    intro k
    rw [Sets, hmask]
    split <;> simp
  have hclears : ∀ k, Clears update y.mem k ↔ gone k ∧ y.mem.openMask.getLsbD k = true := by
    intro k
    rw [Clears, hmask]
    by_cases hgone : gone k <;> simp [hgone]
  simp only [deskAfter, titleDesk, titleAccess, Watched.access, hsets, hclears, hmapped, and_false,
    exists_false, if_false, Desk.mk.injEq, true_and, and_true]
  exact ⟨funext hmask, rfl⟩

/-! ### Rules for a thread -/

variable {p : Desk → Prop}

/-- Assertions about the desk that others leave true. -/
theorem steady_onDesk (hp : Desk.Steady t p) :
    titleProtocol.Steady t fun x ↦ p (titleDesk x) :=
  fun x y hx hrely _ ↦ hp (titleDesk x) (titleDesk y) hx hrely

section Rules

variable {α β : Type} {post : α → Desk → Prop}

theorem title_pure {value : α} (hx : post value (titleDesk x)) :
    TitleSecure t (pure value) post x := hx

/-- One program after the other. -/
theorem title_seq {program : ShimM α} {next : α → ShimM β} {post' : β → Desk → Prop}
    (hprogram : TitleSecure t program post x)
    (hnext : ∀ value y, post value (titleDesk y) → TitleSecure t (next value) post' y) :
    TitleSecure t (program >>= next) post' x :=
  (secure_bind _ _ _ _).mpr (secure_mono hprogram hnext)

theorem title_mono {program : ShimM α} {post' : α → Desk → Prop}
    (hprogram : TitleSecure t program post x) (hpost : ∀ value d, post value d → post' value d) :
    TitleSecure t program post' x :=
  secure_mono hprogram fun value y ↦ hpost value (titleDesk y)

/-- One atomic access to the tables. -/
theorem title_rmw {next : ShimState → ShimM α} (hp : Desk.Steady t p) (hx : p (titleDesk x))
    (haccepting : ∀ s, (update s).acceptingSockets = s.acceptingSockets)
    (hstep : ∀ y, p (titleDesk y) → titleProtocol.inv y →
      (∀ fd, Clears update y.mem fd →
        y.ghost.closer fd = none ∨ y.ghost.closer fd = some t) →
      DeskStep t (titleDesk y) (deskAfter t update y) ∧
        TitleSecure t (next y.mem) post (y.access update (titleAccess t update y))) :
    TitleSecure t (.rmw update next) post x := by
  refine secure_rmw hx (steady_onDesk hp) fun y g hy hinv haccess ↦ ?_
  obtain ⟨hunclosed, rfl⟩ := windowMonitor_access haccess
  obtain ⟨hdesk, hrest⟩ := hstep y hy hinv hunclosed
  exact ⟨permits_of_deskStep hinv ((haccepting y.mem).trans_ne hinv.1) hdesk, hrest⟩

theorem title_store {post : Unit → Desk → Prop} (hp : Desk.Steady t p) (hx : p (titleDesk x))
    (haccepting : ∀ s, (update s).acceptingSockets = s.acceptingSockets)
    (hstep : ∀ y, p (titleDesk y) → titleProtocol.inv y →
      DeskStep t (titleDesk y) (deskAfter t update y) ∧ post () (deskAfter t update y)) :
    TitleSecure t (store update) post x :=
  title_rmw hp hx haccepting fun y hy hinv _ ↦ hstep y hy hinv

theorem title_load {view : ShimState → α} (hp : Desk.Steady t p) (hx : p (titleDesk x))
    (hstep : ∀ y, p (titleDesk y) → titleProtocol.inv y → post (view y.mem) (titleDesk y)) :
    TitleSecure t (load view) post x :=
  title_rmw hp hx (fun _ ↦ rfl) fun y hy hinv _ ↦ by
    have hdesk : deskAfter t id y = titleDesk y := deskAfter_of_mask rfl
    refine ⟨hdesk ▸ .skip, ?_⟩
    change post (view y.mem) (deskAfter t id y)
    rw [hdesk]
    exact hstep y hy hinv

end Rules

/-- After the reply to a call. -/
abbrev replied (t : ℕ) (y : TitleWatched) (request : ShimCall) (answer : ShimReply)
    (w : FdWorld) : TitleWatched :=
  { mem := y.mem, world := w, ghost := titleReply t y request answer }

/-- A reply to an accepted call. -/
theorem windowMonitor_reply {request : ShimCall} {answer : ShimReply} {z : FdMachine}
    {g : TitleHistory} (hreply : fdReply request answer y.toMachine = some z)
    (haccepted : windowMonitor.reply t request answer y = some g) :
    ∃ w, fdEffect y.mem y.world request answer = some w ∧
      outsideWindows t request answer y = true ∧ closesAlone t request y = true ∧
      { z with ghost := g } = replied t y request answer w := by
  obtain ⟨w, heffect, rfl⟩ := Option.map_eq_some_iff.mp hreply
  change (if outsideWindows t request answer y then
    (if closesAlone t request y then some (titleReply t y request answer) else none)
    else none) = some g at haccepted
  split at haccepted
  · rename_i houtside
    split at haccepted
    · rename_i halone
      cases haccepted
      exact ⟨w, heffect, houtside, halone, rfl⟩
    · cases haccepted
  · cases haccepted

/-- A call that ends in an assertion about the desk. -/
theorem title_perform {request : ShimCall} {post : ShimReply → Desk → Prop}
    (hp : Desk.Steady t p) (hx : p (titleDesk x))
    (hstep : ∀ y answer w, p (titleDesk y) → titleProtocol.inv y →
      fdEffect y.mem y.world request answer = some w →
      outsideWindows t request answer y = true → closesAlone t request y = true →
      DeskStep t (titleDesk y) (titleDesk (replied t y request answer w)) ∧
        post answer (titleDesk (replied t y request answer w))) :
    TitleSecure t (perform request) post x := by
  refine secure_perform hx (steady_onDesk hp) fun y hy hinv ↦
    ⟨trivial, fun answer z g hreply haccepted ↦ ?_⟩
  obtain ⟨w, heffect, houtside, halone, hz⟩ := windowMonitor_reply hreply haccepted
  obtain ⟨hdesk, hpost⟩ := hstep y answer w hy hinv heffect houtside halone
  rw [hz]
  exact ⟨permits_of_deskStep hinv hinv.1 hdesk, hpost⟩

/-- Calls that open and close nothing. -/
def Handless : ShimCall → Prop
  | .native (.socket _ _ _) => False
  | .native (.accept _ _ _) => False
  | .native (.socketclose _) => False
  | .native .socketcloseAll => False
  | .lwip (.socket _ _ _) => False
  | .lwip (.accept _) => False
  | .lwip (.close _) => False
  | .note (.closeBegin _) => False
  | .note (.closeEnd _) => False
  | _ => True

theorem titleDesk_handless {request : ShimCall} (hrequest : Handless request) {answer : ShimReply}
    {w : FdWorld} (heffect : fdEffect y.mem y.world request answer = some w) :
    titleDesk (replied t y request answer w) = titleDesk y := by
  have hghost : titleReply t y request answer = y.ghost := by
    unfold titleReply
    split <;> first | exact False.elim hrequest | rfl
  have hworld : w.native = y.world.native ∧ w.lwip = y.world.lwip := by
    unfold fdEffect at heffect
    split at heffect
    all_goals try first | exact False.elim hrequest
    · cases heffect
      split <;> exact ⟨rfl, rfl⟩
    · split at heffect
      · cases heffect
        exact ⟨rfl, rfl⟩
      · cases heffect
    · split at heffect
      · cases heffect
      · cases heffect
        exact ⟨rfl, rfl⟩
    all_goals
      cases heffect
      exact ⟨rfl, rfl⟩
  simp only [titleDesk, hghost, hworld.1, hworld.2]

/-- What leaves the tables and the descriptors alone leaves the desk alone. -/
theorem title_keeps {α : Type} {program : ShimM α}
    (hkeeps : Keeps ShimState.tables Handless program) (hp : Desk.Steady t p)
    (hx : p (titleDesk x)) : TitleSecure t program (fun _ ↦ p) x := by
  refine secure_keeps hkeeps (steady_onDesk hp) (fun y update g hupdate hinv hy haccess ↦ ?_)
    (fun y request hrequest hinv hy ↦ ⟨trivial, fun answer z g hreply haccepted ↦ ?_⟩) hx
  · obtain ⟨-, rfl⟩ := windowMonitor_access haccess
    have hmask := congrArg FdTables.openMask (hupdate y.mem)
    have hmapped := congrArg FdTables.mappedFd (hupdate y.mem)
    have haccepting := congrArg FdTables.accepting (hupdate y.mem)
    have hdesk : titleDesk (y.access update (titleAccess t update y)) = titleDesk y :=
      (deskAfter_of_mask hmask).trans
        (congrArg (fun mapped ↦ { titleDesk y with mapped := mapped }) hmapped)
    refine ⟨permits_of_deskStep hinv (haccepting.trans_ne hinv.1) ?_, ?_⟩
    · rw [hdesk]
      exact .skip
    · rw [hdesk]
      exact hy
  · obtain ⟨w, heffect, -, -, hz⟩ := windowMonitor_reply hreply haccepted
    have hdesk := titleDesk_handless (t := t) hrequest heffect
    rw [hz]
    refine ⟨permits_of_deskStep hinv hinv.1 ?_, ?_⟩
    · rw [hdesk]
      exact .skip
    · rw [hdesk]
      exact hy

/-! ### Creation -/

/-- A thread that closes nothing. -/
def Desk.Idle (t : ℕ) (d : Desk) : Prop := ∀ n, d.closer n ≠ some t

/-- It has an lwIP descriptor that is not recorded yet. -/
def Desk.Fresh (t : ℕ) (lwfd : ℤ) (d : Desk) : Prop := d.Idle t ∧ d.fresh t = some lwfd

/-- It has a placeholder for the descriptor. -/
def Desk.Reserved (t fd : ℕ) (lwfd : ℤ) (d : Desk) : Prop :=
  d.Fresh t lwfd ∧ d.standing fd = .reserved t

theorem steady_fresh (t : ℕ) (lwfd : ℤ) : Desk.Steady t (Desk.Fresh t lwfd) :=
  (Desk.Steady.idle t).and (Desk.Steady.fresh t lwfd)

theorem steady_reserved (t fd : ℕ) (lwfd : ℤ) : Desk.Steady t (Desk.Reserved t fd lwfd) :=
  (steady_fresh t lwfd).and (Desk.Steady.standing rfl fd)

/-- lwIP has returned `code` to it, a descriptor unless it is negative. -/
def Desk.Handed (t : ℕ) (code : ℤ) (d : Desk) : Prop :=
  d.Idle t ∧ (0 ≤ code → d.fresh t = some code)

theorem steady_handed (t : ℕ) (code : ℤ) : Desk.Steady t (Desk.Handed t code) :=
  (Desk.Steady.idle t).and fun d e h hrely hpos ↦ Desk.Steady.fresh t code d e (h hpos) hrely

/-- The calls that make lwIP hand out a descriptor. -/
def OpensLwip : LwipCall → Prop
  | .socket _ _ _ => True
  | .accept _ => True
  | _ => False

/-- lwIP hands out a descriptor that no mapping leads to. -/
theorem title_openLwip {request : LwipCall} (hrequest : OpensLwip request)
    (hx : (titleDesk x).Idle t) :
    TitleSecure t (lwip request) (fun answer ↦ Desk.Handed t answer.code) x := by
  refine title_seq (?_ : TitleSecure t _ (fun answer ↦ Desk.Handed t answer.code) x)
    fun answer y hy ↦ title_seq (title_keeps (keeps_setErrno _) (steady_handed t answer.code) hy)
      fun _ _ hz ↦ title_pure hz
  refine title_perform (Desk.Steady.idle t) hx fun y answer w hy hinv heffect houtside _ ↦ ?_
  have hopen : y.world.openLwip answer.code = some w := by
    cases request <;> first | exact heffect | exact False.elim hrequest
  have hunmapped : unmapped answer.code y = true := by
    cases request <;> first | exact houtside | exact False.elim hrequest
  have hghost : titleReply t y (.lwip request) answer =
      if answer.code < 0 then y.ghost
      else { y.ghost with fresh := Function.update y.ghost.fresh t (some answer.code) } := by
    cases request <;> first | rfl | exact False.elim hrequest
  rcases openLwip_cases hopen with ⟨hneg, rfl⟩ | ⟨hpos, hclosed, rfl⟩
  · rw [replied, hghost, if_pos hneg]
    exact ⟨.skip, hy, fun hpos ↦ absurd hpos (by omega)⟩
  · rw [replied, hghost, if_neg (by omega)]
    refine ⟨.openLwip answer.code hclosed fun fd hmask ↦ ?_, hy, fun _ ↦ ?_⟩
    · exact of_decide_eq_true hunmapped hpos fd (List.mem_range.mpr (lt_of_getLsbD hmask)) hmask
    · exact Function.update_self _ _ _

/-- nsysnet hands out a placeholder. -/
theorem title_nativeSocket (domain type protocol : ℤ) (hp : Desk.Steady t p)
    (hkeeps : ∀ d native standing, p d → p { d with native := native, standing := standing })
    (hx : p (titleDesk x)) :
    TitleSecure t (perform (.native (.socket domain type protocol))) (fun answer d ↦
      p d ∧ (d.fresh t ≠ none → 0 ≤ answer.code → answer.code < 32 →
        d.standing answer.code.toNat = .reserved t)) x := by
  refine title_perform hp hx fun y answer w hy hinv heffect _ _ ↦ ?_
  have hopen : y.world.openNative answer.code = some w := heffect
  have hghost : titleReply t y (.native (.socket domain type protocol)) answer =
      if y.ghost.fresh t ≠ none ∧ 0 ≤ answer.code ∧ answer.code < 32 then
        { y.ghost with
          standing := Function.update y.ghost.standing answer.code.toNat (.reserved t) }
      else y.ghost := rfl
  rcases openNative_cases hopen with ⟨hneg, rfl⟩ | ⟨hpos, hclosed, rfl⟩
  · rw [replied, hghost, if_neg (by omega)]
    exact ⟨.skip, hy, fun _ hpos ↦ absurd hpos (by omega)⟩
  · have hcast : ((answer.code.toNat : ℕ) : ℤ) = answer.code := Int.toNat_of_nonneg hpos
    by_cases hreserved : y.ghost.fresh t ≠ none ∧ 0 ≤ answer.code ∧ answer.code < 32
    · rw [replied, hghost, if_pos hreserved]
      have hstep := DeskStep.reserve (t := t) (d := titleDesk y) answer.code.toNat y.world.serial
        (by omega) (hcast ▸ hclosed)
      rw [hcast] at hstep
      exact ⟨hstep, hkeeps _ _ _ hy, fun _ _ _ ↦ Function.update_self _ _ _⟩
    · rw [replied, hghost, if_neg hreserved]
      refine ⟨.openNative answer.code y.world.serial hclosed,
        hkeeps (titleDesk y) _ (titleDesk y).standing hy, fun hfresh hpos hlt ↦ ?_⟩
      exact absurd ⟨hfresh, hpos, hlt⟩ hreserved

theorem title_nativeAccept (sockfd : ℤ) (addr : Bool) (addrlen : Option ℕ)
    (hx : (titleDesk x).Idle t) :
    TitleSecure t (perform (.native (.accept sockfd addr addrlen)))
      (fun _ ↦ Desk.Idle t) x := by
  refine title_perform (Desk.Steady.idle t) hx fun y answer w hy hinv heffect _ _ ↦ ?_
  have hopen : y.world.openNative answer.code = some w := heffect
  rcases openNative_cases hopen with ⟨-, rfl⟩ | ⟨-, hclosed, rfl⟩
  · exact ⟨.skip, hy⟩
  · exact ⟨.openNative answer.code y.world.serial hclosed, hy⟩

theorem closeNative_native (w : FdWorld) (n code : ℤ) :
    (w.closeNative n code).native =
      Function.update w.native n (if code = 0 then none else w.native n) := by
  unfold FdWorld.closeNative
  split
  · rfl
  · exact (Function.update_eq_self n w.native).symm

theorem closeNative_lwip (w : FdWorld) (n code : ℤ) : (w.closeNative n code).lwip = w.lwip := by
  unfold FdWorld.closeNative
  split <;> rfl

theorem closeLwip_lwip (w : FdWorld) (lwfd code : ℤ) :
    (w.closeLwip lwfd code).lwip =
      Function.update w.lwip lwfd (if code = 0 then false else w.lwip lwfd) := by
  unfold FdWorld.closeLwip
  split
  · rfl
  · exact (Function.update_eq_self lwfd w.lwip).symm

theorem closeLwip_native (w : FdWorld) (lwfd code : ℤ) :
    (w.closeLwip lwfd code).native = w.native := by
  unfold FdWorld.closeLwip
  split <;> rfl

/-- nsysnet closes a descriptor that thread `t` has not taken out of `open_mask`. -/
theorem titleDesk_closeForeign {n : ℤ} {answer : ShimReply}
    (hn : ∀ fd : ℕ, (fd : ℤ) = n → y.ghost.standing fd ≠ .untracked t) :
    titleDesk (replied t y (.native (.socketclose n)) answer (y.world.closeNative n answer.code)) =
      { titleDesk y with
        native := Function.update (titleDesk y).native n
          (if answer.code = 0 then none else y.world.native n) } := by
  have hstanding : ∀ k : ℕ, ¬ ((k : ℤ) = n ∧ y.ghost.standing k = .untracked t) :=
    fun k hk ↦ hn k hk.1 hk.2
  simp only [titleDesk, titleReply, closeNative_native, closeNative_lwip, hstanding, if_false]

/-- A descriptor out of range is no placeholder. -/
theorem title_closeHigh {lwfd n : ℤ} (hn : 32 ≤ n) (hx : (titleDesk x).Fresh t lwfd) :
    TitleSecure t (perform (.native (.socketclose n))) (fun _ ↦ Desk.Fresh t lwfd) x := by
  refine title_perform (steady_fresh t lwfd) hx fun y answer w hy hinv heffect _ _ ↦ ?_
  cases heffect
  have hfree : ∀ fd : ℕ, (fd : ℤ) = n → (titleDesk y).standing fd = .free := by
    intro fd hfd
    by_contra hbusy
    have hrange := hinv.2.range fd hbusy
    omega
  rw [titleDesk_closeForeign fun fd hfd hstanding ↦ ?_]
  · exact ⟨.closeForeign n _ hfree, hy⟩
  · cases (hfree fd hfd).symm.trans hstanding

/-- The thread gives up its lwIP descriptor. -/
theorem title_closeFresh {lwfd : ℤ} (hx : (titleDesk x).Fresh t lwfd) :
    TitleSecure t (perform (.lwip (.close lwfd))) (fun _ ↦ Desk.Idle t) x := by
  refine title_perform (steady_fresh t lwfd) hx fun y answer w hy hinv heffect _ _ ↦ ?_
  cases heffect
  have hghost : titleReply t y (.lwip (.close lwfd)) answer =
      { y.ghost with fresh := Function.update y.ghost.fresh t none } := if_pos hy.2
  have hdesk : titleDesk (replied t y (.lwip (.close lwfd)) answer
      (y.world.closeLwip lwfd answer.code)) =
        { titleDesk y with
          lwip := Function.update (titleDesk y).lwip lwfd
            (if answer.code = 0 then false else y.world.lwip lwfd)
          fresh := Function.update (titleDesk y).fresh t none } := by
    simp only [titleDesk, hghost, closeLwip_lwip, closeLwip_native]
  rw [hdesk]
  exact ⟨.drop lwfd _ hy.2, hy.1⟩

theorem keeps_lwipHandless {request : LwipCall} (hrequest : Handless (.lwip request)) :
    Keeps ShimState.tables Handless (lwip request) :=
  Keeps.bind (keeps_perform hrequest) fun _ ↦ Keeps.bind (keeps_setErrno _) fun _ ↦ keeps_pure _

/-- The mapping of the placeholder is in place. -/
def Desk.Remapped (t fd : ℕ) (lwfd : ℤ) (d : Desk) : Prop :=
  d.Fresh t lwfd ∧ d.standing fd = .reserved t ∧ d.mapped fd = lwfd

theorem steady_remapped (t fd : ℕ) (lwfd : ℤ) : Desk.Steady t (Desk.Remapped t fd lwfd) :=
  (steady_fresh t lwfd).and (Desk.Steady.mapped rfl fd lwfd)

theorem title_remap {fd : ℕ} {lwfd : ℤ} (hx : (titleDesk x).Reserved t fd lwfd) :
    TitleSecure t (store fun s ↦ { s with mappedFd := Function.update s.mappedFd fd lwfd })
      (fun _ ↦ Desk.Remapped t fd lwfd) x := by
  refine title_store (steady_reserved t fd lwfd) hx (fun _ ↦ rfl) fun y hy _ ↦ ?_
  rw [deskAfter_of_mask rfl]
  exact ⟨.remap fd lwfd hy.2, hy.1, hy.2, Function.update_self _ _ _⟩

theorem title_setBit {fd : ℕ} {lwfd : ℤ} (hx : (titleDesk x).Remapped t fd lwfd) :
    TitleSecure t (store fun s ↦ { s with openMask := s.openMask ||| bit fd })
      (fun _ ↦ Desk.Idle t) x := by
  refine title_store (steady_remapped t fd lwfd) hx (fun _ ↦ rfl) fun y hy hinv ↦ ?_
  obtain ⟨hfresh, hreserved, hmapped⟩ := hy
  have hfd : fd < 32 := hinv.2.range fd (by rw [hreserved]; nofun)
  have hclear : y.mem.openMask.getLsbD fd = false := by
    refine (hinv.2.mask fd).trans ?_
    rw [hreserved]
    rfl
  rw [deskAfter_track hfd hclear rfl rfl]
  exact ⟨.track fd hreserved (hmapped ▸ hfresh.2), hfresh.1⟩

/-- The placeholder is recorded for the lwIP descriptor. -/
theorem title_trackFd {fd : ℕ} {lwfd : ℤ} (hx : (titleDesk x).Reserved t fd lwfd) :
    TitleSecure t (trackFd fd lwfd) (fun _ ↦ Desk.Idle t) x := by
  refine title_seq (title_keeps (keeps_compatStateReset fd) (steady_reserved t fd lwfd) hx)
    fun _ y hy ↦ ?_
  refine title_seq (title_remap hy) fun _ y hy ↦ ?_
  refine title_seq (title_setBit hy) fun _ y hy ↦ ?_
  exact title_keeps (Keeps.bind (keeps_perform trivial) fun _ ↦ keeps_pure ())
    (Desk.Steady.idle t) hy

theorem title_placeholder {lwfd : ℤ} (type protocol : ℤ) (hx : (titleDesk x).Fresh t lwfd) :
    TitleSecure t (placeholder lwfd type protocol) (fun _ ↦ Desk.Idle t) x := by
  unfold placeholder
  refine title_seq (title_nativeSocket nsnAfInet type protocol (steady_fresh t lwfd)
    (fun _ _ _ hd ↦ hd) hx) fun fd y hy ↦ ?_
  obtain ⟨hfresh, hreserved⟩ := hy
  split
  · have hclose : TitleSecure t (when (fd.code ≥ 0) (ignore (native (.socketclose fd.code))))
        (fun _ ↦ Desk.Fresh t lwfd) y := by
      unfold Program.when
      split
      · exact title_seq (title_closeHigh (by omega) hfresh) fun _ _ hz ↦ title_pure hz
      · exact title_pure hfresh
    refine title_seq hclose fun _ y hy ↦ ?_
    have hgive : TitleSecure t (ignore (lwip (.close lwfd))) (fun _ ↦ Desk.Idle t) y := by
      refine title_seq (title_seq (title_closeFresh hy) fun answer z hz ↦ ?_) fun _ _ hz ↦
        title_pure hz
      exact title_seq (title_keeps (keeps_setErrno _) (Desk.Steady.idle t) hz) fun _ _ hz ↦
        title_pure hz
    refine title_seq hgive fun _ y hy ↦ ?_
    exact title_seq (title_keeps (keeps_setErrno _) (Desk.Steady.idle t) hy) fun _ _ hz ↦
      title_pure hz
  · rename_i hrange
    refine title_seq (title_trackFd ⟨hfresh, hreserved ?_ (by omega) (by omega)⟩) fun _ _ hz ↦
      title_pure hz
    rw [hfresh.2]
    nofun

theorem keeps_socketRoute (domain : ℤ) : Keeps ShimState.tables Handless (socketRoute domain) := by
  refine Keeps.bind (keeps_load _) fun _ ↦ Keeps.ite (keeps_pure _) ?_
  refine Keeps.bind keeps_shimAccepts fun _ ↦ Keeps.ite (keeps_pure _) ?_
  exact Keeps.bind (keeps_perform trivial) fun _ ↦ keeps_pure _

theorem keeps_setOption (lwfd optname value : ℤ) :
    Keeps ShimState.tables Handless (ignore (lwipSetInt lwfd optname value)) :=
  keeps_ignore (keeps_lwipHandless trivial)

theorem title_lwipSocket (domain type protocol : ℤ) (hx : (titleDesk x).Idle t) :
    TitleSecure t (lwipSocket domain type protocol) (fun code ↦ Desk.Handed t code) x := by
  refine title_seq (title_openLwip trivial hx) fun first y hy ↦ ?_
  split
  · exact title_seq (title_openLwip trivial hy.1) fun second _ hz ↦ title_pure hz
  · exact title_pure hy

theorem title_hookSocket (domain type protocol : ℤ) (hx : (titleDesk x).Idle t) :
    TitleSecure t (hookSocket domain type protocol) (fun _ ↦ Desk.Idle t) x := by
  refine title_seq (title_keeps (keeps_socketRoute domain) (Desk.Steady.idle t) hx)
    fun route y hy ↦ ?_
  split
  · refine title_seq (title_keeps (keeps_setErrno _) (Desk.Steady.idle t) hy) fun _ y hy ↦ ?_
    exact title_mono (title_nativeSocket domain type protocol (Desk.Steady.idle t)
      (fun _ _ _ hd ↦ hd) hy) fun _ _ hd ↦ hd.1
  refine title_seq (title_keeps (keeps_setErrno _) (Desk.Steady.idle t) hy) fun _ y hy ↦ ?_
  refine title_seq (title_lwipSocket domain type protocol hy) fun lwfd y hy ↦ ?_
  split
  · exact title_pure hy.1
  rename_i hpos
  have hfresh : (titleDesk y).Fresh t lwfd := ⟨hy.1, hy.2 (by omega)⟩
  have hdefaults : Keeps ShimState.tables Handless (socketDefaults lwfd (type % 16)) :=
    Keeps.bind (keeps_setOption _ _ _) fun _ ↦
      Keeps.bind (Keeps.when (keeps_setOption _ _ _)) fun _ ↦ Keeps.when (keeps_setOption _ _ _)
  refine title_seq (title_keeps hdefaults (steady_fresh t lwfd) hfresh) fun _ y hy ↦ ?_
  refine title_seq (title_placeholder (type % 16) protocol hy) fun fd y hy ↦ ?_
  cases fd with
  | none => exact title_pure hy
  | some fd =>
    exact title_seq (title_keeps keeps_noteActivity (Desk.Steady.idle t) hy) fun _ _ hz ↦
      title_pure hz

theorem title_hookAccept (sockfd : ℤ) (addr : Bool) (addrlen : Option ℕ)
    (hx : (titleDesk x).Idle t) :
    TitleSecure t (hookAccept sockfd addr addrlen) (fun _ ↦ Desk.Idle t) x := by
  refine title_seq (title_keeps (keeps_isForeign sockfd) (Desk.Steady.idle t) hx)
    fun foreign y hy ↦ ?_
  split
  · refine title_seq (title_keeps (keeps_setErrno _) (Desk.Steady.idle t) hy) fun _ y hy ↦ ?_
    exact title_nativeAccept sockfd addr addrlen hy
  refine title_seq (title_keeps (keeps_setErrno _) (Desk.Steady.idle t) hy) fun _ y hy ↦ ?_
  split
  · exact title_seq (title_keeps (keeps_setErrno _) (Desk.Steady.idle t) hy) fun _ _ hz ↦
      title_pure hz
  refine title_seq (title_keeps (keeps_stackFd sockfd) (Desk.Steady.idle t) hy) fun lwfd y hy ↦ ?_
  refine title_seq (title_openLwip trivial hy) fun s y hy ↦ ?_
  split
  · exact title_pure hy.1
  rename_i hpos
  have hfresh : (titleDesk y).Fresh t s.code := ⟨hy.1, hy.2 (by omega)⟩
  refine title_seq (title_keeps (keeps_setOption _ _ _) (steady_fresh t s.code) hfresh)
    fun _ y hy ↦ ?_
  refine title_seq (title_keeps (keeps_setOption _ _ _) (steady_fresh t s.code) hy)
    fun _ y hy ↦ ?_
  refine title_seq (title_placeholder sockStream 0 hy) fun fd y hy ↦ ?_
  cases fd with
  | none => exact title_pure hy
  | some fd => exact title_pure hy

/-! ### Closing one descriptor -/

/-- The only descriptor that thread `t` closes. -/
def Desk.Closes (t : ℕ) (n : ℤ) (d : Desk) : Prop := ∀ m, d.closer m = some t ↔ m = n

/-- It has not closed the lwIP descriptor, or has closed the placeholder too. -/
def Desk.Closing (t : ℕ) (n : ℤ) (d : Desk) : Prop :=
  d.Closes t n ∧ ∀ fd : ℕ, (fd : ℤ) = n →
    d.standing fd ≠ .released t ∧ d.standing fd ≠ .untracked t

theorem steady_closing (t : ℕ) (n : ℤ) : Desk.Steady t (Desk.Closing t n) :=
  (Desk.Steady.closes t n).and (Desk.Steady.notClosed t n)

theorem title_closeBegin (n : ℤ) (hx : (titleDesk x).Idle t) :
    TitleSecure t (note (.closeBegin n)) (fun _ ↦ Desk.Closing t n) x := by
  suffices hcall : TitleSecure t (perform (.note (.closeBegin n))) (fun _ ↦ Desk.Closing t n) x by
    exact title_seq hcall fun _ _ hz ↦ title_pure hz
  refine title_perform (Desk.Steady.idle t) hx fun y answer w hy hinv heffect _ halone ↦ ?_
  cases heffect
  obtain ⟨hcloser, huntaken⟩ := of_decide_eq_true halone
  have hstanding : ∀ fd : ℕ, (fd : ℤ) = n → (y.ghost.standing fd).collector = none := by
    rintro fd rfl
    exact huntaken (Int.natCast_nonneg fd)
  refine ⟨.beginClose n hcloser fun fd u hfd ↦ ?_, fun m ↦ ?_, fun fd hfd ↦ ?_⟩
  · have hcollector := hstanding fd hfd
    constructor
    all_goals
      intro htaken
      rw [show y.ghost.standing fd = _ from htaken] at hcollector
      cases hcollector
  · by_cases hsame : m = n
    · simp [titleDesk, titleReply, hsame]
    · simpa [titleDesk, titleReply, hsame] using hy m
  · have hnone : (titleDesk y).closer fd = none := hfd ▸ hcloser
    constructor
    · intro hreleased
      cases hnone.symm.trans (hinv.2.closing fd t (.inl hreleased))
    · intro huntracked
      cases hnone.symm.trans (hinv.2.closing fd t (.inr huntracked))

theorem title_closeEnd (n : ℤ) (hx : (titleDesk x).Closing t n) :
    TitleSecure t (note (.closeEnd n)) (fun _ ↦ Desk.Idle t) x := by
  suffices hcall : TitleSecure t (perform (.note (.closeEnd n))) (fun _ ↦ Desk.Idle t) x by
    exact title_seq hcall fun _ _ hz ↦ title_pure hz
  refine title_perform (steady_closing t n) hx fun y answer w hy hinv heffect _ _ ↦ ?_
  cases heffect
  refine ⟨.endClose n ((hy.1 n).mpr rfl) hy.2, fun m ↦ ?_⟩
  by_cases hsame : m = n
  · simp [titleDesk, titleReply, hsame]
  · simpa [titleDesk, titleReply, hsame] using (hy.1 m).not.mpr hsame

/-- What stands neither in the mask nor reserved is being closed, unless it is free. -/
theorem standing_of_unplaced (hinv : (titleDesk y).Inv) {fd : ℕ} (h : unplaced fd y = true) :
    (titleDesk y).standing fd = .free ∨ (∃ u, (titleDesk y).standing fd = .untracked u) ∨
      ∃ u, (titleDesk y).standing fd = .taken u ∨ (titleDesk y).standing fd = .emptied u := by
  rw [unplaced, Bool.and_eq_true, decide_eq_true_iff] at h
  obtain ⟨hmask, hreserved⟩ := h
  have hmasked := (hinv.mask fd).symm.trans hmask
  change (match (titleDesk y).standing fd with
    | .reserved _ => false
    | _ => true) = true at hreserved
  revert hmasked hreserved
  cases (titleDesk y).standing fd <;> simp [Standing.masked]

/-- nsysnet closes a descriptor that is nobody's placeholder. -/
theorem title_closeForeign (n : ℤ) (hx : (titleDesk x).Closing t n) :
    TitleSecure t (perform (.native (.socketclose n))) (fun _ ↦ Desk.Closing t n) x := by
  refine title_perform (steady_closing t n) hx fun y answer w hy hinv heffect houtside _ ↦ ?_
  cases heffect
  have hcloser : (titleDesk y).closer n = some t := (hy.1 n).mpr rfl
  rw [titleDesk_closeForeign fun fd hfd ↦ (hy.2 fd hfd).2]
  refine ⟨?_, hy⟩
  by_cases hcode : answer.code = 0
  · refine .closeForeign n _ fun fd hfd ↦ ?_
    by_contra hbusy
    have hlt := hinv.2.range fd hbusy
    have hnat : n.toNat = fd := by omega
    rcases of_decide_eq_true houtside hcode (by omega) (by omega) with hown | hunplaced
    · rw [hnat] at hown
      exact (hy.2 fd hfd).2 hown
    · rw [hnat] at hunplaced
      rcases standing_of_unplaced hinv.2 hunplaced with hfree | ⟨u, huntracked⟩ | ⟨u, htaken⟩
      · exact hbusy hfree
      · have hother := hinv.2.closing fd u (.inr huntracked)
        rw [hfd, hcloser] at hother
        cases hother
        exact (hy.2 fd hfd).2 huntracked
      · have hother := hinv.2.taken fd u htaken
        rw [hfd, hcloser] at hother
        cases hother
  · rw [if_neg hcode, show y.world.native n = (titleDesk y).native n from rfl,
      Function.update_eq_self]
    exact .skip

/-- A tracked descriptor is found tracked by its closer. -/
theorem title_isForeign (n : ℤ) (hx : (titleDesk x).Closing t n) :
    TitleSecure t (isForeign n) (fun foreign d ↦ d.Closing t n ∧
      (foreign = false → 0 ≤ n ∧ d.standing n.toNat = .tracked)) x := by
  refine title_seq (title_keeps keeps_shimAccepts (steady_closing t n) hx) fun accepting y hy ↦ ?_
  split
  · exact title_pure ⟨hy, nofun⟩
  refine title_seq (?_ : TitleSecure t (load ShimState.openMask) (fun mask d ↦ d.Closing t n ∧
    (0 ≤ n ∧ n < 32 ∧ mask.getLsbD n.toNat = true → d.standing n.toNat = .tracked)) y)
    fun mask z hz ↦ ?_
  · refine title_load (steady_closing t n) hy fun z hz hinv ↦ ⟨hz, fun ⟨hpos, hlt, hmask⟩ ↦ ?_⟩
    have hn : ((n.toNat : ℕ) : ℤ) = n := Int.toNat_of_nonneg hpos
    refine hinv.2.tracked hmask fun u hreleased hcloser ↦ ?_
    rw [hn, (hz.1 n).mpr rfl] at hcloser
    cases hcloser
    exact (hz.2 n.toNat hn).1 hreleased
  · refine title_pure ⟨hz.1, fun hforeign ↦ ?_⟩
    have hserved := not_not.mp (of_decide_eq_false hforeign)
    exact ⟨hserved.1, hz.2 hserved⟩

/-- A public descriptor is closed by its closer or by the thread that has taken it. -/
def Standing.lwipClosed (t : ℕ) (code : ℤ) : Standing → Standing
  | .taken u => .emptied u
  | .tracked => if code = 0 then .released t else .tracked
  | other => other

/-- `lwip_close` of what a public descriptor holds changes where this descriptor stands. -/
theorem titleDesk_closeMapped (hinv : (titleDesk y).Inv) {fd : ℕ} {answer : ShimReply}
    (hfd : (titleDesk y).standing fd = .taken t ∨
      (titleDesk y).standing fd = .tracked ∧ (titleDesk y).closer fd = some t) :
    titleDesk (replied t y (.lwip (.close (y.mem.mappedFd fd))) answer
      (y.world.closeLwip (y.mem.mappedFd fd) answer.code)) =
      { titleDesk y with
        lwip := Function.update (titleDesk y).lwip ((titleDesk y).mapped fd)
          (if answer.code = 0 then false else y.world.lwip (y.mem.mappedFd fd))
        standing := Function.update (titleDesk y).standing fd
          (((titleDesk y).standing fd).lwipClosed t answer.code) } := by
  have hholds : ((titleDesk y).standing fd).holds = true := by
    rcases hfd with htaken | ⟨htracked, -⟩
    · rw [htaken]
      rfl
    · rw [htracked]
      rfl
  have hfresh : y.ghost.fresh t ≠ some (y.mem.mappedFd fd) := hinv.fresh_ne hholds t
  have hghost : titleReply t y (.lwip (.close (y.mem.mappedFd fd))) answer =
      { y.ghost with
        standing := Function.update y.ghost.standing fd
          ((y.ghost.standing fd).lwipClosed t answer.code) } := by
    refine (if_neg hfresh).trans (congrArg (fun standing ↦ { y.ghost with standing := standing })
      (funext fun k ↦ ?_))
    by_cases hsame : k = fd
    · rw [hsame, Function.update_self]
      rcases hfd with htaken | ⟨htracked, hcloser⟩
      · rw [if_pos ⟨rfl, htaken⟩, show y.ghost.standing fd = _ from htaken]
        rfl
      · have hstanding : y.ghost.standing fd = .tracked := htracked
        have hclosing : y.ghost.closer fd = some t := hcloser
        simp [hstanding, hclosing, Standing.lwipClosed]
    · have hother : y.mem.mappedFd k = y.mem.mappedFd fd → (y.ghost.standing k).holds ≠ true :=
        fun hmapped hk ↦ hsame (hinv.holder_unique hholds hk hmapped)
      rw [Function.update_of_ne hsame, if_neg, if_neg]
      · rintro ⟨hmapped, htracked, -⟩
        exact hother hmapped (by rw [htracked]; rfl)
      · rintro ⟨hmapped, htaken⟩
        exact hother hmapped (by rw [htaken]; rfl)
  simp only [titleDesk, hghost, closeLwip_lwip, closeLwip_native]

/-- Between `lwip_close` and `untrack_fd` where that succeeded, as before otherwise. -/
def Desk.Released (t fd : ℕ) (code : ℤ) (d : Desk) : Prop :=
  d.Closes t fd ∧ (code = 0 → d.standing fd = .released t) ∧ (code ≠ 0 → d.Closing t fd)

theorem steady_released (t fd : ℕ) (code : ℤ) : Desk.Steady t (Desk.Released t fd code) :=
  (Desk.Steady.closes t fd).and (((Desk.Steady.standing rfl fd).imp (code = 0)).and
    ((steady_closing t fd).imp (code ≠ 0)))

theorem title_release {fd : ℕ} {lwfd : ℤ}
    (hx : ((titleDesk x).Closes t fd ∧ (titleDesk x).standing fd = .tracked) ∧
      (titleDesk x).mapped fd = lwfd) :
    TitleSecure t (lwip (.close lwfd)) (fun r ↦ Desk.Released t fd r.code) x := by
  refine title_seq (?_ : TitleSecure t _ (fun r ↦ Desk.Released t fd r.code) x)
    fun r y hy ↦ title_seq (title_keeps (keeps_setErrno _) (steady_released t fd r.code) hy)
      fun _ _ hz ↦ title_pure hz
  refine title_perform (Desk.Steady.closingMapped t fd lwfd) hx fun y answer w hy hinv heffect _ _ ↦ ?_
  cases heffect
  obtain ⟨⟨hcloses, htracked⟩, hmapped⟩ := hy
  have hcloser : (titleDesk y).closer fd = some t := (hcloses fd).mpr rfl
  change y.mem.mappedFd fd = lwfd at hmapped
  subst hmapped
  rw [titleDesk_closeMapped hinv.2 (.inr ⟨htracked, hcloser⟩), htracked]
  by_cases hcode : answer.code = 0
  · simp only [hcode, if_true, Standing.lwipClosed]
    exact ⟨.release fd htracked hcloser, hcloses, fun _ ↦ Function.update_self _ _ _,
      fun hne ↦ absurd rfl hne⟩
  · have hlwip : Function.update (titleDesk y).lwip ((titleDesk y).mapped fd)
        (y.world.lwip (y.mem.mappedFd fd)) = (titleDesk y).lwip := Function.update_eq_self _ _
    have hstanding : Function.update (titleDesk y).standing fd .tracked = (titleDesk y).standing :=
      htracked ▸ Function.update_eq_self fd _
    simp only [hcode, if_false, Standing.lwipClosed, hlwip, hstanding]
    refine ⟨.skip, hcloses, fun h ↦ absurd h hcode, fun _ ↦ ⟨hcloses, fun other hother ↦ ?_⟩⟩
    have hsame : other = fd := by exact_mod_cast hother
    change (titleDesk y).standing other ≠ _ ∧ (titleDesk y).standing other ≠ _
    rw [hsame, htracked]
    exact ⟨nofun, nofun⟩

theorem title_untrackFd {fd : ℕ}
    (hx : (titleDesk x).Closes t fd ∧ (titleDesk x).standing fd = .released t) :
    TitleSecure t (untrackFd fd)
      (fun _ d ↦ d.Closes t fd ∧ d.standing fd = .untracked t) x := by
  refine title_store ((Desk.Steady.closes t fd).and (Desk.Steady.standing rfl fd)) hx
    (fun _ ↦ rfl) fun y hy hinv ↦ ?_
  have hmask : ∀ k, (y.mem.openMask &&& ~~~ bit fd).getLsbD k =
      if k = fd then false else y.mem.openMask.getLsbD k := by
    intro k
    rw [Bool.eq_iff_iff, getLsbD_and_not_bit]
    by_cases hsame : k = fd <;> simp [hsame]
  have hmasked : (titleDesk y).mask fd = true := by
    rw [hinv.2.mask fd, hy.2]
    rfl
  have hdesk : deskAfter t (fun s ↦ { s with openMask := s.openMask &&& ~~~ bit fd }) y =
      { titleDesk y with
        mask := Function.update (titleDesk y).mask fd false
        standing := Function.update (titleDesk y).standing fd (.untracked t) } := by
    rw [deskAfter_clear hmask rfl]
    simp only [Desk.mk.injEq, true_and, and_true]
    refine ⟨funext fun k ↦ ?_, funext fun k ↦ ?_⟩
    · by_cases hsame : k = fd <;> simp [hsame]
    · by_cases hsame : k = fd
      · rw [hsame, if_pos ⟨rfl, hmasked⟩, Function.update_self, hy.2]
        rfl
      · simp [hsame]
  rw [hdesk]
  exact ⟨.untrack fd hy.2, hy.1, Function.update_self _ _ _⟩

/-- The closer gives the placeholder back. -/
theorem title_closeOwn {fd : ℕ}
    (hx : (titleDesk x).Closes t fd ∧ (titleDesk x).standing fd = .untracked t) :
    TitleSecure t (perform (.native (.socketclose fd))) (fun _ ↦ Desk.Closing t fd) x := by
  refine title_perform ((Desk.Steady.closes t fd).and (Desk.Steady.standing rfl fd)) hx
    fun y answer w hy _ heffect _ _ ↦ ?_
  cases heffect
  have hstanding : (fun k : ℕ ↦ if (k : ℤ) = (fd : ℤ) ∧ y.ghost.standing k = .untracked t
      then Standing.free else y.ghost.standing k) =
        Function.update y.ghost.standing fd .free := by
    funext k
    by_cases hsame : k = fd
    · rw [hsame, Function.update_self, if_pos ⟨rfl, hy.2⟩]
    · rw [Function.update_of_ne hsame, if_neg fun h ↦ hsame (by exact_mod_cast h.1)]
  have hdesk : titleDesk (replied t y (.native (.socketclose fd)) answer
      (y.world.closeNative fd answer.code)) =
        { titleDesk y with
          native := Function.update (titleDesk y).native fd
            (if answer.code = 0 then none else y.world.native fd)
          standing := Function.update (titleDesk y).standing fd .free } := by
    simp only [titleDesk, titleReply, hstanding, closeNative_native, closeNative_lwip]
  rw [hdesk]
  refine ⟨.closeOwn fd _ hy.2, hy.1, fun other hother ↦ ?_⟩
  have hsame : other = fd := by exact_mod_cast hother
  rw [hsame]
  simp

theorem title_hookSocketclose (n : ℤ) (hx : (titleDesk x).Closing t n) :
    TitleSecure t (hookSocketclose n) (fun _ ↦ Desk.Closing t n) x := by
  refine title_seq (title_isForeign n hx) fun foreign y hy ↦ ?_
  cases foreign with
  | true =>
    have hforget : Keeps ShimState.tables Handless
        (when (0 ≤ n ∧ n < 32) (forgetNative n.toNat)) := Keeps.when (keeps_forgetNative _)
    refine title_seq (title_keeps hforget (steady_closing t n) hy.1) fun _ y hy ↦ ?_
    refine title_seq (title_keeps (keeps_nsslRelayDetachPublicFd n) (steady_closing t n) hy)
      fun _ y hy ↦ ?_
    refine title_seq (title_keeps (keeps_setErrno _) (steady_closing t n) hy) fun _ y hy ↦ ?_
    exact title_closeForeign n hy
  | false =>
    obtain ⟨hpos, htracked⟩ := hy.2 rfl
    obtain ⟨fd, rfl⟩ := Int.eq_ofNat_of_zero_le hpos
    refine title_seq (title_keeps (keeps_setErrno _) (Desk.Steady.closing t fd)
      ⟨hy.1.1, htracked⟩) fun _ y hy ↦ ?_
    refine title_seq (title_load (Desk.Steady.closing t fd) hy fun z hz _ ↦ ⟨hz, rfl⟩ :
      TitleSecure t (stackFd fd) (fun lwfd d ↦
        (d.Closes t fd ∧ d.standing fd = .tracked) ∧ d.mapped fd = lwfd) y) fun lwfd y hy ↦ ?_
    refine title_seq (title_release hy) fun r y hy ↦ ?_
    refine title_seq (?_ : TitleSecure t _ (fun _ ↦ Desk.Closing t fd) y) fun _ _ hz ↦ title_pure hz
    unfold Program.when
    split
    · rename_i hcode
      refine title_seq (title_untrackFd ⟨hy.1, hy.2.1 hcode⟩) fun _ y hy ↦ ?_
      exact title_seq (title_closeOwn hy) fun _ _ hz ↦ title_pure hz
    · exact title_pure (hy.2.2 ‹_›)

/-! ### Closing all descriptors -/

/-- `socketclose_all` of the thread has taken the descriptors in `mask` and has not come to those in
`fds` yet. -/
def Desk.Collects (t : ℕ) (mask : BitVec 32) (fds : List ℕ) (d : Desk) : Prop :=
  d.Idle t ∧ ∀ fd ∈ fds, mask.getLsbD fd = true → d.standing fd = .taken t

theorem steady_collects (t : ℕ) (mask : BitVec 32) (fds : List ℕ) :
    Desk.Steady t (Desk.Collects t mask fds) :=
  (Desk.Steady.idle t).and fun d e h hrely fd hfd hmask ↦
    Desk.Steady.standing rfl fd d e (h fd hfd hmask) hrely

theorem title_takeAll (hx : (titleDesk x).Idle t) :
    TitleSecure t (access fun s ↦ (s.openMask, { s with openMask := 0 }))
      (fun mask ↦ Desk.Collects t mask publicFds) x := by
  refine title_rmw (Desk.Steady.idle t) hx (fun _ ↦ rfl) fun y hy hinv hunclosed ↦ ?_
  have hzero : ∀ k, (0 : BitVec 32).getLsbD k = false := fun k ↦ BitVec.getLsbD_zero
  have hcloser : ∀ fd : ℕ, (titleDesk y).mask fd = true → (titleDesk y).closer fd = none := by
    intro fd hmask
    rcases hunclosed fd ⟨hmask, hzero fd⟩ with hnone | hself
    · exact hnone
    · exact absurd hself (hy fd)
  have htracked : ∀ fd, (titleDesk y).mask fd = true → (titleDesk y).standing fd = .tracked :=
    fun fd hmask ↦ hinv.2.tracked hmask fun u _ ↦ by simp [hcloser fd hmask]
  have hdesk : deskAfter t (fun s ↦ { s with openMask := 0 }) y =
      { titleDesk y with
        mask := fun _ ↦ false
        standing := fun fd ↦
          if (titleDesk y).mask fd = true then .taken t else (titleDesk y).standing fd } := by
    have hall : ∀ k, (0 : BitVec 32).getLsbD k =
        if (fun _ : ℕ ↦ True) k then false else y.mem.openMask.getLsbD k := fun k ↦
      (hzero k).trans (if_pos trivial).symm
    rw [deskAfter_clear hall rfl]
    simp only [Desk.mk.injEq, true_and, and_true, if_true]
    funext k
    by_cases hmask : (titleDesk y).mask k = true
    · rw [if_pos hmask, if_pos hmask, htracked k hmask]
      rfl
    · rw [if_neg hmask, if_neg hmask]
  refine ⟨?_, title_pure ?_⟩
  · rw [hdesk]
    exact .take hcloser
  · change Desk.Collects t y.mem.openMask publicFds (deskAfter t _ y)
    rw [hdesk]
    exact ⟨hy, fun _ _ hmask ↦ if_pos hmask⟩

theorem title_closeTaken {mask : BitVec 32} {fd : ℕ} {rest : List ℕ} {lwfd : ℤ}
    (hfd : fd ∉ rest)
    (hx : (titleDesk x).Collects t mask (fd :: rest) ∧ (titleDesk x).standing fd = .taken t ∧
      (titleDesk x).mapped fd = lwfd) :
    TitleSecure t (lwip (.close lwfd)) (fun _ ↦ Desk.Collects t mask rest) x := by
  refine title_seq (?_ : TitleSecure t _ (fun _ ↦ Desk.Collects t mask rest) x)
    fun r y hy ↦ title_seq (title_keeps (keeps_setErrno _) (steady_collects t mask rest) hy)
      fun _ _ hz ↦ title_pure hz
  refine title_perform ((steady_collects t mask (fd :: rest)).and (Desk.Steady.mapped rfl fd lwfd)) hx
    fun y answer w hy hinv heffect _ _ ↦ ?_
  cases heffect
  obtain ⟨hcollects, htaken, hmapped⟩ := hy
  change y.mem.mappedFd fd = lwfd at hmapped
  subst hmapped
  rw [titleDesk_closeMapped hinv.2 (.inl htaken), htaken]
  refine ⟨.empty fd _ htaken, hcollects.1, fun other hother hset ↦ ?_⟩
  have hne : other ≠ fd := fun hsame ↦ hfd (hsame ▸ hother)
  refine (Function.update_of_ne hne _ _).trans ?_
  exact hcollects.2 other (List.mem_cons_of_mem fd hother) hset

theorem title_closeMapped (mask : BitVec 32) (fds : List ℕ) (hfds : fds.Nodup)
    (hx : (titleDesk x).Collects t mask fds) :
    TitleSecure t (each (fun fd ↦ when (mask.getLsbD fd = true) do
      let lwfd ← stackFd fd
      ignore (lwip (.close lwfd))) fds) (fun _ ↦ Desk.Idle t) x := by
  induction fds generalizing x with
  | nil => exact title_pure hx.1
  | cons fd rest ih =>
    obtain ⟨hfd, hrest⟩ := List.nodup_cons.mp hfds
    refine title_seq (?_ : TitleSecure t _ (fun _ ↦ Desk.Collects t mask rest) x)
      fun _ y hy ↦ ih hrest hy
    unfold Program.when
    beta_reduce
    split
    · rename_i hmask
      refine title_seq (title_load (steady_collects t mask (fd :: rest)) hx fun y hy _ ↦
        ⟨hy, hy.2 fd List.mem_cons_self hmask, rfl⟩ : TitleSecure t (stackFd fd) (fun lwfd d ↦
          d.Collects t mask (fd :: rest) ∧ d.standing fd = .taken t ∧ d.mapped fd = lwfd) x)
        fun lwfd y hy ↦ ?_
      exact title_seq (title_closeTaken hfd hy) fun _ _ hz ↦ title_pure hz
    · exact title_pure ⟨hx.1, fun other hother ↦ hx.2 other (List.mem_cons_of_mem fd hother)⟩

/-- nsysnet closes all its descriptors while no thread but this one has a placeholder. -/
theorem title_nativeCloseAll (hx : (titleDesk x).Idle t) :
    TitleSecure t (callNative .socketcloseAll) (fun _ ↦ Desk.Idle t) x := by
  refine title_seq (title_keeps (keeps_setErrno _) (Desk.Steady.idle t) hx) fun _ y hy ↦ ?_
  refine title_perform (Desk.Steady.idle t) hy fun y answer w hy hinv heffect houtside halone ↦ ?_
  cases heffect
  have hdesk : titleDesk (replied t y (.native .socketcloseAll) answer
      (if answer.code = 0 then { y.world with native := fun _ ↦ none } else y.world)) =
        { titleDesk y with
          native := if answer.code = 0 then fun _ ↦ none else y.world.native
          standing := fun k ↦
            if (titleDesk y).standing k = .taken t ∨ (titleDesk y).standing k = .emptied t
            then .free else (titleDesk y).standing k } := by
    by_cases hcode : answer.code = 0
    · rw [if_pos hcode, if_pos hcode]
      rfl
    · rw [if_neg hcode, if_neg hcode]
      rfl
  rw [hdesk]
  refine ⟨.closeAll _ fun fd hbusy htaken hemptied ↦ ?_, hy⟩
  have hnative := hinv.2.native fd hbusy
  by_cases hcode : answer.code = 0
  · exfalso
    have hfd : fd ∈ publicFds := List.mem_range.mpr (hinv.2.range fd hbusy)
    obtain ⟨hclosed, hcollector⟩ := of_decide_eq_true halone fd hfd
    have hcloser : (titleDesk y).closer fd = none := hclosed.resolve_left hnative
    have hunplaced := of_decide_eq_true houtside hcode fd hfd
    change ((titleDesk y).standing fd).collector = none ∨
      ((titleDesk y).standing fd).collector = some t at hcollector
    rcases standing_of_unplaced hinv.2 hunplaced with hfree | ⟨u, huntracked⟩ | ⟨u, hu⟩
    · exact hbusy hfree
    · cases hcloser.symm.trans (hinv.2.closing fd u (.inr huntracked))
    · have hself : u = t := by
        rcases hu with hstanding | hstanding <;> simpa [hstanding, Standing.collector] using hcollector
      rw [hself] at hu
      exact hu.elim htaken hemptied
  · rw [if_neg hcode]
    exact hnative

theorem title_hookSocketcloseAll (hx : (titleDesk x).Idle t) :
    TitleSecure t hookSocketcloseAll (fun _ ↦ Desk.Idle t) x := by
  refine title_seq (title_keeps (keeps_store fun _ ↦ rfl) (Desk.Steady.idle t) hx)
    fun _ y hy ↦ ?_
  refine title_seq (title_keeps (keeps_store fun _ ↦ rfl) (Desk.Steady.idle t) hy)
    fun _ y hy ↦ ?_
  refine title_seq (title_keeps keeps_forgetConnections (Desk.Steady.idle t) hy) fun _ y hy ↦ ?_
  refine title_seq (title_keeps keeps_shimAccepts (Desk.Steady.idle t) hy) fun accepting y hy ↦ ?_
  split
  · exact title_nativeCloseAll hy
  refine title_seq (title_takeAll hy) fun mask y hy ↦ ?_
  refine title_seq (title_closeMapped mask publicFds List.nodup_range hy) fun _ y hy ↦ ?_
  exact title_nativeCloseAll hy

/-! ## Every run -/

theorem title_body (operation : TitleOperation) (hx : (titleDesk x).Idle t) :
    TitleSecure t (titleBody operation) (fun _ ↦ Desk.Idle t) x := by
  cases operation with
  | socket domain type protocol =>
    exact title_seq (title_hookSocket domain type protocol hx) fun _ _ hz ↦ title_pure hz
  | accept sockfd addr addrlen =>
    exact title_seq (title_hookAccept sockfd addr addrlen hx) fun _ _ hz ↦ title_pure hz
  | socketclose sockfd =>
    refine title_seq (title_closeBegin sockfd hx) fun _ y hy ↦ ?_
    have hclose : TitleSecure t (ignore (hookSocketclose sockfd)) (fun _ ↦ Desk.Closing t sockfd) y :=
      title_seq (title_hookSocketclose sockfd hy) fun _ _ hz ↦ title_pure hz
    exact title_seq hclose fun _ y hy ↦ title_closeEnd sockfd hy
  | socketcloseAll => exact title_seq (title_hookSocketcloseAll hx) fun _ _ hz ↦ title_pure hz

/-- The tables of a title at rest: every public descriptor has an open placeholder and an open lwIP
descriptor of its own. -/
structure AtRest (x : FdMachine) : Prop where
  accepting : x.mem.acceptingSockets ≠ 0
  native : ∀ fd : ℕ, x.mem.openMask.getLsbD fd = true → x.world.native fd ≠ none
  lwip : ∀ fd, x.mem.openMask.getLsbD fd = true → x.world.lwip (x.mem.mappedFd fd) = true
  mapped : ∀ fd other, x.mem.openMask.getLsbD fd = true → x.mem.openMask.getLsbD other = true →
    x.mem.mappedFd fd = x.mem.mappedFd other → fd = other

/-- No two public descriptors map to one open lwIP descriptor, and every one has an open
placeholder. -/
structure Owned (x : FdMachine) : Prop where
  lwip : ∀ fd other, x.mem.openMask.getLsbD fd = true → x.mem.openMask.getLsbD other = true →
    x.mem.mappedFd fd = x.mem.mappedFd other → x.world.lwip (x.mem.mappedFd fd) = true → fd = other
  native : ∀ fd : ℕ, x.mem.openMask.getLsbD fd = true → x.world.native fd ≠ none

/-- A title at rest with its history. -/
def TitleHistory.watched (x : FdMachine) : TitleWatched :=
  { x with ghost := TitleHistory.start x.mem }

theorem AtRest.inv {x : FdMachine} (hx : AtRest x) : (titleDesk (TitleHistory.watched x)).Inv := by
  have hstanding : ∀ fd, (titleDesk (TitleHistory.watched x)).standing fd =
      if x.mem.openMask.getLsbD fd = true then .tracked else .free := fun _ ↦ rfl
  have hbusy : ∀ fd, (titleDesk (TitleHistory.watched x)).standing fd ≠ .free →
      x.mem.openMask.getLsbD fd = true := by
    intro fd hfd
    by_contra hmask
    exact hfd ((hstanding fd).trans (if_neg hmask))
  have hown : ∀ i lwfd, (titleDesk (TitleHistory.watched x)).own i = some lwfd →
      ∃ fd, i = .inl fd ∧ x.mem.openMask.getLsbD fd = true ∧ x.mem.mappedFd fd = lwfd := by
    intro i lwfd hi
    cases i with
    | inl fd =>
      obtain ⟨hholds, hmapped⟩ := Desk.own_inl.mp hi
      refine ⟨fd, rfl, hbusy fd fun hfree ↦ ?_, hmapped⟩
      rw [hfree] at hholds
      cases hholds
    | inr t => cases hi
  constructor
  case mask =>
    intro fd
    rw [hstanding]
    by_cases hmask : x.mem.openMask.getLsbD fd = true
    · rw [if_pos hmask]
      exact hmask
    · rw [if_neg hmask]
      exact Bool.eq_false_iff.mpr hmask
  case range => exact fun fd hfd ↦ lt_of_getLsbD (hbusy fd hfd)
  case native => exact fun fd hfd ↦ hx.native fd (hbusy fd hfd)
  case lwip =>
    refine ⟨fun i lwfd hi ↦ ?_, fun i j lwfd hi hj ↦ ?_⟩
    · obtain ⟨fd, -, hmask, rfl⟩ := hown i lwfd hi
      exact hx.lwip fd hmask
    · obtain ⟨fd, rfl, hmask, hmapped⟩ := hown i lwfd hi
      obtain ⟨other, rfl, hmask', hmapped'⟩ := hown j lwfd hj
      rw [hx.mapped fd other hmask hmask' (hmapped.trans hmapped'.symm)]
  all_goals
    intro fd t hfd
    rw [hstanding] at hfd
    split at hfd <;> simp at hfd

theorem title_secured {x : FdMachine} (hx : AtRest x) :
    Secured titleSystem windowMonitor (TitleHistory.watched x) titleProtocol
      (fun t y ↦ (titleDesk y).Idle t) (fun t y ↦ (titleDesk y).Idle t) where
  rely_refl t y := Desk.Rely.refl t (titleDesk y)
  rely_trans _ _ _ _ hxy hyz := hxy.trans hyz
  idle_steady t := steady_onDesk (Desk.Steady.idle t)
  ended_steady t := steady_onDesk (Desk.Steady.idle t)
  finish_safe _ _ hy hidle := ⟨⟨hy, fun u _ ↦ Desk.Rely.refl u _⟩, hidle⟩
  env_safe event := event.elim
  body_secure _ operation _ _ hidle _ := title_body operation hidle
  initial_inv := ⟨hx.accepting, hx.inv⟩
  initial_idle _ _ := nofun

/-- Every run that stays outside the windows keeps the tables consistent. -/
theorem titles_own_descriptors (x : FdMachine) (hx : AtRest x)
    (actions : List (Action ℕ TitleOperation Empty ShimReply))
    (c : Config ℕ ShimState FdWorld ShimCall ShimReply) (g : TitleHistory)
    (hwatch : titleSystem.watch windowMonitor (System.start x) (TitleHistory.start x.mem) actions =
      some (c, g)) : Owned c.machine := by
  obtain ⟨-, hinv⟩ := ((title_secured hx).sound hwatch).invariant
  exact ⟨fun fd other hfd hother hsame hopen ↦ hinv.mapped_unique hfd hother hsame hopen,
    fun fd hfd ↦ hinv.placeholder hfd⟩

/-! ### Runs -/

/-- A title without sockets. -/
def freshTitle : FdMachine := { mem := { acceptingSockets := 1 }, world := {} }

theorem atRest_freshTitle : AtRest freshTitle := by
  have hempty : ∀ fd, freshTitle.mem.openMask.getLsbD fd = false := fun _ ↦ BitVec.getLsbD_zero
  refine ⟨by decide, fun fd hfd ↦ ?_, fun fd hfd ↦ ?_, fun fd other hfd ↦ ?_⟩
  all_goals
    rw [hempty fd] at hfd
    cases hfd

abbrev TitleAction := Action ℕ TitleOperation Empty ShimReply

/-- Thread `t` runs `socket` up to its bit in `open_mask`. -/
def openingSteps (t : ℕ) (lwfd fd : ℤ) : List TitleAction :=
  [.start t (.socket 2 1 0), .step t, .step t, .answer t { code := 1 }, .step t,
    .answer t { code := lwfd }, .step t, .answer t { code := 0 }, .step t, .answer t { code := 0 },
    .step t, .answer t { code := fd }, .step t, .step t, .step t]

/-- The rest of `socket`, and `socketclose` up to the reply of `lwip_close`. -/
def closingSteps (t : ℕ) (fd : ℤ) : List TitleAction :=
  [.answer t { code := 0 }, .step t, .step t, .start t (.socketclose fd), .answer t { code := 0 },
    .step t, .step t, .step t, .step t, .answer t { code := 0 }]

/-- lwIP hands its descriptor to another thread before `untrack_fd`. -/
def reusedSteps : List TitleAction := openingSteps 0 5 3 ++ closingSteps 0 3 ++ openingSteps 1 5 4

/-- `socketclose_all` closes a placeholder that was recorded after it took the mask. -/
def collectedSteps : List TitleAction :=
  [.start 0 .socketcloseAll] ++ List.replicate 37 (.step 0) ++ openingSteps 1 5 3 ++
    [.answer 0 { code := 0 }]

/-- Another thread opens a socket between `lwip_close` and `untrack_fd` and gets a descriptor of its
own. -/
theorem titles_own_descriptors_overlapping :
    ∃ c g, titleSystem.watch windowMonitor (System.start freshTitle)
      (TitleHistory.start freshTitle.mem)
      (openingSteps 0 5 3 ++ closingSteps 0 3 ++ openingSteps 1 6 4) = some (c, g) ∧
        g.standing 3 = .released 0 ∧ c.machine.mem.openMask = 0x18 ∧ Owned c.machine := by
  have hrun : (titleSystem.watch windowMonitor (System.start freshTitle)
      (TitleHistory.start freshTitle.mem)
      (openingSteps 0 5 3 ++ closingSteps 0 3 ++ openingSteps 1 6 4)).map (fun f ↦
        (f.2.standing 3, f.1.machine.mem.openMask)) = some (.released 0, 0x18) := rfl
  obtain ⟨⟨c, g⟩, hwatch, hview⟩ := Option.map_eq_some_iff.mp hrun
  obtain ⟨hstanding, hmask⟩ := Prod.mk.inj hview
  exact ⟨c, g, hwatch, hstanding, hmask,
    titles_own_descriptors freshTitle atRest_freshTitle _ c g hwatch⟩

/-- In the windows two public descriptors map to one open lwIP descriptor, and a placeholder is
closed under a public descriptor. -/
theorem titles_share_descriptors :
    AtRest freshTitle ∧
    (∃ actions c g, titleSystem.watch titleMonitor (System.start freshTitle)
        (TitleHistory.start freshTitle.mem) actions = some (c, g) ∧
      ∃ fd other, fd ≠ other ∧ c.machine.mem.openMask.getLsbD fd = true ∧
        c.machine.mem.openMask.getLsbD other = true ∧
        c.machine.mem.mappedFd fd = c.machine.mem.mappedFd other ∧
        c.machine.world.lwip (c.machine.mem.mappedFd fd) = true) ∧
    ∃ actions c g, titleSystem.watch titleMonitor (System.start freshTitle)
        (TitleHistory.start freshTitle.mem) actions = some (c, g) ∧
      ∃ fd : ℕ, c.machine.mem.openMask.getLsbD fd = true ∧ c.machine.world.native fd = none := by
  refine ⟨atRest_freshTitle, ?_, ?_⟩
  · have hrun : (titleSystem.watch titleMonitor (System.start freshTitle)
        (TitleHistory.start freshTitle.mem) reusedSteps).map (fun f ↦
          (f.1.machine.mem.openMask, f.1.machine.mem.mappedFd 3, f.1.machine.mem.mappedFd 4,
            f.1.machine.world.lwip 5)) = some (0x18#32, 5, 5, true) := rfl
    obtain ⟨⟨c, g⟩, hwatch, hend⟩ := Option.map_eq_some_iff.mp hrun
    simp only [Prod.mk.injEq] at hend
    obtain ⟨hmask, hthree, hfour, hopen⟩ := hend
    refine ⟨_, c, g, hwatch, 3, 4, by decide, ?_, ?_, hthree.trans hfour.symm, hthree ▸ hopen⟩
    · rw [hmask]
      rfl
    · rw [hmask]
      rfl
  · have hrun : (titleSystem.watch titleMonitor (System.start freshTitle)
        (TitleHistory.start freshTitle.mem) collectedSteps).map (fun f ↦
          (f.1.machine.mem.openMask, f.1.machine.world.native 3)) = some (0x8#32, none) := rfl
    obtain ⟨⟨c, g⟩, hwatch, hend⟩ := Option.map_eq_some_iff.mp hrun
    simp only [Prod.mk.injEq] at hend
    obtain ⟨hmask, hclosed⟩ := hend
    refine ⟨_, c, g, hwatch, 3, ?_, hclosed⟩
    rw [hmask]
    rfl

end Ax88179Aroma.Shim
