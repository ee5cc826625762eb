import Ax88179Aroma.Module.Worker

/-!
# The handles of the adapter

Each successful `ax88179_open` adds a record, newest first, with the number of times that the handle
was passed to `ax88179_close` or `ax88179_abandon_title`.  The memory of a retired handle may be
handed out again, so a pointer means the newest record with its value.  What the functions outside
return is arbitrary.
-/

namespace Ax88179Aroma.Module

open Effect Program Net

/-- A handle that `ax88179_open` returned. -/
structure HandleRecord where
  pointer : ℕ
  retirements : ℕ := 0
  deriving DecidableEq, Repr

namespace HandleRecord

def live (record : HandleRecord) : Bool := record.retirements = 0

/-- Count a retirement of the newest record with the pointer. -/
def retire (ax : ℕ) : List HandleRecord → List HandleRecord
  | [] => []
  | record :: rest =>
    if record.pointer = ax then { record with retirements := record.retirements + 1 } :: rest
    else record :: retire ax rest

end HandleRecord

structure HandleWorld where
  handles : List HandleRecord := []
  deriving DecidableEq, Repr

namespace HandleWorld

/-- The pointer is that of a handle that was not retired. -/
def live (world : HandleWorld) (ax : ℕ) : Bool :=
  (world.handles.find? fun record ↦ record.pointer = ax).any HandleRecord.live

/-- The number of handles that were not retired. -/
def liveCount (world : HandleWorld) : ℕ := world.handles.countP HandleRecord.live

end HandleWorld

abbrev ModuleMachine := Machine NetState HandleWorld

/-- Of the interface only `iface.state` is kept; everything may return anything. -/
def netReply : NetCall → ModuleMachine → ModuleMachine
  | .netifAdd ax, x => { x with mem := { x.mem with ifaceState := ax } }
  | _, x => x

def moduleReply : Replies NetState HandleWorld ModuleCall NetReply
  | .net request, _, x => some (netReply request x)
  | .ax88179Open, answer, x =>
    if answer.code.toNat = 0 then some x
    else some { x with world := ⟨⟨answer.code.toNat, 0⟩ :: x.world.handles⟩ }
  | .ax88179Close ax, _, x => some { x with world := ⟨HandleRecord.retire ax x.world.handles⟩ }
  | .ax88179AbandonTitle ax, _, x => some { x with world := ⟨HandleRecord.retire ax x.world.handles⟩ }
  | _, _, x => some x

/-- The handle that a call into the driver uses.  `netif_add` reads the MAC address through it. -/
def netHandle : NetCall → Option ℕ
  | .netifAdd ax => some ax
  | .ax88179Link ax => some ax
  | .ax88179Send ax _ => some ax
  | .ax88179Receive ax _ _ => some ax
  | .ax88179LastBulk ax => some ax
  | .ax88179LastBulkUs ax => some ax
  | _ => none

namespace ModuleCall

/-- The handle that the call retires. -/
def retires : ModuleCall → Option ℕ
  | .ax88179Close ax => some ax
  | .ax88179AbandonTitle ax => some ax
  | _ => none

/-- The handle that the call uses or retires. -/
def handle : ModuleCall → Option ℕ
  | .net request => netHandle request
  | request => request.retires

end ModuleCall

/-- Every call finds its handle live and at most one handle live, and a handle is retired only with
the interface inactive. -/
structure HandleSafe (request : ModuleCall) (x : ModuleMachine) : Prop where
  usesLive : ∀ ax, request.handle = some ax → x.world.live ax = true
  inactive : request.retires ≠ none → x.mem.active = 0
  single : x.world.liveCount ≤ 1
  once : ∀ record ∈ x.world.handles, record.retirements ≤ 1

/-! ## The states of the worker -/

/-- Every handle that was opened so far is retired once. -/
def Settled (handles : List HandleRecord) : Prop := ∀ record ∈ handles, record.retirements = 1

/-- What the worker has in hand: no handle, a handle that the interface does not use, or the handle
of the active interface.  In a `fresh` worker nothing is known about the interface, which still has
the state of the previous title. -/
inductive Phase where
  | fresh
  | bare
  | detached (ax : ℕ)
  | running (ax : ℕ)

namespace Phase

def pointer : Phase → Option ℕ
  | fresh => none
  | bare => none
  | detached ax => some ax
  | running ax => some ax

/-- The newest handle is the live one, if there is one. -/
def handlesOf : Phase → List HandleRecord → List HandleRecord
  | fresh, rest => rest
  | bare, rest => rest
  | detached ax, rest => ⟨ax, 0⟩ :: rest
  | running ax, rest => ⟨ax, 0⟩ :: rest

/-- The interface is inactive, or uses the handle. -/
def Interface : Phase → NetState → Prop
  | fresh, _ => True
  | bare, s => s.active = 0
  | detached _, s => s.active = 0
  | running ax, s => s.active ≠ 0 ∧ s.ifaceState = ax

end Phase

structure Phase.Holds (phase : Phase) (x : ModuleMachine) : Prop where
  handles : ∃ rest, x.world.handles = phase.handlesOf rest ∧ Settled rest
  interface : phase.Interface x.mem

/-- The phase once the interface is inactive. -/
def Phase.stopped : Phase → Phase
  | fresh => bare
  | bare => bare
  | detached ax => detached ax
  | running ax => detached ax

theorem Phase.Holds.stop {phase : Phase} {x : ModuleMachine} {mem : NetState} (h : phase.Holds x)
    (hactive : mem.active = 0) : phase.stopped.Holds { x with mem := mem } := by
  have hhandles := h.handles
  cases phase <;> exact ⟨hhandles, hactive⟩

theorem Settled.countP_live {handles : List HandleRecord} (h : Settled handles) :
    handles.countP HandleRecord.live = 0 := by
  rw [List.countP_eq_zero]
  intro record hrecord
  simp [HandleRecord.live, h record hrecord]

namespace Phase.Holds

variable {phase : Phase} {x : ModuleMachine}

theorem liveCount_le (h : phase.Holds x) : x.world.liveCount ≤ 1 := by
  obtain ⟨rest, hhandles, hsettled⟩ := h.handles
  rw [HandleWorld.liveCount, hhandles]
  cases phase <;> simp [Phase.handlesOf, HandleRecord.live, hsettled.countP_live]

theorem retirements_le (h : phase.Holds x) : ∀ record ∈ x.world.handles, record.retirements ≤ 1 := by
  obtain ⟨rest, hhandles, hsettled⟩ := h.handles
  rw [hhandles]
  intro record hrecord
  have hcases : record.retirements = 0 ∨ record ∈ rest := by
    cases phase with
    | fresh => exact .inr hrecord
    | bare => exact .inr hrecord
    | detached ax => exact (List.mem_cons.mp hrecord).imp (congrArg HandleRecord.retirements) id
    | running ax => exact (List.mem_cons.mp hrecord).imp (congrArg HandleRecord.retirements) id
  rcases hcases with hzero | hmem
  · exact hzero ▸ Nat.zero_le 1
  · exact Nat.le_of_eq (hsettled record hmem)

theorem live (h : phase.Holds x) {ax : ℕ} (hax : phase.pointer = some ax) :
    x.world.live ax = true := by
  obtain ⟨rest, hhandles, -⟩ := h.handles
  rw [HandleWorld.live, hhandles]
  cases phase <;> cases hax <;> simp [Phase.handlesOf, HandleRecord.live]

/-- Calls on the handle in hand, or on none. -/
theorem safe (h : phase.Holds x) {request : ModuleCall}
    (huses : request.handle = none ∨ request.handle = phase.pointer)
    (hretires : request.retires = none ∨ x.mem.active = 0) : HandleSafe request x where
  usesLive ax hax := by
    rcases huses with hnone | hpointer
    · exact absurd (hnone.symm.trans hax) nofun
    · exact h.live (hpointer.symm.trans hax)
  inactive hne := hretires.resolve_left hne
  single := h.liveCount_le
  once := h.retirements_le

end Phase.Holds

/-! ## Functions that only use the handle in hand -/

/-- What a phase says about the interface. -/
def ifaceView (s : NetState) : ℤ × ℕ := (s.active, s.ifaceState)

theorem Phase.Holds.of_view {phase : Phase} {x : ModuleMachine} {mem : NetState}
    (h : phase.Holds x) (hview : ifaceView mem = ifaceView x.mem) :
    phase.Holds { x with mem := mem } where
  handles := h.handles
  interface := by
    obtain ⟨hactive, hstate⟩ := Prod.mk.inj hview
    have hinterface := h.interface
    cases phase with
    | fresh => trivial
    | bare => exact hactive.trans hinterface
    | detached ax => exact hactive.trans hinterface
    | running ax => exact ⟨hactive ▸ hinterface.1, hstate.trans hinterface.2⟩

/-- Calls that use no handle but the one in hand, and leave `iface.state` alone. -/
structure Phase.Calm (phase : Phase) (request : NetCall) : Prop where
  uses : netHandle request = none ∨ netHandle request = phase.pointer
  same : ∀ x, netReply request x = x

/-- The interface as the worker calls it. -/
abbrev netWp {α : Type} (program : NetM α) (post : α → ModuleMachine → Prop) (x : ModuleMachine) :
    Prop :=
  wp (fun request ↦ moduleReply (.net request)) (fun request ↦ HandleSafe (.net request)) program
    post x

abbrev moduleWp {α : Type} (program : ModuleM α) (post : α → ModuleMachine → Prop)
    (x : ModuleMachine) : Prop :=
  wp moduleReply HandleSafe program post x

theorem wp_net {α : Type} {program : NetM α} {post : α → ModuleMachine → Prop} {x : ModuleMachine} :
    moduleWp (net program) post x ↔ netWp program post x :=
  wp_embed

theorem wp_calm {α : Type} {phase : Phase} {program : NetM α} {x : ModuleMachine}
    (hkeeps : Keeps ifaceView phase.Calm program) (hx : phase.Holds x) :
    netWp program (fun _ y ↦ phase.Holds y ∧ ifaceView y.mem = ifaceView x.mem) x := by
  refine wp_keeps hkeeps ?_ ?_ ?_ ⟨hx, rfl⟩
  · exact fun y mem hview hy ↦ ⟨hy.1.of_view hview, hview.trans hy.2⟩
  · intro request answer y z hcalm hy hreply
    obtain rfl := Option.some.inj hreply
    rw [hcalm.same]
    exact hy
  · exact fun request y hcalm hy ↦ hy.1.safe hcalm.uses (.inl rfl)

theorem wp_calm_call {phase : Phase} {request : NetCall} {post : NetReply → ModuleMachine → Prop}
    {x : ModuleMachine} (hcalm : phase.Calm request) (hx : phase.Holds x)
    (hpost : ∀ answer, post answer x) : netWp (perform request) post x := by
  refine ⟨hx.safe hcalm.uses (.inl rfl), fun answer y hreply ↦ ?_⟩
  obtain rfl := Option.some.inj hreply
  rw [hcalm.same]
  exact hpost answer

/-! ## The interface -/

section Interface

variable {phase : Phase} {ax : ℕ} {x : ModuleMachine}

theorem calm_of_none {request : NetCall} (hhandle : netHandle request = none) :
    phase.Calm request where
  uses := .inl hhandle
  same x := by
    cases request <;> first | rfl | cases hhandle

theorem keeps_invoke {request : NetCall} (hcalm : phase.Calm request) :
    Keeps ifaceView phase.Calm (Net.invoke request) :=
  (keeps_perform hcalm).bind fun _ ↦ trivial

theorem keeps_removeLeftover : Keeps ifaceView (Phase.detached ax).Calm removeLeftover := by
  refine (keeps_load _).bind fun inList ↦ Keeps.when ?_
  refine (keeps_perform (calm_of_none rfl)).bind fun dhcp ↦ ?_
  refine (Keeps.when ?_).bind fun _ ↦ ?_
  · exact (keeps_invoke (calm_of_none rfl)).bind fun _ ↦ keeps_invoke (calm_of_none rfl)
  · exact (keeps_invoke (calm_of_none rfl)).bind fun _ ↦ keeps_store fun _ ↦ rfl

theorem keeps_setupAdded (linkUp restoreLease : Bool) :
    Keeps ifaceView (Phase.detached ax).Calm (setupAdded linkUp restoreLease) := by
  have hquiet : ∀ request, netHandle request = none →
      Keeps ifaceView (Phase.detached ax).Calm (Net.invoke request) := fun request hnone ↦
    keeps_invoke (calm_of_none hnone)
  have haddress : Keeps ifaceView (Phase.detached ax).Calm (setupAddress restoreLease) := by
    refine Keeps.ite ?_ ?_
    · exact (keeps_load _).bind fun lease ↦ (hquiet _ rfl).bind fun _ ↦ trivial
    · refine (keeps_perform (calm_of_none rfl)).bind fun started ↦ Keeps.ite ?_ trivial
      refine (hquiet _ rfl).bind fun _ ↦ (hquiet _ rfl).bind fun _ ↦ ?_
      exact Keeps.bind (keeps_store fun _ ↦ rfl) fun _ ↦ trivial
  refine Keeps.bind (keeps_store fun _ ↦ rfl) fun _ ↦ (hquiet _ rfl).bind fun _ ↦ ?_
  refine (hquiet _ rfl).bind fun _ ↦ (Keeps.when (hquiet _ rfl)).bind fun _ ↦ ?_
  refine haddress.bind fun ready ↦ Keeps.ite ?_ trivial
  exact (hquiet _ rfl).bind fun _ ↦ trivial

/-- With the interface inactive, `iface.state` may change. -/
theorem Phase.Holds.of_detached (h : (Phase.detached ax).Holds x) (mem : NetState)
    (hactive : mem.active = x.mem.active) : (Phase.detached ax).Holds { x with mem := mem } where
  handles := h.handles
  interface := hactive.trans h.interface

/-- `iface.state` is the handle once `netif_add` has succeeded. -/
theorem wp_setupNetif (linkUp restoreLease : Bool) (hx : (Phase.detached ax).Holds x) :
    netWp (setupNetif ax linkUp restoreLease)
      (fun err y ↦ (Phase.detached ax).Holds y ∧ (err = errOk → y.mem.ifaceState = ax)) x := by
  refine wp_seq (wp_calm keeps_removeLeftover hx) fun _ y hy ↦ ?_
  have hcleared := hy.1.of_detached { y.mem with ifaceState := 0 } rfl
  refine ⟨hcleared.safe (.inr rfl) (.inl rfl), fun added z hreply ↦ ?_⟩
  obtain rfl := Option.some.inj hreply
  have hadded := hy.1.of_detached { y.mem with ifaceState := ax } rfl
  change netWp (if added.code = 0 then pure errIf else setupAdded linkUp restoreLease) _ _
  rw [netWp, wp_ite]
  split
  · exact ⟨hadded, nofun⟩
  · refine wp_mono (wp_calm (keeps_setupAdded linkUp restoreLease) hadded) fun err z hz ↦ ?_
    exact ⟨hz.1, fun _ ↦ congrArg Prod.snd hz.2⟩

theorem wp_axNetStart (hax : ax ≠ 0) (hx : (Phase.detached ax).Holds x) :
    netWp (axNetStart ax)
      (fun started y ↦ if started = 0 then (Phase.running ax).Holds y
        else (Phase.detached ax).Holds y) x := by
  have hinit : Keeps ifaceView (Phase.detached ax).Calm initStack := by
    refine Keeps.bind (Keeps.each fun _ _ ↦ keeps_store fun _ ↦ rfl) fun _ ↦ ?_
    refine Keeps.bind (keeps_store fun _ ↦ rfl) fun _ ↦ ?_
    exact (keeps_invoke (calm_of_none rfl)).bind fun _ ↦ keeps_store fun _ ↦ rfl
  have hinactive : ¬ (x.mem.active ≠ 0 ∨ ax = 0) := by
    rintro (hactive | hzero)
    · exact hactive hx.interface
    · exact hax hzero
  refine (wp_bind _ _ _ _).mpr ((wp_load _ _ _).mpr ?_)
  rw [if_neg hinactive]
  refine (wp_bind _ _ _ _).mpr ((wp_load _ _ _).mpr ?_)
  refine wp_seq (wp_calm (Keeps.when hinit) hx) fun _ y hy ↦ ?_
  refine (wp_bind _ _ _ _).mpr ((wp_load _ _ _).mpr ((wp_bind _ _ _ _).mpr ((wp_store _ _ _).mpr ?_)))
  have hlease := hy.1.of_detached { y.mem with
    currentUsingCachedLease := if y.mem.restoreLease then 1 else 0 } rfl
  refine (wp_bind _ _ _ _).mpr (wp_calm_call ⟨.inr rfl, fun _ ↦ rfl⟩ hlease fun link ↦ ?_)
  refine wp_seq (wp_calm (keeps_invoke (calm_of_none rfl)) hlease) fun _ y hy ↦ ?_
  refine wp_seq (wp_setupNetif _ _ hy.1) fun err y hy ↦ ?_
  refine wp_seq (wp_calm (keeps_invoke (calm_of_none rfl)) hy.1) fun _ z hz ↦ ?_
  rw [wp_ite]
  split
  · exact hz.1
  · rename_i herr
    refine (wp_bind _ _ _ _).mpr (wp_calm_call (calm_of_none rfl) hz.1 fun now ↦ ?_)
    refine ⟨hz.1.handles, (by decide : (1 : ℤ) ≠ 0), ?_⟩
    exact (congrArg Prod.snd hz.2).trans (hy.2 (not_not.mp herr))

theorem keeps_setLink (up : ℤ) : Keeps ifaceView phase.Calm (setLink up) := by
  refine (keeps_invoke (calm_of_none rfl)).bind fun _ ↦ ?_
  refine (keeps_invoke (calm_of_none ?_)).bind fun _ ↦ keeps_invoke (calm_of_none rfl)
  split <;> rfl

theorem keeps_inputRxFrame (frame : List UInt8) :
    Keeps ifaceView phase.Calm (inputRxFrame frame) := by
  have hrefused : ∀ p, Keeps ifaceView phase.Calm (inputRefused p frame) := fun p ↦
    (keeps_perform (calm_of_none rfl)).bind fun taken ↦
      Keeps.ite trivial ((keeps_perform (calm_of_none rfl)).bind fun input ↦ trivial)
  refine Keeps.bind (keeps_store fun _ ↦ rfl) fun _ ↦ ?_
  refine (keeps_perform (calm_of_none rfl)).bind fun p ↦ Keeps.ite (keeps_store fun _ ↦ rfl) ?_
  refine (hrefused p.code).bind fun refused ↦ Keeps.ite ?_ (keeps_store fun _ ↦ rfl)
  exact Keeps.bind (keeps_store fun _ ↦ rfl) fun _ ↦ keeps_invoke (calm_of_none rfl)

theorem keeps_readPool (slot count : ℕ) : Keeps ifaceView phase.Calm (readPool slot count) := by
  induction count with
  | zero => trivial
  | succ count ih => exact ih.bind fun before ↦ (keeps_load _).bind fun byte ↦ trivial

theorem keeps_drainTx (send : ℤ) (fuel : ℕ) :
    Keeps ifaceView (Phase.running ax).Calm (drainTx ax send fuel) := by
  have htransmit : ∀ m, Keeps ifaceView (Phase.running ax).Calm (transmit ax m) := by
    intro m
    refine (keeps_readPool _ _).bind fun frame ↦ ?_
    refine (keeps_perform ⟨.inr rfl, fun _ ↦ rfl⟩).bind fun result ↦ ?_
    exact Keeps.ite (keeps_store fun _ ↦ rfl) (keeps_store fun _ ↦ rfl)
  induction fuel with
  | zero => trivial
  | succ fuel ih =>
    refine (keeps_perform (calm_of_none rfl)).bind fun received ↦ ?_
    cases received.message with
    | none => trivial
    | some m =>
      refine (Keeps.when (htransmit m)).bind fun _ ↦ ?_
      exact Keeps.bind (keeps_store fun _ ↦ rfl) fun _ ↦ ih

/-- A calm function keeps the phase. -/
theorem wp_keepsPhase {α : Type} {program : NetM α} (hkeeps : Keeps ifaceView phase.Calm program)
    (hx : phase.Holds x) : netWp program (fun _ ↦ phase.Holds) x :=
  wp_mono (wp_calm hkeeps hx) fun _ _ h ↦ h.1

/-- What the running interface reads from `iface.state` is the handle. -/
theorem wp_loadIfaceState {α : Type} {next : ℕ → NetM α} {post : α → ModuleMachine → Prop}
    (hx : (Phase.running ax).Holds x) (hnext : netWp (next ax) post x) :
    netWp (load (fun s ↦ s.ifaceState) >>= next) post x := by
  refine (wp_bind _ _ _ _).mpr ((wp_load _ _ _).mpr ?_)
  rw [hx.interface.2]
  exact hnext

theorem wp_receiveFrame (timeoutUs : ℤ) (hx : (Phase.running ax).Holds x) :
    netWp (receiveFrame timeoutUs) (fun _ ↦ (Phase.running ax).Holds) x := by
  refine wp_loadIfaceState hx ((wp_bind _ _ _ _).mpr ?_)
  exact wp_calm_call ⟨.inr rfl, fun _ ↦ rfl⟩ hx fun _ ↦ hx

theorem wp_harvest (fuel : ℕ) (hx : (Phase.running ax).Holds x) :
    netWp (harvest fuel) (fun _ ↦ (Phase.running ax).Holds) x := by
  induction fuel generalizing x with
  | zero => trivial
  | succ fuel ih =>
    refine wp_seq (wp_receiveFrame 0 hx) fun more y hy ↦ ?_
    rw [wp_ite, wp_ite]
    split
    · exact wp_seq (wp_keepsPhase (keeps_inputRxFrame more.2) hy) fun _ z hz ↦ ih hz
    · split
      · exact hy.of_view rfl
      · exact hy

theorem wp_pollLinkIfDue (now : UInt32) (hx : (Phase.running ax).Holds x) :
    netWp (pollLinkIfDue now) (fun _ ↦ (Phase.running ax).Holds) x := by
  have hfollow : ∀ up : ℤ, Keeps ifaceView (Phase.running ax).Calm (do
      setLink up
      store fun s ↦ { s with lastLinkUp := up }) := fun up ↦
    (keeps_setLink up).bind fun _ ↦ keeps_store fun _ ↦ rfl
  have hlost : Keeps ifaceView (Phase.running ax).Calm linkLost :=
    (keeps_load _).bind fun _ ↦ (Keeps.when (hfollow 0)).bind fun _ ↦ trivial
  refine wp_seq (wp_keepsPhase (keeps_load _) hx) fun lastLink y hy ↦ ?_
  rw [wp_ite]
  split
  · refine wp_loadIfaceState hy ((wp_bind _ _ _ _).mpr ?_)
    refine wp_calm_call ⟨.inr rfl, fun _ ↦ rfl⟩ hy fun up ↦ ?_
    refine wp_keepsPhase ?_ hy
    refine Keeps.bind (keeps_store fun _ ↦ rfl) fun _ ↦ (keeps_load _).bind fun lastLinkUp ↦ ?_
    refine (Keeps.when (hfollow up.code)).bind fun _ ↦ ?_
    exact Keeps.bind (keeps_access fun _ ↦ rfl) fun _ ↦ Keeps.ite hlost trivial
  · exact hy

theorem wp_pollFrames (fuel : ℕ) (hx : (Phase.running ax).Holds x) :
    netWp (pollFrames fuel) (fun _ ↦ (Phase.running ax).Holds) x := by
  refine wp_loadIfaceState hx (wp_seq (wp_keepsPhase (keeps_drainTx 1 fuel) hx) fun _ y hy ↦ ?_)
  refine wp_seq (wp_receiveFrame 5000 hy) fun received y hy ↦ ?_
  have hinput : netWp (inputReceived received fuel) (fun _ ↦ (Phase.running ax).Holds) y := by
    rw [netWp, inputReceived, wp_ite, wp_ite]
    split
    · refine wp_seq (wp_keepsPhase (keeps_inputRxFrame received.2) hy) fun _ z hz ↦ ?_
      exact wp_harvest fuel hz
    · split <;> exact hy.of_view rfl
  refine wp_seq hinput fun _ y hy ↦ wp_loadIfaceState hy ?_
  exact wp_seq (wp_keepsPhase (keeps_drainTx 1 fuel) hy) fun _ z hz ↦ hz

theorem wp_axNetPoll (fuel : ℕ) (hx : (Phase.running ax).Holds x) :
    netWp (axNetPoll fuel) (fun _ ↦ (Phase.running ax).Holds) x := by
  refine wp_seq (wp_keepsPhase (keeps_load _) hx) fun active y hy ↦ ?_
  rw [wp_ite]
  split
  · exact hy
  · refine (wp_bind _ _ _ _).mpr (wp_calm_call (calm_of_none rfl) hy fun now ↦ ?_)
    refine wp_seq (wp_pollLinkIfDue _ hy) fun lost z hz ↦ ?_
    cases lost with
    | true => exact hz
    | false => exact wp_pollFrames fuel hz

theorem keeps_axNetAddress : Keeps ifaceView phase.Calm axNetAddress := by
  have hquiet : ∀ request, netHandle request = none →
      Keeps ifaceView phase.Calm (perform request : NetM NetReply) := fun request hnone ↦
    keeps_perform (calm_of_none hnone)
  have hremember : ∀ ip, Keeps ifaceView phase.Calm (rememberLease ip) := by
    intro ip
    refine (keeps_load _).bind fun fresh ↦ Keeps.ite ((hquiet _ rfl).bind fun supplied ↦ ?_) trivial
    refine Keeps.ite ((hquiet _ rfl).bind fun netmask ↦ (hquiet _ rfl).bind fun gateway ↦ ?_) trivial
    exact keeps_store fun _ ↦ rfl
  refine (keeps_load _).bind fun active ↦ Keeps.ite trivial ((hquiet _ rfl).bind fun up ↦ ?_)
  refine Keeps.ite trivial ((hquiet _ rfl).bind fun answer ↦ Keeps.ite trivial ?_)
  exact (hremember _).bind fun _ ↦ trivial

theorem wp_axNetStatus (hx : (Phase.running ax).Holds x) :
    netWp axNetStatus (fun _ ↦ (Phase.running ax).Holds) x := by
  have hquiet : ∀ request, netHandle request = none →
      Keeps ifaceView (Phase.running ax).Calm (Net.invoke request) := fun request hnone ↦
    keeps_invoke (calm_of_none hnone)
  refine wp_seq (wp_keepsPhase (keeps_load _) hx) fun active y hy ↦ (wp_when _ _ _ _).mpr ?_
  split
  · refine wp_seq (wp_keepsPhase (hquiet _ rfl) hy) fun _ y hy ↦ ?_
    refine wp_seq (wp_keepsPhase (hquiet _ rfl) hy) fun _ y hy ↦ wp_loadIfaceState hy ?_
    refine wp_keepsPhase ?_ hy
    exact (keeps_invoke ⟨.inr rfl, fun _ ↦ rfl⟩).bind fun _ ↦ keeps_invoke ⟨.inr rfl, fun _ ↦ rfl⟩
  · exact hy

theorem wp_axNetStop (fuel : ℕ) (hx : (Phase.running ax).Holds x) :
    netWp (axNetStop fuel) (fun _ ↦ (Phase.detached ax).Holds) x := by
  have hquiet : ∀ request, netHandle request = none →
      Keeps ifaceView (Phase.running ax).Calm (Net.invoke request) := fun request hnone ↦
    keeps_invoke (calm_of_none hnone)
  have hdhcp : Keeps ifaceView (Phase.running ax).Calm stopDhcp := by
    refine (keeps_load _).bind fun keep ↦ (hquiet _ ?_).bind fun _ ↦ hquiet _ rfl
    cases keep <;> rfl
  have hnetif : Keeps ifaceView (Phase.running ax).Calm stopNetif := by
    refine (keeps_perform (calm_of_none rfl)).bind fun dhcp ↦ (Keeps.when hdhcp).bind fun _ ↦ ?_
    refine (hquiet _ rfl).bind fun _ ↦ (hquiet _ rfl).bind fun _ ↦ ?_
    exact keeps_store fun _ ↦ rfl
  refine (wp_bind _ _ _ _).mpr ((wp_load _ _ _).mpr ?_)
  rw [if_neg hx.interface.1]
  refine wp_seq (wp_keepsPhase (hquiet _ rfl) hx) fun _ y hy ↦ ?_
  refine wp_seq (wp_keepsPhase hnetif hy) fun _ y hy ↦ ?_
  refine wp_seq (wp_keepsPhase (hquiet _ rfl) hy) fun _ y hy ↦ wp_loadIfaceState hy ?_
  exact wp_seq (wp_keepsPhase (keeps_drainTx 0 fuel) hy) fun _ z hz ↦ ⟨hz.handles, rfl⟩

/-- Without an active interface there is nothing to stop. -/
theorem wp_axNetStop_bare (fuel : ℕ) (hx : Phase.bare.Holds x) :
    netWp (axNetStop fuel) (fun _ ↦ Phase.bare.Holds) x := by
  refine (wp_bind _ _ _ _).mpr ((wp_load _ _ _).mpr ?_)
  rw [if_pos (show x.mem.active = 0 from hx.interface)]
  exact hx

theorem wp_axNetAbandonTitle (hx : phase.Holds x) :
    netWp axNetAbandonTitle (fun _ ↦ phase.stopped.Holds) x := by
  refine wp_seq (wp_keepsPhase (keeps_load _) hx) fun initialized y hy ↦ ?_
  dsimp only
  rw [wp_ite]
  split
  · refine (wp_bind _ _ _ _).mpr (wp_calm_call (calm_of_none rfl) hy fun _ ↦ ?_)
    exact hy.stop rfl
  · exact hy.stop rfl

theorem wp_axNetForget (hx : phase.Holds x) :
    netWp axNetForget (fun _ ↦ phase.stopped.Holds) x :=
  wp_seq (wp_keepsPhase (keeps_invoke (calm_of_none rfl)) hx) fun _ _ hy ↦ hy.stop rfl

theorem keeps_axNetSetSessionLeaseMode (enabled : ℤ) :
    Keeps ifaceView phase.Calm (axNetSetSessionLeaseMode enabled) :=
  Keeps.bind (keeps_store fun _ ↦ rfl) fun _ ↦ Keeps.when (keeps_store fun _ ↦ rfl)

end Interface

/-! ## The worker -/

/-- Calls that concern neither the handle nor the interface. -/
def ModuleCall.plain : ModuleCall → Bool
  | .net _ => false
  | .ax88179Open => false
  | .ax88179Close _ => false
  | .ax88179AbandonTitle _ => false
  | _ => true

section Worker

variable {phase : Phase} {ax : ℕ} {x : ModuleMachine}

theorem wp_plain {request : ModuleCall} {post : NetReply → ModuleMachine → Prop}
    (hplain : request.plain = true) (hx : phase.Holds x) (hpost : ∀ answer, post answer x) :
    moduleWp (perform request) post x := by
  refine ⟨hx.safe (.inl ?_) (.inl ?_), fun answer y hreply ↦ ?_⟩
  · cases request <;> first | rfl | cases hplain
  · cases request <;> first | rfl | cases hplain
  · have hsame : y = x := by
      cases request <;> cases hplain <;> exact (Option.some.inj hreply).symm
    rw [hsame]
    exact hpost answer

theorem wp_invoke {request : ModuleCall} (hplain : request.plain = true) (hx : phase.Holds x) :
    moduleWp (invoke request) (fun _ ↦ phase.Holds) x :=
  (wp_bind _ _ _ _).mpr (wp_plain hplain hx fun _ ↦ hx)

theorem wp_loadStopping (hx : phase.Holds x) :
    moduleWp loadStopping (fun _ ↦ phase.Holds) x :=
  (wp_bind _ _ _ _).mpr (wp_plain rfl hx fun _ ↦ hx)

theorem wp_osGetTime (hx : phase.Holds x) : moduleWp osGetTime (fun _ ↦ phase.Holds) x :=
  (wp_bind _ _ _ _).mpr (wp_plain rfl hx fun _ ↦ hx)

/-- A function of the interface that keeps the phase. -/
theorem wp_netKeeps {α : Type} {program : NetM α} (hkeeps : Keeps ifaceView phase.Calm program)
    (hx : phase.Holds x) : moduleWp (net program) (fun _ ↦ phase.Holds) x :=
  wp_net.mpr (wp_keepsPhase hkeeps hx)

theorem wp_open (hx : Phase.bare.Holds x) :
    moduleWp (perform .ax88179Open) (fun answer y ↦
      if answer.code.toNat = 0 then Phase.bare.Holds y
      else (Phase.detached answer.code.toNat).Holds y) x := by
  refine (wp_perform _ _ _).mpr ⟨hx.safe (.inl rfl) (.inl rfl), fun answer y hreply ↦ ?_⟩
  simp only [moduleReply] at hreply
  split at hreply
  · rename_i hnull
    obtain rfl := Option.some.inj hreply
    rw [if_pos hnull]
    exact hx
  · rename_i hhandle
    obtain rfl := Option.some.inj hreply
    rw [if_neg hhandle]
    obtain ⟨rest, hhandles, hsettled⟩ := hx.handles
    exact ⟨⟨rest, congrArg (List.cons _) hhandles, hsettled⟩, hx.interface⟩

/-- The handle in hand is retired with the interface inactive. -/
theorem wp_retireHandle {request : ModuleCall} (hretires : request.retires = some ax)
    (hx : (Phase.detached ax).Holds x) :
    moduleWp (invoke request) (fun _ ↦ Phase.bare.Holds) x := by
  have hhandle : request.handle = some ax := by
    cases request <;> first | exact hretires | cases hretires
  refine ⟨hx.safe (.inr hhandle) (.inr hx.interface), fun answer y hreply ↦ ?_⟩
  have hretired : y = { x with world := ⟨HandleRecord.retire ax x.world.handles⟩ } := by
    cases request <;> cases hretires <;> exact (Option.some.inj hreply).symm
  obtain ⟨rest, hhandles, hsettled⟩ := hx.handles
  rw [hretired]
  refine ⟨⟨_, rfl, ?_⟩, hx.interface⟩
  rw [hhandles]
  intro record hrecord
  simp only [Phase.handlesOf, HandleRecord.retire, if_true, Phase.handlesOf, List.mem_cons]
    at hrecord
  rcases hrecord with rfl | hmem
  · rfl
  · exact hsettled record hmem

theorem wp_stopAndClose (fuel : ℕ) (hx : (Phase.running ax).Holds x) :
    moduleWp (stopAndClose ax fuel) (fun _ ↦ Phase.bare.Holds) x :=
  wp_seq (wp_net.mpr (wp_axNetStop fuel hx)) fun _ _ hy ↦ wp_retireHandle rfl hy

theorem wp_awaitHealth (deadline : ℤ) (fuel : ℕ) (hx : (Phase.running ax).Holds x) :
    moduleWp (awaitHealth deadline fuel) (fun _ ↦ (Phase.running ax).Holds) x := by
  induction fuel generalizing x with
  | zero => trivial
  | succ fuel ih =>
    refine wp_seq (wp_loadStopping hx) fun stopping y hy ↦ ?_
    rw [wp_ite]
    split
    · exact hy
    refine wp_seq (wp_osGetTime hy) fun now y hy ↦ ?_
    rw [wp_ite]
    split
    · exact hy
    refine wp_seq (wp_net.mpr (wp_axNetPoll fuel hy)) fun n y hy ↦ ?_
    rw [wp_ite]
    split
    · exact hy
    refine wp_seq (wp_netKeeps keeps_axNetAddress hy) fun ip y hy ↦ ?_
    rw [wp_ite]
    split
    · exact wp_seq (wp_invoke rfl hy) fun _ _ hz ↦ hz
    · exact wp_seq (wp_invoke rfl hy) fun _ _ hz ↦ ih hz

/-- The phase of a handle variable that is `NULL` after a failed recovery. -/
def Phase.ofHandle (ax : ℕ) : Phase := if ax = 0 then bare else running ax

theorem Phase.ofHandle_of_ne (hax : ax ≠ 0) : Phase.ofHandle ax = running ax := if_neg hax

theorem wp_tryCandidates (fuel : ℕ) (hx : Phase.bare.Holds x) :
    moduleWp (tryCandidates fuel) (fun result y ↦
      (Phase.ofHandle result.2).Holds y ∧ (result.1 = 0 → result.2 ≠ 0)) x := by
  induction fuel generalizing x with
  | zero => trivial
  | succ fuel ih =>
    refine wp_seq (wp_loadStopping hx) fun stopping y hy ↦ ?_
    rw [wp_ite]
    split
    · exact ⟨hy, nofun⟩
    refine wp_seq (wp_invoke rfl hy) fun _ y hy ↦ wp_seq (wp_open hy) fun opened y hy ↦ ?_
    dsimp only
    rw [wp_ite]
    split
    · rename_i hnull
      rw [if_pos hnull] at hy
      exact ih hy
    rename_i hhandle
    rw [if_neg hhandle] at hy
    refine wp_seq (wp_net.mpr (wp_axNetStart hhandle hy)) fun started y hy ↦ ?_
    rw [wp_ite]
    split
    · rename_i hfailed
      rw [if_neg hfailed] at hy
      refine wp_seq (wp_retireHandle rfl hy) fun _ y hy ↦ ?_
      exact wp_seq (wp_invoke rfl hy) fun _ y hy ↦ ih hy
    · rename_i hstarted
      rw [if_pos (not_not.mp hstarted)] at hy
      refine wp_seq (wp_osGetTime hy) fun now y hy ↦ ?_
      refine wp_seq (wp_awaitHealth _ fuel hy) fun healthy y hy ↦ ?_
      rw [wp_ite]
      split
      · exact ⟨(Phase.ofHandle_of_ne hhandle).symm ▸ hy, fun _ ↦ hhandle⟩
      · refine wp_seq (wp_stopAndClose fuel hy) fun _ y hy ↦ ?_
        exact wp_seq (wp_invoke rfl hy) fun _ y hy ↦ ih hy

theorem wp_recoverAdapter (fuel : ℕ) (hax : ax ≠ 0) (hx : (Phase.running ax).Holds x) :
    moduleWp (recoverAdapter ax fuel) (fun result y ↦
      (Phase.ofHandle result.2).Holds y ∧ (result.1 = 0 → result.2 ≠ 0)) x := by
  refine wp_seq (wp_invoke rfl hx) fun _ y hy ↦ ?_
  have hclose : moduleWp (when (ax ≠ 0) (stopAndClose ax fuel)) (fun _ ↦ Phase.bare.Holds) y := by
    rw [moduleWp, wp_when, if_pos hax]
    exact wp_stopAndClose fuel hy
  refine wp_seq hclose fun _ y hy ↦ wp_seq (wp_invoke rfl hy) fun _ y hy ↦ ?_
  exact wp_tryCandidates fuel hy

/-! ### From the bring-up to the end -/

theorem wp_whenPlain {condition : Prop} [Decidable condition] {request : ModuleCall}
    (hplain : request.plain = true) (hx : phase.Holds x) :
    moduleWp (when condition (invoke request)) (fun _ ↦ phase.Holds) x := by
  rw [moduleWp, wp_when]
  split
  · exact wp_invoke hplain hx
  · exact hx

theorem wp_awaitLease (deadline : ℤ) (fuel : ℕ) (hx : (Phase.running ax).Holds x) :
    moduleWp (awaitLease deadline fuel) (fun _ ↦ (Phase.running ax).Holds) x := by
  induction fuel generalizing x with
  | zero => trivial
  | succ fuel ih =>
    refine wp_seq (wp_osGetTime hx) fun now y hy ↦ ?_
    rw [wp_ite]
    split
    · exact hy
    refine wp_seq (wp_net.mpr (wp_axNetPoll fuel hy)) fun n y hy ↦ ?_
    rw [wp_ite]
    split
    · refine wp_seq (wp_osGetTime hy) fun now y hy ↦ ?_
      rw [wp_ite]
      split
      · exact hy
      · exact wp_seq (wp_invoke rfl hy) fun _ _ hz ↦ ih hz
    refine wp_seq (wp_netKeeps keeps_axNetAddress hy) fun ip y hy ↦ ?_
    refine wp_seq (wp_osGetTime hy) fun now y hy ↦ ?_
    rw [wp_ite]
    split
    · exact hy
    refine wp_seq (wp_invoke rfl hy) fun _ y hy ↦ ?_
    rw [wp_ite]
    split
    · exact hy
    · exact ih hy

/-- What the main loop knows between its steps. -/
abbrev Serving (ax : ℕ) (locals : WorkerLocals) (y : ModuleMachine) : Prop :=
  locals.ax = ax ∧ (Phase.running ax).Holds y

section Locals

variable {locals : WorkerLocals}

theorem wp_startHandoff (config : ModuleConfig) (hx : Serving ax locals x) :
    moduleWp (startHandoff config locals) (Serving ax) x := by
  rw [moduleWp, startHandoff, wp_ite]
  split
  · refine (wp_bind _ _ _ _).mpr (wp_plain rfl hx.2 fun handoff ↦ ?_)
    rw [wp_ite]
    split
    · exact hx
    · exact wp_seq (wp_osGetTime hx.2) fun now y hy ↦ ⟨hx.1, hy⟩
  · exact hx

theorem wp_installShim (config : ModuleConfig) (hx : Serving ax locals x) :
    moduleWp (installShim config locals) (Serving ax) x := by
  rw [moduleWp, installShim, wp_ite]
  split
  · exact hx
  refine (wp_bind _ _ _ _).mpr (wp_plain rfl hx.2 fun installed ↦ ?_)
  rw [wp_ite]
  split
  · exact hx
  refine wp_seq (wp_startHandoff config hx) fun locals y hy ↦ ?_
  exact wp_seq (wp_whenPlain rfl hy.2) fun _ z hz ↦ ⟨hy.1, hz⟩

theorem wp_retryHandoff (config : ModuleConfig) (hx : Serving ax locals x) :
    moduleWp (retryHandoff config locals) (Serving ax) x := by
  rw [moduleWp, retryHandoff, wp_ite]
  split
  · refine wp_seq (wp_osGetTime hx.2) fun now y hy ↦ ?_
    rw [wp_ite]
    split
    · refine (wp_bind _ _ _ _).mpr (wp_plain rfl hy fun answer ↦ ?_)
      rw [wp_ite, wp_ite]
      split
      · exact ⟨hx.1, hy⟩
      · split <;> exact ⟨hx.1, hy⟩
    · exact ⟨hx.1, hy⟩
  · exact hx

theorem wp_followAddress (ip : Option UInt32) (hx : Serving ax locals x) :
    moduleWp (followAddress ip locals) (Serving ax) x := by
  rw [moduleWp, followAddress, wp_ite]
  split
  · refine wp_seq (wp_invoke rfl hx.2) fun _ y hy ↦ wp_seq (wp_invoke rfl hy) fun _ z hz ↦ ?_
    exact ⟨hx.1, hz⟩
  · exact hx

theorem wp_heartbeat (ip : Option UInt32) (hx : Serving ax locals x) :
    moduleWp (heartbeat ip locals) (Serving ax) x := by
  rw [moduleWp, heartbeat, wp_ite]
  split
  · refine wp_seq (wp_osGetTime hx.2) fun time y hy ↦ ?_
    dsimp only
    rw [wp_ite]
    split
    · exact wp_seq (wp_net.mpr (wp_axNetStatus hy)) fun _ z hz ↦ ⟨hx.1, hz⟩
    · exact ⟨hx.1, hy⟩
  · exact hx

theorem wp_serve (config : ModuleConfig) (n : ℤ) (hx : Serving ax locals x) :
    moduleWp (serve config n locals) (fun result ↦ Serving ax result.2) x := by
  refine wp_seq (wp_whenPlain rfl hx.2) fun _ y hy ↦ ?_
  refine wp_seq (wp_retryHandoff config ⟨hx.1, hy⟩) fun locals y hy ↦ ?_
  refine wp_seq (wp_netKeeps keeps_axNetAddress hy.2) fun ip z hz ↦ ?_
  refine wp_seq (wp_invoke rfl hz) fun _ z hz ↦ ?_
  refine wp_seq (wp_followAddress ip ⟨hy.1, hz⟩) fun locals y hy ↦ ?_
  refine wp_seq (wp_heartbeat ip hy) fun locals y hy ↦ ?_
  exact wp_seq (wp_whenPlain rfl hy.2) fun _ z hz ↦ ⟨hy.1, hz⟩

theorem wp_recoverInLoop (config : ModuleConfig) (fuel : ℕ) (hax : ax ≠ 0)
    (hx : Serving ax locals x) :
    moduleWp (recoverInLoop config locals fuel) (fun result y ↦
      (Phase.ofHandle result.2.ax).Holds y ∧ (result.1 = 0 → result.2.ax ≠ 0)) x := by
  refine wp_seq (wp_whenPlain rfl hx.2) fun _ y hy ↦ ?_
  rw [hx.1]
  refine wp_seq (wp_recoverAdapter fuel hax hy) fun result y hy ↦ ?_
  obtain ⟨recovered, ax⟩ := result
  dsimp only at hy ⊢
  rw [wp_ite]
  split
  · exact ⟨hy.1, nofun⟩
  rename_i hrecovered
  have hne := hy.2 (not_not.mp hrecovered)
  refine wp_seq (wp_whenPlain rfl hy.1) fun _ z hz ↦ ?_
  rw [wp_ite]
  split
  · exact wp_seq (wp_osGetTime hz) fun now w hw ↦ ⟨hw, fun _ ↦ hne⟩
  · exact ⟨hz, fun _ ↦ hne⟩

theorem wp_mainLoop (config : ModuleConfig) (fuel : ℕ) (hax : ax ≠ 0) (hx : Serving ax locals x) :
    moduleWp (mainLoop config locals fuel) (fun ax y ↦ (Phase.ofHandle ax).Holds y) x := by
  have hleave : ∀ {ax : ℕ} {locals : WorkerLocals} {y : ModuleMachine}, ax ≠ 0 →
      Serving ax locals y → (Phase.ofHandle locals.ax).Holds y := by
    intro ax locals y hax hy
    rw [hy.1, Phase.ofHandle_of_ne hax]
    exact hy.2
  induction fuel generalizing ax locals x with
  | zero => trivial
  | succ fuel ih =>
    refine wp_seq (wp_loadStopping hx.2) fun stopping y hy ↦ ?_
    rw [wp_ite]
    split
    · exact hleave hax ⟨hx.1, hy⟩
    refine wp_seq (wp_net.mpr (wp_axNetPoll fuel hy)) fun n y hy ↦ ?_
    rw [wp_ite]
    split
    · refine wp_seq (wp_recoverInLoop config fuel hax ⟨hx.1, hy⟩) fun result z hz ↦ ?_
      obtain ⟨recovered, locals⟩ := result
      dsimp only at hz ⊢
      rw [wp_ite]
      split
      · exact hz.1
      · rename_i hrecovered
        have hne := hz.2 (not_not.mp hrecovered)
        exact ih hne ⟨rfl, Phase.ofHandle_of_ne hne ▸ hz.1⟩
    · refine wp_seq (wp_serve config n ⟨hx.1, hy⟩) fun result z hz ↦ ?_
      obtain ⟨exit, locals⟩ := result
      dsimp only at hz ⊢
      rw [wp_ite]
      split
      · exact hleave hax hz
      · exact ih hax hz

end Locals

theorem wp_retire (config : ModuleConfig) (fuel : ℕ) (hx : (Phase.ofHandle ax).Holds x) :
    moduleWp (retire config ax fuel) (fun _ ↦ Phase.bare.Holds) x := by
  refine (wp_bind _ _ _ _).mpr (wp_plain rfl hx fun ending ↦ ?_)
  dsimp only
  have hshim : moduleWp (when (config.disableShim = false) (do
      invoke (.shim .stopAccepting)
      when (¬ ending.code ≠ 0) (invoke (.shim .drainOwnedSockets))))
      (fun _ ↦ (Phase.ofHandle ax).Holds) x := by
    rw [moduleWp, wp_when]
    split
    · exact wp_seq (wp_invoke rfl hx) fun _ y hy ↦ wp_whenPlain rfl hy
    · exact hx
  refine wp_seq hshim fun _ y hy ↦ ?_
  by_cases hax : ax = 0
  · subst hax
    rw [wp_ite]
    split
    · exact wp_seq (wp_net.mpr (wp_axNetAbandonTitle hy)) fun _ z hz ↦ hz
    · exact wp_seq (wp_net.mpr (wp_axNetStop_bare fuel hy)) fun _ z hz ↦ hz
  · rw [Phase.ofHandle_of_ne hax] at hy
    rw [wp_ite]
    split
    · refine wp_seq (wp_net.mpr (wp_axNetAbandonTitle hy)) fun _ z hz ↦ (wp_when _ _ _ _).mpr ?_
      rw [if_pos hax]
      exact wp_retireHandle rfl hz
    · refine wp_seq (wp_net.mpr (wp_axNetStop fuel hy)) fun _ z hz ↦ (wp_when _ _ _ _).mpr ?_
      rw [if_pos hax]
      exact wp_retireHandle rfl hz

theorem wp_runAdapter (config : ModuleConfig) (fuel : ℕ) (hax : ax ≠ 0)
    (hx : (Phase.detached ax).Holds x) :
    moduleWp (runAdapter config ax fuel) (fun _ ↦ Phase.bare.Holds) x := by
  refine wp_seq (wp_net.mpr (wp_axNetStart hax hx)) fun started y hy ↦ ?_
  rw [wp_ite]
  split
  · rename_i hfailed
    rw [if_neg hfailed] at hy
    exact wp_retireHandle rfl hy
  rename_i hstarted
  rw [if_pos (not_not.mp hstarted)] at hy
  refine wp_seq (wp_osGetTime hy) fun now y hy ↦ ?_
  refine wp_seq (wp_awaitLease _ fuel hy) fun leased y hy ↦ ?_
  rw [wp_ite]
  split
  · exact wp_stopAndClose fuel hy
  refine wp_seq (wp_installShim config ⟨rfl, hy⟩) fun locals y hy ↦ ?_
  exact wp_seq (wp_mainLoop config fuel hax hy) fun ax z hz ↦ wp_retire config fuel hz

theorem wp_startGuard (rounds : ℕ) (hx : phase.Holds x) :
    moduleWp (startGuard rounds) (fun _ ↦ phase.Holds) x := by
  induction rounds generalizing x with
  | zero => exact hx
  | succ rounds ih =>
    refine wp_seq (wp_loadStopping hx) fun stopping y hy ↦ ?_
    rw [wp_ite]
    split
    · exact hy
    · exact wp_seq (wp_invoke rfl hy) fun _ z hz ↦ ih hz

theorem wp_applyConfig (config : ModuleConfig) (hx : Phase.fresh.Holds x) :
    moduleWp (applyConfig config) (fun _ ↦ Phase.bare.Holds) x := by
  refine wp_seq (wp_invoke rfl hx) fun _ y hy ↦ wp_seq (wp_invoke rfl hy) fun _ y hy ↦ ?_
  refine wp_seq (wp_invoke rfl hy) fun _ y hy ↦ wp_seq (wp_invoke rfl hy) fun _ y hy ↦ ?_
  refine wp_seq (wp_netKeeps (keeps_axNetSetSessionLeaseMode _) hy) fun _ y hy ↦ ?_
  refine wp_seq (wp_net.mpr (wp_axNetForget hy)) fun _ z hz ↦ ?_
  exact wp_invoke rfl hz

/-- Whatever happens, the worker leaves with every handle retired. -/
theorem wp_runNetwork (config : ModuleConfig) (fuel : ℕ) (hx : Phase.fresh.Holds x) :
    moduleWp (runNetwork config fuel) (fun _ y ↦ Settled y.world.handles) x := by
  have hend : ∀ {phase : Phase} {y : ModuleMachine}, phase.pointer = none → phase.Holds y →
      Settled y.world.handles := by
    intro phase y hnone hy
    obtain ⟨rest, hhandles, hsettled⟩ := hy.handles
    rw [hhandles]
    cases phase <;> first | exact hsettled | cases hnone
  have hleave : ∀ {phase : Phase} {y : ModuleMachine}, phase.pointer = none → phase.Holds y →
      moduleWp (do
        invoke .whbLogUdpDeinit
        pure 0) (fun (_ : ℤ) z ↦ Settled z.world.handles) y := fun hnone hy ↦
    wp_seq (wp_invoke rfl hy) fun _ z hz ↦ hend hnone hz
  refine wp_seq (wp_invoke rfl hx) fun _ y hy ↦ ?_
  refine wp_seq (wp_startGuard 20 hy) fun stopped y hy ↦ ?_
  cases stopped with
  | true => exact hleave rfl hy
  | false =>
    have hbody : moduleWp (do
        applyConfig config
        let opened ← perform .ax88179Open
        when (opened.code.toNat ≠ 0) (runAdapter config opened.code.toNat fuel))
        (fun _ ↦ Phase.bare.Holds) y := by
      refine wp_seq (wp_applyConfig config hy) fun _ y hy ↦ wp_seq (wp_open hy) fun opened y hy ↦ ?_
      rw [wp_when]
      split
      · rename_i hhandle
        rw [if_neg hhandle] at hy
        exact wp_runAdapter config fuel hhandle hy
      · rename_i hnull
        rw [if_pos (not_not.mp hnull)] at hy
        exact hy
    exact wp_seq hbody fun _ z hz ↦ hleave rfl hz

end Worker

/-- In every run of `run_network`, from any state that the previous title left behind, each handle
is retired exactly once before the worker returns, with the interface inactive; no call uses a
handle that was retired; and at most one handle is live. -/
theorem runNetwork_retires (config : ModuleConfig) (fuel : ℕ) (mem : NetState) :
    (∀ ret y, Exec moduleReply (runNetwork config fuel) ⟨mem, {}⟩ ret y →
      ∀ record ∈ y.world.handles, record.retirements = 1) ∧
    ∀ request y, Makes moduleReply (runNetwork config fuel) ⟨mem, {}⟩ request y →
      HandleSafe request y := by
  have hx : Phase.fresh.Holds ⟨mem, {}⟩ := ⟨⟨[], rfl, nofun⟩, trivial⟩
  constructor
  · intro ret y hexec
    exact hexec.post_of_wp (wp_runNetwork config fuel hx)
  · intro request y hmakes
    exact hmakes.pre_of_wp (wp_runNetwork config fuel hx)

/-- The interface refuses the handle, which is closed at once. -/
example : (Program.run moduleReply (runNetwork {} 1)
    (List.replicate 47 ({} : NetReply) ++ { code := 7 } :: List.replicate 7 ({} : NetReply)) ⟨{}, {}⟩).map
      (fun result ↦ result.2.1.world.handles) = some [⟨7, 1⟩] := rfl

end Ax88179Aroma.Module
