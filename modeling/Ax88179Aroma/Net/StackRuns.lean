import Ax88179Aroma.Net.Stack

/-!
# The interface keeps lwIP's rules

Every function of the worker's side of `net/ax_net.c` makes its calls by the rules of `stackPre` and
keeps the module's static data in step with lwIP's state, from the first title to the last.
-/

namespace Ax88179Aroma.Net

open Effect Program

/-- What `Live` reads of the static data. -/
def stackView (s : NetState) : ℤ × ℤ × ℤ × ℤ × ℤ × ℕ × UInt32 × UInt32 × UInt32 :=
  (s.initialized, s.active, s.netifInList, s.lastLinkUp, s.currentUsingCachedLease, s.ifaceState,
    s.statRxOk, s.statInOk, s.statInDrop)

def countView (s : NetState) : UInt32 × UInt32 × UInt32 := (s.statRxOk, s.statInOk, s.statInDrop)

theorem Counted.congr {s t : NetState} {received delivered : List (List UInt8)}
    (h : Counted s received delivered) (hview : countView t = countView s) :
    Counted t received delivered := by
  simp only [countView, Prod.mk.injEq] at hview
  obtain ⟨hrx, hin, hdrop⟩ := hview
  exact ⟨hrx.trans h.rxOk, hin.trans h.inOk, hdrop.trans h.inDrop, h.ordered⟩

theorem Mirrored.of_view {s t : NetState} {w : StackWorld} (h : Mirrored s w)
    (hview : stackView t = stackView s) : Mirrored t w := by
  simp only [stackView, Prod.mk.injEq] at hview
  obtain ⟨hinit, -, hlist, hlink, hlease, hstate, hrx, hin, hdrop⟩ := hview
  exact
    { unlocked := h.unlocked
      alive := hinit ▸ h.alive
      inList := hlist ▸ h.inList
      serving := hstate ▸ h.serving
      linkUp := hlink ▸ h.linkUp
      dhcp := hlease ▸ h.dhcp
      noDhcp := h.noDhcp
      empty := h.empty
      counted := h.counted.congr (by simp only [countView, hrx, hin, hdrop]) }

theorem Live.of_view {x : StackMachine} {mem : NetState} (h : Live x)
    (hview : stackView mem = stackView x.mem) : Live ⟨mem, x.world⟩ where
  toMirrored := h.toMirrored.of_view hview
  active := by
    have hactive : mem.active = x.mem.active := congrArg (fun view ↦ view.2.1) hview
    rw [hactive]
    exact h.active

/-- The machine is as before, as far as lwIP's rules are concerned. -/
structure Same (x y : StackMachine) : Prop where
  world_eq : y.world = x.world
  view_eq : stackView y.mem = stackView x.mem

theorem Same.refl (x : StackMachine) : Same x x := ⟨rfl, rfl⟩

theorem Same.trans {x y z : StackMachine} (hxy : Same x y) (hyz : Same y z) : Same x z :=
  ⟨hyz.world_eq.trans hxy.world_eq, hyz.view_eq.trans hxy.view_eq⟩

theorem Same.mirrored {x y : StackMachine} (h : Same x y) (hx : Mirrored x.mem x.world) :
    Mirrored y.mem y.world := by
  rw [h.world_eq]
  exact hx.of_view h.view_eq

theorem Same.live {x y : StackMachine} (h : Same x y) (hx : Live x) : Live y := by
  obtain ⟨mem, world⟩ := y
  obtain rfl := h.world_eq
  exact hx.of_view h.view_eq

/-- The calls that only read while the interface with the handle is listed. -/
def Quiet (ax : ℕ) : NetCall → Prop
  | .osReceiveMessage => True
  | .sysNow => True
  | .ax88179Link handle => handle = ax
  | .ax88179Send handle _ => handle = ax
  | .ax88179LastBulk _ => True
  | .ax88179LastBulkUs _ => True
  | .netifDhcpData => True
  | .netifIsLinkUp => True
  | .netifIp4Addr => True
  | .netifIp4Netmask => True
  | .netifIp4Gw => True
  | .dhcpSuppliedAddress => True
  | _ => False

theorem reply_quiet {ax : ℕ} {request : NetCall} {answer : NetReply} {y z : StackMachine}
    (hquiet : Quiet ax request) (hreply : stackReply request answer y = some z) : z = y := by
  cases request <;> first
    | exact hquiet.elim
    | exact (Option.some.inj hreply).symm
    | skip
  all_goals
    simp only [stackReply] at hreply
    split_ifs at hreply
    exact (Option.some.inj hreply).symm

/-- The interface is listed and uses the handle. -/
structure Running (ax : ℕ) (x : StackMachine) : Prop extends Live x where
  listed : x.world.listed = true
  handle : x.mem.ifaceState = ax

theorem Running.pre {ax : ℕ} {request : NetCall} {x : StackMachine} (h : Running ax x)
    (hquiet : Quiet ax request) : stackPre request x := by
  have hhandle : ax ≠ 0 := h.handle ▸ (h.serving h.listed).2.2
  cases request <;> first
    | exact hquiet.elim
    | exact trivial
    | exact h.unlocked
    | exact h.listed
    | skip
  · exact ⟨h.unlocked, (show _ = ax from hquiet) ▸ hhandle⟩
  · exact ⟨h.unlocked, h.listed, (show _ = ax from hquiet).trans h.handle.symm⟩

theorem Same.running {ax : ℕ} {x y : StackMachine} (h : Same x y) (hx : Running ax x) :
    Running ax y where
  toLive := h.live hx.toLive
  listed := h.world_eq ▸ hx.listed
  handle := by
    have hstate : y.mem.ifaceState = x.mem.ifaceState :=
      congrArg (fun view ↦ view.2.2.2.2.2.1) h.view_eq
    exact hstate.trans hx.handle

section Running

variable {ax : ℕ} {x : StackMachine}

theorem wp_quiet {α : Type} {program : NetM α} (hkeeps : Keeps stackView (Quiet ax) program)
    (hx : Running ax x) : stackWp program (fun _ y ↦ Same x y ∧ Running ax y) x := by
  refine wp_keeps hkeeps ?_ ?_ ?_ ⟨Same.refl x, hx⟩
  · intro y mem hview hy
    have hsame : Same y { y with mem := mem } := ⟨rfl, hview⟩
    exact ⟨hy.1.trans hsame, hsame.running hy.2⟩
  · intro request answer y z hquiet hy hreply
    rw [reply_quiet hquiet hreply]
    exact hy
  · exact fun request y hquiet hy ↦ hy.2.pre hquiet

theorem quiet_readPool (slot count : ℕ) : Keeps stackView (Quiet ax) (readPool slot count) := by
  induction count with
  | zero => trivial
  | succ count ih => exact ih.bind fun before ↦ (keeps_load _).bind fun byte ↦ trivial

theorem quiet_drainTx (send : ℤ) (fuel : ℕ) : Keeps stackView (Quiet ax) (drainTx ax send fuel) := by
  have htransmit : ∀ m, Keeps stackView (Quiet ax) (transmit ax m) := by
    intro m
    refine (quiet_readPool _ _).bind fun frame ↦ ?_
    have hsend : Quiet ax (.ax88179Send ax frame) := rfl
    refine (keeps_perform hsend).bind fun result ↦ ?_
    exact Keeps.ite (keeps_store fun _ ↦ rfl) (keeps_store fun _ ↦ rfl)
  induction fuel with
  | zero => trivial
  | succ fuel ih =>
    refine (keeps_perform trivial).bind fun received ↦ ?_
    cases received.message with
    | none => trivial
    | some m =>
      refine (Keeps.when (htransmit m)).bind fun _ ↦ ?_
      exact Keeps.bind (keeps_store fun _ ↦ rfl) fun _ ↦ ih

theorem quiet_axNetAddress : Keeps stackView (Quiet ax) axNetAddress := by
  have hremember : ∀ ip, Keeps stackView (Quiet ax) (rememberLease ip) := by
    intro ip
    refine (keeps_load _).bind fun fresh ↦ Keeps.ite ?_ trivial
    refine (keeps_perform trivial).bind fun supplied ↦ Keeps.ite ?_ trivial
    refine (keeps_perform trivial).bind fun netmask ↦ (keeps_perform trivial).bind fun gateway ↦ ?_
    exact keeps_store fun _ ↦ rfl
  refine (keeps_load _).bind fun active ↦ Keeps.ite trivial ?_
  refine (keeps_perform trivial).bind fun up ↦ Keeps.ite trivial ?_
  refine (keeps_perform trivial).bind fun answer ↦ Keeps.ite trivial ?_
  exact (hremember _).bind fun _ ↦ trivial

theorem quiet_axNetStatus : Keeps stackView (Quiet ax) axNetStatus := by
  have hinvoke : ∀ request, Quiet ax request → Keeps stackView (Quiet ax) (invoke request) :=
    fun _ hquiet ↦ (keeps_perform hquiet).bind fun _ ↦ trivial
  refine (keeps_load _).bind fun active ↦ Keeps.when ?_
  refine (hinvoke .netifDhcpData trivial).bind fun _ ↦ ?_
  refine (hinvoke .netifIsLinkUp trivial).bind fun _ ↦ (keeps_load _).bind fun handle ↦ ?_
  exact (hinvoke (.ax88179LastBulk _) trivial).bind fun _ ↦ hinvoke (.ax88179LastBulkUs _) trivial

/-- What the running interface reads from `iface.state` is the handle. -/
theorem wp_loadHandle {α : Type} {next : ℕ → NetM α} {post : α → StackMachine → Prop}
    (hx : Running ax x) (hnext : stackWp (next ax) post x) :
    stackWp (load (fun s ↦ s.ifaceState) >>= next) post x := by
  refine (wp_bind _ _ _ _).mpr ((wp_load _ _ _).mpr ?_)
  rw [hx.handle]
  exact hnext

/-! ## Frames -/

/-- The last frame from the adapter is not yet counted. -/
def Pending (ax : ℕ) (frame : List UInt8) (x : StackMachine) : Prop :=
  ∃ before, x.world.received = before ++ [frame] ∧
    Running ax ⟨x.mem, { x.world with received := before }⟩

theorem wp_receiveFrame (timeoutUs : ℤ) (hx : Running ax x) :
    stackWp (receiveFrame timeoutUs)
      (fun received y ↦ if received.1 > 0 then Pending ax received.2 y else Running ax y) x := by
  refine wp_loadHandle hx ((wp_bind _ _ _ _).mpr ?_)
  refine ⟨⟨hx.unlocked, hx.listed, hx.handle.symm, rfl⟩, fun received y hreply ↦ ?_⟩
  simp only [stackReply] at hreply
  split_ifs at hreply with hframe
  · obtain rfl := Option.some.inj hreply
    change if received.code > 0 then _ else _
    rw [if_pos hframe]
    exact ⟨_, rfl, hx⟩
  · obtain rfl := Option.some.inj hreply
    change if received.code > 0 then _ else _
    rw [if_neg hframe]
    exact hx

/-- A frame that was dropped. -/
theorem Counted.drop {s t : NetState} {before delivered : List (List UInt8)} {frame : List UInt8}
    (h : Counted s before delivered) (hrx : t.statRxOk = s.statRxOk + 1)
    (hin : t.statInOk = s.statInOk) (hdrop : t.statInDrop = s.statInDrop + 1) :
    Counted t (before ++ [frame]) delivered where
  rxOk := by
    rw [hrx, h.rxOk, List.length_append, List.length_singleton, UInt32.ofNat_add]
    rfl
  inOk := hin.trans h.inOk
  inDrop := by
    have hle := h.ordered.length_le
    rw [hdrop, h.inDrop, List.length_append, List.length_singleton, Nat.sub_add_comm hle,
      UInt32.ofNat_add]
    rfl
  ordered := h.ordered.trans (List.sublist_append_left before [frame])

/-- A frame that lwIP took. -/
theorem Counted.deliver {s t : NetState} {before delivered : List (List UInt8)}
    {frame : List UInt8} (h : Counted s before delivered) (hrx : t.statRxOk = s.statRxOk + 1)
    (hin : t.statInOk = s.statInOk + 1) (hdrop : t.statInDrop = s.statInDrop) :
    Counted t (before ++ [frame]) (delivered ++ [frame]) where
  rxOk := by
    rw [hrx, h.rxOk, List.length_append, List.length_singleton, UInt32.ofNat_add]
    rfl
  inOk := by
    rw [hin, h.inOk, List.length_append, List.length_singleton, UInt32.ofNat_add]
    rfl
  inDrop := by
    rw [hdrop, h.inDrop, List.length_append, List.length_append, List.length_singleton,
      Nat.add_sub_add_right]
  ordered := h.ordered.append (List.Sublist.refl [frame])

/-- New counters for a new frame. -/
theorem Running.recount {s : NetState} {w : StackWorld} {before delivered : List (List UInt8)}
    {rx ok drop : UInt32} (h : Running ax ⟨s, { w with received := before }⟩)
    (hcounted : Counted { s with statRxOk := rx, statInOk := ok, statInDrop := drop } w.received
      delivered) :
    Running ax ⟨{ s with statRxOk := rx, statInOk := ok, statInDrop := drop },
      { w with pbuf := none, delivered := delivered }⟩ where
  unlocked := h.unlocked
  alive := h.alive
  inList := h.inList
  serving := h.serving
  linkUp := h.linkUp
  dhcp := h.dhcp
  noDhcp := h.noDhcp
  empty := rfl
  counted := hcounted
  active := h.active
  listed := h.listed
  handle := h.handle

/-- Every frame is delivered with its own bytes, or dropped and its packet buffer freed. -/
theorem wp_inputRxFrame {frame : List UInt8} (hx : Pending ax frame x) :
    stackWp (inputRxFrame frame) (fun _ ↦ Running ax) x := by
  obtain ⟨mem, world⟩ := x
  obtain ⟨before, hreceived, hrunning⟩ := hx
  dsimp only at hreceived hrunning
  have hlast : world.received.getLast? = some frame := by
    rw [hreceived]
    exact List.getLast?_concat
  have hdropped : Running ax ⟨{ mem with
      statRxOk := mem.statRxOk + 1, statInDrop := mem.statInDrop + 1 },
      { world with pbuf := none }⟩ := by
    refine hrunning.recount ?_
    rw [hreceived]
    exact hrunning.counted.drop rfl rfl rfl
  have htaken : Running ax ⟨{ mem with
      statRxOk := mem.statRxOk + 1, statInOk := mem.statInOk + 1 },
      { world with pbuf := none, delivered := world.delivered ++ [frame] }⟩ := by
    refine hrunning.recount ?_
    rw [hreceived]
    exact hrunning.counted.deliver rfl rfl rfl
  have hserving := hrunning.serving hrunning.listed
  refine (wp_bind _ _ _ _).mpr ((wp_store _ _ _).mpr ((wp_bind _ _ _ _).mpr ?_))
  refine ⟨⟨hrunning.unlocked, hserving.1, hrunning.empty, by rw [hlast]; rfl⟩, fun p y hreply ↦ ?_⟩
  simp only [stackReply] at hreply
  split_ifs at hreply with hnull
  · obtain rfl := Option.some.inj hreply
    have hempty : { world with pbuf := none } = world := by rw [← hrunning.empty]
    rw [hempty] at hdropped
    refine wp_cases (fun _ ↦ hdropped) fun hp ↦ absurd hnull hp
  obtain rfl := Option.some.inj hreply
  refine wp_cases (fun hp ↦ absurd hp hnull) fun _ ↦ (wp_bind _ _ _ _).mpr ((wp_bind _ _ _ _).mpr ?_)
  refine ⟨⟨⟨[], rfl⟩, hlast⟩, fun taken y hreply ↦ ?_⟩
  simp only [stackReply] at hreply
  split_ifs at hreply with htook
  swap
  · obtain rfl := Option.some.inj hreply
    refine wp_cases (fun _ ↦ ?_) fun hok ↦ absurd htook hok
    refine (wp_bind _ _ _ _).mpr ((wp_store _ _ _).mpr ?_)
    refine ⟨⟨[], rfl⟩, fun _ y hreply ↦ ?_⟩
    obtain rfl := Option.some.inj hreply
    exact hdropped
  obtain rfl := Option.some.inj hreply
  refine wp_cases (fun hbad ↦ absurd htook hbad) fun _ ↦ (wp_bind _ _ _ _).mpr ?_
  refine ⟨⟨hrunning.unlocked, hserving.1, hrunning.listed, frame, rfl, hlast⟩, fun input y hreply ↦ ?_⟩
  simp only [stackReply] at hreply
  split_ifs at hreply with haccepted
  · obtain rfl := Option.some.inj hreply
    refine wp_cases (fun hrefused ↦ ?_) fun _ ↦ htaken
    exact absurd haccepted (of_decide_eq_true hrefused)
  · obtain rfl := Option.some.inj hreply
    refine wp_cases (fun _ ↦ ?_) fun hfine ↦ absurd (decide_eq_true haccepted) hfine
    refine (wp_bind _ _ _ _).mpr ((wp_store _ _ _).mpr ?_)
    refine ⟨⟨frame, rfl⟩, fun _ y hreply ↦ ?_⟩
    obtain rfl := Option.some.inj hreply
    exact hdropped

/-- A store to what the rules do not read. -/
theorem Running.store {mem : NetState} (hx : Running ax x)
    (hview : stackView mem = stackView x.mem) : Running ax ⟨mem, x.world⟩ :=
  (show Same x ⟨mem, x.world⟩ from ⟨rfl, hview⟩).running hx

theorem wp_harvest (fuel : ℕ) (hx : Running ax x) :
    stackWp (harvest fuel) (fun _ ↦ Running ax) x := by
  induction fuel generalizing x with
  | zero => trivial
  | succ fuel ih =>
    refine wp_seq (wp_receiveFrame 0 hx) fun more y hy ↦ wp_cases (fun hframe ↦ ?_) fun hnone ↦ ?_
    · rw [if_pos hframe] at hy
      exact wp_seq (wp_inputRxFrame hy) fun _ z hz ↦ ih hz
    · rw [if_neg hnone] at hy
      exact wp_cases (fun _ ↦ hy.store rfl) fun _ ↦ hy

theorem wp_inputReceived {received : ℤ × List UInt8} (fuel : ℕ)
    (hx : if received.1 > 0 then Pending ax received.2 x else Running ax x) :
    stackWp (inputReceived received fuel) (fun _ ↦ Running ax) x := by
  refine wp_cases (fun hframe ↦ ?_) fun hnone ↦ ?_
  · rw [if_pos hframe] at hx
    exact wp_seq (wp_inputRxFrame hx) fun _ z hz ↦ wp_harvest fuel hz
  · rw [if_neg hnone] at hx
    exact wp_cases (fun _ ↦ hx.store rfl) fun _ ↦ hx.store rfl

theorem wp_pollFrames (fuel : ℕ) (hx : Running ax x) :
    stackWp (pollFrames fuel) (fun _ ↦ Running ax) x := by
  refine wp_loadHandle hx (wp_seq (wp_quiet (quiet_drainTx 1 fuel) hx) fun _ y hy ↦ ?_)
  refine wp_seq (wp_receiveFrame 5000 hy.2) fun received y hy ↦ ?_
  refine wp_seq (wp_inputReceived fuel hy) fun _ y hy ↦ wp_loadHandle hy ?_
  exact wp_seq (wp_quiet (quiet_drainTx 1 fuel) hy) fun _ z hz ↦ hz.2

/-! ## The link -/

/-- lwIP's link flag and the module's copy change together. -/
theorem wp_followLink (up : ℤ) (hx : Running ax x) :
    stackWp (do
      setLink up
      store fun s ↦ { s with lastLinkUp := up }) (fun _ ↦ Running ax) x := by
  obtain ⟨mem, world⟩ := x
  have hserving := hx.serving hx.listed
  have hfollowed : ∀ linkUp : Bool, (up ≠ 0 ↔ linkUp = true) →
      Running ax ⟨{ mem with lastLinkUp := up }, { world with locked := false, linkUp := linkUp }⟩ :=
    fun linkUp hlink ↦
      { hx with
        unlocked := rfl
        linkUp := fun _ ↦ hlink
        counted := hx.counted.congr rfl }
  refine (wp_bind _ _ _ _).mpr ((wp_bind _ _ _ _).mpr ((wp_bind _ _ _ _).mpr ?_))
  refine ⟨⟨hx.unlocked, hserving.1⟩, fun _ y hreply ↦ ?_⟩
  obtain rfl := Option.some.inj hreply
  refine (wp_bind _ _ _ _).mpr ((wp_bind _ _ _ _).mpr ?_)
  by_cases hup : up ≠ 0
  · rw [if_pos hup]
    refine ⟨⟨rfl, hx.listed⟩, fun _ y hreply ↦ ?_⟩
    obtain rfl := Option.some.inj hreply
    refine ⟨rfl, fun _ y hreply ↦ ?_⟩
    obtain rfl := Option.some.inj hreply
    exact hfollowed true (iff_of_true hup rfl)
  · rw [if_neg hup]
    refine ⟨⟨rfl, hx.listed⟩, fun _ y hreply ↦ ?_⟩
    obtain rfl := Option.some.inj hreply
    refine ⟨rfl, fun _ y hreply ↦ ?_⟩
    obtain rfl := Option.some.inj hreply
    exact hfollowed false (iff_of_false hup (by decide))

theorem wp_linkLost (hx : Running ax x) : stackWp linkLost (fun _ ↦ Running ax) x := by
  refine (wp_bind _ _ _ _).mpr ((wp_load _ _ _).mpr ?_)
  have hfollow : stackWp (when (x.mem.lastLinkUp ≠ 0) do
      setLink 0
      store fun s ↦ { s with lastLinkUp := 0 }) (fun _ ↦ Running ax) x :=
    wp_cases (fun _ ↦ wp_followLink 0 hx) fun _ ↦ hx
  exact wp_seq hfollow fun _ z hz ↦ hz

theorem wp_pollLink (now : UInt32) (hx : Running ax x) :
    stackWp (pollLink now) (fun _ ↦ Running ax) x := by
  refine wp_loadHandle hx ((wp_bind _ _ _ _).mpr ?_)
  refine ⟨hx.pre (show Quiet ax (.ax88179Link ax) from rfl), fun up y hreply ↦ ?_⟩
  obtain rfl := Option.some.inj hreply
  refine (wp_bind _ _ _ _).mpr ((wp_store _ _ _).mpr ?_)
  have hmarked : Running ax ⟨{ x.mem with lastLink := now }, x.world⟩ := hx.store rfl
  refine (wp_bind _ _ _ _).mpr ((wp_load _ _ _).mpr ?_)
  have hfollow : stackWp (when (up.code ≥ 0 ∧ up.code ≠ x.mem.lastLinkUp) do
      setLink up.code
      store fun s ↦ { s with lastLinkUp := up.code }) (fun _ ↦ Running ax)
      ⟨{ x.mem with lastLink := now }, x.world⟩ :=
    wp_cases (fun _ ↦ wp_followLink up.code hmarked) fun _ ↦ hmarked
  refine wp_seq hfollow fun _ z hz ↦ ?_
  refine (wp_bind _ _ _ _).mpr ((wp_access _ _ _).mpr ?_)
  exact wp_cases (fun _ ↦ wp_linkLost (hz.store rfl)) fun _ ↦ hz.store rfl

/-- A live machine whose interface is active runs with its handle. -/
theorem Live.running (hx : Live x) (hactive : x.mem.active ≠ 0) : Running x.mem.ifaceState x :=
  { hx with
    listed := hx.active.mp hactive
    handle := rfl }

/-- A function that begins with the test of `active` runs on an active interface only. -/
theorem wp_ifActive {α : Type} {idle : NetM α} {next : NetM α} {post : α → StackMachine → Prop}
    (hidle : x.mem.active = 0 → stackWp idle post x)
    (hnext : x.mem.active ≠ 0 → stackWp next post x) :
    stackWp (do
      let active ← load NetState.active
      if active = 0 then idle else next) post x :=
  (wp_bind _ _ _ _).mpr ((wp_load _ _ _).mpr (wp_cases hidle hnext))

theorem wp_axNetPoll (fuel : ℕ) (hx : Live x) : stackWp (axNetPoll fuel) (fun _ ↦ Live) x := by
  refine wp_ifActive (fun _ ↦ hx) fun hactive ↦ ?_
  have hrunning := hx.running hactive
  refine (wp_bind _ _ _ _).mpr ⟨trivial, fun now y hreply ↦ ?_⟩
  obtain rfl := Option.some.inj hreply
  have hlink : stackWp (pollLinkIfDue (UInt32.ofInt now.code))
      (fun _ ↦ Running x.mem.ifaceState) x :=
    (wp_bind _ _ _ _).mpr ((wp_load _ _ _).mpr
      (wp_cases (fun _ ↦ wp_pollLink _ hrunning) fun _ ↦ hrunning))
  refine wp_seq hlink fun lost y hy ↦ ?_
  cases lost with
  | true => exact hy.toLive
  | false => exact wp_mono (wp_pollFrames fuel hy) fun _ _ hz ↦ hz.toLive

theorem wp_axNetAddress (hx : Live x) : stackWp axNetAddress (fun _ ↦ Same x) x := by
  by_cases hactive : x.mem.active = 0
  · exact wp_ifActive (fun _ ↦ Same.refl x) fun hne ↦ absurd hactive hne
  · exact wp_mono (wp_quiet quiet_axNetAddress (hx.running hactive)) fun _ _ hy ↦ hy.1

theorem wp_axNetStatus (hx : Live x) : stackWp axNetStatus (fun _ ↦ Same x) x := by
  by_cases hactive : x.mem.active = 0
  · refine (wp_bind _ _ _ _).mpr ((wp_load _ _ _).mpr ?_)
    exact wp_cases (fun hne ↦ absurd hactive hne) fun _ ↦ Same.refl x
  · exact wp_mono (wp_quiet quiet_axNetStatus (hx.running hactive)) fun _ _ hy ↦ hy.1

/-! ## Start and stop -/

/-- The ends of `setup_netif`: the interface is listed and up, with the DHCP client or the cached
lease; `netif_add` refused it; or DHCP could not be started and the interface is removed again. -/
inductive SetUp (ax : ℕ) (linkUp restoreLease : Bool) (mem : NetState) (world : StackWorld) :
    ℤ → StackMachine → Prop
  | listed : SetUp ax linkUp restoreLease mem world errOk
      ⟨{ mem with netifInList := 1, ifaceState := ax },
        { world with
          listed := true, isUp := true, linkUp := linkUp
          dhcp := if restoreLease then world.dhcp else .running }⟩
  | refused : SetUp ax linkUp restoreLease mem world errIf ⟨{ mem with ifaceState := ax }, world⟩
  | noDhcp : SetUp ax linkUp restoreLease mem world errIf
      ⟨{ mem with netifInList := 0, ifaceState := ax },
        { world with listed := false, isUp := true, linkUp := linkUp, dhcp := .absent }⟩

theorem wp_invoke {request : NetCall} {post : Unit → StackMachine → Prop} {y : StackMachine}
    (hpre : stackPre request y)
    (hpost : ∀ answer z, stackReply request answer y = some z → post () z) :
    stackWp (invoke request) post y :=
  (wp_bind _ _ _ _).mpr ⟨hpre, hpost⟩

/-- A call with one possible effect. -/
theorem wp_invokeThen {α : Type} {request : NetCall} {next : NetM α}
    {post : α → StackMachine → Prop} {y z : StackMachine} (hpre : stackPre request y)
    (hreply : ∀ answer, stackReply request answer y = some z) (hnext : stackWp next post z) :
    stackWp (invoke request >>= fun _ ↦ next) post y := by
  refine (wp_bind _ _ _ _).mpr (wp_invoke hpre fun answer z' hz' ↦ ?_)
  obtain rfl := Option.some.inj ((hreply answer).symm.trans hz')
  exact hnext

theorem wp_setupNetif {mem : NetState} {world : StackWorld} (linkUp restoreLease : Bool)
    (hlocked : world.locked = true) (hlisted : world.listed = false) (hdhcp : world.dhcp = .absent)
    (hinList : mem.netifInList = 0) (hax : ax ≠ 0) :
    stackWp (setupNetif ax linkUp restoreLease) (SetUp ax linkUp restoreLease mem world)
      ⟨mem, world⟩ := by
  have hleftover : stackWp removeLeftover (fun _ y ↦ y = ⟨mem, world⟩) ⟨mem, world⟩ :=
    (wp_bind _ _ _ _).mpr ((wp_load _ _ _).mpr
      (wp_cases (fun hne ↦ absurd hinList hne) fun _ ↦ rfl))
  refine wp_seq hleftover fun _ y hy ↦ ?_
  subst hy
  refine (wp_bind _ _ _ _).mpr ((wp_store _ _ _).mpr ((wp_bind _ _ _ _).mpr ?_))
  refine ⟨⟨hlocked, hlisted, hdhcp, hax⟩, fun added y hreply ↦ ?_⟩
  obtain rfl := Option.some.inj hreply
  refine wp_cases (fun hrefused ↦ ?_) fun hadded ↦ ?_
  · rw [if_pos hrefused]
    exact .refused
  rw [if_neg hadded]
  refine (wp_bind _ _ _ _).mpr ((wp_store _ _ _).mpr ?_)
  refine wp_invokeThen ⟨hlocked, rfl⟩ (fun _ ↦ rfl) ?_
  refine wp_invokeThen ⟨hlocked, rfl⟩ (fun _ ↦ rfl) ?_
  have hlink : stackWp (when (linkUp = true) (invoke .netifSetLinkUp))
      (fun _ y ↦ y = ⟨{ mem with netifInList := 1, ifaceState := ax },
        { world with listed := true, isUp := true, linkUp := linkUp }⟩)
      ⟨{ mem with netifInList := 1, ifaceState := ax },
        { world with listed := true, isUp := true, linkUp := false }⟩ := by
    cases linkUp with
    | false => exact wp_cases (fun h ↦ absurd h (by decide)) fun _ ↦ rfl
    | true =>
      refine wp_cases (fun _ ↦ wp_invoke ⟨hlocked, rfl⟩ fun _ y hreply ↦ ?_) fun h ↦ absurd rfl h
      exact (Option.some.inj hreply).symm
  refine wp_seq hlink fun _ y hy ↦ ?_
  subst hy
  cases restoreLease with
  | true =>
    refine (wp_bind _ _ _ _).mpr ((wp_bind _ _ _ _).mpr ((wp_load _ _ _).mpr ?_))
    refine wp_invokeThen ⟨⟨hlocked, rfl⟩, hdhcp⟩ (fun _ ↦ rfl) ?_
    exact wp_invokeThen ⟨hlocked, rfl⟩ (fun _ ↦ rfl) .listed
  | false =>
    refine (wp_bind _ _ _ _).mpr ((wp_bind _ _ _ _).mpr ?_)
    refine ⟨⟨⟨hlocked, rfl⟩, rfl, hdhcp⟩, fun started y hreply ↦ ?_⟩
    obtain rfl := Option.some.inj hreply
    refine wp_cases (fun hfailed ↦ ?_) fun hstarted ↦ ?_
    · rw [if_neg hfailed]
      refine wp_invokeThen ⟨⟨hlocked, rfl⟩, .inr rfl⟩ (fun _ ↦ rfl) ?_
      refine wp_invokeThen ⟨⟨hlocked, rfl⟩, rfl⟩ (fun _ ↦ rfl) ?_
      exact (wp_bind _ _ _ _).mpr ((wp_store _ _ _).mpr .noDhcp)
    · rw [if_pos (not_not.mp hstarted)]
      exact wp_invokeThen ⟨hlocked, rfl⟩ (fun _ ↦ rfl) .listed

/-- An inactive interface is out of lwIP's list. -/
theorem Live.unlisted (hx : Live x) (hactive : x.mem.active = 0) : x.world.listed = false := by
  rw [← Bool.not_eq_true, ← hx.active]
  exact not_not.mpr hactive

/-- A machine with the stack up and the interface inactive. -/
structure Idle (x : StackMachine) : Prop extends Live x where
  inactive : x.mem.active = 0
  stackUp : x.world.alive = true

/-- `initStack` brings the stack up once. -/
theorem wp_initStack (hx : Live x) (hactive : x.mem.active = 0) :
    stackWp (when (x.mem.initialized = 0) initStack) (fun _ ↦ Idle) x := by
  refine wp_cases (fun hinit ↦ ?_) fun hinit ↦ ?_
  · have hdead : x.world.alive = false := by
      rw [← Bool.not_eq_true, ← hx.alive]
      exact not_not.mpr hinit
    have hunlisted := hx.unlisted hactive
    have hclear : stackWp (each (fun slot ↦ store fun s ↦ s.setInUse slot 0) (List.range txSlots))
        (fun _ ↦ Same x) x :=
      wp_each (Same.refl x) fun slot _ y hy ↦ hy.trans ⟨rfl, rfl⟩
    refine wp_seq hclear fun _ y hy ↦ ?_
    have hlive := hy.live hx
    refine (wp_bind _ _ _ _).mpr ((wp_store _ _ _).mpr ?_)
    have hworld := hy.world_eq
    have hlisted : y.world.listed ≠ true := by
      rw [hworld, hunlisted]
      decide
    refine wp_invokeThen ⟨hlive.unlocked, hworld ▸ hdead⟩ (fun _ ↦ rfl) ?_
    exact
      { unlocked := hlive.unlocked
        alive := iff_of_true (by decide : (1 : ℤ) ≠ 0) rfl
        inList := hlive.inList
        serving := fun h ↦ absurd h hlisted
        linkUp := fun h ↦ absurd h hlisted
        dhcp := fun h ↦ absurd h hlisted
        noDhcp := hlive.noDhcp
        empty := hlive.empty
        counted := hlive.counted.congr rfl
        active := hlive.active
        inactive := not_not.mp (mt hlive.active.mp hlisted)
        stackUp := rfl }
  · exact { hx with inactive := hactive, stackUp := hx.alive.mp hinit }

/-- The worker is back without the interface in lwIP's list. -/
theorem Idle.again {mem mem' : NetState} {world world' : StackWorld} (hx : Idle ⟨mem, world⟩)
    (hinit : mem'.initialized = mem.initialized) (hactive : mem'.active = mem.active)
    (hinList : mem'.netifInList = 0) (hcount : countView mem' = countView mem)
    (hunlocked : world'.locked = false) (halive : world'.alive = world.alive)
    (hlisted : world'.listed = false) (hdhcp : world'.dhcp = .absent)
    (hempty : world'.pbuf = world.pbuf) (hreceived : world'.received = world.received)
    (hdelivered : world'.delivered = world.delivered) : Idle ⟨mem', world'⟩ := by
  have hnot : world'.listed ≠ true := by
    rw [hlisted]
    decide
  have hzero : mem'.active = 0 := hactive.trans hx.inactive
  exact
    { unlocked := hunlocked
      alive := by
        rw [hinit, halive]
        exact hx.alive
      inList := iff_of_false (not_not.mpr hinList) hnot
      serving := fun h ↦ absurd h hnot
      linkUp := fun h ↦ absurd h hnot
      dhcp := fun h ↦ absurd h hnot
      noDhcp := fun _ ↦ hdhcp
      empty := hempty.trans hx.empty
      counted := by
        rw [hreceived, hdelivered]
        exact hx.counted.congr hcount
      active := iff_of_false (not_not.mpr hzero) hnot
      inactive := hzero
      stackUp := halive.trans hx.stackUp }

/-- A failed start leaves the interface inactive. -/
def Started (ret : ℤ) (y : StackMachine) : Prop := Live y ∧ (ret ≠ 0 → y.mem.active = 0)

theorem Idle.started {ret : ℤ} {y : StackMachine} (h : Idle y) : Started ret y :=
  ⟨h.toLive, fun _ ↦ h.inactive⟩

theorem wp_startInterface (hx : Idle x) (hax : ax ≠ 0) :
    stackWp (startInterface ax) Started x := by
  obtain ⟨mem, world⟩ := x
  have hunlisted := hx.unlisted hx.inactive
  have hlisted : world.listed ≠ true := by
    rw [hunlisted]
    decide
  have hinList : mem.netifInList = 0 := not_not.mp (mt hx.inList.mp hlisted)
  have hdhcp := hx.noDhcp hunlisted
  have hup : world.alive = true := hx.stackUp
  obtain ⟨lease, hlease⟩ : ∃ lease, lease = mem.restoreLease := ⟨_, rfl⟩
  refine (wp_bind _ _ _ _).mpr ((wp_load _ _ _).mpr ((wp_bind _ _ _ _).mpr ?_))
  refine (wp_store _ _ _).mpr ((wp_bind _ _ _ _).mpr ⟨⟨hx.unlocked, hax⟩, fun link y hreply ↦ ?_⟩)
  obtain rfl := Option.some.inj hreply
  dsimp only
  rw [← hlease]
  refine wp_invokeThen ⟨hx.unlocked, hup⟩ (fun _ ↦ rfl) ?_
  refine wp_seq (wp_setupNetif _ lease rfl hunlisted hdhcp hinList hax) fun err y hsetUp ↦ ?_
  cases hsetUp with
  | refused =>
    refine wp_invokeThen rfl (fun _ ↦ rfl) (wp_cases (fun _ ↦ ?_) fun h ↦ absurd (by decide) h)
    exact Idle.started (hx.again rfl rfl hinList rfl rfl rfl hunlisted hdhcp rfl rfl rfl)
  | noDhcp =>
    refine wp_invokeThen rfl (fun _ ↦ rfl) (wp_cases (fun _ ↦ ?_) fun h ↦ absurd (by decide) h)
    exact Idle.started (hx.again rfl rfl rfl rfl rfl rfl rfl rfl rfl rfl rfl)
  | listed =>
    refine wp_invokeThen rfl (fun _ ↦ rfl) (wp_cases (fun h ↦ absurd rfl h) fun _ ↦ ?_)
    refine (wp_bind _ _ _ _).mpr ⟨trivial, fun now y hreply ↦ ?_⟩
    obtain rfl := Option.some.inj hreply
    refine (wp_bind _ _ _ _).mpr ((wp_store _ _ _).mpr ⟨?_, fun h ↦ absurd rfl h⟩)
    exact
      { unlocked := rfl
        alive := hx.alive
        inList := iff_of_true (by decide : (1 : ℤ) ≠ 0) rfl
        serving := fun _ ↦ ⟨hup, rfl, hax⟩
        linkUp := fun _ ↦ by simp
        dhcp := fun _ ↦ by
          change (if lease = true then world.dhcp else .running) =
            if (if lease = true then (1 : ℤ) else 0) = 0 then .running else .absent
          cases lease with
          | false => rfl
          | true => exact hdhcp
        noDhcp := nofun
        empty := hx.empty
        counted := hx.counted.congr rfl
        active := iff_of_true (by decide : (1 : ℤ) ≠ 0) rfl }

theorem wp_axNetStart (hx : Live x) : stackWp (axNetStart ax) (fun ret y ↦
    Live y ∧ (x.mem.active = 0 → ret ≠ 0 → y.mem.active = 0)) x := by
  refine (wp_bind _ _ _ _).mpr ((wp_load _ _ _).mpr (wp_cases (fun _ ↦ ?_) fun hfree ↦ ?_))
  · exact ⟨hx, fun hactive _ ↦ hactive⟩
  obtain ⟨hactive, hax⟩ := not_or.mp hfree
  refine (wp_bind _ _ _ _).mpr ((wp_load _ _ _).mpr ?_)
  refine wp_seq (wp_initStack hx (not_not.mp hactive)) fun _ y hy ↦ ?_
  exact wp_mono (wp_startInterface hy hax) fun ret z hz ↦ ⟨hz.1, fun _ ↦ hz.2⟩

/-- `stopNetif` takes the interface out of lwIP's list, its DHCP client first. -/
theorem wp_stopNetif {mem : NetState} {world : StackWorld} (hlocked : world.locked = true)
    (hlisted : world.listed = true) (hdhcp : world.dhcp = .running ∨ world.dhcp = .absent) :
    stackWp stopNetif (fun _ y ↦ y = ⟨{ mem with netifInList := 0 },
      { world with listed := false, isUp := false, dhcp := .absent }⟩) ⟨mem, world⟩ := by
  refine (wp_bind _ _ _ _).mpr ⟨hlisted, fun data y hreply ↦ ?_⟩
  simp only [stackReply] at hreply
  split_ifs at hreply with hdata
  obtain rfl := Option.some.inj hreply
  have htells : data.code ≠ 0 ↔ world.dhcp ≠ .absent := by
    refine hdata.resolve_left fun hfailed ↦ ?_
    obtain hrunning | habsent := hdhcp
    · cases hrunning.symm.trans hfailed
    · cases habsent.symm.trans hfailed
  have hclient : stackWp (when (data.code ≠ 0) stopDhcp)
      (fun _ y ↦ y = ⟨mem, { world with dhcp := .absent }⟩) ⟨mem, world⟩ := by
    refine wp_cases (fun hattached ↦ ?_) fun hnone ↦ ?_
    · have hrunning : world.dhcp = .running := hdhcp.resolve_right (htells.mp hattached)
      have hcleanup : stackWp (invoke .dhcpCleanup)
          (fun _ y ↦ y = ⟨mem, { world with dhcp := .absent }⟩)
          ⟨mem, { world with dhcp := .stopped }⟩ :=
        wp_invoke ⟨⟨hlocked, hlisted⟩, .inl rfl⟩ fun _ _ hreply ↦ (Option.some.inj hreply).symm
      refine (wp_bind _ _ _ _).mpr ((wp_load _ _ _).mpr ?_)
      cases mem.restoreLease with
      | true => exact wp_invokeThen ⟨⟨hlocked, hlisted⟩, hrunning⟩ (fun _ ↦ rfl) hcleanup
      | false => exact wp_invokeThen ⟨⟨hlocked, hlisted⟩, hrunning⟩ (fun _ ↦ rfl) hcleanup
    · have habsent : world.dhcp = .absent := not_not.mp (mt htells.mpr hnone)
      change (⟨mem, world⟩ : StackMachine) = _
      rw [← habsent]
  refine wp_seq hclient fun _ y hy ↦ ?_
  subst hy
  refine wp_invokeThen ⟨hlocked, hlisted⟩ (fun _ ↦ rfl) ?_
  refine wp_invokeThen ⟨⟨hlocked, hlisted⟩, rfl⟩ (fun _ ↦ rfl) ?_
  exact (wp_store _ _ _).mpr rfl

/-- Once the interface is out of the list, the worker only empties the queue. -/
theorem wp_discardTx (hunlocked : x.world.locked = false) (handle fuel : ℕ) :
    stackWp (drainTx handle 0 fuel) (fun _ ↦ Same x) x := by
  induction fuel generalizing x with
  | zero => trivial
  | succ fuel ih =>
    refine (wp_bind _ _ _ _).mpr ((wp_perform _ _ _).mpr ⟨hunlocked, fun received y hreply ↦ ?_⟩)
    obtain rfl := Option.some.inj hreply
    cases received.message with
    | none => exact Same.refl x
    | some m =>
      refine (wp_bind _ _ _ _).mpr (wp_cases (fun h ↦ absurd rfl h) fun _ ↦ ?_)
      refine (wp_bind _ _ _ _).mpr ((wp_store _ _ _).mpr ?_)
      have hretired : Same x ⟨x.mem.retire m.message, x.world⟩ := ⟨rfl, rfl⟩
      exact wp_mono (ih hunlocked) fun _ z hz ↦ hretired.trans hz

theorem wp_axNetStop (fuel : ℕ) (hx : Live x) :
    stackWp (axNetStop fuel) (fun _ y ↦ Live y ∧ y.mem.active = 0) x := by
  refine wp_ifActive (fun hactive ↦ ⟨hx, hactive⟩) fun hactive ↦ ?_
  obtain ⟨mem, world⟩ := x
  have hrunning := hx.running hactive
  have hlisted := hrunning.listed
  have hserving := hx.serving hlisted
  have hphase : world.dhcp = .running ∨ world.dhcp = .absent := by
    rw [hx.dhcp hlisted]
    split
    · exact .inl rfl
    · exact .inr rfl
  refine wp_invokeThen ⟨hx.unlocked, hserving.1⟩ (fun _ ↦ rfl) ?_
  refine wp_seq (wp_stopNetif rfl hlisted hphase) fun _ y hy ↦ ?_
  subst hy
  refine wp_invokeThen rfl (fun _ ↦ rfl) ((wp_bind _ _ _ _).mpr ((wp_load _ _ _).mpr ?_))
  refine wp_seq (wp_discardTx rfl _ fuel) fun _ y hy ↦ (wp_store _ _ _).mpr ?_
  have hstopped : Mirrored { mem with netifInList := 0 }
      { world with listed := false, isUp := false, dhcp := .absent, locked := false } :=
    { unlocked := rfl
      alive := hx.alive
      inList := iff_of_false (not_not.mpr rfl) Bool.false_ne_true
      serving := nofun
      linkUp := nofun
      dhcp := nofun
      noDhcp := fun _ ↦ rfl
      empty := hx.empty
      counted := hx.counted.congr rfl }
  have hmirrored := hy.mirrored hstopped
  have hlast : y.world.listed ≠ true := by
    rw [hy.world_eq]
    exact Bool.false_ne_true
  exact ⟨{ hmirrored with
    counted := hmirrored.counted.congr rfl
    active := iff_of_false (not_not.mpr rfl) hlast }, rfl⟩

/-! ## Between titles -/

/-- After `ax_net_forget` nothing of the previous title is left. -/
theorem wp_axNetForget (hx : Stale x) :
    stackWp axNetForget (fun _ y ↦ Live y ∧ y.mem.active = 0) x := by
  refine wp_invokeThen ⟨hx.unlocked, hx.dead⟩ (fun _ ↦ rfl) ((wp_store _ _ _).mpr ⟨?_, rfl⟩)
  exact
    { unlocked := rfl
      alive := iff_of_false (not_not.mpr rfl) Bool.false_ne_true
      inList := iff_of_false (not_not.mpr rfl) Bool.false_ne_true
      serving := nofun
      linkUp := nofun
      dhcp := nofun
      noDhcp := fun _ ↦ rfl
      empty := rfl
      counted := ⟨rfl, rfl, rfl, List.Sublist.refl []⟩
      active := iff_of_false (not_not.mpr rfl) Bool.false_ne_true }

/-- `ax_net_abandon_title` asks the stack thread to end and leaves lwIP's statics to
`ax_net_forget`. -/
theorem wp_axNetAbandonTitle (hx : Live x) : stackWp axNetAbandonTitle (fun _ ↦ Abandoned) x := by
  refine (wp_bind _ _ _ _).mpr ((wp_load _ _ _).mpr ?_)
  dsimp only
  refine wp_cases (fun hinit ↦ ?_) fun hinit ↦ ?_
  · refine (wp_bind _ _ _ _).mpr ⟨⟨hx.unlocked, hx.alive.mp hinit⟩, fun _ y hreply ↦ ?_⟩
    obtain rfl := Option.some.inj hreply
    exact ⟨⟨hx.unlocked, id⟩, rfl, rfl, rfl⟩
  · have hdead : x.world.alive = false := by
      rw [← Bool.not_eq_true, ← hx.alive]
      exact hinit
    have hended : Departed x := Stale.departed ⟨hx.unlocked, hdead⟩
    exact ⟨⟨hended.unlocked, hended.gone⟩, rfl, rfl, rfl⟩

theorem keeps_axNetSetSessionLeaseMode (enabled : ℤ) :
    Keeps stackView (fun _ ↦ False) (axNetSetSessionLeaseMode enabled) :=
  Keeps.bind (keeps_store fun _ ↦ rfl) fun _ ↦ Keeps.when (keeps_store fun _ ↦ rfl)

theorem wp_axNetSetSessionLeaseMode (enabled : ℤ) :
    stackWp (axNetSetSessionLeaseMode enabled) (fun _ ↦ Same x) x :=
  wp_keeps (keeps_axNetSetSessionLeaseMode enabled)
    (fun _ _ hview hy ↦ hy.trans ⟨rfl, hview⟩) (fun _ _ _ _ h ↦ h.elim) (fun _ _ h ↦ h.elim)
    (Same.refl x)

end Running

end Ax88179Aroma.Net
