import Ax88179Aroma.Driver.Open

/-!
# Clients, interfaces and endpoints in balance

UHS keeps a record of each client that was opened: how often it was closed, the interface it holds
and the endpoints it enabled there.  Every result of every call is possible; a close, a release and a
disable count when they are requested, since the driver has no other way back.  A call is proper when
it keeps the order of the protocol, so runs of `ax88179_open` and `ax88179_close` are balanced when
all their calls are proper and every record but that of a live handle is settled in between.
-/

namespace Ax88179Aroma.Driver.Balance

open Effect Program

/-- A client that `UhsClientOpen` opened. -/
structure Client where
  closes : ℕ := 0
  interface : Option ℕ := none
  enabled : ℕ := 0
  deriving DecidableEq, Repr

/-- Closed once, with nothing left behind. -/
def Client.settled : Client := { closes := 1 }

/-- The clients, newest first. -/
structure Host where
  clients : List Client := []
  deriving DecidableEq, Repr

namespace Host

/-- The driver's handle is that of the newest client. -/
def update (host : Host) (change : Client → Client) : Host :=
  match host.clients with
  | [] => host
  | client :: rest => ⟨change client :: rest⟩

/-- The newest client is open, and satisfies a condition. -/
def Current (host : Host) (condition : Client → Prop) : Prop :=
  ∃ client rest, host.clients = client :: rest ∧ client.closes = 0 ∧ condition client

end Host

abbrev HostMachine := Machine DriverState Host

/-- What a call with its result does to the records. -/
def hostStep : HandleCall → UhsReply → Host → Host
  | .uhsClientOpen, answer, host => if answer.code < 0 then host else ⟨{} :: host.clients⟩
  | .uhsClientClose, _, host => host.update fun client ↦ { client with closes := client.closes + 1 }
  | .uhsAcquireInterface ifHandle, answer, host =>
    if answer.code < 0 then host
    else host.update fun client ↦ { client with interface := some ifHandle }
  | .uhsReleaseInterface _, _, host => host.update fun client ↦ { client with interface := none }
  | .uhsAdministerEndpoint _ .enable mask _ _, answer, host =>
    if answer.code < 0 then host
    else host.update fun client ↦ { client with enabled := client.enabled ||| mask }
  | .uhsAdministerEndpoint _ .disable mask _ _, _, host =>
    host.update fun client ↦ { client with enabled := client.enabled ^^^ (client.enabled &&& mask) }
  | _, _, host => host

def hostReply : Replies DriverState Host UhsCall UhsReply
  | .handle request, answer, x => some { x with world := hostStep request answer x.world }
  | _, _, x => some x

/-- A client is opened only when all others are settled, an interface is acquired once at a time and
released without enabled endpoints, and a client is closed without an interface. -/
def Proper : UhsCall → HostMachine → Prop
  | .handle .uhsClientOpen, x => ∀ client ∈ x.world.clients, client = .settled
  | .handle .uhsClientClose, x =>
    x.world.Current fun client ↦ client.interface = none ∧ client.enabled = 0
  | .handle (.uhsQueryInterfaces _ _), x => x.world.Current fun _ ↦ True
  | .handle (.uhsAcquireInterface _), x => x.world.Current fun client ↦ client.interface = none
  | .handle (.uhsReleaseInterface ifHandle), x =>
    x.world.Current fun client ↦ client.interface = some ifHandle ∧ client.enabled = 0
  | .handle (.uhsAdministerEndpoint ifHandle _ _ _ _), x =>
    x.world.Current fun client ↦ client.interface = some ifHandle
  | .submitControlRequest _ _ _ _ _ _, x =>
    x.world.Current fun client ↦ client.interface ≠ none
  | _, _ => True

abbrev hostWp {α : Type} (program : DriverM α) (post : α → HostMachine → Prop) (x : HostMachine) :
    Prop :=
  wp hostReply Proper program post x

/-- Nothing is outstanding. -/
structure Idle (x : HostMachine) : Prop where
  gOpen : x.mem.gOpen = false
  settled : ∀ client ∈ x.world.clients, client = .settled

/-- The newest client is open without an interface. -/
structure Opened (x : HostMachine) : Prop where
  gOpen : x.mem.gOpen = false
  enabledEps : x.mem.ax.enabledEps = 0
  clients : ∃ rest, x.world.clients = {} :: rest ∧ ∀ client ∈ rest, client = .settled

/-- The newest client holds the interface of the handle, with the endpoints enabled that the handle
has noted. -/
structure Held (x : HostMachine) : Prop where
  gOpen : x.mem.gOpen = true
  clients : ∃ rest,
    x.world.clients =
      { interface := some x.mem.ax.ifHandle, enabled := x.mem.ax.enabledEps } :: rest ∧
    ∀ client ∈ rest, client = .settled

/-- The state between two calls, with or without a live handle. -/
def Rest (live : Bool) (x : HostMachine) : Prop := if live then Held x else Idle x

/-! ## Transfers on the held interface -/

/-- The part of the driver state that the records are compared with. -/
def heldView (driver : DriverState) : Bool × ℕ × ℕ :=
  (driver.gOpen, driver.ax.ifHandle, driver.ax.enabledEps)

/-- Register accesses and pauses. -/
def IsTransfer : UhsCall → Prop
  | .submitControlRequest _ _ _ _ _ _ => True
  | .osSleepMs _ => True
  | _ => False

theorem wp_transfers {α : Type} {program : DriverM α} {x : HostMachine}
    (hkeeps : Keeps heldView IsTransfer program) (hx : Held x) :
    hostWp program (fun _ ↦ Held) x := by
  refine wp_keeps hkeeps ?_ ?_ ?_ hx
  · intro y mem hview hy
    obtain ⟨hopen, hrest⟩ := Prod.mk.inj hview
    obtain ⟨hhandle, henabled⟩ := Prod.mk.inj hrest
    refine ⟨hopen.trans hy.gOpen, ?_⟩
    rw [hhandle, henabled]
    exact hy.clients
  · intro request answer y z htransfer hy hreply
    cases request <;> cases htransfer <;> cases hreply <;> exact hy
  · intro request y htransfer hy
    obtain ⟨rest, hclients, -⟩ := hy.clients
    cases request with
    | submitControlRequest read cmd value index size data => exact ⟨_, rest, hclients, rfl, nofun⟩
    | osSleepMs ms => trivial
    | _ => cases htransfer

theorem keeps_control {read : Bool} {cmd value index size : ℕ} {data : List UInt8} :
    Keeps heldView IsTransfer (control read cmd value index size data) :=
  Keeps.ite trivial
    ((keeps_perform trivial).bind fun _ ↦ Keeps.ite trivial (Keeps.ite trivial trivial))

theorem keeps_regWrite (cmd reg size : ℕ) (data : List UInt8) :
    Keeps heldView IsTransfer (regWrite cmd reg size data) := keeps_control

theorem keeps_readPhy (reg : ℕ) : Keeps heldView IsTransfer (ax88179ReadPhy reg) :=
  keeps_control.bind fun _ ↦ trivial

theorem keeps_allDone {steps : List (DriverM (Option Memory))}
    (hsteps : ∀ step ∈ steps, Keeps heldView IsTransfer step) :
    Keeps heldView IsTransfer (allDone steps) := by
  induction steps with
  | nil => trivial
  | cons step rest ih =>
    refine (hsteps step List.mem_cons_self).bind fun done ↦ Keeps.ite ?_ trivial
    exact ih fun other hmem ↦ hsteps other (List.mem_cons_of_mem _ hmem)

theorem keeps_warmPhy : Keeps heldView IsTransfer warmPhy := by
  refine (keeps_load _).bind fun generation ↦ Keeps.ite trivial ((keeps_readPhy 0).bind fun bmcr ↦ ?_)
  refine (Keeps.ite (keeps_readPhy 1) (keeps_pure none)).bind fun bmsr ↦ ?_
  cases bmcr <;> cases bmsr <;> trivial

theorem keeps_phyAutonegotiation (warm : Bool) :
    Keeps heldView IsTransfer (phyAutonegotiation warm) := by
  refine keeps_control.bind fun page ↦ Keeps.ite trivial ((keeps_readPhy 0).bind fun bmcr ↦ ?_)
  cases bmcr with
  | none => trivial
  | some bmcr =>
    refine Keeps.ite trivial (keeps_control.bind fun done ↦ Keeps.ite ?_ trivial)
    exact Keeps.bind (keeps_store fun _ ↦ rfl) fun _ ↦ trivial

/-- The stages in front of the endpoints only transfer. -/
theorem keeps_stages (warm : Bool) :
    ∀ stage ∈ [("PHY power reset", phyPowerReset warm), ("clock select", clockSelect),
      ("clock readback", clockReadback), ("MAC address", macAddress),
      ("RX/TX configuration", rxTxConfiguration),
      ("PHY page/autonegotiation", phyAutonegotiation warm)],
      Keeps heldView IsTransfer stage.2 := by
  have hpause : ∀ (ms : ℕ) (done : Bool), Keeps heldView IsTransfer
      (perform (.osSleepMs ms) >>= fun _ ↦ pure done : DriverM Bool) := fun ms done ↦
    (keeps_perform trivial).bind fun _ ↦ trivial
  intro stage hstage
  simp only [List.mem_cons, List.not_mem_nil, or_false] at hstage
  rcases hstage with rfl | rfl | rfl | rfl | rfl | rfl
  · refine Keeps.ite trivial (Keeps.bind (keeps_allDone fun step hstep ↦ ?_) fun done ↦ ?_)
    · simp only [List.mem_cons, List.not_mem_nil, or_false] at hstep
      rcases hstep with rfl | rfl <;> exact keeps_regWrite _ _ _ _
    · exact Keeps.ite (hpause 500 done) trivial
  · refine Keeps.bind (keeps_regWrite _ _ _ _) fun done ↦ ?_
    exact Keeps.ite (hpause 200 done.isSome) trivial
  · exact keeps_control.bind fun clock ↦ trivial
  · refine keeps_control.bind fun answer ↦ ?_
    cases answer with
    | none => trivial
    | some bytes => exact Keeps.bind (keeps_store fun _ ↦ rfl) fun _ ↦ trivial
  · refine keeps_allDone fun step hstep ↦ ?_
    simp only [List.mem_cons, List.not_mem_nil, or_false] at hstep
    rcases hstep with rfl | rfl | rfl | rfl | rfl | rfl | rfl <;> exact keeps_regWrite _ _ _ _
  · exact keeps_phyAutonegotiation warm

/-! ## The calls of a handle -/

def alreadyOpen : Except OpenError Unit := .error (.plain "driver already open (single instance)")

section Steps

variable {x : HostMachine}

theorem wp_runStages {stages : List (String × DriverM Bool)}
    (hstages : ∀ stage ∈ stages, Keeps heldView IsTransfer stage.2) (hx : Held x) :
    hostWp (runStages stages) (fun result y ↦ Held y ∧ result ≠ alreadyOpen) x := by
  induction stages generalizing x with
  | nil => exact ⟨hx, nofun⟩
  | cons stage rest ih =>
    refine wp_seq (wp_transfers (hstages stage List.mem_cons_self) hx) fun done y hy ↦ ?_
    cases done with
    | true => exact ih (fun other hmem ↦ hstages other (List.mem_cons_of_mem _ hmem)) hy
    | false => exact ⟨hy, nofun⟩

theorem wp_enableEndpoint (stage : String) (mask : Ax88179 → ℕ) (count size : ℕ) (hx : Held x) :
    hostWp (enableEndpoint stage mask count size)
      (fun result y ↦ Held y ∧ result ≠ alreadyOpen) x := by
  obtain ⟨rest, hclients, hsettled⟩ := hx.clients
  refine (wp_bind _ _ _ _).mpr ((wp_load _ _ _).mpr ((wp_bind _ _ _ _).mpr ?_))
  refine ⟨⟨_, rest, hclients, rfl, rfl⟩, fun answer y hreply ↦ ?_⟩
  obtain rfl := Option.some.inj hreply
  refine (wp_ite _ _ _ _ _).mpr ?_
  split
  · rename_i hfail
    simp only [hostStep, if_pos hfail]
    exact ⟨hx, nofun⟩
  · rename_i hdone
    simp only [hostStep, if_neg hdone, Host.update, hclients]
    exact ⟨⟨hx.gOpen, rest, rfl, hsettled⟩, nofun⟩

theorem wp_configureAdapter (hx : Held x) :
    hostWp configureAdapter (fun result y ↦ Held y ∧ result ≠ alreadyOpen) x := by
  refine wp_seq (wp_transfers keeps_warmPhy hx) fun warm y hy ↦ ?_
  refine wp_seq (wp_runStages (keeps_stages warm) hy) fun configured y hy ↦ ?_
  cases configured with
  | error why => exact hy
  | ok value =>
    refine wp_seq (wp_enableEndpoint _ _ _ _ hy.1) fun enabledIn y hy ↦ ?_
    cases enabledIn with
    | error why => exact hy
    | ok value =>
      refine wp_seq (wp_enableEndpoint _ _ _ _ hy.1) fun enabledOut y hy ↦ ?_
      cases enabledOut with
      | error why => exact hy
      | ok value =>
        refine wp_runStages (fun stage hstage ↦ ?_) hy.1
        obtain rfl := List.mem_singleton.mp hstage
        exact Keeps.bind (keeps_regWrite _ _ _ _) fun done ↦ trivial

/-- The newest client holds the interface, without an enabled endpoint. -/
def Disabled (ifHandle : ℕ) (x : HostMachine) : Prop :=
  ∃ rest, x.world.clients = { interface := some ifHandle } :: rest ∧
    ∀ client ∈ rest, client = .settled

theorem wp_cancel (hx : Held x) :
    hostWp (when (x.mem.ax.epInMask ≠ 0) do
      let _ ← perform (.handle
        (.uhsAdministerEndpoint x.mem.ax.ifHandle .cancel x.mem.ax.epInMask 0 0)))
      (fun _ y ↦ y = x) x := by
  obtain ⟨rest, hclients, -⟩ := hx.clients
  refine (wp_when _ _ _ _).mpr ?_
  split
  · refine ⟨⟨_, rest, hclients, rfl, rfl⟩, fun answer y hreply ↦ ?_⟩
    exact (Option.some.inj hreply).symm
  · rfl

theorem wp_disable (hx : Held x) :
    hostWp (when (x.mem.ax.enabledEps ≠ 0) do
      let _ ← perform (.handle
        (.uhsAdministerEndpoint x.mem.ax.ifHandle .disable x.mem.ax.enabledEps 0 0)))
      (fun _ ↦ Disabled x.mem.ax.ifHandle) x := by
  obtain ⟨rest, hclients, hsettled⟩ := hx.clients
  refine (wp_when _ _ _ _).mpr ?_
  split
  · refine ⟨⟨_, rest, hclients, rfl, rfl⟩, fun answer y hreply ↦ ?_⟩
    obtain rfl := Option.some.inj hreply
    refine ⟨rest, ?_, hsettled⟩
    simp only [hostStep, Host.update, hclients, Nat.and_self, Nat.xor_self]
  · rename_i hnone
    rw [not_not] at hnone
    rw [hnone] at hclients
    exact ⟨rest, hclients, hsettled⟩

/-- Closing disables what is enabled, releases the interface and closes the client. -/
theorem wp_ax88179Close (hx : Held x) : hostWp ax88179Close (fun _ ↦ Idle) x := by
  refine wp_seq (wp_transfers (keeps_regWrite _ _ _ _) hx) fun _ y hy ↦ ?_
  refine (wp_bind _ _ _ _).mpr ((wp_store _ _ _).mpr ?_)
  have hstopped : Held { y with
      mem := y.mem.setAx fun ax ↦ { ax with rxAsyncStarted := false } } := ⟨hy.gOpen, hy.clients⟩
  refine (wp_bind _ _ _ _).mpr ((wp_load _ _ _).mpr ?_)
  refine wp_seq (wp_cancel hstopped) fun _ z hz ↦ ?_
  subst hz
  refine wp_seq (wp_disable hstopped) fun _ z ⟨rest, hclients, hsettled⟩ ↦ ?_
  refine (wp_bind _ _ _ _).mpr ⟨⟨_, rest, hclients, rfl, rfl, rfl⟩, fun answer z' hreply ↦ ?_⟩
  obtain rfl := Option.some.inj hreply
  have hreleased : (hostStep (.uhsReleaseInterface y.mem.ax.ifHandle) answer z.world).clients =
      {} :: rest := by
    simp only [hostStep, Host.update, hclients]
  refine (wp_bind _ _ _ _).mpr ⟨⟨_, rest, hreleased, rfl, rfl, rfl⟩, fun answer' z' hreply ↦ ?_⟩
  obtain rfl := Option.some.inj hreply
  refine (wp_bind _ _ _ _).mpr ⟨trivial, fun answer'' z' hreply ↦ ?_⟩
  obtain rfl := Option.some.inj hreply
  refine ⟨rfl, fun client hclient ↦ ?_⟩
  simp only [hostStep, Host.update, hclients, List.mem_cons] at hclient
  rcases hclient with rfl | hmem
  · rfl
  · exact hsettled client hmem

/-- Giving up before the interface was acquired. -/
theorem wp_openRefused (why : String) (hx : Opened x) :
    hostWp (openRefused why) (fun result y ↦ result = .error (.plain why) ∧ Idle y) x := by
  obtain ⟨rest, hclients, hsettled⟩ := hx.clients
  refine (wp_bind _ _ _ _).mpr ⟨⟨_, rest, hclients, rfl, rfl, rfl⟩, fun answer y hreply ↦ ?_⟩
  obtain rfl := Option.some.inj hreply
  refine (wp_bind _ _ _ _).mpr ⟨trivial, fun answer y hreply ↦ ?_⟩
  obtain rfl := Option.some.inj hreply
  refine ⟨rfl, hx.gOpen, fun client hclient ↦ ?_⟩
  simp only [hostStep, Host.update, hclients, List.mem_cons] at hclient
  rcases hclient with rfl | hmem
  · rfl
  · exact hsettled client hmem

theorem enabledEps_findEndpoints (profile : UhsInterfaceProfile) (ax : Ax88179) :
    (findEndpoints profile ax).enabledEps = ax.enabledEps := by
  refine findEndpoints_view ?_ ?_ profile ax
  · intro descriptor ax
    simp only [takeInEndpoint]
    split_ifs <;> rfl
  · intro descriptor ax
    simp only [takeOutEndpoint]
    split_ifs <;> rfl

/-- A handle or nothing outstanding, and not the error of a driver that is open. -/
def OpenOutcome (result : Except OpenError Unit) (y : HostMachine) : Prop :=
  Rest result.isOk y ∧ result ≠ alreadyOpen

theorem wp_openRefused_outcome {why : String} (hwhy : why ≠ "driver already open (single instance)")
    (hx : Opened x) : hostWp (openRefused why) OpenOutcome x := by
  refine wp_mono (wp_openRefused why hx) fun result y ⟨hresult, hidle⟩ ↦ ?_
  subst hresult
  exact ⟨hidle, fun h ↦ hwhy (OpenError.plain.inj (Except.error.inj h))⟩

theorem wp_openInterface (hx : Opened x) : hostWp openInterface OpenOutcome x := by
  obtain ⟨rest, hclients, hsettled⟩ := hx.clients
  refine (wp_bind _ _ _ _).mpr ⟨⟨_, rest, hclients, rfl, trivial⟩, fun found y hreply ↦ ?_⟩
  obtain rfl := Option.some.inj hreply
  refine (wp_ite _ _ _ _ _).mpr ?_
  split
  · exact wp_openRefused_outcome (by decide) hx
  refine (wp_bind _ _ _ _).mpr ((wp_store _ _ _).mpr ?_)
  refine (wp_bind _ _ _ _).mpr ((wp_load _ _ _).mpr ((wp_ite _ _ _ _ _).mpr ?_))
  have hfound : Opened { x with mem := (x.mem.setAx fun ax ↦
      findEndpoints found.profile { ax with ifHandle := found.profile.ifHandle }) } :=
    ⟨hx.gOpen, (enabledEps_findEndpoints _ _).trans hx.enabledEps, hx.clients⟩
  split
  · exact wp_openRefused_outcome (by decide) hfound
  refine (wp_bind _ _ _ _).mpr ⟨⟨_, rest, hclients, rfl, rfl⟩, fun acquired y hreply ↦ ?_⟩
  obtain rfl := Option.some.inj hreply
  refine (wp_ite _ _ _ _ _).mpr ?_
  split
  · rename_i hfail
    simp only [hostStep, if_pos hfail]
    exact wp_openRefused_outcome (by decide) hfound
  rename_i hdone
  refine (wp_bind _ _ _ _).mpr ((wp_store _ _ _).mpr ?_)
  refine wp_seq (wp_configureAdapter ⟨rfl, rest, ?_, hsettled⟩) fun result y hy ↦ ?_
  · simp only [hostStep, if_neg hdone, Host.update, hclients]
    rw [hfound.enabledEps]
  · cases result with
    | ok value => exact ⟨hy.1, nofun⟩
    | error why => exact wp_seq (wp_ax88179Close hy.1) fun _ z hz ↦ ⟨hz, hy.2⟩

theorem wp_ax88179Open (hx : Idle x) : hostWp ax88179Open OpenOutcome x := by
  refine (wp_bind _ _ _ _).mpr ((wp_load _ _ _).mpr ?_)
  rw [hx.gOpen]
  refine (wp_bind _ _ _ _).mpr ⟨trivial, fun block y hreply ↦ ?_⟩
  obtain rfl := Option.some.inj hreply
  refine (wp_ite _ _ _ _ _).mpr ?_
  split
  · exact ⟨hx, by decide⟩
  refine (wp_bind _ _ _ _).mpr ((wp_store _ _ _).mpr ?_)
  refine (wp_bind _ _ _ _).mpr ⟨hx.settled, fun client y hreply ↦ ?_⟩
  obtain rfl := Option.some.inj hreply
  refine (wp_ite _ _ _ _ _).mpr ?_
  split
  · rename_i hfail
    refine (wp_bind _ _ _ _).mpr ⟨trivial, fun answer y hreply ↦ ?_⟩
    obtain rfl := Option.some.inj hreply
    simp only [hostStep, if_pos hfail]
    exact ⟨⟨hx.gOpen, hx.settled⟩, by decide⟩
  · rename_i hdone
    simp only [hostStep, if_neg hdone]
    exact wp_openInterface ⟨hx.gOpen, rfl, x.world.clients, rfl, hx.settled⟩

end Steps

/-! ## Runs -/

/-- The states between the calls of a run, with or without a live handle.  `ax88179_close` is called
on the live handle; on `NULL` it does nothing. -/
inductive AdapterRun : HostMachine → Bool → Prop where
  | start {x : HostMachine} (hopen : x.mem.gOpen = false) (hclients : x.world.clients = []) :
      AdapterRun x false
  | openCall {x y : HostMachine} {live : Bool} {result : Except OpenError Unit}
      (hrun : AdapterRun x live) (hcall : Exec hostReply ax88179Open x result y) :
      AdapterRun y (live || result.isOk)
  | closeCall {x y : HostMachine} (hrun : AdapterRun x true)
      (hcall : Exec hostReply ax88179Close x () y) : AdapterRun y false

/-- With a live handle, opening ends at once. -/
theorem open_refused (pre : UhsCall → HostMachine → Prop) {x : HostMachine}
    (hopen : x.mem.gOpen = true) :
    wp hostReply pre ax88179Open (fun result y ↦ result = alreadyOpen ∧ y = x) x := by
  refine (wp_bind _ _ _ _).mpr ((wp_load _ _ _).mpr ?_)
  rw [hopen]
  exact ⟨rfl, rfl⟩

theorem AdapterRun.rest {x : HostMachine} {live : Bool} (h : AdapterRun x live) : Rest live x := by
  induction h with
  | start hopen hclients =>
    refine ⟨hopen, ?_⟩
    rw [hclients]
    simp
  | @openCall x y live result hrun hcall ih =>
    cases live with
    | true =>
      obtain ⟨rfl, rfl⟩ := hcall.post_of_wp (open_refused (fun _ _ ↦ True) ih.gOpen)
      exact ih
    | false => exact (hcall.post_of_wp (wp_ax88179Open ih)).1
  | closeCall hrun hcall ih => exact hcall.post_of_wp (wp_ax88179Close ih)

/-- Opening and closing are balanced in every run: the handle is live exactly while `g_open` is set,
all clients but its own are closed once with nothing left behind, all calls keep the order of the
protocol, a live handle keeps an open from calling anything, and without one an open is not refused
as open. -/
theorem adapterRun_balanced {x : HostMachine} {live : Bool} (h : AdapterRun x live) :
    (x.mem.gOpen = true ↔ live = true) ∧ Rest live x ∧
      (∀ request y, Makes hostReply ax88179Open x request y → live = false ∧ Proper request y) ∧
      (live = true → ∀ request y, Makes hostReply ax88179Close x request y → Proper request y) ∧
      (∀ result y, Exec hostReply ax88179Open x result y →
        (result = alreadyOpen ↔ live = true) ∧ (result.isOk = false → live = false → Idle y)) := by
  have hrest := h.rest
  cases live with
  | true =>
    have hheld : Held x := hrest
    have hnone : ∀ request y, ¬Makes hostReply ax88179Open x request y := fun request y hmakes ↦
      hmakes.pre_of_wp (open_refused (fun _ _ ↦ False) hheld.gOpen)
    refine ⟨iff_of_true hheld.gOpen rfl, hrest, fun request y hmakes ↦ ?_, fun _ request y hmakes ↦ ?_,
      fun result y hexec ↦ ⟨?_, fun _ h ↦ absurd h (by decide)⟩⟩
    · exact absurd hmakes (hnone request y)
    · exact hmakes.pre_of_wp (wp_ax88179Close hheld)
    · exact iff_of_true
        (hexec.post_of_wp (open_refused (fun _ _ ↦ False) hheld.gOpen)).1 rfl
  | false =>
    have hidle : Idle x := hrest
    refine ⟨iff_of_false (by simp [hidle.gOpen]) (by decide), hrest, fun request y hmakes ↦ ?_,
      fun h ↦ absurd h (by decide), fun result y hexec ↦ ?_⟩
    · exact ⟨rfl, hmakes.pre_of_wp (wp_ax88179Open hidle)⟩
    · obtain ⟨houtcome, hresult⟩ := hexec.post_of_wp (wp_ax88179Open hidle)
      refine ⟨iff_of_false hresult (by decide), fun hok _ ↦ ?_⟩
      rw [hok] at houtcome
      exact houtcome

/-- A profile with bulk endpoints 2 and 3. -/
def bulkProfile : UhsInterfaceProfile where
  ifHandle := 5
  inEndpoints i := if i = 2 then ⟨7, 0x82, 2, 512⟩ else {}
  outEndpoints i := if i = 3 then ⟨7, 0x03, 2, 512⟩ else {}

/-- A transfer of a number of bytes that all have one value. -/
def transferred (count : ℕ) (byte : UInt8) : UhsReply := { code := count, bytes := fun _ ↦ byte }

/-- The results of a cold open that succeeds. -/
def coldReplies : List UhsReply :=
  [{ code := 1 }, { code := 0 }, { code := 1, profile := bulkProfile }, { code := 0 },
    transferred 2 0, transferred 2 0, {}, transferred 1 0, {}, transferred 1 3, transferred 6 2,
    transferred 2 0, transferred 2 0, transferred 5 0, transferred 1 0, transferred 1 0,
    transferred 1 0, transferred 1 0, transferred 2 0, transferred 2 0x11, transferred 2 0,
    { code := 0 }, { code := 0 }, transferred 2 0]

theorem adapterRun_balanced_cold :
    ∃ x : HostMachine, x.mem.gOpen = true ∧
      ∀ request y, ¬Makes hostReply ax88179Open x request y := by
  obtain ⟨x, hrun⟩ : ∃ x, run hostReply ax88179Open coldReplies ⟨{}, {}⟩ = some (.ok (), x, []) :=
    ⟨_, rfl⟩
  have hopened : AdapterRun x true := .openCall (.start rfl rfl) (exec_of_run hrun)
  obtain ⟨hopen, -, hcalls, -⟩ := adapterRun_balanced hopened
  exact ⟨x, hopen.mpr rfl, fun request y hmakes ↦ absurd (hcalls request y hmakes).1 (by decide)⟩

end Ax88179Aroma.Driver.Balance
