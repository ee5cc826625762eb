import Ax88179Aroma.Module.Handles
import Ax88179Aroma.Net.StackRuns

/-!
# The worker keeps lwIP's rules

`run_network` from the first call to the last, over lwIP's side of the interface.  Whatever the
previous title left behind, every call follows the rules of `stackPre`, and between the functions of
the interface the static data mirrors lwIP's state.
-/

namespace Ax88179Aroma.Module

open Effect Program Net

/-- Calls outside lwIP change nothing of what its rules read. -/
def rulesReply : Replies NetState StackWorld ModuleCall NetReply
  | .net request, answer, x => stackReply request answer x
  | _, _, x => some x

/-- A handle is closed with the interface out of lwIP's list and abandoned once the module has let
go of lwIP; at every other call outside the interface the static data is in step with lwIP, or the
stack thread was ended before. -/
def rulesPre : ModuleCall → StackMachine → Prop
  | .net request, x => stackPre request x
  | .ax88179Close _, x => Live x ∧ x.world.listed = false
  | .ax88179AbandonTitle _, x => Abandoned x
  | _, x => Live x ∨ Departed x

abbrev rulesWp {α : Type} (program : ModuleM α) (post : α → StackMachine → Prop)
    (x : StackMachine) : Prop :=
  wp rulesReply rulesPre program post x

theorem rules_net {α : Type} {program : NetM α} {post : α → StackMachine → Prop}
    {x : StackMachine} : rulesWp (net program) post x ↔ stackWp program post x :=
  wp_embed

/-- Programs that may run whenever lwIP is in step and leave it so, with results of a kind. -/
def Yields {α : Type} (kind : α → Prop) (program : ModuleM α) : Prop :=
  ∀ x, Live x → rulesWp program (fun value y ↦ Live y ∧ kind value) x

/-- Programs that leave lwIP in step, with any result. -/
abbrev Steady {α : Type} (program : ModuleM α) : Prop := Yields (fun _ ↦ True) program

section Steady

variable {α β : Type} {kind : α → Prop}

theorem yields_pure {value : α} (h : kind value) : Yields kind (pure value) := fun _ hx ↦ ⟨hx, h⟩

theorem steady_pure (value : α) : Steady (pure value) := yields_pure trivial

theorem yields_diverge : Yields kind .diverge := fun _ _ ↦ trivial

theorem Yields.bind {program : ModuleM β} {next : β → ModuleM α} {middle : β → Prop}
    (hprogram : Yields middle program) (hnext : ∀ value, middle value → Yields kind (next value)) :
    Yields kind (program >>= next) :=
  fun x hx ↦ wp_seq (hprogram x hx) fun value y hy ↦ hnext value hy.2 y hy.1

theorem Yields.cases {condition : Prop} [Decidable condition] {left right : ModuleM α}
    (hleft : condition → Yields kind left) (hright : ¬condition → Yields kind right) :
    Yields kind (if condition then left else right) :=
  fun x hx ↦ wp_cases (fun h ↦ hleft h x hx) fun h ↦ hright h x hx

theorem Yields.ite {condition : Prop} [Decidable condition] {left right : ModuleM α}
    (hleft : Yields kind left) (hright : Yields kind right) :
    Yields kind (if condition then left else right) :=
  Yields.cases (fun _ ↦ hleft) fun _ ↦ hright

theorem steady_when {condition : Prop} [Decidable condition] {program : ModuleM Unit}
    (hprogram : Steady program) : Steady (when condition program) :=
  Yields.ite hprogram (steady_pure ())

theorem Yields.live {program : ModuleM α} (h : Yields kind program) {x : StackMachine}
    (hx : Live x) : rulesWp program (fun _ ↦ Live) x :=
  wp_mono (h x hx) fun _ _ hy ↦ hy.1

/-- A call that concerns neither the interface nor a handle. -/
theorem rules_plain {request : ModuleCall} {post : NetReply → StackMachine → Prop}
    {x : StackMachine} (hplain : request.plain = true) (hx : Live x ∨ Departed x)
    (hpost : ∀ answer, post answer x) : rulesWp (perform request) post x := by
  refine (wp_perform _ _ _).mpr ⟨?_, fun answer y hreply ↦ ?_⟩
  · cases request <;> first | exact hx | cases hplain
  · have hsame : y = x := by
      cases request <;> first | exact (Option.some.inj hreply).symm | cases hplain
    rw [hsame]
    exact hpost answer

theorem steady_perform {request : ModuleCall} (hplain : request.plain = true) :
    Steady (perform request) :=
  fun _ hx ↦ rules_plain hplain (.inl hx) fun _ ↦ ⟨hx, trivial⟩

theorem steady_invoke {request : ModuleCall} (hplain : request.plain = true) :
    Steady (invoke request) :=
  (steady_perform hplain).bind fun _ _ ↦ steady_pure ()

theorem steady_loadStopping : Steady loadStopping :=
  (steady_perform rfl).bind fun _ _ ↦ steady_pure _

theorem steady_osGetTime : Steady osGetTime :=
  (steady_perform rfl).bind fun _ _ ↦ steady_pure _

theorem steady_axNetPoll (fuel : ℕ) : Steady (net (axNetPoll fuel)) := fun _ hx ↦
  rules_net.mpr (wp_mono (Net.wp_axNetPoll fuel hx) fun _ _ hy ↦ ⟨hy, trivial⟩)

theorem steady_axNetAddress : Steady (net axNetAddress) := fun _ hx ↦
  rules_net.mpr (wp_mono (Net.wp_axNetAddress hx) fun _ _ hy ↦ ⟨hy.live hx, trivial⟩)

theorem steady_axNetStatus : Steady (net axNetStatus) := fun _ hx ↦
  rules_net.mpr (wp_mono (Net.wp_axNetStatus hx) fun _ _ hy ↦ ⟨hy.live hx, trivial⟩)

/-- The handle is closed once the interface is stopped. -/
theorem rules_close {ax : ℕ} {x : StackMachine} (hx : Live x) (hinactive : x.mem.active = 0) :
    rulesWp (invoke (.ax88179Close ax)) (fun _ y ↦ Live y ∧ y.mem.active = 0) x := by
  refine (wp_bind _ _ _ _).mpr ((wp_perform _ _ _).mpr ⟨⟨hx, hx.unlisted hinactive⟩, ?_⟩)
  intro answer y hreply
  obtain rfl := Option.some.inj hreply
  exact ⟨hx, hinactive⟩

theorem rules_stopAndClose (ax fuel : ℕ) {x : StackMachine} (hx : Live x) :
    rulesWp (stopAndClose ax fuel) (fun _ y ↦ Live y ∧ y.mem.active = 0) x :=
  wp_seq (rules_net.mpr (Net.wp_axNetStop fuel hx)) fun _ _ hy ↦ rules_close hy.1 hy.2

/-! ## Recovery -/

theorem steady_awaitHealth (deadline : ℤ) (fuel : ℕ) : Steady (awaitHealth deadline fuel) := by
  induction fuel with
  | zero => exact yields_diverge
  | succ fuel ih =>
    refine steady_loadStopping.bind fun stopping _ ↦ Yields.ite (steady_pure false) ?_
    refine steady_osGetTime.bind fun now _ ↦ Yields.ite (steady_pure false) ?_
    refine (steady_axNetPoll fuel).bind fun n _ ↦ Yields.ite (steady_pure false) ?_
    refine steady_axNetAddress.bind fun ip _ ↦ Yields.ite ?_ ?_
    · exact (steady_invoke rfl).bind fun _ _ ↦ steady_pure true
    · exact (steady_invoke rfl).bind fun _ _ ↦ ih

theorem rules_tryCandidates (fuel : ℕ) {x : StackMachine} (hx : Live x)
    (hinactive : x.mem.active = 0) :
    rulesWp (tryCandidates fuel)
      (fun result y ↦ Live y ∧ (result.1 = 0 → result.2 ≠ 0)) x := by
  induction fuel generalizing x with
  | zero => trivial
  | succ fuel ih =>
    refine (wp_bind _ _ _ _).mpr ((wp_bind _ _ _ _).mpr (rules_plain rfl (.inl hx) fun answer ↦ ?_))
    refine wp_cases (fun _ ↦ ⟨hx, nofun⟩) fun _ ↦ ?_
    refine (wp_bind _ _ _ _).mpr ((wp_bind _ _ _ _).mpr (rules_plain rfl (.inl hx) fun _ ↦ ?_))
    refine (wp_bind _ _ _ _).mpr ((wp_perform _ _ _).mpr ⟨.inl hx, fun opened y hreply ↦ ?_⟩)
    obtain rfl := Option.some.inj hreply
    refine wp_cases (fun _ ↦ ih hx hinactive) fun hhandle ↦ ?_
    refine wp_seq (rules_net.mpr (Net.wp_axNetStart hx)) fun started y hy ↦ ?_
    refine wp_cases (fun hfailed ↦ ?_) fun _ ↦ ?_
    · refine wp_seq (rules_close hy.1 (hy.2 hinactive hfailed)) fun _ z hz ↦ ?_
      refine (wp_bind _ _ _ _).mpr ((wp_bind _ _ _ _).mpr (rules_plain rfl (.inl hz.1) fun _ ↦ ?_))
      exact ih hz.1 hz.2
    · refine wp_seq (steady_osGetTime.live hy.1) fun now y hy ↦ ?_
      refine wp_seq ((steady_awaitHealth _ fuel).live hy) fun healthy y hy ↦ ?_
      refine wp_cases (fun _ ↦ ⟨hy, fun _ ↦ hhandle⟩) fun _ ↦ ?_
      refine wp_seq (rules_stopAndClose _ fuel hy) fun _ z hz ↦ ?_
      refine (wp_bind _ _ _ _).mpr ((wp_bind _ _ _ _).mpr (rules_plain rfl (.inl hz.1) fun _ ↦ ?_))
      exact ih hz.1 hz.2

theorem yields_recoverAdapter {ax : ℕ} (hax : ax ≠ 0) (fuel : ℕ) :
    Yields (fun result ↦ result.1 = 0 → result.2 ≠ 0) (recoverAdapter ax fuel) := by
  refine (steady_invoke rfl).bind fun _ _ ↦ fun x hx ↦ ?_
  have hclosed : rulesWp (when (ax ≠ 0) (stopAndClose ax fuel))
      (fun _ y ↦ Live y ∧ y.mem.active = 0) x :=
    wp_cases (fun _ ↦ rules_stopAndClose ax fuel hx) fun hnull ↦ absurd hax hnull
  refine wp_seq hclosed fun _ y hy ↦ ?_
  refine (wp_bind _ _ _ _).mpr ((wp_bind _ _ _ _).mpr (rules_plain rfl (.inl hy.1) fun _ ↦ ?_))
  exact rules_tryCandidates fuel hy.1 hy.2

/-! ## From the bring-up to the end -/

theorem steady_awaitLease (deadline : ℤ) (fuel : ℕ) : Steady (awaitLease deadline fuel) := by
  induction fuel with
  | zero => exact yields_diverge
  | succ fuel ih =>
    refine steady_osGetTime.bind fun now _ ↦ Yields.ite (steady_pure false) ?_
    refine (steady_axNetPoll fuel).bind fun n _ ↦ Yields.ite ?_ ?_
    · refine steady_osGetTime.bind fun now _ ↦ Yields.ite (steady_pure false) ?_
      exact (steady_invoke rfl).bind fun _ _ ↦ ih
    · refine steady_axNetAddress.bind fun ip _ ↦ steady_osGetTime.bind fun now _ ↦ ?_
      refine Yields.ite (steady_pure _) ((steady_invoke rfl).bind fun _ _ ↦ ?_)
      exact Yields.ite (steady_pure true) ih

theorem yields_serve (config : ModuleConfig) (n : ℤ) (locals : WorkerLocals) :
    Yields (fun result ↦ result.2.ax = locals.ax) (serve config n locals) := by
  have hretry : Yields (fun after ↦ after.ax = locals.ax) (retryHandoff config locals) := by
    refine Yields.ite (steady_osGetTime.bind fun now _ ↦ Yields.ite ?_ (yields_pure rfl))
      (yields_pure rfl)
    refine (steady_perform rfl).bind fun answer _ ↦ Yields.ite (yields_pure rfl) ?_
    exact Yields.ite (yields_pure rfl) (yields_pure rfl)
  have hfollow : ∀ ip before, Yields (fun after ↦ after.ax = before.ax) (followAddress ip before) := by
    intro ip before
    refine Yields.ite ?_ (yields_pure rfl)
    exact (steady_invoke rfl).bind fun _ _ ↦ (steady_invoke rfl).bind fun _ _ ↦ yields_pure rfl
  have hbeat : ∀ ip before, Yields (fun after ↦ after.ax = before.ax) (heartbeat ip before) := by
    intro ip before
    refine Yields.ite (steady_osGetTime.bind fun time _ ↦ ?_) (yields_pure rfl)
    exact Yields.ite (steady_axNetStatus.bind fun _ _ ↦ yields_pure rfl) (yields_pure rfl)
  refine (steady_when (steady_invoke rfl)).bind fun _ _ ↦ hretry.bind fun first hfirst ↦ ?_
  refine steady_axNetAddress.bind fun ip _ ↦ (steady_invoke rfl).bind fun _ _ ↦ ?_
  refine (hfollow ip first).bind fun second hsecond ↦ (hbeat ip second).bind fun third hthird ↦ ?_
  refine (steady_when (steady_invoke rfl)).bind fun _ _ ↦ yields_pure ?_
  exact hthird.trans (hsecond.trans hfirst)

theorem yields_installShim (config : ModuleConfig) (locals : WorkerLocals) :
    Yields (fun after ↦ after.ax = locals.ax) (installShim config locals) := by
  have hhandoff : Yields (fun after ↦ after.ax = locals.ax) (startHandoff config locals) := by
    refine Yields.ite ((steady_perform rfl).bind fun handoff _ ↦ ?_) (yields_pure rfl)
    exact Yields.ite (yields_pure rfl) (steady_osGetTime.bind fun now _ ↦ yields_pure rfl)
  refine Yields.ite (yields_pure rfl) ((steady_perform rfl).bind fun installed _ ↦ ?_)
  refine Yields.ite (yields_pure rfl) (hhandoff.bind fun after hafter ↦ ?_)
  exact (steady_when (steady_invoke rfl)).bind fun _ _ ↦ yields_pure hafter

theorem yields_recoverInLoop (config : ModuleConfig) {locals : WorkerLocals}
    (hax : locals.ax ≠ 0) (fuel : ℕ) :
    Yields (fun result ↦ result.1 = 0 → result.2.ax ≠ 0) (recoverInLoop config locals fuel) := by
  refine (steady_when (steady_invoke rfl)).bind fun _ _ ↦ ?_
  refine (yields_recoverAdapter hax fuel).bind fun result hresult ↦ ?_
  obtain ⟨recovered, ax⟩ := result
  refine Yields.cases (fun _ ↦ yields_pure nofun) fun hrecovered ↦ ?_
  have hne : ax ≠ 0 := hresult (not_not.mp hrecovered)
  refine (steady_when (steady_invoke rfl)).bind fun _ _ ↦ Yields.ite ?_ (yields_pure fun _ ↦ hne)
  exact steady_osGetTime.bind fun now _ ↦ yields_pure fun _ ↦ hne

theorem steady_mainLoop (config : ModuleConfig) (fuel : ℕ) {locals : WorkerLocals}
    (hax : locals.ax ≠ 0) : Steady (mainLoop config locals fuel) := by
  induction fuel generalizing locals with
  | zero => exact yields_diverge
  | succ fuel ih =>
    refine steady_loadStopping.bind fun stopping _ ↦ Yields.ite (steady_pure _) ?_
    refine (steady_axNetPoll fuel).bind fun n _ ↦ Yields.ite ?_ ?_
    · refine (yields_recoverInLoop config hax fuel).bind fun result hresult ↦ ?_
      obtain ⟨recovered, locals⟩ := result
      exact Yields.cases (fun _ ↦ steady_pure _) fun hrecovered ↦
        ih (hresult (not_not.mp hrecovered))
    · refine (yields_serve config n locals).bind fun result hresult ↦ ?_
      obtain ⟨exit, locals⟩ := result
      exact Yields.ite (steady_pure _) (ih (hresult ▸ hax))

/-- The interface is stopped, or the stack thread is. -/
def Retired (x : StackMachine) : Prop := (Live x ∧ x.mem.active = 0) ∨ Departed x

theorem rules_retire (config : ModuleConfig) (ax fuel : ℕ) {x : StackMachine} (hx : Live x) :
    rulesWp (retire config ax fuel) (fun _ ↦ Retired) x := by
  refine (wp_bind _ _ _ _).mpr (rules_plain rfl (.inl hx) fun ending ↦ ?_)
  dsimp only
  have hshim : Steady (when (config.disableShim = false) (do
      invoke (.shim .stopAccepting)
      when (¬ending.code ≠ 0) (invoke (.shim .drainOwnedSockets)))) :=
    steady_when ((steady_invoke rfl).bind fun _ _ ↦ steady_when (steady_invoke rfl))
  refine wp_seq (hshim.live hx) fun _ y hy ↦ wp_cases (fun _ ↦ ?_) fun _ ↦ ?_
  · refine wp_seq (rules_net.mpr (Net.wp_axNetAbandonTitle hy)) fun _ z hz ↦ ?_
    refine wp_cases (fun _ ↦ ?_) fun _ ↦ .inr hz.toDeparted
    refine (wp_bind _ _ _ _).mpr ((wp_perform _ _ _).mpr ⟨hz, fun answer w hreply ↦ ?_⟩)
    obtain rfl := Option.some.inj hreply
    exact .inr hz.toDeparted
  · refine wp_seq (rules_net.mpr (Net.wp_axNetStop fuel hy)) fun _ z hz ↦ ?_
    refine wp_cases (fun _ ↦ ?_) fun _ ↦ .inl hz
    exact wp_mono (rules_close hz.1 hz.2) fun _ _ hw ↦ .inl hw

theorem rules_runAdapter (config : ModuleConfig) {ax : ℕ} (hax : ax ≠ 0) (fuel : ℕ)
    {x : StackMachine} (hx : Live x) (hinactive : x.mem.active = 0) :
    rulesWp (runAdapter config ax fuel) (fun _ ↦ Retired) x := by
  refine wp_seq (rules_net.mpr (Net.wp_axNetStart hx)) fun started y hy ↦ wp_cases ?_ fun _ ↦ ?_
  · intro hfailed
    exact wp_mono (rules_close hy.1 (hy.2 hinactive hfailed)) fun _ _ hz ↦ .inl hz
  refine wp_seq (steady_osGetTime.live hy.1) fun now y hy ↦ ?_
  refine wp_seq ((steady_awaitLease _ fuel).live hy) fun leased y hy ↦ wp_cases (fun _ ↦ ?_) fun _ ↦ ?_
  · exact wp_mono (rules_stopAndClose ax fuel hy) fun _ _ hz ↦ .inl hz
  refine wp_seq (yields_installShim config { ax := ax } y hy) fun locals z hz ↦ ?_
  have hhandle : locals.ax ≠ 0 := hz.2 ▸ hax
  exact wp_seq ((steady_mainLoop config fuel hhandle).live hz.1) fun ax w hw ↦
    rules_retire config ax fuel hw

/-- A call between two titles, which changes nothing. -/
theorem rules_stale {request : ModuleCall} {x : StackMachine} (hplain : request.plain = true)
    (hx : Stale x) : rulesWp (invoke request) (fun _ ↦ Stale) x :=
  (wp_bind _ _ _ _).mpr (rules_plain hplain (.inr hx.departed) fun _ ↦ hx)

theorem rules_startGuard (rounds : ℕ) {x : StackMachine} (hx : Stale x) :
    rulesWp (startGuard rounds) (fun _ ↦ Stale) x := by
  induction rounds with
  | zero => exact hx
  | succ rounds ih =>
    refine (wp_bind _ _ _ _).mpr ((wp_bind _ _ _ _).mpr ?_)
    refine rules_plain rfl (.inr hx.departed) fun answer ↦ ?_
    exact wp_cases (fun _ ↦ hx) fun _ ↦ (wp_bind _ _ _ _).mpr
      ((wp_bind _ _ _ _).mpr (rules_plain rfl (.inr hx.departed) fun _ ↦ ih))

theorem rules_applyConfig (config : ModuleConfig) {x : StackMachine} (hx : Stale x) :
    rulesWp (applyConfig config) (fun _ y ↦ Live y ∧ y.mem.active = 0) x := by
  refine wp_seq (rules_stale rfl hx) fun _ y hy ↦ wp_seq (rules_stale rfl hy) fun _ y hy ↦ ?_
  refine wp_seq (rules_stale rfl hy) fun _ y hy ↦ wp_seq (rules_stale rfl hy) fun _ y hy ↦ ?_
  have hmode := Net.wp_axNetSetSessionLeaseMode (x := y) config.keepFirst
  refine wp_seq (rules_net.mpr hmode) fun _ z hz ↦ ?_
  have hstale : Stale z := ⟨hz.world_eq ▸ hy.unlocked, hz.world_eq ▸ hy.dead⟩
  refine wp_seq (rules_net.mpr (Net.wp_axNetForget hstale)) fun _ w hw ↦ ?_
  exact (wp_bind _ _ _ _).mpr (rules_plain rfl (.inl hw.1) fun _ ↦ hw)

theorem rules_runNetwork (config : ModuleConfig) (fuel : ℕ) {x : StackMachine} (hx : Stale x) :
    rulesWp (runNetwork config fuel) (fun _ ↦ Retired) x := by
  have hleave : ∀ {y : StackMachine}, Retired y → rulesWp (do
      invoke .whbLogUdpDeinit
      pure 0) (fun (_ : ℤ) ↦ Retired) y := fun hy ↦
    (wp_bind _ _ _ _).mpr ((wp_bind _ _ _ _).mpr (rules_plain rfl (hy.imp And.left id) fun _ ↦ hy))
  refine wp_seq (rules_stale rfl hx) fun _ y hy ↦ wp_seq (rules_startGuard 20 hy) fun stopped y hy ↦ ?_
  cases stopped with
  | true => exact hleave (.inr hy.departed)
  | false =>
    have hbody : rulesWp (do
        applyConfig config
        let opened ← perform .ax88179Open
        when (opened.code.toNat ≠ 0) (runAdapter config opened.code.toNat fuel))
        (fun _ ↦ Retired) y := by
      refine wp_seq (rules_applyConfig config hy) fun _ y hy ↦ ?_
      refine (wp_bind _ _ _ _).mpr ((wp_perform _ _ _).mpr ⟨.inl hy.1, fun opened z hreply ↦ ?_⟩)
      obtain rfl := Option.some.inj hreply
      exact wp_cases (fun hhandle ↦ rules_runAdapter config hhandle fuel hy.1 hy.2) fun _ ↦ .inl hy
    exact wp_seq hbody fun _ z hz ↦ hleave hz

end Steady

/-! ## The runs of a title -/

/-- lwIP as the previous title left it: whatever its statics hold, its thread is gone. -/
def leftBehind (mem : NetState) (world : StackWorld) : StackMachine :=
  ⟨mem, { world with
    alive := false
    locked := false }⟩

theorem stale_leftBehind (mem : NetState) (world : StackWorld) : Stale (leftBehind mem world) :=
  ⟨rfl, rfl⟩

theorem Live.of_alive {x : StackMachine} (h : Live x ∨ Departed x) (halive : x.world.alive = true)
    (hstuck : x.world.stuck = false) : Live x := by
  rcases h with hlive | hended
  · exact hlive
  · exact absurd (hstuck.symm.trans (hended.gone halive)) Bool.false_ne_true

/-- In every run of `run_network`, from any state that the previous title left behind: every call
into lwIP and into the adapter driver keeps its rule of `stackPre`; a handle is closed only with the
interface out of lwIP's list, and is left to the system only once the module has let go of lwIP and
the stack thread is gone or `tcpip_shutdown` gave up on it; and the run ends without the core lock
and, with the same exception, with nothing in a list that a living stack thread serves. -/
theorem runNetwork_keepsRules (config : ModuleConfig) (fuel : ℕ) (mem : NetState)
    (world : StackWorld) :
    (∀ call y, Makes rulesReply (runNetwork config fuel) (leftBehind mem world) (.net call) y →
      stackPre call y) ∧
    (∀ ax y, Makes rulesReply (runNetwork config fuel) (leftBehind mem world)
      (.ax88179Close ax) y → y.world.listed = false ∧ y.world.dhcp = .absent) ∧
    (∀ ax y, Makes rulesReply (runNetwork config fuel) (leftBehind mem world)
      (.ax88179AbandonTitle ax) y → Abandoned y) ∧
    ∀ ret y, Exec rulesReply (runNetwork config fuel) (leftBehind mem world) ret y →
      y.world.locked = false ∧ (y.world.alive = true → y.world.stuck = false →
        y.world.listed = false ∧ y.world.dhcp = .absent) := by
  have hwp := rules_runNetwork config fuel (stale_leftBehind mem world)
  refine ⟨fun call y hmakes ↦ hmakes.pre_of_wp hwp, fun ax y hmakes ↦ ?_, fun ax y hmakes ↦ ?_,
    fun ret y hexec ↦ ?_⟩
  · have hclose := hmakes.pre_of_wp hwp
    exact ⟨hclose.2, hclose.1.noDhcp hclose.2⟩
  · exact hmakes.pre_of_wp hwp
  · rcases hexec.post_of_wp hwp with ⟨hlive, hinactive⟩ | hended
    · have hunlisted := hlive.unlisted hinactive
      exact ⟨hlive.unlocked, fun _ _ ↦ ⟨hunlisted, hlive.noDhcp hunlisted⟩⟩
    · refine ⟨hended.unlocked, fun halive hstuck ↦ ?_⟩
      exact (Bool.false_ne_true (hstuck.symm.trans (hended.gone halive))).elim

/-- In every run of `run_network`, at every call outside the functions of the interface and at the
end: as long as the stack thread lives and no `tcpip_shutdown` gave up on it, the static data of the
module mirrors lwIP.  No packet buffer is held, the three counters tell the frames that the adapter
delivered and those that lwIP took, which it took in their order; the interface is active exactly
while lwIP lists it, up, with the link state that was last seen, and a DHCP client runs for it
exactly when no lease was restored. -/
theorem runNetwork_mirrorsStack (config : ModuleConfig) (fuel : ℕ) (mem : NetState)
    (world : StackWorld) :
    (∀ request y, Makes rulesReply (runNetwork config fuel) (leftBehind mem world) request y →
      (∀ call, request ≠ .net call) → y.world.alive = true → y.world.stuck = false → Live y) ∧
    ∀ ret y, Exec rulesReply (runNetwork config fuel) (leftBehind mem world) ret y →
      y.world.alive = true → y.world.stuck = false → Live y := by
  have hwp := rules_runNetwork config fuel (stale_leftBehind mem world)
  refine ⟨fun request y hmakes houtside halive hstuck ↦ ?_, fun ret y hexec halive hstuck ↦ ?_⟩
  · have hpre := hmakes.pre_of_wp hwp
    cases request with
    | net call => exact absurd rfl (houtside call)
    | ax88179Close ax => exact hpre.1
    | ax88179AbandonTitle ax => exact Live.of_alive (.inr hpre.toDeparted) halive hstuck
    | _ => exact Live.of_alive hpre halive hstuck
  · exact Live.of_alive ((hexec.post_of_wp hwp).imp And.left id) halive hstuck

end Ax88179Aroma.Module
