import Ax88179Aroma.Net.Interface

/-!
# The heartbeat timer

`setup_netif` arms a timeout whose handler `beat_cb` arms the next one, and neither `stop_netif` nor
`ax_net_stop` cancels it.  One lwIP instance lives from one `ax_net_forget` to the next.  On it every
`ax_net_start` that gets as far as `sys_timeout` leaves one more timeout behind for good: along every
run the number of pending timeouts is the number of these starts.
-/

namespace Ax88179Aroma.Net

open Effect Program

/-- How lwIP answers the two calls that decide a start: whether `netif_add` returned an interface,
and the result of `dhcp_start`. -/
structure StartOutcome where
  added : Bool
  dhcp : ℤ
  deriving DecidableEq, Repr

/-- Replies with a given outcome of a start. -/
def startReplies (outcome : StartOutcome) : Replies NetState NetWorld NetCall NetReply
  | .netifAdd ax, answer, x =>
    if decide (answer.code ≠ 0) = outcome.added then replies (.netifAdd ax) answer x else none
  | .dhcpStart, answer, x =>
    if answer.code = outcome.dhcp then replies .dhcpStart answer x else none
  | request, answer, x => replies request answer x

/-- One complete call, or the expiry of a pending timeout. -/
inductive NetEvent where
  | start (ax : ℕ) (outcome : StartOutcome)
  | poll
  | stop
  | expire
  | forget
  deriving DecidableEq, Repr

/-- lwIP removes an entry before it runs the handler. -/
def NetWorld.expired (world : NetWorld) : NetWorld := { beats := world.beats - 1 }

/-- What an event does. -/
def NetStep : NetEvent → NetMachine → NetMachine → Prop
  | .start ax outcome, x, y => ∃ value, Exec (startReplies outcome) (axNetStart ax) x value y
  | .poll, x, y => ∃ fuel value, Exec replies (axNetPoll fuel) x value y
  | .stop, x, y => ∃ fuel, Exec replies (axNetStop fuel) x () y
  | .expire, x, y =>
    0 < x.world.beats ∧ Exec replies beatCb { x with world := x.world.expired } () y
  | .forget, x, y => Exec replies axNetForget x () y

/-- A start that passes every check before `sys_timeout`: the interface is down, the handle is
valid, `netif_add` succeeds, and the cached lease is restored or `dhcp_start` succeeds. -/
def NetState.arms (s : NetState) : NetEvent → Bool
  | .start ax outcome =>
    decide (s.active = 0 ∧ ax ≠ 0 ∧ outcome.added = true ∧
      (s.restoreLease = true ∨ outcome.dhcp = errOk))
  | _ => false

/-- The arming starts of one lwIP instance after one more event. -/
def armingStarts (s : NetState) (event : NetEvent) (count : ℕ) : ℕ :=
  if event = .forget then 0 else if s.arms event then count + 1 else count

/-- `NetRun x count y` when some run takes `x` to `y` and the current lwIP instance has seen `count`
arming starts in it. -/
inductive NetRun (x : NetMachine) : ℕ → NetMachine → Prop where
  | refl : NetRun x 0 x
  | step {count : ℕ} {y z : NetMachine} {event : NetEvent} (hrun : NetRun x count y)
      (hstep : NetStep event y z) : NetRun x (armingStarts y.mem event count) z

/-! ## What each event does to the pending timeouts -/

/-- The calls that leave the pending timeouts alone. -/
def NetCall.timeless : NetCall → Bool
  | .sysTimeout _ => false
  | .lwipPortResetAll => false
  | _ => true

/-- A program that leaves the pending timeouts alone. -/
abbrev Timeless (program : NetM α) : Prop :=
  Keeps (fun _ ↦ ()) (fun request ↦ request.timeless = true) program

theorem timeless_of_supervises {program : NetM α} (h : Supervises program) : Timeless program := by
  refine h.mono (fun _ _ _ ↦ rfl) fun request hquiet ↦ ?_
  cases request <;> first | rfl | cases hquiet

theorem timeless_drainTx (ax : ℕ) (send : ℤ) (fuel : ℕ) : Timeless (drainTx ax send fuel) := by
  have hread : ∀ slot count, Timeless (readPool slot count) := by
    intro slot count
    induction count with
    | zero => trivial
    | succ count ih =>
      exact Keeps.bind ih fun _ ↦ Keeps.bind (keeps_load _) fun _ ↦ keeps_pure _
  have htransmit : ∀ m, Timeless (transmit ax m) := fun m ↦
    Keeps.bind (hread _ _) fun _ ↦ Keeps.bind (keeps_perform rfl) fun _ ↦
      Keeps.ite (keeps_store fun _ ↦ rfl) (keeps_store fun _ ↦ rfl)
  induction fuel with
  | zero => trivial
  | succ fuel ih =>
    refine Keeps.bind (keeps_perform rfl) fun received ↦ ?_
    cases received.message with
    | none => trivial
    | some m =>
      refine Keeps.bind (Keeps.when (htransmit m)) fun _ ↦ ?_
      exact Keeps.bind (keeps_store fun _ ↦ rfl) fun _ ↦ ih

theorem timeless_axNetPoll (fuel : ℕ) : Timeless (axNetPoll fuel) := by
  have hframes : Timeless (pollFrames fuel) := by
    refine Keeps.bind (keeps_load _) fun ax ↦ Keeps.bind (timeless_drainTx ax 1 fuel) fun _ ↦ ?_
    refine Keeps.bind (timeless_of_supervises (supervises_receiveFrame 5000)) fun received ↦ ?_
    refine Keeps.bind (timeless_of_supervises (supervises_inputReceived received fuel)) fun _ ↦ ?_
    refine Keeps.bind (keeps_load _) fun ax ↦ Keeps.bind (timeless_drainTx ax 1 fuel) fun _ ↦ ?_
    exact keeps_pure _
  refine Keeps.bind (keeps_load _) fun active ↦ Keeps.ite (keeps_pure _) ?_
  refine Keeps.bind (keeps_perform rfl) fun now ↦ ?_
  refine Keeps.bind (timeless_of_supervises (supervises_pollLinkIfDue _)) fun lost ↦ ?_
  exact Keeps.ite (keeps_pure _) hframes

theorem timeless_axNetStop (fuel : ℕ) : Timeless (axNetStop fuel) := by
  refine Keeps.bind (keeps_load _) fun active ↦ Keeps.ite (keeps_pure _) ?_
  refine Keeps.bind (timeless_of_supervises (supervises_invoke rfl)) fun _ ↦ ?_
  refine Keeps.bind (timeless_of_supervises supervises_stopNetif) fun _ ↦ ?_
  refine Keeps.bind (timeless_of_supervises (supervises_invoke rfl)) fun _ ↦ ?_
  refine Keeps.bind (keeps_load _) fun ax ↦ Keeps.bind (timeless_drainTx ax 0 fuel) fun _ ↦ ?_
  exact keeps_store fun _ ↦ rfl

theorem replies_timeless {request : NetCall} {answer : NetReply} {x y : NetMachine}
    (htimeless : request.timeless = true) (hreply : replies request answer x = some y) :
    y.world = x.world := by
  cases request with
  | osSendMessage m =>
    simp only [replies] at hreply
    split at hreply
    all_goals
      split at hreply
      all_goals cases hreply
      all_goals rfl
  | osReceiveMessage =>
    simp only [replies] at hreply
    split at hreply
    all_goals
      split at hreply
      all_goals cases hreply
      all_goals rfl
  | sysTimeout ms => cases htimeless
  | lwipPortResetAll => cases htimeless
  | _ =>
    cases hreply
    rfl

theorem beats_of_timeless {program : NetM α} {x y : NetMachine} {value : α}
    (hexec : Exec replies program x value y) (htimeless : Timeless program) :
    y.world.beats = x.world.beats := by
  have hwp : wp replies (fun _ _ ↦ True) program
      (fun _ y ↦ y.world.beats = x.world.beats) x := by
    refine wp_keeps htimeless ?_ ?_ ?_ rfl
    · exact fun y mem _ hy ↦ hy
    · intro request answer y z htimeless hy hreply
      rw [replies_timeless htimeless hreply, hy]
    · exact fun _ _ _ _ ↦ trivial
  exact hexec.post_of_wp hwp

section Start

variable {outcome : StartOutcome} {x : NetMachine}

/-- The postcondition of a part of a start that begins on `x`. -/
abbrev startWp (outcome : StartOutcome) (program : NetM α) (post : α → NetMachine → Prop)
    (x : NetMachine) : Prop :=
  wp (startReplies outcome) (fun _ _ ↦ True) program post x

theorem replies_of_startReplies {request : NetCall} {answer : NetReply} {y z : NetMachine}
    (hreply : startReplies outcome request answer y = some z) :
    replies request answer y = some z := by
  cases request with
  | netifAdd ax =>
    simp only [startReplies] at hreply
    split at hreply
    · exact hreply
    · cases hreply
  | dhcpStart =>
    simp only [startReplies] at hreply
    split at hreply
    · exact hreply
    · cases hreply
  | _ => exact hreply

/-- Supervision keeps the pending timeouts and the core of the state. -/
theorem startWp_then {first : NetM α} {next : α → NetM β} {post : β → NetMachine → Prop}
    (hfirst : Supervises first)
    (hnext : ∀ value y, y.world = x.world → y.mem.core = x.mem.core →
      startWp outcome (next value) post y) : startWp outcome (first >>= next) post x := by
  have hkeep : startWp outcome first
      (fun _ y ↦ y.world = x.world ∧ y.mem.core = x.mem.core) x := by
    refine wp_keeps hfirst ?_ ?_ ?_ ⟨rfl, rfl⟩
    · exact fun y mem hcore hy ↦ ⟨hy.1, hcore.trans hy.2⟩
    · intro request answer y z hquiet hy hreply
      obtain ⟨hworld, hcore⟩ := replies_quiet hquiet (replies_of_startReplies hreply)
      exact ⟨hworld.trans hy.1, hcore.trans hy.2⟩
    · exact fun _ _ _ _ ↦ trivial
  rw [startWp, wp_bind]
  exact wp_mono hkeep fun value y hy ↦ hnext value y hy.1 hy.2

/-- `setup_netif` gets past the address exactly when the lease is restored or DHCP starts. -/
theorem startWp_setupAddress (restoreLease : Bool) (x : NetMachine) :
    startWp outcome (setupAddress restoreLease)
      (fun ready y ↦ y.world = x.world ∧
        ready = decide (restoreLease = true ∨ outcome.dhcp = errOk)) x := by
  cases restoreLease with
  | true => simp [startWp, setupAddress, invoke, startReplies, replies]
  | false =>
    simp only [startWp, setupAddress, Bool.false_eq_true, if_false, wp_bind, wp_perform, true_and]
    intro answer y hreply
    simp only [startReplies] at hreply
    split at hreply
    · rename_i hcode
      cases hreply
      by_cases hok : outcome.dhcp = errOk
      · simp [hcode, hok]
      · simp [hcode, hok, invoke, startReplies, replies]
    · cases hreply

/-- After `netif_add`, one timeout is armed when the interface gets its address. -/
theorem startWp_setupAdded (linkUp restoreLease : Bool) (x : NetMachine) :
    startWp outcome (setupAdded linkUp restoreLease)
      (fun _ y ↦ y.world.beats = x.world.beats +
        if restoreLease = true ∨ outcome.dhcp = errOk then 1 else 0) x := by
  refine startWp_then (keeps_store fun _ ↦ rfl) fun _ x₁ hx₁ _ ↦ ?_
  refine startWp_then (supervises_invoke rfl) fun _ x₂ hx₂ _ ↦ ?_
  refine startWp_then (supervises_invoke rfl) fun _ x₃ hx₃ _ ↦ ?_
  refine startWp_then (Keeps.when (supervises_invoke rfl)) fun _ x₄ hx₄ _ ↦ ?_
  have hworld : x₄.world = x.world := by rw [hx₄, hx₃, hx₂, hx₁]
  rw [startWp, wp_bind]
  refine wp_mono (startWp_setupAddress restoreLease x₄) fun ready y ⟨hy, hready⟩ ↦ ?_
  by_cases hok : restoreLease = true ∨ outcome.dhcp = errOk
  · simp [hready, hok, invoke, startReplies, replies, hy, hworld]
  · simp [hready, hok, hy, hworld]

/-- `setup_netif` arms one timeout when it succeeds, and none otherwise. -/
theorem startWp_setupNetif (ax : ℕ) (linkUp restoreLease : Bool) (x : NetMachine) :
    startWp outcome (setupNetif ax linkUp restoreLease)
      (fun _ y ↦ y.world.beats = x.world.beats +
        if outcome.added = true ∧ (restoreLease = true ∨ outcome.dhcp = errOk) then 1 else 0) x := by
  refine startWp_then supervises_removeLeftover fun _ x₁ hx₁ _ ↦ ?_
  refine startWp_then (keeps_store fun _ ↦ rfl) fun _ x₂ hx₂ _ ↦ ?_
  have hworld : x₂.world = x.world := by rw [hx₂, hx₁]
  simp only [startWp, wp_bind, wp_perform, true_and]
  intro answer y hreply
  simp only [startReplies] at hreply
  split at hreply
  · rename_i hadded
    cases hreply
    by_cases hcode : answer.code = 0
    · simp [hcode, ← hadded, hworld]
    · rw [if_neg hcode]
      refine wp_mono (startWp_setupAdded linkUp restoreLease _) fun _ z hz ↦ ?_
      simp [hz, hworld, ← hadded, hcode]
  · cases hreply

/-- The part of a start on a stack that is up. -/
theorem startWp_startInterface (ax : ℕ) (x : NetMachine) :
    startWp outcome (startInterface ax)
      (fun _ y ↦ y.world.beats = x.world.beats +
        if outcome.added = true ∧ (x.mem.restoreLease = true ∨ outcome.dhcp = errOk) then 1
        else 0) x := by
  simp only [startInterface]
  rw [startWp, wp_bind, wp_load]
  refine startWp_then (keeps_store fun _ ↦ rfl) fun _ x₁ hx₁ _ ↦ ?_
  refine startWp_then (keeps_perform rfl) fun link x₂ hx₂ _ ↦ ?_
  refine startWp_then (supervises_invoke rfl) fun _ x₃ hx₃ _ ↦ ?_
  rw [startWp, wp_bind]
  refine wp_mono (startWp_setupNetif ax _ _ x₃) fun err y hy ↦ ?_
  rw [hx₃, hx₂, hx₁] at hy
  refine startWp_then (supervises_invoke rfl) fun _ y₁ hy₁ _ ↦ ?_
  rw [startWp, wp_ite]
  split
  · rw [wp_pure, hy₁, hy]
  · refine startWp_then (keeps_perform rfl) fun now y₂ hy₂ _ ↦ ?_
    rw [startWp, wp_bind, wp_store, wp_pure, hy₂, hy₁, hy]

/-- A start leaves one more pending timeout exactly when it arms. -/
theorem startWp_axNetStart (ax : ℕ) (x : NetMachine) :
    startWp outcome (axNetStart ax)
      (fun _ y ↦ y.world.beats = x.world.beats +
        if x.mem.arms (.start ax outcome) then 1 else 0) x := by
  have hinit : ∀ initialized : ℤ, startWp outcome (when (initialized = 0) initStack)
      (fun _ y ↦ y.world = x.world ∧ y.mem.restoreLease = x.mem.restoreLease) x := by
    intro initialized
    have hkeeps : Keeps NetState.restoreLease (fun request ↦ request.quiet = true)
        (when (initialized = 0) initStack) := by
      refine Keeps.when (Keeps.bind (Keeps.each fun slot _ ↦ keeps_store fun _ ↦ rfl) fun _ ↦ ?_)
      refine Keeps.bind (keeps_store fun _ ↦ rfl) fun _ ↦ ?_
      exact Keeps.bind ((supervises_invoke rfl).mono (fun s t h ↦ congrArg (·.2.2.2) h)
        fun _ h ↦ h) fun _ ↦ keeps_store fun _ ↦ rfl
    refine wp_keeps hkeeps ?_ ?_ (fun _ _ _ _ ↦ trivial) ⟨rfl, rfl⟩
    · exact fun y mem hlease hy ↦ ⟨hy.1, hlease.trans hy.2⟩
    · intro request answer y z hquiet hy hreply
      obtain ⟨hworld, hcore⟩ := replies_quiet hquiet (replies_of_startReplies hreply)
      exact ⟨hworld.trans hy.1, (congrArg (·.2.2.2) hcore).trans hy.2⟩
  simp only [startWp, axNetStart, wp_bind, wp_load, wp_ite, NetState.arms]
  split
  · rename_i hrefused
    have harms : ¬ (x.mem.active = 0 ∧ ax ≠ 0) := by tauto
    simp only [wp_pure, decide_eq_true_eq]
    rw [if_neg fun h ↦ harms ⟨h.1, h.2.1⟩, Nat.add_zero]
  · rename_i hpassed
    obtain ⟨hactive, hax⟩ : x.mem.active = 0 ∧ ax ≠ 0 := by tauto
    refine wp_mono (hinit x.mem.initialized) fun _ y hpost ↦ ?_
    obtain ⟨hworld, hlease⟩ := hpost
    refine wp_mono (startWp_startInterface ax y) fun _ z hz ↦ ?_
    simp only [hz, hworld, hlease, hactive, hax, ne_eq, not_false_eq_true, true_and,
      decide_eq_true_eq]

end Start

/-! ## Runs -/

/-- Of all events only an arming start adds a timeout and only `ax_net_forget` removes any. -/
theorem beats_netStep {event : NetEvent} {x y : NetMachine} (hstep : NetStep event x y) :
    y.world.beats = armingStarts x.mem event x.world.beats := by
  cases event with
  | start ax outcome =>
    obtain ⟨value, hexec⟩ := hstep
    have hbeats := hexec.post_of_wp (startWp_axNetStart ax x)
    simp only [hbeats, armingStarts, reduceCtorEq, if_false]
    split <;> rfl
  | poll =>
    obtain ⟨fuel, value, hexec⟩ := hstep
    exact beats_of_timeless hexec (timeless_axNetPoll fuel)
  | stop =>
    obtain ⟨fuel, hexec⟩ := hstep
    exact beats_of_timeless hexec (timeless_axNetStop fuel)
  | expire =>
    obtain ⟨hpending, hexec⟩ := hstep
    have hwp : wp replies (fun _ _ ↦ True) beatCb
        (fun _ y ↦ y.world.beats = x.world.beats - 1 + 1)
        { x with world := x.world.expired } := by
      simp [beatCb, invoke, replies, NetWorld.expired]
    rw [hexec.post_of_wp hwp, Nat.sub_add_cancel hpending]
    rfl
  | forget =>
    have hwp : wp replies (fun _ _ ↦ True) axNetForget (fun _ y ↦ y.world.beats = 0) x := by
      simp [axNetForget, invoke, replies]
    exact Exec.post_of_wp hstep hwp

/-- Along every run the pending timeouts are the arming starts of the current lwIP instance. -/
theorem beats_eq_armingStarts {x y : NetMachine} {count : ℕ} (hx : x.world.beats = 0)
    (hrun : NetRun x count y) : y.world.beats = count := by
  induction hrun with
  | refl => exact hx
  | step hrun hstep ih => rw [beats_netStep hstep, ih]

/-- On one lwIP instance at most one heartbeat is pending exactly as long as at most one
`ax_net_start` on it gets as far as `sys_timeout`. -/
theorem beats_le_one_iff {x y : NetMachine} {count : ℕ} (hx : x.world.beats = 0)
    (hrun : NetRun x count y) : y.world.beats ≤ 1 ↔ count ≤ 1 := by
  rw [beats_eq_armingStarts hx hrun]

/-! ## A recovery -/

def startedOutcome : StartOutcome where
  added := true
  dhcp := errOk

/-- The machine that a program reaches on the given replies. -/
def after (reply : Replies NetState NetWorld NetCall NetReply) (program : NetM α)
    (answers : List NetReply) (x : NetMachine) : NetMachine :=
  match run reply program answers x with
  | some result => result.2.1
  | none => x

theorem exec_after {reply : Replies NetState NetWorld NetCall NetReply} {program : NetM α}
    {answers : List NetReply} {x : NetMachine} {value : α}
    (hvalue : (run reply program answers x).map (·.1) = some value) :
    Exec reply program x value (after reply program answers x) := by
  obtain ⟨⟨_, y, rest⟩, hrun, rfl⟩ := Option.map_eq_some_iff.mp hvalue
  rw [after, hrun]
  exact exec_of_run hrun

/-- The first start: `tcpip_init`, `ax88179_link`, the lock, `netif_add` and its followers. -/
def firstStart : NetMachine :=
  after (startReplies startedOutcome) (axNetStart 1)
    [{}, {}, {}, { code := 1 }, {}, {}, {}, {}, {}, {}] freshModule

/-- The interface stops with its DHCP client running and an empty queue. -/
def firstStop : NetMachine :=
  after replies (axNetStop 1) [{}, { code := 1 }, {}, {}, {}, {}, {}, {}] firstStart

def secondStart : NetMachine :=
  after (startReplies startedOutcome) (axNetStart 1)
    [{}, {}, { code := 1 }, {}, {}, {}, {}, {}, {}] firstStop

/-- `recover_adapter` on one lwIP instance: start, stop, start. -/
theorem netRun_recovery : NetRun freshModule 2 secondStart := by
  have hfirst : NetStep (.start 1 startedOutcome) freshModule firstStart := ⟨0, exec_after rfl⟩
  have hstop : NetStep .stop firstStart firstStop := ⟨1, exec_after rfl⟩
  have hsecond : NetStep (.start 1 startedOutcome) firstStop secondStart := ⟨0, exec_after rfl⟩
  exact ((NetRun.refl.step hfirst).step hstop).step hsecond

/-- A single start meets the condition, and one timeout is pending after it. -/
theorem beats_le_one_iff_firstStart :
    NetRun freshModule 1 firstStart ∧ (firstStart.world.beats ≤ 1 ↔ 1 ≤ 1) := by
  have hfirst : NetStep (.start 1 startedOutcome) freshModule firstStart := ⟨0, exec_after rfl⟩
  have hrun : NetRun freshModule 1 firstStart := NetRun.refl.step hfirst
  exact ⟨hrun, beats_le_one_iff rfl hrun⟩

/-- The recovery leaves two timeouts pending. -/
theorem recovery_not_beats_le_one :
    ¬ ∀ x y count, x.world.beats = 0 → NetRun x count y → y.world.beats ≤ 1 := by
  intro hsingle
  have hle : secondStart.world.beats ≤ 1 := hsingle freshModule secondStart 2 rfl netRun_recovery
  have htwo : secondStart.world.beats = 2 := rfl
  omega

end Ax88179Aroma.Net
