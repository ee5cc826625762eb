import Ax88179Aroma.Effect.Program

/-!
# The callbacks of the module

The three WUMS callbacks of `aroma_module/main.c` that create and stop the worker and the watchdog.
Both threads live on static thread objects with static stacks, so an object must not be handed to
`OSCreateThread` while the thread that was created on it last has not returned.  A thread may return
at any time: every reply says which threads have returned by then.
-/

namespace Ax88179Aroma.Module

open Effect Program

/-- The static thread objects. -/
inductive ModuleThread where
  | worker
  | watchdog
  deriving DecidableEq, Repr

structure CallbackState where
  started : Bool := false
  watchdogStarted : Bool := false
  menuSeen : Bool := false
  stopping : Bool := false
  titleEnding : Bool := false
  deriving DecidableEq, Repr

inductive CallbackCall where
  | osGetTitleId
  | nsysnetShimBeginTitle
  | nsysnetShimQuiesce
  | osCreateThread (thread : ModuleThread)
  | osSetThreadName (thread : ModuleThread)
  | osResumeThread (thread : ModuleThread)
  | osIsThreadTerminated (thread : ModuleThread)
  | osJoinThread (thread : ModuleThread)
  | osSleepMs (ms : ℕ)
  deriving DecidableEq, Repr

/-- The returned value, and the threads that have returned by the time of the call. -/
structure CallbackReply where
  code : ℕ := 0
  returned : ModuleThread → Bool := fun _ ↦ false

abbrev CallbackM := Program CallbackState CallbackCall CallbackReply

namespace CallbackM

def invoke (request : CallbackCall) : CallbackM Unit := do
  let _ ← perform request
  pure ()

def terminated (thread : ModuleThread) : CallbackM Bool := do
  let answer ← perform (.osIsThreadTerminated thread)
  pure (decide (answer.code ≠ 0))

/-- Poll a thread every ten milliseconds, a bounded number of times. -/
def await (thread : ModuleThread) : ℕ → CallbackM Unit
  | 0 => pure ()
  | polls + 1 => do
    let gone ← terminated thread
    if gone then pure ()
    else do
      invoke (.osSleepMs 10)
      await thread polls

/-- Poll a thread and join it if it has terminated. -/
def awaitJoin (thread : ModuleThread) (polls : ℕ) : CallbackM Unit := do
  await thread polls
  let gone ← terminated thread
  when (gone = true) (invoke (.osJoinThread thread))

def stopWatchdog : CallbackM Unit := do
  awaitJoin .watchdog 50
  store fun s ↦ { s with watchdogStarted := false }

def stopAfterAllApplicationEnds : CallbackM Unit := do
  let started ← load fun s ↦ s.started
  when (started = true) do
    invoke .osGetTitleId
    store fun s ↦ { s with titleEnding := true }
    store fun s ↦ { s with stopping := true }
    awaitJoin .worker 200
    let watchdogStarted ← load fun s ↦ s.watchdogStarted
    when (watchdogStarted = true) stopWatchdog
    store fun s ↦ { s with started := false }

def stopWorker : CallbackM Unit := do
  let started ← load fun s ↦ s.started
  when (started = true) do
    invoke .nsysnetShimQuiesce
    store fun s ↦ { s with stopping := true }
    awaitJoin .worker 200
    store fun s ↦ { s with started := false }

def isWiiuMenuTitle (titleId : ℕ) : Bool :=
  titleId = 0x0005001010040000 ∨ titleId = 0x0005001010040100 ∨ titleId = 0x0005001010040200

/-- Whether the Wii U Menu has been seen, now or before. -/
def menuReached (titleId : ℕ) : CallbackM Bool := do
  let seen ← load fun s ↦ s.menuSeen
  if seen then pure true
  else if isWiiuMenuTitle titleId then do
    store fun s ↦ { s with menuSeen := true }
    pure true
  else pure false

/-- `!watchdog_started || OSIsThreadTerminated(&watchdog)` -/
def watchdogFree : CallbackM Bool := do
  let watchdogStarted ← load fun s ↦ s.watchdogStarted
  if watchdogStarted then terminated .watchdog else pure true

def startWatchdog : CallbackM Unit := do
  let free ← watchdogFree
  when (free = true) do
    let created ← perform (.osCreateThread .watchdog)
    when (created.code ≠ 0) do
      store fun s ↦ { s with watchdogStarted := true }
      invoke (.osSetThreadName .watchdog)
      invoke (.osResumeThread .watchdog)

def startThreads : CallbackM Unit := do
  invoke .nsysnetShimBeginTitle
  store fun s ↦ { s with titleEnding := false }
  store fun s ↦ { s with stopping := false }
  let created ← perform (.osCreateThread .worker)
  when (created.code ≠ 0) do
    store fun s ↦ { s with started := true }
    invoke (.osSetThreadName .worker)
    invoke (.osResumeThread .worker)
    startWatchdog

def applicationStarts : CallbackM Unit := do
  let titleId ← perform .osGetTitleId
  let reached ← menuReached titleId.code
  when (reached = true) do
    let started ← load fun s ↦ s.started
    when (started = false) startThreads

end CallbackM

inductive Callback where
  | applicationStarts
  | allApplicationEndsDone
  | deinitialize
  deriving DecidableEq, Repr

def Callback.program : Callback → CallbackM Unit
  | applicationStarts => CallbackM.applicationStarts
  | allApplicationEndsDone => CallbackM.stopAfterAllApplicationEnds
  | deinitialize => CallbackM.stopWorker

/-! ## The threads -/

/-- The threads that were created and have not returned. -/
structure Threads where
  running : ModuleThread → Bool := fun _ ↦ false

namespace Threads

def settle (threads : Threads) (returned : ModuleThread → Bool) : Threads where
  running thread := threads.running thread && !returned thread

def create (threads : Threads) (thread : ModuleThread) : Threads where
  running := Function.update threads.running thread true

end Threads

abbrev CallbackMachine := Machine CallbackState Threads

/-- `OSIsThreadTerminated` tells whether the thread has returned; everything else may return
anything. -/
def callbackReply : Replies CallbackState Threads CallbackCall CallbackReply
  | .osIsThreadTerminated thread, answer, x =>
    if answer.code ≠ 0 ↔ (x.world.settle answer.returned).running thread = false then
      some { x with world := x.world.settle answer.returned }
    else none
  | .osCreateThread thread, answer, x =>
    if answer.code = 0 then some { x with world := x.world.settle answer.returned }
    else some { x with world := (x.world.settle answer.returned).create thread }
  | _, answer, x => some { x with world := x.world.settle answer.returned }

/-- No thread object is used again while its thread runs. -/
def FreshThread : CallbackCall → CallbackMachine → Prop
  | .osCreateThread thread, x => x.world.running thread = false
  | _, _ => True

/-- The states between the callbacks of a run, whose steps all satisfy a condition.  Threads also
return in between. -/
inductive CallbackRun (condition : Callback → CallbackMachine → CallbackMachine → Prop) :
    CallbackMachine → Prop where
  | start : CallbackRun condition ⟨{}, {}⟩
  | settle {x : CallbackMachine} (hrun : CallbackRun condition x) (returned : ModuleThread → Bool) :
      CallbackRun condition { x with world := x.world.settle returned }
  | callback {x y : CallbackMachine} (hrun : CallbackRun condition x) (callback : Callback)
      (hcall : Exec callbackReply callback.program x () y) (hmeets : condition callback x y) :
      CallbackRun condition y

/-- A stop that finds the module started does not return before the worker has, and at the end of a
title, if the watchdog was started, not before the watchdog has. -/
def StopsThreads (callback : Callback) (x y : CallbackMachine) : Prop :=
  callback ≠ .applicationStarts → x.mem.started = true →
    y.world.running .worker = false ∧
      (callback = .allApplicationEndsDone → x.mem.watchdogStarted = true →
        y.world.running .watchdog = false)

/-! ## Stopping -/

abbrev callbackWp {α : Type} (program : CallbackM α) (post : α → CallbackMachine → Prop)
    (x : CallbackMachine) : Prop :=
  wp callbackReply FreshThread program post x

/-- Only threads that ran before run now. -/
def Calms (x y : CallbackMachine) : Prop :=
  ∀ thread, x.world.running thread = false → y.world.running thread = false

theorem Threads.settle_running {threads : Threads} {thread : ModuleThread}
    (returned : ModuleThread → Bool) (h : threads.running thread = false) :
    (threads.settle returned).running thread = false := by
  simp [Threads.settle, h]

/-- Calls that create no thread. -/
def IsQuiet : CallbackCall → Prop
  | .osCreateThread _ => False
  | _ => True

theorem IsQuiet.calms {request : CallbackCall} {answer : CallbackReply} {x y z : CallbackMachine}
    (hquiet : IsQuiet request) (hreply : callbackReply request answer y = some z)
    (hy : Calms x y) : z.mem = y.mem ∧ Calms x z := by
  have hsettled : z = { y with world := y.world.settle answer.returned } := by
    cases request with
    | osCreateThread thread => cases hquiet
    | osIsThreadTerminated thread =>
      rw [callbackReply] at hreply
      split at hreply
      · exact (Option.some.inj hreply).symm
      · cases hreply
    | _ => exact (Option.some.inj hreply).symm
  rw [hsettled]
  exact ⟨rfl, fun thread hthread ↦ Threads.settle_running _ (hy thread hthread)⟩

theorem wp_quiet {α : Type} {program : CallbackM α} {x : CallbackMachine}
    (hkeeps : Keeps id IsQuiet program) :
    callbackWp program (fun _ y ↦ y.mem = x.mem ∧ Calms x y) x := by
  refine wp_keeps hkeeps ?_ ?_ ?_ ⟨rfl, fun _ h ↦ h⟩
  · intro y mem hview hy
    exact ⟨(show mem = y.mem from hview).trans hy.1, hy.2⟩
  · intro request answer y z hquiet hy hreply
    obtain ⟨hmem, hcalms⟩ := hquiet.calms hreply hy.2
    exact ⟨hmem.trans hy.1, hcalms⟩
  · intro request y hquiet _
    cases request <;> trivial

theorem keeps_callback {request : CallbackCall} (hquiet : IsQuiet request) :
    Keeps id IsQuiet (CallbackM.invoke request) :=
  (keeps_perform hquiet).bind fun _ ↦ trivial

theorem keeps_terminated (thread : ModuleThread) : Keeps id IsQuiet (CallbackM.terminated thread) :=
  Keeps.bind (keeps_perform trivial) fun _ ↦ trivial

theorem keeps_awaitJoin (thread : ModuleThread) (polls : ℕ) :
    Keeps id IsQuiet (CallbackM.awaitJoin thread polls) := by
  have hawait : Keeps id IsQuiet (CallbackM.await thread polls) := by
    induction polls with
    | zero => trivial
    | succ polls ih =>
      refine (keeps_terminated thread).bind fun gone ↦ Keeps.ite trivial ?_
      exact Keeps.bind (keeps_callback (show IsQuiet (.osSleepMs 10) from trivial)) fun _ ↦ ih
  refine hawait.bind fun _ ↦ (keeps_terminated thread).bind fun gone ↦ ?_
  exact Keeps.when (keeps_callback trivial)

/-- What the flags say about the threads. -/
structure Tracked (x : CallbackMachine) : Prop where
  worker : x.mem.started = false → x.world.running .worker = false
  watchdog : x.mem.watchdogStarted = false → x.world.running .watchdog = false

theorem wp_stopAfterAllApplicationEnds (x : CallbackMachine) :
    callbackWp CallbackM.stopAfterAllApplicationEnds
      (fun _ y ↦ Calms x y ∧ (x.mem.started = false → y.mem = x.mem) ∧
        (x.mem.started = true → y.mem.watchdogStarted = false)) x := by
  refine (wp_bind _ _ _ _).mpr ((wp_load _ _ _).mpr ((wp_when _ _ _ _).mpr ?_))
  split
  · rename_i hstarted
    have hnot : ¬x.mem.started = false := by simp [hstarted]
    refine wp_seq (wp_quiet (keeps_callback trivial)) fun _ y hy ↦ ?_
    refine (wp_bind _ _ _ _).mpr ((wp_store _ _ _).mpr ?_)
    refine (wp_bind _ _ _ _).mpr ((wp_store _ _ _).mpr ?_)
    refine wp_seq (wp_quiet (keeps_awaitJoin .worker 200)) fun _ z hz ↦ ?_
    have hcalms : Calms x z := fun thread h ↦ hz.2 thread (hy.2 thread h)
    refine (wp_bind _ _ _ _).mpr ((wp_load _ _ _).mpr ?_)
    refine (wp_bind _ _ _ _).mpr ((wp_when _ _ _ _).mpr ?_)
    split
    · refine wp_seq (wp_quiet (keeps_awaitJoin .watchdog 50)) fun _ z' hz' ↦ ?_
      refine (wp_store _ _ _).mpr ((wp_store _ _ _).mpr ⟨fun thread h ↦ ?_, ?_, fun _ ↦ rfl⟩)
      · exact hz'.2 thread (hcalms thread h)
      · exact fun h ↦ absurd h hnot
    · rename_i hwatchdog
      exact ⟨hcalms, fun h ↦ absurd h hnot, fun _ ↦ Bool.eq_false_iff.mpr hwatchdog⟩
  · rename_i hstarted
    exact ⟨fun _ h ↦ h, fun _ ↦ rfl, fun h ↦ absurd h hstarted⟩

theorem wp_stopWorker (x : CallbackMachine) :
    callbackWp CallbackM.stopWorker
      (fun _ y ↦ Calms x y ∧ (x.mem.started = false → y.mem = x.mem) ∧
        y.mem.watchdogStarted = x.mem.watchdogStarted) x := by
  refine (wp_bind _ _ _ _).mpr ((wp_load _ _ _).mpr ((wp_when _ _ _ _).mpr ?_))
  split
  · rename_i hstarted
    refine wp_seq (wp_quiet (keeps_callback trivial)) fun _ y hy ↦ ?_
    refine (wp_bind _ _ _ _).mpr ((wp_store _ _ _).mpr ?_)
    refine wp_seq (wp_quiet (keeps_awaitJoin .worker 200)) fun _ z hz ↦ ?_
    refine (wp_store _ _ _).mpr ⟨fun thread h ↦ hz.2 thread (hy.2 thread h), fun h ↦ ?_, ?_⟩
    · exact absurd h (by simp [hstarted])
    · change z.mem.watchdogStarted = x.mem.watchdogStarted
      rw [hz.1, ← hy.1]
  · exact ⟨fun _ h ↦ h, fun _ ↦ rfl, rfl⟩

/-! ## Starting -/

theorem Tracked.calm {x y : CallbackMachine} (hx : Tracked x) (hcalms : Calms x y)
    (hstarted : y.mem.started = x.mem.started)
    (hwatchdog : y.mem.watchdogStarted = x.mem.watchdogStarted) : Tracked y where
  worker h := hcalms .worker (hx.worker (hstarted.symm.trans h))
  watchdog h := hcalms .watchdog (hx.watchdog (hwatchdog.symm.trans h))

theorem Tracked.quiet {x y : CallbackMachine} (hx : Tracked x) (h : y.mem = x.mem ∧ Calms x y) :
    Tracked y :=
  hx.calm h.2 (by rw [h.1]) (by rw [h.1])

theorem wp_invoke_quiet {request : CallbackCall} {x : CallbackMachine} (hquiet : IsQuiet request)
    (hx : Tracked x) : callbackWp (CallbackM.invoke request) (fun _ y ↦ Tracked y ∧ y.mem = x.mem) x :=
  wp_mono (wp_quiet (keeps_callback hquiet)) fun _ _ hy ↦ ⟨hx.quiet hy, hy.1⟩

/-- What creating a thread does. -/
theorem create_cases {thread : ModuleThread} {answer : CallbackReply} {x y : CallbackMachine}
    (hreply : callbackReply (.osCreateThread thread) answer x = some y) :
    y.mem = x.mem ∧ (answer.code = 0 → Calms x y) ∧
      ∀ other ≠ thread, x.world.running other = false → y.world.running other = false := by
  rw [callbackReply] at hreply
  split at hreply
  · obtain rfl := Option.some.inj hreply
    exact ⟨rfl, fun _ other h ↦ Threads.settle_running _ h,
      fun other _ h ↦ Threads.settle_running _ h⟩
  · rename_i hcreated
    obtain rfl := Option.some.inj hreply
    refine ⟨rfl, fun h ↦ absurd h hcreated, fun other hother h ↦ ?_⟩
    exact (Function.update_of_ne hother _ _).trans (Threads.settle_running _ h)

theorem wp_watchdogFree {x : CallbackMachine} (hx : Tracked x) :
    callbackWp CallbackM.watchdogFree
      (fun free y ↦ Tracked y ∧ y.mem = x.mem ∧
        (free = true → y.world.running .watchdog = false)) x := by
  refine (wp_bind _ _ _ _).mpr ((wp_load _ _ _).mpr ((wp_ite _ _ _ _ _).mpr ?_))
  split
  · refine (wp_bind _ _ _ _).mpr ⟨trivial, fun answer y hreply ↦ ?_⟩
    obtain ⟨hmem, hcalms⟩ :=
      IsQuiet.calms (show IsQuiet (.osIsThreadTerminated .watchdog) from trivial) hreply
        (fun _ h ↦ h : Calms x x)
    refine ⟨hx.quiet ⟨hmem, hcalms⟩, hmem, fun hfree ↦ ?_⟩
    rw [callbackReply] at hreply
    split at hreply
    · rename_i htold
      obtain rfl := Option.some.inj hreply
      exact htold.mp (of_decide_eq_true hfree)
    · cases hreply
  · rename_i hwatchdog
    exact ⟨hx, rfl, fun _ ↦ hx.watchdog (Bool.eq_false_iff.mpr hwatchdog)⟩

theorem wp_startWatchdog {x : CallbackMachine} (hx : Tracked x) (hstarted : x.mem.started = true) :
    callbackWp CallbackM.startWatchdog (fun _ ↦ Tracked) x := by
  refine wp_seq (wp_watchdogFree hx) fun free y ⟨hy, hmem, hfree⟩ ↦ ?_
  refine (wp_when _ _ _ _).mpr ?_
  split
  · rename_i htrue
    refine (wp_bind _ _ _ _).mpr ⟨hfree htrue, fun created z hreply ↦ ?_⟩
    obtain ⟨hkeep, hfailed, hothers⟩ := create_cases hreply
    refine (wp_when _ _ _ _).mpr ?_
    split
    · refine (wp_bind _ _ _ _).mpr ((wp_store _ _ _).mpr ?_)
      have hz : Tracked { z with mem := { z.mem with watchdogStarted := true } } :=
        ⟨fun h ↦ absurd (h.symm.trans ((congrArg CallbackState.started (hkeep.trans hmem)).trans
          hstarted)) (by decide), nofun⟩
      refine wp_seq (wp_invoke_quiet trivial hz) fun _ z' hz' ↦ ?_
      exact wp_mono (wp_invoke_quiet trivial hz'.1) fun _ _ h ↦ h.1
    · rename_i hcode
      exact hy.quiet ⟨hkeep, hfailed (not_not.mp hcode)⟩
  · exact hy

theorem wp_startThreads {x : CallbackMachine} (hx : Tracked x) (hstarted : x.mem.started = false) :
    callbackWp CallbackM.startThreads (fun _ ↦ Tracked) x := by
  refine wp_seq (wp_invoke_quiet trivial hx) fun _ y ⟨hy, hmem⟩ ↦ ?_
  refine (wp_bind _ _ _ _).mpr ((wp_store _ _ _).mpr ?_)
  refine (wp_bind _ _ _ _).mpr ((wp_store _ _ _).mpr ?_)
  have hworker : y.world.running .worker = false :=
    hy.worker ((congrArg CallbackState.started hmem).trans hstarted)
  refine (wp_bind _ _ _ _).mpr ⟨hworker, fun created z hreply ↦ ?_⟩
  obtain ⟨hkeep, hfailed, hothers⟩ := create_cases hreply
  refine (wp_when _ _ _ _).mpr ?_
  split
  · refine (wp_bind _ _ _ _).mpr ((wp_store _ _ _).mpr ?_)
    have hz : Tracked { z with mem := { z.mem with started := true } } := by
      refine ⟨nofun, fun h ↦ hothers .watchdog (by decide) (hy.watchdog ?_)⟩
      rw [show z.mem.watchdogStarted = y.mem.watchdogStarted by rw [hkeep]] at h
      exact h
    refine wp_seq (wp_invoke_quiet trivial hz) fun _ z' hz' ↦ ?_
    refine wp_seq (wp_invoke_quiet trivial hz'.1) fun _ z'' hz'' ↦ ?_
    refine wp_startWatchdog hz''.1 ?_
    rw [hz''.2, hz'.2]
  · rename_i hcode
    refine hy.calm (hfailed (not_not.mp hcode)) ?_ ?_
    · rw [hkeep]
    · rw [hkeep]

theorem wp_applicationStarts {x : CallbackMachine} (hx : Tracked x) :
    callbackWp CallbackM.applicationStarts (fun _ ↦ Tracked) x := by
  refine wp_seq (wp_mono (wp_quiet (keeps_perform trivial)) fun _ _ hy ↦ hx.quiet hy)
    fun titleId y hy ↦ ?_
  have hmenu : callbackWp (CallbackM.menuReached titleId.code) (fun _ ↦ Tracked) y := by
    refine (wp_bind _ _ _ _).mpr ((wp_load _ _ _).mpr ((wp_ite _ _ _ _ _).mpr ?_))
    split
    · exact hy
    · refine (wp_ite _ _ _ _ _).mpr ?_
      split
      · exact hy.calm (fun _ h ↦ h) rfl rfl
      · exact hy
  refine wp_seq hmenu fun reached z hz ↦ (wp_when _ _ _ _).mpr ?_
  split
  · refine (wp_bind _ _ _ _).mpr ((wp_load _ _ _).mpr ((wp_when _ _ _ _).mpr ?_))
    split
    · rename_i hstarted
      exact wp_startThreads hz hstarted
    · exact hz
  · exact hz

/-! ## Runs -/

theorem CallbackRun.tracked {x : CallbackMachine} (h : CallbackRun StopsThreads x) : Tracked x := by
  induction h with
  | start => exact ⟨fun _ ↦ rfl, fun _ ↦ rfl⟩
  | settle hrun returned ih => exact ih.calm (fun _ h ↦ Threads.settle_running _ h) rfl rfl
  | @callback x y hrun callback hcall hmeets ih =>
    cases callback with
    | applicationStarts => exact hcall.post_of_wp (wp_applicationStarts ih)
    | allApplicationEndsDone =>
      obtain ⟨hcalms, hidle, hdone⟩ := hcall.post_of_wp (wp_stopAfterAllApplicationEnds x)
      cases hstarted : x.mem.started with
      | false => exact ih.quiet ⟨hidle hstarted, hcalms⟩
      | true =>
        obtain ⟨hworker, hwatchdog⟩ := hmeets (by decide) hstarted
        refine ⟨fun _ ↦ hworker, fun _ ↦ ?_⟩
        cases hdog : x.mem.watchdogStarted with
        | false => exact hcalms .watchdog (ih.watchdog hdog)
        | true => exact hwatchdog rfl hdog
    | deinitialize =>
      obtain ⟨hcalms, hidle, hdog⟩ := hcall.post_of_wp (wp_stopWorker x)
      cases hstarted : x.mem.started with
      | false => exact ih.quiet ⟨hidle hstarted, hcalms⟩
      | true =>
        obtain ⟨hworker, -⟩ := hmeets (by decide) hstarted
        exact ⟨fun _ ↦ hworker, fun h ↦ hcalms .watchdog (ih.watchdog (hdog.symm.trans h))⟩

/-- In every run whose stops see their threads return, no thread object is used again while its
thread runs. -/
theorem callbackRun_fresh {x : CallbackMachine} (h : CallbackRun StopsThreads x)
    (callback : Callback) {thread : ModuleThread} {y : CallbackMachine}
    (hmakes : Makes callbackReply callback.program x (.osCreateThread thread) y) :
    y.world.running thread = false := by
  have htracked := h.tracked
  cases callback with
  | applicationStarts => exact hmakes.pre_of_wp (wp_applicationStarts htracked)
  | allApplicationEndsDone => exact hmakes.pre_of_wp (wp_stopAfterAllApplicationEnds x)
  | deinitialize => exact hmakes.pre_of_wp (wp_stopWorker x)

def firstTitle : List CallbackReply :=
  [{ code := 0x0005001010040000 }, {}, { code := 1 }, {}, {}, { code := 1 }, {}, {}]

/-- Both threads have returned when they are polled. -/
def lastPolls : List CallbackReply :=
  [{}, { code := 1, returned := fun _ ↦ true }, { code := 1 }, {}, { code := 1 }, { code := 1 }, {}]

/-- Two titles, where both threads return before the first one is stopped. -/
theorem callbackRun_fresh_second :
    ∃ x y, CallbackRun StopsThreads x ∧
      Makes callbackReply Callback.applicationStarts.program x (.osCreateThread .worker) y ∧
      y.world.running .worker = false := by
  obtain ⟨threads, ended, hrun, hstop, hworker, hwatchdog⟩ : ∃ threads ended : Threads,
      run callbackReply CallbackM.applicationStarts firstTitle ⟨{}, {}⟩ =
        some ((), ⟨⟨true, true, true, false, false⟩, threads⟩, []) ∧
      run callbackReply CallbackM.stopAfterAllApplicationEnds lastPolls
        ⟨⟨true, true, true, false, false⟩, threads⟩ =
        some ((), ⟨⟨false, false, true, true, true⟩, ended⟩, []) ∧
      ended.running .worker = false ∧ ended.running .watchdog = false :=
    ⟨_, _, rfl, rfl, rfl, rfl⟩
  have hfirst : CallbackRun StopsThreads ⟨⟨true, true, true, false, false⟩, threads⟩ :=
    .callback .start .applicationStarts (exec_of_run hrun) fun h ↦ absurd rfl h
  have hsecond : CallbackRun StopsThreads ⟨⟨false, false, true, true, true⟩, ended⟩ :=
    .callback hfirst .allApplicationEndsDone (exec_of_run hstop)
      fun _ _ ↦ ⟨hworker, fun _ _ ↦ hwatchdog⟩
  have hmakes : Makes callbackReply Callback.applicationStarts.program
      ⟨⟨false, false, true, true, true⟩, ended⟩ (.osCreateThread .worker) _ :=
    .call {} rfl (.rmw (.rmw (.call {} rfl (.rmw (.rmw (.here _ _ _))))))
  exact ⟨_, _, hsecond, hmakes, callbackRun_fresh hsecond .applicationStarts hmakes⟩

/-! ## A worker that outlives its stop -/

theorem Threads.settle_none (threads : Threads) : threads.settle (fun _ ↦ false) = threads := by
  simp [Threads.settle]

theorem poll_running {thread : ModuleThread} {x : CallbackMachine}
    (hrunning : x.world.running thread = true) :
    callbackReply (.osIsThreadTerminated thread) {} x = some x := by
  rw [callbackReply, Threads.settle_none, hrunning]
  exact if_pos (by simp)

/-- A thread that does not return is polled to the end. -/
theorem exec_awaitJoin {thread : ModuleThread} {x : CallbackMachine}
    (hrunning : x.world.running thread = true) (polls : ℕ) :
    Exec callbackReply (CallbackM.awaitJoin thread polls) x () x := by
  have hsleep : callbackReply (.osSleepMs 10) {} x = some x := by
    change some { x with world := x.world.settle fun _ ↦ false } = some x
    rw [Threads.settle_none]
  have hawait : Exec callbackReply (CallbackM.await thread polls) x () x := by
    induction polls with
    | zero => exact .done () x
    | succ polls ih => exact .call {} (poll_running hrunning) (.call {} hsleep ih)
  exact hawait.bind (.call {} (poll_running hrunning) (.done () x))

/-- The end of a title that both threads outlive. -/
theorem exec_stop_outlived {x : CallbackMachine} (hstarted : x.mem.started = true)
    (hdog : x.mem.watchdogStarted = true) (hworker : x.world.running .worker = true)
    (hwatchdog : x.world.running .watchdog = true) :
    Exec callbackReply CallbackM.stopAfterAllApplicationEnds x ()
      { x with mem := { x.mem with
          titleEnding := true, stopping := true, watchdogStarted := false, started := false } } := by
  have hlog : callbackReply .osGetTitleId {} x = some x := by
    change some { x with world := x.world.settle fun _ ↦ false } = some x
    rw [Threads.settle_none]
  refine Exec.bind (.rmw (.done _ _)) ?_
  dsimp only
  rw [when, if_pos hstarted]
  refine Exec.bind (.call {} hlog (.done _ _)) ?_
  refine Exec.bind (.rmw (.done _ _)) (Exec.bind (.rmw (.done _ _)) ?_)
  refine Exec.bind (exec_awaitJoin (by exact hworker) 200) (Exec.bind (.rmw (.done _ _)) ?_)
  dsimp only [id_eq]
  rw [when, if_pos hdog]
  let ended : CallbackMachine := ⟨{ x.mem with titleEnding := true, stopping := true }, x.world⟩
  have hjoin : Exec callbackReply (CallbackM.awaitJoin .watchdog 50) ended () ended :=
    exec_awaitJoin (x := ended) hwatchdog 50
  exact Exec.bind (Exec.bind hjoin (.rmw (.done () _))) (.rmw (.done () _))

/-- The worker and the watchdog outlast the waits at the end of a title, and the next title creates
the worker again on its object. -/
theorem worker_recreated_running :
    ∃ x y, CallbackRun (fun _ _ _ ↦ True) x ∧
      Makes callbackReply Callback.applicationStarts.program x (.osCreateThread .worker) y ∧
      y.world.running .worker = true := by
  obtain ⟨threads, hrun, hworker, hwatchdog⟩ : ∃ threads : Threads,
      run callbackReply CallbackM.applicationStarts firstTitle ⟨{}, {}⟩ =
        some ((), ⟨⟨true, true, true, false, false⟩, threads⟩, []) ∧
      threads.running .worker = true ∧ threads.running .watchdog = true :=
    ⟨_, rfl, rfl, rfl⟩
  have hfirst : CallbackRun (fun _ _ _ ↦ True) ⟨⟨true, true, true, false, false⟩, threads⟩ :=
    .callback .start .applicationStarts (exec_of_run hrun) trivial
  have hsecond : CallbackRun (fun _ _ _ ↦ True) ⟨⟨false, false, true, true, true⟩, threads⟩ :=
    .callback hfirst .allApplicationEndsDone (exec_stop_outlived rfl rfl hworker hwatchdog) trivial
  refine ⟨_, _, hsecond, .call {} rfl (.rmw (.rmw (.call {} rfl (.rmw (.rmw (.here _ _ _)))))), ?_⟩
  change ((threads.settle fun _ ↦ false).settle fun _ ↦ false).running .worker = true
  rw [Threads.settle_none, Threads.settle_none]
  exact hworker

end Ax88179Aroma.Module
