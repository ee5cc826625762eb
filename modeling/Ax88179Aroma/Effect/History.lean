import Ax88179Aroma.Effect.Concurrency

/-!
# Runs under observation

A monitor keeps a history beside a run.  It sees every atomic access and every reply together with
the machine before it and the end of every operation, and it may refuse a step: the runs it accepts
are those whose steps all meet its condition.  The programs and the machine are the same as without
it.

`Secure` is the safety of one thread against interference when the invariant and what the threads
rely on may speak about the history, and only accepted steps have to keep them.
`Secured.sound` says that the obligations hold along every accepted run.
-/

namespace Ax88179Aroma.Effect

variable {ι A E S W C R G α β : Type}

/-- A machine with the history of the run that led to it. -/
structure Watched (S W G : Type) extends Machine S W where
  ghost : G

/-- After an access. -/
def Watched.access (x : Watched S W G) (update : S → S) (g : G) : Watched S W G :=
  { mem := update x.mem, world := x.world, ghost := g }

/-- The history after a step of a thread, `none` for a step that is refused. -/
structure Monitor (ι S W C R G : Type) where
  access : ι → (S → S) → Watched S W G → Option G
  reply : ι → C → R → Watched S W G → Option G
  finish : ι → G → G := fun _ g ↦ g

/-- Refuse the accesses and the calls that break a condition. -/
def Monitor.restrict (mon : Monitor ι S W C R G) (access : ι → (S → S) → Watched S W G → Bool)
    (call : ι → C → Watched S W G → Bool) : Monitor ι S W C R G where
  access i update x := if access i update x then mon.access i update x else none
  reply i request answer x := if call i request x then mon.reply i request answer x else none
  finish := mon.finish

/-- Refuse the replies that break a condition. -/
def Monitor.sift (mon : Monitor ι S W C R G) (reply : ι → C → R → Watched S W G → Bool) :
    Monitor ι S W C R G where
  access := mon.access
  reply i request answer x :=
    if reply i request answer x then mon.reply i request answer x else none
  finish := mon.finish

/-- After the end of an operation. -/
def Monitor.finished (mon : Monitor ι S W C R G) (i : ι) (x : Watched S W G) : Watched S W G :=
  { x with ghost := mon.finish i x.ghost }

namespace System

variable [DecidableEq ι] (sys : System ι A E S W C R) (mon : Monitor ι S W C R G)

/-- The history after one action. -/
def observe (c : Config ι S W C R) (g : G) : Action ι A E R → Option G
  | .step i =>
    match c.threads i with
    | some (.rmw update _) => mon.access i update { c.machine with ghost := g }
    | some (.done _) => some (mon.finish i g)
    | _ => some g
  | .answer i value =>
    match c.threads i with
    | some (.call request _) => mon.reply i request value { c.machine with ghost := g }
    | _ => some g
  | _ => some g

/-- The configuration and the history after a list of actions, all of them accepted. -/
def watch (c : Config ι S W C R) (g : G) :
    List (Action ι A E R) → Option (Config ι S W C R × G)
  | [] => some (c, g)
  | action :: rest =>
    (sys.exec c action).bind fun next ↦
      (observe mon c g action).bind fun after ↦ watch next after rest

end System

/-! ## Threads under observation -/

/-- The invariant, what each thread relies on and what holds at each call. -/
structure Protocol (ι S W C G : Type) where
  inv : Watched S W G → Prop
  rely : ι → Watched S W G → Watched S W G → Prop
  pre : ι → C → Watched S W G → Prop := fun _ _ _ ↦ True

/-- A step of thread `i` keeps the invariant and is within what every other thread relies on. -/
def Protocol.Permits (prot : Protocol ι S W C G) (i : ι) (x y : Watched S W G) : Prop :=
  prot.inv y ∧ ∀ j, j ≠ i → prot.rely j x y

/-- Interference of the other threads on `i` keeps `assertion`. -/
def Protocol.Steady (prot : Protocol ι S W C G) (i : ι) (assertion : Watched S W G → Prop) : Prop :=
  ∀ x y, assertion x → prot.rely i x y → prot.inv y → assertion y

section Secure

variable (sys : System ι A E S W C R) (mon : Monitor ι S W C R G) (prot : Protocol ι S W C G)

/-- The rest of thread `i` is safe in every accepted continuation and ends in `post`. -/
def Secure (i : ι) : Program S C R α → (α → Watched S W G → Prop) → Watched S W G → Prop
  | .done value, post, x => post value x
  | .rmw update next, post, x => ∀ y, prot.rely i x y → prot.inv y →
      ∀ g, mon.access i update y = some g →
        prot.Permits i y (y.access update g) ∧ Secure i (next y.mem) post (y.access update g)
  | .call request next, post, x => ∀ y, prot.rely i x y → prot.inv y →
      prot.pre i request y ∧ ∀ answer z g, sys.reply i request answer y.toMachine = some z →
        mon.reply i request answer y = some g →
          prot.Permits i y { z with ghost := g } ∧
            Secure i (next answer) post { z with ghost := g }
  | .diverge, _, _ => True

variable {sys mon prot} {i : ι}

@[simp]
theorem secure_pure (value : α) (post : α → Watched S W G → Prop) (x : Watched S W G) :
    Secure sys mon prot i (Pure.pure value) post x ↔ post value x := Iff.rfl

@[simp]
theorem secure_bind (program : Program S C R α) (next : α → Program S C R β)
    (post : β → Watched S W G → Prop) (x : Watched S W G) :
    Secure sys mon prot i (program >>= next) post x ↔
      Secure sys mon prot i program
        (fun value y ↦ Secure sys mon prot i (next value) post y) x := by
  change Secure sys mon prot i (program.bind next) post x ↔ _
  induction program generalizing x with
  | done value => rfl
  | rmw update rest ih =>
    simp only [Program.bind, Secure]
    refine forall_congr' fun y ↦ imp_congr Iff.rfl (imp_congr Iff.rfl ?_)
    refine forall_congr' fun g ↦ imp_congr Iff.rfl (and_congr Iff.rfl ?_)
    exact ih _ _
  | call request rest ih =>
    simp only [Program.bind, Secure]
    refine forall_congr' fun y ↦ imp_congr Iff.rfl (imp_congr Iff.rfl (and_congr Iff.rfl ?_))
    refine forall_congr' fun answer ↦ forall_congr' fun z ↦ forall_congr' fun g ↦ ?_
    exact imp_congr Iff.rfl (imp_congr Iff.rfl (and_congr Iff.rfl (ih answer _)))
  | diverge => rfl

@[simp]
theorem secure_ite (condition : Prop) [Decidable condition] (left right : Program S C R α)
    (post : α → Watched S W G → Prop) (x : Watched S W G) :
    Secure sys mon prot i (if condition then left else right) post x ↔
      if condition then Secure sys mon prot i left post x
      else Secure sys mon prot i right post x := by
  split <;> rfl

@[simp]
theorem secure_when (condition : Prop) [Decidable condition] (program : Program S C R Unit)
    (post : Unit → Watched S W G → Prop) (x : Watched S W G) :
    Secure sys mon prot i (.when condition program) post x ↔
      if condition then Secure sys mon prot i program post x else post () x := by
  unfold Program.when
  split <;> rfl

theorem secure_mono {program : Program S C R α} {post post' : α → Watched S W G → Prop}
    {x : Watched S W G} (hsecure : Secure sys mon prot i program post x)
    (hpost : ∀ value y, post value y → post' value y) :
    Secure sys mon prot i program post' x := by
  induction program generalizing x with
  | done value => exact hpost value x hsecure
  | rmw update next ih =>
    intro y hrely hinv g haccess
    obtain ⟨hpermits, hrest⟩ := hsecure y hrely hinv g haccess
    exact ⟨hpermits, ih _ hrest⟩
  | call request next ih =>
    intro y hrely hinv
    obtain ⟨hpre, hrest⟩ := hsecure y hrely hinv
    refine ⟨hpre, fun answer z g hreply haccepted ↦ ?_⟩
    obtain ⟨hpermits, hafter⟩ := hrest answer z g hreply haccepted
    exact ⟨hpermits, ih answer hafter⟩
  | diverge => exact hsecure

variable {assertion : Watched S W G → Prop} {x : Watched S W G}

/-- The rule for one atomic access under a steady assertion. -/
theorem secure_rmw {update : S → S} {next : S → Program S C R α}
    {post : α → Watched S W G → Prop} (hx : assertion x) (hsteady : prot.Steady i assertion)
    (hstep : ∀ y g, assertion y → prot.inv y → mon.access i update y = some g →
      prot.Permits i y (y.access update g) ∧
        Secure sys mon prot i (next y.mem) post (y.access update g)) :
    Secure sys mon prot i (.rmw update next) post x :=
  fun y hrely hinv g haccess ↦ hstep y g (hsteady x y hx hrely hinv) hinv haccess

theorem secure_store {update : S → S} {post : Unit → Watched S W G → Prop} (hx : assertion x)
    (hsteady : prot.Steady i assertion)
    (hstep : ∀ y g, assertion y → prot.inv y → mon.access i update y = some g →
      prot.Permits i y (y.access update g) ∧ post () (y.access update g)) :
    Secure sys mon prot i (.store update) post x :=
  secure_rmw hx hsteady hstep

theorem secure_access {step : S → α × S} {post : α → Watched S W G → Prop} (hx : assertion x)
    (hsteady : prot.Steady i assertion)
    (hstep : ∀ y g, assertion y → prot.inv y →
      mon.access i (fun old ↦ (step old).2) y = some g →
        prot.Permits i y (y.access (fun old ↦ (step old).2) g) ∧
          post (step y.mem).1 (y.access (fun old ↦ (step old).2) g)) :
    Secure sys mon prot i (.access step) post x :=
  secure_rmw hx hsteady hstep

/-- The rule for one call under a steady assertion. -/
theorem secure_perform {request : C} {post : R → Watched S W G → Prop} (hx : assertion x)
    (hsteady : prot.Steady i assertion)
    (hstep : ∀ y, assertion y → prot.inv y → prot.pre i request y ∧
      ∀ answer z g, sys.reply i request answer y.toMachine = some z →
        mon.reply i request answer y = some g →
          prot.Permits i y { z with ghost := g } ∧ post answer { z with ghost := g }) :
    Secure sys mon prot i (.perform request) post x :=
  fun y hrely hinv ↦ hstep y (hsteady x y hx hrely hinv) hinv

/-- The rule for a loop over a list; the assertion may depend on the items that are left. -/
theorem secure_each (assertion : List β → Watched S W G → Prop) {body : β → Program S C R Unit}
    {items : List β} (hx : assertion items x)
    (hbody : ∀ item rest y, assertion (item :: rest) y →
      Secure sys mon prot i (body item) (fun _ ↦ assertion rest) y) :
    Secure sys mon prot i (.each body items) (fun _ ↦ assertion []) x := by
  induction items generalizing x with
  | nil => exact hx
  | cons item rest ih =>
    change Secure sys mon prot i (body item >>= fun _ ↦ .each body rest)
      (fun _ ↦ assertion []) x
    rw [secure_bind]
    exact secure_mono (hbody item rest x hx) fun _ y hy ↦ ih hy

/-- A program that keeps `view` keeps an assertion which depends on the view only. -/
theorem secure_keeps {γ : Type} {view : S → γ} {allowed : C → Prop} {program : Program S C R α}
    (hkeeps : Program.Keeps view allowed program) (hsteady : prot.Steady i assertion)
    (hupdate : ∀ y update g, (∀ old, view (update old) = view old) → prot.inv y → assertion y →
      mon.access i update y = some g →
        prot.Permits i y (y.access update g) ∧ assertion (y.access update g))
    (hcall : ∀ y request, allowed request → prot.inv y → assertion y → prot.pre i request y ∧
      ∀ answer z g, sys.reply i request answer y.toMachine = some z →
        mon.reply i request answer y = some g →
          prot.Permits i y { z with ghost := g } ∧ assertion { z with ghost := g })
    (hx : assertion x) : Secure sys mon prot i program (fun _ ↦ assertion) x := by
  induction program generalizing x with
  | done value => exact hx
  | rmw update next ih =>
    refine secure_rmw hx hsteady fun y g hy hinv haccess ↦ ?_
    obtain ⟨hpermits, hafter⟩ := hupdate y update g hkeeps.1 hinv hy haccess
    exact ⟨hpermits, ih y.mem (hkeeps.2 y.mem) hafter⟩
  | call request next ih =>
    intro y hrely hinv
    obtain ⟨hpre, hreply⟩ := hcall y request hkeeps.1 hinv (hsteady x y hx hrely hinv)
    refine ⟨hpre, fun answer z g hanswer haccepted ↦ ?_⟩
    obtain ⟨hpermits, hafter⟩ := hreply answer z g hanswer haccepted
    exact ⟨hpermits, ih answer (hkeeps.2 answer) hafter⟩
  | diverge => trivial

/-- Interference before the next step changes nothing that `Secure` promises. -/
theorem Secure.steady {program : Program S C R α} {post : α → Watched S W G → Prop}
    (htrans : ∀ x y z, prot.rely i x y → prot.rely i y z → prot.rely i x z)
    (hpost : ∀ value, prot.Steady i (post value)) :
    prot.Steady i (Secure sys mon prot i program post) := by
  intro x y hsecure hrely hinv
  cases program with
  | done value => exact hpost value x y hsecure hrely hinv
  | rmw update next => exact fun z hyz hz ↦ hsecure z (htrans x y z hrely hyz) hz
  | call request next => exact fun z hyz hz ↦ hsecure z (htrans x y z hrely hyz) hz
  | diverge => trivial

end Secure

/-! ## Whole systems -/

/-- The proof obligations of an observed system started with all threads idle on `initial`.
Operations begin in `idle` and end in `ended`. -/
structure Secured (sys : System ι A E S W C R) (mon : Monitor ι S W C R G)
    (initial : Watched S W G) (prot : Protocol ι S W C G)
    (idle ended : ι → Watched S W G → Prop) : Prop where
  rely_refl : ∀ i x, prot.rely i x x
  rely_trans : ∀ i x y z, prot.rely i x y → prot.rely i y z → prot.rely i x z
  idle_steady : ∀ i, prot.Steady i (idle i)
  ended_steady : ∀ i, prot.Steady i (ended i)
  finish_safe : ∀ i x, prot.inv x → ended i x →
    prot.Permits i x (mon.finished i x) ∧ idle i (mon.finished i x)
  env_safe : ∀ event x y, prot.inv x → sys.env event x.toMachine = some y →
    prot.inv { y with ghost := x.ghost } ∧ ∀ i, prot.rely i x { y with ghost := x.ghost }
  body_secure : ∀ i operation x, prot.inv x → idle i x →
    sys.enabled i operation x.toMachine = true →
      Secure sys mon prot i (sys.body i operation) (fun _ ↦ ended i) x
  initial_inv : prot.inv initial
  initial_idle : ∀ i, idle i initial

namespace Secured

variable {sys : System ι A E S W C R} {mon : Monitor ι S W C R G} {initial : Watched S W G}
  {prot : Protocol ι S W C G} {idle ended : ι → Watched S W G → Prop}

/-- What holds of a configuration and its history along every accepted run. -/
structure Holds (sys : System ι A E S W C R) (mon : Monitor ι S W C R G)
    (prot : Protocol ι S W C G) (idle ended : ι → Watched S W G → Prop) (c : Config ι S W C R)
    (g : G) : Prop where
  invariant : prot.inv { c.machine with ghost := g }
  secure : ∀ i program, c.threads i = some program →
    Secure sys mon prot i program (fun _ ↦ ended i) { c.machine with ghost := g }
  idle : ∀ i, c.threads i = none → idle i { c.machine with ghost := g }

variable [DecidableEq ι]

/-- The others keep what `Holds` says about them when thread `i` moves to `y` and is left with
`after`. -/
theorem Holds.update (hs : Secured sys mon initial prot idle ended) {c : Config ι S W C R} {g h : G}
    (hc : Holds sys mon prot idle ended c g) {i : ι} {y : Machine S W}
    {after : Option (Program S C R Unit)}
    (hstep : prot.Permits i { c.machine with ghost := g } { y with ghost := h })
    (hsecure : ∀ program, after = some program →
      Secure sys mon prot i program (fun _ ↦ ended i) { y with ghost := h })
    (hidle : after = none → idle i { y with ghost := h }) :
    Holds sys mon prot idle ended
      { machine := y, threads := Function.update c.threads i after } h := by
  obtain ⟨hinv, hrely⟩ := hstep
  refine ⟨hinv, fun j program hprogram ↦ ?_, fun j hnone ↦ ?_⟩
  · change Function.update c.threads i after j = some program at hprogram
    by_cases hji : j = i
    · subst hji
      rw [Function.update_self] at hprogram
      exact hsecure program hprogram
    · rw [Function.update_of_ne hji] at hprogram
      exact Secure.steady (hs.rely_trans j) (fun _ ↦ hs.ended_steady j) _ _
        (hc.secure j program hprogram) (hrely j hji) hinv
  · change Function.update c.threads i after j = none at hnone
    by_cases hji : j = i
    · subst hji
      rw [Function.update_self] at hnone
      exact hidle hnone
    · rw [Function.update_of_ne hji] at hnone
      exact hs.idle_steady j _ _ (hc.idle j hnone) (hrely j hji) hinv

theorem Holds.exec (hs : Secured sys mon initial prot idle ended) {c d : Config ι S W C R} {g h : G}
    (hc : Holds sys mon prot idle ended c g) {action : Action ι A E R}
    (hexec : sys.exec c action = some d) (hobserve : System.observe mon c g action = some h) :
    Holds sys mon prot idle ended d h := by
  have hself : ∀ i, prot.Permits i { c.machine with ghost := g } { c.machine with ghost := g } :=
    fun i ↦ ⟨hc.invariant, fun j _ ↦ hs.rely_refl j _⟩
  cases action with
  | start i operation =>
    cases hobserve
    simp only [System.exec] at hexec
    split at hexec
    · rename_i hnone
      split at hexec
      · rename_i henabled
        cases hexec
        refine Holds.update hs hc (hself i) (fun program hprogram ↦ ?_) fun h ↦ absurd h (by simp)
        cases hprogram
        exact hs.body_secure i operation _ hc.invariant (hc.idle i hnone) henabled
      · cases hexec
    · cases hexec
  | step i =>
    simp only [System.exec] at hexec
    simp only [System.observe] at hobserve
    split at hexec
    · rename_i value hprogram
      rw [hprogram] at hobserve
      cases hexec
      cases hobserve
      obtain ⟨hstep, hidle⟩ := hs.finish_safe i _ hc.invariant (hc.secure i _ hprogram)
      exact Holds.update hs hc hstep (fun _ h ↦ absurd h (by simp)) fun _ ↦ hidle
    · rename_i update next hprogram
      rw [hprogram] at hobserve
      cases hexec
      obtain ⟨hstep, hrest⟩ :=
        hc.secure i _ hprogram _ (hs.rely_refl i _) hc.invariant h hobserve
      refine Holds.update hs hc hstep (fun program hprogram ↦ ?_) fun h ↦ absurd h (by simp)
      cases hprogram
      exact hrest
    · cases hexec
  | answer i value =>
    simp only [System.exec] at hexec
    simp only [System.observe] at hobserve
    split at hexec
    · rename_i request next hprogram
      rw [hprogram] at hobserve
      obtain ⟨y, hreply, rfl⟩ := Option.map_eq_some_iff.mp hexec
      obtain ⟨-, hrest⟩ := hc.secure i _ hprogram _ (hs.rely_refl i _) hc.invariant
      obtain ⟨hstep, hsecure⟩ := hrest value y h hreply hobserve
      refine Holds.update hs hc hstep (fun program hprogram ↦ ?_) fun h ↦ absurd h (by simp)
      cases hprogram
      exact hsecure
    · cases hexec
  | env event =>
    cases hobserve
    obtain ⟨y, henv, rfl⟩ := Option.map_eq_some_iff.mp hexec
    obtain ⟨hinv, hrely⟩ := hs.env_safe event _ y hc.invariant henv
    refine ⟨hinv, fun i program hprogram ↦ ?_, fun i hnone ↦ ?_⟩
    · exact Secure.steady (hs.rely_trans i) (fun _ ↦ hs.ended_steady i) _ _
        (hc.secure i program hprogram) (hrely i) hinv
    · exact hs.idle_steady i _ _ (hc.idle i hnone) (hrely i) hinv

theorem Holds.watch (hs : Secured sys mon initial prot idle ended) {c d : Config ι S W C R} {g h : G}
    (hc : Holds sys mon prot idle ended c g) {actions : List (Action ι A E R)}
    (hwatch : sys.watch mon c g actions = some (d, h)) : Holds sys mon prot idle ended d h := by
  induction actions generalizing c g with
  | nil =>
    cases hwatch
    exact hc
  | cons action rest ih =>
    obtain ⟨next, hexec, hrest⟩ := Option.bind_eq_some_iff.mp hwatch
    obtain ⟨after, hobserve, hafter⟩ := Option.bind_eq_some_iff.mp hrest
    exact ih (Holds.exec hs hc hexec hobserve) hafter

/-- Along every accepted run the invariant holds and every thread is secure. -/
theorem sound (hs : Secured sys mon initial prot idle ended) {c : Config ι S W C R} {g : G}
    {actions : List (Action ι A E R)}
    (hwatch : sys.watch mon (System.start initial.toMachine) initial.ghost actions = some (c, g)) :
    Holds sys mon prot idle ended c g := by
  refine Holds.watch hs ⟨hs.initial_inv, fun i program h ↦ ?_, fun i _ ↦ hs.initial_idle i⟩ hwatch
  cases h

/-- Along every accepted run each pending call satisfies its precondition. -/
theorem call_pre (hs : Secured sys mon initial prot idle ended) {c : Config ι S W C R} {g : G}
    {actions : List (Action ι A E R)}
    (hwatch : sys.watch mon (System.start initial.toMachine) initial.ghost actions = some (c, g))
    {i : ι} {request : C} {next : R → Program S C R Unit}
    (hcall : c.threads i = some (.call request next)) :
    prot.pre i request { c.machine with ghost := g } := by
  have hc := sound hs hwatch
  exact (hc.secure i _ hcall _ (hs.rely_refl i _) hc.invariant).1

end Secured

end Ax88179Aroma.Effect
