import Ax88179Aroma.Effect.Program
import Mathlib.Logic.Relation

/-!
# Interleaved programs and rely-guarantee reasoning

Threads run programs over one shared memory.  A scheduler picks, one action after the other, which
thread starts an operation, takes its next atomic step or receives the reply to its pending call,
and which step the environment takes.  A run is a list of such actions, so a statement about every
list of actions is a statement about every interleaving.

`Safe` bounds the rest of one thread against interference: before each of its steps the others may
have moved the machine along `rely`, and the step itself must keep the invariant and stay inside
what the other threads rely on.  `Verified` collects the obligations of a whole system and
`Verified.sound` says that they hold along every run.
-/

namespace Ax88179Aroma.Effect

variable {ι A E S W C R α β : Type}

/-- Threads `ι` start operations `A`; the environment takes steps `E`. -/
structure System (ι A E S W C R : Type) where
  reply : ι → Replies S W C R
  env : E → Machine S W → Option (Machine S W)
  body : ι → A → Program S C R Unit
  enabled : ι → A → Machine S W → Bool

/-- The machine and, for each thread, what is left of its current operation. -/
structure Config (ι S W C R : Type) where
  machine : Machine S W
  threads : ι → Option (Program S C R Unit)

/-- One choice of the scheduler. -/
inductive Action (ι A E R : Type) where
  | start (thread : ι) (operation : A)
  | step (thread : ι)
  | answer (thread : ι) (value : R)
  | env (event : E)

namespace System

variable [DecidableEq ι] (sys : System ι A E S W C R)

/-- The effect of one action, `none` when it is not possible. -/
def exec (c : Config ι S W C R) : Action ι A E R → Option (Config ι S W C R)
  | .start i operation =>
    match c.threads i with
    | none =>
      if sys.enabled i operation c.machine then
        some { c with threads := Function.update c.threads i (some (sys.body i operation)) }
      else none
    | some _ => none
  | .step i =>
    match c.threads i with
    | some (.done _) => some { c with threads := Function.update c.threads i none }
    | some (.rmw update next) =>
      some {
        machine := { c.machine with mem := update c.machine.mem }
        threads := Function.update c.threads i (some (next c.machine.mem)) }
    | _ => none
  | .answer i value =>
    match c.threads i with
    | some (.call request next) =>
      (sys.reply i request value c.machine).map fun y ↦
        { machine := y, threads := Function.update c.threads i (some (next value)) }
    | _ => none
  | .env event => (sys.env event c.machine).map fun y ↦ { c with machine := y }

/-- The configuration after a list of actions. -/
def run (c : Config ι S W C R) : List (Action ι A E R) → Option (Config ι S W C R)
  | [] => some c
  | action :: rest => (sys.exec c action).bind fun next ↦ run next rest

/-- All threads idle on the machine `x`. -/
def start (x : Machine S W) : Config ι S W C R :=
  { machine := x, threads := fun _ ↦ none }

end System

/-! ## Rely-guarantee -/

section Safe

variable (sys : System ι A E S W C R) (inv : Machine S W → Prop)
  (rely : ι → Machine S W → Machine S W → Prop) (pre : ι → C → Machine S W → Prop)

/-- A step of thread `i` keeps the invariant and is within what every other thread relies on. -/
def Guarantees (i : ι) (x y : Machine S W) : Prop :=
  inv y ∧ ∀ j, j ≠ i → rely j x y

/-- The rest of thread `i` is safe against interference and ends in `post`. -/
def Safe (i : ι) : Program S C R α → (α → Machine S W → Prop) → Machine S W → Prop
  | .done value, post, x => post value x
  | .rmw update next, post, x => ∀ x', rely i x x' → inv x' →
      Guarantees inv rely i x' { x' with mem := update x'.mem } ∧
        Safe i (next x'.mem) post { x' with mem := update x'.mem }
  | .call request next, post, x => ∀ x', rely i x x' → inv x' →
      pre i request x' ∧ ∀ answer y, sys.reply i request answer x' = some y →
        Guarantees inv rely i x' y ∧ Safe i (next answer) post y
  | .diverge, _, _ => True

/-- Interference of the other threads on `i` keeps `assertion`. -/
def Stable (i : ι) (assertion : Machine S W → Prop) : Prop :=
  ∀ x y, assertion x → rely i x y → inv y → assertion y

variable {sys inv rely pre} {i : ι}

@[simp]
theorem safe_pure (value : α) (post : α → Machine S W → Prop) (x : Machine S W) :
    Safe sys inv rely pre i (Pure.pure value) post x ↔ post value x := Iff.rfl

@[simp]
theorem safe_bind (program : Program S C R α) (next : α → Program S C R β)
    (post : β → Machine S W → Prop) (x : Machine S W) :
    Safe sys inv rely pre i (program >>= next) post x ↔
      Safe sys inv rely pre i program
        (fun value y ↦ Safe sys inv rely pre i (next value) post y) x := by
  change Safe sys inv rely pre i (program.bind next) post x ↔ _
  induction program generalizing x with
  | done value => rfl
  | rmw update rest ih =>
    simp only [Program.bind, Safe]
    refine forall_congr' fun x' ↦ imp_congr Iff.rfl (imp_congr Iff.rfl ?_)
    exact and_congr Iff.rfl (ih _ _)
  | call request rest ih =>
    simp only [Program.bind, Safe]
    refine forall_congr' fun x' ↦ imp_congr Iff.rfl (imp_congr Iff.rfl (and_congr Iff.rfl ?_))
    refine forall_congr' fun answer ↦ forall_congr' fun y ↦ imp_congr Iff.rfl ?_
    exact and_congr Iff.rfl (ih answer y)
  | diverge => rfl

@[simp]
theorem safe_ite (condition : Prop) [Decidable condition] (left right : Program S C R α)
    (post : α → Machine S W → Prop) (x : Machine S W) :
    Safe sys inv rely pre i (if condition then left else right) post x ↔
      if condition then Safe sys inv rely pre i left post x
      else Safe sys inv rely pre i right post x := by
  split <;> rfl

@[simp]
theorem safe_when (condition : Prop) [Decidable condition] (program : Program S C R Unit)
    (post : Unit → Machine S W → Prop) (x : Machine S W) :
    Safe sys inv rely pre i (.when condition program) post x ↔
      if condition then Safe sys inv rely pre i program post x else post () x := by
  unfold Program.when
  split <;> rfl

theorem safe_mono {program : Program S C R α} {post post' : α → Machine S W → Prop}
    {x : Machine S W} (hsafe : Safe sys inv rely pre i program post x)
    (hpost : ∀ value y, post value y → post' value y) :
    Safe sys inv rely pre i program post' x := by
  induction program generalizing x with
  | done value => exact hpost value x hsafe
  | rmw update next ih =>
    intro x' hrely hinv
    obtain ⟨hguarantee, hrest⟩ := hsafe x' hrely hinv
    exact ⟨hguarantee, ih _ hrest⟩
  | call request next ih =>
    intro x' hrely hinv
    obtain ⟨hpre, hrest⟩ := hsafe x' hrely hinv
    refine ⟨hpre, fun answer y hreply ↦ ?_⟩
    exact ⟨(hrest answer y hreply).1, ih answer (hrest answer y hreply).2⟩
  | diverge => exact hsafe

/-- The rule for one atomic access under a stable assertion. -/
theorem safe_rmw {update : S → S} {next : S → Program S C R α} {post : α → Machine S W → Prop}
    {assertion : Machine S W → Prop} {x : Machine S W} (hx : assertion x)
    (hstable : Stable inv rely i assertion)
    (hstep : ∀ y, assertion y → inv y →
      Guarantees inv rely i y { y with mem := update y.mem } ∧
        Safe sys inv rely pre i (next y.mem) post { y with mem := update y.mem }) :
    Safe sys inv rely pre i (.rmw update next) post x :=
  fun y hrely hinv ↦ hstep y (hstable x y hx hrely hinv) hinv

/-- The rule for one call under a stable assertion. -/
theorem safe_call {request : C} {next : R → Program S C R α} {post : α → Machine S W → Prop}
    {assertion : Machine S W → Prop} {x : Machine S W} (hx : assertion x)
    (hstable : Stable inv rely i assertion)
    (hstep : ∀ y, assertion y → inv y → pre i request y ∧
      ∀ answer z, sys.reply i request answer y = some z →
        Guarantees inv rely i y z ∧ Safe sys inv rely pre i (next answer) post z) :
    Safe sys inv rely pre i (.call request next) post x :=
  fun y hrely hinv ↦ hstep y (hstable x y hx hrely hinv) hinv

theorem safe_store {update : S → S} {post : Unit → Machine S W → Prop}
    {assertion : Machine S W → Prop} {x : Machine S W} (hx : assertion x)
    (hstable : Stable inv rely i assertion)
    (hstep : ∀ y, assertion y → inv y →
      Guarantees inv rely i y { y with mem := update y.mem } ∧
        post () { y with mem := update y.mem }) :
    Safe sys inv rely pre i (.store update) post x :=
  safe_rmw hx hstable hstep

/-- A read needs no guarantee: it leaves the machine as it is. -/
theorem safe_load {view : S → α} {post : α → Machine S W → Prop}
    {assertion : Machine S W → Prop} {x : Machine S W} (hrefl : ∀ j y, rely j y y)
    (hx : assertion x) (hstable : Stable inv rely i assertion)
    (hstep : ∀ y, assertion y → inv y → post (view y.mem) y) :
    Safe sys inv rely pre i (.load view) post x :=
  safe_rmw hx hstable fun y hy hinv ↦ ⟨⟨hinv, fun j _ ↦ hrefl j y⟩, hstep y hy hinv⟩

theorem safe_perform {request : C} {post : R → Machine S W → Prop}
    {assertion : Machine S W → Prop} {x : Machine S W} (hx : assertion x)
    (hstable : Stable inv rely i assertion)
    (hstep : ∀ y, assertion y → inv y → pre i request y ∧
      ∀ answer z, sys.reply i request answer y = some z →
        Guarantees inv rely i y z ∧ post answer z) :
    Safe sys inv rely pre i (.perform request) post x :=
  safe_call hx hstable hstep

theorem safe_access {step : S → α × S} {post : α → Machine S W → Prop}
    {assertion : Machine S W → Prop} {x : Machine S W} (hx : assertion x)
    (hstable : Stable inv rely i assertion)
    (hstep : ∀ y, assertion y → inv y →
      Guarantees inv rely i y { y with mem := (step y.mem).2 } ∧
        post (step y.mem).1 { y with mem := (step y.mem).2 }) :
    Safe sys inv rely pre i (.access step) post x :=
  safe_rmw hx hstable hstep

/-- The rule for a loop over a list; the assertion may depend on the items that are left. -/
theorem safe_each (assertion : List β → Machine S W → Prop) {body : β → Program S C R Unit}
    {items : List β} {x : Machine S W} (hx : assertion items x)
    (hbody : ∀ item rest y, assertion (item :: rest) y →
      Safe sys inv rely pre i (body item) (fun _ ↦ assertion rest) y) :
    Safe sys inv rely pre i (.each body items) (fun _ ↦ assertion []) x := by
  induction items generalizing x with
  | nil => exact hx
  | cons item rest ih =>
    change Safe sys inv rely pre i (body item >>= fun _ ↦ .each body rest)
      (fun _ ↦ assertion []) x
    rw [safe_bind]
    exact safe_mono (hbody item rest x hx) fun _ y hy ↦ ih hy

/-- A program that keeps `view` keeps an assertion which depends on the view only. -/
theorem safe_keeps {γ : Type} {view : S → γ} {allowed : C → Prop} {program : Program S C R α}
    {assertion : Machine S W → Prop} {x : Machine S W}
    (hkeeps : Program.Keeps view allowed program) (hstable : Stable inv rely i assertion)
    (hupdate : ∀ y mem, inv y → assertion y → view mem = view y.mem →
      Guarantees inv rely i y { y with mem := mem } ∧ assertion { y with mem := mem })
    (hcall : ∀ y request, inv y → assertion y → allowed request → pre i request y ∧
      ∀ answer z, sys.reply i request answer y = some z →
        Guarantees inv rely i y z ∧ assertion z)
    (hx : assertion x) : Safe sys inv rely pre i program (fun _ ↦ assertion) x := by
  induction program generalizing x with
  | done value => exact hx
  | rmw update next ih =>
    refine safe_rmw hx hstable fun y hy hinv ↦ ?_
    obtain ⟨hguarantee, hafter⟩ := hupdate y (update y.mem) hinv hy (hkeeps.1 y.mem)
    exact ⟨hguarantee, ih y.mem (hkeeps.2 y.mem) hafter⟩
  | call request next ih =>
    refine safe_call hx hstable fun y hy hinv ↦ ?_
    obtain ⟨hpre, hreply⟩ := hcall y request hinv hy hkeeps.1
    refine ⟨hpre, fun answer z hanswer ↦ ?_⟩
    obtain ⟨hguarantee, hafter⟩ := hreply answer z hanswer
    exact ⟨hguarantee, ih answer (hkeeps.2 answer) hafter⟩
  | diverge => trivial

/-- Interference before the next step changes nothing that `Safe` promises. -/
theorem Safe.stable {program : Program S C R α} {post : α → Machine S W → Prop}
    (htrans : ∀ x y z, rely i x y → rely i y z → rely i x z)
    (hpost : ∀ value, Stable inv rely i (post value)) :
    Stable inv rely i (Safe sys inv rely pre i program post) := by
  intro x y hsafe hrely hinv
  cases program with
  | done value => exact hpost value x y hsafe hrely hinv
  | rmw update next => exact fun z hyz hz ↦ hsafe z (htrans x y z hrely hyz) hz
  | call request next => exact fun z hyz hz ↦ hsafe z (htrans x y z hrely hyz) hz
  | diverge => trivial

/-- The calls of an undisturbed execution satisfy what a safe program promises of its calls. -/
theorem Safe.pre_of_makes {program : Program S C R α} {post : α → Machine S W → Prop}
    {x y : Machine S W} {request : C} (hsafe : Safe sys inv rely pre i program post x)
    (hrefl : ∀ z, rely i z z) (hinv : inv x)
    (hmakes : Program.Makes (sys.reply i) program x request y) : pre i request y := by
  induction hmakes with
  | here request next x => exact (hsafe x (hrefl x) hinv).1
  | rmw rest ih =>
    obtain ⟨hstep, hrest⟩ := hsafe _ (hrefl _) hinv
    exact ih hrest hstep.1
  | call answer possible rest ih =>
    obtain ⟨hstep, hrest⟩ := (hsafe _ (hrefl _) hinv).2 answer _ possible
    exact ih hrest hstep.1

/-- An undisturbed execution of a safe program ends in its postcondition. -/
theorem Safe.post_of_exec {program : Program S C R α} {post : α → Machine S W → Prop}
    {x y : Machine S W} {value : α} (hsafe : Safe sys inv rely pre i program post x)
    (hrefl : ∀ z, rely i z z) (hinv : inv x)
    (hexec : Program.Exec (sys.reply i) program x value y) : post value y := by
  induction hexec with
  | done value x => exact hsafe
  | rmw rest ih =>
    obtain ⟨hstep, hrest⟩ := hsafe _ (hrefl _) hinv
    exact ih hrest hstep.1
  | call answer possible rest ih =>
    obtain ⟨hstep, hrest⟩ := (hsafe _ (hrefl _) hinv).2 answer _ possible
    exact ih hrest hstep.1

/-- A system as the calls of a part of its programs see it. -/
def System.through {D : Type} (sys : System ι A E S W D R) (inject : C → D) :
    System ι A E S W C R where
  reply i request := sys.reply i (inject request)
  env := sys.env
  body _ _ := .diverge
  enabled _ _ _ := false

/-- A program with its calls among those of a larger one. -/
theorem safe_embed {D : Type} {inject : C → D} {outer : System ι A E S W D R}
    {outerPre : ι → D → Machine S W → Prop} {program : Program S C R α}
    {post : α → Machine S W → Prop} {x : Machine S W} :
    Safe outer inv rely outerPre i (Program.embed inject program) post x ↔
      Safe (outer.through inject) inv rely (fun j request ↦ outerPre j (inject request)) i program
        post x := by
  induction program generalizing x with
  | done value => rfl
  | rmw update next ih =>
    refine forall_congr' fun y ↦ imp_congr Iff.rfl (imp_congr Iff.rfl (and_congr Iff.rfl ?_))
    exact ih _
  | call request next ih =>
    refine forall_congr' fun y ↦ imp_congr Iff.rfl (imp_congr Iff.rfl (and_congr Iff.rfl ?_))
    refine forall_congr' fun answer ↦ forall_congr' fun z ↦ imp_congr Iff.rfl ?_
    exact and_congr Iff.rfl (ih answer)
  | diverge => rfl

end Safe

/-! ## Whole systems -/

/-- The proof obligations of a system started with all threads idle on `initial`. -/
structure Verified (sys : System ι A E S W C R) (initial : Machine S W)
    (inv : Machine S W → Prop) (rely : ι → Machine S W → Machine S W → Prop)
    (pre : ι → C → Machine S W → Prop) (idle : ι → Machine S W → Prop) : Prop where
  rely_refl : ∀ i x, rely i x x
  rely_trans : ∀ i x y z, rely i x y → rely i y z → rely i x z
  idle_stable : ∀ i, Stable inv rely i (idle i)
  env_safe : ∀ event x y, inv x → sys.env event x = some y → inv y ∧ ∀ i, rely i x y
  body_safe : ∀ i operation x, inv x → idle i x → sys.enabled i operation x = true →
    Safe sys inv rely pre i (sys.body i operation) (fun _ ↦ idle i) x
  initial_inv : inv initial
  initial_idle : ∀ i, idle i initial

namespace Verified

variable {sys : System ι A E S W C R} {initial : Machine S W} {inv : Machine S W → Prop}
  {rely : ι → Machine S W → Machine S W → Prop} {pre : ι → C → Machine S W → Prop}
  {idle : ι → Machine S W → Prop}

/-- The obligations do not depend on where the idle threads start. -/
theorem restart (hv : Verified sys initial inv rely pre idle) {x : Machine S W} (hinv : inv x)
    (hidle : ∀ i, idle i x) : Verified sys x inv rely pre idle :=
  { hv with
    initial_inv := hinv
    initial_idle := hidle }

/-- What holds of a configuration along every run. -/
structure Holds (sys : System ι A E S W C R) (inv : Machine S W → Prop)
    (rely : ι → Machine S W → Machine S W → Prop) (pre : ι → C → Machine S W → Prop)
    (idle : ι → Machine S W → Prop) (c : Config ι S W C R) : Prop where
  invariant : inv c.machine
  safe : ∀ i program, c.threads i = some program →
    Safe sys inv rely pre i program (fun _ ↦ idle i) c.machine
  idle : ∀ i, c.threads i = none → idle i c.machine

variable [DecidableEq ι]

/-- The others keep what `Holds` says about them when thread `i` moves to `y` and is left with
`after`. -/
theorem Holds.update (hv : Verified sys initial inv rely pre idle) {c : Config ι S W C R}
    (hc : Holds sys inv rely pre idle c) {i : ι} {y : Machine S W}
    {after : Option (Program S C R Unit)}
    (hstep : Guarantees inv rely i c.machine y)
    (hsafe : ∀ program, after = some program →
      Safe sys inv rely pre i program (fun _ ↦ idle i) y)
    (hidle : after = none → idle i y) :
    Holds sys inv rely pre idle
      { machine := y, threads := Function.update c.threads i after } := by
  obtain ⟨hinv, hrely⟩ := hstep
  refine ⟨hinv, fun j program hprogram ↦ ?_, fun j hnone ↦ ?_⟩
  · change Function.update c.threads i after j = some program at hprogram
    by_cases hji : j = i
    · subst hji
      rw [Function.update_self] at hprogram
      exact hsafe program hprogram
    · rw [Function.update_of_ne hji] at hprogram
      exact Safe.stable (hv.rely_trans j) (fun _ ↦ hv.idle_stable j) _ _
        (hc.safe j program hprogram) (hrely j hji) hinv
  · change Function.update c.threads i after j = none at hnone
    by_cases hji : j = i
    · subst hji
      rw [Function.update_self] at hnone
      exact hidle hnone
    · rw [Function.update_of_ne hji] at hnone
      exact hv.idle_stable j _ _ (hc.idle j hnone) (hrely j hji) hinv

theorem Holds.exec (hv : Verified sys initial inv rely pre idle) {c c' : Config ι S W C R}
    (hc : Holds sys inv rely pre idle c) {action : Action ι A E R}
    (hexec : sys.exec c action = some c') : Holds sys inv rely pre idle c' := by
  have hself : ∀ i, Guarantees inv rely i c.machine c.machine := fun i ↦
    ⟨hc.invariant, fun j _ ↦ hv.rely_refl j _⟩
  cases action with
  | start i operation =>
    simp only [System.exec] at hexec
    split at hexec
    · rename_i hnone
      split at hexec
      · rename_i henabled
        cases hexec
        refine Holds.update hv hc (hself i) (fun program hprogram ↦ ?_) (fun h ↦ by cases h)
        cases hprogram
        exact hv.body_safe i operation _ hc.invariant (hc.idle i hnone) henabled
      · cases hexec
    · cases hexec
  | step i =>
    simp only [System.exec] at hexec
    split at hexec
    · rename_i value hprogram
      cases hexec
      exact Holds.update hv hc (hself i) (fun program h ↦ by cases h)
        fun _ ↦ hc.safe i _ hprogram
    · rename_i update next hprogram
      cases hexec
      obtain ⟨hstep, hrest⟩ := hc.safe i _ hprogram _ (hv.rely_refl i _) hc.invariant
      refine Holds.update hv hc hstep (fun program h ↦ ?_) (fun h ↦ by cases h)
      cases h
      exact hrest
    · cases hexec
  | answer i value =>
    simp only [System.exec] at hexec
    split at hexec
    · rename_i request next hprogram
      obtain ⟨y, hreply, rfl⟩ := Option.map_eq_some_iff.mp hexec
      obtain ⟨-, hrest⟩ := hc.safe i _ hprogram _ (hv.rely_refl i _) hc.invariant
      obtain ⟨hstep, hsafe⟩ := hrest value y hreply
      refine Holds.update hv hc hstep (fun program h ↦ ?_) (fun h ↦ by cases h)
      cases h
      exact hsafe
    · cases hexec
  | env event =>
    obtain ⟨y, henv, rfl⟩ := Option.map_eq_some_iff.mp hexec
    obtain ⟨hinv, hrely⟩ := hv.env_safe event _ y hc.invariant henv
    refine ⟨hinv, fun i program hprogram ↦ ?_, fun i hnone ↦ ?_⟩
    · exact Safe.stable (hv.rely_trans i) (fun _ ↦ hv.idle_stable i) _ _
        (hc.safe i program hprogram) (hrely i) hinv
    · exact hv.idle_stable i _ _ (hc.idle i hnone) (hrely i) hinv

theorem Holds.run (hv : Verified sys initial inv rely pre idle) {c c' : Config ι S W C R}
    (hc : Holds sys inv rely pre idle c) {actions : List (Action ι A E R)}
    (hrun : sys.run c actions = some c') : Holds sys inv rely pre idle c' := by
  induction actions generalizing c with
  | nil =>
    cases hrun
    exact hc
  | cons action rest ih =>
    obtain ⟨next, hexec, hrest⟩ := Option.bind_eq_some_iff.mp hrun
    exact ih (Holds.exec hv hc hexec) hrest

/-- Along every run the invariant holds and every thread is safe. -/
theorem sound (hv : Verified sys initial inv rely pre idle) {c : Config ι S W C R}
    {actions : List (Action ι A E R)} (hrun : sys.run (System.start initial) actions = some c) :
    Holds sys inv rely pre idle c := by
  refine Holds.run hv ⟨hv.initial_inv, fun i program h ↦ ?_, fun i _ ↦ hv.initial_idle i⟩ hrun
  cases h

/-- Along every run each pending call is made in a machine that satisfies its precondition. -/
theorem call_pre (hv : Verified sys initial inv rely pre idle) {c : Config ι S W C R}
    {actions : List (Action ι A E R)} (hrun : sys.run (System.start initial) actions = some c)
    {i : ι} {request : C} {next : R → Program S C R Unit}
    (hcall : c.threads i = some (.call request next)) : pre i request c.machine := by
  have hc := sound hv hrun
  exact (hc.safe i _ hcall _ (hv.rely_refl i _) hc.invariant).1

end Verified

/-! ## Runs one after the other -/

section Sessions

variable [DecidableEq ι]

/-- The machines that runs reach when each lets its threads finish and the machine may change
between two runs. -/
inductive Sessions (sys : System ι A E S W C R) (change : Machine S W → Machine S W → Prop)
    (initial : Machine S W) : Machine S W → Prop where
  | initial : Sessions sys change initial initial
  | session {x : Machine S W} {actions : List (Action ι A E R)} {c : Config ι S W C R}
      (before : Sessions sys change initial x)
      (hrun : sys.run (System.start x) actions = some c) (hidle : ∀ i, c.threads i = none) :
      Sessions sys change initial c.machine
  | change {x y : Machine S W} (before : Sessions sys change initial x) (hchange : change x y) :
      Sessions sys change initial y

/-- What the changes keep holds in every run. -/
theorem Sessions.verified {sys : System ι A E S W C R} {initial x : Machine S W}
    {inv : Machine S W → Prop} {rely : ι → Machine S W → Machine S W → Prop}
    {pre : ι → C → Machine S W → Prop} {idle : ι → Machine S W → Prop}
    {change : Machine S W → Machine S W → Prop} (hv : Verified sys initial inv rely pre idle)
    (hchange : ∀ x y, inv x → (∀ i, idle i x) → change x y → inv y ∧ ∀ i, idle i y)
    (hx : Sessions sys change initial x) : Verified sys x inv rely pre idle := by
  induction hx with
  | initial => exact hv
  | session before hrun hidle ih =>
    have hholds := ih.sound hrun
    exact ih.restart hholds.invariant fun i ↦ hholds.idle i (hidle i)
  | change before hstep ih =>
    obtain ⟨hinv, hidle⟩ := hchange _ _ ih.initial_inv ih.initial_idle hstep
    exact ih.restart hinv hidle

end Sessions

/-! ## One thread against its environment -/

section Solo

variable (sys : System Unit A E S W C R) (inv : Machine S W → Prop) (pre : C → Machine S W → Prop)

/-- Any number of environment steps. -/
def Interference : Machine S W → Machine S W → Prop :=
  Relation.ReflTransGen fun x y ↦ inv x ∧ ∃ event, sys.env event x = some y

/-- Each environment step keeps `assertion`. -/
def EnvStable (assertion : Machine S W → Prop) : Prop :=
  ∀ event x y, inv x → assertion x → sys.env event x = some y → assertion y

/-- Safety of the only thread. -/
abbrev Solo (program : Program S C R α) (post : α → Machine S W → Prop) : Machine S W → Prop :=
  Safe sys inv (fun _ ↦ Interference sys inv) (fun _ ↦ pre) () program post

variable {sys inv pre}

theorem EnvStable.stable {assertion : Machine S W → Prop} (h : EnvStable sys inv assertion) :
    Stable inv (fun _ ↦ Interference sys inv) () assertion := by
  intro x y hx hreach hy
  clear hy
  induction hreach with
  | refl => exact hx
  | tail _ hstep ih =>
    obtain ⟨hinv, event, henv⟩ := hstep
    exact h event _ _ hinv ih henv

theorem EnvStable.and {left right : Machine S W → Prop} (hleft : EnvStable sys inv left)
    (hright : EnvStable sys inv right) : EnvStable sys inv fun x ↦ left x ∧ right x :=
  fun event x y hinv hx henv ↦
    ⟨hleft event x y hinv hx.1 henv, hright event x y hinv hx.2 henv⟩

theorem guarantees_solo {x y : Machine S W} (hy : inv y) :
    Guarantees inv (fun _ ↦ Interference sys inv) () x y :=
  ⟨hy, fun _ hne ↦ absurd rfl hne⟩

variable {assertion : Machine S W → Prop} {x : Machine S W}

theorem solo_store (hstable : EnvStable sys inv assertion) {update : S → S}
    {post : Unit → Machine S W → Prop} (hx : assertion x)
    (hstep : ∀ y, inv y → assertion y →
      inv { y with mem := update y.mem } ∧ post () { y with mem := update y.mem }) :
    Solo sys inv pre (.store update) post x :=
  safe_store hx hstable.stable fun y hy hinv ↦
    ⟨guarantees_solo (hstep y hinv hy).1, (hstep y hinv hy).2⟩

theorem solo_load (hstable : EnvStable sys inv assertion) {view : S → α}
    {post : α → Machine S W → Prop} (hx : assertion x)
    (hstep : ∀ y, inv y → assertion y → post (view y.mem) y) :
    Solo sys inv pre (.load view) post x :=
  safe_rmw hx hstable.stable fun y hy hinv ↦ ⟨guarantees_solo hinv, hstep y hinv hy⟩

theorem solo_access (hstable : EnvStable sys inv assertion) {step : S → α × S}
    {post : α → Machine S W → Prop} (hx : assertion x)
    (hstep : ∀ y, inv y → assertion y →
      inv { y with mem := (step y.mem).2 } ∧
        post (step y.mem).1 { y with mem := (step y.mem).2 }) :
    Solo sys inv pre (.access step) post x :=
  safe_rmw hx hstable.stable fun y hy hinv ↦
    ⟨guarantees_solo (hstep y hinv hy).1, (hstep y hinv hy).2⟩

theorem solo_perform (hstable : EnvStable sys inv assertion) {request : C}
    {post : R → Machine S W → Prop} (hx : assertion x)
    (hstep : ∀ y, inv y → assertion y → pre request y ∧
      ∀ answer z, sys.reply () request answer y = some z → inv z ∧ post answer z) :
    Solo sys inv pre (.perform request) post x := by
  refine safe_perform hx hstable.stable fun y hy hinv ↦ ?_
  obtain ⟨hpre, hreply⟩ := hstep y hinv hy
  refine ⟨hpre, fun answer z hanswer ↦ ?_⟩
  exact ⟨guarantees_solo (hreply answer z hanswer).1, (hreply answer z hanswer).2⟩

theorem solo_each (assertion : List β → Machine S W → Prop) {body : β → Program S C R Unit}
    {items : List β} (hx : assertion items x)
    (hbody : ∀ item rest y, assertion (item :: rest) y →
      Solo sys inv pre (body item) (fun _ ↦ assertion rest) y) :
    Solo sys inv pre (.each body items) (fun _ ↦ assertion []) x :=
  safe_each assertion hx hbody

/-- The obligations of one thread: its operations take `idle` to `idle`. -/
theorem solo_verified {initial : Machine S W} {idle : Machine S W → Prop}
    (hidle : EnvStable sys inv idle) (hinv : EnvStable sys (fun _ ↦ True) inv)
    (hbody : ∀ operation x, inv x → idle x → sys.enabled () operation x = true →
      Solo sys inv pre (sys.body () operation) (fun _ ↦ idle) x)
    (hinitial : inv initial) (hstart : idle initial) :
    Verified sys initial inv (fun _ ↦ Interference sys inv) (fun _ ↦ pre) (fun _ ↦ idle) where
  rely_refl _ _ := .refl
  rely_trans _ _ _ _ := .trans
  idle_stable _ := hidle.stable
  env_safe event x y hx henv :=
    ⟨hinv event x y trivial hx henv, fun _ ↦ .single ⟨hx, event, henv⟩⟩
  body_safe _ := hbody
  initial_inv := hinitial
  initial_idle _ := hstart

end Solo

end Ax88179Aroma.Effect
