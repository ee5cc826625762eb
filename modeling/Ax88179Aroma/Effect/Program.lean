import Mathlib.Algebra.Order.Ring.Int
import Mathlib.Algebra.Order.Ring.Nat
import Mathlib.Data.List.Basic
import Mathlib.Logic.Function.Basic
import Mathlib.Tactic.Common

/-!
# Programs over shared memory and outside calls

A program is a tree of atomic steps.  One step either reads and updates the shared memory at once
or performs a call to the outside and continues with its reply.  A loop without a static bound is
cut by a fuel argument that ends in `diverge`, which has no further step: since the fuel is always
universally quantified, every finite execution of the loop is an execution of the cut program and
nothing that the loop does not do is added.

The outside is a function of the reply: once the reply to a call is fixed, `reply` says whether it
is possible and what it does.  `Exec` is the execution of a complete program without interference,
`Makes` collects the calls it can make on the way, and `wp` is the weakest precondition that
bounds both.
-/

namespace Ax88179Aroma.Effect

/-- Programs with memory `S`, calls `C` with replies `R`, and result `α`. -/
inductive Program (S C R α : Type) where
  | done (value : α)
  | rmw (update : S → S) (next : S → Program S C R α)
  | call (request : C) (next : R → Program S C R α)
  | diverge

/-- The shared memory of the program together with the state of the outside. -/
structure Machine (S W : Type) where
  mem : S
  world : W

/-- What a reply to a call does to the machine, `none` when the reply is impossible. -/
abbrev Replies (S W C R : Type) := C → R → Machine S W → Option (Machine S W)

namespace Program

variable {S W C R α β : Type}

protected def bind (program : Program S C R α) (next : α → Program S C R β) : Program S C R β :=
  match program with
  | .done value => next value
  | .rmw update rest => .rmw update fun old ↦ (rest old).bind next
  | .call request rest => .call request fun answer ↦ (rest answer).bind next
  | .diverge => .diverge

instance : Monad (Program S C R) where
  pure := .done
  bind := Program.bind

theorem bind_done (program : Program S C R α) : program.bind .done = program := by
  induction program with
  | done value => rfl
  | rmw update next ih => exact congrArg _ (funext ih)
  | call request next ih => exact congrArg _ (funext ih)
  | diverge => rfl

theorem bind_bind {γ : Type} (program : Program S C R α) (next : α → Program S C R β)
    (last : β → Program S C R γ) :
    (program.bind next).bind last = program.bind fun value ↦ (next value).bind last := by
  induction program with
  | done value => rfl
  | rmw update rest ih => exact congrArg _ (funext ih)
  | call request rest ih => exact congrArg _ (funext ih)
  | diverge => rfl

/-- Not an instance: `simp` would turn binds into maps. -/
theorem lawfulMonad : LawfulMonad (Program S C R) :=
  .mk' _ bind_done (fun _ _ ↦ rfl) bind_bind

/-- Read the memory in one atomic step. -/
def load (view : S → α) : Program S C R α :=
  .rmw id fun old ↦ .done (view old)

/-- Update the memory in one atomic step. -/
def store (update : S → S) : Program S C R Unit :=
  .rmw update fun _ ↦ .done ()

/-- Read and update the memory in one atomic step. -/
def access (step : S → α × S) : Program S C R α :=
  .rmw (fun old ↦ (step old).2) fun old ↦ .done (step old).1

/-- Perform one call and return its reply. -/
def perform (request : C) : Program S C R R :=
  .call request .done

/-- Run a program only under a condition. -/
def when (condition : Prop) [Decidable condition] (program : Program S C R Unit) :
    Program S C R Unit :=
  if condition then program else .done ()

/-- Run `body` on every element of a list, in order. -/
def each (body : β → Program S C R Unit) : List β → Program S C R Unit
  | [] => .done ()
  | item :: rest => (body item).bind fun _ ↦ each body rest

/-- The same program with its calls among those of a larger one. -/
def embed {D : Type} (inject : C → D) : Program S C R α → Program S D R α
  | .done value => .done value
  | .rmw update next => .rmw update fun old ↦ embed inject (next old)
  | .call request next => .call (inject request) fun answer ↦ embed inject (next answer)
  | .diverge => .diverge

/-! ## Executions -/

/-- A complete execution without interference, from the machine before to the machine after. -/
inductive Exec (reply : Replies S W C R) :
    Program S C R α → Machine S W → α → Machine S W → Prop where
  | done (value : α) (x : Machine S W) : Exec reply (.done value) x value x
  | rmw {update : S → S} {next : S → Program S C R α} {x y : Machine S W} {value : α}
      (rest : Exec reply (next x.mem) { x with mem := update x.mem } value y) :
      Exec reply (.rmw update next) x value y
  | call {request : C} {next : R → Program S C R α} {x x' y : Machine S W} {value : α}
      (answer : R) (possible : reply request answer x = some x')
      (rest : Exec reply (next answer) x' value y) :
      Exec reply (.call request next) x value y

/-- Some execution from `x` performs `request` on the machine `y`. -/
inductive Makes (reply : Replies S W C R) :
    Program S C R α → Machine S W → C → Machine S W → Prop where
  | here (request : C) (next : R → Program S C R α) (x : Machine S W) :
      Makes reply (.call request next) x request x
  | rmw {update : S → S} {next : S → Program S C R α} {x y : Machine S W} {request : C}
      (rest : Makes reply (next x.mem) { x with mem := update x.mem } request y) :
      Makes reply (.rmw update next) x request y
  | call {first request : C} {next : R → Program S C R α} {x x' y : Machine S W}
      (answer : R) (possible : reply first answer x = some x')
      (rest : Makes reply (next answer) x' request y) :
      Makes reply (.call first next) x request y

/-- Executions compose. -/
theorem Exec.bind {reply : Replies S W C R} {program : Program S C R α}
    {next : α → Program S C R β} {x y z : Machine S W} {value : α} {result : β}
    (hexec : Exec reply program x value y) (hnext : Exec reply (next value) y result z) :
    Exec reply (program >>= next) x result z := by
  change Exec reply (program.bind next) x result z
  induction hexec with
  | done value x => exact hnext
  | rmw rest ih => exact .rmw (ih hnext)
  | call answer possible rest ih => exact .call answer possible (ih hnext)

/-- The calls of the first part are calls of the whole. -/
theorem Makes.bind_left {reply : Replies S W C R} {program : Program S C R α}
    {x y : Machine S W} {request : C} (hmakes : Makes reply program x request y)
    (next : α → Program S C R β) : Makes reply (program >>= next) x request y := by
  change Makes reply (program.bind next) x request y
  induction hmakes with
  | here request rest x => exact .here request _ x
  | rmw rest ih => exact .rmw ih
  | call answer possible rest ih => exact .call answer possible ih

/-- The calls of the second part are made after an execution of the first. -/
theorem Makes.bind_right {reply : Replies S W C R} {program : Program S C R α}
    {next : α → Program S C R β} {x y z : Machine S W} {value : α} {request : C}
    (hmakes : Makes reply (next value) y request z) (hexec : Exec reply program x value y) :
    Makes reply (program >>= next) x request z := by
  change Makes reply (program.bind next) x request z
  induction hexec with
  | done value x => exact hmakes
  | rmw rest ih => exact .rmw (ih hmakes)
  | call answer possible rest ih => exact .call answer possible (ih hmakes)

/-- Execute a program on a given list of replies, and return the unused ones. -/
def run (reply : Replies S W C R) :
    Program S C R α → List R → Machine S W → Option (α × Machine S W × List R)
  | .done value, answers, x => some (value, x, answers)
  | .rmw update next, answers, x => run reply (next x.mem) answers { x with mem := update x.mem }
  | .call _ _, [], _ => none
  | .call request next, answer :: answers, x =>
    match reply request answer x with
    | some y => run reply (next answer) answers y
    | none => none
  | .diverge, _, _ => none

theorem run_bind (reply : Replies S W C R) (program : Program S C R α)
    (next : α → Program S C R β) (answers : List R) (x : Machine S W) :
    run reply (program >>= next) answers x =
      (run reply program answers x).bind fun result ↦
        run reply (next result.1) result.2.2 result.2.1 := by
  change run reply (program.bind next) answers x = _
  induction program generalizing answers x with
  | done value => rfl
  | rmw update rest ih => exact ih _ _ _
  | call request rest ih =>
    cases answers with
    | nil => rfl
    | cons answer answers =>
      simp only [Program.bind, run]
      split
      · exact ih _ _ _
      · rfl
  | diverge => rfl

theorem exec_of_run {reply : Replies S W C R} {program : Program S C R α} {answers rest : List R}
    {x y : Machine S W} {value : α}
    (hrun : run reply program answers x = some (value, y, rest)) :
    Exec reply program x value y := by
  induction program generalizing answers x with
  | done result =>
    simp only [run, Option.some.injEq, Prod.mk.injEq] at hrun
    obtain ⟨rfl, rfl, -⟩ := hrun
    exact .done _ _
  | rmw update next ih => exact .rmw (ih _ hrun)
  | call request next ih =>
    cases answers with
    | nil => cases hrun
    | cons answer answers =>
      simp only [run] at hrun
      split at hrun
      · rename_i x' hreply
        exact .call answer hreply (ih _ hrun)
      · cases hrun
  | diverge => cases hrun

/-! ## Totality -/

/-- The program never cuts a loop short. -/
def Total : Program S C R α → Prop
  | .done _ => True
  | .rmw _ next => ∀ old, Total (next old)
  | .call _ next => ∀ answer, Total (next answer)
  | .diverge => False

theorem total_pure (value : α) : Total (Pure.pure value : Program S C R α) := trivial

theorem total_load (view : S → α) : Total (load view : Program S C R α) := fun _ ↦ trivial

theorem total_store (update : S → S) : Total (store update : Program S C R Unit) := fun _ ↦ trivial

theorem total_access (step : S → α × S) : Total (access step : Program S C R α) := fun _ ↦ trivial

theorem total_perform (request : C) : Total (perform request : Program S C R R) := fun _ ↦ trivial

theorem Total.bind {program : Program S C R α} {next : α → Program S C R β}
    (hprogram : Total program) (hnext : ∀ value, Total (next value)) : Total (program >>= next) := by
  change Total (program.bind next)
  induction program with
  | done value => exact hnext value
  | rmw update rest ih => exact fun old ↦ ih old (hprogram old)
  | call request rest ih => exact fun answer ↦ ih answer (hprogram answer)
  | diverge => exact hprogram

theorem Total.ite {condition : Prop} [Decidable condition] {left right : Program S C R α}
    (hleft : condition → Total left) (hright : ¬ condition → Total right) :
    Total (if condition then left else right) := by
  split
  · exact hleft ‹_›
  · exact hright ‹_›

theorem Total.each {body : β → Program S C R Unit} (hbody : ∀ item, Total (body item))
    (items : List β) : Total (each body items) := by
  induction items with
  | nil => trivial
  | cons item rest ih => exact (hbody item).bind fun _ ↦ ih

/-- Where every call has a reply, a total program has an execution. -/
theorem Total.exists_exec {reply : Replies S W C R}
    (hreply : ∀ request x, ∃ answer y, reply request answer x = some y)
    {program : Program S C R α} (htotal : Total program) (x : Machine S W) :
    ∃ value y, Exec reply program x value y := by
  induction program generalizing x with
  | done value => exact ⟨value, x, .done value x⟩
  | rmw update next ih =>
    obtain ⟨value, y, hexec⟩ := ih x.mem (htotal x.mem) { x with mem := update x.mem }
    exact ⟨value, y, .rmw hexec⟩
  | call request next ih =>
    obtain ⟨answer, x', hpossible⟩ := hreply request x
    obtain ⟨value, y, hexec⟩ := ih answer (htotal answer) x'
    exact ⟨value, y, .call answer hpossible hexec⟩
  | diverge => cases htotal

/-! ## Frames -/

/-- Every update keeps `view` and every call is `allowed`. -/
def Keeps (view : S → β) (allowed : C → Prop) : Program S C R α → Prop
  | .done _ => True
  | .rmw update next =>
    (∀ old, view (update old) = view old) ∧ ∀ old, Keeps view allowed (next old)
  | .call request next => allowed request ∧ ∀ answer, Keeps view allowed (next answer)
  | .diverge => True

section Keeps

variable {γ : Type} {view : S → γ} {allowed : C → Prop}

theorem keeps_pure (value : α) : Keeps view allowed (Pure.pure value : Program S C R α) := trivial

theorem keeps_load (read : S → α) : Keeps view allowed (load read : Program S C R α) :=
  ⟨fun _ ↦ rfl, fun _ ↦ trivial⟩

theorem keeps_store {update : S → S} (hupdate : ∀ old, view (update old) = view old) :
    Keeps view allowed (store update : Program S C R Unit) :=
  ⟨hupdate, fun _ ↦ trivial⟩

theorem keeps_access {step : S → α × S} (hstep : ∀ old, view (step old).2 = view old) :
    Keeps view allowed (access step : Program S C R α) :=
  ⟨hstep, fun _ ↦ trivial⟩

theorem keeps_perform {request : C} (hrequest : allowed request) :
    Keeps view allowed (perform request : Program S C R R) :=
  ⟨hrequest, fun _ ↦ trivial⟩

theorem Keeps.bind {program : Program S C R α} {next : α → Program S C R β}
    (hprogram : Keeps view allowed program) (hnext : ∀ value, Keeps view allowed (next value)) :
    Keeps view allowed (program >>= next) := by
  change Keeps view allowed (program.bind next)
  induction program with
  | done value => exact hnext value
  | rmw update rest ih => exact ⟨hprogram.1, fun old ↦ ih old (hprogram.2 old)⟩
  | call request rest ih => exact ⟨hprogram.1, fun answer ↦ ih answer (hprogram.2 answer)⟩
  | diverge => trivial

theorem Keeps.ite {condition : Prop} [Decidable condition] {left right : Program S C R α}
    (hleft : Keeps view allowed left) (hright : Keeps view allowed right) :
    Keeps view allowed (if condition then left else right) := by
  split
  · exact hleft
  · exact hright

theorem Keeps.each {body : β → Program S C R Unit} {items : List β}
    (hbody : ∀ item ∈ items, Keeps view allowed (body item)) :
    Keeps view allowed (each body items) := by
  induction items with
  | nil => trivial
  | cons item rest ih =>
    refine Keeps.bind (hbody item List.mem_cons_self) fun _ ↦ ?_
    exact ih fun other hother ↦ hbody other (List.mem_cons_of_mem item hother)

/-- A coarser view and more calls keep less. -/
theorem Keeps.mono {δ : Type} {view' : S → δ} {allowed' : C → Prop} {program : Program S C R α}
    (hkeeps : Keeps view allowed program) (hview : ∀ s t, view s = view t → view' s = view' t)
    (hallowed : ∀ request, allowed request → allowed' request) : Keeps view' allowed' program := by
  induction program with
  | done value => trivial
  | rmw update next ih =>
    exact ⟨fun old ↦ hview _ _ (hkeeps.1 old), fun old ↦ ih old (hkeeps.2 old)⟩
  | call request next ih =>
    exact ⟨hallowed request hkeeps.1, fun answer ↦ ih answer (hkeeps.2 answer)⟩
  | diverge => trivial

theorem Keeps.when {condition : Prop} [Decidable condition] {program : Program S C R Unit}
    (hprogram : Keeps view allowed program) : Keeps view allowed (when condition program) :=
  Keeps.ite hprogram trivial

end Keeps

/-! ## Weakest preconditions -/

section Wp

variable (reply : Replies S W C R) (pre : C → Machine S W → Prop)

/-- Every call is made in a machine that satisfies `pre`, and every completed execution ends in a
result and a machine that satisfy `post`. -/
def wp : Program S C R α → (α → Machine S W → Prop) → Machine S W → Prop
  | .done value, post, x => post value x
  | .rmw update next, post, x => wp (next x.mem) post { x with mem := update x.mem }
  | .call request next, post, x =>
    pre request x ∧ ∀ answer y, reply request answer x = some y → wp (next answer) post y
  | .diverge, _, _ => True

variable {reply pre}

@[simp]
theorem wp_pure (value : α) (post : α → Machine S W → Prop) (x : Machine S W) :
    wp reply pre (Pure.pure value) post x ↔ post value x := Iff.rfl

@[simp]
theorem wp_bind (program : Program S C R α) (next : α → Program S C R β)
    (post : β → Machine S W → Prop) (x : Machine S W) :
    wp reply pre (program >>= next) post x ↔
      wp reply pre program (fun value y ↦ wp reply pre (next value) post y) x := by
  change wp reply pre (program.bind next) post x ↔ _
  induction program generalizing x with
  | done value => rfl
  | rmw update rest ih => exact ih _ _
  | call request rest ih =>
    simp only [Program.bind, wp]
    refine and_congr Iff.rfl (forall_congr' fun answer ↦ forall_congr' fun y ↦ ?_)
    exact imp_congr Iff.rfl (ih answer y)
  | diverge => rfl

@[simp]
theorem wp_load (view : S → α) (post : α → Machine S W → Prop) (x : Machine S W) :
    wp reply pre (load view) post x ↔ post (view x.mem) x := Iff.rfl

@[simp]
theorem wp_store (update : S → S) (post : Unit → Machine S W → Prop) (x : Machine S W) :
    wp reply pre (store update) post x ↔ post () { x with mem := update x.mem } := Iff.rfl

@[simp]
theorem wp_access (step : S → α × S) (post : α → Machine S W → Prop) (x : Machine S W) :
    wp reply pre (access step) post x ↔
      post (step x.mem).1 { x with mem := (step x.mem).2 } := Iff.rfl

@[simp]
theorem wp_perform (request : C) (post : R → Machine S W → Prop) (x : Machine S W) :
    wp reply pre (perform request) post x ↔
      pre request x ∧ ∀ answer y, reply request answer x = some y → post answer y := Iff.rfl

@[simp]
theorem wp_ite (condition : Prop) [Decidable condition] (left right : Program S C R α)
    (post : α → Machine S W → Prop) (x : Machine S W) :
    wp reply pre (if condition then left else right) post x ↔
      if condition then wp reply pre left post x else wp reply pre right post x := by
  split <;> rfl

@[simp]
theorem wp_when (condition : Prop) [Decidable condition] (program : Program S C R Unit)
    (post : Unit → Machine S W → Prop) (x : Machine S W) :
    wp reply pre (when condition program) post x ↔
      if condition then wp reply pre program post x else post () x := by
  unfold when
  split <;> rfl

theorem wp_cases {condition : Prop} [Decidable condition] {left right : Program S C R α}
    {post : α → Machine S W → Prop} {x : Machine S W}
    (hleft : condition → wp reply pre left post x)
    (hright : ¬condition → wp reply pre right post x) :
    wp reply pre (if condition then left else right) post x := by
  split
  · exact hleft ‹_›
  · exact hright ‹_›

theorem wp_mono {program : Program S C R α} {post post' : α → Machine S W → Prop}
    {x : Machine S W} (hwp : wp reply pre program post x)
    (hpost : ∀ value y, post value y → post' value y) : wp reply pre program post' x := by
  induction program generalizing x with
  | done value => exact hpost value x hwp
  | rmw update next ih => exact ih _ hwp
  | call request next ih =>
    exact ⟨hwp.1, fun answer y hreply ↦ ih answer (hwp.2 answer y hreply)⟩
  | diverge => exact hwp

/-- Sequential composition through an intermediate assertion. -/
theorem wp_seq {program : Program S C R α} {next : α → Program S C R β}
    {mid : α → Machine S W → Prop} {post : β → Machine S W → Prop} {x : Machine S W}
    (hfirst : wp reply pre program mid x)
    (hnext : ∀ value y, mid value y → wp reply pre (next value) post y) :
    wp reply pre (program >>= next) post x :=
  (wp_bind _ _ _ _).mpr (wp_mono hfirst hnext)

/-- Where calls need nothing, every program ends somewhere or not at all. -/
theorem wp_trivial {program : Program S C R α} {x : Machine S W}
    (hpre : ∀ request y, pre request y) : wp reply pre program (fun _ _ ↦ True) x := by
  induction program generalizing x with
  | done value => trivial
  | rmw update next ih => exact ih _
  | call request next ih => exact ⟨hpre request x, fun answer y _ ↦ ih answer⟩
  | diverge => trivial

theorem wp_embed {D : Type} {inject : C → D} {outer : Replies S W D R}
    {outerPre : D → Machine S W → Prop} {program : Program S C R α}
    {post : α → Machine S W → Prop} {x : Machine S W} :
    wp outer outerPre (embed inject program) post x ↔
      wp (fun request ↦ outer (inject request)) (fun request ↦ outerPre (inject request)) program
        post x := by
  induction program generalizing x with
  | done value => rfl
  | rmw update next ih => exact ih _
  | call request next ih =>
    refine and_congr Iff.rfl (forall_congr' fun answer ↦ forall_congr' fun y ↦ ?_)
    exact imp_congr Iff.rfl (ih answer)
  | diverge => rfl

/-- A loop invariant over the elements carries through `each`. -/
theorem wp_each {body : β → Program S C R Unit} {items : List β} {inv : Machine S W → Prop}
    {x : Machine S W} (hx : inv x)
    (hbody : ∀ item ∈ items, ∀ y, inv y → wp reply pre (body item) (fun _ ↦ inv) y) :
    wp reply pre (each body items) (fun _ ↦ inv) x := by
  induction items generalizing x with
  | nil => exact hx
  | cons item rest ih =>
    have hrest : ∀ y, inv y → wp reply pre (each body rest) (fun _ ↦ inv) y := fun y hy ↦
      ih hy fun other hother ↦ hbody other (List.mem_cons_of_mem item hother)
    change wp reply pre (body item >>= fun _ ↦ each body rest) (fun _ ↦ inv) x
    rw [wp_bind]
    exact wp_mono (hbody item List.mem_cons_self x hx) fun _ y hy ↦ hrest y hy

/-- Each element establishes its own part of the result and keeps the others'. -/
theorem wp_each_mem {body : β → Program S C R Unit} {items : List β}
    {part : β → Machine S W → Prop} {inv : Machine S W → Prop} {x : Machine S W} (hx : inv x)
    (hbody : ∀ item y, inv y → wp reply pre (body item)
      (fun _ z ↦ inv z ∧ part item z ∧ ∀ other, part other y → part other z) y) :
    wp reply pre (each body items) (fun _ z ↦ inv z ∧ ∀ item ∈ items, part item z) x := by
  have hkeep : wp reply pre (each body items)
      (fun _ z ↦ inv z ∧ (∀ item ∈ items, part item z) ∧ ∀ other, part other x → part other z) x := by
    induction items generalizing x with
    | nil => exact ⟨hx, nofun, fun _ h ↦ h⟩
    | cons item rest ih =>
      change wp reply pre (body item >>= fun _ ↦ each body rest) _ x
      rw [wp_bind]
      refine wp_mono (hbody item x hx) fun _ y ⟨hy, hitem, hothers⟩ ↦ ?_
      refine wp_mono (ih hy) fun _ z ⟨hz, hrest, hkept⟩ ↦ ⟨hz, fun other hother ↦ ?_, fun other h ↦ ?_⟩
      · rcases List.mem_cons.mp hother with rfl | hmem
        · exact hkept _ hitem
        · exact hrest other hmem
      · exact hkept other (hothers other h)
  exact wp_mono hkeep fun _ z hz ↦ ⟨hz.1, hz.2.1⟩

/-- What every allowed reply and every update that keeps `view` preserve holds at the end. -/
theorem wp_keeps {γ : Type} {view : S → γ} {allowed : C → Prop} {program : Program S C R α}
    {inv : Machine S W → Prop} {x : Machine S W} (hkeeps : Keeps view allowed program)
    (hupdate : ∀ y mem, view mem = view y.mem → inv y → inv { y with mem := mem })
    (hcall : ∀ request answer y z, allowed request → inv y → reply request answer y = some z →
      inv z)
    (hpre : ∀ request y, allowed request → inv y → pre request y) (hx : inv x) :
    wp reply pre program (fun _ ↦ inv) x := by
  induction program generalizing x with
  | done value => exact hx
  | rmw update next ih => exact ih _ (hkeeps.2 _) (hupdate x _ (hkeeps.1 _) hx)
  | call request next ih =>
    refine ⟨hpre request x hkeeps.1 hx, fun answer y hreply ↦ ?_⟩
    exact ih answer (hkeeps.2 answer) (hcall request answer x y hkeeps.1 hx hreply)
  | diverge => trivial

/-- The calls of a program that keeps a view are allowed. -/
theorem Keeps.wp_calls {γ : Type} {view : S → γ} {allowed : C → Prop} {program : Program S C R α}
    (hkeeps : Keeps view allowed program) {x : Machine S W} :
    wp reply (fun request _ ↦ allowed request) program (fun _ _ ↦ True) x :=
  wp_keeps hkeeps (fun _ _ _ _ ↦ trivial) (fun _ _ _ _ _ _ _ ↦ trivial) (fun _ _ h _ ↦ h) trivial

/-- Soundness for completed executions. -/
theorem Exec.post_of_wp {program : Program S C R α} {post : α → Machine S W → Prop}
    {x y : Machine S W} {value : α} (hexec : Exec reply program x value y)
    (hwp : wp reply pre program post x) : post value y := by
  induction hexec with
  | done value x => exact hwp
  | rmw rest ih => exact ih hwp
  | call answer possible rest ih => exact ih (hwp.2 answer _ possible)

/-- Soundness for the calls made on the way. -/
theorem Makes.pre_of_wp {program : Program S C R α} {post : α → Machine S W → Prop}
    {x y : Machine S W} {request : C} (hmakes : Makes reply program x request y)
    (hwp : wp reply pre program post x) : pre request y := by
  induction hmakes with
  | here request next x => exact hwp.1
  | rmw rest ih => exact ih hwp
  | call answer possible rest ih => exact ih (hwp.2 answer _ possible)

/-- The weakest precondition says nothing more than the calls and the completed executions. -/
theorem wp_iff {program : Program S C R α} {post : α → Machine S W → Prop} {x : Machine S W} :
    wp reply pre program post x ↔
      (∀ request y, Makes reply program x request y → pre request y) ∧
        ∀ value y, Exec reply program x value y → post value y := by
  refine ⟨fun hwp ↦ ⟨fun request y hmakes ↦ hmakes.pre_of_wp hwp,
    fun value y hexec ↦ hexec.post_of_wp hwp⟩, ?_⟩
  rintro ⟨hpre, hpost⟩
  induction program generalizing x with
  | done value => exact hpost value x (.done value x)
  | rmw update next ih =>
    exact ih _ (fun request y hmakes ↦ hpre request y (.rmw hmakes))
      fun value y hexec ↦ hpost value y (.rmw hexec)
  | call request next ih =>
    refine ⟨hpre request x (.here request next x), fun answer y hreply ↦ ?_⟩
    exact ih answer (fun request z hmakes ↦ hpre request z (.call answer hreply hmakes))
      fun value z hexec ↦ hpost value z (.call answer hreply hexec)
  | diverge => trivial

end Wp

end Program

end Ax88179Aroma.Effect
