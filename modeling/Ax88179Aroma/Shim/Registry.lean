import Ax88179Aroma.Shim.Dns
import Ax88179Aroma.Effect.Concurrency
import Mathlib.Data.Multiset.AddSub

/-!
# The registry of address lists

`getaddrinfo` remembers the heads of the lists that the shim built in a table of eight entries, and
`freeaddrinfo` looks a head up to tell whose list it frees.  Both scan the table without a lock,
with one compare-exchange for each entry.

A head that is being remembered or was remembered is in one place at a time: with the thread that
looks for an entry, in its entry, or with the thread that took it out again.  The proofs follow the
head through these places.
-/

namespace Ax88179Aroma.Shim

open Effect Program

variable {ι : Type}

/-! ## Threads on the registry -/

inductive RegistryOp where
  | remember (head : ℕ)
  | isOurs (head : ℕ)
  deriving DecidableEq, Repr

namespace RegistryOp

def head : RegistryOp → ℕ
  | .remember head => head
  | .isOurs head => head

def program : RegistryOp → ShimM Bool
  | .remember head => aiRemember head
  | .isOurs head => aiIsOurs head

/-- What the compare-exchanges of the operation look for. -/
def expected : RegistryOp → ℕ
  | .remember _ => 0
  | .isOurs head => head

def desired : RegistryOp → ℕ
  | .remember head => head
  | .isOurs _ => 0

end RegistryOp

inductive RegistryCall where
  | shim (request : ShimCall)
  | began (op : RegistryOp)
  | returned (op : RegistryOp) (result : Bool)

abbrev RegistryM := Program ShimState RegistryCall ShimReply

/-- A call of `ai_remember` or `ai_is_ours`, with its start and its return. -/
def registryCall (op : RegistryOp) : RegistryM Unit := do
  let _ ← perform (.began op)
  let result ← embed .shim op.program
  let _ ← perform (.returned op result)
  pure ()

/-- The history of one address. -/
structure HeadRecord (ι : Type) where
  /-- remembered or being remembered, and not recognised since -/
  live : Bool := false
  /-- the thread that remembers the address -/
  remembering : Option ι := none
  /-- the last `ai_remember` of it returned 1 -/
  kept : Bool := false
  /-- some `ai_is_ours` was in progress at some moment of the last `ai_remember` -/
  overlapped : Bool := false
  /-- the threads in `ai_is_ours` -/
  asking : List ι := []
  /-- the calls of `ai_is_ours` since the last `ai_remember` -/
  started : ℕ := 0
  returned : ℕ := 0
  recognised : ℕ := 0

namespace HeadRecord

variable [DecidableEq ι]

def beginRemember (r : HeadRecord ι) (i : ι) : HeadRecord ι :=
  { live := true, remembering := some i, overlapped := !r.asking.isEmpty, asking := r.asking }

def beginAsk (r : HeadRecord ι) (i : ι) : HeadRecord ι :=
  { r with
    asking := i :: r.asking
    overlapped := r.overlapped || r.remembering.isSome
    started := r.started + 1 }

def endRemember (r : HeadRecord ι) (i : ι) (result : Bool) : HeadRecord ι :=
  if r.remembering = some i then
    { live := r.live && result, kept := result, overlapped := r.overlapped, asking := r.asking }
  else r

def endAsk (r : HeadRecord ι) (i : ι) (result : Bool) : HeadRecord ι :=
  { r with
    live := r.live && !result
    asking := r.asking.erase i
    returned := r.returned + 1
    recognised := r.recognised + result.toNat }

def began (r : HeadRecord ι) (i : ι) : RegistryOp → HeadRecord ι
  | .remember _ => r.beginRemember i
  | .isOurs _ => r.beginAsk i

def ended (r : HeadRecord ι) (i : ι) (result : Bool) : RegistryOp → HeadRecord ι
  | .remember _ => r.endRemember i result
  | .isOurs _ => r.endAsk i result

end HeadRecord

variable [DecidableEq ι]

/-- `getaddrinfo` remembers heads of new lists: not null, and not those of a list that lives. -/
def RegistryOp.Allowed (heads : ℕ → HeadRecord ι) : RegistryOp → Prop
  | .remember head => head ≠ 0 ∧ (heads head).live = false
  | .isOurs _ => True

instance (heads : ℕ → HeadRecord ι) (op : RegistryOp) : Decidable (op.Allowed heads) :=
  match op with
  | .remember _ => inferInstanceAs (Decidable (_ ∧ _))
  | .isOurs _ => instDecidableTrue

def registryReply (i : ι) : Replies ShimState (ℕ → HeadRecord ι) RegistryCall ShimReply
  | .began op, _, x =>
    if op.Allowed x.world then
      some { x with world := Function.update x.world op.head ((x.world op.head).began i op) }
    else none
  | .returned op result, _, x =>
    some { x with world := Function.update x.world op.head ((x.world op.head).ended i result op) }
  | .shim _, _, x => some x

/-- Any number of threads that remember and free address lists. -/
def registry (ι : Type) [DecidableEq ι] :
    System ι RegistryOp Empty ShimState (ℕ → HeadRecord ι) RegistryCall ShimReply where
  reply := registryReply
  env := nofun
  body _ op := registryCall op
  enabled _ _ _ := true

/-- The registry at the start of a title. -/
def emptyRegistry : Machine ShimState (ℕ → HeadRecord ι) := { mem := {}, world := fun _ ↦ {} }

/-! ## One address -/

/-- Where a call for the address is. -/
inductive ScanStage where
  | seek (entry : ℕ)
  | stored
  | refused
  | look (entry : ℕ)
  | took
  | missed
  deriving DecidableEq, Repr

namespace ScanStage

/-- The call has the address: it looks for an entry or took it out of one. -/
@[grind =]
def carries : ScanStage → Bool
  | .seek _ | .refused | .took => true
  | _ => false

/-- A call of `ai_remember` that has found no entry. -/
@[grind =]
def seeks : ScanStage → Bool
  | .seek _ | .refused => true
  | _ => false

@[grind =]
def remembers : ScanStage → Bool
  | .seek _ | .refused | .stored => true
  | _ => false

@[grind =]
def asks : ScanStage → Bool
  | .look _ | .took | .missed => true
  | _ => false

@[grind →]
theorem any_carries_of_seeks {stage : Option ScanStage} (h : stage.any seeks = true) :
    stage.any carries = true := by
  rcases stage with _ | _ | _ | _ | _ | _ | _ <;> first | rfl | exact h

@[grind →]
theorem eq_stored_of_remembers {stage : Option ScanStage} (h : stage.any remembers = true) :
    stage = some .stored ∨ stage.any seeks = true := by
  rcases stage with _ | _ | _ | _ | _ | _ | _ <;> simp_all [remembers, seeks]

end ScanStage

/-- The part of the system that concerns one address. -/
structure HeadState (ι : Type) where
  stage : ι → Option ScanStage
  /-- the entries that hold it -/
  holds : ℕ → Prop
  history : HeadRecord ι

namespace HeadState

/-- After a step of thread `i`. -/
def move (s : HeadState ι) (i : ι) (stage : Option ScanStage) (holds : ℕ → Prop)
    (history : HeadRecord ι) : HeadState ι :=
  { stage := Function.update s.stage i stage, holds := holds, history := history }

/-- What a call can do to its address. -/
inductive Step : HeadState ι → HeadState ι → Prop where
  | beginRemember {s : HeadState ι} (i : ι) (hidle : s.stage i = none)
      (hnew : s.history.live = false) :
      Step s (s.move i (some (.seek 0)) s.holds (s.history.beginRemember i))
  | beginAsk {s : HeadState ι} (i : ι) (hidle : s.stage i = none) :
      Step s (s.move i (some (.look 0)) s.holds (s.history.beginAsk i))
  | store {s : HeadState ι} (i : ι) (entry : ℕ) (hseek : s.stage i = some (.seek entry)) :
      Step s (s.move i (some .stored) (Function.update s.holds entry True) s.history)
  | seekNext {s : HeadState ι} (i : ι) (entry : ℕ) (hseek : s.stage i = some (.seek entry))
      (next : ScanStage) (hnext : next.seeks = true) : Step s (s.move i (some next) s.holds s.history)
  | take {s : HeadState ι} (i : ι) (entry : ℕ) (hlook : s.stage i = some (.look entry))
      (hholds : s.holds entry) :
      Step s (s.move i (some .took) (Function.update s.holds entry False) s.history)
  | lookNext {s : HeadState ι} (i : ι) (entry : ℕ) (hlook : s.stage i = some (.look entry))
      (hother : ¬ s.holds entry) :
      Step s (s.move i (some (.look (entry + 1))) s.holds s.history)
  | miss {s : HeadState ι} (i : ι) (entry : ℕ) (hlook : s.stage i = some (.look entry))
      (hother : ¬ s.holds entry) (hlast : ∀ other, s.holds other → other ≤ entry) :
      Step s (s.move i (some .missed) s.holds s.history)
  | endRemember {s : HeadState ι} (i : ι) (result : Bool)
      (hend : s.stage i = some (if result then .stored else .refused)) :
      Step s (s.move i none s.holds (s.history.endRemember i result))
  | endAsk {s : HeadState ι} (i : ι) (result : Bool)
      (hend : s.stage i = some (if result then .took else .missed)) :
      Step s (s.move i none s.holds (s.history.endAsk i result))

/-- Where the address is. -/
inductive Place (ι : Type) where
  | thread (i : ι)
  | entry (index : ℕ)

/-- The calls of `ai_is_ours` since the address was remembered, none of them overlapping. -/
@[mk_iff since_iff]
structure Since (s : HeadState ι) (owner : Option (Place ι)) : Prop where
  started : s.history.started = s.history.returned + s.history.asking.length
  recognised : s.history.recognised = if owner.isSome then 0 else 1
  /-- nobody has passed the entry -/
  passed : ∀ index, owner = some (.entry index) → s.history.returned = 0 ∧
    (∀ i entry, s.stage i = some (.look entry) → entry ≤ index) ∧ ∀ i, s.stage i ≠ some .missed

/-- The address is in one place. -/
structure Inv (s : HeadState ι) (owner : Option (Place ι)) : Prop where
  thread : ∀ i, (s.stage i).any ScanStage.carries = true ↔ owner = some (.thread i)
  entry : ∀ index, s.holds index ↔ owner = some (.entry index)
  live : s.history.live = owner.isSome
  asking : ∀ i, i ∈ s.history.asking ↔ (s.stage i).any ScanStage.asks = true
  nodup : s.history.asking.Nodup
  remembering : ∀ i, s.history.remembering = some i → (s.stage i).any ScanStage.remembers = true
  seeking : ∀ i, (s.stage i).any ScanStage.seeks = true → s.history.remembering = some i
  during : ∀ i, s.history.remembering = some i → s.history.overlapped = false →
    s.history.asking = [] ∧ (s.stage i = some .stored → ∃ index, owner = some (.entry index))
  kept : s.history.kept = true → s.history.remembering = none
  stored : ∀ index, owner = some (.entry index) →
    s.history.kept = true ∨ ∃ i, s.history.remembering = some i ∧ s.stage i = some .stored
  since : s.history.kept = true → s.history.overlapped = false → s.Since owner

section Steps

variable {s : HeadState ι} {owner : Option (Place ι)} {i : ι}

theorem Inv.beginRemember (h : s.Inv owner) (hidle : s.stage i = none)
    (hnew : s.history.live = false) :
    (s.move i (some (.seek 0)) s.holds (s.history.beginRemember i)).Inv (some (.thread i)) := by
  obtain rfl : owner = none := Option.not_isSome_iff_eq_none.mp (by rw [← h.live, hnew]; decide)
  obtain ⟨hthread, hentry, hlive, hasking, hnodup, hremembering, hseeking, hduring, hkept, hstored,
    hsince⟩ := h
  constructor <;> dsimp only [move, HeadRecord.beginRemember] <;>
    grind [Function.update_apply, since_iff]

theorem Inv.beginAsk (h : s.Inv owner) (hidle : s.stage i = none) :
    (s.move i (some (.look 0)) s.holds (s.history.beginAsk i)).Inv owner := by
  obtain ⟨hthread, hentry, hlive, hasking, hnodup, hremembering, hseeking, hduring, hkept, hstored,
    hsince⟩ := h
  constructor <;> dsimp only [move, HeadRecord.beginAsk] <;>
    grind [Function.update_apply, since_iff]

theorem Inv.store (h : s.Inv owner) {entry : ℕ} (hseek : s.stage i = some (.seek entry)) :
    (s.move i (some .stored) (Function.update s.holds entry True) s.history).Inv
      (some (.entry entry)) := by
  obtain rfl : owner = some (.thread i) := (h.thread i).mp (by rw [hseek]; rfl)
  obtain ⟨hthread, hentry, hlive, hasking, hnodup, hremembering, hseeking, hduring, hkept, hstored,
    hsince⟩ := h
  constructor <;> dsimp only [move] <;>
    grind [Function.update_apply, since_iff]

theorem Inv.seekNext (h : s.Inv owner) {entry : ℕ} (hseek : s.stage i = some (.seek entry))
    {next : ScanStage} (hnext : next.seeks = true) :
    (s.move i (some next) s.holds s.history).Inv owner := by
  have hclasses : next.carries = true ∧ next.asks = false ∧ next.remembers = true := by
    cases next <;> first | exact ⟨rfl, rfl, rfl⟩ | cases hnext
  obtain rfl : owner = some (.thread i) := (h.thread i).mp (by rw [hseek]; rfl)
  obtain ⟨hthread, hentry, hlive, hasking, hnodup, hremembering, hseeking, hduring, hkept, hstored,
    hsince⟩ := h
  constructor <;> dsimp only [move] <;>
    grind [Function.update_apply, since_iff]

theorem Inv.take (h : s.Inv owner) {entry : ℕ} (hlook : s.stage i = some (.look entry))
    (hholds : s.holds entry) :
    (s.move i (some .took) (Function.update s.holds entry False) s.history).Inv
      (some (.thread i)) := by
  obtain rfl : owner = some (.entry entry) := (h.entry entry).mp hholds
  obtain ⟨hthread, hentry, hlive, hasking, hnodup, hremembering, hseeking, hduring, hkept, hstored,
    hsince⟩ := h
  constructor <;> dsimp only [move] <;>
    grind [Function.update_apply, since_iff]

theorem Inv.lookNext (h : s.Inv owner) {entry : ℕ} (hlook : s.stage i = some (.look entry))
    (hother : ¬ s.holds entry) :
    (s.move i (some (.look (entry + 1))) s.holds s.history).Inv owner := by
  obtain ⟨hthread, hentry, hlive, hasking, hnodup, hremembering, hseeking, hduring, hkept, hstored,
    hsince⟩ := h
  constructor <;> dsimp only [move] <;>
    grind [Function.update_apply, since_iff]

theorem Inv.miss (h : s.Inv owner) {entry : ℕ} (hlook : s.stage i = some (.look entry))
    (hother : ¬ s.holds entry) (hlast : ∀ other, s.holds other → other ≤ entry) :
    (s.move i (some .missed) s.holds s.history).Inv owner := by
  obtain ⟨hthread, hentry, hlive, hasking, hnodup, hremembering, hseeking, hduring, hkept, hstored,
    hsince⟩ := h
  constructor <;> dsimp only [move] <;>
    grind [Function.update_apply, since_iff]

theorem Inv.endRemember_stored (h : s.Inv owner) (hend : s.stage i = some .stored) :
    (s.move i none s.holds (s.history.endRemember i true)).Inv owner := by
  obtain ⟨hthread, hentry, hlive, hasking, hnodup, hremembering, hseeking, hduring, hkept, hstored,
    hsince⟩ := h
  constructor <;> dsimp only [move, HeadRecord.endRemember] <;>
    grind [Function.update_apply, since_iff]

theorem Inv.endRemember_refused (h : s.Inv owner) (hend : s.stage i = some .refused) :
    (s.move i none s.holds (s.history.endRemember i false)).Inv none := by
  obtain rfl : owner = some (.thread i) := (h.thread i).mp (by rw [hend]; rfl)
  obtain ⟨hthread, hentry, hlive, hasking, hnodup, hremembering, hseeking, hduring, hkept, hstored,
    hsince⟩ := h
  constructor <;> dsimp only [move, HeadRecord.endRemember] <;>
    grind [Function.update_apply, since_iff]

theorem Inv.endAsk_took (h : s.Inv owner) (hend : s.stage i = some .took) :
    (s.move i none s.holds (s.history.endAsk i true)).Inv none := by
  obtain rfl : owner = some (.thread i) := (h.thread i).mp (by rw [hend]; rfl)
  obtain ⟨hthread, hentry, hlive, hasking, hnodup, hremembering, hseeking, hduring, hkept, hstored,
    hsince⟩ := h
  constructor <;> dsimp only [move, HeadRecord.endAsk] <;>
    grind [Function.update_apply, since_iff]

theorem Inv.endAsk_missed (h : s.Inv owner) (hend : s.stage i = some .missed) :
    (s.move i none s.holds (s.history.endAsk i false)).Inv owner := by
  obtain ⟨hthread, hentry, hlive, hasking, hnodup, hremembering, hseeking, hduring, hkept, hstored,
    hsince⟩ := h
  constructor <;> dsimp only [move, HeadRecord.endAsk] <;>
    grind [Function.update_apply, since_iff]

end Steps

/-- A step moves the address at most from one place to another. -/
theorem Inv.step {s t : HeadState ι} {owner : Option (Place ι)} (h : s.Inv owner)
    (hstep : Step s t) : ∃ place, t.Inv place := by
  cases hstep with
  | beginRemember i hidle hnew => exact ⟨_, h.beginRemember hidle hnew⟩
  | beginAsk i hidle => exact ⟨_, h.beginAsk hidle⟩
  | store i entry hseek => exact ⟨_, h.store hseek⟩
  | seekNext i entry hseek next hnext => exact ⟨_, h.seekNext hseek hnext⟩
  | take i entry hlook hholds => exact ⟨_, h.take hlook hholds⟩
  | lookNext i entry hlook hother => exact ⟨_, h.lookNext hlook hother⟩
  | miss i entry hlook hother hlast => exact ⟨_, h.miss hlook hother hlast⟩
  | endRemember i result hend =>
    cases result with
    | true => exact ⟨_, h.endRemember_stored hend⟩
    | false => exact ⟨_, h.endRemember_refused hend⟩
  | endAsk i result hend =>
    cases result with
    | true => exact ⟨_, h.endAsk_took hend⟩
    | false => exact ⟨_, h.endAsk_missed hend⟩

end HeadState

/-! ## The threads -/

/-- Where a thread is in its call. -/
inductive Pc where
  | begins (op : RegistryOp)
  | scans (op : RegistryOp) (entry : ℕ)
  | returns (op : RegistryOp) (result : Bool)
  | ended
  deriving DecidableEq, Repr

namespace Pc

/-- What is left after the scan. -/
def finish (op : RegistryOp) (result : Bool) : RegistryM Unit :=
  .call (.returned op result) fun _ ↦ .done ()

def scan (op : RegistryOp) (entry : ℕ) : RegistryM Unit :=
  (embed .shim (swapAny op.expected op.desired ((List.range aiOwnedMax).drop entry))).bind
    (finish op)

/-- What is left of the call. -/
def program : Pc → RegistryM Unit
  | .begins op => registryCall op
  | .scans op entry => scan op entry
  | .returns op result => finish op result
  | .ended => .done ()

/-- After an entry that the compare-exchange left. -/
def next (op : RegistryOp) (entry : ℕ) : Pc :=
  if entry + 1 < aiOwnedMax then .scans op (entry + 1) else .returns op false

/-- After the start of the call. -/
def first (op : RegistryOp) : Pc :=
  if op = .isOurs 0 then .returns op false else .scans op 0

/-- A scan is at an entry of the table, and for an address. -/
def Valid : Pc → Prop
  | .scans op entry => op.head ≠ 0 ∧ entry < aiOwnedMax
  | .returns op result => result = true → op.head ≠ 0
  | _ => True

theorem scan_eq (op : RegistryOp) {entry : ℕ} (h : entry < aiOwnedMax) :
    scan op entry = .rmw (fun s ↦ (swapOwned entry op.expected op.desired s).2) fun s ↦
      if (swapOwned entry op.expected op.desired s).1 then finish op true
      else (next op entry).program := by
  have hdrop : (List.range aiOwnedMax).drop entry =
      entry :: (List.range aiOwnedMax).drop (entry + 1) := by
    rw [List.drop_eq_getElem_cons (by simpa using h), List.getElem_range]
  have hnext : (next op entry).program = scan op (entry + 1) := by
    unfold next
    split
    · rfl
    · rw [scan, List.drop_eq_nil_of_le (by simp; omega)]
      rfl
  rw [hnext, scan, hdrop]
  change Program.rmw _ _ = Program.rmw _ _
  refine congrArg _ (funext fun s ↦ ?_)
  change (embed _ (if (swapOwned entry op.expected op.desired s).1 then _ else _)).bind _ = _
  split <;> rfl

theorem registryCall_eq (op : RegistryOp) :
    registryCall op = .call (.began op) fun _ ↦ (first op).program := by
  change Program.call _ _ = _
  refine congrArg _ (funext fun answer ↦ ?_)
  unfold first
  cases op with
  | remember head => rfl
  | isOurs head =>
    by_cases hzero : head = 0
    · subst hzero
      rfl
    · rw [if_neg (by simpa using hzero)]
      change (embed RegistryCall.shim (aiIsOurs head)).bind _ = _
      rw [aiIsOurs, if_neg hzero]
      rfl

/-- What thread `i` does in one action. -/
inductive Step (i : ι) : Option Pc → Machine ShimState (ℕ → HeadRecord ι) →
    Option Pc → Machine ShimState (ℕ → HeadRecord ι) → Prop where
  | start (op : RegistryOp) (x) : Step i none x (some (.begins op)) x
  | began (op : RegistryOp) (x) (hallowed : op.Allowed x.world) :
      Step i (some (.begins op)) x (some (first op))
        { x with world := Function.update x.world op.head ((x.world op.head).began i op) }
  | swapped (op : RegistryOp) (entry : ℕ) (x) (hexpected : x.mem.aiOwned entry = op.expected) :
      Step i (some (.scans op entry)) x (some (.returns op true))
        { x with mem := { x.mem with
            aiOwned := Function.update x.mem.aiOwned entry op.desired } }
  | passed (op : RegistryOp) (entry : ℕ) (x) (hother : x.mem.aiOwned entry ≠ op.expected) :
      Step i (some (.scans op entry)) x (some (next op entry)) x
  | returned (op : RegistryOp) (result : Bool) (x) :
      Step i (some (.returns op result)) x (some .ended)
        { x with world := Function.update x.world op.head ((x.world op.head).ended i result op) }
  | ended (x) : Step i (some .ended) x none x

end Pc

/-- The threads of a configuration are where the counters say. -/
structure Located (c : Config ι ShimState (ℕ → HeadRecord ι) RegistryCall ShimReply)
    (pcs : ι → Option Pc) : Prop where
  threads : ∀ i, c.threads i = (pcs i).map Pc.program
  valid : ∀ i pc, pcs i = some pc → pc.Valid

section Located

variable {c d : Config ι ShimState (ℕ → HeadRecord ι) RegistryCall ShimReply}
  {pcs : ι → Option Pc} {i : ι}

theorem Pc.valid_next {op : RegistryOp} {entry : ℕ} (hhead : op.head ≠ 0) :
    (Pc.next op entry).Valid := by
  unfold Pc.next
  split <;> simp_all [Pc.Valid]

omit [DecidableEq ι] in
theorem Pc.valid_first {heads : ℕ → HeadRecord ι} {op : RegistryOp} (h : op.Allowed heads) :
    (Pc.first op).Valid := by
  unfold Pc.first
  split
  · exact nofun
  · refine ⟨?_, by decide⟩
    cases op with
    | remember head => exact h.1
    | isOurs head => simp_all [RegistryOp.head]

theorem Located.move (h : Located c pcs) (i : ι) (pc : Option Pc)
    (y : Machine ShimState (ℕ → HeadRecord ι)) (hvalid : pc.elim True Pc.Valid) :
    Located { machine := y, threads := Function.update c.threads i (pc.map Pc.program) }
      (Function.update pcs i pc) := by
  refine ⟨fun j ↦ ?_, fun j pc' hpc ↦ ?_⟩
  · by_cases hj : j = i
    · subst hj
      simp
    · simp only [Function.update_of_ne hj]
      exact h.threads j
  · by_cases hj : j = i
    · subst hj
      rw [Function.update_self] at hpc
      subst hpc
      exact hvalid
    · rw [Function.update_of_ne hj] at hpc
      exact h.valid j pc' hpc

/-- Every action is a step of one thread. -/
theorem Located.exec (h : Located c pcs) {action : Action ι RegistryOp Empty ShimReply}
    (hexec : (registry ι).exec c action = some d) :
    ∃ i pc, Pc.Step i (pcs i) c.machine pc d.machine ∧ Located d (Function.update pcs i pc) := by
  cases action with
  | start i op =>
    have hthread := h.threads i
    simp only [System.exec] at hexec
    split at hexec
    · rename_i hnone
      cases hexec
      have hpc : pcs i = none := by simpa [hnone] using hthread.symm
      refine ⟨i, some (.begins op), ?_, h.move i (some (.begins op)) _ trivial⟩
      rw [hpc]
      exact .start op c.machine
    · cases hexec
  | step i =>
    have hthread := h.threads i
    simp only [System.exec] at hexec
    cases hpc : pcs i with
    | none => simp [hthread, hpc] at hexec
    | some pc =>
      rw [hthread, hpc] at hexec
      cases pc with
      | begins op => cases hexec
      | returns op result => cases hexec
      | ended =>
        cases hexec
        exact ⟨i, none, by rw [hpc]; exact .ended c.machine, h.move i none _ trivial⟩
      | scans op entry =>
        obtain ⟨hhead, hentry⟩ := h.valid i _ hpc
        simp only [Option.map_some, Pc.program, Pc.scan_eq op hentry, Option.some.injEq] at hexec
        subst hexec
        by_cases hexpected : c.machine.mem.aiOwned entry = op.expected
        · refine ⟨i, some (.returns op true), ?_, ?_⟩
          · rw [hpc]
            simp only [swapOwned, if_pos hexpected]
            exact .swapped op entry c.machine hexpected
          · simp only [swapOwned, if_pos hexpected]
            exact h.move i (some (.returns op true)) _ fun _ ↦ hhead
        · refine ⟨i, some (Pc.next op entry), ?_, ?_⟩
          · rw [hpc]
            simp only [swapOwned, if_neg hexpected]
            exact .passed op entry c.machine hexpected
          · simp only [swapOwned, if_neg hexpected]
            exact h.move i (some (Pc.next op entry)) _ (Pc.valid_next hhead)
  | answer i value =>
    have hthread := h.threads i
    simp only [System.exec] at hexec
    cases hpc : pcs i with
    | none => simp [hthread, hpc] at hexec
    | some pc =>
      rw [hthread, hpc] at hexec
      cases pc with
      | begins op =>
        rw [Option.map_some, Pc.program, Pc.registryCall_eq] at hexec
        obtain ⟨y, hreply, rfl⟩ := Option.map_eq_some_iff.mp hexec
        obtain ⟨hallowed, hy⟩ := Option.ite_none_right_eq_some.mp hreply
        cases hy
        refine ⟨i, some (Pc.first op), ?_,
          h.move i (some (Pc.first op)) _ (Pc.valid_first hallowed)⟩
        rw [hpc]
        exact .began op c.machine hallowed
      | returns op result =>
        cases hexec
        refine ⟨i, some .ended, ?_, h.move i (some .ended) _ trivial⟩
        rw [hpc]
        exact .returned op result c.machine
      | ended => cases hexec
      | scans op entry =>
        obtain ⟨hhead, hentry⟩ := h.valid i _ hpc
        simp [Pc.program, Pc.scan_eq op hentry] at hexec
  | env event => exact event.elim

end Located

/-! ## From the threads to one address -/

/-- Where the thread is in a call for `head`. -/
def Pc.stage (head : ℕ) : Pc → Option ScanStage
  | .scans op entry =>
    if op.head = head then
      match op with
      | .remember _ => some (.seek entry)
      | .isOurs _ => some (.look entry)
    else none
  | .returns op result =>
    if op.head = head then
      match op with
      | .remember _ => some (if result then .stored else .refused)
      | .isOurs _ => some (if result then .took else .missed)
    else none
  | _ => none

/-- The part of a registry that concerns `head`. -/
def headState (pcs : ι → Option Pc) (x : Machine ShimState (ℕ → HeadRecord ι)) (head : ℕ) :
    HeadState ι where
  stage i := (pcs i).bind (Pc.stage head)
  holds entry := entry < aiOwnedMax ∧ x.mem.aiOwned entry = head
  history := x.world head

section Project

variable {pcs : ι → Option Pc} {x y : Machine ShimState (ℕ → HeadRecord ι)} {i : ι}
  {pc : Option Pc} {head : ℕ}

/-- A step of thread `i` moves the address of its call, or nothing changes for the address. -/
theorem headState_update
    (hholds : ∀ entry, y.mem.aiOwned entry = head ↔ x.mem.aiOwned entry = head)
    (hstage : pc.bind (Pc.stage head) = (pcs i).bind (Pc.stage head))
    (hworld : y.world head = x.world head) :
    headState (Function.update pcs i pc) y head = headState pcs x head := by
  unfold headState
  congr 1
  · funext j
    by_cases hj : j = i
    · subst hj
      rw [Function.update_self, hstage]
    · rw [Function.update_of_ne hj]
  · funext entry
    exact propext (and_congr_right fun _ ↦ hholds entry)

theorem step_headState {stage : Option ScanStage} {holds : ℕ → Prop} {history : HeadRecord ι}
    (hstep : HeadState.Step (headState pcs x head)
      ((headState pcs x head).move i stage holds history))
    (hstage : pc.bind (Pc.stage head) = stage)
    (hholds : ∀ entry, entry < aiOwnedMax ∧ y.mem.aiOwned entry = head ↔ holds entry)
    (hhistory : y.world head = history) :
    HeadState.Step (headState pcs x head) (headState (Function.update pcs i pc) y head) := by
  subst hstage hhistory
  convert hstep using 1
  unfold headState HeadState.move
  congr 1
  · funext j
    by_cases hj : j = i
    · subst hj
      simp
    · simp [Function.update_of_ne hj]
  · funext entry
    exact propext (hholds entry)

/-- Every step of a thread is a step of the address, or it does not concern the address. -/
theorem Pc.Step.project {old : Option Pc} (hstep : Pc.Step i old x pc y) (hpc : pcs i = old)
    (hvalid : old.elim True Pc.Valid) (hhead : head ≠ 0) :
    headState (Function.update pcs i pc) y head = headState pcs x head ∨
      HeadState.Step (headState pcs x head) (headState (Function.update pcs i pc) y head) := by
  have hstage : (headState pcs x head).stage i = old.bind (Pc.stage head) := by rw [← hpc]; rfl
  cases hstep with
  | start op => exact .inl (headState_update (fun _ ↦ Iff.rfl) (by rw [hpc]; rfl) rfl)
  | ended => exact .inl (headState_update (fun _ ↦ Iff.rfl) (by rw [hpc]; rfl) rfl)
  | began op _ hallowed =>
    by_cases hop : op.head = head
    · subst hop
      refine .inr ?_
      cases op with
      | remember g =>
        refine step_headState (.beginRemember i hstage hallowed.2) ?_ (fun _ ↦ Iff.rfl)
          (Function.update_self _ _ _)
        simp [Pc.first, Pc.stage]
      | isOurs g =>
        refine step_headState (.beginAsk i hstage) ?_ (fun _ ↦ Iff.rfl) (Function.update_self _ _ _)
        have hg : g ≠ 0 := hhead
        simp [Pc.first, Pc.stage, hg]
    · refine .inl (headState_update (fun _ ↦ Iff.rfl) ?_ (Function.update_of_ne (Ne.symm hop) _ _))
      rw [hpc]
      unfold Pc.first
      split <;> simp [Pc.stage, hop]
  | swapped op entry _ hexpected =>
    obtain ⟨hnull, hentry⟩ := hvalid
    by_cases hop : op.head = head
    · subst hop
      refine .inr ?_
      cases op with
      | remember g =>
        refine step_headState (.store i entry (by simpa [Pc.stage] using hstage))
          (by simp [Pc.stage]) (fun e ↦ ?_) rfl
        simp only [Function.update_apply, headState, RegistryOp.desired]
        grind [RegistryOp.head]
      | isOurs g =>
        refine step_headState (.take i entry (by simpa [Pc.stage] using hstage) ⟨hentry, hexpected⟩)
          (by simp [Pc.stage]) (fun e ↦ ?_) rfl
        simp only [Function.update_apply, headState, RegistryOp.desired]
        grind [RegistryOp.head]
    · refine .inl (headState_update (fun e ↦ ?_) (by simp [hpc, Pc.stage, hop]) rfl)
      simp only [Function.update_apply]
      cases op <;> grind [RegistryOp.desired, RegistryOp.expected, RegistryOp.head]
  | passed op entry _ hother =>
    obtain ⟨hnull, hentry⟩ := hvalid
    by_cases hop : op.head = head
    · subst hop
      refine .inr ?_
      cases op with
      | remember g =>
        refine step_headState (.seekNext i entry (by simpa [Pc.stage] using hstage)
          (if entry + 1 < aiOwnedMax then .seek (entry + 1) else .refused) ?_) ?_
          (fun _ ↦ Iff.rfl) rfl
        · split <;> rfl
        · unfold Pc.next
          split <;> simp [Pc.stage]
      | isOurs g =>
        have hlook : (headState pcs x (RegistryOp.isOurs g).head).stage i = some (.look entry) := by
          simpa [Pc.stage] using hstage
        have hmiss : ¬ (headState pcs x (RegistryOp.isOurs g).head).holds entry :=
          fun h ↦ hother h.2
        by_cases hlast : entry + 1 < aiOwnedMax
        · refine step_headState (.lookNext i entry hlook hmiss) ?_ (fun _ ↦ Iff.rfl) rfl
          simp [Pc.next, Pc.stage, hlast]
        · refine step_headState (.miss i entry hlook hmiss fun other hother ↦ ?_) ?_
            (fun _ ↦ Iff.rfl) rfl
          · have := hother.1
            omega
          · simp [Pc.next, Pc.stage, hlast]
    · refine .inl (headState_update (fun _ ↦ Iff.rfl) ?_ rfl)
      rw [hpc]
      unfold Pc.next
      split <;> simp [Pc.stage, hop]
  | returned op result =>
    by_cases hop : op.head = head
    · subst hop
      refine .inr ?_
      cases op with
      | remember g =>
        exact step_headState (.endRemember i result (by simpa [Pc.stage] using hstage)) rfl
          (fun _ ↦ Iff.rfl) (Function.update_self _ _ _)
      | isOurs g =>
        exact step_headState (.endAsk i result (by simpa [Pc.stage] using hstage)) rfl
          (fun _ ↦ Iff.rfl) (Function.update_self _ _ _)
    · refine .inl (headState_update (fun _ ↦ Iff.rfl) ?_ (Function.update_of_ne (Ne.symm hop) _ _))
      simp [hpc, Pc.stage, hop]

end Project

/-- Each address is in one place. -/
def Tracked (c : Config ι ShimState (ℕ → HeadRecord ι) RegistryCall ShimReply)
    (pcs : ι → Option Pc) : Prop :=
  Located c pcs ∧ ∀ head, head ≠ 0 → ∃ owner, (headState pcs c.machine head).Inv owner

omit [DecidableEq ι] in
theorem tracked_start : Tracked (System.start (emptyRegistry : Machine _ (ℕ → HeadRecord ι)))
    fun _ ↦ none := by
  refine ⟨⟨fun _ ↦ rfl, nofun⟩, fun head hhead ↦ ⟨none, ?_⟩⟩
  constructor <;> simp [headState, System.start, emptyRegistry, Ne.symm hhead]

theorem Tracked.exec {c d : Config ι ShimState (ℕ → HeadRecord ι) RegistryCall ShimReply}
    {pcs : ι → Option Pc} (h : Tracked c pcs) {action : Action ι RegistryOp Empty ShimReply}
    (hexec : (registry ι).exec c action = some d) :
    ∃ i pc, Pc.Step i (pcs i) c.machine pc d.machine ∧ Tracked d (Function.update pcs i pc) := by
  obtain ⟨i, pc, hstep, hlocated⟩ := h.1.exec hexec
  refine ⟨i, pc, hstep, hlocated, fun head hhead ↦ ?_⟩
  have hvalid : (pcs i).elim True Pc.Valid := by
    cases hpc : pcs i with
    | none => trivial
    | some old => exact h.1.valid i old hpc
  obtain ⟨owner, hinv⟩ := h.2 head hhead
  rcases hstep.project rfl hvalid hhead with heq | hmove
  · exact ⟨owner, heq ▸ hinv⟩
  · exact hinv.step hmove

/-- What a run reaches, with a further invariant of the steps. -/
theorem tracked_run (further : (ι → Option Pc) → Machine ShimState (ℕ → HeadRecord ι) → Prop)
    (hstart : further (fun _ ↦ none) emptyRegistry)
    (hstep : ∀ pcs x i pc y, further pcs x → Pc.Step i (pcs i) x pc y →
      further (Function.update pcs i pc) y)
    {actions : List (Action ι RegistryOp Empty ShimReply)}
    {c : Config ι ShimState (ℕ → HeadRecord ι) RegistryCall ShimReply}
    (hrun : (registry ι).run (System.start emptyRegistry) actions = some c) :
    ∃ pcs, Tracked c pcs ∧ further pcs c.machine := by
  suffices hall : ∀ c', (∃ pcs, Tracked c' pcs ∧ further pcs c'.machine) →
      (registry ι).run c' actions = some c → ∃ pcs, Tracked c pcs ∧ further pcs c.machine from
    hall _ ⟨_, tracked_start, hstart⟩ hrun
  clear hrun
  induction actions with
  | nil =>
    intro c' hc hrun
    cases hrun
    exact hc
  | cons action rest ih =>
    intro c' hc hrun
    obtain ⟨pcs, htracked, hfurther⟩ := hc
    obtain ⟨middle, hexec, hrest⟩ := Option.bind_eq_some_iff.mp hrun
    obtain ⟨i, pc, hmove, hafter⟩ := htracked.exec hexec
    exact ih middle ⟨_, hafter, hstep _ _ _ _ _ hfurther hmove⟩ hrest

section Reached

omit [DecidableEq ι]

variable {c : Config ι ShimState (ℕ → HeadRecord ι) RegistryCall ShimReply} {pcs : ι → Option Pc}
  {head : ℕ}

/-- A thread that is about to return is where its counter says. -/
theorem Tracked.returns (h : Tracked c pcs) {i : ι} {op : RegistryOp} {result : Bool}
    {next : ShimReply → RegistryM Unit}
    (hcall : c.threads i = some (.call (.returned op result) next)) :
    pcs i = some (.returns op result) := by
  have hthread := h.1.threads i
  rw [hcall] at hthread
  cases hpc : pcs i with
  | none => simp [hpc] at hthread
  | some pc =>
    rw [hpc, Option.map_some, Option.some.injEq] at hthread
    cases pc with
    | begins op' =>
      rw [Pc.program, Pc.registryCall_eq] at hthread
      cases hthread
    | scans op' entry =>
      rw [Pc.program, Pc.scan_eq op' (h.1.valid i _ hpc).2] at hthread
      cases hthread
    | returns op' result' =>
      cases hthread
      rfl
    | ended => cases hthread

/-- Only an address that lives is recognised. -/
theorem Tracked.live_of_recognised (h : Tracked c pcs) {i : ι}
    (hpc : pcs i = some (.returns (.isOurs head) true)) : (c.machine.world head).live = true := by
  have hhead : head ≠ 0 := h.1.valid i _ hpc rfl
  obtain ⟨owner, hinv⟩ := h.2 head hhead
  have htook : (headState pcs c.machine head).stage i = some .took := by
    simp [headState, hpc, Pc.stage, RegistryOp.head]
  obtain rfl := (hinv.thread i).mp (by rw [htook]; rfl)
  exact hinv.live

/-- Only addresses that live are in the table. -/
theorem Tracked.live_of_holds (h : Tracked c pcs) (hhead : head ≠ 0) {entry : ℕ}
    (hentry : entry < aiOwnedMax) (hholds : c.machine.mem.aiOwned entry = head) :
    (c.machine.world head).live = true := by
  obtain ⟨owner, hinv⟩ := h.2 head hhead
  obtain rfl := (hinv.entry entry).mp ⟨hentry, hholds⟩
  exact hinv.live

/-- Of the calls since the address was remembered one recognises it. -/
theorem Tracked.recognised (h : Tracked c pcs) (hhead : head ≠ 0)
    (hkept : (c.machine.world head).kept = true)
    (hoverlapped : (c.machine.world head).overlapped = false) :
    (c.machine.world head).recognised ≤ 1 ∧
      (0 < (c.machine.world head).started →
        (c.machine.world head).returned = (c.machine.world head).started →
        (c.machine.world head).recognised = 1) := by
  obtain ⟨owner, hinv⟩ := h.2 head hhead
  obtain ⟨hstarted, hrecognised, hpassed⟩ := hinv.since hkept hoverlapped
  replace hstarted : (c.machine.world head).started =
    (c.machine.world head).returned + (c.machine.world head).asking.length := hstarted
  replace hrecognised : (c.machine.world head).recognised = if owner.isSome then 0 else 1 :=
    hrecognised
  refine ⟨by rw [hrecognised]; split <;> omega, fun hpos hall ↦ ?_⟩
  have hnobody : (c.machine.world head).asking = [] := List.length_eq_zero_iff.mp (by omega)
  match owner with
  | none => exact hrecognised
  | some (.entry index) =>
    have : (c.machine.world head).returned = 0 := (hpassed index rfl).1
    omega
  | some (.thread i) =>
    -- the thread took the address, so it is one of those that ask
    have hcarries := (hinv.thread i).mpr rfl
    have hnone : (c.machine.world head).remembering = none := hinv.kept hkept
    have hseeks : ((headState pcs c.machine head).stage i).any ScanStage.seeks ≠ true := fun hseeks ↦ by
      have hsome : (c.machine.world head).remembering = some i := hinv.seeking i hseeks
      rw [hnone] at hsome
      cases hsome
    have hasks : ((headState pcs c.machine head).stage i).any ScanStage.asks = true := by
      rcases hstage : (headState pcs c.machine head).stage i with _ | _ | _ | _ | _ | _ | _ <;>
        simp_all [ScanStage.carries, ScanStage.seeks, ScanStage.asks]
    have hmem : i ∈ (c.machine.world head).asking := (hinv.asking i).mpr hasks
    rw [hnobody] at hmem
    cases hmem

end Reached

/-! ## A full table -/

/-- The entries that a call of `ai_remember` without interference has passed are taken. -/
def Passed (x : Machine ShimState (ℕ → HeadRecord Unit)) : Option Pc → Prop
  | some (.scans (.remember _) entry) => ∀ i < entry, x.mem.aiOwned i ≠ 0
  | some (.returns (.remember _) false) => ∀ i < aiOwnedMax, x.mem.aiOwned i ≠ 0
  | _ => True

theorem Passed.step {old pc : Option Pc} {x y : Machine ShimState (ℕ → HeadRecord Unit)}
    (h : Passed x old) (hstep : Pc.Step () old x pc y) : Passed y pc := by
  cases hstep with
  | start op => trivial
  | ended => trivial
  | returned op result => trivial
  | began op _ hallowed =>
    cases op with
    | remember head => exact nofun
    | isOurs head =>
      unfold Pc.first
      split <;> trivial
  | swapped op entry _ hexpected => cases op <;> trivial
  | passed op entry _ hother =>
    cases op with
    | isOurs head =>
      unfold Pc.next
      split <;> trivial
    | remember head =>
      have hall : ∀ i < entry + 1, x.mem.aiOwned i ≠ 0 := fun i hi ↦ by
        rcases Nat.lt_succ_iff_lt_or_eq.mp hi with hlt | rfl
        · exact h i hlt
        · exact hother
      unfold Pc.next
      split
      · exact hall
      · exact fun i hi ↦ hall i (by omega)

/-- Remembered, and not recognised since. -/
def HeadRecord.Unrecognised (r : HeadRecord ι) : Prop := r.kept = true ∧ r.live = true

/-- The entries of a table that refuses a head are distinct heads, remembered and not recognised. -/
theorem Tracked.unrecognised
    {c : Config Unit ShimState (ℕ → HeadRecord Unit) RegistryCall ShimReply}
    {pcs : Unit → Option Pc} (h : Tracked c pcs) {head : ℕ}
    (hpc : pcs () = some (.returns (.remember head) false)) (hpassed : Passed c.machine (pcs ())) :
    (∀ i < aiOwnedMax, (c.machine.world (c.machine.mem.aiOwned i)).Unrecognised) ∧
      ∀ i < aiOwnedMax, ∀ j < aiOwnedMax,
        c.machine.mem.aiOwned i = c.machine.mem.aiOwned j → i = j := by
  have htaken : ∀ i < aiOwnedMax, c.machine.mem.aiOwned i ≠ 0 := by
    rw [hpc] at hpassed
    exact hpassed
  refine ⟨fun i hi ↦ ?_, fun i hi j hj heq ↦ ?_⟩
  · obtain ⟨owner, hinv⟩ := h.2 _ (htaken i hi)
    obtain rfl := (hinv.entry i).mp ⟨hi, rfl⟩
    refine ⟨(hinv.stored i rfl).resolve_right fun hstored ↦ ?_, hinv.live⟩
    obtain ⟨thread, -, hstage⟩ := hstored
    -- the only thread is the one that is refused
    simp only [headState, hpc, Option.bind_some, Pc.stage] at hstage
    split at hstage <;> cases hstage
  · obtain ⟨owner, hinv⟩ := h.2 _ (htaken i hi)
    obtain rfl := (hinv.entry i).mp ⟨hi, rfl⟩
    have := (hinv.entry j).mp ⟨hj, heq.symm⟩
    cases this
    rfl

/-- The blocks of the heap that are in use. -/
def heapReply : Replies ShimState (Multiset ℕ) ShimCall ShimReply
  | .os .malloc, answer, x =>
    some (if 0 < answer.code then { x with world := answer.code.toNat ::ₘ x.world } else x)
  | .os (.free pointer), _, x => some { x with world := x.world.erase pointer }
  | _, _, x => some x

/-- A head outside the table goes to nsysnet. -/
theorem exec_hookFreeaddrinfo {W : Type} {reply : Replies ShimState W ShimCall ShimReply}
    {res fuel : ℕ} {x y : Machine ShimState W} {r : ShimReply}
    (habsent : res = 0 ∨ ∀ i < aiOwnedMax, x.mem.aiOwned i ≠ res)
    (hexec : Exec reply (hookFreeaddrinfo res fuel) x r y) :
    reply (.native (.freeaddrinfo res)) r x = some y := by
  have hnative : wp reply (fun _ _ ↦ True) (native (.freeaddrinfo res))
      (fun r y ↦ reply (.native (.freeaddrinfo res)) r x = some y) x :=
    ⟨trivial, fun _ _ h ↦ h⟩
  suffices hwp : wp reply (fun _ _ ↦ True) (hookFreeaddrinfo res fuel)
      (fun r y ↦ reply (.native (.freeaddrinfo res)) r x = some y) x from hexec.post_of_wp hwp
  refine (wp_bind _ _ _ _).mpr ?_
  unfold aiIsOurs
  refine wp_cases (fun _ ↦ hnative) fun hnull ↦ ?_
  refine wp_swapAny (fun i hi hholds ↦ ?_) hnative
  exact absurd hholds (habsent.resolve_left hnull i (List.mem_range.mp hi))

section Heap

variable {base : Multiset ℕ} {owned : ℕ → ℕ} {x : Machine ShimState (Multiset ℕ)}

abbrev heapWp {α : Type} (program : ShimM α) := wp heapReply (fun _ _ ↦ True) program

/-- The nodes are on the heap, beside `base`. -/
def Built (base : Multiset ℕ) (owned : ℕ → ℕ) (nodes : List ℕ)
    (x : Machine ShimState (Multiset ℕ)) : Prop :=
  x.world = ↑nodes + base ∧ x.mem.aiOwned = owned

theorem wp_lwip_built {request : LwipCall} {nodes : List ℕ} (h : Built base owned nodes x) :
    heapWp (lwip request) (fun _ ↦ Built base owned nodes) x := by
  refine (wp_bind _ _ _ _).mpr ⟨trivial, fun answer y hreply ↦ ?_⟩
  cases hreply
  exact h

theorem wp_convertInfos_built {infos : List Addrinfo} {nodes : List ℕ}
    (h : Built base owned nodes x) :
    heapWp (convertInfos infos nodes) (fun built ↦ Built base owned built.2) x := by
  induction infos generalizing nodes x with
  | nil => exact h
  | cons info rest ih =>
    refine (wp_bind _ _ _ _).mpr ⟨trivial, fun node y hreply ↦ ?_⟩
    cases hreply
    refine wp_cases (fun hfail ↦ ?_) fun hnode ↦ ?_
    · rw [if_neg (by omega)]
      exact h
    · rw [if_pos (by omega)]
      refine (wp_bind _ _ _ _).mpr (ih ⟨?_, h.2⟩)
      change node.code.toNat ::ₘ x.world = _
      rw [h.1, Multiset.coe_eq_coe.mpr (List.perm_append_singleton node.code.toNat nodes),
        ← Multiset.cons_coe, Multiset.cons_add]

theorem wp_frees_built {nodes : List ℕ} (h : Built base owned nodes x) :
    heapWp (each (fun node ↦ ignore (os (.free node))) nodes) (fun _ ↦ Built base owned []) x := by
  induction nodes generalizing x with
  | nil => exact h
  | cons node rest ih =>
    have hfree : heapWp (ignore (os (.free node))) (fun _ ↦ Built base owned rest) x := by
      refine (wp_bind _ _ _ _).mpr ⟨trivial, fun answer z hreply ↦ ?_⟩
      cases hreply
      refine ⟨?_, h.2⟩
      change x.world.erase node = _
      rw [h.1, ← Multiset.cons_coe, Multiset.cons_add, Multiset.erase_cons_head]
    exact wp_seq hfree fun _ z hz ↦ ih hz

theorem wp_dropInfos_built {nodes : List ℕ} (h : Built base owned nodes x) :
    heapWp (dropInfos nodes) (fun r y ↦ r.results = [] ∧ Built base owned [] y) x := by
  refine (wp_bind _ _ _ _).mpr ((wp_bind _ _ _ _).mpr ?_)
  refine wp_mono (wp_lwip_built h) fun _ y hy ↦ ?_
  exact wp_seq (wp_frees_built hy) fun _ z hz ↦ ⟨rfl, hz⟩

/-- Without an entry for its list, `shim_getaddrinfo_sync` frees every node and reports none. -/
theorem wp_shimGetaddrinfoSync_full {node service : Option String} {hints : Option Addrinfo}
    (hfull : ∀ i < aiOwnedMax, x.mem.aiOwned i ≠ 0) :
    heapWp (shimGetaddrinfoSync node service hints true)
      (fun r y ↦ r.results = [] ∧ y.world = x.world ∧ y.mem.aiOwned = x.mem.aiOwned) x := by
  have hstart : Built x.world x.mem.aiOwned [] x := ⟨(Multiset.zero_add _).symm, rfl⟩
  have hend : ∀ y, Built x.world x.mem.aiOwned [] y →
      y.world = x.world ∧ y.mem.aiOwned = x.mem.aiOwned :=
    fun y hy ↦ ⟨hy.1.trans (Multiset.zero_add _), hy.2⟩
  have hdrop : ∀ nodes y, Built x.world x.mem.aiOwned nodes y → heapWp (dropInfos nodes)
      (fun r y ↦ r.results = [] ∧ y.world = x.world ∧ y.mem.aiOwned = x.mem.aiOwned) y :=
    fun nodes y hy ↦ wp_mono (wp_dropInfos_built hy) fun r z hz ↦ ⟨hz.1, hend z hz.2⟩
  unfold shimGetaddrinfoSync
  refine wp_cases nofun fun _ ↦ wp_seq (wp_lwip_built hstart) fun lres y hy ↦ ?_
  refine wp_cases (fun _ ↦ ⟨rfl, hend y hy⟩) fun _ ↦ ?_
  refine wp_seq (wp_convertInfos_built hy) fun built z hz ↦ ?_
  refine wp_cases (fun _ ↦ hdrop _ z hz) fun _ ↦ ?_
  refine (wp_bind _ _ _ _).mpr (wp_swapAny (fun i hi hfree ↦ ?_) (hdrop _ z hz))
  rw [hz.2] at hfree
  exact absurd hfree (hfull i (List.mem_range.mp hi))

theorem total_convertInfos (infos : List Addrinfo) (nodes : List ℕ) :
    Total (convertInfos infos nodes) := by
  induction infos generalizing nodes with
  | nil => exact total_pure _
  | cons info rest ih =>
    refine (total_perform _).bind fun node ↦ Total.ite (fun _ ↦ total_pure _) fun _ ↦ ?_
    exact (total_store _).bind fun _ ↦ ih _

theorem total_dropInfos (nodes : List ℕ) : Total (dropInfos nodes) := by
  refine ((total_lwip _).bind fun _ ↦ total_pure _).bind fun _ ↦ ?_
  refine (Total.each (fun node ↦ (total_perform _).bind fun _ ↦ total_pure _) nodes).bind fun _ ↦ ?_
  exact total_pure _

theorem total_shimGetaddrinfoSync (node service : Option String) (hints : Option Addrinfo)
    (res : Bool) : Total (shimGetaddrinfoSync node service hints res) := by
  refine Total.ite (fun _ ↦ total_pure _) fun _ ↦ (total_lwip _).bind fun lres ↦ ?_
  refine Total.ite (fun _ ↦ total_pure _) fun _ ↦ (total_convertInfos _ _).bind fun built ↦ ?_
  refine Total.ite (fun _ ↦ total_dropInfos _) fun _ ↦ (total_swapAny _ _ _).bind fun kept ↦ ?_
  refine Total.ite (fun _ ↦ total_dropInfos _) fun _ ↦ ?_
  exact ((total_lwip _).bind fun _ ↦ total_pure _).bind fun _ ↦ total_pure _

end Heap

/-- In every run, where no `ai_is_ours` for an address is in progress while the address is
remembered, one of the later calls recognises it.  Only an address that lives is recognised, and
every other one goes to nsysnet.  A single thread is refused an entry only where every entry holds
the head of a list that was remembered and not recognised, and then `shim_getaddrinfo_sync` frees
its nodes. -/
theorem registry_recognises_once {ι : Type} [DecidableEq ι] :
    (∀ (actions : List (Action ι RegistryOp Empty ShimReply)) c,
      (registry ι).run (System.start emptyRegistry) actions = some c →
      (∀ head, head ≠ 0 → (c.machine.world head).kept = true →
        (c.machine.world head).overlapped = false →
        (c.machine.world head).recognised ≤ 1 ∧
          (0 < (c.machine.world head).started →
            (c.machine.world head).returned = (c.machine.world head).started →
            (c.machine.world head).recognised = 1)) ∧
      (∀ i head next, c.threads i = some (.call (.returned (.isOurs head) true) next) →
        (c.machine.world head).live = true) ∧
      ∀ head, head = 0 ∨ (c.machine.world head).live = false →
        ∀ (W : Type) (reply : Replies ShimState W ShimCall ShimReply) (x y : Machine ShimState W)
          (fuel : ℕ) (r : ShimReply), x.mem.aiOwned = c.machine.mem.aiOwned →
          Exec reply (hookFreeaddrinfo head fuel) x r y →
          reply (.native (.freeaddrinfo head)) r x = some y) ∧
    ∀ (actions : List (Action Unit RegistryOp Empty ShimReply)) c,
      (registry Unit).run (System.start emptyRegistry) actions = some c →
      ∀ head next, c.threads () = some (.call (.returned (.remember head) false) next) →
        (∀ i < aiOwnedMax, (c.machine.world (c.machine.mem.aiOwned i)).Unrecognised) ∧
        (∀ i < aiOwnedMax, ∀ j < aiOwnedMax,
          c.machine.mem.aiOwned i = c.machine.mem.aiOwned j → i = j) ∧
        ∀ node service hints (x : Machine ShimState (Multiset ℕ)),
          x.mem.aiOwned = c.machine.mem.aiOwned →
          Total (shimGetaddrinfoSync node service hints true) ∧
          ∀ r y, Exec heapReply (shimGetaddrinfoSync node service hints true) x r y →
            r.results = [] ∧ y.world = x.world ∧ y.mem.aiOwned = x.mem.aiOwned := by
  refine ⟨fun actions c hrun ↦ ?_, fun actions c hrun head next hcall ↦ ?_⟩
  · obtain ⟨pcs, htracked, -⟩ := tracked_run (fun _ _ ↦ True) trivial
      (fun _ _ _ _ _ _ _ ↦ trivial) hrun
    refine ⟨fun head hhead ↦ htracked.recognised hhead, fun i head next hcall ↦ ?_, ?_⟩
    · exact htracked.live_of_recognised (htracked.returns hcall)
    · intro head hlive W reply x y fuel r hmem hexec
      refine exec_hookFreeaddrinfo ?_ hexec
      refine or_iff_not_imp_left.mpr fun hhead i hi hholds ↦ ?_
      rw [hmem] at hholds
      rw [htracked.live_of_holds hhead hi hholds] at hlive
      simp [hhead] at hlive
  · have hkeeps : ∀ (pcs : Unit → Option Pc) x i pc y, Passed x (pcs ()) →
        Pc.Step i (pcs i) x pc y → Passed y (Function.update pcs i pc ()) :=
      fun pcs x i pc y hpassed hstep ↦ by
        rw [Function.update_self]
        exact hpassed.step hstep
    obtain ⟨pcs, htracked, hpassed⟩ :=
      tracked_run (fun pcs x ↦ Passed x (pcs ())) trivial hkeeps hrun
    have hpc := htracked.returns hcall
    obtain ⟨hunrecognised, hdistinct⟩ := htracked.unrecognised hpc hpassed
    refine ⟨hunrecognised, hdistinct, fun node service hints x hmem ↦ ?_⟩
    refine ⟨total_shimGetaddrinfoSync node service hints true, fun r y hexec ↦ ?_⟩
    refine hexec.post_of_wp (wp_shimGetaddrinfoSync_full fun i hi ↦ ?_)
    rw [hmem]
    rw [hpc] at hpassed
    exact hpassed i hi

/-- A whole call: its start, `count` compare-exchanges and its return. -/
def wholeCall (i : ι) (op : RegistryOp) (count : ℕ) :
    List (Action ι RegistryOp Empty ShimReply) :=
  [.start i op, .answer i {}] ++ List.replicate count (.step i) ++ [.answer i {}, .step i]

/-- Two threads remember a list each, meet at the first entry, and then free each other's list. -/
def crossedFrees : List (Action Bool RegistryOp Empty ShimReply) :=
  [.start false (.remember 1), .start true (.remember 2), .answer false {}, .answer true {},
    .step true, .step false, .step false, .answer true {}, .step true, .answer false {},
    .step false] ++
  [.start false (.isOurs 2), .start true (.isOurs 1), .answer false {}, .answer true {},
    .step true, .step false, .step true, .answer true {}, .step true, .answer false {}, .step false]

/-- Two threads free the same list, and one of them is still on its way through the table when the
address is remembered again. -/
def staleFree : List (Action Bool RegistryOp Empty ShimReply) :=
  wholeCall false (.remember 1) 1 ++ wholeCall false (.remember 2) 2 ++
  [.start true (.isOurs 2), .answer true {}, .step true] ++ wholeCall false (.isOurs 2) 2 ++
  [.start false (.remember 2), .answer false {}, .step false, .step false] ++
  [.step true, .answer true {}, .step true] ++ [.answer false {}, .step false] ++
  wholeCall false (.isOurs 2) 8

theorem registry_recognises_once_crossed : ∃ c,
    (registry Bool).run (System.start emptyRegistry) crossedFrees = some c ∧
    (∀ i, c.threads i = none) ∧ ∀ head ∈ [1, 2], (c.machine.world head).kept = true ∧
      (c.machine.world head).recognised = 1 := by
  have hrun : ((registry Bool).run (System.start emptyRegistry) crossedFrees).map
      (fun c ↦ (((c.threads false).isNone, (c.threads true).isNone), [1, 2].map fun head ↦
        ((c.machine.world head).kept, (c.machine.world head).overlapped,
          (c.machine.world head).started, (c.machine.world head).returned))) =
      some ((true, true), [(true, false, 1, 1), (true, false, 1, 1)]) := rfl
  obtain ⟨c, hc, hview⟩ := Option.map_eq_some_iff.mp hrun
  obtain ⟨hidle, hrecords⟩ := Prod.mk.inj hview
  obtain ⟨hfalse, htrue⟩ := Prod.mk.inj hidle
  obtain ⟨hrecognised, -, -⟩ := registry_recognises_once.1 crossedFrees c hc
  refine ⟨c, hc, fun i ↦ ?_, fun head hhead ↦ ?_⟩
  · cases i with
    | false => exact Option.isNone_iff_eq_none.mp hfalse
    | true => exact Option.isNone_iff_eq_none.mp htrue
  · have hrecord : (c.machine.world head).kept = true ∧ (c.machine.world head).overlapped = false ∧
        (c.machine.world head).started = 1 ∧ (c.machine.world head).returned = 1 := by
      simp only [List.map_cons, List.map_nil, List.cons.injEq, Prod.mk.injEq, and_true] at hrecords
      simp only [List.mem_cons, List.not_mem_nil, or_false] at hhead
      rcases hhead with rfl | rfl
      · exact hrecords.1
      · exact hrecords.2
    obtain ⟨hkept, hoverlapped, hstarted, hreturned⟩ := hrecord
    have hne : head ≠ 0 := by
      rintro rfl
      simp at hhead
    refine ⟨hkept, (hrecognised head hne hkept hoverlapped).2 ?_ (hreturned.trans hstarted.symm)⟩
    rw [hstarted]
    exact Nat.one_pos

/-- A call that began before an address is remembered can recognise it, and then no later call
does. -/
theorem registry_stale_free : ∃ c,
    (registry Bool).run (System.start emptyRegistry) staleFree = some c ∧
    (c.machine.world 2).kept = true ∧ (c.machine.world 2).started = 1 ∧
    (c.machine.world 2).returned = 1 ∧ (c.machine.world 2).recognised = 0 := by
  have hrun : ((registry Bool).run (System.start emptyRegistry) staleFree).map
      (fun c ↦ ((c.machine.world 2).kept, (c.machine.world 2).started, (c.machine.world 2).returned,
        (c.machine.world 2).recognised)) = some (true, 1, 1, 0) := rfl
  obtain ⟨c, hc, hrecord⟩ := Option.map_eq_some_iff.mp hrun
  simp only [Prod.mk.injEq] at hrecord
  exact ⟨c, hc, hrecord⟩

end Ax88179Aroma.Shim
