import Ax88179Aroma.Shim.Descriptors

/-!
# What leaves the descriptor tables alone

Most of the shim's code neither changes the tables of descriptors nor opens or closes anything.
`Passive` calls reach no network stack either.
-/

namespace Ax88179Aroma.Shim

open Effect Program

/-- Calls to the system that create and join no thread. -/
def Passive : ShimCall → Prop
  | .native _ => False
  | .lwip _ => False
  | .os (.osCreateThread _) => False
  | .os (.osJoinThread _) => False
  | .os _ => True
  | .note (.tracked _) => False
  | .note (.adopted _) => False
  | .note _ => True

theorem Passive.inert {request : ShimCall} (h : Passive request) : Inert request := by
  cases request with
  | native _ => cases h
  | lwip _ => cases h
  | os request => cases request <;> exact h
  | note event => cases event <;> exact h

theorem keeps_inert {program : ShimM α} (h : Keeps ShimState.tables Passive program) :
    Keeps ShimState.tables Inert program :=
  h.mono (fun _ _ hsame ↦ hsame) fun _ hpassive ↦ hpassive.inert

section Frames

variable {β : Type} {view : ShimState → β} {allowed : ShimCall → Prop}

theorem keeps_ignore {program : ShimM ShimReply} (hprogram : Keeps view allowed program) :
    Keeps view allowed (ignore program) :=
  Keeps.bind hprogram fun _ ↦ keeps_pure ()

theorem keeps_loadRelay (slot : ℕ) (read : NsslRelay → α) :
    Keeps view allowed (loadRelay slot read) :=
  keeps_load _

theorem keeps_shimAccepts : Keeps view allowed shimAccepts :=
  Keeps.bind (keeps_load _) fun _ ↦ keeps_pure _

theorem keeps_isForeign (fd : ℤ) : Keeps view allowed (isForeign fd) :=
  Keeps.bind keeps_shimAccepts fun _ ↦
    Keeps.ite (keeps_pure _) (Keeps.bind (keeps_load _) fun _ ↦ keeps_pure _)

theorem keeps_stackFd (fd : ℤ) : Keeps view allowed (stackFd fd) := keeps_load _

theorem keeps_probeAiMask (entries : List ℕ) : Keeps view allowed (probeAiMask entries) := by
  induction entries with
  | nil => exact keeps_pure _
  | cons i rest ih =>
    exact Keeps.bind (keeps_load _) fun _ ↦ Keeps.bind ih fun _ ↦ keeps_pure _

end Frames

section Passive

variable {allowed : ShimCall → Prop}

/-- A store to a relay that changes neither its owner nor its descriptors. -/
theorem keeps_storeRelay {slot : ℕ} {update : NsslRelay → NsslRelay}
    (hallocated : ∀ r, (update r).allocated = r.allocated)
    (hnative : ∀ r, (update r).nativeFd = r.nativeFd) (hlwip : ∀ r, (update r).lwfd = r.lwfd) :
    Keeps ShimState.tables allowed (storeRelay slot update) := by
  refine keeps_store fun s ↦ ?_
  have hrelays : (s.setRelay slot update).tables.relays = s.tables.relays := by
    funext other
    by_cases hsame : other = slot
    · simp only [ShimState.tables, hsame, ShimState.setRelay_self, hallocated, hnative, hlwip]
    · simp only [ShimState.tables, ShimState.setRelay_of_ne s hsame]
  calc (s.setRelay slot update).tables
      = { s.tables with relays := (s.setRelay slot update).tables.relays } := rfl
    _ = s.tables := by rw [hrelays]

theorem keeps_storeStop (slot : ℕ) :
    Keeps ShimState.tables allowed (storeRelay slot fun r ↦ { r with stop := 1 }) :=
  keeps_storeRelay (fun _ ↦ rfl) (fun _ ↦ rfl) fun _ ↦ rfl

theorem keeps_setErrno (error : ℤ) : Keeps ShimState.tables allowed (setErrno error) :=
  keeps_store fun _ ↦ rfl

theorem keeps_noteActivity : Keeps ShimState.tables allowed noteActivity := by
  refine keeps_store fun s ↦ ?_
  split <;> rfl

theorem keeps_forgetNative (fd : ℕ) : Keeps ShimState.tables allowed (forgetNative fd) :=
  Keeps.bind (keeps_store fun _ ↦ rfl) fun _ ↦
    Keeps.bind (keeps_store fun _ ↦ rfl) fun _ ↦ keeps_store fun _ ↦ rfl

theorem keeps_nsslUntrackPublicFd (fd : ℕ) :
    Keeps ShimState.tables allowed (nsslUntrackPublicFd fd) :=
  Keeps.bind (keeps_store fun _ ↦ rfl) fun _ ↦ keeps_store fun _ ↦ rfl

theorem keeps_nsslTrackPublicConnection (fd connection : ℤ) :
    Keeps ShimState.tables allowed (nsslTrackPublicConnection fd connection) :=
  Keeps.when (Keeps.bind (keeps_store fun _ ↦ rfl) fun _ ↦ keeps_store fun _ ↦ rfl)

theorem keeps_forgetConnections : Keeps ShimState.tables allowed forgetConnections :=
  Keeps.each fun _ _ ↦ keeps_store fun _ ↦ rfl

theorem keeps_compatStateReset (fd : ℕ) : Keeps ShimState.tables allowed (compatStateReset fd) :=
  keeps_store fun _ ↦ rfl

theorem keeps_forgetOwned : Keeps ShimState.tables allowed forgetOwned :=
  Keeps.each fun _ _ ↦ keeps_store fun _ ↦ rfl

theorem keeps_nsslRelayDetachPublicFd (fd : ℤ) :
    Keeps ShimState.tables allowed (nsslRelayDetachPublicFd fd) := by
  have hfrom : ∀ slots, Keeps ShimState.tables allowed (nsslRelayDetachFrom fd slots) := by
    intro slots
    induction slots with
    | nil => exact keeps_pure ()
    | cons slot rest ih =>
      refine Keeps.bind (keeps_loadRelay slot _) fun allocated ↦ Keeps.ite ih ?_
      refine Keeps.bind (keeps_access fun old ↦ ?_) fun detached ↦
        Keeps.ite (keeps_storeStop slot) ih
      unfold detachSlot
      split
      · exact (keeps_storeRelay (fun _ ↦ rfl) (fun _ ↦ rfl) fun _ ↦ rfl :
          Keeps ShimState.tables allowed
            (storeRelay slot fun r ↦ { r with publicFd := -1 })).1 old
      · rfl
  exact hfrom _

theorem keeps_stopAllocated (slots : List ℕ) :
    Keeps ShimState.tables allowed (stopAllocated slots) := by
  induction slots with
  | nil => exact keeps_pure false
  | cons slot rest ih =>
    refine Keeps.bind (keeps_loadRelay slot _) fun _ ↦ ?_
    refine Keeps.bind (Keeps.when (keeps_storeStop slot)) fun _ ↦ ?_
    exact Keeps.bind ih fun _ ↦ keeps_pure _

theorem keeps_nsslRelayStopSlot (slot : ℤ) :
    Keeps ShimState.tables allowed (nsslRelayStopSlot slot) :=
  Keeps.when (Keeps.bind (keeps_loadRelay _ _) fun _ ↦ Keeps.when (keeps_storeStop _))

theorem keeps_nsslRelease (connection : ℤ) (fd : ℕ) :
    Keeps ShimState.tables allowed (nsslRelease connection fd) :=
  Keeps.bind (keeps_load _) fun _ ↦ Keeps.when <|
    Keeps.bind (keeps_nsslRelayDetachPublicFd fd) fun _ ↦ keeps_nsslUntrackPublicFd fd

theorem keeps_swapAny (expected desired : ℕ) (entries : List ℕ) :
    Keeps ShimState.tables allowed (swapAny expected desired entries) := by
  induction entries with
  | nil => exact keeps_pure false
  | cons i rest ih =>
    refine Keeps.bind (keeps_access fun old ↦ ?_) fun _ ↦ Keeps.ite (keeps_pure true) ih
    unfold swapOwned
    split <;> rfl

theorem keeps_aiIsOurs (head : ℕ) : Keeps ShimState.tables allowed (aiIsOurs head) :=
  Keeps.ite (keeps_pure false) (keeps_swapAny _ _ _)

end Passive

theorem keeps_anyAlive (slots : List ℕ) : Keeps ShimState.tables Passive (anyAlive slots) := by
  induction slots with
  | nil => exact keeps_pure false
  | cons slot rest ih =>
    refine Keeps.bind (keeps_loadRelay slot _) fun _ ↦ Keeps.ite ih ?_
    exact Keeps.bind (keeps_perform trivial) fun _ ↦ Keeps.bind ih fun _ ↦ keeps_pure _

theorem keeps_waitRelays (deadline : ℤ) (fuel : ℕ) :
    Keeps ShimState.tables Passive (waitRelays deadline fuel) := by
  induction fuel with
  | zero => trivial
  | succ fuel ih =>
    refine Keeps.bind (keeps_perform trivial) fun _ ↦ Keeps.ite ?_ (keeps_pure ())
    refine Keeps.bind (keeps_anyAlive _) fun _ ↦ Keeps.ite ?_ (keeps_pure ())
    exact Keeps.bind (keeps_ignore (keeps_perform trivial)) fun _ ↦ ih

theorem keeps_freeNodes (fuel node : ℕ) :
    Keeps ShimState.tables Passive (freeNodes fuel node) := by
  induction fuel generalizing node with
  | zero => trivial
  | succ fuel ih =>
    refine Keeps.ite (keeps_pure ()) (Keeps.bind (keeps_load _) fun next ↦ ?_)
    exact Keeps.bind (keeps_ignore (keeps_perform trivial)) fun _ ↦ ih next

theorem keeps_asyncDnsLock (fuel : ℕ) : Keeps ShimState.tables Passive (asyncDnsLock fuel) := by
  induction fuel with
  | zero => trivial
  | succ fuel ih =>
    refine Keeps.bind (keeps_access fun _ ↦ rfl) fun _ ↦ Keeps.ite (keeps_pure ()) ?_
    exact Keeps.bind (keeps_ignore (keeps_perform trivial)) fun _ ↦ ih

theorem keeps_asyncDnsResetAll (fuel : ℕ) :
    Keeps ShimState.tables Passive (asyncDnsResetAll fuel) := by
  refine Keeps.bind (keeps_asyncDnsLock fuel) fun _ ↦ ?_
  refine Keeps.bind (Keeps.each fun _ _ ↦ ?_) fun _ ↦ keeps_store fun _ ↦ rfl
  exact Keeps.bind (keeps_store fun _ ↦ rfl) fun _ ↦
    Keeps.bind (keeps_store fun _ ↦ rfl) fun _ ↦ keeps_store fun _ ↦ rfl

/-! ## Calls that open and close nothing -/

theorem keeps_lwip {request : LwipCall} (hinert : Inert (.lwip request)) :
    Keeps ShimState.tables Inert (lwip request) :=
  Keeps.bind (keeps_perform hinert) fun _ ↦ Keeps.bind (keeps_setErrno _) fun _ ↦ keeps_pure _

theorem keeps_lwipSetInt (lwfd optname value : ℤ) :
    Keeps ShimState.tables Inert (lwipSetInt lwfd optname value) :=
  keeps_lwip trivial

theorem keeps_realSocketlasterr : Keeps ShimState.tables Inert realSocketlasterr :=
  Keeps.bind (keeps_perform trivial) fun _ ↦ keeps_pure _

theorem keeps_fail (error : ℤ) : Keeps ShimState.tables Inert (fail error) :=
  Keeps.bind (keeps_setErrno error) fun _ ↦ keeps_pure _

theorem keeps_callNative {request : Export} (hinert : Inert (.native request)) :
    Keeps ShimState.tables Inert (callNative request) :=
  Keeps.bind (keeps_setErrno _) fun _ ↦ keeps_perform hinert

theorem keeps_socketDefaults (lwfd type : ℤ) :
    Keeps ShimState.tables Inert (socketDefaults lwfd type) :=
  Keeps.bind (keeps_ignore (keeps_lwipSetInt _ _ _)) fun _ ↦
    Keeps.bind (Keeps.when (keeps_ignore (keeps_lwipSetInt _ _ _))) fun _ ↦
      Keeps.when (keeps_ignore (keeps_lwipSetInt _ _ _))

theorem keeps_ftpRewriteBindToAx (sockfd : ℤ) (addr : Sockaddr) :
    Keeps ShimState.tables Inert (ftpRewriteBindToAx sockfd addr) := by
  refine Keeps.bind (keeps_stackFd _) fun _ ↦ Keeps.bind (keeps_lwip trivial) fun _ ↦ ?_
  refine Keeps.ite (keeps_pure _) (Keeps.bind (keeps_perform trivial) fun _ ↦ ?_)
  refine Keeps.ite (keeps_pure _) (Keeps.ite ?_ (Keeps.ite ?_ (keeps_pure _)))
  · exact Keeps.bind (keeps_store fun _ ↦ rfl) fun _ ↦
      Keeps.bind (keeps_store fun _ ↦ rfl) fun _ ↦ keeps_pure _
  · refine Keeps.bind (keeps_load _) fun _ ↦ Keeps.ite (keeps_pure _) ?_
    exact Keeps.bind (keeps_load _) fun _ ↦ keeps_pure _

theorem keeps_nsslShutdownAllTracked : Keeps ShimState.tables Inert nsslShutdownAllTracked := by
  refine Keeps.bind (keeps_load _) fun _ ↦ Keeps.each fun fd _ ↦ Keeps.when ?_
  refine Keeps.bind (Keeps.bind (keeps_setErrno _) fun _ ↦
    Keeps.bind (keeps_perform trivial) fun _ ↦ keeps_pure _) fun _ ↦ ?_
  exact Keeps.ite (keeps_ignore (keeps_perform trivial)) (keeps_nsslUntrackPublicFd fd)

/-! ## The loop of a relay worker -/

/-- Everything of a relay but its buffers, its counters and its error. -/
def relayControl (r : NsslRelay) : ℤ × ℤ × ℤ × ℤ × ℤ × ℤ × ℤ :=
  (r.allocated, r.ready, r.stop, r.done, r.publicFd, r.nativeFd, r.lwfd)

def ShimState.control (s : ShimState) :
    FdTables × (ℕ → ℤ × ℤ × ℤ × ℤ × ℤ × ℤ × ℤ) × BitVec 32 × BitVec 32 :=
  (s.tables, fun slot ↦ relayControl (s.nsslRelays slot), s.ftpRestartMask, s.nsslPublicMask)

theorem keeps_tables {allowed : ShimCall → Prop} {program : ShimM α}
    (h : Keeps ShimState.control allowed program) : Keeps ShimState.tables allowed program :=
  h.mono (fun _ _ hsame ↦ congrArg Prod.fst hsame) fun _ hallowed ↦ hallowed

theorem keeps_storeControl {allowed : ShimCall → Prop} {slot : ℕ}
    {update : NsslRelay → NsslRelay} (h : ∀ r, relayControl (update r) = relayControl r) :
    Keeps ShimState.control allowed (storeRelay slot update) := by
  have htables : Keeps ShimState.tables allowed (storeRelay slot update) := by
    refine keeps_storeRelay (fun r ↦ ?_) (fun r ↦ ?_) fun r ↦ ?_
    · exact congrArg (fun c ↦ c.1) (h r)
    · exact congrArg (fun c ↦ c.2.2.2.2.2.1) (h r)
    · exact congrArg (fun c ↦ c.2.2.2.2.2.2) (h r)
  refine keeps_store fun s ↦ Prod.ext (htables.1 s) (Prod.ext (funext fun other ↦ ?_) rfl)
  change relayControl ((s.setRelay slot update).nsslRelays other) = relayControl (s.nsslRelays other)
  by_cases hsame : other = slot
  · rw [hsame, ShimState.setRelay_self, h]
  · rw [ShimState.setRelay_of_ne s hsame]

theorem keeps_relayWait (slot fuel : ℕ) : Keeps ShimState.control Inert (relayWait slot fuel) := by
  induction fuel with
  | zero => trivial
  | succ fuel ih =>
    have hgoes : Keeps ShimState.control Inert (relayGoes slot) :=
      Keeps.bind (keeps_loadRelay slot _) fun _ ↦ keeps_pure _
    refine Keeps.bind (keeps_loadRelay slot _) fun _ ↦ Keeps.ite hgoes ?_
    refine Keeps.bind (keeps_loadRelay slot _) fun _ ↦ Keeps.ite hgoes ?_
    exact Keeps.bind (keeps_ignore (keeps_perform trivial)) fun _ ↦ ih

/-- The calls of an iteration, on the two descriptors of its relay. -/
def RelayCall (nativeFd lwfd : ℤ) : ShimCall → Prop
  | .native (.recv fd _ _) => fd = nativeFd
  | .native (.send fd _ _) => fd = nativeFd
  | .native (.shutdown fd _) => fd = nativeFd
  | .native .socketlasterr => True
  | .lwip (.recv fd _ _) => fd = lwfd
  | .lwip (.send fd _ _) => fd = lwfd
  | .lwip (.shutdown fd _) => fd = lwfd
  | .os (.osSleepTicks _) => True
  | _ => False

section Iteration

variable {nativeFd lwfd : ℤ}

theorem keeps_andThen {first : ShimM RelayStep} {next : RelayLocals → Bool → ShimM RelayStep}
    (hfirst : Keeps ShimState.control (RelayCall nativeFd lwfd) first)
    (hnext : ∀ locals progress,
      Keeps ShimState.control (RelayCall nativeFd lwfd) (next locals progress)) :
    Keeps ShimState.control (RelayCall nativeFd lwfd) (andThen first next) := by
  refine Keeps.bind hfirst fun step ↦ ?_
  match step with
  | .error _ => exact keeps_pure _
  | .ok (locals, progress) => exact hnext locals progress

theorem keeps_lasterr :
    Keeps ShimState.control (RelayCall nativeFd lwfd) realSocketlasterr :=
  Keeps.bind (keeps_perform trivial) fun _ ↦ keeps_pure _

theorem keeps_relayError (slot : ℕ) (error : ℤ) :
    Keeps ShimState.control (RelayCall nativeFd lwfd) (relayError slot error) :=
  Keeps.bind (keeps_storeControl fun _ ↦ rfl) fun _ ↦ keeps_pure _

/-- The store that a phase ends with. -/
theorem keeps_storeAfter {slot : ℕ} {update : NsslRelay → NsslRelay} {step : RelayStep}
    (h : ∀ r, relayControl (update r) = relayControl r) :
    Keeps ShimState.control (RelayCall nativeFd lwfd) (do
      storeRelay slot update
      pure step) :=
  Keeps.bind (keeps_storeControl h) fun _ ↦ keeps_pure _

theorem keeps_flushToAx (slot : ℕ) (locals : RelayLocals) (progress : Bool) :
    Keeps ShimState.control (RelayCall nativeFd lwfd) (flushToAx slot lwfd locals progress) := by
  refine Keeps.ite (keeps_pure _) (Keeps.bind (keeps_loadRelay slot _) fun _ ↦ ?_)
  refine Keeps.bind (keeps_perform rfl) fun _ ↦ Keeps.ite ?_ (Keeps.ite ?_ (keeps_pure _))
  · exact keeps_storeAfter fun _ ↦ rfl
  · exact keeps_relayError slot _

theorem keeps_flushToNative (slot : ℕ) (locals : RelayLocals) (progress : Bool) :
    Keeps ShimState.control (RelayCall nativeFd lwfd) (flushToNative slot nativeFd locals progress) := by
  refine Keeps.ite (keeps_pure _) (Keeps.bind (keeps_loadRelay slot _) fun _ ↦ ?_)
  refine Keeps.bind (keeps_perform rfl) fun _ ↦ Keeps.ite ?_ (Keeps.ite ?_ (keeps_pure _))
  · exact keeps_storeAfter fun _ ↦ rfl
  · refine Keeps.bind keeps_lasterr fun _ ↦ Keeps.ite (keeps_pure _) ?_
    exact Keeps.ite (keeps_pure _) (keeps_relayError slot _)

theorem keeps_pullFromNative (slot : ℕ) (locals : RelayLocals) (progress : Bool) :
    Keeps ShimState.control (RelayCall nativeFd lwfd) (pullFromNative slot nativeFd locals progress) := by
  refine Keeps.ite (Keeps.bind (keeps_perform rfl) fun _ ↦ ?_) (keeps_pure _)
  refine Keeps.ite ?_ (Keeps.ite (keeps_pure _) ?_)
  · exact keeps_storeAfter fun _ ↦ rfl
  · refine Keeps.bind keeps_lasterr fun _ ↦ Keeps.ite (keeps_pure _) ?_
    exact Keeps.bind keeps_lasterr fun _ ↦ keeps_relayError slot _

theorem keeps_pullFromAx (slot : ℕ) (locals : RelayLocals) (progress : Bool) :
    Keeps ShimState.control (RelayCall nativeFd lwfd) (pullFromAx slot lwfd locals progress) := by
  refine Keeps.ite (Keeps.bind (keeps_perform rfl) fun _ ↦ ?_) (keeps_pure _)
  refine Keeps.ite ?_ (Keeps.ite (keeps_pure _) (Keeps.ite ?_ (keeps_pure _)))
  · exact keeps_storeAfter fun _ ↦ rfl
  · exact keeps_relayError slot _

/-- An iteration stays on the descriptors of its relay. -/
theorem keeps_relayCalls (slot : ℕ) (locals : RelayLocals) :
    Keeps ShimState.control (RelayCall nativeFd lwfd)
      (relayIteration slot nativeFd lwfd locals) := by
  refine keeps_andThen (keeps_flushToAx slot _ _) fun _ _ ↦ ?_
  refine keeps_andThen (keeps_pullFromNative slot _ _) fun _ _ ↦ ?_
  refine keeps_andThen ?_ fun _ _ ↦ keeps_andThen (keeps_flushToNative slot _ _) fun _ _ ↦ ?_
  · exact Keeps.ite (Keeps.bind (keeps_ignore (keeps_perform rfl)) fun _ ↦ keeps_pure _)
      (keeps_pure _)
  · refine keeps_andThen (keeps_pullFromAx slot _ _) fun _ _ ↦ keeps_andThen ?_ fun _ _ ↦ ?_
    · exact Keeps.ite (Keeps.bind (keeps_ignore (keeps_perform rfl)) fun _ ↦ keeps_pure _)
        (keeps_pure _)
    · exact Keeps.ite (keeps_pure _)
        (Keeps.bind (Keeps.when (keeps_ignore (keeps_perform trivial))) fun _ ↦ keeps_pure _)

theorem RelayCall.inert {request : ShimCall} (h : RelayCall nativeFd lwfd request) :
    Inert request := by
  unfold RelayCall at h
  split at h <;> trivial

theorem keeps_relayIteration (slot : ℕ) (locals : RelayLocals) :
    Keeps ShimState.control Inert (relayIteration slot nativeFd lwfd locals) :=
  (keeps_relayCalls slot locals).mono (fun _ _ hsame ↦ hsame) fun _ hcall ↦ hcall.inert

end Iteration

theorem keeps_relayLoop (slot : ℕ) (nativeFd lwfd : ℤ) (fuel : ℕ) (locals : RelayLocals) :
    Keeps ShimState.control Inert (relayLoop slot nativeFd lwfd fuel locals) := by
  induction fuel generalizing locals with
  | zero => trivial
  | succ fuel ih =>
    refine Keeps.bind (Keeps.bind (keeps_perform trivial) fun _ ↦ keeps_pure _) fun _ ↦ ?_
    refine Keeps.bind (keeps_loadRelay slot _) fun _ ↦ Keeps.ite (keeps_pure _) ?_
    refine Keeps.bind (keeps_relayIteration slot locals) fun step ↦ ?_
    match step with
    | .error _ => exact keeps_pure _
    | .ok (locals, _) => exact ih locals

end Ax88179Aroma.Shim
