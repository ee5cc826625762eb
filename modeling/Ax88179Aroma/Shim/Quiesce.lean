import Ax88179Aroma.Effect.Concurrency
import Ax88179Aroma.Shim.Frames

/-!
# After quiesce

`nsysnet_shim_quiesce` clears `accepting_sockets` and leaves the tables as they are, while the
worker retires lwIP.  From then on every hook serves its call with the original export of the same
name and arguments, with one exception: `select` looks at `open_mask` and not at
`accepting_sockets`, so it still goes to lwIP for the descriptors that are recorded there.
-/

namespace Ax88179Aroma.Shim

open Effect Program

/-! ## Quiet states -/

/-- The answers of nsysnet, in order. -/
abbrev NativeLog := List (Export × ShimReply)

abbrev QuietMachine := Machine ShimState NativeLog

/-- Calls return anything; those of nsysnet are recorded. -/
def quietReply : Replies ShimState NativeLog ShimCall ShimReply
  | .native request, answer, x => some { x with world := x.world ++ [(request, answer)] }
  | _, _, x => some x

/-- The call goes to the original of the export, or to neither network stack. -/
def ServedBy (e : Export) : ShimCall → Prop
  | .native request => request = e
  | .lwip _ => False
  | .os _ => True
  | .note _ => True

/-- The descriptors that an export waits for. -/
def wanted : Export → BitVec 32
  | .select nfds readfds writefds exceptfds _ => selectWant nfds readfds writefds exceptfds
  | _ => 0

/-- `select` refuses the call without asking either stack. -/
def Refused (s : ShimState) : Export → Prop
  | .select nfds readfds writefds exceptfds timeout =>
    selectInvalid nfds timeout = true ∨
      selectWant nfds readfds writefds exceptfds &&& s.ftpRestartMask ≠ 0
  | _ => False

/-- Calls that reach lwIP although `accepting_sockets` is off. -/
def Leaks (s : ShimState) : Export → Prop
  | .select nfds readfds writefds exceptfds timeout =>
    selectInvalid nfds timeout = false ∧
      selectWant nfds readfds writefds exceptfds &&& s.ftpRestartMask = 0 ∧
      selectWant nfds readfds writefds exceptfds &&& s.openMask ≠ 0
  | _ => False

/-- `accepting_sockets` is off and no descriptor that `e` waits for is recorded. -/
def Quiet (e : Export) (x : QuietMachine) : Prop :=
  x.mem.acceptingSockets = 0 ∧ wanted e &&& x.mem.openMask = 0

/-- One hook, while other threads change the tables in any way that keeps them quiet. -/
def quietSystem (e : Export) :
    System Unit ℕ ShimState ShimState NativeLog ShimCall ShimReply where
  reply _ := quietReply
  env tables x :=
    if tables.acceptingSockets = 0 ∧ wanted e &&& tables.openMask = 0 then
      some { x with mem := tables }
    else none
  body _ fuel := do
    let _ ← hook fuel e
    pure ()
  enabled _ _ _ := true

/-! ## Safety of the hooks -/

section Hooks

variable {e : Export} {x : QuietMachine} {log : NativeLog}

abbrev QuietSafe (e : Export) (program : ShimM α) (post : α → QuietMachine → Prop) :
    QuietMachine → Prop :=
  Solo (quietSystem e) (Quiet e) (fun request _ ↦ ServedBy e request) program post

/-- Nothing was asked of nsysnet yet. -/
def Untouched (e : Export) (log : NativeLog) (x : QuietMachine) : Prop :=
  Quiet e x ∧ x.world = log

/-- nsysnet answered the call, and its answer is the result. -/
def Answered (e : Export) (log : NativeLog) (result : ShimReply) (x : QuietMachine) : Prop :=
  Quiet e x ∧ x.world = log ++ [(e, result)]

theorem quietSystem_env {tables : ShimState} {x y : QuietMachine}
    (henv : (quietSystem e).env tables x = some y) : Quiet e y ∧ y.world = x.world := by
  simp only [quietSystem] at henv
  split at henv
  · rename_i hquiet
    cases henv
    exact ⟨hquiet, rfl⟩
  · cases henv

theorem stable_untouched : EnvStable (quietSystem e) (Quiet e) (Untouched e log) := by
  intro tables y z _ hy henv
  obtain ⟨hquiet, hworld⟩ := quietSystem_env henv
  exact ⟨hquiet, hworld.trans hy.2⟩

theorem stable_answered (result : ShimReply) :
    EnvStable (quietSystem e) (Quiet e) (Answered e log result) := by
  intro tables y z _ hy henv
  obtain ⟨hquiet, hworld⟩ := quietSystem_env henv
  exact ⟨hquiet, hworld.trans hy.2⟩

/-- The switch and the mask that routing looks at. -/
def routing (s : ShimState) : ℤ × BitVec 32 := (s.acceptingSockets, s.openMask)

/-- Calls that nsysnet does not see. -/
def Unseen : ShimCall → Prop
  | .native _ => False
  | .lwip _ => False
  | .os _ => True
  | .note _ => True

theorem Quiet.of_routing {y : QuietMachine} {mem : ShimState} (hy : Quiet e y)
    (hmem : routing mem = routing y.mem) : Quiet e { y with mem := mem } := by
  obtain ⟨haccepting, hmask⟩ := Prod.mk.inj hmem
  exact ⟨haccepting.trans hy.1, by rw [hmask]; exact hy.2⟩

/-- A program that leaves routing alone and calls nobody keeps an assertion about the log. -/
theorem quiet_keeps {program : ShimM α} {assertion : QuietMachine → Prop}
    (hkeeps : Keeps routing Unseen program)
    (hstable : EnvStable (quietSystem e) (Quiet e) assertion)
    (hmem : ∀ y mem, assertion y → routing mem = routing y.mem → assertion { y with mem := mem })
    (hx : assertion x) : QuietSafe e program (fun _ ↦ assertion) x := by
  refine safe_keeps hkeeps hstable.stable (fun y mem hinv hy hview ↦ ?_)
    (fun y request hinv hy hallowed ↦ ?_) hx
  · exact ⟨guarantees_solo (hinv.of_routing hview), hmem y mem hy hview⟩
  · cases request with
    | native _ => cases hallowed
    | lwip _ => cases hallowed
    | os _ =>
      refine ⟨trivial, fun answer z hreply ↦ ?_⟩
      cases hreply
      exact ⟨guarantees_solo hinv, hy⟩
    | note _ =>
      refine ⟨trivial, fun answer z hreply ↦ ?_⟩
      cases hreply
      exact ⟨guarantees_solo hinv, hy⟩

theorem keeps_routing {program : ShimM α} (hkeeps : Keeps ShimState.tables Passive program) :
    Keeps routing Unseen program := by
  refine hkeeps.mono (fun s t hsame ↦ ?_) fun request hpassive ↦ ?_
  · exact Prod.ext (congrArg FdTables.accepting hsame) (congrArg FdTables.openMask hsame)
  · cases request with
    | native _ => cases hpassive
    | lwip _ => cases hpassive
    | os _ => trivial
    | note _ => trivial

theorem untouched_keeps {program : ShimM α} (hkeeps : Keeps ShimState.tables Passive program)
    (hx : Untouched e log x) : QuietSafe e program (fun _ ↦ Untouched e log) x :=
  quiet_keeps (keeps_routing hkeeps) stable_untouched
    (fun _ _ hy hmem ↦ ⟨hy.1.of_routing hmem, hy.2⟩) hx

theorem answered_keeps {program : ShimM α} {result : ShimReply}
    (hkeeps : Keeps routing Unseen program) (hx : Answered e log result x) :
    QuietSafe e program (fun _ ↦ Answered e log result) x :=
  quiet_keeps hkeeps (stable_answered result) (fun _ _ hy hmem ↦ ⟨hy.1.of_routing hmem, hy.2⟩) hx

theorem quiet_native (hx : Untouched e log x) : QuietSafe e (native e) (Answered e log) x := by
  refine solo_perform stable_untouched hx fun y _ hy ↦ ⟨rfl, fun answer z hreply ↦ ?_⟩
  cases hreply
  have hworld : y.world ++ [(e, answer)] = log ++ [(e, answer)] := by rw [hy.2]
  exact ⟨hy.1, hy.1, hworld⟩

theorem quiet_callNative (hx : Untouched e log x) :
    QuietSafe e (callNative e) (Answered e log) x := by
  rw [QuietSafe, callNative, Solo, safe_bind]
  exact safe_mono (untouched_keeps (keeps_setErrno _) hx) fun _ y hy ↦ quiet_native hy

theorem quiet_shimAccepts (hx : Untouched e log x) :
    QuietSafe e shimAccepts (fun accepting y ↦ accepting = false ∧ Untouched e log y) x := by
  rw [QuietSafe, shimAccepts, Solo, safe_bind]
  refine solo_load stable_untouched hx fun y _ hy ↦ ⟨?_, hy⟩
  exact decide_eq_false fun hne ↦ hne hy.1.1

theorem quiet_isForeign (fd : ℤ) (hx : Untouched e log x) :
    QuietSafe e (isForeign fd) (fun foreign y ↦ foreign = true ∧ Untouched e log y) x := by
  rw [QuietSafe, isForeign, Solo, safe_bind]
  refine safe_mono (quiet_shimAccepts hx) fun accepting y hy ↦ ?_
  rw [if_pos hy.1]
  exact ⟨rfl, hy.2⟩

/-- Hooks on a descriptor go to nsysnet. -/
theorem quiet_routed (fd : ℤ) (served : ShimM ShimReply) (hx : Untouched e log x) :
    QuietSafe e (routed fd e served) (Answered e log) x := by
  rw [QuietSafe, routed, Solo, safe_bind]
  refine safe_mono (quiet_isForeign fd hx) fun foreign y hy ↦ ?_
  rw [if_pos hy.1]
  exact quiet_callNative hy.2

theorem quiet_dnsRouted (served : ShimM ShimReply) (hx : Untouched e log x) :
    QuietSafe e (dnsRouted e served) (Answered e log) x := by
  rw [QuietSafe, dnsRouted, Solo, safe_bind, dnsRoute, safe_bind]
  refine safe_mono (quiet_shimAccepts hx) fun accepting y hy ↦ ?_
  rw [if_pos hy.1]
  exact quiet_native hy.2

theorem quiet_acceptRouted (served : ShimM ShimReply) (hx : Untouched e log x) :
    QuietSafe e (acceptRouted e served) (Answered e log) x := by
  rw [QuietSafe, acceptRouted, Solo, safe_bind]
  refine safe_mono (quiet_shimAccepts hx) fun accepting y hy ↦ ?_
  rw [hy.1]
  exact quiet_native hy.2

/-! ## Reaping -/

theorem keeps_nsslRelayReap : Keeps routing Unseen nsslRelayReap := by
  have hstore : ∀ slot update, Keeps routing Unseen (storeRelay slot update) := fun _ _ ↦
    keeps_store fun _ ↦ rfl
  refine Keeps.each fun slot _ ↦ Keeps.bind ?_ fun free ↦ Keeps.when ?_
  · refine Keeps.bind (keeps_loadRelay slot _) fun _ ↦ Keeps.ite (keeps_pure _) ?_
    refine Keeps.bind (keeps_loadRelay slot _) fun _ ↦ Keeps.ite (keeps_pure _) ?_
    exact Keeps.bind (keeps_perform trivial) fun _ ↦ keeps_pure _
  · refine Keeps.bind (keeps_ignore (keeps_perform trivial)) fun _ ↦ ?_
    exact Keeps.bind (hstore slot _) fun _ ↦ hstore slot _

theorem keeps_nsslRelayStopAll (fuel : ℕ) : Keeps routing Unseen (nsslRelayStopAll fuel) := by
  refine Keeps.bind (keeps_routing (keeps_stopAllocated _)) fun _ ↦ Keeps.when ?_
  refine Keeps.bind (keeps_perform trivial) fun _ ↦ ?_
  exact Keeps.bind (keeps_routing (keeps_waitRelays _ fuel)) fun _ ↦ keeps_nsslRelayReap

/-! ## Hooks of their own shape -/

/-- `select` may refuse a call, `socketlasterr` may have the error itself, and a list that the shim
built is freed by it. -/
def MayAnswer : Export → Prop
  | .select _ _ _ _ _ => True
  | .socketlasterr => True
  | .freeaddrinfo _ => True
  | _ => False

/-- The call was answered by nsysnet, or it is one that the shim may answer itself. -/
def Served (e : Export) (log : NativeLog) (result : ShimReply) (x : QuietMachine) : Prop :=
  Answered e log result x ∨ Untouched e log x ∧ MayAnswer e

theorem quiet_hookSocket (domain type protocol : ℤ)
    (hx : Untouched (.socket domain type protocol) log x) :
    QuietSafe (.socket domain type protocol) (hookSocket domain type protocol)
      (Answered (.socket domain type protocol) log) x := by
  rw [QuietSafe, hookSocket, Solo, safe_bind, socketRoute, safe_bind]
  refine solo_load stable_untouched hx fun y _ hy ↦ ?_
  rw [safe_ite]
  split
  · exact quiet_callNative hy
  · rw [safe_bind]
    refine safe_mono (quiet_shimAccepts hy) fun accepting z hz ↦ ?_
    rw [if_pos hz.1]
    exact quiet_callNative hz.2

theorem quiet_hookSocketclose (sockfd : ℤ) (hx : Untouched (.socketclose sockfd) log x) :
    QuietSafe (.socketclose sockfd) (hookSocketclose sockfd)
      (Answered (.socketclose sockfd) log) x := by
  rw [QuietSafe, hookSocketclose, Solo, safe_bind]
  refine safe_mono (quiet_isForeign sockfd hx) fun foreign y hy ↦ ?_
  rw [if_pos hy.1, safe_bind]
  refine safe_mono (untouched_keeps (Keeps.when (keeps_forgetNative _)) hy.2) fun _ z hz ↦ ?_
  rw [safe_bind]
  refine safe_mono (untouched_keeps (keeps_nsslRelayDetachPublicFd _) hz) fun _ w hw ↦ ?_
  exact quiet_callNative hw

theorem quiet_hookSocketcloseAll (hx : Untouched .socketcloseAll log x) :
    QuietSafe .socketcloseAll hookSocketcloseAll (Answered .socketcloseAll log) x := by
  rw [QuietSafe, hookSocketcloseAll, Solo, safe_bind]
  refine safe_mono (untouched_keeps (keeps_store fun _ ↦ rfl) hx) fun _ y hy ↦ ?_
  rw [safe_bind]
  refine safe_mono (untouched_keeps (keeps_store fun _ ↦ rfl) hy) fun _ y hy ↦ ?_
  rw [safe_bind]
  refine safe_mono (untouched_keeps keeps_forgetConnections hy) fun _ y hy ↦ ?_
  rw [safe_bind]
  refine safe_mono (quiet_shimAccepts hy) fun accepting z hz ↦ ?_
  rw [if_pos hz.1]
  exact quiet_callNative hz.2

theorem quiet_hookNsslCreateConnection (context : ℤ) (host : Option String)
    (hostLength options sockfd block : ℤ)
    (hx : Untouched (.nsslCreateConnection context host hostLength options sockfd block) log x) :
    QuietSafe (.nsslCreateConnection context host hostLength options sockfd block)
      (hookNsslCreateConnection context host hostLength options sockfd block)
      (Answered (.nsslCreateConnection context host hostLength options sockfd block) log) x := by
  rw [QuietSafe, hookNsslCreateConnection, Solo, safe_bind, nsslPrepare, safe_bind]
  refine safe_mono (quiet_isForeign sockfd hx) fun foreign y hy ↦ ?_
  rw [if_pos hy.1, safe_pure, if_neg (nomatch ·), safe_bind]
  exact safe_mono (quiet_native hy.2) fun result z hz ↦ hz

theorem quiet_hookNsslDestroyConnection (connection : ℤ)
    (hx : Untouched (.nsslDestroyConnection connection) log x) :
    QuietSafe (.nsslDestroyConnection connection) (hookNsslDestroyConnection connection)
      (Answered (.nsslDestroyConnection connection) log) x := by
  rw [QuietSafe, hookNsslDestroyConnection, Solo, safe_bind]
  refine safe_mono (quiet_native hx) fun result y hy ↦ ?_
  rw [safe_bind]
  refine solo_load (stable_answered result) hy fun z _ hz ↦ ?_
  rw [safe_bind]
  exact safe_mono (answered_keeps (keeps_routing
    (Keeps.each fun fd _ ↦ Keeps.when (keeps_nsslRelease _ fd))) hz) fun _ w hw ↦ hw

theorem quiet_hookNsslFinish (fuel : ℕ) (hx : Untouched .nsslFinish log x) :
    QuietSafe .nsslFinish (hookNsslFinish fuel) (Answered .nsslFinish log) x := by
  rw [QuietSafe, hookNsslFinish, Solo, safe_bind]
  refine safe_mono (quiet_native hx) fun result y hy ↦ ?_
  rw [safe_bind]
  refine safe_mono (answered_keeps (keeps_nsslRelayStopAll fuel) hy) fun _ y hy ↦ ?_
  rw [safe_bind]
  refine safe_mono (answered_keeps (keeps_store fun _ ↦ rfl) hy) fun _ y hy ↦ ?_
  rw [safe_bind]
  exact safe_mono (answered_keeps (keeps_routing keeps_forgetConnections) hy) fun _ y hy ↦ hy

theorem quiet_hookSocketlasterr (hx : Untouched .socketlasterr log x) :
    QuietSafe .socketlasterr hookSocketlasterr (Served .socketlasterr log) x := by
  rw [QuietSafe, hookSocketlasterr, Solo, safe_bind]
  refine solo_load stable_untouched hx fun y _ hy ↦ ?_
  rw [safe_ite]
  split
  · exact safe_mono (quiet_native hy) fun _ _ ↦ .inl
  · rw [safe_bind]
    refine solo_load stable_untouched hy fun z _ hz ↦ ?_
    rw [safe_ite]
    split
    · exact safe_mono (quiet_native hz) fun _ _ ↦ .inl
    · exact .inr ⟨hz, trivial⟩

theorem quiet_hookFreeaddrinfo (res fuel : ℕ) (hx : Untouched (.freeaddrinfo res) log x) :
    QuietSafe (.freeaddrinfo res) (hookFreeaddrinfo res fuel) (Served (.freeaddrinfo res) log) x := by
  rw [QuietSafe, hookFreeaddrinfo, Solo, safe_bind]
  refine safe_mono (untouched_keeps (keeps_aiIsOurs res) hx) fun ours y hy ↦ ?_
  rw [safe_ite]
  split
  · exact safe_mono (quiet_native hy) fun _ _ ↦ .inl
  · rw [safe_bind]
    exact safe_mono (untouched_keeps (keeps_freeNodes fuel res) hy) fun _ z hz ↦
      .inr ⟨hz, trivial⟩

theorem and_not_eq_self_of_disjoint {a b : BitVec 32} (h : a &&& b = 0) : a &&& ~~~ b = a := by
  ext i hi
  have hbit : (a &&& b)[i] = false := by rw [h]; exact BitVec.getElem_zero hi
  rw [BitVec.getElem_and] at hbit
  rw [BitVec.getElem_and, BitVec.getElem_not]
  cases ha : a[i]
  · rfl
  · rw [ha, Bool.true_and] at hbit
    rw [hbit]
    rfl

theorem quiet_hookSelect (nfds : ℤ) (readfds writefds exceptfds : Option (BitVec 32))
    (timeout : Option Timeval) (fuel : ℕ)
    (hx : Untouched (.select nfds readfds writefds exceptfds timeout) log x) :
    QuietSafe (.select nfds readfds writefds exceptfds timeout)
      (hookSelect nfds readfds writefds exceptfds timeout fuel)
      (Served (.select nfds readfds writefds exceptfds timeout) log) x := by
  rw [QuietSafe, hookSelect, Solo, safe_ite]
  split
  · rw [fail, safe_bind]
    exact safe_mono (untouched_keeps (keeps_setErrno _) hx) fun _ y hy ↦ .inr ⟨hy, trivial⟩
  · rw [selectChecked, safe_bind]
    refine solo_load stable_untouched hx fun y _ hy ↦ ?_
    rw [safe_ite]
    split
    · rw [safe_bind]
      refine safe_mono (untouched_keeps (keeps_store fun _ ↦ rfl) hy) fun _ z hz ↦ ?_
      rw [safe_bind]
      exact safe_mono (untouched_keeps (keeps_setErrno _) hz) fun _ w hw ↦ .inr ⟨hw, trivial⟩
    · rw [selectRoute, safe_bind]
      refine solo_load stable_untouched hy fun z _ hz ↦ ?_
      have hdisjoint : selectWant nfds readfds writefds exceptfds &&& z.mem.openMask = 0 := hz.1.2
      rw [selectServe, if_pos (and_not_eq_self_of_disjoint hdisjoint)]
      exact safe_mono (quiet_callNative hz) fun _ _ ↦ .inl

/-- While its tables stay quiet, a hook only calls the original of its export. -/
theorem quiet_hook (fuel : ℕ) (hx : Untouched e log x) :
    QuietSafe e (hook fuel e) (Served e log) x := by
  cases e with
  | socket _ _ _ => exact safe_mono (quiet_hookSocket _ _ _ hx) fun _ _ ↦ .inl
  | socketclose _ => exact safe_mono (quiet_hookSocketclose _ hx) fun _ _ ↦ .inl
  | socketcloseAll => exact safe_mono (quiet_hookSocketcloseAll hx) fun _ _ ↦ .inl
  | select _ _ _ _ _ => exact quiet_hookSelect _ _ _ _ _ fuel hx
  | socketlasterr => exact quiet_hookSocketlasterr hx
  | nsslCreateConnection _ _ _ _ _ _ =>
    exact safe_mono (quiet_hookNsslCreateConnection _ _ _ _ _ _ hx) fun _ _ ↦ .inl
  | nsslDestroyConnection _ =>
    exact safe_mono (quiet_hookNsslDestroyConnection _ hx) fun _ _ ↦ .inl
  | nsslFinish => exact safe_mono (quiet_hookNsslFinish fuel hx) fun _ _ ↦ .inl
  | freeaddrinfo _ => exact quiet_hookFreeaddrinfo _ fuel hx
  | gethostbyname _ | gethostbyaddr _ _ _ | getaddrinfo _ _ _ _ | getaddrinfoRs _ _ _ _
  | getaddrinfoAsync _ _ _ _ | getaddrinfoAsyncRs _ _ _ _ | dnsAbortByHname _ =>
    exact safe_mono (quiet_dnsRouted _ hx) fun _ _ ↦ .inl
  | getnameinfo _ _ _ _ _ _ _ | getHErrno | gaiStrerror _ =>
    exact safe_mono (quiet_acceptRouted _ hx) fun _ _ ↦ .inl
  | bind _ _ _ | connect _ _ _ | listen _ _ | accept _ _ _ | shutdown _ _ | send _ _ _
  | sendto _ _ _ _ _ | sendtoMulti _ _ _ _ | sendtoMultiEx _ _ _ _ | recv _ _ _
  | recvfrom _ _ _ _ _ | recvfromEx _ _ _ _ _ _ _ | recvfromMulti _ _ _ _ _ _
  | getsockname _ _ _ | getpeername _ _ _ | setsockopt _ _ _ _ _ | getsockopt _ _ _ _ _ =>
    exact safe_mono (quiet_routed _ _ hx) fun _ _ ↦ .inl

end Hooks

/-! ## Calls that nsysnet answers -/

/-- The answers of the shim to calls that name no descriptor: the error of its own last call, and
nothing for a list that it built. -/
def OwnAnswer (s : ShimState) : Export → ShimReply → Prop
  | .socketlasterr, result =>
    s.forceNative = 0 ∧ 0 ≤ s.errno ∧ result = { code := errnoToNsn s.errno }
  | .freeaddrinfo res, result =>
    res ≠ 0 ∧ (∃ i ∈ List.range aiOwnedMax, s.aiOwned i = res) ∧ result = {}
  | _, _ => False

/-- The call is served by nsysnet: the hook asks for the same call and for no call of lwIP, and
returns what nsysnet answered. -/
structure ServedNatively (e : Export) (x : QuietMachine) : Prop where
  /-- to the original export, or to neither network stack -/
  calls : ∀ fuel request y, Makes quietReply (hook fuel e) x request y → ServedBy e request
  /-- one call, whose answer is the result -/
  answered : ∀ fuel result y, Exec quietReply (hook fuel e) x result y →
    y.world = x.world ++ [(e, result)] ∨ y.world = x.world ∧ OwnAnswer x.mem e result
  asked : ∀ fuel, (∃ result, OwnAnswer x.mem e result) ∨
    ∃ y, Makes quietReply (hook fuel e) x (.native e) y

/-- The calls that nsysnet serves: all but a `select` that is refused, or that waits for a recorded
descriptor. -/
def NativeCall (s : ShimState) : Export → Prop
  | .select nfds readfds writefds exceptfds timeout =>
    selectInvalid nfds timeout = false ∧
      selectWant nfds readfds writefds exceptfds &&& s.ftpRestartMask = 0 ∧
      selectWant nfds readfds writefds exceptfds &&& s.openMask = 0
  | _ => True

section Answers

variable {e : Export} {x : QuietMachine}

/-- Preconditions of executions: any call may be made. -/
abbrev quietWp (program : ShimM α) (post : α → QuietMachine → Prop) (x : QuietMachine) : Prop :=
  wp quietReply (fun _ _ ↦ True) program post x

theorem NativeCall.quiet (hcall : NativeCall x.mem e) (hx : x.mem.acceptingSockets = 0) :
    Quiet e x := by
  cases e with
  | select nfds readfds writefds exceptfds timeout => exact ⟨hx, hcall.2.2⟩
  | _ => exact ⟨hx, BitVec.zero_and⟩

/-- A call is served by nsysnet, refused, or leaks. -/
theorem nativeCall_iff (s : ShimState) (e : Export) :
    NativeCall s e ↔ ¬ Leaks s e ∧ ¬ Refused s e := by
  cases e with
  | select nfds readfds writefds exceptfds timeout =>
    constructor
    · rintro ⟨hvalid, hmarked, hclosed⟩
      refine ⟨fun hleaks ↦ hleaks.2.2 hclosed, fun hrefused ↦ ?_⟩
      obtain hinvalid | hmark := hrefused
      · exact Bool.eq_false_iff.mp hvalid hinvalid
      · exact hmark hmarked
    · rintro ⟨hleaks, hrefused⟩
      obtain ⟨hvalid, hmarked⟩ := not_or.mp hrefused
      have hvalid := Bool.eq_false_iff.mpr hvalid
      have hmarked := not_not.mp hmarked
      exact ⟨hvalid, hmarked, by_contra fun hopen ↦ hleaks ⟨hvalid, hmarked, hopen⟩⟩
  | _ => exact iff_of_true trivial ⟨id, id⟩

/-- `select` refuses a call without asking anybody. -/
theorem refused_wp {fuel : ℕ} (hrefused : Refused x.mem e) :
    wp quietReply (fun _ _ ↦ False) (hook fuel e)
      (fun result y ↦ result.code = -1 ∧ y.world = x.world ∧ routing y.mem = routing x.mem) x := by
  cases e with
  | select nfds readfds writefds exceptfds timeout =>
    rw [hook, hookSelect]
    by_cases hinvalid : selectInvalid nfds timeout = true
    · rw [if_pos hinvalid]
      exact ⟨rfl, rfl, rfl⟩
    · have hmarked := hrefused.resolve_left hinvalid
      rw [if_neg hinvalid, selectChecked, wp_bind, wp_load, if_pos hmarked]
      exact ⟨rfl, rfl, rfl⟩
  | _ => exact hrefused.elim

/-- `select` hands the call as it is to nsysnet. -/
theorem wp_selectNative {nfds : ℤ} {readfds writefds exceptfds : Option (BitVec 32)}
    {timeout : Option Timeval} {fuel : ℕ}
    (hcall : NativeCall x.mem (.select nfds readfds writefds exceptfds timeout)) :
    quietWp (hookSelect nfds readfds writefds exceptfds timeout fuel) (fun result y ↦
      y.world = x.world ++ [(.select nfds readfds writefds exceptfds timeout, result)]) x := by
  obtain ⟨hvalid, hmarked, hclosed⟩ := hcall
  rw [hookSelect, if_neg (Bool.eq_false_iff.mp hvalid), selectChecked]
  refine (wp_bind _ _ _ _).mpr ?_
  rw [wp_load, if_neg (not_not.mpr hmarked), selectRoute, wp_bind, wp_load, selectServe,
    if_pos (and_not_eq_self_of_disjoint hclosed), callNative, wp_bind]
  refine ⟨trivial, fun answer y hreply ↦ ?_⟩
  cases hreply
  rfl

theorem wp_socketlasterr : quietWp hookSocketlasterr (fun result y ↦
    y.world = x.world ++ [(.socketlasterr, result)] ∨
      y.world = x.world ∧ OwnAnswer x.mem .socketlasterr result) x := by
  have hnative : quietWp (native .socketlasterr) (fun result y ↦
      y.world = x.world ++ [(.socketlasterr, result)] ∨
        y.world = x.world ∧ OwnAnswer x.mem .socketlasterr result) x := by
    refine ⟨trivial, fun answer y hreply ↦ ?_⟩
    cases hreply
    exact .inl rfl
  rw [hookSocketlasterr]
  refine (wp_bind _ _ _ _).mpr ?_
  rw [wp_load]
  by_cases hforce : x.mem.forceNative ≠ 0
  · rw [if_pos hforce]
    exact hnative
  · rw [if_neg hforce, wp_bind, wp_load]
    by_cases herror : x.mem.errno < 0
    · rw [if_pos herror]
      exact hnative
    · rw [if_neg herror]
      exact .inr ⟨rfl, not_not.mp hforce, Int.not_lt.mp herror, rfl⟩

theorem wp_freeNodes {log : NativeLog} {fuel node : ℕ} (hx : x.world = log) :
    quietWp (freeNodes fuel node) (fun _ y ↦ y.world = log) x := by
  refine wp_keeps (keeps_freeNodes fuel node) (fun _ _ _ hy ↦ hy)
    (fun request answer y z h hy hreply ↦ ?_) (fun _ _ _ _ ↦ trivial) hx
  cases request with
  | native _ => exact h.elim
  | lwip _ => exact h.elim
  | os _ =>
    cases hreply
    exact hy
  | note _ =>
    cases hreply
    exact hy

theorem wp_freeaddrinfo (res fuel : ℕ) : quietWp (hookFreeaddrinfo res fuel) (fun result y ↦
    y.world = x.world ++ [(.freeaddrinfo res, result)] ∨
      y.world = x.world ∧ OwnAnswer x.mem (.freeaddrinfo res) result) x := by
  have hours : quietWp (aiIsOurs res) (fun ours y ↦ y.world = x.world ∧
      (ours = true → res ≠ 0 ∧ ∃ i ∈ List.range aiOwnedMax, x.mem.aiOwned i = res)) x := by
    rw [aiIsOurs]
    by_cases hres : res = 0
    · rw [if_pos hres]
      exact ⟨rfl, fun hfalse ↦ absurd hfalse Bool.false_ne_true⟩
    · rw [if_neg hres]
      exact wp_swapAny (fun i hi howned ↦ ⟨rfl, fun _ ↦ ⟨hres, i, hi, howned⟩⟩)
        ⟨rfl, fun hfalse ↦ absurd hfalse Bool.false_ne_true⟩
  refine wp_seq hours fun ours y hy ↦ ?_
  by_cases hfalse : ours = false
  · rw [if_pos hfalse]
    refine ⟨trivial, fun answer z hreply ↦ ?_⟩
    cases hreply
    exact .inl (by rw [hy.1])
  · rw [if_neg hfalse]
    obtain ⟨hres, howned⟩ := hy.2 (Bool.eq_true_of_not_eq_false hfalse)
    refine wp_seq (wp_freeNodes hy.1) fun _ z hz ↦ ?_
    exact .inr ⟨hz, hres, howned, rfl⟩

/-- An execution of a call that nsysnet serves. -/
theorem answered_of_exec {y : QuietMachine} {fuel : ℕ} {result : ShimReply}
    (hx : x.mem.acceptingSockets = 0) (hcall : NativeCall x.mem e)
    (hexec : Exec quietReply (hook fuel e) x result y) :
    y.world = x.world ++ [(e, result)] ∨ y.world = x.world ∧ OwnAnswer x.mem e result := by
  have hquiet := hcall.quiet hx
  have hsafe : QuietSafe e (hook fuel e) (Served e x.world) x := quiet_hook fuel ⟨hquiet, rfl⟩
  obtain hanswered | ⟨-, hmay⟩ := hsafe.post_of_exec (fun _ ↦ .refl) hquiet hexec
  · exact .inl hanswered.2
  · cases e with
    | select nfds readfds writefds exceptfds timeout =>
      exact .inl (hexec.post_of_wp (wp_selectNative hcall))
    | socketlasterr => exact hexec.post_of_wp wp_socketlasterr
    | freeaddrinfo res => exact hexec.post_of_wp (wp_freeaddrinfo res fuel)
    | _ => exact hmay.elim

end Answers

/-! ## Calls that reach nsysnet -/

section Asked

variable {e : Export} {x : QuietMachine}

/-- Some execution asks nsysnet for the call. -/
abbrev AsksNative (e : Export) (program : ShimM α) (x : QuietMachine) : Prop :=
  ∃ y, Makes quietReply program x (.native e) y

theorem AsksNative.before {program : ShimM α} (hasks : AsksNative e program x)
    (next : α → ShimM β) : AsksNative e (program >>= next) x := by
  obtain ⟨y, hmakes⟩ := hasks
  exact ⟨y, hmakes.bind_left next⟩

/-- What runs first ends, and what is known of its end is enough. -/
theorem AsksNative.after {program : ShimM α} {next : α → ShimM β} {post : α → QuietMachine → Prop}
    (htotal : Total program) (hwp : quietWp program post x)
    (hnext : ∀ value y, post value y → AsksNative e (next value) y) :
    AsksNative e (program >>= next) x := by
  have hreply : ∀ request (y : QuietMachine), ∃ answer z, quietReply request answer y = some z := by
    intro request y
    cases request <;> exact ⟨{}, _, rfl⟩
  obtain ⟨value, y, hexec⟩ := htotal.exists_exec hreply x
  obtain ⟨z, hmakes⟩ := hnext value y (hexec.post_of_wp hwp)
  exact ⟨z, Makes.bind_right hmakes hexec⟩

theorem AsksNative.load {view : ShimState → α} {next : α → ShimM β}
    (hasks : AsksNative e (next (view x.mem)) x) : AsksNative e (load view >>= next) x := by
  have hwp : quietWp (Program.load view) (fun value y ↦ value = view x.mem ∧ y = x) x :=
    (wp_load view _ x).mpr ⟨rfl, rfl⟩
  refine .after (total_load view) hwp fun value y hy ↦ ?_
  obtain ⟨rfl, rfl⟩ := hy
  exact hasks

theorem AsksNative.store {update : ShimState → ShimState} {next : Unit → ShimM α}
    (hasks : AsksNative e (next ()) { x with mem := update x.mem }) :
    AsksNative e (store update >>= next) x := by
  have hwp : quietWp (Program.store update) (fun _ y ↦ y = { x with mem := update x.mem }) x :=
    (wp_store update _ x).mpr rfl
  refine .after (total_store update) hwp fun _ y hy ↦ ?_
  rw [hy]
  exact hasks

theorem asks_native : AsksNative e (native e) x := ⟨x, .here _ _ _⟩

theorem asks_callNative : AsksNative e (callNative e) x := ⟨_, .rmw (.here _ _ _)⟩

theorem quietWp_shimAccepts (hx : x.mem.acceptingSockets = 0) :
    quietWp shimAccepts (fun accepting _ ↦ accepting = false) x :=
  decide_eq_false (not_not.mpr hx)

theorem total_shimAccepts : Total shimAccepts := fun _ ↦ trivial

theorem total_isForeign (fd : ℤ) : Total (isForeign fd) :=
  total_shimAccepts.bind fun _ ↦ Total.ite (fun _ ↦ trivial) fun _ _ ↦ trivial

theorem quietWp_isForeign (fd : ℤ) (hx : x.mem.acceptingSockets = 0) :
    quietWp (isForeign fd) (fun foreign _ ↦ foreign = true) x := by
  refine wp_seq (quietWp_shimAccepts hx) fun accepting y hy ↦ ?_
  rw [if_pos hy]
  exact rfl

theorem asks_routed (fd : ℤ) (served : ShimM ShimReply) (hx : x.mem.acceptingSockets = 0) :
    AsksNative e (routed fd e served) x := by
  refine .after (total_isForeign fd) (quietWp_isForeign fd hx) fun foreign y hy ↦ ?_
  rw [if_pos hy]
  exact asks_callNative

theorem asks_acceptRouted (served : ShimM ShimReply) (hx : x.mem.acceptingSockets = 0) :
    AsksNative e (acceptRouted e served) x := by
  refine .after total_shimAccepts (quietWp_shimAccepts hx) fun accepting y hy ↦ ?_
  rw [hy]
  exact asks_native

theorem asks_dnsRouted (served : ShimM ShimReply) (hx : x.mem.acceptingSockets = 0) :
    AsksNative e (dnsRouted e served) x := by
  have htotal : Total dnsRoute :=
    total_shimAccepts.bind fun _ ↦ Total.ite (fun _ ↦ trivial) fun _ _ ↦ trivial
  have hwp : quietWp dnsRoute (fun route _ ↦ route = false) x := by
    refine wp_seq (quietWp_shimAccepts hx) fun accepting y hy ↦ ?_
    rw [if_pos hy]
    exact rfl
  refine .after htotal hwp fun route y hy ↦ ?_
  rw [hy]
  exact asks_native

theorem asks_hookSocket (domain type protocol : ℤ) (hx : x.mem.acceptingSockets = 0) :
    AsksNative (.socket domain type protocol) (hookSocket domain type protocol) x := by
  have htotal : Total (socketRoute domain) := (total_load _).bind fun _ ↦ Total.ite
    (fun _ ↦ trivial) fun _ ↦ total_shimAccepts.bind fun _ ↦
      Total.ite (fun _ ↦ trivial) fun _ _ ↦ trivial
  have hwp : quietWp (socketRoute domain) (fun route _ ↦ route = false) x := by
    rw [quietWp, socketRoute, wp_bind, wp_load]
    by_cases hforce : x.mem.forceNative ≠ 0
    · rw [if_pos hforce]
      exact rfl
    · rw [if_neg hforce]
      refine wp_seq (quietWp_shimAccepts hx) fun accepting y hy ↦ ?_
      rw [if_pos hy]
      exact rfl
  refine .after htotal hwp fun route y hy ↦ ?_
  rw [if_pos hy]
  exact asks_callNative

theorem total_nsslRelayDetachFrom (fd : ℤ) (slots : List ℕ) :
    Total (nsslRelayDetachFrom fd slots) := by
  induction slots with
  | nil => exact total_pure ()
  | cons slot rest ih =>
    refine (total_load _).bind fun _ ↦ Total.ite (fun _ ↦ ih) fun _ ↦ ?_
    exact (total_access _).bind fun _ ↦ Total.ite (fun _ ↦ total_store _) fun _ ↦ ih

theorem asks_hookSocketclose (sockfd : ℤ) (hx : x.mem.acceptingSockets = 0) :
    AsksNative (.socketclose sockfd) (hookSocketclose sockfd) x := by
  have hforget : Total (when (0 ≤ sockfd ∧ sockfd < 32) (forgetNative sockfd.toNat)) :=
    Total.ite (fun _ _ _ _ ↦ trivial) fun _ ↦ trivial
  refine .after (total_isForeign sockfd) (quietWp_isForeign sockfd hx) fun foreign y hy ↦ ?_
  rw [if_pos hy]
  refine .after hforget (wp_trivial fun _ _ ↦ trivial) fun _ y _ ↦ ?_
  refine .after (total_nsslRelayDetachFrom _ _) (wp_trivial fun _ _ ↦ trivial) fun _ y _ ↦ ?_
  exact asks_callNative

theorem asks_hookSocketcloseAll (hx : x.mem.acceptingSockets = 0) :
    AsksNative .socketcloseAll hookSocketcloseAll x := by
  have hforget : Total forgetConnections := Total.each (fun _ ↦ total_store _) _
  have hoff : ∀ y : QuietMachine, y.mem.acceptingSockets = 0 →
      quietWp forgetConnections (fun _ z ↦ z.mem.acceptingSockets = 0) y :=
    fun _ hy ↦ wp_each hy fun _ _ _ hz ↦ hz
  refine .store (.store (.after hforget (hoff _ hx) fun _ y hy ↦ ?_))
  refine .after total_shimAccepts (quietWp_shimAccepts hy) fun accepting z hz ↦ ?_
  rw [if_pos hz]
  exact asks_callNative

theorem asks_hookNsslCreateConnection (context : ℤ) (host : Option String)
    (hostLength options sockfd block : ℤ) (hx : x.mem.acceptingSockets = 0) :
    AsksNative (.nsslCreateConnection context host hostLength options sockfd block)
      (hookNsslCreateConnection context host hostLength options sockfd block) x := by
  -- `is_foreign` decides, so that nothing after it in `nsslPrepare` runs
  rw [hookNsslCreateConnection, nsslPrepare, lawfulMonad.bind_assoc]
  refine .after (total_isForeign sockfd) (quietWp_isForeign sockfd hx) fun foreign y hy ↦ ?_
  rw [if_pos hy]
  exact AsksNative.before asks_native _

theorem asks_hookSelect {nfds : ℤ} {readfds writefds exceptfds : Option (BitVec 32)}
    {timeout : Option Timeval} (fuel : ℕ)
    (hcall : NativeCall x.mem (.select nfds readfds writefds exceptfds timeout)) :
    AsksNative (.select nfds readfds writefds exceptfds timeout)
      (hookSelect nfds readfds writefds exceptfds timeout fuel) x := by
  obtain ⟨hvalid, hmarked, hclosed⟩ := hcall
  rw [hookSelect, if_neg (Bool.eq_false_iff.mp hvalid)]
  refine .load ?_
  rw [if_neg (not_not.mpr hmarked)]
  refine .load ?_
  rw [selectServe, if_pos (and_not_eq_self_of_disjoint hclosed)]
  exact asks_callNative

theorem asks_hookSocketlasterr :
    (∃ result, OwnAnswer x.mem .socketlasterr result) ∨
      AsksNative .socketlasterr hookSocketlasterr x := by
  by_cases hown : x.mem.forceNative = 0 ∧ 0 ≤ x.mem.errno
  · exact .inl ⟨_, hown.1, hown.2, rfl⟩
  · refine .inr (.load ?_)
    by_cases hforce : x.mem.forceNative ≠ 0
    · rw [if_pos hforce]
      exact asks_native
    · have herror : x.mem.errno < 0 := Int.not_le.mp fun h ↦ hown ⟨not_not.mp hforce, h⟩
      rw [if_neg hforce]
      refine .load ?_
      rw [if_pos herror]
      exact asks_native

theorem asks_hookFreeaddrinfo (res fuel : ℕ) :
    (∃ result, OwnAnswer x.mem (.freeaddrinfo res) result) ∨
      AsksNative (.freeaddrinfo res) (hookFreeaddrinfo res fuel) x := by
  by_cases hown : res ≠ 0 ∧ ∃ i ∈ List.range aiOwnedMax, x.mem.aiOwned i = res
  · exact .inl ⟨_, hown.1, hown.2, rfl⟩
  · have htotal : Total (aiIsOurs res) :=
      Total.ite (fun _ ↦ total_pure false) fun _ ↦ total_swapAny _ _ _
    have hwp : quietWp (aiIsOurs res) (fun ours _ ↦ ours = false) x := by
      rw [aiIsOurs]
      by_cases hres : res = 0
      · rw [if_pos hres]
        exact rfl
      · rw [if_neg hres]
        exact wp_swapAny (fun i hi howned ↦ absurd ⟨hres, i, hi, howned⟩ hown) rfl
    refine .inr (AsksNative.after htotal hwp fun ours y hy ↦ ?_)
    rw [if_pos hy]
    exact asks_native

/-- A call that nsysnet serves reaches it, unless the shim has the answer. -/
theorem asked_of_nativeCall (hx : x.mem.acceptingSockets = 0) (hcall : NativeCall x.mem e)
    (fuel : ℕ) : (∃ result, OwnAnswer x.mem e result) ∨ AsksNative e (hook fuel e) x := by
  cases e with
  | socket _ _ _ => exact .inr (asks_hookSocket _ _ _ hx)
  | socketclose _ => exact .inr (asks_hookSocketclose _ hx)
  | socketcloseAll => exact .inr (asks_hookSocketcloseAll hx)
  | select _ _ _ _ _ => exact .inr (asks_hookSelect fuel hcall)
  | socketlasterr => exact asks_hookSocketlasterr
  | nsslCreateConnection _ _ _ _ _ _ =>
    exact .inr (asks_hookNsslCreateConnection _ _ _ _ _ _ hx)
  | nsslDestroyConnection _ => exact .inr (AsksNative.before asks_native _)
  | nsslFinish => exact .inr (AsksNative.before asks_native _)
  | freeaddrinfo res => exact asks_hookFreeaddrinfo res fuel
  | gethostbyname _ | gethostbyaddr _ _ _ | getaddrinfo _ _ _ _ | getaddrinfoRs _ _ _ _
  | getaddrinfoAsync _ _ _ _ | getaddrinfoAsyncRs _ _ _ _ | dnsAbortByHname _ =>
    exact .inr (asks_dnsRouted _ hx)
  | getnameinfo _ _ _ _ _ _ _ | getHErrno | gaiStrerror _ => exact .inr (asks_acceptRouted _ hx)
  | bind _ _ _ | connect _ _ _ | listen _ _ | accept _ _ _ | shutdown _ _ | send _ _ _
  | sendto _ _ _ _ _ | sendtoMulti _ _ _ _ | sendtoMultiEx _ _ _ _ | recv _ _ _
  | recvfrom _ _ _ _ _ | recvfromEx _ _ _ _ _ _ _ | recvfromMulti _ _ _ _ _ _
  | getsockname _ _ _ | getpeername _ _ _ | setsockopt _ _ _ _ _ | getsockopt _ _ _ _ _ =>
    exact .inr (asks_routed _ _ hx)

end Asked

/-! ## Where lwIP is reached -/

section Reached

variable {e : Export} {x : QuietMachine}

/-- A call that does not leak is quiet or refused. -/
theorem quiet_or_refused (hx : x.mem.acceptingSockets = 0) (hleaks : ¬ Leaks x.mem e) :
    Quiet e x ∨ Refused x.mem e := by
  by_cases hrefused : Refused x.mem e
  · exact .inr hrefused
  · exact .inl (((nativeCall_iff x.mem e).mpr ⟨hleaks, hrefused⟩).quiet hx)

theorem servedBy_of_not_leaks (hx : x.mem.acceptingSockets = 0) (hleaks : ¬ Leaks x.mem e)
    {fuel : ℕ} {request : ShimCall} {y : QuietMachine}
    (hmakes : Makes quietReply (hook fuel e) x request y) : ServedBy e request := by
  obtain hquiet | hrefused := quiet_or_refused hx hleaks
  · have hsafe : QuietSafe e (hook fuel e) (Served e x.world) x := quiet_hook fuel ⟨hquiet, rfl⟩
    exact hsafe.pre_of_makes (fun _ ↦ .refl) hquiet hmakes
  · exact (hmakes.pre_of_wp (refused_wp hrefused)).elim

/-- An execution of a hook that does not leak leaves `accepting_sockets` off. -/
theorem served_of_exec {y : QuietMachine} {fuel : ℕ} {result : ShimReply}
    (hx : x.mem.acceptingSockets = 0) (hleaks : ¬ Leaks x.mem e)
    (hexec : Exec quietReply (hook fuel e) x result y) :
    y.mem.acceptingSockets = 0 ∧ (y.world = x.world ++ [(e, result)] ∨
      y.world = x.world ∧ (OwnAnswer x.mem e result ∨ Refused x.mem e ∧ result.code = -1)) := by
  by_cases hrefused : Refused x.mem e
  · obtain ⟨hcode, hworld, hrouting⟩ := hexec.post_of_wp (refused_wp hrefused)
    exact ⟨(congrArg Prod.fst hrouting).trans hx, .inr ⟨hworld, .inr ⟨hrefused, hcode⟩⟩⟩
  · have hcall := (nativeCall_iff x.mem e).mpr ⟨hleaks, hrefused⟩
    have hquiet := hcall.quiet hx
    have hsafe : QuietSafe e (hook fuel e) (Served e x.world) x := quiet_hook fuel ⟨hquiet, rfl⟩
    have hoff : y.mem.acceptingSockets = 0 := by
      obtain hanswered | hown := hsafe.post_of_exec (fun _ ↦ .refl) hquiet hexec
      · exact hanswered.1.1
      · exact hown.1.1.1
    obtain hworld | ⟨hworld, hown⟩ := answered_of_exec hx hcall hexec
    · exact ⟨hoff, .inl hworld⟩
    · exact ⟨hoff, .inr ⟨hworld, .inl hown⟩⟩

end Reached

/-! ## The leak -/

theorem exec_loadMapped (fds : List ℕ) (x : QuietMachine) :
    ∃ pairs, Exec quietReply (loadMapped fds) x pairs x := by
  induction fds with
  | nil => exact ⟨[], .done _ _⟩
  | cons fd rest ih =>
    obtain ⟨pairs, hexec⟩ := ih
    exact ⟨_, .rmw (hexec.bind (.done _ _))⟩

/-- A pass over lwIP's descriptors calls `lwip_select`. -/
theorem makes_lwipSelectBits (nfds : ℕ) (want : BitVec 32) (sets : SelectSets)
    (tv : Option Timeval) (x : QuietMachine) :
    ∃ request, Makes quietReply (lwipSelectBits nfds want sets tv) x (.lwip request) x := by
  obtain ⟨pairs, hexec⟩ := exec_loadMapped ((List.range nfds).filter fun fd ↦ want.getLsbD fd) x
  exact ⟨_, Makes.bind_right (Makes.bind_left (Makes.here _ _ _) _) hexec⟩

theorem makes_selectMixed (nfds : ℤ) (want nat : BitVec 32) (sets : SelectSets)
    (deadline : Option ℤ) (fuel : ℕ) (x : QuietMachine) :
    ∃ request y, Makes quietReply (selectMixed nfds want nat sets deadline (fuel + 1)) x
      (.lwip request) y := by
  -- nsysnet reports that nothing is ready, and the other half is asked
  let zero : Timeval := { tvSec := 0, tvUsec := 0 }
  let halves := sets.restrict nat
  let y : QuietMachine := { x with
    world := x.world ++ [(.select nfds halves.r halves.w halves.e (some zero), {})] }
  obtain ⟨request, hmakes⟩ := makes_lwipSelectBits nfds.toNat (want &&& ~~~ nat)
    (sets.restrict (~~~ nat)) (some zero) y
  exact ⟨request, y, .call {} rfl (Makes.bind_left hmakes _)⟩

theorem exec_deadlineAfter (ticks : Option ℤ) (x : QuietMachine) :
    ∃ deadline, Exec quietReply (deadlineAfter ticks) x deadline x := by
  cases ticks with
  | none => exact ⟨none, .done _ _⟩
  | some ticks => exact ⟨_, .call {} rfl (.done _ _)⟩

/-- A wanted descriptor in `open_mask` takes `select` to lwIP. -/
theorem makes_selectServe (nfds : ℤ) (sets : SelectSets) (timeout : Option Timeval) (fuel : ℕ)
    {want mask : BitVec 32} (hopen : want &&& mask ≠ 0) (x : QuietMachine) :
    ∃ request y, Makes quietReply
      (selectServe nfds sets timeout (fuel + 1) want (want &&& ~~~ mask)) x (.lwip request) y := by
  have hother : want &&& ~~~ mask ≠ want := by
    intro hsame
    apply hopen
    rw [← hsame, BitVec.and_assoc, BitVec.and_comm (~~~ mask), BitVec.and_not_self]
    exact BitVec.and_zero
  let y : QuietMachine := { x with mem := { x.mem with errno := 0 } }
  have herrno : Exec quietReply (setErrno 0) x () y := .rmw (.done _ _)
  rw [selectServe, if_neg hother]
  by_cases hpure : want &&& ~~~ mask = 0
  · obtain ⟨request, hmakes⟩ := makes_lwipSelectBits nfds.toNat want sets timeout y
    refine ⟨request, y, Makes.bind_right ?_ herrno⟩
    rw [if_pos hpure]
    exact Makes.bind_left hmakes _
  · obtain ⟨deadline, hdeadline⟩ := exec_deadlineAfter (timeout.map fun tv ↦
      osMillisecondsToTicks (tv.tvSec.toNat * 1000 + tv.tvUsec.toNat / 1000)) y
    obtain ⟨request, z, hmakes⟩ :=
      makes_selectMixed nfds want (want &&& ~~~ mask) sets deadline fuel y
    refine ⟨request, z, Makes.bind_right ?_ herrno⟩
    rw [if_neg hpure]
    exact Makes.bind_right hmakes hdeadline

theorem makes_of_leaks {e : Export} {x : QuietMachine} (hleaks : Leaks x.mem e) :
    ∃ fuel request y, Makes quietReply (hook fuel e) x (.lwip request) y := by
  cases e with
  | select nfds readfds writefds exceptfds timeout =>
    obtain ⟨hvalid, hmarked, hopen⟩ := hleaks
    obtain ⟨request, y, hmakes⟩ := makes_selectServe nfds
      { r := readfds, w := writefds, e := exceptfds } timeout 0 hopen x
    refine ⟨1, request, y, ?_⟩
    rw [hook, hookSelect, if_neg (Bool.eq_false_iff.mp hvalid)]
    refine .rmw ?_
    change Makes quietReply (if selectWant nfds readfds writefds exceptfds &&&
      x.mem.ftpRestartMask ≠ 0 then _ else _) x _ _
    rw [if_neg (not_not.mpr hmarked)]
    exact .rmw hmakes
  | _ => exact hleaks.elim

/-! ## The window after quiesce -/

theorem quiesce_accepting {x y : QuietMachine}
    (hexec : Exec quietReply nsysnetShimQuiesce x () y) :
    y.mem.acceptingSockets = 0 ∧ routing y.mem = (0, x.mem.openMask) := by
  have hwp : wp quietReply (fun _ _ ↦ True) nsysnetShimQuiesce
      (fun _ z ↦ z.mem.acceptingSockets = 0 ∧ routing z.mem = (0, x.mem.openMask)) x := ⟨rfl, rfl⟩
  exact hexec.post_of_wp hwp

theorem quietSystem_verified {e : Export} {x : QuietMachine} (hx : Quiet e x) :
    Verified (quietSystem e) x (Quiet e) (fun _ ↦ Interference (quietSystem e) (Quiet e))
      (fun _ request _ ↦ ServedBy e request) (fun _ ↦ Quiet e) := by
  refine solo_verified (fun _ _ _ _ _ henv ↦ (quietSystem_env henv).1)
    (fun _ _ _ _ _ henv ↦ (quietSystem_env henv).1) (fun fuel y hy _ _ ↦ ?_) hx hx
  change QuietSafe e (hook fuel e >>= fun _ ↦ pure ()) (fun _ ↦ Quiet e) y
  rw [QuietSafe, Solo, safe_bind]
  refine safe_mono (quiet_hook fuel ⟨hy, rfl⟩) fun result z hz ↦ ?_
  obtain hanswered | ⟨huntouched, -⟩ := hz
  · exact hanswered.1
  · exact huntouched.1

theorem servedNatively_of_nativeCall {e : Export} {x : QuietMachine}
    (hx : x.mem.acceptingSockets = 0) (hcall : NativeCall x.mem e) : ServedNatively e x where
  calls _ _ _ hmakes := servedBy_of_not_leaks hx ((nativeCall_iff x.mem e).mp hcall).1 hmakes
  answered _ _ _ hexec := answered_of_exec hx hcall hexec
  asked fuel := asked_of_nativeCall hx hcall fuel

/-- A refused `select` does not reach nsysnet. -/
theorem not_servedNatively_of_refused {e : Export} {x : QuietMachine}
    (hrefused : Refused x.mem e) : ¬ ServedNatively e x := by
  intro hserved
  obtain ⟨result, hown⟩ | ⟨y, hmakes⟩ := hserved.asked 0
  · cases e with
    | select nfds readfds writefds exceptfds timeout => exact hown
    | _ => exact hrefused
  · exact hmakes.pre_of_wp (refused_wp hrefused)

theorem not_servedNatively_of_leaks {e : Export} {x : QuietMachine} (hleaks : Leaks x.mem e) :
    ¬ ServedNatively e x := by
  intro hserved
  obtain ⟨fuel, request, y, hmakes⟩ := makes_of_leaks hleaks
  exact hserved.calls fuel _ y hmakes

/-- From `nsysnet_shim_quiesce` on, for every state of the tables, nsysnet serves exactly the calls
that are no `select` for a recorded descriptor and no refused one, and lwIP is reached by exactly
the first of these two.  A hook that does not reach it leaves `accepting_sockets` off, and either
nsysnet answers the call or the shim has or refuses the answer.  Other threads do not change this as
long as they keep the tables quiet. -/
theorem servedNatively_iff (e : Export) (x : QuietMachine) (hx : x.mem.acceptingSockets = 0) :
    (ServedNatively e x ↔ NativeCall x.mem e) ∧
    ((∃ fuel request y, Makes quietReply (hook fuel e) x (.lwip request) y) ↔ Leaks x.mem e) ∧
    (∀ fuel result y, Exec quietReply (hook fuel e) x result y → ¬ Leaks x.mem e →
      y.mem.acceptingSockets = 0 ∧ (y.world = x.world ++ [(e, result)] ∨
        y.world = x.world ∧ (OwnAnswer x.mem e result ∨ Refused x.mem e ∧ result.code = -1))) ∧
    (Quiet e x → ∀ actions c request next,
      (quietSystem e).run (System.start x) actions = some c →
      c.threads () = some (.call request next) → ServedBy e request) := by
  refine ⟨⟨fun hserved ↦ (nativeCall_iff x.mem e).mpr ⟨fun hleaks ↦ ?_, fun hrefused ↦ ?_⟩,
    servedNatively_of_nativeCall hx⟩, ⟨fun hreaches ↦ ?_, makes_of_leaks⟩,
    fun fuel result y hexec hleaks ↦ served_of_exec hx hleaks hexec,
    fun hquiet actions c request next hrun hcall ↦ ?_⟩
  · exact not_servedNatively_of_leaks hleaks hserved
  · exact not_servedNatively_of_refused hrefused hserved
  · obtain ⟨fuel, request, y, hmakes⟩ := hreaches
    by_contra hleaks
    exact servedBy_of_not_leaks hx hleaks hmakes
  · exact (quietSystem_verified hquiet).call_pre hrun hcall

/-- The public descriptors 3 and 5, served by lwIP, with the shim accepting. -/
def recordedPair : QuietMachine where
  mem := { openMask := bit 3 ||| bit 5, acceptingSockets := 1, installed := 1 }
  world := []

/-- The same after `nsysnet_shim_quiesce`. -/
def recordedPairQuiet : QuietMachine where
  mem := { openMask := bit 3 ||| bit 5, installed := 1 }
  world := []

theorem recordedPair_quiesce :
    Exec quietReply nsysnetShimQuiesce recordedPair () recordedPairQuiet :=
  .rmw (.rmw (.done _ _))

/-- A `recv` on a recorded descriptor and a `select` for a native one go to nsysnet. -/
theorem servedNatively_iff_recv :
    Exec quietReply nsysnetShimQuiesce recordedPair () recordedPairQuiet ∧
      ServedNatively (.recv 3 1 0) recordedPairQuiet ∧
      ServedNatively (.select 5 (some (bit 4 ||| bit 5)) none none none) recordedPairQuiet := by
  have haccepting := (quiesce_accepting recordedPair_quiesce).1
  refine ⟨recordedPair_quiesce, ?_, ?_⟩
  · exact (servedNatively_iff (.recv 3 1 0) recordedPairQuiet haccepting).1.mpr trivial
  · exact (servedNatively_iff (.select 5 (some (bit 4 ||| bit 5)) none none none) recordedPairQuiet
      haccepting).1.mpr ⟨rfl, rfl, rfl⟩

/-- A `select` for a recorded one calls lwIP, and nsysnet does not serve it. -/
theorem quiesced_select_reaches_lwip :
    Exec quietReply nsysnetShimQuiesce recordedPair () recordedPairQuiet ∧
      (∃ fuel request y, Makes quietReply
        (hook fuel (.select 4 (some (bit 3)) none none none)) recordedPairQuiet (.lwip request) y) ∧
      ¬ ServedNatively (.select 4 (some (bit 3)) none none none) recordedPairQuiet := by
  have hleaks : Leaks recordedPairQuiet.mem (.select 4 (some (bit 3)) none none none) := by
    refine ⟨rfl, rfl, ?_⟩
    decide
  exact ⟨recordedPair_quiesce, makes_of_leaks hleaks, not_servedNatively_of_leaks hleaks⟩

end Ax88179Aroma.Shim
