import Ax88179Aroma.Effect.Concurrency
import Ax88179Aroma.Shim.Relay

/-!
# A relay is a faithful pipe

`relaySystem` runs the worker of one slot after its bridge was published, with every result of its
calls and with `stop` or the loss of the public descriptor at any moment.  The world keeps for each
direction what the source delivered, what the sink accepted, whether the source ended and how often
the sink was shut down.  At every loop head the accepted bytes followed by the waiting ones are the
received ones.
-/

namespace Ax88179Aroma.Shim

open Effect Program

/-- What the outside saw of one direction. -/
structure Stream where
  received : List UInt8 := []
  accepted : List UInt8 := []
  ended : Bool := false
  shutdowns : ℕ := 0
  deriving DecidableEq, Repr

namespace Stream

/-- A read of up to `len` bytes: some bytes, the end of the stream, or an error. -/
def receive (stream : Stream) (len : ℕ) (answer : ShimReply) : Option Stream :=
  if answer.code > 0 then
    if answer.code ≤ len ∧ answer.bytes.length = answer.code.toNat then
      some { stream with received := stream.received ++ answer.bytes }
    else none
  else if answer.code = 0 then some { stream with ended := true }
  else some stream

/-- A write of `buf`: a part of it is accepted, or none. -/
def send (stream : Stream) (buf : List UInt8) (answer : ShimReply) : Option Stream :=
  if answer.code > 0 then
    if answer.code ≤ buf.length then
      some { stream with accepted := stream.accepted ++ buf.take answer.code.toNat }
    else none
  else some stream

def shutdown (stream : Stream) : Stream := { stream with shutdowns := stream.shutdowns + 1 }

end Stream

/-- The two descriptors of a relay and the streams between them. -/
structure RelayWorld where
  nativeFd : ℤ
  lwfd : ℤ
  toAx : Stream := {}
  toNative : Stream := {}
  deriving DecidableEq, Repr

abbrev RelayMachine := Machine ShimState RelayWorld

def relayReply : Replies ShimState RelayWorld ShimCall ShimReply
  | .native (.recv fd len _), answer, x =>
    if fd = x.world.nativeFd then
      (x.world.toAx.receive len answer).map fun stream ↦
        { x with world := { x.world with toAx := stream } }
    else some x
  | .lwip (.send fd buf _), answer, x =>
    if fd = x.world.lwfd then
      (x.world.toAx.send buf answer).map fun stream ↦
        { x with world := { x.world with toAx := stream } }
    else some x
  | .lwip (.shutdown fd how), _, x =>
    if fd = x.world.lwfd ∧ how = shutWr then
      some { x with world := { x.world with toAx := x.world.toAx.shutdown } }
    else some x
  | .lwip (.recv fd len _), answer, x =>
    if fd = x.world.lwfd then
      (x.world.toNative.receive len answer).map fun stream ↦
        { x with world := { x.world with toNative := stream } }
    else some x
  | .native (.send fd buf _), answer, x =>
    if fd = x.world.nativeFd then
      (x.world.toNative.send buf answer).map fun stream ↦
        { x with world := { x.world with toNative := stream } }
    else some x
  | .native (.shutdown fd how), _, x =>
    if fd = x.world.nativeFd ∧ how = shutWr then
      some { x with world := { x.world with toNative := x.world.toNative.shutdown } }
    else some x
  | _, _, x => some x

/-- What other threads do to the slot of a running relay. -/
inductive RelayEvent where
  /-- `nssl_relay_stop_slot` and `nssl_relay_stop_all` -/
  | stop
  /-- the compare-exchange of `nssl_relay_detach_public_fd` -/
  | detach
  deriving DecidableEq, Repr

def relayEnv (slot : ℕ) : RelayEvent → RelayMachine → Option RelayMachine
  | .stop, x => some { x with mem := x.mem.setRelay slot fun r ↦ { r with stop := 1 } }
  | .detach, x => some { x with mem := x.mem.setRelay slot fun r ↦ { r with publicFd := -1 } }

/-- The worker of one slot, which runs once. -/
def relaySystem (slot : ℕ) :
    System Unit ℕ RelayEvent ShimState RelayWorld ShimCall ShimReply where
  reply _ := relayReply
  env := relayEnv slot
  body _ fuel := nsslRelayWorker slot fuel
  enabled _ _ x := decide ((x.mem.nsslRelays slot).done = 0)

/-- A slot whose descriptors were just published. -/
structure RelayReady (slot : ℕ) (x : RelayMachine) : Prop where
  ready : (x.mem.nsslRelays slot).ready ≠ 0
  nativeToAx : (x.mem.nsslRelays slot).nativeToAx = 0
  axToNative : (x.mem.nsslRelays slot).axToNative = 0
  world_eq : x.world = {
    nativeFd := (x.mem.nsslRelays slot).nativeFd
    lwfd := (x.mem.nsslRelays slot).lwfd }

/-! ## One direction -/

/-- The source ended and everything it delivered was accepted. -/
def Stream.Delivered (stream : Stream) : Prop :=
  stream.ended = true ∧ stream.received = stream.accepted

/-- The waiting bytes in a buffer of `size` bytes, the counter and the flags of one direction agree
with its stream. -/
structure Buffered (size : ℕ) (half : HalfPipe) (stream : Stream) (buffer : Memory)
    (counter : UInt64) : Prop where
  bytes : stream.accepted ++ buffer.slice half.off half.len = stream.received
  bound : half.off + half.len ≤ size
  counter_eq : counter = UInt64.ofNat stream.accepted.length
  ended : stream.ended = !half.rxOpen
  shutdowns : stream.shutdowns = if half.wrShutdown then 1 else 0
  closed : half.wrShutdown = true → half.rxOpen = false ∧ half.len = 0

namespace Buffered

variable {size : ℕ} {half : HalfPipe} {stream stream' : Stream} {buffer : Memory} {counter : UInt64}

theorem delivered (h : Buffered size half stream buffer counter) (hlen : half.len = 0) :
    stream.received = stream.accepted := by
  rw [← h.bytes, hlen]
  exact List.append_nil _

theorem shutdowns_eq_zero (h : Buffered size half stream buffer counter) (hlen : half.len ≠ 0) :
    stream.shutdowns = 0 := by
  rw [h.shutdowns, if_neg fun hshut ↦ hlen (h.closed hshut).2]

/-- The sink accepted some of the waiting bytes. -/
theorem advance (h : Buffered size half stream buffer counter) {answer : ShimReply}
    (hcode : answer.code > 0)
    (hsend : stream.send (buffer.slice half.off half.len) answer = some stream') :
    Buffered size (half.advance answer.code.toNat) stream' buffer
      (counter + UInt64.ofNat answer.code.toNat) := by
  simp only [Stream.send, if_pos hcode, Memory.length_slice] at hsend
  split at hsend
  · rename_i hle
    cases hsend
    have hn : answer.code.toNat ≤ half.len := by omega
    have hsplit : buffer.slice half.off half.len =
        buffer.slice half.off answer.code.toNat ++
          buffer.slice (half.off + answer.code.toNat) (half.len - answer.code.toNat) := by
      rw [← Memory.slice_add, Nat.add_sub_cancel' hn]
    have htake : (buffer.slice half.off half.len).take answer.code.toNat =
        buffer.slice half.off answer.code.toNat := by
      rw [hsplit]
      exact List.take_left' (Memory.length_slice _ _ _)
    refine ⟨?_, ?_, ?_, h.ended, h.shutdowns, fun hshut ↦ ?_⟩
    · rw [htake, ← h.bytes, List.append_assoc, hsplit]
      congr 2
      simp only [HalfPipe.advance]
      split
      · rename_i hzero
        rw [hzero]
        rfl
      · rfl
    · have hbound := h.bound
      simp only [HalfPipe.advance]
      split <;> omega
    · rw [htake, List.length_append, Memory.length_slice, UInt64.ofNat_add, ← h.counter_eq]
    · obtain ⟨hrx, hzero⟩ := h.closed hshut
      refine ⟨hrx, ?_⟩
      simp only [HalfPipe.advance]
      omega
  · cases hsend

/-- The source delivered bytes into the empty buffer. -/
theorem fill (h : Buffered size half stream buffer counter) {answer : ShimReply}
    (hempty : half.len = 0) (hopen : half.rxOpen = true) (hcode : answer.code > 0)
    (hreceive : stream.receive size answer = some stream') :
    Buffered size (half.fill answer.code.toNat) stream'
      (buffer.copy (Memory.ofList answer.bytes) answer.code.toNat) counter := by
  simp only [Stream.receive, if_pos hcode] at hreceive
  split at hreceive
  · rename_i hle
    cases hreceive
    refine ⟨?_, ?_, h.counter_eq, h.ended, h.shutdowns, fun hshut ↦ ?_⟩
    · simp only [HalfPipe.fill, ← hle.2, Memory.slice_copy_ofList, h.delivered hempty]
    · simp only [HalfPipe.fill]
      omega
    · rw [(h.closed hshut).1] at hopen
      cases hopen
  · cases hreceive

/-- The source ended. -/
theorem finish (h : Buffered size half stream buffer counter) (hempty : half.len = 0) :
    Buffered size { half with rxOpen := false } { stream with ended := true } buffer counter :=
  ⟨h.bytes, h.bound, h.counter_eq, rfl, h.shutdowns, fun _ ↦ ⟨rfl, hempty⟩⟩

/-- The sink is told about the end. -/
theorem shut (h : Buffered size half stream buffer counter) (hended : half.rxOpen = false)
    (hempty : half.len = 0) (hfirst : half.wrShutdown = false) :
    Buffered size { half with wrShutdown := true } stream.shutdown buffer counter := by
  refine ⟨h.bytes, h.bound, h.counter_eq, h.ended, ?_, fun _ ↦ ⟨hended, hempty⟩⟩
  simp [Stream.shutdown, h.shutdowns, hfirst]

/-- A fresh connection waits for nothing. -/
theorem empty (size : ℕ) (buffer : Memory) : Buffered size {} {} buffer 0 :=
  ⟨rfl, Nat.zero_le _, rfl, rfl, rfl, nofun⟩

/-- A finished direction has delivered everything. -/
theorem delivered_of_ended (h : Buffered size half stream buffer counter)
    (hended : half.rxOpen = false) (hempty : half.len = 0) : stream.Delivered := by
  refine ⟨?_, h.delivered hempty⟩
  rw [h.ended, hended]
  rfl

end Buffered

/-- One direction of a relay. -/
abbrev HalfHolds := Buffered nsslRelayBuf

/-! ## What each call finds -/

/-- At a loop head, for one direction: the accepted bytes followed by the waiting ones are the
received ones, the waiting ones lie in the buffer, and the counter counts the accepted ones. -/
def Faithful (half : HalfPipe) (stream : Stream) (buffer : Memory) (counter : UInt64) : Prop :=
  stream.accepted ++ buffer.slice half.off half.len = stream.received ∧
    half.off + half.len ≤ nsslRelayBuf ∧ counter = UInt64.ofNat stream.accepted.length

/-- What holds when the worker makes a call.  A sink is shut down once, after its source ended and
everything was accepted, and nothing is sent to it afterwards; a loop that was not left by `stop`,
an error or a closed peer has delivered both streams. -/
def relayPre (slot : ℕ) : ShimCall → RelayMachine → Prop
  | .note (.relayHead _ locals), x =>
    Faithful locals.toAx x.world.toAx (x.mem.nsslRelays slot).toAx
        (x.mem.nsslRelays slot).nativeToAx ∧
      Faithful locals.toNative x.world.toNative (x.mem.nsslRelays slot).toNative
        (x.mem.nsslRelays slot).axToNative
  | .note (.relayEnd _ exit), x =>
    exit = .drained → x.world.toAx.Delivered ∧ x.world.toNative.Delivered
  | .lwip (.send fd _ _), x => fd = x.world.lwfd ∧ x.world.toAx.shutdowns = 0
  | .native (.send fd _ _), x => fd = x.world.nativeFd ∧ x.world.toNative.shutdowns = 0
  | .lwip (.shutdown fd how), x =>
    fd = x.world.lwfd ∧ how = shutWr ∧ x.world.toAx.shutdowns = 0 ∧ x.world.toAx.Delivered
  | .native (.shutdown fd how), x =>
    fd = x.world.nativeFd ∧ how = shutWr ∧ x.world.toNative.shutdowns = 0 ∧
      x.world.toNative.Delivered
  | _, _ => True

/-! ## The phases of an iteration -/

/-- Both directions hold, on the descriptors that the worker uses. -/
structure Piped (nativeFd lwfd : ℤ) (locals : RelayLocals) (r : NsslRelay) (w : RelayWorld) :
    Prop where
  nativeFd_eq : w.nativeFd = nativeFd
  lwfd_eq : w.lwfd = lwfd
  toAx : HalfHolds locals.toAx w.toAx r.toAx r.nativeToAx
  toNative : HalfHolds locals.toNative w.toNative r.toNative r.axToNative

section Worker

variable {slot : ℕ} {nativeFd lwfd : ℤ} {x : RelayMachine}

abbrev RelaySafe (slot : ℕ) (program : ShimM α) (post : α → RelayMachine → Prop) :
    RelayMachine → Prop :=
  Solo (relaySystem slot) (fun _ ↦ True) (relayPre slot) program post

/-- The invariant after a store that is still to come. -/
def PipedAfter (slot : ℕ) (nativeFd lwfd : ℤ) (locals : RelayLocals)
    (update : NsslRelay → NsslRelay) (x : RelayMachine) : Prop :=
  Piped nativeFd lwfd locals (update (x.mem.nsslRelays slot)) x.world

/-- The fields of a relay that its worker alone writes. -/
def NsslRelay.pipe (r : NsslRelay) : Memory × Memory × UInt64 × UInt64 :=
  (r.toAx, r.toNative, r.nativeToAx, r.axToNative)

theorem Piped.of_pipe {locals : RelayLocals} {r r' : NsslRelay} {w : RelayWorld}
    (h : Piped nativeFd lwfd locals r w) (hpipe : r'.pipe = r.pipe) :
    Piped nativeFd lwfd locals r' w := by
  simp only [NsslRelay.pipe, Prod.mk.injEq] at hpipe
  obtain ⟨htoAx, htoNative, hnative, hax⟩ := hpipe
  refine ⟨h.nativeFd_eq, h.lwfd_eq, ?_, ?_⟩
  · rw [htoAx, hnative]
    exact h.toAx
  · rw [htoNative, hax]
    exact h.toNative

/-- Other threads write neither the buffers nor the counters. -/
theorem stable_pipedAfter (locals : RelayLocals) {update : NsslRelay → NsslRelay}
    (hstop : ∀ r : NsslRelay, (update { r with stop := 1 }).pipe = (update r).pipe)
    (hdetach : ∀ r : NsslRelay, (update { r with publicFd := -1 }).pipe = (update r).pipe) :
    EnvStable (relaySystem slot) (fun _ ↦ True) (PipedAfter slot nativeFd lwfd locals update) := by
  intro event y z _ hy henv
  cases event with
  | stop =>
    cases henv
    refine Piped.of_pipe hy ?_
    rw [ShimState.setRelay_self]
    exact hstop _
  | detach =>
    cases henv
    refine Piped.of_pipe hy ?_
    rw [ShimState.setRelay_self]
    exact hdetach _

abbrev PipedAt (slot : ℕ) (nativeFd lwfd : ℤ) (locals : RelayLocals) : RelayMachine → Prop :=
  PipedAfter slot nativeFd lwfd locals id

theorem stable_pipedAt (locals : RelayLocals) :
    EnvStable (relaySystem slot) (fun _ ↦ True) (PipedAt slot nativeFd lwfd locals) :=
  stable_pipedAfter locals (fun _ ↦ rfl) fun _ ↦ rfl

/-- What a phase leaves behind. -/
def StepHolds (slot : ℕ) (nativeFd lwfd : ℤ) : RelayStep → RelayMachine → Prop
  | .ok (locals, _), x => PipedAt slot nativeFd lwfd locals x
  | .error exit, x => exit = .drained → x.world.toAx.Delivered ∧ x.world.toNative.Delivered

theorem safe_andThen {first : ShimM RelayStep} {next : RelayLocals → Bool → ShimM RelayStep}
    (hfirst : RelaySafe slot first (StepHolds slot nativeFd lwfd) x)
    (hnext : ∀ locals progress y, PipedAt slot nativeFd lwfd locals y →
      RelaySafe slot (next locals progress) (StepHolds slot nativeFd lwfd) y) :
    RelaySafe slot (andThen first next) (StepHolds slot nativeFd lwfd) x := by
  rw [RelaySafe, andThen, Solo, safe_bind]
  refine safe_mono hfirst fun step y hy ↦ ?_
  match step with
  | .error exit => exact hy
  | .ok (locals, progress) => exact hnext locals progress y hy

/-- The store that a phase ends with. -/
theorem safe_storeAfter {locals : RelayLocals} {progress : Bool} {update : NsslRelay → NsslRelay}
    (hstop : ∀ r : NsslRelay, (update { r with stop := 1 }).pipe = (update r).pipe)
    (hdetach : ∀ r : NsslRelay, (update { r with publicFd := -1 }).pipe = (update r).pipe)
    (hx : PipedAfter slot nativeFd lwfd locals update x) :
    RelaySafe slot (do
      storeRelay slot update
      pure (.ok (locals, progress))) (StepHolds slot nativeFd lwfd) x := by
  rw [RelaySafe, Solo, safe_bind]
  refine solo_store (stable_pipedAfter locals hstop hdetach) hx fun y _ hy ↦ ⟨trivial, ?_⟩
  change Piped nativeFd lwfd locals ((y.mem.setRelay slot update).nsslRelays slot) y.world
  rw [ShimState.setRelay_self]
  exact hy

/-- Recording an error and leaving the loop. -/
theorem safe_relayError {locals : RelayLocals} (error : ℤ)
    (hx : PipedAt slot nativeFd lwfd locals x) :
    RelaySafe slot (relayError slot error) (StepHolds slot nativeFd lwfd) x := by
  rw [RelaySafe, relayError, Solo, safe_bind]
  refine solo_store (stable_pipedAt locals) hx fun y _ hy ↦ ⟨trivial, fun hexit ↦ ?_⟩
  cases hexit

/-- `nsysnet`'s last error may be anything. -/
theorem safe_realSocketlasterr {locals : RelayLocals}
    (hx : PipedAt slot nativeFd lwfd locals x) :
    RelaySafe slot realSocketlasterr (fun _ ↦ PipedAt slot nativeFd lwfd locals) x := by
  rw [RelaySafe, realSocketlasterr, native, Solo, safe_bind]
  refine solo_perform (stable_pipedAt locals) hx fun y _ hy ↦ ⟨trivial, fun answer z hreply ↦ ?_⟩
  cases hreply
  exact ⟨trivial, hy⟩

/-- Reading the waiting bytes of a buffer, which other threads leave alone. -/
theorem safe_loadWaiting {locals : RelayLocals} {buffer : NsslRelay → Memory} {half : HalfPipe}
    (hstop : ∀ r : NsslRelay, buffer { r with stop := 1 } = buffer r)
    (hdetach : ∀ r : NsslRelay, buffer { r with publicFd := -1 } = buffer r)
    {next : List UInt8 → ShimM RelayStep} {post : RelayStep → RelayMachine → Prop}
    (hx : PipedAt slot nativeFd lwfd locals x)
    (hnext : ∀ buf y, PipedAt slot nativeFd lwfd locals y ∧
        buf = (buffer (y.mem.nsslRelays slot)).slice half.off half.len →
      EnvStable (relaySystem slot) (fun _ ↦ True) (fun y ↦ PipedAt slot nativeFd lwfd locals y ∧
        buf = (buffer (y.mem.nsslRelays slot)).slice half.off half.len) →
      RelaySafe slot (next buf) post y) :
    RelaySafe slot (do
      let buf ← loadRelay slot fun r ↦ (buffer r).slice half.off half.len
      next buf) post x := by
  rw [RelaySafe, Solo, safe_bind]
  refine solo_load (stable_pipedAt locals) hx fun y _ hy ↦ ?_
  refine hnext _ y ⟨hy, rfl⟩ ((stable_pipedAt locals).and fun event z w _ hz henv ↦ ?_)
  cases event with
  | stop =>
    cases henv
    rw [ShimState.setRelay_self, hstop]
    exact hz
  | detach =>
    cases henv
    rw [ShimState.setRelay_self, hdetach]
    exact hz

theorem send_of_not_pos {stream stream' : Stream} {buf : List UInt8} {answer : ShimReply}
    (hsend : stream.send buf answer = some stream') (hcode : ¬ answer.code > 0) :
    stream' = stream := by
  rw [Stream.send, if_neg hcode] at hsend
  exact (Option.some.inj hsend).symm

theorem safe_flushToAx (locals : RelayLocals) (progress : Bool)
    (hx : PipedAt slot nativeFd lwfd locals x) :
    RelaySafe slot (flushToAx slot lwfd locals progress) (StepHolds slot nativeFd lwfd) x := by
  rw [RelaySafe, flushToAx, Solo, safe_ite]
  split
  · exact hx
  · rename_i hlen
    refine safe_loadWaiting (fun _ ↦ rfl) (fun _ ↦ rfl) hx fun buf y hy hstable ↦ ?_
    rw [RelaySafe, Solo, safe_bind]
    refine solo_perform hstable hy fun z _ ⟨hz, hbuf⟩ ↦
      ⟨⟨hz.lwfd_eq.symm, hz.toAx.shutdowns_eq_zero hlen⟩, fun answer w hreply ↦ ⟨trivial, ?_⟩⟩
    simp only [relaySystem, relayReply, if_pos hz.lwfd_eq.symm, Option.map_eq_some_iff] at hreply
    obtain ⟨stream, hsend, rfl⟩ := hreply
    rw [hbuf] at hsend
    by_cases hcode : answer.code > 0
    · rw [if_pos hcode]
      refine safe_storeAfter (fun _ ↦ rfl) (fun _ ↦ rfl) ?_
      exact ⟨hz.nativeFd_eq, hz.lwfd_eq, hz.toAx.advance hcode hsend, hz.toNative⟩
    · rw [send_of_not_pos hsend hcode, if_neg hcode, safe_ite]
      split
      · exact safe_relayError _ hz
      · exact hz

theorem safe_flushToNative (locals : RelayLocals) (progress : Bool)
    (hx : PipedAt slot nativeFd lwfd locals x) :
    RelaySafe slot (flushToNative slot nativeFd locals progress)
      (StepHolds slot nativeFd lwfd) x := by
  rw [RelaySafe, flushToNative, Solo, safe_ite]
  split
  · exact hx
  · rename_i hlen
    refine safe_loadWaiting (fun _ ↦ rfl) (fun _ ↦ rfl) hx fun buf y hy hstable ↦ ?_
    rw [RelaySafe, Solo, native, safe_bind]
    refine solo_perform hstable hy fun z _ ⟨hz, hbuf⟩ ↦
      ⟨⟨hz.nativeFd_eq.symm, hz.toNative.shutdowns_eq_zero hlen⟩, fun answer w hreply ↦
        ⟨trivial, ?_⟩⟩
    simp only [relaySystem, relayReply, if_pos hz.nativeFd_eq.symm, Option.map_eq_some_iff] at hreply
    obtain ⟨stream, hsend, rfl⟩ := hreply
    rw [hbuf] at hsend
    by_cases hcode : answer.code > 0
    · rw [if_pos hcode]
      refine safe_storeAfter (fun _ ↦ rfl) (fun _ ↦ rfl) ?_
      exact ⟨hz.nativeFd_eq, hz.lwfd_eq, hz.toAx, hz.toNative.advance hcode hsend⟩
    · rw [send_of_not_pos hsend hcode, if_neg hcode, safe_ite]
      split
      · rw [safe_bind]
        refine safe_mono (safe_realSocketlasterr hz) fun error y hy ↦ ?_
        rw [safe_ite]
        split
        · exact hy
        · rw [safe_ite]
          split
          · exact fun hexit ↦ (nomatch hexit)
          · exact safe_relayError _ hy
      · exact hz

theorem receive_of_neg {stream stream' : Stream} {len : ℕ} {answer : ShimReply}
    (hreceive : stream.receive len answer = some stream') (hpos : ¬ answer.code > 0)
    (hzero : ¬ answer.code = 0) : stream' = stream := by
  rw [Stream.receive, if_neg hpos, if_neg hzero] at hreceive
  exact (Option.some.inj hreceive).symm

theorem receive_of_zero {stream stream' : Stream} {len : ℕ} {answer : ShimReply}
    (hreceive : stream.receive len answer = some stream') (hpos : ¬ answer.code > 0)
    (hzero : answer.code = 0) : stream' = { stream with ended := true } := by
  rw [Stream.receive, if_neg hpos, if_pos hzero] at hreceive
  exact (Option.some.inj hreceive).symm

theorem safe_pullFromNative (locals : RelayLocals) (progress : Bool)
    (hx : PipedAt slot nativeFd lwfd locals x) :
    RelaySafe slot (pullFromNative slot nativeFd locals progress)
      (StepHolds slot nativeFd lwfd) x := by
  rw [RelaySafe, pullFromNative, Solo, safe_ite]
  split
  · rename_i hpull
    rw [native, safe_bind]
    refine solo_perform (stable_pipedAt locals) hx fun z _ hz ↦
      ⟨trivial, fun answer w hreply ↦ ⟨trivial, ?_⟩⟩
    simp only [relaySystem, relayReply, if_pos hz.nativeFd_eq.symm, Option.map_eq_some_iff] at hreply
    obtain ⟨stream, hreceive, rfl⟩ := hreply
    by_cases hpos : answer.code > 0
    · rw [if_pos hpos]
      refine safe_storeAfter (fun _ ↦ rfl) (fun _ ↦ rfl) ?_
      exact ⟨hz.nativeFd_eq, hz.lwfd_eq, hz.toAx.fill hpull.1 hpull.2 hpos hreceive, hz.toNative⟩
    · rw [if_neg hpos, safe_ite]
      split
      · rename_i hzero
        rw [receive_of_zero hreceive hpos hzero]
        exact ⟨hz.nativeFd_eq, hz.lwfd_eq, hz.toAx.finish hpull.1, hz.toNative⟩
      · rename_i hneg
        rw [receive_of_neg hreceive hpos hneg, safe_bind]
        refine safe_mono (safe_realSocketlasterr hz) fun error y hy ↦ ?_
        rw [safe_ite]
        split
        · exact hy
        · rw [safe_bind]
          exact safe_mono (safe_realSocketlasterr hy) fun error y hy ↦ safe_relayError _ hy
  · exact hx

theorem safe_pullFromAx (locals : RelayLocals) (progress : Bool)
    (hx : PipedAt slot nativeFd lwfd locals x) :
    RelaySafe slot (pullFromAx slot lwfd locals progress) (StepHolds slot nativeFd lwfd) x := by
  rw [RelaySafe, pullFromAx, Solo, safe_ite]
  split
  · rename_i hpull
    rw [safe_bind]
    refine solo_perform (stable_pipedAt locals) hx fun z _ hz ↦
      ⟨trivial, fun answer w hreply ↦ ⟨trivial, ?_⟩⟩
    simp only [relaySystem, relayReply, if_pos hz.lwfd_eq.symm, Option.map_eq_some_iff] at hreply
    obtain ⟨stream, hreceive, rfl⟩ := hreply
    by_cases hpos : answer.code > 0
    · rw [if_pos hpos]
      refine safe_storeAfter (fun _ ↦ rfl) (fun _ ↦ rfl) ?_
      exact ⟨hz.nativeFd_eq, hz.lwfd_eq, hz.toAx, hz.toNative.fill hpull.1 hpull.2 hpos hreceive⟩
    · rw [if_neg hpos, safe_ite]
      split
      · rename_i hzero
        rw [receive_of_zero hreceive hpos hzero]
        exact ⟨hz.nativeFd_eq, hz.lwfd_eq, hz.toAx, hz.toNative.finish hpull.1⟩
      · rename_i hneg
        rw [receive_of_neg hreceive hpos hneg, safe_ite]
        split
        · exact safe_relayError _ hz
        · exact hz
  · exact hx

theorem safe_shutdownAx (locals : RelayLocals) (progress : Bool)
    (hx : PipedAt slot nativeFd lwfd locals x) :
    RelaySafe slot (shutdownAx lwfd locals progress) (StepHolds slot nativeFd lwfd) x := by
  rw [RelaySafe, shutdownAx, Solo, safe_ite]
  split
  · rename_i hfinished
    obtain ⟨hended, hempty, hfirst⟩ := hfinished
    simp only [ignore, safe_bind, safe_pure]
    refine solo_perform (stable_pipedAt locals) hx fun z _ hz ↦ ⟨⟨hz.lwfd_eq.symm, rfl, ?_,
      hz.toAx.delivered_of_ended hended hempty⟩, fun answer w hreply ↦ ⟨trivial, ?_⟩⟩
    · rw [hz.toAx.shutdowns, hfirst]
      rfl
    · simp only [relaySystem, relayReply] at hreply
      rw [if_pos ⟨hz.lwfd_eq.symm, trivial⟩] at hreply
      cases hreply
      exact ⟨hz.nativeFd_eq, hz.lwfd_eq, hz.toAx.shut hended hempty hfirst, hz.toNative⟩
  · exact hx

theorem safe_shutdownNative (locals : RelayLocals) (progress : Bool)
    (hx : PipedAt slot nativeFd lwfd locals x) :
    RelaySafe slot (shutdownNative nativeFd locals progress) (StepHolds slot nativeFd lwfd) x := by
  rw [RelaySafe, shutdownNative, Solo, safe_ite]
  split
  · rename_i hfinished
    obtain ⟨hended, hempty, hfirst⟩ := hfinished
    simp only [ignore, native, safe_bind, safe_pure]
    refine solo_perform (stable_pipedAt locals) hx fun z _ hz ↦ ⟨⟨hz.nativeFd_eq.symm, rfl, ?_,
      hz.toNative.delivered_of_ended hended hempty⟩, fun answer w hreply ↦ ⟨trivial, ?_⟩⟩
    · rw [hz.toNative.shutdowns, hfirst]
      rfl
    · simp only [relaySystem, relayReply] at hreply
      rw [if_pos ⟨hz.nativeFd_eq.symm, trivial⟩] at hreply
      cases hreply
      exact ⟨hz.nativeFd_eq, hz.lwfd_eq, hz.toAx, hz.toNative.shut hended hempty hfirst⟩
  · exact hx

theorem safe_relayRest (locals : RelayLocals) (progress : Bool)
    (hx : PipedAt slot nativeFd lwfd locals x) :
    RelaySafe slot (relayRest locals progress) (StepHolds slot nativeFd lwfd) x := by
  rw [RelaySafe, relayRest, Solo, safe_ite]
  split
  · rename_i hfinished
    obtain ⟨hnative, hax, htoAx, htoNative⟩ := hfinished
    exact fun _ ↦ ⟨hx.toAx.delivered_of_ended hnative htoAx,
      hx.toNative.delivered_of_ended hax htoNative⟩
  · rw [safe_bind, safe_when]
    split
    · simp only [ignore, os, safe_bind, safe_pure]
      refine solo_perform (stable_pipedAt locals) hx fun z _ hz ↦
        ⟨trivial, fun answer w hreply ↦ ⟨trivial, ?_⟩⟩
      cases hreply
      exact hz
    · exact hx

theorem safe_relayIteration (locals : RelayLocals) (hx : PipedAt slot nativeFd lwfd locals x) :
    RelaySafe slot (relayIteration slot nativeFd lwfd locals) (StepHolds slot nativeFd lwfd) x := by
  refine safe_andThen (safe_flushToAx locals false hx) fun l p y hy ↦ ?_
  refine safe_andThen (safe_pullFromNative l p hy) fun l p y hy ↦ ?_
  refine safe_andThen (safe_shutdownAx l p hy) fun l p y hy ↦ ?_
  refine safe_andThen (safe_flushToNative l p hy) fun l p y hy ↦ ?_
  refine safe_andThen (safe_pullFromAx l p hy) fun l p y hy ↦ ?_
  exact safe_andThen (safe_shutdownNative l p hy) fun l p y hy ↦ safe_relayRest l p hy

/-! ## The worker -/

/-- What a worker that left its loop as drained has done. -/
def ExitHolds (exit : RelayExit) (x : RelayMachine) : Prop :=
  exit = .drained → x.world.toAx.Delivered ∧ x.world.toNative.Delivered

theorem stable_exitHolds (exit : RelayExit) :
    EnvStable (relaySystem slot) (fun _ ↦ True) (ExitHolds exit) := by
  intro event y z _ hy henv
  cases event with
  | stop =>
    cases henv
    exact hy
  | detach =>
    cases henv
    exact hy

theorem safe_note {event : ShimNote} {assertion : RelayMachine → Prop}
    (hstable : EnvStable (relaySystem slot) (fun _ ↦ True) assertion) (hx : assertion x)
    (hpre : ∀ y, assertion y → relayPre slot (.note event) y) :
    RelaySafe slot (note event) (fun _ ↦ assertion) x := by
  rw [RelaySafe, note, Solo, safe_bind]
  refine solo_perform hstable hx fun y _ hy ↦ ⟨hpre y hy, fun answer z hreply ↦ ?_⟩
  cases hreply
  exact ⟨trivial, hy⟩

theorem HalfHolds.faithful {half : HalfPipe} {stream : Stream} {buffer : Memory}
    {counter : UInt64} (h : HalfHolds half stream buffer counter) :
    Faithful half stream buffer counter :=
  ⟨h.bytes, h.bound, h.counter_eq⟩

theorem safe_relayLoop (fuel : ℕ) (locals : RelayLocals)
    (hx : PipedAt slot nativeFd lwfd locals x) :
    RelaySafe slot (relayLoop slot nativeFd lwfd fuel locals) ExitHolds x := by
  induction fuel generalizing locals x with
  | zero => trivial
  | succ fuel ih =>
    rw [RelaySafe, relayLoop, Solo, safe_bind]
    refine safe_mono (safe_note (stable_pipedAt locals) hx fun y hy ↦
      ⟨hy.toAx.faithful, hy.toNative.faithful⟩) fun _ y hy ↦ ?_
    rw [safe_bind]
    refine solo_load (stable_pipedAt locals) hy fun z _ hz ↦ ?_
    rw [safe_ite]
    split
    · exact fun hexit ↦ (nomatch hexit)
    · rw [safe_bind]
      refine safe_mono (safe_relayIteration locals hz) fun step w hw ↦ ?_
      match step with
      | .error exit => exact hw
      | .ok (locals, _) => exact ih locals hw

theorem stable_relayReady :
    EnvStable (relaySystem slot) (fun _ ↦ True) (RelayReady slot) := by
  intro event y z _ hy henv
  cases event with
  | stop =>
    cases henv
    refine ⟨?_, ?_, ?_, ?_⟩
    all_goals rw [ShimState.setRelay_self]
    exacts [hy.ready, hy.nativeToAx, hy.axToNative, hy.world_eq]
  | detach =>
    cases henv
    refine ⟨?_, ?_, ?_, ?_⟩
    all_goals rw [ShimState.setRelay_self]
    exacts [hy.ready, hy.nativeToAx, hy.axToNative, hy.world_eq]

theorem safe_relayGoes (hx : RelayReady slot x) :
    RelaySafe slot (relayGoes slot) (fun _ ↦ RelayReady slot) x := by
  rw [RelaySafe, relayGoes, Solo, safe_bind]
  exact solo_load stable_relayReady hx fun y _ hy ↦ hy

theorem safe_relayWait (fuel : ℕ) (hx : RelayReady slot x) :
    RelaySafe slot (relayWait slot fuel) (fun _ ↦ RelayReady slot) x := by
  induction fuel generalizing x with
  | zero => trivial
  | succ fuel ih =>
    rw [RelaySafe, relayWait, Solo, safe_bind]
    refine solo_load stable_relayReady hx fun y _ hy ↦ ?_
    rw [safe_ite]
    split
    · exact safe_relayGoes hy
    · rw [safe_bind]
      refine solo_load stable_relayReady hy fun y _ hy ↦ ?_
      rw [if_pos hy.ready]
      exact safe_relayGoes hy

/-- The streams of a fresh relay are empty, and so are its buffers. -/
theorem RelayReady.piped (hx : RelayReady slot x) :
    PipedAt slot (x.mem.nsslRelays slot).nativeFd (x.mem.nsslRelays slot).lwfd {} x := by
  refine ⟨?_, ?_, ?_, ?_⟩
  · rw [hx.world_eq]
  · rw [hx.world_eq]
  · rw [hx.world_eq, id, hx.nativeToAx]
    exact .empty _ _
  · rw [hx.world_eq, id, hx.axToNative]
    exact .empty _ _

theorem stable_true : EnvStable (relaySystem slot) (fun _ ↦ True) fun _ ↦ True :=
  fun _ _ _ _ _ _ ↦ trivial

theorem safe_relayOut :
    RelaySafe slot (relayOut slot) (fun _ y ↦ (y.mem.nsslRelays slot).done = 1) x := by
  -- the two descriptors are closed in the same way
  have hclose : ∀ {fd : ℤ} {request : ShimCall} {update : NsslRelay → NsslRelay} (y : RelayMachine),
      (∀ z, relayPre slot request z) → RelaySafe slot (when (fd ≥ 0) do
        ignore (perform request)
        storeRelay slot update) (fun _ _ ↦ True) y := by
    intro fd request update y hpre
    rw [RelaySafe, Solo, safe_when]
    split
    · rw [safe_bind, ignore, safe_bind]
      refine solo_perform stable_true trivial fun z _ _ ↦ ⟨hpre z, fun _ w _ ↦ ⟨trivial, ?_⟩⟩
      change RelaySafe slot (storeRelay slot update) (fun _ _ ↦ True) w
      exact solo_store stable_true trivial fun _ _ _ ↦ ⟨trivial, trivial⟩
    · trivial
  rw [RelaySafe, relayOut, Solo, safe_bind]
  refine solo_load stable_true trivial fun y _ _ ↦ ?_
  rw [safe_bind]
  refine safe_mono (hclose y fun _ ↦ trivial) fun _ y _ ↦ ?_
  rw [safe_bind]
  refine solo_load stable_true trivial fun y _ _ ↦ ?_
  rw [safe_bind]
  refine safe_mono (hclose y fun _ ↦ trivial) fun _ y _ ↦ ?_
  rw [safe_bind]
  refine solo_store stable_true trivial fun y _ _ ↦ ⟨trivial, ?_⟩
  refine solo_store stable_true trivial fun y _ _ ↦ ⟨trivial, ?_⟩
  rw [ShimState.setRelay_self]

theorem safe_nsslRelayWorker (fuel : ℕ) (hx : RelayReady slot x) :
    RelaySafe slot (nsslRelayWorker slot fuel)
      (fun _ y ↦ (y.mem.nsslRelays slot).done = 1) x := by
  rw [RelaySafe, nsslRelayWorker, Solo, safe_bind]
  refine safe_mono (safe_relayWait fuel hx) fun ready y hy ↦ ?_
  rw [safe_bind, safe_when]
  split
  · rw [safe_bind]
    refine solo_load stable_relayReady hy fun z _ hz ↦ ?_
    rw [safe_bind]
    refine safe_mono (safe_relayLoop fuel {} hz.piped) fun exit w hw ↦ ?_
    refine safe_mono (safe_note (stable_exitHolds exit) hw fun _ h ↦ h) fun _ _ _ ↦ ?_
    exact safe_relayOut
  · exact safe_relayOut

end Worker

/-! ## Every run -/

abbrev RelayConfig := Config Unit ShimState RelayWorld ShimCall ShimReply

abbrev RelayAction := Action Unit ℕ RelayEvent ShimReply

/-- A worker that has not run yet finds its slot ready. -/
theorem relaySystem_verified {slot : ℕ} {x : RelayMachine} (hx : RelayReady slot x) :
    Verified (relaySystem slot) x (fun _ ↦ True)
      (fun _ ↦ Interference (relaySystem slot) fun _ ↦ True) (fun _ ↦ relayPre slot)
      (fun _ y ↦ (y.mem.nsslRelays slot).done = 0 → RelayReady slot y) := by
  refine solo_verified ?_ (fun _ _ _ _ _ _ ↦ trivial) ?_ trivial fun _ ↦ hx
  · intro event y z htrue hy henv hdone
    refine stable_relayReady event y z htrue (hy ?_) henv
    cases event with
    | stop =>
      cases henv
      rw [ShimState.setRelay_self] at hdone
      exact hdone
    | detach =>
      cases henv
      rw [ShimState.setRelay_self] at hdone
      exact hdone
  · intro fuel y _ hy henabled
    refine safe_mono (safe_nsslRelayWorker fuel (hy (of_decide_eq_true henabled))) fun _ z hz h ↦ ?_
    rw [hz] at h
    exact absurd h Int.one_ne_zero

/-- In every run of a relay worker whose slot is ready, each call finds what `relayPre` says: the
loop heads see faithful pipes, each sink is shut down at most once and only after everything was
delivered, and a drained loop has delivered both streams. -/
theorem relaySystem_faithful {slot : ℕ} {x : RelayMachine} {actions : List RelayAction}
    {c : RelayConfig} {request : ShimCall} {next : ShimReply → ShimM Unit} (hx : RelayReady slot x)
    (hrun : (relaySystem slot).run (System.start x) actions = some c)
    (hcall : c.threads () = some (.call request next)) : relayPre slot request c.machine :=
  (relaySystem_verified hx).call_pre hrun hcall

/-- A relay between the descriptors 5 and 1. -/
def readyRelay : RelayMachine where
  mem := ShimState.setRelay {} 0 fun r ↦ { r with ready := 1, nativeFd := 5, lwfd := 1 }
  world := { nativeFd := 5, lwfd := 1 }

def relaySteps (count : ℕ) : List RelayAction := List.replicate count (.step ())

def relayAnswer (code : ℤ) (bytes : List UInt8) : List RelayAction :=
  [.answer () { code := code, bytes := bytes }]

/-- One byte from NSSL, the end of the server's stream, then the end of NSSL's. -/
def scheduleDrain : List RelayAction :=
  .start () 2 :: relaySteps 4 ++
    (relayAnswer 0 [] ++ relaySteps 1 ++ relayAnswer 1 [7] ++ relaySteps 1 ++ relayAnswer 0 [] ++
      relayAnswer 0 []) ++
    (relayAnswer 0 [] ++ relaySteps 2 ++ relayAnswer 1 [] ++ relaySteps 1 ++ relayAnswer 0 [] ++
      relayAnswer 0 [])

/-- Whether a thread is about to report that it drained both streams. -/
def reportsDrained : Option (ShimM Unit) → Bool
  | some (.call (.note (.relayEnd _ .drained)) _) => true
  | _ => false

theorem relaySystem_faithful_drained :
    ∃ c, (relaySystem 0).run (System.start readyRelay) scheduleDrain = some c ∧
      reportsDrained (c.threads ()) = true ∧ c.machine.world.toAx.accepted = [7] ∧
      c.machine.world.toAx.Delivered ∧ c.machine.world.toNative.Delivered := by
  have hend : ((relaySystem 0).run (System.start readyRelay) scheduleDrain).map
      (fun c ↦ (reportsDrained (c.threads ()), c.machine.world.toAx.accepted)) =
        some (true, [7]) := rfl
  obtain ⟨c, hrun, hc⟩ := Option.map_eq_some_iff.mp hend
  obtain ⟨hreports, haccepted⟩ := Prod.mk.inj hc
  have hready : RelayReady 0 readyRelay := ⟨Int.one_ne_zero, rfl, rfl, rfl⟩
  refine ⟨c, hrun, hreports, haccepted, ?_⟩
  simp only [reportsDrained] at hreports
  split at hreports
  · rename_i hcall
    exact relaySystem_faithful hready hrun hcall rfl
  · cases hreports

end Ax88179Aroma.Shim
