import Ax88179Aroma.Net.Interface

/-!
# What lwIP asks of the interface

The rules of lwIP's raw API that `net/ax_net.c` lives by.  The core lock guards every change of the
interface and is never held on the way to the adapter; an interface is added only when it is not in
lwIP's list and removed only when it is, with its DHCP client stopped and cleaned up; a packet buffer
is handed over or freed, and both at most once.  `tcpip_shutdown` waits 100 ms for the stack thread
and may give up on it, and a failed `dhcp_start` may or may not have attached a client.

`StackWorld` is lwIP's side as far as these rules read it, and the packet buffer in the hands of the
worker with its contents.  The frames that came from the adapter and those that lwIP took are kept
since lwIP's statics were reset.
-/

namespace Ax88179Aroma.Net

open Effect Program

inductive DhcpPhase where
  | absent
  | stopped
  | running
  /-- `dhcp_start` failed: without a client or with one that does not run -/
  | failed
  deriving DecidableEq, Repr

structure StackWorld where
  /-- `tcpip_init` has started the stack thread, and no `tcpip_shutdown` has seen its end -/
  alive : Bool := false
  /-- the last `tcpip_shutdown` gave up on the stack thread -/
  stuck : Bool := false
  /-- the worker holds the core lock -/
  locked : Bool := false
  listed : Bool := false
  isUp : Bool := false
  linkUp : Bool := false
  dhcp : DhcpPhase := .absent
  pbuf : Option (ℤ × List UInt8) := none
  received : List (List UInt8) := []
  delivered : List (List UInt8) := []

abbrev StackMachine := Machine NetState StackWorld

/-- What the calls answer and do.  Only the answers that tell lwIP's state are restricted. -/
def stackReply : Replies NetState StackWorld NetCall NetReply
  | .tcpipInit, _, x => some { x with world := { x.world with alive := true } }
  | .tcpipShutdown, answer, x =>
    some { x with world := { x.world with
      alive := decide (answer.code ≠ 0), stuck := decide (answer.code ≠ 0) } }
  | .lwipPortResetAll, _, x => some { x with world := {} }
  | .lockTcpipCore, _, x => some { x with world := { x.world with locked := true } }
  | .unlockTcpipCore, _, x => some { x with world := { x.world with locked := false } }
  | .netifAdd ax, answer, x =>
    some
      { mem := { x.mem with ifaceState := ax }
        world :=
          if answer.code = 0 then x.world
          else { x.world with listed := true, isUp := false, linkUp := false } }
  | .netifRemove, _, x => some { x with world := { x.world with listed := false } }
  | .netifSetUp, _, x => some { x with world := { x.world with isUp := true } }
  | .netifSetDown, _, x => some { x with world := { x.world with isUp := false } }
  | .netifSetLinkUp, _, x => some { x with world := { x.world with linkUp := true } }
  | .netifSetLinkDown, _, x => some { x with world := { x.world with linkUp := false } }
  | .netifDhcpData, answer, x =>
    if x.world.dhcp = .failed ∨ (answer.code ≠ 0 ↔ x.world.dhcp ≠ .absent) then some x else none
  | .netifIsLinkUp, answer, x =>
    if answer.code ≠ 0 ↔ x.world.linkUp = true then some x else none
  | .dhcpStart, answer, x =>
    some { x with world := { x.world with
      dhcp := if answer.code = errOk then .running else .failed } }
  | .dhcpStop, _, x => some { x with world := { x.world with dhcp := .stopped } }
  | .dhcpReleaseAndStop, _, x => some { x with world := { x.world with dhcp := .stopped } }
  | .dhcpCleanup, _, x => some { x with world := { x.world with dhcp := .absent } }
  | .ax88179Receive _ _ _, answer, x =>
    if answer.code > 0 then
      some { x with world := { x.world with
        received := x.world.received ++ [answer.bytes.slice 0 answer.code.toNat] } }
    else some x
  | .pbufAlloc _, answer, x =>
    if answer.code = 0 then some x
    else some { x with world := { x.world with pbuf := some (answer.code, []) } }
  | .pbufTake p bytes, answer, x =>
    if answer.code = errOk then some { x with world := { x.world with pbuf := some (p, bytes) } }
    else some x
  | .ifaceInput _, answer, x =>
    if answer.code = errOk then
      some { x with world := { x.world with
        pbuf := none
        delivered := x.world.delivered ++ (x.world.pbuf.map Prod.snd).toList } }
    else some x
  | .pbufFree _, _, x => some { x with world := { x.world with pbuf := none } }
  | _, _, x => some x

/-- The core lock is held and the interface is in lwIP's list. -/
def StackWorld.Held (w : StackWorld) : Prop := w.locked = true ∧ w.listed = true

/-- The rule for each call of the worker. -/
def stackPre : NetCall → StackMachine → Prop
  | .osSendMessage _, _ => False
  | .osReceiveMessage, x => x.world.locked = false
  | .tcpipInit, x => x.world.locked = false ∧ x.world.alive = false
  | .tcpipShutdown, x => x.world.locked = false ∧ x.world.alive = true
  | .lwipPortResetAll, x => x.world.locked = false ∧ x.world.alive = false
  | .lockTcpipCore, x => x.world.locked = false ∧ x.world.alive = true
  | .unlockTcpipCore, x => x.world.locked = true
  | .sysNow, _ => True
  | .sysTimeout _, x => x.world.Held
  | .netifAdd ax, x =>
    x.world.locked = true ∧ x.world.listed = false ∧ x.world.dhcp = .absent ∧ ax ≠ 0
  | .netifRemove, x => x.world.Held ∧ x.world.dhcp = .absent
  | .netifSetDefault, x => x.world.Held
  | .netifSetUp, x => x.world.Held
  | .netifSetDown, x => x.world.Held
  | .netifSetLinkUp, x => x.world.Held
  | .netifSetLinkDown, x => x.world.Held
  | .netifSetAddr _ _ _, x => x.world.Held ∧ x.world.dhcp = .absent
  | .netifDhcpData, x => x.world.listed = true
  | .netifIsLinkUp, x => x.world.listed = true
  | .netifIp4Addr, x => x.world.listed = true
  | .netifIp4Netmask, x => x.world.listed = true
  | .netifIp4Gw, x => x.world.listed = true
  | .dhcpSuppliedAddress, x => x.world.listed = true
  | .dhcpStart, x => x.world.Held ∧ x.world.isUp = true ∧ x.world.dhcp = .absent
  | .dhcpStop, x => x.world.Held ∧ x.world.dhcp = .running
  | .dhcpReleaseAndStop, x => x.world.Held ∧ x.world.dhcp = .running
  | .dhcpCleanup, x => x.world.Held ∧ (x.world.dhcp = .stopped ∨ x.world.dhcp = .failed)
  | .pbufAlloc length, x =>
    x.world.locked = false ∧ x.world.alive = true ∧ x.world.pbuf = none ∧
      x.world.received.getLast?.map List.length = some length
  | .pbufTake p bytes, x =>
    (∃ old, x.world.pbuf = some (p, old)) ∧ x.world.received.getLast? = some bytes
  | .ifaceInput p, x =>
    x.world.locked = false ∧ x.world.alive = true ∧ x.world.listed = true ∧
      ∃ bytes, x.world.pbuf = some (p, bytes) ∧ x.world.received.getLast? = some bytes
  | .pbufFree p, x => ∃ bytes, x.world.pbuf = some (p, bytes)
  | .ax88179Link ax, x => x.world.locked = false ∧ ax ≠ 0
  | .ax88179Send ax _, x =>
    x.world.locked = false ∧ x.world.listed = true ∧ ax = x.mem.ifaceState
  | .ax88179Receive ax length _, x =>
    x.world.locked = false ∧ x.world.listed = true ∧ ax = x.mem.ifaceState ∧ length = rxFrameSize
  | .ax88179LastBulk _, x => x.world.locked = false
  | .ax88179LastBulkUs _, x => x.world.locked = false

abbrev stackWp {α : Type} (program : NetM α) (post : α → StackMachine → Prop) (x : StackMachine) :
    Prop :=
  wp stackReply stackPre program post x

/-! ## The state between two calls -/

/-- The counters tell the frames that came and those that lwIP took, which are among them and in
their order. -/
structure Counted (s : NetState) (received delivered : List (List UInt8)) : Prop where
  rxOk : s.statRxOk = UInt32.ofNat received.length
  inOk : s.statInOk = UInt32.ofNat delivered.length
  inDrop : s.statInDrop = UInt32.ofNat (received.length - delivered.length)
  ordered : delivered.Sublist received

/-- The static data mirrors lwIP's state.  Whether the interface is active is left open. -/
structure Mirrored (s : NetState) (w : StackWorld) : Prop where
  unlocked : w.locked = false
  alive : s.initialized ≠ 0 ↔ w.alive = true
  inList : s.netifInList ≠ 0 ↔ w.listed = true
  serving : w.listed = true → w.alive = true ∧ w.isUp = true ∧ s.ifaceState ≠ 0
  linkUp : w.listed = true → (s.lastLinkUp ≠ 0 ↔ w.linkUp = true)
  dhcp : w.listed = true →
    w.dhcp = if s.currentUsingCachedLease = 0 then .running else .absent
  noDhcp : w.listed = false → w.dhcp = .absent
  empty : w.pbuf = none
  counted : Counted s w.received w.delivered

/-- lwIP lives as long as the module believes, and the interface is active while it is listed. -/
structure Live (x : StackMachine) : Prop extends Mirrored x.mem x.world where
  active : x.mem.active ≠ 0 ↔ x.world.listed = true

/-- A new process: the stack thread of the previous title is gone with its lock, and the static data
of lwIP and of the module is what that title left. -/
structure Stale (x : StackMachine) : Prop where
  unlocked : x.world.locked = false
  dead : x.world.alive = false

/-- The stack thread is gone, unless `tcpip_shutdown` gave up on it. -/
structure Departed (x : StackMachine) : Prop where
  unlocked : x.world.locked = false
  gone : x.world.alive = true → x.world.stuck = true

/-- The module has let go of lwIP at the end of a title. -/
structure Abandoned (x : StackMachine) : Prop extends Departed x where
  forgotten : x.mem.initialized = 0 ∧ x.mem.active = 0 ∧ x.mem.netifInList = 0

theorem Stale.departed {x : StackMachine} (h : Stale x) : Departed x where
  unlocked := h.unlocked
  gone halive := absurd (h.dead.symm.trans halive) Bool.false_ne_true

end Ax88179Aroma.Net
