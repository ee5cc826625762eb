import Ax88179Aroma.Driver.Open

/-!
# The registers behind the cached medium

The adapter as `ax88179_link` sees it: a byte-addressed file of MAC registers, which a successful
write changes and a failed one leaves alone, and PHY registers that may read as anything.
`ax->medium` caches what the driver believes to be programmed, and a negotiated medium equal to the
cache is not programmed again.
-/

namespace Ax88179Aroma.Driver

open Effect Program

/-! ## The adapter -/

/-- Overwrite the registers from `first` on. -/
def writeRegisters (regs : Memory) (first : ℕ) (data : List UInt8) : Memory :=
  fun reg ↦ if first ≤ reg ∧ reg < first + data.length then data.getD (reg - first) 0 else regs reg

/-- A little-endian register of two bytes. -/
def registerWord (regs : Memory) (reg : ℕ) : ℕ :=
  (regs reg).toNat ||| (regs (reg + 1)).toNat <<< 8

/-- The MAC registers, and what the current `ax88179_link` call has read from the PHY and written to
`AX_MEDIUM_STATUS_MODE` so far. -/
structure Adapter where
  regs : Memory
  bmsr : Option ℕ := none
  status : Option ℕ := none
  mediumWrite : Option ℕ := none

namespace Adapter

def medium (adapter : Adapter) : ℕ := registerWord adapter.regs axMediumStatusMode

def rxCtl (adapter : Adapter) : ℕ := registerWord adapter.regs axRxCtl

/-- A new call of `ax88179_link` begins. -/
def beginCall (adapter : Adapter) : Adapter := { regs := adapter.regs }

/-- A successful read of a PHY register. -/
def readPhy (adapter : Adapter) (reg value : ℕ) : Adapter :=
  if reg = 1 then { adapter with bmsr := some value }
  else if reg = 0x11 then { adapter with status := some value }
  else adapter

/-- A successful write of MAC registers. -/
def writeMac (adapter : Adapter) (first : ℕ) (data : List UInt8) : Adapter where
  regs := writeRegisters adapter.regs first data
  bmsr := adapter.bmsr
  status := adapter.status
  mediumWrite :=
    if first = axMediumStatusMode then some (registerWord (Memory.ofList data) 0)
    else adapter.mediumWrite

/-- A control transfer; one that does not move `size` bytes has no effect. -/
def transfer (adapter : Adapter) (read : Bool) (cmd value index size : ℕ) (data : List UInt8)
    (answer : UhsReply) : Adapter :=
  if answer.code ≠ size then adapter
  else match read with
  | true => if cmd = axAccessPhy then adapter.readPhy index (registerWord answer.bytes 0) else adapter
  | false => if cmd = axAccessMac then adapter.writeMac value data else adapter

/-- The medium that the PHY asks for, when the registers of this call say that the link is up. -/
def negotiated (adapter : Adapter) : Option ℕ :=
  match adapter.bmsr, adapter.status with
  | some bmsr, some status =>
    if bmsr = 0xffff ∨ status = 0xffff then none
    else if bmsr &&& 4 = 0 ∨ bmsr &&& 0x20 = 0 ∨ status &&& 0x400 = 0 then none
    else some (linkMedium status)
  | _, _ => none

end Adapter

abbrev AdapterMachine := Machine DriverState Adapter

def adapterReply : Replies DriverState Adapter UhsCall UhsReply
  | .submitControlRequest read cmd value index size data, answer, x =>
    some { x with world := x.world.transfer read cmd value index size data answer }
  | _, _, x => some x

/-- Only completed executions matter here, so no call has a precondition. -/
abbrev adapterWp {α : Type} (program : DriverM α) (post : α → AdapterMachine → Prop)
    (x : AdapterMachine) : Prop :=
  wp adapterReply (fun _ _ ↦ True) program post x

/-! ### Words and writes -/

/-- The two bytes of a word as `mac_write16` sends them. -/
def wordBytes (value : ℕ) : List UInt8 :=
  [UInt8.ofNat (value &&& 0xFF), UInt8.ofNat (value >>> 8)]

theorem word_of_bytes {value : ℕ} (hvalue : value < 2 ^ 16) :
    (UInt8.ofNat (value &&& 0xFF)).toNat ||| (UInt8.ofNat (value >>> 8)).toNat <<< 8 = value := by
  have hlow : (UInt8.ofNat (value &&& 0xFF)).toNat = value % 2 ^ 8 := by
    rw [Nat.and_two_pow_sub_one_eq_mod value 8, UInt8.toNat_ofNat', Nat.mod_mod]
  have hhigh : (UInt8.ofNat (value >>> 8)).toNat = value / 2 ^ 8 := by
    rw [UInt8.toNat_ofNat', Nat.shiftRight_eq_div_pow, Nat.mod_eq_of_lt]
    omega
  have hadd := Nat.shiftLeft_add_eq_or_of_lt (Nat.mod_lt value (Nat.two_pow_pos 8)) (value / 2 ^ 8)
  rw [hlow, hhigh, Nat.or_comm, ← hadd, Nat.shiftLeft_eq]
  omega

theorem registerWord_wordBytes {value : ℕ} (hvalue : value < 2 ^ 16) :
    registerWord (Memory.ofList (wordBytes value)) 0 = value :=
  word_of_bytes hvalue

theorem registerWord_write {value : ℕ} (regs : Memory) (reg : ℕ) (hvalue : value < 2 ^ 16) :
    registerWord (writeRegisters regs reg (wordBytes value)) reg = value := by
  have hfirst : writeRegisters regs reg (wordBytes value) reg = UInt8.ofNat (value &&& 0xFF) := by
    simp [writeRegisters, wordBytes]
  have hsecond : writeRegisters regs reg (wordBytes value) (reg + 1) =
      UInt8.ofNat (value >>> 8) := by
    simp [writeRegisters, wordBytes]
  rw [registerWord, hfirst, hsecond]
  exact word_of_bytes hvalue

/-- A write elsewhere leaves the register alone. -/
theorem registerWord_write_of_disjoint (regs : Memory) {reg first : ℕ} {data : List UInt8}
    (hdisjoint : reg + 1 < first ∨ first + data.length ≤ reg) :
    registerWord (writeRegisters regs first data) reg = registerWord regs reg := by
  have hbyte : ∀ k ≤ 1, writeRegisters regs first data (reg + k) = regs (reg + k) := by
    intro k hk
    exact if_neg (by omega)
  rw [registerWord, registerWord, hbyte 1 le_rfl]
  exact congrArg (fun byte : UInt8 ↦ byte.toNat ||| _) (hbyte 0 (Nat.zero_le 1))

namespace Adapter

variable (adapter : Adapter)

@[simp]
theorem negotiated_writeMac (first : ℕ) (data : List UInt8) :
    (adapter.writeMac first data).negotiated = adapter.negotiated := rfl

@[simp]
theorem status_writeMac (first : ℕ) (data : List UInt8) :
    (adapter.writeMac first data).status = adapter.status := rfl

theorem medium_writeMac_medium {value : ℕ} (hvalue : value < 2 ^ 16) :
    (adapter.writeMac axMediumStatusMode (wordBytes value)).medium = value :=
  registerWord_write _ _ hvalue

theorem mediumWrite_writeMac_medium {value : ℕ} (hvalue : value < 2 ^ 16) :
    (adapter.writeMac axMediumStatusMode (wordBytes value)).mediumWrite = some value :=
  congrArg some (registerWord_wordBytes hvalue)

theorem mediumWrite_writeMac_of_ne {first : ℕ} (hne : first ≠ axMediumStatusMode)
    (data : List UInt8) : (adapter.writeMac first data).mediumWrite = adapter.mediumWrite :=
  if_neg hne

theorem rxCtl_writeMac_rxCtl {value : ℕ} (hvalue : value < 2 ^ 16) :
    (adapter.writeMac axRxCtl (wordBytes value)).rxCtl = value :=
  registerWord_write _ _ hvalue

theorem medium_writeMac_of_disjoint {first : ℕ} {data : List UInt8}
    (hdisjoint : axMediumStatusMode + 1 < first ∨ first + data.length ≤ axMediumStatusMode) :
    (adapter.writeMac first data).medium = adapter.medium :=
  registerWord_write_of_disjoint _ hdisjoint

theorem rxCtl_writeMac_of_disjoint {first : ℕ} {data : List UInt8}
    (hdisjoint : axRxCtl + 1 < first ∨ first + data.length ≤ axRxCtl) :
    (adapter.writeMac first data).rxCtl = adapter.rxCtl :=
  registerWord_write_of_disjoint _ hdisjoint

end Adapter

/-! ### Register access -/

section Access

variable {post : Option Memory → AdapterMachine → Prop} {x : AdapterMachine}

/-- A control transfer succeeds exactly with the full byte count. -/
theorem wp_control {read : Bool} {cmd value index size : ℕ} {data : List UInt8}
    (hsize : ¬ (size = 0 ∨ size > 64))
    (hpost : ∀ answer : UhsReply, post (if answer.code = size then some answer.bytes else none)
      { x with world := x.world.transfer read cmd value index size data answer }) :
    adapterWp (control read cmd value index size data) post x := by
  rw [adapterWp, control, if_neg hsize, wp_bind, wp_perform]
  refine ⟨trivial, fun answer y hreply ↦ ?_⟩
  cases hreply
  have hanswer := hpost answer
  by_cases hcode : answer.code = size
  · rw [if_pos hcode] at hanswer
    rw [if_neg (by omega), if_neg (not_not.mpr hcode)]
    exact hanswer
  · rw [if_neg hcode] at hanswer
    split <;> exact hanswer

theorem wp_regWrite {reg size : ℕ} {data : List UInt8} (hsize : ¬ (size = 0 ∨ size > 64))
    (hfail : post none x)
    (hwritten : ∀ bytes, post (some bytes) { x with world := x.world.writeMac reg data }) :
    adapterWp (regWrite axAccessMac reg size data) post x := by
  refine wp_control hsize fun answer ↦ ?_
  by_cases hcode : answer.code = size
  · simpa [Adapter.transfer, hcode] using hwritten answer.bytes
  · simpa [Adapter.transfer, hcode] using hfail

/-- The next step of a sequence of writes. -/
theorem wp_allDone_write {reg size : ℕ} {data : List UInt8} {rest : List (DriverM (Option Memory))}
    {post : Bool → AdapterMachine → Prop} (hsize : ¬ (size = 0 ∨ size > 64))
    (hfail : post false x)
    (hrest : adapterWp (allDone rest) post { x with world := x.world.writeMac reg data }) :
    adapterWp (allDone (regWrite axAccessMac reg size data :: rest)) post x := by
  rw [adapterWp, allDone, wp_bind]
  exact wp_regWrite hsize hfail fun _ ↦ hrest

theorem wp_macWrite16 {reg value : ℕ} (hfail : post none x)
    (hwritten : ∀ bytes,
      post (some bytes) { x with world := x.world.writeMac reg (wordBytes value) }) :
    adapterWp (macWrite16 reg value) post x :=
  wp_regWrite (by decide) hfail hwritten

/-- Reads outside the PHY leave no trace. -/
theorem wp_read {cmd value index size : ℕ} (hsize : ¬ (size = 0 ∨ size > 64))
    (hcmd : cmd ≠ axAccessPhy) (hpost : ∀ result, post result x) :
    adapterWp (control true cmd value index size []) post x := by
  refine wp_control hsize fun answer ↦ ?_
  have hworld : x.world.transfer true cmd value index size [] answer = x.world := by
    simp [Adapter.transfer, hcmd]
  rw [hworld]
  exact hpost _

theorem wp_readPhy {reg : ℕ} {post : Option ℕ → AdapterMachine → Prop} (hfail : post none x)
    (hread : ∀ value, post (some value) { x with world := x.world.readPhy reg value }) :
    adapterWp (ax88179ReadPhy reg) post x := by
  rw [adapterWp, ax88179ReadPhy, wp_bind]
  refine wp_control (by decide) fun answer ↦ ?_
  by_cases hcode : answer.code = (2 : ℕ)
  · rw [if_pos hcode, Adapter.transfer, if_neg (not_not.mpr hcode)]
    exact hread _
  · rw [if_neg hcode, Adapter.transfer, if_pos hcode]
    exact hfail

end Access

/-! ## Runs -/

/-- One `ax88179_link` call: the cached medium before it, its return value, and the adapter when it
returned. -/
structure LinkCall where
  cached : ℕ
  ret : ℤ
  adapter : Adapter

namespace LinkCall

/-- The returned link state agrees with the registers. -/
def Agrees (call : LinkCall) : Prop :=
  (call.ret = 1 → ∃ status, call.adapter.status = some status ∧
    call.adapter.medium = linkMedium status ∧ call.adapter.rxCtl = rxCtlDefault) ∧
  (call.ret = 0 → call.adapter.medium = 0)

/-- With a medium programmed, the call cleared the register for another one, and this is the last
write of the register that succeeded. -/
def Torn (call : LinkCall) : Prop :=
  call.cached ≠ 0 ∧ call.adapter.negotiated ≠ none ∧ call.adapter.mediumWrite = some 0

instance (call : LinkCall) : Decidable call.Torn :=
  inferInstanceAs (Decidable (_ ∧ _ ∧ _))

/-- The PHY asks for the cached medium. -/
def Returns (call : LinkCall) : Prop := call.adapter.negotiated = some call.cached

end LinkCall

/-- Some call was torn, and none since then has written the medium register. -/
def staleMedium (calls : List LinkCall) : Bool :=
  calls.foldl (fun stale call ↦
    if call.Torn then true else if call.adapter.mediumWrite = none then stale else false) false

/-! ### What one call can do -/

/-- The outcome of one `ax88179_link` call between the machines `x` and `y`. -/
inductive LinkOutcome (x y : AdapterMachine) : ℤ → Prop where
  /-- Nothing was written: the PHY or the first transfer of a change failed. -/
  | kept (hmedium : y.mem.ax.medium = x.mem.ax.medium) (hregs : y.world.regs = x.world.regs)
      (hwrite : y.world.mediumWrite = none)
      (hchange : y.world.negotiated ≠ some x.mem.ax.medium) : LinkOutcome x y (-1)
  /-- The link is down and so is the MAC. -/
  | down (hmedium : y.mem.ax.medium = 0) (hnegotiated : y.world.negotiated = none)
      (hregs : x.mem.ax.medium = 0 ∧ y.world.regs = x.world.regs ∧ y.world.mediumWrite = none ∨
        x.mem.ax.medium ≠ 0 ∧ y.world.medium = 0 ∧ y.world.mediumWrite = some 0) :
      LinkOutcome x y 0
  /-- The cached medium is trusted. -/
  | trusted (hmedium : y.mem.ax.medium = x.mem.ax.medium) (hregs : y.world.regs = x.world.regs)
      (hwrite : y.world.mediumWrite = none)
      (hnegotiated : y.world.negotiated = some x.mem.ax.medium) : LinkOutcome x y 1
  /-- Another medium was programmed. -/
  | changed (hnegotiated : y.world.negotiated = some y.mem.ax.medium)
      (hchange : y.mem.ax.medium ≠ x.mem.ax.medium) (hregister : y.world.medium = y.mem.ax.medium)
      (hrxCtl : y.world.rxCtl = rxCtlDefault)
      (hwrite : y.world.mediumWrite = some y.mem.ax.medium) : LinkOutcome x y 1
  /-- A change failed after the register was cleared. -/
  | torn (hmedium : y.mem.ax.medium = x.mem.ax.medium) (hnegotiated : y.world.negotiated ≠ none)
      (hchange : y.world.negotiated ≠ some x.mem.ax.medium) (hregister : y.world.medium = 0)
      (hwrite : y.world.mediumWrite = some 0) : LinkOutcome x y (-1)

theorem linkMedium_lt (status : ℕ) : linkMedium status < 2 ^ 16 := by
  unfold linkMedium
  split <;> split <;> split <;> decide

theorem linkMedium_ne_zero (status : ℕ) : linkMedium status ≠ 0 := by
  unfold linkMedium
  split <;> split <;> split <;> decide

theorem wp_waitTxFifo {tries : ℕ} {post : Bool → AdapterMachine → Prop} {x : AdapterMachine}
    (hpost : ∀ ready, post ready x) : adapterWp (waitTxFifo tries) post x := by
  induction tries with
  | zero => exact hpost false
  | succ tries ih =>
    rw [adapterWp, waitTxFifo, wp_bind]
    refine wp_read (by decide) (by decide) fun fifo ↦ ?_
    cases fifo with
    | none => exact hpost false
    | some bytes =>
      rw [wp_ite]
      split
      · exact hpost true
      · rw [wp_bind, wp_perform]
        refine ⟨trivial, fun answer y hreply ↦ ?_⟩
        cases hreply
        exact ih

/-- The medium register was cleared and nothing but registers differs from `x`. -/
structure Cleared (x y : AdapterMachine) : Prop where
  mem : y.mem = x.mem
  negotiated : y.world.negotiated = x.world.negotiated
  medium : y.world.medium = 0
  mediumWrite : y.world.mediumWrite = some 0

theorem cleared_first (x : AdapterMachine) :
    Cleared x { x with world := x.world.writeMac axMediumStatusMode (wordBytes 0) } where
  mem := rfl
  negotiated := rfl
  medium := x.world.medium_writeMac_medium (by decide)
  mediumWrite := x.world.mediumWrite_writeMac_medium (by decide)

/-- Registers outside the medium may be written meanwhile. -/
theorem Cleared.writeMac {x y : AdapterMachine} (h : Cleared x y) (first : ℕ) (data : List UInt8)
    (hdisjoint : axMediumStatusMode + 1 < first ∨ first + data.length ≤ axMediumStatusMode)
    (hne : first ≠ axMediumStatusMode) :
    Cleared x { y with world := y.world.writeMac first data } where
  mem := h.mem
  negotiated := h.negotiated
  medium := (y.world.medium_writeMac_of_disjoint hdisjoint).trans h.medium
  mediumWrite := (y.world.mediumWrite_writeMac_of_ne hne data).trans h.mediumWrite

/-- The receiver is stopped, its queue set up, and the receiver started again. -/
theorem wp_restartReceiver {x y : AdapterMachine} (hcleared : Cleared x y) (speed usb : ℕ)
    {post : Bool → AdapterMachine → Prop} (hfail : ∀ z, Cleared x z → post false z)
    (hdone : ∀ z, Cleared x z → z.world.rxCtl = rxCtlDefault → post true z) :
    adapterWp (allDone [macWrite16 axRxCtl 0,
      regWrite axAccessMac axRxBulkinQctrl 5 (linkQueue speed usb),
      macWrite16 axRxCtl rxCtlDefault]) post y := by
  have hstopped := hcleared.writeMac axRxCtl (wordBytes 0) (.inr (by decide)) (by decide)
  have hqueued := hstopped.writeMac axRxBulkinQctrl (linkQueue speed usb) (.inl (by decide))
    (by decide)
  have hstarted := hqueued.writeMac axRxCtl (wordBytes rxCtlDefault) (.inr (by decide)) (by decide)
  refine wp_allDone_write (by decide) (hfail _ hcleared) ?_
  refine wp_allDone_write (by decide) (hfail _ hstopped) ?_
  refine wp_allDone_write (by decide) (hfail _ hqueued) ?_
  exact hdone _ hstarted (Adapter.rxCtl_writeMac_rxCtl _ (by decide))

/-- From the clearing write on every failure leaves the register cleared. -/
theorem wp_changeMedium {x : AdapterMachine} (speed : ℕ) {medium : ℕ} (hmedium : medium < 2 ^ 16)
    {post : ℤ → AdapterMachine → Prop} (hkept : post (-1) x)
    (htorn : ∀ y, Cleared x y → post (-1) y)
    (hdone : ∀ y : AdapterMachine, y.mem.ax.medium = medium →
      y.world.negotiated = x.world.negotiated → y.world.medium = medium →
      y.world.rxCtl = rxCtlDefault → y.world.mediumWrite = some medium → post 1 y) :
    adapterWp (changeMedium speed medium) post x := by
  rw [adapterWp, changeMedium, wp_bind]
  refine wp_read (by decide) (by decide) fun usb ↦ ?_
  cases usb with
  | none => exact hkept
  | some bytes =>
    rw [wp_bind]
    refine wp_allDone_write (by decide) hkept ?_
    refine wp_restartReceiver (cleared_first x) speed _ (fun y hy ↦ htorn y hy) fun y hy hrxCtl ↦ ?_
    rw [if_neg (by decide), wp_bind]
    refine wp_waitTxFifo fun ready ↦ ?_
    cases ready with
    | false => exact htorn y hy
    | true =>
      rw [if_neg (by decide), wp_bind]
      refine wp_macWrite16 (htorn y hy) fun _ ↦ ?_
      refine hdone _ rfl hy.negotiated (Adapter.medium_writeMac_medium _ hmedium) ?_
        (Adapter.mediumWrite_writeMac_medium _ hmedium)
      exact (Adapter.rxCtl_writeMac_of_disjoint _ (.inl (by decide))).trans hrxCtl

/-- Putting the link down clears the register unless it is known to be clear. -/
theorem wp_linkDown {x : AdapterMachine} {post : ℤ → AdapterMachine → Prop} (hkept : post (-1) x)
    (hdown : ∀ y : AdapterMachine, y.mem.ax.medium = 0 →
      y.world.negotiated = x.world.negotiated →
      (x.mem.ax.medium = 0 ∧ y.world = x.world ∨
        x.mem.ax.medium ≠ 0 ∧ y.world.medium = 0 ∧ y.world.mediumWrite = some 0) → post 0 y) :
    adapterWp linkDown post x := by
  change adapterWp (if x.mem.ax.medium ≠ 0 then macWrite16 axMediumStatusMode 0 >>= linkDownFinish
    else linkDownFinish (some fun _ ↦ 0)) post x
  by_cases hmedium : x.mem.ax.medium = 0
  · rw [if_neg (not_not.mpr hmedium)]
    exact hdown _ rfl rfl (.inl ⟨hmedium, rfl⟩)
  · have hcleared := cleared_first x
    rw [if_pos hmedium, adapterWp, wp_bind]
    refine wp_macWrite16 hkept fun _ ↦ ?_
    exact hdown _ rfl rfl (.inr ⟨hmedium, hcleared.medium, hcleared.mediumWrite⟩)

/-- After the PHY was read. -/
theorem wp_linkDecide {x y : AdapterMachine} {bmsr status : ℕ} (hmem : y.mem = x.mem)
    (hregs : y.world.regs = x.world.regs) (hwrite : y.world.mediumWrite = none)
    (hbmsr : y.world.bmsr = some bmsr) (hstatus : y.world.status = some status) :
    adapterWp (linkDecide (some bmsr) (some status)) (fun result z ↦ LinkOutcome x z result.1) y := by
  have hcached : y.mem.ax.medium = x.mem.ax.medium := by rw [hmem]
  have hnegotiated : y.world.negotiated = if bmsr = 0xffff ∨ status = 0xffff then none
      else if bmsr &&& 4 = 0 ∨ bmsr &&& 0x20 = 0 ∨ status &&& 0x400 = 0 then none
      else some (linkMedium status) := by
    rw [Adapter.negotiated, hbmsr, hstatus]
  rw [adapterWp, linkDecide, wp_ite]
  by_cases hgone : bmsr = 0xffff ∨ status = 0xffff
  · rw [if_pos hgone] at hnegotiated ⊢
    exact .kept hcached hregs hwrite (by rw [hnegotiated]; nofun)
  rw [if_neg hgone] at hnegotiated ⊢
  rw [wp_ite]
  by_cases hdown : bmsr &&& 4 = 0 ∨ bmsr &&& 0x20 = 0 ∨ status &&& 0x400 = 0
  · rw [if_pos hdown] at hnegotiated ⊢
    rw [wp_bind]
    refine wp_linkDown (.kept hcached hregs hwrite (by rw [hnegotiated]; nofun)) ?_
    intro z hzero hsame hcases
    refine .down hzero (hsame.trans hnegotiated) ?_
    rcases hcases with ⟨hcache, hworld⟩ | hcases
    · rw [hworld]
      exact .inl ⟨hcached ▸ hcache, hregs, hwrite⟩
    · exact .inr (hcached ▸ hcases)
  rw [if_neg hdown] at hnegotiated ⊢
  rw [wp_bind, wp_load]
  by_cases hsame : y.mem.ax.medium = linkMedium status
  · rw [if_neg (not_not.mpr hsame)]
    exact .trusted hcached hregs hwrite (by rw [hnegotiated, ← hcached, hsame])
  · rw [if_pos hsame, wp_bind]
    have hchange : y.world.negotiated ≠ some x.mem.ax.medium := by
      rw [hnegotiated, ← hcached]
      exact fun h ↦ hsame (Option.some.inj h).symm
    refine wp_changeMedium (linkSpeed status) (linkMedium_lt status)
      (.kept hcached hregs hwrite hchange) ?_ ?_
    · intro z hz
      refine .torn (by rw [hz.mem, hcached]) ?_ (by rwa [hz.negotiated]) hz.medium hz.mediumWrite
      rw [hz.negotiated, hnegotiated]
      nofun
    · intro z hmedium hkept hregister hrxCtl hwritten
      refine .changed ?_ ?_ (hregister.trans hmedium.symm) hrxCtl (hmedium ▸ hwritten)
      · rw [hkept, hnegotiated, hmedium]
      · rw [hmedium, ← hcached]
        exact Ne.symm hsame

theorem readPhyAfter_some (value reg : ℕ) : readPhyAfter (some value) reg = ax88179ReadPhy reg := rfl

theorem wp_ax88179Link {x : AdapterMachine} (hbegin : x.world = x.world.beginCall) :
    adapterWp ax88179Link (fun result y ↦ LinkOutcome x y result.1) x := by
  have hbmsr : x.world.bmsr = none := by rw [hbegin]; rfl
  have hstatus : x.world.status = none := by rw [hbegin]; rfl
  have hwrite : x.world.mediumWrite = none := by rw [hbegin]; rfl
  have hunread : ∀ y : AdapterMachine, y.mem = x.mem → y.world.regs = x.world.regs →
      y.world.mediumWrite = none → y.world.status = none → LinkOutcome x y (-1) := by
    intro y hmem hregs hnone hunknown
    refine .kept (by rw [hmem]) hregs hnone ?_
    have hnegotiated : y.world.negotiated = none := by
      rw [Adapter.negotiated, hunknown]
      cases y.world.bmsr <;> rfl
    rw [hnegotiated]
    nofun
  rw [adapterWp, ax88179Link, wp_bind]
  refine wp_readPhy (hunread x rfl rfl hwrite hstatus) fun first ↦ ?_
  rw [wp_bind, readPhyAfter_some]
  refine wp_readPhy (hunread _ rfl rfl hwrite hstatus) fun bmsr ↦ ?_
  rw [wp_bind, readPhyAfter_some]
  refine wp_readPhy (hunread _ rfl rfl hwrite hstatus) fun status ↦ ?_
  exact wp_linkDecide rfl rfl hwrite rfl rfl

/-- The `ax88179_link` calls after a successful `ax88179_open`, oldest first. -/
inductive LinkRun : List LinkCall → AdapterMachine → Prop where
  | opened {x y : AdapterMachine} (hopen : Exec adapterReply ax88179Open x (.ok ()) y) :
      LinkRun [] y
  | link {calls : List LinkCall} {x y : AdapterMachine} {ret : ℤ} {speed : ℕ}
      (hrun : LinkRun calls x)
      (hlink : Exec adapterReply ax88179Link { x with world := x.world.beginCall } (ret, speed) y) :
      LinkRun (calls ++ [⟨x.mem.ax.medium, ret, y.world⟩]) y

/-! ### After opening -/

/-- What a successful `ax88179_open` leaves behind. -/
structure FreshlyOpened (x : AdapterMachine) : Prop where
  cached : x.mem.ax.medium = 0
  medium : x.world.medium = 0
  rxCtl : x.world.rxCtl = rxCtlDefault

/-- Calls that write no MAC register. -/
def SparesMac : UhsCall → Prop
  | .submitControlRequest false cmd _ _ _ _ => cmd ≠ axAccessMac
  | _ => True

theorem SparesMac.regs {request : UhsCall} {answer : UhsReply} {x y : AdapterMachine}
    (hspares : SparesMac request) (hreply : adapterReply request answer x = some y) :
    y.mem = x.mem ∧ y.world.regs = x.world.regs := by
  cases request with
  | submitControlRequest read cmd value index size data =>
    cases hreply
    refine ⟨rfl, ?_⟩
    cases read with
    | true =>
      simp only [Adapter.transfer, Adapter.readPhy]
      split_ifs <;> rfl
    | false =>
      simp only [Adapter.transfer, if_neg hspares]
      split_ifs <;> rfl
  | _ =>
    cases hreply
    exact ⟨rfl, rfl⟩

/-- The part of the driver state that the registers are compared with. -/
def cachedMedium (driver : DriverState) : ℕ := driver.ax.medium

section Setup

variable {x : AdapterMachine}

/-- What keeps the cache and spares the MAC keeps every statement about the two. -/
theorem wp_spares {α : Type} {program : DriverM α} (inv : ℕ → Memory → Prop)
    (hkeeps : Keeps cachedMedium SparesMac program) (hx : inv x.mem.ax.medium x.world.regs) :
    adapterWp program (fun _ y ↦ inv y.mem.ax.medium y.world.regs) x := by
  refine wp_keeps hkeeps ?_ ?_ ?_ hx
  · intro y mem hview hy
    exact (show mem.ax.medium = y.mem.ax.medium from hview) ▸ hy
  · intro request answer y z hspares hy hreply
    obtain ⟨hmem, hregs⟩ := hspares.regs hreply
    rw [hmem, hregs]
    exact hy
  · exact fun _ _ _ _ ↦ trivial

/-- Any call is fine as long as only the cache matters. -/
theorem wp_keepsCache {α : Type} {program : DriverM α}
    (hkeeps : Keeps cachedMedium (fun _ ↦ True) program) (hx : x.mem.ax.medium = 0) :
    adapterWp program (fun _ y ↦ y.mem.ax.medium = 0) x := by
  refine wp_keeps hkeeps ?_ ?_ ?_ hx
  · intro y mem hview hy
    exact hview.trans hy
  · intro request answer y z _ hy hreply
    have hmem : z.mem = y.mem := by
      cases request <;> cases hreply <;> rfl
    rw [hmem]
    exact hy
  · exact fun _ _ _ _ ↦ trivial

theorem keeps_control {allowed : UhsCall → Prop} {read : Bool} {cmd value index size : ℕ}
    {data : List UInt8} (hallowed : allowed (.submitControlRequest read cmd value index size data)) :
    Keeps cachedMedium allowed (control read cmd value index size data) :=
  Keeps.ite trivial ((keeps_perform hallowed).bind fun _ ↦ Keeps.ite trivial (Keeps.ite trivial trivial))

theorem keeps_ax88179ReadPhy (reg : ℕ) : Keeps cachedMedium SparesMac (ax88179ReadPhy reg) :=
  (keeps_control trivial).bind fun _ ↦ trivial

theorem keeps_phyAutonegotiation (warm : Bool) :
    Keeps cachedMedium SparesMac (phyAutonegotiation warm) := by
  have hwrite : ∀ reg value, Keeps cachedMedium SparesMac (phyWrite reg value) := fun reg value ↦
    keeps_control (show axAccessPhy ≠ axAccessMac by decide)
  refine (hwrite _ _).bind fun page ↦ Keeps.ite trivial ?_
  refine (keeps_ax88179ReadPhy 0).bind fun bmcr ↦ ?_
  cases bmcr with
  | none => trivial
  | some bmcr =>
    refine Keeps.ite trivial ((hwrite _ _).bind fun done ↦ ?_)
    exact Keeps.ite (Keeps.bind (keeps_store fun _ ↦ rfl) fun _ ↦ trivial) trivial

theorem keeps_enableEndpoint (stage : String) (mask : Ax88179 → ℕ) (count size : ℕ) :
    Keeps cachedMedium SparesMac (enableEndpoint stage mask count size) := by
  refine (keeps_load _).bind fun ax ↦ (keeps_perform trivial).bind fun answer ↦ ?_
  exact Keeps.ite trivial (Keeps.bind (keeps_store fun _ ↦ rfl) fun _ ↦ trivial)

/-- The stages before the MAC is configured only matter in that they keep the cache. -/
theorem keeps_early (warm : Bool) :
    ∀ stage ∈ [phyPowerReset warm, clockSelect, clockReadback, macAddress],
      Keeps cachedMedium (fun _ ↦ True) stage := by
  have hwrite : ∀ reg size data, Keeps cachedMedium (fun _ ↦ True)
      (regWrite axAccessMac reg size data) := fun reg size data ↦ keeps_control trivial
  intro stage hstage
  simp only [List.mem_cons, List.not_mem_nil, or_false] at hstage
  rcases hstage with rfl | rfl | rfl | rfl
  · refine Keeps.ite trivial (Keeps.bind ?_ fun done ↦ ?_)
    · exact (hwrite _ _ _).bind fun _ ↦
        Keeps.ite ((hwrite _ _ _).bind fun _ ↦ Keeps.ite trivial trivial) trivial
    · exact Keeps.ite ((keeps_perform trivial).bind fun _ ↦ trivial) trivial
  · refine (hwrite _ _ _).bind fun done ↦ ?_
    exact Keeps.ite ((keeps_perform trivial).bind fun _ ↦ trivial) trivial
  · exact (keeps_control trivial).bind fun _ ↦ trivial
  · refine (keeps_control trivial).bind fun answer ↦ ?_
    cases answer with
    | none => trivial
    | some bytes => exact Keeps.bind (keeps_store fun _ ↦ rfl) fun _ ↦ trivial

theorem keeps_warmPhy : Keeps cachedMedium (fun _ ↦ True) warmPhy := by
  have hread : ∀ reg, Keeps cachedMedium (fun _ ↦ True) (ax88179ReadPhy reg) := fun reg ↦
    (keeps_ax88179ReadPhy reg).mono (fun _ _ h ↦ h) fun _ _ ↦ trivial
  refine (keeps_load _).bind fun generation ↦ Keeps.ite trivial ?_
  refine (hread 0).bind fun bmcr ↦ (Keeps.ite (hread 1) (keeps_pure none)).bind fun bmsr ↦ ?_
  cases bmcr <;> cases bmsr <;> trivial

theorem medium_findEndpoints (profile : UhsInterfaceProfile) (ax : Ax88179) :
    (findEndpoints profile ax).medium = ax.medium := by
  refine findEndpoints_view ?_ ?_ profile ax
  · intro descriptor ax
    simp only [takeInEndpoint]
    split_ifs <;> rfl
  · intro descriptor ax
    simp only [takeOutEndpoint]
    split_ifs <;> rfl

/-- A stage that keeps `inv`, in front of the others. -/
theorem wp_runStages_cons {stage : String} {step : DriverM Bool}
    {rest : List (String × DriverM Bool)} {inv : AdapterMachine → Prop}
    {post : Except OpenError Unit → AdapterMachine → Prop}
    (hstep : adapterWp step (fun done y ↦ done = true → inv y) x)
    (hfail : ∀ why y, post (.error why) y)
    (hrest : ∀ y, inv y → adapterWp (runStages rest) post y) :
    adapterWp (runStages ((stage, step) :: rest)) post x := by
  rw [adapterWp, runStages, wp_bind]
  refine wp_mono hstep fun done y hy ↦ ?_
  cases done with
  | true => exact hrest y (hy rfl)
  | false => exact hfail _ y

/-- With the registers cleared by the configuration. -/
theorem wp_rxTxConfiguration (hcached : x.mem.ax.medium = 0) :
    adapterWp rxTxConfiguration
      (fun done y ↦ y.mem.ax.medium = 0 ∧ (done = true → y.world.medium = 0)) x := by
  have hfail : ∀ y : AdapterMachine, y.mem = x.mem →
      y.mem.ax.medium = 0 ∧ (false = true → y.world.medium = 0) := fun y hmem ↦
    ⟨by rw [hmem, hcached], nofun⟩
  refine wp_allDone_write (by decide) (hfail _ rfl) ?_
  refine wp_allDone_write (by decide) (hfail _ rfl) ?_
  have hcleared : ∀ world : Adapter, (world.writeMac axMediumStatusMode (wordBytes 0)).medium = 0 :=
    fun world ↦ world.medium_writeMac_medium (by decide)
  iterate 5 refine wp_allDone_write (by decide) (hfail _ rfl) ?_
  refine ⟨hcached, fun _ ↦ ?_⟩
  rw [Adapter.medium_writeMac_of_disjoint _ (.inl (by decide)),
    Adapter.medium_writeMac_of_disjoint _ (.inl (by decide)),
    Adapter.medium_writeMac_of_disjoint _ (.inl (by decide)),
    Adapter.medium_writeMac_of_disjoint _ (.inl (by decide)),
    Adapter.medium_writeMac_of_disjoint _ (.inl (by decide))]
  exact hcleared _

/-- The MAC is configured and the cache says that no medium is. -/
def Configured (y : AdapterMachine) : Prop := y.mem.ax.medium = 0 ∧ y.world.medium = 0

theorem wp_spares_configured {α : Type} {program : DriverM α} {post : α → AdapterMachine → Prop}
    (hkeeps : Keeps cachedMedium SparesMac program) (hx : Configured x)
    (hpost : ∀ value y, Configured y → post value y) : adapterWp program post x :=
  wp_mono (wp_spares (fun medium regs ↦ medium = 0 ∧ registerWord regs axMediumStatusMode = 0)
    hkeeps hx) hpost

theorem wp_configureAdapter (hcached : x.mem.ax.medium = 0) :
    adapterWp configureAdapter (fun result y ↦ result = .ok () → FreshlyOpened y) x := by
  have hearly : ∀ warm, ∀ stage ∈ [phyPowerReset warm, clockSelect, clockReadback, macAddress],
      ∀ y : AdapterMachine, y.mem.ax.medium = 0 →
        adapterWp stage (fun done z ↦ done = true → z.mem.ax.medium = 0) y :=
    fun warm stage hstage y hy ↦
      wp_mono (wp_keepsCache (keeps_early warm stage hstage) hy) fun _ _ h _ ↦ h
  rw [adapterWp, configureAdapter, wp_bind]
  refine wp_mono (wp_keepsCache keeps_warmPhy hcached) fun warm y hy ↦ ?_
  rw [wp_bind]
  -- the configuration of the MAC clears the medium register, what follows leaves it clear
  have hstages : adapterWp (runStages [("PHY power reset", phyPowerReset warm),
      ("clock select", clockSelect), ("clock readback", clockReadback), ("MAC address", macAddress),
      ("RX/TX configuration", rxTxConfiguration),
      ("PHY page/autonegotiation", phyAutonegotiation warm)])
      (fun result z ↦ result = .ok () → Configured z) y := by
    refine wp_runStages_cons (hearly warm _ (by simp) y hy) (fun _ _ ↦ nofun) fun y hy ↦ ?_
    refine wp_runStages_cons (hearly warm _ (by simp) y hy) (fun _ _ ↦ nofun) fun y hy ↦ ?_
    refine wp_runStages_cons (hearly warm _ (by simp) y hy) (fun _ _ ↦ nofun) fun y hy ↦ ?_
    refine wp_runStages_cons (hearly warm _ (by simp) y hy) (fun _ _ ↦ nofun) fun y hy ↦ ?_
    refine wp_runStages_cons (wp_mono (wp_rxTxConfiguration hy) fun _ z hz hdone ↦
      (⟨hz.1, hz.2 hdone⟩ : Configured z)) (fun _ _ ↦ nofun) fun y hy ↦ ?_
    refine wp_runStages_cons (wp_spares_configured (keeps_phyAutonegotiation warm) hy
      fun _ z hz _ ↦ hz) (fun _ _ ↦ nofun) fun y hy ↦ ?_
    exact fun _ ↦ hy
  refine wp_mono hstages fun configured y hy ↦ ?_
  cases configured with
  | error why => exact nofun
  | ok value =>
    refine (wp_bind _ _ _ _).mpr (wp_spares_configured (keeps_enableEndpoint _ _ _ _) (hy rfl) ?_)
    intro enabledIn y hy
    cases enabledIn with
    | error why => exact nofun
    | ok value =>
      refine (wp_bind _ _ _ _).mpr (wp_spares_configured (keeps_enableEndpoint _ _ _ _) hy ?_)
      intro enabledOut y hy
      cases enabledOut with
      | error why => exact nofun
      | ok value =>
        refine (wp_bind _ _ _ _).mpr ((wp_bind _ _ _ _).mpr (wp_macWrite16 nofun fun _ _ ↦ ?_))
        refine ⟨hy.1, ?_, Adapter.rxCtl_writeMac_rxCtl _ (by decide)⟩
        exact (Adapter.medium_writeMac_of_disjoint _ (.inr (by decide))).trans hy.2

theorem wp_openInterface (hcached : x.mem.ax.medium = 0) :
    adapterWp openInterface (fun result y ↦ result = .ok () → FreshlyOpened y) x := by
  have hrefused : ∀ why y, adapterWp (openRefused why)
      (fun result y ↦ result = .ok () → FreshlyOpened y) y := fun why y ↦
    ⟨trivial, fun _ _ _ ↦ ⟨trivial, fun _ _ _ ↦ nofun⟩⟩
  rw [adapterWp, openInterface, wp_bind, wp_perform]
  refine ⟨trivial, fun found y hfound ↦ ?_⟩
  cases hfound
  rw [wp_ite]
  split
  · exact hrefused _ _
  rw [wp_bind, wp_store, wp_bind, wp_load, wp_ite]
  split
  · exact hrefused _ _
  rw [wp_bind, wp_perform]
  refine ⟨trivial, fun acquired y hacquired ↦ ?_⟩
  cases hacquired
  rw [wp_ite]
  split
  · exact hrefused _ _
  rw [wp_bind, wp_store, wp_bind]
  refine wp_mono (wp_configureAdapter ?_) fun result y hy ↦ ?_
  · exact (medium_findEndpoints _ _).trans hcached
  · cases result with
    | ok value => exact hy
    | error why => exact (wp_bind _ _ _ _).mpr (wp_mono (wp_trivial fun _ _ ↦ trivial) fun _ _ _ ↦ nofun)

theorem wp_ax88179Open (x : AdapterMachine) :
    adapterWp ax88179Open (fun result y ↦ result = .ok () → FreshlyOpened y) x := by
  rw [adapterWp, ax88179Open, wp_bind, wp_load, wp_ite]
  split
  · exact nofun
  rw [wp_bind, wp_perform]
  refine ⟨trivial, fun block y hblock ↦ ?_⟩
  cases hblock
  rw [wp_ite]
  split
  · exact nofun
  rw [wp_bind, wp_store, wp_bind, wp_perform]
  refine ⟨trivial, fun client y hclient ↦ ?_⟩
  cases hclient
  rw [wp_ite]
  split
  · exact ⟨trivial, fun _ _ _ ↦ nofun⟩
  · exact wp_openInterface rfl

end Setup

/-! ### Agreement along a run -/

theorem staleMedium_snoc (calls : List LinkCall) (call : LinkCall) :
    staleMedium (calls ++ [call]) =
      if call.Torn then true
      else if call.adapter.mediumWrite = none then staleMedium calls else false := by
  rw [staleMedium, List.foldl_append]
  rfl

/-- While no call has torn the register, it holds what the cache says. -/
structure Tracks (stale : Bool) (x : AdapterMachine) : Prop where
  fresh : stale = false → x.world.medium = x.mem.ax.medium
  receiving : stale = false → x.mem.ax.medium ≠ 0 → x.world.rxCtl = rxCtlDefault
  torn : stale = true → x.mem.ax.medium ≠ 0 ∧ x.world.medium = 0

theorem Adapter.status_of_negotiated {adapter : Adapter} {medium : ℕ}
    (h : adapter.negotiated = some medium) :
    ∃ status, adapter.status = some status ∧ medium = linkMedium status := by
  unfold Adapter.negotiated at h
  split at h
  · rename_i bmsr status hbmsr hstatus
    split_ifs at h
    exact ⟨status, hstatus, (Option.some.inj h).symm⟩
  · cases h

section Call

variable {stale : Bool} {x y : AdapterMachine} {ret : ℤ}

/-- The registers disagree exactly when a torn register is trusted. -/
theorem Tracks.agrees_iff (htracks : Tracks stale x) (houtcome : LinkOutcome x y ret) :
    LinkCall.Agrees ⟨x.mem.ax.medium, ret, y.world⟩ ↔
      ¬ (stale = true ∧ LinkCall.Returns ⟨x.mem.ax.medium, ret, y.world⟩) := by
  cases houtcome with
  | kept hmedium hregs hwrite hchange => exact ⟨fun _ h ↦ hchange h.2, fun _ ↦ ⟨nofun, nofun⟩⟩
  | torn hmedium hnegotiated hchange hregister hwrite =>
    exact ⟨fun _ h ↦ hchange h.2, fun _ ↦ ⟨nofun, nofun⟩⟩
  | down hmedium hnegotiated hregs =>
    have hzero : y.world.medium = 0 := by
      rcases hregs with ⟨hcached, hregs, -⟩ | ⟨-, hregister, -⟩
      · cases stale with
        | true => exact absurd hcached (htracks.torn rfl).1
        | false =>
          rw [Adapter.medium, hregs]
          exact (htracks.fresh rfl).trans hcached
      · exact hregister
    refine ⟨fun _ h ↦ ?_, fun _ ↦ ⟨nofun, fun _ ↦ hzero⟩⟩
    exact absurd (hnegotiated.symm.trans h.2) nofun
  | changed hnegotiated hchange hregister hrxCtl hwrite =>
    obtain ⟨status, hstatus, hmedium⟩ := Adapter.status_of_negotiated hnegotiated
    refine ⟨fun _ h ↦ ?_, fun _ ↦ ⟨fun _ ↦ ?_, nofun⟩⟩
    · exact hchange (Option.some.inj (hnegotiated.symm.trans h.2))
    · exact ⟨status, hstatus, hregister.trans hmedium, hrxCtl⟩
  | trusted hmedium hregs hwrite hnegotiated =>
    obtain ⟨status, hstatus, hcached⟩ := Adapter.status_of_negotiated hnegotiated
    have hmediumRegister : y.world.medium = x.world.medium := congrArg (registerWord · _) hregs
    have hrxCtl : y.world.rxCtl = x.world.rxCtl := congrArg (registerWord · _) hregs
    cases stale with
    | true =>
      refine ⟨fun hagrees ↦ ?_, fun h ↦ absurd ⟨rfl, hnegotiated⟩ h⟩
      obtain ⟨status', hstatus', hregister, -⟩ := hagrees.1 rfl
      have hzero : linkMedium status' = 0 :=
        hregister.symm.trans (hmediumRegister.trans (htracks.torn rfl).2)
      exact absurd hzero (linkMedium_ne_zero status')
    | false =>
      refine ⟨fun _ h ↦ absurd h.1 nofun, fun _ ↦ ⟨fun _ ↦ ⟨status, hstatus, ?_, ?_⟩, nofun⟩⟩
      · exact hmediumRegister.trans ((htracks.fresh rfl).trans hcached)
      · refine hrxCtl.trans (htracks.receiving rfl ?_)
        rw [hcached]
        exact linkMedium_ne_zero status

theorem LinkCall.not_torn_of_none {call : LinkCall} (hwrite : call.adapter.mediumWrite = none) :
    ¬ call.Torn := by
  rintro ⟨-, -, hzero⟩
  rw [hwrite] at hzero
  cases hzero

/-- A call that writes nothing and keeps the cache keeps the register in step. -/
theorem Tracks.of_unchanged (htracks : Tracks stale x) (hmedium : y.mem.ax.medium = x.mem.ax.medium)
    (hregs : y.world.regs = x.world.regs) : Tracks stale y := by
  have hmediumRegister : y.world.medium = x.world.medium := congrArg (registerWord · _) hregs
  have hrxCtl : y.world.rxCtl = x.world.rxCtl := congrArg (registerWord · _) hregs
  constructor
  · rw [hmedium, hmediumRegister]
    exact htracks.fresh
  · rw [hmedium, hrxCtl]
    exact htracks.receiving
  · rw [hmedium, hmediumRegister]
    exact htracks.torn

theorem Tracks.next (htracks : Tracks stale x) (houtcome : LinkOutcome x y ret) :
    Tracks (if LinkCall.Torn ⟨x.mem.ax.medium, ret, y.world⟩ then true
      else if y.world.mediumWrite = none then stale else false) y := by
  have hdown : y.world.medium = 0 → y.mem.ax.medium = 0 → Tracks false y := fun hregister hzero ↦
    ⟨fun _ ↦ hregister.trans hzero.symm, fun _ hne ↦ absurd hzero hne, nofun⟩
  cases houtcome with
  | kept hmedium hregs hwrite hchange =>
    rw [if_neg (LinkCall.not_torn_of_none hwrite), if_pos hwrite]
    exact htracks.of_unchanged hmedium hregs
  | trusted hmedium hregs hwrite hnegotiated =>
    rw [if_neg (LinkCall.not_torn_of_none hwrite), if_pos hwrite]
    exact htracks.of_unchanged hmedium hregs
  | down hmedium hnegotiated hregs =>
    rw [if_neg fun h ↦ h.2.1 hnegotiated]
    rcases hregs with ⟨hcached, hregs, hwrite⟩ | ⟨-, hregister, hwrite⟩
    · rw [if_pos hwrite]
      exact htracks.of_unchanged (hmedium.trans hcached.symm) hregs
    · rw [if_neg (by rw [hwrite]; nofun)]
      exact hdown hregister hmedium
  | changed hnegotiated hchange hregister hrxCtl hwrite =>
    obtain ⟨status, -, hmedium⟩ := Adapter.status_of_negotiated hnegotiated
    have hne : y.mem.ax.medium ≠ 0 := hmedium ▸ linkMedium_ne_zero status
    rw [if_neg fun h ↦ hne (Option.some.inj (hwrite.symm.trans h.2.2)),
      if_neg (by rw [hwrite]; nofun)]
    exact ⟨fun _ ↦ hregister, fun _ _ ↦ hrxCtl, nofun⟩
  | torn hmedium hnegotiated hchange hregister hwrite =>
    by_cases hcached : x.mem.ax.medium = 0
    · rw [if_neg fun h ↦ h.1 hcached, if_neg (by rw [hwrite]; nofun)]
      exact hdown hregister (hmedium.trans hcached)
    · rw [if_pos ⟨hcached, hnegotiated, hwrite⟩]
      exact ⟨nofun, nofun, fun _ ↦ ⟨hmedium ▸ hcached, hregister⟩⟩

end Call

theorem LinkRun.tracks {calls : List LinkCall} {x : AdapterMachine} (hrun : LinkRun calls x) :
    Tracks (staleMedium calls) x := by
  induction hrun with
  | opened hopen =>
    have hfresh := hopen.post_of_wp (wp_ax88179Open _) rfl
    exact ⟨fun _ ↦ hfresh.medium.trans hfresh.cached.symm,
      fun _ hne ↦ absurd hfresh.cached hne, nofun⟩
  | @link calls x y ret speed hrun hlink ih =>
    have hbegun : Tracks (staleMedium calls) { x with world := x.world.beginCall } :=
      ⟨ih.fresh, ih.receiving, ih.torn⟩
    rw [staleMedium_snoc]
    exact hbegun.next (hlink.post_of_wp (wp_ax88179Link rfl))

/-- Along every run of `ax88179_link` calls the returned link state agrees with the registers
unless, after a change that failed with the register cleared, the PHY returns to the old medium. -/
theorem linkRun_agrees_iff {calls : List LinkCall} {x : AdapterMachine} (hrun : LinkRun calls x) :
    (∀ call ∈ calls, call.Agrees) ↔
      ∀ earlier call, earlier ++ [call] <+: calls → staleMedium earlier = true → ¬ call.Returns := by
  induction hrun with
  | opened hopen =>
    refine ⟨fun _ earlier call hearlier ↦ ?_, fun _ ↦ nofun⟩
    exact absurd (List.prefix_nil.mp hearlier) (by simp)
  | @link calls x y ret speed hrun hlink ih =>
    have htracks : Tracks (staleMedium calls) { x with world := x.world.beginCall } :=
      ⟨hrun.tracks.fresh, hrun.tracks.receiving, hrun.tracks.torn⟩
    have hlast := htracks.agrees_iff (hlink.post_of_wp (wp_ax88179Link rfl))
    rw [List.forall_mem_append, ih, List.forall_mem_singleton]
    constructor
    · rintro ⟨hcalls, hcall⟩ earlier call hearlier
      rcases List.prefix_concat_iff.mp hearlier with heq | hearlier
      · obtain ⟨rfl, hsame⟩ := List.append_inj' heq rfl
        obtain rfl := List.singleton_inj.mp hsame
        exact fun hstale hreturns ↦ hlast.mp hcall ⟨hstale, hreturns⟩
      · exact hcalls earlier call hearlier
    · intro hcalls
      refine ⟨fun earlier call hearlier ↦ ?_, hlast.mpr fun h ↦ ?_⟩
      · exact hcalls earlier call (hearlier.trans (List.prefix_append _ _))
      · exact hcalls _ _ (List.prefix_refl _) h.1 h.2

/-- A successful transfer of `count` bytes, of which a read returns the first. -/
def moved (count : ℕ) (bytes : List UInt8) : UhsReply where
  code := count
  bytes := Memory.ofList bytes

/-- Everything that a cold `ax88179_open` asks for, without a failure. -/
def openReplies : List UhsReply :=
  [{ code := 1 }, {},
    { code := 1
      profile := {
        inEndpoints := fun i ↦ if i = 0 then ⟨7, 0x81, 2, 512⟩ else {}
        outEndpoints := fun i ↦ if i = 0 then ⟨7, 0x02, 2, 512⟩ else {} } },
    {}, moved 2 [], moved 2 [], {}, moved 1 [], {}, moved 1 [3], moved 6 [2, 0, 0, 0, 0, 1],
    moved 2 [], moved 2 [], moved 5 [], moved 1 [], moved 1 [], moved 1 [], moved 1 [],
    moved 2 [], moved 2 [], moved 2 [], {}, {}, moved 2 []]

/-- A PHY whose link is up, with the high byte of its status register. -/
def phyReplies (status : UInt8) : List UhsReply :=
  [moved 2 [0x24], moved 2 [0x24], moved 2 [0, status]]

/-- The transfers of a change that succeeds. -/
def changeReplies : List UhsReply :=
  [moved 1 [4], moved 2 [], moved 2 [], moved 5 [], moved 2 [], moved 4 [], moved 2 []]

/-- One more call, on given replies. -/
def linkOn (replies : List UhsReply) (run : List LinkCall × AdapterMachine) :
    Option (List LinkCall × AdapterMachine) :=
  let (calls, x) := run
  (Program.run adapterReply ax88179Link replies { x with world := x.world.beginCall }).map
    fun result ↦ (calls ++ [⟨x.mem.ax.medium, result.1.1, result.2.1.world⟩], result.2.1)

theorem LinkRun.linkOn {calls calls' : List LinkCall} {x y : AdapterMachine}
    {replies : List UhsReply} (hrun : LinkRun calls x)
    (hlink : Driver.linkOn replies (calls, x) = some (calls', y)) : LinkRun calls' y := by
  obtain ⟨⟨⟨ret, speed⟩, y, rest⟩, hexec, heq⟩ := Option.map_eq_some_iff.mp hlink
  cases heq
  exact .link hrun (exec_of_run hexec)

/-- Open the adapter and make one call for each list of replies. -/
def linkScript (scripts : List (List UhsReply)) : Option (List LinkCall × AdapterMachine) :=
  match Program.run adapterReply ax88179Open openReplies ⟨{}, { regs := fun _ ↦ 0 }⟩ with
  | some (.ok (), x, _) => scripts.foldlM (fun run replies ↦ linkOn replies run) ([], x)
  | _ => none

theorem linkRun_of_script {scripts : List (List UhsReply)} {calls : List LinkCall}
    {x : AdapterMachine} (hscript : linkScript scripts = some (calls, x)) : LinkRun calls x := by
  have hfold : ∀ (scripts : List (List UhsReply)) (run : List LinkCall × AdapterMachine),
      LinkRun run.1 run.2 → scripts.foldlM (fun run replies ↦ linkOn replies run) run =
        some (calls, x) → LinkRun calls x := by
    intro scripts
    induction scripts with
    | nil =>
      intro run hrun heq
      cases heq
      exact hrun
    | cons replies rest ih =>
      intro run hrun heq
      obtain ⟨next, hnext, hrest⟩ := Option.bind_eq_some_iff.mp heq
      exact ih next (hrun.linkOn hnext) hrest
  unfold linkScript at hscript
  split at hscript
  · rename_i y _ hopen
    exact hfold scripts ([], y) (.opened (exec_of_run hopen)) hscript
  · cases hscript

/-- The link comes up at 1000 Mbit/s, a change to 100 Mbit/s fails after the register was cleared,
and the PHY returns to 1000 Mbit/s: the third call returns 1 with the register still clear. -/
theorem torn_medium_trusted :
    ∃ calls x, LinkRun calls x ∧ ∃ call ∈ calls, call.ret = 1 ∧ call.adapter.medium = 0 ∧
      ¬ call.Agrees := by
  have hscript : ∃ calls x, linkScript [phyReplies 0xa4 ++ changeReplies,
      phyReplies 0x64 ++ [moved 1 [4], moved 2 [], { code := -1 }], phyReplies 0xa4] =
        some (calls, x) ∧ ∃ call ∈ calls, call.ret = 1 ∧ call.adapter.medium = 0 :=
    ⟨_, _, rfl, _, .tail _ (.tail _ (.head _)), rfl, rfl⟩
  obtain ⟨calls, x, hscript, call, hmem, hret, hzero⟩ := hscript
  refine ⟨calls, x, linkRun_of_script hscript, call, hmem, hret, hzero, fun hagrees ↦ ?_⟩
  obtain ⟨status, -, hregister, -⟩ := hagrees.1 hret
  exact linkMedium_ne_zero status (hregister.symm.trans hzero)

/-- The link comes up at 1000 Mbit/s, a change to 100 Mbit/s fails after the register was cleared,
and the next call finds the PHY still at 100 Mbit/s and completes the change. -/
theorem linkRun_agrees_iff_recovered :
    ∃ calls x, LinkRun calls x ∧ calls.length = 3 ∧ (∃ call ∈ calls, call.ret = -1 ∧ call.Torn) ∧
      calls.getLast?.map LinkCall.ret = some 1 ∧ ∀ call ∈ calls, call.Agrees := by
  have hscript : ∃ calls x, linkScript [phyReplies 0xa4 ++ changeReplies,
      phyReplies 0x64 ++ [moved 1 [4], moved 2 [], { code := -1 }],
      phyReplies 0x64 ++ changeReplies] = some (calls, x) ∧ calls.length = 3 ∧
        (∃ call ∈ calls, call.ret = -1 ∧ decide call.Torn = true) ∧
        calls.getLast?.map LinkCall.ret = some 1 ∧
        calls.map (fun call ↦ decide (call.adapter.negotiated = some call.cached)) =
          [false, false, false] :=
    ⟨_, _, rfl, rfl, ⟨_, .tail _ (.head _), rfl, rfl⟩, rfl, rfl⟩
  obtain ⟨calls, x, hscript, hlength, ⟨torn, hmem, hret, htorn⟩, hlast, hreturns⟩ := hscript
  refine ⟨calls, x, linkRun_of_script hscript, hlength,
    ⟨torn, hmem, hret, of_decide_eq_true htorn⟩, hlast, ?_⟩
  -- the PHY asks for another medium than the cached one at each of the three calls
  refine (linkRun_agrees_iff (linkRun_of_script hscript)).mpr fun earlier call hearlier _ h ↦ ?_
  have hcall : call ∈ calls := hearlier.subset (List.mem_append_right earlier (.head _))
  have hfalse := List.mem_map_of_mem
    (f := fun call ↦ decide (call.adapter.negotiated = some call.cached)) hcall
  rw [hreturns] at hfalse
  simp only [List.mem_cons, List.not_mem_nil, or_false, or_self] at hfalse
  exact of_decide_eq_false hfalse h

end Ax88179Aroma.Driver
