import Ax88179Aroma.Driver.Link
import Mathlib.Data.List.FinRange

/-!
# Opening and closing the adapter

`ax88179_open` finds the endpoints in the interface profile, resets or keeps the PHY, configures the
MAC and enables the bulk endpoints; every failure after the interface was acquired goes through
`ax88179_close`.  The numbers that the error text quotes from the last control transfer are left
out, the stage it names is kept.
-/

namespace Ax88179Aroma.Driver

open Effect Program

def asixVid : ℕ := 0x0b95
def ax88179Pid : ℕ := 0x1790
def axNodeId : ℕ := 0x10
def axPhypwrRstctl : ℕ := 0x26
def axPhypwrRstctlIprl : ℕ := 0x0020
def axClkSelect : ℕ := 0x33
def axRxcoeCtl : ℕ := 0x34
def axTxcoeCtl : ℕ := 0x35
def axPauseWaterlvlHigh : ℕ := 0x54
def axPauseWaterlvlLow : ℕ := 0x55
def rxAsyncSlots : ℕ := 3
/-- `sizeof(g_tx)` -/
def txBufferSize : ℕ := 2048

def macWrite8 (reg value : ℕ) : DriverM (Option Memory) :=
  regWrite axAccessMac reg 1 [UInt8.ofNat value]

def phyWrite (reg value : ℕ) : DriverM (Option Memory) :=
  control false axAccessPhy ax88179PhyId reg 2 [UInt8.ofNat value, UInt8.ofNat (value >>> 8)]

/-! ## The interface profile -/

/-- Legal bulk sizes are unambiguous in either byte order; zero stands for an illegal one. -/
def bulkPacketSize (mps : ℕ) : ℕ :=
  let native := mps = 64 ∨ mps = 512 ∨ mps = 1024
  let size := if native then mps else (mps >>> 8 ||| mps <<< 8) % 2 ^ 16
  if size = 64 ∨ size = 512 ∨ size = 1024 then size else 0

def takeInEndpoint (descriptor : UhsEndpointDescriptor) (ax : Ax88179) : Ax88179 :=
  if descriptor.bLength ≠ 0 ∧ descriptor.bEndpointAddress &&& 0x80 ≠ 0 then
    let kind := descriptor.bmAttributes &&& 0x03
    let number := descriptor.bEndpointAddress &&& 0x0F
    if kind = 0x02 ∧ ax.epIn = 0 then
      { ax with epIn := number, epInMask := 1 <<< (16 + number) }
    else if kind = 0x03 ∧ ax.epIrq = 0 then { ax with epIrq := number }
    else ax
  else ax

def takeOutEndpoint (descriptor : UhsEndpointDescriptor) (ax : Ax88179) : Ax88179 :=
  if descriptor.bLength ≠ 0 ∧ descriptor.bEndpointAddress &&& 0x80 = 0 ∧
      descriptor.bmAttributes &&& 0x03 = 0x02 ∧ ax.epOut = 0 then
    let number := descriptor.bEndpointAddress &&& 0x0F
    let size := bulkPacketSize descriptor.wMaxPacketSize
    { ax with
      epOut := number
      epOutMask := 1 <<< number
      txMaxpacket := if size ≠ 0 then size else ax.txMaxpacket }
  else ax

/-- The handle after the walk over all descriptors, in whose order the first match wins. -/
def findEndpoints (profile : UhsInterfaceProfile) (ax : Ax88179) : Ax88179 :=
  (List.finRange 16).foldl
    (fun ax i ↦ takeOutEndpoint (profile.outEndpoints i) (takeInEndpoint (profile.inEndpoints i) ax))
    { ax with epIn := 0, epOut := 0, epIrq := 0 }

/-- What the endpoints do not touch, the walk keeps. -/
theorem findEndpoints_view {α : Type} {view : Ax88179 → α}
    (hin : ∀ descriptor ax, view (takeInEndpoint descriptor ax) = view ax)
    (hout : ∀ descriptor ax, view (takeOutEndpoint descriptor ax) = view ax)
    (profile : UhsInterfaceProfile) (ax : Ax88179) :
    view (findEndpoints profile ax) = view { ax with epIn := 0, epOut := 0, epIrq := 0 } := by
  have hfold : ∀ (indices : List (Fin 16)) (ax : Ax88179), view (indices.foldl (fun ax i ↦
      takeOutEndpoint (profile.outEndpoints i) (takeInEndpoint (profile.inEndpoints i) ax)) ax) =
        view ax := by
    intro indices
    induction indices with
    | nil => exact fun _ ↦ rfl
    | cons i rest ih =>
      intro ax
      rw [List.foldl_cons, ih, hout, hin]
  exact hfold _ _

def endpointsFound (ax : Ax88179) : Prop :=
  ax.epIn ≠ 0 ∧ ax.epOut ≠ 0 ∧ ax.txMaxpacket ≠ 0

instance (ax : Ax88179) : Decidable (endpointsFound ax) :=
  inferInstanceAs (Decidable (_ ∧ _ ∧ _))

/-! ## Closing -/

def ax88179Close : DriverM Unit := do
  let _ ← macWrite16 axRxCtl 0
  store fun driver ↦ driver.setAx fun ax ↦ { ax with rxAsyncStarted := false }
  let ax ← load fun driver ↦ driver.ax
  when (ax.epInMask ≠ 0) do
    let _ ← perform (.handle (.uhsAdministerEndpoint ax.ifHandle .cancel ax.epInMask 0 0))
  when (ax.enabledEps ≠ 0) do
    let _ ← perform (.handle (.uhsAdministerEndpoint ax.ifHandle .disable ax.enabledEps 0 0))
  let _ ← perform (.handle (.uhsReleaseInterface ax.ifHandle))
  let _ ← perform (.handle .uhsClientClose)
  let _ ← perform (.handle .free)
  store fun driver ↦ { driver with gOpen := false }

/-- Called inside the exit of the title, where IOSU reclaims the UHS client by itself. -/
def ax88179AbandonTitle : DriverM Unit := do
  store fun driver ↦ driver.setAx fun ax ↦ { ax with rxAsyncStarted := false }
  let _ ← perform (.handle .free)
  store fun driver ↦ { driver with gOpen := false }

/-! ## Opening -/

/-- Why there is no handle: `plain` quotes the whole text, the others the stage they name. -/
inductive OpenError where
  | plain (why : String)
  | endpoint (stage : String) (mask : ℕ) (result : ℤ)
  | transfer (stage : String)
  deriving DecidableEq, Repr

/-- A PHY that an earlier handle initialised is kept when it still answers. -/
def warmPhy : DriverM Bool := do
  let generation ← load fun driver ↦ driver.phyInitGeneration
  if generation = 0 then pure false
  else do
    let bmcr ← ax88179ReadPhy 0
    let bmsr ← readPhyAfter bmcr 1
    match bmcr, bmsr with
    | some bmcr, some bmsr => pure (decide (¬ (bmcr = 0xffff ∨ bmcr = 0 ∨ bmsr = 0xffff ∨ bmsr = 0)))
    | _, _ => pure false

def phyPowerReset (warm : Bool) : DriverM Bool :=
  if warm then pure true
  else do
    let done ← allDone [macWrite16 axPhypwrRstctl 0, macWrite16 axPhypwrRstctl axPhypwrRstctlIprl]
    if done then
      let _ ← perform (.osSleepMs 500)
    pure done

def clockSelect : DriverM Bool := do
  let done ← macWrite8 axClkSelect 3
  if done.isSome then
    let _ ← perform (.osSleepMs 200)
  pure done.isSome

def clockReadback : DriverM Bool := do
  let clock ← regRead axAccessMac axClkSelect 1
  pure (clock.any fun bytes ↦ decide ((bytes 0).toNat &&& 3 = 3))

def macAddress : DriverM Bool := do
  let answer ← regRead axAccessMac axNodeId 6
  match answer with
  | none => pure false
  | some bytes => do
    store fun driver ↦ driver.setAx fun ax ↦ { ax with mac := bytes.slice 0 6 }
    pure (decide ((∃ byte ∈ bytes.slice 0 6, byte ≠ 0) ∧ (bytes 0).toNat &&& 1 = 0))

def rxTxConfiguration : DriverM Bool :=
  allDone [macWrite16 axRxCtl 0, macWrite16 axMediumStatusMode 0,
    regWrite axAccessMac axRxBulkinQctrl 5 [7, 0x20, 3, 0x16, 0xff],
    macWrite8 axPauseWaterlvlLow 0x34, macWrite8 axPauseWaterlvlHigh 0x52,
    macWrite8 axRxcoeCtl 0, macWrite8 axTxcoeCtl 0]

/-- Clear reset, loopback, powerdown and isolate; only the cold path restarts autonegotiation. -/
def newBmcr (warm : Bool) (bmcr : ℕ) : ℕ :=
  (bmcr &&& 0x33ff) ||| 0x1000 ||| (if warm then 0 else 0x0200)

def phyAutonegotiation (warm : Bool) : DriverM Bool := do
  let page ← phyWrite 0x1f 0
  if page.isNone then pure false
  else do
    let bmcr ← ax88179ReadPhy 0
    match bmcr with
    | none => pure false
    | some bmcr =>
      if bmcr = 0xffff then pure false
      else do
        let done ← phyWrite 0 (newBmcr warm bmcr)
        if done.isSome then
          store fun driver ↦
            { driver with phyInitGeneration := (driver.phyInitGeneration + 1) % 2 ^ 32 }
        pure done.isSome

def startRx : DriverM Bool := do
  let done ← macWrite16 axRxCtl rxCtlDefault
  pure done.isSome

/-- Run the stages in order; the first that fails gives its name to the error. -/
def runStages : List (String × DriverM Bool) → DriverM (Except OpenError Unit)
  | [] => pure (.ok ())
  | (stage, step) :: rest => do
    let done ← step
    if done then runStages rest else pure (.error (.transfer stage))

/-- Enable one bulk endpoint, with its mask as UHS wants it. -/
def enableEndpoint (stage : String) (mask : Ax88179 → ℕ) (count size : ℕ) :
    DriverM (Except OpenError Unit) := do
  let ax ← load fun driver ↦ driver.ax
  let answer ← perform (.handle (.uhsAdministerEndpoint ax.ifHandle .enable (mask ax) count size))
  if answer.code < 0 then pure (.error (.endpoint stage (mask ax) answer.code))
  else do
    store fun driver ↦ driver.setAx fun ax ↦ { ax with enabledEps := ax.enabledEps ||| mask ax }
    pure (.ok ())

/-- Go on after a success, pass a failure through. -/
def afterOk (result : Except OpenError Unit) (next : DriverM (Except OpenError Unit)) :
    DriverM (Except OpenError Unit) :=
  match result with
  | .error why => pure (.error why)
  | .ok () => next

/-- The stages of `ax88179_open` once the interface is acquired. -/
def configureAdapter : DriverM (Except OpenError Unit) := do
  let warm ← warmPhy
  let configured ← runStages [("PHY power reset", phyPowerReset warm), ("clock select", clockSelect),
    ("clock readback", clockReadback), ("MAC address", macAddress),
    ("RX/TX configuration", rxTxConfiguration),
    ("PHY page/autonegotiation", phyAutonegotiation warm)]
  afterOk configured do
    let enabledIn ← enableEndpoint "enable bulk IN" Ax88179.epInMask rxAsyncSlots rxBufferSize
    afterOk enabledIn do
      let enabledOut ← enableEndpoint "enable bulk OUT" Ax88179.epOutMask 1 txBufferSize
      afterOk enabledOut (runStages [("start RX", startRx)])

/-- Give up before the interface was acquired. -/
def openRefused (why : String) : DriverM (Except OpenError Unit) := do
  let _ ← perform (.handle .uhsClientClose)
  let _ ← perform (.handle .free)
  pure (.error (.plain why))

/-- The part of `ax88179_open` with a UHS client. -/
def openInterface : DriverM (Except OpenError Unit) := do
  let found ← perform (.handle (.uhsQueryInterfaces asixVid ax88179Pid))
  if found.code ≤ 0 then openRefused "no AX88179 on the bus"
  else do
    store fun driver ↦ driver.setAx fun ax ↦
      findEndpoints found.profile { ax with ifHandle := found.profile.ifHandle }
    let ax ← load fun driver ↦ driver.ax
    if ¬ endpointsFound ax then openRefused "no bulk endpoint pair on the interface"
    else do
      let acquired ← perform (.handle (.uhsAcquireInterface ax.ifHandle))
      if acquired.code < 0 then openRefused "the interface was refused"
      else do
        store fun driver ↦ { driver with gOpen := true }
        let result ← configureAdapter
        match result with
        | .ok () => pure (.ok ())
        | .error why => do
          ax88179Close
          pure (.error why)

/-- On success the handle is the one of the driver state. -/
def ax88179Open : DriverM (Except OpenError Unit) := do
  let already ← load fun driver ↦ driver.gOpen
  if already then pure (.error (.plain "driver already open (single instance)"))
  else do
    let block ← perform (.handle .calloc)
    if block.code = 0 then pure (.error (.plain "out of memory"))
    else do
      store fun driver ↦ { driver with ax := {} }
      let client ← perform (.handle .uhsClientOpen)
      if client.code < 0 then do
        let _ ← perform (.handle .free)
        pure (.error (.plain "cannot open /dev/uhs"))
      else openInterface

end Ax88179Aroma.Driver
