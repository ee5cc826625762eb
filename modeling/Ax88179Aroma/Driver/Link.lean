import Ax88179Aroma.Driver.Parser

/-!
# Link supervision

Register access over the control endpoint and `ax88179_link`, which reads the PHY and reprograms the
MAC when the negotiated medium changes.  Every return code of a control transfer is possible, so
every step has its error exit.  Of the receive state a link change clears `rx_frames` and nothing
else.
-/

namespace Ax88179Aroma.Driver

open Effect Program

def axAccessMac : ℕ := 0x01
def axAccessPhy : ℕ := 0x02
def axRxCtl : ℕ := 0x0b
def axMediumStatusMode : ℕ := 0x22
def axRxBulkinQctrl : ℕ := 0x2e
def ax88179PhyId : ℕ := 0x03
def axPhysicalLinkStatus : ℕ := 0x02

/-- `DROPCRCERR | IPE | START | AP | AB | AMALL` -/
def rxCtlDefault : ℕ := 0x0100 ||| 0x0200 ||| 0x0080 ||| 0x0020 ||| 0x0008 ||| 0x0002

/-- A vendor request with the bytes it read, `none` for a failed or short transfer. -/
def control (read : Bool) (cmd value index size : ℕ) (data : List UInt8) :
    DriverM (Option Memory) :=
  if size = 0 ∨ size > 64 then pure none
  else do
    let reply ← perform (.submitControlRequest read cmd value index size data)
    if reply.code < 0 then pure none
    else if reply.code ≠ size then pure none
    else pure (some reply.bytes)

def regWrite (cmd reg size : ℕ) (data : List UInt8) : DriverM (Option Memory) :=
  control false cmd reg size size data

def regRead (cmd reg size : ℕ) : DriverM (Option Memory) :=
  control true cmd reg size size []

def ax88179ReadPhy (reg : ℕ) : DriverM (Option ℕ) := do
  let bytes ← control true axAccessPhy ax88179PhyId reg 2 []
  pure (bytes.map fun bytes ↦ (bytes 0).toNat ||| (bytes 1).toNat <<< 8)

def macWrite16 (reg value : ℕ) : DriverM (Option Memory) :=
  regWrite axAccessMac reg 2 [UInt8.ofNat (value &&& 0xFF), UInt8.ofNat (value >>> 8)]

/-- Clear the medium and what is buffered, once the MAC was told about it. -/
def linkDownFinish : Option Memory → DriverM ℤ
  | none => pure (-1)
  | some _ => do
    store fun driver ↦ driver.setAx fun ax ↦ { ax with medium := 0, rxFrames := 0 }
    pure 0

/-- The part of `ax88179_link` after the PHY is known to be down. -/
def linkDown : DriverM ℤ := do
  let medium ← load fun driver ↦ driver.ax.medium
  let written ← if medium ≠ 0 then macWrite16 axMediumStatusMode 0 else pure (some fun _ ↦ 0)
  linkDownFinish written

/-- Wait until the TX FIFO is ready; the argument counts the tries that are left. -/
def waitTxFifo : ℕ → DriverM Bool
  | 0 => pure false
  | tries + 1 => do
    let fifo ← control true 0x81 0x8c 0 4 []
    match fifo with
    | none => pure false
    | some bytes =>
      if le32 bytes 0 &&& 0x40000000 = 0 then pure true
      else do
        let _ ← perform (.osSleepMs 10)
        waitTxFifo tries

def linkSpeed (status : ℕ) : ℕ :=
  if status &&& 0xc000 = 0x8000 then 1000
  else if status &&& 0xc000 = 0x4000 then 100
  else 10

def linkMedium (status : ℕ) : ℕ :=
  0x100 ||| (if status &&& 0x2000 ≠ 0 then 2 else 0) |||
    (if linkSpeed status = 1000 then 9 else 0) ||| (if linkSpeed status = 100 then 0x200 else 0)

def linkQueue (speed usb : ℕ) : List UInt8 :=
  if speed = 1000 ∧ usb &&& 4 ≠ 0 then [7, 0x4f, 0, 0x12, 0xff]
  else if speed = 1000 ∧ usb &&& 2 ≠ 0 then [7, 0x20, 3, 0x16, 0xff]
  else if speed = 100 ∧ usb &&& 6 ≠ 0 then [7, 0xae, 7, 0x18, 0xff]
  else [7, 0xcc, 0x4c, 0x18, 8]

/-- Perform the steps in order until one of them fails. -/
def allDone : List (DriverM (Option Memory)) → DriverM Bool
  | [] => pure true
  | step :: rest => do
    let done ← step
    if done.isSome then allDone rest else pure false

/-- Reprogram the MAC for a new medium. -/
def changeMedium (speed medium : ℕ) : DriverM ℤ := do
  let usb ← regRead axAccessMac axPhysicalLinkStatus 1
  match usb with
  | none => pure (-1)
  | some bytes => do
    let prepared ← allDone [macWrite16 axMediumStatusMode 0, macWrite16 axRxCtl 0,
      regWrite axAccessMac axRxBulkinQctrl 5 (linkQueue speed (bytes 0).toNat),
      macWrite16 axRxCtl rxCtlDefault]
    if !prepared then pure (-1)
    else do
      let ready ← waitTxFifo 10
      if !ready then pure (-1)
      else do
        let written ← macWrite16 axMediumStatusMode medium
        match written with
        | none => pure (-1)
        | some _ => do
          store fun driver ↦ driver.setAx fun ax ↦ { ax with rxFrames := 0, medium := medium }
          pure 1

/-- The part of `ax88179_link` after the PHY was read. -/
def linkDecide : Option ℕ → Option ℕ → DriverM (ℤ × ℕ)
  | some bmsr, some status =>
    if bmsr = 0xffff ∨ status = 0xffff then pure (-1, 0)
    else if bmsr &&& 4 = 0 ∨ bmsr &&& 0x20 = 0 ∨ status &&& 0x400 = 0 then do
      let rc ← linkDown
      pure (rc, 0)
    else do
      let medium ← load fun driver ↦ driver.ax.medium
      let rc ← if medium ≠ linkMedium status then
          changeMedium (linkSpeed status) (linkMedium status)
        else pure 1
      pure (rc, if rc = 1 then linkSpeed status else 0)
  | _, _ => pure (-1, 0)

/-- A further read of the chain `read || read || read`, which ends at the first failure. -/
def readPhyAfter (before : Option ℕ) (reg : ℕ) : DriverM (Option ℕ) :=
  if before.isSome then ax88179ReadPhy reg else pure none

/-- `ax88179_link` on a valid handle: the return value and the speed. -/
def ax88179Link : DriverM (ℤ × ℕ) := do
  -- the link bit is latched, so it is read twice
  let first ← ax88179ReadPhy 1
  let bmsr ← readPhyAfter first 1
  let status ← readPhyAfter bmsr 0x11
  linkDecide bmsr status

end Ax88179Aroma.Driver
