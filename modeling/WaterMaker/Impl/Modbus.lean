import WaterMaker.Impl.RegMap

/-!
# The Modbus slave

The panel and the service tool reach the registers by Modbus RTU: `analysis_protocol` takes a frame from the
receive buffer, has `cpad_eMBRegHoldingCB` read the registers, write one, or write a block, and makes the reply in
the same buffer. A single write is checked by `reg_map_write`, or is a command (`comSingle`); a block goes to the
registers as it is.
-/

namespace WM.Impl

/-! ## The checksum of a frame -/

def aucCRCHi : List Byte :=
  [0x00, 0xC1, 0x81, 0x40, 0x01, 0xC0, 0x80, 0x41, 0x01, 0xC0, 0x80, 0x41, 0x00, 0xC1, 0x81, 0x40,
   0x01, 0xC0, 0x80, 0x41, 0x00, 0xC1, 0x81, 0x40, 0x00, 0xC1, 0x81, 0x40, 0x01, 0xC0, 0x80, 0x41,
   0x01, 0xC0, 0x80, 0x41, 0x00, 0xC1, 0x81, 0x40, 0x00, 0xC1, 0x81, 0x40, 0x01, 0xC0, 0x80, 0x41,
   0x00, 0xC1, 0x81, 0x40, 0x01, 0xC0, 0x80, 0x41, 0x01, 0xC0, 0x80, 0x41, 0x00, 0xC1, 0x81, 0x40,
   0x01, 0xC0, 0x80, 0x41, 0x00, 0xC1, 0x81, 0x40, 0x00, 0xC1, 0x81, 0x40, 0x01, 0xC0, 0x80, 0x41,
   0x00, 0xC1, 0x81, 0x40, 0x01, 0xC0, 0x80, 0x41, 0x01, 0xC0, 0x80, 0x41, 0x00, 0xC1, 0x81, 0x40,
   0x00, 0xC1, 0x81, 0x40, 0x01, 0xC0, 0x80, 0x41, 0x01, 0xC0, 0x80, 0x41, 0x00, 0xC1, 0x81, 0x40,
   0x01, 0xC0, 0x80, 0x41, 0x00, 0xC1, 0x81, 0x40, 0x00, 0xC1, 0x81, 0x40, 0x01, 0xC0, 0x80, 0x41,
   0x01, 0xC0, 0x80, 0x41, 0x00, 0xC1, 0x81, 0x40, 0x00, 0xC1, 0x81, 0x40, 0x01, 0xC0, 0x80, 0x41,
   0x00, 0xC1, 0x81, 0x40, 0x01, 0xC0, 0x80, 0x41, 0x01, 0xC0, 0x80, 0x41, 0x00, 0xC1, 0x81, 0x40,
   0x00, 0xC1, 0x81, 0x40, 0x01, 0xC0, 0x80, 0x41, 0x01, 0xC0, 0x80, 0x41, 0x00, 0xC1, 0x81, 0x40,
   0x01, 0xC0, 0x80, 0x41, 0x00, 0xC1, 0x81, 0x40, 0x00, 0xC1, 0x81, 0x40, 0x01, 0xC0, 0x80, 0x41,
   0x00, 0xC1, 0x81, 0x40, 0x01, 0xC0, 0x80, 0x41, 0x01, 0xC0, 0x80, 0x41, 0x00, 0xC1, 0x81, 0x40,
   0x01, 0xC0, 0x80, 0x41, 0x00, 0xC1, 0x81, 0x40, 0x00, 0xC1, 0x81, 0x40, 0x01, 0xC0, 0x80, 0x41,
   0x01, 0xC0, 0x80, 0x41, 0x00, 0xC1, 0x81, 0x40, 0x00, 0xC1, 0x81, 0x40, 0x01, 0xC0, 0x80, 0x41,
   0x00, 0xC1, 0x81, 0x40, 0x01, 0xC0, 0x80, 0x41, 0x01, 0xC0, 0x80, 0x41, 0x00, 0xC1, 0x81, 0x40]

def aucCRCLo : List Byte :=
  [0x00, 0xC0, 0xC1, 0x01, 0xC3, 0x03, 0x02, 0xC2, 0xC6, 0x06, 0x07, 0xC7, 0x05, 0xC5, 0xC4, 0x04,
   0xCC, 0x0C, 0x0D, 0xCD, 0x0F, 0xCF, 0xCE, 0x0E, 0x0A, 0xCA, 0xCB, 0x0B, 0xC9, 0x09, 0x08, 0xC8,
   0xD8, 0x18, 0x19, 0xD9, 0x1B, 0xDB, 0xDA, 0x1A, 0x1E, 0xDE, 0xDF, 0x1F, 0xDD, 0x1D, 0x1C, 0xDC,
   0x14, 0xD4, 0xD5, 0x15, 0xD7, 0x17, 0x16, 0xD6, 0xD2, 0x12, 0x13, 0xD3, 0x11, 0xD1, 0xD0, 0x10,
   0xF0, 0x30, 0x31, 0xF1, 0x33, 0xF3, 0xF2, 0x32, 0x36, 0xF6, 0xF7, 0x37, 0xF5, 0x35, 0x34, 0xF4,
   0x3C, 0xFC, 0xFD, 0x3D, 0xFF, 0x3F, 0x3E, 0xFE, 0xFA, 0x3A, 0x3B, 0xFB, 0x39, 0xF9, 0xF8, 0x38,
   0x28, 0xE8, 0xE9, 0x29, 0xEB, 0x2B, 0x2A, 0xEA, 0xEE, 0x2E, 0x2F, 0xEF, 0x2D, 0xED, 0xEC, 0x2C,
   0xE4, 0x24, 0x25, 0xE5, 0x27, 0xE7, 0xE6, 0x26, 0x22, 0xE2, 0xE3, 0x23, 0xE1, 0x21, 0x20, 0xE0,
   0xA0, 0x60, 0x61, 0xA1, 0x63, 0xA3, 0xA2, 0x62, 0x66, 0xA6, 0xA7, 0x67, 0xA5, 0x65, 0x64, 0xA4,
   0x6C, 0xAC, 0xAD, 0x6D, 0xAF, 0x6F, 0x6E, 0xAE, 0xAA, 0x6A, 0x6B, 0xAB, 0x69, 0xA9, 0xA8, 0x68,
   0x78, 0xB8, 0xB9, 0x79, 0xBB, 0x7B, 0x7A, 0xBA, 0xBE, 0x7E, 0x7F, 0xBF, 0x7D, 0xBD, 0xBC, 0x7C,
   0xB4, 0x74, 0x75, 0xB5, 0x77, 0xB7, 0xB6, 0x76, 0x72, 0xB2, 0xB3, 0x73, 0xB1, 0x71, 0x70, 0xB0,
   0x50, 0x90, 0x91, 0x51, 0x93, 0x53, 0x52, 0x92, 0x96, 0x56, 0x57, 0x97, 0x55, 0x95, 0x94, 0x54,
   0x9C, 0x5C, 0x5D, 0x9D, 0x5F, 0x9F, 0x9E, 0x5E, 0x5A, 0x9A, 0x9B, 0x5B, 0x99, 0x59, 0x58, 0x98,
   0x88, 0x48, 0x49, 0x89, 0x4B, 0x8B, 0x8A, 0x4A, 0x4E, 0x8E, 0x8F, 0x4F, 0x8D, 0x4D, 0x4C, 0x8C,
   0x44, 0x84, 0x85, 0x45, 0x87, 0x47, 0x46, 0x86, 0x82, 0x42, 0x43, 0x83, 0x41, 0x81, 0x80, 0x40]

/-- One byte of `usMBCRC16`, on `ucCRCHi` and `ucCRCLo`. -/
def crcStep (crc : Byte × Byte) (b : Byte) : Byte × Byte :=
  let i := (crc.2 ^^^ b).toNat
  (aucCRCLo.getD i 0, crc.1 ^^^ aucCRCHi.getD i 0)

def usMBCRC16 (frame : Nat → Byte) (len : Nat) : Word :=
  let crc := (List.range len).foldl (fun crc k => crcStep crc (frame k)) (0xFF, 0xFF)
  word crc.1 crc.2

/-! ## The registers -/

/-- `CONFIG_REG_MAP_OFFSET`, the end of the command registers. -/
abbrev configRegMapOffset : Nat := 64

/-- `STATUS_REG_MAP_OFFSET`. -/
abbrev statusRegMapOffset : Nat := 500

/-- `CPAD_S_REG_HOLDING_NREGS`. -/
abbrev cpadSRegHoldingNregs : Nat := 800

/-- `CPAD_REG_HOLDING_WRITE_NREGS`. -/
abbrev cpadRegHoldingWriteNregs : Nat := 501

/-- `eMBErrorCode`, as far as the slave uses it. -/
inductive MbErr
  | noErr | noReg | noRes
  deriving DecidableEq, Repr

def MbErr.code : MbErr → Byte
  | noErr => 0 | noReg => 1 | noRes => 4

/-- Row `i` of `status_reg_map_inst` has a register. -/
def stsMapped (i : Nat) : Bool := i < 44 && i != 30

/-- `mbs_read_reg`. -/
def mbsReadReg (d : Dev) (a : Nat) : Word :=
  if a < configRegMapOffset then d.cmd a
  else if a < configRegMapOffset + confRegMapNum then d.word (a - configRegMapOffset)
  else if statusRegMapOffset ≤ a ∧ a < statusRegMapOffset + 50 then
    if stsMapped (a - statusRegMapOffset) then d.sts (a - statusRegMapOffset) else d.flash
  else 0x7fff

/-- The registers as they are put into the buffer. -/
def readRegs (d : Dev) (addr n : Nat) : List Byte :=
  (List.range n).flatMap fun k => [hiByte (mbsReadReg d (addr + k)), loByte (mbsReadReg d (addr + k))]

/-- A single write by way of `reg_map_write`; the `id` is read from the row. -/
def comWrite (null : NullStore) (r : Nat) (v : Word) (d : Dev) : Except Halt (MbErr × Dev) :=
  match confReg r with
  | none => .error .fault
  | some row => do
    let (err, d) ← regMapWrite null row.id [v] .cpad d
    return (if err = .noErr then .noErr else .noRes, d)

def Dev.call (c : Outcall) (d : Dev) : Dev := { d with calls := d.calls ++ [c] }

/-- `COM_SINGLE_eMBRegHoldingCB`, for the row `r`. -/
def comSingle (null : NullStore) (r : Nat) (v : Word) (d : Dev) : Except Halt (MbErr × Dev) :=
  if r = factoryReset then
    if v = 0x3C then .error (.reset { d with ee := setLoadFlag 2 d.ee })
    else if v = 0x5A then .error (.reset { d with ee := setLoadFlag 1 d.ee })
    else if v = 0x69 then .error (.reset { d with ee := (saveConfReg 1 d.image d.ee).2 })
    else if v = 0x2D then .error (.reset (d.call (.closeDisPwr true)))
    else if v = 0x1E then .ok (.noErr, (d.call (.closeDisPwr true)).call (.closeDisPwr false))
    else if v = 0x15 then .ok (.noErr, d.call (.resetRuntime 0xFF))
    else .ok (.noRes, d)
  else if r = manualTset then
    if v = 0 then .error (.reset d) else comWrite null r v d
  else if r = clearRt then
    if v ≠ 0 then .ok (.noErr, d.call (.resetRuntime v)) else .ok (.noRes, d)
  else if r = clearAlarmReg then
    if v = 0x5A then .ok (.noErr, d.call .clearAlarm) else .ok (.noRes, d)
  else if r = setTl ∨ r = setTh then
    if v ≠ 0 then
      .ok (.noErr, { d with
        setSystimeDelay := 10
        setSystimeFlag := d.setSystimeFlag ||| if r = setTl then 1 else 2
        conf := Function.update d.conf r v })
    else .ok (.noRes, d)
  else comWrite null r v d

/-- The mode `CPAD_MB_REG_SINGLE_WRITE`, which every caller uses for one register. -/
def singleWrite (null : NullStore) (buf : Nat → Byte) (addr : Nat) (d : Dev) : Except Halt (MbErr × Dev) :=
  let v := word (buf 0) (buf 1)
  if addr + 1 > cpadRegHoldingWriteNregs then .ok (.noReg, d)
  else if addr + 1 ≥ configRegMapOffset + 1 then do
    let (err, d) ← comSingle null (addr - configRegMapOffset) v d
    return (if err = .noErr then .noErr else .noRes, d)
  else .ok (.noErr, { d with cmd := Function.update d.cmd addr v })

/-- Register `i` of a block. A block that starts among the command registers leads before the table. -/
def blockStep (null : NullStore) (buf : Nat → Byte) (addr : Nat) (d : Dev) (i : Nat) : Except Halt Dev :=
  if addr + i < configRegMapOffset then .error .fault
  else d.setReg null (addr + i - configRegMapOffset) (word (buf (2 * i)) (buf (2 * i + 1)))

/-- A block into the table, and the whole table into the EEPROM. A block from the password on makes the network
be set up anew. -/
def blockWrite (null : NullStore) (buf : Nat → Byte) (addr n : Nat) (d : Dev) : Except Halt Dev := do
  let d ← (List.range n).foldlM (blockStep null buf addr) d
  let d := { d with ee := (saveConfReg 0 d.image d.ee).2 }
  if addr = configRegMapOffset + eeWifiPassword then
    let d ← d.setReg null eeWifiSet 0x5AA5
    let (_, d) ← regMapWrite null eeWifiSet [d.conf eeWifiSet] .default d
    return d
  else return d

/-- The mode `CPAD_MB_REG_MULTIPLE_WRITE`. -/
def multipleWrite (null : NullStore) (buf : Nat → Byte) (addr n : Nat) (d : Dev) : Except Halt (MbErr × Dev) :=
  if 0 < n ∧ n ≤ 100 then
    if addr + n ≤ cpadRegHoldingWriteNregs then
      if addr + n ≥ configRegMapOffset + 1 then do return (.noErr, ← blockWrite null buf addr n d)
      else .ok (.noErr, d)
    else .ok (.noReg, d)
  else .ok (.noErr, d)

inductive RegMode
  | read | singleWrite | multipleWrite
  deriving DecidableEq, Repr

/-- `cpad_eMBRegHoldingCB`: the error, what it puts into the buffer, and the registers. -/
def cpadEMBRegHoldingCB (null : NullStore) (buf : Nat → Byte) (addr n : Nat) (mode : RegMode) (d : Dev) :
    Except Halt (MbErr × List Byte × Dev) :=
  if addr + n ≤ cpadSRegHoldingNregs then
    match mode with
    | .read => .ok (.noErr, readRegs d addr n, d)
    | .singleWrite => do let (err, d) ← singleWrite null buf addr d; return (err, [], d)
    | .multipleWrite => do let (err, d) ← multipleWrite null buf addr n d; return (err, [], d)
  else .ok (.noReg, [], d)

/-! ## Frames -/

/-- The buffer with the reply, its length, and the registers. -/
structure Reply where
  rxbuf : Nat → Byte
  sendlen : Nat
  dev : Dev

/-- The end of `analysis_protocol`: an exception if there was an error, and the checksum. -/
def reply (err : MbErr) (rx : Nat → Byte) (len : Nat) (d : Dev) : Reply :=
  let rx' := if err = .noErr then rx else Function.update (Function.update rx 1 (0x80 ||| rx 1)) 2 err.code
  let len' := if err = .noErr then len else 5
  let crc := usMBCRC16 rx' (len' - 2)
  ⟨Function.update (Function.update rx' (len' - 1) (hiByte crc)) (len' - 2) (loByte crc), len', d⟩

/-- The start address and the number of registers of a frame. -/
def frameAddr (rx : Nat → Byte) : Nat := (word (rx 2) (rx 3)).toNat
def frameNreg (rx : Nat → Byte) : Nat := (word (rx 4) (rx 5)).toNat

/-- `analysis_protocol`. A read must fit the buffer of `MNT_RX_LEN` bytes; another function code leaves the length
of the reply at 0, and its checksum goes before the buffer. -/
def analysisProtocol (null : NullStore) (rx : Nat → Byte) (d : Dev) : Except Halt Reply :=
  if rx 1 = 0x03 then do
    let (err, bytes, d) ← cpadEMBRegHoldingCB null (fun k => rx (3 + k)) (frameAddr rx) (frameNreg rx) .read d
    if 3 + bytes.length > 512 then .error .fault
    else
      let count := BitVec.ofNat 8 (2 * frameNreg rx)
      return reply err (Function.update (blit rx 3 bytes) 2 count) (count.toNat + 5) d
  else if rx 1 = 0x06 then do
    let (err, _, d) ← cpadEMBRegHoldingCB null (fun k => rx (4 + k)) (frameAddr rx) 1 .singleWrite d
    return reply err rx 8 d
  else if rx 1 = 0x10 then do
    let (err, _, d) ← cpadEMBRegHoldingCB null (fun k => rx (7 + k)) (frameAddr rx) (frameNreg rx) .multipleWrite d
    return reply err rx 8 d
  else .error .fault

end WM.Impl
