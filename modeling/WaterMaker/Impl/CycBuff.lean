import WaterMaker.Impl.I2c

/-!
# The log in the EEPROM

`cyc_buff.c` keeps the last blocks of a log in the EEPROM, behind the three half-words `record_pt_st` that say where the
newest is and how many there are. The pointers are read from the chip and written back with every block; a query walks
back from the newest block.
-/

namespace WM.Impl

/-- The chip on the bus. -/
structure EeBus where
  chip : Chip
  /-- whether the next transfers begin: the mutex is taken in time and, in a read, the chip answers; those after them
  all do -/
  begins : List Bool

def EeBus.next (e : EeBus) : Bool × EeBus := (e.begins.headD true, { e with begins := e.begins.tail })

/-- `I2C_EE_BufRead`: the bytes that it puts into the buffer. The loop takes a byte less than asked for and then one
more, so that it is never less than one. -/
def EeBus.bufRead (addr num : Word) (e : EeBus) : Option (List Byte) × EeBus :=
  match e.next with
  | (true, e) => (some ((List.range (max num.toNat 1)).map fun k => e.chip.mem (addr + BitVec.ofNat 16 k).toNat), e)
  | (false, e) => (none, e)

/-- `I2C_EE_BufWrite`. -/
def EeBus.bufWrite (buf : Nat → Byte) (addr num : Word) (e : EeBus) : Nat × EeBus :=
  let (taken, e) := e.next
  let (err, chip) := e.chip.i2cEeBufWrite taken buf addr num
  (err, { e with chip := chip })

/-- `record_pt_st`. -/
structure RecordPt where
  startpiont : Word
  endpiont : Word
  cnt : Word
  deriving DecidableEq, Repr

/-- The pointers as they lie in memory, the low byte first. -/
def RecordPt.bytes (p : RecordPt) : List Byte :=
  [loByte p.startpiont, hiByte p.startpiont, loByte p.endpiont, hiByte p.endpiont, loByte p.cnt, hiByte p.cnt]

def RecordPt.ofBytes (b : Nat → Byte) : RecordPt := ⟨word (b 1) (b 0), word (b 3) (b 2), word (b 5) (b 4)⟩

/-- `cyc_buff_st`; `depth` is one less than the number of blocks. -/
structure CycBuff where
  ptInst : RecordPt
  depth : Word
  blockSize : Word
  eepromBuffBaseAddr : Word
  size : BitVec 32
  deriving DecidableEq, Repr

/-- A log and the chip. -/
abbrev CycState := CycBuff × EeBus

/-- `init_cycbuff`, without its result, which is `size`. -/
def initCycbuff (blockSize depth eepromAddr : Word) (b : CycBuff) : CycBuff :=
  { b with
    depth := depth - 1
    blockSize := blockSize
    eepromBuffBaseAddr := eepromAddr
    size := BitVec.ofNat 32 (6 + blockSize.toNat * depth.toNat) }

/-- The pointers are read; a transfer that does not begin leaves them as they are. -/
def readPt (s : CycState) : CycState :=
  match s.2.bufRead s.1.eepromBuffBaseAddr 6 with
  | (some bytes, e) => ({ s.1 with ptInst := .ofBytes fun k => bytes.getD k 0 }, e)
  | (none, e) => (s.1, e)

/-- The pointers are written. -/
def writePt (s : CycState) : Nat × CycState :=
  let (err, e) := s.2.bufWrite (fun k => s.1.ptInst.bytes.getD k 0) s.1.eepromBuffBaseAddr 6
  (err, s.1, e)

/-- The address of the block that `endpiont` points to. -/
def CycBuff.dataAddr (b : CycBuff) : Word := b.eepromBuffBaseAddr + 6 + b.ptInst.endpiont * b.blockSize

/-- A pointer moves on; behind the last block comes the first. -/
def CycBuff.next (b : CycBuff) (pt : Word) : Word := if pt + 1 > b.depth then 0 else pt + 1

/-- The pointers of a log with a block more. -/
def CycBuff.advance (b : CycBuff) : RecordPt :=
  let p := b.ptInst
  if p.cnt + 1 > b.depth then ⟨b.next p.startpiont, b.next p.endpiont, b.depth + 1⟩
  else ⟨p.startpiont, b.next p.endpiont, p.cnt + 1⟩

/-- `cacl_pt`. -/
def caclPt (s : CycState) : Word × CycState :=
  let (b, e) := readPt s
  let b := { b with ptInst := b.advance }
  let (_, s) := writePt (b, e)
  (b.dataAddr, s)

/-- `add_cycbuff`. -/
def addCycbuff (s : CycState) (buffData : Nat → Byte) : CycState :=
  let (dataAddr, b, e) := caclPt s
  (b, (e.bufWrite buffData dataAddr b.blockSize).2)

/-- `clear_cycbuff_log`. -/
def clearCycbuffLog (s : CycState) : Nat × CycState := writePt ({ s.1 with ptInst := ⟨0, 0, 0⟩ }, s.2)

/-- The loop of `quiry_cycbuff`: `cnt` blocks are read into `buffData` from `offset` on. -/
def quiryLoop : Nat → Word → (Nat → Byte) → CycState → (Nat → Byte) × CycState
  | 0, _, buffData, s => (buffData, s)
  | cnt + 1, offset, buffData, (b, e) =>
    -- behind the first block comes the last
    let endpiont := if b.ptInst.endpiont = 0xFFFF then b.depth else b.ptInst.endpiont
    let b := { b with ptInst := { b.ptInst with endpiont := endpiont } }
    let (bytes, e) := e.bufRead b.dataAddr b.blockSize
    let buffData := match bytes with
      | some bytes => blit buffData offset.toNat bytes
      | none => buffData
    quiryLoop cnt (offset + b.blockSize) buffData
      ({ b with ptInst := { b.ptInst with endpiont := b.ptInst.endpiont - 1 } }, e)

/-- `quiry_cycbuff`: the number of blocks and the buffer. -/
def quiryCycbuff (offset : Word) (cnt : Byte) (buffData : Nat → Byte) (s : CycState) :
    Word × (Nat → Byte) × CycState :=
  let (b, e) := s
  let p := b.ptInst
  if p.cnt < offset then (0, buffData, s)
  else
    let cnt : Byte := if p.cnt.toNat - offset.toNat < cnt.toNat then (p.cnt - offset).setWidth 8 else cnt
    let endpiont := if p.endpiont < offset then b.depth + 1 - (offset - p.endpiont) else p.endpiont - offset
    let (buffData, s) := quiryLoop cnt.toNat 0 buffData ({ b with ptInst := { p with endpiont := endpiont } }, e)
    (cnt.setWidth 16, buffData, s)

end WM.Impl
