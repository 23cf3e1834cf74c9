import WaterMaker.Framework.TwoWire
import WaterMaker.Impl.I2c

/-!
# The EEPROM driver on the lines

`i2c_bsp.c` plays the master of the bus with three pins. `IIC_Start` to `IIC_Read_Byte` are given here as the levels
that they put on the lines, one after the other, with whatever device is there; `WriteEEROMPage`,
`I2C_EE_BufWrite_bsp` and `I2C_EE_BufRead_bsp` are written over them. The delays between two levels are left out; those
in ticks are not.
-/

namespace WM.Impl

open TwoWire

/-- What is on the bus: a slave that has a pin for write protection, and for which time goes by. -/
structure EePart (τ : Type) where
  slave : Peer τ
  /-- the level of `II_WP_Pin` -/
  protect : Bool → τ → τ
  /-- ticks -/
  pass : Nat → τ → τ

/-! ## Levels -/

section lines

variable {σ : Type} (D : Device σ)

/-- `IIC_Start`. -/
def iicStart (w : Bus σ) : Bus σ :=
  (w.setOut D true |>.setSda D true |>.setScl D true |>.setSda D false |>.setScl D false)

/-- `IIC_Stop`. -/
def iicStop (w : Bus σ) : Bus σ :=
  (w.setOut D true |>.setScl D false |>.setSda D false |>.setScl D true |>.setSda D true)

/-- The loop of `IIC_Wait_Ack`, with `n` polls left. -/
def ackLoop : Nat → Bus σ → Byte × Bus σ
  | 0, w => (1, iicStop D w)
  | n + 1, w => if w.sda D then ackLoop n w else (0, w.setScl D false)

/-- `IIC_Wait_Ack`: 0 for an acknowledgement. -/
def iicWaitAck (w : Bus σ) : Byte × Bus σ :=
  ackLoop D 251 (w.setOut D false |>.setSda D true |>.setScl D true)

/-- `IIC_Ack` and `IIC_NAck`, which differ in the level. -/
def iicAckLevel (v : Bool) (w : Bus σ) : Bus σ :=
  (w.setScl D false |>.setOut D true |>.setSda D v |>.setScl D true |>.setScl D false)

def iicAck (w : Bus σ) : Bus σ := iicAckLevel D false w

def iicNack (w : Bus σ) : Bus σ := iicAckLevel D true w

/-- A round of the loop of `IIC_Send_Byte`. -/
def sendBit (x : Byte × Bus σ) : Byte × Bus σ :=
  (x.1 <<< 1, (x.2.setSda D ((x.1 &&& 0x80) >>> 7 == 1) |>.setScl D true |>.setScl D false))

/-- `IIC_Send_Byte`. -/
def iicSendByte (txd : Byte) (w : Bus σ) : Bus σ :=
  ((List.range 8).foldl (fun x _ => sendBit D x) (txd, w.setOut D true |>.setScl D false)).2

/-- A round of the loop of `IIC_Read_Byte`. -/
def readBit (x : Byte × Bus σ) : Byte × Bus σ :=
  let w := x.2.setScl D false |>.setScl D true
  (if w.sda D then (x.1 <<< 1) + 1 else x.1 <<< 1, w)

/-- `IIC_Read_Byte`. -/
def iicReadByte (ack : Bool) (w : Bus σ) : Byte × Bus σ :=
  let (receive, w) := (List.range 8).foldl (fun x _ => readBit D x) ((0 : Byte), w.setOut D false)
  (receive, if ack then iicAck D w else iicNack D w)

/-- `I2c_write_byte`: 1 for an acknowledgement. -/
def i2cWriteByte (data : Byte) (w : Bus σ) : Nat × Bus σ :=
  let (err, w) := iicWaitAck D (iicSendByte D data w)
  (if err = 0 then 1 else 0, w)

/-- Calls of `I2c_write_byte` until one of them fails. -/
def writeBytes : List Byte → Bus σ → Bool × Bus σ
  | [], w => (true, w)
  | b :: bs, w =>
    let (done, w) := i2cWriteByte D b w
    if done = 0 then (false, w) else writeBytes bs w

/-- The reads of `I2C_EE_BufRead_bsp`: `n` bytes are acknowledged, and one more is not. -/
def readBytes : Nat → Bus σ → List Byte × Bus σ
  | 0, w =>
    let (b, w) := iicReadByte D false w
    ([b], w)
  | n + 1, w =>
    let (b, w) := iicReadByte D true w
    let (bs, w) := readBytes n w
    (b :: bs, w)

end lines

/-! ## Transfers -/

/-- `SLAVE_ADDR`. -/
def slaveAddr : Byte := 0xae

/-- A buffer is written by pages, whatever writes a page: `WriteEEROMPage`, with `write_buffer` at `pos`, and
`rt_thread_delay`. -/
structure Pager (σ : Type) where
  writeEEROMPage : (Nat → Byte) → Nat → Word → Byte → StateM σ Bool
  rtThreadDelay : Nat → StateM σ Unit

namespace Pager

variable {σ : Type} (P : Pager σ)

/-- The inner loop: a whole page is tried `cnt` times at most. -/
def tryPage (buf : Nat → Byte) (pos : Nat) (addr : Word) : Nat → StateM σ Unit
  | 0 => pure ()
  | cnt + 1 => do
    let ok ← P.writeEEROMPage buf pos addr (BitVec.ofNat 8 i2cEePageSize)
    if ok then pure ()
    else
      P.rtThreadDelay 1
      tryPage buf pos addr cnt

/-- The loop over the whole pages. -/
def writePages (buf : Nat → Byte) : Nat → Cursor → StateM σ Cursor
  | 0, x => pure x
  | pageNumber + 1, x => do
    P.tryPage buf x.pos x.addr 10
    writePages buf pageNumber (x.skip i2cEePageSize)

/-- `I2CPAGEWriteDelay`. -/
def i2cPageWriteDelay : Nat := 5

/-- The last page. -/
def writeLast (buf : Nat → Byte) (x : Cursor) : StateM σ Nat := do
  let ok ← P.writeEEROMPage buf x.pos x.addr (x.num.setWidth 8)
  if ok then
    P.rtThreadDelay i2cPageWriteDelay
    pure eepromNoErro
  else pure eepromBussErro

/-- `I2C_EE_BufWrite_bsp` after the first page. -/
def writeRest (buf : Nat → Byte) (x : Cursor) : StateM σ Nat := do
  let x ← P.writePages buf (x.num.toNat / i2cEePageSize) x
  P.rtThreadDelay i2cPageWriteDelay
  if x.num = 0 then pure eepromNoErro else P.writeLast buf x

/-- `I2C_EE_BufWrite_bsp`. -/
def i2cEeBufWriteBsp (buf : Nat → Byte) (addr num : Word) : StateM σ Nat := do
  let byteCount := firstCount addr num
  let ok ← P.writeEEROMPage buf 0 addr byteCount
  if ok then
    let x := Cursor.skip byteCount.toNat ⟨0, addr, num⟩
    if x.num = 0 then
      P.rtThreadDelay i2cPageWriteDelay
      pure eepromNoErro
    else P.writeRest buf x
  else pure eepromBussErro

end Pager

namespace EePart

variable {τ : Type} (E : EePart τ)

/-- The bus with the part on it. -/
abbrev Lines (_ : EePart τ) : Type := Bus (Target τ)

/-- `WP_Enable` and `WP_Diable`: write protection is off and on. -/
def wpEnable (w : E.Lines) : E.Lines := { w with dev := w.dev.map (E.protect false) }
def wpDiable (w : E.Lines) : E.Lines := { w with dev := w.dev.map (E.protect true) }

/-- `WriteEEROMPage` on the lines. Where a byte is not acknowledged the bus is stopped twice, by `IIC_Wait_Ack` too. -/
def writeEEROMPage (buf : Nat → Byte) (pos : Nat) (addr : Word) (num : Byte) : StateM E.Lines Bool := fun w =>
  let D := E.slave.device
  let w := iicStart D (E.wpEnable w)
  let (ok, w) := writeBytes D
    ((slaveAddr &&& 0xFE) :: (addr >>> 8).setWidth 8 :: (addr &&& 0x00ff).setWidth 8 :: slice buf pos num.toNat) w
  (ok, E.wpDiable (iicStop D w))

/-- Ticks on the lines. -/
def rtThreadDelay (n : Nat) : StateM E.Lines Unit := fun w => ((), { w with dev := w.dev.map (E.pass n) })

/-- The pages on the lines. -/
def pager : Pager E.Lines := ⟨E.writeEEROMPage, E.rtThreadDelay⟩

/-- `I2C_EE_BufRead_bsp` from the second start on, with the bytes that it stores. Of a buffer of length 0 it stores
one byte too. -/
def readBuffer (num : Word) : StateM E.Lines (Nat × List Byte) := fun w =>
  let D := E.slave.device
  match writeBytes D [slaveAddr ||| 0x01] (iicStart D w) with
  | (true, w) =>
    let (bs, w) := readBytes D (num.toNat - 1) (E.wpDiable w)
    ((eepromNoErro, bs), iicStop D w)
  | (false, w) => ((eepromBussErro, []), iicStop D (E.wpDiable w))

/-- `I2C_EE_BufRead_bsp` on the lines. -/
def i2cEeBufReadBsp (addr num : Word) : StateM E.Lines (Nat × List Byte) := fun w =>
  let D := E.slave.device
  match writeBytes D [slaveAddr &&& 0xFE, (addr >>> 8).setWidth 8, (addr &&& 0x00ff).setWidth 8]
      (iicStart D (E.wpEnable w)) with
  | (true, w) => E.readBuffer num w
  | (false, w) => ((eepromBussErro, []), iicStop D (E.wpDiable w))

end EePart

end WM.Impl
