import WaterMaker.Framework.Page
import WaterMaker.Impl.Eeprom

/-!
# Writing to the EEPROM over I2C

`I2C_EE_BufWrite_bsp` of `i2c_bsp.c` cuts a buffer into the pages of the chip: what is left of the first page, whole
pages, each of them tried up to ten times, and the rest. How the calls of `WriteEEROMPage` end is given beforehand
(`Chip.ends`); the calls made are kept (`Chip.issued`). `I2C_EE_BufWrite` takes the mutex of the bus for it.
-/

namespace WM.Impl

/-- `I2C2_EE_PageSize`. -/
abbrev i2cEePageSize : Nat := 64

/-- `EEPROM_NOERRO` and `EEPROM_BUSSERRO`. -/
abbrev eepromNoErro : Nat := 0
abbrev eepromBussErro : Nat := 1
/-- `EEPROM_MUXERRO`. -/
abbrev eepromMuxErro : Nat := 2

/-- The end of a page write. One that the chip does not acknowledge has had its first `taken` bytes taken. -/
inductive PageEnd
  | done
  | failed (taken : Nat)
  deriving DecidableEq, Repr

/-- A call of `WriteEEROMPage`, and whether it returned `EEPROM_NOERRO`. -/
structure PageWrite where
  burst : Burst Byte
  ok : Bool
  deriving DecidableEq, Repr

structure Chip where
  mem : Nat → Byte
  /-- how the next page writes end; those after them are done -/
  ends : List PageEnd
  issued : List PageWrite

/-- `n` bytes of the buffer from `pos` on. -/
def slice (buf : Nat → Byte) (pos n : Nat) : List Byte := (List.range n).map fun k => buf (pos + k)

/-- `WriteEEROMPage`, with `write_buffer` at `pos`. -/
def writeEEROMPage (buf : Nat → Byte) (pos : Nat) (addr : Word) (num : Byte) (c : Chip) : Bool × Chip :=
  let data := slice buf pos num.toNat
  match c.ends.headD .done with
  | .done =>
    (true, ⟨burst i2cEePageSize c.mem addr.toNat data, c.ends.tail, c.issued ++ [⟨⟨addr.toNat, data⟩, true⟩]⟩)
  | .failed taken =>
    (false, ⟨burst i2cEePageSize c.mem addr.toNat (data.take taken), c.ends.tail,
      c.issued ++ [⟨⟨addr.toNat, data⟩, false⟩]⟩)

/-- The inner loop: a whole page is tried until it is written, `cnt` times at most. -/
def tryPage (buf : Nat → Byte) (pos : Nat) (addr : Word) : Nat → Chip → Chip
  | 0, c => c
  | cnt + 1, c =>
    match writeEEROMPage buf pos addr (BitVec.ofNat 8 i2cEePageSize) c with
    | (true, c) => c
    | (false, c) => tryPage buf pos addr cnt c

/-- `write_buffer`, `write_addr` and `num_byte_write`. -/
structure Cursor where
  pos : Nat
  addr : Word
  num : Word
  deriving DecidableEq, Repr

/-- `n` bytes are written. -/
def Cursor.skip (n : Nat) (x : Cursor) : Cursor := ⟨x.pos + n, x.addr + BitVec.ofNat 16 n, x.num - BitVec.ofNat 16 n⟩

/-- The loop over the whole pages. A page that could not be written is passed over. -/
def writePages (buf : Nat → Byte) : Nat → Cursor → Chip → Cursor × Chip
  | 0, x, c => (x, c)
  | pageNumber + 1, x, c => writePages buf pageNumber (x.skip i2cEePageSize) (tryPage buf x.pos x.addr 10 c)

/-- The length of the first page write. -/
def firstCount (addr num : Word) : Byte :=
  let byteCount : Byte := BitVec.ofNat 8 (i2cEePageSize - addr.toNat % i2cEePageSize)
  if num.toNat ≤ byteCount.toNat then num.setWidth 8 else byteCount

/-- The result of the last page write. -/
def pageResult (r : Bool × Chip) : Nat × Chip := (if r.1 then eepromNoErro else eepromBussErro, r.2)

/-- `I2C_EE_BufWrite_bsp` after the first page. -/
def writeRest (buf : Nat → Byte) (x : Cursor) (c : Chip) : Nat × Chip :=
  let (x, c) := writePages buf (x.num.toNat / i2cEePageSize) x c
  if x.num = 0 then (eepromNoErro, c)
  else pageResult (writeEEROMPage buf x.pos x.addr (x.num.setWidth 8) c)

/-- `I2C_EE_BufWrite_bsp`. -/
def i2cEeBufWriteBsp (buf : Nat → Byte) (addr num : Word) (c : Chip) : Nat × Chip :=
  let byteCount := firstCount addr num
  match writeEEROMPage buf 0 addr byteCount c with
  | (false, c) => (eepromBussErro, c)
  | (true, c) =>
    let x := Cursor.skip byteCount.toNat ⟨0, addr, num⟩
    if x.num = 0 then (eepromNoErro, c) else writeRest buf x c

/-- `I2C_EE_BufWrite` on the chip; `taken` says whether `rt_mutex_take` got the mutex in time. -/
def Chip.i2cEeBufWrite (taken : Bool) (buf : Nat → Byte) (addr num : Word) (c : Chip) : Nat × Chip :=
  if taken then i2cEeBufWriteBsp buf addr num c else (eepromMuxErro, c)

end WM.Impl
