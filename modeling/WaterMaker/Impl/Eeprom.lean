import WaterMaker.Framework.Block

/-!
# The configuration in the EEPROM

`global_var.c` keeps the registers in three user banks and a factory bank, of 435 words and a checksum word each.
`eeprom_compare_read` votes on a word and mends the odd one out; `eeprom_tripple_write` writes one word to the
three banks and carries their checksums on; `save_conf_reg` writes whole banks. How the transfers over I2C end is
given beforehand (`Eeprom.bus`), so that a run with failures is a run from another state.
-/

namespace WM.Impl

abbrev Byte := BitVec 8
abbrev Word := BitVec 16

/-- `CONF_REG_MAP_NUM`, which is the index of the checksum word in a bank too. -/
abbrev confRegMapNum : Nat := 435

/-- The areas at `CONF_REG_EE1_ADDR`, `CONF_REG_EE2_ADDR`, `CONF_REG_EE3_ADDR` and `CONF_REG_FACT_ADDR`. -/
inductive EeArea
  | ee1 | ee2 | ee3 | fact
  deriving DecidableEq, Repr

/-- The end of a transfer. One that fails, with `EEPROM_BUSSERRO` or `EEPROM_MUXERRO`, leaves anything in the
buffer it was to fill, or in the words it was to write. -/
inductive Transfer
  | done
  | failed (code : Nat) (left : Nat → Word)

structure Eeprom where
  bank : EeArea → Nat → Word
  /-- the byte at `STS_EE_ADDR` -/
  flag : Byte
  /-- how the next transfers end; those after them are done -/
  bus : List Transfer
  /-- what a local variable holds that was never assigned -/
  stack : Word

namespace Eeprom

def transfer (e : Eeprom) : Transfer × Eeprom := (e.bus.headD .done, { e with bus := e.bus.tail })

def setBank (b : EeArea) (f : Nat → Word) (e : Eeprom) : Eeprom := { e with bank := Function.update e.bank b f }

end Eeprom

/-- `I2C_EE_BufRead` from word `i` of a bank on: its result and the words by their place in the buffer. -/
def i2cEeBufRead (b : EeArea) (i : Nat) (e : Eeprom) : Nat × (Nat → Word) × Eeprom :=
  match e.transfer with
  | (.done, e) => (0, fun k => e.bank b (i + k), e)
  | (.failed code left, e) => (code, left, e)

/-- `I2C_EE_BufWrite` to word `i` of a bank and those after it. -/
def i2cEeBufWrite (b : EeArea) (i : Nat) (data : List Word) (e : Eeprom) : Nat × Eeprom :=
  match e.transfer with
  | (.done, e) => (0, e.setBank b (blit (e.bank b) i data))
  | (.failed code left, e) => (code, e.setBank b (blit (e.bank b) i ((List.range data.length).map left)))

/-- The same for the flag. -/
def i2cEeFlagWrite (flag : Byte) (e : Eeprom) : Nat × Eeprom :=
  match e.transfer with
  | (.done, e) => (0, { e with flag := flag })
  | (.failed code left, e) => (code, { e with flag := loByte (left 0) })

/-- `eeprom_singel_write`: the word, and the checksum with the old word taken out of it. -/
def eepromSingelWrite (b : EeArea) (i : Nat) (wr rd : Word) (e : Eeprom) : Nat × Eeprom :=
  let (err0, cs, e) := i2cEeBufRead b confRegMapNum e
  let (err1, e) := i2cEeBufWrite b i [wr] e
  let (err2, e) := i2cEeBufWrite b confRegMapNum [cs 0 ^^^ rd ^^^ wr] e
  (err0 + err1 + err2, e)

/-- `eeprom_compare_read`: 0 and the word that two banks agree on, or 1 and `0x7fff`. Where all three hold 0 the
caller's variable keeps what it held before. -/
def eepromCompareRead (i : Nat) (prior : Word) (e : Eeprom) : Nat × Word × Eeprom :=
  let (_, r0, e) := i2cEeBufRead .ee1 i e
  let (_, r1, e) := i2cEeBufRead .ee2 i e
  let (_, r2, e) := i2cEeBufRead .ee3 i e
  if r0 0 = r1 0 ∧ r2 0 = r1 0 then (0, if r0 0 ≠ 0 then r0 0 else prior, e)
  else if r0 0 = r1 0 then (0, r0 0, (eepromSingelWrite .ee3 i (r0 0) (r2 0) e).2)
  else if r0 0 = r2 0 then (0, r2 0, (eepromSingelWrite .ee2 i (r2 0) (r1 0) e).2)
  else if r1 0 = r2 0 then (0, r1 0, (eepromSingelWrite .ee1 i (r1 0) (r0 0) e).2)
  else (1, 0x7fff, e)

/-- `eeprom_tripple_write`: nothing is written if the checksum cannot be read. -/
def eepromTrippleWrite (i : Nat) (wr rd : Word) (e : Eeprom) : Int × Eeprom :=
  let (err, cs, e) := eepromCompareRead confRegMapNum e.stack e
  if err ≠ 0 then (-1, e)
  else
    let (err1, e) := i2cEeBufWrite .ee1 i [wr] e
    let (err2, e) := i2cEeBufWrite .ee2 i [wr] e
    let (err3, e) := i2cEeBufWrite .ee3 i [wr] e
    let (err4, e) := i2cEeBufWrite .ee1 confRegMapNum [cs ^^^ rd ^^^ wr] e
    let (err5, e) := i2cEeBufWrite .ee2 confRegMapNum [cs ^^^ rd ^^^ wr] e
    let (err6, e) := i2cEeBufWrite .ee3 confRegMapNum [cs ^^^ rd ^^^ wr] e
    (((err1 + err2 + err3 + err4 + err5 + err6 : Nat) : Int), e)

/-- `checksum_u16`. -/
def checksumU16 : List Word → Word
  | [] => 0
  | w :: ws => ws.foldl (· ^^^ ·) w

/-- `EE_FLAG_LOAD_USR` and `EE_FLAG_LOAD_FACT`. -/
def eeFlagLoadUsr : Byte := 0xdf
def eeFlagLoadFact : Byte := 0x1b

/-- `set_load_flag`. -/
def setLoadFlag (sel : Nat) (e : Eeprom) : Eeprom :=
  (i2cEeFlagWrite (match sel with | 0 => eeFlagLoadUsr | 1 => eeFlagLoadFact | 2 => 0xff | _ => 0x9b) e).2

/-- One bank of `save_conf_reg`: written, read back and compared. The mismatches are counted on from the banks
before, so that a bank gets its checksum only if they were all right. -/
def saveBank (image : List Word) (flag : Byte) (b : EeArea) (errCnt : Nat) (e : Eeprom) : Nat × Eeprom :=
  let (_, e) := i2cEeBufWrite b 0 image e
  let (_, test, e) := i2cEeBufRead b 0 e
  let errCnt := errCnt + (image.zipIdx.filter fun x => x.1 ≠ test x.2).length
  if errCnt ≠ 0 then (errCnt, e)
  else (0, (i2cEeFlagWrite flag (i2cEeBufWrite b confRegMapNum [checksumU16 image] e).2).2)

/-- `save_conf_reg` of the registers `image`. -/
def saveConfReg (sel : Nat) (image : List Word) (e : Eeprom) : Nat × Eeprom :=
  match sel with
  | 0 =>
    let (err1, e) := saveBank image eeFlagLoadUsr .ee1 0 e
    let (err2, e) := saveBank image eeFlagLoadUsr .ee2 err1 e
    let (err3, e) := saveBank image eeFlagLoadUsr .ee3 err2 e
    let req := ([err1, err2, err3].filter (· ≠ 0)).length
    (if req < 2 then 0 else req, e)
  | 1 => saveBank image eeFlagLoadFact .fact 0 e
  | _ => (0xff, e)

/-! ## Word by word

Where no transfer fails, the EEPROM changes one word at a time. These are the words that the functions above write,
in their order: a power cut leaves the first few of them. -/

structure WordWrite where
  area : EeArea
  index : Nat
  value : Word

def Eeprom.put (e : Eeprom) (w : WordWrite) : Eeprom :=
  e.setBank w.area (Function.update (e.bank w.area) w.index w.value)

/-- The writes of `eeprom_singel_write`. -/
def singelWrites (b : EeArea) (i : Nat) (wr rd : Word) (e : Eeprom) : List WordWrite :=
  [⟨b, i, wr⟩, ⟨b, confRegMapNum, e.bank b confRegMapNum ^^^ rd ^^^ wr⟩]

/-- The writes of `eeprom_compare_read`. -/
def compareReadWrites (i : Nat) (e : Eeprom) : List WordWrite :=
  let r0 := e.bank .ee1 i
  let r1 := e.bank .ee2 i
  let r2 := e.bank .ee3 i
  if r0 = r1 ∧ r2 = r1 then []
  else if r0 = r1 then singelWrites .ee3 i r0 r2 e
  else if r0 = r2 then singelWrites .ee2 i r2 r1 e
  else if r1 = r2 then singelWrites .ee1 i r1 r0 e
  else []

/-- The writes of `eeprom_tripple_write`. -/
def trippleWrites (i : Nat) (wr rd : Word) (e : Eeprom) : List WordWrite :=
  let (err, cs, _) := eepromCompareRead confRegMapNum e.stack e
  compareReadWrites confRegMapNum e ++
    if err ≠ 0 then []
    else
      [⟨.ee1, i, wr⟩, ⟨.ee2, i, wr⟩, ⟨.ee3, i, wr⟩, ⟨.ee1, confRegMapNum, cs ^^^ rd ^^^ wr⟩,
        ⟨.ee2, confRegMapNum, cs ^^^ rd ^^^ wr⟩, ⟨.ee3, confRegMapNum, cs ^^^ rd ^^^ wr⟩]

end WM.Impl
