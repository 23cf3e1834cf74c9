import WaterMaker.Impl.Lines

/-!
# What the EEPROM driver is for

Above the lines there are bytes: `pageTo` and `readFrom` say which bytes a call exchanges with the part on the bus.
Above the bytes there are pages, which `Chip` has, and above those an array of bytes, of which any part can be written
and read (`arrayStep`).

`at24` is the part that the board carries, an AT24C256: it takes the bytes of a page and stores them when the bus is
stopped, and then does not answer for as long as the storing takes (`tWr` ticks). Bytes that it does not acknowledge
for another reason are given beforehand (`At24.acks`).
-/

namespace WM.Spec

open WM.Impl TwoWire

/-! ## Bytes -/

section bytes

variable {τ : Type} (S : Peer τ)

/-- Bytes go to the slave until it does not acknowledge one; then the bus is stopped. -/
def putBytes : List Byte → τ → Bool × τ
  | [], s => (true, s)
  | b :: bs, s => if (S.take b s).1 then putBytes bs (S.take b s).2 else (false, S.stop (S.take b s).2)

/-- `n + 1` bytes come from the slave, of which `b` is the first. -/
def getBytes : Nat → Byte → τ → List Byte × τ
  | 0, b, s => ([b], S.told false s)
  | n + 1, b, s =>
    let r := getBytes n (S.give (S.told true s)) (S.told true s)
    (b :: r.1, r.2)

/-- The address of the part for writing, and that of a cell. -/
def header (addr : Word) : List Byte := [0xae, hiByte addr, loByte addr]

variable (E : EePart τ)

/-- A page is written. -/
def pageTo (addr : Word) (data : List Byte) (s : τ) : Bool × τ :=
  let r := putBytes E.slave (header addr ++ data) (E.slave.start (E.protect false s))
  (r.1, E.protect true (E.slave.stop r.2))

/-- `n + 1` bytes are read, from the cell that the slave has been told. -/
def readOn (n : Nat) (s : τ) : (Nat × List Byte) × τ :=
  match putBytes E.slave [0xaf] (E.slave.start s) with
  | (true, s) =>
    let r := getBytes E.slave n (E.slave.give s) (E.protect true s)
    ((eepromNoErro, r.1), E.slave.stop r.2)
  | (false, s) => ((eepromBussErro, []), E.slave.stop (E.protect true s))

/-- `n + 1` bytes are read. -/
def readFrom (addr : Word) (n : Nat) (s : τ) : (Nat × List Byte) × τ :=
  match putBytes E.slave (header addr) (E.slave.start (E.protect false s)) with
  | (true, s) => readOn E n s
  | (false, s) => ((eepromBussErro, []), E.slave.stop (E.protect true s))

/-- The pages as bytes. -/
def bytePager : Pager τ where
  writeEEROMPage buf pos addr num := pageTo E addr (slice buf pos num.toNat)
  rtThreadDelay n s := ((), E.pass n s)

end bytes

/-- The pages of the chip. -/
def chipPager : Pager Chip where
  writeEEROMPage := writeEEROMPage
  rtThreadDelay _ c := ((), c)

/-! ## The part -/

/-- What the next byte is. -/
inductive At24Stage
  | rest
  | select
  | high
  | low (h : Byte)
  | data
  | sends
  deriving DecidableEq

/-- An AT24C256. -/
structure At24 where
  mem : Nat → Byte
  /-- ticks until the last page is stored -/
  busy : Nat
  wp : Bool
  stage : At24Stage
  addr : Nat
  /-- the bytes of a page that is not stored yet -/
  page : List Byte
  /-- whether the next bytes are acknowledged; those after them are -/
  acks : List Bool

namespace At24

/-- A byte that is acknowledged leads to another stage. -/
def reply (s s' : At24) : Bool × At24 :=
  if s.acks.headD true then (true, { s' with acks := s.acks.tail }) else (false, { s with acks := s.acks.tail })

def take (b : Byte) (s : At24) : Bool × At24 :=
  match s.stage with
  | .rest => (false, s)
  | .select =>
    if s.busy ≠ 0 then (false, { s with stage := .rest })
    else if b = 0xae then s.reply { s with stage := .high }
    else if b = 0xaf then s.reply { s with stage := .sends }
    else (false, { s with stage := .rest })
  | .high => s.reply { s with stage := .low b }
  | .low h => s.reply { s with stage := .data, addr := (word h b).toNat, page := [] }
  | .data => s.reply { s with page := s.page ++ [b] }
  | .sends => (false, s)

/-- A page is stored, unless there is none or the part is protected. -/
def stop (tWr : Nat) (s : At24) : At24 :=
  if s.stage = .data ∧ s.page ≠ [] ∧ s.wp = false then
    { s with mem := burst i2cEePageSize s.mem s.addr s.page, busy := tWr, stage := .rest }
  else { s with stage := .rest }

/-- The part holds `mem` and is protected; it answers after `busy` ticks, and then to every byte. -/
structure Rests (mem : Nat → Byte) (busy : Nat) (s : At24) : Prop where
  mem : s.mem = mem
  busy : s.busy = busy
  wp : s.wp = true
  acks : s.acks = []

end At24

/-- The part of a board on which the storing of a page takes `tWr` ticks. -/
def at24 (tWr : Nat) : EePart At24 where
  slave :=
    { start s := { s with stage := .select, page := [] }
      stop := At24.stop tWr
      take := At24.take
      give s := s.mem s.addr
      told _ s := { s with addr := (s.addr + 1) % 65536 } }
  protect v s := { s with wp := v }
  pass n s := { s with busy := s.busy - n }

/-! ## The array -/

/-- A call of the driver. -/
inductive EeCall
  | write (buf : Nat → Byte) (addr num : Word)
  | read (addr num : Word)

/-- At least one byte, and none behind the last cell. -/
def EeCall.Fits : EeCall → Prop
  | write _ addr num => 1 ≤ num.toNat ∧ addr.toNat + num.toNat ≤ 65536
  | read addr num => 1 ≤ num.toNat ∧ addr.toNat + num.toNat ≤ 65536

instance : DecidablePred EeCall.Fits
  | .write _ addr num => inferInstanceAs (Decidable (1 ≤ num.toNat ∧ addr.toNat + num.toNat ≤ 65536))
  | .read addr num => inferInstanceAs (Decidable (1 ≤ num.toNat ∧ addr.toNat + num.toNat ≤ 65536))

/-- The call on an array of bytes. -/
def arrayStep (mem : Nat → Byte) : EeCall → (Nat × List Byte) × (Nat → Byte)
  | .write buf addr num => ((eepromNoErro, []), blit mem addr.toNat (slice buf 0 num.toNat))
  | .read addr num => ((eepromNoErro, slice mem addr.toNat num.toNat), mem)

/-- The call on the lines. -/
def linesStep {τ : Type} (E : EePart τ) (w : E.Lines) : EeCall → (Nat × List Byte) × E.Lines
  | .write buf addr num =>
    let (code, w) := E.pager.i2cEeBufWriteBsp buf addr num w
    ((code, []), w)
  | .read addr num => E.i2cEeBufReadBsp addr num w

/-- Both lines are high, the master drives `SDA`, and the part is not addressed. -/
def freeBus {τ : Type} (E : EePart τ) (s : τ) : E.Lines := ⟨true, true, true, .off s⟩

end WM.Spec
