import WaterMaker.Impl.I2c
import WaterMaker.Impl.Water

/-!
# The copy of the counters in the EEPROM

`reset_runtime` of `global_var.c` with its writes to the EEPROM, and the phase of `Storage_exe` (`req_execution.c`) that
calls it.
-/

namespace WM.Impl

/-- `DO_MAX_CNT`. -/
abbrev doMaxCnt : Nat := 39

/-- `STS_REG_EE1_ADDR`, behind the areas of the configuration. -/
def stsRegEe1Addr : Nat := 0x0200 + 8 * (confRegMapNum + 1)

/-- A byte of a word in memory; the low byte comes first. -/
def byteOf (k : Nat) (n : Nat) : Byte := if k % 2 = 0 then loByte (BitVec.ofNat 16 n) else hiByte (BitVec.ofNat 16 n)

/-- `u16Runtime` in memory: the low words of the counters, then their high words. -/
def runtimeImage (t : List Runtime) (k : Nat) : Byte :=
  if k / 2 < doMaxCnt then byteOf k (t.getD (k / 2) ⟨0, 0⟩).low
  else byteOf k (t.getD (k / 2 - doMaxCnt) ⟨0, 0⟩).high

/-- `u16Cumulative_Water` in memory. -/
def cumulativeImage (t : Status) (k : Nat) : Byte :=
  byteOf k (if k / 2 = 0 then t.cumulative0 else if k / 2 = 1 then t.cumulative1 else t.cumulative2)

/-- The machine with its EEPROM. -/
structure Machine where
  sys : Sys
  chip : Chip
  /-- whether the next calls of `rt_mutex_take` get the mutex of the bus in time; those after them do -/
  mutex : List Bool

namespace Machine

def setSys (f : Sys → Sys) (b : Machine) : Machine := { b with sys := f b.sys }

/-- `I2C_EE_BufWrite`, whose result nobody looks at. -/
def bufWrite (buf : Nat → Byte) (addr num : Nat) (b : Machine) : Machine :=
  { b with
    chip := (b.chip.i2cEeBufWrite (b.mutex.headD true) buf (BitVec.ofNat 16 addr) (BitVec.ofNat 16 num)).2
    mutex := b.mutex.tail }

/-- The whole table is written. -/
def saveRuntime (b : Machine) : Machine :=
  b.bufWrite (runtimeImage b.sys.sts.runtime) stsRegEe1Addr (4 * doMaxCnt)

def saveCumulative (b : Machine) : Machine :=
  b.bufWrite (cumulativeImage b.sys.sts) (stsRegEe1Addr + 4 * doMaxCnt) 6

/-- `reset_runtime`: one counter, whose argument counts from 1, or with 0xFF all of them and the total. -/
def resetRuntime (param : Nat) (b : Machine) : Machine :=
  if param = 0xFF then
    b.setSys (setSts fun t => { t with
        runtime := t.runtime.map fun _ => ⟨0, 0⟩, cumulative0 := 0, cumulative1 := 0, cumulative2 := 0 })
      |> saveCumulative |> saveRuntime
  else if 0 < param ∧ param ≤ doMaxCnt then b.setSys (Impl.resetRuntime param) |> saveRuntime
  else b

/-- `Storage_exe` in the phase `WATER_STROGE_3`. -/
def storageThree (b : Machine) : Machine :=
  let b := b.setSys (setStor fun t => { t with status := b.sys.storageSignal })
  if b.sys.stor.status then
    b |> resetRuntime 33 |> resetRuntime 34 |> resetRuntime 35 |> resetRuntime 36 |> setSys (storNext .stop)
  else b.setSys storCancel

end Machine

end WM.Impl
