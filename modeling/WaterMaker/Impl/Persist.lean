import WaterMaker.Impl.Background
import WaterMaker.Impl.RegMap
import WaterMaker.Impl.Water

/-!
# The machine and its registers

The machine runs on the registers (`Dev.config`). Where it changes a setting by itself, it first changes the register
and then has `RAM_Write_Reg` or `write_reg_map` write the new value to the EEPROM (`persistStep`).
-/

namespace WM.Impl

/-- The configuration that the registers make up. The fan's parameters have no row, and stay 0. -/
def Dev.config (d : Dev) : Config :=
  let n := fun i => (d.conf i).toNat
  { powerMode := n 36, tPowerEn := n 60, tPowerOn := n 61, tPowerOff := n 62, manualTestEn := n 58
    testModeType := n 57, alarmBypassEn := n 5, maskAin := d.conf 10, maskDin := d.conf 11
    maskDout := ⟨d.conf 15, d.conf 16⟩, maskAout := d.conf 13
    alarmParam := ⟨n 96, n 64, n 130, n 63, n 65, n 92, n 93⟩
    fanType := 0, fanMode := n 18, setSpeed := n 84, minSpeed := 0, maxSpeed := 0, adjustStep := 0
    startDelay := n 70, fanStopDelay := n 71, startupDelay := n 22, startupLowpressShield := n 26
    minRuntime := n 24, stopDelay := n 23, compInterval := n 72, lnEnable := n 106, lnMode := n 107
    lnFan := n 110, thInteral := n 125, startTemp0 := n 37, startTemp1 := n 97, startHumidity := n 38
    stopTemp0 := n 39, stopTemp1 := n 98, stopHumidity := n 40, startDefrostTemp := n 41
    stopDefrostTemp := n 42, waterCtrl := d.conf 45, exitWaterMode := n 50, disinfectionMode := n 51
    coldWaterMode := n 86, coldWaterStartTemp := n 87, coldWaterStopTemp := n 88, waterMode := n 46
    waterFlow := n 47, closeDelay := n 104, closeFrist := n 103, normalWaterTemp := n 48, hotWaterTemp := n 49
    hotWaterCali := n 82, heaterPm25 := d.conf 115 ≠ 0, sterilizeMode := n 52, sterilizeTime := n 43
    sterilizeInterval := n 44, uvDelay := n 55, storage := n 120, storageDealy0 := n 121, storageDealy1 := n 122
    filterElementType := n 91, restartEnable := d.conf 99, restartDelay := n 100, netErr := n 105 }

/-- `RAM_Write_Reg` or `write_reg_map` of one register, after it was changed. -/
def persistStep (null : NullStore) (d : Dev) (x : Nat × Nat) : Except Halt Dev := do
  let d ← d.setReg null x.1 (BitVec.ofNat 16 x.2)
  let (_, d) ← regMapWrite null x.1 [d.conf x.1] .default d
  return d

/-- The functions that change a setting. -/
inductive SelfChange
  | pwpReqExe | storageExe | sysGetPwrSignal
  deriving DecidableEq, Repr

def SelfChange.exec : SelfChange → Sys → Sys
  | pwpReqExe => Impl.pwpReqExe
  | storageExe => Impl.storageExe
  | sysGetPwrSignal => fun s => (Impl.sysGetPwrSignal s).2

/-- What one call of such a function writes to the registers and the EEPROM, with the rest of the machine as in
`s`. -/
def SelfChange.persist (null : NullStore) (c : SelfChange) (s : Sys) (d : Dev) : Except Halt Dev :=
  (c.exec { s with cfg := d.config, regWrites := [] }).regWrites.reverse.foldlM (persistStep null) d

end WM.Impl
