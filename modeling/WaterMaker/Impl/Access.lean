import Mathlib.Tactic.Simps.Basic
import WaterMaker.Impl.State

/-!
# Reading and writing the registers

The request bits (`req_bitmap_op`), the status bits, the inputs and the float switches
(`Get_Water_level`), as the functions of `sys_status.c` and `req_execution.c` reach them.
-/

namespace WM.Impl

/-- `Exit_Water`: the water source the register `u16ExitWater_Mode` selects. -/
def Config.exitWater (c : Config) : WaterSource :=
  if c.exitWaterMode = 2 then .exit else if c.exitWaterMode = 1 then .fill else .air

/-- Bits of `u16Water_Ctrl`: hot water from the boiler, dispensing by keys, purification pump with the
case open, two cold outlets. -/
def Config.heartPot (c : Config) : Bool := c.waterCtrl.getLsbD 0
def Config.hmiKey (c : Config) : Bool := c.waterCtrl.getLsbD 1
def Config.openPwp (c : Config) : Bool := c.waterCtrl.getLsbD 2
def Config.twoCold (c : Config) : Bool := c.waterCtrl.getLsbD 3

/-- `u16ColdWater_Mode == NORMAL_ICE` and `== BD_ICE`. -/
def Config.normalIce (c : Config) : Bool := c.coldWaterMode == 1
def Config.bdIce (c : Config) : Bool := c.coldWaterMode == 2

/-- The registers that the firmware itself writes. -/
def Config.setWater (mode flow : Nat) (c : Config) : Config :=
  { c with waterMode := mode, waterFlow := flow }
def Config.setExitWater (v : Nat) (c : Config) : Config := { c with exitWaterMode := v }
def Config.setDisinfection (v : Nat) (c : Config) : Config := { c with disinfectionMode := v }
def Config.setStorage (v : Nat) (c : Config) : Config := { c with storage := v }
def Config.setNetErr (v : Nat) (c : Config) : Config := { c with netErr := v }
def Config.setPower (v : Nat) (c : Config) : Config := { c with powerMode := v }

/-- `u16CloseFrist == PUMP_FIRET`: the pump closes before the valve. -/
def Config.pumpFirst (c : Config) : Bool := c.closeFrist == 0

namespace Sys

variable (s : Sys)

/-- The request bit of an output. -/
def reqBit (b : Do) : Bool := s.req.get b.bpos

/-- The bit of an output in the final word. -/
def finalBit (b : Do) : Bool := s.final.get b.bpos

/-- `sys_get_do_sts`. -/
def doSts (b : Do) : Bool := s.sts.comDout.get b.bpos

/-- `sys_get_di_sts`. -/
def diSts (d : Di) : Bool := s.inp.din.getLsbD d.bpos

/-- `sys_get_remap_status(WORK_MODE_STS_REG_NO, ...)`. -/
def remap (b : WorkSts) : Bool := s.sts.workMode.getLsbD b.bpos

/-- `sys_get_pwr_sts`. -/
def pwrSts : Bool := s.remap .pwr

/-- `get_alarm_bitmap`. -/
def alarmBit (a : Acl) : Bool := s.sts.alarm.get a.id

/-- `get_alarm_bitmap_op` and `get_alarm_bitmap_mask` of an output. -/
def almBit (b : Do) : Bool := s.alm.get b.bpos
def maskBit (b : Do) : Bool := s.mask.get b.bpos

/-- `alarm_Off`: a leak, the exhaust temperature or its lock. -/
def alarmOff : Bool := s.alarmBit .waterLeak || s.alarmBit .e11 || s.alarmBit .e12

/-- `Sys_Get_Storage_Signal`. -/
def storageSignal : Bool := s.cfg.storage == 1

end Sys

/-- The float switches: `S_L`, `S_M`, `S_U` of the source tank, `D_L`, `D_ML`, `D_M`, `D_U` of the
drinking tank. -/
structure WaterLevel where
  sL : Bool
  sM : Bool
  sU : Bool
  dL : Bool
  dML : Bool
  dM : Bool
  dU : Bool
  deriving DecidableEq, Repr

/-- `Get_Water_level`. The switches read inverted; the upper source switch counts only where it is
fitted (`dev_mask.din[0] & S_U`). -/
def getWaterLevel (s : Sys) : WaterLevel where
  sL := !s.diSts .sourceDown
  sM := !s.diSts .sourceMiddle
  sU := !s.diSts .sourceUp && s.cfg.maskDin.getLsbD 2
  dL := !s.diSts .drinkDown
  dML := !s.diSts .drinkMd
  dM := !s.diSts .drinkMiddle
  dU := !s.diSts .drinkUp

/-! ## Writing

One setter for each group of registers; what it leaves alone are simp lemmas. -/

@[simps] def setCfg (f : Config → Config) (s : Sys) : Sys := { s with cfg := f s.cfg }
@[simps] def setSts (f : Status → Status) (s : Sys) : Sys := { s with sts := f s.sts }
@[simps] def setTmo (f : Timeout → Timeout) (s : Sys) : Sys := { s with tmo := f s.tmo }
@[simps] def setFanSt (f : FanSt → FanSt) (s : Sys) : Sys := { s with fan := f s.fan }
@[simps] def setCompSt (f : CompSt → CompSt) (s : Sys) : Sys := { s with comp := f s.comp }
@[simps] def setStart (f : StartSt → StartSt) (s : Sys) : Sys := { s with start := f s.start }
@[simps] def setPwp (f : PwpSt → PwpSt) (s : Sys) : Sys := { s with pwp := f s.pwp }
@[simps] def setCold (f : ColdSt → ColdSt) (s : Sys) : Sys := { s with cold := f s.cold }
@[simps] def setSter (f : SterSt → SterSt) (s : Sys) : Sys := { s with ster := f s.ster }
@[simps] def setOut (f : OutSt → OutSt) (s : Sys) : Sys := { s with out := f s.out }
@[simps] def setStor (f : StorSt → StorSt) (s : Sys) : Sys := { s with stor := f s.stor }
@[simps] def setDis (f : DisSt → DisSt) (s : Sys) : Sys := { s with dis := f s.dis }
@[simps] def setAlarm (f : AlarmSt → AlarmSt) (s : Sys) : Sys := { s with alarm := f s.alarm }

/-- `req_bitmap_op`. -/
@[simps] def reqBitmapOp (b : Do) (on : Bool) (s : Sys) : Sys :=
  { s with req := s.req.put b.bpos on }

/-- `sys_set_remap_status(WORK_MODE_STS_REG_NO, ...)`. -/
def setRemapStatus (b : WorkSts) (on : Bool) (s : Sys) : Sys :=
  setSts (fun t => { t with workMode := putBit t.workMode b.bpos on }) s

/-- `RAM_Write_Reg` and `write_reg_map`: the register file's copy of a value. -/
@[simps] def writeReg (addr val : Nat) (s : Sys) : Sys :=
  { s with regWrites := (addr, val) :: s.regWrites }

@[simp] theorem reqBit_reqBitmapOp (b b' : Do) (on : Bool) (s : Sys) :
    (reqBitmapOp b on s).reqBit b' = if b' = b then on else s.reqBit b' := by
  simp only [reqBitmapOp, Sys.reqBit, Words.get_put _ b.bpos_lt, Do.bpos_inj]

end WM.Impl
