import WaterMaker.Impl.Types

/-!
# The firmware's state

The registers `g_sys.config` (`Config`) and `g_sys.status` (`Status`), what the acquisition threads
publish (`Inputs`), the local registers `l_sys` and the functions' `static` variables, grouped by the
component they belong to. A `uint8_t` used as a flag is a `Bool`; a counter is a `Nat` that wraps where
the code increments it; a word of bits is a `BitVec`. The debug words `REQ_TEST` and `TEST` are left out.
-/

namespace WM.Impl

/-- The parameters of an alarm that its rule reads (`g_sys.config.alarm[]`). -/
structure AlarmParam where
  uv1Ot : Nat
  e9 : Nat
  e11 : Nat
  filterOt : Nat
  filterElement0 : Nat
  filterElement1 : Nat
  filterElement2 : Nat
  deriving DecidableEq, Repr

/-- `g_sys.config`: the registers the modelled functions read. -/
structure Config where
  powerMode : Nat
  tPowerEn : Nat
  tPowerOn : Nat
  tPowerOff : Nat
  manualTestEn : Nat
  testModeType : Nat
  alarmBypassEn : Nat
  maskAin : BitVec 16
  maskDin : BitVec 16
  maskDout : Words
  maskAout : BitVec 16
  alarmParam : AlarmParam
  -- fan and compressors
  fanType : Nat
  fanMode : Nat
  setSpeed : Nat
  minSpeed : Nat
  maxSpeed : Nat
  adjustStep : Nat
  startDelay : Nat
  fanStopDelay : Nat
  startupDelay : Nat
  startupLowpressShield : Nat
  minRuntime : Nat
  stopDelay : Nat
  compInterval : Nat
  lnEnable : Nat
  lnMode : Nat
  lnFan : Nat
  thInteral : Nat
  startTemp0 : Nat
  startTemp1 : Nat
  startHumidity : Nat
  stopTemp0 : Nat
  stopTemp1 : Nat
  stopHumidity : Nat
  startDefrostTemp : Nat
  stopDefrostTemp : Nat
  -- water
  waterCtrl : BitVec 16
  exitWaterMode : Nat
  disinfectionMode : Nat
  coldWaterMode : Nat
  coldWaterStartTemp : Nat
  coldWaterStopTemp : Nat
  waterMode : Nat
  waterFlow : Nat
  closeDelay : Nat
  closeFrist : Nat
  normalWaterTemp : Nat
  hotWaterTemp : Nat
  hotWaterCali : Nat
  heaterPm25 : Bool
  sterilizeMode : Nat
  sterilizeTime : Nat
  sterilizeInterval : Nat
  uvDelay : Nat
  storage : Nat
  storageDealy0 : Nat
  storageDealy1 : Nat
  filterElementType : Nat
  -- platform
  restartEnable : BitVec 16
  restartDelay : Nat
  netErr : Nat
  deriving DecidableEq

/-- What the acquisition threads and the clock publish. -/
structure Inputs where
  din : BitVec 16
  ntc1 : Nat
  ntc2 : Nat
  ntc3 : Nat
  ntc4 : Nat
  temp : Nat
  hum : Nat
  /-- `status.status_remap[MBM_COM_STS_REG_NO]` -/
  mbmCom : BitVec 16
  /-- `status.status_remap[SENSOR_STS_REG_NO]` -/
  sensorRemap : BitVec 16
  /-- `alarm_bitmap[5] & WORK_LIMIT_CATION` -/
  workLimit : Bool
  hour : Nat
  min : Nat
  time : Nat
  tick : Nat
  /-- What this compiler's conversion of a `float` outside `uint16_t` gives. -/
  f2uOut : Nat
  deriving DecidableEq, Repr

/-- A pair of second and hour (or millilitre and litre) counters, `u16Runtime[0][i]`, `u16Runtime[1][i]`. -/
structure Runtime where
  low : Nat
  high : Nat
  deriving DecidableEq, Repr

/-- `g_sys.status`: what the modelled functions write and read back. -/
structure Status where
  /-- `ComSta.u16Status_remap[WORK_MODE_STS_REG_NO]` -/
  workMode : BitVec 16
  /-- `ComSta.u16Status_remap[SENSOR_STS_REG_NO]` -/
  sensor : BitVec 16
  /-- `dout_bitmap` -/
  dout : Words
  /-- `ComSta.u16Dout_bitmap` -/
  comDout : Words
  /-- `alarm_bitmap` -/
  alarm : Words
  /-- `ComSta.u16Alarm_bitmap` -/
  comAlarm : Words
  /-- `Alarm_COM_NTC_BIT[ALARM_COM]` -/
  alarmCom : BitVec 16
  totalCnt : Nat
  criticalCnt : Nat
  majorCnt : Nat
  mioorCnt : Nat
  /-- `aout[AO_EC_FAN]` -/
  aout : Nat
  /-- `ComSta.u16AO[AO_EC_FAN]` -/
  comAo : Nat
  curWater : Nat
  lastWater : Nat
  pluseCnt : Nat
  /-- `u16Runtime`: the outputs, then the filter and the filter elements -/
  runtime : List Runtime
  cumulative0 : Nat
  cumulative1 : Nat
  cumulative2 : Nat
  deriving DecidableEq

/-- `l_sys.comp_timeout[]` at the indices the code loads. -/
structure Timeout where
  fan : Nat
  comp : Pair Nat
  rh1 : Nat
  ev1 : Nat
  ev2 : Nat
  p2 : Nat
  deriving DecidableEq, Repr

structure FanSt where
  fsm : FanFsm
  gear : FanGear
  /-- `Fan_Close` -/
  close : BitVec 8
  aoReq : Int
  aoManual : Int
  aoFinal : Int
  deriving DecidableEq, Repr

structure CompSt where
  /-- `l_fsm_state[COMPRESS_SIG_FSM_STATE]` -/
  sigFsm : Nat
  fsm : Pair CompFsm
  /-- `Comp_Close` -/
  close : Pair (BitVec 8)
  startupInterval : Nat
  stopInterval : Nat
  deriving DecidableEq, Repr

/-- The start conditions of `Sys_Fan_CP_WL`. -/
structure StartSt where
  waterFull : Bool
  powerOnTime : Nat
  thCheckInterval : Nat
  thCheckDelay : Nat
  offsetCnt : Nat
  fcpStart : Bool
  wlStart : Bool
  deriving DecidableEq, Repr

structure PwpSt where
  /-- `Pwp_Open` -/
  opened : Bool
  openTime : Nat
  /-- `u8PWP_S` -/
  pwpS : Bool
  deriving DecidableEq, Repr

structure ColdSt where
  /-- `Cold_Water` -/
  coldWater : Bool
  delay0 : Nat
  delay1 : Nat
  /-- the `static` `u8Coldwater` -/
  u8Coldwater : Bool
  bdTime : Nat
  bdFanDelay : Nat
  deriving DecidableEq, Repr

structure SterSt where
  sterilize : Bool
  uvDelay : Nat
  interval : Nat
  time : Nat
  deriving DecidableEq, Repr

structure OutSt where
  flag : Water
  ok : OutOk
  /-- `OutWater_Key`, a set of water types -/
  key : BitVec 8
  heatSt : Nat
  heatFlow : Nat
  heatTime : Nat
  delay0 : Nat
  delay1 : Nat
  delay2 : Nat
  childLockKey : Bool
  childLockCnt0 : Nat
  childLockCnt1 : Nat
  closeDelay : Nat
  closeNum : Nat
  heatNum : Nat
  heatFirst : Nat
  /-- the flow meter's counter (`TIM1`) -/
  pulses : Nat
  /-- the telegrams sent to the heater, the latest first -/
  heatTx : List HeatCmd
  deriving DecidableEq, Repr

structure StorSt where
  status : Bool
  fsm : StorFsm
  deriving DecidableEq, Repr

/-- `Restart_DIS_exe`. -/
structure DisSt where
  uartTimeout1 : Nat
  rsInteralNeterr : Bool
  closeTime0 : Nat
  closeTime1 : Nat
  neterrDelay : Nat
  rsInteral : Nat
  restart : Nat
  deriving DecidableEq, Repr

/-- `alarm_acl_status_st`: the fields that change. -/
structure AclSts where
  state : AclFsm
  value : Nat
  timeout : Nat
  deriving DecidableEq, Repr

/-- A node of the list of standing alarms (`alram_node`). -/
structure AlarmNode where
  alarmId : Nat
  alarmValue : Nat
  triggerTime : Nat
  deriving DecidableEq, Repr

/-- An entry of the alarm log (`alarm_log_st`). -/
structure AlarmLog where
  alarmId : Nat
  triggerTime : Nat
  endTime : Nat
  rev : Nat
  deriving DecidableEq, Repr

structure AlarmSt where
  /-- `u8CNT` of `alarm_acl_exe` -/
  cnt : Nat
  /-- `u8Delay` of `acl00` -/
  delay : Nat
  /-- `alarm_sts`, in the order of the alarm numbers -/
  sts : List AclSts
  lockTime0 : Nat
  lockTime1 : Nat
  lockTime2 : Nat
  lastState : AclFsm
  lockFlag : Bool
  /-- `config.general.alarm_remove_bitmap` -/
  remove : Words
  /-- the standing alarms from `head_node.next` on; the pool has a block for every alarm -/
  chain : List AlarmNode
  /-- what was pushed to `alarmlog_fifo`, the latest first -/
  log : List AlarmLog
  deriving DecidableEq, Repr

/-- The firmware's registers. -/
structure Sys where
  cfg : Config
  inp : Inputs
  sts : Status
  /-- `l_sys.bitmap[][BITMAP_REQ]` and the other columns -/
  req : Words
  manual : Words
  alm : Words
  mask : Words
  final : Words
  tmo : Timeout
  fan : FanSt
  comp : CompSt
  start : StartSt
  pwp : PwpSt
  cold : ColdSt
  ster : SterSt
  out : OutSt
  stor : StorSt
  dis : DisSt
  alarm : AlarmSt
  /-- `Set_Systime_Delay` -/
  setSystimeDelay : Nat
  /-- the output pins, pin `i + 1` at bit `i` -/
  pins : BitVec 32
  /-- `u16Sec` of `run_time_process` -/
  sec : Nat
  /-- the calls of `RAM_Write_Reg` and `write_reg_map`, the latest first -/
  regWrites : List (Nat × Nat)
  deriving DecidableEq

end WM.Impl
