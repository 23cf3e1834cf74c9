import WaterMaker.Impl.Access

/-!
# Water production: start conditions, fan and compressors

`Sys_Fan_CP_WL`, `fan_req_exe` and `compressor_req_exe` of `req_execution.c`. Each block of a function
is a definition of its own, and the function is their composition in the source's order.
-/

namespace WM.Impl

/-! ## Start conditions -/

/-- The bits of `Fan_Close` and `Comp_Close`: `FC_WL`, `FC_TH`, `FC_WS`, `FC_AL`. -/
def fcWL : Nat := 0
def fcTH : Nat := 2
def fcWS : Nat := 3
def fcAL : Nat := 7

/-- One reason for standing still, set or cleared for the fan and both compressors. -/
def closeOp (b : Nat) (on : Bool) (s : Sys) : Sys :=
  setFanSt (fun f => { f with close := putBit f.close b on }) s
    |> setCompSt (fun c => { c with close := c.close.map (putBit · b on) })

def powerOnTime (s : Sys) : Sys :=
  setStart (fun t => { t with
    powerOnTime := if s.pwrSts then (t.powerOnTime + 1) % 65536 else 0 }) s

/-- `Water_Full` below the upper switches. In the low-noise hours production starts only below the middle
switch and then goes on until the tank is full. -/
def waterFullCalc (wl : WaterLevel) (s : Sys) : Sys :=
  if s.cfg.lnEnable ≠ 0 then setStart (fun t => { t with waterFull := false }) s
  else if s.cfg.lnMode ≠ 0 ∧ wl.dML then
    setStart (fun t => { t with waterFull := !t.wlStart && !s.cold.coldWater }) s
  else setStart (fun t => { t with waterFull := false, wlStart := true }) s

/-- The level condition `FC_WL`. Making ice water goes on above `D_M`, but not above `S_U` or `D_U`. -/
def levelClose (wl : WaterLevel) (s : Sys) : Sys :=
  if wl.sU || wl.dU || wl.dM then
    setStart (fun t => { t with wlStart := false }) s
      |> closeOp fcWL (!(s.cold.coldWater && s.cfg.normalIce && !wl.sU && !wl.dU))
  else
    closeOp fcWL (waterFullCalc wl s).start.waterFull (waterFullCalc wl s)

/-- Temperature and humidity allow a start. -/
def thStart (s : Sys) : Bool :=
  s.inp.temp > s.cfg.startTemp0 && s.inp.temp < s.cfg.startTemp1 && s.inp.hum > s.cfg.startHumidity

/-- Temperature or humidity forbid going on. -/
def thStop (s : Sys) : Bool :=
  s.inp.temp < s.cfg.stopTemp0 || s.inp.temp ≥ s.cfg.stopTemp1 || s.inp.hum < s.cfg.stopHumidity

/-- `u8Offset_CNT++`, held at `CF_DELAY`. -/
def offsetCount (s : Sys) : Sys :=
  setStart (fun t => { t with
    offsetCnt := if (t.offsetCnt + 1) % 256 ≥ 60 then 60 else (t.offsetCnt + 1) % 256 }) s

/-- The condition `FC_TH`, looked at every `u16TH_Interal` minutes. -/
def thCheck (s : Sys) : Sys :=
  if s.start.thCheckInterval = 0 ∧ s.start.offsetCnt ≥ 60 then
    let s := setStart (fun t => { t with thCheckInterval := s.cfg.thInteral * 60 % 65536 }) s
    if s.start.fcpStart = false then
      setStart (fun t => { t with fcpStart := thStart s }) s |> closeOp fcTH (!thStart s)
    else if thStop s then setStart (fun t => { t with fcpStart := false }) s |> closeOp fcTH true
    else s
  else s

/-- While defrosting, temperature and humidity are looked at again on every pass. -/
def defrostRecheck (s : Sys) : Sys :=
  if s.remap .defrost1 || s.remap .defrost2 then
    setStart (fun t => { t with thCheckInterval := 0, fcpStart := false }) s
  else s

/-- `Sys_Fan_CP_WL`. -/
def sysFanCpWl (s : Sys) : Sys :=
  powerOnTime s
    |> levelClose (getWaterLevel s)
    |> offsetCount
    |> thCheck
    |> closeOp fcWS (s.cfg.exitWater != .air)
    |> defrostRecheck
    |> closeOp fcAL s.alarmOff

/-! ## Fan -/

/-- `fan_signal_gen`. -/
def fanSignalGen (s : Sys) : FanSig :=
  if s.pwrSts && s.fan.close == 0 then .start
  else if !s.doSts .comp1 && !s.doSts .comp2 then .stop
  else .idle

def setFan (fsm : FanFsm) (gear : FanGear) (timeout : Nat) (s : Sys) : Sys :=
  setFanSt (fun f => { f with fsm := fsm, gear := gear }) s |> setTmo (fun t => { t with fan := timeout })

/-- The switch of `fan_fsm_exe`. -/
def fanFsm (sig : FanSig) (s : Sys) : Sys :=
  match s.fan.fsm with
  | .idle =>
    if sig = .start then setFan .init .no s.cfg.startDelay s else setFan .idle .no s.tmo.fan s
  | .init =>
    if sig ≠ .start then setFan .idle .no s.tmo.fan s
    else if s.tmo.fan = 0 then setFan .startUp .low 0 s
    else setFan .init .no s.tmo.fan s
  | .startUp => setFan (if s.tmo.fan = 0 then .norm else .startUp) .low s.tmo.fan s
  | .norm =>
    if sig = .stop ∧ s.tmo.fan = 0 then setFan .shut .low s.cfg.fanStopDelay s
    else setFan .norm .low s.tmo.fan s
  | .shut =>
    if sig = .start then setFan .norm .low s.tmo.fan s
    else if s.tmo.fan = 0 then setFan .idle .no s.tmo.fan s
    else s
  | .other => setFan .idle .no 0 s

/-- A fan alarm puts the state machine back to its start before the switch. -/
def fanAlarmReset (s : Sys) : Sys :=
  if s.alarmBit .e7 then setFan .idle .no 0 s else s

/-- While the machine is on, a running fan runs at its low gear. -/
def fanLowGear (s : Sys) : Sys :=
  if s.pwrSts ∧ s.fan.gear ≠ .no then setFanSt (fun f => { f with gear := .low }) s else s

/-- `Fan_Fsm_Out`. -/
def fanFsmOut (s : Sys) : Sys :=
  match s.fan.gear with
  | .low => s |> reqBitmapOp .fan true |> reqBitmapOp .f24 true
  | _ => s |> reqBitmapOp .fan false |> reqBitmapOp .f24 false

/-- `fan_fsm_exe`. -/
def fanFsmExe (sig : FanSig) (s : Sys) : Sys :=
  fanAlarmReset s |> fanFsm sig |> fanLowGear |> fanFsmOut

/-- `lim_min_max`. -/
def limMinMax (min max data : Int) : Int :=
  if data ≤ min then min else if data ≥ max then max else data

/-- `analog_step_follower` for `AO_EC_FAN`. -/
def analogStepFollower (target : Int) (s : Sys) : Int :=
  let delta := (target - s.sts.aout).bmod 65536
  if delta.natAbs > s.cfg.adjustStep then
    if delta > 0 then Int.bmod (s.sts.aout + s.cfg.adjustStep) 65536
    else Int.bmod (s.sts.aout - s.cfg.adjustStep) 65536
  else Int.bmod (s.sts.aout + delta) 65536

/-- The speed `ec_fan_output` asks for. -/
def ecFanRequire (temp : Int) (s : Sys) : Int :=
  let speed := i16 (if s.cfg.lnMode ≠ 0 ∨ s.cfg.lnEnable ≠ 0 then s.cfg.lnFan else s.cfg.setSpeed)
  if s.fan.gear = .no then 0
  else if s.cfg.fanType = 1 then
    limMinMax (i16 s.cfg.minSpeed) (i16 s.cfg.maxSpeed)
      (if s.fan.fsm = .startUp then speed
       else if s.cfg.fanMode = 8 then analogStepFollower temp s
       else speed)
  else speed

/-- `ec_fan_output`. -/
def ecFanOutput (temp : Int) (s : Sys) : Sys :=
  setFanSt (fun f => { f with aoReq := ecFanRequire temp s }) s

/-- `fan_req_exe`. -/
def fanReqExe (temp : Int) (s : Sys) : Sys :=
  fanFsmExe (fanSignalGen s) s |> ecFanOutput temp

/-! ## Compressors -/

/-- `devinfo_get_compressor_cnt`: the count read from `dev_mask` is overwritten. -/
def devinfoGetCompressorCnt (_ : Sys) : Nat := 2

/-- `comp1_alarm_flag`, `comp2_alarm_flag`: an alarm holds off a compressor that is requested. -/
def compAlarmFlag (s : Sys) (k : CompId) : Bool :=
  s.cfg.alarmBypassEn == 0 && s.reqBit (.comp k) && !s.almBit (.comp k) && s.maskBit (.comp k)

/-- Nothing may run: a tank is full, both compressors are in alarm, or both coils are defrosting. -/
def compHold (s : Sys) : Bool :=
  s.alarmBit .e1 || s.alarmBit .e2 || (compAlarmFlag s .c1 && compAlarmFlag s .c2) ||
    (s.remap .defrost1 && s.remap .defrost2)

/-- The two-compressor case of `compressor_signal_gen`: the signals and the next state. -/
def compSigTwo (s : Sys) : Pair CompSig × Nat :=
  if s.comp.sigFsm = 0 then (⟨.off, .off⟩, if compHold s then 0 else 1)
  else if s.comp.sigFsm = 1 then
    if compHold s then (⟨.on, .on⟩, 0)
    else if compAlarmFlag s .c1 || s.remap .defrost1 then (⟨.off, .on⟩, 1)
    else if compAlarmFlag s .c2 || s.remap .defrost2 then (⟨.on, .off⟩, 1)
    else (⟨.on, .on⟩, 1)
  else (⟨.off, .off⟩, 0)

/-- `compressor_signal_gen`: the signals and the next `COMPRESS_SIG_FSM_STATE`. -/
def compressorSignalGen (s : Sys) : Pair CompSig × Nat :=
  if !s.doSts .fan then (⟨.err, .err⟩, 0)
  else if !s.pwrSts || (s.comp.close.c1 != 0 && s.comp.close.c2 != 0) then (⟨.off, .off⟩, 0)
  else if s.remap .fan then
    if devinfoGetCompressorCnt s = 1 then
      (if s.alarmBit .e1 || s.alarmBit .e2 then ⟨.off, .off⟩ else ⟨.on, .off⟩, 0)
    else if devinfoGetCompressorCnt s = 2 then compSigTwo s
    else (⟨.off, .off⟩, 0)
  else (⟨.off, .off⟩, 0)

/-- An alarm holds off a compressor. -/
def compForced (s : Sys) (k : CompId) : Bool := s.maskBit (.comp k) && !s.almBit (.comp k)

/-- The signal of a compressor after `compressor_alarm_signal_gen`. -/
def compressorSig (s : Sys) (k : CompId) : CompSig :=
  if compForced s k then .off else (compressorSignalGen s).1.get k

/-- `compressor_alarm_signal_gen` on the state machine of one compressor. -/
def compAlarmStop (k : CompId) (s : Sys) : Sys :=
  if compForced s k ∧ s.comp.fsm.get k ≠ .stop ∧ s.comp.fsm.get k ≠ .idle then
    setCompSt (fun c => { c with fsm := c.fsm.set k .stop }) s
  else s

def setComp (k : CompId) (fsm : CompFsm) (timeout : Nat) (s : Sys) : Sys :=
  setCompSt (fun c => { c with fsm := c.fsm.set k fsm }) s
    |> setTmo (fun t => { t with comp := t.comp.set k timeout })

/-- The intervals between two starts, and between two stops, of any compressor. -/
def armStartup (s : Sys) : Sys :=
  setCompSt (fun c => { c with startupInterval := s.cfg.compInterval }) s

def armStop (s : Sys) : Sys :=
  setCompSt (fun c => { c with stopInterval := s.cfg.compInterval }) s

/-- `compressor_fsm`. -/
def compressorFsm (k : CompId) (sig : CompSig) (s : Sys) : Sys :=
  let t := s.tmo.comp.get k
  match s.comp.fsm.get k with
  | .idle =>
    if sig = .on ∧ t = 0 then setComp k .init s.cfg.startupDelay s |> reqBitmapOp (.comp k) false
    else setComp k .idle t s |> reqBitmapOp (.comp k) false
  | .init =>
    if sig ≠ .on then setComp k .idle 0 s |> reqBitmapOp (.comp k) false
    else if t = 0 then
      if s.comp.startupInterval = 0 then
        setComp k .startup s.cfg.startupLowpressShield s |> reqBitmapOp (.comp k) true |> armStartup
      else setComp k .init t s |> reqBitmapOp (.comp k) false
    else setComp k .init t s |> reqBitmapOp (.comp k) false
  | .startup =>
    if sig = .err then setComp k .stop t s
    else if t = 0 then
      -- the truncated difference is the source's comparison of the two
      setComp k .normal (s.cfg.minRuntime - s.cfg.startupLowpressShield) s
        |> reqBitmapOp (.comp k) true
    else setComp k .startup t s |> reqBitmapOp (.comp k) true
  | .normal =>
    if sig = .err then setComp k .stop t s
    else if sig = .off ∧ t = 0 then setComp k .shuting s.cfg.stopDelay s |> reqBitmapOp (.comp k) true
    else setComp k .normal t s |> reqBitmapOp (.comp k) true
  | .shuting =>
    if sig = .err then setComp k .stop t s
    else if sig = .off ∧ t = 0 then setComp k .stop t s
    else if sig = .on then setComp k .normal 0 s |> reqBitmapOp (.comp k) true
    else setComp k .shuting t s |> reqBitmapOp (.comp k) true
  | .stop =>
    if s.comp.stopInterval = 0 then
      setComp k .idle s.cfg.startDelay s |> reqBitmapOp (.comp k) false |> armStop
    else s
  | .other => s

/-- `compressor_req_exe`: the signals, the alarms' stop, then the two state machines. -/
def compressorReqExe (s : Sys) : Sys :=
  setCompSt (fun c => { c with sigFsm := (compressorSignalGen s).2 }) s
    |> compAlarmStop .c1
    |> compAlarmStop .c2
    |> compressorFsm .c1 (compressorSig s .c1)
    |> compressorFsm .c2 (compressorSig s .c2)

end WM.Impl
