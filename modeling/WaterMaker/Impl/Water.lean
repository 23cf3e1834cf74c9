import WaterMaker.Impl.Access

/-!
# The water path: purification, ice water, sterilisation, storage

`Pwp_req_exe`, `Cold_Water_exe`, `UV_req_exe`, `Sterilize_req_exe`, `Defrost_req_exe`, `Storage_exe` and
`Restart_DIS_exe` of `req_execution.c`, as built with `PUMP_TEST` and without `WV_TEST` and `BD_COLD`.
-/

namespace WM.Impl

/-! ## Purification pump -/

/-- The pump and the circulation valve, which `Pwp_req_exe` always switches together. -/
def pwpOp (on : Bool) (s : Sys) : Sys :=
  s |> reqBitmapOp .pwp on |> reqBitmapOp .ev1 on

/-- Filling or disinfecting from an external source until the drinking tank reaches `D_M`. -/
def pwpFill (wl : WaterLevel) (s : Sys) : Sys :=
  let s := if s.cfg.exitWater ≠ .exit then setCfg (.setDisinfection 0) s else s
  if wl.dM then
    setCfg (.setExitWater 0) s |> reqBitmapOp .ev1 false |> reqBitmapOp .fv false |> writeReg 50 0
  else s |> reqBitmapOp .ev1 true |> reqBitmapOp .fv true

/-- `Pwp_req_exe` with an external source. -/
def pwpExternal (wl : WaterLevel) (s : Sys) : Sys :=
  let s := pwpOp false s
  if (s.cfg.exitWater = .exit ∧ s.cfg.disinfectionMode ≠ 0) ∨ s.cfg.exitWater = .fill then pwpFill wl s
  else s

/-- `Pwp_Open`: there is source water, or the case is open and the pump may run then; a blocked filter
and a dispense forbid it. -/
def pwpWanted (wl : WaterLevel) (s : Sys) : Bool :=
  (wl.sM || wl.sU || (s.alarmBit .e4 && s.cfg.openPwp)) && !s.alarmBit .e9 && s.out.flag != .normalIce

/-- `u8PWP_S` before the pump is switched: a blocked filter ends the run. -/
def pwpRunning (s : Sys) : Bool := s.pwp.pwpS && !s.alarmBit .e9

/-- The pump runs once wanted until the source tank is below `S_L`. -/
def pwpSwitch (wl : WaterLevel) (s : Sys) : Sys :=
  if pwpWanted wl s || pwpRunning s then
    setPwp (fun p => { p with opened := wl.sM || wl.sL, pwpS := wl.sM || wl.sL }) s
      |> pwpOp (wl.sM || wl.sL)
  else setPwp (fun p => { p with opened := false, pwpS := false }) s |> pwpOp false

/-- `Pwp_req_exe`. -/
def pwpReqExe (s : Sys) : Sys :=
  if s.stor.status then s
  else if s.cfg.exitWater ≠ .air then pwpExternal (getWaterLevel s) s
  else
    setCfg (.setDisinfection 0) s |> reqBitmapOp .fv false |> pwpSwitch (getWaterLevel s)

/-! ## Ice water -/

/-- `u8Coldwater` turned over, with the delays of the two valves. -/
def coldSwitch (on : Bool) (s : Sys) : Sys :=
  if s.cold.u8Coldwater = on then s
  else setCold (fun c => { c with u8Coldwater := on, delay0 := 60, delay1 := 2 }) s

/-- Whether ice water is made: above `ColdWater_StartTemp` it starts, below `ColdWater_StopTemp` it ends. -/
def coldDemand (wl : WaterLevel) (s : Sys) : Sys :=
  let t := i16 s.inp.ntc4
  let s := setCold (fun c => { c with coldWater := false }) s
  if wl.dL && wl.dML && t != 0x7FFF then
    if t > s.cfg.coldWaterStartTemp then
      setCold (fun c => { c with coldWater := true }) s |> coldSwitch true
    else if t < s.cfg.coldWaterStopTemp then coldSwitch false s
    else setCold (fun c => { c with coldWater := c.u8Coldwater }) s
  else coldSwitch false s

/-- The valves `CV` and `WV`, the second one `Cold_Delay[1]` passes after the first. -/
def coldValves (s : Sys) : Sys :=
  if s.cold.delay0 ≠ 0 then s
  else
    let s' := reqBitmapOp (if s.cold.coldWater then .cv else .wv) s.cold.coldWater s
    if s.cold.delay1 ≠ 0 then setCold (fun c => { c with delay1 := c.delay1 - 1 }) s'
    else reqBitmapOp (if s.cold.coldWater then .wv else .cv) s.cold.coldWater s'

/-- `Cold_Water_exe`. -/
def coldWaterExe (s : Sys) : Sys :=
  if s.cfg.exitWater ≠ .air then s
  else if !s.cfg.maskDin.getLsbD 6 then s
  else if s.cfg.normalIce then coldDemand (getWaterLevel s) s |> coldValves
  else
    setCold (fun c => { c with coldWater := false }) s
      |> reqBitmapOp .wv false |> reqBitmapOp .cv false

/-! ## Lamps and sterilisation -/

/-- The lamps that `u16Sterilize_Mode` selects. -/
def uvLamp (on : Bool) (s : Sys) : Sys :=
  if s.cfg.sterilizeMode = 2 then reqBitmapOp .uv24 on s
  else if s.cfg.sterilizeMode = 3 then s |> reqBitmapOp .uv1 on |> reqBitmapOp .uv24 on
  else reqBitmapOp .uv1 on s

/-- The level lamp of a machine without keys. -/
def uvLed (s : Sys) : Sys :=
  if !s.cfg.hmiKey then reqBitmapOp .ledLock true s else s

/-- `UV_req_exe`. A lamp goes out `u16UV_Delay` minutes after it was last wanted, never for 999. -/
def uvReqExe (on delay : Bool) (s : Sys) : Sys :=
  if on then
    setSter (fun t => { t with uvDelay := s.cfg.uvDelay * 60 % 65536 }) s |> uvLamp true |> uvLed
  else if s.cfg.uvDelay = 999 then s
  else
    let s := if delay then s else setSter (fun t => { t with uvDelay := 0 }) s
    if s.ster.uvDelay ≠ 0 then s else s |> uvLamp false |> uvLed

/-- The outlet valve, which stays open while a pump-first closing still waits. -/
def closeEv2 (s : Sys) : Sys :=
  if !s.cfg.pumpFirst || s.out.closeDelay = 0 then reqBitmapOp .ev2 false s else s

/-- Circulation through the lamp, every `u16Sterilize_Interval` minutes unless the tank is filling. -/
def sterCirculate (s : Sys) : Sys :=
  if s.ster.interval ≥ s.cfg.sterilizeInterval * 60 * 2 ∧ s.pwp.opened = false then
    let s := setSter (fun t => { t with time := (t.time + 1) % 65536, sterilize := true }) s
      |> reqBitmapOp .p2 true |> reqBitmapOp .ev1 true |> closeEv2
    if s.cfg.bdIce then s |> reqBitmapOp .ev3 false |> reqBitmapOp .ev4 false else s
  else
    let s := setSter (fun t => { t with sterilize := false }) s
    if s.out.closeDelay = 0 ∧ s.cold.bdTime = 0 then reqBitmapOp .p2 false s else s

/-- A dispense takes the pump; `u16Sterilize_Time` minutes of circulation end it. -/
def sterEnd (s : Sys) : Sys :=
  if s.out.flag = .normalIce then s |> reqBitmapOp .p2 false |> reqBitmapOp .ev1 false
  else if s.ster.time ≥ s.cfg.sterilizeTime * 60 * 2 then
    let s := setSter (fun t => { t with interval := 0, time := 0, sterilize := false }) s
    (if s.cfg.pumpFirst || s.out.closeDelay = 0 then reqBitmapOp .p2 false s else s)
      |> reqBitmapOp .ev1 false
  else s

/-- `Sterilize_req_exe`. -/
def sterilizeReqExe (s : Sys) : Sys :=
  if s.alarmBit .e4 then
    s |> uvReqExe false false |> reqBitmapOp .wp false |> reqBitmapOp .ev2 false
  else if s.cfg.exitWater ≠ .air then s |> reqBitmapOp .pwp false |> reqBitmapOp .wp false
  else
    let s := setSter (fun t => { t with interval := (t.interval + 1) % 4294967296 }) s
    if !(getWaterLevel s).dL then reqBitmapOp .wp false s
    else if s.stor.status then
      setSter (fun t => { t with interval := 0, time := 0 }) s
        |> reqBitmapOp .p2 false |> reqBitmapOp .ev1 false
    else
      let s := s |> sterCirculate |> sterEnd
      uvReqExe s.ster.sterilize true s

/-! ## Defrosting -/

/-- One coil: defrosting starts below `Start_Defrost_Temp` and ends above `Stop_Defrost_Temp`. -/
def defrostCoil (b : WorkSts) (ntc : Nat) (s : Sys) : Sys :=
  if i16 ntc < i16 s.cfg.startDefrostTemp then setRemapStatus b true s
  else if i16 ntc > i16 s.cfg.stopDefrostTemp then setRemapStatus b false s
  else s

/-- `Defrost_req_exe`. -/
def defrostReqExe (s : Sys) : Sys :=
  if s.cfg.exitWater ≠ .air then s
  else s |> defrostCoil .defrost1 s.inp.ntc1 |> defrostCoil .defrost2 s.inp.ntc2

/-! ## Storage -/

/-- `reset_runtime` of one counter; the argument counts from 1. -/
def resetRuntime (param : Nat) (s : Sys) : Sys :=
  if 0 < param ∧ param ≤ 39 then
    setSts (fun t => { t with runtime := t.runtime.set (param - 1) ⟨0, 0⟩ }) s
  else s

def storOne (on : Bool) (s : Sys) : Sys := s |> reqBitmapOp .p1 on |> reqBitmapOp .ev1 on
def storTwo (on : Bool) (s : Sys) : Sys := s |> reqBitmapOp .ev2 on |> reqBitmapOp .p2 on

def storNext (fsm : StorFsm) (s : Sys) : Sys := setStor (fun t => { t with fsm := fsm }) s
def storCancel (s : Sys) : Sys := setStor (fun _ => ⟨false, .idle⟩) s

/-- The drain timers `comp_timeout[DO_EV1_BPOS]` and `comp_timeout[DO_P2_BPOS]` are loaded. -/
def storTimeout1 (s : Sys) : Sys := setTmo (fun t => { t with ev1 := s.cfg.storageDealy1 }) s
def storTimeout2 (s : Sys) : Sys := setTmo (fun t => { t with p2 := s.cfg.storageDealy0 }) s

/-- The switch of `Storage_exe`: wait for fan and compressors, drain the source tank, drain the drinking
tank, reset the filters' counters, leave. -/
def storageFsm (wl : WaterLevel) (s : Sys) : Sys :=
  match s.stor.fsm with
  | .idle =>
    if s.stor.status && !s.remap .fan && !s.remap .cooling then
      storTimeout1 s |> storNext .one
    else s
  | .one =>
    if s.stor.status then
      if wl.sL then storOne true s |> storTimeout1
      else if s.tmo.ev1 ≠ 0 then storOne true s
      else storOne false s |> storTimeout2 |> storNext .two
    else storOne false s |> storCancel
  | .two =>
    if s.stor.status then
      if wl.dL then storTwo true s |> storTimeout2
      else if s.tmo.p2 ≠ 0 then storTwo true s
      else storTwo false s |> storNext .three
    else storTwo false s |> storCancel
  | .three =>
    if s.stor.status then
      s |> resetRuntime 33 |> resetRuntime 34 |> resetRuntime 35 |> resetRuntime 36 |> storNext .stop
    else storCancel s
  | .stop => setCfg (.setStorage 0) s |> writeReg 120 0 |> storCancel
  | .other => storCancel s

/-- `Storage_exe`. -/
def storageExe (s : Sys) : Sys :=
  setStor (fun t => { t with status := s.storageSignal }) s |> storageFsm (getWaterLevel s)

/-! ## The display's power -/

/-- `Close_DIS_Enable`. -/
def closeDisEnable (s : Sys) : Bool := s.cfg.restartEnable.getLsbD 15 && s.diSts .hiPress2

/-- Too many restarts: report the network and wait `u32InteralTime`. -/
def restartHold (s : Sys) : Sys :=
  let n := (s.dis.rsInteral + 1) % 4294967296
  let due := n ≥ s.cfg.restartDelay / 256 * 3600 * 2
  setDis (fun d => { d with
      rsInteral := if due then 0 else n
      closeTime1 := if due then 0 else d.closeTime1
      rsInteralNeterr := true, uartTimeout1 := 0, neterrDelay := 0, restart := 0 }) s
    |> reqBitmapOp .pwrCtrl false

/-- The silence of the display and the network's failure, counted up to `u16HoldTime`. -/
def restartCount (s : Sys) : Sys :=
  let hold := s.cfg.restartDelay % 256 * 60 * 2
  let u := (s.dis.uartTimeout1 + 1) % 65536
  let n := (s.dis.neterrDelay + 1) % 65536
  let r := if u ≥ hold then s.dis.restart ||| 1 else s.dis.restart
  setDis (fun d => { d with
      uartTimeout1 := if u ≥ hold then hold else u
      neterrDelay := if s.cfg.netErr = 0 then d.neterrDelay else if n ≥ hold then hold else n
      restart := if s.cfg.netErr ≠ 0 ∧ n ≥ hold then r ||| 3 else r
      rsInteralNeterr := false }) s

/-- A restart takes the power away for `CLOSE_TIME` passes. -/
def restartPower (s : Sys) : Sys :=
  if s.dis.restart = 0 then reqBitmapOp .pwrCtrl false s
  else
    let t := (s.dis.closeTime0 + 1) % 256
    if t ≤ 5 then setDis (fun d => { d with closeTime0 := t }) s |> reqBitmapOp .pwrCtrl true
    else
      setDis (fun d => { d with
        closeTime0 := 0, closeTime1 := (d.closeTime1 + 1) % 256, uartTimeout1 := 0, neterrDelay := 0
        restart := 0 }) s
        |> setCfg (.setNetErr 0)

/-- `Restart_DIS_exe`. -/
def restartDisExe (s : Sys) : Sys :=
  if !closeDisEnable s then
    setDis (fun d => { d with
      closeTime1 := 0, rsInteral := 0, uartTimeout1 := 0, neterrDelay := 0, restart := 0
      rsInteralNeterr := false }) s
      |> reqBitmapOp .pwrCtrl false
  else if s.dis.closeTime1 ≥ (s.cfg.restartEnable &&& 0x0FFF#16).toNat then restartHold s
  else restartCount s |> restartPower

end WM.Impl
