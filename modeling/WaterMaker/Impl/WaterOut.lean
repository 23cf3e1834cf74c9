import WaterMaker.Impl.Water

/-!
# Dispensing

`WaterOut_Key`, `WaterOut_Close` and `WaterOut_req_exe` of `req_execution.c`. A dispense is demanded by
the keys (`hmiKey`) or by the panel's registers `u16Water_Mode` and `u16Water_Flow`. The calibration
factors are read as the rationals they approximate; a conversion out of range gives `f2uOut`.
-/

namespace WM.Impl

/-- The values of `u16Water_Mode`: `WATER_NORMAL_ICE`, `WATER_HEAT`, `WATER_ICE`. -/
def waterNormalIce : Nat := 1
def waterHeat : Nat := 2
def waterIce : Nat := 4

/-- The bits of `OutWater_Key`, the same values as a set. -/
def keyNormalIce : Nat := 0
def keyHeat : Nat := 1
def keyIce : Nat := 2

/-- `WATER_MAXTIME`. -/
def waterMaxtime : Nat := 600

/-! ## Keys -/

/-- The cold keys; the second one only with two outlets. -/
def keyCold (s : Sys) : Sys :=
  let c1 := s.diSts .cold1
  let c2 := s.diSts .cold2 && s.cfg.twoCold
  setOut (fun o => { o with
    key := putBit (putBit o.key keyNormalIce c1) keyIce c2
    delay0 := if c1 then waterMaxtime else 0
    delay2 := if c2 then waterMaxtime else 0 }) s

/-- The child lock opens for `ChildKey_Lose` seconds. -/
def keyChild (s : Sys) : Sys :=
  if s.out.childLockCnt0 ≥ 1 then
    setOut (fun o => { o with childLockCnt0 := 0, childLockKey := true, childLockCnt1 := 5 }) s
  else s

/-- The hot key: it is taken only while the child lock is open, and released at any time. -/
def keyHot (s : Sys) : Sys :=
  if s.diSts .heat then
    if s.out.childLockKey then
      setOut (fun o => { o with key := putBit o.key keyHeat true, delay1 := waterMaxtime }) s
    else s
  else setOut (fun o => { o with key := putBit o.key keyHeat false, delay1 := 0 }) s

/-- The lamp of the child lock. -/
def keyLamp (s : Sys) : Sys :=
  if s.out.childLockCnt1 ≠ 0 then reqBitmapOp .ledLock true s
  else setOut (fun o => { o with childLockKey := false }) (reqBitmapOp .ledLock false s)

/-- `WaterOut_Key`. -/
def waterOutKey (s : Sys) : Sys := s |> keyCold |> keyChild |> keyHot |> keyLamp

/-! ## Closing -/

/-- `External_Water_exe`. -/
def externalWaterExe (on : Bool) (s : Sys) : Sys :=
  if s.cfg.exitWater ≠ .air then
    if on then reqBitmapOp .fv true s
    else if s.cfg.exitWater = .exit ∧ s.cfg.disinfectionMode = 0 then reqBitmapOp .fv false s
    else s
  else reqBitmapOp .fv false s

/-- `Heat_Send`: nothing goes out while the line carries the dust sensor. -/
def heatSend (cmd : HeatCmd) (s : Sys) : Sys :=
  if s.cfg.heaterPm25 then s else setOut (fun o => { o with heatTx := cmd :: o.heatTx }) s

/-- The dispensing pump, unless it circulates for the lamp. -/
def closeWp (s : Sys) : Sys :=
  if s.ster.sterilize = false then reqBitmapOp .wp false s else s

/-- The end of a dispense: its volume is kept and the panel's demand taken back. -/
def closeVolume (s : Sys) : Sys :=
  if s.sts.curWater ≠ 0 then
    setSts (fun t => { t with lastWater := t.curWater, curWater := 0 }) s |> setCfg (.setWater 0 0)
  else s

/-- The first of pump and valve closes, the other follows after `u16CloseDelay`. -/
def closeNormalIce (s : Sys) : Sys :=
  if s.cfg.closeDelay ≠ 0 then
    let s := setOut (fun o => { o with closeDelay := s.cfg.closeDelay % 256 }) s
    if s.cfg.pumpFirst then closeWp s else reqBitmapOp .ev2 false s
  else s |> closeWp |> reqBitmapOp .ev2 false

def closeHeat (s : Sys) : Sys := s |> reqBitmapOp .hwp false |> closeEv2

def closeIce (s : Sys) : Sys :=
  if s.cfg.bdIce then
    (if s.cfg.pumpFirst || s.out.closeDelay = 0 then closeWp s else s) |> reqBitmapOp .ev3 false
  else s

/-- The outputs of one water type. -/
def closeWater (w : Water) (s : Sys) : Sys :=
  match w with
  | .normalIce => closeNormalIce s
  | .heat => closeHeat s
  | .ice => closeIce s
  | _ => s

/-- A closing that waits: `u8CloseDelay` runs down and the second of pump and valve closes. -/
def closeWait (s : Sys) : Sys :=
  if s.out.closeDelay ≠ 0 then
    let s := setOut (fun o => { o with closeDelay := o.closeDelay - 1 }) s
    if s.cfg.closeDelay ≠ 0 ∧ s.out.closeDelay = 0 then
      if s.cfg.pumpFirst then reqBitmapOp .ev2 false s else closeWp s
    else s
  else s

/-- `CLOSE_HEAT` is sent at most `CLOSEHEAT_MAX` times. -/
def closeHeatSend (s : Sys) : Sys :=
  if s.out.closeNum < 5 then
    setOut (fun o => { o with closeNum := o.closeNum + 1 }) s |> heatSend (.writeClose 0 s.cfg.waterFlow)
  else s

/-- The start of every closing: the dispense is over, its clock stands, the lamp may go out. -/
def closeFlag (s : Sys) : Sys :=
  let s := setTmo (fun t => { t with ev2 := 0 }) s |> setOut (fun o => { o with flag := .no })
    |> externalWaterExe false
  if s.ster.sterilize = false then uvReqExe false true s else s

/-- A running dispense is handed over to `run_time_process` as `WATER_OUT`; otherwise the closing waits. -/
def closeOutputs (w : Water) (s : Sys) : Sys :=
  if s.out.ok ≠ .idle then
    setOut (fun o => { o with ok := .out }) s |> closeVolume |> closeWater w
  else closeWait s

/-- The instant heater is stopped and its counters cleared. -/
def closeHeater (w : Water) (s : Sys) : Sys :=
  if w = .heat then setOut (fun o => { o with heatTime := 0, heatFlow := 0 }) s |> closeHeatSend else s

/-- `WaterOut_Close(1, w)`. -/
def waterOutClose (w : Water) (s : Sys) : Sys :=
  s |> closeFlag |> closeOutputs w |> closeHeater w

/-- The three closings that end a dispense. -/
def waterOutCloseAll (s : Sys) : Sys :=
  s |> waterOutClose .normalIce |> waterOutClose .heat |> waterOutClose .ice

/-! ## Metering -/

/-- `PluseCalc_Water`: millilitres from the flow meter's pulses. -/
def pluseCalcWater (cnt : Nat) : Nat :=
  if cnt < 570 then cnt * 405 / 1000
  else if cnt < 1250 then cnt * 2 / 5
  else if cnt < 2750 then cnt * 4 / 11
  else if cnt < 4350 then cnt * 10 / 29
  else cnt * 40 / 109

def setCurWater (v : Nat) (s : Sys) : Sys :=
  setSts (fun t => { t with curWater := v, lastWater := if v ≠ 0 then v else t.lastWater }) s

/-- The volume so far, from the meter; the counter restarts with the dispense. -/
def meterPulses (s : Sys) : Sys :=
  let s := if s.out.ok ≠ .read then setOut (fun o => { o with pulses := 0 }) s else s
  setSts (fun t => { t with pluseCnt := s.out.pulses }) s |> setCurWater (pluseCalcWater s.out.pulses)

/-- Millilitres after `t` passes of the instant heater, from the third pass on. -/
def heatFlowCalc (t : Nat) (s : Sys) : Nat :=
  let v := ((t : Int) - 2) * 25
  if 0 ≤ v ∧ v.toNat / 6 < 65536 then v.toNat / 6 else s.inp.f2uOut

/-- The volume so far, from the heater's telegram or from the time. -/
def meterHeat (s : Sys) : Sys :=
  if s.out.ok ≠ .read then s
  else if s.out.heatSt = 1 then
    setCurWater s.out.heatFlow s |> setOut (fun o => { o with flag := .heat })
  else
    let t := (s.out.heatTime + 1) % 65536
    let s := setOut (fun o => { o with heatTime := t }) s
    if t ≠ 0 then
      setOut (fun o => { o with closeNum := 0, heatFlow := heatFlowCalc t s, flag := .heat }) s
        |> setCurWater (heatFlowCalc t s)
    else s

/-- The panel's target is reached. -/
def targetReached (s : Sys) : Bool :=
  s.sts.curWater ≥ s.cfg.waterFlow && s.sts.curWater != 0 && !s.cfg.hmiKey

/-! ## Demand -/

/-- Hot, and cold, water is demanded by the panel or by a key. -/
def demandHeat (s : Sys) : Bool :=
  (s.cfg.waterMode == waterHeat && s.cfg.waterFlow != 0) || s.out.key.getLsbD keyHeat

def demandNormal (s : Sys) : Bool :=
  (s.cfg.waterMode == waterNormalIce && s.cfg.waterFlow != 0) || s.out.key.getLsbD keyNormalIce

def demandIce (s : Sys) : Bool :=
  (s.cfg.waterMode == waterIce && s.cfg.waterFlow != 0) || s.out.key.getLsbD keyIce

/-- `WaterOut_level`: the drinking tank has water, or an external source gives it. -/
def waterOutLevel (s : Sys) : Bool := s.cfg.exitWater != .air || (getWaterLevel s).dL

/-- `comp_timeout[DO_EV2_BPOS]++`. -/
def countDispense (s : Sys) : Sys :=
  setTmo (fun t => { t with ev2 := (t.ev2 + 1) % 65536 }) s

/-- `comp_timeout[DO_RH1_BPOS] = RH_DEALY`. -/
def armHeating (s : Sys) : Sys := setTmo (fun t => { t with rh1 := 10 }) s

/-! ## Hot water -/

/-- The temperature sent to the heater. -/
def heatTemp (s : Sys) : Nat :=
  if s.cfg.waterMode = waterNormalIce then s.cfg.normalWaterTemp / 10 % 256
  else ((i16 s.cfg.hotWaterTemp + i16 s.cfg.hotWaterCali).tdiv 10 % 256).toNat

/-- The dialogue with the instant heater: `OPEN_HEAT` three times, then read. -/
def heatDialogue (s : Sys) : Sys :=
  let s := setOut (fun o => { o with flag := .heat }) s
  if s.out.ok = .send ∧ s.out.heatNum ≥ 3 then
    setOut (fun o => { o with ok := .read }) s |> heatSend .readPara
  else if s.out.heatNum < 250 then
    let s := setOut (fun o => { o with heatNum := o.heatNum + 1, ok := .send, heatSt := 0 }) s
    let temp := heatTemp s
    let s := if s.out.key.getLsbD keyHeat then setCfg (fun c => c.setWater c.waterMode 5000) s else s
    heatSend (.writeOpen temp s.cfg.waterFlow) s |> setOut (fun o => { o with flag := .heat })
      |> armHeating
  else s

/-- After power-on the heater is stopped three times before it goes on (`u8HeatFirst`). -/
def heatPause (s : Sys) : Bool := s.out.heatFirst < 3 && s.sts.curWater ≥ 45

/-- The largest time of a dispense. -/
def waterOutMax (s : Sys) : Sys :=
  if s.tmo.ev2 ≥ waterMaxtime then waterOutCloseAll s else s

/-- Hot water from the instant heater. The pause returns before the largest time is looked at. -/
def waterOutInstant (s : Sys) : Sys :=
  let s := setOut (fun o => { o with closeNum := 0 }) s |> meterHeat
  if targetReached s then waterOutClose .heat s |> waterOutMax
  else if heatPause s then
    closeHeatSend s |> setOut (fun o => { o with heatFirst := o.heatFirst + 1 })
  else if (s.cfg.waterMode ≠ 0 ∧ s.cfg.waterFlow ≠ 0) ∨ s.out.key.getLsbD keyHeat then
    heatDialogue s |> waterOutMax
  else waterOutMax s

/-- Hot water from the boiler. -/
def waterOutPot (s : Sys) : Sys :=
  let s := meterPulses s
  if s.cfg.waterMode = waterHeat ∨ s.out.key.getLsbD keyHeat then
    if targetReached s then waterOutClose .heat s
    else
      setOut (fun o => { o with ok := .read, flag := .heatPot }) s |> reqBitmapOp .hwp true
        |> armHeating
  else s

/-! ## Cold water -/

/-- The pump: an external source needs none, and purification stops while it runs. -/
def coldPump (s : Sys) : Sys :=
  if s.cfg.exitWater ≠ .air then reqBitmapOp .wp false s
  else s |> reqBitmapOp .wp true |> reqBitmapOp .pwp false

/-- The outlet valves; the ice tank has one of its own. -/
def coldOutlet (s : Sys) : Sys :=
  if s.cfg.bdIce then
    if demandNormal s then
      s |> reqBitmapOp .ev2 true |> reqBitmapOp .ev3 false |> reqBitmapOp .ev4 false
    else if demandIce s then
      s |> reqBitmapOp .ev2 false |> reqBitmapOp .ev3 true |> reqBitmapOp .ev4 false
    else s
  else if demandNormal s then reqBitmapOp .ev2 true s
  else s

/-- Cold water is let out. -/
def coldServe (s : Sys) : Sys :=
  s |> externalWaterExe true |> coldPump |> reqBitmapOp .ev1 false |> coldOutlet
    |> uvReqExe true true |> setOut (fun o => { o with ok := .read, flag := .normalIce })
    |> armHeating

/-- Cold water: metered, and closed at the panel's target. -/
def waterOutCold (s : Sys) : Sys :=
  let s := meterPulses s
  if targetReached s then waterOutClose .normalIce s else coldServe s

/-! ## `WaterOut_req_exe` -/

/-- A demand is served for one pass. -/
def waterOutServe (s : Sys) : Sys :=
  if demandHeat s then
    if !s.cfg.heartPot then waterOutInstant (countDispense s)
    else waterOutPot (countDispense s) |> waterOutMax
  else if demandNormal s || demandIce s then waterOutCold (countDispense s) |> waterOutMax
  else waterOutCloseAll s |> waterOutMax

/-- No demand, or no water: the heater's dialogue is reset and everything closed. -/
def waterOutIdle (s : Sys) : Sys :=
  setOut (fun o => { o with heatNum := 0, heatSt := 0, heatFlow := 0 }) s |> waterOutCloseAll

/-- A demand is at hand: a key is taken, or one of the panel's registers is not 0. -/
def waterDemand (s : Sys) : Bool :=
  if s.cfg.hmiKey then s.out.key != 0 else s.cfg.waterMode != 0 || s.cfg.waterFlow != 0

/-- Without water the panel's demand is taken back. -/
def clearDemand (s : Sys) : Sys :=
  if !s.cfg.hmiKey && !waterOutLevel s then setCfg (.setWater 0 0) s else s

/-- `WaterOut_req_exe` behind the storage check. -/
def waterOutRun (s : Sys) : Sys :=
  let s := if s.cfg.hmiKey then waterOutKey s else s
  if !waterDemand s || !waterOutLevel s then waterOutIdle (clearDemand s)
  else if s.alarmBit .e4 then waterOutCloseAll s
  else waterOutServe s

/-- `WaterOut_req_exe`. -/
def waterOutReqExe (s : Sys) : Sys :=
  let s := reqBitmapOp .rh1 true s
  if s.stor.status then s else waterOutRun s

end WM.Impl
