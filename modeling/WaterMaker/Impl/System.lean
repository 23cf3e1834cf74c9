import WaterMaker.Framework.Run
import WaterMaker.Impl.Compressor
import WaterMaker.Impl.WaterOut
import WaterMaker.Impl.Alarm
import WaterMaker.Impl.Output
import WaterMaker.Impl.Background

/-!
# The threads

`req_execution`, the core thread's pass (`coreTick`) and the events of a run: passes of the two threads,
single functions of them, and what the panel, the heater, the sensors and the user do in between.
-/

namespace WM.Impl

/-- `req_execution`; the temperature of `req_process` reaches the fan's speed. -/
def reqExecution (s : Sys) : Sys :=
  sysFanCpWl s
    |> fanReqExe (i16 s.inp.temp)
    |> compressorReqExe
    |> pwpReqExe
    |> coldWaterExe
    |> sterilizeReqExe
    |> waterOutReqExe
    |> defrostReqExe
    |> storageExe
    |> restartDisExe

/-- One pass of `core_thread_entry`. -/
def coreTick (s : Sys) : Sys := alarmAclExe s |> reqExecution |> ocUpdate

/-- What may happen to the machine. -/
inductive Event
  /-- a pass of the core thread, or one of its functions alone -/
  | core | req | waterOut
  /-- the functions of the background thread -/
  | cooldown | runTime | runningMode
  /-- `clear_alarm`, a command of the panel or the bus -/
  | clearAlarm
  /-- the acquisition threads publish new inputs -/
  | inputs (i : Inputs)
  /-- the flow meter counts -/
  | pulses (n : Nat)
  /-- the heater's telegram is taken (`AnalyseProtocol`) -/
  | heater (st flow : Nat)
  /-- the panel writes `u16Water_Mode` and `u16Water_Flow` -/
  | panel (mode flow : Nat)
  /-- the registers are written -/
  | config (c : Config)
  /-- anything of the status, and the words `alarm_arbiration` writes: alarms and power changes whose
  cause is left open -/
  | env (sts : Status) (alm mask : Words)

def step (s : Sys) : Event → Sys
  | .core => coreTick s
  | .req => reqExecution s
  | .waterOut => waterOutReqExe s
  | .cooldown => sysCompCooldown s
  | .runTime => runTimeProcess s
  | .runningMode => sysRunningModeUpdate s
  | .clearAlarm => clearAlarm s
  | .inputs i => { s with inp := i }
  | .pulses n => setOut (fun o => { o with pulses := n }) s
  | .heater st flow => setOut (fun o => { o with heatSt := st, heatFlow := flow }) s
  | .panel mode flow => setCfg (.setWater mode flow) s
  | .config c => setCfg (fun _ => c) s
  | .env sts alm mask => { s with sts := sts, alm := alm, mask := mask }

/-- `sys_local_var_init` and `alarm_acl_init`: the local registers are 0 and no alarm stands. -/
def boot (c : Config) (i : Inputs) : Sys where
  cfg := c
  inp := i
  sts := { workMode := 0, sensor := 0, dout := .zero, comDout := .zero, alarm := .zero
           comAlarm := .zero, alarmCom := 0, totalCnt := 0, criticalCnt := 0, majorCnt := 0
           mioorCnt := 0, aout := 0, comAo := 0, curWater := 0, lastWater := 0, pluseCnt := 0
           runtime := List.replicate 39 ⟨0, 0⟩, cumulative0 := 0, cumulative1 := 0, cumulative2 := 0 }
  req := .zero
  manual := .zero
  alm := .zero
  mask := .zero
  final := .zero
  tmo := { fan := 0, comp := ⟨0, 0⟩, rh1 := 0, ev1 := 0, ev2 := 0, p2 := 0 }
  fan := { fsm := .idle, gear := .no, close := 0, aoReq := 0, aoManual := 0, aoFinal := 0 }
  comp := { sigFsm := 0, fsm := ⟨.idle, .idle⟩, close := ⟨0, 0⟩, startupInterval := 0
            stopInterval := 0 }
  start := { waterFull := false, powerOnTime := 0, thCheckInterval := 0, thCheckDelay := 5
             offsetCnt := 0, fcpStart := false, wlStart := false }
  pwp := { opened := false, openTime := 0, pwpS := false }
  cold := { coldWater := false, delay0 := 0, delay1 := 0, u8Coldwater := false, bdTime := 0
            bdFanDelay := 0 }
  ster := { sterilize := false, uvDelay := 0, interval := 0, time := 0 }
  out := { flag := .no, ok := .idle, key := 0, heatSt := 0, heatFlow := 0, heatTime := 0, delay0 := 0
           delay1 := 0, delay2 := 0, childLockKey := false, childLockCnt0 := 0, childLockCnt1 := 0
           closeDelay := 0, closeNum := 0, heatNum := 0, heatFirst := 0, pulses := 0, heatTx := [] }
  stor := { status := false, fsm := .idle }
  dis := { uartTimeout1 := 0, rsInteralNeterr := false, closeTime0 := 0, closeTime1 := 0
           neterrDelay := 0, rsInteral := 0, restart := 0 }
  alarm := { cnt := 0, delay := 0, sts := List.replicate 23 ⟨.inactive, 0xFFFF, 0⟩
             lockTime0 := 0xFFFFFFFF, lockTime1 := 0xFFFFFFFF, lockTime2 := 0xFFFFFFFF
             lastState := .inactive, lockFlag := false, remove := .zero, chain := [], log := [] }
  setSystimeDelay := 0
  pins := 0
  sec := 0
  regWrites := []

/-- Inputs of a machine at rest: water between the lower and the middle switches of both tanks, the case
closed, no key pressed and no contact reporting. -/
def quiet : Inputs where
  din := 0x1076
  ntc1 := 200
  ntc2 := 200
  ntc3 := 200
  ntc4 := 200
  temp := 250
  hum := 600
  mbmCom := 1
  sensorRemap := 0
  workLimit := false
  hour := 0
  min := 0
  time := 0
  tick := 0
  f2uOut := 0

end WM.Impl
