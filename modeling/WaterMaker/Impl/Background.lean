import WaterMaker.Impl.Access

/-!
# The background thread

`sys_comp_cooldown`, `run_time_process` (`bkg_thread.c`) and `sys_running_mode_update` (`sys_status.c`),
which the background thread calls once a second.
-/

namespace WM.Impl

/-- The countdowns of `l_sys.comp_timeout[]`. -/
def Timeout.cooldown (t : Timeout) : Timeout :=
  { fan := t.fan - 1, comp := t.comp.map (· - 1), rh1 := t.rh1 - 1, ev1 := t.ev1 - 1, ev2 := t.ev2 - 1,
    p2 := t.p2 - 1 }

/-- The temperature check: `TH_Check_Delay` keeps it due after power-on. -/
def StartSt.cooldown (t : StartSt) : StartSt :=
  { t with thCheckDelay := t.thCheckDelay - 1
           thCheckInterval := if t.thCheckDelay > 0 then 0 else t.thCheckInterval - 1 }

/-- The child lock's and the keys' countdowns. -/
def OutSt.cooldown (child : Bool) (o : OutSt) : OutSt :=
  { o with childLockCnt0 := if child then (o.childLockCnt0 + 1) % 256 else 0
           childLockCnt1 := o.childLockCnt1 - 1
           delay0 := o.delay0 - 1, delay1 := o.delay1 - 1 }

/-- `sys_comp_cooldown`. -/
def sysCompCooldown (s : Sys) : Sys :=
  { s with
    tmo := s.tmo.cooldown
    comp := { s.comp with startupInterval := s.comp.startupInterval - 1
                          stopInterval := s.comp.stopInterval - 1 }
    start := s.start.cooldown
    setSystimeDelay := s.setSystimeDelay - 1
    out := s.out.cooldown (s.diSts .child)
    cold := { s.cold with bdTime := s.cold.bdTime - 1, bdFanDelay := s.cold.bdFanDelay - 1
                          delay0 := s.cold.delay0 - 1 }
    pwp := { s.pwp with openTime := if s.pwp.opened then (s.pwp.openTime + 1) % 65536 else 0 }
    ster := { s.ster with uvDelay := s.ster.uvDelay - 1 } }

/-! ## Hours and litres -/

/-- `time_calc` behind `u16Runtime[0][i]++`. -/
def Runtime.second (r : Runtime) : Runtime :=
  let low := (r.low + 1) % 65536
  if low % 4096 ≥ 3600 then ⟨0, (r.high + 1) % 65536⟩ else ⟨low, r.high⟩

/-- `Flow_calc` behind the addition of a volume. -/
def Runtime.flow (v : Nat) (r : Runtime) : Runtime :=
  let ml := (r.low + v) % 65536
  if ml ≥ 1000 then ⟨ml % 1000, (r.high + ml / 1000) % 65536⟩ else ⟨ml, r.high⟩

/-- Counter `i` runs with output `i`; 32 is the air filter, which runs with the fan, and 33 to 38 are the
filter elements, which run with `elements`. -/
def countRuntime (dout : Words) (elements : Runtime → Runtime) (i : Nat) (r : Runtime) : Runtime :=
  if i < 32 then if dout.get i then r.second else r
  else if i = 32 then if dout.get Do.fan.bpos then r.second else r
  else elements r

/-- The filter elements count seconds of dispensing, or with type 0 the litres of finished dispenses. -/
def elementCount (s : Sys) (r : Runtime) : Runtime :=
  if s.cfg.filterElementType ≠ 0 then if s.remap .outWater then r.second else r
  else if s.out.ok = .out then r.flow s.sts.lastWater else r

/-- A finished dispense (`WATER_OUT`) is taken into the total and the hand-shake reset. -/
def consumeOut (s : Sys) : Sys :=
  if s.out.ok = .out then
    let l := Runtime.flow s.sts.lastWater ⟨s.sts.cumulative2, s.sts.cumulative0⟩
    let k := Runtime.flow 0 ⟨l.high, s.sts.cumulative1⟩
    setOut (fun o => { o with ok := .idle }) s
      |> setSts (fun t => { t with cumulative2 := l.low, cumulative0 := k.low, cumulative1 := k.high })
  else s

/-- `u16Sec` and the copy to the EEPROM every `FIXED_SAVETIME` seconds. -/
def countSec (s : Sys) : Sys :=
  let n := (s.sec + 1) % 65536
  { s with sec := if n % 900 = 0 then 0 else n }

/-- `run_time_process`. -/
def runTimeProcess (s : Sys) : Sys :=
  setSts (fun t => { t with runtime := t.runtime.mapIdx (countRuntime t.dout (elementCount s)) }) s
    |> consumeOut |> countSec

/-! ## Running mode -/

/-- The switch-on time, or the switch-off time, is reached. -/
def timedPower (at_ : Nat) (s : Sys) : Bool :=
  s.cfg.tPowerEn ≠ 0 && s.cfg.tPowerOn ≠ s.cfg.tPowerOff && s.inp.hour * 256 + s.inp.min = at_

def setPowerMode (m : Nat) (s : Sys) : Sys :=
  setCfg (.setPower m) s |> writeReg 36 m

/-- `sys_get_pwr_signal`, and the timer's change of `u16Power_Mode`, which counts from the next call. -/
def sysGetPwrSignal (s : Sys) : Bool × Sys :=
  if s.cfg.powerMode = 0 then
    (false, if timedPower s.cfg.tPowerOn s then setPowerMode 1 s else s)
  else
    (!s.storageSignal, if timedPower s.cfg.tPowerOff s then setPowerMode 0 s else s)

/-- `sys_running_mode_update`. -/
def sysRunningModeUpdate (s : Sys) : Sys :=
  (sysGetPwrSignal s).2
    |> setRemapStatus .pwr (sysGetPwrSignal s).1
    |> setRemapStatus .fan (s.doSts .fan)
    |> setRemapStatus .cooling (s.doSts .comp1 || s.doSts .comp2)
    |> setRemapStatus .outWater (s.out.flag != .no)
    |> setRemapStatus .exitWater (s.doSts .fv)

end WM.Impl
