import WaterMaker.Impl.Access

/-!
# Alarms

`alarm_acl_exe` of `alarm_calc.c`: on every second call each alarm's rule is evaluated and drives the
alarm's state machine (`aclStep`); an alarm that becomes active sets its bit, is logged and enters the
list of standing alarms (`node_append` of `event_record.c`). Afterwards `alarm_arbiration` forces off the
outputs that the alarms hold (`alarmArbiration`).
-/

namespace WM.Impl

/-- The alarms in the order of `ACL_CONF`. -/
def Acl.all : List Acl :=
  [.e0, .e1, .e2, .e3, .e4, .e5, .e6, .e7, .e8, .e9, .waterLeak, .e11, .e12, .filterOt,
    .filterElement0, .filterElement1, .filterElement2, .filterElement3, .filterElement4, .uv2Ot,
    .rsNeterr, .hiPress1, .hiPress2]

theorem Acl.getElem?_all (a : Acl) : Acl.all[a.id]? = some a := by
  cases a <;> rfl

theorem Acl.mem_all (a : Acl) : a ∈ Acl.all :=
  List.mem_of_getElem? a.getElem?_all

theorem Acl.nodup_all : Acl.all.Nodup := by decide

theorem Acl.id_lt (a : Acl) : a.id < 23 := by
  cases a <;> decide

theorem Acl.id_inj {a b : Acl} : a.id = b.id ↔ a = b := by
  refine ⟨fun h => ?_, fun h => by rw [h]⟩
  have := a.getElem?_all
  rw [h, b.getElem?_all] at this
  exact (Option.some.inj this).symm

/-- `ALARM_ACL_RESET_POS`: the alarm ends by itself (`ACL_ENMODE_AUTO_RESET_ALARM`). -/
def Acl.autoReset : Acl → Bool
  | .e9 | .waterLeak | .e12 => false
  | _ => true

/-- `AlARM_ACL_LEVEL_POS`: `MIOOR_ALARM_LEVEL` for what has run too long, else critical. -/
def Acl.level : Acl → Nat
  | .filterOt | .filterElement0 | .filterElement1 | .filterElement2 | .filterElement3
  | .filterElement4 | .uv2Ot => 2
  | _ => 0

/-- `log_id`: number, level and `DEV_TYPE_OTHER`. -/
def Acl.logId (a : Acl) : Nat := a.id + a.level * 256 + 0x3c00

theorem Acl.logId_mod (a : Acl) : a.logId % 256 = a.id := by
  cases a <;> rfl

theorem Acl.logId_inj {a b : Acl} : a.logId = b.logId ↔ a = b := by
  refine ⟨fun h => ?_, fun h => by rw [h]⟩
  rw [← Acl.id_inj, ← a.logId_mod, h, b.logId_mod]

/-- `Alarm_acl_delay`. -/
def alarmAclDelay (a : Acl) (c : Config) : Nat :=
  match a with
  | .e4 | .e7 | .hiPress1 => 3
  | .waterLeak | .filterOt | .filterElement0 | .filterElement1 | .filterElement2 | .filterElement3
  | .filterElement4 => 10
  | .rsNeterr => c.restartDelay % 256 * 60 * 2
  | _ => 5

/-! ## Records -/

/-- `alarm_sts[a]`. -/
def aclSts (s : Sys) (a : Acl) : AclSts := s.alarm.sts.getD a.id ⟨.inactive, 0, 0⟩

def setAclSts (a : Acl) (x : AclSts) (s : Sys) : Sys :=
  setAlarm (fun l => { l with sts := l.sts.set a.id x }) s

def setAclState (a : Acl) (st : AclFsm) (timeout : Nat) (s : Sys) : Sys :=
  setAclSts a { aclSts s a with state := st, timeout := timeout } s

def setAclValue (a : Acl) (v : Nat) (s : Sys) : Sys :=
  setAclSts a { aclSts s a with value := v } s

/-- `alarm_status_bitmap_op`. -/
def alarmStatusBitmapOp (a : Acl) (on : Bool) (s : Sys) : Sys :=
  setSts (fun t => { t with alarm := t.alarm.put a.id on }) s

/-- `add_alarmlog_fifo`. -/
def addAlarmlog (a : Acl) (ended : Bool) (s : Sys) : Sys :=
  let e : AlarmLog :=
    if ended then ⟨a.logId, 0, s.inp.time, (aclSts s a).value⟩
    else ⟨a.logId, s.inp.time, 0xFFFFFFFF, (aclSts s a).value⟩
  setAlarm (fun l => { l with log := e :: l.log }) s

/-- The standing alarms of a level; every level but 0 and 1 counts as minor. -/
def levelCnt (p : Nat → Bool) (chain : List AlarmNode) : Nat :=
  chain.countP fun n => p (n.alarmId / 256 % 4)

/-- `calc_alrarm_cnt`. -/
def calcAlrarmCnt (s : Sys) : Sys :=
  let critical := levelCnt (· == 0) s.alarm.chain + s.inp.workLimit.toNat
  let major := levelCnt (· == 1) s.alarm.chain
  let mioor := levelCnt (fun l => l != 0 && l != 1) s.alarm.chain
  let total := critical + major + mioor
  let beep := s.sts.majorCnt < major || s.sts.criticalCnt < critical
  let s := setSts (fun t => { t with
    totalCnt := total, mioorCnt := mioor, majorCnt := major, criticalCnt := critical }) s
  let s := setRemapStatus .alarmStuse (total > 0) s
  let s := if beep then setRemapStatus .alarmBeep true s else s
  if major = 0 ∧ critical = 0 then setRemapStatus .alarmBeep false s else s

/-- `node_append`: the list grows at its head while the pool of 23 blocks lasts. -/
def nodeAppend (a : Acl) (s : Sys) : Sys :=
  if s.alarm.chain.length < 23 then
    setAlarm (fun l => { l with
      chain := ⟨a.logId, (aclSts s a).value, s.inp.time⟩ :: l.chain }) s
      |> calcAlrarmCnt
  else s

/-- The first node with a number among the first `n`, unlinked. -/
def unlink (id : Nat) : Nat → List AlarmNode → Option (List AlarmNode)
  | 0, _ => none
  | _, [] => none
  | n + 1, x :: xs => if x.alarmId = id then some xs else (unlink id n xs).map (x :: ·)

/-- `node_delete`: the search gives up after `total_cnt` nodes. -/
def nodeDelete (a : Acl) (s : Sys) : Sys :=
  match unlink a.logId s.sts.totalCnt s.alarm.chain with
  | some c => setAlarm (fun l => { l with chain := c }) s |> calcAlrarmCnt
  | none => s

/-! ## Rules -/

/-- A rule reports a condition; some also keep a value. -/
abbrev Rule := Sys → AclTrig × Sys

def trig (b : Bool) : AclTrig := if b then .triggered else .cleared

/-- A rule that only looks at the state. -/
def look (p : Sys → Bool) : Rule := fun s => (trig (p s), s)

/-- `acl_clear` applies: the alarm is to be removed and has got past `ALARM_FSM_PREACTIVE`. -/
def aclRemoved (a : Acl) (s : Sys) : Bool :=
  s.alarm.remove.get a.id && (aclSts s a).state != .inactive && (aclSts s a).state != .preactive

/-- `acl_clear`, and the rule behind it where it does not apply. -/
def aclClear (a : Acl) (r : Rule) : Rule := fun s =>
  let s' := setAlarm (fun l => { l with remove := l.remove.put a.id false }) s
  if aclRemoved a s then (.cleared, setAclState a .postactive 0 s') else r s'

/-- `acl00`: water is let out, but does not flow for more than three passes. -/
def acl00 : Rule := aclClear .e0 fun s =>
  let d := if s.remap .outWater && s.sts.curWater < 3 then (s.alarm.delay + 1) % 256 else 0
  (trig (d > 3), setAlarm (fun l => { l with delay := d }) s)

def acl01 : Rule := aclClear .e1 (look fun s => (getWaterLevel s).dU)
def acl02 : Rule := aclClear .e2 (look fun s => (getWaterLevel s).sU)

/-- `acl03`: a float switch is up with one below it down, or the water sensor is broken. -/
def acl03 : Rule := aclClear .e3 (look fun s =>
  let wl := getWaterLevel s
  (wl.sU && !(wl.sM && wl.sL)) || (wl.sM && !wl.sL) ||
    if s.cfg.maskDin.getLsbD 6 then
      (wl.dU && !(wl.dM && wl.dML && wl.dL)) || (wl.dM && !(wl.dML && wl.dL)) || (wl.dML && !wl.dL) ||
        s.inp.ntc4 == 0x7FFF
    else (wl.dU && !(wl.dM && wl.dL)) || (wl.dM && !wl.dL))

def acl04 : Rule := aclClear .e4 (look fun s => !s.diSts .open)

/-- `acl05`: the temperature and humidity sensor does not answer. -/
def acl05 : Rule := fun s =>
  let setCom (v : BitVec 16) : Sys → Sys := setSts (fun t => { t with alarmCom := v })
  let r := aclClear .e5 (fun s =>
    (trig (s.inp.mbmCom != 1), setCom (s.inp.mbmCom ^^^ 1) s |> setAclValue .e5 s.inp.mbmCom.toNat)) s
  if aclRemoved .e5 s then (r.1, setCom 0 r.2) else r

/-- A probe is out of range. -/
def ntcBad (v : Nat) : Bool := i16 v < -280 || i16 v > 1400

/-- One fitted probe of `acl06` and the bit of the sensor word it sets. -/
def ntcCheck (i : Nat) (bit : Nat) (on : Bool) (s : Sys) : Sys :=
  if s.cfg.maskAin.getLsbD i then
    setSts (fun t => { t with sensor := putBit t.sensor bit on }) s
  else s

/-- `acl06`. The second probe clears the first one's bit in either case. -/
def acl06 : Rule := aclClear .e6 fun s =>
  let fitted (i : Nat) := s.cfg.maskAin.getLsbD i
  let bad := (fitted 1 && ntcBad s.inp.ntc1) || (fitted 2 && ntcBad s.inp.ntc2) ||
    (fitted 3 && ntcBad s.inp.ntc3) || (fitted 4 && ntcBad s.inp.ntc4)
  (trig (bad && !fitted 15),
    s |> ntcCheck 1 1 (ntcBad s.inp.ntc1) |> ntcCheck 2 1 false |> ntcCheck 3 3 (ntcBad s.inp.ntc3)
      |> ntcCheck 4 4 (ntcBad s.inp.ntc4) |> setAclValue .e6 s.inp.sensorRemap.toNat)

/-- `acl07`: the fan's contact, held while the fan is off. -/
def acl07 : Rule := aclClear .e7 fun s =>
  if !s.pwrSts then (.cleared, s)
  else if !s.doSts .fan then (.hold, s)
  else (trig (s.diSts .fan01Od), s)

def runtimeHigh (i : Nat) (s : Sys) : Nat := (s.sts.runtime.getD i ⟨0, 0⟩).high

/-- `acl08`: the lamp's hours, compared as signed numbers. -/
def acl08 : Rule := aclClear .e8 fun s =>
  let t := runtimeHigh Do.uv1.bpos s
  (trig (i16 t > i16 s.cfg.alarmParam.uv1Ot), setAclValue .e8 t s)

def acl09 : Rule := aclClear .e9
  (look fun s => s.pwp.opened && s.pwp.openTime ≥ s.cfg.alarmParam.e9)

def acl10 : Rule := aclClear .waterLeak (look fun s => s.diSts .waterLeak)

/-- The times at which the exhaust alarm last became `ACTIVE` are remembered, three of them. -/
def lockPreactive (s : Sys) : Sys :=
  let st := (aclSts s .e11).state
  if s.alarm.lastState = st then s
  else if s.alarm.lastState = .preactive ∧ st = .active then
    setAlarm (fun l => { l with
      lockTime0 := l.lockTime1, lockTime1 := l.lockTime2, lockTime2 := s.inp.tick, lastState := st }) s
  else setAlarm (fun l => { l with lastState := st }) s

/-- `acl11`: the exhaust temperature, with 5 degrees of hysteresis. -/
def acl11 : Rule := aclClear .e11 fun s =>
  let t := i16 s.inp.ntc3
  if t = 0x7FFF then (.cleared, s)
  else
    (if t > s.cfg.alarmParam.e11 then .triggered
     else if t > s.cfg.alarmParam.e11 - 50 then .hold
     else .cleared,
     lockPreactive s)

/-- `alarm_lock`: three exhaust alarms within an hour lock the machine until they are removed. -/
def alarmLock : Rule := fun s =>
  let none32 := 0xFFFFFFFF
  let s := if s.alarm.remove.get Acl.e12.id then
      setAlarm (fun l => { l with
        lockTime0 := none32, lockTime1 := none32, lockTime2 := none32, lockFlag := false }) s
    else s
  let last := if s.alarm.lockTime2 < s.alarm.lockTime0 then none32 else s.alarm.lockTime2
  if s.alarm.lockFlag then (.triggered, s)
  else if s.alarm.lockTime0 ≠ none32 ∧ last - s.alarm.lockTime0 ≤ 3600 * 1000 then
    (.triggered, setAlarm (fun l => { l with lockFlag := true }) s)
  else (.cleared, s)

def acl12 : Rule := fun s =>
  let r := alarmLock s
  aclClear .e12 (fun s' => (r.1, s')) r.2

/-- `acl13` to `acl16`: hours of the filter and litres of the filter elements. -/
def aclRuntime (a : Acl) (i : Nat) (max : AlarmParam → Nat) : Rule := aclClear a fun s =>
  (trig (runtimeHigh i s ≥ max s.cfg.alarmParam), setAclValue a (runtimeHigh i s) s)

def acl13 : Rule := aclRuntime .filterOt 32 (·.filterOt)
def acl14 : Rule := aclRuntime .filterElement0 33 (·.filterElement0)
def acl15 : Rule := aclRuntime .filterElement1 34 (·.filterElement1)
def acl16 : Rule := aclRuntime .filterElement2 35 (·.filterElement2)

/-- `acl17`, `acl18`, `acl19` and `acl22` never trigger, and do not look at the removal either. -/
def aclNever : Rule := fun s => (.cleared, s)

def acl20 : Rule := aclClear .rsNeterr (look fun s => s.dis.rsInteralNeterr)
def acl21 : Rule := aclClear .hiPress1 (look fun s => s.diSts .hiPress1)

/-- The table `acl[]`. -/
def aclRule : Acl → Rule
  | .e0 => acl00 | .e1 => acl01 | .e2 => acl02 | .e3 => acl03 | .e4 => acl04 | .e5 => acl05
  | .e6 => acl06 | .e7 => acl07 | .e8 => acl08 | .e9 => acl09 | .waterLeak => acl10 | .e11 => acl11
  | .e12 => acl12 | .filterOt => acl13 | .filterElement0 => acl14 | .filterElement1 => acl15
  | .filterElement2 => acl16 | .filterElement3 => aclNever | .filterElement4 => aclNever
  | .uv2Ot => aclNever | .rsNeterr => acl20 | .hiPress1 => acl21 | .hiPress2 => aclNever

/-! ## The state machine -/

/-- The alarm becomes active, and ends. -/
def aclRaise (a : Acl) (s : Sys) : Sys :=
  setAclState a .active (aclSts s a).timeout s
    |> addAlarmlog a false |> alarmStatusBitmapOp a true |> nodeAppend a

def aclEnd (a : Acl) (s : Sys) : Sys :=
  addAlarmlog a true s |> alarmStatusBitmapOp a false |> nodeDelete a
    |> setAclState a .inactive (aclSts s a).timeout

/-- The switch of `alarm_acl_exe`. `enable_mode` is forced to `ACL_ENMODE_AUTO_RESET_ALARM` on every pass,
so no alarm is disabled. -/
def aclFsm (a : Acl) (t : AclTrig) (s : Sys) : Sys :=
  let x := aclSts s a
  match x.state with
  | .inactive =>
    if t = .triggered then setAclState a .preactive (alarmAclDelay a s.cfg % 65536) s else s
  | .preactive =>
    match t with
    | .triggered => if x.timeout > 0 then setAclState a .preactive (x.timeout - 1) s else aclRaise a s
    | .hold => s
    | .cleared => setAclState a .inactive 0 s
  | .active =>
    match t with
    | .triggered => setAclState a .active 0 s
    | .hold => s
    | .cleared =>
      if a.autoReset then setAclState a .postactive (alarmAclDelay a s.cfg % 65536) s else s
  | .postactive =>
    match t with
    | .cleared => if x.timeout > 0 then setAclState a .postactive (x.timeout - 1) s else aclEnd a s
    | .triggered => setAclState a .active 0 s
    | .hold => s
  | .error => setAclState a .inactive x.timeout s

/-- One alarm of one pass. -/
def aclStep (s : Sys) (a : Acl) : Sys := aclFsm a (aclRule a s).1 (aclRule a s).2

/-! ## What the alarms hold -/

/-- `alarm_bitmap_op` and `alarm_bitmap_mask_op` of one output: held off, or released. -/
def alarmHold (b : Do) (hold : Bool) (s : Sys) : Sys :=
  { s with alm := s.alm.put b.bpos (!hold), mask := s.mask.put b.bpos hold }

/-- `close_dev`: the fan's alarm or a blocked filter. -/
def closeDev (s : Sys) : Bool := s.alarmBit .e7 || s.alarmBit .e9

/-- `alarm_arbiration`. -/
def alarmArbiration (s : Sys) : Sys :=
  s |> alarmHold .comp1 (closeDev s || s.alarmBit .hiPress1)
    |> alarmHold .comp2 (closeDev s)
    |> alarmHold .fan (closeDev s)

/-- `u8CNT++`, back to 0 at 255. -/
def countPass (s : Sys) : Sys :=
  setAlarm (fun l => { l with cnt := if (l.cnt + 1) % 256 ≥ 0xFF then 0 else (l.cnt + 1) % 256 }) s

/-- `alarm_acl_exe`. -/
def alarmAclExe (s : Sys) : Sys :=
  let s := countPass s
  if s.alarm.cnt % 2 ≠ 0 then s
  else
    let s := Acl.all.foldl aclStep s
    setSts (fun t => { t with comAlarm := t.alarm }) s |> alarmArbiration

/-- `clear_alarm`. -/
def clearAlarm (s : Sys) : Sys :=
  setAlarm (fun l => { l with remove := ⟨0xFFFF, 0xFFFF⟩ }) s

end WM.Impl
