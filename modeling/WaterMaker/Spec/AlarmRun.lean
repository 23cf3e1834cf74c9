import WaterMaker.Impl.Chain
import WaterMaker.Impl.System
import WaterMaker.Spec.Alarm
import WaterMaker.Spec.Lockout

/-!
# The alarms, as they are observed

A run of the alarms with what the registers do not show (`Recorded`): the results of the rules, the announcements and
the chain in memory. On it the results about the alarms say what they say: when an alarm enters the bitmap and leaves
it, what its removal brings about, when the machine is locked, and which probes are named.
-/

namespace WM.Spec

open WM WM.Impl

/-! ## The board of the firmware -/

/-- The slots of the board. -/
def slotsOf (s : Sys) (a : Acl) : Slot := ⟨(aclSts s a).state, (aclSts s a).timeout⟩

/-- The alarms that have a rule; the others' only ever report `ALARM_ACL_CLEARED`. -/
def hasRule : Acl → Bool
  | .filterElement3 | .filterElement4 | .uv2Ot | .hiPress2 => false
  | _ => true

/-- The counters of a list; `WORK_LIMIT_CATION` counts as a critical alarm. -/
def cntOf (w : Bool) (l : List AlarmNode) : AlarmCnt :=
  ⟨levelCnt (· == 0) l + w.toNat, levelCnt (· == 1) l, levelCnt (fun l => l != 0 && l != 1) l⟩

/-- The memory holds the list `l`, no block is lost, and the counters count it. -/
structure Keeps (w : Bool) (c : Chain) (l : List AlarmNode) : Prop where
  holds : ∃ bs, c.pool.Holds bs l
  cnt : c.cnt = cntOf w l

/-- What the switch announces. -/
def noticeOf (a : Acl) (t : AclTrig) (s : Sys) : Slot × Option Notice :=
  (slotsOf s a).turn (alarmAclDelay a s.cfg % 65536) a.autoReset t

/-- The counters count the chain, and the password limit `w`. -/
structure Counted (w : Bool) (s : Sys) : Prop where
  total : s.sts.totalCnt = s.alarm.chain.length + w.toNat
  critical : s.sts.criticalCnt = levelCnt (· == 0) s.alarm.chain + w.toNat
  major : s.sts.majorCnt = levelCnt (· == 1) s.alarm.chain
  mioor : s.sts.mioorCnt = levelCnt (fun l => l != 0 && l != 1) s.alarm.chain

/-! ## Recorded runs -/

/-- A run of the alarms with what the registers do not show: the results of the rules, the announcements, and
the chain in memory as long as all calls on it succeed. -/
structure Recorded where
  sys : Sys
  results : List (Acl × AclTrig)
  log : List (Acl × Notice)
  mem : Option Chain

/-- The call that goes with an announcement. -/
def inMemory (a : Acl) (s : Sys) : Option Notice → Chain → Option (Bool × Chain)
  | none, c => some (true, c)
  | some .triger, c => Chain.nodeAppend s.inp.workLimit ⟨a.logId, (aclSts s a).value, s.inp.time⟩ c
  | some .ended, c => Chain.nodeDelete s.inp.workLimit a.logId c

/-- The switch of a turn behind its rule. -/
def switchOf (s : Sys) (a : Acl) : Slot × Option Notice := noticeOf a (aclRule a s).1 (aclRule a s).2

def record (x : Recorded) (a : Acl) : Recorded where
  sys := aclStep x.sys a
  results := (a, (aclRule a x.sys).1) :: x.results
  log :=
    match (switchOf x.sys a).2 with
    | none => x.log
    | some n => (a, n) :: x.log
  mem := do
    let c ← x.mem
    let r ← inMemory a (aclRule a x.sys).2 (switchOf x.sys a).2 c
    if r.1 then some r.2 else none

/-- The entry that an announcement puts into the log. -/
def Entry (e : Acl × Notice) (l : AlarmLog) : Prop :=
  l.alarmId = e.1.logId ∧
    match e.2 with
    | .triger => l.endTime = 0xFFFFFFFF
    | .ended => l.triggerTime = 0

/-- What happens to the alarms. -/
inductive AlarmEvent
  /-- a call of `alarm_acl_exe`; every second one is effective -/
  | pass
  | clear
  /-- the rest of the machine becomes that of `w` -/
  | world (w : Sys)

/-- The alarms of `s` in the machine `w`. -/
def around (s w : Sys) : Sys :=
  { w with
    alarm := s.alarm
    sts := { w.sts with
      alarm := s.sts.alarm, totalCnt := s.sts.totalCnt, criticalCnt := s.sts.criticalCnt
      majorCnt := s.sts.majorCnt, mioorCnt := s.sts.mioorCnt } }

def alarmStep (s : Sys) : AlarmEvent → Sys
  | .pass => alarmAclExe s
  | .clear => clearAlarm s
  | .world w => around s w

/-- `WORK_LIMIT_CATION` stays clear. -/
def Unlimited : AlarmEvent → Prop
  | .world w => w.inp.workLimit = false
  | _ => True

instance : DecidablePred Unlimited := fun e => by cases e <;> unfold Unlimited <;> infer_instance

/-- This call of `alarm_acl_exe` looks at the alarms. -/
def effective (s : Sys) : Bool := (countPass s).alarm.cnt % 2 = 0

/-- The end of a pass: the bits are published and the outputs held. -/
def endPass (s : Sys) : Sys := setSts (fun t => { t with comAlarm := t.alarm }) s |> alarmArbiration

def recordPass (x : Recorded) : Recorded :=
  let x := { x with sys := countPass x.sys }
  if x.sys.alarm.cnt % 2 ≠ 0 then x
  else
    let x := run record x Acl.all
    { x with sys := endPass x.sys }

def recordStep (x : Recorded) : AlarmEvent → Recorded
  | .pass => recordPass x
  | e => { x with sys := alarmStep x.sys e }

/-- The results of one alarm's rule, the newest first. -/
def heard (a : Acl) (results : List (Acl × AclTrig)) : List AclTrig :=
  (results.filter fun e => e.1 = a).map Prod.snd

/-- What concerns one alarm. -/
structure Mine where
  slot : Slot
  bit : Bool
  heard : List AclTrig
  said : List Notice
  request : Bool

def mine (a : Acl) (x : Recorded) : Mine :=
  ⟨slotsOf x.sys a, x.sys.alarmBit a, heard a x.results, said a x.log, x.sys.alarm.remove.get a.id⟩

/-- The alarms after `alarm_acl_init`, with nothing recorded. -/
def alarmBoot (c : Config) (i : Inputs) : Recorded := ⟨boot c i, [], [], some Chain.chainInit⟩

def AlarmEvent.isPass : AlarmEvent → Bool
  | .pass => true
  | _ => false

/-- The calls of `alarm_acl_exe` in a run. -/
def calls (es : List AlarmEvent) : Nat := es.countP AlarmEvent.isPass

/-! ## One alarm -/

/-- No alarm is removed, and the delay of alarm `a` stays. -/
def Untouched (a : Acl) (delay : Nat) : AlarmEvent → Prop
  | .pass => True
  | .clear => False
  | .world w => alarmAclDelay a w.cfg = delay

instance (a : Acl) (delay : Nat) : DecidablePred (Untouched a delay)
  | .pass => instDecidableTrue
  | .clear => instDecidableFalse
  | .world w => inferInstanceAs (Decidable (alarmAclDelay a w.cfg = delay))

/-- What a result `r` of its rule does to alarm `a`: it enters the bitmap with the `delay + 2`-nd result
`ALARM_ACL_TRIGGERED` since the last `ALARM_ACL_CLEARED`, and leaves it, if it resets itself, the same way. -/
structure Brings (a : Acl) (delay : Nat) (r : AclTrig) (x y : Mine) : Prop where
  heard : y.heard = r :: x.heard
  enters : x.bit = false → (y.bit = true ↔
    r = .triggered ∧ streak .high .low (y.heard.map Slot.reading) = delay + 2)
  leaves : x.bit = true → (y.bit = false ↔
    a.autoReset = true ∧ r = .cleared ∧ streak .low .high (y.heard.map Slot.reading) = delay + 2)

/-- What a step does to the bit of alarm `a`: nothing, but in an effective pass. -/
def Flips (a : Acl) (delay : Nat) (x : Recorded) (e : AlarmEvent) : Prop :=
  (e = .pass → effective x.sys = true → ∃ r, Brings a delay r (mine a x) (mine a (recordStep x e))) ∧
    ((e = .pass → effective x.sys = false) → (mine a (recordStep x e)).bit = (mine a x).bit ∧
      (mine a (recordStep x e)).heard = (mine a x).heard)

/-! ## Removal -/

def lockOf12 (s : Sys) : Nat × Nat × Nat × Bool :=
  (s.alarm.lockTime0, s.alarm.lockTime1, s.alarm.lockTime2, s.alarm.lockFlag)

/-- The lock without history. -/
def unlocked : Nat × Nat × Nat × Bool := (0xFFFFFFFF, 0xFFFFFFFF, 0xFFFFFFFF, false)

/-- No effective pass. -/
def Waiting (x : Recorded) : AlarmEvent → Prop
  | .pass => effective x.sys = false
  | _ => True

instance (x : Recorded) : DecidablePred (Waiting x)
  | .pass => inferInstanceAs (Decidable (effective x.sys = false))
  | .clear | .world _ => instDecidableTrue

/-- The same state with no alarm to be removed. -/
def withdrawn (x : Recorded) : Recorded :=
  { x with sys := setAlarm (fun l => { l with remove := .zero }) x.sys }

/-- What `clear_alarm`, called in `x`, brings about in the pass from `y` to `z`. -/
structure Removal (x y z : Recorded) : Prop where
  /-- an alarm that stood has ended, with one entry in the log -/
  ended : ∀ a, (mine a x).slot.up = true → (aclSts z.sys a).state = .inactive ∧ z.sys.alarmBit a = false ∧
    (∀ n ∈ z.sys.alarm.chain, n.alarmId ≠ a.logId) ∧ said a z.log = .ended :: said a x.log
  lock : lockOf12 z.sys = unlocked
  /-- another moves by the result of its rule, which is the one without the command, but for the lock of E12 -/
  normal : ∀ a, (mine a x).slot.up = false → ∃ r, heard a z.results = r :: heard a x.results ∧
    slotsOf z.sys a = ((slotsOf x.sys a).turn (alarmAclDelay a y.sys.cfg % 65536) a.autoReset r).1 ∧
    if a = .e12 then r = .cleared else heard a (recordPass (withdrawn y)).results = r :: heard a x.results
  once : ∀ a, hasRule a = true → z.sys.alarm.remove.get a.id = false
  logged : List.Forall₂ Entry z.log z.sys.alarm.log

/-! ## The lock-out -/

/-- The sensor cannot be read. -/
@[irreducible] def abnormal (i : Inputs) : Bool := i16 i.ntc3 = 0x7FFF

/-- A pass over the alarms as the history sees it. -/
def moment (x : Recorded) : Moment where
  tick := x.sys.inp.tick
  abnormal := abnormal x.sys.inp
  rose := (aclSts x.sys .e11).state = .preactive ∧ (aclSts (recordPass x).sys .e11).state = .active

/-- E12 is reported in this pass. -/
def LockedOut (x : Recorded) : Prop := (heard .e12 (recordPass x).results).head? = some .triggered

/-- What an event adds to the history. -/
def glance (x : Recorded) : AlarmEvent → List Moment
  | .pass => if effective x.sys then [moment x] else []
  | _ => []

/-- The history of a run. -/
def moments (x : Recorded) : List AlarmEvent → List Moment
  | [] => []
  | e :: es => glance x e ++ moments (recordStep x e) es

/-- No removal of alarms is requested. -/
def Unasked : AlarmEvent → Prop
  | .clear => False
  | _ => True

instance : DecidablePred Unasked
  | .clear => instDecidableFalse
  | .pass | .world _ => instDecidableTrue

/-! ## No water -/

/-- Water is let out and does not flow when the alarms are looked at, and no removal is requested. -/
def Starving (x : Recorded) : AlarmEvent → Prop
  | .pass => effective x.sys = true → x.sys.remap .outWater = true ∧ x.sys.sts.curWater < 3
  | .clear => False
  | .world _ => True

instance (x : Recorded) : DecidablePred (Starving x)
  | .pass => inferInstanceAs (Decidable (_ → _ ∧ _))
  | .clear => instDecidableFalse
  | .world _ => instDecidableTrue

/-- The passes of a run that look at the alarms. -/
def effectivePasses (x : Recorded) : List AlarmEvent → Nat
  | [] => 0
  | .pass :: es => (if effective x.sys then 1 else 0) + effectivePasses (recordStep x .pass) es
  | e :: es => effectivePasses (recordStep x e) es

/-! ## The probes -/

inductive Probe
  | ntc1 | ntc2 | ntc3 | ntc4
  deriving DecidableEq

namespace Probe

/-- `AI_NTC1` to `AI_NTC4`: the probe's place in the mask of the analog inputs and in the sensor word. -/
def bpos : Probe → Nat
  | ntc1 => 1 | ntc2 => 2 | ntc3 => 3 | ntc4 => 4

def reading (i : Inputs) : Probe → Nat
  | ntc1 => i.ntc1 | ntc2 => i.ntc2 | ntc3 => i.ntc3 | ntc4 => i.ntc4

/-- The probe is enabled in the mask. -/
def Fitted (p : Probe) (s : Sys) : Prop := s.cfg.maskAin.getLsbD p.bpos = true

/-- The reading is not within `ACL_TEM_MIN` and `ACL_TEM_MAX`. -/
def Outside (p : Probe) (s : Sys) : Prop := ¬(-280 ≤ i16 (p.reading s.inp) ∧ i16 (p.reading s.inp) ≤ 1400)

/-- The probe's bit of the sensor word. -/
def Shown (p : Probe) (s : Sys) : Prop := s.sts.sensor.getLsbD p.bpos = true

instance (p : Probe) (s : Sys) : Decidable (p.Fitted s) := inferInstanceAs (Decidable (_ = _))

instance (p : Probe) (s : Sys) : Decidable (p.Outside s) := inferInstanceAs (Decidable (¬_))

instance (p : Probe) (s : Sys) : Decidable (p.Shown s) := inferInstanceAs (Decidable (_ = _))

end Probe

/-- The bits of the fitted probes show the readings outside the range, and the others are kept. -/
def Identified (s s' : Sys) : Prop :=
  ∀ p : Probe, (p.Fitted s → (p.Shown s' ↔ p.Outside s)) ∧ (¬p.Fitted s → (p.Shown s' ↔ p.Shown s))

/-- Where the second probe is fitted, its bit shows it already, and the first probe's bit is to be clear. -/
def Spared (s : Sys) : Prop :=
  Probe.ntc2.Fitted s → (Probe.ntc2.Shown s ↔ Probe.ntc2.Outside s) ∧
    if Probe.ntc1.Fitted s then ¬Probe.ntc1.Outside s else ¬Probe.ntc1.Shown s

/-! ## Effective calls -/

/-- The next call of `alarm_acl_exe` evaluates the rules. -/
def Evaluates (x : Recorded) : Prop := (recordStep x .pass).results ≠ x.results

end WM.Spec
