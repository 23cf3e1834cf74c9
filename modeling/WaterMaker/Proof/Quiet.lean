import WaterMaker.Proof.Frame

/-!
# What the alarms, the output stage and the background thread leave alone

`alarm_acl_exe` writes the alarm records, their part of the status and the two words that override the
outputs; `alarmView` is a state without them (`alarmView_alarmAclExe`), and every rule of the table keeps it
(`quiet_aclRule`). `oc_update` writes the final word, the pins,
what the status says of them and the fan's analog output (`outputView_ocUpdate`). `run_time_process` and
`sys_running_mode_update` are treated alike.
-/

namespace WM.Proof

open WM WM.Impl

/-! ## Alarms -/

/-- The status without what the alarms write. -/
def quietSts (t : Status) : Status :=
  { t with workMode := 0, sensor := 0, alarm := .zero, comAlarm := .zero, alarmCom := 0, totalCnt := 0
           criticalCnt := 0, majorCnt := 0, mioorCnt := 0 }

/-- A state without the alarms. -/
def alarmView (s : Sys) : Sys :=
  { s with sts := quietSts s.sts, alarm := (boot s.cfg s.inp).alarm, alm := .zero, mask := .zero }

section alarmView

variable (s : Sys)

@[simp] theorem alarmView_setAlarm (f : AlarmSt → AlarmSt) : alarmView (setAlarm f s) = alarmView s := rfl

theorem alarmView_setSts {f : Status → Status} (h : ∀ t, quietSts (f t) = quietSts t) :
    alarmView (setSts f s) = alarmView s :=
  congrArg (fun t => { alarmView s with sts := t }) (h s.sts)

@[simp] theorem alarmView_setRemapStatus (b : WorkSts) (on : Bool) :
    alarmView (setRemapStatus b on s) = alarmView s := alarmView_setSts s fun _ => rfl

@[simp] theorem alarmView_setAclState (a : Acl) (st : AclFsm) (n : Nat) :
    alarmView (setAclState a st n s) = alarmView s := rfl

@[simp] theorem alarmView_setAclValue (a : Acl) (n : Nat) :
    alarmView (setAclValue a n s) = alarmView s := rfl

@[simp] theorem alarmView_addAlarmlog (a : Acl) (ended : Bool) :
    alarmView (addAlarmlog a ended s) = alarmView s := rfl

@[simp] theorem alarmView_alarmStatusBitmapOp (a : Acl) (on : Bool) :
    alarmView (alarmStatusBitmapOp a on s) = alarmView s := alarmView_setSts s fun _ => rfl

@[simp] theorem alarmView_calcAlrarmCnt : alarmView (calcAlrarmCnt s) = alarmView s := by
  have hcnt : ∀ a b c d, alarmView (setSts (fun t => { t with
      totalCnt := a, mioorCnt := b, majorCnt := c, criticalCnt := d }) s) = alarmView s :=
    fun _ _ _ _ => alarmView_setSts s fun _ => rfl
  simp [calcAlrarmCnt, hcnt, apply_ite alarmView]

@[simp] theorem alarmView_nodeAppend (a : Acl) : alarmView (nodeAppend a s) = alarmView s := by
  simp [nodeAppend, apply_ite alarmView]

@[simp] theorem alarmView_nodeDelete (a : Acl) : alarmView (nodeDelete a s) = alarmView s := by
  unfold nodeDelete
  split <;> simp

theorem alarmView_aclFsm (a : Acl) (t : AclTrig) : alarmView (aclFsm a t s) = alarmView s := by
  unfold aclFsm
  dsimp only
  cases (aclSts s a).state <;> cases t <;> simp [aclRaise, aclEnd, apply_ite alarmView]

end alarmView

/-- A part of the machine that neither a request to remove an alarm nor an alarm's record belongs to. -/
structure Apart {α : Type} (v : Sys → α) : Prop where
  remove : ∀ (a : Acl) (s : Sys), v (setAlarm (fun l => { l with remove := l.remove.put a.id false }) s) = v s
  sts : ∀ (a : Acl) (x : AclSts) (s : Sys), v (setAclSts a x s) = v s

/-- A rule leaves that part as it is. -/
def Passive {α : Type} (v : Sys → α) (r : Rule) : Prop := ∀ s, v (r s).2 = v s

section apart

variable {α : Type} {v : Sys → α} (hv : Apart v)
include hv

theorem Apart.aclClear {r : Rule} (h : Passive v r) (a : Acl) : Passive v (aclClear a r) := by
  intro s
  unfold Impl.aclClear
  split
  · exact (hv.sts ..).trans (hv.remove ..)
  · exact (h _).trans (hv.remove ..)

/-- A rule that writes neither the status word of the line nor a sensor bit, but perhaps the alarm's value. -/
theorem Apart.aclRule (hsts : ∀ f s, (∀ t, quietSts (f t) = quietSts t) → v (setSts f s) = v s)
    {a : Acl} (ha : a ≠ .e0 ∧ a ≠ .e11 ∧ a ≠ .e12) :
    Passive v (aclRule a) := by
  have hvalue : ∀ a n s, v (setAclValue a n s) = v s := fun a n s => hv.sts a _ s
  have hlook : ∀ p, Passive v (look p) := fun _ _ => rfl
  have hruntime : ∀ a i max, Passive v (aclRuntime a i max) := fun a i max =>
    hv.aclClear (fun s => hvalue a _ s) a
  cases a with
  | e0 => exact absurd rfl ha.1
  | e11 => exact absurd rfl ha.2.1
  | e12 => exact absurd rfl ha.2.2
  | e5 =>
    have hcom : ∀ (n : BitVec 16) s, v (setSts (fun t => { t with alarmCom := n }) s) = v s := fun n s =>
      hsts _ s fun _ => rfl
    intro s
    show v (acl05 s).2 = v s
    unfold acl05
    split
    · exact (hcom _ _).trans (hv.aclClear (fun s => (hvalue ..).trans (hcom _ s)) .e5 s)
    · exact hv.aclClear (fun s => (hvalue ..).trans (hcom _ s)) .e5 s
  | e6 =>
    have hntc : ∀ i bit on s, v (ntcCheck i bit on s) = v s := fun i bit on s => by
      unfold ntcCheck
      split
      · exact hsts _ s fun _ => rfl
      · rfl
    refine hv.aclClear (fun s => ?_) .e6
    refine (hvalue ..).trans ?_
    rw [hntc, hntc, hntc, hntc]
  | e7 =>
    refine hv.aclClear (fun s => ?_) .e7
    split_ifs <;> rfl
  | e8 => exact hv.aclClear (fun s => hvalue .e8 _ s) .e8
  | filterOt | filterElement0 | filterElement1 | filterElement2 => exact hruntime _ _ _
  | filterElement3 | filterElement4 | uv2Ot | hiPress2 => exact fun _ => rfl
  | _ => exact hv.aclClear (hlook _) _

end apart

theorem apart_alarmView : Apart alarmView := ⟨fun _ _ => rfl, fun _ _ _ => rfl⟩

theorem quiet_acl11 : Passive alarmView acl11 := by
  have hlock : ∀ s, alarmView (lockPreactive s) = alarmView s := fun s => by
    simp [lockPreactive, apply_ite alarmView]
  unfold acl11
  exact apart_alarmView.aclClear (fun s => by simp [apply_ite Prod.snd, apply_ite alarmView, hlock]) .e11

theorem quiet_acl12 : Passive alarmView acl12 := fun s => by
  have hlock : Passive alarmView alarmLock := fun s => by
    unfold alarmLock
    dsimp only
    split <;> (repeat' split) <;> rfl
  exact (apart_alarmView.aclClear (fun _ => rfl) .e12 _).trans (hlock s)

/-- Every rule keeps everything but the alarms. -/
theorem quiet_aclRule (a : Acl) : Passive alarmView (aclRule a) := by
  cases a with
  | e0 => exact apart_alarmView.aclClear (fun _ => rfl) .e0
  | e11 => exact quiet_acl11
  | e12 => exact quiet_acl12
  | _ => exact apart_alarmView.aclRule (fun _ s => alarmView_setSts s) (by decide)

theorem alarmView_aclStep (s : Sys) (a : Acl) : alarmView (aclStep s a) = alarmView s :=
  (alarmView_aclFsm _ a _).trans (quiet_aclRule a s)

/-- `alarm_acl_exe` writes the alarms alone. -/
theorem alarmView_alarmAclExe (s : Sys) : alarmView (alarmAclExe s) = alarmView s := by
  have hfold : ∀ (as : List Acl) s, alarmView (as.foldl aclStep s) = alarmView s := by
    intro as
    induction as with
    | nil => exact fun _ => rfl
    | cons a as ih => exact fun s => (ih _).trans (alarmView_aclStep s a)
  have hhold : ∀ b on s, alarmView (alarmHold b on s) = alarmView s := fun _ _ _ => rfl
  have hcom : ∀ s, alarmView (setSts (fun t => { t with comAlarm := t.alarm }) s) = alarmView s :=
    fun s => alarmView_setSts s fun _ => rfl
  simp [alarmAclExe, apply_ite alarmView, alarmArbiration, hhold, hcom, hfold, countPass]

/-! ## The output stage -/

/-- A state without the output stage. -/
def outputView (s : Sys) : Sys :=
  { s with final := .zero, manual := .zero, pins := 0
           fan := { s.fan with aoManual := 0, aoFinal := 0 }
           sts := { s.sts with dout := .zero, comDout := .zero, comAo := 0 } }

section outputView

variable (s : Sys)

theorem outputView_ocArbitration : outputView (ocArbitration s) = outputView s := by
  simp only [outputView, ocArbitration]

theorem outputView_ocDoUpdate (bits : BitVec 32) : outputView (ocDoUpdate bits s) = outputView s := by
  unfold ocDoUpdate Build.ocDoUpdate
  dsimp only
  split <;> simp only [outputView]

theorem outputView_setFanSt {f : FanSt → FanSt}
    (h : ∀ x, (f x).fsm = x.fsm ∧ (f x).gear = x.gear ∧ (f x).close = x.close ∧ (f x).aoReq = x.aoReq) :
    outputView (setFanSt f s) = outputView s := by
  obtain ⟨h1, h2, h3, h4⟩ := h s.fan
  simp only [outputView, setFanSt, h1, h2, h3, h4]

theorem outputView_ocAoArbitration : outputView (ocAoArbitration s) = outputView s := by
  unfold ocAoArbitration
  split <;> exact outputView_setFanSt s fun _ => ⟨rfl, rfl, rfl, rfl⟩

theorem outputView_ocAoUpdate : outputView (ocAoUpdate s) = outputView s := by
  unfold ocAoUpdate
  split
  · split <;> simp only [outputView, setSts]
  · simp only [outputView, setSts]

/-- `oc_update` writes the output stage alone. -/
theorem outputView_ocUpdate : outputView (ocUpdate s) = outputView s := by
  unfold ocUpdate
  rw [outputView_ocAoUpdate, outputView_ocAoArbitration, outputView_ocDoUpdate, outputView_ocArbitration]

end outputView

/-! ## The background thread -/

/-- A state without the counters of `run_time_process` and the hand-shake it takes part in. -/
def counterView (s : Sys) : Sys :=
  { s with sts := { s.sts with runtime := [], cumulative0 := 0, cumulative1 := 0, cumulative2 := 0 }
           out := { s.out with ok := .idle }, sec := 0 }

theorem counterView_runTimeProcess (s : Sys) : counterView (runTimeProcess s) = counterView s := by
  have hsec : ∀ s, counterView (countSec s) = counterView s := fun s => by
    simp only [counterView, countSec]
  have hout : ∀ s, counterView (consumeOut s) = counterView s := fun s => by
    unfold consumeOut
    split
    · simp only [counterView, setSts, setOut]
    · rfl
  unfold runTimeProcess
  rw [hsec, hout]
  simp only [counterView, setSts]

/-- A state without the power switch and the work mode. -/
def modeView (s : Sys) : Sys :=
  { s with cfg := s.cfg.setPower 0, sts := { s.sts with workMode := 0 }, regWrites := [] }

theorem modeView_sysRunningModeUpdate (s : Sys) : modeView (sysRunningModeUpdate s) = modeView s := by
  have hset : ∀ b on s, modeView (setRemapStatus b on s) = modeView s := fun _ _ _ => rfl
  have hpow : ∀ n s, modeView (setPowerMode n s) = modeView s := fun _ _ => rfl
  simp [sysRunningModeUpdate, hset, sysGetPwrSignal, hpow, apply_ite Prod.snd, apply_ite modeView]

end WM.Proof
