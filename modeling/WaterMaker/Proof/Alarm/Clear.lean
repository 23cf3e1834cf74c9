import WaterMaker.Proof.Alarm.Pass

/-!
# Removing alarms by hand

`clear_alarm` requests the removal of every alarm; the next effective pass of `alarm_acl_exe` meets the requests.
An alarm that stands ends in it, whatever its rule would say (`ends_of_request`); one that does not fares as
without the request, since the rules look at nothing that the removal of other alarms changes (`result_congr`),
but for E12, whose lock is reset (`lock_of_request`). `clear_alarm_effective` puts this together for every
reachable state.
-/

namespace WM.Proof

open WM WM.Impl WM.Spec

/-! ## What the rules look at -/

/-- The bits of the work mode that the rules look at. -/
def workBits (s : Sys) : Bool × Bool := (s.remap .outWater, s.remap .pwr)

theorem workBits_setRemapStatus {b : WorkSts} (h : b = .alarmStuse ∨ b = .alarmBeep) (on : Bool) (s : Sys) :
    workBits (setRemapStatus b on s) = workBits s := by
  have hbit : ∀ c : WorkSts, c = .outWater ∨ c = .pwr → (setRemapStatus b on s).remap c = s.remap c := by
    intro c hc
    change (putBit s.sts.workMode b.bpos on).getLsbD c.bpos = _
    rcases h with rfl | rfl <;> rcases hc with rfl | rfl <;> exact getLsbD_putBit _ (by decide) _ _
  unfold workBits
  rw [hbit .outWater (.inl rfl), hbit .pwr (.inr rfl)]

theorem workBits_calcAlrarmCnt (s : Sys) : workBits (calcAlrarmCnt s) = workBits s := by
  have h1 := fun on s => workBits_setRemapStatus (.inl rfl : WorkSts.alarmStuse = .alarmStuse ∨ _) on s
  have h2 := fun on s => workBits_setRemapStatus (.inr rfl : WorkSts.alarmBeep = .alarmStuse ∨ _) on s
  unfold calcAlrarmCnt
  dsimp only
  split_ifs <;> simp only [h1, h2] <;> rfl

theorem workBits_aclFsm {s : Sys} (h : Tabled s) (a : Acl) (t : AclTrig) : workBits (aclFsm a t s) = workBits s := by
  have happ : ∀ s, workBits (nodeAppend a s) = workBits s := fun s => by
    unfold nodeAppend
    split
    · exact workBits_calcAlrarmCnt _
    · rfl
  have hdel : ∀ s, workBits (nodeDelete a s) = workBits s := fun s => by
    unfold nodeDelete
    split
    · exact workBits_calcAlrarmCnt _
    · rfl
  rw [aclFsm_eq h]
  split
  · rfl
  · exact happ _
  · exact hdel _

theorem workBits_aclStep {s : Sys} (h : Tabled s) (a : Acl) : workBits (aclStep s a) = workBits s := by
  have hwork : (aclRule a s).2.sts.workMode = s.sts.workMode := by
    cases hrule : hasRule a with
    | true => exact ((ruled_aclRule hrule).judged h).elim fun _ hl => hl.work
    | false => rw [aclRule_of_not hrule]
  refine (workBits_aclFsm (tabled_aclRule h a) a _).trans ?_
  unfold workBits Sys.remap
  rw [hwork]

/-- A rule whose result depends on nothing that the alarms write. -/
def Looks (r : Rule) : Prop :=
  ∀ s s', alarmView s' = alarmView s → workBits s' = workBits s → (r s').1 = (r s).1

theorem looks_look {p : Sys → Bool} (h : ∀ s, p s = p (alarmView s)) : Looks (look p) := by
  intro s s' hv _
  unfold look
  rw [h s', h s, hv]

/-- Where `acl_clear` does not apply, the result is that of the rule behind it. -/
theorem aclClear_kept {a : Acl} {r : Rule} {s : Sys} (hr : aclRemoved a s = false) :
    aclClear a r s = r (setAlarm (fun l => { l with remove := l.remove.put a.id false }) s) :=
  if_neg (by rw [hr]; exact Bool.false_ne_true)

theorem Looks.aclClear {r : Rule} (h : Looks r) {a : Acl} {s s' : Sys} (hv : alarmView s' = alarmView s)
    (hw : workBits s' = workBits s) (hr : aclRemoved a s = false) (hr' : aclRemoved a s' = false) :
    (aclClear a r s').1 = (aclClear a r s).1 := by
  rw [aclClear_kept hr, aclClear_kept hr']
  exact h _ _ hv hw

section result

variable {s s' : Sys} (hv : alarmView s' = alarmView s)
include hv

theorem inp_of_alarmView : s'.inp = s.inp := by
  have h := congrArg Sys.inp hv
  exact h

theorem cfg_of_alarmView : s'.cfg = s.cfg := by
  have h := congrArg Sys.cfg hv
  exact h

theorem runtimeHigh_of_alarmView (i : Nat) : runtimeHigh i s' = runtimeHigh i s := by
  have h := congrArg (runtimeHigh i) hv
  exact h

end result

/-- The two rules that do more than look: a pass is counted, and the alarm of the line is set apart. -/
theorem result_acl00 {s s' : Sys} (hv : alarmView s' = alarmView s) (hw : workBits s' = workBits s)
    (hd : s'.alarm.delay = s.alarm.delay) (hr : aclRemoved .e0 s = false) (hr' : aclRemoved .e0 s' = false) :
    (acl00 s').1 = (acl00 s).1 := by
  have hout : s'.remap .outWater = s.remap .outWater := congrArg Prod.fst hw
  have hcur : s'.sts.curWater = s.sts.curWater := by
    have h := congrArg (fun s : Sys => s.sts.curWater) hv
    exact h
  unfold acl00
  rw [aclClear_kept hr, aclClear_kept hr']
  change trig (decide ((if s'.remap .outWater && decide (s'.sts.curWater < 3) then (s'.alarm.delay + 1) % 256
      else 0) > 3)) =
    trig (decide ((if s.remap .outWater && decide (s.sts.curWater < 3) then (s.alarm.delay + 1) % 256 else 0) > 3))
  rw [hout, hcur, hd]

theorem result_acl05 {s s' : Sys} (hv : alarmView s' = alarmView s) (hr : aclRemoved .e5 s = false)
    (hr' : aclRemoved .e5 s' = false) : (acl05 s').1 = (acl05 s).1 := by
  unfold acl05
  rw [hr, hr', if_neg Bool.false_ne_true, if_neg Bool.false_ne_true, aclClear_kept hr, aclClear_kept hr']
  change trig (s'.inp.mbmCom != 1) = trig (s.inp.mbmCom != 1)
  rw [inp_of_alarmView hv]

theorem looks_acl06 {f : Inputs → Config → AclTrig} {g : Sys → Sys} : Looks fun s => (f s.inp s.cfg, g s) := by
  intro s s' hv _
  dsimp only
  rw [inp_of_alarmView hv, cfg_of_alarmView hv]

/-- A rule that looks at the inputs and remembers the state for the lock. -/
theorem looks_remembers (p : Inputs → Config → Prop) [∀ i c, Decidable (p i c)] (f g : Inputs → Config → AclTrig) :
    Looks fun s => if p s.inp s.cfg then (f s.inp s.cfg, s) else (g s.inp s.cfg, lockPreactive s) := by
  intro s s' hv _
  rw [apply_ite Prod.fst, apply_ite Prod.fst, inp_of_alarmView hv, cfg_of_alarmView hv]

theorem looks_acl07 : Looks fun s =>
    if !s.pwrSts then (.cleared, s) else if !s.doSts .fan then (.hold, s) else (trig (s.diSts .fan01Od), s) := by
  intro s s' hv hw
  have hpwr : s'.pwrSts = s.pwrSts := congrArg Prod.snd hw
  have hdo : s'.doSts .fan = s.doSts .fan := by
    have h := congrArg (fun s : Sys => s.doSts .fan) hv
    exact h
  have hdi : s'.diSts .fan01Od = s.diSts .fan01Od := by
    have h := congrArg (fun s : Sys => s.diSts .fan01Od) hv
    exact h
  dsimp only
  rw [hpwr, hdo, hdi]
  split_ifs <;> rfl

theorem looks_acl08 : Looks fun s =>
    (trig (i16 (runtimeHigh Do.uv1.bpos s) > i16 s.cfg.alarmParam.uv1Ot),
      setAclValue .e8 (runtimeHigh Do.uv1.bpos s) s) := by
  intro s s' hv _
  dsimp only
  rw [runtimeHigh_of_alarmView hv, cfg_of_alarmView hv]

theorem looks_aclRuntime (a : Acl) (i : Nat) (max : AlarmParam → Nat) :
    Looks fun s => (trig (runtimeHigh i s ≥ max s.cfg.alarmParam), setAclValue a (runtimeHigh i s) s) := by
  intro s s' hv _
  dsimp only
  rw [runtimeHigh_of_alarmView hv, cfg_of_alarmView hv]

/-- The result of a rule that does not find its alarm to be removed; E12 looks at the requests. -/
theorem result_congr {a : Acl} (ha : a ≠ .e12) {s s' : Sys} (hv : alarmView s' = alarmView s)
    (hw : workBits s' = workBits s) (hd : a = .e0 → s'.alarm.delay = s.alarm.delay)
    (hr : aclRemoved a s = false) (hr' : aclRemoved a s' = false) : (aclRule a s').1 = (aclRule a s).1 := by
  cases a with
  | e12 => exact absurd rfl ha
  | e0 => exact result_acl00 hv hw (hd rfl) hr hr'
  | e5 => exact result_acl05 hv hr hr'
  | e6 =>
    exact (looks_acl06 (f := fun i c => trig (((c.maskAin.getLsbD 1 && ntcBad i.ntc1) ||
      (c.maskAin.getLsbD 2 && ntcBad i.ntc2) || (c.maskAin.getLsbD 3 && ntcBad i.ntc3) ||
      (c.maskAin.getLsbD 4 && ntcBad i.ntc4)) && !c.maskAin.getLsbD 15))).aclClear hv hw hr hr'
  | e7 => exact looks_acl07.aclClear hv hw hr hr'
  | e8 => exact looks_acl08.aclClear hv hw hr hr'
  | e11 =>
    exact (looks_remembers (fun i _ => i16 i.ntc3 = 0x7FFF) (fun _ _ => .cleared) fun i c =>
      if i16 i.ntc3 > c.alarmParam.e11 then .triggered
      else if i16 i.ntc3 > c.alarmParam.e11 - 50 then .hold else .cleared).aclClear hv hw hr hr'
  | filterOt => exact (looks_aclRuntime _ _ _).aclClear hv hw hr hr'
  | filterElement0 => exact (looks_aclRuntime _ _ _).aclClear hv hw hr hr'
  | filterElement1 => exact (looks_aclRuntime _ _ _).aclClear hv hw hr hr'
  | filterElement2 => exact (looks_aclRuntime _ _ _).aclClear hv hw hr hr'
  | filterElement3 | filterElement4 | uv2Ot | hiPress2 => rfl
  | _ => exact (looks_look fun _ => rfl).aclClear hv hw hr hr'

/-! ## One turn -/

section turn

variable {L : Bool → Prop} {x : Recorded} {a : Acl}

theorem said_record (h : Kept L x) (a : Acl) : (mine a (record x a)).said =
    ((if dropped x.sys a then ⟨.postactive, 0⟩ else slotsOf x.sys a : Slot).turn
      (alarmAclDelay a x.sys.cfg % 65536) a.autoReset (aclRule a x.sys).1).2.toList ++ (mine a x).said := by
  have hlog := congrArg (fun b : Board => said a b.log) (boardOf_record h a)
  refine Eq.trans hlog ?_
  rw [Board.said_turn]
  split
  · rw [show ((boardOf x).drop a).slot a = ⟨.postactive, 0⟩ from Function.update_self ..]
    rfl
  · rfl

theorem dropped_iff (hrule : hasRule a = true) (hreq : (mine a x).request = true)
    (he : (mine a x).slot.state ≠ .error) : dropped x.sys a = (mine a x).slot.up := by
  unfold dropped aclRemoved
  rw [hrule, show x.sys.alarm.remove.get a.id = true from hreq]
  unfold mine slotsOf Slot.up at *
  dsimp only at he ⊢
  cases hst : (aclSts x.sys a).state with
  | error => exact absurd hst he
  | inactive | preactive | active | postactive => rfl

/-- An alarm that stands and is to be removed ends in its turn. -/
theorem ends_of_request (h : Kept L x) (hrule : hasRule a = true) (hreq : (mine a x).request = true)
    (hup : (mine a x).slot.up = true) :
    (mine a (record x a)).slot = ⟨.inactive, 0⟩ ∧ (mine a (record x a)).said = .ended :: (mine a x).said := by
  have hdrop : dropped x.sys a = true := (dropped_iff hrule hreq (h.board.agree a).state).trans hup
  have hrem : aclRemoved a x.sys = true := (Bool.and_eq_true_iff.mp hdrop).2
  have hres := ((ruled_aclRule hrule).removed x.sys h.tabled hrem).1
  rw [slot_record h, said_record h, hdrop, hres]
  exact ⟨rfl, rfl⟩

/-- An alarm that does not stand moves by the result of its rule. -/
theorem moves_by_result (h : Kept L x) (hdown : (mine a x).slot.up = false) :
    (mine a (record x a)).slot =
      ((mine a x).slot.turn (alarmAclDelay a x.sys.cfg % 65536) a.autoReset (aclRule a x.sys).1).1 := by
  have hdrop : dropped x.sys a = false := Bool.eq_false_iff.mpr fun hd =>
    absurd (hdown.symm.trans (up_of_dropped hd (h.board.agree a).state)) Bool.false_ne_true
  rw [slot_record h, hdrop]
  rfl

end turn

/-! ## The lock of E12 -/

theorem alarmLock_of_request {s : Sys} (h : s.alarm.remove.get Acl.e12.id = true) :
    (alarmLock s).1 = .cleared ∧ lockOf12 (alarmLock s).2 = unlocked := by
  rw [alarmLock_eq, lockReset, if_pos h]
  exact ⟨rfl, rfl⟩

theorem lockOf12_aclClear (a : Acl) (t : AclTrig) (s : Sys) :
    lockOf12 (aclClear a (fun s => (t, s)) s).2 = lockOf12 s := by
  unfold aclClear
  split <;> rfl

theorem lockOf12_aclFsm {s : Sys} (h : Tabled s) (a : Acl) (t : AclTrig) : lockOf12 (aclFsm a t s) = lockOf12 s := by
  have hl := congrArg (fun l : AlarmSt => (l.lockTime0, l.lockTime1, l.lockTime2, l.lockFlag)) (alarm_aclFsm h a t).1
  exact hl

/-- The turn of E12 resets the lock if it is requested; its rule reports nothing then. -/
theorem lock_of_request {s : Sys} (hs : Tabled s) (h : s.alarm.remove.get Acl.e12.id = true) :
    (aclRule .e12 s).1 = .cleared ∧ lockOf12 (aclStep s .e12) = unlocked := by
  obtain ⟨h1, h2⟩ := alarmLock_of_request h
  refine ⟨?_, (lockOf12_aclFsm (tabled_aclRule hs .e12) .e12 _).trans ((lockOf12_aclClear .e12 _ _).trans h2)⟩
  change (aclClear .e12 (fun s' => ((alarmLock s).1, s')) (alarmLock s).2).1 = .cleared
  rw [h1]
  unfold aclClear
  split <;> rfl

/-- The rules behind that of E12 have no part in the lock. -/
theorem lockOf12_aclStep {s : Sys} (hs : Tabled s) {b : Acl} (hb : Acl.e12.id < b.id) :
    lockOf12 (aclStep s b) = lockOf12 s := by
  have hapart : Apart lockOf12 := ⟨fun _ _ => rfl, fun _ _ _ => rfl⟩
  refine (lockOf12_aclFsm (tabled_aclRule hs b) b _).trans ?_
  refine hapart.aclRule (fun _ _ _ => rfl) ⟨?_, ?_, ?_⟩ s <;> rintro rfl <;> exact absurd hb (by decide)

theorem lockOf12_turns {s : Sys} (hs : Tabled s) {bs : List Acl} (h : ∀ b ∈ bs, Acl.e12.id < b.id) :
    lockOf12 (run aclStep s bs) = lockOf12 s := by
  induction bs generalizing s with
  | nil => rfl
  | cons b bs ih =>
    rw [run_cons, ih (tabled_aclStep hs b) fun c hc => h c (List.mem_cons_of_mem _ hc),
      lockOf12_aclStep hs (h b List.mem_cons_self)]

theorem lockOf12_endPass (s : Sys) : lockOf12 (endPass s) = lockOf12 s := rfl

/-! ## Between the command and the pass -/

/-- The alarms of `y` are those of `x`, all of them to be removed. -/
structure Pending (x y : Recorded) : Prop where
  kept : Kept (fun _ => True) y
  same : ∀ a, mine a y = { mine a x with request := true }

theorem mine_clear (a : Acl) (x : Recorded) : mine a (recordStep x .clear) = { mine a x with request := true } := by
  have hget : (⟨0xFFFF, 0xFFFF⟩ : Words).get a.id = true := by cases a <;> rfl
  change Mine.mk _ _ _ _ ((⟨0xFFFF, 0xFFFF⟩ : Words).get a.id) = _
  rw [hget]
  rfl

theorem Pending.step {x y : Recorded} {e : AlarmEvent} (h : Pending x y) (he : Waiting y e) :
    Pending x (recordStep y e) := by
  refine ⟨h.kept.step fun _ _ => trivial, fun a => ?_⟩
  cases e with
  | clear => rw [mine_clear, h.same a]
  | world w => exact h.same a
  | pass =>
    rw [show recordStep y .pass = _ from recordPass_idle he]
    exact h.same a

/-- The alarms without a rule never begin. -/
def Unruled (x : Recorded) : Prop := ∀ a, hasRule a = false → (mine a x).slot = ⟨.inactive, 0⟩

theorem Unruled.step {x : Recorded} {e : AlarmEvent} (h : Unruled x) (hk : Kept (fun _ => True) x) :
    Unruled (recordStep x e) := by
  intro a ha
  cases e with
  | clear | world _ => exact h a ha
  | pass =>
    change (mine a (recordPass x)).slot = _
    cases he : effective x.sys with
    | false =>
      rw [recordPass_idle he]
      exact h a ha
    | true =>
      obtain ⟨as, bs, hall⟩ := List.append_of_mem a.mem_all
      obtain ⟨hy, hbefore, -, hafter⟩ := turn_in_pass hk he hall
      have hslot := (congrArg Mine.slot hbefore).trans (h a ha)
      have hdown : (mine a (run record { x with sys := countPass x.sys } as)).slot.up = false := by rw [hslot]; rfl
      rw [hafter, moves_by_result hy hdown, hslot, aclRule_of_not ha]
      rfl

theorem unruled_run (c : Config) (i : Inputs) (es : List AlarmEvent) :
    Unruled (run recordStep (alarmBoot c i) es) := by
  have hboot : Unruled (alarmBoot c i) := fun a _ => by cases a <;> rfl
  have hall : Along recordStep (fun _ _ => True) (alarmBoot c i) es := Along.of_forall fun _ _ => trivial
  refine (hall.run_inv (I := fun x => Unruled x ∧ Kept (fun _ => True) x) (fun x e hx _ => ?_)
    ⟨hboot, kept_alarmBoot c i trivial trivial⟩).1
  exact ⟨hx.1.step hx.2, hx.2.step fun _ _ => trivial⟩

/-! ## The pass that meets the requests -/

theorem workBits_turns {s : Sys} (h : Tabled s) (as : List Acl) : workBits (run aclStep s as) = workBits s := by
  induction as generalizing s with
  | nil => rfl
  | cons a as ih => rw [run_cons, ih (tabled_aclStep h a), workBits_aclStep h]

section pass

variable {L : Bool → Prop} {x : Recorded} {a : Acl}

theorem Kept.withdrawn (h : Kept L x) : Kept L (withdrawn x) := h.same rfl rfl h.limit

theorem workBits_in_pass (h : Kept L x) (as : List Acl) :
    workBits (run record { x with sys := countPass x.sys } as).sys = workBits x.sys := by
  rw [sys_run_record]
  exact workBits_turns (s := countPass x.sys) h.tabled as

/-- An alarm that does not stand is not removed. -/
theorem aclRemoved_of_down (h : (mine a x).slot.up = false) (he : (mine a x).slot.state ≠ .error) :
    aclRemoved a x.sys = false := by
  unfold aclRemoved
  unfold mine slotsOf Slot.up at *
  dsimp only at h he
  cases hst : (aclSts x.sys a).state with
  | error => exact absurd hst he
  | inactive | preactive => exact Bool.and_eq_false_iff.mpr (by simp)
  | active | postactive =>
    rw [hst] at h
    exact absurd h.symm Bool.false_ne_true

/-- An alarm that does not stand hears in a pass what it would hear without the requests. -/
theorem heard_withdrawn (h : Kept L x) (he : effective x.sys = true) (ha : a ≠ .e12)
    (hdown : (mine a x).slot.up = false) :
    (mine a (recordPass (withdrawn x))).heard = (mine a (recordPass x)).heard := by
  obtain ⟨as, bs, hall⟩ := List.append_of_mem a.mem_all
  obtain ⟨hy, hm, hv, hafter⟩ := turn_in_pass h he hall
  obtain ⟨hy', hm', hv', hafter'⟩ := turn_in_pass h.withdrawn he hall
  have hw := (workBits_in_pass h.withdrawn as).trans (workBits_in_pass h as).symm
  have hd : a = .e0 → (run record { withdrawn x with sys := countPass (withdrawn x).sys } as).sys.alarm.delay =
      (run record { x with sys := countPass x.sys } as).sys.alarm.delay := by
    rintro rfl
    cases as with
    | nil => rfl
    | cons b as =>
      have hnd := Acl.nodup_all
      have hb : b = .e0 := (List.cons.inj hall).1.symm
      rw [hall, hb] at hnd
      exact absurd (List.mem_append_right as List.mem_cons_self) (List.nodup_cons.mp hnd).1
  generalize run record { x with sys := countPass x.sys } as = y at hy hm hv hafter hw hd
  generalize run record { withdrawn x with sys := countPass (withdrawn x).sys } as = y' at hy' hm' hv' hafter' hw hd
  have hr : aclRemoved a y.sys = false :=
    aclRemoved_of_down (by rw [hm]; exact hdown) (hy.board.agree a).state
  have hr' : aclRemoved a y'.sys = false :=
    aclRemoved_of_down (by rw [hm']; exact hdown) (hy'.board.agree a).state
  have hres := result_congr ha (hv'.trans hv.symm) hw hd hr hr'
  rw [hafter, hafter']
  refine (heard_self a _ y'.results).trans (Eq.trans ?_ (heard_self a _ y.results).symm)
  rw [hres, show heard a y'.results = _ from congrArg Mine.heard hm',
    show heard a y.results = _ from congrArg Mine.heard hm]
  rfl

/-- A pass that is to remove E12 resets its lock. -/
theorem lock_in_pass (h : Kept L x) (he : effective x.sys = true) (hreq : (mine .e12 x).request = true) :
    lockOf12 (recordPass x).sys = unlocked ∧
      (mine .e12 (recordPass x)).heard = .cleared :: (mine .e12 x).heard := by
  have hall : Acl.all = Acl.all.take 12 ++ .e12 :: Acl.all.drop 13 := rfl
  obtain ⟨hy, hm, -, hafter⟩ := turn_in_pass h he hall
  have hpass : (recordPass x).sys = endPass (run aclStep (aclStep
      (run record { x with sys := countPass x.sys } (Acl.all.take 12)).sys .e12) (Acl.all.drop 13)) := by
    rw [sys_recordPass he, sys_run_record, ← run_cons, ← run_append]
    rfl
  generalize run record { x with sys := countPass x.sys } (Acl.all.take 12) = y at hy hm hafter hpass
  have hget : y.sys.alarm.remove.get Acl.e12.id = true := (congrArg Mine.request hm).trans hreq
  obtain ⟨hres, hlock⟩ := lock_of_request hy.tabled hget
  constructor
  · rw [hpass]
    refine (lockOf12_endPass _).trans ?_
    exact (lockOf12_turns (tabled_aclStep hy.tabled .e12) (by decide)).trans hlock
  · rw [hafter, ← congrArg Mine.heard hm, ← hres]
    exact heard_self ..

end pass

theorem Pending.removal {x y : Recorded} (h : Pending x y) (hu : Unruled x) (he : effective y.sys = true) :
    Removal x y (recordPass y) := by
  have hreq : ∀ a, (mine a y).request = true := fun a => by rw [h.same a]
  have hslot : ∀ a, (mine a y).slot = (mine a x).slot := fun a => by rw [h.same a]
  have hkept : Kept (fun _ => True) (recordPass y) := h.kept.step (e := .pass) fun _ _ => trivial
  obtain ⟨hlock, hres⟩ := lock_in_pass h.kept he (hreq .e12)
  refine ⟨fun a hup => ?_, hlock, fun a hdown => ?_, fun a hrule => ?_, hkept.logged⟩ <;>
    obtain ⟨as, bs, hall⟩ := List.append_of_mem a.mem_all <;>
    obtain ⟨hv, hm, hview, hafter⟩ := turn_in_pass h.kept he hall <;>
    generalize run record { y with sys := countPass y.sys } as = v at hv hm hview hafter
  · have hrule : hasRule a = true := by
      by_contra hno
      rw [hu a (Bool.eq_false_iff.mpr hno)] at hup
      exact Bool.false_ne_true hup
    obtain ⟨hend, hsaid⟩ := ends_of_request hv hrule (by rw [hm]; exact hreq a) (by rw [hm, hslot]; exact hup)
    rw [← hafter] at hend hsaid
    have hbit : (recordPass y).sys.alarmBit a = false := by
      refine (hkept.bit a).trans ?_
      rw [hend]
      rfl
    refine ⟨congrArg Slot.state hend, hbit, fun n hn hid => ?_, ?_⟩
    · have hon := (hkept.board.agree a).mem.mpr (hid ▸ List.mem_map_of_mem hn)
      exact Bool.false_ne_true (hbit.symm.trans hon)
    · rw [hm, h.same a] at hsaid
      exact hsaid
  · have hmove := moves_by_result hv (by rw [hm, hslot]; exact hdown)
    have hcfg : v.sys.cfg = y.sys.cfg := cfg_of_alarmView hview
    have hheard : (mine a (recordPass y)).heard = (aclRule a v.sys).1 :: (mine a x).heard := by
      rw [hafter, show (mine a x).heard = (mine a v).heard by rw [hm, h.same a]]
      exact heard_self ..
    rw [← hafter, hm, hslot, hcfg] at hmove
    refine ⟨_, hheard, hmove, ?_⟩
    split
    case isTrue hlast =>
      subst hlast
      rw [hheard] at hres
      exact (List.cons.inj hres).1
    case isFalse hne => exact (heard_withdrawn h.kept he hne (by rw [hslot]; exact hdown)).trans hheard
  · have hback := request_record hv a
    rw [← hafter, hrule] at hback
    exact hback

/-- Removing alarms by hand, from every reachable state `x`, with any change of the machine before and after the
call of `clear_alarm`: the next effective pass ends every alarm that stood and logs its end once, resets the lock
of E12, moves the other alarms by their rules as it would have without the command, and leaves no alarm with a
rule to be removed. -/
theorem clear_alarm_effective (c : Config) (i : Inputs) (es es' : List AlarmEvent)
    (hw : Along recordStep Waiting (run recordStep (alarmBoot c i) (es ++ [.clear])) es')
    (he : effective (run recordStep (alarmBoot c i) (es ++ .clear :: es')).sys = true) :
    let x := run recordStep (alarmBoot c i) es
    let y := run recordStep (alarmBoot c i) (es ++ .clear :: es')
    let z := run recordStep (alarmBoot c i) (es ++ .clear :: es' ++ [.pass])
    z.sys = run alarmStep (boot c i) (es ++ .clear :: es' ++ [.pass]) ∧ Removal x y z := by
  intro x y z
  have hx : Kept (fun _ => True) x := kept_run c i trivial trivial es fun _ _ _ _ => trivial
  have hstart : Pending x (run recordStep (alarmBoot c i) (es ++ [.clear])) := by
    rw [run_snoc]
    exact ⟨hx.step fun _ _ => trivial, fun a => mine_clear a x⟩
  have hy : Pending x y := by
    have hrun : y = run recordStep (run recordStep (alarmBoot c i) (es ++ [.clear])) es' := by
      rw [← run_append, List.append_assoc]
      rfl
    rw [hrun]
    exact hw.run_inv (fun _ _ hp => hp.step) hstart
  have hz : z = recordPass y := run_snoc ..
  refine ⟨run_recordStep _ _, ?_⟩
  rw [hz]
  exact hy.removal (unruled_run c i es) he

/-- The alarm of the open case is removed while the case is open. -/
theorem clear_alarm_effective_openCase :
    let x := run recordStep (alarmBoot defaultConfig quiet) openCase
    let z := run recordStep (alarmBoot defaultConfig quiet) (openCase ++ [.clear, .pass] ++ [.pass])
    (aclSts x.sys .e4).state = .active ∧ (aclSts z.sys .e4).state = .inactive ∧
      said .e4 z.log = .ended :: said .e4 x.log := by
  have h := (clear_alarm_effective defaultConfig quiet openCase [.pass] (by decide +kernel) (by decide +kernel)).2
  obtain ⟨h1, -, -, h2⟩ := h.ended .e4 (by decide +kernel)
  exact ⟨by decide +kernel, h1, h2⟩

end WM.Proof
