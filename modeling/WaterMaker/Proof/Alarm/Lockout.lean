import WaterMaker.Proof.Alarm.Clear
import WaterMaker.Proof.Alarm.Latch
import WaterMaker.Proof.Alarm.Notes

/-!
# The lock-out of the compressor

`acl11` finds out one pass later that the exhaust alarm has begun, and takes the time then; `acl12` looks at the last
three times. A pass carries the history of the run on by one moment (`Locking.pass`), so that E12 is reported exactly if
three times in a row that were recorded are close (`lockout_iff`).
-/

namespace WM.Proof

open WM WM.Impl WM.Spec

/-! ## The notes of the two rules -/

/-- What `acl11` and `acl12` remember. -/
@[ext] structure Locks where
  times : Nat × Nat × Nat
  last : AclFsm
  flag : Bool

def locks (s : Sys) : Locks :=
  ⟨(s.alarm.lockTime0, s.alarm.lockTime1, s.alarm.lockTime2), s.alarm.lastState, s.alarm.lockFlag⟩

theorem apart_locks : Apart locks := ⟨fun _ _ => rfl, fun _ _ _ => rfl⟩

theorem locks_aclFsm {s : Sys} (h : Tabled s) (a : Acl) (t : AclTrig) : locks (aclFsm a t s) = locks s := by
  have hl := congrArg (fun l : AlarmSt => Locks.mk (l.lockTime0, l.lockTime1, l.lockTime2) l.lastState l.lockFlag)
    (alarm_aclFsm h a t).1
  exact hl

/-- No other turn writes to them. -/
theorem locks_aclStep {s : Sys} (h : Tabled s) {a : Acl} (ha : a ≠ .e11 ∧ a ≠ .e12) :
    locks (aclStep s a) = locks s := by
  refine (locks_aclFsm (tabled_aclRule h a) a _).trans ?_
  by_cases h0 : a = .e0
  · rw [h0]
    exact apart_locks.aclClear (fun _ => rfl) .e0 s
  · exact apart_locks.aclRule (fun _ _ _ => rfl) ⟨h0, ha⟩ s

theorem locks_turns {s : Sys} (h : Tabled s) {as : List Acl} (has : .e11 ∉ as ∧ .e12 ∉ as) :
    locks (run aclStep s as) = locks s := by
  induction as generalizing s with
  | nil => rfl
  | cons a as ih =>
    obtain ⟨h1, h2⟩ := has
    rw [List.mem_cons, not_or] at h1 h2
    rw [run_cons, ih (tabled_aclStep h a) ⟨h1.2, h2.2⟩, locks_aclStep h ⟨Ne.symm h1.1, Ne.symm h2.1⟩]

/-- A beginning of the alarm is noted with the time. -/
theorem locks_lockPreactive (s : Sys) : locks (lockPreactive s) =
    { locks s with
      times := if (locks s).last = .preactive ∧ (aclSts s .e11).state = .active then push (locks s).times s.inp.tick
        else (locks s).times
      last := (aclSts s .e11).state } := by
  unfold lockPreactive
  by_cases hlast : s.alarm.lastState = (aclSts s .e11).state
  · have hnot : ¬((locks s).last = .preactive ∧ (aclSts s .e11).state = .active) := by
      rintro ⟨h1, h2⟩
      have h := h1.symm.trans (hlast.trans h2)
      exact nomatch h
    rw [if_pos hlast, if_neg hnot, ← hlast]
    rfl
  · rw [if_neg hlast]
    by_cases hrose : (locks s).last = .preactive ∧ (aclSts s .e11).state = .active
    · rw [if_pos hrose, if_pos (show s.alarm.lastState = .preactive ∧ _ from hrose)]
      rfl
    · rw [if_neg hrose, if_neg (show ¬(s.alarm.lastState = .preactive ∧ _) from hrose)]
      rfl

theorem aclRemoved_of_request {s : Sys} {a : Acl} (h : s.alarm.remove.get a.id = false) : aclRemoved a s = false := by
  unfold aclRemoved
  rw [h, Bool.false_and, Bool.false_and]

section remembers

variable {p : Inputs → Prop} [DecidablePred p] {r q : Sys → AclTrig} {a : Acl} {s : Sys}

theorem aclClear_idle (h : s.alarm.remove.get a.id = false) (hp : p s.inp) :
    let x := aclClear a (fun s => if p s.inp then (r s, s) else (q s, lockPreactive s)) s
    (∃ s', x.1 = r s') ∧ locks x.2 = locks s := by
  intro x
  have hx : x = (r _, setAlarm _ s) := (aclClear_kept (aclRemoved_of_request h)).trans (if_pos hp)
  rw [hx]
  exact ⟨⟨_, rfl⟩, rfl⟩

theorem aclClear_notes (h : s.alarm.remove.get a.id = false) (hp : ¬p s.inp) :
    locks (aclClear a (fun s => if p s.inp then (r s, s) else (q s, lockPreactive s)) s).2 = { locks s with
      times := if (locks s).last = .preactive ∧ (aclSts s .e11).state = .active then push (locks s).times s.inp.tick
        else (locks s).times
      last := (aclSts s .e11).state } := by
  rw [aclClear_kept (aclRemoved_of_request h)]
  refine (congrArg (fun x : AclTrig × Sys => locks x.2) (if_neg hp)).trans ?_
  exact locks_lockPreactive _

end remembers

theorem abnormal_iff {i : Inputs} : abnormal i = true ↔ i16 i.ntc3 = 0x7FFF := by
  unfold abnormal
  exact decide_eq_true_iff

/-- Without a reading the alarm is reported as over, and nothing is noted. -/
theorem acl11_abnormal {s : Sys} (h : s.alarm.remove.get Acl.e11.id = false) (hab : abnormal s.inp = true) :
    (acl11 s).1 = .cleared ∧ locks (acl11 s).2 = locks s := by
  have hread : i16 s.inp.ntc3 = 0x7FFF := abnormal_iff.mp hab
  unfold acl11
  obtain ⟨⟨s', h1⟩, h2⟩ := aclClear_idle (p := fun i => i16 i.ntc3 = 0x7FFF) (r := fun _ => .cleared) (q := fun s =>
    if i16 s.inp.ntc3 > s.cfg.alarmParam.e11 then .triggered
    else if i16 s.inp.ntc3 > s.cfg.alarmParam.e11 - 50 then .hold else .cleared) h hread
  exact ⟨h1, h2⟩

theorem acl11_read {s : Sys} (h : s.alarm.remove.get Acl.e11.id = false) (hab : abnormal s.inp = false) :
    locks (acl11 s).2 = { locks s with
      times := if (locks s).last = .preactive ∧ (aclSts s .e11).state = .active then push (locks s).times s.inp.tick
        else (locks s).times
      last := (aclSts s .e11).state } := by
  have hread : ¬i16 s.inp.ntc3 = 0x7FFF := by
    rw [← abnormal_iff, hab]
    exact Bool.false_ne_true
  unfold acl11
  exact aclClear_notes (p := fun i => i16 i.ntc3 = 0x7FFF) h hread

/-- What `alarm_lock` makes of its notes. -/
theorem locks_lockCheck (s : Sys) :
    (locks (lockCheck s).2).times = (locks s).times ∧ (locks (lockCheck s).2).last = (locks s).last ∧
    ((locks (lockCheck s).2).flag = true ↔ (locks s).flag = true ∨ Close (locks s).times.1 (locks s).times.2.2) ∧
    ((lockCheck s).1 = .triggered ↔ (locks (lockCheck s).2).flag = true) := by
  unfold lockCheck
  by_cases hflag : s.alarm.lockFlag = true
  · rw [if_pos hflag]
    exact ⟨rfl, rfl, ⟨.inl, fun _ => hflag⟩, iff_of_true rfl hflag⟩
  · rw [if_neg hflag]
    by_cases hclose : Close s.alarm.lockTime0 s.alarm.lockTime2
    · rw [if_pos (by unfold Close at hclose; exact hclose)]
      exact ⟨rfl, rfl, iff_of_true rfl (.inr hclose), iff_of_true rfl rfl⟩
    · rw [if_neg (by unfold Close at hclose; exact hclose)]
      exact ⟨rfl, rfl, iff_of_false hflag (not_or.mpr ⟨hflag, hclose⟩), iff_of_false nofun hflag⟩

/-- The rule of E12 while no removal is requested. -/
theorem acl12_eq {s : Sys} (h : s.alarm.remove.get Acl.e12.id = false) :
    (acl12 s).1 = (lockCheck s).1 ∧ locks (acl12 s).2 = locks (lockCheck s).2 := by
  have hreset : lockReset s = s := if_neg (by rw [h]; exact Bool.false_ne_true)
  have hlock : alarmLock s = lockCheck s := by rw [alarmLock_eq, hreset]
  have hremove : (lockCheck s).2.alarm.remove.get Acl.e12.id = false := by
    rw [← hlock, (spares_alarmLock s).remove, h]
  unfold acl12
  rw [hlock, aclClear_kept (aclRemoved_of_request hremove)]
  exact ⟨rfl, rfl⟩

/-! ## A pass -/

/-- The alarms before E11 and those behind E12. -/
def before11 : List Acl := Acl.all.take 11
def behind12 : List Acl := Acl.all.drop 13

theorem all_e11 : Acl.all = before11 ++ .e11 :: .e12 :: behind12 := rfl
theorem all_e12 : Acl.all = (before11 ++ [.e11]) ++ .e12 :: behind12 := rfl

theorem tabled_turns {s : Sys} (h : Tabled s) (as : List Acl) : Tabled (run aclStep s as) :=
  run_keeps (I := Tabled) (fun _ a hs => tabled_aclStep hs a) h as

/-- The notes through all turns: only those of E11 and E12 matter. -/
theorem locks_all {s : Sys} (h : Tabled s) :
    locks (run aclStep s before11) = locks s ∧
    locks (aclStep (run aclStep s before11) .e11) = locks (acl11 (run aclStep s before11)).2 ∧
    locks (run aclStep s Acl.all) = locks (acl12 (aclStep (run aclStep s before11) .e11)).2 := by
  have hfirst := tabled_turns h before11
  have hsecond := tabled_aclStep hfirst .e11
  refine ⟨locks_turns h (by decide), locks_aclFsm (tabled_aclRule hfirst .e11) .e11 _, ?_⟩
  rw [all_e11, run_append, run_cons, run_cons,
    locks_turns (tabled_aclStep hsecond .e12) (by decide)]
  exact locks_aclFsm (tabled_aclRule hsecond .e12) .e12 _

theorem locks_endPass (s : Sys) : locks (endPass s) = locks s := rfl

theorem moment_abnormal (x : Recorded) : (moment x).abnormal = abnormal x.sys.inp := rfl

/-- The notes behind the rule of E11. -/
def noted (x : Recorded) : Locks :=
  if abnormal x.sys.inp then locks x.sys
  else { locks x.sys with
    times := if (locks x.sys).last = .preactive ∧ (aclSts x.sys .e11).state = .active
      then push (locks x.sys).times x.sys.inp.tick else (locks x.sys).times
    last := (aclSts x.sys .e11).state }

section pass

variable {L : Bool → Prop} {x : Recorded}

/-- An alarm that is reported as over and resets itself is not active then. -/
theorem turn_cleared (delay : Nat) (y : Slot) : (y.turn delay true .cleared).1.state ≠ .active := by
  obtain ⟨state, timeout⟩ := y
  cases state with
  | postactive =>
    simp only [Slot.turn]
    split <;> simp
  | _ => simp [Slot.turn]

/-- The turn of E11: the notes behind it, and that the alarm is not active without a reading. -/
theorem turn_e11 (h : Kept L x) (he : effective x.sys = true) (h11 : (mine .e11 x).request = false) :
    locks (record (run record { x with sys := countPass x.sys } before11) .e11).sys = noted x ∧
    (abnormal x.sys.inp = true → (aclSts (recordPass x).sys .e11).state ≠ .active) := by
  obtain ⟨hk, hmine, hview, hafter⟩ := turn_in_pass h he all_e11
  have hsys := sys_run_record { x with sys := countPass x.sys } before11
  obtain ⟨hbefore, hturn, -⟩ := locks_all (s := countPass x.sys) h.tabled
  rw [← hsys] at hbefore hturn
  generalize run record { x with sys := countPass x.sys } before11 = y at *
  have hreq : y.sys.alarm.remove.get Acl.e11.id = false := (congrArg Mine.request hmine).trans h11
  have hstate : (aclSts y.sys .e11).state = (aclSts x.sys .e11).state := congrArg (fun m => m.slot.state) hmine
  have hinp : y.sys.inp = x.sys.inp := inp_of_alarmView hview
  have hlocks : locks y.sys = locks x.sys := hbefore
  refine ⟨Eq.trans hturn ?_, fun hab => ?_⟩
  · unfold noted
    cases hab : abnormal x.sys.inp with
    | true =>
      rw [(acl11_abnormal hreq (by rw [hinp, hab])).2, hlocks]
      rfl
    | false =>
      rw [acl11_read hreq (by rw [hinp, hab]), hlocks, hstate, hinp]
      rfl
  · have hcleared : (aclRule .e11 y.sys).1 = .cleared := (acl11_abnormal hreq (by rw [hinp, hab])).1
    have hslot := slot_record hk .e11
    rw [← hafter, dropped_of_request hreq, hcleared] at hslot
    have hne := turn_cleared (alarmAclDelay .e11 y.sys.cfg % 65536) (slotsOf y.sys .e11)
    intro hactive
    exact hne ((congrArg Slot.state hslot).symm.trans hactive)

theorem turn_e12 (h : Kept L x) (he : effective x.sys = true) (h11 : (mine .e11 x).request = false)
    (h12 : (mine .e12 x).request = false) :
    (locks (recordPass x).sys).times = (noted x).times ∧ (locks (recordPass x).sys).last = (noted x).last ∧
    ((locks (recordPass x).sys).flag = true ↔ (noted x).flag = true ∨ Close (noted x).times.1 (noted x).times.2.2) ∧
    (LockedOut x ↔ (locks (recordPass x).sys).flag = true) := by
  obtain ⟨hnoted, -⟩ := turn_e11 h he h11
  obtain ⟨-, hmine, -, hafter⟩ := turn_in_pass h he all_e12
  obtain ⟨-, -, hall⟩ := locks_all (s := countPass x.sys) h.tabled
  have hpass : locks (recordPass x).sys = locks (run aclStep (countPass x.sys) Acl.all) := by
    rw [sys_recordPass he, locks_endPass]
  have hsys : (record (run record { x with sys := countPass x.sys } before11) .e11).sys =
      aclStep (run aclStep (countPass x.sys) before11) .e11 :=
    congrArg (aclStep · .e11) (sys_run_record { x with sys := countPass x.sys } before11)
  rw [← hsys] at hall
  rw [run_snoc] at hmine hafter
  generalize record (run record { x with sys := countPass x.sys } before11) .e11 = z at *
  have hreq : z.sys.alarm.remove.get Acl.e12.id = false := (congrArg Mine.request hmine).trans h12
  obtain ⟨hresult, hlocks⟩ := acl12_eq hreq
  obtain ⟨htimes, hlast, hflag, htrig⟩ := locks_lockCheck z.sys
  have hend : locks (recordPass x).sys = locks (lockCheck z.sys).2 := (hpass.trans hall).trans hlocks
  have hheard : heard .e12 (recordPass x).results = (lockCheck z.sys).1 :: heard .e12 z.results := by
    rw [← hresult]
    exact (congrArg Mine.heard hafter).trans (heard_self ..)
  unfold LockedOut
  rw [hend, hheard, ← hnoted, List.head?_cons, Option.some_inj]
  exact ⟨htimes, hlast, hflag, htrig⟩

end pass

/-! ## Runs -/

/-- The notes are those of the history `ms`. -/
structure Locking (ms : List Moment) (x : Recorded) : Prop where
  kept : Kept (fun _ => True) x
  request11 : (mine .e11 x).request = false
  request12 : (mine .e12 x).request = false
  times : (locks x.sys).times = window 0xFFFFFFFF (recorded ms)
  flag : (locks x.sys).flag = true ↔ Near 2 Close (recorded ms)
  rose : (locks x.sys).last = .preactive ∧ (aclSts x.sys .e11).state = .active ↔ Rose ms

section locking

variable {ms : List Moment} {x : Recorded}

theorem Locking.noted_times (h : Locking ms x) :
    (noted x).times = window 0xFFFFFFFF (recorded (ms ++ [moment x])) := by
  have hmoment := moment_abnormal x
  unfold noted
  cases hab : abnormal x.sys.inp with
  | true =>
    rw [hab] at hmoment
    rw [recorded_of_not fun hm => absurd (hmoment.symm.trans hm.2) nofun]
    exact h.times
  | false =>
    rw [hab] at hmoment
    by_cases hrose : Rose ms
    · rw [recorded_of_rose hrose hmoment, window_snoc, ← h.times]
      exact if_pos (h.rose.mpr hrose)
    · rw [recorded_of_not fun hm => hrose hm.1, ← h.times]
      exact if_neg fun hm => hrose (h.rose.mp hm)

theorem noted_flag (x : Recorded) : (noted x).flag = (locks x.sys).flag := by
  unfold noted
  split <;> rfl

/-- What is found in the notes is what is close in the history. -/
theorem Locking.noted_near (h : Locking ms x) :
    ((noted x).flag = true ∨ Close (noted x).times.1 (noted x).times.2.2) ↔
      Near 2 Close (recorded (ms ++ [moment x])) := by
  rw [noted_flag, h.flag, h.noted_times]
  by_cases hnew : Rose ms ∧ (moment x).abnormal = false
  · rw [recorded_of_rose hnew.1 hnew.2, near_snoc not_close_none, window_snoc]
    rfl
  · rw [recorded_of_not hnew]
    exact or_iff_left_of_imp (near_of_window not_close_none)

/-- A request that is not there does not come with a pass. -/
theorem request_pass {L : Bool → Prop} (h : Kept L x) (he : effective x.sys = true) {a : Acl} {as bs : List Acl}
    (hall : Acl.all = as ++ a :: bs) (ha : (mine a x).request = false) : (mine a (recordPass x)).request = false := by
  obtain ⟨hk, hmine, -, hafter⟩ := turn_in_pass h he hall
  rw [hafter, request_record hk, hmine, ha, Bool.and_false]

/-- A pass carries the history on. -/
theorem Locking.pass (h : Locking ms x) (he : effective x.sys = true) :
    Locking (ms ++ [moment x]) (recordPass x) ∧ (LockedOut x ↔ Near 2 Close (recorded (ms ++ [moment x]))) := by
  obtain ⟨htimes, hlast, hflag, hout⟩ := turn_e12 h.kept he h.request11 h.request12
  have hnear := hflag.trans h.noted_near
  refine ⟨⟨h.kept.step (e := .pass) (fun _ hw => nomatch hw), ?_, ?_, htimes.trans h.noted_times, hnear, ?_⟩,
    hout.trans hnear⟩
  · exact request_pass h.kept he all_e11 h.request11
  · exact request_pass h.kept he all_e12 h.request12
  · rw [hlast, rose_snoc, show (moment x).rose = true ↔ _ from decide_eq_true_iff]
    unfold noted
    cases hab : abnormal x.sys.inp with
    | true =>
      have hdown := (turn_e11 h.kept he h.request11).2 hab
      exact iff_of_false (fun hm => hdown hm.2) fun hm => hdown hm.2
    | false => exact Iff.rfl

theorem Locking.step {e : AlarmEvent} (h : Locking ms x) (he : Unasked e) :
    Locking (ms ++ glance x e) (recordStep x e) := by
  cases e with
  | clear => exact he.elim
  | world w =>
    show Locking (ms ++ []) (recordStep x (.world w))
    rw [List.append_nil]
    exact ⟨h.kept.step fun _ _ => trivial, h.request11, h.request12, h.times, h.flag, h.rose⟩
  | pass =>
    show Locking (ms ++ if effective x.sys then [moment x] else []) (recordPass x)
    cases heff : effective x.sys with
    | true => exact (h.pass heff).1
    | false =>
      rw [recordPass_idle heff, if_neg Bool.false_ne_true, List.append_nil]
      exact ⟨h.kept.same rfl rfl trivial, h.request11, h.request12, h.times, h.flag, h.rose⟩

theorem Locking.run (h : Locking ms x) {es : List AlarmEvent} (hes : ∀ e ∈ es, Unasked e) :
    Locking (ms ++ moments x es) (run recordStep x es) := by
  induction es generalizing ms x with
  | nil => exact (List.append_nil ms).symm ▸ h
  | cons e es ih =>
    rw [run_cons, show moments x (e :: es) = glance x e ++ moments (recordStep x e) es from rfl, ← List.append_assoc]
    exact ih (h.step (hes e List.mem_cons_self)) fun e he => hes e (List.mem_cons_of_mem _ he)

theorem locking_boot (c : Config) (i : Inputs) : Locking [] (alarmBoot c i) := by
  have hrequest : ∀ a : Acl, (mine a (alarmBoot c i)).request = false := fun a => Words.get_zero a.id
  have hnear : ¬Near 2 Close (recorded []) := by decide
  have hrose : ¬Rose [] := by rintro ⟨_, hm, -⟩; exact nomatch hm
  exact ⟨kept_alarmBoot c i trivial trivial, hrequest .e11, hrequest .e12, rfl,
    iff_of_false Bool.false_ne_true hnear, iff_of_false (fun h => nomatch h.1) hrose⟩

/-- The history with a pass that comes next. -/
theorem moments_pass (x : Recorded) (es : List AlarmEvent) (he : effective (run recordStep x es).sys = true) :
    moments x (es ++ [.pass]) = moments x es ++ [moment (run recordStep x es)] := by
  induction es generalizing x with
  | nil =>
    rw [run_nil] at he ⊢
    show (if effective x.sys then [moment x] else []) ++ [] = _
    rw [if_pos he]
    rfl
  | cons e es ih =>
    show glance x e ++ moments (recordStep x e) (es ++ [.pass]) = _
    rw [ih (recordStep x e) he, ← List.append_assoc]
    rfl

/-- E12 is reported exactly if three recorded times in a row are close. -/
theorem lockedOut_iff (c : Config) (i : Inputs) {es : List AlarmEvent} (hes : ∀ e ∈ es, Unasked e)
    (he : effective (run recordStep (alarmBoot c i) es).sys = true) :
    LockedOut (run recordStep (alarmBoot c i) es) ↔
      Near 2 Close (recorded (moments (alarmBoot c i) (es ++ [.pass]))) := by
  rw [moments_pass _ _ he]
  exact (((locking_boot c i).run hes).pass he).2

/-- For every run of the alarms, with any readings and at any times, and without a request to remove alarms: in the
next pass E12 is reported exactly if three recorded times in a row are close, and it is reported from then on. If the
sensor is read in the pass behind each beginning of E11, which comes a fixed time after it, and no time is misjudged,
E12 is reported exactly if E11 has begun three times in a row within an hour. -/
theorem lockout_iff (c : Config) (i : Inputs) (es : List AlarmEvent) (hes : ∀ e ∈ es, Unasked e)
    (he : effective (run recordStep (alarmBoot c i) es).sys = true) :
    let x := run recordStep (alarmBoot c i) es
    let ms := moments (alarmBoot c i) (es ++ [.pass])
    (LockedOut x ↔ Near 2 Close (recorded ms)) ∧
    (LockedOut x → ∀ es', (∀ e ∈ es', Unasked e) → effective (run recordStep (recordPass x) es').sys = true →
      LockedOut (run recordStep (recordPass x) es')) ∧
    ∀ d, Prompt d ms → ¬Near 2 Misjudged (recorded ms) → (LockedOut x ↔ Near 2 WithinHour (activated ms)) := by
  intro x ms
  have hout := lockedOut_iff c i hes he
  refine ⟨hout, fun hlocked es' hes' he' => ?_, fun d hprompt hjudge => hout.trans (near_close_iff hprompt hjudge)⟩
  obtain ⟨hpass, hnow⟩ := ((locking_boot c i).run hes).pass he
  obtain ⟨-, hlater⟩ := (hpass.run hes').pass he'
  rw [List.append_assoc] at hlater
  obtain ⟨more, hmore⟩ := recorded_append (moments (alarmBoot c i) es ++ [moment x])
    (moments (recordPass x) es' ++ [moment (run recordStep (recordPass x) es')])
  exact hlater.mpr (hmore ▸ (hnow.mp hlocked).append more)

end locking

/-- The world in pass `k`: the temperature of the exhaust and the time. -/
def exhaust (temp tick : Nat → Nat) (k : Nat) : AlarmEvent :=
  .world (boot defaultConfig { quiet with ntc3 := temp k, tick := tick k })

/-- Thirty-five passes, and all but the last call of one more. -/
def exhaustRun (temp tick : Nat → Nat) : List AlarmEvent :=
  ((List.range 35).flatMap fun k => [exhaust temp tick k, .pass, .pass]) ++ [exhaust temp tick 35, .pass]

/-- Seven passes hot and seven passes cold: E11 begins in the passes 6, 20 and 34. -/
def hotCold (k : Nat) : Nat := if k % 14 < 7 then 2000 else 200

/-- A pass every two seconds: the lock is there in the pass behind the third beginning, and stays for twenty calls. -/
theorem lockout_iff_seconds :
    let x := run recordStep (alarmBoot defaultConfig quiet) (exhaustRun hotCold (2000 * ·))
    LockedOut x ∧ LockedOut (run recordStep (recordPass x) (List.replicate 21 .pass)) := by
  have hms : moments (alarmBoot defaultConfig quiet) (exhaustRun hotCold (2000 * ·) ++ [.pass]) =
      (List.range 36).map fun k => ⟨2000 * k, false, k % 14 = 6⟩ := by decide +kernel
  obtain ⟨-, hstays, hlocked⟩ := lockout_iff defaultConfig quiet (exhaustRun hotCold (2000 * ·)) (by decide +kernel)
    ((effective_run ..).mpr (by decide +kernel))
  rw [hms] at hlocked
  have hnow := (hlocked 2000 ⟨by decide +kernel, by decide +kernel, by decide +kernel⟩ (by decide +kernel)).mpr
    (by decide +kernel)
  refine ⟨hnow, hstays hnow (List.replicate 21 .pass) (by decide +kernel) ?_⟩
  have hrun := effective_run defaultConfig quiet (exhaustRun hotCold (2000 * ·) ++ [.pass] ++ List.replicate 21 .pass)
  rw [run_append, run_snoc] at hrun
  exact hrun.mpr (by decide +kernel)

/-- The same, but that the sensor cannot be read in the pass behind the first beginning. -/
def readingLost (k : Nat) : Nat := if k = 7 then 0x7FFF else hotCold k

/-- The counter begins again before the third beginning, 23 days after the second. -/
def tickAgain (k : Nat) : Nat := if k < 28 then 4294000000 + 2000 * k else 2000000000 + 2000 * k

/-- With the reading lost, E11 begins three times within two minutes and there is no lock. With the counter begun again,
there is one although the beginnings are days apart. -/
theorem lockout_missed :
    (Near 2 WithinHour
        (activated (moments (alarmBoot defaultConfig quiet) (exhaustRun readingLost (2000 * ·) ++ [.pass]))) ∧
      ¬LockedOut (run recordStep (alarmBoot defaultConfig quiet) (exhaustRun readingLost (2000 * ·)))) ∧
    ¬Near 2 WithinHour (activated (moments (alarmBoot defaultConfig quiet) (exhaustRun hotCold tickAgain ++ [.pass]))) ∧
    LockedOut (run recordStep (alarmBoot defaultConfig quiet) (exhaustRun hotCold tickAgain)) := by
  have hlost : moments (alarmBoot defaultConfig quiet) (exhaustRun readingLost (2000 * ·) ++ [.pass]) =
      (List.range 36).map fun k => ⟨2000 * k, k = 7, k % 14 = 6⟩ := by decide +kernel
  have hagain : moments (alarmBoot defaultConfig quiet) (exhaustRun hotCold tickAgain ++ [.pass]) =
      (List.range 36).map fun k => ⟨tickAgain k, false, k % 14 = 6⟩ := by decide +kernel
  rw [lockedOut_iff defaultConfig quiet (by decide +kernel) ((effective_run ..).mpr (by decide +kernel)), hlost,
    lockedOut_iff defaultConfig quiet (by decide +kernel) ((effective_run ..).mpr (by decide +kernel)), hagain]
  decide +kernel

end WM.Proof
