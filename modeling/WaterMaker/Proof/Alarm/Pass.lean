import WaterMaker.Proof.Alarm.Turn

/-!
# Runs of the alarms

The alarms run by themselves: a call of `alarm_acl_exe`, `clear_alarm`, and in between any change of the rest of
the machine (`AlarmEvent`), which has no part in their records, bits, counters and list (`owned`). Every step of
the firmware is such a run (`step_alarmRun`). `alarm_views_agree` is the agreement of the four views, in memory
and in the log as well, after every run.
-/

namespace WM.Proof

open WM WM.Impl WM.Spec

/-- What only the alarms write. -/
def owned (s : Sys) : AlarmSt × Words × (Nat × Nat × Nat × Nat) :=
  (s.alarm, s.sts.alarm, s.sts.totalCnt, s.sts.criticalCnt, s.sts.majorCnt, s.sts.mioorCnt)

/-! ## Steps of the firmware -/

/-- A change that leaves the alarms alone is one of the world. -/
theorem around_of_owned {s s' : Sys} (h : owned s' = owned s) : around s s' = s' := by
  obtain ⟨h1, h2⟩ := Prod.mk.inj h
  obtain ⟨h2, h3⟩ := Prod.mk.inj h2
  obtain ⟨h3, h4⟩ := Prod.mk.inj h3
  obtain ⟨h4, h5⟩ := Prod.mk.inj h4
  obtain ⟨h5, h6⟩ := Prod.mk.inj h5
  unfold around
  rw [← h1, ← h2, ← h3, ← h4, ← h5, ← h6]

theorem owned_reqExecution (s : Sys) : owned (reqExecution s) = owned s :=
  view_reqExecution s (fun _ => rfl) fun _ => rfl

/-- Every step of the firmware is a run of the alarms, with the rest of the machine changed around them. -/
theorem step_alarmRun (s : Sys) {e : Event} (he : ∀ sts alm mask, e ≠ .env sts alm mask) :
    ∃ es, step s e = run alarmStep s es := by
  have hworld : ∀ {s s' : Sys}, owned s' = owned s → s' = run alarmStep s [.world s'] := fun h =>
    (around_of_owned h).symm
  cases e with
  | env sts alm mask => exact absurd rfl (he sts alm mask)
  | clearAlarm => exact ⟨[.clear], rfl⟩
  | core =>
    refine ⟨[.pass, .world (coreTick s)], (around_of_owned ?_).symm⟩
    have hout := congrArg owned (outputView_ocUpdate (reqExecution (alarmAclExe s)))
    exact Eq.trans hout (owned_reqExecution _)
  | req => exact ⟨_, hworld (owned_reqExecution s)⟩
  | waterOut =>
    have h := congrArg (fun v => owned v.1) (plantView_waterOutReqExe s)
    exact ⟨_, hworld h⟩
  | runTime =>
    have h := congrArg owned (counterView_runTimeProcess s)
    exact ⟨_, hworld h⟩
  | runningMode =>
    have h := congrArg owned (modeView_sysRunningModeUpdate s)
    exact ⟨_, hworld h⟩
  | cooldown | inputs _ | pulses _ | heater _ _ | panel _ _ | config _ => exact ⟨_, hworld rfl⟩

/-! ## Passes with their record -/

theorem sys_run_record (x : Recorded) (as : List Acl) : (run record x as).sys = run aclStep x.sys as :=
  run_hom (fun _ _ => rfl) x as

theorem sys_recordStep (x : Recorded) (e : AlarmEvent) : (recordStep x e).sys = alarmStep x.sys e := by
  cases e with
  | clear | world _ => rfl
  | pass =>
    unfold recordStep recordPass alarmStep alarmAclExe
    dsimp only
    split
    · rfl
    · dsimp only
      rw [sys_run_record]
      rfl

theorem run_recordStep (x : Recorded) (es : List AlarmEvent) :
    (run recordStep x es).sys = run alarmStep x.sys es :=
  run_hom sys_recordStep x es

/-! ## The four views -/

section kept

variable {L : Bool → Prop} {x : Recorded}

/-- What keeps the records and the rest of the board keeps everything. -/
theorem Kept.same (h : Kept L x) {s : Sys} (hsts : s.alarm.sts = x.sys.alarm.sts)
    (hrest : boardRest s = boardRest x.sys) (hlimit : L s.inp.workLimit) : Kept L { x with sys := s } := by
  have hchain : s.alarm.chain = x.sys.alarm.chain := congrArg (fun v => v.2.1) hrest
  refine h.move hrest hlimit ?_
  unfold boardOf
  rw [slotsOf_congr hsts, alarmBit_of_boardRest hrest, hchain]
  exact h.board

theorem Kept.turns (h : Kept L x) (as : List Acl) : Kept L (run Spec.record x as) :=
  run_keeps (fun _ a hx => hx.record a) h as

theorem board_endPass (s : Sys) :
    (endPass s).alarm.sts = s.alarm.sts ∧ boardRest (endPass s) = boardRest s ∧ (endPass s).inp = s.inp :=
  ⟨rfl, rfl, rfl⟩

theorem Kept.step {e : AlarmEvent} (h : Kept L x) (he : ∀ w, e = .world w → L w.inp.workLimit) :
    Kept L (recordStep x e) := by
  cases e with
  | clear => exact h.same rfl rfl h.limit
  | world w => exact h.same rfl rfl (he w rfl)
  | pass =>
    have hcount : Kept L { x with sys := countPass x.sys } := h.same rfl rfl h.limit
    unfold recordStep recordPass
    dsimp only
    split
    · exact hcount
    · have hturns := hcount.turns Acl.all
      obtain ⟨hsts, hrest, hinp⟩ := board_endPass (run Spec.record { x with sys := countPass x.sys } Acl.all).sys
      refine hturns.same hsts hrest ?_
      rw [hinp]
      exact hturns.limit

end kept

/-! ## One alarm in a pass -/

theorem heard_self (a : Acl) (t : AclTrig) (results : List (Acl × AclTrig)) :
    heard a ((a, t) :: results) = t :: heard a results := by
  simp [heard]

theorem heard_of_ne {a b : Acl} (h : b ≠ a) (t : AclTrig) (results : List (Acl × AclTrig)) :
    heard a ((b, t) :: results) = heard a results := by
  simp [heard, h]

/-- The requests after a turn. -/
theorem remove_aclStep {s : Sys} (h : Tabled s) (a : Acl) : (aclStep s a).alarm.remove =
    if hasRule a then s.alarm.remove.put a.id false else s.alarm.remove := by
  have hfsm := congrArg AlarmSt.remove (alarm_aclFsm (tabled_aclRule h a) a (aclRule a s).1).1
  refine Eq.trans hfsm ?_
  cases hrule : hasRule a with
  | true => exact ((ruled_aclRule hrule).judged h).elim fun _ hl => hl.request
  | false =>
    rw [aclRule_of_not hrule]
    rfl

section mine

variable {L : Bool → Prop} {x : Recorded}

/-- Another alarm's turn is none of its business. -/
theorem mine_record (h : Kept L x) {a b : Acl} (hne : a ≠ b) : mine a (record x b) = mine a x := by
  have hboard := boardOf_record h b
  have hdrop : (if dropped x.sys b then (boardOf x).drop b else boardOf x).slot a = slotsOf x.sys a ∧
      (if dropped x.sys b then (boardOf x).drop b else boardOf x).bit a = x.sys.alarmBit a ∧
      said a (if dropped x.sys b then (boardOf x).drop b else boardOf x).log = said a x.log := by
    split
    · exact ⟨Function.update_of_ne hne _ _, rfl, rfl⟩
    · exact ⟨rfl, rfl, rfl⟩
  obtain ⟨h1, h2, h3⟩ := Board.turn_of_ne hne (alarmAclDelay b x.sys.cfg % 65536) (aclRule b x.sys).1
    ⟨b.logId, (aclSts (aclRule b x.sys).2 b).value, x.sys.inp.time⟩
    (if dropped x.sys b then (boardOf x).drop b else boardOf x)
  rw [← hboard] at h1 h2 h3
  have hreq : (record x b).sys.alarm.remove.get a.id = x.sys.alarm.remove.get a.id := by
    refine (congrArg (·.get a.id) (remove_aclStep h.tabled b)).trans ?_
    split
    · rw [Words.get_put _ (b.id_lt.trans (by decide)), if_neg fun he => hne (Acl.id_inj.mp he)]
    · rfl
  unfold mine
  rw [show slotsOf (record x b).sys a = _ from h1.trans hdrop.1,
    show (record x b).sys.alarmBit a = _ from h2.trans hdrop.2.1,
    show said a (record x b).log = _ from h3.trans hdrop.2.2, hreq,
    show heard a (record x b).results = _ from heard_of_ne hne.symm _ _]

theorem slot_record (h : Kept L x) (a : Acl) : (mine a (record x a)).slot =
    ((if dropped x.sys a then ⟨.postactive, 0⟩ else slotsOf x.sys a : Slot).turn
      (alarmAclDelay a x.sys.cfg % 65536) a.autoReset (aclRule a x.sys).1).1 := by
  have hslot := congrArg (fun b : Board => b.slot a) (boardOf_record h a)
  refine Eq.trans hslot ?_
  rw [Board.slot_turn, Function.update_self]
  split
  · rw [show ((boardOf x).drop a).slot a = ⟨.postactive, 0⟩ from Function.update_self ..]
  · rfl

theorem Kept.bit (h : Kept L x) (a : Acl) : (mine a x).bit = (mine a x).slot.up := (h.board.agree a).bit

theorem mine_turns (h : Kept L x) {a : Acl} {as : List Acl} (ha : a ∉ as) :
    mine a (run record x as) = mine a x := by
  induction as generalizing x with
  | nil => rfl
  | cons b as ih =>
    have hne : a ≠ b := fun he => ha (he ▸ List.mem_cons_self)
    rw [run_cons, ih (h.record b) fun hm => ha (List.mem_cons_of_mem _ hm), mine_record h hne]

/-- A request is taken back in the alarm's own turn, if it has a rule. -/
theorem request_record (h : Kept L x) (a : Acl) :
    (mine a (record x a)).request = (!hasRule a && (mine a x).request) := by
  refine (congrArg (·.get a.id) (remove_aclStep h.tabled a)).trans ?_
  cases hasRule a with
  | true =>
    refine (Words.get_put _ (a.id_lt.trans (by decide)) false).trans ?_
    rw [if_pos rfl]
    rfl
  | false => rfl

theorem recordPass_idle (he : effective x.sys = false) : recordPass x = { x with sys := countPass x.sys } :=
  if_pos (of_decide_eq_false he)

/-- An effective pass is a turn of every alarm. -/
theorem recordPass_turns (he : effective x.sys = true) : recordPass x =
    { run record { x with sys := countPass x.sys } Acl.all with
      sys := endPass (run record { x with sys := countPass x.sys } Acl.all).sys } :=
  if_neg (not_not.mpr (of_decide_eq_true he))

theorem sys_recordPass (he : effective x.sys = true) :
    (recordPass x).sys = endPass (run aclStep (countPass x.sys) Acl.all) := by
  rw [recordPass_turns he, sys_run_record]

theorem mine_countPass (a : Acl) (x : Recorded) : mine a { x with sys := countPass x.sys } = mine a x := rfl

theorem mine_endPass (a : Acl) (x : Recorded) : mine a { x with sys := endPass x.sys } = mine a x := rfl

theorem alarmView_turns (s : Sys) (as : List Acl) : alarmView (run aclStep s as) = alarmView s :=
  run_view alarmView_aclStep s as

/-- In an effective pass alarm `a` has one turn, behind the alarms `as`, in a state that is for it what the pass
began with. -/
theorem turn_in_pass (h : Kept L x) (he : effective x.sys = true) {a : Acl} {as bs : List Acl}
    (hall : Acl.all = as ++ a :: bs) :
    let y := run record { x with sys := countPass x.sys } as
    Kept L y ∧ mine a y = mine a x ∧ alarmView y.sys = alarmView x.sys ∧
      mine a (recordPass x) = mine a (record y a) := by
  have hk : Kept L { x with sys := countPass x.sys } := h.same rfl rfl h.limit
  have hnd := Acl.nodup_all
  rw [hall] at hnd
  have has : a ∉ as := fun hm => List.disjoint_of_nodup_append hnd hm List.mem_cons_self
  have hbs : a ∉ bs := (List.nodup_cons.mp (List.nodup_append.mp hnd).2.1).1
  refine ⟨hk.turns as, (mine_turns hk has).trans (mine_countPass a x), ?_, ?_⟩
  · rw [sys_run_record]
    exact alarmView_turns (countPass x.sys) as
  · rw [recordPass_turns he, mine_endPass, hall, run_append, run_cons]
    exact mine_turns ((hk.turns as).record a) hbs

end mine

theorem kept_alarmBoot {L : Bool → Prop} (c : Config) (i : Inputs) (h : L i.workLimit) (h0 : L false) :
    Kept L (alarmBoot c i) := by
  have hslot : ∀ a : Acl, (boardOf (alarmBoot c i)).slot a = ⟨.inactive, 0⟩ := fun a => by
    cases a <;> rfl
  have hbit : ∀ a : Acl, (boardOf (alarmBoot c i)).bit a = false := fun a => Words.get_zero a.id
  refine ⟨rfl, h, ⟨fun a => ?_, List.nodup_nil, nofun⟩,
    ⟨false, h0, ⟨rfl, rfl, rfl, rfl⟩, _, rfl, keeps_chainInit⟩, .nil⟩
  rw [hslot, hbit]
  exact ⟨AclFsm.noConfusion, rfl, iff_of_false Bool.false_ne_true nofun, trivial,
    iff_of_false Bool.false_ne_true nofun⟩

theorem kept_run {L : Bool → Prop} (c : Config) (i : Inputs) (hi : L i.workLimit) (h0 : L false)
    (es : List AlarmEvent) (h : ∀ e ∈ es, ∀ w, e = .world w → L w.inp.workLimit) :
    Kept L (run recordStep (alarmBoot c i) es) :=
  (Along.of_forall h).run_inv (fun _ _ hx he => hx.step he) (kept_alarmBoot c i hi h0)

/-- The four views of the alarms agree after every run: an alarm's bit is set exactly if its state machine is in
`ALARM_FSM_ACTIVE` or `ALARM_FSM_POSTACTIVE`, and exactly then the chain has a node of it, only one, and no other
nodes; the counters count the chain; in memory every call of `node_append` and `node_delete` has succeeded and
every block is on the chain or free; beginnings and ends are logged in turn. -/
theorem alarm_views_agree (c : Config) (i : Inputs) (hi : i.workLimit = false) (es : List AlarmEvent)
    (h : ∀ e ∈ es, Unlimited e) :
    let x := run recordStep (alarmBoot c i) es
    x.sys = run alarmStep (boot c i) es ∧
    (∀ a : Acl, (x.sys.alarmBit a = true ↔
        (aclSts x.sys a).state = .active ∨ (aclSts x.sys a).state = .postactive) ∧
      x.sys.alarm.chain.countP (fun n => n.alarmId == a.logId) = (if x.sys.alarmBit a then 1 else 0) ∧
      Alternates (said a x.log)) ∧
    (∀ n ∈ x.sys.alarm.chain, ∃ a : Acl, n.alarmId = a.logId) ∧
    Counted false x.sys ∧
    (∃ m, x.mem = some m ∧ Keeps false m x.sys.alarm.chain) ∧
    List.Forall₂ Entry x.log x.sys.alarm.log := by
  have hk := kept_run (L := (· = false)) c i hi rfl es fun e he w hw => by
    have hu := h e he
    rw [hw] at hu
    exact hu
  obtain ⟨w, rfl, hcnt, hmem⟩ := hk.counted
  intro x
  refine ⟨run_recordStep _ es, fun a => ⟨?_, hk.board.count a, (hk.board.agree a).said⟩, fun n hn => ?_,
    hcnt, hmem, hk.logged⟩
  · rw [show x.sys.alarmBit a = (slotsOf x.sys a).up from (hk.board.agree a).bit]
    unfold slotsOf Slot.up
    cases (aclSts x.sys a).state <;> simp
  · exact hk.board.only n.alarmId (List.mem_map_of_mem hn)

/-- The case is opened, and stays open for twelve calls. -/
def openCase : List AlarmEvent :=
  .world (boot defaultConfig { quiet with din := 0x0076 }) :: List.replicate 12 .pass

/-- The alarm of the open case stands after twelve calls, with its node. -/
theorem alarm_views_agree_openCase :
    let x := run recordStep (alarmBoot defaultConfig quiet) openCase
    (x.sys.alarmBit .e4 = true ∧ said .e4 x.log = [.triger]) ∧
      x.sys.alarm.chain.countP (fun n => n.alarmId == Acl.e4.logId) = if x.sys.alarmBit .e4 then 1 else 0 := by
  refine ⟨by decide +kernel, ?_⟩
  exact ((alarm_views_agree defaultConfig quiet rfl openCase (by decide +kernel)).2.1 .e4).2.1

end WM.Proof
