import WaterMaker.Proof.Alarm.Memory
import WaterMaker.Proof.Alarm.Rule

/-!
# One alarm's turn

A pass of `alarm_acl_exe` gives every alarm its turn. `Recorded` keeps beside the registers what they do not
show: the results of the rules, the announcements, and the chain in memory, to which the same calls of
`node_append` and `node_delete` are made. A turn is a turn of the abstract board (`boardOf_record`), and what
the board promises is kept by every turn, the counters, the log and the memory included (`Kept.record`).
-/

namespace WM.Proof

open WM WM.Impl WM.Spec

/-! ## The switch -/

section switch

variable {s : Sys}

theorem setAclState_self (h : Tabled s) (a : Acl) :
    setAclState a (aclSts s a).state (aclSts s a).timeout s = s := by
  have hlen : a.id < s.alarm.sts.length := h.symm ▸ a.id_lt
  have hset : s.alarm.sts.set a.id (aclSts s a) = s.alarm.sts := by
    unfold aclSts
    rw [List.getD_eq_getElem _ _ hlen, List.set_getElem_self]
  change { s with alarm := { s.alarm with sts := s.alarm.sts.set a.id (aclSts s a) } } = s
  rw [hset]

/-- The switch moves the slot; the alarm may begin or end with it. -/
theorem aclFsm_eq (h : Tabled s) (a : Acl) (t : AclTrig) :
    aclFsm a t s =
      match (noticeOf a t s).2 with
      | none => setAclState a (noticeOf a t s).1.state (noticeOf a t s).1.timeout s
      | some .triger => aclRaise a s
      | some .ended => aclEnd a s := by
  have hself := setAclState_self h a
  unfold aclFsm noticeOf slotsOf
  generalize hx : aclSts s a = x at hself
  obtain ⟨state, value, timeout⟩ := x
  dsimp only at hself ⊢
  cases state with
  | inactive =>
    cases t with
    | triggered => rfl
    | cleared | hold => exact hself.symm
  | preactive =>
    cases t with
    | triggered =>
      simp only [Slot.turn]
      split <;> rfl
    | cleared => rfl
    | hold => exact hself.symm
  | active =>
    cases t with
    | triggered => rfl
    | cleared =>
      simp only [Slot.turn]
      cases a.autoReset with
      | true => rfl
      | false => exact hself.symm
    | hold => exact hself.symm
  | postactive =>
    cases t with
    | triggered => rfl
    | cleared =>
      simp only [Slot.turn]
      split <;> rfl
    | hold => exact hself.symm
  | error => cases t <;> rfl

end switch

/-! ## Slots and bits -/

/-- The alarms' registers without the chain and the log, and the bits. -/
def front (s : Sys) : AlarmSt × Words := ({ s.alarm with chain := [], log := [] }, s.sts.alarm)

theorem slotsOf_congr {s s' : Sys} (h : s'.alarm.sts = s.alarm.sts) : slotsOf s' = slotsOf s := by
  funext c
  unfold slotsOf aclSts
  rw [h]

theorem slotsOf_of_front {s s' : Sys} (h : front s' = front s) : slotsOf s' = slotsOf s :=
  slotsOf_congr (congrArg (fun v : AlarmSt × Words => v.1.sts) h)

theorem alarmBit_of_front {s s' : Sys} (h : front s' = front s) : s'.alarmBit = s.alarmBit := by
  funext c
  exact congrArg (fun v : AlarmSt × Words => v.2.get c.id) h

theorem calcAlrarmCnt_alarm (s : Sys) :
    (calcAlrarmCnt s).alarm = s.alarm ∧ (calcAlrarmCnt s).sts.alarm = s.sts.alarm := by
  unfold calcAlrarmCnt
  dsimp only
  split_ifs <;> exact ⟨rfl, rfl⟩

theorem front_calcAlrarmCnt (s : Sys) : front (calcAlrarmCnt s) = front s := by
  unfold front
  rw [(calcAlrarmCnt_alarm s).1, (calcAlrarmCnt_alarm s).2]

theorem front_nodeAppend (a : Acl) (s : Sys) : front (nodeAppend a s) = front s := by
  unfold nodeAppend
  split
  · exact front_calcAlrarmCnt _
  · rfl

theorem front_nodeDelete (a : Acl) (s : Sys) : front (nodeDelete a s) = front s := by
  unfold nodeDelete
  split
  · exact front_calcAlrarmCnt _
  · rfl

theorem front_aclRaise (a : Acl) (s : Sys) : front (aclRaise a s) =
    front (setAclState a .active (aclSts s a).timeout s |> alarmStatusBitmapOp a true) :=
  front_nodeAppend _ _

theorem front_aclEnd (a : Acl) (s : Sys) : front (aclEnd a s) =
    front (setAclState a .inactive (aclSts s a).timeout s |> alarmStatusBitmapOp a false) := by
  have hset : ∀ {s s' : Sys} (n : Nat), front s' = front s →
      front (setAclState a .inactive n s') = front (setAclState a .inactive n s) := fun n h =>
    congrArg (fun v : AlarmSt × Words => ({ v.1 with
      sts := v.1.sts.set a.id ⟨.inactive, (v.1.sts.getD a.id ⟨.inactive, 0, 0⟩).value, n⟩ }, v.2)) h
  exact hset _ (front_nodeDelete a _)

/-- The bits after one of them was written. -/
theorem alarmBit_alarmStatusBitmapOp (a : Acl) (on : Bool) (s : Sys) :
    (alarmStatusBitmapOp a on s).alarmBit = Function.update s.alarmBit a on := by
  funext c
  change (s.sts.alarm.put a.id on).get c.id = _
  rw [Words.get_put _ (a.id_lt.trans (by decide)), Function.update_apply]
  simp only [Acl.id_inj]
  rfl

section front

variable {s : Sys} (h : Tabled s) (a : Acl) (t : AclTrig)
include h

theorem slotsOf_aclFsm : slotsOf (aclFsm a t s) = Function.update (slotsOf s) a (noticeOf a t s).1 := by
  have hcases : ((noticeOf a t s).2 = none ∧ (noticeOf a t s).1.up = (slotsOf s a).up) ∨
      (noticeOf a t s = (⟨.active, (aclSts s a).timeout⟩, some .triger) ∧ (slotsOf s a).up = false) ∨
      (noticeOf a t s = (⟨.inactive, (aclSts s a).timeout⟩, some .ended) ∧ (slotsOf s a).up = true) :=
    Slot.turn_cases ..
  rw [aclFsm_eq h]
  rcases hcases with ⟨hr, -⟩ | ⟨hr, -⟩ | ⟨hr, -⟩
  · rw [hr]
    exact slotsOf_setAclState h a _ _
  · rw [hr]
    exact (slotsOf_of_front (front_aclRaise a s)).trans (slotsOf_setAclState h a _ _)
  · rw [hr]
    exact (slotsOf_of_front (front_aclEnd a s)).trans (slotsOf_setAclState h a _ _)

theorem alarmBit_aclFsm : (aclFsm a t s).alarmBit =
    match (noticeOf a t s).2 with
    | none => s.alarmBit
    | some .triger => Function.update s.alarmBit a true
    | some .ended => Function.update s.alarmBit a false := by
  rw [aclFsm_eq h]
  split
  · rfl
  · exact (alarmBit_of_front (front_aclRaise a s)).trans (alarmBit_alarmStatusBitmapOp a true _)
  · exact (alarmBit_of_front (front_aclEnd a s)).trans (alarmBit_alarmStatusBitmapOp a false _)

/-- The switch leaves the requests, the lock and the number of records. -/
theorem alarm_aclFsm : ({ (aclFsm a t s).alarm with sts := [], chain := [], log := [] } : AlarmSt) =
    { s.alarm with sts := [], chain := [], log := [] } ∧ Tabled (aclFsm a t s) := by
  have hback : ∀ {s s' : Sys}, front s' = front s →
      ({ s'.alarm with sts := [], chain := [], log := [] } : AlarmSt) =
        { s.alarm with sts := [], chain := [], log := [] } ∧ s'.alarm.sts.length = s.alarm.sts.length := fun h =>
    ⟨congrArg (fun v : AlarmSt × Words => { v.1 with sts := [] }) h,
      congrArg (fun v : AlarmSt × Words => v.1.sts.length) h⟩
  rw [aclFsm_eq h]
  split
  · exact ⟨rfl, tabled_setAclSts h a _⟩
  · obtain ⟨h1, h2⟩ := hback (front_aclRaise a s)
    exact ⟨h1, h2.trans (tabled_setAclSts h a _)⟩
  · obtain ⟨h1, h2⟩ := hback (front_aclEnd a s)
    exact ⟨h1, h2.trans (tabled_setAclSts h a _)⟩

end front

/-! ## Counters, chain and log -/

theorem counted_calcAlrarmCnt (s : Sys) : Counted s.inp.workLimit (calcAlrarmCnt s) := by
  have hremap : ∀ b on s w, Counted w (setRemapStatus b on s) ↔ Counted w s := fun b on s w =>
    ⟨fun h => ⟨h.total, h.critical, h.major, h.mioor⟩, fun h => ⟨h.total, h.critical, h.major, h.mioor⟩⟩
  have hsum := levelCnt_sum s.alarm.chain
  have hset : Counted s.inp.workLimit (setSts (fun t => { t with
      totalCnt := levelCnt (· == 0) s.alarm.chain + s.inp.workLimit.toNat + levelCnt (· == 1) s.alarm.chain +
        levelCnt (fun l => l != 0 && l != 1) s.alarm.chain
      mioorCnt := levelCnt (fun l => l != 0 && l != 1) s.alarm.chain
      majorCnt := levelCnt (· == 1) s.alarm.chain
      criticalCnt := levelCnt (· == 0) s.alarm.chain + s.inp.workLimit.toNat }) s) := by
    refine ⟨?_, rfl, rfl, rfl⟩
    dsimp only [setSts]
    omega
  unfold calcAlrarmCnt
  dsimp only
  split_ifs <;> simp only [hremap] <;> exact hset

/-- What the beginning and the end of an alarm leave behind the bits. -/
structure Leaves (s s' : Sys) (chain : List AlarmNode) (log : List AlarmLog) : Prop where
  chain : s'.alarm.chain = chain
  log : s'.alarm.log = log
  counted : Counted s.inp.workLimit s'

section announce

variable {s : Sys} (a : Acl)

theorem leaves_aclRaise (h : Tabled s) (hroom : s.alarm.chain.length < 23) :
    Leaves s (aclRaise a s) (⟨a.logId, (aclSts s a).value, s.inp.time⟩ :: s.alarm.chain)
      (⟨a.logId, s.inp.time, 0xFFFFFFFF, (aclSts s a).value⟩ :: s.alarm.log) := by
  have hvalue : (aclSts (setAclState a .active (aclSts s a).timeout s) a).value = (aclSts s a).value := by
    unfold setAclState
    rw [aclSts_setAclSts h, if_pos rfl]
  -- the node is appended to the state with the log and the bit written
  obtain ⟨s₁, hs₁⟩ : ∃ s₁, s₁ = (setAclState a .active (aclSts s a).timeout s |> addAlarmlog a false
    |> alarmStatusBitmapOp a true) := ⟨_, rfl⟩
  have hinp : s₁.inp = s.inp := by
    rw [hs₁]
    rfl
  have hlen : s₁.alarm.chain.length < 23 := by
    rw [hs₁]
    exact hroom
  have happ : aclRaise a s = calcAlrarmCnt (setAlarm (fun l => { l with
      chain := ⟨a.logId, (aclSts s₁ a).value, s₁.inp.time⟩ :: l.chain }) s₁) := by
    unfold aclRaise
    rw [← hs₁, nodeAppend, if_pos hlen]
  have hv : (aclSts s₁ a).value = (aclSts s a).value := by
    rw [hs₁]
    exact hvalue
  obtain ⟨halarm, -⟩ := calcAlrarmCnt_alarm (setAlarm (fun l => { l with
    chain := ⟨a.logId, (aclSts s₁ a).value, s₁.inp.time⟩ :: l.chain }) s₁)
  rw [happ]
  refine ⟨?_, ?_, ?_⟩
  · rw [halarm, hv, hinp, hs₁]
    rfl
  · rw [halarm, hs₁]
    exact congrArg (fun v => (⟨a.logId, s.inp.time, 0xFFFFFFFF, v⟩ : AlarmLog) :: s.alarm.log) hvalue
  · rw [← hinp]
    exact counted_calcAlrarmCnt (setAlarm _ s₁)

theorem leaves_aclEnd {w : Bool} (hcount : Counted w s) (hmem : a.logId ∈ s.alarm.chain.map (·.alarmId)) :
    Leaves s (aclEnd a s) (s.alarm.chain.eraseP fun x => x.alarmId == a.logId)
      (⟨a.logId, 0, s.inp.time, (aclSts s a).value⟩ :: s.alarm.log) := by
  obtain ⟨s₁, hs₁⟩ : ∃ s₁, s₁ = (addAlarmlog a true s |> alarmStatusBitmapOp a false) := ⟨_, rfl⟩
  have hinp : s₁.inp = s.inp := by
    rw [hs₁]
    rfl
  have hdel : nodeDelete a s₁ = calcAlrarmCnt (setAlarm (fun l => { l with
      chain := s.alarm.chain.eraseP fun x => x.alarmId == a.logId }) s₁) := by
    have hun : unlink a.logId s₁.sts.totalCnt s₁.alarm.chain =
        some (s.alarm.chain.eraseP fun x => x.alarmId == a.logId) := by
      rw [hs₁]
      refine unlink_of_mem hmem ?_
      exact hcount.total.symm ▸ Nat.le_add_right _ _
    unfold nodeDelete
    rw [hun]
  obtain ⟨halarm, -⟩ := calcAlrarmCnt_alarm (setAlarm (fun l => { l with
    chain := s.alarm.chain.eraseP fun x => x.alarmId == a.logId }) s₁)
  have hcnt := counted_calcAlrarmCnt (setAlarm (fun l => { l with
    chain := s.alarm.chain.eraseP fun x => x.alarmId == a.logId }) s₁)
  rw [← hdel] at halarm hcnt
  have hend : aclEnd a s = setAclState a .inactive (aclSts s a).timeout (nodeDelete a s₁) := by
    rw [hs₁]
    rfl
  rw [hend]
  refine ⟨?_, ?_, ?_⟩
  · exact congrArg AlarmSt.chain halarm
  · refine (congrArg AlarmSt.log halarm).trans ?_
    rw [hs₁]
    rfl
  · rw [← hinp]
    exact ⟨hcnt.total, hcnt.critical, hcnt.major, hcnt.mioor⟩

end announce

/-! ## The record -/

def boardOf (x : Recorded) : Board := ⟨slotsOf x.sys, x.sys.alarmBit, x.sys.alarm.chain, x.log⟩

/-- What holds between the turns, with the password limit always among `L`; the counters are those of the
last count. -/
structure Kept (L : Bool → Prop) (x : Recorded) : Prop where
  tabled : Tabled x.sys
  limit : L x.sys.inp.workLimit
  board : (boardOf x).Consistent
  counted : ∃ w, L w ∧ Counted w x.sys ∧ ∃ c, x.mem = some c ∧ Keeps w c x.sys.alarm.chain
  logged : List.Forall₂ Entry x.log x.sys.alarm.log

theorem alarmBit_of_boardRest {s s' : Sys} (h : boardRest s' = boardRest s) : s'.alarmBit = s.alarmBit := by
  funext c
  exact congrArg (fun v : Words × List AlarmNode × List AlarmLog × (Nat × Nat × Nat × Nat) × Nat => v.1.get c.id) h

/-- Whatever leaves the chain, the log and the counters, and the board consistent. -/
theorem Kept.move {L : Bool → Prop} {x : Recorded} (h : Kept L x) {s : Sys} (hrest : boardRest s = boardRest x.sys)
    (hlimit : L s.inp.workLimit) (hboard : (boardOf { x with sys := s }).Consistent) :
    Kept L { x with sys := s } := by
  have hchain : s.alarm.chain = x.sys.alarm.chain := congrArg (fun v => v.2.1) hrest
  have hlog : s.alarm.log = x.sys.alarm.log := congrArg (fun v => v.2.2.1) hrest
  have hlen := congrArg (fun v => v.2.2.2.2) hrest
  obtain ⟨h1, h2⟩ := Prod.mk.inj (congrArg (fun v => v.2.2.2.1) hrest)
  obtain ⟨h2, h3⟩ := Prod.mk.inj h2
  obtain ⟨h3, h4⟩ := Prod.mk.inj h3
  obtain ⟨w, hw, hcnt, hmem⟩ := h.counted
  refine ⟨hlen.trans h.tabled, hlimit, hboard, ⟨w, hw, ?_, ?_⟩, ?_⟩
  · refine ⟨h1.trans ?_, h2.trans ?_, h3.trans ?_, h4.trans ?_⟩ <;> dsimp only <;> rw [hchain]
    · exact hcnt.total
    · exact hcnt.critical
    · exact hcnt.major
    · exact hcnt.mioor
  · dsimp only
    rw [hchain]
    exact hmem
  · dsimp only
    rw [hlog]
    exact h.logged

/-- The rule of alarm `a` finds it to be removed. -/
def dropped (s : Sys) (a : Acl) : Bool := hasRule a && aclRemoved a s

theorem up_of_dropped {s : Sys} {a : Acl} (h : dropped s a = true) (he : (slotsOf s a).state ≠ .error) :
    (slotsOf s a).up = true := by
  simp only [dropped, aclRemoved, Bool.and_eq_true, bne_iff_ne] at h
  obtain ⟨-, ⟨-, h1⟩, h2⟩ := h
  unfold slotsOf Slot.up at *
  cases hst : (aclSts s a).state with
  | inactive => exact absurd hst h1
  | preactive => exact absurd hst h2
  | active | postactive => rfl
  | error => exact absurd hst he

theorem boardRest_aclRule {s : Sys} (h : Tabled s) (a : Acl) : boardRest (aclRule a s).2 = boardRest s := by
  cases hrule : hasRule a with
  | false => rw [aclRule_of_not hrule]
  | true => exact ((ruled_aclRule hrule).judged h).elim fun _ hl => hl.rest

theorem tabled_aclRule {s : Sys} (h : Tabled s) (a : Acl) : Tabled (aclRule a s).2 := by
  have hlen := congrArg (fun v => v.2.2.2.2) (boardRest_aclRule h a)
  exact hlen.trans h

theorem tabled_aclStep {s : Sys} (h : Tabled s) (a : Acl) : Tabled (aclStep s a) :=
  (alarm_aclFsm (tabled_aclRule h a) a _).2

/-- The board behind a rule. -/
theorem board_aclRule {x : Recorded} (h : Tabled x.sys) (a : Acl) :
    boardOf { x with sys := (aclRule a x.sys).2 } =
      if dropped x.sys a then (boardOf x).drop a else boardOf x := by
  have hrest := boardRest_aclRule h a
  have hchain : (aclRule a x.sys).2.alarm.chain = x.sys.alarm.chain := congrArg (fun v => v.2.1) hrest
  unfold boardOf
  rw [alarmBit_of_boardRest hrest, hchain]
  unfold dropped
  cases hrule : hasRule a with
  | false =>
    rw [aclRule_of_not hrule]
    rfl
  | true =>
    have hr := ruled_aclRule hrule
    rw [Bool.true_and]
    cases hrem : aclRemoved a x.sys with
    | true =>
      rw [(hr.removed x.sys h hrem).2.slots]
      rfl
    | false =>
      rw [(hr.kept x.sys h hrem).slots]
      rfl

section turn

variable {L : Bool → Prop} {x : Recorded}

theorem Kept.rule (h : Kept L x) (a : Acl) : Kept L { x with sys := (aclRule a x.sys).2 } := by
  have hinp := congrArg Sys.inp (quiet_aclRule a x.sys)
  refine h.move (boardRest_aclRule h.tabled a) ?_ ?_
  · rw [show (aclRule a x.sys).2.inp = x.sys.inp from hinp]
    exact h.limit
  · rw [board_aclRule h.tabled a]
    split
    · rename_i hd
      exact h.board.drop (up_of_dropped hd (h.board.agree a).state)
    · exact h.board

/-- The switch is a turn of the board; the counters, the log and the memory go with it. -/
theorem Kept.switch (h : Kept L x) (a : Acl) (t : AclTrig) :
    let r := noticeOf a t x.sys
    let b := (boardOf x).turn a (alarmAclDelay a x.sys.cfg % 65536) t
      ⟨a.logId, (aclSts x.sys a).value, x.sys.inp.time⟩
    slotsOf (aclFsm a t x.sys) = b.slot ∧ (aclFsm a t x.sys).alarmBit = b.bit ∧
    (aclFsm a t x.sys).alarm.chain = b.chain ∧
    (b.log = match r.2 with
      | none => x.log
      | some n => (a, n) :: x.log) ∧
    List.Forall₂ Entry b.log (aclFsm a t x.sys).alarm.log ∧
    ∃ w, L w ∧ Counted w (aclFsm a t x.sys) ∧
      ∃ c c', x.mem = some c ∧ inMemory a x.sys r.2 c = some (true, c') ∧ Keeps w c' b.chain := by
  obtain ⟨w, hw, hcnt, c, hc, hk⟩ := h.counted
  have hag := h.board.agree a
  intro r b
  have hturn : b = Board.announce a ⟨a.logId, (aclSts x.sys a).value, x.sys.inp.time⟩
    { boardOf x with slot := Function.update (slotsOf x.sys) a r.1 } r.2 := rfl
  have hslots : slotsOf (aclFsm a t x.sys) = Function.update (slotsOf x.sys) a r.1 := slotsOf_aclFsm h.tabled a t
  have hbits := alarmBit_aclFsm h.tabled a t
  have hfsm := aclFsm_eq h.tabled a t
  have hcases : (r.2 = none ∧ r.1.up = (slotsOf x.sys a).up) ∨
      (r = (⟨.active, (aclSts x.sys a).timeout⟩, some .triger) ∧ (slotsOf x.sys a).up = false) ∨
      (r = (⟨.inactive, (aclSts x.sys a).timeout⟩, some .ended) ∧ (slotsOf x.sys a).up = true) :=
    Slot.turn_cases ..
  rw [show noticeOf a t x.sys = r from rfl] at hfsm hbits
  rcases hcases with ⟨hr, -⟩ | ⟨hr, hdown⟩ | ⟨hr, hup⟩
  · rw [hr] at hfsm hbits hturn
    rw [hturn, hslots, hbits, hfsm, hr]
    exact ⟨rfl, rfl, rfl, rfl, h.logged, w, hw, ⟨hcnt.total, hcnt.critical, hcnt.major, hcnt.mioor⟩,
      c, c, hc, rfl, hk⟩
  · have hroom := h.board.room hdown
    have hl := leaves_aclRaise a h.tabled hroom
    obtain ⟨c', hc', hk'⟩ := keeps_nodeAppend hk x.sys.inp.workLimit
      ⟨a.logId, (aclSts x.sys a).value, x.sys.inp.time⟩ hroom
    rw [hr] at hfsm hbits hturn hslots
    rw [hturn, hslots, hbits, hfsm, hr]
    refine ⟨rfl, rfl, hl.chain, rfl, ?_, _, h.limit, hl.counted, c, c', hc, hc', hk'⟩
    rw [hl.log]
    exact .cons ⟨rfl, rfl⟩ h.logged
  · have hmem : a.logId ∈ (boardOf x).ids := hag.mem.mp (hag.bit.trans hup)
    have hl := leaves_aclEnd a hcnt hmem
    obtain ⟨c', hc', hk'⟩ := keeps_nodeDelete hk x.sys.inp.workLimit hmem
    rw [hr] at hfsm hbits hturn hslots
    rw [hturn, hslots, hbits, hfsm, hr]
    refine ⟨rfl, rfl, hl.chain, rfl, ?_, _, h.limit, hl.counted, c, c', hc, hc', hk'⟩
    rw [hl.log]
    exact .cons ⟨rfl, rfl⟩ h.logged

/-- A turn is a turn of the board, behind the removal of the alarm if there is one. -/
theorem boardOf_record (h : Kept L x) (a : Acl) :
    boardOf (record x a) =
      (if dropped x.sys a then (boardOf x).drop a else boardOf x).turn a (alarmAclDelay a x.sys.cfg % 65536)
        (aclRule a x.sys).1 ⟨a.logId, (aclSts (aclRule a x.sys).2 a).value, x.sys.inp.time⟩ := by
  have hcfg := congrArg Sys.cfg (quiet_aclRule a x.sys)
  have hinp := congrArg Sys.inp (quiet_aclRule a x.sys)
  obtain ⟨hslots, hbits, hchain, hlog, -, -⟩ := (h.rule a).switch a (aclRule a x.sys).1
  rw [← board_aclRule h.tabled a, ← show (aclRule a x.sys).2.cfg = x.sys.cfg from hcfg,
    ← show (aclRule a x.sys).2.inp = x.sys.inp from hinp]
  dsimp only at hslots hbits hchain hlog
  generalize (boardOf { x with sys := (aclRule a x.sys).2 }).turn a _ _ _ = b at hslots hbits hchain hlog ⊢
  obtain ⟨slot, bit, chain, log⟩ := b
  dsimp only at hslots hbits hchain hlog
  rw [hlog, ← hslots, ← hbits, ← hchain]
  rfl

/-- Every turn keeps the views in agreement, the counters, the log and the memory. -/
theorem Kept.record (h : Kept L x) (a : Acl) : Kept L (record x a) := by
  have hinp := congrArg Sys.inp (alarmView_aclStep x.sys a)
  obtain ⟨-, -, hchain, hlog, hentries, w, hw, hcnt, c, c', hc, hmem, hk⟩ := (h.rule a).switch a (aclRule a x.sys).1
  dsimp only at hchain hlog hentries hmem hk hc
  refine ⟨(alarm_aclFsm (h.rule a).tabled a _).2, ?_, ?_, ⟨w, hw, hcnt, c', ?_, ?_⟩, ?_⟩
  · rw [show (Spec.record x a).sys.inp = x.sys.inp from hinp]
    exact h.limit
  · rw [boardOf_record h a]
    refine Board.Consistent.turn ?_ _ _ rfl
    split
    · rename_i hd
      exact h.board.drop (up_of_dropped hd (h.board.agree a).state)
    · exact h.board
  · unfold Spec.record switchOf
    rw [hc]
    change (inMemory a _ _ c).bind _ = _
    rw [hmem]
    rfl
  · rw [← hchain] at hk
    exact hk
  · rw [hlog] at hentries
    exact hentries

end turn

end WM.Proof
