import WaterMaker.Spec.AlarmRun
import WaterMaker.Proof.Quiet

/-!
# The rules and the board

A rule looks at the machine and leaves the board alone, but for `acl_clear`: a rule that finds its alarm to be
removed reports it cleared with its slot at the end of `ALARM_FSM_POSTACTIVE`, and takes the request back
(`Ruled`). Nineteen alarms have such a rule (`ruled_aclRule`); the other four never report anything.
-/

namespace WM.Proof

open WM WM.Impl WM.Spec

/-- What the rules leave alone: the bits, the chain, the log, the counters and the number of records. -/
def boardRest (s : Sys) : Words × List AlarmNode × List AlarmLog × (Nat × Nat × Nat × Nat) × Nat :=
  (s.sts.alarm, s.alarm.chain, s.alarm.log,
    (s.sts.totalCnt, s.sts.criticalCnt, s.sts.majorCnt, s.sts.mioorCnt), s.alarm.sts.length)

/-- The table of the alarms has its 23 records. -/
def Tabled (s : Sys) : Prop := s.alarm.sts.length = 23

theorem aclSts_setAclSts {s : Sys} (h : Tabled s) (a : Acl) (x : AclSts) (b : Acl) :
    aclSts (setAclSts a x s) b = if b = a then x else aclSts s b := by
  have hlen : a.id < s.alarm.sts.length := h.symm ▸ a.id_lt
  unfold aclSts
  change (s.alarm.sts.set a.id x).getD b.id _ = _
  rw [List.getD_eq_getElem?_getD, List.getElem?_set]
  by_cases hb : b = a
  · subst hb
    rw [if_pos rfl, if_pos hlen, if_pos rfl]
    rfl
  · rw [if_neg fun he => hb (Acl.id_inj.mp he).symm, if_neg hb, List.getD_eq_getElem?_getD]

theorem slotsOf_setAclState {s : Sys} (h : Tabled s) (a : Acl) (st : AclFsm) (n : Nat) :
    slotsOf (setAclState a st n s) = Function.update (slotsOf s) a ⟨st, n⟩ := by
  funext b
  unfold slotsOf setAclState
  rw [aclSts_setAclSts h, Function.update_apply]
  split <;> rfl

theorem slotsOf_setAclValue {s : Sys} (h : Tabled s) (a : Acl) (v : Nat) :
    slotsOf (setAclValue a v s) = slotsOf s := by
  funext b
  unfold slotsOf setAclValue
  rw [aclSts_setAclSts h]
  split
  · rename_i hb
    rw [hb]
  · rfl

theorem tabled_setAclSts {s : Sys} (h : Tabled s) (a : Acl) (x : AclSts) : Tabled (setAclSts a x s) :=
  (List.length_set ..).trans h

/-! ## Rules without `acl_clear` -/

/-- What is written to `s'` leaves the board, the requests and the work mode of `s` alone. -/
structure Spares (s s' : Sys) : Prop where
  slots : slotsOf s' = slotsOf s
  rest : boardRest s' = boardRest s
  remove : s'.alarm.remove = s.alarm.remove
  work : s'.sts.workMode = s.sts.workMode

theorem Spares.trans {s₁ s₂ s₃ : Sys} (h : Spares s₁ s₂) (h' : Spares s₂ s₃) : Spares s₁ s₃ :=
  ⟨h'.slots.trans h.slots, h'.rest.trans h.rest, h'.remove.trans h.remove, h'.work.trans h.work⟩

theorem Spares.tabled {s s' : Sys} (h : Spares s s') (hs : Tabled s) : Tabled s' := by
  have hlen := congrArg (fun v => v.2.2.2.2) h.rest
  exact hlen.trans hs

def Tame (r : Rule) : Prop := ∀ s, Tabled s → Spares s (r s).2

theorem spares_setAclValue {s : Sys} (h : Tabled s) (a : Acl) (v : Nat) : Spares s (setAclValue a v s) :=
  ⟨slotsOf_setAclValue h a v,
    congrArg (fun n => (s.sts.alarm, s.alarm.chain, s.alarm.log,
      (s.sts.totalCnt, s.sts.criticalCnt, s.sts.majorCnt, s.sts.mioorCnt), n)) (List.length_set ..), rfl, rfl⟩

theorem tame_look (p : Sys → Bool) : Tame (look p) := fun _ _ => ⟨rfl, rfl, rfl, rfl⟩

/-! ## Rules with it -/

/-- What a rule of alarm `a` leaves: the request to remove it is taken back, and the slots are `slots`. -/
structure Judged (a : Acl) (s s' : Sys) (slots : Acl → Slot) : Prop where
  slots : slotsOf s' = slots
  rest : boardRest s' = boardRest s
  request : s'.alarm.remove = s.alarm.remove.put a.id false
  work : s'.sts.workMode = s.sts.workMode

/-- A rule of alarm `a` does `acl_clear` and nothing else to the board. -/
structure Ruled (a : Acl) (r : Rule) : Prop where
  removed : ∀ s, Tabled s → aclRemoved a s = true →
    (r s).1 = .cleared ∧ Judged a s (r s).2 (Function.update (slotsOf s) a ⟨.postactive, 0⟩)
  kept : ∀ s, Tabled s → aclRemoved a s = false → Judged a s (r s).2 (slotsOf s)

theorem Ruled.judged {a : Acl} {r : Rule} (h : Ruled a r) {s : Sys} (hs : Tabled s) :
    ∃ slots, Judged a s (r s).2 slots := by
  cases hr : aclRemoved a s with
  | true => exact ⟨_, (h.removed s hs hr).2⟩
  | false => exact ⟨_, h.kept s hs hr⟩

theorem Tame.aclClear {r : Rule} (h : Tame r) (a : Acl) : Ruled a (aclClear a r) := by
  refine ⟨fun s hs hr => ?_, fun s hs hr => ?_⟩
  · have hslots := slotsOf_setAclState (s := setAlarm (fun l => { l with remove := l.remove.put a.id false }) s) hs a
      .postactive 0
    rw [show Impl.aclClear a r s = _ from if_pos hr]
    exact ⟨rfl, hslots, congrArg (fun n => (s.sts.alarm, s.alarm.chain, s.alarm.log, (s.sts.totalCnt,
      s.sts.criticalCnt, s.sts.majorCnt, s.sts.mioorCnt), n)) (List.length_set ..), rfl, rfl⟩
  · rw [show Impl.aclClear a r s = _ from if_neg (by rw [hr]; exact Bool.false_ne_true)]
    have hspares := h (setAlarm (fun l => { l with remove := l.remove.put a.id false }) s) hs
    exact ⟨hspares.slots, hspares.rest, hspares.remove, hspares.work⟩

theorem ruled_acl05 : Ruled .e5 acl05 := by
  have hrule : Tame fun s => (trig (s.inp.mbmCom != 1),
      setSts (fun t => { t with alarmCom := s.inp.mbmCom ^^^ 1 }) s |> setAclValue .e5 s.inp.mbmCom.toNat) :=
    fun s hs => by
      have hcom : Spares s (setSts (fun t => { t with alarmCom := s.inp.mbmCom ^^^ 1 }) s) := ⟨rfl, rfl, rfl, rfl⟩
      exact hcom.trans (spares_setAclValue (hcom.tabled hs) .e5 _)
  refine ⟨fun s hs hr => ?_, fun s hs hr => ?_⟩
  · obtain ⟨h1, h2⟩ := (hrule.aclClear .e5).removed s hs hr
    unfold acl05
    rw [if_pos hr]
    exact ⟨h1, h2.slots, h2.rest, h2.request, h2.work⟩
  · have h1 := (hrule.aclClear .e5).kept s hs hr
    unfold acl05
    rw [if_neg (by rw [hr]; exact Bool.false_ne_true)]
    exact h1

theorem ruled_acl06 : Ruled .e6 acl06 := by
  have hntc : ∀ i bit on s, Spares s (ntcCheck i bit on s) := fun i bit on s => by
    unfold ntcCheck
    split <;> exact ⟨rfl, rfl, rfl, rfl⟩
  refine Tame.aclClear (fun s hs => ?_) .e6
  have h4 := (hntc 1 1 (ntcBad s.inp.ntc1) s).trans <| (hntc 2 1 false _).trans <|
    (hntc 3 3 (ntcBad s.inp.ntc3) _).trans (hntc 4 4 (ntcBad s.inp.ntc4) _)
  exact h4.trans (spares_setAclValue (h4.tabled hs) .e6 _)

theorem spares_lockPreactive (s : Sys) : Spares s (lockPreactive s) := by
  unfold lockPreactive
  dsimp only
  split_ifs <;> exact ⟨rfl, rfl, rfl, rfl⟩

/-- `alarm_lock` behind the reset of the lock. -/
def lockCheck : Rule := fun s =>
  let last := if s.alarm.lockTime2 < s.alarm.lockTime0 then 0xFFFFFFFF else s.alarm.lockTime2
  if s.alarm.lockFlag then (.triggered, s)
  else if s.alarm.lockTime0 ≠ 0xFFFFFFFF ∧ last - s.alarm.lockTime0 ≤ 3600 * 1000 then
    (.triggered, setAlarm (fun l => { l with lockFlag := true }) s)
  else (.cleared, s)

/-- The lock is reset by the request to remove its alarm. -/
def lockReset (s : Sys) : Sys :=
  if s.alarm.remove.get Acl.e12.id then
    setAlarm (fun l => { l with
      lockTime0 := 0xFFFFFFFF, lockTime1 := 0xFFFFFFFF, lockTime2 := 0xFFFFFFFF, lockFlag := false }) s
  else s

theorem alarmLock_eq (s : Sys) : alarmLock s = lockCheck (lockReset s) := rfl

theorem spares_alarmLock (s : Sys) : Spares s (alarmLock s).2 := by
  have hreset : Spares s (lockReset s) := by
    unfold lockReset
    split <;> exact ⟨rfl, rfl, rfl, rfl⟩
  have hcheck : ∀ s, Spares s (lockCheck s).2 := fun s => by
    unfold lockCheck
    dsimp only
    split_ifs <;> exact ⟨rfl, rfl, rfl, rfl⟩
  rw [alarmLock_eq]
  exact hreset.trans (hcheck _)

theorem ruled_acl12 : Ruled .e12 acl12 := by
  have hclear : ∀ t, Ruled .e12 (aclClear .e12 fun s => (t, s)) := fun t =>
    Tame.aclClear (fun _ _ => ⟨rfl, rfl, rfl, rfl⟩) .e12
  have hrem : ∀ s, aclRemoved .e12 (alarmLock s).2 = aclRemoved .e12 s := fun s => by
    have hl := spares_alarmLock s
    have hstate : (aclSts (alarmLock s).2 .e12).state = (aclSts s .e12).state :=
      congrArg (fun f => (f Acl.e12).state) hl.slots
    unfold aclRemoved
    rw [hl.remove, hstate]
  have hafter : ∀ {s s' slots}, Judged .e12 (alarmLock s).2 s' slots → Judged .e12 s s' slots := fun {s _ _} h =>
    have hl := spares_alarmLock s
    ⟨h.slots, h.rest.trans hl.rest, h.request.trans (by rw [hl.remove]), h.work.trans hl.work⟩
  refine ⟨fun s hs hr => ?_, fun s hs hr => ?_⟩ <;> have hl := spares_alarmLock s
  · obtain ⟨h1, h2⟩ := (hclear (alarmLock s).1).removed _ (hl.tabled hs) ((hrem s).trans hr)
    rw [hl.slots] at h2
    exact ⟨h1, hafter h2⟩
  · have h1 := (hclear (alarmLock s).1).kept _ (hl.tabled hs) ((hrem s).trans hr)
    rw [hl.slots] at h1
    exact hafter h1

theorem ruled_acl00 : Ruled .e0 acl00 := by
  unfold acl00
  refine Tame.aclClear (fun s _ => ?_) .e0
  exact ⟨rfl, rfl, rfl, rfl⟩

theorem ruled_acl07 : Ruled .e7 acl07 := by
  unfold acl07
  refine Tame.aclClear (fun s _ => ?_) .e7
  split_ifs <;> exact ⟨rfl, rfl, rfl, rfl⟩

theorem ruled_acl08 : Ruled .e8 acl08 := by
  unfold acl08
  refine Tame.aclClear (fun s hs => ?_) .e8
  exact spares_setAclValue hs .e8 _

/-- A rule that remembers the state for the lock, or looks only. -/
theorem tame_remembers (p : Sys → Prop) [DecidablePred p] (r q : Sys → AclTrig) :
    Tame fun s => if p s then (r s, s) else (q s, lockPreactive s) := fun s _ => by
  dsimp only
  split
  · exact ⟨rfl, rfl, rfl, rfl⟩
  · exact spares_lockPreactive s

theorem ruled_acl11 : Ruled .e11 acl11 := by
  unfold acl11
  exact (tame_remembers _ _ _).aclClear .e11

theorem ruled_aclRuntime (a : Acl) (i : Nat) (max : AlarmParam → Nat) : Ruled a (aclRuntime a i max) := by
  unfold aclRuntime
  refine Tame.aclClear (fun s hs => ?_) a
  exact spares_setAclValue hs a _

/-- Every alarm that has a rule is removed by it. -/
theorem ruled_aclRule {a : Acl} (h : hasRule a = true) : Ruled a (aclRule a) := by
  cases a with
  | e0 => exact ruled_acl00
  | e5 => exact ruled_acl05
  | e6 => exact ruled_acl06
  | e7 => exact ruled_acl07
  | e8 => exact ruled_acl08
  | e11 => exact ruled_acl11
  | e12 => exact ruled_acl12
  | filterOt | filterElement0 | filterElement1 | filterElement2 => exact ruled_aclRuntime _ _ _
  | filterElement3 | filterElement4 | uv2Ot | hiPress2 => exact absurd h Bool.false_ne_true
  | _ => exact (tame_look _).aclClear _

theorem aclRule_of_not {a : Acl} (h : hasRule a = false) (s : Sys) : aclRule a s = (.cleared, s) := by
  cases a with
  | filterElement3 | filterElement4 | uv2Ot | hiPress2 => rfl
  | _ => exact absurd h.symm Bool.false_ne_true

end WM.Proof
