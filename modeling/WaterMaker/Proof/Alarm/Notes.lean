import WaterMaker.Framework.Divider
import WaterMaker.Proof.Alarm.Pass
import Mathlib.Data.List.Induction

/-!
# What the rules remember

Three rules keep notes from pass to pass beside the records of the alarms: `acl00` counts passes without water, `acl11`
and `acl12` keep the history of the exhaust alarm. No other rule writes to them (`Apart.aclRule`), nor does the state
machine; and a pass leaves the counter of the calls alone (`cnt_pass`), so that the number of calls in a run says
whether the next one looks at the alarms (`effective_run`).
-/

namespace WM.Proof

open WM WM.Impl WM.Spec

/-! ## The counters -/

/-- The counter of the calls, and that of `acl00`. -/
def counts (s : Sys) : Nat × Nat := (s.alarm.cnt, s.alarm.delay)

theorem apart_counts : Apart counts := ⟨fun _ _ => rfl, fun _ _ _ => rfl⟩

theorem counts_remembers (p : Sys → Prop) [DecidablePred p] (r q : Sys → AclTrig) :
    Passive counts fun s => if p s then (r s, s) else (q s, lockPreactive s) := by
  intro s
  dsimp only
  split
  · rfl
  · unfold lockPreactive
    dsimp only
    split_ifs <;> rfl

theorem counts_acl11 : Passive counts acl11 := by
  unfold acl11
  exact apart_counts.aclClear (counts_remembers _ _ _) .e11

theorem counts_acl12 : Passive counts acl12 := by
  intro s
  have hlock : counts (alarmLock s).2 = counts s := by
    unfold alarmLock
    dsimp only
    split_ifs <;> rfl
  rw [← hlock]
  exact apart_counts.aclClear (fun _ => rfl) .e12 _

theorem counts_aclFsm {s : Sys} (h : Tabled s) (a : Acl) (t : AclTrig) : counts (aclFsm a t s) = counts s := by
  have hl := congrArg (fun l : AlarmSt => (l.cnt, l.delay)) (alarm_aclFsm h a t).1
  exact hl

/-- Only the turn of E0 writes a counter, its own. -/
theorem counts_aclStep {s : Sys} (h : Tabled s) {a : Acl} (ha : a ≠ .e0) : counts (aclStep s a) = counts s := by
  refine (counts_aclFsm (tabled_aclRule h a) a _).trans ?_
  cases a with
  | e0 => exact absurd rfl ha
  | e11 => exact counts_acl11 s
  | e12 => exact counts_acl12 s
  | _ => exact apart_counts.aclRule (fun _ _ _ => rfl) (by decide) s

theorem counts_turns {s : Sys} (h : Tabled s) {as : List Acl} (has : .e0 ∉ as) :
    counts (run aclStep s as) = counts s := by
  induction as generalizing s with
  | nil => rfl
  | cons a as ih =>
    have hne : a ≠ .e0 := fun he => has (he ▸ List.mem_cons_self)
    rw [run_cons, ih (tabled_aclStep h a) fun hm => has (List.mem_cons_of_mem _ hm), counts_aclStep h hne]

/-- The counters behind a pass are those behind the turn of E0, which comes first. -/
theorem counts_pass {s : Sys} (h : Tabled s) : counts (run aclStep s Acl.all) = counts (aclRule .e0 s).2 := by
  rw [show Acl.all = .e0 :: Acl.all.tail from rfl, run_cons, counts_turns (tabled_aclStep h .e0) (by decide)]
  exact counts_aclFsm (tabled_aclRule h .e0) .e0 _

theorem cnt_pass {s : Sys} (h : Tabled s) : (run aclStep s Acl.all).alarm.cnt = s.alarm.cnt := by
  have hcnt : Apart fun s : Sys => s.alarm.cnt := ⟨fun _ _ => rfl, fun _ _ _ => rfl⟩
  exact (congrArg Prod.fst (counts_pass h)).trans (hcnt.aclClear (fun _ => rfl) .e0 s)

/-! ## Calls -/

theorem cnt_recordStep {x : Recorded} (h : Tabled x.sys) (e : AlarmEvent) :
    (recordStep x e).sys.alarm.cnt = if e.isPass then (countPass x.sys).alarm.cnt else x.sys.alarm.cnt := by
  cases e with
  | clear | world w => rfl
  | pass =>
    show (recordPass x).sys.alarm.cnt = (countPass x.sys).alarm.cnt
    cases he : effective x.sys with
    | false => rw [recordPass_idle he]
    | true =>
      rw [sys_recordPass he]
      exact cnt_pass (s := countPass x.sys) h

/-- The counter starts again at 255. -/
theorem cnt_countPass {s : Sys} {n : Nat} (h : s.alarm.cnt = n % 255) : (countPass s).alarm.cnt = (n + 1) % 255 := by
  show (if (s.alarm.cnt + 1) % 256 ≥ 0xFF then 0 else (s.alarm.cnt + 1) % 256) = _
  rw [h]
  split <;> omega

/-- The counter of the calls after a run. -/
theorem cnt_run (c : Config) (i : Inputs) (es : List AlarmEvent) :
    (run recordStep (alarmBoot c i) es).sys.alarm.cnt = calls es % 255 := by
  induction es using List.reverseRecOn with
  | nil => rfl
  | append_singleton es e ih =>
    have hk := kept_run (L := fun _ => True) c i trivial trivial es fun _ _ _ _ => trivial
    rw [run_snoc, cnt_recordStep hk.tabled, cnt_countPass ih, ih, calls, calls, List.countP_append]
    cases e with
    | pass => rfl
    | clear | world w => rfl

theorem effective_run (c : Config) (i : Inputs) (es : List AlarmEvent) :
    effective (run recordStep (alarmBoot c i) es).sys = true ↔ Divider.Passes 255 2 (calls es + 1) := by
  unfold effective Divider.Passes
  rw [decide_eq_true_eq, cnt_countPass (cnt_run c i es)]

end WM.Proof
