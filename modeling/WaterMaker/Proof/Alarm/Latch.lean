import WaterMaker.Proof.Alarm.Pass

/-!
# Debouncing and latching of the alarms

Without `clear_alarm` a slot is a debouncer of the results of its rule, from `alarm_acl_init` on (`Traced.pass`).
`alarm_debounced` says in which passes exactly an alarm enters the bitmap and leaves it; the alarms that are reset
by hand never leave it.
-/

namespace WM.Proof

open WM WM.Impl WM.Spec

theorem alarmAclDelay_lt (a : Acl) (c : Config) : alarmAclDelay a c < 65536 := by
  have hr : c.restartDelay % 256 < 256 := Nat.mod_lt _ (by decide)
  cases a <;> simp only [alarmAclDelay] <;> omega

/-- The slot of alarm `a` traces the results of its rule. -/
structure Traced (a : Acl) (delay : Nat) (x : Recorded) : Prop where
  kept : Kept (fun _ => True) x
  const : alarmAclDelay a x.sys.cfg = delay
  request : (mine a x).request = false
  traces : Debounce.Traces ⟨delay, !a.autoReset⟩ (mine a x).slot.debounce ((mine a x).heard.map Slot.reading)

theorem reading_eq_high {r : AclTrig} : Slot.reading r = .high ↔ r = .triggered := by
  cases r <;> simp [Slot.reading]

theorem reading_eq_low {r : AclTrig} : Slot.reading r = .low ↔ r = .cleared := by
  cases r <;> simp [Slot.reading]

theorem dropped_of_request {s : Sys} {a : Acl} (h : s.alarm.remove.get a.id = false) : dropped s a = false := by
  unfold dropped aclRemoved
  rw [h, Bool.false_and, Bool.false_and, Bool.and_false]

section traced

variable {a : Acl} {delay : Nat} {x : Recorded}

theorem Traced.turn (h : Traced a delay x) :
    Brings a delay (aclRule a x.sys).1 (mine a x) (mine a (record x a)) ∧ Traced a delay (record x a) := by
  have hk := h.kept.record a
  have hslot := slot_record h.kept a
  rw [dropped_of_request h.request, if_neg Bool.false_ne_true, h.const,
    Nat.mod_eq_of_lt (h.const ▸ alarmAclDelay_lt a x.sys.cfg)] at hslot
  have hdeb : (mine a (record x a)).slot.debounce =
      Debounce.step ⟨delay, !a.autoReset⟩ (mine a x).slot.debounce (Slot.reading (aclRule a x.sys).1) := by
    rw [hslot]
    exact Slot.turn_debounced _ _ _ (h.kept.board.agree a).state
  have hheard : (mine a (record x a)).heard = (aclRule a x.sys).1 :: (mine a x).heard := heard_self ..
  have hbit : ∀ {x : Recorded}, Kept (fun _ => True) x → (mine a x).slot.debounce.output = (mine a x).bit :=
    fun hx => (Slot.output_debounce _).trans (hx.bit a).symm
  refine ⟨⟨hheard, fun hx => ?_, fun hx => ?_⟩, hk, ?_, ?_, ?_⟩
  · rw [hheard, List.map_cons, ← hbit hk, hdeb, h.traces.rises_iff ((hbit h.kept).trans hx), reading_eq_high]
  · rw [hheard, List.map_cons, ← hbit hk, hdeb, h.traces.falls_iff ((hbit h.kept).trans hx), reading_eq_low,
      Bool.not_eq_false']
  · have hcfg := congrArg Sys.cfg (alarmView_aclStep x.sys a)
    rw [show (record x a).sys.cfg = x.sys.cfg from hcfg]
    exact h.const
  · rw [request_record h.kept, h.request, Bool.and_false]
  · rw [hheard, hdeb]
    exact h.traces.step _

theorem Traced.congr {y : Recorded} (h : Traced a delay x) (hk : Kept (fun _ => True) y)
    (hm : mine a y = mine a x) (hc : alarmAclDelay a y.sys.cfg = delay) : Traced a delay y := by
  refine ⟨hk, hc, ?_, ?_⟩ <;> rw [hm]
  · exact h.request
  · exact h.traces

theorem cfg_alarmStep_pass (s : Sys) : (alarmStep s .pass).cfg = s.cfg := by
  have h := congrArg Sys.cfg (alarmView_alarmAclExe s)
  exact h

/-- An effective pass brings alarm `a` one result. -/
theorem Traced.pass (h : Traced a delay x) (he : effective x.sys = true) :
    (∃ r, Brings a delay r (mine a x) (mine a (recordPass x))) ∧ Traced a delay (recordPass x) := by
  obtain ⟨as, bs, hall⟩ := List.append_of_mem a.mem_all
  obtain ⟨hk, hbefore, hview, hafter⟩ := turn_in_pass h.kept he hall
  generalize run record { x with sys := countPass x.sys } as = y at hk hbefore hview hafter
  have hcfg := congrArg Sys.cfg hview
  have hcfg : y.sys.cfg = x.sys.cfg := hcfg
  obtain ⟨hb, ht⟩ := (h.congr hk hbefore (by rw [hcfg]; exact h.const)).turn
  rw [← hafter, hbefore] at hb
  refine ⟨⟨_, hb⟩, ht.congr (h.kept.step (e := .pass) fun _ hw => nomatch hw) hafter ?_⟩
  rw [show (recordPass x).sys = alarmStep x.sys .pass from sys_recordStep x .pass, cfg_alarmStep_pass]
  exact h.const

theorem Traced.step {e : AlarmEvent} (h : Traced a delay x) (hs : Untouched a delay e) :
    Flips a delay x e ∧ Traced a delay (recordStep x e) := by
  cases e with
  | clear => exact hs.elim
  | world w =>
    refine ⟨⟨nofun, fun _ => ⟨rfl, rfl⟩⟩, h.congr (h.kept.step fun _ _ => trivial) rfl hs⟩
  | pass =>
    cases he : effective x.sys with
    | true =>
      obtain ⟨hb, ht⟩ := h.pass he
      exact ⟨⟨fun _ _ => hb, fun hf => absurd ((hf rfl).symm.trans he) Bool.false_ne_true⟩, ht⟩
    | false =>
      have hidle : recordStep x .pass = { x with sys := countPass x.sys } := recordPass_idle he
      refine ⟨⟨fun _ hf => absurd (he.symm.trans hf) Bool.false_ne_true, fun _ => ?_⟩, ?_⟩
      · rw [hidle]
        exact ⟨rfl, rfl⟩
      · rw [hidle]
        exact h.congr (h.kept.same rfl rfl trivial) rfl h.const

end traced

/-- Debouncing and latching, for every alarm and every run without `clear_alarm` in which the alarm's delay
stays: it enters the bitmap exactly in the pass that brings the `delay + 2`-nd result `ALARM_ACL_TRIGGERED`
without an `ALARM_ACL_CLEARED` among them, and leaves it, if it resets itself, exactly in the pass that brings the
`delay + 2`-nd `ALARM_ACL_CLEARED` without an `ALARM_ACL_TRIGGERED`. -/
theorem alarm_debounced (c : Config) (i : Inputs) (a : Acl) (es : List AlarmEvent)
    (h : ∀ e ∈ es, Untouched a (alarmAclDelay a c) e) :
    (run recordStep (alarmBoot c i) es).sys = run alarmStep (boot c i) es ∧
      Along recordStep (Flips a (alarmAclDelay a c)) (alarmBoot c i) es := by
  have hboot : Traced a (alarmAclDelay a c) (alarmBoot c i) := by
    refine ⟨kept_alarmBoot c i trivial trivial, rfl, Words.get_zero a.id, ?_⟩
    have hslot : (mine a (alarmBoot c i)).slot = ⟨.inactive, 0⟩ := by cases a <;> rfl
    rw [hslot]
    exact Debounce.Traces.idle 0
  have hinv := (Along.of_forall h).and_inv (fun _ _ hx hs => (hx.step hs).2) hboot
  exact ⟨run_recordStep _ es, hinv.mono fun _ _ hx => (hx.2.step hx.1).1⟩

/-- The alarm of the open case, whose delay is 3, enters the bitmap with its fifth result. -/
theorem alarm_debounced_openCase :
    let x := run recordStep (alarmBoot defaultConfig quiet) openCase
    (alarmAclDelay .e4 defaultConfig = 3 ∧ x.sys.alarmBit .e4 = true) ∧
      Along recordStep (Flips .e4 (alarmAclDelay .e4 defaultConfig)) (alarmBoot defaultConfig quiet) openCase := by
  refine ⟨by decide +kernel, ?_⟩
  exact (alarm_debounced defaultConfig quiet .e4 openCase (by decide +kernel)).2

end WM.Proof
