import WaterMaker.Proof.Alarm.Clear

/-!
# The probes' bits

`acl06` keeps a bit of the sensor word for each temperature probe. The block of the second probe is written for the
first one's bit, and with an action that `sys_set_remap_status` does not know: it clears that bit whatever is read, and
no block writes the second probe's own (`shown_acl06`). `probes_identified_iff` says when the bits are right all the
same.
-/

namespace WM.Proof

open WM WM.Impl WM.Spec

theorem ntcBad_iff (p : Probe) (s : Sys) : ntcBad (p.reading s.inp) = true ↔ p.Outside s := by
  simp only [ntcBad, Probe.Outside, Bool.or_eq_true, decide_eq_true_eq]
  omega

theorem sensor_ntcCheck (i : Nat) {bit : Nat} (hbit : bit < 16) (on : Bool) (s : Sys) (j : Nat) :
    (ntcCheck i bit on s).sts.sensor.getLsbD j =
      if s.cfg.maskAin.getLsbD i = true ∧ j = bit then on else s.sts.sensor.getLsbD j := by
  unfold ntcCheck
  split
  · rename_i hi
    show (putBit s.sts.sensor bit on).getLsbD j = _
    simp only [getLsbD_putBit _ hbit, hi, true_and]
  · rename_i hi
    simp [hi]

theorem cfg_ntcCheck (i bit : Nat) (on : Bool) (s : Sys) : (ntcCheck i bit on s).cfg = s.cfg := by
  unfold ntcCheck
  split <;> rfl

theorem sts_setAclValue (a : Acl) (v : Nat) (s : Sys) : (setAclValue a v s).sts = s.sts := rfl

section acl06

variable {s : Sys} (h : aclRemoved .e6 s = false)
include h

/-- What the four blocks leave in the bits: the first probe's bit is cleared by the second block, the second probe's
is not written. -/
theorem shown_acl06 (p : Probe) : p.Shown (acl06 s).2 ↔
    match p with
    | .ntc1 => ¬Probe.ntc2.Fitted s ∧ if p.Fitted s then p.Outside s else p.Shown s
    | .ntc2 => p.Shown s
    | .ntc3 | .ntc4 => if p.Fitted s then p.Outside s else p.Shown s := by
  obtain ⟨s', hs'⟩ : ∃ s', s' = setAlarm (fun l => { l with remove := l.remove.put Acl.e6.id false }) s := ⟨_, rfl⟩
  have hcfg : s'.cfg = s.cfg := by rw [hs']; rfl
  have hinp : s'.inp = s.inp := by rw [hs']; rfl
  have hsts : s'.sts = s.sts := by rw [hs']; rfl
  unfold acl06 Probe.Shown
  rw [aclClear_kept h, ← hs']
  rw [sts_setAclValue]
  simp only [sensor_ntcCheck _ (show 4 < 16 by omega), sensor_ntcCheck _ (show 3 < 16 by omega),
    sensor_ntcCheck _ (show 1 < 16 by omega), cfg_ntcCheck, hcfg, hinp, hsts]
  cases p with
  | ntc1 =>
    simp only [Probe.bpos, ← ntcBad_iff, Probe.Fitted, Probe.reading]
    by_cases h1 : s.cfg.maskAin.getLsbD 1 <;> by_cases h2 : s.cfg.maskAin.getLsbD 2 <;> simp [h1, h2]
  | ntc2 => simp [Probe.bpos]
  | ntc3 =>
    simp only [Probe.bpos, ← ntcBad_iff, Probe.Fitted, Probe.reading]
    by_cases h3 : s.cfg.maskAin.getLsbD 3 <;> simp [h3]
  | ntc4 =>
    simp only [Probe.bpos, ← ntcBad_iff, Probe.Fitted, Probe.reading]
    by_cases h4 : s.cfg.maskAin.getLsbD 4 <;> simp [h4]

theorem triggered_acl06 : (acl06 s).1 = .triggered ↔
    (∃ p : Probe, p.Fitted s ∧ p.Outside s) ∧ s.cfg.maskAin.getLsbD 15 = false := by
  have hresult : (acl06 s).1 = trig ((((s.cfg.maskAin.getLsbD 1 && ntcBad s.inp.ntc1) ||
      (s.cfg.maskAin.getLsbD 2 && ntcBad s.inp.ntc2) || (s.cfg.maskAin.getLsbD 3 && ntcBad s.inp.ntc3) ||
      (s.cfg.maskAin.getLsbD 4 && ntcBad s.inp.ntc4)) && !s.cfg.maskAin.getLsbD 15)) := by
    unfold acl06
    rw [aclClear_kept h]
    rfl
  have htrig : ∀ b : Bool, trig b = .triggered ↔ b = true := by decide
  rw [hresult, htrig, Bool.and_eq_true, Bool.not_eq_true']
  refine and_congr_left fun _ => ⟨fun hbad => ?_, fun ⟨p, hp⟩ => ?_⟩
  · simp only [Bool.or_eq_true, Bool.and_eq_true] at hbad
    obtain ((hp | hp) | hp) | hp := hbad
    · exact ⟨.ntc1, hp.1, (ntcBad_iff .ntc1 s).mp hp.2⟩
    · exact ⟨.ntc2, hp.1, (ntcBad_iff .ntc2 s).mp hp.2⟩
    · exact ⟨.ntc3, hp.1, (ntcBad_iff .ntc3 s).mp hp.2⟩
    · exact ⟨.ntc4, hp.1, (ntcBad_iff .ntc4 s).mp hp.2⟩
  · rw [← ntcBad_iff, Probe.Fitted, ← Bool.and_eq_true] at hp
    cases p <;> simp only [Probe.bpos, Probe.reading] at hp <;> simp only [hp, Bool.true_or, Bool.or_true]

end acl06

/-- For every mask, all readings and every sensor word, where no removal is pending: the bits identify the faulty probes
exactly if the second probe is not fitted or there is nothing to write for it and its neighbour; and the rule triggers
exactly if a fitted probe is out of range and alarms are not suppressed. -/
theorem probes_identified_iff (s : Sys) (h : aclRemoved .e6 s = false) :
    (Identified s (acl06 s).2 ↔ Spared s) ∧
    ((acl06 s).1 = .triggered ↔
      (∃ p : Probe, p.Fitted s ∧ p.Outside s) ∧ s.cfg.maskAin.getLsbD 15 = false) := by
  refine ⟨⟨fun hid h2 => ⟨?_, ?_⟩, fun hsp p => ?_⟩, triggered_acl06 h⟩
  · rw [← (hid .ntc2).1 h2]
    exact (shown_acl06 h .ntc2).symm
  · have hclear : ¬Probe.ntc1.Shown (acl06 s).2 := fun hs => ((shown_acl06 h .ntc1).mp hs).1 h2
    split
    · rename_i h1
      rwa [← (hid .ntc1).1 h1]
    · rename_i h1
      rwa [← (hid .ntc1).2 h1]
  · have hp := shown_acl06 h p
    cases p with
    | ntc1 =>
      by_cases h2 : Probe.ntc2.Fitted s
      · have := (hsp h2).2
        by_cases h1 : Probe.ntc1.Fitted s <;> simp_all
      · by_cases h1 : Probe.ntc1.Fitted s <;> simp_all
    | ntc2 => exact ⟨fun h2 => hp.trans (hsp h2).1, fun _ => hp⟩
    | ntc3 | ntc4 => exact ⟨fun hf => by rwa [if_pos hf] at hp, fun hf => by rwa [if_neg hf] at hp⟩

/-- A machine with the given probes fitted, just started. -/
def probesOf (mask : BitVec 16) (ntc1 ntc2 : Nat) : Sys :=
  boot { defaultConfig with maskAin := mask } { quiet with ntc1 := ntc1, ntc2 := ntc2 }

/-- Without the second probe the first one is found. -/
theorem probes_identified_first :
    Probe.ntc1.Outside (probesOf 0x1A 2000 200) ∧ Probe.ntc1.Shown (acl06 (probesOf 0x1A 2000 200)).2 := by
  have hid := (probes_identified_iff (probesOf 0x1A 2000 200) (by decide)).1.mpr fun h2 => absurd h2 (by decide)
  exact ⟨by decide, ((hid .ntc1).1 (by decide)).mpr (by decide)⟩

/-- With all four fitted, neither the first nor the second is found, although the alarm is triggered. -/
theorem probes_confused :
    (Probe.ntc1.Outside (probesOf 0x1E 2000 2000) ∧ Probe.ntc2.Outside (probesOf 0x1E 2000 2000)) ∧
    (acl06 (probesOf 0x1E 2000 2000)).1 = .triggered ∧ (acl06 (probesOf 0x1E 2000 2000)).2.sts.sensor = 0 ∧
    ¬Identified (probesOf 0x1E 2000 2000) (acl06 (probesOf 0x1E 2000 2000)).2 := by
  refine ⟨by decide, by decide, by decide, fun hid => ?_⟩
  exact absurd (((hid .ntc1).1 (by decide)).mpr (by decide)) (by decide)

end WM.Proof
