import WaterMaker.Proof.WaterPath

/-!
# The pumps are protected

Four functions switch the two pumps and the outlet valve in one pass. Purification guards its own pump
(`pwp_guarded`), the lamp's program the dispensing pump (`wp_guarded`) and the valve (`ev2_guarded`);
dispensing opens them only when it serves cold water (`serves_cold`), and the storage program that is not
demanded only closes. `pumps_protected` is what this comes to for a whole pass of `req_execution`.
-/

namespace WM.Proof

open WM WM.Impl WM.Spec

section pass

variable (s : Sys)

/-- Without a storage demand the end of the pass only closes. -/
theorem shuts_finish (hsig : s.storageSignal = false) : Taps.Shuts (tapsOf s) (tapsOf (finish s)) := by
  -- a plumbing that allows the end of the pass no pump at all
  have hfin := eases_finish s hsig ⟨0, true, false, false, false, false⟩
  refine ⟨fun h => ?_, fun h => ?_, hfin.pwp, hfin.ev2, hfin.ev3⟩
  · rcases hfin.wp h with h | h | h
    · exact h
    · exact absurd h Bool.false_ne_true
    · exact absurd h.1.symm Bool.false_ne_true
  · rw [← hfin.hwp]
    exact h

/-- A pass outside of storage: prepared, dispensed, and at its end at most closed. -/
theorem shuts_reqExecution (hst : s.stor.status = false) (hsig : s.cfg.storage ≠ 1) :
    Taps.Shuts ((tapsOf (prepared s)).opened (plumbingOf (prepared s)) (actOf (prepared s)))
      (tapsOf (reqExecution s)) := by
  have hshut := Taps.shuts_pass (p := plumbingOf (prepared s)) (actOf (prepared s)) (tapsOf (prepared s))
  rw [← tapsOf_dispensed s hst] at hshut
  exact hshut.trans (shuts_finish _ (storageSignal_dispensed s hsig))

/-- Before dispensing the pump runs only under its guard. -/
theorem wp_prepared (h : (prepared s).reqBit .wp = true) : (getWaterLevel s).dL = true ∧
    (prepared s).cfg.exitWater = .air ∧ s.alarmBit .e4 = false := by
  have hreads := reads_beforeLamp s
  obtain ⟨he4, hair, hdl, -⟩ := wp_guarded _ h
  rw [level_of_reads hreads] at hdl
  rw [alarmBit_of_reads hreads] at he4
  refine ⟨hdl, ?_, he4⟩
  rw [cfg_prepared, ← cfg_coldWaterExe]
  exact hair

/-- Purification's pump under its guard: what follows in the pass does not open it. -/
theorem pwp_prepared (h : (prepared s).reqBit .pwp = true) : (pwpReqExe (plantPass s)).reqBit .pwp = true := by
  have h1 := (eases_sterilizeReqExe (coldWaterExe (pwpReqExe (plantPass s)))).pwp h
  have h2 : tapsOf (coldWaterExe (pwpReqExe (plantPass s))) = tapsOf (pwpReqExe (plantPass s)) :=
    congrArg Prod.snd (dispense_coldWaterExe _)
  rw [h2] at h1
  exact h1

/-- Pumps and outlet valve against dry running, an open case and a blocked filter: whatever the local
registers were, a pass outside of storage leaves them requested only under their guards. -/
theorem pumps_protected (hst : s.stor.status = false) (hsig : s.cfg.storage ≠ 1) :
    ((reqExecution s).reqBit .wp = true → (getWaterLevel s).dL = true ∧
      (reqExecution s).cfg.exitWater = .air ∧ s.alarmBit .e4 = false) ∧
    ((reqExecution s).reqBit .pwp = true → ((getWaterLevel s).sL = true ∨ (getWaterLevel s).sM = true) ∧
      (reqExecution s).cfg.exitWater = .air ∧ s.alarmBit .e9 = false) ∧
    (s.alarmBit .e4 = true → (reqExecution s).reqBit .ev2 = false) := by
  have hshut := shuts_reqExecution s hst hsig
  have hreads := reads_prepared s
  rw [exitWater_reqExecution, ← cfg_prepared]
  refine ⟨fun hwp => ?_, fun hpwp => ?_, fun he4 => Bool.eq_false_iff.mpr fun hev2 => ?_⟩
  · rcases Taps.opened_wp (hshut.wp hwp) with h | ⟨hair, n, i, hact⟩
    · exact wp_prepared s h
    · have hair' : (prepared s).cfg.exitWater = .air := of_decide_eq_true hair
      obtain ⟨hdl, he4⟩ := serves_cold _ hact
      rw [level_of_reads hreads] at hdl
      rw [alarmBit_of_reads hreads] at he4
      exact ⟨hdl hair', hair', he4⟩
  · have hpump := pwp_prepared s (Taps.opened_pwp (hshut.pwp hpwp))
    have hst' : (plantPass s).stor.status = false := by rw [plantPass_stor, hst]
    have hg := pwp_guarded _ hst' hpump
    rw [level_of_reads (reads_plantPass s), alarmBit_of_reads (reads_plantPass s)] at hg
    rw [cfg_prepared]
    exact hg
  · rcases Taps.opened_ev2 (hshut.ev2 hev2) with h | ⟨n, i, hact⟩
    · have hoff := ev2_guarded _ ((alarmBit_of_reads (reads_beforeLamp s) .e4).trans he4)
      exact absurd (hoff.symm.trans h) Bool.false_ne_true
    · obtain ⟨-, hclosed⟩ := serves_cold _ hact
      rw [alarmBit_of_reads hreads, he4] at hclosed
      exact absurd hclosed.symm Bool.false_ne_true

end pass

/-- The panel asks for half a litre of cold water after power-on. -/
def coldDemanded : Sys := step (boot defaultConfig.powerOn quiet) (.panel 1 500)

/-- The dispensing pump runs for a demand of the panel, under its guard. -/
theorem pumps_protected_coldDemanded : (reqExecution coldDemanded).reqBit .wp = true ∧
    (getWaterLevel coldDemanded).dL = true ∧ (reqExecution coldDemanded).cfg.exitWater = .air ∧
    coldDemanded.alarmBit .e4 = false := by
  have hwp : (reqExecution coldDemanded).reqBit .wp = true := by decide +kernel
  exact ⟨hwp, (pumps_protected coldDemanded rfl (by decide)).1 hwp⟩

end WM.Proof
