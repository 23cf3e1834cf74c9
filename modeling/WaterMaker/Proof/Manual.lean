import WaterMaker.Spec.Output
import WaterMaker.Proof.Output

/-!
# The switch to manual mode

In automatic mode `oc_arbitration` keeps the final words of the pass before as the manual words, and `oc_ao_arbitration`
keeps `status.aout`, which no pass writes. So the first pass in manual mode goes back by one pass
(`final_manualStep`), and the switch is bumpless exactly if the last automatic pass changed nothing and the analog
output is at that value (`bumpless_iff`).
-/

namespace WM.Proof

open WM WM.Impl WM.Spec

/-! ## One pass -/

/-- What a pass leaves to the pins and to the status. -/
theorem ocDoUpdate_frame (bits : BitVec 32) (s : Sys) : ∃ pins dout comDout,
    ocDoUpdate bits s = { s with pins := pins, sts := { s.sts with dout := dout, comDout := comDout } } := by
  unfold ocDoUpdate Build.ocDoUpdate
  dsimp only
  split
  · exact ⟨_, _, _, rfl⟩
  · exact ⟨s.pins, s.sts.dout, s.sts.comDout, rfl⟩

theorem ocAoUpdate_frame (s : Sys) : ∃ comAo, ocAoUpdate s = { s with sts := { s.sts with comAo := comAo } } := by
  unfold ocAoUpdate
  split_ifs
  · exact ⟨_, rfl⟩
  · exact ⟨s.sts.comAo, rfl⟩
  · exact ⟨_, rfl⟩

/-- The arbitration of the digital and of the analog outputs decides all but pins and status. -/
theorem ocUpdate_frame (s : Sys) : ∃ pins sts, sts.aout = s.sts.aout ∧
    ocUpdate s = { ocAoArbitration (ocArbitration s) with pins := pins, sts := sts } := by
  obtain ⟨pins, dout, comDout, hdo⟩ := ocDoUpdate_frame (toBits (ocArbitration s).final) (ocArbitration s)
  unfold ocUpdate
  dsimp only
  rw [hdo]
  obtain ⟨comAo, hao⟩ := ocAoUpdate_frame (ocAoArbitration { ocArbitration s with
    pins := pins, sts := { (ocArbitration s).sts with dout := dout, comDout := comDout } })
  rw [hao]
  unfold ocAoArbitration
  split_ifs <;> exact ⟨pins, { s.sts with dout := dout, comDout := comDout, comAo := comAo }, rfl, rfl⟩

/-- A word that no alarm masks, outside of test mode. -/
theorem ocFinalWord_unmasked {c : Config} (h : c.testModeType = 0) (req manual alm dev : BitVec 16) :
    ocFinalWord c req manual alm 0 dev = (if c.normalMode then req else manual) &&& dev := by
  unfold ocFinalWord
  dsimp only
  rw [if_pos h, ite_self, show ~~~(0 : BitVec 16) = .allOnes 16 from rfl, BitVec.and_allOnes]
  simp

theorem ocArbitration_unmasked {s : Sys} (ht : s.cfg.testModeType = 0) (hm : s.mask = .zero) :
    ocArbitration s =
      { s with
        final := .map2 (· &&& ·) (if s.cfg.normalMode then s.req else s.manual) s.cfg.maskDout
        manual := if s.cfg.normalMode then s.final else s.manual } := by
  unfold ocArbitration
  rw [hm, show Words.zero.w0 = 0 from rfl, show Words.zero.w1 = 0 from rfl, ocFinalWord_unmasked ht,
    ocFinalWord_unmasked ht]
  split <;> rfl

theorem testModeType_of_automatic {s : Sys} (h : Automatic s) : s.cfg.testModeType = 0 := by
  have hmode := h.mode
  simp only [Config.normalMode, Bool.and_eq_true, beq_iff_eq] at hmode
  exact hmode.2

section automatic

variable {s : Sys} (h : Automatic s) (q : OutRequest)

include h

/-- A pass in automatic mode: the outputs follow the request, and what they were is kept for manual mode. -/
theorem requestStep_eq : ∃ pins sts, sts.aout = s.sts.aout ∧ requestStep s q =
    { s with
      req := q.dout
      manual := s.final
      final := .map2 (· &&& ·) q.dout s.cfg.maskDout
      fan := { s.fan with aoReq := q.aout, aoManual := i16 s.sts.aout, aoFinal := q.aout }
      pins := pins
      sts := sts } := by
  obtain ⟨pins, sts, haout, heq⟩ := ocUpdate_frame (q.put s)
  have hmode : (q.put s).cfg.normalMode = true := h.mode
  have htest : (q.put s).cfg.testModeType = 0 := (testModeType_of_automatic h :)
  refine ⟨pins, sts, haout, ?_⟩
  rw [requestStep, heq, ocArbitration_unmasked htest h.alarms, if_pos hmode, if_pos hmode, ocAoArbitration,
    if_pos hmode]
  rfl

theorem automatic_requestStep : Automatic (requestStep s q) := by
  obtain ⟨pins, sts, -, heq⟩ := requestStep_eq h q
  rw [heq]
  exact ⟨h.mode, h.alarms⟩

/-- The first pass in manual mode puts out the manual words. -/
theorem manualStep_eq : ∃ pins sts, manualStep s q =
    { s with
      cfg := { s.cfg with manualTestEn := 1 }
      req := q.dout
      final := .map2 (· &&& ·) s.manual s.cfg.maskDout
      fan := { s.fan with aoReq := q.aout, aoFinal := s.fan.aoManual }
      pins := pins
      sts := sts } := by
  let t := setCfg (fun c => { c with manualTestEn := 1 }) (q.put s)
  obtain ⟨pins, sts, -, heq⟩ := ocUpdate_frame t
  have hmode : ¬t.cfg.normalMode = true := by simp [t, Config.normalMode, setCfg]
  have htest : t.cfg.testModeType = 0 := (testModeType_of_automatic h :)
  refine ⟨pins, sts, ?_⟩
  change ocUpdate t = _
  rw [heq, ocArbitration_unmasked htest h.alarms, if_neg hmode, if_neg hmode, ocAoArbitration, if_neg hmode]
  rfl

end automatic

/-! ## Runs -/

/-- Automatic passes change neither the configuration nor `status.aout`. -/
theorem automatic_run {s : Sys} (h : Automatic s) (qs : List OutRequest) :
    Automatic (run requestStep s qs) ∧ (run requestStep s qs).cfg = s.cfg ∧
      (run requestStep s qs).sts.aout = s.sts.aout := by
  induction qs generalizing s with
  | nil => exact ⟨h, rfl, rfl⟩
  | cons q qs ih =>
    obtain ⟨pins, sts, haout, heq⟩ := requestStep_eq h q
    obtain ⟨hauto, hcfg, hsts⟩ := ih (automatic_requestStep h q)
    refine ⟨hauto, hcfg.trans ?_, hsts.trans ?_⟩ <;> rw [heq]
    exact haout

/-- After any run of automatic passes, the first pass in manual mode leaves the final outputs as they are exactly if
the last automatic pass changed no fitted output and the analog request is the value of `status.aout`. -/
theorem bumpless_iff {s : Sys} (h : Automatic s) (qs : List OutRequest) (q q' : OutRequest) :
    Bumpless (run requestStep s (qs ++ [q])) q' ↔
      (∀ i < 32, s.cfg.maskDout.get i = true → (run requestStep s qs).final.get i = q.dout.get i) ∧
        i16 s.sts.aout = q.aout := by
  obtain ⟨hauto, hcfg, hsts⟩ := automatic_run h qs
  rw [run_snoc, ← hcfg, ← hsts]
  generalize run requestStep s qs = t at hauto
  obtain ⟨pins, sts, -, heq⟩ := requestStep_eq hauto q
  obtain ⟨pins', sts', heq'⟩ := manualStep_eq (automatic_requestStep hauto q) q'
  unfold Bumpless
  rw [heq', heq, ← Words.and_eq_iff]

/-- Two passes with the same request, and an analog output at 0. -/
theorem bumpless_iff_steady : Automatic (boot defaultConfig quiet) ∧
    Bumpless (run requestStep (boot defaultConfig quiet) ([⟨⟨0x0005, 0⟩, 0⟩] ++ [⟨⟨0x0005, 0⟩, 0⟩])) ⟨.zero, 0⟩ := by
  have hauto : Automatic (boot defaultConfig quiet) := ⟨rfl, rfl⟩
  exact ⟨hauto, (bumpless_iff hauto _ _ _).mpr ⟨by decide, by decide⟩⟩

/-- The pass that switches the fan on is followed by the switch to manual mode: the output goes off again, and the
analog output falls from 500 to 0. The analog output falls after any number of passes with the same request, too. -/
theorem manual_drops_outputs : Automatic (boot defaultConfig quiet) ∧
    (let t := run requestStep (boot defaultConfig quiet) [⟨⟨0x0008, 0⟩, 500⟩]
     t.final = ⟨0x0008, 0⟩ ∧ t.fan.aoFinal = 500 ∧ (manualStep t ⟨⟨0x0008, 0⟩, 500⟩).final = .zero ∧
       (manualStep t ⟨⟨0x0008, 0⟩, 500⟩).fan.aoFinal = 0 ∧ ¬Bumpless t ⟨⟨0x0008, 0⟩, 500⟩) := by
  refine ⟨⟨rfl, rfl⟩, ?_⟩
  decide

end WM.Proof
