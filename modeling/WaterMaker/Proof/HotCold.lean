import WaterMaker.Proof.PumpPair
import WaterMaker.Proof.KeyClose
import WaterMaker.Proof.PanelClose

/-!
# Hot and cold water

The hot and the cold branch of `WaterOut_req_exe` switch on their own outputs only, and neither switches off
the other's: what keeps them apart is the closing in between. `hot_cold_apart` says that in every run whose
passes take up hot water with the cold path shut and cold water with the hot-water pump off (`Cleared`), no
pass leaves both on; `hot_cold_mixed` are two direct changes of the demand that do.
-/

namespace WM.Proof

open WM WM.Impl WM.Spec

/-! ## The demand is read off the same keys throughout a pass -/

/-- Two states between which the keys read the same. -/
structure SameKeys (s s' : Sys) : Prop where
  out : s'.out = s.out
  inp : s'.inp = s.inp
  two : s'.cfg.twoCold = s.cfg.twoCold

namespace SameKeys

variable {s s' : Sys} (h : SameKeys s s')
include h

theorem diSts (d : Di) : s'.diSts d = s.diSts d := congrArg (·.din.getLsbD d.bpos) h.inp

theorem keyCold : SameKeys (keyCold s) (keyCold s') := by
  unfold Impl.keyCold
  rw [h.diSts, h.diSts, h.two]
  exact ⟨by rw [setOut_out, setOut_out, h.out], h.inp, h.two⟩

theorem keyChild : SameKeys (keyChild s) (keyChild s') := by
  unfold Impl.keyChild
  rw [h.out]
  split
  · exact ⟨by rw [setOut_out, setOut_out, h.out], h.inp, h.two⟩
  · exact h

theorem keyHot : SameKeys (keyHot s) (keyHot s') := by
  unfold Impl.keyHot
  rw [h.diSts, h.out]
  split_ifs
  · exact ⟨by rw [setOut_out, setOut_out, h.out], h.inp, h.two⟩
  · exact h
  · exact ⟨by rw [setOut_out, setOut_out, h.out], h.inp, h.two⟩

theorem keyLamp : SameKeys (keyLamp s) (keyLamp s') := by
  unfold Impl.keyLamp
  rw [h.out]
  split
  · exact ⟨h.out, h.inp, h.two⟩
  · exact ⟨by rw [setOut_out, setOut_out, reqBitmapOp_out, reqBitmapOp_out, h.out], h.inp, h.two⟩

theorem readKeys (hkey : s'.cfg.hmiKey = s.cfg.hmiKey) : SameKeys (readKeys s) (readKeys s') := by
  have hrh1 : SameKeys (reqBitmapOp .rh1 true s) (reqBitmapOp .rh1 true s') := ⟨h.out, h.inp, h.two⟩
  unfold Spec.readKeys
  dsimp only
  rw [reqBitmapOp_cfg, reqBitmapOp_cfg, hkey]
  split
  · exact hrh1.keyCold.keyChild.keyHot.keyLamp
  · exact hrh1

end SameKeys

theorem asks_prepared (s : Sys) : asksHot (prepared s) = asksHot s ∧ asksCold (prepared s) = asksCold s := by
  have hcfg := plantCfg_prepared s
  have htwo := congrArg Config.twoCold hcfg
  have hmode : (prepared s).cfg.waterMode = s.cfg.waterMode := congrArg (·.2.2.2.2.1) (keptView_prepared s)
  have hflow : (prepared s).cfg.waterFlow = s.cfg.waterFlow := congrArg (·.2.2.2.2.2) (keptView_prepared s)
  have hsame : SameKeys s (prepared s) := ⟨congrArg (·.2.1) (keptView_prepared s), inp_prepared s, htwo⟩
  have hout := (hsame.readKeys (hmiKey_prepared s)).out
  simp only [asksHot, asksCold, demandHeat, demandNormal, demandIce, cfg_readKeys, hmode, hflow, hout, and_self]

/-! ## A pass -/

section pass

variable {s : Sys}

/-- The actions of a pass and the demands they serve. -/
theorem asks_of_actOf (s : Sys) : (∀ n i, actOf s = .cold n i → asksCold s = true) ∧
    (actOf s = .pot ∨ (∃ ok, actOf s = .hot ok) ∨ (∃ f, actOf s = .pause f) → asksHot s = true) := by
  have hserve : ∀ s, (∀ n i, actServe s = .cold n i →
      (!demandHeat s && (demandNormal s || demandIce s)) = true) ∧
      (actServe s = .pot ∨ (∃ ok, actServe s = .hot ok) ∨ (∃ f, actServe s = .pause f) → demandHeat s = true) :=
    fun s => by
      unfold actServe actInstant actPot actCold
      split_ifs <;> simp_all
  have hact : actOf s = .close ∨ actOf s = actServe (readKeys s) := by
    unfold actOf
    dsimp only
    split
    · exact .inl rfl
    · exact .inr rfl
  rcases hact with hact | hact
  · rw [hact]
    exact ⟨nofun, by simp⟩
  · rw [hact]
    exact hserve _

/-- A pause shows hot water or leaves the flag as it was. -/
theorem flag_of_pause {f : Water} (h : actOf s = .pause f) : f = .heat ∨ f = s.out.flag := by
  have hmeter : ∀ s, (heatMetered s).out.flag = .heat ∨ (heatMetered s).out.flag = s.out.flag := fun s => by
    unfold heatMetered meterHeat
    dsimp only
    split_ifs
    · exact .inr rfl
    · exact .inl rfl
    · exact .inl rfl
    · exact .inr rfl
  have hkeys : (readKeys s).out.flag = s.out.flag :=
    congrArg (fun d : Plumbing × Taps => d.2.flag) (dispense_readKeys s)
  obtain ⟨-, -, -, hact⟩ := serves_of_ne_close s (by rw [h]; exact Act.noConfusion)
  rw [h] at hact
  rw [← hkeys]
  unfold actServe actInstant actPot actCold at hact
  split_ifs at hact
  · cases hact
    exact hmeter _

/-- Up to dispensing the cold path is shut for a hot demand. -/
theorem coldShut_of_cleared (h : Cleared s) (hhot : asksHot s = true) (hbd : s.cold.bdTime = 0)
    (hcirc : (prepared s).ster.sterilize = false) : (tapsOf (prepared s)).ColdShut := by
  obtain ⟨b, he⟩ := eases_prepared s
  refine ⟨Bool.eq_false_iff.mpr fun hwp => ?_, fun hev2 => ?_⟩
  · obtain ⟨hflag, hpump⟩ := wp_sterilized _ hwp
    have hout : (coldWaterExe (pwpReqExe (plantPass s))).out = s.out := congrArg (·.2.1) (keptView_beforeLamp s)
    have hbd' : (coldWaterExe (pwpReqExe (plantPass s))).cold.bdTime = s.cold.bdTime :=
      congrArg (·.2.2.1) (keptView_beforeLamp s)
    have hfirst : (coldWaterExe (pwpReqExe (plantPass s))).cfg.pumpFirst = s.cfg.pumpFirst := by
      rw [← cfg_sterilizeReqExe]
      exact (setup_prepared s).2.1
    rw [reqBit_beforeLamp_wp, hout, hbd', hbd, hfirst] at hpump
    rw [hout] at hflag
    rcases hpump with ⟨-, hon | ⟨hvalve, hdelay⟩⟩ | ⟨hwp', hdelay⟩
    · exact absurd (hcirc.symm.trans hon) Bool.false_ne_true
    · exact absurd (hvalve.symm.trans (h.pump hhot hdelay).1) Bool.false_ne_true
    · have hdelay' : s.out.closeDelay ≠ 0 := hdelay.resolve_right fun h => h rfl
      rcases (h.pump hhot hdelay').2 with hoff | hice
      · exact absurd (hoff.symm.trans hwp') Bool.false_ne_true
      · exact hflag hice
  · rw [he.closeDelay]
    exact h.valve hhot (he.ev2 hev2)

/-- A pass outside of storage, and without a circulation, keeps hot and cold apart. -/
theorem exclusive_of_cleared (h : Cleared s) (hst : s.stor.status = false) (hsig : s.cfg.storage ≠ 1)
    (hbd : s.cold.bdTime = 0) (hcirc : (reqExecution s).ster.sterilize = false)
    (hex : Taps.Exclusive (tapsOf s)) : Taps.Exclusive (tapsOf (reqExecution s)) := by
  have hcirc' : (prepared s).ster.sterilize = false := by
    have hp := congrArg Plumbing.circ (plumbingOf_reqExecution s)
    exact hp.symm.trans hcirc
  obtain ⟨b, he⟩ := eases_prepared s
  obtain ⟨hasksCold, hasksHot⟩ := asks_of_actOf (prepared s)
  rw [(asks_prepared s).2] at hasksCold
  rw [(asks_prepared s).1] at hasksHot
  have hhwp : (tapsOf (prepared s)).hwp = (tapsOf s).hwp := he.hwp
  have hflag : (tapsOf (prepared s)).flag = (tapsOf s).flag := he.flag
  have hpass : Taps.Exclusive (tapsOf (waterOutReqExe (prepared s))) := by
    rw [tapsOf_dispensed s hst]
    refine .pass (fun n i ha => ?_) (fun ha => ?_) fun f ha => ⟨fun _ => ?_, fun hf => ?_⟩
    · rw [hhwp]
      exact h.cold (hasksCold n i ha)
    · exact coldShut_of_cleared h (hasksHot (ha.imp_right .inl)) hbd hcirc'
    · exact coldShut_of_cleared h (hasksHot (.inr (.inr ⟨f, ha⟩))) hbd hcirc'
    · -- cold water was running before the pause
      have hf' : f = .normalIce := hf
      rcases flag_of_pause ha with hheat | hsame
      · cases hf'.symm.trans hheat
      · rw [hhwp]
        exact hex.cold (hflag.symm.trans (hsame.symm.trans hf'))
  have hfin := shuts_finish _ (storageSignal_dispensed s hsig)
  have hview := outView_finish (waterOutReqExe (prepared s))
  have h1 := congrArg (·.2.flag) hview
  have h2 := congrArg (·.2.closeDelay) hview
  exact hpass.of_shuts hfin h1 h2

end pass

/-! ## Runs -/

theorem exclusive_between {s : Sys} {e : Event} (h : Taps.Exclusive (tapsOf s)) (he : between e = true) :
    Taps.Exclusive (tapsOf (step s e)) := by
  have hstep := tapsOf_step (s := s) he
  cases e with
  | runTime =>
    rw [hstep]
    dsimp only [Taps.consume]
    split
    · exact ⟨h.hot, h.cold⟩
    · exact h
  | cooldown =>
    rw [hstep]
    exact ⟨h.hot, h.cold⟩
  | runningMode | clearAlarm | inputs _ | pulses _ | heater _ _ | panel _ _ | env _ _ _ =>
    rw [hstep]
    exact h
  | core | req | waterOut | config _ => exact absurd he Bool.false_ne_true

/-- What holds along such a run. -/
def KeepsApart (s : Sys) : Prop := s.cold.bdTime = 0 ∧ Taps.Exclusive (tapsOf s)

theorem KeepsApart.step {s : Sys} {e : Event} (h : KeepsApart s) (hc : OneAtATime s e) :
    KeepsApart (step s e) := by
  refine ⟨bdTime_step h.1, ?_⟩
  cases e with
  | req => exact exclusive_of_cleared hc.2.2.2 hc.1 hc.2.1 h.1 hc.2.2.1 h.2
  | config c => exact ⟨h.2.hot, h.2.cold⟩
  | core | waterOut => exact hc.elim
  | _ =>
    exact exclusive_between h.2 rfl

/-- Hot and cold water exclude each other, in every run that takes them up one at a time. -/
theorem hot_cold_apart (c : Config) (i : Inputs) (es : List Event) (h : Along step OneAtATime (boot c i) es) :
    let s := run step (boot c i) es
    (s.out.flag = .heat ∨ s.out.flag = .heatPot →
      s.reqBit .wp = false ∧ (s.reqBit .ev2 = true → s.out.closeDelay ≠ 0)) ∧
    (s.out.flag = .normalIce → s.reqBit .hwp = false) := by
  have hboot : KeepsApart (boot c i) := ⟨rfl, .of_no rfl⟩
  have hinv := (h.run_inv (fun _ _ hs hc => hs.step hc) hboot).2
  exact ⟨hinv.hot, hinv.cold⟩

/-- Hot water, a pause, then cold water. -/
def oneByOne : List Event := [.panel 2 500, .req, .panel 0 0, .req, .panel 1 500, .req]

/-- The boiler's water and then the tank's, with a closing in between. -/
theorem hot_cold_apart_oneByOne : (run step (boot potConfig quiet) oneByOne).out.flag = .normalIce ∧
    (run step (boot potConfig quiet) oneByOne).reqBit .hwp = false := by
  have hflag : (run step (boot potConfig quiet) oneByOne).out.flag = .normalIce := by decide +kernel
  exact ⟨hflag, (hot_cold_apart potConfig quiet oneByOne (by decide +kernel)).2 hflag⟩

/-- The demand changes between hot and cold without a pass that closes. -/
def toHot : Sys := run step (boot potConfig quiet) [.panel 1 500, .req, .panel 2 500, .req]
def toCold : Sys := run step (boot potConfig quiet) [.panel 2 500, .req, .panel 1 500, .req]

/-- The outlet valve stays open beside the boiler's pump, and the boiler's pump on beside cold water. -/
theorem hot_cold_mixed : potConfig.InRange ∧
    (toHot.out.flag = .heatPot ∧ toHot.reqBit .ev2 = true ∧ toHot.out.closeDelay = 0 ∧
      toHot.ster.sterilize = false ∧ toHot.stor.status = false) ∧
    (toCold.out.flag = .normalIce ∧ toCold.reqBit .hwp = true ∧ toCold.ster.sterilize = false ∧
      toCold.stor.status = false) :=
  ⟨by decide, by decide +kernel, by decide +kernel⟩

end WM.Proof
