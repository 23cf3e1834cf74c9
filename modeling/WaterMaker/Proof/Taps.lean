import WaterMaker.Proof.Frame

/-!
# Dispensing in the firmware

`tapsOf` reads pumps, valves and the dispense off a state and `plumbingOf` how they are set up; `actOf` is
the action that `WaterOut_req_exe` takes. The function is a pass of the abstract machine
(`tapsOf_waterOutReqExe`), and the closing of one water type is the abstract closing
(`tapsOf_waterOutClose`).
-/

namespace WM.Proof

open WM WM.Impl WM.Spec

/-- The outputs of `Taps`. -/
def tapBit (b : Do) : Bool := b = .wp || b = .hwp || b = .pwp || b = .ev2 || b = .ev3

section writes

variable (s : Sys) (on : Bool)

@[simp] theorem tapsOf_wp : tapsOf (reqBitmapOp .wp on s) = { tapsOf s with wp := on } := by
  simp [tapsOf]

@[simp] theorem tapsOf_hwp : tapsOf (reqBitmapOp .hwp on s) = { tapsOf s with hwp := on } := by
  simp [tapsOf]

@[simp] theorem tapsOf_pwp : tapsOf (reqBitmapOp .pwp on s) = { tapsOf s with pwp := on } := by
  simp [tapsOf]

@[simp] theorem tapsOf_ev2 : tapsOf (reqBitmapOp .ev2 on s) = { tapsOf s with ev2 := on } := by
  simp [tapsOf]

@[simp] theorem tapsOf_ev3 :
    tapsOf (reqBitmapOp .ev3 on s) = { tapsOf s with ev3 := iceValve s.cfg && on } := by
  simp [tapsOf]

theorem tapsOf_reqBitmapOp {b : Do} (h : tapBit b = false) : tapsOf (reqBitmapOp b on s) = tapsOf s := by
  simp only [tapBit, Bool.or_eq_false_iff, decide_eq_false_iff_not] at h
  obtain ⟨⟨⟨⟨h1, h2⟩, h3⟩, h4⟩, h5⟩ := h
  simp [tapsOf, Ne.symm h1, Ne.symm h2, Ne.symm h3, Ne.symm h4, Ne.symm h5]

@[simp] theorem tapsOf_setOut (f : OutSt → OutSt) : tapsOf (setOut f s) =
    { tapsOf s with ok := (f s.out).ok, flag := (f s.out).flag, closeDelay := (f s.out).closeDelay } := rfl

@[simp] theorem tapsOf_setTmo (f : Timeout → Timeout) :
    tapsOf (setTmo f s) = { tapsOf s with clock := (f s.tmo).ev2 } := rfl

@[simp] theorem tapsOf_setSter (f : SterSt → SterSt) : tapsOf (setSter f s) = tapsOf s := rfl
@[simp] theorem tapsOf_setSts (f : Status → Status) : tapsOf (setSts f s) = tapsOf s := rfl

@[simp] theorem tapsOf_setWater (m f : Nat) : tapsOf (setCfg (.setWater m f) s) = tapsOf s := rfl

@[simp] theorem plumbingOf_reqBitmapOp (b : Do) : plumbingOf (reqBitmapOp b on s) = plumbingOf s := rfl
@[simp] theorem plumbingOf_setOut (f : OutSt → OutSt) : plumbingOf (setOut f s) = plumbingOf s := rfl
@[simp] theorem plumbingOf_setTmo (f : Timeout → Timeout) : plumbingOf (setTmo f s) = plumbingOf s := rfl
@[simp] theorem plumbingOf_setSts (f : Status → Status) : plumbingOf (setSts f s) = plumbingOf s := rfl

@[simp] theorem plumbingOf_setWater (m f : Nat) :
    plumbingOf (setCfg (.setWater m f) s) = plumbingOf s := rfl

end writes

/-! ## Closing -/

/-- The pair that every function of dispensing acts on. -/
def dispense (s : Sys) : Plumbing × Taps := (plumbingOf s, tapsOf s)

section close

variable (s : Sys)

theorem dispense_reqBitmapOp {b : Do} (h : tapBit b = false) (on : Bool) :
    dispense (reqBitmapOp b on s) = dispense s := by
  rw [dispense, tapsOf_reqBitmapOp s on h]
  rfl

/-- The lamp shares the channel of the ice tank's valve only where there is no such valve. -/
theorem dispense_uv24 (h : iceValve s.cfg = false) (on : Bool) :
    dispense (reqBitmapOp .uv24 on s) = dispense s := by
  have htaps : tapsOf (reqBitmapOp .ev3 on s) = tapsOf s := by
    rw [tapsOf_ev3, h]
    simp [tapsOf, h]
  exact Prod.ext rfl htaps

theorem dispense_uvLamp (on : Bool) : dispense (uvLamp on s) = dispense s := by
  unfold uvLamp
  split
  · rename_i h
    exact dispense_uv24 s (by simp [iceValve, h]) on
  · split
    · rename_i h
      exact (dispense_uv24 (reqBitmapOp .uv1 on s) (by simp [iceValve, h]) on).trans
        (dispense_reqBitmapOp s rfl on)
    · exact dispense_reqBitmapOp s rfl on

theorem dispense_uvLed : dispense (uvLed s) = dispense s := by
  unfold uvLed
  split
  · exact dispense_reqBitmapOp s rfl true
  · rfl

theorem dispense_uvReqExe (on delay : Bool) : dispense (uvReqExe on delay s) = dispense s := by
  have hdelay : ∀ n s, dispense (setSter (fun t => { t with uvDelay := n }) s) = dispense s := fun _ _ => rfl
  simp [uvReqExe, dispense_uvLed, dispense_uvLamp, hdelay, apply_ite dispense]

theorem dispense_externalWaterExe (on : Bool) : dispense (externalWaterExe on s) = dispense s := by
  have hfv : ∀ on s, dispense (reqBitmapOp .fv on s) = dispense s := fun on s => dispense_reqBitmapOp s rfl on
  simp [externalWaterExe, hfv, apply_ite dispense]

theorem dispense_heatSend (c : HeatCmd) : dispense (heatSend c s) = dispense s := by
  unfold heatSend
  split <;> rfl

theorem dispense_closeHeatSend : dispense (closeHeatSend s) = dispense s := by
  unfold closeHeatSend
  split
  · rw [dispense_heatSend]
    rfl
  · rfl

end close

/-- A function of the firmware acts on pumps and valves by an operation of the abstract machine. -/
def Acts (f : Sys → Sys) (op : Plumbing → Taps → Taps) : Prop :=
  ∀ s, dispense (f s) = (plumbingOf s, op (plumbingOf s) (tapsOf s))

namespace Acts

variable {f g : Sys → Sys} {op op' : Plumbing → Taps → Taps}

theorem comp (hf : Acts f op) (hg : Acts g op') : Acts (fun s => g (f s)) fun p t => op' p (op p t) := fun s => by
  have hp : plumbingOf (f s) = plumbingOf s := congrArg Prod.fst (hf s)
  have ht : tapsOf (f s) = op (plumbingOf s) (tapsOf s) := congrArg Prod.snd (hf s)
  rw [hg, hp, ht]

/-- A branch on what the abstract machine sees. -/
theorem ite (d : Plumbing → Taps → Prop) [∀ p t, Decidable (d p t)] (hf : Acts f op) (hg : Acts g op') :
    Acts (fun s => if d (plumbingOf s) (tapsOf s) then f s else g s)
      fun p t => if d p t then op p t else op' p t := fun s => by
  by_cases h : d (plumbingOf s) (tapsOf s)
  · simp only [if_pos h]
    exact hf s
  · simp only [if_neg h]
    exact hg s

/-- A step taken only under a condition. -/
theorem when (d : Plumbing → Taps → Prop) [∀ p t, Decidable (d p t)] (hf : Acts f op) :
    Acts (fun s => if d (plumbingOf s) (tapsOf s) then f s else s)
      fun p t => if d p t then op p t else t :=
  ite d hf fun _ => rfl

/-- An operation after a step whose outcome is known. -/
theorem after (hf : Acts f op) {s : Sys} {p : Plumbing} {t : Taps} (h : dispense s = (p, t)) :
    dispense (f s) = (p, op p t) := by
  have hp : plumbingOf s = p := congrArg Prod.fst h
  have ht : tapsOf s = t := congrArg Prod.snd h
  rw [hf, hp, ht]

end Acts

theorem acts_closeFlag : Acts closeFlag fun _ t => { t with clock := 0, flag := .no } := fun s => by
  unfold closeFlag
  dsimp only
  split
  · rw [dispense_uvReqExe, dispense_externalWaterExe]
    rfl
  · rw [dispense_externalWaterExe]
    rfl

theorem acts_closeWp : Acts closeWp fun p t => t.stopPump p := fun s => by
  unfold closeWp Taps.stopPump
  cases h : s.ster.sterilize <;> simp [dispense, plumbingOf, h]

theorem acts_closeVolume : Acts closeVolume fun _ t => t := fun s => by
  unfold closeVolume
  split <;> rfl

section req

variable (on : Bool)

theorem acts_wp : Acts (reqBitmapOp .wp on) fun _ t => { t with wp := on } := fun s =>
  Prod.ext rfl (tapsOf_wp s on)

theorem acts_hwp : Acts (reqBitmapOp .hwp on) fun _ t => { t with hwp := on } := fun s =>
  Prod.ext rfl (tapsOf_hwp s on)

theorem acts_pwp : Acts (reqBitmapOp .pwp on) fun _ t => { t with pwp := on } := fun s =>
  Prod.ext rfl (tapsOf_pwp s on)

theorem acts_ev2 : Acts (reqBitmapOp .ev2 on) fun _ t => { t with ev2 := on } := fun s =>
  Prod.ext rfl (tapsOf_ev2 s on)

theorem acts_ev3 : Acts (reqBitmapOp .ev3 on) fun p t => { t with ev3 := p.iceValve && on } := fun s =>
  Prod.ext rfl (tapsOf_ev3 s on)

end req

theorem acts_closeNormalIce : Acts closeNormalIce fun p t => t.closeWater p .normalIce := by
  have harm : Acts (fun s => setOut (fun o => { o with closeDelay := s.cfg.closeDelay % 256 }) s)
      fun p t => { t with closeDelay := p.delay % 256 } := fun _ => rfl
  exact .ite (fun p _ => p.delay ≠ 0) (harm.comp (.ite (fun p _ => p.pumpFirst) acts_closeWp (acts_ev2 false)))
    (acts_closeWp.comp (acts_ev2 false))

theorem acts_closeEv2 : Acts closeEv2 fun p t =>
    if !p.pumpFirst || t.closeDelay = 0 then { t with ev2 := false } else t :=
  .when (fun p t => !p.pumpFirst || t.closeDelay = 0) (acts_ev2 false)

theorem acts_closeHeat : Acts closeHeat fun p t => t.closeWater p .heat :=
  (acts_hwp false).comp acts_closeEv2

theorem acts_closeIce : Acts closeIce fun p t => t.closeWater p .ice := by
  have hev3 : Acts (reqBitmapOp .ev3 false) fun _ t => { t with ev3 := false } := fun s =>
    (acts_ev3 false s).trans (by simp only [Bool.and_false])
  exact .when (fun p _ => p.iceTank)
    (.comp (.when (fun p t => p.pumpFirst || t.closeDelay = 0) acts_closeWp) hev3)

theorem acts_closeWater (w : Water) : Acts (closeWater w) fun p t => t.closeWater p w := by
  cases w with
  | normalIce => exact acts_closeNormalIce
  | heat => exact acts_closeHeat
  | ice => exact acts_closeIce
  | no | heatPot => exact fun _ => rfl

theorem acts_closeWait : Acts closeWait fun p t => t.wait p := by
  have hdec : Acts (setOut fun o => { o with closeDelay := o.closeDelay - 1 })
      fun _ t => { t with closeDelay := t.closeDelay - 1 } := fun _ => rfl
  exact .when (fun _ t => t.closeDelay ≠ 0)
    (hdec.comp (.when (fun p t => p.delay ≠ 0 ∧ t.closeDelay = 0)
      (.ite (fun p _ => p.pumpFirst) (acts_ev2 false) acts_closeWp)))

theorem acts_closeHeater (w : Water) : Acts (closeHeater w) fun _ t => t := fun s => by
  unfold closeHeater
  split
  · exact dispense_closeHeatSend _
  · rfl

/-- The closing of one water type is the abstract closing. -/
theorem acts_waterOutClose (w : Water) : Acts (waterOutClose w) fun p t => t.close p w := by
  have hout : Acts (setOut fun o => { o with ok := .out }) fun _ t => { t with ok := .out } := fun _ => rfl
  have houtputs : Acts (closeOutputs w) fun p t =>
      if t.ok ≠ .idle then Taps.closeWater p w { t with ok := .out } else t.wait p :=
    .ite (fun _ t => t.ok ≠ .idle) ((hout.comp acts_closeVolume).comp (acts_closeWater w)) acts_closeWait
  exact (acts_closeFlag.comp houtputs).comp (acts_closeHeater w)

theorem acts_waterOutCloseAll : Acts waterOutCloseAll fun p t => t.closeAll p := by
  intro s
  have hall := ((acts_waterOutClose .normalIce).comp (acts_waterOutClose .heat)).comp (acts_waterOutClose .ice) s
  unfold waterOutCloseAll Taps.closeAll
  exact hall

theorem acts_waterOutMax : Acts waterOutMax fun p t => t.limit p :=
  .when (fun _ t => t.clock ≥ 600) acts_waterOutCloseAll

/-! ## Dispensing -/

section serve

variable (s : Sys)

theorem dispense_meterPulses : dispense (meterPulses s) = dispense s := by
  unfold meterPulses
  split <;> rfl

/-- Metering a hot dispense can only name it. -/
theorem dispense_meterHeat :
    dispense (meterHeat s) = (plumbingOf s, { tapsOf s with flag := (meterHeat s).out.flag }) := by
  unfold meterHeat
  split
  · rfl
  · split
    · rfl
    · dsimp only
      split <;> rfl

/-- What a view of the dialogue with the heater sees: the hand-shake and the name of the dispense. -/
theorem view_heatDialogue {α : Type} {v : Sys → α} (hsend : ∀ c s, v (heatSend c s) = v s)
    (harm : ∀ s, v (armHeating s) = v s) (hflow : ∀ s, v (setCfg (fun c => c.setWater c.waterMode 5000) s) = v s)
    (hnum : ∀ s, v (setOut (fun o => { o with heatNum := o.heatNum + 1, heatSt := 0 }) s) = v s) :
    v (heatDialogue s) = v (setOut (fun o => { o with ok := dialogueOk o, flag := .heat }) s) := by
  have hok : ∀ ok, dialogueOk s.out = ok → v (setOut (fun o => { o with ok := ok, flag := .heat }) s) =
      v (setOut (fun o => { o with ok := dialogueOk o, flag := .heat }) s) := fun ok h => by rw [← h]; rfl
  have hname : ∀ c (b : Bool) s, v (setOut (fun o => { o with flag := .heat }) (heatSend c
      (if b then setCfg (fun c => c.setWater c.waterMode 5000) s else s))) =
      v (setOut (fun o => { o with flag := .heat }) s) := fun c b s => by
    have hcomm : ∀ x, setOut (fun o => { o with flag := .heat }) (heatSend c x) =
      heatSend c (setOut (fun o => { o with flag := .heat }) x) := fun x => apply_ite (setOut _) _ _ _
    rw [hcomm, hsend]
    cases b
    · rfl
    · exact hflow (setOut (fun o => { o with flag := .heat }) s)
  unfold heatDialogue
  dsimp only
  split
  · rename_i h
    rw [hsend]
    exact hok .read (if_pos h)
  · rename_i h
    split
    · rename_i hfew
      rw [harm, hname, ← hok .send ((if_neg h).trans (if_pos hfew))]
      exact hnum (setOut (fun o => { o with ok := .send, flag := .heat }) s)
    · rename_i hfew
      exact hok s.out.ok ((if_neg h).trans (if_neg hfew))

theorem dispense_heatDialogue : dispense (heatDialogue s) =
    (plumbingOf s, { tapsOf s with ok := dialogueOk s.out, flag := .heat }) :=
  view_heatDialogue s (fun c s => dispense_heatSend s c) (fun _ => rfl) (fun _ => rfl) fun _ => rfl

theorem dispense_coldPump {p : Plumbing} {t : Taps} (h : dispense s = (p, t)) :
    dispense (coldPump s) = (p, if p.air then { t with wp := true, pwp := false }
      else { t with wp := false }) := by
  have hp : decide (s.cfg.exitWater = .air) = p.air := congrArg (fun d : Plumbing × Taps => d.1.air) h
  unfold coldPump
  rw [← hp]
  split
  · rename_i hair
    rw [if_neg (by simpa using hair)]
    exact (acts_wp false).after h
  · rename_i hair
    rw [if_pos (by simpa using hair)]
    exact (acts_pwp false).after ((acts_wp true).after h)

theorem dispense_coldOutlet {p : Plumbing} {t : Taps} (h : dispense s = (p, t)) :
    dispense (coldOutlet s) = (p,
      if p.iceTank then
        if demandNormal s then { t with ev2 := true, ev3 := false }
        else if demandIce s then { t with ev2 := false, ev3 := p.iceValve } else t
      else if demandNormal s then { t with ev2 := true } else t) := by
  have hev4 : Acts (reqBitmapOp .ev4 false) fun _ t => t := fun s => dispense_reqBitmapOp s rfl false
  have hnormal := hev4.after ((acts_ev3 false).after ((acts_ev2 true).after h))
  have hice := hev4.after ((acts_ev3 true).after ((acts_ev2 false).after h))
  simp only [Bool.and_false, Bool.and_true] at hnormal hice
  have hp : s.cfg.bdIce = p.iceTank := congrArg (fun d : Plumbing × Taps => d.1.iceTank) h
  unfold coldOutlet
  rw [hp]
  split_ifs
  · exact hnormal
  · exact hice
  · exact h
  · exact (acts_ev2 true).after h
  · exact h

/-- What a demand is read off. -/
def asked (s : Sys) : Config × OutSt := (s.cfg, s.out)

theorem asked_externalWaterExe (on : Bool) : asked (externalWaterExe on s) = asked s := by
  have hfv : ∀ on s, asked (reqBitmapOp .fv on s) = asked s := fun _ _ => rfl
  simp [externalWaterExe, hfv, apply_ite asked]

theorem asked_coldPump : asked (coldPump s) = asked s := by
  unfold coldPump
  split <;> rfl

theorem demand_of_asked {s s' : Sys} (h : asked s' = asked s) :
    demandNormal s' = demandNormal s ∧ demandIce s' = demandIce s := by
  have hc : s'.cfg = s.cfg := congrArg Prod.fst h
  have ho : s'.out = s.out := congrArg Prod.snd h
  simp only [demandNormal, demandIce, hc, ho, and_self]

theorem dispense_coldServe : dispense (coldServe s) = (plumbingOf s,
    (tapsOf s).serveCold (plumbingOf s) (demandNormal s) (demandIce s)) := by
  have huv : Acts (uvReqExe true true) fun _ t => t := fun s => dispense_uvReqExe s true true
  have hev1 : Acts (reqBitmapOp .ev1 false) fun _ t => t := fun s => dispense_reqBitmapOp s rfl false
  have hend : Acts (fun s => armHeating (setOut (fun o => { o with ok := .read, flag := .normalIce }) s))
      fun _ t => { t with ok := .read, flag := .normalIce } := fun _ => rfl
  have hask := asked_externalWaterExe s true
  have h1 := dispense_coldPump _ (dispense_externalWaterExe s true)
  have h2 := dispense_coldOutlet _ (hev1.after h1)
  have hask' : asked (reqBitmapOp .ev1 false (coldPump (externalWaterExe true s))) = asked s :=
    (asked_coldPump _).trans hask
  obtain ⟨hn, hi⟩ := demand_of_asked hask'
  rw [hn, hi] at h2
  have h3 := hend.after (huv.after h2)
  exact h3

theorem dispense_pulsesMetered : dispense (meterPulses (countDispense s)) = (plumbingOf s, (tapsOf s).count) :=
  dispense_meterPulses _

theorem dispense_waterOutCold : dispense (waterOutMax (waterOutCold (countDispense s))) =
    (plumbingOf s, (tapsOf s).pass (plumbingOf s) (actCold (meterPulses (countDispense s)))) := by
  have hm := dispense_pulsesMetered s
  unfold waterOutCold actCold
  dsimp only
  split
  · exact acts_waterOutMax.after ((acts_waterOutClose .normalIce).after hm)
  · have hs := dispense_coldServe (meterPulses (countDispense s))
    rw [show plumbingOf (meterPulses _) = plumbingOf s from congrArg Prod.fst hm,
      show tapsOf (meterPulses _) = (tapsOf s).count from congrArg Prod.snd hm] at hs
    exact acts_waterOutMax.after hs

theorem asked_meterPulses : (meterPulses s).cfg = s.cfg ∧ (meterPulses s).out.key = s.out.key := by
  unfold meterPulses
  split <;> exact ⟨rfl, rfl⟩

/-- A hot demand is metered, then closed at the target or served by the boiler. -/
theorem waterOutPot_of_demand (h : demandHeat s = true) : waterOutPot (countDispense s) =
    if targetReached (meterPulses (countDispense s)) then waterOutClose .heat (meterPulses (countDispense s))
    else armHeating (reqBitmapOp .hwp true
      (setOut (fun o => { o with ok := .read, flag := .heatPot }) (meterPulses (countDispense s)))) := by
  have hheat : (meterPulses (countDispense s)).cfg.waterMode = waterHeat ∨
      (meterPulses (countDispense s)).out.key.getLsbD keyHeat = true := by
    obtain ⟨hc, hk⟩ := asked_meterPulses (countDispense s)
    rw [hc, hk]
    simp only [demandHeat, Bool.or_eq_true, Bool.and_eq_true, beq_iff_eq] at h
    exact h.imp_left And.left
  exact if_pos hheat

theorem dispense_waterOutPot (h : demandHeat s = true) :
    dispense (waterOutMax (waterOutPot (countDispense s))) =
      (plumbingOf s, (tapsOf s).pass (plumbingOf s) (actPot (meterPulses (countDispense s)))) := by
  have hm := dispense_pulsesMetered s
  have hname : Acts (setOut fun o => { o with ok := .read, flag := .heatPot })
      fun _ t => { t with ok := .read, flag := .heatPot } := fun _ => rfl
  have harm : Acts armHeating fun _ t => t := fun _ => rfl
  rw [waterOutPot_of_demand s h]
  unfold actPot
  split
  · exact acts_waterOutMax.after ((acts_waterOutClose .heat).after hm)
  · exact acts_waterOutMax.after (harm.after ((acts_hwp true).after (hname.after hm)))

theorem asked_meterHeat : (meterHeat s).cfg = s.cfg ∧ (meterHeat s).out.key = s.out.key ∧
    (meterHeat s).out.ok = s.out.ok := by
  unfold meterHeat
  split
  · exact ⟨rfl, rfl, rfl⟩
  · split
    · exact ⟨rfl, rfl, rfl⟩
    · dsimp only
      split <;> exact ⟨rfl, rfl, rfl⟩

/-- A hot demand is one that the instant heater is asked for. -/
theorem asked_of_demandHeat {s : Sys} (h : demandHeat s = true) :
    (s.cfg.waterMode ≠ 0 ∧ s.cfg.waterFlow ≠ 0) ∨ s.out.key.getLsbD keyHeat = true := by
  simp only [demandHeat, Bool.or_eq_true, Bool.and_eq_true, beq_iff_eq, bne_iff_ne] at h
  rcases h with ⟨hmode, hflow⟩ | hkey
  · exact .inl ⟨by rw [hmode]; decide, hflow⟩
  · exact .inr hkey

theorem asked_heatMetered : (heatMetered s).cfg = s.cfg ∧ (heatMetered s).out.key = s.out.key ∧
    (heatMetered s).out.ok = s.out.ok := asked_meterHeat _

theorem dispense_heatMetered : dispense (heatMetered s) =
    (plumbingOf s, { (tapsOf s).count with flag := (heatMetered s).out.flag }) := dispense_meterHeat _

/-- A hot demand is metered, then closed at the target, paused or asked of the heater. -/
theorem waterOutInstant_of_demand (h : demandHeat s = true) : waterOutInstant (countDispense s) =
    if targetReached (heatMetered s) then waterOutClose .heat (heatMetered s) |> waterOutMax
    else if heatPause (heatMetered s) then
      closeHeatSend (heatMetered s) |> setOut (fun o => { o with heatFirst := o.heatFirst + 1 })
    else heatDialogue (heatMetered s) |> waterOutMax := by
  have hask := asked_heatMetered s
  have hheat : ((heatMetered s).cfg.waterMode ≠ 0 ∧ (heatMetered s).cfg.waterFlow ≠ 0) ∨
      (heatMetered s).out.key.getLsbD keyHeat = true := by
    rw [hask.1, hask.2.1]
    exact asked_of_demandHeat h
  change (if targetReached (heatMetered s) then waterOutClose .heat (heatMetered s) |> waterOutMax
    else if heatPause (heatMetered s) then
      closeHeatSend (heatMetered s) |> setOut (fun o => { o with heatFirst := o.heatFirst + 1 })
    else if ((heatMetered s).cfg.waterMode ≠ 0 ∧ (heatMetered s).cfg.waterFlow ≠ 0) ∨
        (heatMetered s).out.key.getLsbD keyHeat = true then heatDialogue (heatMetered s) |> waterOutMax
    else waterOutMax (heatMetered s)) = _
  rw [if_pos hheat]

theorem dispense_waterOutInstant (h : demandHeat s = true) :
    dispense (waterOutInstant (countDispense s)) =
      (plumbingOf s, (tapsOf s).pass (plumbingOf s) (actInstant (heatMetered s))) := by
  have hm := dispense_heatMetered s
  have hfirst : Acts (setOut fun o => { o with heatFirst := o.heatFirst + 1 }) fun _ t => t := fun _ => rfl
  rw [waterOutInstant_of_demand s h]
  unfold actInstant
  split
  · have hc := (acts_waterOutClose .heat).after hm
    exact acts_waterOutMax.after (show dispense (waterOutClose .heat (heatMetered s)) =
      (plumbingOf s, (tapsOf s).count.close (plumbingOf s) .heat) from hc)
  · split
    · exact hfirst.after ((dispense_closeHeatSend _).trans hm)
    · have hd := dispense_heatDialogue (heatMetered s)
      rw [show plumbingOf (heatMetered s) = plumbingOf s from congrArg Prod.fst hm,
        show tapsOf (heatMetered s) = _ from congrArg Prod.snd hm] at hd
      exact acts_waterOutMax.after hd

/-- A demand is served by its action. -/
theorem dispense_waterOutServe :
    dispense (waterOutServe s) = (plumbingOf s, (tapsOf s).pass (plumbingOf s) (actServe s)) := by
  unfold waterOutServe actServe
  split
  · rename_i hd
    split
    · exact dispense_waterOutInstant s hd
    · exact dispense_waterOutPot s hd
  · split
    · exact dispense_waterOutCold s
    · have hmax := acts_waterOutMax.after (acts_waterOutCloseAll s)
      rw [Taps.limit_of_clock (by rw [Taps.closeAll_clock]; omega)] at hmax
      exact hmax

theorem dispense_readKeys : dispense (readKeys s) = dispense s :=
  keys_keep s
    (fun _ s h => congrArg (fun o : OutSt =>
      (plumbingOf s, { tapsOf s with ok := o.ok, flag := o.flag, closeDelay := o.closeDelay })) (h s.out))
    fun on s => ⟨dispense_reqBitmapOp s rfl on, dispense_reqBitmapOp s rfl on⟩

theorem dispense_clearDemand : dispense (clearDemand s) = dispense s := by
  unfold clearDemand
  split <;> rfl

/-- `WaterOut_req_exe` is a pass of dispensing, unless the storage program has the pumps. -/
theorem dispense_waterOutReqExe : dispense (waterOutReqExe s) = (plumbingOf s,
    if s.stor.status then tapsOf s else (tapsOf s).pass (plumbingOf s) (actOf s)) := by
  have hkeys := dispense_readKeys s
  have hidle : Acts (setOut fun o => { o with heatNum := 0, heatSt := 0, heatFlow := 0 }) fun _ t => t :=
    fun _ => rfl
  rw [waterOutReqExe_eq]
  cases s.stor.status with
  | true => exact dispense_reqBitmapOp s rfl true
  | false =>
    unfold actOf
    dsimp only
    cases hd : !waterDemand (readKeys s) || !waterOutLevel (readKeys s)
    · cases he : (readKeys s).alarmBit .e4
      · have hs := dispense_waterOutServe (readKeys s)
        rw [show plumbingOf (readKeys s) = plumbingOf s from congrArg Prod.fst hkeys,
          show tapsOf (readKeys s) = tapsOf s from congrArg Prod.snd hkeys] at hs
        exact hs
      · have hs := acts_waterOutCloseAll.after hkeys
        simp only [Bool.false_eq_true, Bool.or_true, ↓reduceIte]
        exact hs
    · have hs := acts_waterOutCloseAll.after (hidle.after ((dispense_clearDemand _).trans hkeys))
      simp only [Bool.false_eq_true, Bool.true_or, ↓reduceIte]
      exact hs

end serve

end WM.Proof
