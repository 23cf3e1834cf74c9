import WaterMaker.Proof.WaterPath

/-!
# The storage program and the water path

While `u8Storage_Status` is set, purification and dispensing return at once, and the storage program
drains the source tank (phase 1) and the drinking tank (phase 2). A pass entered in storage with nothing
of them left on leaves the pumps and the valve to the phase that owns them (`drains_reqExecution`), and
every pass that follows does too. What was on when the storage program took over stays on: `storage_owns`
is the property for every run in which it takes over a closed water path (`takesOver`).
-/

namespace WM.Proof

open WM WM.Impl WM.Spec

theorem vacant_of_drains {s : Sys} (h : Drains s) : Vacant s := ⟨h.pwp, h.ev2, h.hwp⟩

/-- What `Drains` and `Vacant` are about. -/
def pipes (s : Sys) : StorSt × Bool × Bool × Bool × Bool :=
  (s.stor, s.reqBit .pwp, s.reqBit .wp, s.reqBit .ev2, s.reqBit .hwp)

theorem pipes_of_taps {s s' : Sys} (hstor : s'.stor = s.stor) (htaps : tapsOf s' = tapsOf s) :
    pipes s' = pipes s :=
  congrArg₂ (fun (x : StorSt) (t : Taps) => (x, t.pwp, t.wp, t.ev2, t.hwp)) hstor htaps

theorem pipes_of_waterSide {s s' : Sys} (h : waterSide s' = waterSide s) : pipes s' = pipes s :=
  pipes_of_taps (congrArg (·.2.2.1) h) (congrArg (·.2.1) h)

section congr

variable {s s' : Sys} (h : pipes s' = pipes s)
include h

theorem drains_congr (hd : Drains s) : Drains s' := by
  simp only [pipes, Prod.mk.injEq] at h
  obtain ⟨h1, h2, h3, h4, h5⟩ := h
  exact ⟨by rw [h1, h2]; exact hd.pwp, by rw [h1, h3]; exact hd.wp, by rw [h1, h4]; exact hd.ev2, h5.trans hd.hwp⟩

theorem vacant_congr (hv : Vacant s) : Vacant s' := by
  simp only [pipes, Prod.mk.injEq] at h
  obtain ⟨h1, h2, -, h4, h5⟩ := h
  exact ⟨by rw [h1, h2]; exact hv.pwp, by rw [h1, h4]; exact hv.ev2, h5.trans hv.hwp⟩

end congr

/-! ## One pass in storage -/

section pass

variable {s : Sys}

/-- In storage purification and dispensing return at once; the lamp's program closes. -/
theorem eases_owned (hst : s.stor.status = true) :
    Taps.Eases (plumbingOf (prepared s)) (tapsOf s) (tapsOf (prepared s)) := by
  have hpwp : pwpReqExe (plantPass s) = plantPass s := if_pos (by rw [plantPass_stor, hst])
  have hcold : tapsOf (coldWaterExe (pwpReqExe (plantPass s))) = tapsOf s := by
    rw [hpwp]
    exact (congrArg Prod.snd (dispense_coldWaterExe _)).trans (congrArg Prod.snd (dispense_plantPass s))
  have he := eases_sterilizeReqExe (coldWaterExe (pwpReqExe (plantPass s)))
  rw [hcold] at he
  exact he

/-- The pass up to the storage program keeps a vacant water path vacant and stops the dispensing pump. -/
theorem vacant_before (h : Vacant s) (hst : s.stor.status = true) :
    Vacant (defrostReqExe (waterOutReqExe (prepared s))) ∧
      (defrostReqExe (waterOutReqExe (prepared s))).reqBit .wp = false := by
  have he := eases_owned hst
  have hown : (prepared s).stor = s.stor := congrArg Prod.fst (keptView_prepared s)
  have hst' : (prepared s).stor.status = true := by rw [hown, hst]
  have hout := dispense_waterOutReqExe (prepared s)
  rw [if_pos hst'] at hout
  have htaps : tapsOf (defrostReqExe (waterOutReqExe (prepared s))) = tapsOf (prepared s) :=
    (congrArg Prod.snd (dispense_defrostReqExe _)).trans (congrArg Prod.snd hout)
  have hstor : (defrostReqExe (waterOutReqExe (prepared s))).stor = s.stor :=
    (congrArg Prod.fst (keptView_defrostReqExe _)).trans
      ((congrArg Prod.fst (outFrame_rest.waterOutReqExe (fun _ _ => rfl) _)).trans hown)
  refine ⟨⟨fun hp => ?_, fun hv => ?_, ?_⟩, Bool.eq_false_iff.mpr fun hw => ?_⟩
  · rw [hstor]
    exact h.pwp (he.pwp ((congrArg Taps.pwp htaps).symm.trans hp))
  · rw [hstor]
    exact h.ev2 (he.ev2 ((congrArg Taps.ev2 htaps).symm.trans hv))
  · exact (congrArg Taps.hwp htaps).trans (he.hwp.trans h.hwp)
  · obtain ⟨-, -, -, hfree⟩ := wp_guarded _ ((congrArg Taps.wp htaps).symm.trans hw)
    have hown' : (coldWaterExe (pwpReqExe (plantPass s))).stor.status = s.stor.status :=
      congrArg (·.1.status) (keptView_beforeLamp s)
    rw [hown', hst] at hfree
    exact absurd hfree.symm Bool.false_ne_true

theorem drains_of_off (hpwp : s.reqBit .pwp = false) (hwp : s.reqBit .wp = false)
    (hev2 : s.reqBit .ev2 = false) (hhwp : s.reqBit .hwp = false) : Drains s :=
  ⟨fun h => absurd (hpwp.symm.trans h) Bool.false_ne_true, fun h => absurd (hwp.symm.trans h) Bool.false_ne_true,
    fun h => absurd (hev2.symm.trans h) Bool.false_ne_true, hhwp⟩

/-- The storage program takes a vacant water path. -/
theorem drains_storageExe (h : Vacant s) (hwp : s.reqBit .wp = false) : Drains (storageExe s) := by
  have hstor : ∀ f s b, (setStor f s).reqBit b = s.reqBit b := fun _ _ _ => rfl
  have htmo : ∀ f s b, (setTmo f s).reqBit b = s.reqBit b := fun _ _ _ => rfl
  have hcfg : ∀ f s b, (setCfg f s).reqBit b = s.reqBit b := fun _ _ _ => rfl
  have hreg : ∀ n v s b, (writeReg n v s).reqBit b = s.reqBit b := fun _ _ _ _ => rfl
  have hrun : ∀ n s b, (resetRuntime n s).reqBit b = s.reqBit b := fun n s b => by
    unfold resetRuntime
    split <;> rfl
  have hhwp := h.hwp
  have hpwp : s.stor.fsm ≠ .one → s.reqBit .pwp = false := fun hf => Bool.eq_false_iff.mpr (mt h.pwp hf)
  have hev2 : s.stor.fsm ≠ .two → s.reqBit .ev2 = false := fun hf => Bool.eq_false_iff.mpr (mt h.ev2 hf)
  unfold storageExe storageFsm
  cases hf : s.stor.fsm <;> simp only [setStor_stor, hf, storOne, storTwo, storNext, storCancel, storTimeout1,
    storTimeout2]
  case idle =>
    split_ifs <;> refine drains_of_off ?_ ?_ ?_ ?_ <;> simp [hstor, htmo, hpwp, hev2, hhwp, hwp, hf]
  case one =>
    -- the pump runs for this phase until it is left or cancelled
    split_ifs
    case neg | neg => refine drains_of_off ?_ ?_ ?_ ?_ <;> simp [hstor, htmo, hev2, hhwp, hwp, hf]
    all_goals constructor <;> simp [hstor, htmo, hev2, hhwp, hwp, hf]
  case two =>
    split_ifs
    case neg | neg => refine drains_of_off ?_ ?_ ?_ ?_ <;> simp [hstor, hpwp, hhwp, hf]
    all_goals constructor <;> simp [hstor, htmo, hpwp, hhwp, hf]
  case three =>
    split_ifs <;> refine drains_of_off ?_ ?_ ?_ ?_ <;> simp [hstor, hrun, hpwp, hev2, hhwp, hwp, hf]
  all_goals refine drains_of_off ?_ ?_ ?_ ?_ <;> simp [hstor, hcfg, hreg, hpwp, hev2, hhwp, hwp, hf]

/-- A pass entered in storage on a vacant water path. -/
theorem drains_reqExecution (h : Vacant s) (hst : s.stor.status = true) : Drains (reqExecution s) := by
  obtain ⟨hvac, hwp⟩ := vacant_before h hst
  have hres : ∀ s, pipes (restartDisExe s) = pipes s := fun s =>
    pipes_of_taps (congrArg Prod.fst (keptView_restartDisExe s)) (congrArg Prod.snd (dispense_restartDisExe s))
  exact drains_congr (hres _) (drains_storageExe hvac hwp)

end pass

/-! ## Runs -/

theorem stor_step {s : Sys} {e : Event} (he : isPass e = false) : (step s e).stor = s.stor := by
  cases e with
  | core | req => exact absurd he.symm Bool.false_ne_true
  | waterOut => exact congrArg Prod.fst (outFrame_rest.waterOutReqExe (fun _ _ => rfl) s)
  | runTime =>
    have h := congrArg Sys.stor (counterView_runTimeProcess s)
    exact h
  | runningMode =>
    have h := congrArg Sys.stor (modeView_sysRunningModeUpdate s)
    exact h
  | _ => rfl

/-- In storage nothing but a pass touches pumps, valve and phase. -/
theorem pipes_step {s : Sys} {e : Event} (hst : s.stor.status = true) (he : isPass e = false) :
    pipes (step s e) = pipes s := by
  cases e with
  | core | req => exact absurd he.symm Bool.false_ne_true
  | waterOut =>
    have hout := dispense_waterOutReqExe s
    rw [if_pos hst] at hout
    exact pipes_of_taps (congrArg Prod.fst (outFrame_rest.waterOutReqExe (fun _ _ => rfl) s)) (congrArg Prod.snd hout)
  | runTime =>
    have h := congrArg pipes (counterView_runTimeProcess s)
    exact h
  | runningMode =>
    have h := congrArg pipes (modeView_sysRunningModeUpdate s)
    exact h
  | _ => rfl

/-- A pass entered in storage on a vacant water path, alone or with the rest of the core thread. -/
theorem drains_pass {s : Sys} {e : Event} (he : isPass e = true) (hst : s.stor.status = true) (h : Vacant s) :
    Drains (step s e) := by
  obtain ⟨s', h1, h2⟩ := pass_cases he
  have hst' : s'.stor.status = true := (congrArg (·.2.2.1.status) h1).trans hst
  exact drains_congr (pipes_of_waterSide h2) (drains_reqExecution (vacant_congr (pipes_of_waterSide h1) h) hst')

/-- The water path that the storage program has taken stays vacant for the next pass. -/
def Held (x : Sys × Bool) : Prop := x.2 = true → x.1.stor.status = true → Vacant x.1

theorem Held.vacant {x : Sys × Bool} {e : Event} (hx : Held x) (he : TakesVacant x e) (hp : isPass e = true)
    (hst : x.1.stor.status = true) : Vacant x.1 := by
  cases hown : x.2 with
  | true => exact hx hown hst
  | false => exact he hp hst hown

theorem Held.track {x : Sys × Bool} {e : Event} (hx : Held x) (he : TakesVacant x e) : Held (track x e) := by
  intro hown hst
  cases hp : isPass e with
  | true =>
    simp only [Spec.track, hp, if_true] at hown
    exact vacant_of_drains (drains_pass hp hown (hx.vacant he hp hown))
  | false =>
    simp only [Spec.track, hp, Bool.false_eq_true, if_false] at hown
    have hst' : x.1.stor.status = true := (congrArg StorSt.status (stor_step hp)).symm.trans hst
    exact vacant_congr (pipes_step hst' hp) (hx hown hst')

theorem run_track (x : Sys × Bool) (es : List Event) : (run track x es).1 = run step x.1 es :=
  run_hom (f := Prod.fst) (fun _ _ => rfl) x es

/-- In every run in which the storage program takes over a vacant water path, each pass entered in storage
leaves the pumps and the valve to the phase that owns them. -/
theorem storage_owns (c : Config) (i : Inputs) (es : List Event) (e : Event) (he : isPass e = true)
    (h : Along track TakesVacant (boot c i, false) (es ++ [e]))
    (hst : (run step (boot c i) es).stor.status = true) :
    Drains (step (run step (boot c i) es) e) := by
  obtain ⟨hes, hlast, -⟩ := Along.append.mp h
  have hheld : Held (run track (boot c i, false) es) :=
    hes.run_inv (fun _ _ hx hc => hx.track hc) fun hown => absurd hown Bool.false_ne_true
  have hrun := run_track (boot c i, false) es
  have hvac := hheld.vacant hlast he (by rw [hrun]; exact hst)
  rw [hrun] at hvac
  exact drains_pass he hst hvac

/-- The default registers with storage demanded. -/
def storageConfig : Config := { defaultConfig.powerOn with storage := 1 }

set_option maxRecDepth 100000 in
/-- A machine at rest is drained: phase 1 has its pump. -/
theorem storage_owns_rest :
    let s := step (run step (boot defaultConfig.powerOn quiet) [.config storageConfig, .req]) .req
    s.reqBit .pwp = true ∧ s.stor.fsm = .one ∧ s.reqBit .hwp = false := by
  intro s
  have h := storage_owns defaultConfig.powerOn quiet [.config storageConfig, .req] .req rfl (by decide +kernel)
    (by decide +kernel)
  have hpwp : s.reqBit .pwp = true := by decide +kernel
  exact ⟨hpwp, h.pwp hpwp, h.hwp⟩

/-- A machine with a boiler, and the same with storage demanded during a cold dispense. -/
def boilerConfig : Config := { defaultConfig.powerOn with waterCtrl := 0x0009 }
def boilerStorage : Config := { boilerConfig with waterMode := 1, waterFlow := 5000, storage := 1 }

/-- Hot water is dispensed, then cold water, and storage is demanded on the way. -/
def takeoverRun : List Event := [.panel 2 5000, .req, .panel 1 5000, .req, .config boilerStorage, .req]

/-- The pass that sets `u8Storage_Status` still dispenses, and the next one, entered in storage, leaves the
outlet valve and the hot-water pump on while phase 1 drains the source tank. -/
theorem storage_takes_open_path : boilerConfig.InRange ∧ boilerStorage.InRange ∧
    (run step (boot boilerConfig quiet) takeoverRun).stor.status = true ∧
    (let s := step (run step (boot boilerConfig quiet) takeoverRun) .req
     s.stor.fsm = .one ∧ s.reqBit .ev2 = true ∧ s.reqBit .hwp = true) :=
  ⟨by decide, by decide, by decide +kernel, by decide +kernel, by decide +kernel, by decide +kernel⟩

end WM.Proof
