import WaterMaker.Proof.WaterPath

/-!
# Dispensing by the panel: the shut-off

Without keys a dispense ends when the panel clears its demand, which closes everything, or at the target,
which closes one water type. `run_time_process` then takes the hand-shake, and what is open after that
stays open: `Tidy` says that nothing is, and it is kept by every pass (`Tidy.reqExecution`). A pass without
a demand shuts the hot-water pump and the ice tank's valve if they were left open during the hand-shake
(`shut_reqExecution`). `panel_shut_off` is the shut-off of a run whose hand-shakes leave nothing behind.
-/

namespace WM.Proof

open WM WM.Impl WM.Spec

/-- Nothing was left behind when the last hand-shake was taken. -/
def Tidy (s : Sys) : Prop := (tapsOf s).ok = .idle → Shut s

/-- The hand-shake and the outputs that the storage program leaves alone. -/
def spared (s : Sys) : Bool × OutOk × Bool × Bool :=
  ((plumbingOf s).iceTank, (tapsOf s).ok, (tapsOf s).hwp, (tapsOf s).ev3)

section spared

variable {s s' : Sys}

theorem shut_of_spared (h : spared s' = spared s) (hs : Shut s) : Shut s' := by
  simp only [spared, Prod.mk.injEq] at h
  obtain ⟨h1, -, h3, h4⟩ := h
  exact ⟨h3.trans hs.1, fun hice => h4.trans (hs.2 (h1.symm.trans hice))⟩

theorem tidy_of_spared (h : spared s' = spared s) (hs : Tidy s) : Tidy s' := fun hok =>
  shut_of_spared h (hs ((congrArg (·.2.1) h).symm.trans hok))

theorem spared_of_dispense (h : dispense s' = dispense s) : spared s' = spared s :=
  congrArg (fun d : Plumbing × Taps => (d.1.iceTank, d.2.ok, d.2.hwp, d.2.ev3)) h

theorem spared_storageExe (s : Sys) : spared (storageExe s) = spared s :=
  StorFrame.storageExe
    ⟨fun _ _ => rfl, fun _ _ => rfl, fun _ _ => rfl,
      fun on s => congrArg (fun d : Plumbing × Taps => (d.1.iceTank, d.2.ok, d.2.hwp, d.2.ev3)) (acts_storOne on s),
      fun on s => congrArg (fun d : Plumbing × Taps => (d.1.iceTank, d.2.ok, d.2.hwp, d.2.ev3)) (acts_storTwo on s),
      fun _ _ => rfl, fun _ => rfl, fun _ _ _ => rfl⟩ s

theorem spared_finish (s : Sys) : spared (finish s) = spared s := by
  unfold finish
  rw [spared_of_dispense (dispense_restartDisExe _), spared_storageExe,
    spared_of_dispense (dispense_defrostReqExe s)]

end spared

/-! ## The pass -/

section pass

variable {s : Sys}

/-- Up to dispensing a pass opens neither of the two. -/
theorem tidy_prepared (h : Tidy s) : Tidy (prepared s) := by
  obtain ⟨-, -, hice, -⟩ := setup_prepared s
  obtain ⟨b, he⟩ := eases_prepared s
  intro hok
  have hs := h (he.ok.symm.trans hok)
  refine ⟨he.hwp.trans hs.1, fun htank => Bool.eq_false_iff.mpr fun hv => ?_⟩
  exact absurd ((hs.2 (hice.symm.trans htank)).symm.trans (he.ev3 hv)) Bool.false_ne_true

theorem plumbingOf_dispensed (s : Sys) : plumbingOf (waterOutReqExe (prepared s)) = plumbingOf (prepared s) :=
  congrArg Prod.fst (dispense_waterOutReqExe (prepared s))

/-- Whatever a pass does, it leaves nothing behind a hand-shake that was taken. -/
theorem Tidy.reqExecution (h : Tidy s) : Tidy (reqExecution s) := by
  have hprep := tidy_prepared h
  have hout : Tidy (waterOutReqExe (prepared s)) := by
    have hd := dispense_waterOutReqExe (prepared s)
    cases hst : (prepared s).stor.status with
    | true =>
      rw [if_pos hst] at hd
      exact tidy_of_spared (spared_of_dispense hd) hprep
    | false =>
      rw [if_neg (by rw [hst]; exact Bool.false_ne_true)] at hd
      have htaps : tapsOf (waterOutReqExe (prepared s)) =
        (tapsOf (prepared s)).pass (plumbingOf (prepared s)) (actOf (prepared s)) := congrArg Prod.snd hd
      intro hok
      unfold Shut
      rw [htaps] at hok
      rw [plumbingOf_dispensed, htaps]
      exact Taps.shut_of_idle_pass (talks_actOf _) hprep hok
  exact tidy_of_spared (spared_finish _) hout

/-- Without a demand a pass closes. -/
theorem actOf_undemanded (hkey : s.cfg.hmiKey = false) (h : Undemanded s) : actOf s = .close := by
  have hdemand : waterDemand (readKeys s) = false := by
    unfold waterDemand
    rw [cfg_readKeys, hkey, h.1, h.2.1]
    rfl
  unfold actOf
  dsimp only
  rw [hdemand]
  rfl

/-- A pass without a demand shuts what the hand-shake has not left behind. -/
theorem shut_reqExecution (hkey : s.cfg.hmiKey = false) (h : Tidy s) (hu : Undemanded s) :
    Shut (reqExecution s) := by
  have hkept := keptView_prepared s
  have hu' : Undemanded (prepared s) :=
    ⟨(congrArg (·.2.2.2.2.1) hkept).trans hu.1, (congrArg (·.2.2.2.2.2) hkept).trans hu.2.1,
      (congrArg (·.1.status) hkept).trans hu.2.2⟩
  have hkey' : (prepared s).cfg.hmiKey = false := (hmiKey_prepared s).trans hkey
  have htaps := tapsOf_dispensed s hu.2.2
  rw [actOf_undemanded hkey' hu'] at htaps
  have hout : Shut (waterOutReqExe (prepared s)) := by
    unfold Shut
    rw [plumbingOf_dispensed, htaps]
    exact Taps.shut_closeAll (tidy_prepared h)
  exact shut_of_spared (spared_finish _) hout

end pass

/-! ## Runs -/

section run

variable {s : Sys} {e : Event}

theorem spared_of_waterSide {s s' : Sys} (h : waterSide s' = waterSide s) : spared s' = spared s :=
  spared_of_dispense (Prod.ext (congrArg (·.1) h) (congrArg (·.2.1) h))

/-- Between the passes the two outputs stay as they are, and the hand-shake may be taken. -/
theorem shut_between (he : between e = true) : Shut (step s e) ↔ Shut s := by
  have hplumb : plumbingOf (step s e) = plumbingOf s := congrArg Prod.fst (calmView_step he)
  unfold Shut
  rw [hplumb, tapsOf_step he]
  split
  · unfold Taps.consume
    split <;> exact Iff.rfl
  · exact Iff.rfl
  · exact Iff.rfl

theorem Tidy.step (h : Tidy s) (he : plain e = true) (hh : HandsOver s e) : Tidy (step s e) := by
  cases hp : isPass e with
  | true =>
    obtain ⟨s', h1, h2⟩ := pass_cases (s := s) hp
    exact tidy_of_spared (spared_of_waterSide h2) (tidy_of_spared (spared_of_waterSide h1) h).reqExecution
  | false =>
    have hb : between e = true := by simpa [plain, hp] using he
    intro hok
    rw [shut_between hb]
    rw [tapsOf_step hb] at hok
    split at hok
    · by_cases hout : (tapsOf s).ok = .out
      · exact hh rfl hout
      · rw [Taps.consume, if_neg hout] at hok
        exact h hok
    · exact h hok
    · exact h hok

theorem hmiKey_step (he : plain e = true) : (step s e).cfg.hmiKey = s.cfg.hmiKey := by
  cases hp : isPass e with
  | true =>
    obtain ⟨s', h1, h2⟩ := pass_cases (s := s) hp
    have hcfg : (step s e).cfg = (reqExecution s').cfg := congrArg (·.2.2.2.2.1) h2
    have hcfg' : s'.cfg = s.cfg := congrArg (·.2.2.2.2.1) h1
    rw [hcfg, hmiKey_reqExecution, hcfg']
  | false =>
    have hb : between e = true := by simpa [plain, hp] using he
    exact congrArg (·.2.2.2.2.1) (calmView_step hb)

/-- A pass of the quiet time shuts the hot-water pump and the ice tank's valve. -/
theorem shut_pass (hkey : s.cfg.hmiKey = false) (h : Tidy s) (hp : isPass e = true) (hu : Undemanded s) :
    Shut (step s e) := by
  obtain ⟨s', h1, h2⟩ := pass_cases (s := s) hp
  have hcfg : s'.cfg = s.cfg := congrArg (·.2.2.2.2.1) h1
  have hstor : s'.stor = s.stor := congrArg (·.2.2.1) h1
  have hu' : Undemanded s' := by
    unfold Undemanded
    rw [hcfg, hstor]
    exact hu
  exact shut_of_spared (spared_of_waterSide h2)
    (shut_reqExecution (by rw [hcfg]; exact hkey) (tidy_of_spared (spared_of_waterSide h1) h) hu')

theorem shut_step (hkey : s.cfg.hmiKey = false) (h : Shut s) (he : plain e = true) (hu : UndemandedAtPass s e) :
    Shut (step s e) := by
  cases hp : isPass e with
  | true => exact shut_pass hkey (fun _ => h) hp (hu hp)
  | false =>
    have hb : between e = true := by simpa [plain, hp] using he
    exact (shut_between hb).mpr h

end run

theorem tidy_boot (c : Config) (i : Inputs) : Tidy (boot c i) := fun _ => by
  have hreq : ∀ b, (boot c i).reqBit b = false := fun _ => Words.get_zero _
  refine ⟨hreq .hwp, fun _ => ?_⟩
  change (iceValve c && (boot c i).reqBit .ev3) = false
  rw [hreq, Bool.and_false]

/-- The shut-off of a dispense by the panel, in every run whose hand-shakes are taken with the hot-water pump
and the ice tank's valve off: a pass after the demand has ended shuts both, and they stay off. -/
theorem panel_shut_off (c : Config) (i : Inputs) (hkey : c.hmiKey = false) (es qs : List Event)
    (hplain : ∀ e ∈ es ++ qs, plain e = true) (hhand : Along step HandsOver (boot c i) (es ++ qs))
    (hquiet : Along step UndemandedAtPass (run step (boot c i) es) qs) (hpass : 0 < qs.countP isPass) :
    let s := run step (boot c i) (es ++ qs)
    s.reqBit .hwp = false ∧ (s.cfg.bdIce = true → s.cfg.sterilizeMode = 1 → s.reqBit .ev3 = false) := by
  have hall : Along step (fun s e => plain e = true ∧ HandsOver s e) (boot c i) (es ++ qs) :=
    (Along.of_forall hplain).and hhand
  have hstep : ∀ s e, s.cfg.hmiKey = false ∧ Tidy s → plain e = true ∧ HandsOver s e →
      (step s e).cfg.hmiKey = false ∧ Tidy (step s e) :=
    fun s e h he => ⟨(hmiKey_step he.1).trans h.1, h.2.step he.1 he.2⟩
  have hq := (Along.append.mp (hall.and_inv hstep ⟨hkey, tidy_boot c i⟩)).2.and hquiet
  -- the first pass of the quiet time shuts, the events behind it keep
  obtain ⟨e, he, hp⟩ := List.countP_pos_iff.mp hpass
  obtain ⟨as, bs, rfl⟩ := List.append_of_mem he
  obtain ⟨hfirst, hrest⟩ := (Along.append.mp hq).2
  have hshut := shut_pass hfirst.1.2.1 hfirst.1.2.2 hp (hfirst.2 hp)
  have hend := hrest.run_inv (fun _ _ h hx => shut_step hx.1.2.1 h hx.1.1.1 hx.2) hshut
  rw [run_append, run_append, run_cons]
  refine ⟨hend.1, fun hice hlamp => ?_⟩
  have hvalve := hend.2 hice
  simpa [tapsOf, iceValve, hlamp] using hvalve

/-- A machine with a boiler, and one with an ice tank whose valve is not wired to a lamp. -/
def potConfig : Config := { defaultConfig.powerOn with waterCtrl := 0x0001 }
def iceConfig : Config := { defaultConfig.powerOn with coldWaterMode := 2, sterilizeMode := 1 }

/-- The panel asks for hot water and clears its demand. -/
def hotRun : List Event := [.panel 2 500, .req, .panel 0 0]

/-- The hot-water pump runs for the demand and is shut after it. -/
theorem panel_shut_off_hotRun :
    (run step (boot potConfig quiet) hotRun).reqBit .hwp = true ∧
    (run step (boot potConfig quiet) (hotRun ++ [.req, .runTime, .req])).reqBit .hwp = false :=
  ⟨by decide +kernel, (panel_shut_off potConfig quiet (by decide) hotRun [.req, .runTime, .req] (by decide)
    (by decide +kernel) (by decide +kernel) (by decide)).1⟩

/-- Hot water is asked for, then cold water, whose target is reached. -/
def changeRun : List Event := [.panel 2 500, .req, .panel 1 500, .pulses 2000, .req]

/-- Ice water is asked for and its target reached. -/
def iceRun : List Event := [.panel 4 500, .req, .pulses 2000, .req]

/-- The target ends the demand and closes the cold outlet alone. `run_time_process` takes the hand-shake
before the next pass, and from then on the hot-water pump, or the ice tank's valve, stays open. -/
theorem panel_leaves_open : potConfig.InRange ∧ iceConfig.InRange ∧
    (let s := run step (boot potConfig quiet) changeRun
     s.cfg.waterMode = 0 ∧ s.cfg.waterFlow = 0 ∧ s.stor.status = false ∧
       (run step s [.runTime, .req, .req]).reqBit .hwp = true) ∧
    (let s := run step (boot iceConfig quiet) iceRun
     s.cfg.waterMode = 0 ∧ s.cfg.waterFlow = 0 ∧ s.stor.status = false ∧
       (run step s [.runTime, .req, .req]).reqBit .ev3 = true) :=
  ⟨by decide, by decide, ⟨by decide +kernel, by decide +kernel, by decide +kernel, by decide +kernel⟩,
    by decide +kernel, by decide +kernel, by decide +kernel, by decide +kernel⟩

end WM.Proof
