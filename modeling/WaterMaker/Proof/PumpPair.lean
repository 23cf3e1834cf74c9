import WaterMaker.Proof.Pumps

/-!
# Intake and outlet pump

Purification holds off while cold water runs, the lamp circulates only without purification, and a cold
dispense stops the purification pump. What is left is the closing delay: `Sterilize_req_exe` leaves the
dispensing pump alone while `u8CloseDelay` runs (`wp_sterilized`), and purification does not look at it.
`pumps_apart` says that in every run without such a pass (`lateClosing`) the two pumps are never requested
together; `pumps_together` is a run with one.
-/

namespace WM.Proof

open WM WM.Impl WM.Spec

section pass

variable (s : Sys)

/-- The pump circulates, unless the tank is filling, or a closing delay keeps it. -/
theorem wp_sterCirculate (h : (sterCirculate s).reqBit .wp = true) :
    s.pwp.opened = false ∧ (sterCirculate s).ster.sterilize = true ∨
      s.reqBit .wp = true ∧ (s.out.closeDelay ≠ 0 ∨ s.cold.bdTime ≠ 0) := by
  unfold sterCirculate at h ⊢
  split at h
  · rename_i hdue
    rw [if_pos hdue]
    refine .inl ⟨hdue.2, ?_⟩
    unfold closeEv2
    dsimp only
    split_ifs <;> rfl
  · dsimp only at h
    split at h
    · simp at h
    · rename_i hdelay
      exact .inr ⟨h, not_and_or.mp hdelay⟩

/-- A dispense takes the pump; the end of a circulation leaves it only to a valve-first closing. -/
theorem wp_sterEnd (h : (sterEnd s).reqBit .wp = true) : s.reqBit .wp = true ∧ s.out.flag ≠ .normalIce ∧
    ((sterEnd s).ster.sterilize = s.ster.sterilize ∨ s.cfg.pumpFirst = false ∧ s.out.closeDelay ≠ 0) := by
  have hset : ∀ f, (setSter f s).reqBit .wp = s.reqBit .wp := fun _ => rfl
  unfold sterEnd at h ⊢
  dsimp only at h ⊢
  split at h
  · simp at h
  · rename_i hflag
    rw [if_neg hflag]
    split at h
    · rename_i hover
      rw [if_pos hover]
      split at h
      · simp at h
      · rename_i hkeep
        rw [reqBit_reqBitmapOp, if_neg (by decide), hset] at h
        refine ⟨h, hflag, .inr ?_⟩
        simpa using hkeep
    · rename_i hover
      rw [if_neg hover]
      exact ⟨h, hflag, .inl rfl⟩

/-- After the lamp's program the pump runs for a circulation or in a closing delay. -/
theorem wp_sterilized (h : (sterilizeReqExe s).reqBit .wp = true) : s.out.flag ≠ .normalIce ∧
    (s.pwp.opened = false ∧ ((sterilizeReqExe s).ster.sterilize = true ∨
        s.cfg.pumpFirst = false ∧ s.out.closeDelay ≠ 0) ∨
      s.reqBit .wp = true ∧ (s.out.closeDelay ≠ 0 ∨ s.cold.bdTime ≠ 0)) := by
  have huv : ∀ on delay s, (uvReqExe on delay s).reqBit .wp = s.reqBit .wp ∧
      (uvReqExe on delay s).ster.sterilize = s.ster.sterilize := fun on delay s =>
    ⟨congrArg (fun d : Plumbing × Taps => d.2.wp) (dispense_uvReqExe s on delay),
      congrArg (fun d : Plumbing × Taps => d.1.circ) (dispense_uvReqExe s on delay)⟩
  have hev2 : ∀ s, (closeEv2 s).out = s.out ∧ (closeEv2 s).cfg = s.cfg := fun s => by
    unfold closeEv2
    split <;> exact ⟨rfl, rfl⟩
  have hkeep : ∀ s, (sterCirculate s).out = s.out ∧ (sterCirculate s).cfg = s.cfg := fun s => by
    unfold sterCirculate
    dsimp only
    split_ifs
    · exact hev2 _
    · exact hev2 _
    · exact ⟨rfl, rfl⟩
    · exact ⟨rfl, rfl⟩
  obtain ⟨he4, hair, hdl, hst⟩ := wp_guarded s h
  have hdl' : (getWaterLevel (setSter (fun t => { t with interval := (t.interval + 1) % 4294967296 }) s)).dL =
    true := hdl
  unfold sterilizeReqExe at h ⊢
  rw [if_neg (by rw [he4]; exact Bool.false_ne_true), if_neg (not_not.mpr hair)] at h ⊢
  dsimp only at h ⊢
  rw [hdl', if_neg (by decide), if_neg (by rw [setSter_stor, hst]; exact Bool.false_ne_true)] at h ⊢
  rw [(huv _ _ _).1] at h
  rw [(huv _ _ _).2]
  obtain ⟨hcirc, hflag, hend⟩ := wp_sterEnd _ h
  rw [(hkeep _).1] at hflag hend
  rw [(hkeep _).2] at hend
  refine ⟨hflag, (wp_sterCirculate _ hcirc).imp (fun ⟨hopen, hon⟩ => ⟨hopen, ?_⟩) id⟩
  exact hend.imp_left fun hsame => hsame.trans hon

/-- Plant, purification and ice water do not switch the dispensing pump. -/
theorem reqBit_beforeLamp_wp : (coldWaterExe (pwpReqExe (plantPass s))).reqBit .wp = s.reqBit .wp := by
  have h1 : (tapsOf (coldWaterExe (pwpReqExe (plantPass s)))).wp = (tapsOf (pwpReqExe (plantPass s))).wp :=
    congrArg (·.2.wp) (dispense_coldWaterExe _)
  have h2 : (tapsOf (pwpReqExe (plantPass s))).wp = (tapsOf (plantPass s)).wp :=
    congrArg (·.2.wp) (bypass_pwpReqExe (plantPass s))
  have h3 : (tapsOf (plantPass s)).wp = (tapsOf s).wp := congrArg (·.2.wp) (dispense_plantPass s)
  exact h1.trans (h2.trans h3)

/-- Up to dispensing both pumps are requested only in a late closing. -/
theorem lateClosing_of_prepared (hst : s.stor.status = false) (hbd : s.cold.bdTime = 0)
    (hpwp : (prepared s).reqBit .pwp = true) (hwp : (prepared s).reqBit .wp = true) : lateClosing s = true := by
  have hst' : (plantPass s).stor.status = false := by rw [plantPass_stor, hst]
  obtain ⟨hpur, hopen, -⟩ := purifies_of_pwp _ hst' (pwp_prepared s hpwp)
  have hkeep : ∀ s, (coldWaterExe s).pwp = s.pwp := fun s => ice_keeps s (fun _ _ => ⟨rfl, rfl⟩) fun _ _ _ => rfl
  have hout : (coldWaterExe (pwpReqExe (plantPass s))).out = s.out := congrArg (·.2.1) (keptView_beforeLamp s)
  have hbd' : (coldWaterExe (pwpReqExe (plantPass s))).cold.bdTime = s.cold.bdTime :=
    congrArg (·.2.2.1) (keptView_beforeLamp s)
  obtain ⟨hflag, ⟨hshut, -⟩ | ⟨hwp', hdelay⟩⟩ := wp_sterilized _ hwp
  · rw [hkeep, hopen] at hshut
    exact absurd hshut.symm Bool.false_ne_true
  rw [hout] at hflag hdelay
  rw [reqBit_beforeLamp_wp] at hwp'
  rw [hbd', hbd] at hdelay
  have hpur' : purifies s = true := by
    have h1 := reads_plantPass s
    simp only [purifies, pwpWanted, pwpRunning, plantPass_cfg, plantPass_out, plantPass_pwp,
      level_of_reads h1, alarmBit_of_reads h1] at hpur ⊢
    exact hpur
  have hdelay' : s.out.closeDelay ≠ 0 := hdelay.resolve_right fun h => h rfl
  simp only [lateClosing, hpur', hwp', bne_iff_ne.mpr hflag, bne_iff_ne.mpr hdelay', Bool.and_self]

/-- A pass outside of storage that is no late closing leaves at most one of the two pumps requested. -/
theorem pumps_apart_pass (hst : s.stor.status = false) (hsig : s.cfg.storage ≠ 1) (hbd : s.cold.bdTime = 0)
    (h : lateClosing s = false) :
    ¬((reqExecution s).reqBit .pwp = true ∧ (reqExecution s).reqBit .wp = true) := by
  rintro ⟨hpwp, hwp⟩
  have hshut := shuts_reqExecution s hst hsig
  have hpwp' := hshut.pwp hpwp
  rcases Taps.opened_wp (hshut.wp hwp) with hwp' | ⟨hair, n, i, hact⟩
  · have hlate := lateClosing_of_prepared s hst hbd (Taps.opened_pwp hpwp') hwp'
    exact absurd (h.symm.trans hlate) Bool.false_ne_true
  · -- a cold dispense from the machine's own tank stops purification
    rw [hact] at hpwp'
    have hoff : ((tapsOf (prepared s)).count.serveCold (plumbingOf (prepared s)) n i).pwp = false :=
      Taps.serveCold_pwp_air hair
    exact absurd (hoff.symm.trans hpwp') Bool.false_ne_true

end pass

/-! ## Runs -/

theorem bdTime_reqExecution (s : Sys) : (reqExecution s).cold.bdTime = s.cold.bdTime := by
  have hstor : ∀ s, (storageExe s).cold = s.cold := StorFrame.storageExe
    ⟨fun _ _ => rfl, fun _ _ => rfl, fun _ _ => rfl, fun _ _ => rfl, fun _ _ => rfl, fun _ _ => rfl,
      fun _ => rfl, fun _ _ _ => rfl⟩
  have hres : ∀ s, (restartDisExe s).cold.bdTime = s.cold.bdTime := fun s =>
    congrArg (·.2.2.1) (keptView_restartDisExe s)
  have hdef : ∀ s, (defrostReqExe s).cold.bdTime = s.cold.bdTime := fun s =>
    congrArg (·.2.2.1) (keptView_defrostReqExe s)
  have hout : (waterOutReqExe (prepared s)).cold = (prepared s).cold :=
    congrArg (·.2.1) (outFrame_rest.waterOutReqExe (fun _ _ => rfl) (prepared s))
  have hprep : (prepared s).cold.bdTime = s.cold.bdTime := congrArg (·.2.2.1) (keptView_prepared s)
  rw [reqExecution_eq_finish, finish, hres, hstor, hdef, hout, hprep]

/-- The ice tank's clock is not set in this build: it never leaves 0. -/
theorem bdTime_step {s : Sys} {e : Event} (h : s.cold.bdTime = 0) : (step s e).cold.bdTime = 0 := by
  cases e with
  | req => exact (bdTime_reqExecution s).trans h
  | core =>
    have h1 := congrArg (·.cold.bdTime) (alarmView_alarmAclExe s)
    have h2 := congrArg (·.cold.bdTime) (outputView_ocUpdate (reqExecution (alarmAclExe s)))
    exact h2.trans ((bdTime_reqExecution _).trans (h1.trans h))
  | waterOut =>
    have h1 := congrArg (·.2.1.bdTime) (outFrame_rest.waterOutReqExe (fun _ _ => rfl) s)
    exact h1.trans h
  | cooldown =>
    have h1 : (step s .cooldown).cold.bdTime = s.cold.bdTime - 1 := rfl
    omega
  | runTime =>
    have h1 := congrArg (·.cold.bdTime) (counterView_runTimeProcess s)
    exact h1.trans h
  | runningMode =>
    have h1 := congrArg (·.cold.bdTime) (modeView_sysRunningModeUpdate s)
    exact h1.trans h
  | _ => exact h

/-- The two pumps are never requested together, in every run without a late closing. -/
theorem pumps_apart (c : Config) (i : Inputs) (es : List Event) (h : Along step Timely (boot c i) es) :
    Along step PumpsApart (boot c i) es := by
  have hbd := h.and_inv (I := fun s => s.cold.bdTime = 0) (fun _ _ hs _ => bdTime_step hs) rfl
  refine hbd.mono fun s e hs => ?_
  obtain ⟨hc, hbd⟩ := hs
  cases e with
  | req => exact pumps_apart_pass s hc.1 hc.2.1 hbd hc.2.2
  | _ => trivial

/-- Water between the middle and the upper switch of the source tank. -/
def filling : Inputs := { quiet with din := 0x1074 }

/-- Purification gives way to a cold dispense: either pump is requested in turn. -/
theorem pumps_apart_inTurn :
    let es := [.req, .panel 1 500, .req]
    Along step PumpsApart (boot defaultConfig.powerOn filling) es ∧
      (run step (boot defaultConfig.powerOn filling) [.req]).reqBit .pwp = true ∧
      (run step (boot defaultConfig.powerOn filling) es).reqBit .wp = true :=
  ⟨pumps_apart defaultConfig.powerOn filling [.req, .panel 1 500, .req] (by decide +kernel),
    by decide +kernel⟩

/-- The valve closes ten seconds before the pump, and the lamp's water circulates every minute. -/
def valveFirst : Config := { defaultConfig with closeFrist := 1, closeDelay := 10, sterilizeInterval := 1 }

/-- A cold dispense ends when a circulation is due, and then the source tank fills up. -/
def lateRun : List Event :=
  List.replicate 118 .req ++ [.panel 1 500, .req, .panel 0 0, .req, .req, .inputs filling, .req]

set_option maxRecDepth 100000 in
/-- The closing delay keeps the pump that circulated, and purification starts beside it. -/
theorem pumps_together : valveFirst.InRange ∧
    (run step (boot valveFirst.powerOn quiet) lateRun).stor.status = false ∧
    (run step (boot valveFirst.powerOn quiet) lateRun).reqBit .pwp = true ∧
    (run step (boot valveFirst.powerOn quiet) lateRun).reqBit .wp = true := by
  exact ⟨by decide, by decide +kernel⟩

end WM.Proof
