import WaterMaker.Proof.Taps
import WaterMaker.Proof.Quiet

/-!
# The water path around dispensing

A pass of `req_execution` prepares the water path (`prepared`: plant, purification, ice water and lamp),
dispenses and finishes (`finish`: defrosting, storage and the display). Levels and alarms stay as they are
(`reads_prepared`); a demand is served only with water and with the case closed (`serves_of_ne_close`).
Purification switches its own pump (`bypass_pwpReqExe`), the lamp's program closes and starts the dispensing
pump only to circulate (`eases_sterilizeReqExe`), and without a storage demand the end of the pass only closes
(`eases_finish`).
-/

namespace WM.Proof

open WM WM.Impl WM.Spec

/-- The pass up to `WaterOut_req_exe`. -/
def prepared (s : Sys) : Sys := s |> plantPass |> pwpReqExe |> coldWaterExe |> sterilizeReqExe

/-- The pass behind it. -/
def finish (s : Sys) : Sys := s |> defrostReqExe |> storageExe |> restartDisExe

theorem reqExecution_eq_finish (s : Sys) : reqExecution s = finish (waterOutReqExe (prepared s)) := rfl

/-! ## What is read -/

/-- The float switches and the alarms. -/
def reads (s : Sys) : WaterLevel × Words := (getWaterLevel s, s.sts.alarm)

theorem reads_of_plantView {s s' : Sys} (h : plantView s' = plantView s) : reads s' = reads s := by
  have hinp : s'.inp = s.inp := congrArg (·.1.inp) h
  have hmask : s'.cfg.maskDin = s.cfg.maskDin := congrArg (·.1.cfg.maskDin) h
  have halarm : s'.sts.alarm = s.sts.alarm := congrArg (·.1.sts.alarm) h
  simp only [reads, getWaterLevel, Sys.diSts, hinp, hmask, halarm]

section reads

variable (s : Sys)

theorem reads_plantPass : reads (plantPass s) = reads s := by
  have hinp := plantPass_inp s
  simp only [reads, getWaterLevel, Sys.diSts, hinp, plantPass_cfg, plantPass_sts]

theorem reads_beforeLamp : reads (coldWaterExe (pwpReqExe (plantPass s))) = reads s := by
  rw [reads_of_plantView (plantView_coldWaterExe _), reads_of_plantView (plantView_pwpReqExe _),
    reads_plantPass]

theorem reads_prepared : reads (prepared s) = reads s :=
  (reads_of_plantView (plantView_sterilizeReqExe _)).trans (reads_beforeLamp s)

end reads

theorem alarmBit_of_reads {s s' : Sys} (h : reads s' = reads s) (a : Acl) : s'.alarmBit a = s.alarmBit a :=
  congrArg (·.2.get a.id) h

theorem level_of_reads {s s' : Sys} (h : reads s' = reads s) : getWaterLevel s' = getWaterLevel s :=
  congrArg Prod.fst h

/-! ## Plant and purification -/

section purification

variable (s : Sys)

theorem dispense_plantPass : dispense (plantPass s) = dispense s := by
  have hbit : ∀ b, plantBit b = false → (plantPass s).reqBit b = s.reqBit b := fun b h => reqBit_plantPass s h
  have hev2 : (plantPass s).tmo.ev2 = s.tmo.ev2 := congrArg (·.1.tmo.ev2) (waterView_plantPass s)
  simp only [dispense, plumbingOf, tapsOf, plantPass_cfg, plantPass_out, plantPass_ster, hev2,
    hbit .wp rfl, hbit .hwp rfl, hbit .pwp rfl, hbit .ev2 rfl, hbit .ev3 rfl]

/-- Pumps and valves without what purification switches: its pump and the water source. -/
def bypass (s : Sys) : Plumbing × Taps := ({ plumbingOf s with air := false }, { tapsOf s with pwp := false })

theorem dispense_of_bypass {s s' : Sys} (h : bypass s' = bypass s) : dispense s' =
    ({ plumbingOf s with air := s'.cfg.exitWater = .air }, { tapsOf s with pwp := s'.reqBit .pwp }) :=
  congrArg (fun d : Plumbing × Taps => ({ d.1 with air := decide (s'.cfg.exitWater = WaterSource.air) },
    { d.2 with pwp := s'.reqBit .pwp })) h

theorem bypass_reqBitmapOp {b : Do} (h : tapBit b = false ∨ b = .pwp) (on : Bool) :
    bypass (reqBitmapOp b on s) = bypass s := by
  rcases h with h | rfl
  · rw [bypass, tapsOf_reqBitmapOp s on h]
    rfl
  · rw [bypass, tapsOf_pwp]
    rfl

/-- `Pwp_req_exe` switches its pump and the water source. -/
theorem bypass_pwpReqExe : bypass (pwpReqExe s) = bypass s := by
  have hreq : ∀ on s, bypass (reqBitmapOp .pwp on s) = bypass s ∧ bypass (reqBitmapOp .ev1 on s) = bypass s ∧
      bypass (reqBitmapOp .fv on s) = bypass s := fun on s =>
    ⟨bypass_reqBitmapOp s (.inr rfl) on, bypass_reqBitmapOp s (.inl rfl) on, bypass_reqBitmapOp s (.inl rfl) on⟩
  exact pwp_keeps s (fun _ _ => rfl) hreq (fun _ => ⟨rfl, rfl⟩) fun _ _ _ => rfl

theorem pwpExternal_pwp (wl : WaterLevel) : (pwpExternal wl s).reqBit .pwp = false := by
  have hop : (pwpOp false s).reqBit .pwp = false := by simp [pwpOp]
  have hfill : ∀ s, (pwpFill wl s).reqBit .pwp = s.reqBit .pwp := fun s => by
    have hcfg : ∀ f s, (setCfg f s).reqBit .pwp = s.reqBit .pwp := fun _ _ => rfl
    have hreg : ∀ n v s, (writeReg n v s).reqBit .pwp = s.reqBit .pwp := fun _ _ _ => rfl
    simp [pwpFill, hcfg, hreg, apply_ite (Sys.reqBit · .pwp)]
  unfold pwpExternal
  dsimp only
  split
  · rw [hfill, hop]
  · exact hop

/-- Purification's pump is requested together with `Pwp_Open`, on the machine's own water. -/
theorem purifies_of_pwp (hst : s.stor.status = false) (h : (pwpReqExe s).reqBit .pwp = true) :
    purifies s = true ∧ (pwpReqExe s).pwp.opened = true ∧ (pwpReqExe s).cfg.exitWater = .air := by
  have hop : ∀ on s, (pwpOp on s).reqBit .pwp = on := fun on s => by simp [pwpOp]
  unfold pwpReqExe at h ⊢
  rw [if_neg (by rw [hst]; exact Bool.false_ne_true)] at h ⊢
  split at h
  · rw [pwpExternal_pwp] at h
    exact absurd h Bool.false_ne_true
  · rename_i hair
    rw [if_neg hair]
    unfold pwpSwitch at h ⊢
    split at h
    · rename_i hwant
      rw [hop] at h
      rw [if_pos hwant]
      refine ⟨?_, h, not_not.mp hair⟩
      have hair' : (s.cfg.exitWater == .air) = true := beq_iff_eq.mpr (not_not.mp hair)
      rw [purifies, hair', h, Bool.true_and, Bool.and_true]
      exact hwant
    · rw [hop] at h
      exact absurd h Bool.false_ne_true

/-- The purification pump runs on the machine's own water, with the source tank above `S_L` or `S_M` and
an open filter. -/
theorem pwp_guarded (hst : s.stor.status = false) (h : (pwpReqExe s).reqBit .pwp = true) :
    ((getWaterLevel s).sL = true ∨ (getWaterLevel s).sM = true) ∧ (pwpReqExe s).cfg.exitWater = .air ∧
      s.alarmBit .e9 = false := by
  obtain ⟨hpur, -, hair⟩ := purifies_of_pwp s hst h
  simp only [purifies, pwpWanted, pwpRunning, Bool.and_eq_true, Bool.or_eq_true, Bool.not_eq_true'] at hpur
  obtain ⟨⟨-, hwant⟩, hlevel⟩ := hpur
  refine ⟨hlevel.symm, hair, ?_⟩
  rcases hwant with hw | hr
  · exact hw.1.2
  · exact hr.2

end purification

/-! ## Ice water and the lamp -/

section lamp

variable (s : Sys)

theorem dispense_coldWaterExe : dispense (coldWaterExe s) = dispense s :=
  ice_keeps s (fun on s => ⟨dispense_reqBitmapOp s rfl on, dispense_reqBitmapOp s rfl on⟩) fun _ _ _ => rfl

theorem eases_of_dispense {s : Sys} {p : Plumbing} {t t' : Taps} (hd : dispense s = (p, t'))
    (h : Taps.Eases p t t') : Taps.Eases (plumbingOf s) t (tapsOf s) := by
  cases hd
  exact h

/-- Circulation opens the pump and closes the outlets. -/
theorem eases_sterCirculate :
    Taps.Eases (plumbingOf (sterCirculate s)) (tapsOf s) (tapsOf (sterCirculate s)) := by
  have hev1 : Acts (reqBitmapOp .ev1 true) fun _ t => t := fun s => dispense_reqBitmapOp s rfl true
  have hev4 : Acts (reqBitmapOp .ev4 false) fun _ t => t := fun s => dispense_reqBitmapOp s rfl false
  unfold sterCirculate
  dsimp only
  split
  · have hd : dispense (setSter (fun t => { t with time := (t.time + 1) % 65536, sterilize := true }) s) =
      ({ plumbingOf s with circ := true }, tapsOf s) := rfl
    have hon := acts_closeEv2.after (hev1.after ((acts_wp true).after hd))
    have hice := (Acts.when (fun p _ => p.iceTank) ((acts_ev3 false).comp hev4)).after hon
    refine eases_of_dispense hice ?_
    split_ifs <;> exact ⟨rfl, fun _ => .inr (.inl rfl), id, by first | exact id | exact nofun, by simp⟩
  · have hd : dispense (setSter (fun t => { t with sterilize := false }) s) =
      ({ plumbingOf s with circ := false }, tapsOf s) := rfl
    split
    · exact eases_of_dispense ((acts_wp false).after hd) ⟨rfl, nofun, id, id, id⟩
    · exact eases_of_dispense hd (.refl _)

/-- The end of a circulation. -/
theorem eases_sterEnd {t : Taps} (h : Taps.Eases (plumbingOf s) t (tapsOf s)) :
    Taps.Eases (plumbingOf (sterEnd s)) t (tapsOf (sterEnd s)) := by
  have hev1 : Acts (reqBitmapOp .ev1 false) fun _ t => t := fun s => dispense_reqBitmapOp s rfl false
  unfold sterEnd
  split
  · exact eases_of_dispense (hev1.after (acts_wp false s)) ⟨h.held, nofun, h.pwp, h.ev2, h.ev3⟩
  · split
    · have hd : dispense (setSter (fun t => { t with interval := 0, time := 0, sterilize := false }) s) =
        ({ plumbingOf s with circ := false }, tapsOf s) := rfl
      have hoff := hev1.after ((Acts.when (fun p t => p.pumpFirst || t.closeDelay = 0) (acts_wp false)).after hd)
      refine eases_of_dispense hoff ?_
      split_ifs with hw
      · exact ⟨h.held, nofun, h.pwp, h.ev2, h.ev3⟩
      · simp only [Bool.or_eq_true, decide_eq_true_eq, not_or, Bool.not_eq_true] at hw
        refine ⟨h.held, fun _ => .inr (.inr ⟨hw.1, ?_⟩), h.pwp, h.ev2, h.ev3⟩
        rw [← h.closeDelay]
        exact hw.2
    · exact h

/-- The lamp's program closes, and starts the dispensing pump only to circulate. -/
theorem eases_sterilizeReqExe :
    Taps.Eases (plumbingOf (sterilizeReqExe s)) (tapsOf s) (tapsOf (sterilizeReqExe s)) := by
  have huv : ∀ on delay, Acts (uvReqExe on delay) fun _ t => t := fun on delay s => dispense_uvReqExe s on delay
  have hev1 : Acts (reqBitmapOp .ev1 false) fun _ t => t := fun s => dispense_reqBitmapOp s rfl false
  have hint : dispense (setSter (fun t => { t with interval := (t.interval + 1) % 4294967296 }) s) =
    (plumbingOf s, tapsOf s) := rfl
  have hzero : Acts (setSter fun t => { t with interval := 0, time := 0 }) fun _ t => t := fun _ => rfl
  unfold sterilizeReqExe
  dsimp only
  split
  · exact eases_of_dispense ((acts_ev2 false).after ((acts_wp false).after (huv false false s)))
      ⟨rfl, nofun, id, nofun, id⟩
  split
  · exact eases_of_dispense ((acts_wp false).after (acts_pwp false s)) ⟨rfl, nofun, nofun, id, id⟩
  split
  · exact eases_of_dispense ((acts_wp false).after hint) ⟨rfl, nofun, id, id, id⟩
  split
  · exact eases_of_dispense (hev1.after ((acts_wp false).after (hzero.after hint))) ⟨rfl, nofun, id, id, id⟩
  · have hcirc := eases_sterEnd _ (eases_sterCirculate
      (setSter (fun t => { t with interval := (t.interval + 1) % 4294967296 }) s))
    exact eases_of_dispense (huv _ true _) hcirc

/-- After the lamp's program the dispensing pump runs only with the case closed, on the machine's own
water and above `D_L`. -/
theorem wp_guarded (h : (sterilizeReqExe s).reqBit .wp = true) : s.alarmBit .e4 = false ∧
    s.cfg.exitWater = .air ∧ (getWaterLevel s).dL = true ∧ s.stor.status = false := by
  unfold sterilizeReqExe at h
  dsimp only at h
  split at h
  · simp at h
  rename_i he4
  split at h
  · simp at h
  rename_i hair
  split at h
  · simp at h
  rename_i hdl
  split at h
  · simp at h
  rename_i hst
  simp only [Bool.not_eq_true', Bool.not_eq_false] at hdl
  exact ⟨Bool.eq_false_iff.mpr he4, not_not.mp hair, hdl, Bool.eq_false_iff.mpr hst⟩

/-- An open case closes the outlet valve. -/
theorem ev2_guarded (h : s.alarmBit .e4 = true) : (sterilizeReqExe s).reqBit .ev2 = false := by
  unfold sterilizeReqExe
  rw [if_pos h]
  simp

end lamp

/-! ## What the parts of a pass keep -/

/-- The storage program, the dispense with its demand and the clock of the ice tank. -/
def keptView (s : Sys) : StorSt × OutSt × Nat × Nat × Nat × Nat :=
  (s.stor, s.out, s.cold.bdTime, s.cfg.storage, s.cfg.waterMode, s.cfg.waterFlow)

section kept

variable (s : Sys)

theorem keptView_pwpReqExe : keptView (pwpReqExe s) = keptView s :=
  pwp_keeps s (fun _ _ => rfl) (fun _ _ => ⟨rfl, rfl, rfl⟩) (fun _ => ⟨rfl, rfl⟩) fun _ _ _ => rfl

theorem keptView_beforeLamp : keptView (coldWaterExe (pwpReqExe (plantPass s))) = keptView s := by
  have hplant : keptView (plantPass s) = keptView s := by
    simp only [keptView, plantPass_stor, plantPass_out, plantPass_cold, plantPass_cfg]
  have hcold : ∀ (f : ColdSt → ColdSt) s, (∀ c, (f c).bdTime = c.bdTime) → keptView (setCold f s) = keptView s :=
    fun f s h => by simp only [keptView, setCold, h]
  have hice : ∀ s, keptView (coldWaterExe s) = keptView s := fun s => ice_keeps s (fun _ _ => ⟨rfl, rfl⟩) hcold
  rw [hice, keptView_pwpReqExe, hplant]

theorem keptView_prepared : keptView (prepared s) = keptView s := by
  have hlamp : ∀ s, keptView (sterilizeReqExe s) = keptView s := fun s =>
    lamp_keeps s (fun _ _ _ _ => rfl) fun _ _ => rfl
  exact (hlamp _).trans (keptView_beforeLamp s)

/-- The registers pass the ice water and the lamp untouched. -/
theorem cfg_coldWaterExe : (coldWaterExe s).cfg = s.cfg := ice_keeps s (fun _ _ => ⟨rfl, rfl⟩) fun _ _ _ => rfl

theorem cfg_sterilizeReqExe : (sterilizeReqExe s).cfg = s.cfg := lamp_keeps s (fun _ _ _ _ => rfl) fun _ _ => rfl

theorem cfg_prepared : (prepared s).cfg = (pwpReqExe (plantPass s)).cfg :=
  (cfg_sterilizeReqExe _).trans (cfg_coldWaterExe _)

/-- Dispensing keeps everything but itself. -/
theorem outFrame_rest : OutFrame fun s => (s.stor, s.cold, s.pwp, s.ster.sterilize, s.cfg.setWater 0 0) where
  out _ _ _ := rfl
  ster _ _ := rfl
  tmo _ _ _ := rfl
  cfg f s h := by simp only [setCfg, h]
  sts _ _ _ := rfl
  req _ _ _ _ := rfl
  first _ := rfl

/-- Behind the storage program nothing but the display is touched. -/
theorem keptView_restartDisExe : keptView (restartDisExe s) = keptView s :=
  restart_keeps s (fun _ _ => rfl) (fun _ _ => rfl) fun _ => rfl

theorem keptView_defrostReqExe : keptView (defrostReqExe s) = keptView s := defrost_keeps s fun _ _ _ => rfl

theorem plantView_prepared : plantView (prepared s) = plantView (plantPass s) :=
  (plantView_sterilizeReqExe _).trans ((plantView_coldWaterExe _).trans (plantView_pwpReqExe _))

theorem inp_prepared : (prepared s).inp = s.inp := by
  have h : (prepared s).inp = (plantPass s).inp := congrArg (·.1.inp) (plantView_prepared s)
  rw [h, plantPass_inp]

theorem plantCfg_prepared : plantCfg (prepared s).cfg = plantCfg s.cfg := by
  have h : plantCfg (prepared s).cfg = plantCfg (plantPass s).cfg := congrArg (·.1.cfg) (plantView_prepared s)
  rw [h, plantPass_cfg]

/-- How pumps and valves are built and set up is the same for the whole pass. -/
theorem setup_prepared : (plumbingOf (prepared s)).delay = (plumbingOf s).delay ∧
    (plumbingOf (prepared s)).pumpFirst = (plumbingOf s).pumpFirst ∧
    (plumbingOf (prepared s)).iceTank = (plumbingOf s).iceTank ∧
    (plumbingOf (prepared s)).iceValve = (plumbingOf s).iceValve := by
  have h := plantCfg_prepared s
  have h1 := congrArg Config.closeDelay h
  have h2 := congrArg Config.pumpFirst h
  have h3 := congrArg Config.bdIce h
  have h4 := congrArg iceValve h
  exact ⟨h1, h2, h3, h4⟩

theorem hmiKey_prepared : (prepared s).cfg.hmiKey = s.cfg.hmiKey := by
  have h := congrArg Config.hmiKey (plantCfg_prepared s)
  exact h

/-- Up to dispensing a pass switches purification's pump and eases the rest. -/
theorem eases_prepared : ∃ b, Taps.Eases (plumbingOf (prepared s)) { tapsOf s with pwp := b }
    (tapsOf (prepared s)) := by
  have hplant : tapsOf (plantPass s) = tapsOf s := congrArg Prod.snd (dispense_plantPass s)
  have hpwp : tapsOf (pwpReqExe (plantPass s)) =
      { tapsOf (plantPass s) with pwp := (pwpReqExe (plantPass s)).reqBit .pwp } :=
    congrArg Prod.snd (dispense_of_bypass (bypass_pwpReqExe (plantPass s)))
  have hcold : tapsOf (coldWaterExe (pwpReqExe (plantPass s))) = tapsOf (pwpReqExe (plantPass s)) :=
    congrArg Prod.snd (dispense_coldWaterExe _)
  have he := eases_sterilizeReqExe (coldWaterExe (pwpReqExe (plantPass s)))
  rw [hcold, hpwp, hplant] at he
  exact ⟨_, he⟩

end kept

/-! ## When a demand is served -/

section keys

variable (s : Sys)

theorem cfg_readKeys : (readKeys s).cfg = s.cfg := keys_keep s (fun _ _ _ => rfl) fun _ _ => ⟨rfl, rfl⟩

theorem reads_readKeys : reads (readKeys s) = reads s := keys_keep s (fun _ _ _ => rfl) fun _ _ => ⟨rfl, rfl⟩

/-- An action other than closing serves a demand, with water and with the case closed. -/
theorem serves_of_ne_close (h : actOf s ≠ .close) : waterDemand (readKeys s) = true ∧
    waterOutLevel s = true ∧ s.alarmBit .e4 = false ∧ actOf s = actServe (readKeys s) := by
  have hlevel : waterOutLevel (readKeys s) = waterOutLevel s := by
    simp only [waterOutLevel, cfg_readKeys, level_of_reads (reads_readKeys s)]
  have he4 : (readKeys s).alarmBit .e4 = s.alarmBit .e4 := alarmBit_of_reads (reads_readKeys s) .e4
  unfold actOf at h ⊢
  dsimp only at h ⊢
  split at h
  · exact absurd rfl h
  · rename_i hc
    rw [if_neg hc]
    simp only [Bool.or_eq_true, Bool.not_eq_true', not_or, Bool.not_eq_false, Bool.not_eq_true] at hc
    exact ⟨hc.1.1, hlevel ▸ hc.1.2, he4 ▸ hc.2, rfl⟩

theorem dialogueOk_cases (o : OutSt) : dialogueOk o = .read ∨ dialogueOk o = .send ∨ dialogueOk o = o.ok := by
  unfold dialogueOk
  split_ifs
  · exact .inl rfl
  · exact .inr (.inl rfl)
  · exact .inr (.inr rfl)

/-- The heater's dialogue starts from the hand-shake as it stands. -/
theorem talks_actServe : (tapsOf s).talks (actServe s) := by
  unfold actServe actInstant actPot actCold
  split_ifs
  case neg =>
    rcases dialogueOk_cases (heatMetered s).out with hd | hd | hd
    · exact .inl hd
    · exact .inr (.inl hd)
    · exact .inr (.inr (hd.trans (asked_heatMetered s).2.2))
  all_goals trivial

theorem talks_actOf : (tapsOf s).talks (actOf s) := by
  have htaps : tapsOf (readKeys s) = tapsOf s := congrArg Prod.snd (dispense_readKeys s)
  have hserve := talks_actServe (readKeys s)
  rw [htaps] at hserve
  unfold actOf
  dsimp only
  split
  · trivial
  · exact hserve

/-- Cold water is served above `D_L`, unless it comes from an external source, and with the case closed. -/
theorem serves_cold {n i : Bool} (h : actOf s = .cold n i) :
    (s.cfg.exitWater = .air → (getWaterLevel s).dL = true) ∧ s.alarmBit .e4 = false := by
  obtain ⟨-, hlevel, he4, -⟩ := serves_of_ne_close s (by rw [h]; exact Act.noConfusion)
  refine ⟨fun hair => ?_, he4⟩
  simpa [waterOutLevel, hair] using hlevel

end keys

/-! ## The end of the pass -/

section finish

variable (s : Sys)

theorem dispense_defrostReqExe : dispense (defrostReqExe s) = dispense s := defrost_keeps s fun _ _ _ => rfl

theorem dispense_restartDisExe : dispense (restartDisExe s) = dispense s :=
  restart_keeps s (fun _ _ => rfl) (fun on s => dispense_reqBitmapOp s rfl on) fun _ => rfl

/-- What the storage program keeps: dispensing and its registers. -/
def outView (s : Sys) : Plumbing × OutSt := (plumbingOf s, s.out)

theorem outView_storageExe : outView (storageExe s) = outView s :=
  StorFrame.storageExe ⟨fun _ _ => rfl, fun _ _ => rfl, fun _ _ => rfl, fun _ _ => rfl, fun _ _ => rfl,
    fun _ _ => rfl, fun _ => rfl, fun _ _ _ => rfl⟩ s

/-- Without a demand the storage program is left. -/
theorem storageExe_off (h : s.storageSignal = false) :
    (storageExe s).stor.status = false ∧ (storageExe s).storageSignal = false := by
  unfold storageExe storageFsm
  rw [h]
  cases hf : s.stor.fsm <;> simp only [setStor_stor, hf, Bool.false_and, Bool.false_eq_true, if_false] <;>
    refine ⟨?_, ?_⟩ <;> trivial

theorem acts_storOne (on : Bool) : Acts (storOne on) fun _ t => { t with pwp := on } := by
  have hev1 : Acts (reqBitmapOp .ev1 on) fun _ t => t := fun s => dispense_reqBitmapOp s rfl on
  exact (acts_pwp on).comp hev1

theorem acts_storTwo (on : Bool) : Acts (storTwo on) fun _ t => { t with wp := on, ev2 := on } :=
  (acts_ev2 on).comp (acts_wp on)

/-- A storage program that is not demanded is left, and what it had opened is closed. -/
theorem eases_storageExe (h : s.storageSignal = false) (p : Plumbing) :
    Taps.Eases p (tapsOf s) (tapsOf (storageExe s)) := by
  have hcancel : Acts storCancel fun _ t => t := fun _ => rfl
  have hst : dispense (setStor (fun t => { t with status := false }) s) = (plumbingOf s, tapsOf s) := rfl
  have hone := hcancel.after ((acts_storOne false).after hst)
  have htwo := hcancel.after ((acts_storTwo false).after hst)
  unfold storageExe storageFsm
  rw [h]
  cases hf : s.stor.fsm <;> simp only [setStor_stor, hf, Bool.false_and, Bool.false_eq_true, if_false]
  · exact .refl _
  · rw [show tapsOf _ = _ from congrArg Prod.snd hone]
    exact ⟨rfl, .inl, nofun, id, id⟩
  · rw [show tapsOf _ = _ from congrArg Prod.snd htwo]
    exact ⟨rfl, nofun, id, nofun, id⟩
  all_goals exact .refl _

theorem outView_of_kept {s s' : Sys} (hd : dispense s' = dispense s) (hk : keptView s' = keptView s) :
    outView s' = outView s := by
  have hp : plumbingOf s' = plumbingOf s := congrArg Prod.fst hd
  have ho : s'.out = s.out := congrArg (·.2.1) hk
  rw [outView, hp, ho]
  rfl

theorem outView_finish : outView (finish s) = outView s := by
  unfold finish
  rw [outView_of_kept (dispense_restartDisExe _) (keptView_restartDisExe _), outView_storageExe,
    outView_of_kept (dispense_defrostReqExe s) (keptView_defrostReqExe s)]

theorem plumbingOf_finish : plumbingOf (finish s) = plumbingOf s := congrArg Prod.fst (outView_finish s)

/-- Without a demand the pass ends outside of storage. -/
theorem finish_off (h : s.storageSignal = false) :
    (finish s).stor.status = false ∧ (finish s).storageSignal = false := by
  have hsig : (defrostReqExe s).cfg.storage = s.cfg.storage := congrArg (·.2.2.2.1) (keptView_defrostReqExe s)
  obtain ⟨h1, h2⟩ := storageExe_off (defrostReqExe s)
    (show ((defrostReqExe s).cfg.storage == 1) = false from hsig ▸ h)
  have hres := keptView_restartDisExe (storageExe (defrostReqExe s))
  have hst : (finish s).stor.status = _ := congrArg (·.1.status) hres
  have hsto : (finish s).cfg.storage = _ := congrArg (·.2.2.2.1) hres
  refine ⟨hst.trans h1, ?_⟩
  unfold Sys.storageSignal
  rw [hsto]
  exact h2

theorem eases_finish (h : s.storageSignal = false) (p : Plumbing) :
    Taps.Eases p (tapsOf s) (tapsOf (finish s)) := by
  have hdef : tapsOf (defrostReqExe s) = tapsOf s := congrArg Prod.snd (dispense_defrostReqExe s)
  have hres : ∀ s, tapsOf (restartDisExe s) = tapsOf s := fun s => congrArg Prod.snd (dispense_restartDisExe s)
  have hsig : (defrostReqExe s).cfg.storage = s.cfg.storage := congrArg (·.2.2.2.1) (keptView_defrostReqExe s)
  have he := eases_storageExe (defrostReqExe s)
    (show ((defrostReqExe s).cfg.storage == 1) = false from hsig ▸ h) p
  rw [hdef] at he
  unfold finish
  rw [hres]
  exact he

end finish

/-! ## The whole pass -/

section whole

variable (s : Sys)

theorem storageSignal_dispensed (h : s.cfg.storage ≠ 1) : (waterOutReqExe (prepared s)).storageSignal = false := by
  have h1 : (waterOutReqExe (prepared s)).cfg.storage = (prepared s).cfg.storage :=
    congrArg (·.2.2.2.2.storage) (outFrame_rest.waterOutReqExe (fun _ _ => rfl) (prepared s))
  have h2 : (prepared s).cfg.storage = s.cfg.storage := congrArg (·.2.2.2.1) (keptView_prepared s)
  unfold Sys.storageSignal
  rw [h1, h2]
  exact beq_false_of_ne h

/-- Outside of storage a pass dispenses. -/
theorem tapsOf_dispensed (h : s.stor.status = false) : tapsOf (waterOutReqExe (prepared s)) =
    (tapsOf (prepared s)).pass (plumbingOf (prepared s)) (actOf (prepared s)) := by
  have hown : (prepared s).stor.status = false := (congrArg (·.1.status) (keptView_prepared s)).trans h
  have hd := dispense_waterOutReqExe (prepared s)
  rw [if_neg (by rw [hown]; exact Bool.false_ne_true)] at hd
  exact congrArg Prod.snd hd

theorem plumbingOf_reqExecution : plumbingOf (reqExecution s) = plumbingOf (prepared s) := by
  rw [reqExecution_eq_finish, plumbingOf_finish]
  exact congrArg Prod.fst (dispense_waterOutReqExe (prepared s))

theorem hmiKey_reqExecution : (reqExecution s).cfg.hmiKey = s.cfg.hmiKey := by
  have h := plantCfg_waterPass (plantPass s)
  rw [plantPass_cfg] at h
  have hkey := congrArg Config.hmiKey h
  exact hkey

/-- The water source after a pass is the one that purification left. -/
theorem exitWater_reqExecution : (reqExecution s).cfg.exitWater = .air ↔
    (pwpReqExe (plantPass s)).cfg.exitWater = .air := by
  have h := congrArg Plumbing.air (plumbingOf_reqExecution s)
  rw [← cfg_prepared]
  exact decide_eq_decide.mp h

end whole

/-! ## Runs -/

/-- The water path with its inputs and registers. -/
def waterSide (s : Sys) : Plumbing × Taps × StorSt × OutSt × Config × Inputs :=
  (plumbingOf s, tapsOf s, s.stor, s.out, s.cfg, s.inp)

/-- A pass of the core thread is one of `req_execution`, for the water path. -/
theorem pass_cases {s : Sys} {e : Event} (he : isPass e = true) :
    ∃ s', waterSide s' = waterSide s ∧ waterSide (step s e) = waterSide (reqExecution s') := by
  cases e with
  | req => exact ⟨s, rfl, rfl⟩
  | core =>
    have h1 := congrArg waterSide (alarmView_alarmAclExe s)
    have h2 := congrArg waterSide (outputView_ocUpdate (reqExecution (alarmAclExe s)))
    exact ⟨alarmAclExe s, h1, h2⟩
  | _ => exact absurd he Bool.false_ne_true

/-- What stays as it is between the passes. -/
def calmView (s : Sys) : Plumbing × StorSt × BitVec 8 × Nat × Bool × Bool :=
  (plumbingOf s, s.stor, s.out.key, s.cfg.storage, s.cfg.hmiKey, s.cfg.twoCold)

theorem calmView_step {s : Sys} {e : Event} (he : between e = true) : calmView (step s e) = calmView s := by
  cases e with
  | runTime =>
    have h := congrArg calmView (counterView_runTimeProcess s)
    exact h
  | runningMode =>
    have h := congrArg calmView (modeView_sysRunningModeUpdate s)
    exact h
  | cooldown | clearAlarm | inputs _ | pulses _ | heater _ _ | panel _ _ | env _ _ _ => rfl
  | core | req | waterOut | config _ => exact absurd he Bool.false_ne_true

theorem tapsOf_consumeOut (s : Sys) : tapsOf (consumeOut s) = (tapsOf s).consume := by
  by_cases h : (tapsOf s).ok = .out
  · rw [consumeOut, if_pos (show s.out.ok = .out from h), Taps.consume, if_pos h]
    rfl
  · rw [consumeOut, if_neg (show ¬s.out.ok = .out from h), Taps.consume, if_neg h]

/-- The hand-shake is taken by `run_time_process`, and a second passes for the clock of the dispense. -/
theorem tapsOf_step {s : Sys} {e : Event} (he : between e = true) :
    tapsOf (step s e) = match e with
      | .runTime => (tapsOf s).consume
      | .cooldown => { tapsOf s with clock := (tapsOf s).clock - 1 }
      | _ => tapsOf s := by
  cases e with
  | runTime => exact tapsOf_consumeOut (setSts _ s)
  | runningMode =>
    have h := congrArg tapsOf (modeView_sysRunningModeUpdate s)
    exact h
  | cooldown | clearAlarm | inputs _ | pulses _ | heater _ _ | panel _ _ | env _ _ _ => rfl
  | core | req | waterOut | config _ => exact absurd he Bool.false_ne_true

end WM.Proof
