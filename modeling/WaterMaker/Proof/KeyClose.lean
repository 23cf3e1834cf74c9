import WaterMaker.Proof.WaterPath

/-!
# Dispensing by keys: the shut-off

With `HMI_KEY` set a dispense is demanded by keys alone and has no target, so that it ends by closing all
outputs (`actOf_ne_target`). `Keyed` is what holds in every state of such a run; a pass keeps it
(`Keyed.reqExecution`), and with the keys released the pass ends the dispense and counts down
(`released_pass`). `keys_shut_off` is the shut-off of a whole run.
-/

namespace WM.Proof

open WM WM.Impl WM.Spec

/-! ## The pass -/

section pass

variable {s : Sys}

theorem orderly_prepared (h : Taps.Orderly (plumbingOf s) (tapsOf s))
    (hcirc : (prepared s).ster.sterilize = false) :
    Taps.Orderly (plumbingOf (prepared s)) (tapsOf (prepared s)) := by
  obtain ⟨hd, hf, -, -⟩ := setup_prepared s
  obtain ⟨b, he⟩ := eases_prepared s
  exact ((h.congr hd hf).pwp b).eases hcirc he

theorem not_targetReached (h : s.cfg.hmiKey = true) : targetReached s = false := by
  rw [targetReached, h, Bool.not_true, Bool.and_false]

/-- Without a target no action closes a single water type. -/
theorem actServe_ne_target (h : s.cfg.hmiKey = true) (w : Water) : actServe s ≠ .target w := by
  have hask := asked_meterHeat (setOut (fun o => { o with closeNum := 0 }) (countDispense s))
  have hheat : (heatMetered s).cfg.hmiKey = true := by
    rw [show (heatMetered s).cfg = s.cfg from hask.1, h]
  have hpulses : (meterPulses (countDispense s)).cfg.hmiKey = true := by
    rw [(asked_meterPulses (countDispense s)).1]
    exact h
  unfold actServe actInstant actPot actCold
  rw [not_targetReached hheat, not_targetReached hpulses]
  simp only [Bool.false_eq_true, if_false]
  split_ifs <;> exact Act.noConfusion

theorem actOf_ne_target (h : s.cfg.hmiKey = true) (w : Water) : actOf s ≠ .target w := by
  unfold actOf
  dsimp only
  split
  · exact Act.noConfusion
  · exact actServe_ne_target (by rw [cfg_readKeys]; exact h) w

end pass

/-! ## Keys -/

/-- The keys' register has no bits but theirs. -/
def KeyBits (s : Sys) : Prop := ∀ n, 3 ≤ n → s.out.key.getLsbD n = false

section keys

variable {s : Sys}

theorem keyBits_keyCold (h : KeyBits s) : KeyBits (keyCold s) := fun n hn => by
  change (putBit (putBit s.out.key keyNormalIce _) keyIce _).getLsbD n = false
  rw [getLsbD_putBit _ (by decide), getLsbD_putBit _ (by decide), if_neg (by unfold keyIce; omega),
    if_neg (by unfold keyNormalIce; omega), h n hn]

theorem keyBits_keyHot (h : KeyBits s) : KeyBits (keyHot s) := fun n hn => by
  have hput : ∀ on, (putBit s.out.key keyHeat on).getLsbD n = false := fun on => by
    rw [getLsbD_putBit _ (by decide), if_neg (by unfold keyHeat; omega), h n hn]
  unfold keyHot
  split_ifs
  · exact hput true
  · exact h n hn
  · exact hput false

theorem out_key_keyChild (s : Sys) : (keyChild s).out.key = s.out.key := by
  unfold keyChild
  split <;> rfl

theorem out_key_keyLamp (s : Sys) : (keyLamp s).out.key = s.out.key := by
  unfold keyLamp
  split <;> rfl

theorem keyBits_readKeys (h : KeyBits s) : KeyBits (readKeys s) := by
  have hcold : KeyBits (keyCold (reqBitmapOp .rh1 true s)) := keyBits_keyCold h
  have hchild : KeyBits (keyChild (keyCold (reqBitmapOp .rh1 true s))) := fun n hn => by
    rw [out_key_keyChild]
    exact hcold n hn
  unfold readKeys waterOutKey
  dsimp only
  split
  · intro n hn
    rw [out_key_keyLamp]
    exact keyBits_keyHot hchild n hn
  · exact h

/-- Released keys leave the register empty. -/
theorem key_readKeys (hk : KeyBits s) (h : Released s) (hkey : s.cfg.hmiKey = true) : (readKeys s).out.key = 0 := by
  have hheat : (keyChild (keyCold (reqBitmapOp .rh1 true s))).diSts .heat = false := by
    unfold keyChild
    split <;> exact h.2.2
  have hput : (readKeys s).out.key =
      putBit (putBit (putBit s.out.key keyNormalIce false) keyIce false) keyHeat false := by
    unfold readKeys waterOutKey
    rw [if_pos (show (reqBitmapOp .rh1 true s).cfg.hmiKey = true from hkey), out_key_keyLamp, keyHot,
      if_neg (by rw [hheat]; exact Bool.false_ne_true)]
    change putBit (keyChild (keyCold (reqBitmapOp .rh1 true s))).out.key keyHeat false = _
    rw [out_key_keyChild]
    change putBit (putBit (putBit s.out.key keyNormalIce (s.diSts .cold1)) keyIce
      (s.diSts .cold2 && s.cfg.twoCold)) keyHeat false = _
    rw [h.1, h.2.1]
  rw [hput]
  refine BitVec.eq_of_getLsbD_eq fun n hn => ?_
  rw [getLsbD_putBit _ (by decide), getLsbD_putBit _ (by decide), getLsbD_putBit _ (by decide)]
  by_cases h3 : 3 ≤ n
  · rw [hk n h3, ite_self, ite_self, ite_self]
    exact BitVec.getLsbD_zero.symm
  · have hbit : n = keyHeat ∨ n = keyIce ∨ n = keyNormalIce := by
      simp only [keyHeat, keyIce, keyNormalIce]
      omega
    rcases hbit with rfl | rfl | rfl <;> rfl

/-- With the keys released a pass closes. -/
theorem actOf_released (hk : KeyBits s) (h : Released s) (hkey : s.cfg.hmiKey = true) : actOf s = .close := by
  have hdemand : waterDemand (readKeys s) = false := by
    unfold waterDemand
    rw [if_pos (by rw [cfg_readKeys]; exact hkey), key_readKeys hk h hkey]
    rfl
  unfold actOf
  dsimp only
  rw [hdemand]
  rfl

end keys

/-! ## The invariant -/

/-- What holds in every state of a run by keys, with the closing delay `d`. -/
structure Keyed (d : Nat) (s : Sys) : Prop where
  hmiKey : s.cfg.hmiKey = true
  delay : (plumbingOf s).delay = d
  free : s.stor.status = false
  storage : s.cfg.storage ≠ 1
  bits : KeyBits s
  circ : (plumbingOf s).circ = false
  orderly : Taps.Orderly (plumbingOf s) (tapsOf s)

section invariant

variable {d : Nat} {s s' : Sys}

theorem Keyed.congr (h : Keyed d s) (hcalm : calmView s' = calmView s)
    (ho : Taps.Orderly (plumbingOf s) (tapsOf s')) : Keyed d s' := by
  simp only [calmView, Prod.mk.injEq] at hcalm
  obtain ⟨h1, h2, h3, h4, h5, -⟩ := hcalm
  exact ⟨h5.trans h.hmiKey, h1 ▸ h.delay, by rw [h2]; exact h.free, by rw [h4]; exact h.storage,
    fun n hn => by rw [h3]; exact h.bits n hn, h1 ▸ h.circ, by rw [h1]; exact ho⟩

/-- Dispensing leaves the keys' register as the keys were read. -/
theorem key_reqExecution (h : s.stor.status = false) :
    (reqExecution s).out.key = (readKeys (prepared s)).out.key := by
  have hframe : OutFrame fun s => s.out.key :=
    ⟨⟨fun f s hf => (hf s.out).1, fun _ _ => rfl, fun _ _ _ => rfl, fun _ _ _ => rfl, fun _ _ _ => rfl,
      fun _ _ _ _ => rfl⟩, fun _ => rfl⟩
  have hfin : (reqExecution s).out = (waterOutReqExe (prepared s)).out :=
    congrArg Prod.snd (outView_finish (waterOutReqExe (prepared s)))
  have hown : (prepared s).stor.status = false := (congrArg (·.1.status) (keptView_prepared s)).trans h
  have hkeys := hframe.waterOutReqExe_keys (prepared s)
  rw [if_neg (by rw [hown]; exact Bool.false_ne_true)] at hkeys
  rw [hfin]
  exact hkeys

/-- A pass that does not start a circulation keeps the invariant. -/
theorem Keyed.reqExecution (h : Keyed d s) (hd : d < 256)
    (hcirc : (plumbingOf (reqExecution s)).circ = false) : Keyed d (reqExecution s) := by
  have hplumb := plumbingOf_reqExecution s
  have hsig := storageSignal_dispensed s h.storage
  obtain ⟨hfree, hsto⟩ := finish_off _ hsig
  obtain ⟨hdelay, -, -, -⟩ := setup_prepared s
  have hdelay' : (plumbingOf (prepared s)).delay = d := hdelay.trans h.delay
  rw [hplumb] at hcirc
  have hkey : (prepared s).cfg.hmiKey = true := (hmiKey_prepared s).trans h.hmiKey
  have hprep := orderly_prepared h.orderly hcirc
  have hpass := hprep.pass (by rw [hdelay']; exact hd) hcirc (talks_actOf _) (actOf_ne_target hkey)
  rw [← tapsOf_dispensed s h.free] at hpass
  have hout := hpass.eases hcirc (eases_finish _ hsig _)
  refine ⟨(hmiKey_reqExecution s).trans h.hmiKey, ?_, hfree, ?_, ?_, ?_, ?_⟩
  · rw [hplumb]
    exact hdelay'
  · exact ne_of_beq_false hsto
  · intro n hn
    rw [key_reqExecution h.free]
    refine keyBits_readKeys (fun n hn => ?_) n hn
    rw [show (prepared s).out = s.out from congrArg (·.2.1) (keptView_prepared s)]
    exact h.bits n hn
  · rw [hplumb]
    exact hcirc
  · rw [hplumb]
    exact hout

/-- A pass with the keys released ends the dispense; once the hand-shake is over it counts down. -/
theorem Keyed.released_pass (h : Keyed d s) (hrel : Released s) :
    (tapsOf (Impl.reqExecution s)).ok = (if (tapsOf s).ok = .idle then .idle else .out) ∧
    ((tapsOf s).ok = .idle → (tapsOf (Impl.reqExecution s)).closeDelay = (tapsOf s).closeDelay - 3) := by
  have hbits : KeyBits (prepared s) := fun n hn => by
    rw [show (prepared s).out = s.out from congrArg (·.2.1) (keptView_prepared s)]
    exact h.bits n hn
  have hrel' : Released (prepared s) := by
    have htwo := congrArg Config.twoCold (plantCfg_prepared s)
    have htwo' : (prepared s).cfg.twoCold = s.cfg.twoCold := htwo
    unfold Released Sys.diSts
    rw [inp_prepared, htwo']
    exact hrel
  have hact := actOf_released hbits hrel' ((hmiKey_prepared s).trans h.hmiKey)
  have htaps := tapsOf_dispensed s h.free
  rw [hact] at htaps
  have hfin := eases_finish _ (storageSignal_dispensed s h.storage) (plumbingOf s)
  obtain ⟨b, he⟩ := eases_prepared s
  have hok : (tapsOf (prepared s)).ok = (tapsOf s).ok := he.ok
  have hdelay : (tapsOf (prepared s)).closeDelay = (tapsOf s).closeDelay := he.closeDelay
  rw [reqExecution_eq_finish, hfin.ok, hfin.closeDelay, htaps, ← hok, ← hdelay]
  exact ⟨Taps.closeAll_ok, Taps.closeAll_closeDelay⟩

theorem Keyed.of_waterSide (h : Keyed d s) (hw : waterSide s' = waterSide s) : Keyed d s' := by
  simp only [waterSide, Prod.mk.injEq] at hw
  obtain ⟨h1, h2, h3, h4, h5, -⟩ := hw
  refine h.congr ?_ (h2 ▸ h.orderly)
  simp only [calmView, h1, h3, h4, h5]

end invariant

/-! ## Runs -/

section run

variable {d : Nat} {s : Sys} {e : Event}

/-- The dispense is over, and the closing waits for the hand-shake or counts down. -/
def Over (s : Sys) : Prop := (tapsOf s).ok = .idle ∨ (tapsOf s).ok = .out

theorem orderly_between (h : Taps.Orderly (plumbingOf s) (tapsOf s)) (he : between e = true) :
    Taps.Orderly (plumbingOf s) (tapsOf (step s e)) := by
  rw [tapsOf_step he]
  split
  · exact h.consume
  · exact ⟨h.le, fun hok => ⟨⟨h.le, (h.closed hok).wp, (h.closed hok).ev2⟩, (h.closed hok).hwp⟩⟩
  · exact h

theorem Keyed.step (h : Keyed d s) (hd : d < 256) (he : plain e = true) (hc : NoCirculation s e) :
    Keyed d (step s e) := by
  cases hp : isPass e with
  | true =>
    obtain ⟨s', h1, h2⟩ := pass_cases (s := s) hp
    have hplumb : plumbingOf (Impl.step s e) = plumbingOf (Impl.reqExecution s') := congrArg Prod.fst h2
    have hcirc : (plumbingOf (Impl.reqExecution s')).circ = false := by
      rw [← hplumb]
      exact hc
    exact ((h.of_waterSide h1).reqExecution hd hcirc).of_waterSide h2
  | false =>
    have hb : between e = true := by simpa [plain, hp] using he
    exact h.congr (calmView_step hb) (orderly_between h.orderly hb)

/-- Once the keys are released a pass ends the dispense. -/
theorem over_pass (h : Keyed d s) (hp : isPass e = true) (hrel : Released s) :
    (tapsOf (step s e)).ok = (if (tapsOf s).ok = .idle then .idle else .out) ∧
    ((tapsOf s).ok = .idle → (tapsOf (step s e)).closeDelay = (tapsOf s).closeDelay - 3) := by
  obtain ⟨s', h1, h2⟩ := pass_cases (s := s) hp
  have htaps : tapsOf (Impl.step s e) = tapsOf (Impl.reqExecution s') := congrArg (·.2.1) h2
  have htaps' : tapsOf s' = tapsOf s := congrArg (·.2.1) h1
  have hrel' : Released s' := by
    have hcfg : s'.cfg = s.cfg := congrArg (·.2.2.2.2.1) h1
    have hinp : s'.inp = s.inp := congrArg (·.2.2.2.2.2) h1
    unfold Released Sys.diSts
    rw [hcfg, hinp]
    exact hrel
  have hpass := (h.of_waterSide h1).released_pass hrel'
  rw [htaps'] at hpass
  rw [htaps]
  exact hpass

theorem closeDelay_between (he : between e = true) :
    (tapsOf (step s e)).closeDelay = (tapsOf s).closeDelay := by
  rw [tapsOf_step he]
  split
  · unfold Taps.consume
    split <;> rfl
  · rfl
  · rfl

/-- Between the passes the hand-shake can only be taken. -/
theorem ok_between (he : between e = true) : (tapsOf (step s e)).ok = (tapsOf s).ok ∨
    (tapsOf s).ok = .out ∧ (tapsOf (step s e)).ok = .idle := by
  rw [tapsOf_step he]
  split
  · unfold Taps.consume
    split
    · rename_i hout
      exact .inr ⟨hout, rfl⟩
    · exact .inl rfl
  · exact .inl rfl
  · exact .inl rfl

/-- The steps of a run by keys after their release. -/
def Quieting (d : Nat) (s : Sys) (e : Event) : Prop := Keyed d s ∧ plain e = true ∧ ReleasedAtPass s e

theorem over_of_pass (h : Keyed d s) (hp : isPass e = true) (hrel : Released s) : Over (step s e) := by
  unfold Over
  rw [(over_pass h hp hrel).1]
  split
  · exact .inl rfl
  · exact .inr rfl

theorem over_step (h : Quieting d s e) (ho : Over s) : Over (step s e) := by
  obtain ⟨hk, he, hrel⟩ := h
  cases hp : isPass e with
  | true => exact over_of_pass hk hp (hrel hp)
  | false =>
    have hb : between e = true := by simpa [plain, hp] using he
    rcases ok_between (s := s) hb with h | ⟨-, h⟩
    · unfold Over
      rw [h]
      exact ho
    · exact .inl h

theorem idle_step (h : Quieting d s e) (ho : (tapsOf s).ok = .idle) : (tapsOf (step s e)).ok = .idle := by
  obtain ⟨hk, he, hrel⟩ := h
  cases hp : isPass e with
  | true => rw [(over_pass hk hp (hrel hp)).1, if_pos ho]
  | false =>
    have hb : between e = true := by simpa [plain, hp] using he
    rcases ok_between (s := s) hb with h | ⟨-, h⟩
    · rw [h, ho]
    · exact h

/-- The passes that the countdown still takes. -/
def passesLeft (s : Sys) : Nat := ((tapsOf s).closeDelay + 2) / 3

theorem passesLeft_step (h : Quieting d s e) (ho : (tapsOf s).ok = .idle) :
    passesLeft (step s e) ≤ passesLeft s - (isPass e).toNat := by
  obtain ⟨hk, he, hrel⟩ := h
  unfold passesLeft
  cases hp : isPass e with
  | true =>
    rw [(over_pass hk hp (hrel hp)).2 ho, Bool.toNat_true]
    omega
  | false =>
    have hb : between e = true := by simpa [plain, hp] using he
    rw [closeDelay_between hb]
    exact le_rfl

end run

theorem keyed_boot {c : Config} (i : Inputs) (hkey : c.hmiKey = true) (hsto : c.storage ≠ 1) :
    Keyed c.closeDelay (boot c i) := by
  have hreq : ∀ b, (boot c i).reqBit b = false := fun _ => Words.get_zero _
  have hwaits : Taps.Waits (plumbingOf (boot c i)) (tapsOf (boot c i)) :=
    ⟨Nat.zero_le _, fun h => absurd ((hreq .wp).symm.trans h) Bool.false_ne_true,
      fun h => absurd ((hreq .ev2).symm.trans h) Bool.false_ne_true⟩
  exact ⟨hkey, rfl, rfl, hsto, fun n _ => BitVec.getLsbD_zero, rfl, Nat.zero_le _, fun _ => ⟨hwaits, hreq .hwp⟩⟩

section shutOff

variable {d : Nat} {s : Sys}

/-- A dispense that is over is handed over to `run_time_process`. -/
theorem idle_of_over (h : Over s) : (tapsOf (step s .runTime)).ok = .idle := by
  rw [tapsOf_step rfl]
  unfold Taps.consume
  rcases h with h | h
  · rw [if_neg (by rw [h]; exact OutOk.noConfusion)]
    exact h
  · rw [if_pos h]

/-- After the hand-shake the countdown ends with pump, valve and hot-water pump off. -/
theorem off_of_countdown (h : Keyed d s) (hok : (tapsOf s).ok = .idle) (hleft : passesLeft s = 0) :
    s.reqBit .wp = false ∧ s.reqBit .ev2 = false ∧ s.reqBit .hwp = false := by
  have hdelay : (tapsOf s).closeDelay = 0 := by
    unfold passesLeft at hleft
    omega
  have hc := h.orderly.closed (.inl hok)
  exact ⟨(hc.off hdelay).1, (hc.off hdelay).2, hc.hwp⟩

/-- The countdown of a whole run. -/
theorem passesLeft_run {es : List Event} (h : Along step (Quieting d) s es) (hok : (tapsOf s).ok = .idle) :
    (tapsOf (run step s es)).ok = .idle ∧ passesLeft (run step s es) ≤ passesLeft s - es.countP isPass := by
  have hidle : ∀ s e, (tapsOf s).ok = .idle → Quieting d s e → (tapsOf (step s e)).ok = .idle :=
    fun _ _ ho hq => idle_step hq ho
  exact ⟨h.run_inv hidle hok, run_rank_le passesLeft (h.and_inv hidle hok) fun _ _ hq => passesLeft_step hq.1 hq.2⟩

end shutOff

/-- The shut-off of a dispense by keys: after the release of the keys a pass, `run_time_process` and then a
third of the closing delay in passes, the dispensing pump, the outlet valve and the hot-water pump are off,
and they stay off while the keys are released. -/
theorem keys_shut_off (c : Config) (i : Inputs) (hkey : c.hmiKey = true) (hd : c.closeDelay ≤ 10)
    (hsto : c.storage ≠ 1) (es bs cs : List Event) (e : Event) (he : isPass e = true)
    (hes : ∀ e' ∈ es ++ e :: bs ++ .runTime :: cs, plain e' = true)
    (hcirc : Along step NoCirculation (boot c i) (es ++ e :: bs ++ .runTime :: cs))
    (hrel : Along step ReleasedAtPass (run step (boot c i) es) (e :: bs ++ .runTime :: cs))
    (hcs : (c.closeDelay + 2) / 3 ≤ cs.countP isPass) :
    let s := run step (boot c i) (es ++ e :: bs ++ .runTime :: cs)
    s.reqBit .wp = false ∧ s.reqBit .ev2 = false ∧ s.reqBit .hwp = false := by
  have hall : Along step (fun s e => plain e = true ∧ NoCirculation s e) (boot c i) _ :=
    (Along.of_forall hes).and hcirc
  have hinv : ∀ s e, Keyed c.closeDelay s → plain e = true ∧ NoCirculation s e → Keyed c.closeDelay (step s e) :=
    fun s e h hx => h.step (by omega) hx.1 hx.2
  have hboot := keyed_boot (c := c) i hkey hsto
  have hend := hall.run_inv hinv hboot
  have hkeyed := hall.and_inv hinv hboot
  rw [List.append_assoc] at hkeyed hend
  -- from the release on
  have hq : Along step (Quieting c.closeDelay) (run step (boot c i) es) (e :: bs ++ .runTime :: cs) :=
    ((Along.append.mp hkeyed).2.and hrel).mono fun _ _ h => ⟨h.1.2, h.1.1.1, h.2⟩
  obtain ⟨h₁, hbs, h₂, hcs'⟩ := And.imp_right Along.append.mp hq
  have hover : Over (run step (step (run step (boot c i) es) e) bs) :=
    hbs.run_inv (fun _ _ ho hx => over_step hx ho) (over_of_pass h₁.1 he (h₁.2.2 he))
  obtain ⟨hok, hleft⟩ := passesLeft_run hcs' (idle_of_over hover)
  have hstart : passesLeft (step (run step (step (run step (boot c i) es) e) bs) .runTime) ≤
      (c.closeDelay + 2) / 3 := by
    have hle := h₂.1.orderly.le
    rw [h₂.1.delay] at hle
    unfold passesLeft
    rw [closeDelay_between rfl]
    omega
  rw [List.append_assoc]
  intro s
  have hs : s = run step (step (run step (step (run step (boot c i) es) e) bs) .runTime) cs := by
    simp only [s, List.cons_append, run_append, run_cons]
  rw [show run step (boot c i) (es ++ (e :: bs ++ .runTime :: cs)) = s from rfl, hs] at hend
  rw [hs]
  exact off_of_countdown hend hok (by omega)

/-- Keys instead of the panel, and a closing delay. -/
def keyConfig : Config := { defaultConfig.powerOn with waterCtrl := 0x0002, closeDelay := 3 }

/-- The cold key is pressed for a pass and released. -/
def keyRun : List Event := [.inputs { quiet with din := 0x1276 }, .req, .inputs quiet]

/-- While the key was pressed pump and valve were on; a pass, the hand-shake and one more pass shut them. -/
theorem keys_shut_off_keyRun :
    (run step (boot keyConfig quiet) keyRun).reqBit .wp = true ∧
    (run step (boot keyConfig quiet) keyRun).reqBit .ev2 = true ∧
    (let s := run step (boot keyConfig quiet) (keyRun ++ .req :: [] ++ .runTime :: [.req])
     s.reqBit .wp = false ∧ s.reqBit .ev2 = false ∧ s.reqBit .hwp = false) :=
  ⟨by decide +kernel, by decide +kernel,
    keys_shut_off keyConfig quiet (by decide) (by decide) (by decide) keyRun [] [.req] .req rfl (by decide)
      (by decide +kernel) (by decide +kernel) (by decide)⟩

end WM.Proof
