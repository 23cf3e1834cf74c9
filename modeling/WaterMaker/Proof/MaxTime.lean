import WaterMaker.Proof.WaterPath

/-!
# The largest time of a dispense

`WaterOut_req_exe` counts its calls in `comp_timeout[DO_EV2_BPOS]` and closes at `WATER_MAXTIME`. A call
ends the dispense or takes one step of that clock (`Taps.pass_clock`), so that a dispense is cut off at its
600th call as long as `sys_comp_cooldown`, which counts the same register down, stays away and the heater
does not pause just then; the next call that lets water out opens it again (`Taps.pass_reopens`).
`dispense_limited` is the limit for every run under these conditions.
-/

namespace WM.Proof

open WM WM.Impl WM.Spec

/-! ## The pauses of the heater -/

theorem closeFrame_heatFirst : CloseFrame fun s => s.out.heatFirst where
  out _ s h := (h s.out).2.2.2.2
  ster _ _ := rfl
  tmo _ _ _ := rfl
  cfg _ _ _ := rfl
  sts _ _ _ := rfl
  req _ _ _ _ := rfl

theorem heatFirst_readKeys (s : Sys) : (readKeys s).out.heatFirst = s.out.heatFirst := by
  refine keys_keep (v := fun s => s.out.heatFirst) s (fun f s h => ?_) fun _ _ => ⟨rfl, rfl⟩
  change (unkeyed (f s.out)).heatFirst = (unkeyed s.out).heatFirst
  rw [h]

theorem heatFirst_heatMetered (s : Sys) : (heatMetered s).out.heatFirst = s.out.heatFirst := by
  unfold heatMetered
  rw [closeFrame_heatFirst.meterHeat]
  rfl

/-- Only a pause of the instant heater is counted, and there are three of them. -/
theorem heatFirst_instant {s : Sys} (h : demandHeat s = true) : (waterOutInstant (countDispense s)).out.heatFirst =
    s.out.heatFirst + (if Taps.pauses (actInstant (heatMetered s)) then 1 else 0) ∧
      (Taps.pauses (actInstant (heatMetered s)) = true → s.out.heatFirst < 3) := by
  have hmetered := heatFirst_heatMetered s
  have hmax := closeFrame_heatFirst.waterOutMax
  have hdialogue := closeFrame_heatFirst.heatDialogue
  rw [waterOutInstant_of_demand s h]
  unfold actInstant
  split
  · refine ⟨?_, nofun⟩
    rw [hmax, closeFrame_heatFirst.waterOutClose, hmetered]
    rfl
  · split
    · rename_i hpause
      refine ⟨?_, fun _ => ?_⟩
      · change (closeHeatSend (heatMetered s)).out.heatFirst + 1 = _
        rw [closeFrame_heatFirst.valve.closeHeatSend, hmetered]
        rfl
      · unfold heatPause at hpause
        rw [hmetered, Bool.and_eq_true, decide_eq_true_eq] at hpause
        exact hpause.1
    · refine ⟨?_, nofun⟩
      rw [hmax, hdialogue, hmetered]
      rfl

theorem heatFirst_serve (s : Sys) : (waterOutServe s).out.heatFirst =
    s.out.heatFirst + (if Taps.pauses (actServe s) then 1 else 0) ∧
      (Taps.pauses (actServe s) = true → s.out.heatFirst < 3) := by
  have hcount : (countDispense s).out.heatFirst = s.out.heatFirst := rfl
  have hmax := closeFrame_heatFirst.waterOutMax
  unfold waterOutServe actServe
  split
  · rename_i hd
    split
    · exact heatFirst_instant hd
    · have hact : Taps.pauses (actPot (meterPulses (countDispense s))) = false := by
        unfold actPot
        split <;> rfl
      rw [hact, hmax, closeFrame_heatFirst.waterOutPot, hcount]
      exact ⟨rfl, nofun⟩
  · split
    · have hact : Taps.pauses (actCold (meterPulses (countDispense s))) = false := by
        unfold actCold
        split <;> rfl
      rw [hact, hmax, closeFrame_heatFirst.waterOutCold, hcount]
      exact ⟨rfl, nofun⟩
    · rw [hmax, closeFrame_heatFirst.waterOutCloseAll]
      exact ⟨rfl, nofun⟩

theorem heatFirst_call {s : Sys} (hfree : s.stor.status = false) : (waterOutReqExe s).out.heatFirst =
    s.out.heatFirst + (if Taps.pauses (actOf s) then 1 else 0) ∧
      (Taps.pauses (actOf s) = true → s.out.heatFirst < 3) := by
  have hrun := waterOutReqExe_eq s
  rw [if_neg (by rw [hfree]; exact Bool.false_ne_true)] at hrun
  have hact : actOf s = if !waterDemand (readKeys s) || !waterOutLevel (readKeys s) || (readKeys s).alarmBit .e4
      then .close else actServe (readKeys s) := rfl
  rw [hrun, ← heatFirst_readKeys s]
  by_cases hidle : (!waterDemand (readKeys s) || !waterOutLevel (readKeys s)) = true
  · rw [hidle, Bool.true_or, if_pos rfl] at hact
    rw [if_pos hidle, closeFrame_heatFirst.waterOutIdle, hact]
    exact ⟨rfl, nofun⟩
  · rw [Bool.eq_false_iff.mpr hidle, Bool.false_or] at hact
    rw [if_neg hidle, hact]
    split
    · rw [closeFrame_heatFirst.waterOutCloseAll]
      exact ⟨rfl, nofun⟩
    · exact heatFirst_serve _

/-- A pause names no dispense that is over. -/
theorem pause_of_ne_read {s : Sys} {f : Water} (h : actOf s = .pause f) (hok : s.out.ok ≠ .read) : f = s.out.flag := by
  have htaps : tapsOf (readKeys s) = tapsOf s := congrArg Prod.snd (dispense_readKeys s)
  have hok' : (readKeys s).out.ok ≠ .read := (congrArg Taps.ok htaps).trans_ne hok
  have hmetered : (heatMetered (readKeys s)).out.flag = (readKeys s).out.flag := by
    unfold heatMetered meterHeat
    split
    · rfl
    · exact absurd hok' ‹_›
  obtain ⟨-, -, -, hact⟩ := serves_of_ne_close s (by rw [h]; exact Act.noConfusion)
  rw [h] at hact
  unfold actServe actInstant actPot actCold at hact
  split_ifs at hact
  injection hact with hact
  rw [hact, hmetered]
  exact congrArg Taps.flag htaps

/-! ## Runs within the limit -/

/-- What holds along such a run. After the cut-off only a pause of the heater moves the clock. -/
structure Limited (x : Metered) : Prop where
  free : x.sys.stor.status = false
  le : x.calls ≤ x.sys.tmo.ev2
  lt : x.sys.tmo.ev2 < 600
  pauses : x.sys.out.heatFirst ≤ 3
  closed : x.cut = true → (tapsOf x.sys).Over ∧ x.sys.tmo.ev2 ≤ x.sys.out.heatFirst

theorem tapsOf_call {s : Sys} (hfree : s.stor.status = false) :
    tapsOf (waterOutReqExe s) = (tapsOf s).pass (plumbingOf s) (actOf s) := by
  have hd := dispense_waterOutReqExe s
  rw [if_neg (by rw [hfree]; exact Bool.false_ne_true)] at hd
  exact congrArg Prod.snd hd

/-- A call ends the dispense or takes one step of its clock. -/
theorem call_cases {s : Sys} (hfree : s.stor.status = false) (h : s.tmo.ev2 < 600)
    (hp : 599 ≤ s.tmo.ev2 → Taps.pauses (actOf s) = false) :
    ((tapsOf (waterOutReqExe s)).Over ∧ (waterOutReqExe s).tmo.ev2 = 0) ∨
      (waterOutReqExe s).tmo.ev2 = s.tmo.ev2 + 1 ∧ s.tmo.ev2 < 599 := by
  have hpause : (tapsOf s).clock < 599 ∨ ∀ f, actOf s ≠ .pause f := by
    by_cases hc : s.tmo.ev2 < 599
    · exact .inl hc
    · refine .inr fun f hf => ?_
      have := hp (by omega)
      rw [hf] at this
      exact absurd this.symm Bool.false_ne_true
  have hclock : (waterOutReqExe s).tmo.ev2 = (tapsOf (waterOutReqExe s)).clock := rfl
  rw [hclock, tapsOf_call hfree]
  exact Taps.pass_clock h hpause

/-- A call that lets water out opens the dispense, unless its time is over. -/
theorem call_reopens {s : Sys} (hfree : s.stor.status = false) (h : s.tmo.ev2 < 599)
    (hs : Taps.serves (actOf s) = true) : (waterOutReqExe s).out.flag ≠ .no := by
  have hflag : (waterOutReqExe s).out.flag = (tapsOf (waterOutReqExe s)).flag := rfl
  rw [hflag, tapsOf_call hfree]
  exact Taps.pass_reopens h hs

/-- After the cut-off a call that lets no water out leaves the dispense closed. -/
theorem call_stays {s : Sys} (hfree : s.stor.status = false) (hover : (tapsOf s).Over)
    (hs : Taps.serves (actOf s) = false) : (tapsOf (waterOutReqExe s)).Over := by
  rw [tapsOf_call hfree]
  refine hover.pass hs fun f hf => ?_
  rw [pause_of_ne_read hf hover.2]
  exact hover.1

/-- If it moves the clock all the same, it is a pause. -/
theorem call_pauses {s : Sys} (hfree : s.stor.status = false) (hs : Taps.serves (actOf s) = false)
    (hclock : (waterOutReqExe s).tmo.ev2 = s.tmo.ev2 + 1) : Taps.pauses (actOf s) = true := by
  have hpass : ((tapsOf s).pass (plumbingOf s) (actOf s)).clock = s.tmo.ev2 + 1 := tapsOf_call hfree ▸ hclock
  cases ha : actOf s with
  | pause f => rfl
  | close =>
    rw [ha, Taps.pass, Taps.closeAll_clock] at hpass
    omega
  | target w =>
    rw [ha, Taps.pass, Taps.limit_of_clock (by rw [Taps.close_clock]; omega), Taps.close_clock] at hpass
    omega
  | hot _ | pot | cold _ _ =>
    rw [ha] at hs
    exact absurd hs.symm Bool.false_ne_true

theorem Limited.call {x : Metered} (h : Limited x) (hc : Within x .waterOut) : Limited (meter x .waterOut) := by
  have hfree : (waterOutReqExe x.sys).stor.status = false :=
    (congrArg (·.1.status) (outFrame_rest.waterOutReqExe (fun _ _ => rfl) x.sys)).trans h.free
  obtain ⟨hfirst, hthree⟩ := heatFirst_call h.free
  have hle := h.le
  have hpauses : (waterOutReqExe x.sys).out.heatFirst ≤ 3 := by
    have := h.pauses
    rw [hfirst]
    split
    · exact hthree ‹_›
    · exact this
  have hmeter : meter x .waterOut =
      if demanded x.sys then ⟨waterOutReqExe x.sys, if (waterOutReqExe x.sys).out.flag = .no then 0
        else x.calls + 1, x.cut || 599 ≤ x.sys.tmo.ev2⟩ else ⟨waterOutReqExe x.sys, 0, false⟩ := rfl
  rw [hmeter]
  rcases call_cases h.free h.lt (hc.pause rfl) with ⟨hover, hclock⟩ | ⟨hclock, hlt⟩
  · -- the dispense is closed, and with it the count
    have hzero : ∀ b, Limited ⟨waterOutReqExe x.sys, 0, b⟩ := fun b =>
      ⟨hfree, Nat.zero_le _, by rw [hclock]; omega, hpauses, fun _ => ⟨hover, by rw [hclock]; exact Nat.zero_le _⟩⟩
    rw [if_pos (show (waterOutReqExe x.sys).out.flag = .no from hover.1)]
    split <;> exact hzero _
  · split
    · rw [decide_eq_false (show ¬599 ≤ x.sys.tmo.ev2 by omega), Bool.or_false]
      refine ⟨hfree, ?_, by rw [hclock]; omega, hpauses, fun hcut => ?_⟩
      · rw [hclock]
        dsimp only
        split <;> omega
      · have hserves := hc.released rfl hcut
        obtain ⟨hover, hle⟩ := h.closed hcut
        refine ⟨call_stays h.free hover hserves, ?_⟩
        rw [hfirst, if_pos (call_pauses h.free hserves hclock), hclock]
        exact Nat.succ_le_succ hle
    · exact ⟨hfree, Nat.zero_le _, by rw [hclock]; omega, hpauses, fun hf => absurd hf Bool.false_ne_true⟩

/-- Between the calls the clock is at most counted down, and a dispense that is over stays so. -/
theorem timed_step {s : Sys} {e : Event} (hp : isPass e = false) (hc : isCall e = false) :
    (step s e).stor = s.stor ∧ (step s e).out.heatFirst = s.out.heatFirst ∧
      ((tapsOf s).Over → (tapsOf (step s e)).Over) ∧
      ((step s e).tmo.ev2 = s.tmo.ev2 ∨ e = .cooldown ∧ (step s e).tmo.ev2 = s.tmo.ev2 - 1) := by
  cases e with
  | core | req => exact absurd hp.symm Bool.false_ne_true
  | waterOut => exact absurd hc.symm Bool.false_ne_true
  | cooldown => exact ⟨rfl, rfl, id, .inr ⟨rfl, rfl⟩⟩
  | runTime =>
    have h := counterView_runTimeProcess s
    have h1 := congrArg Sys.stor h
    have h2 := congrArg (·.out.heatFirst) h
    have h3 := congrArg (·.tmo.ev2) h
    refine ⟨h1, h2, fun hover => ?_, .inl h3⟩
    rw [tapsOf_step rfl]
    exact hover.consume
  | runningMode =>
    have h := modeView_sysRunningModeUpdate s
    have h1 := congrArg Sys.stor h
    have h2 := congrArg (·.out.heatFirst) h
    have h3 := congrArg (·.tmo.ev2) h
    refine ⟨h1, h2, fun hover => ?_, .inl h3⟩
    rw [tapsOf_step rfl]
    exact hover
  | _ =>
    exact ⟨rfl, rfl, id, .inl rfl⟩

theorem Limited.meter {x : Metered} {e : Event} (h : Limited x) (hc : Within x e) : Limited (meter x e) := by
  cases hcall : isCall e with
  | true =>
    cases e with
    | waterOut => exact h.call hc
    | _ => exact absurd hcall Bool.false_ne_true
  | false =>
    obtain ⟨hstor, hfirst, hover, hclock⟩ := timed_step (s := x.sys) hc.pass hcall
    have hle := h.le
    have hlt := h.lt
    have hpauses := h.pauses
    have hmeter : Spec.meter x e = ⟨step x.sys e, x.calls, x.cut⟩ := by
      unfold Spec.meter
      rw [hcall]
      rfl
    rw [hmeter]
    refine ⟨by rw [hstor]; exact h.free, ?_, ?_, hfirst.trans_le hpauses, fun hcut => ?_⟩
    · rcases hclock with hclock | ⟨he, hclock⟩
      · rw [hclock]
        exact hle
      · have := hc.second he
        dsimp only
        omega
    · dsimp only
      omega
    · obtain ⟨hclosed, hle⟩ := h.closed hcut
      refine ⟨hover hclosed, ?_⟩
      dsimp only
      omega

theorem sys_meter (x : Metered) (e : Event) : (meter x e).sys = step x.sys e := by
  unfold meter
  split_ifs <;> rfl

theorem run_meter (x : Metered) (es : List Event) : (run meter x es).sys = run step x.sys es :=
  run_hom sys_meter x es

/-- The largest time of a dispense, in every run whose calls are `Within` it: no 600 calls with a demand go
by without the outputs closed, and after the cut-off they stay closed, whatever calls are made that let no water out.
A call that lets water out would open them again. -/
theorem dispense_limited (c : Config) (i : Inputs) (es : List Event)
    (h : Along meter Within ⟨boot c i, 0, false⟩ es) :
    let x := run meter ⟨boot c i, 0, false⟩ es
    x.sys = run step (boot c i) es ∧ x.calls < 600 ∧ (x.cut = true → x.sys.out.flag = .no ∧
      (Taps.serves (actOf x.sys) = true → (step x.sys .waterOut).out.flag ≠ .no)) := by
  have hboot : Limited ⟨boot c i, 0, false⟩ :=
    ⟨rfl, le_rfl, Nat.zero_lt_succ _, Nat.zero_le _, fun hf => absurd hf Bool.false_ne_true⟩
  have hinv := h.run_inv (fun _ _ hx hc => hx.meter hc) hboot
  intro x
  have hle := hinv.le
  have hlt := hinv.lt
  refine ⟨run_meter _ es, hle.trans_lt hlt, fun hcut => ⟨(hinv.closed hcut).1.1, fun hserve => ?_⟩⟩
  have hclock := (hinv.closed hcut).2.trans hinv.pauses
  exact call_reopens hinv.free (hclock.trans_lt (by decide)) hserve

/-- Cold water is demanded and 600 calls are made: the last of them cuts the dispense off. -/
theorem dispense_limited_cutOff :
    let es := .panel 1 5000 :: List.replicate 600 .waterOut
    let x := run meter ⟨boot defaultConfig.powerOn quiet, 0, false⟩ es
    Along meter Within ⟨boot defaultConfig.powerOn quiet, 0, false⟩ es ∧ x.cut = true ∧ x.sys.out.flag = .no := by
  have hrun : Along meter Within ⟨boot defaultConfig.powerOn quiet, 0, false⟩
      (.panel 1 5000 :: List.replicate 600 .waterOut) ∧ (run meter ⟨boot defaultConfig.powerOn quiet, 0, false⟩
      (.panel 1 5000 :: List.replicate 600 .waterOut)).cut = true := by decide +kernel
  exact ⟨hrun.1, hrun.2, ((dispense_limited defaultConfig.powerOn quiet _ hrun.1).2.2 hrun.2).1⟩

/-! ## Calls and seconds in turn -/

/-- A call and a second, `n` times. -/
def rounds : Nat → List Event
  | 0 => []
  | n + 1 => .waterOut :: .cooldown :: rounds n

theorem rounds_add (m n : Nat) : rounds (m + n) = rounds m ++ rounds n := by
  induction m with
  | zero => rw [Nat.zero_add]; rfl
  | succ m ih => rw [Nat.succ_add, rounds, rounds, ih]; rfl

/-- A round that changes nothing may be repeated for ever. -/
theorem along_rounds {C : Sys → Event → Prop} {s : Sys} (h : step (step s .waterOut) .cooldown = s)
    (hc : C s .waterOut) (hc' : C (step s .waterOut) .cooldown) (n : Nat) : Along step C s (rounds n) := by
  induction n with
  | zero => trivial
  | succ n ih =>
    refine ⟨hc, hc', ?_⟩
    rw [h]
    exact ih

/-- The call is made with a demand and leaves cold water running. -/
def RunsOn (s : Sys) (e : Event) : Prop :=
  isCall e = true → demanded s = true ∧ (step s e).out.flag = .normalIce

instance (s : Sys) (e : Event) : Decidable (RunsOn s e) := inferInstanceAs (Decidable (_ → _ ∧ _))

/-- The panel has asked for five litres of cold water. -/
def longDemand : Sys := step (boot defaultConfig.powerOn quiet) (.panel 1 5000)

set_option maxRecDepth 100000 in
/-- With a second between any two calls the clock never leaves 0 and 1: 600 calls with a demand, and more,
go by with the water running. -/
theorem dispense_never_cut : defaultConfig.powerOn.InRange ∧ (rounds 600).countP isCall = 600 ∧
    Along step RunsOn longDemand (rounds 600) := by
  -- the last countdowns from power-on end within six rounds
  have hsteady : step (step (run step longDemand (rounds 6)) .waterOut) .cooldown =
    run step longDemand (rounds 6) := by decide +kernel
  refine ⟨by decide, by decide, ?_⟩
  rw [show 600 = 6 + 594 from rfl, rounds_add, Along.append]
  exact ⟨by decide +kernel, along_rounds hsteady (by decide +kernel) (by decide +kernel) 594⟩

end WM.Proof
