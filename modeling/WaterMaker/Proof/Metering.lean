import WaterMaker.Proof.Ledger

/-!
# The volume of a dispense

Cold water is metered by the pulses of the flow meter, hot water of the instant heater by the calls of
`WaterOut_req_exe` when the heater reports no outflow. The calibration of the flow meter has steps: a count just behind
one of three breakpoints gives less than the counts before it (`Sagging`), and `measured_volume_iff` says that these are
the counts at which the volume of a cold dispense can go back. The time of the instant heater is taken less two calls
before it is scaled, so that the first of them asks for a negative volume; `hot_estimate_bounded` is what holds when the
conversion to 16 bits makes 0 of that. In both the rest of the machine may be in any state at each call.
-/

namespace WM.Proof

open WM WM.Impl WM.Spec

/-! ## Pulses -/

/-- The bands of the volume. -/
theorem pluse_cases (n : Nat) : n < 570 ∧ pluseCalcWater n = n * 405 / 1000 ∨
    570 ≤ n ∧ n < 1250 ∧ pluseCalcWater n = n * 2 / 5 ∨ 1250 ≤ n ∧ n < 2750 ∧ pluseCalcWater n = n * 4 / 11 ∨
    2750 ≤ n ∧ n < 4350 ∧ pluseCalcWater n = n * 10 / 29 ∨ 4350 ≤ n ∧ pluseCalcWater n = n * 40 / 109 := by
  unfold pluseCalcWater
  split_ifs <;> omega

theorem pluse_le_of_not_sagging {p q : Nat} (h : ¬Sagging q) (hle : p ≤ q) :
    pluseCalcWater p ≤ pluseCalcWater q := by
  unfold Sagging at h
  rcases pluse_cases p with hp | hp | hp | hp | hp <;> rcases pluse_cases q with hq | hq | hq | hq | hq <;> omega

theorem pluse_lt_of_sagging {q : Nat} (h : Sagging q) : ∃ p ≤ q, p < 2750 ∧ pluseCalcWater q < pluseCalcWater p := by
  have hq := pluse_cases q
  rcases h with h | h | h
  · have hlast : pluseCalcWater 569 = 230 := rfl
    exact ⟨569, by omega, by omega, by omega⟩
  · have hlast : pluseCalcWater 1249 = 499 := rfl
    exact ⟨1249, by omega, by omega, by omega⟩
  · have hlast : pluseCalcWater 2749 = 999 := rfl
    exact ⟨2749, by omega, by omega, by omega⟩

/-! ## A call -/

/-- What metering reads. -/
def meters (s : Sys) : Nat × Nat × Nat × Inputs × Config :=
  (s.out.pulses, s.out.heatSt, s.out.heatTime, s.inp, s.cfg)

theorem meters_readKeys (s : Sys) : meters (readKeys s) = meters s := by
  refine keys_keep s (fun f s h => ?_) fun _ _ => ⟨rfl, rfl⟩
  have hout := congrArg (fun o : OutSt => (o.pulses, o.heatSt, o.heatTime, s.inp, s.cfg)) (h s.out)
  exact hout

theorem callOf_serves {s : Sys} (h : Serves s) : callOf s = serveOf (readKeys s) := by
  unfold callOf
  dsimp only
  rw [h.storage, h.demand, h.level, h.door]
  rfl

theorem actOf_serves {s : Sys} (h : Serves s) : actOf s = actServe (readKeys s) := by
  unfold actOf
  dsimp only
  rw [h.demand, h.level, h.door]
  rfl

theorem waterOutReqExe_serves {s : Sys} (h : Serves s) : waterOutReqExe s = waterOutServe (readKeys s) := by
  rw [waterOutReqExe_eq, h.storage, h.demand, h.level, h.door]
  rfl

/-- A dispense that was closed shows nothing. -/
theorem shut_close {h : Hand} (hcur : h.ok = .idle → h.cur = 0) : isOpen h.close.ok = false ∧ h.close.cur = 0 := by
  unfold Hand.close
  split
  · rename_i hok
    exact ⟨by rw [hok]; rfl, hcur hok⟩
  · split
    · exact ⟨rfl, rfl⟩
    · rename_i hzero
      exact ⟨rfl, not_not.mp hzero⟩

/-! ## Cold water -/

theorem pulseReading_readKeys (s : Sys) : pulseReading (readKeys s) = pulseReading s := by
  unfold pulseReading
  rw [show (readKeys s).out.ok = s.out.ok from congrArg Hand.ok (handOf_readKeys s),
    show (readKeys s).out.pulses = s.out.pulses from congrArg Prod.fst (meters_readKeys s)]

theorem pulseReading_countDispense (s : Sys) : pulseReading (countDispense s) = pulseReading s := rfl

/-- A cold call shows the volume of the count. -/
theorem callOf_cold {s : Sys} (h : ColdCall s) : callOf s =
    ⟨some (pulseReading s), moveOf (cutsOff (readKeys s)) (actCold (meterPulses (countDispense (readKeys s))))⟩ := by
  rw [callOf_serves h.toServes]
  unfold serveOf readingOf actServe
  rw [h.hot, h.cold, pulseReading_readKeys]
  rfl

/-- It closes the dispense or goes on. -/
theorem moveOf_cold (cut : Bool) (s : Sys) :
    moveOf cut (actCold s) = .close ∨ moveOf cut (actCold s) = .serve .read cut := by
  unfold actCold
  split
  · exact Or.inl rfl
  · exact Or.inr rfl

/-- Below the target it goes on. -/
theorem moveOf_cold_of_lt {s : Sys} (h : pulseReading s < s.cfg.waterFlow) (cut : Bool) :
    moveOf cut (actCold (meterPulses (countDispense (readKeys s)))) = .serve .read cut := by
  obtain ⟨x, hx⟩ : ∃ x, x = countDispense (readKeys s) := ⟨_, rfl⟩
  have hread : pulseReading x = pulseReading s := by
    rw [hx, pulseReading_countDispense, pulseReading_readKeys]
  have hcur : (meterPulses x).sts.curWater = pulseReading s := by
    rw [← hread]
    exact congrArg Hand.cur (handOf_meterPulses x)
  have hflow : (meterPulses x).cfg.waterFlow = s.cfg.waterFlow := by
    rw [(asked_meterPulses x).1, hx]
    exact congrArg (fun m : Nat × Nat × Nat × Inputs × Config => m.2.2.2.2.waterFlow) (meters_readKeys s)
  have hbelow : targetReached (meterPulses x) = false := by
    unfold targetReached
    rw [hcur, hflow, decide_eq_false (Nat.not_le.mpr h)]
    rfl
  rw [← hx]
  unfold actCold
  rw [hbelow]
  rfl

theorem hand_coldStep {r : ColdRun} {x : Sys} (h : ColdCall (withHand r.hand x)) :
    (coldStep r x).hand = (r.hand.meter (some (pulseReading (withHand r.hand x)))).move
      (moveOf (cutsOff (readKeys (withHand r.hand x)))
        (actCold (meterPulses (countDispense (readKeys (withHand r.hand x)))))) := by
  change handOf (waterOutReqExe (withHand r.hand x)) = _
  rw [handOf_waterOutReqExe, callOf_cold h]
  rfl

/-- What is shown is the volume of a count so far, or nothing before the dispense. -/
def Showing (r : ColdRun) : Prop :=
  r.hand.ok = .read ∧ (∃ p ≤ r.pulses, r.hand.cur = pluseCalcWater p) ∨ r.hand.ok ≠ .read ∧ r.hand.cur = 0

theorem showing_close {h : Hand} (hcur : h.ok = .idle → h.cur = 0) : h.close.ok ≠ .read ∧ h.close.cur = 0 := by
  obtain ⟨hshut, hzero⟩ := shut_close hcur
  refine ⟨fun hread => ?_, hzero⟩
  rw [hread] at hshut
  exact nomatch hshut

theorem showing_coldStep {r : ColdRun} {x : Sys} (hx : ColdOk r x) : Showing (coldStep r x) := by
  have hstep := hand_coldStep hx.call
  have hm := moveOf_cold (cutsOff (readKeys (withHand r.hand x)))
    (meterPulses (countDispense (readKeys (withHand r.hand x))))
  revert hstep hm
  generalize cutsOff (readKeys (withHand r.hand x)) = cut
  generalize moveOf cut _ = m
  intro hstep hm
  have hcount : ∃ p ≤ x.out.pulses, pulseReading (withHand r.hand x) = pluseCalcWater p := by
    unfold pulseReading
    split
    · exact ⟨_, Nat.le_refl _, rfl⟩
    · exact ⟨0, Nat.zero_le _, rfl⟩
  unfold Showing
  rw [hstep]
  rcases hm with rfl | rfl
  · right
    refine showing_close fun hidle => ?_
    change pulseReading (withHand r.hand x) = 0
    unfold pulseReading
    rw [if_neg (by rw [show (withHand r.hand x).out.ok = .idle from hidle]; exact nofun)]
    rfl
  · cases cut with
    | false => exact Or.inl ⟨rfl, hcount⟩
    | true =>
      right
      exact showing_close (h := { r.hand.meter (some (pulseReading (withHand r.hand x))) with ok := .read }) nofun

theorem neverBack_of_not_sagging {q : Nat} (hq : ¬Sagging q) : NeverBack q := by
  intro h xs x hok hcur hrun hx
  obtain ⟨hrun, hlast, -⟩ := Along.append.mp hrun
  have hshow : Showing (run coldStep ⟨h, 0⟩ xs) :=
    hrun.run_inv (I := Showing) (fun r x _ hx => showing_coldStep hx) (Or.inr ⟨hok, hcur⟩)
  obtain ⟨r, hr⟩ : ∃ r, r = run coldStep ⟨h, 0⟩ xs := ⟨_, rfl⟩
  rw [← hr] at hlast hshow ⊢
  rcases hshow with ⟨hread, p, hp, hcur⟩ | ⟨-, hcur⟩
  · unfold pulseReading
    rw [if_pos (by exact hread), hcur]
    change pluseCalcWater p ≤ pluseCalcWater x.out.pulses
    rw [hx]
    exact pluse_le_of_not_sagging hq (Nat.le_trans hp (hx ▸ hlast.count))
  · rw [hcur]
    exact Nat.zero_le _

/-- A panel that asks for more than the meter can count. -/
def coldAt (p : Nat) : Sys :=
  setOut (fun o => { o with pulses := p })
    (boot { defaultConfig with waterMode := 1, waterFlow := 65535, waterCtrl := 0 } quiet)

theorem readKeys_coldAt (h : Hand) (p : Nat) :
    readKeys (withHand h (coldAt p)) = reqBitmapOp .rh1 true (withHand h (coldAt p)) := by
  have hkey : Config.hmiKey (coldAt 0).cfg = false := by decide
  unfold readKeys
  exact if_neg fun hon => absurd (hkey.symm.trans hon) Bool.false_ne_true

theorem coldCall_coldAt (h : Hand) (p : Nat) : ColdCall (withHand h (coldAt p)) := by
  have hdemand : waterDemand (coldAt 0) = true := by decide
  have hlevel : waterOutLevel (coldAt 0) = true := by decide
  have hdoor : (coldAt 0).alarmBit .e4 = false := by decide
  have hhot : demandHeat (coldAt 0) = false := by decide
  have hcold : (demandNormal (coldAt 0) || demandIce (coldAt 0)) = true := by decide
  refine ⟨⟨rfl, ?_, ?_, ?_⟩, ?_, ?_⟩ <;> rw [readKeys_coldAt]
  · exact hdemand
  · exact hlevel
  · exact hdoor
  · exact hhot
  · exact hcold

/-- Its dispense is open and shows the count. -/
theorem hand_coldAt (r : ColdRun) {p : Nat} (hp : p < 2750) : (coldStep r (coldAt p)).hand =
    { r.hand.meter (some (pulseReading (withHand r.hand (coldAt p)))) with ok := .read } := by
  have hlt : ∀ n < 2750, pluseCalcWater n < 65535 := fun n hn => by
    have := pluse_cases n
    omega
  have hshown : pulseReading (withHand r.hand (coldAt p)) < 65535 := by
    unfold pulseReading
    split
    · exact hlt p hp
    · decide
  have hcut : cutsOff (readKeys (withHand r.hand (coldAt p))) = false := by
    have hclock : cutsOff (coldAt 0) = false := by decide
    rw [readKeys_coldAt]
    exact hclock
  rw [hand_coldStep (coldCall_coldAt r.hand p), moveOf_cold_of_lt hshown, hcut]
  rfl

/-- A dispense that counts to just before the breakpoint and then to `q` goes back there. -/
theorem not_neverBack_of_sagging {q : Nat} (hq : Sagging q) : ¬NeverBack q := by
  obtain ⟨p, hpq, hp, hlt⟩ := pluse_lt_of_sagging hq
  intro hback
  have hopen : (coldStep ⟨⟨.idle, 0, 0⟩, 0⟩ (coldAt 0)).hand.ok = .read := by
    rw [hand_coldAt _ (by omega)]
  have hcur : (run coldStep ⟨⟨.idle, 0, 0⟩, 0⟩ [coldAt 0, coldAt p]).hand.cur = pluseCalcWater p := by
    change (coldStep (coldStep _ (coldAt 0)) (coldAt p)).hand.cur = _
    rw [hand_coldAt _ hp]
    exact congrArg pluseCalcWater (if_pos hopen)
  have hread : (run coldStep ⟨⟨.idle, 0, 0⟩, 0⟩ [coldAt 0, coldAt p]).hand.ok = .read := by
    change (coldStep (coldStep _ (coldAt 0)) (coldAt p)).hand.ok = _
    rw [hand_coldAt _ hp]
  have hle := hback ⟨.idle, 0, 0⟩ [coldAt 0, coldAt p] (coldAt q) nofun rfl
    ⟨⟨coldCall_coldAt _ _, Nat.le_refl 0⟩, ⟨coldCall_coldAt _ _, Nat.zero_le p⟩, ⟨coldCall_coldAt _ _, hpq⟩, trivial⟩ rfl
  rw [hcur, pulseReading, if_pos (by exact hread)] at hle
  exact absurd hle (Nat.not_le.mpr hlt)

/-- The counts at which the volume does not fall below that of a lower count, and at which no cold dispense goes back,
are those that are not just behind one of the three breakpoints. -/
theorem measured_volume_iff (q : Nat) : ((∀ p ≤ q, pluseCalcWater p ≤ pluseCalcWater q) ↔ ¬Sagging q) ∧
    (NeverBack q ↔ ¬Sagging q) := by
  refine ⟨⟨fun h hq => ?_, fun h p hp => pluse_le_of_not_sagging h hp⟩,
    fun h hq => not_neverBack_of_sagging hq h, neverBack_of_not_sagging⟩
  obtain ⟨p, hp, -, hlt⟩ := pluse_lt_of_sagging hq
  exact absurd (h p hp) (Nat.not_le.mpr hlt)

/-- A dispense that has shown 230 ml at 569 pulses shows 228 at the next. -/
theorem measured_volume_falls :
    let s := boot defaultConfig.powerOn quiet
    let es : List Event := [.panel 1 5000, .waterOut, .pulses 569, .waterOut]
    (run step s es).sts.curWater = 230 ∧
      (run step s (es ++ [Event.pulses 570, Event.waterOut])).sts.curWater = 228 := by
  decide +kernel

/-! ## Hot water by time -/

section heatTime

variable (s : Sys)

theorem valveFrame_heatTime : ValveFrame heatTime where
  out f s h := show (unclosed (f s.out)).heatTime = (unclosed s.out).heatTime by rw [h]
  ster _ _ := rfl
  clock _ := rfl
  req _ _ _ _ := rfl

/-- Closing the heater clears the time; the other closings keep it. -/
theorem heatTime_waterOutClose (w : Water) :
    heatTime (waterOutClose w s) = if w = .heat then 0 else heatTime s := by
  have hvol : ∀ s, heatTime (closeVolume s) = heatTime s := fun s => by
    unfold closeVolume
    split <;> rfl
  have houtputs : ∀ s, heatTime (closeOutputs w s) = heatTime s := fun s => by
    unfold closeOutputs
    split
    · rw [valveFrame_heatTime.closeWater, hvol]
      rfl
    · exact valveFrame_heatTime.closeWait s
  unfold waterOutClose closeHeater
  split
  · rw [valveFrame_heatTime.closeHeatSend]
    rfl
  · rw [houtputs, valveFrame_heatTime.closeFlag]

theorem heatTime_waterOutCloseAll : heatTime (waterOutCloseAll s) = 0 := by
  unfold waterOutCloseAll
  rw [heatTime_waterOutClose, heatTime_waterOutClose]
  rfl

theorem heatTime_waterOutMax :
    heatTime (waterOutMax s) = if s.tmo.ev2 ≥ waterMaxtime then 0 else heatTime s := by
  unfold waterOutMax
  rw [apply_ite heatTime, heatTime_waterOutCloseAll]

theorem heatTime_heatDialogue : heatTime (heatDialogue s) = heatTime s :=
  view_heatDialogue s (fun c s => valveFrame_heatTime.heatSend s c) (fun _ => rfl) (fun _ => rfl) fun _ => rfl

/-- The time goes on unless the dispense is closed. -/
def timeAfter (n : Nat) : Move → Nat
  | .close => 0
  | .serve _ cut => if cut then 0 else n
  | .keep => n

theorem heatTime_waterOutInstant (h : demandHeat s = true) : heatTime (waterOutInstant (countDispense s)) =
    timeAfter (heatTime (heatMetered s)) (moveOf (cutsOff s) (actInstant (heatMetered s))) := by
  have hfirst : ∀ s, heatTime (setOut (fun o => { o with heatFirst := o.heatFirst + 1 }) s) = heatTime s :=
    fun _ => rfl
  rw [waterOutInstant_of_demand s h]
  unfold actInstant
  split
  · rw [heatTime_waterOutMax, heatTime_waterOutClose, if_pos rfl]
    exact ite_self 0
  · split
    · rw [hfirst, valveFrame_heatTime.closeHeatSend]
      rfl
    · have hev2 : (heatDialogue (heatMetered s)).tmo.ev2 = (s.tmo.ev2 + 1) % 65536 := clock_heatDialogue s
      rw [heatTime_waterOutMax, heatTime_heatDialogue, hev2]
      simp only [timeAfter, moveOf, cutsOff, decide_eq_true_eq]

end heatTime

/-- The volume after `n` calls in the read state. -/
def estimate (n : Nat) : Nat := (n - 2) * 25 / 6

theorem estimate_zero : estimate 0 = 0 := rfl

theorem estimate_le (n : Nat) : 6 * estimate n ≤ 25 * n := by
  unfold estimate
  omega

theorem estimate_mono {m n : Nat} (h : m ≤ n) : estimate m ≤ estimate n := by
  unfold estimate
  omega

/-- The time is the number of calls in the read state, and the volume is theirs. -/
structure OnTime (r : HotRun) : Prop where
  time : r.time = r.reads
  cur : r.hand.cur = estimate r.reads
  closed : isOpen r.hand.ok = false → r.reads = 0

theorem heatFlowCalc_estimate {t : Nat} {s : Sys} (ht : t ≤ 15730) (hfirst : t ≤ 1 → s.inp.f2uOut = 0) :
    heatFlowCalc t s = estimate t := by
  unfold heatFlowCalc estimate
  dsimp only
  split_ifs
  · omega
  · rw [hfirst (by omega)]
    omega

theorem heatTime_meterHeat (s : Sys) (h : s.out.heatSt ≠ 1) :
    heatTime (meterHeat s) = if s.out.ok = .read then (heatTime s + 1) % 65536 else heatTime s := by
  unfold meterHeat
  by_cases hread : s.out.ok = .read
  · rw [if_neg (not_not.mpr hread), if_neg h, if_pos hread]
    dsimp only
    split <;> rfl
  · rw [if_pos hread, if_neg hread]

section move

variable {h : Hand} {n : Nat}

theorem onTime_open (hcur : h.cur = estimate n) (hzero : isOpen h.ok = false → n = 0) :
    OnTime ⟨h, n, if isOpen h.ok then n else 0⟩ := by
  cases hopen : isOpen h.ok with
  | true => exact ⟨rfl, hcur, fun hshut => absurd (hopen.symm.trans hshut) Bool.true_eq_false.mp⟩
  | false =>
    obtain rfl := hzero hopen
    exact ⟨rfl, hcur, fun _ => rfl⟩

theorem onTime_close (hcur : h.ok = .idle → h.cur = 0) : OnTime ⟨h.close, 0, if isOpen h.close.ok then n else 0⟩ := by
  obtain ⟨hshut, hzero⟩ := shut_close hcur
  rw [hshut]
  exact ⟨rfl, hzero.trans estimate_zero.symm, fun _ => rfl⟩

/-- A dispense whose volume is that of its calls moves on, or is closed. -/
theorem onTime_move (hcur : h.cur = estimate n) (hzero : isOpen h.ok = false → n = 0) (m : Move)
    (hserve : ∀ ok cut, m = .serve ok cut → isOpen ok = true ∨ ok = h.ok) :
    OnTime ⟨h.move m, timeAfter n m, if isOpen (h.move m).ok then n else 0⟩ := by
  cases m with
  | close =>
    refine onTime_close fun hidle => ?_
    rw [hcur, hzero (by rw [hidle]; rfl), estimate_zero]
  | keep => exact onTime_open hcur hzero
  | serve ok cut =>
    have hzero' : isOpen ok = false → n = 0 := fun hshut => by
      rcases hserve ok cut rfl with hopen | hsame
      · exact absurd (hopen.symm.trans hshut) Bool.true_eq_false.mp
      · exact hzero (hsame ▸ hshut)
    cases cut with
    | false => exact onTime_open (h := { h with ok := ok }) hcur hzero'
    | true =>
      refine onTime_close (h := { h with ok := ok }) fun hidle => ?_
      rw [show Hand.cur _ = _ from hcur, hzero' (by rw [show ok = .idle from hidle]; rfl), estimate_zero]

end move

section step

variable {r : HotRun} {x : Sys}

theorem OnTime.counted_eq_zero (h : OnTime r) (hshut : isOpen r.hand.ok = false) : r.counted = 0 := by
  unfold HotRun.counted
  rw [if_neg (fun hread => by rw [hread] at hshut; exact nomatch hshut)]
  exact h.closed hshut

theorem keyed_of_hotCall {s : Sys} (h : HotCall s) : (readKeys s).cfg.heartPot = false :=
  (congrArg (fun m : Nat × Nat × Nat × Inputs × Config => m.2.2.2.2.heartPot) (meters_readKeys s)).trans h.instant

theorem actServe_hot {s : Sys} (h : HotCall s) : actServe (readKeys s) = actInstant (heatMetered (readKeys s)) := by
  unfold actServe
  rw [h.hot, keyed_of_hotCall h]
  rfl

/-- A hot call meters and moves. -/
theorem callOf_hot {s : Sys} (h : HotCall s) : callOf s =
    ⟨heatReading (readKeys s), moveOf (cutsOff (readKeys s)) (actInstant (heatMetered (readKeys s)))⟩ := by
  rw [callOf_serves h.toServes]
  unfold serveOf readingOf
  rw [actServe_hot h, h.hot, keyed_of_hotCall h]
  rfl

theorem heatTime_waterOutReqExe {s : Sys} (h : HotCall s) :
    heatTime (waterOutReqExe s) = timeAfter (heatTime (heatMetered (readKeys s))) (callOf s).move := by
  rw [callOf_hot h, waterOutReqExe_serves h.toServes, waterOutServe, if_pos h.hot, keyed_of_hotCall h]
  exact heatTime_waterOutInstant _ h.hot

/-- What is metered of the time. -/
theorem heatTime_onTime (h : OnTime r) (hx : HotOk r x) :
    heatTime (heatMetered (readKeys (withRun r x))) = r.counted := by
  have hm := meters_readKeys (withRun r x)
  have hok : (readKeys (withRun r x)).out.ok = r.hand.ok := congrArg Hand.ok (handOf_readKeys (withRun r x))
  obtain ⟨-, hm⟩ := Prod.mk.inj hm
  obtain ⟨hst, hm⟩ := Prod.mk.inj hm
  obtain ⟨htime, -⟩ := Prod.mk.inj hm
  unfold heatMetered HotRun.counted
  rw [heatTime_meterHeat _ (by change (readKeys (withRun r x)).out.heatSt ≠ 1; rw [hst]; exact hx.call.silent)]
  change (if (readKeys (withRun r x)).out.ok = .read then ((readKeys (withRun r x)).out.heatTime + 1) % 65536
    else (readKeys (withRun r x)).out.heatTime) = _
  rw [hok, htime]
  change (if r.hand.ok = .read then (r.time + 1) % 65536 else r.time) = _
  rw [h.time]
  split
  · rename_i hread
    have hlt := hx.range hread
    exact Nat.mod_eq_of_lt (by omega)
  · rfl

/-- What is metered: the volume of the calls so far. -/
theorem heatReading_onTime (h : OnTime r) (hx : HotOk r x) :
    heatReading (readKeys (withRun r x)) = if r.hand.ok = .read then some (estimate r.counted) else none := by
  obtain ⟨y, hy⟩ : ∃ y, y = readKeys (withRun r x) := ⟨_, rfl⟩
  have hm := meters_readKeys (withRun r x)
  have hok : y.out.ok = r.hand.ok := by
    rw [hy]
    exact congrArg Hand.ok (handOf_readKeys (withRun r x))
  rw [← hy] at hm ⊢
  obtain ⟨-, hm⟩ := Prod.mk.inj hm
  obtain ⟨hst, hm⟩ := Prod.mk.inj hm
  obtain ⟨htime, hm⟩ := Prod.mk.inj hm
  obtain ⟨hinp, -⟩ := Prod.mk.inj hm
  unfold heatReading HotRun.counted
  rw [hok, hst, htime]
  by_cases hread : r.hand.ok = .read
  · have hlt := hx.range hread
    rw [if_neg (not_not.mpr hread), if_neg hx.call.silent, if_pos hread, if_pos hread]
    change (if (r.time + 1) % 65536 ≠ 0 then some (heatFlowCalc ((r.time + 1) % 65536) y) else none) = _
    rw [h.time, Nat.mod_eq_of_lt (by omega), if_pos (by omega), heatFlowCalc_estimate (by omega)]
    intro hone
    rw [hinp]
    exact hx.first hread (by omega)
  · rw [if_pos hread, if_neg hread]

/-- The volume shown behind the metering is that of the calls so far. -/
theorem metered_onTime (h : OnTime r) (hx : HotOk r x) :
    (r.hand.meter (heatReading (readKeys (withRun r x)))).cur = estimate r.counted ∧
      (r.hand.meter (heatReading (readKeys (withRun r x)))).ok = r.hand.ok := by
  rw [heatReading_onTime h hx]
  split
  · exact ⟨rfl, rfl⟩
  · rename_i hread
    refine ⟨h.cur.trans ?_, rfl⟩
    unfold HotRun.counted
    rw [if_neg hread]

theorem metered_eq (h : OnTime r) (hx : HotOk r x) : metered r x = estimate r.counted := by
  have hhand := handOf_heatMetered (readKeys (withRun r x))
  rw [show handOf (readKeys (withRun r x)) = r.hand from handOf_readKeys _] at hhand
  exact (congrArg Hand.cur hhand).trans (metered_onTime h hx).1

/-- A dispense that is closed at the target has reached it. -/
theorem flow_le_of_target (hx : HotOk r x) (htarget : actOf (withRun r x) = .target .heat) :
    x.cfg.waterFlow ≤ metered r x := by
  have hact : actInstant (heatMetered (readKeys (withRun r x))) = .target .heat := by
    rw [← actServe_hot hx.call, ← actOf_serves hx.call.toServes]
    exact htarget
  have hreached : targetReached (heatMetered (readKeys (withRun r x))) = true := by
    unfold actInstant at hact
    split_ifs at hact with h
    exact h
  have hflow : (heatMetered (readKeys (withRun r x))).cfg.waterFlow = x.cfg.waterFlow := by
    rw [show (heatMetered _).cfg = _ from (asked_meterHeat _).1]
    exact congrArg (fun m : Nat × Nat × Nat × Inputs × Config => m.2.2.2.2.waterFlow) (meters_readKeys (withRun r x))
  unfold targetReached at hreached
  simp only [Bool.and_eq_true, decide_eq_true_eq] at hreached
  rw [← hflow]
  exact hreached.1.1

theorem OnTime.hotStep (h : OnTime r) (hx : HotOk r x) : OnTime (hotStep r x) := by
  obtain ⟨hcur, hok⟩ := metered_onTime h hx
  have hhand : handOf (waterOutReqExe (withRun r x)) =
      (r.hand.meter (heatReading (readKeys (withRun r x)))).move (callOf (withRun r x)).move := by
    rw [handOf_waterOutReqExe, Hand.call, callOf_hot hx.call]
    rfl
  have htime := heatTime_waterOutReqExe hx.call
  rw [heatTime_onTime h hx] at htime
  have hmove := onTime_move hcur (fun hshut => h.counted_eq_zero (hok ▸ hshut)) (callOf (withRun r x)).move
    fun ok cut hm => hok ▸ (fits_callOf (withRun r x)).serve ok cut hm
  rw [← htime, ← hhand] at hmove
  exact hmove

end step

/-- In every run of hot calls whose conversions to 16 bits are good (`HotOk`) and that begins with a new dispense: the
volume is at most 25/6 ml for each call in the read state, does not fall, and ends the dispense after as many of them as
the target needs. -/
theorem hot_estimate_bounded (ok : OutOk) (last : Nat) (xs : List Sys) (x : Sys)
    (hrun : Along hotStep HotOk ⟨⟨ok, 0, last⟩, 0, 0⟩ (xs ++ [x])) :
    let r := run hotStep ⟨⟨ok, 0, last⟩, 0, 0⟩ xs
    6 * metered r x ≤ 25 * r.counted ∧ r.hand.cur ≤ metered r x ∧
      (actOf (withRun r x) = .target .heat → 6 * x.cfg.waterFlow ≤ 25 * r.counted) := by
  obtain ⟨hrun, hlast, -⟩ := Along.append.mp hrun
  have htimed : OnTime (run hotStep ⟨⟨ok, 0, last⟩, 0, 0⟩ xs) :=
    hrun.run_inv (I := OnTime) (fun r x hr hx => hr.hotStep hx) ⟨rfl, estimate_zero.symm, fun _ => rfl⟩
  intro r
  change HotOk r x at hlast
  change OnTime r at htimed
  have hest : metered r x = estimate r.counted := metered_eq htimed hlast
  have hbound : 6 * metered r x ≤ 25 * r.counted := hest ▸ estimate_le r.counted
  refine ⟨hbound, ?_, fun htarget => ?_⟩
  · rw [htimed.cur, hest]
    refine estimate_mono ?_
    unfold HotRun.counted
    split
    · exact Nat.le_succ _
    · exact Nat.le_refl _
  · have hflow := flow_le_of_target hlast htarget
    omega

/-- A panel that asks the instant heater for 500 ml, with the heater asked three times. -/
def hotPanel (f2uOut : Nat) : Sys :=
  setOut (fun o => { o with heatNum := 3 })
    (boot { defaultConfig with waterMode := 2, waterFlow := 500, waterCtrl := 0 } { quiet with f2uOut := f2uOut })

/-- The third call in the read state meters 4 ml. -/
theorem hot_estimate_bounded_third :
    let xs := List.replicate 6 (hotPanel 0)
    let r := run hotStep ⟨⟨.idle, 0, 0⟩, 0, 0⟩ xs
    Along hotStep HotOk ⟨⟨.idle, 0, 0⟩, 0, 0⟩ (xs ++ [hotPanel 0]) ∧ r.counted = 3 ∧ metered r (hotPanel 0) = 4 ∧
      6 * metered r (hotPanel 0) ≤ 25 * r.counted ∧ r.hand.cur ≤ metered r (hotPanel 0) := by
  refine ⟨by decide +kernel, by decide +kernel, by decide +kernel, ?_⟩
  obtain ⟨hle, hmono, -⟩ := hot_estimate_bounded .idle 0 (List.replicate 6 (hotPanel 0))
    (hotPanel 0) (by decide +kernel)
  exact ⟨hle, hmono⟩

/-- A panel dispense of 500 ml hot water. -/
def hotDispense (f2uOut : Nat) : Sys :=
  boot { defaultConfig with waterMode := 2, waterFlow := 500, waterCtrl := 0 } { quiet with f2uOut := f2uOut }

/-- It is changed to 100 ml of cold water, which are served and handed over; then 50 ml of hot water are asked for. -/
def changedToCold : List Event :=
  List.replicate 34 .waterOut ++ [.panel 1 100, .waterOut, .pulses 2000, .waterOut, .runTime, .panel 2 50]

/-- A conversion that reduces the first volume, -4, to 16 bits makes 65532 of it: the dispense of 500 ml is closed at
the first call in the read state. And whatever the conversion makes of it, a dispense may begin with the time of
another: one of 50 ml is closed at its first call in the read state, too, with a volume of 66 ml. -/
theorem hot_estimate_wraps :
    (let s₄ := run step (hotDispense 65532) (List.replicate 4 .waterOut)
     let s₅ := run step (hotDispense 65532) (List.replicate 5 .waterOut)
     s₄.out.ok = .read ∧ s₄.out.heatTime = 0 ∧ s₄.cfg.waterFlow = 500 ∧
      targetReached (heatMetered (readKeys s₄)) = true ∧ s₅.out.ok = .out ∧ s₅.sts.lastWater = 65532) ∧
    let s := run step (hotDispense 0) changedToCold
    let s₂ := run step s (List.replicate 2 .waterOut)
    let s₃ := run step s (List.replicate 3 .waterOut)
    s.out.ok = .idle ∧ s.sts.curWater = 0 ∧ s.out.heatTime = 17 ∧ s₂.out.ok = .read ∧ s₂.out.heatTime = 17 ∧
      s₂.cfg.waterFlow = 50 ∧ s₃.out.ok = .out ∧ s₃.sts.lastWater = 66 := by
  decide +kernel

end WM.Proof
