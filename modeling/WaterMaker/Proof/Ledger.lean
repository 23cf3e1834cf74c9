import WaterMaker.Spec.Metering
import WaterMaker.Proof.WaterPath

/-!
# The cumulative water total

`handOf` reads the hand-shake between `WaterOut_req_exe` and `run_time_process` off a state; a call is a
call of the abstract machine (`handOf_waterOutReqExe`) and `run_time_process` takes what was handed over
into the total (`total_runTimeProcess`). `volumes_accounted` says that in every run whose calls are in order
(`Accountable`) the total grows by the volume of every dispense exactly once; `volumes_misbooked` are two runs
in which one is counted twice, and lost.
-/

namespace WM.Proof

open WM WM.Impl WM.Spec

/-! ## Closing -/

section close

variable (s : Sys)

/-- Only the hand-shake of dispensing is looked at. -/
theorem valveFrame_handOf : ValveFrame handOf where
  out _ s h := congrArg (fun o : OutSt => { handOf s with ok := o.ok }) (h s.out)
  ster _ _ := rfl
  clock _ := rfl
  req _ _ _ _ := rfl

/-- The closing of one water type hands the dispense over. -/
theorem handOf_waterOutClose (w : Water) : handOf (waterOutClose w s) = (handOf s).close := by
  have hheat : ∀ s, handOf (closeHeater w s) = handOf s := fun s => by
    unfold closeHeater
    split
    · exact valveFrame_handOf.closeHeatSend _
    · rfl
  have hout : ∀ s, handOf (closeOutputs w s) = (handOf s).close := fun s => by
    unfold closeOutputs Hand.close
    by_cases hok : s.out.ok = .idle
    · rw [if_neg (not_not.mpr hok), if_pos (show (handOf s).ok = .idle from hok), valveFrame_handOf.closeWait]
    · rw [if_pos hok, if_neg (show ¬(handOf s).ok = .idle from hok), valveFrame_handOf.closeWater]
      unfold closeVolume
      exact apply_ite handOf _ _ _
  unfold waterOutClose
  rw [hheat, hout, valveFrame_handOf.closeFlag]

theorem handOf_waterOutCloseAll : handOf (waterOutCloseAll s) = (handOf s).close := by
  unfold waterOutCloseAll
  rw [handOf_waterOutClose, handOf_waterOutClose, handOf_waterOutClose, Hand.close_close, Hand.close_close]

/-- The largest time hands the dispense over. -/
theorem handOf_waterOutMax : handOf (waterOutMax s) =
    if s.tmo.ev2 ≥ waterMaxtime then (handOf s).close else handOf s := by
  unfold waterOutMax
  rw [apply_ite handOf, handOf_waterOutCloseAll]

end close

/-! ## Metering -/

section meter

variable (s : Sys)

theorem handOf_meterPulses : handOf (meterPulses s) = (handOf s).meter (some (pulseReading s)) := by
  have hset : ∀ n s, handOf (setCurWater (pluseCalcWater n) (setSts (fun t => { t with pluseCnt := n }) s)) =
      (handOf s).meter (some (pluseCalcWater n)) := fun _ _ => rfl
  unfold meterPulses pulseReading
  by_cases hok : s.out.ok = .read
  · rw [if_neg (not_not.mpr hok), if_pos hok]
    exact hset s.out.pulses s
  · rw [if_pos hok, if_neg hok]
    exact hset 0 (setOut (fun o => { o with pulses := 0 }) s)

theorem handOf_meterHeat : handOf (meterHeat s) = (handOf s).meter (heatReading s) := by
  unfold meterHeat heatReading
  dsimp only
  split_ifs <;> rfl

end meter

/-! ## A call -/

section call

variable (s : Sys)

/-- The largest time is looked at with the clock that the call has counted. -/
theorem handOf_max {x : Sys} {h : Hand} (hh : handOf x = h) (hclock : (tapsOf x).clock = (tapsOf s).count.clock) :
    handOf (waterOutMax x) = if cutsOff s then h.close else h := by
  rw [handOf_waterOutMax, hh]
  have hev2 : x.tmo.ev2 = (s.tmo.ev2 + 1) % 65536 := hclock
  simp only [hev2, cutsOff, decide_eq_true_eq]

/-- A dispense that was closed is not closed again. -/
theorem handOf_closed {x : Sys} {h : Hand} (hh : handOf x = h.close) : handOf (waterOutMax x) = h.close := by
  rw [handOf_waterOutMax, hh, Hand.close_close, ite_self]

theorem handOf_heatDialogue : handOf (heatDialogue s) = { handOf s with ok := dialogueOk s.out } :=
  view_heatDialogue s (fun c s => valveFrame_handOf.heatSend s c) (fun _ => rfl) (fun _ => rfl) fun _ => rfl

/-- The dialogue keeps the clock that the call has counted. -/
theorem clock_heatDialogue :
    (tapsOf (heatDialogue (heatMetered s))).clock = (tapsOf s).count.clock := by
  rw [show tapsOf (heatDialogue (heatMetered s)) = _ from congrArg Prod.snd (dispense_heatDialogue _),
    show tapsOf (heatMetered s) = _ from congrArg Prod.snd (dispense_heatMetered s)]

theorem handOf_heatMetered : handOf (heatMetered s) = (handOf s).meter (heatReading s) := handOf_meterHeat _

/-- The instant heater: metered, then closed at the target, paused or asked. -/
theorem handOf_waterOutInstant (h : demandHeat s = true) :
    handOf (waterOutInstant (countDispense s)) = (handOf s).call
      ⟨heatReading s, moveOf (cutsOff s) (actInstant (heatMetered s))⟩ := by
  have hm := handOf_heatMetered s
  have hpause : ∀ x, handOf (closeHeatSend x |> setOut (fun o => { o with heatFirst := o.heatFirst + 1 })) = handOf x :=
    valveFrame_handOf.closeHeatSend
  rw [waterOutInstant_of_demand s h]
  unfold actInstant Hand.call
  rw [← hm]
  split
  · exact handOf_closed (handOf_waterOutClose _ _)
  · split
    · exact hpause _
    · exact handOf_max s (handOf_heatDialogue _) (clock_heatDialogue s)

/-- A demand served after the pulses are metered: the target ends it, and otherwise `serve` goes on. -/
theorem handOf_pulses (serve : Sys → Sys) (hserve : ∀ x, handOf (serve x) = { handOf x with ok := .read })
    (hclock : ∀ x, (tapsOf (serve x)).clock = (tapsOf x).clock) (w : Water) {a : Act}
    (ha : moveOf (cutsOff s) a = .serve .read (cutsOff s)) :
    handOf (waterOutMax (if targetReached (meterPulses (countDispense s)) then
        waterOutClose w (meterPulses (countDispense s)) else serve (meterPulses (countDispense s)))) =
      (handOf s).call ⟨some (pulseReading s),
        moveOf (cutsOff s) (if targetReached (meterPulses (countDispense s)) then .target w else a)⟩ := by
  have hm : handOf (meterPulses (countDispense s)) = (handOf s).meter (some (pulseReading s)) :=
    handOf_meterPulses _
  have hcount : (tapsOf (meterPulses (countDispense s))).clock = (tapsOf s).count.clock :=
    congrArg (fun d : Plumbing × Taps => d.2.clock) (dispense_meterPulses (countDispense s))
  unfold Hand.call
  rw [← hm]
  split
  · exact handOf_closed (handOf_waterOutClose _ _)
  · rw [ha]
    exact handOf_max s (hserve _) ((hclock _).trans hcount)

theorem handOf_waterOutPot (h : demandHeat s = true) :
    handOf (waterOutMax (waterOutPot (countDispense s))) = (handOf s).call
      ⟨some (pulseReading s), moveOf (cutsOff s) (actPot (meterPulses (countDispense s)))⟩ := by
  rw [waterOutPot_of_demand s h]
  exact handOf_pulses s (fun x => armHeating (reqBitmapOp .hwp true
    (setOut (fun o => { o with ok := .read, flag := .heatPot }) x))) (fun _ => rfl) (fun _ => rfl) .heat (a := .pot) rfl

theorem handOf_waterOutCold : handOf (waterOutMax (waterOutCold (countDispense s))) = (handOf s).call
    ⟨some (pulseReading s), moveOf (cutsOff s) (actCold (meterPulses (countDispense s)))⟩ := by
  have hreq : ∀ b on s, handOf (reqBitmapOp b on s) = handOf s := fun _ _ _ => rfl
  have hout : ∀ s, handOf (armHeating (setOut (fun o => { o with ok := .read, flag := .normalIce }) s)) =
      { handOf s with ok := .read } := fun _ => rfl
  have hster : ∀ f s, handOf (setSter f s) = handOf s := fun _ _ => rfl
  refine handOf_pulses s coldServe (fun x => ?_) (fun x => ?_) .normalIce rfl
  · simp [coldServe, hout, externalWaterExe, coldPump, coldOutlet, uvReqExe, uvLamp, uvLed, hster, hreq,
      apply_ite handOf]
  · rw [show tapsOf (coldServe x) = _ from congrArg Prod.snd (dispense_coldServe x), Taps.serveCold_clock]

/-- Serving a demand is a call of the abstract machine. -/
theorem handOf_waterOutServe : handOf (waterOutServe s) = (handOf s).call (serveOf s) := by
  unfold waterOutServe serveOf readingOf actServe
  split
  · rename_i hd
    split
    · exact handOf_waterOutInstant s hd
    · exact handOf_waterOutPot s hd
  · split
    · exact handOf_waterOutCold s
    · exact handOf_closed (handOf_waterOutCloseAll s)

theorem handOf_readKeys : handOf (readKeys s) = handOf s :=
  keys_keep s (fun _ s h => congrArg (fun o : OutSt => { handOf s with ok := o.ok }) (h s.out)) fun _ _ => ⟨rfl, rfl⟩

/-- `WaterOut_req_exe` is a call of the abstract machine. -/
theorem handOf_waterOutReqExe : handOf (waterOutReqExe s) = (handOf s).call (callOf s) := by
  have hkeys := handOf_readKeys s
  have hclear : ∀ s, handOf (clearDemand s) = handOf s := fun s => by
    unfold clearDemand
    split <;> rfl
  have hidle : handOf (waterOutIdle (clearDemand (readKeys s))) = (handOf s).close := by
    unfold waterOutIdle
    rw [handOf_waterOutCloseAll]
    exact congrArg Hand.close ((hclear _).trans hkeys)
  rw [waterOutReqExe_eq]
  unfold callOf
  dsimp only
  cases s.stor.status with
  | true => rfl
  | false =>
    cases !waterDemand (readKeys s) || !waterOutLevel (readKeys s)
    · cases (readKeys s).alarmBit .e4
      · simp only [Bool.false_eq_true, ↓reduceIte, Bool.or_self]
        rw [handOf_waterOutServe, hkeys]
      · simp only [Bool.false_eq_true, ↓reduceIte, Bool.or_true]
        rw [handOf_waterOutCloseAll, hkeys]
        rfl
    · simp only [Bool.false_eq_true, ↓reduceIte, Bool.true_or]
      exact hidle

/-- The dialogue with the heater opens the dispense or leaves it. -/
theorem ok_of_hot {ok : OutOk} (h : actServe s = .hot ok) : isOpen ok = true ∨ ok = s.out.ok := by
  unfold actServe actInstant actPot actCold at h
  split_ifs at h
  rw [← Act.hot.inj h]
  rcases dialogueOk_cases (heatMetered s).out with hd | hd | hd
  · exact .inl (by rw [hd]; rfl)
  · exact .inl (by rw [hd]; rfl)
  · exact .inr (hd.trans (asked_heatMetered s).2.2)

/-- A dispense is metered only while it is read, and served by opening it. -/
theorem fits_callOf : (callOf s).Fits (handOf s) := by
  have hkeys : (readKeys s).out.ok = s.out.ok := congrArg Hand.ok (handOf_readKeys s)
  have hpulse : s.out.ok ≠ .read → ∀ v, some (pulseReading (readKeys s)) = some v → v = 0 := fun hr v hv => by
    rw [pulseReading, hkeys, if_neg hr] at hv
    exact (Option.some.inj hv).symm
  have hheat : s.out.ok ≠ .read → heatReading (readKeys s) = none := fun hr => by
    rw [heatReading, hkeys, if_pos hr]
  refine ⟨fun hr v hv => ?_, fun ok cut hm => ?_⟩
  · have hr : s.out.ok ≠ .read := hr
    unfold callOf serveOf readingOf at hv
    dsimp only at hv
    split_ifs at hv
    · rw [hheat hr] at hv
      exact nomatch hv
    · exact hpulse hr v hv
    · exact hpulse hr v hv
  · have hok := fun ok => @ok_of_hot (readKeys s) ok
    rw [hkeys] at hok
    unfold callOf serveOf at hm
    dsimp only at hm
    split_ifs at hm
    generalize hact : actServe (readKeys s) = a at hm hok
    cases a with
    | close | target _ | pause _ => exact nomatch hm
    | pot | cold _ _ =>
      obtain ⟨rfl, -⟩ := Move.serve.inj hm
      exact .inl rfl
    | hot ok' =>
      obtain ⟨rfl, -⟩ := Move.serve.inj hm
      exact hok ok' rfl

end call

/-! ## The total -/

/-- `Flow_calc` carries without loss. -/
theorem flow_carries (v : Nat) (r : Runtime) (hlow : r.low + v < 65536)
    (hhigh : r.high + (r.low + v) / 1000 < 65536) :
    1000 * (r.flow v).high + (r.flow v).low = 1000 * r.high + r.low + v ∧ (r.flow v).low < 1000 ∧
      (r.flow v).high ≤ r.high + (r.low + v) / 1000 := by
  unfold Runtime.flow
  dsimp only
  rw [Nat.mod_eq_of_lt hlow]
  split <;> dsimp only
  · rw [Nat.mod_eq_of_lt hhigh]
    omega
  · omega

theorem total_consumeOut {s : Sys} (hn : Normalised s) (hr : Room s) :
    total (consumeOut s) = total s + (handOf s).pending ∧ Normalised (consumeOut s) := by
  obtain ⟨hml, hl⟩ := hn
  by_cases hout : s.out.ok = .out
  · obtain ⟨hroom, htot⟩ := hr hout
    unfold total at htot
    have hpend : (handOf s).pending = s.sts.lastWater := if_pos hout
    obtain ⟨h1, h2, h3⟩ := flow_carries s.sts.lastWater ⟨s.sts.cumulative2, s.sts.cumulative0⟩ hroom
      (by dsimp only; omega)
    dsimp only at h1 h3
    obtain ⟨h4, h5, -⟩ := flow_carries 0
      ⟨(Runtime.flow s.sts.lastWater ⟨s.sts.cumulative2, s.sts.cumulative0⟩).high, s.sts.cumulative1⟩
      (by dsimp only; omega) (by dsimp only; omega)
    dsimp only at h4
    rw [consumeOut, if_pos hout, hpend]
    refine ⟨?_, h2, h5⟩
    unfold total
    dsimp only [setSts, setOut]
    omega
  · have hpend : (handOf s).pending = 0 := if_neg hout
    rw [consumeOut, if_neg hout, hpend]
    exact ⟨rfl, hml, hl⟩

/-- `run_time_process` takes what was handed over into the total. -/
theorem total_runTimeProcess {s : Sys} (hn : Normalised s) (hr : Room s) :
    total (runTimeProcess s) = total s + (handOf s).pending ∧ Normalised (runTimeProcess s) :=
  total_consumeOut (s := setSts _ s) hn hr

theorem handOf_runTimeProcess (s : Sys) : handOf (runTimeProcess s) = (handOf s).taken := by
  change handOf (consumeOut (setSts _ s)) = _
  unfold consumeOut Hand.taken
  exact apply_ite handOf _ _ _

/-- The registers of the total. -/
def totals (s : Sys) : Nat × Nat × Nat := (s.sts.cumulative0, s.sts.cumulative1, s.sts.cumulative2)

theorem total_of_totals {s s' : Sys} (h : totals s' = totals s) :
    total s' = total s ∧ (Normalised s → Normalised s') := by
  obtain ⟨h0, h12⟩ := Prod.mk.inj h
  obtain ⟨h1, h2⟩ := Prod.mk.inj h12
  unfold total Normalised
  rw [h0, h1, h2]
  exact ⟨rfl, id⟩

/-- Dispensing leaves the total. -/
theorem outFrame_totals : OutFrame totals where
  out _ _ _ := rfl
  ster _ _ := rfl
  tmo _ _ _ := rfl
  cfg _ _ _ := rfl
  sts _ s h := congrArg (fun t => (t.cumulative0, t.cumulative1, t.cumulative2)) (h s.sts)
  req _ _ _ _ := rfl
  first _ := rfl

/-! ## Runs with their books -/

theorem sys_audit (x : Audited) (e : Event) : (audit x e).sys = step x.sys e := by
  cases e <;> rfl

theorem run_audit (x : Audited) (es : List Event) : (run audit x es).sys = run step x.sys es :=
  run_hom sys_audit x es

/-- The total and the hand-shake agree with the books. -/
structure Sound (n₀ : Nat) (x : Audited) : Prop where
  normal : Normalised x.sys
  balanced : Balanced n₀ (total x.sys) (handOf x.sys) x.books

theorem Sound.same {n₀ : Nat} {x : Audited} (h : Sound n₀ x) {s : Sys} (hh : handOf s = handOf x.sys)
    (ht : totals s = totals x.sys) : Sound n₀ ⟨s, x.books⟩ := by
  obtain ⟨htot, hn⟩ := total_of_totals ht
  refine ⟨hn h.normal, ?_⟩
  rw [htot, hh]
  exact h.balanced

theorem Sound.audit {n₀ : Nat} {x : Audited} {e : Event} (h : Sound n₀ x) (hc : Accountable x e) :
    Sound n₀ (audit x e) := by
  cases e with
  | core | req | env _ _ _ => exact hc.elim
  | waterOut =>
    obtain ⟨htot, hn⟩ := total_of_totals (outFrame_totals.waterOutReqExe (fun _ _ => rfl) x.sys)
    refine ⟨hn h.normal, ?_⟩
    change Balanced n₀ (total (waterOutReqExe x.sys)) (handOf (waterOutReqExe x.sys))
      (x.books.book (callOf x.sys) (handOf x.sys))
    rw [htot, handOf_waterOutReqExe]
    exact h.balanced.call (fits_callOf x.sys) hc
  | runTime =>
    obtain ⟨ht, hn⟩ := total_runTimeProcess h.normal hc
    refine ⟨hn, ?_⟩
    change Balanced n₀ (total (runTimeProcess x.sys)) (handOf (runTimeProcess x.sys)) x.books
    rw [ht, handOf_runTimeProcess]
    exact h.balanced.taken
  | runningMode =>
    have hv := modeView_sysRunningModeUpdate x.sys
    have h1 := congrArg handOf hv
    have h2 := congrArg totals hv
    exact h.same h1 h2
  | _ => exact h.same rfl rfl

/-- In every run whose dispenses are in order and fit the registers the total has grown, once the machine is
idle, by the volume of every dispense, counted once. -/
theorem volumes_accounted (s : Sys) (hok : s.out.ok = .idle) (hcur : s.sts.curWater = 0) (hn : Normalised s)
    (es : List Event) (h : Along audit Accountable ⟨s, 0, 0⟩ es) :
    let x := run audit ⟨s, 0, 0⟩ es
    x.sys = run step s es ∧ (x.sys.out.ok = .idle → total x.sys = total s + x.books.sum) := by
  have hstart : Sound (total s) ⟨s, 0, 0⟩ := by
    have hpend : (handOf s).pending = 0 := by
      unfold Hand.pending
      rw [if_neg (by rw [show (handOf s).ok = _ from hok]; exact nofun)]
    refine ⟨hn, fun _ => hcur, fun ho => ?_, fun ho => ?_, by rw [hpend]⟩ <;>
    · rw [show (handOf s).ok = .idle from hok] at ho
      exact absurd ho Bool.false_ne_true
  have hend := h.run_inv (fun _ _ hx hc => hx.audit hc) hstart
  intro x
  refine ⟨run_audit _ es, fun hidle => ?_⟩
  have hsum := hend.balanced.sum
  have hpend : (handOf x.sys).pending = 0 := by
    unfold Hand.pending
    rw [if_neg (by rw [show (handOf x.sys).ok = _ from hidle]; exact nofun)]
  rwa [hpend, Nat.add_zero] at hsum

/-- A dispense of 2000 pulses that the panel ends, and is taken. -/
def fullGlass : List Event := [.panel 1 5000, .waterOut, .pulses 2000, .waterOut, .panel 0 0, .waterOut, .runTime]

/-- A dispense without flow. -/
def emptyGlass : List Event := [.panel 1 5000, .waterOut, .panel 0 0, .waterOut, .runTime]

/-- Two dispenses with flow, the second opened before `run_time_process` has taken the first. -/
def twoGlasses : List Event := [.panel 1 5000, .waterOut, .pulses 2000, .waterOut, .panel 0 0, .waterOut,
  .panel 1 5000, .waterOut, .pulses 1000, .waterOut, .panel 0 0, .waterOut, .runTime]

/-- One glass is taken into the total. -/
theorem volumes_accounted_fullGlass :
    let s := boot defaultConfig.powerOn quiet
    let x := run audit ⟨s, 0, 0⟩ fullGlass
    Along audit Accountable ⟨s, 0, 0⟩ fullGlass ∧ x.books.sum = 727 ∧ total x.sys = total s + x.books.sum := by
  refine ⟨by decide +kernel, by decide +kernel, ?_⟩
  exact (volumes_accounted (boot defaultConfig.powerOn quiet) rfl rfl (by decide) fullGlass
    (by decide +kernel)).2 (by decide +kernel)

/-- The volume before a dispense without flow is counted twice; the volume before a dispense that is opened
too early is lost. -/
theorem volumes_misbooked : defaultConfig.powerOn.InRange ∧
    (let s := boot defaultConfig.powerOn quiet
     let x := run audit ⟨s, 0, 0⟩ (fullGlass ++ emptyGlass)
     let y := run audit ⟨s, 0, 0⟩ twoGlasses
     x.sys.out.ok = .idle ∧ x.books.sum = 727 ∧ total x.sys = 1454 ∧
       y.sys.out.ok = .idle ∧ y.books.sum = 1127 ∧ total y.sys = 400) := by
  decide +kernel

end WM.Proof
