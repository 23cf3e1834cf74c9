import WaterMaker.Spec.Closing
import WaterMaker.Spec.Events

/-!
# Dispensing, as it is observed

The pumps, valves and the action of a pass (`Spec.Taps`) in the state of the firmware, and what the results about
dispensing ask of a run and say about it: how long a dispense may last, how it is shut, and which of the pumps may run
at the same time.
-/

namespace WM.Spec

open WM WM.Impl

/-! ## The taps of the firmware -/

/-- The keys are read before anything else. -/
def readKeys (s : Sys) : Sys :=
  let s := reqBitmapOp .rh1 true s
  if s.cfg.hmiKey then waterOutKey s else s

/-- The ice tank's valve, `DO_RSV2_BPOS`, is not wired to the 24 V lamp. -/
def iceValve (c : Config) : Bool := c.sterilizeMode != 2 && c.sterilizeMode != 3

def plumbingOf (s : Sys) : Plumbing where
  delay := s.cfg.closeDelay
  pumpFirst := s.cfg.pumpFirst
  iceTank := s.cfg.bdIce
  iceValve := iceValve s.cfg
  air := s.cfg.exitWater = .air
  circ := s.ster.sterilize

def tapsOf (s : Sys) : Taps where
  ok := s.out.ok
  flag := s.out.flag
  closeDelay := s.out.closeDelay
  clock := s.tmo.ev2
  wp := s.reqBit .wp
  hwp := s.reqBit .hwp
  pwp := s.reqBit .pwp
  ev2 := s.reqBit .ev2
  ev3 := iceValve s.cfg && s.reqBit .ev3

/-- The hand-shake after a dialogue with the instant heater. -/
def dialogueOk (o : OutSt) : OutOk :=
  if o.ok = .send ∧ o.heatNum ≥ 3 then .read else if o.heatNum < 250 then .send else o.ok

/-- The instant heater, after metering. -/
def actInstant (s : Sys) : Act :=
  if targetReached s then .target .heat
  else if heatPause s then .pause s.out.flag
  else .hot (dialogueOk s.out)

def actPot (s : Sys) : Act := if targetReached s then .target .heat else .pot

def actCold (s : Sys) : Act :=
  if targetReached s then .target .normalIce
  else .cold (demandNormal s) (demandIce s)

/-- The instant heater's metering and the dispense's clock. -/
def heatMetered (s : Sys) : Sys :=
  meterHeat (setOut (fun o => { o with closeNum := 0 }) (countDispense s))

/-- The action that serves a demand. -/
def actServe (s : Sys) : Act :=
  if demandHeat s then
    if !s.cfg.heartPot then actInstant (heatMetered s)
    else actPot (meterPulses (countDispense s))
  else if demandNormal s || demandIce s then actCold (meterPulses (countDispense s))
  else .close

/-- The action of `WaterOut_req_exe` behind the storage check. -/
def actOf (s : Sys) : Act :=
  let s := readKeys s
  if !waterDemand s || !waterOutLevel s || s.alarmBit .e4 then .close else actServe s

/-! ## The largest time -/

/-- A dispense is demanded. -/
def demanded (s : Sys) : Bool := waterDemand (readKeys s)

/-- A run with the number of calls since the demand began or the outputs were last closed, and whether the
largest time has cut the demand off. -/
structure Metered where
  sys : Sys
  calls : Nat
  cut : Bool

def meter (x : Metered) (e : Event) : Metered :=
  let s := step x.sys e
  if isCall e then
    if demanded x.sys then ⟨s, if s.out.flag = .no then 0 else x.calls + 1, x.cut || 599 ≤ x.sys.tmo.ev2⟩
    else ⟨s, 0, false⟩
  else ⟨s, x.calls, x.cut⟩

/-- The calls of a run: no pass of the whole thread, no second while a demanded dispense is open, no call that serves
the demand after the cut-off before it was released, and no pause of the heater at the last call. -/
structure Within (x : Metered) (e : Event) : Prop where
  pass : isPass e = false
  second : e = .cooldown → x.calls = 0
  released : isCall e = true → x.cut = true → Taps.serves (actOf x.sys) = false
  pause : isCall e = true → 599 ≤ x.sys.tmo.ev2 → Taps.pauses (actOf x.sys) = false

/-- Only the calls and the seconds are asked anything about. -/
theorem within_iff (x : Metered) (e : Event) : Within x e ↔ isPass e = false ∧
    (second e = true → x.calls = 0) ∧ (isCall e = true → x.cut = true → Taps.serves (actOf x.sys) = false) ∧
      (isCall e = true → 599 ≤ x.sys.tmo.ev2 → Taps.pauses (actOf x.sys) = false) := by
  refine ⟨fun h => ⟨h.pass, fun he => h.second (second_iff.mp he), h.released, h.pause⟩,
    fun ⟨hp, hs, hr, hz⟩ => ⟨hp, fun he => hs (second_iff.mpr he), hr, hz⟩⟩

instance (x : Metered) (e : Event) : Decidable (Within x e) := decidable_of_iff _ (within_iff x e).symm

/-! ## Keys and panel -/

/-- No dispensing key is pressed; the second cold one counts with two outlets only. -/
def Released (s : Sys) : Prop :=
  s.diSts .cold1 = false ∧ (s.diSts .cold2 && s.cfg.twoCold) = false ∧ s.diSts .heat = false

instance (s : Sys) : Decidable (Released s) := inferInstanceAs (Decidable (_ ∧ _))

/-- No circulation is started. -/
def NoCirculation (s : Sys) (e : Event) : Prop := (step s e).ster.sterilize = false

instance (s : Sys) (e : Event) : Decidable (NoCirculation s e) := inferInstanceAs (Decidable (_ = _))

/-- The keys are released at every pass. -/
def ReleasedAtPass (s : Sys) (e : Event) : Prop := isPass e = true → Released s

instance (s : Sys) (e : Event) : Decidable (ReleasedAtPass s e) := inferInstanceAs (Decidable (_ → _))

/-- The hot-water pump and the ice tank's valve are off. -/
def Shut (s : Sys) : Prop := Taps.Shut (plumbingOf s) (tapsOf s)

instance (s : Sys) : Decidable (Shut s) := inferInstanceAs (Decidable (_ ∧ (_ → _)))

/-- The panel demands nothing, and the storage program does not have the pumps. -/
def Undemanded (s : Sys) : Prop := s.cfg.waterMode = 0 ∧ s.cfg.waterFlow = 0 ∧ s.stor.status = false

/-- The hand-shake is taken only when nothing is left behind: not between the pass that reaches the target
and the next one, where another water type is still open. -/
def HandsOver (s : Sys) (e : Event) : Prop := e = .runTime → (tapsOf s).ok = .out → Shut s

instance (s : Sys) (e : Event) : Decidable (HandsOver s e) :=
  match e with
  | .runTime => decidable_of_iff ((tapsOf s).ok = .out → Shut s) ⟨fun h _ => h, fun h => h rfl⟩
  | .core | .req | .waterOut | .cooldown | .runningMode | .clearAlarm | .inputs _ | .pulses _ | .heater ..
  | .panel .. | .config _ | .env .. => .isTrue nofun

/-- Passes of the quiet time. -/
def UndemandedAtPass (s : Sys) (e : Event) : Prop := isPass e = true → Undemanded s

instance (s : Sys) (e : Event) : Decidable (UndemandedAtPass s e) :=
  inferInstanceAs (Decidable (_ → _ ∧ _ ∧ _))

/-! ## One water at a time -/

/-- Hot water is demanded of the pass. -/
def asksHot (s : Sys) : Bool := demandHeat (readKeys s)

/-- Cold water is demanded, and not hot. -/
def asksCold (s : Sys) : Bool :=
  !asksHot s && (demandNormal (readKeys s) || demandIce (readKeys s))

/-- The pass takes up hot water with the cold path shut, but for a valve that waits for its closing behind
the pump, and cold water with the hot-water pump off. -/
structure Cleared (s : Sys) : Prop where
  valve : asksHot s = true → s.reqBit .ev2 = true → s.out.closeDelay ≠ 0
  pump : asksHot s = true → s.out.closeDelay ≠ 0 →
    s.cfg.pumpFirst = true ∧ (s.reqBit .wp = false ∨ s.out.flag = .normalIce)
  cold : asksCold s = true → s.reqBit .hwp = false

theorem cleared_iff {s : Sys} : Cleared s ↔ (asksHot s = true → (s.reqBit .ev2 = true → s.out.closeDelay ≠ 0) ∧
    (s.out.closeDelay ≠ 0 → s.cfg.pumpFirst = true ∧ (s.reqBit .wp = false ∨ s.out.flag = .normalIce))) ∧
    (asksCold s = true → s.reqBit .hwp = false) :=
  ⟨fun h => ⟨fun ha => ⟨h.valve ha, h.pump ha⟩, h.cold⟩,
    fun h => ⟨fun ha => (h.1 ha).1, fun ha => (h.1 ha).2, h.2⟩⟩

instance (s : Sys) : Decidable (Cleared s) := decidable_of_iff _ cleared_iff.symm

/-- The passes of a run: outside of storage, without a circulation and `Cleared`. What happens between
them is left open, but for the core thread's functions. -/
def OneAtATime (s : Sys) : Event → Prop
  | .req => s.stor.status = false ∧ s.cfg.storage ≠ 1 ∧ NoCirculation s .req ∧ Cleared s
  | .core | .waterOut => False
  | _ => True

instance (s : Sys) : DecidablePred (OneAtATime s)
  | .req => inferInstanceAs (Decidable (_ ∧ _ ∧ _ ∧ _))
  | .core | .waterOut => instDecidableFalse
  | .cooldown | .runTime | .runningMode | .clearAlarm | .inputs _ | .pulses _ | .heater _ _ | .panel _ _ | .config _
  | .env .. => instDecidableTrue

/-! ## The pumps -/

/-- Purification is about to run its pump. -/
def purifies (s : Sys) : Bool :=
  s.cfg.exitWater == .air && (pwpWanted (getWaterLevel s) s || pwpRunning s) &&
    ((getWaterLevel s).sM || (getWaterLevel s).sL)

/-- A pass finds the dispensing pump running on after a dispense, and the tank to be filled. -/
def lateClosing (s : Sys) : Bool :=
  s.out.flag != .normalIce && s.out.closeDelay != 0 && s.reqBit .wp && purifies s

/-- The passes of a run: outside of storage, and no late closing. -/
def Timely (s : Sys) : Event → Prop
  | .req => s.stor.status = false ∧ s.cfg.storage ≠ 1 ∧ lateClosing s = false
  | _ => True

instance (s : Sys) : DecidablePred (Timely s)
  | .req => inferInstanceAs (Decidable (_ ∧ _ ∧ _))
  | .core | .waterOut | .cooldown | .runTime | .runningMode | .clearAlarm | .inputs _ | .pulses _ | .heater _ _
  | .panel _ _ | .config _ | .env .. => instDecidableTrue

/-- The pass leaves at most one of the two pumps requested. -/
def PumpsApart (s : Sys) : Event → Prop
  | .req => ¬((reqExecution s).reqBit .pwp = true ∧ (reqExecution s).reqBit .wp = true)
  | _ => True

/-! ## Storage -/

/-- The water path belongs to the storage program: each phase has its pump, the second one its valve. -/
structure Drains (s : Sys) : Prop where
  pwp : s.reqBit .pwp = true → s.stor.fsm = .one
  wp : s.reqBit .wp = true → s.stor.fsm = .two
  ev2 : s.reqBit .ev2 = true → s.stor.fsm = .two
  hwp : s.reqBit .hwp = false

/-- Nothing of purification and dispensing is on: the purification pump at most for phase 1, the valve at
most for phase 2. -/
structure Vacant (s : Sys) : Prop where
  pwp : s.reqBit .pwp = true → s.stor.fsm = .one
  ev2 : s.reqBit .ev2 = true → s.stor.fsm = .two
  hwp : s.reqBit .hwp = false

instance (s : Sys) : Decidable (Vacant s) :=
  decidable_of_iff ((s.reqBit .pwp = true → s.stor.fsm = .one) ∧ (s.reqBit .ev2 = true → s.stor.fsm = .two) ∧
    s.reqBit .hwp = false) ⟨fun h => ⟨h.1, h.2.1, h.2.2⟩, fun h => ⟨h.pwp, h.ev2, h.hwp⟩⟩

/-- A state and whether the last pass was entered in storage. -/
def track (x : Sys × Bool) (e : Event) : Sys × Bool :=
  (step x.1 e, if isPass e then x.1.stor.status else x.2)

/-- The storage program takes over a vacant water path: so it is found by the first pass entered in
storage. -/
def TakesVacant (x : Sys × Bool) (e : Event) : Prop :=
  isPass e = true → x.1.stor.status = true → x.2 = false → Vacant x.1

instance (x : Sys × Bool) (e : Event) : Decidable (TakesVacant x e) := inferInstanceAs (Decidable (_ → _))

end WM.Spec
