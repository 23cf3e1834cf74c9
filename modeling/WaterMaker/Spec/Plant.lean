import WaterMaker.Spec.Bank
import WaterMaker.Spec.Events

/-!
# The plant, as it is observed

What the results about the compressors, the fan and the lamps ask of a run and say about it: the timing of the
compressors (`Spec.Bank`) as it stands in the registers, the passes that switch one of them, the alarms that hold them
off, a full tank, and the open case.
-/

namespace WM.Spec

open WM WM.Impl

/-! ## The compressors -/

/-- The timing registers of the compressors. -/
def timingOf (c : Config) : Timing where
  startDelay := c.startDelay
  startupDelay := c.startupDelay
  shield := c.startupLowpressShield
  minRuntime := c.minRuntime
  stopDelay := c.stopDelay
  interval := c.compInterval

/-- The state in which `req_execution` calls `compressor_req_exe`. -/
def beforeComp (s : Sys) : Sys := fanReqExe (i16 s.inp.temp) (sysFanCpWl s)

/-- The registers are written only with a timing in `Q`. -/
def KeepsTiming (Q : Timing → Prop) : Event → Prop
  | .config c => Q (timingOf c)
  | _ => True

instance (Q : Timing → Prop) [DecidablePred Q] : ∀ e, Decidable (KeepsTiming Q e)
  | .config c => inferInstanceAs (Decidable (Q (timingOf c)))
  | .core | .req | .waterOut | .cooldown | .runTime | .runningMode | .clearAlarm | .inputs _ | .pulses _
  | .heater .. | .panel .. | .env .. => inferInstanceAs (Decidable True)

/-- The request of compressor `k` changes to `d`. -/
def ReqSwitch (d : Bool) (k : CompId) (s s' : Sys) : Prop :=
  s.reqBit (.comp k) = !d ∧ s'.reqBit (.comp k) = d

instance (d : Bool) (k : CompId) (s s' : Sys) : Decidable (ReqSwitch d k s s') :=
  inferInstanceAs (Decidable (_ ∧ _))

/-- The generator does not emit `ERR` for compressor `k`, and no alarm holds it off. -/
def calm (k : CompId) (s : Sys) : Prop := (compressorSignalGen s).1.get k ≠ .err ∧ compForced s k = false

instance (k : CompId) (s : Sys) : Decidable (calm k s) := inferInstanceAs (Decidable (_ ∧ _))

/-- Every pass of `compressor_req_exe` is `calm`. -/
def Undisturbed (k : CompId) (s : Sys) : Event → Prop
  | .core => calm k (beforeComp (alarmAclExe s))
  | .req => calm k (beforeComp s)
  | _ => True

instance (k : CompId) (s : Sys) : ∀ e, Decidable (Undisturbed k s e)
  | .core => inferInstanceAs (Decidable (calm ..))
  | .req => inferInstanceAs (Decidable (calm ..))
  | .waterOut | .cooldown | .runTime | .runningMode | .clearAlarm | .inputs _ | .pulses _ | .heater ..
  | .panel .. | .config _ | .env .. => inferInstanceAs (Decidable True)

/-! ## Alarms over the outputs -/

namespace Override

/-- The outputs that the standing alarms hold off. -/
def held (s : Sys) : Do → Bool
  | .comp1 => closeDev s || s.alarmBit .hiPress1
  | .comp2 | .fan => closeDev s
  | _ => false

/-- The outputs `alarm_arbiration` writes. -/
def guarded : Do → Bool
  | .comp1 | .comp2 | .fan => true
  | _ => false

/-- The outputs that `alarm_arbiration` does not write are not masked. -/
def MaskClean (s : Sys) : Prop := ∀ b, guarded b = false → s.maskBit b = false

end Override

/-! ## The fan behind the compressors -/

open Override (guarded)

/-- The fan is asked to start: the machine is on and nothing makes it stand still. -/
def Starts (s : Sys) : Prop := fanSignalGen (sysFanCpWl s) = .start

instance (s : Sys) : Decidable (Starts s) := inferInstanceAs (Decidable (_ = _))

/-- The pass will leave the fan off: it is off and does not start, or its run-on time is over. -/
def FanOffNext (s : Sys) : Prop :=
  match s.fan.fsm with
  | .idle | .other => True
  | .init => ¬ (Starts s ∧ s.tmo.fan = 0)
  | .shut => ¬ Starts s ∧ s.tmo.fan = 0
  | .startUp | .norm => False

/-- A running compressor has to wait in `STOP`: for the interval, or for the first compressor. -/
def WaitsInStop (s : Sys) (k : CompId) : Prop :=
  s.comp.fsm.get k = .stop ∧ s.reqBit (.comp k) = true ∧
    (s.comp.stopInterval ≠ 0 ∨ k = .c2 ∧ s.comp.fsm.c1 = .stop)

/-- The fan will be off after the pass, and a running compressor that no alarm holds off has to wait. -/
def Hazard (s : Sys) : Prop := FanOffNext s ∧ ∃ k, WaitsInStop s k ∧ s.maskBit (.comp k) = false

instance (s : Sys) : Decidable (FanOffNext s) := by
  unfold FanOffNext
  split <;> infer_instance

instance (s : Sys) (k : CompId) : Decidable (WaitsInStop s k) := inferInstanceAs (Decidable (_ ∧ _ ∧ _))

instance (s : Sys) : Decidable (Hazard s) :=
  have : Decidable (∃ k, WaitsInStop s k ∧ s.maskBit (.comp k) = false) :=
    decidable_of_iff ((WaitsInStop s .c1 ∧ s.maskBit (.comp .c1) = false) ∨
        (WaitsInStop s .c2 ∧ s.maskBit (.comp .c2) = false))
      ⟨fun h => h.elim (⟨_, ·⟩) (⟨_, ·⟩), fun ⟨k, h⟩ => by cases k; exacts [.inl h, .inr h]⟩
  inferInstanceAs (Decidable (_ ∧ _))

/-- The registers under which the alarms are in force for the fan and the compressors. -/
structure Supervised (c : Config) : Prop where
  normal : c.normalMode = true
  bypass : c.alarmBypassEn = 0
  fitted : ∀ b, guarded b → c.maskDout.get b.bpos = true
  interval : 0 < c.compInterval

/-- No pass of the core thread begins in a hazard. -/
def NoHazard (s : Sys) (e : Event) : Prop := e = .core → ¬ Hazard (alarmAclExe s)

instance (s : Sys) (e : Event) : Decidable (NoHazard s e) :=
  match e with
  | .core => decidable_of_iff (¬ Hazard (alarmAclExe s)) ⟨fun h _ => h, fun h => h rfl⟩
  | .req | .waterOut | .cooldown | .runTime | .runningMode | .clearAlarm | .inputs _ | .pulses _ | .heater ..
  | .panel .. | .config _ | .env .. => .isTrue nofun

/-! ## A full tank -/

/-- A tank is full. -/
def Full (s : Sys) : Prop := (getWaterLevel s).sU ∨ (getWaterLevel s).dU

instance (s : Sys) : Decidable (Full s) := inferInstanceAs (Decidable (_ ∨ _))

/-- The level is read on every pass. -/
def FullAtPass (s : Sys) (e : Event) : Prop := isPass e → Full s

instance (s : Sys) (e : Event) : Decidable (FullAtPass s e) := inferInstanceAs (Decidable (_ → _))

/-- A second has passed since the last pass. -/
def pending (p : Bool) (e : Event) : Bool := if second e then true else if isPass e then false else p

/-- Between two seconds there is a pass. -/
def Spaced (es : List Event) : Prop := Along pending (fun p e => second e → p = false) false es

instance (es : List Event) : Decidable (Spaced es) :=
  inferInstanceAs (Decidable (Along pending (fun p e => second e → p = false) false es))

/-! ## The lamps -/

/-- Both lamps are off after `req_execution`. -/
def LampsOff (s : Sys) : Prop := (reqExecution s).reqBit .uv1 = false ∧ (reqExecution s).reqBit .uv24 = false

/-- Every lamp that is lit is one that the present setting puts out. -/
def PutsOut (s : Sys) : Prop :=
  (s.reqBit .uv1 = true → s.cfg.uvDelay ≠ 999 ∧ s.cfg.sterilizeMode ≠ 2) ∧
    (s.reqBit .uv24 = true → s.cfg.uvDelay ≠ 999 ∧ (s.cfg.sterilizeMode = 2 ∨ s.cfg.sterilizeMode = 3))

instance (s : Sys) : Decidable (PutsOut s) := inferInstanceAs (Decidable (_ ∧ _))

end WM.Spec
