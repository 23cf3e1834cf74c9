import WaterMaker.Impl.Config
import WaterMaker.Spec.Dispense

/-!
# What a pass of `req_execution` leaves alone

The pass has two halves that share no state: water production (`plantPass`: start conditions, fan and
compressors) and the water path (`waterPass`: everything behind them). `waterView` is a state without the
plant, and the plant's half keeps it (`waterView_plantPass`); `plantView` is the plant with what it reads,
and the water half keeps that (`plantView_waterPass`).
-/

namespace WM.Proof

open WM WM.Impl WM.Spec

/-- The first half of `req_execution`. -/
def plantPass (s : Sys) : Sys := compressorReqExe (fanReqExe (i16 s.inp.temp) (sysFanCpWl s))

/-- The second half. -/
def waterPass (s : Sys) : Sys :=
  s |> pwpReqExe |> coldWaterExe |> sterilizeReqExe |> waterOutReqExe |> defrostReqExe |> storageExe
    |> restartDisExe

theorem reqExecution_eq (s : Sys) : reqExecution s = waterPass (plantPass s) := rfl

/-- The plant's outputs. -/
def plantBit (b : Do) : Bool := b = .comp1 || b = .comp2 || b = .fan || b = .f24

@[simp] theorem plantBit_comp (k : CompId) : plantBit (.comp k) = true := by
  cases k <;> rfl

/-! ## What the start conditions, the fan and the compressors write -/

/-- A view that the writes of `Sys_Fan_CP_WL` keep. -/
structure StartFrame {α : Type} (v : Sys → α) : Prop where
  start : ∀ f s, v (setStart f s) = v s
  close : ∀ b on s, v (closeOp b on s) = v s

theorem StartFrame.sysFanCpWl {α : Type} {v : Sys → α} (h : StartFrame v) (s : Sys) :
    v (sysFanCpWl s) = v s := by
  have hlevel : ∀ wl s, v (levelClose wl s) = v s := fun wl s => by
    simp [levelClose, waterFullCalc, h.start, h.close, apply_ite v]
  have hth : ∀ s, v (thCheck s) = v s := fun s => by
    simp [thCheck, h.start, h.close, apply_ite v]
  simp [Impl.sysFanCpWl, hlevel, hth, powerOnTime, offsetCount, defrostRecheck, h.start, h.close,
    apply_ite v]

/-- A view that the writes of `fan_req_exe` keep. -/
structure FanFrame {α : Type} (v : Sys → α) : Prop where
  st : ∀ f s, v (setFanSt f s) = v s
  tmo : ∀ n s, v (setTmo (fun t => { t with fan := n }) s) = v s
  fan : ∀ on s, v (reqBitmapOp .fan on s) = v s
  f24 : ∀ on s, v (reqBitmapOp .f24 on s) = v s

theorem FanFrame.fanReqExe {α : Type} {v : Sys → α} (h : FanFrame v) (temp : Int) (s : Sys) :
    v (fanReqExe temp s) = v s := by
  have hset : ∀ fsm gear t s, v (setFan fsm gear t s) = v s := fun fsm gear t s => by
    simp [setFan, h.st, h.tmo]
  have hfsm : ∀ sig s, v (fanFsm sig s) = v s := fun sig s => by
    unfold fanFsm
    cases s.fan.fsm <;> simp [hset, apply_ite v]
  have hout : ∀ s, v (fanFsmOut s) = v s := fun s => by
    unfold fanFsmOut
    cases s.fan.gear <;> simp [h.fan, h.f24]
  have hgear : ∀ s, v (fanLowGear s) = v s := fun s => by
    simp [fanLowGear, h.st, apply_ite v]
  have hreset : v (fanAlarmReset s) = v s := by
    simp [fanAlarmReset, hset, apply_ite v]
  simp [Impl.fanReqExe, ecFanOutput, fanFsmExe, h.st, hgear, hreset, hfsm, hout]

@[simp] theorem fanReqExe_comp (temp : Int) (s : Sys) : (fanReqExe temp s).comp = s.comp :=
  FanFrame.fanReqExe (v := Sys.comp) ⟨fun _ _ => rfl, fun _ _ => rfl, fun _ _ => rfl, fun _ _ => rfl⟩ temp s

/-- A view that the writes of `compressor_req_exe` keep. -/
structure CompFrame {α : Type} (v : Sys → α) : Prop where
  st : ∀ (f : CompSt → CompSt) s, (∀ c, (f c).close = c.close) → v (setCompSt f s) = v s
  tmo : ∀ (f : Pair Nat → Pair Nat) s, v (setTmo (fun t => { t with comp := f t.comp }) s) = v s
  req : ∀ k on s, v (reqBitmapOp (.comp k) on s) = v s

theorem CompFrame.compressorFsm {α : Type} {v : Sys → α} (h : CompFrame v) (k : CompId) (sig : CompSig)
    (s : Sys) : v (compressorFsm k sig s) = v s := by
  have hset : ∀ fsm t s, v (setComp k fsm t s) = v s := fun fsm t s =>
    (h.tmo (·.set k t) _).trans (h.st _ s fun _ => rfl)
  unfold Impl.compressorFsm
  cases s.comp.fsm.get k <;> simp [hset, armStartup, armStop, h.st, h.req, apply_ite v]

theorem CompFrame.compressorReqExe {α : Type} {v : Sys → α} (h : CompFrame v) (s : Sys) :
    v (compressorReqExe s) = v s := by
  simp [Impl.compressorReqExe, h.compressorFsm, compAlarmStop, h.st, apply_ite v]

/-! ## What the parts of the water path write -/

section keeps

variable {α : Type} {v : Sys → α} (s : Sys)

/-- A view that purification keeps. -/
theorem pwp_keeps (hpwp : ∀ f s, v (setPwp f s) = v s) (hreq : ∀ on s, v (reqBitmapOp .pwp on s) = v s ∧
    v (reqBitmapOp .ev1 on s) = v s ∧ v (reqBitmapOp .fv on s) = v s)
    (hcfg : ∀ s, v (setCfg (.setDisinfection 0) s) = v s ∧ v (setCfg (.setExitWater 0) s) = v s)
    (hreg : ∀ a n s, v (writeReg a n s) = v s) : v (pwpReqExe s) = v s := by
  simp [pwpReqExe, pwpExternal, pwpFill, pwpSwitch, pwpOp, hpwp, hreq, hcfg, hreg, apply_ite v]

/-- A view that the ice water keeps. -/
theorem ice_keeps (hreq : ∀ on s, v (reqBitmapOp .cv on s) = v s ∧ v (reqBitmapOp .wv on s) = v s)
    (hcold : ∀ f s, (∀ c, (f c).bdTime = c.bdTime) → v (setCold f s) = v s) : v (coldWaterExe s) = v s := by
  have hval : ∀ s, v (coldValves s) = v s := fun s => by
    cases h : s.cold.coldWater <;> simp [coldValves, h, hcold, hreq, apply_ite v]
  simp [coldWaterExe, coldDemand, coldSwitch, hval, hcold, hreq, apply_ite v]

/-- A view that the lamp's program keeps. -/
theorem lamp_keeps (hreq : ∀ b on s, plantBit b = false → v (reqBitmapOp b on s) = v s)
    (hster : ∀ f s, v (setSter f s) = v s) : v (sterilizeReqExe s) = v s := by
  have huv : ∀ on delay s, v (uvReqExe on delay s) = v s := fun on delay s => by
    simp [uvReqExe, uvLamp, uvLed, hreq, plantBit, hster, apply_ite v]
  simp [sterilizeReqExe, sterCirculate, sterEnd, closeEv2, huv, hreq, plantBit, hster, apply_ite v]

/-- A view that the coils' delays keep. -/
theorem defrost_keeps (hset : ∀ b on s, v (setRemapStatus b on s) = v s) : v (defrostReqExe s) = v s := by
  simp [defrostReqExe, defrostCoil, hset, apply_ite v]

/-- A view that the restart of the display keeps. -/
theorem restart_keeps (hset : ∀ f s, v (setDis f s) = v s) (hpwr : ∀ on s, v (reqBitmapOp .pwrCtrl on s) = v s)
    (hnet : ∀ s, v (setCfg (.setNetErr 0) s) = v s) : v (restartDisExe s) = v s := by
  simp [restartDisExe, restartHold, restartCount, restartPower, hset, hpwr, hnet, apply_ite v]

end keeps

/-! ## What dispensing writes -/

/-- The registers of dispensing without the keys and the child lock. -/
abbrev unkeyed (o : OutSt) : OutSt :=
  { o with key := 0, delay0 := 0, delay1 := 0, delay2 := 0, childLockKey := false, childLockCnt0 := 0
           childLockCnt1 := 0 }

/-- A view that reading the keys keeps. -/
theorem keys_keep {α : Type} {v : Sys → α} (s : Sys)
    (hout : ∀ (f : OutSt → OutSt) s, (∀ o, unkeyed (f o) = unkeyed o) → v (setOut f s) = v s)
    (hreq : ∀ on s, v (reqBitmapOp .rh1 on s) = v s ∧ v (reqBitmapOp .ledLock on s) = v s) :
    v (readKeys s) = v s := by
  have hcold : ∀ s, v (keyCold s) = v s := fun s => by simp [keyCold, hout, unkeyed]
  have hchild : ∀ s, v (keyChild s) = v s := fun s => by simp [keyChild, hout, unkeyed, apply_ite v]
  have hhot : ∀ s, v (keyHot s) = v s := fun s => by simp [keyHot, hout, unkeyed, apply_ite v]
  simp [readKeys, waterOutKey, keyLamp, hcold, hchild, hhot, hout, unkeyed, hreq, apply_ite v]

/-- `WaterOut_req_exe` reads the keys, then closes or serves. -/
theorem waterOutReqExe_eq (s : Sys) : waterOutReqExe s =
    if s.stor.status then reqBitmapOp .rh1 true s
    else if !waterDemand (readKeys s) || !waterOutLevel (readKeys s) then waterOutIdle (clearDemand (readKeys s))
    else if (readKeys s).alarmBit .e4 then waterOutCloseAll (readKeys s) else waterOutServe (readKeys s) := rfl

/-- The outputs of dispensing. -/
def outBit (b : Do) : Bool :=
  b = .wp || b = .hwp || b = .pwp || b = .ev1 || b = .ev2 || b = .ev3 || b = .ev4 || b = .fv || b = .uv1 ||
    b = .rh1 || b = .ledLock

theorem plantBit_of_outBit {b : Do} (h : outBit b = true) : plantBit b = false := by
  revert h
  cases b <;> decide

/-- The status without the volumes. -/
def dryStatus (t : Status) : Status := { t with curWater := 0, lastWater := 0, pluseCnt := 0 }

/-- The registers of dispensing without those of a closing. -/
abbrev unclosed (o : OutSt) : OutSt := { o with flag := .no, closeDelay := 0, closeNum := 0, heatTx := [] }

/-- A view that the outputs of a closing, its clock and the heater's last telegrams keep. -/
structure ValveFrame {α : Type} (v : Sys → α) : Prop where
  out : ∀ (f : OutSt → OutSt) s, (∀ o, unclosed (f o) = unclosed o) → v (setOut f s) = v s
  ster : ∀ n s, v (setSter (fun t => { t with uvDelay := n }) s) = v s
  clock : ∀ s, v (setTmo (fun t => { t with ev2 := 0 }) s) = v s
  req : ∀ b on s, outBit b = true → v (reqBitmapOp b on s) = v s

namespace ValveFrame

variable {α : Type} {v : Sys → α} (h : ValveFrame v) (s : Sys)
include h

theorem uvReqExe (on delay : Bool) : v (uvReqExe on delay s) = v s := by
  simp [Impl.uvReqExe, uvLamp, uvLed, h.ster, h.req, outBit, apply_ite v]

theorem externalWaterExe (on : Bool) : v (externalWaterExe on s) = v s := by
  simp [Impl.externalWaterExe, h.req, outBit, apply_ite v]

theorem heatSend (c : HeatCmd) : v (heatSend c s) = v s := by
  simp [Impl.heatSend, h.out, unclosed, apply_ite v]

theorem closeHeatSend : v (closeHeatSend s) = v s := by
  simp [Impl.closeHeatSend, h.heatSend, h.out, unclosed, apply_ite v]

theorem closeFlag : v (closeFlag s) = v s := by
  simp [Impl.closeFlag, h.clock, h.out, unclosed, h.externalWaterExe, h.uvReqExe, apply_ite v]

theorem closeWp : v (closeWp s) = v s := by
  simp [Impl.closeWp, h.req, outBit, apply_ite v]

theorem closeWater (w : Water) : v (closeWater w s) = v s := by
  cases w <;> simp [Impl.closeWater, closeNormalIce, closeHeat, closeIce, closeEv2, h.closeWp, h.req, outBit, h.out,
    unclosed, apply_ite v]

theorem closeWait : v (closeWait s) = v s := by
  simp [Impl.closeWait, h.closeWp, h.req, outBit, h.out, unclosed, apply_ite v]

end ValveFrame

/-- A view that the writes of `WaterOut_req_exe` keep, the keys, the child lock and the heater's first pauses apart. -/
structure CloseFrame {α : Type} (v : Sys → α) : Prop where
  out : ∀ (f : OutSt → OutSt) s, (∀ o, (f o).key = o.key ∧ (f o).childLockKey = o.childLockKey ∧
    (f o).childLockCnt0 = o.childLockCnt0 ∧ (f o).childLockCnt1 = o.childLockCnt1 ∧ (f o).heatFirst = o.heatFirst) →
    v (setOut f s) = v s
  ster : ∀ n s, v (setSter (fun t => { t with uvDelay := n }) s) = v s
  tmo : ∀ (f : Timeout → Timeout) s, (∀ t, (f t).fan = t.fan ∧ (f t).comp = t.comp ∧ (f t).ev1 = t.ev1 ∧
    (f t).p2 = t.p2) → v (setTmo f s) = v s
  cfg : ∀ (f : Config → Config) s, (∀ c, (f c).setWater 0 0 = c.setWater 0 0) → v (setCfg f s) = v s
  sts : ∀ (f : Status → Status) s, (∀ t, dryStatus (f t) = dryStatus t) → v (setSts f s) = v s
  req : ∀ b on s, outBit b = true → v (reqBitmapOp b on s) = v s

/-- A view that a pause of the heater keeps too. -/
structure OutFrame {α : Type} (v : Sys → α) : Prop extends CloseFrame v where
  first : ∀ s, v (setOut (fun o => { o with heatFirst := o.heatFirst + 1 }) s) = v s

namespace CloseFrame

variable {α : Type} {v : Sys → α}

section

variable (h : CloseFrame v)
include h

theorem valve : ValveFrame v where
  out f s hf := h.out f s fun o => by
    have ho := congrArg (fun o : OutSt => (o.key, o.childLockKey, o.childLockCnt0, o.childLockCnt1, o.heatFirst)) (hf o)
    simpa only [Prod.mk.injEq] using ho
  ster := h.ster
  clock s := h.tmo _ s fun _ => ⟨rfl, rfl, rfl, rfl⟩
  req := h.req

theorem closeVolume (s : Sys) : v (closeVolume s) = v s := by
  unfold Impl.closeVolume
  split
  · rw [h.cfg, h.sts] <;> exact fun _ => rfl
  · rfl

theorem waterOutClose (w : Water) (s : Sys) : v (waterOutClose w s) = v s := by
  have hout : ∀ s, v (closeOutputs w s) = v s := fun s => by
    simp [closeOutputs, h.valve.closeWait, h.closeVolume, h.valve.closeWater, h.out, apply_ite v]
  simp [Impl.waterOutClose, closeHeater, h.valve.closeHeatSend, h.valve.closeFlag, hout, h.out, apply_ite v]

theorem waterOutCloseAll (s : Sys) : v (waterOutCloseAll s) = v s := by
  simp [Impl.waterOutCloseAll, h.waterOutClose]

theorem waterOutMax (s : Sys) : v (waterOutMax s) = v s := by
  simp [Impl.waterOutMax, h.waterOutCloseAll, apply_ite v]

theorem setCurWater (n : Nat) (s : Sys) : v (setCurWater n s) = v s := h.sts _ s fun _ => rfl

theorem meterPulses (s : Sys) : v (meterPulses s) = v s := by
  unfold Impl.meterPulses
  rw [h.setCurWater, h.sts]
  · simp [h.out, apply_ite v]
  · exact fun _ => rfl

theorem countDispense (s : Sys) : v (countDispense s) = v s := h.tmo _ s fun _ => ⟨rfl, rfl, rfl, rfl⟩

theorem armHeating (s : Sys) : v (armHeating s) = v s := h.tmo _ s fun _ => ⟨rfl, rfl, rfl, rfl⟩

theorem meterHeat (s : Sys) : v (meterHeat s) = v s := by
  simp [Impl.meterHeat, h.setCurWater, h.out, apply_ite v]

theorem heatDialogue (s : Sys) : v (heatDialogue s) = v s := by
  have hflow : ∀ s, v (setCfg (fun c => c.setWater c.waterMode 5000) s) = v s := fun s =>
    h.cfg _ s fun _ => rfl
  simp [Impl.heatDialogue, h.armHeating, h.valve.heatSend, h.out, hflow, apply_ite v]

theorem waterOutPot (s : Sys) : v (waterOutPot s) = v s := by
  simp [Impl.waterOutPot, h.meterPulses, h.waterOutClose, h.armHeating, h.out, h.req, outBit, apply_ite v]

theorem waterOutCold (s : Sys) : v (waterOutCold s) = v s := by
  have hserve : ∀ s, v (coldServe s) = v s := fun s => by
    simp [coldServe, coldPump, coldOutlet, h.valve.externalWaterExe, h.valve.uvReqExe, h.armHeating, h.out, h.req,
      outBit, apply_ite v]
  simp [Impl.waterOutCold, h.meterPulses, h.waterOutClose, hserve, apply_ite v]

theorem waterOutIdle (s : Sys) : v (waterOutIdle (clearDemand s)) = v s := by
  have hclear : v (setCfg (.setWater 0 0) s) = v s := h.cfg _ s fun _ => rfl
  simp [Impl.waterOutIdle, clearDemand, h.out, h.waterOutCloseAll, hclear, apply_ite v]

end

end CloseFrame

namespace OutFrame

variable {α : Type} {v : Sys → α}

section

variable (h : OutFrame v)
include h

theorem waterOutInstant (s : Sys) : v (waterOutInstant s) = v s := by
  simp [Impl.waterOutInstant, h.meterHeat, h.heatDialogue, h.valve.closeHeatSend, h.first, h.waterOutClose,
    h.waterOutMax, h.out, apply_ite v]

/-- Behind the keys `WaterOut_req_exe` keeps what its writes keep. -/
theorem waterOutReqExe_keys (s : Sys) :
    v (waterOutReqExe s) = v (if s.stor.status then reqBitmapOp .rh1 true s else readKeys s) := by
  have hserve : ∀ s, v (waterOutServe s) = v s := fun s => by
    simp [waterOutServe, h.waterOutInstant, h.waterOutPot, h.waterOutCold, h.countDispense, h.waterOutMax,
      h.waterOutCloseAll, apply_ite v]
  simp [waterOutReqExe_eq, hserve, h.waterOutIdle, h.waterOutCloseAll, apply_ite v]

/-- `WaterOut_req_exe` keeps what all its writes keep. -/
theorem waterOutReqExe (hout : ∀ f s, v (setOut f s) = v s) (s : Sys) : v (waterOutReqExe s) = v s := by
  have hreq : ∀ on s, v (reqBitmapOp .rh1 on s) = v s ∧ v (reqBitmapOp .ledLock on s) = v s := fun on s =>
    ⟨h.req _ on s rfl, h.req _ on s rfl⟩
  rw [h.waterOutReqExe_keys, apply_ite v, keys_keep s (fun f s _ => hout f s) hreq, (hreq true s).1, ite_self]

end

end OutFrame

/-! ## What the storage program writes -/

/-- A view that the writes of `Storage_exe` keep. -/
structure StorFrame {α : Type} (v : Sys → α) : Prop where
  stor : ∀ f s, v (setStor f s) = v s
  tmo1 : ∀ n s, v (setTmo (fun t => { t with ev1 := n }) s) = v s
  tmo2 : ∀ n s, v (setTmo (fun t => { t with p2 := n }) s) = v s
  one : ∀ on s, v (storOne on s) = v s
  two : ∀ on s, v (storTwo on s) = v s
  runtime : ∀ (f : List Runtime → List Runtime) s, v (setSts (fun t => { t with runtime := f t.runtime }) s) = v s
  cfg : ∀ s, v (setCfg (.setStorage 0) s) = v s
  reg : ∀ a n s, v (writeReg a n s) = v s

theorem StorFrame.storageExe {α : Type} {v : Sys → α} (h : StorFrame v) (s : Sys) : v (storageExe s) = v s := by
  have hreset : ∀ n s, v (resetRuntime n s) = v s := fun n s => by
    unfold resetRuntime
    split
    · exact h.runtime (·.set (n - 1) ⟨0, 0⟩) s
    · rfl
  unfold Impl.storageExe storageFsm
  cases hf : s.stor.fsm <;> simp only [setStor_stor, hf, storNext, storCancel, storTimeout1, storTimeout2,
    apply_ite v, h.stor, h.tmo1, h.tmo2, h.one, h.two, hreset, h.cfg, h.reg, ite_self]

/-! ## The plant's half keeps the water path -/

/-- A state without the plant: its registers as after power-on, its outputs left out. -/
def waterView (s : Sys) : Sys × (Do → Bool) :=
  let z := boot s.cfg s.inp
  ({ s with fan := z.fan, comp := z.comp, start := z.start, req := z.req
            tmo := { s.tmo with fan := 0, comp := ⟨0, 0⟩ } },
   fun b => !plantBit b && s.reqBit b)

section waterView

variable (s : Sys)

@[simp] theorem waterView_reqBitmapOp {b : Do} (h : plantBit b = true) (on : Bool) :
    waterView (reqBitmapOp b on s) = waterView s := by
  refine Prod.ext rfl (funext fun b' => ?_)
  change (!plantBit b' && (reqBitmapOp b on s).reqBit b') = (!plantBit b' && s.reqBit b')
  rw [reqBit_reqBitmapOp]
  split
  · rename_i hb
    rw [hb, h]; rfl
  · rfl

theorem waterView_startFrame : StartFrame waterView := ⟨fun _ _ => rfl, fun _ _ _ => rfl⟩

theorem waterView_fanFrame : FanFrame waterView :=
  ⟨fun _ _ => rfl, fun _ _ => rfl, fun on s => waterView_reqBitmapOp s rfl on,
    fun on s => waterView_reqBitmapOp s rfl on⟩

theorem waterView_compFrame : CompFrame waterView :=
  ⟨fun _ _ _ => rfl, fun _ _ => rfl, fun k on s => waterView_reqBitmapOp s (plantBit_comp k) on⟩

/-- The plant's half of the pass keeps the water path. -/
theorem waterView_plantPass : waterView (plantPass s) = waterView s := by
  unfold plantPass
  rw [waterView_compFrame.compressorReqExe, waterView_fanFrame.fanReqExe, waterView_startFrame.sysFanCpWl]

end waterView

section plantPass

variable (s : Sys)

@[simp] theorem plantPass_cfg : (plantPass s).cfg = s.cfg :=
  congrArg (·.1.cfg) (waterView_plantPass s)

@[simp] theorem plantPass_inp : (plantPass s).inp = s.inp :=
  congrArg (·.1.inp) (waterView_plantPass s)

@[simp] theorem plantPass_sts : (plantPass s).sts = s.sts :=
  congrArg (·.1.sts) (waterView_plantPass s)

@[simp] theorem plantPass_pwp : (plantPass s).pwp = s.pwp :=
  congrArg (·.1.pwp) (waterView_plantPass s)

@[simp] theorem plantPass_cold : (plantPass s).cold = s.cold :=
  congrArg (·.1.cold) (waterView_plantPass s)

@[simp] theorem plantPass_ster : (plantPass s).ster = s.ster :=
  congrArg (·.1.ster) (waterView_plantPass s)

@[simp] theorem plantPass_out : (plantPass s).out = s.out :=
  congrArg (·.1.out) (waterView_plantPass s)

@[simp] theorem plantPass_stor : (plantPass s).stor = s.stor :=
  congrArg (·.1.stor) (waterView_plantPass s)

theorem reqBit_plantPass {b : Do} (h : plantBit b = false) :
    (plantPass s).reqBit b = s.reqBit b := by
  have := congrFun (congrArg Prod.snd (waterView_plantPass s)) b
  simpa only [waterView, h, Bool.not_false, Bool.true_and] using this

end plantPass

/-! ## The water path keeps the plant -/

/-- The registers without those that the water path writes. -/
def plantCfg (c : Config) : Config :=
  { c with disinfectionMode := 0, exitWaterMode := 0, waterMode := 0, waterFlow := 0, storage := 0
           netErr := 0 }

/-- The status without what the water path writes. -/
def plantSts (t : Status) : Status :=
  { t with workMode := 0, curWater := 0, lastWater := 0, pluseCnt := 0, runtime := [] }

/-- A state without the water path: its registers as after power-on, its outputs left out. -/
def plantView (s : Sys) : Sys × (Do → Bool) :=
  let z := boot s.cfg s.inp
  ({ s with cfg := plantCfg s.cfg, sts := plantSts s.sts, pwp := z.pwp, cold := z.cold, ster := z.ster
            out := z.out, stor := z.stor, dis := z.dis, req := z.req, regWrites := z.regWrites
            tmo := { s.tmo with rh1 := 0, ev1 := 0, ev2 := 0, p2 := 0 } },
   fun b => plantBit b && s.reqBit b)

section plantView

variable (s : Sys)

@[simp] theorem plantView_setCfg {f : Config → Config} (h : ∀ c, plantCfg (f c) = plantCfg c) :
    plantView (setCfg f s) = plantView s :=
  Prod.ext (congrArg (fun c => { (plantView s).1 with cfg := c }) (h s.cfg)) rfl

theorem plantView_setSts {f : Status → Status} (h : ∀ t, plantSts (f t) = plantSts t) :
    plantView (setSts f s) = plantView s :=
  Prod.ext (congrArg (fun t => { (plantView s).1 with sts := t }) (h s.sts)) rfl

@[simp] theorem plantView_setTmo {f : Timeout → Timeout}
    (h : ∀ t, (f t).fan = t.fan ∧ (f t).comp = t.comp) : plantView (setTmo f s) = plantView s := by
  have h1 := (h s.tmo).1
  have h2 := (h s.tmo).2
  simp only [plantView, setTmo, h1, h2]
  rfl

@[simp] theorem plantView_reqBitmapOp {b : Do} (h : plantBit b = false) (on : Bool) :
    plantView (reqBitmapOp b on s) = plantView s := by
  refine Prod.ext rfl (funext fun b' => ?_)
  change (plantBit b' && (reqBitmapOp b on s).reqBit b') = (plantBit b' && s.reqBit b')
  rw [reqBit_reqBitmapOp]
  split
  · rename_i hb
    rw [hb, h]; rfl
  · rfl

@[simp] theorem plantCfg_setExitWater (v : Nat) (c : Config) :
    plantCfg (c.setExitWater v) = plantCfg c := by rfl
@[simp] theorem plantCfg_setDisinfection (v : Nat) (c : Config) :
    plantCfg (c.setDisinfection v) = plantCfg c := by rfl
theorem plantView_pwpReqExe : plantView (pwpReqExe s) = plantView s :=
  pwp_keeps s (fun _ _ => rfl) (fun on s => by simp [plantBit]) (fun s => by simp) fun _ _ _ => rfl

theorem plantView_coldWaterExe : plantView (coldWaterExe s) = plantView s :=
  ice_keeps s (fun on s => by simp [plantBit]) fun _ _ _ => rfl

theorem plantView_sterilizeReqExe : plantView (sterilizeReqExe s) = plantView s :=
  lamp_keeps s (fun _ on s h => plantView_reqBitmapOp s h on) fun _ _ => rfl

theorem plantView_outFrame : OutFrame plantView where
  out _ _ _ := rfl
  ster _ _ := rfl
  tmo _ s h := plantView_setTmo s fun t => ⟨(h t).1, (h t).2.1⟩
  cfg f s h := plantView_setCfg s fun c =>
    show plantCfg ((f c).setWater 0 0) = plantCfg (c.setWater 0 0) from congrArg plantCfg (h c)
  sts f s h := plantView_setSts s fun t =>
    show plantSts (dryStatus (f t)) = plantSts (dryStatus t) from congrArg plantSts (h t)
  req _ on s h := plantView_reqBitmapOp s (plantBit_of_outBit h) on
  first _ := rfl

theorem plantView_waterOutReqExe : plantView (waterOutReqExe s) = plantView s :=
  plantView_outFrame.waterOutReqExe (fun _ _ => rfl) s

theorem plantView_defrostReqExe : plantView (defrostReqExe s) = plantView s :=
  defrost_keeps s fun _ _ s => plantView_setSts s fun _ => rfl

theorem plantView_storFrame : StorFrame plantView where
  stor _ _ := rfl
  tmo1 _ _ := rfl
  tmo2 _ _ := rfl
  one on s := by simp [storOne, plantBit]
  two on s := by simp [storTwo, plantBit]
  runtime _ s := plantView_setSts s fun _ => rfl
  cfg s := plantView_setCfg s fun _ => rfl
  reg _ _ _ := rfl

theorem plantView_storageExe : plantView (storageExe s) = plantView s := plantView_storFrame.storageExe s

theorem plantView_restartDisExe : plantView (restartDisExe s) = plantView s :=
  restart_keeps s (fun _ _ => rfl) (fun on s => plantView_reqBitmapOp s rfl on) fun s =>
    plantView_setCfg s fun _ => rfl

/-- The water half of the pass keeps the plant. -/
theorem plantView_waterPass : plantView (waterPass s) = plantView s := by
  simp only [waterPass, plantView_restartDisExe, plantView_storageExe, plantView_defrostReqExe,
    plantView_waterOutReqExe, plantView_sterilizeReqExe, plantView_coldWaterExe, plantView_pwpReqExe]

/-- What neither half of the pass writes stays as it is. -/
theorem view_reqExecution {α : Type} {v : Sys → α} (hplant : ∀ s, v (plantView s).1 = v s)
    (hwater : ∀ s, v (waterView s).1 = v s) : v (reqExecution s) = v s := by
  rw [reqExecution_eq, ← hplant, plantView_waterPass, hplant, ← hwater, waterView_plantPass, hwater]

end plantView

section waterPass

variable (s : Sys)

@[simp] theorem waterPass_fan : (waterPass s).fan = s.fan :=
  congrArg (·.1.fan) (plantView_waterPass s)

@[simp] theorem waterPass_comp : (waterPass s).comp = s.comp :=
  congrArg (·.1.comp) (plantView_waterPass s)

theorem plantCfg_waterPass : plantCfg (waterPass s).cfg = plantCfg s.cfg :=
  congrArg (·.1.cfg) (plantView_waterPass s)

theorem reqBit_waterPass {b : Do} (h : plantBit b = true) : (waterPass s).reqBit b = s.reqBit b := by
  have := congrFun (congrArg Prod.snd (plantView_waterPass s)) b
  simpa only [plantView, h, Bool.true_and] using this

end waterPass

end WM.Proof
