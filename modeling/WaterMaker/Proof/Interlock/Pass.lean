import WaterMaker.Spec.Rest
import WaterMaker.Proof.Bank
import WaterMaker.Proof.Fan
import WaterMaker.Proof.Override

/-!
# Compressors and fan in one pass

`Entered` is what holds when `req_execution` is entered. Behind the pass the compressors are at rest
whenever the fan is off or ending (`Entered.rest'`), and one that no alarm holds off runs without the fan
exactly if the pass began in a `Hazard` (`Entered.reqBit_comp_iff`, `Entered.safe`).
-/

namespace WM.Proof

open WM WM.Impl WM.Spec
open WM.Spec.Override (guarded held)

/-! ## The words of the alarms -/

/-- MASK shows which outputs the standing alarms hold off, and ALARM is 0 there. -/
def MaskHeld (s : Sys) : Prop :=
  ∀ b, guarded b → s.maskBit b = held s b ∧ (s.maskBit b → s.almBit b = false)

theorem held_alarmHold (o : Do) (on : Bool) (s : Sys) (b : Do) : held (alarmHold o on s) b = held s b := by
  cases b <;> rfl

theorem maskHeld_alarmArbiration (s : Sys) : MaskHeld (alarmArbiration s) := fun b hb => by
  have hheld : held (alarmArbiration s) b = held s b := by
    unfold alarmArbiration
    rw [held_alarmHold, held_alarmHold, held_alarmHold]
  rw [Override.maskBit_alarmArbiration, hb, if_pos rfl, Override.almBit_alarmArbiration _ hb, hheld]
  exact ⟨rfl, fun h => by rw [h]; rfl⟩

theorem MaskHeld.alarmAclExe {s : Sys} (h : MaskHeld s) : MaskHeld (alarmAclExe s) := by
  unfold Impl.alarmAclExe
  dsimp only
  split
  · exact h
  · exact maskHeld_alarmArbiration _

theorem MaskHeld.forced {s : Sys} (h : MaskHeld s) (k : CompId) : compForced s k = s.maskBit (.comp k) := by
  have hk := (h (.comp k) (by cases k <;> rfl)).2
  unfold compForced
  cases hm : s.maskBit (.comp k)
  · rfl
  · simp [hk hm]

/-- What holds off the fan holds off the compressors. -/
theorem MaskHeld.comp_of_fan {s : Sys} (h : MaskHeld s) (hf : s.maskBit .fan) (k : CompId) :
    s.maskBit (.comp k) = true := by
  have hfan := (h .fan rfl).1
  rw [hf] at hfan
  replace hfan : closeDev s = true := hfan.symm
  cases k with
  | c1 => exact (h .comp1 rfl).1.trans (by simp [held, hfan])
  | c2 => exact (h .comp2 rfl).1.trans hfan

theorem MaskHeld.fan_of_e7 {s : Sys} (h : MaskHeld s) (he : s.alarmBit .e7) : s.maskBit .fan = true :=
  (h .fan rfl).1.trans (by simp [held, closeDev, he])

/-! ## The signals -/

section signals

variable (s : Sys)

@[simp] theorem beforeComp_sts : (beforeComp s).sts = s.sts := congrArg (·.1.sts) (waterView_beforeComp s)

@[simp] theorem beforeComp_mask : (beforeComp s).mask = s.mask :=
  congrArg (·.1.mask) (waterView_beforeComp s)

@[simp] theorem beforeComp_alm : (beforeComp s).alm = s.alm := congrArg (·.1.alm) (waterView_beforeComp s)

theorem fanReqExe_close (temp : Int) : (fanReqExe temp s).fan.close = s.fan.close := by
  have hset : ∀ fsm gear t s, (setFan fsm gear t s).fan.close = s.fan.close := fun _ _ _ _ => rfl
  have hfsm : ∀ sig s, (fanFsm sig s).fan.close = s.fan.close := fun sig s => by
    unfold fanFsm
    cases s.fan.fsm <;> dsimp only <;> (repeat' split) <;> rfl
  have hgear : ∀ s, (fanLowGear s).fan.close = s.fan.close := fun s => by
    unfold fanLowGear
    split <;> rfl
  have hreset : (fanAlarmReset s).fan.close = s.fan.close := by
    unfold fanAlarmReset
    split <;> rfl
  change (fanFsmExe (fanSignalGen s) s).fan.close = _
  rw [fanFsmExe, fanFsmOut_fan, hgear, hfsm, hreset]

theorem SameClose.beforeComp {s : Sys} (h : SameClose s) : SameClose (beforeComp s) := fun k => by
  unfold Spec.beforeComp
  rw [fanReqExe_close]
  refine Eq.trans ?_ (h.sysFanCpWl k)
  rw [fanReqExe_comp]

variable {s}

/-- The compressors are not asked for when the fan is not. -/
theorem sigOf_ne_on_of_not_starts (h : SameClose s) (hs : ¬ Starts s) (k : CompId) :
    (orderOf (beforeComp s)).sigOf k ≠ .on := by
  have hpwr : (beforeComp s).pwrSts = (sysFanCpWl s).pwrSts := by
    have h1 : (beforeComp s).pwrSts = s.pwrSts := by simp [Sys.pwrSts, Sys.remap]
    rw [h1]
    simp [Sys.pwrSts, Sys.remap]
  have hclose : ∀ j, (beforeComp s).comp.close.get j = (sysFanCpWl s).fan.close := fun j => by
    rw [h.beforeComp j, beforeComp, fanReqExe_close]
  have hstop : (!(beforeComp s).pwrSts ||
      ((beforeComp s).comp.close.c1 != 0 && (beforeComp s).comp.close.c2 != 0)) = true := by
    have h1 := hclose .c1
    have h2 := hclose .c2
    simp only [Pair.get] at h1 h2
    rw [h1, h2, hpwr]
    by_contra hn
    simp only [Bool.not_eq_true, Bool.or_eq_false_iff, Bool.not_eq_false', Bool.and_self,
      bne_eq_false_iff_eq] at hn
    exact hs (by simp [Starts, fanSignalGen, hn.1, hn.2])
  unfold Order.sigOf
  split
  · exact CompSig.noConfusion
  · simp only [orderOf, compressorSignalGen, hstop, if_true]
    split <;> cases k <;> exact CompSig.noConfusion

/-- They are not asked for either while the fan's output is off. -/
theorem sigOf_ne_on_of_fan_off (h : s.doSts .fan = false) (k : CompId) :
    (orderOf (beforeComp s)).sigOf k ≠ .on := by
  have hfan : (beforeComp s).doSts .fan = false := by simpa [Sys.doSts] using h
  unfold Order.sigOf
  split
  · exact CompSig.noConfusion
  · simp only [orderOf, compressorSignalGen, hfan, Bool.not_false, if_true]
    cases k <;> exact CompSig.noConfusion

end signals

/-! ## What a pass leaves for the output stage -/

section reqExecution

variable (s : Sys)

theorem reqExecution_fan : (reqExecution s).fan = (beforeComp s).fan := by
  rw [reqExecution_eq, waterPass_fan]
  exact CompFrame.compressorReqExe (v := Sys.fan) ⟨fun _ _ _ => rfl, fun _ _ => rfl, fun _ _ _ => rfl⟩ _

theorem reqExecution_reqBit_fan : (reqExecution s).reqBit .fan = (beforeComp s).reqBit .fan := by
  rw [reqExecution_eq, reqBit_waterPass _ rfl]
  refine CompFrame.compressorReqExe (v := (·.reqBit .fan)) ⟨fun _ _ _ => rfl, fun _ _ => rfl, ?_⟩ _
  intro k on s
  rw [reqBit_reqBitmapOp, if_neg (by cases k <;> decide)]

theorem SameClose.reqExecution {s : Sys} (h : SameClose s) : SameClose (reqExecution s) := fun k => by
  have hclose : (compressorReqExe (Spec.beforeComp s)).comp.close = (Spec.beforeComp s).comp.close :=
    CompFrame.compressorReqExe (v := (·.comp.close)) ⟨fun _ s hf => hf s.comp, fun _ _ => rfl, fun _ _ _ => rfl⟩ _
  rw [reqExecution_fan, ← h.beforeComp k, ← hclose, reqExecution_eq, waterPass_comp]
  rfl

/-- The words of the alarms and the status of the outputs. -/
def stageView (s : Sys) : Words × Words × Words × Words × Words × Words :=
  (s.mask, s.alm, s.final, s.sts.alarm, s.sts.dout, s.sts.comDout)

theorem stageView_reqExecution : stageView (reqExecution s) = stageView s :=
  view_reqExecution s (fun _ => rfl) fun _ => rfl

end reqExecution

/-! ## Hazards -/

/-- The fan is off, or about to be switched off. -/
def fanEnding : FanFsm → Bool
  | .startUp | .norm => false
  | _ => true

/-! ## One pass of the core thread -/

/-- The state in which `req_execution` is entered: the alarms have been looked at since the outputs were
written. -/
structure Entered (s : Sys) : Prop where
  interval : 0 < s.cfg.compInterval
  wf : (bankOf s).Wf
  same : SameClose s
  fan : FanOk s
  words : MaskHeld s
  rest : fanEnding s.fan.fsm → ∀ k, (compOf s k).resting
  fanShown : fanOn s.fan.fsm = false → s.doSts .fan = false
  compShown : ∀ k, s.doSts (.comp k) = false → s.reqBit (.comp k) = false ∨ (compOf s k).resting

namespace Entered

variable {s : Sys} (h : Entered s)

include h

theorem next : (reqExecution s).fan.fsm =
      fanNext (s.alarmBit .e7) (fanSignalGen (sysFanCpWl s)) s.tmo.fan s.fan.fsm ∧
    FanOk (reqExecution s) := by
  have hok : FanOk (sysFanCpWl s) :=
    ⟨by simpa using h.fan.gear, by simpa [Sys.reqBit] using h.fan.req⟩
  obtain ⟨hfsm, hfan⟩ := hok.fanReqExe (i16 s.inp.temp)
  have halarm : (sysFanCpWl s).alarmBit .e7 = s.alarmBit .e7 := by simp [Sys.alarmBit]
  rw [halarm, sysFanCpWl_tmo, sysFanCpWl_fan_fsm] at hfsm
  refine ⟨by rw [reqExecution_fan]; exact hfsm, ?_, ?_⟩
  · rw [reqExecution_fan]
    exact hfan.gear
  · rw [reqExecution_fan, reqExecution_reqBit_fan]
    exact hfan.req

theorem forced (k : CompId) : (orderOf (beforeComp s)).forced.get k = s.maskBit (.comp k) := by
  have hget : (orderOf (beforeComp s)).forced.get k = compForced (beforeComp s) k := by cases k <;> rfl
  rw [hget, ← h.words.forced k]
  simp [compForced, Sys.maskBit, Sys.almBit]

/-- One compressor behind the pass. -/
theorem compOf_reqExecution (k : CompId) : ∃ si so, compOf (reqExecution s) k =
    ((compOf s k).force (s.maskBit (.comp k))).step (timingOf s.cfg) ((orderOf (beforeComp s)).sigOf k) si so := by
  obtain ⟨si, so, hk⟩ := Bank.pass_comp (timingOf s.cfg) (orderOf (beforeComp s)) (bankOf s) k
  rw [← bankOf_reqExecution, get_bankOf, get_bankOf, h.forced] at hk
  exact ⟨si, so, hk⟩

/-- A pass that leaves the fan off or ending, without a fan alarm, asks for no compressor, and none of them
is in a state from which it would go on. -/
theorem ending (he7 : s.alarmBit .e7 = false) (hend : fanEnding (reqExecution s).fan.fsm) (k : CompId) :
    (orderOf (beforeComp s)).sigOf k ≠ .on ∧ ((compOf s k).resting ∨ (compOf s k).on = false) := by
  rw [h.next.1, fanNext, he7, if_neg (by decide)] at hend
  cases hf : s.fan.fsm with
  | idle | init | other =>
    have hoff : s.doSts .fan = false := h.fanShown (by rw [hf]; rfl)
    exact ⟨sigOf_ne_on_of_fan_off hoff k, .inl (h.rest (by rw [hf]; rfl) k)⟩
  | shut =>
    have hns : ¬ Starts s := fun hs => by
      rw [hf, fanSwitch, if_pos (show fanSignalGen (sysFanCpWl s) = .start from hs)] at hend
      exact absurd hend (by decide)
    exact ⟨sigOf_ne_on_of_not_starts h.same hns k, .inl (h.rest (by rw [hf]; rfl) k)⟩
  | startUp =>
    rw [hf, fanSwitch] at hend
    split at hend <;> exact absurd hend (by decide)
  | norm =>
    rw [hf, fanSwitch] at hend
    split at hend
    · rename_i hstop
      have hns : ¬ Starts s := fun hs => by
        rw [Starts] at hs
        rw [hs] at hstop
        exact absurd hstop.1 (by decide)
      -- the stop signal says that neither compressor's output is on
      have hcomp : s.doSts (.comp k) = false := by
        have hsig := hstop.1
        unfold fanSignalGen at hsig
        split at hsig
        · cases hsig
        · split at hsig
          · rename_i hdo
            simp only [Sys.doSts, sysFanCpWl_sts, Bool.and_eq_true, Bool.not_eq_true'] at hdo
            cases k
            · exact hdo.1
            · exact hdo.2
          · cases hsig
      exact ⟨sigOf_ne_on_of_not_starts h.same hns k, (h.compShown k hcomp).symm⟩
    · exact absurd hend (by decide)

theorem e7_of_not_masked {k : CompId} (hm : s.maskBit (.comp k) = false) : s.alarmBit .e7 = false := by
  by_contra he
  have := h.words.comp_of_fan (h.words.fan_of_e7 (by simpa using he)) k
  simp [hm] at this

/-- Behind the pass a held compressor is at rest, and so are both when the fan is off or ending. -/
theorem rest' (k : CompId) (hk : s.maskBit (.comp k) ∨ fanEnding (reqExecution s).fan.fsm) :
    (compOf (reqExecution s) k).resting := by
  obtain ⟨si, so, hstep⟩ := h.compOf_reqExecution k
  have hwf : (compOf s k).Wf := by simpa using h.wf k
  rw [hstep]
  cases hm : s.maskBit (.comp k)
  · have hend : fanEnding (reqExecution s).fan.fsm := by simpa [hm] using hk
    obtain ⟨hsig, hrest | hoff⟩ := h.ending (h.e7_of_not_masked hm) hend k
    · exact Comp.resting_step hrest hsig
    · exact Comp.resting_of_off hwf hoff hsig
  · have hsig : (orderOf (beforeComp s)).sigOf k = .off := by rw [Order.sigOf, h.forced, hm, if_pos rfl]
    rw [hsig]
    exact Comp.resting_of_held hwf

theorem fanOff_iff (he7 : s.alarmBit .e7 = false) : (reqExecution s).reqBit .fan = false ↔ FanOffNext s := by
  rw [h.next.2.req, h.next.1, fanNext, he7, if_neg (by decide)]
  unfold FanOffNext
  cases s.fan.fsm <;> simp only [fanSwitch, Starts] <;> (repeat' split) <;> simp_all [fanOn]

/-- When the pass leaves the fan off, a compressor that no alarm holds off runs on if it has to wait. -/
theorem reqBit_comp_iff {k : CompId} (hm : s.maskBit (.comp k) = false) (hoff : FanOffNext s) :
    (reqExecution s).reqBit (.comp k) = true ↔ WaitsInStop s k := by
  have he7 := h.e7_of_not_masked hm
  have hend : fanEnding (reqExecution s).fan.fsm := by
    have hfan := (h.fanOff_iff he7).mpr hoff
    rw [h.next.2.req] at hfan
    cases hf : (reqExecution s).fan.fsm <;> simp_all [fanOn, fanEnding]
  have hrest : ∀ j, ((bankOf s).comp.get j).resting := fun j => by
    rw [get_bankOf]
    refine h.rest ?_ j
    unfold FanOffNext at hoff
    cases hf : s.fan.fsm <;> simp_all [fanEnding]
  have hpass := Bank.pass_on_iff (k := k) (T := timingOf s.cfg) h.interval hrest
    fun j => (h.ending he7 hend j).1
  rw [← bankOf_reqExecution, get_bankOf] at hpass
  refine Iff.trans hpass ?_
  rw [Bank.Waits, get_bankOf]
  rfl

/-- Without a hazard every compressor that no alarm holds off runs with the fan. -/
theorem safe (hz : ¬ Hazard s) (k : CompId) (hk : (reqExecution s).reqBit (.comp k))
    (hm : s.maskBit (.comp k) = false) : (reqExecution s).reqBit .fan = true := by
  by_contra hfan
  have hoff := (h.fanOff_iff (h.e7_of_not_masked hm)).mp (by simpa using hfan)
  exact hz ⟨hoff, k, (h.reqBit_comp_iff hm hoff).mp hk, hm⟩

end Entered

end WM.Proof
