import WaterMaker.Spec.Plant
import WaterMaker.Proof.Quiet

/-!
# The compressors of the firmware are a bank

`bankOf` reads the two compressors off a state, `timingOf` their timing off the registers and `bankEvent`
the orders off an event. Every event of the machine is one event of the bank (`bankOf_step`), and only a
write of the registers changes the timing (`timingOf_step`).
-/

namespace WM.Proof

open WM WM.Impl WM.Spec

def compOf (s : Sys) (k : CompId) : Comp := ⟨s.comp.fsm.get k, s.reqBit (.comp k), s.tmo.comp.get k⟩

def bankOf (s : Sys) : Bank where
  comp := ⟨compOf s .c1, compOf s .c2⟩
  startInt := s.comp.startupInterval
  stopInt := s.comp.stopInterval

/-- The orders that `compressor_req_exe` works on. -/
def orderOf (s : Sys) : Order where
  sig := (compressorSignalGen s).1
  forced := ⟨compForced s .c1, compForced s .c2⟩

/-- What an event is to the compressors. -/
def bankEvent (s : Sys) : Event → Bank.Event
  | .core => .pass (orderOf (beforeComp (alarmAclExe s)))
  | .req => .pass (orderOf (beforeComp s))
  | .cooldown => .cool
  | _ => .keep

/-! ## One pass -/

section pass

variable (s : Sys)

@[simp] theorem get_bankOf (k : CompId) : (bankOf s).comp.get k = compOf s k := by
  cases k <;> rfl

@[simp] theorem bankOf_startInt : (bankOf s).startInt = s.comp.startupInterval := rfl
@[simp] theorem bankOf_stopInt : (bankOf s).stopInt = s.comp.stopInterval := rfl

@[simp] theorem setComp_cfg (k : CompId) (fsm : CompFsm) (t : Nat) : (setComp k fsm t s).cfg = s.cfg := rfl

@[simp] theorem comp_inj {k j : CompId} : Do.comp k = Do.comp j ↔ k = j := by
  cases k <;> cases j <;> decide

theorem bank_ext {b b' : Bank} (h : ∀ k, b.comp.get k = b'.comp.get k) (h1 : b.startInt = b'.startInt)
    (h2 : b.stopInt = b'.stopInt) : b = b' := by
  obtain ⟨⟨_, _⟩, _, _⟩ := b
  obtain ⟨⟨_, _⟩, _, _⟩ := b'
  have := h .c1
  have := h .c2
  simp_all [Pair.get]

theorem bankOf_setComp (k : CompId) (fsm : CompFsm) (t : Nat) : bankOf (setComp k fsm t s) =
    { bankOf s with comp := (bankOf s).comp.set k ⟨fsm, s.reqBit (.comp k), t⟩ } := by
  cases k <;> rfl

theorem bankOf_setComp_req (k : CompId) (fsm : CompFsm) (t : Nat) (on : Bool) :
    bankOf (reqBitmapOp (.comp k) on (setComp k fsm t s)) =
      { bankOf s with comp := (bankOf s).comp.set k ⟨fsm, on, t⟩ } := by
  refine bank_ext (fun j => ?_) rfl rfl
  rw [get_bankOf, Pair.get_set, get_bankOf]
  simp only [compOf, reqBit_reqBitmapOp, comp_inj]
  split
  · rename_i hj
    simp [setComp, hj]
  · rename_i hj
    simp only [setComp, reqBitmapOp_comp, reqBitmapOp_tmo]
    simp [hj]
    rfl

theorem bankOf_armStartup : bankOf (armStartup s) = { bankOf s with startInt := s.cfg.compInterval } := rfl

theorem bankOf_armStop : bankOf (armStop s) = { bankOf s with stopInt := s.cfg.compInterval } := rfl

/-- `compressor_fsm` is one compressor's step. -/
theorem bankOf_compressorFsm (k : CompId) (sig : CompSig) :
    bankOf (compressorFsm k sig s) = (bankOf s).one (timingOf s.cfg) k sig := by
  unfold compressorFsm
  cases hf : s.comp.fsm.get k <;> dsimp only <;> (try split_ifs) <;>
    simp [*, Bank.one, Comp.step, Comp.ready, bankOf_setComp_req, bankOf_setComp, bankOf_armStartup,
      bankOf_armStop, compOf, timingOf]
  -- the two cases that leave the compressor as it is
  all_goals
    rw [← hf]
    cases k <;> rfl

theorem bankOf_compAlarmStop (k : CompId) : bankOf (compAlarmStop k s) =
    { bankOf s with comp := (bankOf s).comp.set k ((compOf s k).force (compForced s k)) } := by
  by_cases h : compForced s k ∧ s.comp.fsm.get k ≠ .stop ∧ s.comp.fsm.get k ≠ .idle
  · have hu : (compOf s k).force (compForced s k) = { compOf s k with fsm := .stop } := if_pos h
    rw [compAlarmStop, if_pos h, hu]
    cases k <;> rfl
  · have hu : (compOf s k).force (compForced s k) = compOf s k := if_neg h
    rw [compAlarmStop, if_neg h, hu]
    cases k <;> rfl

/-- `compressor_req_exe` is a pass. -/
theorem bankOf_compressorReqExe :
    bankOf (compressorReqExe s) = (bankOf s).pass (timingOf s.cfg) (orderOf s) := by
  have hcfg : ∀ k s, (compAlarmStop k s).cfg = s.cfg := fun k s => by
    simp [compAlarmStop, apply_ite Sys.cfg]
  have hfsm : ∀ k sig s, (compressorFsm k sig s).cfg = s.cfg := fun k sig s =>
    congrArg (·.1.cfg) (waterView_compFrame.compressorFsm k sig s)
  have hforced : ∀ k j s, compForced (compAlarmStop k s) j = compForced s j := fun k j s => by
    simp [compForced, Sys.maskBit, Sys.almBit, compAlarmStop, apply_ite Sys.mask, apply_ite Sys.alm]
  have hc2 : ∀ s, compOf (compAlarmStop .c1 s) .c2 = compOf s .c2 := fun s =>
    congrArg (·.comp.c2) (bankOf_compAlarmStop s .c1)
  unfold compressorReqExe
  rw [bankOf_compressorFsm, bankOf_compressorFsm, hfsm, hcfg, hcfg, bankOf_compAlarmStop,
    bankOf_compAlarmStop, hforced, hc2]
  rfl

end pass

/-! ## Every event -/

section step

variable (s : Sys)

@[simp] theorem bankOf_reqBitmapOp {b : Do} (h1 : b ≠ .comp1) (h2 : b ≠ .comp2) (on : Bool) :
    bankOf (reqBitmapOp b on s) = bankOf s := by
  refine bank_ext (fun k => ?_) rfl rfl
  have hk : Do.comp k ≠ b := by cases k <;> exact Ne.symm ‹_›
  simp [compOf, hk]

theorem bankOf_startFrame : StartFrame bankOf := ⟨fun _ _ => rfl, fun _ _ _ => rfl⟩

theorem bankOf_fanFrame : FanFrame bankOf :=
  ⟨fun _ _ => rfl, fun _ _ => rfl, fun on s => bankOf_reqBitmapOp s (by decide) (by decide) on,
    fun on s => bankOf_reqBitmapOp s (by decide) (by decide) on⟩

theorem bankOf_beforeComp : bankOf (beforeComp s) = bankOf s :=
  (bankOf_fanFrame.fanReqExe _ _).trans (bankOf_startFrame.sysFanCpWl s)

theorem waterView_beforeComp : waterView (beforeComp s) = waterView s :=
  (waterView_fanFrame.fanReqExe _ _).trans (waterView_startFrame.sysFanCpWl s)

@[simp] theorem beforeComp_cfg : (beforeComp s).cfg = s.cfg :=
  congrArg (·.1.cfg) (waterView_beforeComp s)

variable {s} in
/-- The bank is part of the plant. -/
theorem bankOf_of_plantView {s' : Sys} (h : plantView s = plantView s') : bankOf s = bankOf s' := by
  have hreq : ∀ k, s.reqBit (.comp k) = s'.reqBit (.comp k) := fun k => by
    simpa [plantView] using congrFun (congrArg Prod.snd h) (.comp k)
  have hcomp : s.comp = s'.comp := congrArg (·.1.comp) h
  have htmo : s.tmo.comp = s'.tmo.comp := congrArg (·.1.tmo.comp) h
  simp only [bankOf, compOf, hcomp, htmo, hreq]

theorem bankOf_reqExecution :
    bankOf (reqExecution s) = (bankOf s).pass (timingOf s.cfg) (orderOf (beforeComp s)) := by
  calc bankOf (reqExecution s) = bankOf (compressorReqExe (beforeComp s)) :=
      bankOf_of_plantView (plantView_waterPass _)
    _ = _ := by rw [bankOf_compressorReqExe, bankOf_beforeComp, beforeComp_cfg]

@[simp] theorem bankOf_alarmAclExe : bankOf (alarmAclExe s) = bankOf s := by
  have h := congrArg bankOf (alarmView_alarmAclExe s)
  exact h

@[simp] theorem alarmAclExe_cfg : (alarmAclExe s).cfg = s.cfg := by
  have h := congrArg Sys.cfg (alarmView_alarmAclExe s)
  exact h

@[simp] theorem bankOf_ocUpdate : bankOf (ocUpdate s) = bankOf s := by
  have h := congrArg bankOf (outputView_ocUpdate s)
  exact h

/-- Every event of the machine is an event of the bank. -/
theorem bankOf_step (e : Event) :
    bankOf (step s e) = (bankOf s).step (timingOf s.cfg) (bankEvent s e) := by
  cases e with
  | core =>
    change bankOf (ocUpdate (reqExecution (alarmAclExe s))) = _
    rw [bankOf_ocUpdate, bankOf_reqExecution, bankOf_alarmAclExe, alarmAclExe_cfg]
    rfl
  | req => exact bankOf_reqExecution s
  | waterOut => exact bankOf_of_plantView (plantView_waterOutReqExe s)
  | runTime =>
    have h := congrArg bankOf (counterView_runTimeProcess s)
    exact h
  | runningMode =>
    have h := congrArg bankOf (modeView_sysRunningModeUpdate s)
    exact h
  | _ => rfl

theorem timingOf_of_plantCfg {c c' : Config} (h : plantCfg c = plantCfg c') : timingOf c = timingOf c' := by
  have h := congrArg timingOf h
  exact h

/-- The timing changes only when the registers are written. -/
theorem timingOf_step (e : Event) :
    timingOf (step s e).cfg = match e with | .config c => timingOf c | _ => timingOf s.cfg := by
  have hreq : ∀ s, timingOf (reqExecution s).cfg = timingOf s.cfg := fun s => by
    have h := timingOf_of_plantCfg (plantCfg_waterPass (plantPass s))
    rwa [plantPass_cfg, ← reqExecution_eq] at h
  cases e with
  | core =>
    have h := congrArg (timingOf ·.cfg) (outputView_ocUpdate (reqExecution (alarmAclExe s)))
    refine Eq.trans h ((hreq _).trans ?_)
    rw [alarmAclExe_cfg]
  | req => exact hreq s
  | waterOut => exact timingOf_of_plantCfg (congrArg (·.1.cfg) (plantView_waterOutReqExe s))
  | runTime =>
    have h := congrArg (timingOf ·.cfg) (counterView_runTimeProcess s)
    exact h
  | runningMode =>
    have h := congrArg (timingOf ·.cfg) (modeView_sysRunningModeUpdate s)
    exact h
  | _ => rfl

end step

/-! ## Runs -/

theorem tick_bankEvent (s : Sys) (e : Event) : (bankEvent s e).tick = second e := by
  cases e <;> rfl

theorem timing_kept {Q : Timing → Prop} {s : Sys} {e : Event} (he : KeepsTiming Q e)
    (h : Q (timingOf s.cfg)) : Q (timingOf (Impl.step s e).cfg) := by
  rw [timingOf_step]
  cases e <;> first | exact he | exact h

theorem bank_switches {d : Bool} {k : CompId} {s s' : Sys} :
    Bank.Switches d k (bankOf s) (bankOf s') ↔ ReqSwitch d k s s' := by
  simp only [Bank.Switches, get_bankOf, compOf, ReqSwitch]

theorem wf_bankOf_boot (c : Config) (i : Inputs) : (bankOf (boot c i)).Wf := by
  have hreq : ∀ b, (boot c i).reqBit b = false := fun b => Words.get_zero _
  rintro (_ | _)
  · exact hreq .comp1
  · exact hreq .comp2

theorem wf_bankOf_step {s : Sys} (h : (bankOf s).Wf) (e : Event) : (bankOf (step s e)).Wf := by
  rw [bankOf_step]
  exact h.step _

end WM.Proof
