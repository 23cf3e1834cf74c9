import WaterMaker.Proof.Interlock.Pass
import WaterMaker.Proof.Output
import WaterMaker.Proof.Switching

/-!
# No compressor without the fan

`Interlocked` is what holds between two passes of the core thread. A pass that does not begin in a hazard
keeps it (`Interlocked.coreTick`), and so does everything else (`Interlocked.step`), so that without
hazards no compressor's output is ever on without the fan's (`compressor_needs_fan`). A hazard does occur:
`compressor_without_fan` is a run in which an alarm is removed while a compressor waits in `STOP`.
-/

namespace WM.Proof

open WM WM.Impl WM.Spec
open WM.Spec.Override (guarded held)

/-! ## The invariant -/

/-- What holds of fan, compressors, alarms and outputs between two passes of the core thread. -/
structure Interlocked (s : Sys) : Prop where
  cfg : Supervised s.cfg
  wf : (bankOf s).Wf
  same : SameClose s
  fan : FanOk s
  words : MaskHeld s
  /-- a held compressor is at rest, and so are both while the fan is off or ending -/
  rest : ∀ k, s.maskBit (.comp k) ∨ fanEnding s.fan.fsm → (compOf s k).resting
  dout : DoutSame s
  shown : ∀ b, guarded b → s.doSts b = (s.reqBit b && !s.maskBit b)
  final : ∀ b, guarded b → s.finalBit b = (s.reqBit b && !s.maskBit b)
  /-- a compressor runs only with the fan -/
  safe : ∀ k, s.reqBit (.comp k) → s.maskBit (.comp k) = false → s.reqBit .fan

theorem Interlocked.output {s : Sys} (h : Interlocked s) (k : CompId) (hk : s.finalBit (.comp k)) :
    s.finalBit .fan = true := by
  rw [h.final _ (by cases k <;> rfl), Bool.and_eq_true, Bool.not_eq_true'] at hk
  have hm : s.maskBit .fan = false := by
    by_contra hf
    rw [h.words.comp_of_fan (by simpa using hf) k] at hk
    exact absurd hk.2 (by decide)
  rw [h.final .fan rfl, h.safe k hk.1 hk.2, hm]
  rfl

/-! ## Runs -/

/-- What of a state the interlock is about: the alarms' words and the output stage left out. -/
def linkView (s : Sys) : Bank × Bool × FanFsm × FanGear × BitVec 8 × Pair (BitVec 8) :=
  (bankOf s, s.reqBit .fan, s.fan.fsm, s.fan.gear, s.fan.close, s.comp.close)

section linkView

variable {s s' : Sys} (h : linkView s = linkView s')

include h

theorem bankOf_of_linkView : bankOf s = bankOf s' := congrArg (·.1) h

theorem compOf_of_linkView (k : CompId) : compOf s k = compOf s' k := by
  rw [← get_bankOf, bankOf_of_linkView h, get_bankOf]

theorem reqBit_of_linkView {b : Do} (hb : guarded b) : s.reqBit b = s'.reqBit b := by
  have hcomp : ∀ k, s.reqBit (.comp k) = s'.reqBit (.comp k) := fun k =>
    congrArg Comp.on (compOf_of_linkView h k)
  cases b <;> first | exact absurd hb (by decide) | exact congrArg (·.2.1) h | exact hcomp .c1 | exact hcomp .c2

theorem SameClose.of_linkView (hs : SameClose s) : SameClose s' := fun k => by
  have h1 : s.comp.close = s'.comp.close := congrArg (·.2.2.2.2.2) h
  have h2 : s.fan.close = s'.fan.close := congrArg (·.2.2.2.2.1) h
  rw [← h1, ← h2, hs k]

theorem FanOk.of_linkView (hs : FanOk s) : FanOk s' := by
  have h1 : s.fan.fsm = s'.fan.fsm := congrArg (·.2.2.1) h
  have h2 : s.fan.gear = s'.fan.gear := congrArg (·.2.2.2.1) h
  have h3 : s.reqBit .fan = s'.reqBit .fan := congrArg (·.2.1) h
  exact ⟨by rw [← h1, ← h2, hs.gear], by rw [← h1, ← h3, hs.req]⟩

end linkView

theorem linkView_alarmAclExe (s : Sys) : linkView (alarmAclExe s) = linkView s := by
  have h := congrArg linkView (alarmView_alarmAclExe s)
  exact h

theorem linkView_ocUpdate (s : Sys) : linkView (ocUpdate s) = linkView s := by
  have h := congrArg linkView (outputView_ocUpdate s)
  exact h

theorem MaskHeld.congr {s s' : Sys} (h : MaskHeld s) (hmask : s'.mask = s.mask) (halm : s'.alm = s.alm)
    (halarm : s'.sts.alarm = s.sts.alarm) : MaskHeld s' := fun b hb => by
  have hheld : held s' b = held s b := by simp only [held, closeDev, Sys.alarmBit, halarm]
  rw [hheld, Sys.maskBit, Sys.almBit, hmask, halm]
  exact h b hb

theorem Interlocked.entered {s : Sys} (h : Interlocked s) : Entered (alarmAclExe s) := by
  have hv := (linkView_alarmAclExe s).symm
  have hfsm : s.fan.fsm = (alarmAclExe s).fan.fsm := congrArg (·.2.2.1) hv
  have hdo : ∀ b, (alarmAclExe s).doSts b = s.doSts b := fun b => by
    have h := congrArg (·.doSts b) (alarmView_alarmAclExe s)
    exact h
  constructor
  · rw [alarmAclExe_cfg]
    exact h.cfg.interval
  · rw [bankOf_alarmAclExe]
    exact h.wf
  · exact h.same.of_linkView hv
  · exact h.fan.of_linkView hv
  · exact h.words.alarmAclExe
  · intro hend k
    rw [← compOf_of_linkView hv]
    exact h.rest k (.inr (by rwa [hfsm]))
  · intro hoff
    rw [hdo, h.shown .fan rfl, h.fan.req, hfsm, hoff]
    rfl
  · intro k hk
    have hg : guarded (.comp k) := by cases k <;> rfl
    rw [hdo, h.shown _ hg, Bool.and_eq_false_iff, Bool.not_eq_false'] at hk
    rcases hk with hk | hk
    · left
      rwa [← reqBit_of_linkView hv hg]
    · right
      rw [← compOf_of_linkView hv]
      exact h.rest k (.inl hk)

/-- The registers that `Supervised` reads. -/
def modeRegs (c : Config) : Bool × Nat × Words × Nat :=
  (c.normalMode, c.alarmBypassEn, c.maskDout, c.compInterval)

theorem supervised_congr {c c' : Config} (h : Supervised c) (hc : modeRegs c' = modeRegs c) : Supervised c' := by
  have h1 : c'.normalMode = c.normalMode := congrArg (·.1) hc
  have h2 : c'.alarmBypassEn = c.alarmBypassEn := congrArg (·.2.1) hc
  have h3 : c'.maskDout = c.maskDout := congrArg (·.2.2.1) hc
  have h4 : c'.compInterval = c.compInterval := congrArg (·.2.2.2) hc
  exact ⟨h1.trans h.normal, h2.trans h.bypass, fun b hb => by rw [h3]; exact h.fitted b hb, h4 ▸ h.interval⟩

theorem modeRegs_reqExecution (s : Sys) : modeRegs (reqExecution s).cfg = modeRegs s.cfg := by
  have h := congrArg modeRegs (plantCfg_waterPass (plantPass s))
  rw [plantPass_cfg] at h
  exact h

theorem ocUpdate_words (s : Sys) :
    (ocUpdate s).mask = s.mask ∧ (ocUpdate s).alm = s.alm ∧ (ocUpdate s).sts.alarm = s.sts.alarm := by
  have h := congrArg (fun s : Sys => (s.mask, s.alm, s.sts.alarm)) (outputView_ocUpdate s)
  exact ⟨congrArg (·.1) h, congrArg (·.2.1) h, congrArg (·.2.2) h⟩

theorem MaskHeld.reqExecution {s : Sys} (h : MaskHeld s) : MaskHeld (reqExecution s) := by
  have hview := stageView_reqExecution s
  exact h.congr (congrArg (·.1) hview) (congrArg (·.2.1) hview) (congrArg (·.2.2.2.1) hview)

theorem DoutSame.reqExecution {s : Sys} (h : DoutSame s) : DoutSame (reqExecution s) := by
  have hview := stageView_reqExecution s
  have h1 : (Impl.reqExecution s).sts.dout = s.sts.dout := congrArg (·.2.2.2.2.1) hview
  have h2 : (Impl.reqExecution s).sts.comDout = s.sts.comDout := congrArg (·.2.2.2.2.2) hview
  rw [DoutSame, h1, h2, h]

theorem DoutSame.alarmAclExe {s : Sys} (h : DoutSame s) : DoutSame (alarmAclExe s) := by
  have hview := congrArg (fun s : Sys => (s.sts.dout, s.sts.comDout)) (alarmView_alarmAclExe s)
  have h1 : (Impl.alarmAclExe s).sts.dout = s.sts.dout := congrArg (·.1) hview
  have h2 : (Impl.alarmAclExe s).sts.comDout = s.sts.comDout := congrArg (·.2) hview
  rw [DoutSame, h1, h2, h]

/-- What a pass of the core thread puts out, in a hazard or not. -/
theorem Interlocked.finalBit_coreTick {s : Sys} (h : Interlocked s) {b : Do} (hb : guarded b) :
    (Impl.coreTick s).finalBit b =
      ((reqExecution (alarmAclExe s)).reqBit b && !(alarmAclExe s).maskBit b) := by
  have hcfg : Supervised (reqExecution (alarmAclExe s)).cfg :=
    supervised_congr h.cfg ((modeRegs_reqExecution _).trans (by rw [alarmAclExe_cfg]))
  have hm : (reqExecution (alarmAclExe s)).maskBit b = (alarmAclExe s).maskBit b :=
    congrArg (·.1.get b.bpos) (stageView_reqExecution (alarmAclExe s))
  have hf := finalBit_ocUpdate hcfg.normal hcfg.bypass (hcfg.fitted b hb)
    (h.entered.words.reqExecution b hb).2
  rw [hm] at hf
  exact hf

/-- A pass of the core thread that does not begin in a hazard keeps the invariant. -/
theorem Interlocked.coreTick {s : Sys} (h : Interlocked s) (hz : ¬ Hazard (alarmAclExe s)) :
    Interlocked (coreTick s) := by
  have he := h.entered
  have hdout := h.dout.alarmAclExe.reqExecution
  have hwords := he.words.reqExecution
  have hcfg : Supervised (reqExecution (alarmAclExe s)).cfg :=
    supervised_congr h.cfg ((modeRegs_reqExecution _).trans (by rw [alarmAclExe_cfg]))
  have hv : linkView (reqExecution (alarmAclExe s)) = linkView (Impl.coreTick s) :=
    (linkView_ocUpdate _).symm
  obtain ⟨hmask, halm, halarm⟩ := ocUpdate_words (reqExecution (alarmAclExe s))
  have hm : ∀ b, (reqExecution (alarmAclExe s)).maskBit b = (Impl.coreTick s).maskBit b := fun b =>
    congrArg (·.get b.bpos) hmask.symm
  have hm' : ∀ b, (alarmAclExe s).maskBit b = (Impl.coreTick s).maskBit b := fun b => by
    rw [← hm b]
    exact congrArg (·.1.get b.bpos) (stageView_reqExecution (alarmAclExe s)).symm
  have hfinal : ∀ b, guarded b →
      (Impl.coreTick s).finalBit b = ((Impl.coreTick s).reqBit b && !(Impl.coreTick s).maskBit b) :=
    fun b hb => by
      rw [← reqBit_of_linkView hv hb, ← hm']
      exact h.finalBit_coreTick hb
  constructor
  · have hc := congrArg (modeRegs ·.cfg) (outputView_ocUpdate (reqExecution (alarmAclExe s)))
    exact supervised_congr hcfg hc
  · rw [← bankOf_of_linkView hv]
    exact wf_bankOf_step (bankOf_alarmAclExe s ▸ h.wf) .req
  · exact he.same.reqExecution.of_linkView hv
  · exact he.next.2.of_linkView hv
  · exact hwords.congr hmask halm halarm
  · intro k hk
    have hfsm : (reqExecution (alarmAclExe s)).fan.fsm = (Impl.coreTick s).fan.fsm := congrArg (·.2.2.1) hv
    rw [← compOf_of_linkView hv]
    exact he.rest' k (by rwa [hm', hfsm])
  · exact hdout.ocUpdate
  · intro b hb
    rw [← hfinal b hb]
    exact doSts_ocUpdate hdout (by cases b <;> first | exact absurd hb (by decide) | decide)
  · exact hfinal
  · intro k hk hmk
    rw [← reqBit_of_linkView hv (by cases k <;> rfl)] at hk
    rw [← reqBit_of_linkView hv rfl]
    exact he.safe hz k hk ((hm' _).trans hmk)

theorem Interlocked.congr {s s' : Sys} (h : Interlocked s) (hc : modeRegs s'.cfg = modeRegs s.cfg)
    (hv : linkView s' = linkView s) (hw : stageView s' = stageView s) : Interlocked s' := by
  have hmask : s'.mask = s.mask := congrArg (·.1) hw
  have hm : ∀ b, s'.maskBit b = s.maskBit b := fun b => congrArg (·.get b.bpos) hmask
  have hfinal : s'.final = s.final := congrArg (·.2.2.1) hw
  have hdout : s'.sts.dout = s.sts.dout := congrArg (·.2.2.2.2.1) hw
  have hcom : s'.sts.comDout = s.sts.comDout := congrArg (·.2.2.2.2.2) hw
  have hfsm : s'.fan.fsm = s.fan.fsm := congrArg (·.2.2.1) hv
  refine ⟨supervised_congr h.cfg hc, ?_, h.same.of_linkView hv.symm, h.fan.of_linkView hv.symm,
    h.words.congr hmask (congrArg (·.2.1) hw) (congrArg (·.2.2.2.1) hw), fun k hk => ?_, ?_,
    fun b hb => ?_, fun b hb => ?_, fun k hk hmk => ?_⟩
  · rw [bankOf_of_linkView hv]
    exact h.wf
  · rw [compOf_of_linkView hv]
    exact h.rest k (by rwa [hm, hfsm] at hk)
  · rw [DoutSame, hdout, hcom, h.dout]
  · rw [Sys.doSts, hcom, reqBit_of_linkView hv hb, hm]
    exact h.shown b hb
  · rw [Sys.finalBit, hfinal, reqBit_of_linkView hv hb, hm]
    exact h.final b hb
  · rw [reqBit_of_linkView hv (by cases k <;> rfl)] at hk
    rw [reqBit_of_linkView hv rfl]
    exact h.safe k hk ((hm _).symm.trans hmk)

theorem Interlocked.step {s : Sys} {e : Event} (h : Interlocked s) (he : isTick e) (hz : NoHazard s e) :
    Interlocked (step s e) := by
  cases e with
  | core => exact h.coreTick (hz rfl)
  | cooldown =>
    exact ⟨h.cfg, wf_bankOf_step h.wf .cooldown, h.same, ⟨h.fan.gear, h.fan.req⟩, h.words, h.rest, h.dout,
      h.shown, h.final, h.safe⟩
  | runTime =>
    have hview := counterView_runTimeProcess s
    have h1 := congrArg (modeRegs ·.cfg) hview
    have h2 := congrArg linkView hview
    have h3 := congrArg stageView hview
    exact h.congr h1 h2 h3
  | runningMode =>
    have hview := modeView_sysRunningModeUpdate s
    have h1 := congrArg (modeRegs ·.cfg) hview
    have h2 := congrArg linkView hview
    have h3 := congrArg stageView hview
    exact h.congr h1 h2 h3
  | clearAlarm | inputs _ | pulses _ | heater _ _ | panel _ _ => exact h.congr rfl rfl rfl
  | req | waterOut | config _ | env _ _ _ => exact absurd he Bool.false_ne_true

theorem interlocked_boot {c : Config} (hc : Supervised c) (i : Inputs) : Interlocked (boot c i) := by
  have hreq : ∀ b, (boot c i).reqBit b = false := fun b => Words.get_zero _
  have hmask : ∀ b, (boot c i).maskBit b = false := fun b => Words.get_zero _
  have halarm : ∀ a, (boot c i).alarmBit a = false := fun a => Words.get_zero _
  refine ⟨hc, wf_bankOf_boot c i, fun k => by cases k <;> rfl, ⟨rfl, hreq _⟩, fun b _ => ⟨?_, fun hm => ?_⟩,
    fun k _ => .inl (by cases k <;> rfl), rfl, fun b _ => ?_, fun b _ => ?_, fun k hk => ?_⟩
  · rw [hmask]
    cases b <;> simp [held, closeDev, halarm]
  · simp [hmask] at hm
  · rw [hreq]
    exact Words.get_zero _
  · rw [hreq]
    exact Words.get_zero _
  · simp [hreq] at hk

/-- A pass switches a compressor on without the fan exactly if it begins in a hazard. -/
theorem Interlocked.hazard_iff {s : Sys} (h : Interlocked s) : Hazard (alarmAclExe s) ↔
    ∃ k, (Impl.coreTick s).finalBit (.comp k) = true ∧ (Impl.coreTick s).finalBit .fan = false := by
  have he := h.entered
  constructor
  · rintro ⟨hoff, k, hwait, hm⟩
    have hk := (he.reqBit_comp_iff hm hoff).mpr hwait
    have hfan := (he.fanOff_iff (he.e7_of_not_masked hm)).mpr hoff
    refine ⟨k, ?_, ?_⟩
    · rw [h.finalBit_coreTick (by cases k <;> rfl), hk, hm]
      rfl
    · rw [h.finalBit_coreTick rfl, hfan]
      rfl
  · rintro ⟨k, hk, hfan⟩
    by_contra hz
    rw [(h.coreTick hz).output k hk] at hfan
    exact absurd hfan (by decide)

/-- In every run from power-on in which no pass of the core thread begins in a hazard, a compressor's
output is on only together with the fan's; and the next pass breaks this exactly if it begins in one. -/
theorem compressor_needs_fan (c : Config) (hc : Supervised c) (i : Inputs) (es : List Event)
    (hes : ∀ e ∈ es, isTick e) (hz : Along Impl.step NoHazard (boot c i) es) :
    let s := run Impl.step (boot c i) es
    (∀ k, s.finalBit (.comp k) = true → s.finalBit .fan = true) ∧
    (Hazard (alarmAclExe s) ↔
      ∃ k, (Impl.step s .core).finalBit (.comp k) = true ∧ (Impl.step s .core).finalBit .fan = false) := by
  have hall : Along Impl.step (fun s e => isTick e ∧ NoHazard s e) (boot c i) es :=
    (Along.of_forall hes).and hz
  have hinv : Interlocked (run Impl.step (boot c i) es) :=
    hall.run_inv (fun s e h hx => h.step hx.1 hx.2) (interlocked_boot hc i)
  exact ⟨hinv.output, hinv.hazard_iff⟩

/-- The shortest timing, with alarms in force and everything fitted. -/
theorem supervised_quickConfig : Supervised quickConfig :=
  ⟨rfl, rfl, fun b hb => by cases b <;> first | exact absurd hb (by decide) | decide, by decide⟩

/-- Both compressors run. -/
def bothRun : List Event := startRun ++ [.core, .core] ++ List.replicate 10 .cooldown ++ [.core]

/-- The fan's contact reports, the alarm E7 stands and is removed again, all within ten seconds. -/
def removalRun : List Event :=
  bothRun ++ .inputs { quiet with din := 0x5076 } :: List.replicate 10 .core ++ [.clearAlarm, .core, .core]

/-- Both compressors are on with the fan, and the next pass does not begin in a hazard. -/
theorem compressor_needs_fan_bothRun :
    let s := run Impl.step (boot quickConfig quiet) bothRun
    s.finalBit .comp2 = true ∧ s.finalBit .fan = true ∧ ¬ Hazard (alarmAclExe s) := by
  intro s
  have h := compressor_needs_fan quickConfig supervised_quickConfig quiet bothRun (by decide)
    (by decide +kernel)
  have h2 : s.finalBit .comp2 = true := by decide +kernel
  exact ⟨h2, h.1 .c2 h2, by decide +kernel⟩

/-- The alarm stops both compressors, the first one at once and the second after the interval. While the
second one waits in `STOP` its request stays, so that it comes on again with the removal of the alarm; the
fan, whose state machine was put back, does not. -/
theorem compressor_without_fan :
    quickConfig.InRange ∧ Supervised quickConfig ∧ (∀ e ∈ removalRun, isTick e) ∧
      (run Impl.step (boot quickConfig quiet) removalRun).finalBit .comp2 = true ∧
      (run Impl.step (boot quickConfig quiet) removalRun).finalBit .fan = false :=
  ⟨by decide, supervised_quickConfig, by decide, by decide +kernel⟩

end WM.Proof
