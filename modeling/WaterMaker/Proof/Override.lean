import WaterMaker.Impl.Config
import WaterMaker.Spec.Plant

/-!
# What the alarms hold, end to end

`alarm_arbiration` writes the words ALARM and MASK bit by bit, `oc_arbitration` combines them with the
request, the manual word and `dev_mask`. `held s` says which outputs the standing alarms of `s` hold off.
One output of the final word is `finalBit_ocArbitration`; with the words as the alarms leave them it is
the target, unless held, within `dev_mask` (`finalBit_override`). `alarm_override` collects what follows
for every state.
-/

namespace WM.Proof.Override

open WM WM.Impl WM.Spec WM.Spec.Override

theorem held_of_not_guarded (s : Sys) {b : Do} (h : guarded b = false) : held s b = false := by
  cases b <;> first | rfl | exact absurd h (by decide)

/-! ## The alarms' words -/

section alarmHold

variable (b b' : Do) (hold : Bool) (s : Sys)

@[simp] theorem maskBit_alarmHold :
    (alarmHold b hold s).maskBit b' = if b' = b then hold else s.maskBit b' := by
  simp only [alarmHold, Sys.maskBit, Words.get_put _ b.bpos_lt, Do.bpos_inj]

@[simp] theorem almBit_alarmHold :
    (alarmHold b hold s).almBit b' = if b' = b then !hold else s.almBit b' := by
  simp only [alarmHold, Sys.almBit, Words.get_put _ b.bpos_lt, Do.bpos_inj]

end alarmHold

theorem maskBit_alarmArbiration (s : Sys) (b : Do) :
    (alarmArbiration s).maskBit b = if guarded b then held s b else s.maskBit b := by
  simp only [alarmArbiration, maskBit_alarmHold]
  cases b <;> rfl

/-- The ALARM bit of a held output is 0: an alarm never switches anything on. -/
theorem almBit_alarmArbiration (s : Sys) {b : Do} (h : guarded b) :
    (alarmArbiration s).almBit b = !held s b := by
  simp only [alarmArbiration, almBit_alarmHold]
  cases b <;> first | rfl | exact absurd h (by decide)

/-! ## The final word -/

/-- The bit an output is asked to have: its request, or its manual bit in manual and test mode. -/
def target (s : Sys) (b : Do) : Bool :=
  if s.cfg.normalMode then s.reqBit b else s.manual.get b.bpos

theorem getLsbD_ocFinalWord (c : Config) (req manual alm mask dev : BitVec 16) {i : Nat} (hi : i < 16) :
    (ocFinalWord c req manual alm mask dev).getLsbD i =
      ((if c.testModeType = 0 then
          if c.alarmBypassEn = 0 ∧ mask.getLsbD i then alm.getLsbD i
          else if c.normalMode then req.getLsbD i else manual.getLsbD i
        else manual.getLsbD i) && dev.getLsbD i) := by
  have hbit : (ocFinalWord c req manual alm mask dev).getLsbD i =
      ((if c.testModeType = 0 then
          (if c.normalMode then req.getLsbD i else manual.getLsbD i) &&
              !(if c.alarmBypassEn = 0 then mask.getLsbD i else false) ||
            alm.getLsbD i && (if c.alarmBypassEn = 0 then mask.getLsbD i else false)
        else manual.getLsbD i) && dev.getLsbD i) := by
    simp only [ocFinalWord, BitVec.getLsbD_and, apply_ite (fun w : BitVec 16 => w.getLsbD i),
      BitVec.getLsbD_or, BitVec.getLsbD_not, hi, decide_true, Bool.true_and, BitVec.ofNat_eq_ofNat,
      BitVec.getLsbD_zero]
  rw [hbit]
  by_cases hb : c.alarmBypassEn = 0 <;> cases mask.getLsbD i <;> simp [hb]

/-- One output of the final word, with alarms neither bypassed nor in test mode. -/
theorem finalBit_ocArbitration (s : Sys) (ht : s.cfg.testModeType = 0) (hb : s.cfg.alarmBypassEn = 0)
    (b : Do) :
    (ocArbitration s).finalBit b =
      ((if s.maskBit b then s.almBit b else target s b) && s.cfg.maskDout.get b.bpos) := by
  have hlt := b.bpos_lt
  by_cases h : b.bpos < 16
  · simp only [Sys.finalBit, Words.get, ocArbitration, h, if_true, getLsbD_ocFinalWord _ _ _ _ _ _ h,
      ht, hb, true_and, Sys.maskBit, Sys.almBit, target, Sys.reqBit]
  · simp only [Sys.finalBit, Words.get, ocArbitration, h, if_false,
      getLsbD_ocFinalWord _ _ _ _ _ _ (show b.bpos - 16 < 16 by omega), if_true,
      ht, hb, true_and, Sys.maskBit, Sys.almBit, target, Sys.reqBit]

/-- An output is on exactly if it is asked for, fitted and not held. -/
theorem finalBit_override (s : Sys) (ht : s.cfg.testModeType = 0) (hb : s.cfg.alarmBypassEn = 0)
    (hm : MaskClean s) (b : Do) :
    (ocArbitration (alarmArbiration s)).finalBit b =
      (target s b && s.cfg.maskDout.get b.bpos && !held s b) := by
  rw [finalBit_ocArbitration (alarmArbiration s) ht hb b, maskBit_alarmArbiration]
  change (_ && s.cfg.maskDout.get b.bpos) = _
  cases hg : guarded b with
  | false =>
    have ht' : target (alarmArbiration s) b = target s b := rfl
    simp only [hm b hg, held_of_not_guarded s hg, Bool.false_eq_true, if_false, ht', Bool.not_false,
      Bool.and_true]
  | true =>
    have ht' : target (alarmArbiration s) b = target s b := rfl
    rw [almBit_alarmArbiration s hg, ht']
    cases held s b <;> simp

/-- A state may carry any ALARM, MASK and FINAL words from before. -/
theorem final_override_congr (s : Sys) (ht : s.cfg.testModeType = 0) (hb : s.cfg.alarmBypassEn = 0)
    (hm : MaskClean s) (alm mask final : Words)
    (hm' : MaskClean { s with alm := alm, mask := mask, final := final }) :
    (ocArbitration (alarmArbiration { s with alm := alm, mask := mask, final := final })).final =
      (ocArbitration (alarmArbiration s)).final := by
  refine Words.ext_get fun i hi => ?_
  obtain ⟨b, rfl⟩ := Do.exists_bpos hi
  have h := finalBit_override s ht hb hm b
  have h' := finalBit_override { s with alm := alm, mask := mask, final := final } ht hb hm' b
  exact h'.trans h.symm

/-- The alarms' override, for every alarm bitmap, request, manual word and `dev_mask`: E7 and E9 stop fan
and compressors, the pressure alarm stops compressor 1, every other output is its request (or manual bit)
within `dev_mask`, and the words that earlier alarms left behind have no effect. -/
theorem alarm_override (s : Sys) (ht : s.cfg.testModeType = 0) (hb : s.cfg.alarmBypassEn = 0)
    (hm : MaskClean s) :
    let t := ocArbitration (alarmArbiration s)
    let asked (b : Do) := if s.cfg.manualTestEn = 0 then s.reqBit b else s.manual.get b.bpos
    (s.alarmBit .e7 ∨ s.alarmBit .e9 →
      t.finalBit .comp1 = false ∧ t.finalBit .comp2 = false ∧ t.finalBit .fan = false) ∧
    (s.alarmBit .hiPress1 → t.finalBit .comp1 = false) ∧
    (∀ b, held s b = false → t.finalBit b = (asked b && s.cfg.maskDout.get b.bpos)) ∧
    (∀ b, t.finalBit b = true → asked b = true ∧ s.cfg.maskDout.get b.bpos = true) ∧
    (∀ alm mask final, MaskClean { s with alm := alm, mask := mask, final := final } →
      (ocArbitration (alarmArbiration { s with alm := alm, mask := mask, final := final })).final =
        t.final) := by
  intro t asked
  have hasked : ∀ b, asked b = target s b := fun b => by
    by_cases h : s.cfg.manualTestEn = 0 <;> simp [asked, target, Config.normalMode, ht, h]
  have hbit : ∀ b, t.finalBit b = (asked b && s.cfg.maskDout.get b.bpos && !held s b) := fun b => by
    rw [hasked]; exact finalBit_override s ht hb hm b
  refine ⟨fun h => ?_, fun h => ?_, fun b h => ?_, fun b h => ?_, fun alm mask final hm' => ?_⟩
  · have hd : closeDev s = true := by
      rcases h with h | h <;> simp only [closeDev, h, Bool.true_or, Bool.or_true]
    simp only [hbit, held, hd, Bool.true_or, Bool.not_true, Bool.and_false, and_self]
  · simp only [hbit, held, h, Bool.or_true, Bool.not_true, Bool.and_false]
  · rw [hbit, h, Bool.not_false, Bool.and_true]
  · rw [hbit, Bool.and_eq_true, Bool.and_eq_true] at h
    exact h.1
  · exact final_override_congr s ht hb hm alm mask final hm'

/-- Fan and compressors run and the fan's alarm stands. -/
def fanFailed : Sys :=
  { boot defaultConfig quiet with req := ⟨0x000B, 0⟩, final := ⟨0x000B, 0⟩ }
    |> alarmStatusBitmapOp .e7 true

theorem alarm_override_fanFailed :
    fanFailed.alarmBit .e7 = true ∧ fanFailed.reqBit .comp1 = true ∧
      (ocArbitration (alarmArbiration fanFailed)).finalBit .comp1 = false := by
  refine ⟨by decide, by decide, ?_⟩
  have h := alarm_override fanFailed rfl rfl fun _ _ => Words.get_zero _
  exact (h.1 (Or.inl (by decide))).1

end WM.Proof.Override
