import WaterMaker.Proof.Quiet
import WaterMaker.Proof.Override

/-!
# The output stage follows the final word

`oc_do_update` writes the status of the outputs only when a remapped bit has changed. As long as its two
copies of the status agree, they still show the final word on every wired channel
(`doSts_ocUpdate`), and the final word is the request where no alarm masks it (`finalBit_ocUpdate`).
-/

namespace WM.Proof

open WM WM.Impl

/-! ## The two words as one -/

theorem getLsbD_toBits (w : Words) {i : Nat} : (toBits w).getLsbD i = w.get i := by
  rw [toBits, BitVec.getLsbD_append, Words.get]

theorem get_ofBits (b : BitVec 32) {i : Nat} (hi : i < 32) : (ofBits b).get i = b.getLsbD i := by
  unfold ofBits Words.get
  split
  · rename_i h
    simp [h]
  · rename_i h
    simp [show i - 16 < 16 by omega, show 16 + (i - 16) = i by omega]

/-! ## The remap tables -/

theorem pinBit_standard (i : Nat) : Build.standard.pinBit i = i := rfl

theorem pinBit_pinBit (b : Build) (i : Nat) : b.pinBit (b.pinBit i) = i := by
  cases b with
  | standard => rfl
  | t10 => fun_cases Build.pinBit .t10 i <;> simp_all [Build.pinBit]

theorem pinBit_lt (b : Build) {i : Nat} (hi : i < 21) : b.pinBit i < 21 := by
  fun_cases Build.pinBit b i <;> omega

theorem getLsbD_stsRemap (b : Build) (bits : BitVec 32) (i : Nat) :
    (b.stsRemap bits).getLsbD i = (decide (i < 21) && bits.getLsbD (b.pinBit i)) :=
  getLsbD_remapBits (by decide) (pinBit_pinBit b) (fun _ => pinBit_lt b) bits i

/-! ## The status of the outputs -/

/-- The two copies of the outputs' status agree. -/
def DoutSame (s : Sys) : Prop := s.sts.comDout = s.sts.dout

theorem DoutSame.ocDoUpdate {s : Sys} (h : DoutSame s) (bits : BitVec 32) : DoutSame (ocDoUpdate bits s) := by
  unfold Impl.ocDoUpdate Build.ocDoUpdate
  dsimp only
  split
  · rfl
  · exact h

theorem doSts_ocDoUpdate {s : Sys} (h : DoutSame s) (bits : BitVec 32) {b : Do} (hb : b.bpos < 21) :
    (ocDoUpdate bits s).doSts b = bits.getLsbD b.bpos := by
  unfold ocDoUpdate Build.ocDoUpdate
  dsimp only
  split
  · rw [Sys.doSts, get_ofBits _ (by omega), getLsbD_stsRemap, pinBit_standard]
    simp [hb]
  · -- nothing has changed, so the old status shows the new bits
    rename_i hx
    have heq : Build.standard.stsRemap bits = Build.standard.stsRemap (toBits s.sts.dout) := by simpa using hx
    have hbit := congrArg (BitVec.getLsbD · b.bpos) heq
    simp only [getLsbD_stsRemap, pinBit_standard, hb, decide_true, Bool.true_and] at hbit
    rw [Sys.doSts, h, hbit, getLsbD_toBits]

/-- What `oc_update` leaves to the analog output. -/
theorem ocUpdate_sts (s : Sys) :
    let t := ocDoUpdate (toBits (ocArbitration s).final) (ocArbitration s)
    (ocUpdate s).sts.dout = t.sts.dout ∧ (ocUpdate s).sts.comDout = t.sts.comDout ∧
      (ocUpdate s).final = (ocArbitration s).final := by
  have har : ∀ s, (ocAoArbitration s).sts = s.sts ∧ (ocAoArbitration s).final = s.final := fun s => by
    simp [ocAoArbitration, apply_ite Sys.sts, apply_ite Sys.final]
  have hao : ∀ s, (ocAoUpdate s).sts.dout = s.sts.dout ∧ (ocAoUpdate s).sts.comDout = s.sts.comDout ∧
      (ocAoUpdate s).final = s.final := fun s => by
    unfold ocAoUpdate
    repeat' split
    all_goals exact ⟨rfl, rfl, rfl⟩
  have hdo : ∀ bits s, (ocDoUpdate bits s).final = s.final := fun bits s => by
    unfold ocDoUpdate Build.ocDoUpdate
    dsimp only
    split <;> rfl
  intro t
  unfold ocUpdate
  rw [(hao _).1, (hao _).2.1, (hao _).2.2, (har _).1, (har _).2, hdo]
  exact ⟨rfl, rfl, rfl⟩

theorem DoutSame.ocUpdate {s : Sys} (h : DoutSame s) : DoutSame (ocUpdate s) := by
  obtain ⟨h1, h2, -⟩ := ocUpdate_sts s
  have := DoutSame.ocDoUpdate (s := ocArbitration s) h (toBits (ocArbitration s).final)
  exact h2.trans (this.trans h1.symm)

/-- The status of a wired output is its bit of the final word. -/
theorem doSts_ocUpdate {s : Sys} (h : DoutSame s) {b : Do} (hb : b.bpos < 21) :
    (ocUpdate s).doSts b = (ocUpdate s).finalBit b := by
  obtain ⟨-, h2, h3⟩ := ocUpdate_sts s
  have := doSts_ocDoUpdate (s := ocArbitration s) h (toBits (ocArbitration s).final) hb
  rw [getLsbD_toBits] at this
  rw [Sys.finalBit, h3, ← this, Sys.doSts, h2]
  rfl

/-- With alarms in force, an output that is fitted is on when it is requested and not masked. -/
theorem finalBit_ocUpdate {s : Sys} (hn : s.cfg.normalMode = true) (hbp : s.cfg.alarmBypassEn = 0) {b : Do}
    (hdev : s.cfg.maskDout.get b.bpos = true) (halm : s.maskBit b → s.almBit b = false) :
    (ocUpdate s).finalBit b = (s.reqBit b && !s.maskBit b) := by
  have ht : s.cfg.testModeType = 0 := by
    simp only [Config.normalMode, Bool.and_eq_true, beq_iff_eq] at hn
    exact hn.2
  have h := Override.finalBit_ocArbitration s ht hbp b
  obtain ⟨-, -, h3⟩ := ocUpdate_sts s
  rw [Sys.finalBit, h3]
  refine Eq.trans h ?_
  rw [hdev, Override.target, hn]
  cases hm : s.maskBit b
  · simp
  · simp [halm hm]

end WM.Proof
