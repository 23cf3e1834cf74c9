import WaterMaker.Spec.Output
import WaterMaker.Proof.Output

/-!
# Pins and status in both builds

`oc_do_update` puts the remapped final word on the pins that change, and reports the same remapped word as the status
of the channels. In the T10 build, whose table swaps two outputs, that status is the final word only while the two are
alike (`outputs_follow_iff`).
-/

namespace WM.Proof

open WM WM.Impl WM.Spec

/-! ## The pins -/

theorem getLsbD_dioSetDo (i : Nat) (v : Bool) (pins : BitVec 32) (j : Nat) :
    (dioSetDo (i + 1) v pins).getLsbD j = if j = i ∧ j < 21 then v else pins.getLsbD j := by
  unfold dioSetDo
  by_cases hi : i < 21
  · rw [if_pos ⟨by omega, by omega⟩, Nat.add_sub_cancel, getLsbD_putBit _ (by omega)]
    exact if_congr ⟨fun h => ⟨h, by omega⟩, And.left⟩ rfl rfl
  · rw [if_neg (by omega), if_neg (by omega)]

theorem getLsbD_setPin (old new pins : BitVec 32) (i j : Nat) :
    (if (new ^^^ old).getLsbD i then dioSetDo (i + 1) (new.getLsbD i) pins else pins).getLsbD j =
      if j = i then if i < 21 ∧ (new ^^^ old).getLsbD i then new.getLsbD i else pins.getLsbD i
      else pins.getLsbD j := by
  by_cases hx : (new ^^^ old).getLsbD i = true
  · rw [if_pos hx, getLsbD_dioSetDo]
    by_cases hj : j = i
    · simp only [hj, hx, true_and, and_true, if_true]
    · rw [if_neg fun h => hj h.1, if_neg hj]
  · rw [if_neg hx]
    by_cases hj : j = i
    · rw [if_pos hj, if_neg fun h => hx h.2, hj]
    · rw [if_neg hj]

/-- A pin that showed the old word shows the new one. -/
theorem getLsbD_setPins {old new pins : BitVec 32} {i : Nat} (hi : i < 21) (h : pins.getLsbD i = old.getLsbD i) :
    (setPins old new pins).getLsbD i = new.getLsbD i := by
  rw [setPins, foldl_range_get fun p i _ j => getLsbD_setPin old new p i j, if_pos (by omega)]
  by_cases hx : (new ^^^ old).getLsbD i = true
  · rw [if_pos ⟨hi, hx⟩]
  · rw [if_neg fun h => hx h.2, h]
    rw [BitVec.getLsbD_xor] at hx
    cases ho : old.getLsbD i <;> cases hn : new.getLsbD i <;> simp_all

/-! ## Runs of `oc_do_update` -/

/-- The pins and both copies of the status show one word, which the build's table does not change. -/
structure Shown (b : Build) (s : Sys) : Prop where
  same : DoutSame s
  pins : ∀ i < 21, s.pins.getLsbD i = s.sts.dout.get i
  still : ∀ i < 21, s.sts.dout.get (b.pinBit i) = s.sts.dout.get i

theorem shown_of_off {b : Build} {s : Sys} (h : OutputsOff s) : Shown b s := by
  refine ⟨h.comDout.trans h.dout.symm, fun i _ => ?_, fun i _ => ?_⟩
  · rw [h.pins, h.dout, Words.get_zero]
    exact BitVec.getLsbD_zero
  · rw [h.dout, Words.get_zero, Words.get_zero]

section step

variable {b : Build} {s : Sys} (h : Shown b s) (f : BitVec 32)

include h

/-- Channel `i` of the status is the one of the final word that the table puts there. -/
theorem dout_buildUpdate {i : Nat} (hi : i < 21) : (b.ocDoUpdate f s).sts.dout.get i = f.getLsbD (b.pinBit i) := by
  unfold Build.ocDoUpdate
  dsimp only
  split
  · rw [get_ofBits _ (by omega), getLsbD_stsRemap]
    simp [hi]
  · -- nothing has changed, so the old status shows the new word
    rename_i hx
    have heq : b.stsRemap f = b.stsRemap (toBits s.sts.dout) := by simpa using hx
    have hbit := congrArg (BitVec.getLsbD · i) heq
    simp only [getLsbD_stsRemap, hi, decide_true, Bool.true_and] at hbit
    rw [hbit, getLsbD_toBits, h.still i hi]

theorem same_buildUpdate : DoutSame (b.ocDoUpdate f s) := by
  unfold Build.ocDoUpdate
  dsimp only
  split
  · rfl
  · exact h.same

theorem pins_buildUpdate {i : Nat} (hi : i < 21) :
    (b.ocDoUpdate f s).pins.getLsbD i = (b.ocDoUpdate f s).sts.dout.get i := by
  unfold Build.ocDoUpdate
  dsimp only
  split
  · rw [get_ofBits _ (by omega)]
    refine getLsbD_setPins hi ?_
    rw [h.pins i hi, getLsbD_stsRemap, getLsbD_toBits, h.still i hi]
    simp [hi]
  · exact h.pins i hi

theorem shown_buildUpdate (hf : ∀ i < 21, f.getLsbD (b.pinBit i) = f.getLsbD i) : Shown b (b.ocDoUpdate f s) := by
  refine ⟨same_buildUpdate h f, fun i hi => pins_buildUpdate h f hi, fun i hi => ?_⟩
  rw [dout_buildUpdate h f (pinBit_lt b hi), dout_buildUpdate h f hi, pinBit_pinBit, hf i hi]

/-- The pins are right; the status is when the table does not change the word. -/
theorem follow_buildUpdate_iff :
    OutputsFollow b f (b.ocDoUpdate f s) ↔ ∀ i < 21, f.getLsbD (b.pinBit i) = f.getLsbD i := by
  have hsts : ∀ k < 21, (b.ocDoUpdate f s).sts.comDout.get k = f.getLsbD (b.pinBit k) := fun k hk => by
    rw [same_buildUpdate h f, dout_buildUpdate h f hk]
  constructor
  · intro hfollow i hi
    rw [← hsts i hi, hfollow.2 i hi]
  · intro hf
    refine ⟨fun e he => ?_, fun k hk => (hsts k hk).trans (hf k hk)⟩
    obtain ⟨k, hk, rfl⟩ := List.mem_map.mp he
    have hpin := pinBit_lt b (List.mem_range.mp hk)
    rw [pins_buildUpdate h f hpin, dout_buildUpdate h f hpin, pinBit_pinBit]

end step

/-- The words that a table does not change. -/
theorem still_iff (b : Build) (f : BitVec 32) :
    (∀ i < 21, f.getLsbD (b.pinBit i) = f.getLsbD i) ↔ b = .standard ∨ f.getLsbD 4 = f.getLsbD 16 := by
  cases b with
  | standard => simp [Build.pinBit]
  | t10 =>
    constructor
    · intro h
      exact .inr (h 16 (by omega))
    · rintro (h | h) i hi
      · cases h
      · fun_cases Build.pinBit .t10 i
        · exact h.symm
        · exact h
        · rfl

/-- From all outputs off, the pins and the reported status follow the final word after every call of a run of
`oc_do_update` exactly if the build's table is the standard one, or the two outputs that the T10 swaps are alike in
every final word. -/
theorem outputs_follow_iff (b : Build) {s : Sys} (hs : OutputsOff s) (fs : List (BitVec 32)) :
    Along (fun s f => b.ocDoUpdate f s) (fun s f => OutputsFollow b f (b.ocDoUpdate f s)) s fs ↔
      b = .standard ∨ ∀ f ∈ fs, f.getLsbD 4 = f.getLsbD 16 := by
  have hrun : Along (fun s f => b.ocDoUpdate f s) (fun s f => OutputsFollow b f (b.ocDoUpdate f s)) s fs ↔
      ∀ f ∈ fs, ∀ i < 21, f.getLsbD (b.pinBit i) = f.getLsbD i :=
    Along.iff_forall (fun _ f h => follow_buildUpdate_iff h f) (fun _ f h hf => shown_buildUpdate h f hf)
      (shown_of_off hs)
  simp only [hrun, still_iff]
  by_cases hb : b = .standard <;> simp [hb]

theorem outputsOff_boot (c : Config) (i : Inputs) : OutputsOff (boot c i) := ⟨rfl, rfl, rfl⟩

/-- Outputs 5 and 17 are switched on together, and off. -/
theorem outputs_follow_iff_together : OutputsOff (boot defaultConfig quiet) ∧
    Along (fun s f => Build.t10.ocDoUpdate f s) (fun s f => OutputsFollow .t10 f (Build.t10.ocDoUpdate f s))
      (boot defaultConfig quiet) [0x00010010, 0x00000000] := by
  have hoff := outputsOff_boot defaultConfig quiet
  exact ⟨hoff, (outputs_follow_iff .t10 hoff _).mpr (.inr (by simp))⟩

/-- In the T10 build output 5 is switched on alone: the pin of DO17 goes high, as the table has it, but channel 16 is
reported on and channel 4 off. When it is switched off again the stored status is remapped once more, so the wrong pin
is taken low and DO17 stays high. -/
theorem swapped_pin_stuck :
    let t := Build.t10.ocDoUpdate 0x00000010 (boot defaultConfig quiet)
    let u := Build.t10.ocDoUpdate 0x00000000 t
    (t.pins.getLsbD 16 = true ∧ t.sts.comDout.get 4 = false ∧ t.sts.comDout.get 16 = true) ∧
      u.pins.getLsbD 16 = true ∧ ¬OutputsFollow .t10 0x00000010 t ∧ ¬OutputsFollow .t10 0x00000000 u := by
  decide

end WM.Proof
