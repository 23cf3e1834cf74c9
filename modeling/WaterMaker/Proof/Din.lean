import WaterMaker.Spec.Din

/-!
# Two threads and one word

`di_sts_update` gives the word of the inputs its polarity in place. If it runs twice before `di_reg_update` has renewed
the word, the second run takes the polarity away again (`w0_twice`); so what is published is right after every run of
it, under every schedule, exactly if the polarity does not matter (`published_right_iff`).
-/

namespace WM.Proof

open WM WM.Impl WM.Spec

/-! ## The filter -/

theorem toNat_bit (w : BitVec 16) (i : Nat) : ((w >>> i) &&& 1).toNat = (w.getLsbD i).toNat := by
  have hone : (w >>> i) &&& 1 = BitVec.setWidth 16 (BitVec.ofBool (w.getLsbD i)) := by
    ext j hj
    by_cases h : j = 0
    · subst h
      simp
    · simp [h]
  rw [hone]
  cases w.getLsbD i <;> rfl

/-- The inner loop counts the samples that are high. -/
theorem diReg_eq (d : DinDev) {i : Nat} (hi : i < dinWord2) :
    diReg d i = (List.range diBufDepth).countP (fun j => (d.regArray0 j).getLsbD i) := by
  have hfold : ∀ (js : List Nat) (n : Nat), js.foldl (fun n j =>
      if i < dinWord2 then n + ((d.regArray0 j >>> i) &&& 1).toNat
      else n + ((d.regArray1 j >>> (i - dinWord2)) &&& 1).toNat) n =
        n + js.countP (fun j => (d.regArray0 j).getLsbD i) := by
    intro js
    induction js with
    | nil => exact fun n => rfl
    | cons j js ih =>
      intro n
      rw [List.foldl_cons, if_pos hi, ih, toNat_bit, List.countP_cons]
      cases (d.regArray0 j).getLsbD i
      · rfl
      · simp only [Bool.toNat_true, if_true]
        omega
  exact (hfold _ 0).trans (Nat.zero_add _)

/-- The outer loop gives each channel its bit, but for those of `pusl`. -/
theorem get_diData (c : DinConfig) (d : DinDev) (i : Nat) :
    ((List.range diMaxCnt).foldl (fun (w : Words) i =>
      if i < dinWord2 ∧ c.pusl.getLsbD i then w
      else w.put i (decide (diReg d i < diBufDepth - diBufDepth / 4))) .zero).get i =
      if i < diMaxCnt then !c.pusl.getLsbD i && decide (diReg d i < diBufDepth - diBufDepth / 4) else false := by
  have hround : ∀ (w : Words), ∀ i < diMaxCnt, ∀ j, (if i < dinWord2 ∧ c.pusl.getLsbD i then w
      else w.put i (decide (diReg d i < diBufDepth - diBufDepth / 4))).get j =
      if j = i then if c.pusl.getLsbD i then w.get i else decide (diReg d i < diBufDepth - diBufDepth / 4)
      else w.get j := by
    intro w i hi j
    by_cases hp : c.pusl.getLsbD i = true
    · rw [if_pos ⟨hi, hp⟩, if_pos hp]
      split
      · rename_i hj
        rw [hj]
      · rfl
    · rw [if_neg fun h => hp h.2, if_neg hp, Words.get_put _ (Nat.lt_of_lt_of_le hi (by decide))]
  rw [foldl_range_get (g := Words.get) (h := fun i b => if c.pusl.getLsbD i then b else _) hround, Words.get_zero]
  cases c.pusl.getLsbD i <;> simp

/-- Fewer than 38 of 50 samples are less than 75 percent. -/
theorem getLsbD_diRegUpdate (c : DinConfig) (d : DinDev) {i : Nat} (hi : i < 16) :
    (diRegUpdate c d).bitmap.w0.getLsbD i = filteredBit c d.regArray0 i := by
  have hget := get_diData c d i
  rw [Words.get, if_pos hi, if_pos (show i < diMaxCnt from hi), diReg_eq d hi] at hget
  refine hget.trans ?_
  unfold filteredBit
  congr 1
  refine decide_eq_decide.mpr ?_
  unfold diBufDepth
  omega

/-! ## The polarity -/

/-- The polarity given twice is taken away again. -/
theorem w0_twice (f p : BitVec 16) : ~~~(~~~(f ^^^ p) ^^^ p) = f := by
  ext i hi
  simp only [BitVec.getElem_not, BitVec.getElem_xor]
  cases f[i] <;> cases p[i] <;> rfl

/-- Without its polarity the word is right under the mask where all the polarities are set. -/
theorem and_eq_iff_polarity (m f p : BitVec 16) : m &&& f = m &&& ~~~(f ^^^ p) ↔ m &&& ~~~p = 0 := by
  have hbit : ∀ i (hi : i < 16), ((m &&& f)[i] = (m &&& ~~~(f ^^^ p))[i] ↔ (m &&& ~~~p)[i] = (0 : BitVec 16)[i]) := by
    intro i hi
    simp only [BitVec.getElem_and, BitVec.getElem_not, BitVec.getElem_xor, BitVec.ofNat_eq_ofNat, BitVec.getElem_zero]
    cases m[i] <;> cases f[i] <;> cases p[i] <;> decide
  constructor
  · intro h
    ext i hi
    exact (hbit i hi).mp (by rw [h])
  · intro h
    ext i hi
    exact (hbit i hi).mpr (by rw [h])

/-! ## One event -/

/-- The word `f` has the filtered bits of the ring. -/
def Filtered (c : DinConfig) (ring : Nat → BitVec 16) (f : BitVec 16) : Prop :=
  ∀ i < 16, f.getLsbD i = filteredBit c ring i

theorem published_iff {c : DinConfig} {ring : Nat → BitVec 16} {f : BitVec 16} (h : Filtered c ring f)
    (w : BitVec 16) : Published c ring w ↔ w = c.din.w0 &&& ~~~(f ^^^ c.polarity.w0) := by
  have hbit : ∀ i < 16, (c.din.w0 &&& ~~~(f ^^^ c.polarity.w0)).getLsbD i =
      (c.din.w0.getLsbD i && !(filteredBit c ring i ^^ c.polarity.w0.getLsbD i)) := fun i hi => by
    rw [BitVec.getLsbD_and, BitVec.getLsbD_not, BitVec.getLsbD_xor, h i hi, decide_eq_true hi, Bool.true_and]
  constructor
  · intro hw
    refine BitVec.eq_of_getLsbD_eq fun i hi => ?_
    rw [hw i hi, hbit i hi]
  · rintro rfl
    exact hbit

/-- The shared word is the filtered one, or has had its polarity given since. -/
def Holding (c : DinConfig) (fresh : Bool) (x : DinWatch) : Prop :=
  ∃ f, Filtered c x.ring f ∧ x.dev.bitmap.w0 = if fresh then f else ~~~(f ^^^ c.polarity.w0)

section step

variable {c : DinConfig} {fresh : Bool} {x : DinWatch}

theorem holding_sample (h : Holding c fresh x) (pins : Nat → Bool) : Holding c fresh (dinStep c x (.sample pins)) := h

theorem holding_reg (c : DinConfig) (d : DinDev) : Holding c true ⟨diRegUpdate c d, d.regArray0⟩ :=
  ⟨(diRegUpdate c d).bitmap.w0, fun _ hi => getLsbD_diRegUpdate c d hi, rfl⟩

/-- `di_sts_update` gives the polarity, or takes it away. -/
theorem holding_sts (h : Holding c fresh x) : Holding c (!fresh) (dinStep c x .sts) := by
  obtain ⟨f, hf, hw⟩ := h
  refine ⟨f, hf, ?_⟩
  change ~~~(x.dev.bitmap.w0 ^^^ c.polarity.w0) = _
  rw [hw]
  cases fresh with
  | true => rfl
  | false => exact w0_twice f c.polarity.w0

/-- What it publishes is right if it gave the polarity, or if that makes no difference. -/
theorem publishes_sts_iff (h : Holding c fresh x) :
    PublishesRight c x .sts ↔ fresh = true ∨ c.din.w0 &&& ~~~c.polarity.w0 = 0 := by
  obtain ⟨f, hf, hw⟩ := h
  change Published c x.ring (c.din.w0 &&& ~~~(x.dev.bitmap.w0 ^^^ c.polarity.w0)) ↔ _
  rw [published_iff hf, hw]
  cases fresh with
  | true => exact iff_of_true rfl (.inl rfl)
  | false =>
    rw [if_neg Bool.false_ne_true, w0_twice, and_eq_iff_polarity]
    exact ⟨.inr, fun h => h.resolve_left Bool.false_ne_true⟩

end step

/-! ## Schedules -/

/-- Where the polarity makes no difference, what is published is right under every schedule. -/
theorem published_of_polarity {c : DinConfig} (hc : c.din.w0 &&& ~~~c.polarity.w0 = 0) {fresh : Bool} {x : DinWatch}
    (h : Holding c fresh x) (es : List DinEvent) : Along (dinStep c) (PublishesRight c) x es := by
  induction es generalizing fresh x with
  | nil => trivial
  | cons e es ih =>
    cases e with
    | sample pins => exact ⟨trivial, ih (holding_sample h pins)⟩
    | reg => exact ⟨trivial, ih (holding_reg c x.dev)⟩
    | sts => exact ⟨(publishes_sts_iff h).mpr (.inr hc), ih (holding_sts h)⟩

/-- Where it does, every run of `di_sts_update` needs a new word. -/
theorem published_iff_renewed {c : DinConfig} (hc : c.din.w0 &&& ~~~c.polarity.w0 ≠ 0) {fresh : Bool} {x : DinWatch}
    (h : Holding c fresh x) (es : List DinEvent) :
    Along (dinStep c) (PublishesRight c) x es ↔ Renewed fresh es := by
  induction es generalizing fresh x with
  | nil => exact Iff.rfl
  | cons e es ih =>
    rw [Along.cons]
    cases e with
    | sample pins => exact (and_iff_right trivial).trans (ih (holding_sample h pins))
    | reg => exact (and_iff_right trivial).trans (ih (holding_reg c x.dev))
    | sts =>
      have hnext := ih (holding_sts h)
      rw [publishes_sts_iff h, or_iff_left hc]
      refine and_congr_right fun hfresh => ?_
      rw [hfresh] at hnext
      exact hnext

/-- For every ring of samples, mask and polarity, and every schedule that starts with a `di_reg_update`: what is
published is right after each `di_sts_update` exactly if the polarity of every input under the mask is set, or there
is a `di_reg_update` between any two of them. -/
theorem published_right_iff (c : DinConfig) (x : DinWatch) (es : List DinEvent) :
    Along (dinStep c) (PublishesRight c) x (.reg :: es) ↔
      c.din.w0 &&& ~~~c.polarity.w0 = 0 ∨ Renewed true es := by
  have hstart := holding_reg c x.dev
  refine (and_iff_right trivial).trans ?_
  by_cases hc : c.din.w0 &&& ~~~c.polarity.w0 = 0
  · exact iff_of_true (published_of_polarity hc hstart es) (.inl hc)
  · exact (published_iff_renewed hc hstart es).trans (or_iff_right hc).symm

/-- The mask and the polarity of the configuration table, and no pulse channels. -/
def defaultDin : DinConfig := ⟨⟨0x3F7F, 0⟩, ⟨0xBEDB, 0⟩, 0⟩

/-- The inputs with every sample low. -/
def idleInputs : DinWatch := ⟨⟨.zero, fun _ => 0, fun _ => 0, 0, .zero, 0⟩, fun _ => 0⟩

theorem filtered_idle : (diRegUpdate defaultDin idleInputs.dev).bitmap.w0 = 0xFFFF := by
  decide

/-- With the default mask and polarity, and no sample changing: the second of two runs of `di_sts_update` publishes
other levels than the first, for the inputs 2, 5 and 8. -/
theorem second_run_flips :
    let x := run (dinStep defaultDin) idleInputs [.reg, .sts]
    x.dev.comDin = 0x3E5B ∧ (dinStep defaultDin x .sts).dev.comDin = 0x3F7F ∧
      PublishesRight defaultDin (run (dinStep defaultDin) idleInputs [.reg]) .sts ∧
      ¬PublishesRight defaultDin x .sts := by
  have hfresh := holding_reg defaultDin idleInputs.dev
  refine ⟨?_, ?_, (publishes_sts_iff hfresh).mpr (.inl rfl), ?_⟩
  · change defaultDin.din.w0 &&& ~~~((diRegUpdate defaultDin idleInputs.dev).bitmap.w0 ^^^ defaultDin.polarity.w0) = _
    rw [filtered_idle]
    rfl
  · change defaultDin.din.w0 &&& ~~~(~~~((diRegUpdate defaultDin idleInputs.dev).bitmap.w0 ^^^
      defaultDin.polarity.w0) ^^^ defaultDin.polarity.w0) = _
    rw [filtered_idle]
    rfl
  · rw [publishes_sts_iff (x := run (dinStep defaultDin) idleInputs [.reg, .sts]) (holding_sts hfresh)]
    decide

end WM.Proof
