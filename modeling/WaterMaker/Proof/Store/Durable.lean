import WaterMaker.Proof.Store.Write

/-!
# Writes after damage

The mending at start-up leaves each bank's damage behind in its checksum word (`sum_booted`). As long as two of the
three checksum words agree (`StoreSound`), every write reaches the banks and makes all three agree (`sound_step`,
`sound_run`); where no two agree, `eeprom_tripple_write` gives up, and no write reaches them again (`stuck_step`).
`writes_durable_iff` puts the two together.
-/

namespace WM.Proof

open WM WM.Impl WM.Spec

variable {null : NullStore}

/-! ## While the checksums can be read -/

/-- The banks agree on `w`, and two of their checksum words agree. -/
structure StoreSound (w : Nat → Word) (d : Dev) : Prop where
  quiet : d.ee.bus = []
  agree : Agree w d.ee
  sum : majority d.ee confRegMapNum ≠ none

section stored

variable {i k : Nat} {v cs : Word} {f : Nat → Word}

theorem stored_data (hk : k < confRegMapNum) : stored i v cs f k = Function.update f i v k :=
  Function.update_of_ne (Nat.ne_of_lt hk) ..

theorem stored_sum : stored i v cs f confRegMapNum = cs := Function.update_self ..

end stored

theorem regStep_of_taken {d : Dev} {x : RegWrite} (h : Taken null d x) :
    regStep null d x = written x.reg x.value x.user d ∧
    Allowed x.reg x.value := by
  obtain ⟨d', hd⟩ := h
  obtain ⟨hc, -, hd'⟩ := regMapWrite_ok_iff.mp hd
  refine ⟨?_, allowed_of_check hc⟩
  unfold regStep
  rw [hd, hd']

theorem sound_step {w : Nat → Word} {d : Dev} {x : RegWrite} (h : StoreSound w d) (hv : ¬Volatile x.reg)
    (ht : Taken null d x) : StoreSound (rewrite w x) (regStep null d x) := by
  obtain ⟨c, hc⟩ := Option.ne_none_iff_exists'.mp h.sum
  obtain ⟨cs, hee⟩ : ∃ cs, (regStep null d x).ee = onUsers (stored x.reg x.value cs) d.ee := by
    rw [(regStep_of_taken ht).1, ee_written, if_neg hv, eepromTrippleWrite_eq h.quiet _ _ _ hc]
    exact ⟨_, rfl⟩
  refine ⟨?_, ?_, ?_⟩
  · rw [hee]
    exact h.quiet
  · intro b hb k hk
    rw [hee, bank_onUsers hb, stored_data hk, rewrite]
    by_cases hx : k = x.reg
    · rw [hx, Function.update_self, Function.update_self]
    · rw [Function.update_of_ne hx, Function.update_of_ne hx, h.agree b hb k hk]
  · rw [hee, majority_onUsers, stored_sum, stored_sum, stored_sum, vote_same]
    exact Option.some_ne_none _

/-- By induction on the writes: the banks follow them, and each value written may stand in its register. -/
theorem sound_run {w : Nat → Word} {d : Dev} {xs : List RegWrite} (h : StoreSound w d)
    (hxs : Along (regStep null) (fun d x => isMapped x.reg = true ∧ ¬Volatile x.reg ∧ Taken null d x) d xs) :
    StoreSound (run rewrite w xs) (run (regStep null) d xs) ∧
      ∀ i v, lastWrite xs i = some v → Allowed i v ∧ isMapped i = true := by
  induction xs generalizing w d with
  | nil => exact ⟨h, nofun⟩
  | cons x xs ih =>
    obtain ⟨⟨hm, hv, ht⟩, hrest⟩ := hxs
    obtain ⟨hsound, hlast⟩ := ih (sound_step h hv ht) hrest
    refine ⟨hsound, fun i v hi => ?_⟩
    rw [lastWrite] at hi
    cases hl : lastWrite xs i with
    | some v' =>
      rw [hl] at hi
      exact hlast i v (hl.trans hi)
    | none =>
      rw [hl, Option.none_or] at hi
      split at hi
      · rename_i hx
        cases hi
        exact hx ▸ ⟨(regStep_of_taken ht).2, hm⟩
      · cases hi

theorem load_run {w : Nat → Word} {d : Dev} {xs : List RegWrite} (h : StoreSound w d)
    (hxs : Along (regStep null) (fun d x => isMapped x.reg = true ∧ ¬Volatile x.reg ∧ Taken null d x) d xs)
    {i : Nat} {v : Word} (hi : lastWrite xs i = some v) : (initLoadUserConf (run (regStep null) d xs)).2.conf i = v := by
  obtain ⟨hsound, hlast⟩ := sound_run h hxs
  obtain ⟨ha, hm⟩ := hlast i v hi
  rw [conf_initLoadUserConf hsound.quiet hsound.agree.holds hm, run_rewrite, hi]
  exact loaded_of_allowed ha

/-! ## When they cannot -/

/-- A write that finds no checksum leaves the EEPROM as it is. -/
theorem stuck_step {d : Dev} {x : RegWrite} (hq : d.ee.bus = []) (h : majority d.ee confRegMapNum = none)
    (ht : Taken null d x) : (regStep null d x).ee = d.ee := by
  rw [(regStep_of_taken ht).1, ee_written]
  split
  · rfl
  · rw [eepromTrippleWrite_none hq _ _ _ h]

/-! ## After start-up -/

section booted

variable {w : Nat → Word} {d : Dev} (hq : d.ee.bus = []) (h : Holds w d.ee)
include hq h

theorem sum_booted {c : Word} (hsum : ∀ b, b ≠ .fact → d.ee.bank b confRegMapNum = c) {b : EeArea} (hb : b ≠ .fact) :
    (initLoadUserConf d).2.ee.bank b confRegMapNum = c ^^^ residue w d.ee b := by
  rw [ee_initLoadUserConf hq h, bank_onUsers hb, mended_sum (Nat.le_refl _), hsum b hb]
  rfl

theorem majority_sum_booted {c : Word} (hsum : ∀ b, b ≠ .fact → d.ee.bank b confRegMapNum = c) :
    majority (initLoadUserConf d).2.ee confRegMapNum = none ↔ Scattered w d.ee := by
  unfold majority
  rw [sum_booted hq h hsum (b := .ee1) nofun, sum_booted hq h hsum (b := .ee2) nofun,
    sum_booted hq h hsum (b := .ee3) nofun, vote_eq_none_iff]
  unfold Scattered
  simp only [ne_eq, BitVec.xor_right_inj]

end booted

theorem confReg_survAddr : confReg 3 = some (ConfReg.reg 3 1 128 1 1) := by decide

theorem mapped_survAddr : isMapped 3 = true := by decide

/-- `surv_addr` can always be given one of two values. -/
theorem check_survAddr (d : Dev) {v : Word} (h : v = 1 ∨ v = 2) : regMapCheck 3 [v] .cpad d = .noErr := by
  have hrange : 1 ≤ v.toNat ∧ v.toNat ≤ 128 := by rcases h with rfl | rfl <;> decide
  exact check_of_range confReg_survAddr rfl hrange nofun

theorem taken_survAddr (d : Dev) {v : Word} (h : v = 1 ∨ v = 2) : Taken null d ⟨3, v, .cpad⟩ :=
  ⟨_, regMapWrite_of_check (check_survAddr d h) mapped_survAddr⟩

/-- If no checksum can be read, there is a write that the next start-up does not find. -/
theorem lost_write (null : NullStore) {w : Nat → Word} {d : Dev} (hq : d.ee.bus = []) (h : Agree w d.ee)
    (hsum : majority d.ee confRegMapNum = none) : ∃ x, isMapped x.reg = true ∧ ¬Volatile x.reg ∧ Taken null d x ∧
      (initLoadUserConf (regStep null d x)).2.conf x.reg ≠ x.value := by
  obtain ⟨v, hv, hne⟩ : ∃ v : Word, (v = 1 ∨ v = 2) ∧ loaded 3 (w 3) ≠ v := by
    by_cases h1 : loaded 3 (w 3) = 1
    · exact ⟨2, .inr rfl, h1 ▸ by decide⟩
    · exact ⟨1, .inl rfl, h1⟩
  have ht : Taken null d ⟨3, v, .cpad⟩ := taken_survAddr d hv
  have hee : (regStep null d ⟨3, v, .cpad⟩).ee = d.ee := stuck_step hq hsum ht
  refine ⟨⟨3, v, .cpad⟩, mapped_survAddr, show ¬Volatile 3 by decide, ht, ?_⟩
  rw [conf_initLoadUserConf (w := w) (by rw [hee]; exact hq) (by rw [hee]; exact h.holds) mapped_survAddr]
  exact hne

/-- After any damage that start-up can mend, every write lasts, unless the damage comes to something else in each
of the three banks. -/
theorem writes_durable_iff {w : Nat → Word} {d : Dev} (hq : d.ee.bus = [])
    (hsum : ∀ b, b ≠ .fact → d.ee.bank b confRegMapNum = xorSum w confRegMapNum)
    (hdamage : ∀ i < confRegMapNum, OneWrong w d.ee i) :
    (∀ xs, Along (regStep null) (fun d x => isMapped x.reg = true ∧ ¬Volatile x.reg ∧ Taken null d x)
      (initLoadUserConf d).2 xs →
      ∀ i v, lastWrite xs i = some v →
        (initLoadUserConf (run (regStep null) (initLoadUserConf d).2 xs)).2.conf i = v) ↔ ¬Scattered w d.ee := by
  have h : Holds w d.ee := fun i hi => (hdamage i hi).majority
  have hbus := bus_booted hq h
  have hagree := agree_initLoadUserConf hq h
  rw [← majority_sum_booted hq h hsum]
  generalize (initLoadUserConf d).2 = d₁ at hbus hagree ⊢
  constructor
  · intro hall hnone
    obtain ⟨x, hm, hv, ht, hne⟩ := lost_write null hbus hagree hnone
    have hlast : lastWrite [x] x.reg = some x.value := by
      rw [lastWrite, lastWrite, Option.none_or, if_pos rfl]
    have hload := hall [x] ⟨⟨hm, hv, ht⟩, trivial⟩ x.reg x.value hlast
    rw [run_cons, run_nil] at hload
    exact hne hload
  · intro hsome xs hxs i v hi
    exact load_run ⟨hbus, hagree, hsome⟩ hxs hi

/-- A configuration of ones. -/
def plainConf : Nat → Word := fun _ => 1

/-- It stands in the three banks with its checksum, and the damage `lost` is done to the words. -/
def hurtDev (lost : EeArea → Nat → Word) : Dev := { freshDev with
  ee := ⟨fun b i => if i = confRegMapNum then xorSum plainConf confRegMapNum else plainConf i ^^^ lost b i,
    eeFlagLoadUsr, [], 0⟩ }

theorem sum_hurtDev (lost : EeArea → Nat → Word) (b : EeArea) :
    (hurtDev lost).ee.bank b confRegMapNum = xorSum plainConf confRegMapNum := by
  unfold hurtDev
  dsimp only
  rw [if_pos rfl]

theorem oneWrong_hurtDev {lost : EeArea → Nat → Word} {i : Nat} (hi : i < confRegMapNum)
    (h : ∀ b b', b ≠ b' → lost b i = 0#16 ∨ lost b' i = 0#16) : OneWrong plainConf (hurtDev lost).ee i := by
  have hwrong : ∀ b, (hurtDev lost).ee.bank b i ≠ plainConf i → lost b i ≠ 0#16 := by
    intro b hb h0
    refine hb ((if_neg (Nat.ne_of_lt hi)).trans ?_)
    rw [h0, BitVec.xor_zero]
  intro b b' _ _ hb hb'
  by_contra hne
  rcases h b b' hne with h0 | h0
  · exact hwrong b hb h0
  · exact hwrong b' hb' h0

/-- One word lost in the first bank. -/
def oneLost (b : EeArea) (i : Nat) : Word := if b = .ee1 ∧ i = 36 then 1 else 0

theorem writes_durable_iff_oneLost : (hurtDev oneLost).ee.bank .ee1 36 ≠ plainConf 36 ∧
    ∀ xs, Along (regStep .fault) (fun d x => isMapped x.reg = true ∧ ¬Volatile x.reg ∧ Taken .fault d x)
      (initLoadUserConf (hurtDev oneLost)).2 xs → ∀ i v, lastWrite xs i = some v →
        (initLoadUserConf (run (regStep .fault) (initLoadUserConf (hurtDev oneLost)).2 xs)).2.conf i = v := by
  have hone : ∀ i < confRegMapNum, OneWrong plainConf (hurtDev oneLost).ee i := by
    refine fun i hi => oneWrong_hurtDev hi fun b b' hne => ?_
    unfold oneLost
    by_cases hb : b = .ee1
    · exact .inr (if_neg fun hb' => hne (hb.trans hb'.1.symm))
    · exact .inl (if_neg fun h => hb h.1)
  exact ⟨by decide, (writes_durable_iff rfl (fun b _ => sum_hurtDev oneLost b) hone).mpr (by decide +kernel)⟩

/-- One word lost in the first bank, and another in the second. -/
def twoLost (b : EeArea) (i : Nat) : Word :=
  if b = .ee1 ∧ i = 36 then 1 else if b = .ee2 ∧ i = 40 then 2 else 0

theorem scattered_twoLost : Scattered plainConf (hurtDev twoLost).ee := by decide +kernel

/-- After this damage is mended, `surv_addr` takes a new value, which the next start-up does not find. -/
theorem write_forgotten : (∀ i < confRegMapNum, OneWrong plainConf (hurtDev twoLost).ee i) ∧
    (∀ b, b ≠ .fact → (hurtDev twoLost).ee.bank b confRegMapNum = xorSum plainConf confRegMapNum) ∧
    Taken .fault (initLoadUserConf (hurtDev twoLost)).2 ⟨3, 2, .cpad⟩ ∧
    (initLoadUserConf (regStep .fault (initLoadUserConf (hurtDev twoLost)).2 ⟨3, 2, .cpad⟩)).2.conf 3 = 1 := by
  have hone : ∀ i < confRegMapNum, OneWrong plainConf (hurtDev twoLost).ee i := by
    refine fun i hi => oneWrong_hurtDev hi fun b b' hne => ?_
    by_contra hno
    rw [not_or] at hno
    obtain ⟨hb, hb'⟩ := hno
    have hat : ∀ c, twoLost c i ≠ 0#16 → c = .ee1 ∧ i = 36 ∨ c = .ee2 ∧ i = 40 := by
      intro c hc
      by_contra hno
      rw [not_or] at hno
      exact hc ((if_neg hno.1).trans (if_neg hno.2))
    rcases hat b hb with ⟨rfl, hi1⟩ | ⟨rfl, hi1⟩ <;> rcases hat b' hb' with ⟨rfl, hi2⟩ | ⟨rfl, hi2⟩
    · exact hne rfl
    · omega
    · omega
    · exact hne rfl
  have hsum : ∀ b, b ≠ .fact → (hurtDev twoLost).ee.bank b confRegMapNum = xorSum plainConf confRegMapNum :=
    fun b _ => sum_hurtDev twoLost b
  have h : Holds plainConf (hurtDev twoLost).ee := fun i hi => (hone i hi).majority
  have hbus := bus_booted rfl h
  have hagree := agree_initLoadUserConf rfl h
  have hnone := (majority_sum_booted rfl h hsum).mpr scattered_twoLost
  generalize (initLoadUserConf (hurtDev twoLost)).2 = d₁ at hbus hagree hnone ⊢
  have ht : Taken .fault d₁ ⟨3, 2, .cpad⟩ := taken_survAddr d₁ (.inr rfl)
  have hee := stuck_step hbus hnone ht
  refine ⟨hone, hsum, ht, ?_⟩
  rw [conf_initLoadUserConf (w := plainConf) (by rw [hee]; exact hbus) (by rw [hee]; exact hagree.holds)
    mapped_survAddr]
  decide

end WM.Proof
