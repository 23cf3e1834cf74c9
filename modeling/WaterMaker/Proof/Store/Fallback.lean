import WaterMaker.Proof.Store.Factory

/-!
# Settings that cannot be read

A vote that fails gives `0x7fff`, and only the range of its register tells that from a setting; the factory bank is
loaded without a look at the ranges. `falls_back_iff` says exactly when a start ends in defaults and in values within
their ranges: the words that no two banks agree on belong to registers that cannot hold `0x7fff`, and a factory bank
that is loaded holds values within the ranges.
-/

namespace WM.Proof

open WM WM.Impl WM.Spec

/-! ## The ranges -/

/-- What the load of the banks makes of its last round `x`. -/
theorem initLoadUserConf_last (d : Dev) : ∃ x, x = (List.range confRegMapNum).foldl userStep (0, d) ∧
    initLoadUserConf d = (if x.1 = 0 then 1 else 0, x.2) :=
  ⟨_, rfl, rfl⟩

section range

variable {i : Nat} {r : ConfReg} (hr : confReg i = some r) (hm : r.mapped = true)
include hr hm

theorem allowed_dft : Allowed i (BitVec.ofNat 16 r.dft) := by
  intro r' hr' _
  cases hr.symm.trans hr'
  exact dft_of_table r (List.mem_of_getElem? hr) hm

/-- A register that is read from the banks is within its range, whatever they hold. -/
theorem allowed_confRegReadEe (d : Dev) : Allowed i ((confRegReadEe i d).2.conf i) := by
  have hload : ∀ (v : Word) (d : Dev), (d.load i v).conf i = v := by
    intro v d
    rw [conf_load, if_pos ((isMapped_of_confReg hr).trans hm), Function.update_self]
  unfold confRegReadEe
  rw [hr]
  dsimp only
  split
  · rw [hload]
    exact allowed_dft hr hm
  · rename_i hv
    rw [hload]
    exact (allowed_iff_row hr).mpr hv

theorem allowed_initLoadUserConf (d : Dev) : Allowed i ((initLoadUserConf d).2.conf i) := by
  have hloop := foldl_range_at (f := userStep) (g := fun x => x.2.conf) (fun x i j hj => conf_confRegReadEe hj x.2)
    (fun x => allowed_confRegReadEe hr hm x.2) (lt_of_confReg hr) (0, d)
  obtain ⟨x, hx, hload⟩ := initLoadUserConf_last d
  rw [← hx] at hloop
  rw [hload]
  exact hloop

theorem allowed_loadDefault (d : Dev) : Allowed i ((loadDefault d).conf i) := by
  have hat : ∀ d, Allowed i ((defaultStep d i).conf i) := by
    intro d
    by_cases hi : i < confRegSidStart
    · rw [conf_defaultStep_at hr hm hi]
      exact allowed_dft hr hm
    · unfold defaultStep
      rw [if_neg hi]
      exact allowed_confRegReadEe hr hm d
  rw [loadDefault]
  exact foldl_range_at (g := Dev.conf) (fun d i j hj => conf_defaultStep hj d) hat (lt_of_confReg hr) d

end range

/-! ## Words that no two banks agree on -/

/-- The vote gives `0x7fff`, and an error. -/
theorem confRegReadEe_none {d : Dev} (hq : d.ee.bus = []) {i : Nat} (hi : i < confRegMapNum)
    (h : majority d.ee i = none) : confRegReadEe i d = (1, d.load i (loaded i 0x7fff)) := by
  obtain ⟨r, hr⟩ := exists_row hi
  unfold confRegReadEe
  rw [eepromCompareRead_none hq h, hr]
  dsimp only
  by_cases ha : Allowed i 0x7fff
  · rw [if_neg ((allowed_iff_row hr).mp ha), if_pos (by decide), loaded_of_allowed ha]
  · rw [if_pos (not_not.mp fun ho => ha ((allowed_iff_row hr).mpr ho)), loaded, if_neg ha, hr]
    rfl

/-- Reading word `i` leaves the words behind it as they are. -/
theorem ahead_confRegReadEe {d : Dev} (hq : d.ee.bus = []) {i : Nat} (hi : i < confRegMapNum) :
    (confRegReadEe i d).2.ee.bus = [] ∧ ∀ b j, i < j → j < confRegMapNum →
      (confRegReadEe i d).2.ee.bank b j = d.ee.bank b j := by
  cases h : majority d.ee i with
  | none =>
    rw [confRegReadEe_none hq hi h, dev_load_eq]
    exact ⟨hq, fun _ _ _ _ => rfl⟩
  | some v =>
    rw [confRegReadEe_eq hq hi h]
    refine ⟨hq, fun b j hij hj => ?_⟩
    rcases bank_onUsers_mend d.ee i v b j with heq | ⟨-, -, rfl | rfl⟩
    · exact heq
    · exact absurd hij (Nat.lt_irrefl _)
    · exact absurd hj (Nat.lt_irrefl _)

/-- The loop of `init_load_user_conf`, by induction on the rows: the banks from row `k` on are as they were, and a row
before it on which no two of them agreed has been counted. -/
theorem foldl_unread {d : Dev} (hq : d.ee.bus = []) {k : Nat} (hk : k ≤ confRegMapNum) :
    let x := (List.range k).foldl userStep (0, d)
    x.2.ee.bus = [] ∧ (∀ b j, k ≤ j → j < confRegMapNum → x.2.ee.bank b j = d.ee.bank b j) ∧
      ∀ i < k, majority d.ee i = none → 0 < x.1 ∧ (isMapped i = true → x.2.conf i = loaded i 0x7fff) := by
  refine foldl_range_inv (fun k (x : Nat × Dev) => x.2.ee.bus = [] ∧
      (∀ b j, k ≤ j → j < confRegMapNum → x.2.ee.bank b j = d.ee.bank b j) ∧
      ∀ i < k, majority d.ee i = none → 0 < x.1 ∧ (isMapped i = true → x.2.conf i = loaded i 0x7fff))
    ⟨hq, fun _ _ _ _ => rfl, fun i hi => absurd hi (Nat.not_lt_zero i)⟩ fun k x hlt ⟨hbus, hbank, hrows⟩ => ?_
  have hk : k < confRegMapNum := Nat.lt_of_lt_of_le hlt hk
  obtain ⟨hbus', hbank'⟩ := ahead_confRegReadEe hbus hk
  refine ⟨hbus', fun b j hkj hj => ?_, fun i hi hnone => ?_⟩
  · exact (hbank' b j hkj hj).trans (hbank b j (by omega) hj)
  · by_cases hik : i = k
    · subst hik
      have hmaj : majority x.2.ee i = none := by
        unfold majority
        rw [hbank _ i (Nat.le_refl i) hk, hbank _ i (Nat.le_refl i) hk, hbank _ i (Nat.le_refl i) hk]
        exact hnone
      unfold userStep
      rw [confRegReadEe_none hbus hk hmaj]
      refine ⟨Nat.succ_pos _, fun hm => ?_⟩
      rw [conf_load, if_pos hm, Function.update_self]
    · obtain ⟨hpos, hconf⟩ := hrows i (by omega) hnone
      exact ⟨Nat.add_pos_left hpos _, fun hm => (conf_confRegReadEe hik x.2).trans (hconf hm)⟩

/-- A register on whose word no two banks agree, after the load of the banks. -/
theorem initLoadUserConf_unread {d : Dev} (hq : d.ee.bus = []) {i : Nat} (hm : isMapped i = true)
    (h : majority d.ee i = none) :
    (initLoadUserConf d).2.conf i = loaded i 0x7fff ∧ (initLoadUserConf d).1 = 0 := by
  obtain ⟨r, hr, -⟩ := isMapped_iff.mp hm
  obtain ⟨-, -, hrows⟩ := foldl_unread hq (Nat.le_refl confRegMapNum)
  obtain ⟨hpos, hconf⟩ := hrows i (lt_of_confReg hr) h
  obtain ⟨x, hx, hload⟩ := initLoadUserConf_last d
  rw [← hx] at hpos hconf
  rw [hload]
  exact ⟨hconf hm, if_neg (Nat.ne_of_gt hpos)⟩

/-- Every row admits `0x7fff` by its minimum, and none has it as its default. -/
theorem unread_of_table : ∀ r ∈ confRegMapInst, r.mapped = true →
    r.min ≤ 0x7fff ∧ BitVec.ofNat 16 r.dft ≠ 0x7fff := by
  decide +kernel

/-- A failed vote shows as the default exactly where the register cannot hold `0x7fff`. -/
theorem loaded_unread_iff {i : Nat} {r : ConfReg} (hr : confReg i = some r) (hm : r.mapped = true) :
    loaded i 0x7fff = BitVec.ofNat 16 r.dft ↔ r.max < 0x7fff := by
  obtain ⟨hmin, hdft⟩ := unread_of_table r (List.mem_of_getElem? hr) hm
  have hrange : Allowed i 0x7fff ↔ ¬(r.max < 0x7fff) := by
    have hval : (0x7fff : Word).toNat = 0x7fff := rfl
    rw [allowed_iff_row hr, hval]
    exact ⟨fun h hlt => h ⟨hm, .inr hlt⟩, fun h hout => by omega⟩
  by_cases ha : Allowed i 0x7fff
  · rw [loaded_of_allowed ha]
    exact iff_of_false hdft.symm (hrange.mp ha)
  · rw [loaded, if_neg ha, hr]
    exact iff_of_true rfl (not_not.mp fun hn => ha (hrange.mpr hn))

/-! ## The loads -/

/-- Saving, the flag and the passwords do not touch the registers. -/
theorem conf_save (sel : Nat) (d : Dev) : (d.save sel).conf = d.conf := rfl

theorem conf_setFlag (sel : Nat) (d : Dev) : (d.setFlag sel).conf = d.conf := rfl

theorem conf_authenInit (d : Dev) : (authenInit d).conf = d.conf := rfl

theorem conf_initLoadDefault (d : Dev) : (initLoadDefault d).conf = (loadDefault d).conf := by
  rw [initLoadDefault, conf_authenInit]

theorem conf_loadConf_fact (d : Dev) : (loadConf .fact d).conf = (initLoadFactoryConf d).2.conf := by
  unfold loadConf
  dsimp only
  split
  · rw [conf_setFlag, conf_save]
  · rfl

/-- Only the load of the factory bank can leave a register out of its range. -/
theorem allowed_loadConf {i : Nat} {r : ConfReg} (hr : confReg i = some r) (hm : r.mapped = true) {state : InitState}
    (h : state ≠ .fact) (d : Dev) : Allowed i ((loadConf state d).conf i) := by
  cases state with
  | usr =>
    rw [loadConf, Function.comp_apply]
    exact allowed_initLoadUserConf hr hm d
  | fact => exact absurd rfl h
  | debut =>
    rw [loadConf, conf_setFlag, conf_save, conf_save, conf_initLoadDefault]
    exact allowed_loadDefault hr hm d
  | dft =>
    rw [loadConf, conf_initLoadDefault]
    exact allowed_loadDefault hr hm d

theorem allowed_cleared : ∀ i ∈ clearedRows, Allowed i 0 := by decide

/-- The registers that are cleared may hold 0. -/
theorem allowed_clearRows_iff (d : Dev) {i : Nat} :
    Allowed i (d.clearRows.conf i) ↔ (i ∉ clearedRows → Allowed i (d.conf i)) := by
  rw [conf_clearRows]
  by_cases hc : i ∈ clearedRows
  · rw [if_pos hc]
    exact iff_of_true (allowed_cleared i hc) fun hn => absurd hc hn
  · rw [if_neg hc]
    exact ⟨fun h _ => h, fun h => h hc⟩

theorem range_fact_iff {d : Dev} (hq : d.ee.bus = []) :
    (∀ i, isMapped i = true → i ∉ clearedRows → Allowed i ((loadConf .fact d).conf i)) ↔ FactorySound d.ee := by
  rw [conf_loadConf_fact]
  by_cases hsum : xorSum (d.ee.bank .fact) (confRegMapNum + 1) = 0#16
  · have hconf : ∀ i, isMapped i = true → (initLoadFactoryConf d).2.conf i = d.ee.bank .fact i := by
      intro i hm
      obtain ⟨r, hr, -⟩ := isMapped_iff.mp hm
      rw [initLoadFactoryConf_valid hq hsum]
      exact if_pos ⟨lt_of_confReg hr, hm⟩
    constructor
    · intro h _ i hm hc
      rw [← hconf i hm]
      exact h i hm hc
    · intro h i hm hc
      rw [hconf i hm]
      exact h hsum i hm hc
  · rw [initLoadFactoryConf_spoiled hq hsum]
    refine iff_of_true (fun i hm _ => ?_) fun h0 => absurd h0 hsum
    obtain ⟨r, hr, hmr⟩ := isMapped_iff.mp hm
    have hdft := allowed_loadDefault hr hmr d
    obtain ⟨d₁, hd₁⟩ : ∃ d₁, d₁ = loadDefault d := ⟨_, rfl⟩
    rw [← hd₁] at hdft ⊢
    exact hdft

/-- Exactly when a start leaves every register within its range. -/
theorem range_iff {d : Dev} (hq : d.ee.bus = []) (startInit : Bool) (sts : Nat → Word) :
    (∀ i, isMapped i = true → Allowed i ((sysGlobalVarInit startInit sts d).conf i)) ↔
      (initState startInit d.ee.flag = .fact → FactorySound d.ee) := by
  rw [sysGlobalVarInit_quiet hq]
  simp only [allowed_clearRows_iff]
  by_cases hs : initState startInit d.ee.flag = .fact
  · have hfact := range_fact_iff (d := { d with sts := sts }) hq
    rw [hs]
    generalize loadConf .fact { d with sts := sts } = d₁ at hfact ⊢
    exact hfact.trans ⟨fun h _ => h, fun h => h rfl⟩
  · refine iff_of_true (fun i hm _ => ?_) fun hf => absurd hf hs
    obtain ⟨r, hr, hmr⟩ := isMapped_iff.mp hm
    exact allowed_loadConf hr hmr hs _

/-- Exactly when a start falls back to defaults and ranges, for every content of the EEPROM. -/
theorem falls_back_iff {d : Dev} (hq : d.ee.bus = []) (startInit : Bool) (sts : Nat → Word) :
    FallsBack startInit sts d ↔
      (∀ i r, confReg i = some r → r.mapped = true → majority d.ee i = none → r.max < 0x7fff) ∧
      (initState startInit d.ee.flag = .fact → FactorySound d.ee) := by
  have hunread : ∀ i r, confReg i = some r → r.mapped = true → majority d.ee i = none →
      ((initLoadUserConf d).2.conf i = BitVec.ofNat 16 r.dft ∧ (initLoadUserConf d).1 = 0 ↔ r.max < 0x7fff) := by
    intro i r hr hm hnone
    obtain ⟨hconf, hret⟩ := initLoadUserConf_unread hq ((isMapped_of_confReg hr).trans hm) hnone
    rw [hconf, loaded_unread_iff hr hm]
    exact and_iff_left hret
  rw [← range_iff hq startInit sts]
  constructor
  · intro h
    exact ⟨fun i r hr hm hnone => (hunread i r hr hm hnone).mp (h.unread i r hr hm hnone), h.range⟩
  · rintro ⟨h, hrange⟩
    exact ⟨fun i r hr hm hnone => (hunread i r hr hm hnone).mpr (h i r hr hm hnone), hrange⟩

/-- Another word in each of the user banks. -/
def tornWord : EeArea → Word
  | .ee1 => 1 | .ee2 => 2 | .ee3 => 3 | .fact => 0

/-- The defaults in the banks, but for row `i`. -/
def tornDev (i : Nat) : Dev := { storedDev with
  ee := { storedDev.ee with bank := fun b => Function.update freshDev.conf i (tornWord b) } }

theorem majority_tornDev (i j : Nat) : majority (tornDev i).ee j = if j = i then none else some (freshDev.conf j) := by
  have hbank : ∀ b, (tornDev i).ee.bank b = Function.update freshDev.conf i (tornWord b) := fun _ => rfl
  unfold majority
  rw [hbank, hbank, hbank]
  by_cases h : j = i
  · subst h
    rw [Function.update_self, Function.update_self, Function.update_self, if_pos rfl]
    decide
  · rw [Function.update_of_ne h, Function.update_of_ne h, Function.update_of_ne h, if_neg h, vote_same]

/-- `u16Power_Mode` cannot be read. -/
theorem falls_back_iff_power : majority (tornDev 36).ee 36 = none ∧ FallsBack false (fun _ => 0) (tornDev 36) := by
  refine ⟨(majority_tornDev 36 36).trans (if_pos rfl),
    (falls_back_iff rfl false _).mpr ⟨fun i r hr _ hnone => ?_, fun hs => absurd hs (by decide)⟩⟩
  rw [majority_tornDev] at hnone
  split at hnone
  · rename_i hi
    subst hi
    have hrow : confReg 36 = some (ConfReg.reg 36 0 1 1 2) := by decide
    cases hr.symm.trans hrow
    decide
  · exact absurd hnone nofun

/-- A factory bank with the right checksum, in which `u16Power_Mode` is 7. -/
def oddFactory : Dev := { storedDev with
  ee := ⟨fun _ => saved (Function.update freshDev.conf 36 7) fun _ => 0, eeFlagLoadFact, [], 0⟩ }

theorem conf_oddFactory : (sysGlobalVarInit false freshDev.sts oddFactory).conf 36 = 7 := by
  have hbank : oddFactory.ee.bank .fact = saved (Function.update freshDev.conf 36 7) fun _ => 0 := rfl
  have hsum : xorSum (oddFactory.ee.bank .fact) (confRegMapNum + 1) = 0#16 := by
    rw [hbank]
    exact xorSum_saved ..
  rw [sysGlobalVarInit_fact rfl rfl freshDev.sts hsum, conf_clearRows, if_neg (by decide)]
  dsimp only
  rw [overlaid, if_pos (by decide), hbank, saved_data _ _ (by decide), Function.update_self]

/-- The polarity of the inputs cannot be read, and becomes `0x7fff` and not its default; and a factory bank is loaded
with a value that is out of range. -/
theorem unread_polarity : (majority (tornDev 8).ee 8 = none ∧ confReg 8 = some (ConfReg.reg 8 0 0xFFFF 0xBEDB 3) ∧
    (initLoadUserConf (tornDev 8)).2.conf 8 = 0x7fff) ∧
    ¬Allowed 36 ((sysGlobalVarInit false freshDev.sts oddFactory).conf 36) := by
  have hnone : majority (tornDev 8).ee 8 = none := (majority_tornDev 8 8).trans (if_pos rfl)
  refine ⟨⟨hnone, by decide, ?_⟩, ?_⟩
  · rw [(initLoadUserConf_unread rfl (by decide) hnone).1]
    exact loaded_of_allowed (by decide)
  · rw [conf_oddFactory]
    decide

end WM.Proof
