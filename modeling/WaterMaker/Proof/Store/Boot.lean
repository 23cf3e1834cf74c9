import WaterMaker.Proof.Registers.Legal
import WaterMaker.Proof.Store.Eeprom

/-!
# Loading the user banks

If the user banks hold a configuration (`Holds`), `init_load_user_conf` loads it and brings the banks into agreement
on it (`initLoadUserConf_eq`); mending leaves a trace in the checksums only (`mended`).
`boot_tolerates_damage`: damage that hits no word in two banks is mended.
-/

namespace WM.Proof

open WM WM.Impl WM.Spec

/-! ## One register -/

theorem conf_load (i : Nat) (v : Word) (d : Dev) :
    (d.load i v).conf = if isMapped i = true then Function.update d.conf i v else d.conf := by
  unfold Dev.load
  split <;> rfl

theorem load_ee (i : Nat) (v : Word) (d : Dev) (ee : Eeprom) :
    ({ d with ee := ee } : Dev).load i v = { d.load i v with ee := ee } := by
  unfold Dev.load
  split <;> rfl

/-- The stores of a load, one through the `reg_ptr` of every row: a controller gets through them exactly if a store
through NULL is lost, and then it has what the loads of the model leave. -/
theorem foldlM_setReg (null : NullStore) (buf : Nat → Word) (d : Dev) :
    (List.range confRegMapNum).foldlM (fun d i => d.setReg null i (buf i)) d =
      if null = .lost then .ok ((List.range confRegMapNum).foldl (fun d i => d.load i (buf i)) d)
      else .error .fault := by
  cases null with
  | lost =>
    rw [if_pos rfl]
    exact List.foldlM_pure ..
  | fault =>
    -- the first row has no register already
    rw [if_neg nofun, show confRegMapNum = 434 + 1 from rfl, List.range_succ_eq_map, List.foldlM_cons,
      setReg_null (by decide)]
    rfl

theorem exists_row {i : Nat} (h : i < confRegMapNum) : ∃ r, confReg i = some r := by
  rw [← length_confRegMapInst] at h
  exact ⟨_, List.getElem?_eq_getElem h⟩

theorem allowed_iff_row {i : Nat} {r : ConfReg} (h : confReg i = some r) {v : Word} :
    Allowed i v ↔ ¬(r.mapped = true ∧ (v.toNat < r.min ∨ v.toNat > r.max)) := by
  unfold Allowed
  rw [h]
  simp only [Option.mem_some_iff, forall_eq']
  constructor
  · rintro hv ⟨hm, ho⟩
    have := hv hm
    omega
  · intro hv hm
    have : ¬(v.toNat < r.min ∨ v.toNat > r.max) := fun ho => hv ⟨hm, ho⟩
    omega

/-- A word that the banks agree on by majority goes into its register, if that can hold it. -/
theorem confRegReadEe_eq {d : Dev} (hq : d.ee.bus = []) {i : Nat} (hi : i < confRegMapNum) {v : Word}
    (h : majority d.ee i = some v) : confRegReadEe i d =
      (if Allowed i v then 0 else 1, { d.load i (loaded i v) with ee := onUsers (mend i v) d.ee }) := by
  obtain ⟨r, hr⟩ := exists_row hi
  unfold confRegReadEe
  rw [eepromCompareRead_majority hq h, seen_zero _ h, hr]
  dsimp only
  by_cases ha : Allowed i v
  · rw [if_neg ((allowed_iff_row hr).mp ha), if_neg (not_not.mpr rfl), if_pos ha, loaded_of_allowed ha, load_ee]
  · rw [if_pos (not_not.mp fun ho => ha ((allowed_iff_row hr).mpr ho)), if_neg ha, load_ee]
    unfold loaded
    rw [if_neg ha, hr]
    rfl

/-! ## The loop -/

/-- A bank of which the first `k` words have been brought to `w`. -/
def mended (w : Nat → Word) (k : Nat) (f : Nat → Word) : Nat → Word := fun i =>
  if i < k then w i
  else if i = confRegMapNum then f i ^^^ xorSum (fun j => f j ^^^ w j) k
  else f i

/-- The registers of which the first `k` have been loaded with `g`. -/
def overlaid (g : Nat → Word) (k : Nat) (conf : Nat → Word) : Nat → Word := fun i =>
  if i < k ∧ isMapped i = true then g i else conf i

section loop

variable {w f : Nat → Word} {k : Nat}

theorem mended_zero (w f : Nat → Word) : mended w 0 f = f := by
  funext i
  unfold mended
  rw [if_neg (Nat.not_lt_zero i)]
  split
  · exact BitVec.xor_zero ..
  · rfl

/-- A bank that holds `w` already stays as it is. -/
theorem mended_right (h : ∀ j < k, f j = w j) : mended w k f = f := by
  have hsum : xorSum (fun j => f j ^^^ w j) k = 0#16 := by
    rw [xorSum_xor, xorSum_congr h, BitVec.xor_self]
  funext i
  unfold mended
  split_ifs with hi hcs
  · exact (h i hi).symm
  · rw [hsum, BitVec.xor_zero]
  · rfl

theorem mended_at (hk : k < confRegMapNum) : mended w k f k = f k := by
  unfold mended
  rw [if_neg (Nat.lt_irrefl k), if_neg (Nat.ne_of_lt hk)]

theorem mended_data {i : Nat} (hi : i < k) : mended w k f i = w i := if_pos hi

theorem mended_sum (hk : k ≤ confRegMapNum) :
    mended w k f confRegMapNum = f confRegMapNum ^^^ xorSum (fun j => f j ^^^ w j) k := by
  unfold mended
  rw [if_neg (Nat.not_lt.mpr hk), if_pos rfl]

theorem mend_mended (hk : k < confRegMapNum) : mend k (w k) (mended w k f) = mended w (k + 1) f := by
  funext i
  by_cases hi : i = confRegMapNum
  · subst hi
    rw [mend_sum, mended_sum (Nat.le_of_lt hk), mended_at hk, mended_sum hk, xorSum_succ]
    ac_rfl
  · by_cases hik : i = k
    · subst hik
      rw [mend_at hk, mended_data (Nat.lt_succ_self i)]
    · rw [mend_of_ne hik hi]
      unfold mended
      rw [if_neg hi, if_neg hi]
      by_cases hlt : i < k
      · rw [if_pos hlt, if_pos (by omega)]
      · rw [if_neg hlt, if_neg (by omega)]

theorem overlaid_zero (g conf : Nat → Word) : overlaid g 0 conf = conf :=
  funext fun i => if_neg fun hi => Nat.not_lt_zero i hi.1

theorem overlaid_succ (g conf : Nat → Word) (d : Dev) (hd : d.conf = overlaid g k conf) :
    (d.load k (g k)).conf = overlaid g (k + 1) conf := by
  rw [conf_load]
  funext i
  by_cases hik : i = k
  · subst hik
    split
    · rename_i hm
      rw [Function.update_self, overlaid, if_pos ⟨Nat.lt_succ_self i, hm⟩]
    · rename_i hm
      rw [hd, overlaid, overlaid, if_neg fun h => hm h.2, if_neg fun h => hm h.2]
  · have hconf : overlaid g k conf i = overlaid g (k + 1) conf i := by
      unfold overlaid
      simp only [show i < k ↔ i < k + 1 by omega]
    split
    · rw [Function.update_of_ne hik, hd, hconf]
    · rw [hd, hconf]

end loop

theorem dev_load_eq (i : Nat) (v : Word) (d : Dev) : d.load i v = { d with conf := (d.load i v).conf } := by
  unfold Dev.load
  split <;> rfl

/-- The loop of `init_load_user_conf`, by induction on the rows: the words before row `k` are mended and loaded, the
others are as they were, so that their majorities still stand. -/
theorem foldl_userStep {w : Nat → Word} {d : Dev} (hq : d.ee.bus = []) (h : Holds w d.ee) {k : Nat}
    (hk : k ≤ confRegMapNum) : (List.range k).foldl userStep (0, d) =
      ((List.range k).countP fun i => !decide (Allowed i (w i)),
        { d with conf := overlaid (fun i => loaded i (w i)) k d.conf, ee := onUsers (mended w k) d.ee }) := by
  induction k with
  | zero =>
    refine congrArg (Prod.mk 0) ?_
    have hee : onUsers (mended w 0) d.ee = d.ee := onUsers_self fun b _ => mended_zero w _
    rw [overlaid_zero, hee]
  | succ k ih =>
    have hlt : k < confRegMapNum := hk
    have hmaj : majority (onUsers (mended w k) d.ee) k = some (w k) := by
      rw [majority_onUsers, mended_at hlt, mended_at hlt, mended_at hlt]
      exact h k hlt
    have hee : onUsers (mend k (w k)) (onUsers (mended w k) d.ee) = onUsers (mended w (k + 1)) d.ee := by
      rw [onUsers_onUsers]
      exact onUsers_congr fun b _ => mend_mended hlt
    rw [List.range_succ, List.foldl_append, ih (Nat.le_of_succ_le hk), List.foldl_cons, List.foldl_nil]
    unfold userStep
    rw [confRegReadEe_eq (by exact hq) hlt hmaj, hee, dev_load_eq,
      overlaid_succ (fun i => loaded i (w i)) d.conf _ rfl]
    refine congrArg₂ Prod.mk ?_ rfl
    rw [List.countP_append, List.countP_singleton]
    by_cases ha : Allowed k (w k) <;> simp [ha]

theorem countP_refused (w : Nat → Word) (k : Nat) :
    ((List.range k).countP fun i => !decide (Allowed i (w i))) = 0 ↔ ∀ i < k, Allowed i (w i) := by
  rw [List.countP_eq_zero]
  simp only [List.mem_range, Bool.not_eq_true, Bool.not_eq_false', decide_eq_true_eq]

/-- `init_load_user_conf` loads the configuration that the banks hold, and mends them. -/
theorem initLoadUserConf_eq {w : Nat → Word} {d : Dev} (hq : d.ee.bus = []) (h : Holds w d.ee) :
    initLoadUserConf d = (if ∀ i < confRegMapNum, Allowed i (w i) then 1 else 0,
      { d with conf := overlaid (fun i => loaded i (w i)) confRegMapNum d.conf,
               ee := onUsers (mended w confRegMapNum) d.ee }) := by
  have hcount := countP_refused w confRegMapNum
  unfold initLoadUserConf
  rw [foldl_userStep hq h (Nat.le_refl _)]
  dsimp only
  by_cases hall : ∀ i < confRegMapNum, Allowed i (w i)
  · rw [if_pos hall, if_pos (hcount.mpr hall)]
  · rw [if_neg hall, if_neg fun h0 => hall (hcount.mp h0)]

section booted

variable {w : Nat → Word} {d : Dev} (hq : d.ee.bus = []) (h : Holds w d.ee)
include hq h

theorem conf_initLoadUserConf {i : Nat} (hm : isMapped i = true) :
    (initLoadUserConf d).2.conf i = loaded i (w i) := by
  obtain ⟨r, hr, -⟩ := isMapped_iff.mp hm
  rw [initLoadUserConf_eq hq h]
  exact if_pos ⟨lt_of_confReg hr, hm⟩

/-- A value that its register can hold is loaded as it is. -/
theorem conf_booted {i : Nat} (hm : isMapped i = true) (ha : Allowed i (w i)) :
    (initLoadUserConf d).2.conf i = w i := by
  rw [conf_initLoadUserConf hq h hm, loaded_of_allowed ha]

theorem ee_initLoadUserConf : (initLoadUserConf d).2.ee = onUsers (mended w confRegMapNum) d.ee := by
  rw [initLoadUserConf_eq hq h]

theorem agree_initLoadUserConf : Agree w (initLoadUserConf d).2.ee := by
  intro b hb i hi
  rw [ee_initLoadUserConf hq h, bank_onUsers hb, mended_data hi]

theorem bus_booted : (initLoadUserConf d).2.ee.bus = [] := by
  rw [ee_initLoadUserConf hq h]
  exact hq

end booted

/-- Banks that agree are left as they are. -/
theorem ee_initLoadUserConf_agree {w : Nat → Word} {d : Dev} (hq : d.ee.bus = []) (h : Agree w d.ee) :
    (initLoadUserConf d).2.ee = d.ee := by
  rw [ee_initLoadUserConf hq h.holds]
  exact onUsers_self fun b hb => mended_right (h b hb)

/-! ## The way in -/

theorem sysGlobalVarInit_quiet {d : Dev} (hq : d.ee.bus = []) (startInit : Bool) (sts : Nat → Word) :
    sysGlobalVarInit startInit sts d =
      (loadConf (initState startInit d.ee.flag) { d with sts := sts }).clearRows := by
  have hee : { d.ee with bus := d.ee.bus.drop 2 } = d.ee := by rw [hq, List.drop_nil, ← hq]
  unfold sysGlobalVarInit getEeStatus
  rw [transfer_quiet hq]
  dsimp only
  rw [hee]
  rfl

theorem ee_clearRows (d : Dev) : d.clearRows.ee = d.ee := rfl

theorem conf_clearRows (d : Dev) (i : Nat) : d.clearRows.conf i = if i ∈ clearedRows then 0 else d.conf i := rfl

section usr

variable {w : Nat → Word} {d : Dev} (hq : d.ee.bus = []) (hflag : d.ee.flag = eeFlagLoadUsr) (sts : Nat → Word)
include hq hflag

theorem sysGlobalVarInit_usr :
    sysGlobalVarInit false sts d = (initLoadUserConf { d with sts := sts }).2.clearRows := by
  have hstate : initState false eeFlagLoadUsr = .usr := by decide
  rw [sysGlobalVarInit_quiet hq, hflag, hstate, loadConf, Function.comp_apply]

/-- A start from banks that agree leaves them as they are. -/
theorem ee_sysGlobalVarInit_usr (h : Agree w d.ee) : (sysGlobalVarInit false sts d).ee = d.ee := by
  have hee : (initLoadUserConf { d with sts := sts }).2.ee = d.ee :=
    ee_initLoadUserConf_agree (d := { d with sts := sts }) hq h
  rw [sysGlobalVarInit_usr hq hflag, ee_clearRows, hee]

theorem conf_sysGlobalVarInit_usr (h : Holds w d.ee) {i : Nat} (hm : isMapped i = true) :
    (sysGlobalVarInit false sts d).conf i = if i ∈ clearedRows then 0 else loaded i (w i) := by
  have hconf : (initLoadUserConf { d with sts := sts }).2.conf i = loaded i (w i) :=
    conf_initLoadUserConf (d := { d with sts := sts }) hq h hm
  rw [sysGlobalVarInit_usr hq hflag, conf_clearRows, hconf]

end usr

/-- Start-up mends any damage that hits each word in at most one bank: every register gets its value, and the banks
hold the configuration as before. -/
theorem boot_tolerates_damage {w : Nat → Word} {d : Dev} (hq : d.ee.bus = [])
    (hrange : ∀ i < confRegMapNum, Allowed i (w i)) (hdamage : ∀ i ≤ confRegMapNum, OneWrong w d.ee i) :
    (initLoadUserConf d).1 = 1 ∧ (∀ i, isMapped i = true → (initLoadUserConf d).2.conf i = w i) ∧
      Agree w (initLoadUserConf d).2.ee := by
  have h : Holds w d.ee := fun i hi => (hdamage i (Nat.le_of_lt hi)).majority
  refine ⟨?_, fun i hm => ?_, agree_initLoadUserConf hq h⟩
  · rw [initLoadUserConf_eq hq h, if_pos hrange]
  · obtain ⟨r, hr, -⟩ := isMapped_iff.mp hm
    exact conf_booted hq h hm (hrange i (lt_of_confReg hr))

/-- The defaults in the registers and in the banks. -/
def storedDev : Dev := { freshDev with ee := ⟨fun _ i => freshDev.conf i, eeFlagLoadUsr, [], 0⟩ }

theorem allowed_freshDev (i : Nat) : Allowed i (freshDev.conf i) := (legal_iff.mp legal_freshDev).1 i

theorem agree_storedDev : Agree freshDev.conf storedDev.ee := fun _ _ _ _ => rfl

/-- The defaults in the three banks, with words lost in two of them. -/
def damagedDev : Dev := { freshDev with
  ee := ⟨fun b i => if b = .ee1 ∧ i = 36 ∨ b = .ee2 ∧ (i = 40 ∨ i = confRegMapNum) then 0x1234
    else freshDev.conf i, eeFlagLoadUsr, [], 0⟩ }

theorem boot_tolerates_damage_twoBanks : damagedDev.ee.bank .ee1 36 ≠ freshDev.conf 36 ∧
    (initLoadUserConf damagedDev).1 = 1 ∧ (initLoadUserConf damagedDev).2.conf 36 = freshDev.conf 36 ∧
      Agree freshDev.conf (initLoadUserConf damagedDev).2.ee := by
  have hlost : ∀ {b i}, damagedDev.ee.bank b i ≠ freshDev.conf i →
      b = .ee1 ∧ i = 36 ∨ b = .ee2 ∧ (i = 40 ∨ i = confRegMapNum) := fun h => by
    by_contra hno
    exact h (if_neg hno)
  have hone : ∀ i ≤ confRegMapNum, OneWrong freshDev.conf damagedDev.ee i := by
    intro i _ b b' _ _ h h'
    rcases hlost h with ⟨rfl, hi⟩ | ⟨rfl, hi⟩ <;> rcases hlost h' with ⟨rfl, hi'⟩ | ⟨rfl, hi'⟩
    · rfl
    · exact absurd (hi ▸ hi') (by decide)
    · exact absurd (hi' ▸ hi) (by decide)
    · rfl
  obtain ⟨hret, hconf, hagree⟩ := boot_tolerates_damage rfl (fun i _ => allowed_freshDev i) hone
  exact ⟨by decide, hret, hconf 36 (by decide), hagree⟩

end WM.Proof
