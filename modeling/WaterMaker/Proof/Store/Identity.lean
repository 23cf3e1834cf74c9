import WaterMaker.Proof.Store.Factory

/-!
# The device's identity

The loads of defaults leave the identity out and read it from the user banks again (`loadDefault_identity`); the load
of the factory bank brings back the identity of the time when that was saved. `identity_kept_iff`: every way back
keeps the identity, except the two that load the factory bank, which keep it if it is the one in there.
-/

namespace WM.Proof

open WM WM.Impl WM.Spec

/-! ## The rows -/

section row

variable {i : Nat} (h : InIdentity i)
include h

theorem confReg_identity : confReg i = some (ConfReg.reg i 0 0xFFFF 0 2) :=
  confReg_text (Nat.le_trans (by decide) h.1) h.2

theorem mapped_identity : isMapped i = true := isMapped_of_confReg (confReg_identity h)

theorem loaded_identity (v : Word) : loaded i v = v :=
  loaded_of_allowed (allowed_of_wordRange (confReg_identity h) rfl rfl v)

theorem not_cleared_identity : i ∉ clearedRows := by
  have hcleared : ∀ j ∈ clearedRows, j < confRegSidStart := by decide
  exact fun hc => absurd h.1 (Nat.not_le.mpr (hcleared i hc))

end row

/-! ## The defaults -/

section default

variable {sid : Nat → Word}

theorem defaultStep_identity {d : Dev} (hq : d.ee.bus = []) (h : StoresIdentity sid d.ee) {j : Nat}
    (hj : j < confRegMapNum) : (defaultStep d j).ee = d.ee ∧ (InIdentity j → (defaultStep d j).conf j = sid j) := by
  unfold defaultStep
  split
  · rename_i hlt
    refine ⟨?_, fun hin => absurd hin.1 (Nat.not_le.mpr hlt)⟩
    cases confReg j with
    | none => rfl
    | some r =>
      dsimp only
      split
      · rw [dev_load_eq]
      · rfl
  · rename_i hge
    have hin : InIdentity j := ⟨Nat.not_lt.mp hge, hj⟩
    rw [confRegReadEe_eq hq hj (majority_of_same (h j hin)), onUsers_mend_right (h j hin), loaded_identity hin]
    refine ⟨rfl, fun _ => ?_⟩
    rw [conf_load, if_pos (mapped_identity hin), Function.update_self]

/-- By induction on the rows: the EEPROM stays as it is, and the identity before row `k` has been read. -/
theorem foldl_identity {d : Dev} (hq : d.ee.bus = []) (h : StoresIdentity sid d.ee) {k : Nat}
    (hk : k ≤ confRegMapNum) : ((List.range k).foldl defaultStep d).ee = d.ee ∧
      ∀ i, InIdentity i → i < k → ((List.range k).foldl defaultStep d).conf i = sid i := by
  refine foldl_range_inv (fun k (x : Dev) => x.ee = d.ee ∧ ∀ i, InIdentity i → i < k → x.conf i = sid i)
    ⟨rfl, fun i _ hi => absurd hi (Nat.not_lt_zero i)⟩ fun k x hlt ⟨hee, hconf⟩ => ?_
  obtain ⟨hee', hat⟩ := defaultStep_identity (d := x) (by rw [hee]; exact hq) (by rw [hee]; exact h)
    (Nat.lt_of_lt_of_le hlt hk)
  refine ⟨hee'.trans hee, fun i hin hi => ?_⟩
  by_cases hik : i = k
  · rw [hik]
    exact hat (hik ▸ hin)
  · rw [conf_defaultStep hik]
    exact hconf i hin (by omega)

theorem loadDefault_identity {d : Dev} (hq : d.ee.bus = []) (h : StoresIdentity sid d.ee) :
    (loadDefault d).ee = d.ee ∧ ∀ i, InIdentity i → (loadDefault d).conf i = sid i := by
  obtain ⟨hee, hconf⟩ := foldl_identity hq h (Nat.le_refl confRegMapNum)
  rw [loadDefault]
  exact ⟨hee, fun i hi => hconf i hi hi.2⟩

end default

/-! ## The ways back -/

section paths

variable {sid : Nat → Word} {d : Dev}

theorem hasIdentity_clearRows : HasIdentity sid d.clearRows ↔ HasIdentity sid d := by
  refine and_congr_left fun _ => forall₂_congr fun i hi => ?_
  rw [conf_clearRows, if_neg (not_cleared_identity hi)]

theorem authenInit_quiet (hq : d.ee.bus = []) : authenInit d = d := by
  have hee : { d.ee with bus := d.ee.bus.drop 4 } = d.ee := by rw [hq, List.drop_nil, ← hq]
  unfold authenInit
  rw [hee]

/-- What is saved to the user banks is what the registers hold. -/
theorem storesIdentity_saved (h : ∀ i, InIdentity i → d.conf i = sid i) {e : Eeprom}
    (he : ∀ b, b ≠ .fact → e.bank b = saved d.word (d.ee.bank b)) : StoresIdentity sid e := by
  intro i hi b hb
  rw [he b hb, saved_data _ _ hi.2, word_of_mapped (mapped_identity hi), h i hi]

theorem hasIdentity_saves (hq : d.ee.bus = []) (h : ∀ i, InIdentity i → d.conf i = sid i) :
    HasIdentity sid (((d.save 0).save 1).setFlag 0) := by
  rw [save_users hq, save_fact (by exact hq), setFlag_quiet (by exact hq)]
  refine ⟨h, storesIdentity_saved h fun b hb => ?_⟩
  exact (setBank_of_ne _ _ hb).trans (bank_onUsers hb)

theorem hasIdentity_debut (hq : d.ee.bus = []) (h : StoresIdentity sid d.ee) :
    HasIdentity sid (loadConf .debut d) := by
  obtain ⟨hee, hconf⟩ := loadDefault_identity hq h
  have hq₁ : (loadDefault d).ee.bus = [] := by
    rw [hee]
    exact hq
  rw [loadConf, initLoadDefault, authenInit_quiet hq₁]
  exact hasIdentity_saves hq₁ hconf

theorem hasIdentity_dft (hq : d.ee.bus = []) (h : StoresIdentity sid d.ee) : HasIdentity sid (loadConf .dft d) := by
  obtain ⟨hee, hconf⟩ := loadDefault_identity hq h
  rw [loadConf, initLoadDefault]
  generalize loadDefault d = d₁ at hee hconf ⊢
  rw [authenInit_quiet (hee ▸ hq)]
  exact ⟨hconf, hee ▸ h⟩

/-- The load of the factory bank leaves the EEPROM alone, and brings the identity of that bank if that can be read. -/
theorem factory_identity (hq : d.ee.bus = []) (h : StoresIdentity sid d.ee) : ∃ ret d₁,
    initLoadFactoryConf d = (ret, d₁) ∧ d₁.ee = d.ee ∧
      ((∀ i, InIdentity i → d₁.conf i = sid i) ↔ FactoryIdentity sid d.ee) := by
  by_cases hsum : xorSum (d.ee.bank .fact) (confRegMapNum + 1) = 0#16
  · have hat : ∀ i, InIdentity i → overlaid (d.ee.bank .fact) confRegMapNum d.conf i = d.ee.bank .fact i :=
      fun i hi => if_pos ⟨hi.2, mapped_identity hi⟩
    exact ⟨1, _, initLoadFactoryConf_valid hq hsum, rfl, fun hall _ i hi => (hat i hi).symm.trans (hall i hi),
      fun hall i hi => (hat i hi).trans (hall hsum i hi)⟩
  · obtain ⟨hee, hconf⟩ := loadDefault_identity hq h
    exact ⟨0, _, initLoadFactoryConf_spoiled hq hsum, hee, fun _ h0 => absurd h0 hsum, fun _ => hconf⟩

theorem saveFlag_users (hq : d.ee.bus = []) :
    (d.save 0).setFlag 0 = { d with ee := { onUsers (saved d.word) d.ee with flag := eeFlagLoadUsr } } := by
  rw [save_users hq, setFlag_quiet (by exact hq)]
  rfl

/-- Once the registers are saved, it is they that count. -/
theorem hasIdentity_saved (hq : d.ee.bus = []) :
    HasIdentity sid ((d.save 0).setFlag 0) ↔ ∀ i, InIdentity i → d.conf i = sid i := by
  rw [saveFlag_users hq]
  exact ⟨fun h => h.1, fun h => ⟨h, storesIdentity_saved h fun b hb => bank_onUsers hb⟩⟩

theorem hasIdentity_fact (hq : d.ee.bus = []) (h : StoresIdentity sid d.ee) :
    HasIdentity sid (loadConf .fact d) ↔ FactoryIdentity sid d.ee := by
  obtain ⟨ret, d₁, hload, hee, hiff⟩ := factory_identity hq h
  rw [loadConf, hload, ← hiff]
  split
  · exact hasIdentity_saved (hee ▸ hq)
  · exact ⟨fun hid => hid.1, fun hall => ⟨hall, hee ▸ h⟩⟩

theorem bus_save_fact (hq : d.ee.bus = []) : (d.save 1).ee.bus = [] := by
  rw [save_fact hq]
  exact hq

theorem storesIdentity_save (hq : d.ee.bus = []) (h : StoresIdentity sid d.ee) :
    StoresIdentity sid (d.save 1).ee := by
  intro i hi b hb
  rw [save_fact hq]
  exact (congrFun (setBank_of_ne d.ee _ hb) i).trans (h i hi b hb)

/-- What is saved as factory settings is what the registers hold. -/
theorem factoryIdentity_save (hq : d.ee.bus = []) (h : ∀ i, InIdentity i → d.conf i = sid i) :
    FactoryIdentity sid (d.save 1).ee := by
  intro _ i hi
  rw [save_fact hq]
  rw [setBank_bank, saved_data _ _ hi.2, word_of_mapped (mapped_identity hi), h i hi]

/-- A start from registers that were saved. -/
theorem hasIdentity_restart (hq : d.ee.bus = []) (ram sts : Nat → Word) :
    HasIdentity sid (restart false ram sts ((d.save 0).setFlag 0)) ↔ ∀ i, InIdentity i → d.conf i = sid i := by
  unfold restart
  rw [saveFlag_users hq]
  let d₁ : Dev := { d with conf := ram, ee := { onUsers (saved d.word) d.ee with flag := eeFlagLoadUsr } }
  have hagree : Agree d.word d₁.ee := fun b hb i hi =>
    (congrFun (bank_onUsers hb) i).trans (saved_data d.word (d.ee.bank b) hi)
  have hq₁ : d₁.ee.bus = [] := hq
  have hee : (sysGlobalVarInit false sts d₁).ee = d₁.ee := ee_sysGlobalVarInit_usr hq₁ rfl sts hagree
  have hconf : ∀ i, InIdentity i → (sysGlobalVarInit false sts d₁).conf i = d.conf i := by
    intro i hi
    rw [conf_sysGlobalVarInit_usr hq₁ rfl sts hagree.holds (mapped_identity hi), if_neg (not_cleared_identity hi),
      loaded_identity hi, word_of_mapped (mapped_identity hi)]
  change HasIdentity sid (sysGlobalVarInit false sts d₁) ↔ _
  generalize sysGlobalVarInit false sts d₁ = d₂ at hee hconf ⊢
  constructor
  · exact fun hid i hi => (hconf i hi).symm.trans (hid.1 i hi)
  · refine fun hall => ⟨fun i hi => (hconf i hi).trans (hall i hi), ?_⟩
    rw [hee]
    exact storesIdentity_saved hall fun b hb => bank_onUsers hb

end paths

/-- What a start with a given state leads to. -/
theorem hasIdentity_start {sid : Nat → Word} {d : Dev} (hq : d.ee.bus = []) {startInit : Bool} {state : InitState}
    (hs : initState startInit d.ee.flag = state) (ram sts : Nat → Word) :
    HasIdentity sid (restart startInit ram sts d) ↔
      HasIdentity sid (loadConf state { d with conf := ram, sts := sts }) := by
  unfold restart
  rw [sysGlobalVarInit_quiet (by exact hq), hasIdentity_clearRows, hs]

theorem hasIdentity_exec_fact {sid : Nat → Word} {d : Dev} (hq : d.ee.bus = []) (h : StoresIdentity sid d.ee)
    (ram sts : Nat → Word) : HasIdentity sid (ResetPath.fact.exec ram sts d) ↔ FactoryIdentity sid d.ee := by
  have hfact : initState false eeFlagLoadFact = .fact := by decide
  rw [ResetPath.exec, setFlag_quiet hq, hasIdentity_start (by exact hq) hfact]
  exact hasIdentity_fact (by exact hq) (by exact h)

/-- The identity in the user banks is there after every way back, in the registers and in the banks, unless the way
leads through a factory bank that can be read and holds another one. -/
theorem identity_kept_iff {sid : Nat → Word} {d : Dev} (hq : d.ee.bus = []) (h : StoresIdentity sid d.ee)
    (ram sts : Nat → Word) (p : ResetPath) :
    HasIdentity sid (p.exec ram sts d) ↔ (p.ofFactory = true → FactoryIdentity sid d.ee) := by
  have hdebut : initState false 0xff = .debut := by decide
  have hdft : initState false 0x9b = .dft := by decide
  cases p with
  | debut =>
    rw [ResetPath.exec, setFlag_quiet hq, hasIdentity_start (by exact hq) hdebut]
    exact iff_of_true (hasIdentity_debut hq h) nofun
  | jumper =>
    have hjumper : initState true d.ee.flag = .debut := rfl
    rw [ResetPath.exec, hasIdentity_start hq hjumper]
    exact iff_of_true (hasIdentity_debut hq h) nofun
  | dft =>
    rw [ResetPath.exec, setFlag_quiet hq, hasIdentity_start (by exact hq) hdft]
    exact iff_of_true (hasIdentity_dft hq h) nofun
  | fact => exact (hasIdentity_exec_fact hq h ram sts).trans ⟨fun hf _ => hf, fun hf => hf rfl⟩
  | pram =>
    obtain ⟨ret, d₁, hload, hee, hiff⟩ := factory_identity hq h
    have hq₁ : d₁.ee.bus = [] := hee ▸ hq
    rw [ResetPath.exec, loadFactoryPram, hload, authenInit_quiet hq₁, hasIdentity_restart hq₁, hiff]
    exact ⟨fun hf _ => hf, fun hf => hf rfl⟩

/-- Registers saved as factory settings, and then the first word of the identity written. -/
def provisionedDev : Dev := regStep .fault (storedDev.save 1) ⟨335, 7, .cpad⟩

/-- The defaults with that identity. -/
def newIdentity : Nat → Word := Function.update freshDev.conf 335 7

theorem taken_identity (d : Dev) : Taken .fault d ⟨335, 7, .cpad⟩ := by
  have hrow : confReg 335 = some (ConfReg.reg 335 0 0xFFFF 0 2) := confReg_text (by decide) (by decide)
  exact ⟨_, regMapWrite_of_check (check_of_range hrow rfl (by decide) nofun) (isMapped_of_confReg hrow)⟩

theorem sound_provisionedDev : StoreSound newIdentity provisionedDev := by
  have hsound : StoreSound freshDev.conf (storedDev.save 1) := by
    rw [save_fact rfl]
    refine ⟨rfl, fun b hb i hi => ?_, by decide⟩
    exact congrFun (setBank_of_ne storedDev.ee _ hb) i
  exact sound_step hsound (by decide) (taken_identity _)

theorem stores_provisionedDev : StoresIdentity newIdentity provisionedDev.ee :=
  fun i hi b hb => sound_provisionedDev.agree b hb i hi.2

/-- The new identity is in the register, and not in the factory bank. -/
theorem conf_provisionedDev : provisionedDev.conf = newIdentity := by
  unfold provisionedDev
  rw [(regStep_of_taken (taken_identity _)).1, conf_written, load_mapped (by decide +kernel), save_fact rfl]
  rfl

theorem fact_provisionedDev : provisionedDev.ee.bank .fact = saved storedDev.word (storedDev.ee.bank .fact) := by
  have hkeeps : KeepsFactory (saved storedDev.word (storedDev.ee.bank .fact)) (storedDev.save 1) := by
    rw [save_fact rfl]
    exact ⟨rfl, setBank_bank storedDev.ee .fact _⟩
  have hevent : provisionedDev = confStep .fault (storedDev.save 1) (.write ⟨335, 7, .cpad⟩) := by
    rw [provisionedDev, confStep]
  rw [hevent]
  exact (keeps_confStep hkeeps _).fact

/-- The first start keeps the new identity, and so does the start with the factory flag, once the registers have been
saved as factory settings again. -/
theorem identity_kept_iff_provisioned : newIdentity 335 ≠ freshDev.conf 335 ∧
    HasIdentity newIdentity (ResetPath.debut.exec freshDev.conf freshDev.sts provisionedDev) ∧
    HasIdentity newIdentity (ResetPath.fact.exec freshDev.conf freshDev.sts (provisionedDev.save 1)) := by
  have hq := sound_provisionedDev.quiet
  have hfact := factoryIdentity_save (d := provisionedDev) hq fun i _ => congrFun conf_provisionedDev i
  exact ⟨by decide, (identity_kept_iff hq stores_provisionedDev freshDev.conf freshDev.sts .debut).mpr nofun,
    (identity_kept_iff (bus_save_fact hq) (storesIdentity_save hq stores_provisionedDev) freshDev.conf freshDev.sts
      .fact).mpr fun _ => hfact⟩

/-- Without that, the start with the factory flag forgets the new identity. -/
theorem identity_forgotten : Taken .fault (storedDev.save 1) ⟨335, 7, .cpad⟩ ∧
    StoresIdentity (Function.update freshDev.conf 335 7) provisionedDev.ee ∧
    ¬HasIdentity (Function.update freshDev.conf 335 7)
      (ResetPath.fact.exec freshDev.conf freshDev.sts provisionedDev) := by
  refine ⟨taken_identity _, stores_provisionedDev, fun hid => ?_⟩
  have hsum : xorSum (provisionedDev.ee.bank .fact) (confRegMapNum + 1) = 0#16 := by
    rw [fact_provisionedDev]
    exact xorSum_saved ..
  have hold := (hasIdentity_exec_fact sound_provisionedDev.quiet stores_provisionedDev freshDev.conf freshDev.sts).mp hid
    hsum 335 ⟨by decide, by decide⟩
  rw [fact_provisionedDev, saved_data _ _ (by decide)] at hold
  exact absurd hold (by decide)

end WM.Proof
