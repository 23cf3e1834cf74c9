import WaterMaker.Proof.Store.Durable
import WaterMaker.Proof.Store.Save

/-!
# Factory settings

`save_conf_reg(1)` puts the registers into the factory bank, which nothing else writes (`keeps_run`). A start with the
factory flag loads them from there if the 436 words of the bank cancel out (`initLoadFactoryConf_valid`), and saves
them to the user banks; otherwise it loads the defaults (`initLoadFactoryConf_spoiled`, `conf_loadDefault`).
`factory_round_trip` puts this together.
-/

namespace WM.Proof

open WM WM.Impl WM.Spec

variable {null : NullStore}

/-! ## What keeps the factory bank -/

/-- The bus is quiet, and the factory bank holds `f`. -/
structure KeepsFactory (f : Nat → Word) (d : Dev) : Prop where
  quiet : d.ee.bus = []
  fact : d.ee.bank .fact = f

theorem keeps_tripple {e : Eeprom} (hq : e.bus = []) (i : Nat) (wr rd : Word) :
    (eepromTrippleWrite i wr rd e).2.bus = [] ∧ (eepromTrippleWrite i wr rd e).2.bank .fact = e.bank .fact := by
  cases h : majority e confRegMapNum with
  | none =>
    rw [eepromTrippleWrite_none hq _ _ _ h]
    exact ⟨hq, rfl⟩
  | some c =>
    rw [eepromTrippleWrite_eq hq _ _ _ h]
    exact ⟨hq, rfl⟩

theorem keeps_confStep {f : Nat → Word} {d : Dev} (h : KeepsFactory f d) (x : ConfEvent) :
    KeepsFactory f (confStep null d x) := by
  cases x with
  | write x =>
    change KeepsFactory f (regStep null d x)
    rcases regStep_cases d x with hd | ⟨hd, -⟩
    · rw [hd]
      exact h
    · have hkept := keeps_tripple h.quiet x.reg x.value (d.word x.reg)
      rw [hd]
      refine ⟨?_, ?_⟩ <;> rw [ee_written] <;> split_ifs
      · exact h.quiet
      · exact hkept.1
      · exact h.fact
      · exact hkept.2.trans h.fact
  | ram conf => exact ⟨h.quiet, h.fact⟩
  | flag sel =>
    change KeepsFactory f { d with ee := setLoadFlag sel d.ee }
    unfold setLoadFlag
    rw [flagWrite_quiet h.quiet]
    exact ⟨h.quiet, h.fact⟩

theorem keeps_run {f : Nat → Word} {d : Dev} (h : KeepsFactory f d) (xs : List ConfEvent) :
    KeepsFactory f (run (confStep null) d xs) :=
  run_keeps (I := KeepsFactory f) (fun _ x hd => keeps_confStep hd x) h xs

/-! ## The loads -/

theorem foldl_load (buf : Nat → Word) (k : Nat) (d : Dev) :
    (List.range k).foldl (fun d i => d.load i (buf i)) d = { d with conf := overlaid buf k d.conf } := by
  induction k with
  | zero => rw [overlaid_zero]; rfl
  | succ k ih =>
    rw [List.range_succ, List.foldl_append, ih, List.foldl_cons, List.foldl_nil, dev_load_eq,
      overlaid_succ buf d.conf _ rfl]

theorem conf_confRegReadEe {i j : Nat} (h : j ≠ i) (d : Dev) : (confRegReadEe i d).2.conf j = d.conf j := by
  have hload : ∀ (v : Word) (d : Dev), (d.load i v).conf j = d.conf j := by
    intro v d
    rw [conf_load]
    split
    · exact Function.update_of_ne h ..
    · rfl
  unfold confRegReadEe
  cases confReg i with
  | none => rfl
  | some r =>
    dsimp only
    split <;> rw [hload]

theorem conf_defaultStep {i j : Nat} (h : i ≠ j) (d : Dev) : (defaultStep d j).conf i = d.conf i := by
  unfold defaultStep
  split
  · cases confReg j with
    | none => rfl
    | some r =>
      dsimp only
      split
      · rw [conf_load]
        split
        · exact Function.update_of_ne h ..
        · rfl
      · rfl
  · exact conf_confRegReadEe h d

section default

variable {i : Nat} {r : ConfReg} (hr : confReg i = some r) (hm : r.mapped = true) (hi : i < confRegSidStart)
include hr hm hi

theorem conf_defaultStep_at (d : Dev) : (defaultStep d i).conf i = BitVec.ofNat 16 r.dft := by
  unfold defaultStep
  rw [if_pos hi, hr]
  dsimp only
  rw [if_pos hm, conf_load, if_pos ((isMapped_of_confReg hr).trans hm), Function.update_self]

/-- The registers before the identity get their defaults. -/
theorem conf_loadDefault (d : Dev) : (loadDefault d).conf i = BitVec.ofNat 16 r.dft := by
  rw [loadDefault]
  exact foldl_range_at (g := Dev.conf) (P := (· = BitVec.ofNat 16 r.dft)) (fun d i j hj => conf_defaultStep hj d)
    (conf_defaultStep_at hr hm hi) (lt_of_confReg hr) d

end default

section fact

variable {d : Dev} (hq : d.ee.bus = [])
include hq

theorem initLoadFactoryConf_valid (hsum : xorSum (d.ee.bank .fact) (confRegMapNum + 1) = 0#16) :
    initLoadFactoryConf d = (1, { d with conf := overlaid (d.ee.bank .fact) confRegMapNum d.conf }) := by
  have hcs : checksumU16 ((List.range (confRegMapNum + 1)).map fun k => d.ee.bank .fact k) = 0 :=
    (checksumU16_map ..).trans hsum
  unfold initLoadFactoryConf
  rw [read_quiet hq]
  simp only [Nat.zero_add]
  rw [if_neg (not_not.mpr hcs), foldl_load]

theorem initLoadFactoryConf_spoiled (hsum : xorSum (d.ee.bank .fact) (confRegMapNum + 1) ≠ 0#16) :
    initLoadFactoryConf d = (0, loadDefault d) := by
  unfold initLoadFactoryConf
  rw [read_quiet hq]
  simp only [Nat.zero_add]
  rw [checksumU16_map]
  exact if_pos hsum

theorem save_users : d.save 0 = { d with ee := { onUsers (saved d.word) d.ee with flag := eeFlagLoadUsr } } := by
  unfold Dev.save
  rw [show d.image = imageOf d.word from rfl, saveConfReg_users hq]

theorem save_fact : d.save 1 =
    { d with ee := { d.ee.setBank .fact (saved d.word (d.ee.bank .fact)) with flag := eeFlagLoadFact } } := by
  unfold Dev.save
  rw [show d.image = imageOf d.word from rfl, saveConfReg_fact hq]

theorem setFlag_quiet (sel : Nat) : d.setFlag sel = { d with ee := { d.ee with flag := match sel with
    | 0 => eeFlagLoadUsr | 1 => eeFlagLoadFact | 2 => 0xff | _ => 0x9b } } :=
  congrArg (fun x : Nat × Eeprom => { d with ee := x.2 }) (flagWrite_quiet hq _)

/-- A start with the factory flag, and a factory bank that is right. -/
theorem sysGlobalVarInit_fact (hflag : d.ee.flag = eeFlagLoadFact) (sts : Nat → Word)
    (hsum : xorSum (d.ee.bank .fact) (confRegMapNum + 1) = 0#16) :
    let d₁ := { d with conf := overlaid (d.ee.bank .fact) confRegMapNum d.conf }
    sysGlobalVarInit false sts d = Dev.clearRows
      { d₁ with sts := sts, ee := { onUsers (saved d₁.word) d.ee with flag := eeFlagLoadUsr } } := by
  intro d₁
  have hload := initLoadFactoryConf_valid (d := { d with sts := sts }) hq hsum
  rw [sysGlobalVarInit_quiet hq, hflag]
  change Dev.clearRows (loadConf .fact { d with sts := sts }) = _
  unfold loadConf
  rw [hload]
  rw [if_pos rfl, save_users (by exact hq), setFlag_quiet (by exact hq)]
  rfl

theorem sysGlobalVarInit_spoiled (hflag : d.ee.flag = eeFlagLoadFact) (sts : Nat → Word)
    (hsum : xorSum (d.ee.bank .fact) (confRegMapNum + 1) ≠ 0#16) :
    sysGlobalVarInit false sts d = Dev.clearRows (loadDefault { d with sts := sts }) := by
  have hload := initLoadFactoryConf_spoiled (d := { d with sts := sts }) hq hsum
  rw [sysGlobalVarInit_quiet hq, hflag]
  change Dev.clearRows (loadConf .fact { d with sts := sts }) = _
  unfold loadConf
  rw [hload]
  dsimp only
  rw [if_neg (by decide)]

end fact

/-! ## The round trip -/

section restore

variable {d d₁ : Dev} (h : KeepsFactory (saved d.word (d.ee.bank .fact)) d₁) (hflag : d₁.ee.flag = eeFlagLoadFact)
  (sts : Nat → Word)
include h

theorem xorSum_kept : xorSum (d₁.ee.bank .fact) (confRegMapNum + 1) = 0#16 := by
  rw [h.fact]
  exact xorSum_saved ..

theorem overlaid_kept {i : Nat} (hm : isMapped i = true) (conf : Nat → Word) :
    overlaid (d₁.ee.bank .fact) confRegMapNum conf i = d.conf i := by
  obtain ⟨r, hr, -⟩ := isMapped_iff.mp hm
  rw [overlaid, if_pos ⟨lt_of_confReg hr, hm⟩, h.fact, saved_data _ _ (lt_of_confReg hr), word_of_mapped hm]

include hflag

theorem conf_restored {i : Nat} (hm : isMapped i = true) :
    (sysGlobalVarInit false sts d₁).conf i = if i ∈ clearedRows then 0 else d.conf i := by
  rw [sysGlobalVarInit_fact h.quiet hflag sts (xorSum_kept h), conf_clearRows, ← overlaid_kept h hm d₁.conf]

/-- What the start leaves in the EEPROM is for the next one, which loads it from the user banks. -/
theorem conf_restored_again {d₂ : Dev} (hee : d₂.ee = (sysGlobalVarInit false sts d₁).ee) (sts₂ : Nat → Word) :
    (getEeStatus false d₂.ee).1 = .usr ∧ ∀ i, isMapped i = true → i ∈ clearedRows ∨ Allowed i (d.conf i) →
      (sysGlobalVarInit false sts₂ d₂).conf i = (sysGlobalVarInit false sts d₁).conf i := by
  have hboot := sysGlobalVarInit_fact h.quiet hflag sts (xorSum_kept h)
  have hee' := hee
  rw [hboot] at hee'
  have hq₂ : d₂.ee.bus = [] := (congrArg Eeprom.bus hee').trans h.quiet
  have hflag₂ : d₂.ee.flag = eeFlagLoadUsr := congrArg Eeprom.flag hee'
  have hstate : (getEeStatus false d₂.ee).1 = .usr := by
    unfold getEeStatus
    rw [transfer_quiet hq₂]
    dsimp only
    rw [hflag₂]
    rfl
  have hagree : Agree ({ d₁ with conf := overlaid (d₁.ee.bank .fact) confRegMapNum d₁.conf } : Dev).word d₂.ee := by
    intro b hb i hi
    rw [hee']
    change (onUsers _ d₁.ee).bank b i = _
    rw [bank_onUsers hb, saved_data _ _ hi]
  refine ⟨hstate, fun i hm hok => ?_⟩
  rw [conf_restored h hflag sts hm, conf_sysGlobalVarInit_usr hq₂ hflag₂ sts₂ hagree.holds hm, word_of_mapped hm]
  dsimp only
  rw [overlaid_kept h hm]
  by_cases hc : i ∈ clearedRows
  · rw [if_pos hc, if_pos hc]
  · rw [if_neg hc, if_neg hc, loaded_of_allowed (hok.resolve_left hc)]

/-- A word of the factory bank that is not what was saved shows in the checksum. -/
theorem conf_not_restored {k : Nat} (hk : k ≤ confRegMapNum) {v : Word} (hv : v ≠ d₁.ee.bank .fact k) {i : Nat}
    {r : ConfReg} (hr : confReg i = some r) (hm : r.mapped = true) (hi : i < confRegSidStart) :
    (sysGlobalVarInit false sts { d₁ with
      ee := d₁.ee.setBank .fact (Function.update (d₁.ee.bank .fact) k v) }).conf i =
        if i ∈ clearedRows then 0 else BitVec.ofNat 16 r.dft := by
  have hspoiled : xorSum (Function.update (d₁.ee.bank .fact) k v) (confRegMapNum + 1) ≠ 0#16 :=
    xorSum_update_ne (xorSum_kept h) (Nat.lt_succ_of_le hk) hv
  have hboot := sysGlobalVarInit_spoiled (d := { d₁ with
    ee := d₁.ee.setBank .fact (Function.update (d₁.ee.bank .fact) k v) }) h.quiet hflag sts
    (by rw [setBank_bank]; exact hspoiled)
  rw [hboot, conf_clearRows, conf_loadDefault hr hm hi]

end restore

/-- The registers saved as factory settings come back with the next start that asks for them, whatever was written in
between, and again with the start after it; and if a word of the factory bank has changed, that start loads the
defaults. -/
theorem factory_round_trip {d : Dev} (hq : d.ee.bus = []) {xs : List ConfEvent} {d₁ : Dev}
    (hd : d₁ = run (confStep null) (d.save 1) xs) (hflag : d₁.ee.flag = eeFlagLoadFact) (sts : Nat → Word) :
    (∀ i, isMapped i = true →
      (sysGlobalVarInit false sts d₁).conf i = if i ∈ clearedRows then 0 else d.conf i) ∧
    (∀ d₂ sts₂, d₂.ee = (sysGlobalVarInit false sts d₁).ee → (getEeStatus false d₂.ee).1 = .usr ∧
      ∀ i, isMapped i = true → i ∈ clearedRows ∨ Allowed i (d.conf i) →
        (sysGlobalVarInit false sts₂ d₂).conf i = (sysGlobalVarInit false sts d₁).conf i) ∧
    ∀ k ≤ confRegMapNum, ∀ v, v ≠ d₁.ee.bank .fact k → ∀ i r, confReg i = some r → r.mapped = true →
      i < confRegSidStart → (sysGlobalVarInit false sts { d₁ with
        ee := d₁.ee.setBank .fact (Function.update (d₁.ee.bank .fact) k v) }).conf i =
          if i ∈ clearedRows then 0 else BitVec.ofNat 16 r.dft := by
  have hkeeps : KeepsFactory (saved d.word (d.ee.bank .fact)) d₁ := by
    rw [hd]
    refine keeps_run ?_ xs
    rw [save_fact hq]
    exact ⟨hq, setBank_bank d.ee .fact _⟩
  exact ⟨fun i hm => conf_restored hkeeps hflag sts hm,
    fun d₂ sts₂ hee => conf_restored_again hkeeps hflag sts hee sts₂,
    fun k hk v hv i r hr hm hi => conf_not_restored hkeeps hflag sts hk hv hr hm hi⟩

/-- After the save, the panel switches the power off, and the registers are lost. -/
def laterEvents : List ConfEvent := [.write ⟨36, 0, .cpad⟩, .ram fun _ => 0, .flag 1]

theorem flag_laterEvents {d : Dev} (hq : d.ee.bus = []) :
    (run (confStep null) d laterEvents).ee.flag = eeFlagLoadFact := by
  have hkeeps : KeepsFactory (d.ee.bank .fact) (run (confStep null) d [.write ⟨36, 0, .cpad⟩, .ram fun _ => 0]) :=
    keeps_run ⟨hq, rfl⟩ _
  have hrun : run (confStep null) d laterEvents =
      (run (confStep null) d [.write ⟨36, 0, .cpad⟩, .ram fun _ => 0]).setFlag 1 := rfl
  rw [hrun, setFlag_quiet hkeeps.quiet]
  rfl

theorem factory_round_trip_power :
    (sysGlobalVarInit false freshDev.sts (run (confStep .fault) (storedDev.save 1) laterEvents)).conf 36 = 1 := by
  have hq : (storedDev.save 1).ee.bus = [] := by
    rw [save_fact rfl]
    rfl
  have hflag : (run (confStep .fault) (storedDev.save 1) laterEvents).ee.flag = eeFlagLoadFact := flag_laterEvents hq
  have hfirst := (factory_round_trip rfl rfl hflag freshDev.sts).1 36 (by decide)
  rw [hfirst]
  decide

end WM.Proof
