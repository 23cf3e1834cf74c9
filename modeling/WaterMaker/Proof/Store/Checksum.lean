import WaterMaker.Proof.Store.Durable
import WaterMaker.Proof.Store.Save

/-!
# The checksums of the banks

`eeprom_tripple_write` takes the old word out of the checksum and puts the new one in. Both come from elsewhere: the
old word is what the register held, and the checksum is read by a vote that leaves the caller's variable alone where
all banks hold 0. `consistent_tripple_iff`: the banks stay consistent if the register held what they hold and the
checksum is not 0. `sums_kept_iff` says what this comes to for each way of writing.
-/

namespace WM.Proof

open WM WM.Impl WM.Spec

/-- The checksum as the vote delivers it. -/
theorem seen_sum {e : Eeprom} (h : Consistent e) (stack : Word) :
    seen e confRegMapNum (e.bank .ee1 confRegMapNum) stack =
      if e.bank .ee1 confRegMapNum = 0 then stack else e.bank .ee1 confRegMapNum := by
  unfold seen
  rw [h.same .ee2 nofun _ (Nat.le_refl _), h.same .ee3 nofun _ (Nat.le_refl _)]
  simp only [and_self]

/-- Banks that agree on their words are consistent after a word and a checksum were written to them exactly if that
is the checksum of the words. -/
theorem consistent_stored_iff {w : Nat → Word} {e : Eeprom} (h : Agree w e) {i : Nat} (hi : i < confRegMapNum)
    (v cs : Word) : Consistent (onUsers (stored i v cs) e) ↔ xorSum w confRegMapNum ^^^ w i ^^^ v = cs := by
  have hdata : ∀ b, b ≠ .fact → ∀ k < confRegMapNum, stored i v cs (e.bank b) k = Function.update w i v k := by
    intro b hb k hk
    rw [stored_data hk]
    by_cases hki : k = i
    · rw [hki, Function.update_self, Function.update_self]
    · rw [Function.update_of_ne hki, Function.update_of_ne hki, h b hb k hk]
  have hsum : xorSum ((onUsers (stored i v cs) e).bank .ee1) (confRegMapNum + 1) =
      xorSum w confRegMapNum ^^^ w i ^^^ v ^^^ cs := by
    rw [bank_onUsers (b := .ee1) nofun, xorSum_succ, stored_sum, xorSum_congr (hdata .ee1 nofun), xorSum_update hi]
  constructor
  · intro hc
    exact xor_eq_zero_iff.mp (hsum.symm.trans hc.sum)
  · intro hcs
    refine ⟨fun b hb k hk => ?_, hsum.trans (xor_eq_zero_iff.mpr hcs)⟩
    rw [bank_onUsers hb, bank_onUsers (b := .ee1) nofun]
    rcases Nat.lt_or_eq_of_le hk with hlt | rfl
    · rw [hdata b hb k hlt, hdata .ee1 nofun k hlt]
    · rw [stored_sum, stored_sum]

/-- A checksum that may not have been read comes out right, whatever the stack held. -/
theorem carried_iff {p : Prop} [Decidable p] {c old rd v : Word} :
    (∀ stack : Word, c ^^^ old ^^^ v = (if p then stack else c) ^^^ rd ^^^ v) ↔ ¬p ∧ old = rd := by
  simp only [BitVec.xor_left_inj]
  constructor
  · intro h
    have h0 := h 0
    have h1 := h 1
    by_cases hp : p
    · rw [if_pos hp] at h0 h1
      exact absurd ((BitVec.xor_left_inj _).mp (h0.symm.trans h1)) (by decide)
    · rw [if_neg hp] at h0
      exact ⟨hp, (BitVec.xor_right_inj _).mp h0⟩
  · rintro ⟨hp, rfl⟩ stack
    rw [if_neg hp]

theorem consistent_tripple_iff {e : Eeprom} (h : Consistent e) (hq : e.bus = []) {i : Nat} (hi : i < confRegMapNum)
    (v rd : Word) : (∀ stack, Consistent (eepromTrippleWrite i v rd { e with stack := stack }).2) ↔ Known e i rd := by
  have hcons : ∀ stack, Consistent (eepromTrippleWrite i v rd { e with stack := stack }).2 ↔
      e.bank .ee1 confRegMapNum ^^^ e.bank .ee1 i ^^^ v =
        (if e.bank .ee1 confRegMapNum = 0 then stack else e.bank .ee1 confRegMapNum) ^^^ rd ^^^ v := by
    intro stack
    have h' : Consistent { e with stack := stack } := ⟨h.same, h.sum⟩
    rw [eepromTrippleWrite_eq (by exact hq) i v rd h'.majority_sum, consistent_stored_iff h'.agree hi,
      h'.checksum, seen_sum h']
  simp only [hcons]
  exact carried_iff

/-- What a write that is taken asks for: the banks hold what the register held. -/
theorem keeps_written_iff {d : Dev} (h : Consistent d.ee) (hq : d.ee.bus = []) {i : Nat} (hi : i < confRegMapNum)
    {v : Word} {user : UserId} {f : Word → Except Halt Dev}
    (hf : ∀ stack, f stack = .ok (written i v user (withStack stack d))) :
    (∀ stack, ∃ d', f stack = .ok d' ∧ Consistent d'.ee) ↔ Volatile i ∨ Known d.ee i (d.word i) := by
  have hee : ∀ stack, (∃ d', f stack = .ok d' ∧ Consistent d'.ee) ↔
      Consistent (written i v user (withStack stack d)).ee := by
    intro stack
    rw [hf]
    constructor
    · rintro ⟨d', hd, hc⟩
      cases hd
      exact hc
    · exact fun hc => ⟨_, rfl, hc⟩
  simp only [hee, ee_written]
  by_cases hv : Volatile i
  · refine ⟨fun _ => .inl hv, fun _ stack => ?_⟩
    rw [if_pos hv]
    exact ⟨h.same, h.sum⟩
  · simp only [if_neg hv]
    refine (consistent_tripple_iff h hq hi v (d.word i)).trans ⟨.inr, fun hk => hk.resolve_left hv⟩

/-! ## A single write -/

theorem keepsSums_single {d : Dev} (h : Consistent d.ee) (hq : d.ee.bus = []) {i : Nat} {v : Word} {user : UserId}
    (hcheck : regMapCheck i [v] user d = .noErr) :
    ConfWrite.KeepsSums .fault d (.single i v user) ↔ isMapped i = true ∧ (Volatile i ∨ Known d.ee i (d.conf i)) := by
  obtain ⟨r, hr, -⟩ := exists_row_of_check hcheck
  unfold ConfWrite.KeepsSums
  simp only [ConfWrite.exec]
  by_cases hm : isMapped i = true
  · have hwrite : ∀ stack, (regMapWrite .fault i [v] user (withStack stack d)).map Prod.snd =
        .ok (written i v user (withStack stack d)) := fun stack =>
      congrArg (Except.map Prod.snd) (regMapWrite_of_check (d := withStack stack d) hcheck hm)
    rw [keeps_written_iff h hq (lt_of_confReg hr) hwrite, word_of_mapped hm]
    exact ⟨fun hk => ⟨hm, hk⟩, fun hk => hk.2⟩
  · refine ⟨fun hall => ?_, fun hk => absurd hk.1 hm⟩
    obtain ⟨d', hd, -⟩ := hall 0
    cases hw : regMapWrite .fault i [v] user (withStack 0 d) with
    | error e =>
      rw [hw] at hd
      cases hd
    | ok x =>
      unfold regMapWrite at hw
      rw [show regMapCheck i [v] user (withStack 0 d) = .noErr from hcheck] at hw
      dsimp only at hw
      rw [regMapStore_written, if_neg fun h => h.elim hm nofun] at hw
      cases hw

/-! ## A setting that the machine changes -/

theorem regWrites_pwpFill (wl : WaterLevel) (s : Sys) :
    (pwpFill wl s).regWrites = if wl.dM = true then (50, 0) :: s.regWrites else s.regWrites := by
  unfold pwpFill
  split_ifs <;> rfl

theorem regWrites_pwpReqExe (s : Sys) :
    (Impl.pwpReqExe s).regWrites = (changes s .pwpReqExe).toList ++ s.regWrites := by
  unfold Impl.pwpReqExe changes
  by_cases hs : s.stor.status = true
  · rw [if_pos hs, if_neg fun h => absurd (hs.symm.trans h.1) Bool.noConfusion]
    rfl
  rw [if_neg hs]
  by_cases ha : s.cfg.exitWater = .air
  · rw [if_neg (not_not.mpr ha), ha, if_neg (by simp)]
    unfold pwpSwitch
    split_ifs <;> rfl
  · rw [if_pos ha]
    unfold pwpExternal
    dsimp only
    have hop : (pwpOp false s).cfg = s.cfg := rfl
    rw [hop]
    by_cases hf : (s.cfg.exitWater = .exit ∧ s.cfg.disinfectionMode ≠ 0) ∨ s.cfg.exitWater = .fill
    · rw [if_pos hf, regWrites_pwpFill]
      by_cases hw : (getWaterLevel s).dM = true
      · rw [if_pos hw, if_pos ⟨eq_false_of_ne_true hs, hf, hw⟩]
        rfl
      · rw [if_neg hw, if_neg fun h => hw h.2.2]
        rfl
    · rw [if_neg hf, if_neg fun h => hf h.2.1]
      rfl

theorem regWrites_storageExe (s : Sys) :
    (Impl.storageExe s).regWrites = (changes s .storageExe).toList ++ s.regWrites := by
  unfold Impl.storageExe storageFsm changes
  cases hf : s.stor.fsm with
  | stop | other =>
    simp only [setStor_stor, hf]
    rfl
  | _ =>
    simp only [setStor_stor, hf, reduceCtorEq, if_false]
    split_ifs <;> rfl

theorem regWrites_exec (c : SelfChange) (s : Sys) : (c.exec s).regWrites = (changes s c).toList ++ s.regWrites := by
  cases c with
  | pwpReqExe => exact regWrites_pwpReqExe s
  | storageExe => exact regWrites_storageExe s
  | sysGetPwrSignal =>
    unfold SelfChange.exec changes Impl.sysGetPwrSignal setPowerMode
    dsimp only
    split_ifs <;> rfl

/-- The settings that the machine changes: rows of the table without a check, with values within their ranges. -/
theorem row_of_changes {c : SelfChange} {s : Sys} {x : Nat × Nat} (h : changes s c = some x) :
    ∃ r, confReg x.1 = some r ∧ r.mapped = true ∧ r.chk = none ∧
      (r.min ≤ (BitVec.ofNat 16 x.2).toNat ∧ (BitVec.ofNat 16 x.2).toNat ≤ r.max) ∧ ¬Volatile x.1 := by
  have hx : x ∈ [(50, 0), (120, 0), (36, 1), (36, 0)] := by
    cases c <;> simp only [changes] at h <;> split_ifs at h <;> cases h <;> decide
  revert x
  have hrows : ∀ x ∈ [(50, 0), (120, 0), (36, 1), (36, 0)], ∃ r ∈ confReg x.1, r.mapped = true ∧ r.chk = none ∧
      (r.min ≤ (BitVec.ofNat 16 x.2).toNat ∧ (BitVec.ofNat 16 x.2).toNat ≤ r.max) ∧ ¬Volatile x.1 := by
    decide
  exact fun {x} _ hx => hrows x hx

theorem persist_eq {c : SelfChange} (s : Sys) (d : Dev) : c.persist .fault s d =
    match changes { s with cfg := d.config } c with
    | none => .ok d
    | some x => persistStep .fault d x := by
  have hchanges : changes { s with cfg := d.config, regWrites := [] } c = changes { s with cfg := d.config } c := by
    cases c <;> rfl
  unfold SelfChange.persist
  rw [regWrites_exec, hchanges]
  cases changes { s with cfg := d.config } c with
  | none => rfl
  | some x => exact bind_pure (persistStep .fault d x)

theorem keepsSums_self {d : Dev} (h : Consistent d.ee) (hq : d.ee.bus = []) (c : SelfChange) (s : Sys) :
    ConfWrite.KeepsSums .fault d (.self c s) ↔
      ∀ x ∈ changes { s with cfg := d.config } c, Known d.ee x.1 (BitVec.ofNat 16 x.2) := by
  unfold ConfWrite.KeepsSums
  simp only [ConfWrite.exec, persist_eq]
  have hconf : ∀ stack, (withStack stack d).config = d.config := fun _ => rfl
  simp only [hconf]
  cases hc : changes { s with cfg := d.config } c with
  | none => exact ⟨nofun, fun _ stack => ⟨_, rfl, h.same, h.sum⟩⟩
  | some x =>
    obtain ⟨r, hr, hm, hchk, hv, hvol⟩ := row_of_changes hc
    simp only [Option.mem_some_iff, forall_eq']
    have hstep : ∀ stack, persistStep .fault (withStack stack d) x = .ok (written x.1 (BitVec.ofNat 16 x.2) .default
        (withStack stack { d with conf := Function.update d.conf x.1 (BitVec.ofNat 16 x.2) })) := fun stack =>
      change_then_write hr hm hchk hv (withStack stack d)
    have hi : isMapped x.1 = true := (isMapped_of_confReg hr).trans hm
    rw [keeps_written_iff (by exact h) (by exact hq) (lt_of_confReg hr) hstep, word_of_mapped hi]
    dsimp only
    rw [Function.update_self]
    exact ⟨fun hk => hk.resolve_left hvol, .inr⟩

/-! ## The network's password -/

theorem mapped_password {n : Nat} (h : n ≤ 100) : Mapped (configRegMapOffset + eeWifiPassword) n := by
  refine ⟨Nat.le_add_right .., fun j hj => ?_⟩
  rw [Nat.add_sub_cancel_left]
  have hlt : 325 + j < 435 := by omega
  exact isMapped_of_confReg (confReg_text (Nat.le_trans (by decide : 313 ≤ 325) (Nat.le_add_right 325 j)) hlt)

/-- A block from the password on: the whole table is saved, and then the flag is set and written. -/
theorem blockWrite_wifi (buf : Nat → Byte) {n : Nat} (h : n ≤ 100) {d : Dev} (hq : d.ee.bus = []) :
    let d₁ := { d with conf := blit d.conf eeWifiPassword (sent buf n) }
    blockWrite .fault buf (configRegMapOffset + eeWifiPassword) n d =
      .ok (written eeWifiSet 0x5AA5 .default { d₁ with
        conf := Function.update d₁.conf eeWifiSet 0x5AA5
        ee := { onUsers (saved d₁.word) d.ee with flag := eeFlagLoadUsr } }) := by
  intro d₁
  have hm := mapped_password h
  have hsave : (saveConfReg 0 d₁.image d.ee).2 = { onUsers (saved d₁.word) d.ee with flag := eeFlagLoadUsr } := by
    rw [show d₁.image = imageOf d₁.word from rfl, saveConfReg_users hq]
  rw [blockWrite_eq buf d hm, Nat.add_sub_cancel_left]
  rw [if_pos rfl, hsave, change_then_write confReg_eeWifiSet rfl rfl (by decide)]

theorem multipleWrite_wifi (buf : Nat → Byte) (n : Nat) (d : Dev) :
    (multipleWrite .fault buf (configRegMapOffset + eeWifiPassword) n d).map Prod.snd =
      if 0 < n ∧ n ≤ 100 then blockWrite .fault buf (configRegMapOffset + eeWifiPassword) n d else .ok d := by
  unfold multipleWrite
  split
  · rename_i hn
    have hend : configRegMapOffset + eeWifiPassword + n ≤ cpadRegHoldingWriteNregs :=
      Nat.le_trans (Nat.add_le_add_left hn.2 _) (by decide)
    rw [if_pos hend, if_pos (Nat.le_trans (by decide) (Nat.le_add_right ..))]
    cases blockWrite .fault buf (configRegMapOffset + eeWifiPassword) n d <;> rfl
  · rfl

theorem keepsSums_wifi {d : Dev} (h : Consistent d.ee) (hq : d.ee.bus = []) (buf : Nat → Byte) (n : Nat) :
    ConfWrite.KeepsSums .fault d (.wifi buf n) ↔ SumSafe d (.wifi buf n) := by
  unfold ConfWrite.KeepsSums
  simp only [ConfWrite.exec, multipleWrite_wifi, SumSafe]
  by_cases hn : 0 < n ∧ n ≤ 100
  · simp only [hn.1, hn.2, and_self, if_true, forall_const]
    let d₁ : Dev := { d with conf := blit d.conf eeWifiPassword (sent buf n) }
    let d₂ : Dev := { d₁ with
      conf := Function.update d₁.conf eeWifiSet 0x5AA5
      ee := { onUsers (saved d₁.word) d.ee with flag := eeFlagLoadUsr } }
    have hwrite : ∀ stack, blockWrite .fault buf (configRegMapOffset + eeWifiPassword) n (withStack stack d) =
        .ok (written eeWifiSet 0x5AA5 .default (withStack stack d₂)) := fun stack =>
      blockWrite_wifi buf hn.2 (d := withStack stack d) hq
    have hm : isMapped eeWifiSet = true := isMapped_of_confReg confReg_eeWifiSet
    have hold : d₁.word eeWifiSet = d.conf eeWifiSet := (word_of_mapped hm d₁).trans
      (blit_of_not d.conf eeWifiPassword (sent buf n) (k := eeWifiSet) fun hin => absurd hin.1 (by decide))
    have hnew : d₂.word eeWifiSet = 0x5AA5 :=
      (word_of_mapped hm d₂).trans (Function.update_self eeWifiSet (0x5AA5 : Word) d₁.conf)
    have hsum : d₂.ee.bank .ee1 confRegMapNum = xorSum d₁.word confRegMapNum :=
      saved_checksum d₁.word (d.ee.bank .ee1)
    have hword : d₂.ee.bank .ee1 eeWifiSet = d.conf eeWifiSet :=
      (saved_data d₁.word (d.ee.bank .ee1) (by decide)).trans hold
    have hi : eeWifiSet < confRegMapNum := by decide
    rw [keeps_written_iff (d := d₂) (consistent_saved d₁.word d.ee _) hq hi hwrite, hnew]
    unfold Known
    rw [hsum, hword]
    constructor
    · intro hk
      have hk := hk.resolve_left (by decide)
      exact ⟨hk.2, hk.1⟩
    · exact fun hk => .inr ⟨hk.2, hk.1⟩
  · simp only [if_neg hn]
    exact ⟨fun _ h1 h2 => absurd ⟨h1, h2⟩ hn, fun _ stack => ⟨_, rfl, h.same, h.sum⟩⟩

/-- From consistent banks, a write leaves consistent banks exactly if what the register held before it is what they
hold, and their checksum is not 0. -/
theorem sums_kept_iff {d : Dev} (h : Consistent d.ee) (hq : d.ee.bus = []) {x : ConfWrite} (hx : x.Accepted d) :
    x.KeepsSums .fault d ↔ SumSafe d x := by
  cases x with
  | single i v user => exact keepsSums_single h hq hx
  | self c s => exact keepsSums_self h hq c s
  | wifi buf n => exact keepsSums_wifi h hq buf n

/-- The defaults in the registers, and the configuration `w` in the banks. -/
def savedDev (w : Nat → Word) : Dev := { freshDev with ee := ⟨fun _ => saved w fun _ => 0, eeFlagLoadUsr, [], 0⟩ }

theorem consistent_savedDev (w : Nat → Word) : Consistent (savedDev w).ee := ⟨fun _ _ _ _ => rfl, xorSum_saved w _⟩

theorem agree_savedDev (w : Nat → Word) : Agree w (savedDev w).ee := fun _ _ _ hi => saved_data w (fun _ => 0) hi

theorem sums_kept_iff_survAddr : Consistent (savedDev plainConf).ee ∧
    ConfWrite.KeepsSums .fault (savedDev plainConf) (.single 3 2 .cpad) := by
  have hcheck := check_survAddr (savedDev plainConf) (.inr rfl)
  have hsafe : SumSafe (savedDev plainConf) (.single 3 2 .cpad) := ⟨mapped_survAddr, .inr (by decide +kernel)⟩
  have hcons := consistent_savedDev plainConf
  exact ⟨hcons, (sums_kept_iff hcons rfl (x := .single 3 2 .cpad) hcheck).mpr hsafe⟩

/-- External water was asked for when the power went. -/
def exitWaterConf : Nat → Word := Function.update freshDev.conf 50 1

/-- Start-up clears `u16ExitWater_Mode` in the register and not in the banks; the next write to it leaves banks whose
words do not cancel out. -/
theorem cleared_spoils_sum : Consistent (sysGlobalVarInit false freshDev.sts (savedDev exitWaterConf)).ee ∧
    ∃ d', regMapWrite .fault 50 [2] .cpad (sysGlobalVarInit false freshDev.sts (savedDev exitWaterConf)) =
      .ok (.noErr, d') ∧ ¬Consistent d'.ee := by
  have hagree := agree_savedDev exitWaterConf
  have hee := ee_sysGlobalVarInit_usr rfl rfl freshDev.sts hagree
  have hconf := conf_sysGlobalVarInit_usr rfl rfl freshDev.sts hagree.holds (by decide : isMapped 50 = true)
  rw [if_pos (by decide)] at hconf
  generalize sysGlobalVarInit false freshDev.sts (savedDev exitWaterConf) = d at hee hconf ⊢
  have hcons : Consistent d.ee := hee ▸ consistent_savedDev exitWaterConf
  have hold : d.ee.bank .ee1 50 = 1 := (congrArg (fun e => e.bank .ee1 50) hee).trans (by decide)
  have hstack : d.ee.stack = 0 := congrArg Eeprom.stack hee
  have hrow : confReg 50 = some (ConfReg.reg 50 0 2 0 2) := by decide
  have hcheck : regMapCheck 50 [2] .cpad d = .noErr := check_of_range hrow rfl (by decide) nofun
  have hmapped : isMapped 50 = true := isMapped_of_confReg hrow
  refine ⟨hcons, _, regMapWrite_of_check hcheck hmapped, ?_⟩
  have hbus : d.ee.bus = [] := congrArg Eeprom.bus hee
  rw [ee_written, if_neg (by decide), word_of_mapped hmapped, hconf,
    eepromTrippleWrite_eq hbus _ _ _ hcons.majority_sum, consistent_stored_iff hcons.agree (by decide),
    hcons.checksum, seen_sum hcons, hstack, hold]
  have hseen : ∀ c : Word, (if c = 0 then 0 else c) = c := by
    intro c
    split
    · rename_i hc
      exact hc.symm
    · rfl
  rw [hseen, BitVec.xor_left_inj, BitVec.xor_right_inj]
  decide

end WM.Proof
