import WaterMaker.Proof.Registers.Cloud
import WaterMaker.Proof.Slave.Frame
import WaterMaker.Proof.Store.Save

/-!
# The report of the parameters

`network_Serialize_para_json` writes the registers from address 100 on as hexadecimal digits, and
`network_parameter_set_parse` reads them back byte for byte (`settingBytes_hexText`). But four of the 80 rows of the
report have no register, and the block write stores through their NULL as well. If such a store is survived, the rows
that have registers get the values of the report and the whole table is saved (`applySetting_lost`); if not, the report
can be set on no device (`applySetting_fault`). `report_restored_iff` puts this together.
-/

namespace WM.Proof

open WM WM.Impl WM.Spec

/-! ## Digits -/

theorem hexDigit_utilsHb2hex (b : Byte) : hexDigit (utilsHb2hex b) = some (b.toNat % 16) := by
  have hdigit : ∀ n < 16, hexDigit (Char.ofNat (if n < 10 then '0'.toNat + n else n - 10 + 'a'.toNat)) = some n := by
    decide
  have hlow : (b &&& 0xF).toNat = b.toNat % 16 := by
    rw [BitVec.toNat_and]
    exact Nat.and_two_pow_sub_one_eq_mod b.toNat 4
  unfold utilsHb2hex
  rw [hlow]
  exact hdigit _ (Nat.mod_lt _ (by decide))

theorem hexDigit_high (b : Byte) : hexDigit (utilsHb2hex (b >>> 4)) = some (b.toNat / 16) := by
  have hlt := b.isLt
  have hshift : (b >>> 4).toNat = b.toNat / 16 := by
    rw [BitVec.toNat_ushiftRight, Nat.shiftRight_eq_div_pow]
  rw [hexDigit_utilsHb2hex, hshift, Nat.mod_eq_of_lt (by omega)]

theorem hexText_cons (b : Byte) (bs : List Byte) :
    hexText (b :: bs) = utilsHb2hex (b >>> 4) :: utilsHb2hex b :: hexText bs := rfl

theorem length_hexText (bytes : List Byte) : (hexText bytes).length = 2 * bytes.length := by
  induction bytes with
  | nil => rfl
  | cons b bs ih =>
    rw [hexText_cons, List.length_cons, List.length_cons, ih, List.length_cons]
    omega

theorem isSome_hexDigit_hexText (bytes : List Byte) : ∀ c ∈ hexText bytes, (hexDigit c).isSome = true := by
  intro c hc
  obtain ⟨b, -, hb⟩ := List.mem_flatMap.mp hc
  rcases List.mem_pair.mp hb with rfl | rfl
  · rw [hexDigit_high]
    rfl
  · rw [hexDigit_utilsHb2hex]
    rfl

theorem drop_hexText (bytes : List Byte) (j : Nat) : (hexText bytes).drop (2 * j) = hexText (bytes.drop j) := by
  induction bytes generalizing j with
  | nil => simp [hexText]
  | cons b bs ih =>
    cases j with
    | zero => rfl
    | succ j => exact ih j

/-- Every byte is read back. -/
theorem hexByte_hexText {bytes : List Byte} {j : Nat} (hj : j < bytes.length) :
    hexByte (hexText bytes) j = bytes[j] := by
  have hlt := bytes[j].isLt
  unfold hexByte
  rw [drop_hexText, List.drop_eq_getElem_cons hj, hexText_cons]
  show BitVec.ofNat 8 (hexValue [_, _]) = _
  rw [hexValue_two (hexDigit_high _) (hexDigit_utilsHb2hex _), Nat.div_add_mod, BitVec.ofNat_toNat, BitVec.setWidth_eq]

/-- The loop that reads the digits is the inverse of the one that writes them. -/
theorem settingBytes_hexText (bytes : List Byte) (last : Option Int) :
    settingBytes (hexText bytes) bytes.length 0 last = .ok bytes := by
  rw [settingBytes_hex (isSome_hexDigit_hexText bytes) _ _ (by rw [length_hexText, Nat.zero_add])]
  congr 1
  refine List.ext_getElem (by rw [List.length_map, List.length_range]) fun j hj hj' => ?_
  rw [List.getElem_map, List.getElem_range, Nat.zero_add, hexByte_hexText hj']

/-! ## Registers -/

/-- The bytes of a register that was read. -/
theorem word_readRegs (d : Dev) (addr : Nat) {n k : Nat} (hk : k < n) :
    word ((readRegs d addr n).getD (2 * k) 0) ((readRegs d addr n).getD (2 * k + 1) 0) = mbsReadReg d (addr + k) := by
  induction n generalizing addr k with
  | zero => exact absurd hk (Nat.not_lt_zero k)
  | succ n ih =>
    have hcons : readRegs d addr (n + 1) =
        hiByte (mbsReadReg d addr) :: loByte (mbsReadReg d addr) :: readRegs d (addr + 1) n := by
      unfold readRegs
      rw [List.range_succ_eq_map, List.flatMap_cons, List.flatMap_map]
      simp only [Nat.add_zero, Nat.succ_eq_add_one, Nat.add_right_comm addr, Nat.add_assoc addr]
      rfl
    rw [hcons]
    cases k with
    | zero => exact word_bytes _
    | succ k =>
      rw [show addr + (k + 1) = addr + 1 + k by omega]
      exact ih (addr + 1) (Nat.lt_of_succ_lt_succ hk)

theorem mbsReadReg_mapped (d : Dev) {i : Nat} (h : isMapped i = true) :
    mbsReadReg d (configRegMapOffset + i) = d.conf i := by
  obtain ⟨r, hr, -⟩ := isMapped_iff.mp h
  have hlt := lt_of_confReg hr
  unfold mbsReadReg
  rw [if_neg (by omega), if_pos (by omega), Nat.add_sub_cancel_left]
  exact if_pos h

/-! ## The report -/

section report

variable {d : Dev} {code : List Char}

theorem settingmsg_report (d : Dev) : (networkSerializeParaJson d).settingmsg = hexText (readRegs d 100 80) := by
  have hlen : (readRegs d 100 80).length = 160 := length_readRegs ..
  unfold networkSerializeParaJson cpadEMBRegHoldingCB
  rw [if_pos (by decide)]
  refine congrArg hexText (List.ext_getElem (by rw [List.length_map, List.length_range, hlen]) fun i hi hi' => ?_)
  rw [List.getElem_map, List.getElem_range, List.getD_eq_getElem _ _ hi']

theorem length_settingmsg (d : Dev) : (networkSerializeParaJson d).settingmsg.length = 320 := by
  rw [settingmsg_report, length_hexText, length_readRegs]

/-- What the report leads to in a message: the block as it was read, if there is memory for it. -/
theorem settingOf_report (mem : Nat × Nat) (d : Dev) (h : itemInt (some (.str code)) = .ok 5) :
    settingOf mem ((networkSerializeParaJson d).message code) =
      if 321 > mem.1 then .ok none else if 160 > mem.2 then .error .fault
      else .ok (some ⟨100, 80, readRegs d 100 80⟩) := by
  have hlen : (readRegs d 100 80).length = 160 := length_readRegs ..
  have hbytes := settingBytes_hexText (readRegs d 100 80) none
  rw [hlen, ← settingmsg_report] at hbytes
  have htake : (networkSerializeParaJson d).settingmsg.take ((80 : Int).toNat * 4) =
      (networkSerializeParaJson d).settingmsg := List.take_of_length_le (length_settingmsg d).le
  rw [settingOf_members (a := 100) (n := 80) h rfl rfl rfl, if_neg (by decide), htake]
  simp only [show ¬(80 : Int) < 0 by decide, show (0 : Int) < 80 by decide, false_or, true_and]
  congr 2
  exact congrArg (Except.map _) hbytes

end report

/-- Row 74 has no register, and 85, 111 and 114 have none. -/
theorem not_mapped_report : ¬Mapped 100 80 := by decide +kernel

theorem reaches_report : Reaches 100 80 := by decide

/-- The block of a report, where a store through NULL is a fault. -/
theorem applySetting_fault (bytes : List Byte) (d : Dev) : applySetting .fault ⟨100, 80, bytes⟩ d = .error .fault := by
  unfold applySetting
  rw [block_reaches d reaches_report, blockWrite_fault d (by decide) not_mapped_report]
  rfl

/-- The block of a report of `d`, where a store through NULL is lost: the rows that have registers are set, and the
whole table is saved. -/
theorem applySetting_lost (d d' : Dev) : ∃ d₁, applySetting .lost ⟨100, 80, readRegs d 100 80⟩ d' = .ok d₁ ∧
    (∀ i, isMapped i = true → d₁.conf i = if 36 ≤ i ∧ i ≤ 115 then d.conf i else d'.conf i) ∧
    d₁.ee = (saveConfReg 0 d₁.image d'.ee).2 := by
  let buf : Nat → Byte := fun k => (readRegs d 100 80).getD k 0
  let conf : Nat → Word := fun i => if isMapped i then blit d'.conf 36 (sent buf 80) i else d'.conf i
  obtain ⟨e, he⟩ : ∃ e, e = (saveConfReg 0 ({ d' with conf := conf } : Dev).image d'.ee).2 := ⟨_, rfl⟩
  have hblock : blockWrite .lost buf 100 80 d' = .ok { d' with conf := conf, ee := e } := by
    rw [he]
    unfold blockWrite
    rw [foldlM_blockStep_lost (by decide)]
    rfl
  refine ⟨{ d' with conf := conf, ee := e }, ?_, fun i hi => ?_, he⟩
  · unfold applySetting
    rw [block_reaches d' reaches_report, hblock]
    rfl
  · refine (if_pos hi).trans ?_
    split
    · rename_i hin
      obtain ⟨k, rfl⟩ := Nat.exists_eq_add_of_le hin.1
      have hk : k < 80 := by omega
      rw [blit_at _ _ (by rw [length_sent]; exact hk), getElem_sent, word_readRegs d 100 hk, ← mbsReadReg_mapped d hi]
      congr 1
      unfold configRegMapOffset
      omega
    · rename_i hout
      refine blit_of_not _ _ _ fun hin => hout ?_
      rw [length_sent] at hin
      omega

/-- A report in a message: without memory nothing happens, and then the block is written. -/
theorem parse_report (null : NullStore) (mem : Nat × Nat) (d d' : Dev) {code : List Char}
    (h : itemInt (some (.str code)) = .ok 5) :
    networkParameterSetParse null mem (some ((networkSerializeParaJson d).message code)) d' =
      if 321 > mem.1 then .ok d' else if 160 > mem.2 then .error .fault
      else applySetting null ⟨100, 80, readRegs d 100 80⟩ d' := by
  unfold networkParameterSetParse
  dsimp only
  rw [settingOf_report mem d h]
  split_ifs <;> rfl

/-- If a store through NULL is lost, the report is restored. -/
theorem restores_lost {mem : Nat × Nat} {code : List Char} (d : Dev) (h : itemInt (some (.str code)) = .ok 5)
    (hfirst : 321 ≤ mem.1) (hsecond : 160 ≤ mem.2) :
    RestoresReport .lost mem ((networkSerializeParaJson d).message code) d := by
  have hparse : ∀ d', networkParameterSetParse .lost mem (some ((networkSerializeParaJson d).message code)) d' =
      applySetting .lost ⟨100, 80, readRegs d 100 80⟩ d' := by
    intro d'
    rw [parse_report .lost mem d d' h, if_neg (by omega), if_neg (by omega)]
  constructor
  · obtain ⟨d₁, hset, hconf, hee⟩ := applySetting_lost d d
    refine ⟨d₁, (hparse d).trans hset, fun i hi => ?_, fun hq b hb i hi => ?_⟩
    · rw [hconf i hi, ite_self]
    · rw [hee, show d₁.image = imageOf d₁.word from rfl, saveConfReg_users hq]
      exact (congrFun (bank_onUsers hb) i).trans (saved_data _ _ hi)
  · intro d'
    obtain ⟨d₁, hset, hconf, -⟩ := applySetting_lost d d'
    exact ⟨d₁, (hparse d').trans hset, fun i hlow hhigh hi => (hconf i hi).trans (if_pos ⟨hlow, hhigh⟩)⟩

/-- For every device, every message code for setting, every amount of memory and whatever a store through NULL does:
the report has all registers, each as the four digits of its value, in a form that the parser takes and, with memory,
decodes to the bytes that were read. It is restored exactly if there is memory for both buffers and a store through
NULL is survived, because the block has rows without a register; if such a store is a fault, it is one on every
device. -/
theorem report_restored_iff (null : NullStore) (mem : Nat × Nat) (d : Dev) (code : List Char)
    (h : itemInt (some (.str code)) = .ok 5) :
    ParamSet ((networkSerializeParaJson d).message code) 100 80 (networkSerializeParaJson d).settingmsg ∧
    (321 ≤ mem.1 → 160 ≤ mem.2 → settingOf mem ((networkSerializeParaJson d).message code) =
      .ok (some ⟨100, 80, readRegs d 100 80⟩)) ∧
    (321 ≤ mem.1 → ∀ d', networkParameterSetParse .fault mem (some ((networkSerializeParaJson d).message code)) d' =
      .error .fault) ∧
    (RestoresReport null mem ((networkSerializeParaJson d).message code) d ↔
      null = .lost ∧ 321 ≤ mem.1 ∧ 160 ≤ mem.2) := by
  refine ⟨⟨h, rfl, rfl, rfl, ?_, ?_⟩, fun hfirst hsecond => ?_, fun hfirst d' => ?_, fun hrestores => ?_, ?_⟩
  · rw [settingmsg_report]
    exact isSome_hexDigit_hexText _
  · rw [length_settingmsg]
    decide
  · rw [settingOf_report mem d h, if_neg (by omega), if_neg (by omega)]
  · rw [parse_report .fault mem d d' h, if_neg (by omega), applySetting_fault, ite_self]
  · obtain ⟨d₁, hparse, hsame⟩ := hrestores.other (otherDev (d.conf 36))
    rw [parse_report null mem d _ h] at hparse
    split_ifs at hparse with hfirst hsecond
    · -- without memory the other device keeps what it has
      obtain rfl := Except.ok.inj hparse
      exact absurd (hsame 36 (by decide) (by decide) (by decide +kernel)) (ne_not _)
    · refine ⟨?_, by omega, by omega⟩
      cases null with
      | lost => rfl
      | fault =>
        rw [applySetting_fault] at hparse
        cases hparse
  · rintro ⟨rfl, hfirst, hsecond⟩
    exact restores_lost d h hfirst hsecond

/-- The report of a new machine is restored, if a store through NULL is lost. -/
theorem report_restored_iff_fresh :
    itemInt (some (.str ['0', '0', '5'])) = .ok 5 ∧
    RestoresReport .lost (1000, 1000) ((networkSerializeParaJson freshDev).message ['0', '0', '5']) freshDev :=
  ⟨rfl, (report_restored_iff .lost (1000, 1000) freshDev ['0', '0', '5'] rfl).2.2.2.mpr ⟨rfl, by decide, by decide⟩⟩

/-- The report of a new machine, sent back to it, is a write through a pointer that is not there; and whatever that
does, without memory the message is dropped and another machine does not get the registers. -/
theorem report_faults :
    networkParameterSetParse .fault (1000, 1000) (some ((networkSerializeParaJson freshDev).message ['0', '0', '5']))
      freshDev = .error .fault ∧
    isMapped 74 = false ∧
    ¬RestoresReport .fault (1000, 1000) ((networkSerializeParaJson freshDev).message ['0', '0', '5']) freshDev ∧
    ∀ null, ¬RestoresReport null (320, 1000) ((networkSerializeParaJson freshDev).message ['0', '0', '5'])
      freshDev := by
  have hcode : itemInt (some (.str ['0', '0', '5'])) = .ok 5 := rfl
  have hfault := parse_report .fault (1000, 1000) freshDev freshDev hcode
  rw [if_neg (by decide), if_neg (by decide), applySetting_fault] at hfault
  refine ⟨hfault, by decide +kernel, fun h => ?_, fun null h => ?_⟩
  · obtain ⟨d₁, hparse, -⟩ := h.same
    exact absurd (hfault.symm.trans hparse) nofun
  · obtain ⟨d₁, hparse, hsame⟩ := h.other (otherDev (freshDev.conf 36))
    rw [parse_report null (320, 1000) freshDev _ hcode, if_pos (by decide)] at hparse
    obtain rfl := Except.ok.inj hparse
    exact ne_not _ (hsame 36 (by decide) (by decide) (by decide +kernel))

end WM.Proof
