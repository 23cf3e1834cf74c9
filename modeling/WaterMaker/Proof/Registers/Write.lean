import WaterMaker.Spec.Registers

/-!
# What the writes do to the registers

One lemma for each function of the register map: a checked write of one register (`regMapWrite_refused`,
`regMapWrite_mapped`, `regMapWrite_null`), a block (`blockWrite_mapped`, `blockWrite_fault`), and the three modes of
`cpad_eMBRegHoldingCB`. Where a function returns, it has changed nothing but the registers named, the EEPROM, and
the log. What goes to rows that have a register does not depend on what a store through NULL does.
-/

namespace WM.Proof

open WM WM.Impl WM.Spec

variable {null : NullStore}

/-! ## The table -/

theorem length_confRegMapInst : confRegMapInst.length = confRegMapNum := by decide +kernel

theorem rows_of_table : ∀ x ∈ confRegMapInst.zipIdx, x.1.id = x.2 ∧ x.1.permission ≤ 4 ∧ x.1.rw = 1 := by
  decide +kernel

section row

variable {i : Nat} {r : ConfReg} (h : confReg i = some r)
include h

theorem lt_of_confReg : i < confRegMapNum := by
  obtain ⟨hi, -⟩ := List.getElem?_eq_some_iff.mp h
  exact length_confRegMapInst ▸ hi

/-- A row stands at its `id`, can be written, and needs no more than the panel's permission. -/
theorem row_of_confReg : r.id = i ∧ r.permission ≤ 4 ∧ r.rw = 1 :=
  rows_of_table (r, i) (List.mem_zipIdx_iff_getElem?.mpr h)

theorem drop_confReg : confRegMapInst.drop i = r :: confRegMapInst.drop (i + 1) := by
  obtain ⟨hi, hr⟩ := List.getElem?_eq_some_iff.mp h
  rw [List.drop_eq_getElem_cons hi, hr]

theorem isMapped_of_confReg : isMapped i = r.mapped := by
  unfold isMapped
  rw [h]
  rfl

end row

theorem isMapped_iff {i : Nat} : isMapped i = true ↔ ∃ r ∈ confReg i, r.mapped = true := by
  unfold isMapped
  cases confReg i <;> simp

/-! ## A store -/

theorem load_mapped {i : Nat} (h : isMapped i = true) (v : Word) (d : Dev) :
    d.load i v = { d with conf := Function.update d.conf i v } := if_pos h

theorem setReg_mapped {i : Nat} {v : Word} {d : Dev} (h : isMapped i = true) :
    d.setReg null i v = .ok { d with conf := Function.update d.conf i v } := by
  unfold Dev.setReg
  rw [load_mapped h, if_pos h]
  cases null <;> rfl

theorem setReg_null {i : Nat} {v : Word} {d : Dev} (h : isMapped i = false) :
    d.setReg .fault i v = .error .fault := by
  unfold Dev.setReg
  rw [h]
  rfl

/-- Registers of which only those that are there have been written. -/
theorem load_masked (old new : Nat → Word) (d : Dev) (j : Nat) (v : Word) :
    ({ d with conf := fun i => if isMapped i then new i else old i } : Dev).load j v =
      { d with conf := fun i => if isMapped i then Function.update new j v i else old i } := by
  unfold Dev.load
  split <;> rename_i h <;> congr 1 <;> funext i <;> by_cases hij : i = j
  · rw [hij, Function.update_self, h, if_pos rfl, Function.update_self]
  · rw [Function.update_of_ne hij, Function.update_of_ne hij]
  · rw [hij, if_neg h, if_neg h]
  · rw [Function.update_of_ne hij]

/-! ## A checked write -/

theorem dataCheck_none_iff {d : Dev} {r : ConfReg} {v : Word} : dataCheck d r v = none ↔
    (r.min ≤ v.toNat ∧ v.toNat ≤ r.max) ∧ r.chk.all (Chk.ok d v) = true := by
  unfold dataCheck
  split
  · rename_i hr
    refine ⟨nofun, fun h => ?_⟩
    omega
  · rename_i hr
    split
    · rename_i hc
      exact ⟨fun _ => ⟨by omega, hc⟩, fun _ => rfl⟩
    · rename_i hc
      exact ⟨nofun, fun h => absurd h.2 hc⟩

theorem ne_noErr_of_dataCheck {d : Dev} {r : ConfReg} {v : Word} {err : CpadErr} (h : dataCheck d r v = some err) :
    err ≠ .noErr := by
  unfold dataCheck at h
  split_ifs at h <;> cases h <;> decide

section checked

variable {i : Nat} {r : ConfReg} {v : Word} {d : Dev} {user : UserId} (h : confReg i = some r)
  (hu : user ≠ .modebusSlave)
include h hu

theorem regMapCheck_single : regMapCheck i [v] user d = (dataCheck d r v).getD .noErr := by
  obtain ⟨-, hp, hw⟩ := row_of_confReg h
  have hi := lt_of_confReg h
  unfold regMapCheck
  rw [if_neg hu, drop_confReg h, List.zip_cons_cons, List.zip_nil_right, List.length_singleton]
  rw [if_neg (by omega), List.any_cons, List.any_nil, List.any_cons, List.any_nil, List.findSome?_cons,
    List.findSome?_nil]
  simp only [hw, ne_eq, not_true_eq_false, decide_false, Bool.or_self, Bool.false_eq_true, if_false,
    gt_iff_lt, Nat.not_lt.mpr hp]
  cases dataCheck d r v <;> rfl

theorem regMapWrite_refused {err : CpadErr} (hc : dataCheck d r v = some err) :
    regMapWrite null i [v] user d = .ok (err, d) := by
  have hne := ne_noErr_of_dataCheck hc
  unfold regMapWrite
  rw [regMapCheck_single h hu, hc]
  cases err with
  | noErr => exact absurd rfl hne
  | _ => rfl

theorem regMapWrite_accepted (hc : dataCheck d r v = none) : regMapWrite null i [v] user d =
    (regMapStore null i user i [v] d).map fun d => (.noErr, d) := by
  unfold regMapWrite
  rw [regMapCheck_single h hu, hc]
  cases regMapStore null i user i [v] d <;> rfl

/-- A value that passes the checks is written, if there is a register. -/
theorem regMapWrite_mapped (hm : r.mapped = true) (hc : dataCheck d r v = none) : ∃ ee events,
    regMapWrite null i [v] user d =
      .ok (.noErr, { d with conf := Function.update d.conf i v, ee := ee, events := events }) := by
  rw [regMapWrite_accepted h hu hc]
  unfold regMapStore
  rw [setReg_mapped ((isMapped_of_confReg h).trans hm)]
  change ∃ ee events, Except.map _ (ite _ _ _) = _
  split
  · exact ⟨_, _, rfl⟩
  · unfold regMapStore Dev.addEventlog
    split <;> exact ⟨_, _, rfl⟩

theorem regMapWrite_null (hm : r.mapped = false) (hc : dataCheck d r v = none) :
    regMapWrite .fault i [v] user d = .error .fault := by
  rw [regMapWrite_accepted h hu hc]
  unfold regMapStore
  rw [setReg_null ((isMapped_of_confReg h).trans hm)]
  rfl

end checked

/-! ## A block -/

theorem sent_succ (buf : Nat → Byte) (n : Nat) :
    sent buf (n + 1) = sent buf n ++ [word (buf (2 * n)) (buf (2 * n + 1))] := by
  rw [sent, List.range_succ, List.map_append]
  rfl

theorem mapped_succ {addr n : Nat} : Mapped addr (n + 1) ↔
    Mapped addr n ∧ isMapped (addr - configRegMapOffset + n) = true := by
  unfold Mapped
  rw [Nat.forall_lt_succ_right]
  tauto

/-- The loop of a block write: the registers one by one, or a fault at the first that is not there. -/
theorem foldlM_blockStep {buf : Nat → Byte} {addr : Nat} (hs : configRegMapOffset ≤ addr) (n : Nat) (d : Dev) :
    (List.range n).foldlM (blockStep .fault buf addr) d =
      if Mapped addr n then
        .ok { d with conf := blit d.conf (addr - configRegMapOffset) (sent buf n) }
      else .error .fault := by
  induction n with
  | zero =>
    rw [if_pos ⟨hs, nofun⟩, sent, List.range_zero, List.map_nil, blit_nil]
    rfl
  | succ n ih =>
    have hidx : addr + n - configRegMapOffset = addr - configRegMapOffset + n := by omega
    rw [List.range_succ, List.foldlM_append, ih]
    by_cases hn : Mapped addr n
    · rw [if_pos hn]
      change (blockStep .fault buf addr _ n >>= fun d => pure d) = _
      unfold blockStep
      rw [if_neg (by omega), hidx]
      by_cases hm : isMapped (addr - configRegMapOffset + n) = true
      · rw [setReg_mapped hm, if_pos (mapped_succ.mpr ⟨hn, hm⟩), sent_succ, blit_concat, length_sent]
        rfl
      · rw [setReg_null (Bool.eq_false_iff.mpr hm), if_neg fun h => hm (mapped_succ.mp h).2]
        rfl
    · rw [if_neg hn, if_neg fun h => hn (mapped_succ.mp h).1]
      rfl

/-- Where a store through NULL is lost, the registers that are there are written. -/
theorem foldlM_blockStep_lost {buf : Nat → Byte} {addr : Nat} (hs : configRegMapOffset ≤ addr) (n : Nat) (d : Dev) :
    (List.range n).foldlM (blockStep .lost buf addr) d = .ok { d with
      conf := fun i => if isMapped i then blit d.conf (addr - configRegMapOffset) (sent buf n) i else d.conf i } := by
  induction n with
  | zero =>
    rw [sent, List.range_zero, List.map_nil, blit_nil]
    simp only [ite_self]
    rfl
  | succ n ih =>
    have hidx : addr + n - configRegMapOffset = addr - configRegMapOffset + n := by omega
    rw [List.range_succ, List.foldlM_append, ih]
    change (blockStep .lost buf addr _ n >>= fun d => pure d) = _
    unfold blockStep Dev.setReg
    rw [if_neg (by omega), hidx, load_masked, sent_succ, blit_concat, length_sent]
    rfl

theorem foldlM_blockStep_mapped {buf : Nat → Byte} {addr n : Nat} (h : Mapped addr n) (d : Dev) :
    (List.range n).foldlM (blockStep null buf addr) d =
      .ok { d with conf := blit d.conf (addr - configRegMapOffset) (sent buf n) } := by
  cases null with
  | fault => rw [foldlM_blockStep h.1, if_pos h]
  | lost =>
    have hblit : (fun i => if isMapped i then blit d.conf (addr - configRegMapOffset) (sent buf n) i else d.conf i) =
        blit d.conf (addr - configRegMapOffset) (sent buf n) := by
      funext i
      split
      · rfl
      · rename_i hi
        rw [blit_of_not _ _ _ fun hin => hi ?_]
        obtain ⟨k, rfl⟩ := Nat.exists_eq_add_of_le hin.1
        rw [length_sent] at hin
        exact h.2 k (by omega)
    rw [foldlM_blockStep_lost h.1, hblit]

/-- The registers after a block from `addr` on. -/
def blockConf (conf : Nat → Word) (addr : Nat) (vs : List Word) : Nat → Word :=
  let conf' := blit conf (addr - configRegMapOffset) vs
  if addr = configRegMapOffset + eeWifiPassword then Function.update conf' eeWifiSet 0x5AA5 else conf'

/-- From the network's flag on, the table has words of text. -/
theorem confReg_text {i : Nat} (h : eeWifiSet ≤ i) (hi : i < confRegMapNum) :
    confReg i = some (ConfReg.reg i 0 0xFFFF 0 2) := by
  have htext : confRegMapInst.drop 313 = ConfReg.text 313 122 := by decide +kernel
  obtain ⟨k, rfl⟩ : ∃ k, i = 313 + k := Nat.exists_eq_add_of_le h
  have hk : k < 122 := Nat.lt_of_add_lt_add_left hi
  unfold confReg
  rw [← List.getElem?_drop, htext, ConfReg.text, List.getElem?_map, List.getElem?_range hk]
  rfl

theorem confReg_eeWifiSet : confReg eeWifiSet = some (ConfReg.reg eeWifiSet 0 0xFFFF 0 2) :=
  confReg_text (Nat.le_refl _) (by decide)

theorem wifiSet (d : Dev) : ∃ ee events,
    (do
      let d ← d.setReg null eeWifiSet 0x5AA5
      let (_, d) ← regMapWrite null eeWifiSet [d.conf eeWifiSet] .default d
      return d) =
      .ok { d with conf := Function.update d.conf eeWifiSet 0x5AA5, ee := ee, events := events } := by
  have hcheck : ∀ d : Dev, dataCheck d (ConfReg.reg eeWifiSet 0 0xFFFF 0 2) 0x5AA5 = none := fun d =>
    dataCheck_none_iff.mpr ⟨by decide, rfl⟩
  rw [setReg_mapped (isMapped_of_confReg confReg_eeWifiSet)]
  change ∃ ee events, (regMapWrite null eeWifiSet [(Function.update d.conf eeWifiSet 0x5AA5) eeWifiSet] .default
    { d with conf := Function.update d.conf eeWifiSet 0x5AA5 } >>= fun x => pure x.2) = _
  rw [Function.update_self]
  obtain ⟨ee, events, hw⟩ := regMapWrite_mapped confReg_eeWifiSet (by decide : UserId.default ≠ .modebusSlave) rfl
    (hcheck { d with conf := Function.update d.conf eeWifiSet 0x5AA5 })
  rw [hw, Function.update_idem]
  exact ⟨ee, events, rfl⟩

/-- A block whose registers are there: they are written, the whole table is saved, and the network may be set up
anew. -/
theorem blockWrite_eq (buf : Nat → Byte) {addr n : Nat} (d : Dev) (h : Mapped addr n) :
    let d₁ := { d with conf := blit d.conf (addr - configRegMapOffset) (sent buf n) }
    let d₂ := { d₁ with ee := (saveConfReg 0 d₁.image d.ee).2 }
    blockWrite null buf addr n d =
      if addr = configRegMapOffset + eeWifiPassword then do
        let d ← d₂.setReg null eeWifiSet 0x5AA5
        let (_, d) ← regMapWrite null eeWifiSet [d.conf eeWifiSet] .default d
        return d
      else .ok d₂ := by
  unfold blockWrite
  rw [foldlM_blockStep_mapped h]
  rfl

theorem blockWrite_mapped (buf : Nat → Byte) {addr n : Nat} (d : Dev) (h : Mapped addr n) : ∃ ee events,
    blockWrite null buf addr n d =
      .ok { d with conf := blockConf d.conf addr (sent buf n), ee := ee, events := events } := by
  rw [blockWrite_eq buf d h]
  unfold blockConf
  split
  · exact wifiSet _
  · exact ⟨_, _, rfl⟩

theorem blockWrite_fault {buf : Nat → Byte} {addr n : Nat} (d : Dev) (hn : 0 < n) (h : ¬Mapped addr n) :
    blockWrite .fault buf addr n d = .error .fault := by
  have hloop : (List.range n).foldlM (blockStep .fault buf addr) d = .error .fault := by
    by_cases hs : configRegMapOffset ≤ addr
    · rw [foldlM_blockStep hs, if_neg h]
    · obtain ⟨m, rfl⟩ : ∃ m, n = m + 1 := ⟨n - 1, by omega⟩
      rw [List.range_succ_eq_map, List.foldlM_cons]
      unfold blockStep
      rw [if_pos (by omega)]
      rfl
  unfold blockWrite
  rw [hloop]
  rfl

/-! ## Blocks in `cpad_eMBRegHoldingCB` -/

section mode

variable {buf : Nat → Byte} {addr n : Nat} (d : Dev)

theorem block_refused (h : Refused addr n) :
    cpadEMBRegHoldingCB null buf addr n .multipleWrite d = .ok (.noReg, [], d) := by
  unfold cpadEMBRegHoldingCB
  split
  · unfold Refused at h
    unfold multipleWrite
    rw [if_pos (by omega), if_neg (by omega)]
    rfl
  · rfl

/-- A block of no registers or of too many, and one among the command registers, is passed over without an error. -/
theorem block_passed (h : ¬Refused addr n) (hr : ¬Reaches addr n) :
    cpadEMBRegHoldingCB null buf addr n .multipleWrite d = .ok (.noErr, [], d) := by
  unfold Refused at h
  unfold Reaches at hr
  unfold cpadEMBRegHoldingCB multipleWrite
  rw [if_pos (by omega)]
  dsimp only
  split
  · rw [if_pos (by omega), if_neg (by omega)]
    rfl
  · rfl

theorem block_reaches (h : Reaches addr n) : cpadEMBRegHoldingCB null buf addr n .multipleWrite d =
    (blockWrite null buf addr n d).map fun d => (.noErr, [], d) := by
  obtain ⟨h1, h2, h3, h4⟩ := h
  unfold cpadEMBRegHoldingCB multipleWrite
  rw [if_pos (Nat.le_trans h3 (by decide))]
  rw [if_pos ⟨h1, h2⟩, if_pos h3, if_pos h4]
  cases blockWrite null buf addr n d <;> rfl

end mode

end WM.Proof
