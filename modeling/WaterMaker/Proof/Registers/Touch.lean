import WaterMaker.Spec.Touch
import WaterMaker.Proof.Registers.Legal

/-!
# The accesses of the register calls

Nearly half of the rows have no register, and neither the reads nor the save and the loads of all registers look for
that (`read_meets_null`). `accesses_good_iff` says exactly which calls stay within the tables and meet no NULL; such a
read does not depend on what lies at address 0 (`readRegs_clean`), and such a write ends without a fault
(`single_clean`).
-/

namespace WM.Proof

open WM WM.Impl WM.Spec

/-! ## Single accesses -/

theorem ok_row {i : Nat} : Ok (.row i) ↔ i < confRegMapNum := by
  unfold Ok
  simp only [Int.natCast_nonneg, true_and, Int.ofNat_lt]

theorem ok_reg {i : Nat} : Ok (.reg i) ↔ isMapped i = true := by
  unfold Ok
  simp only [Int.natCast_nonneg, Int.toNat_natCast, true_and, Int.ofNat_lt, and_iff_right_iff_imp]
  intro h
  obtain ⟨r, hr, -⟩ := isMapped_iff.mp h
  exact lt_of_confReg hr

/-- The first row has no register. -/
theorem not_ok_zero : ¬Ok (.reg 0) := by decide

/-! ## Reads -/

theorem ok_readTouch (a : Nat) : (∀ t ∈ readTouch a, Ok t) ↔
    (configRegMapOffset ≤ a → a < configRegMapOffset + confRegMapNum → isMapped (a - configRegMapOffset) = true) ∧
    (statusRegMapOffset ≤ a → a < statusRegMapOffset + 50 → stsMapped (a - statusRegMapOffset) = true) := by
  unfold readTouch
  by_cases h1 : a < configRegMapOffset
  · rw [if_pos h1, List.forall_mem_singleton]
    have h2 : ¬statusRegMapOffset ≤ a := Nat.not_le.mpr (Nat.lt_trans h1 (by decide))
    exact iff_of_true h1 ⟨fun h => absurd h1 (Nat.not_lt.mpr h), fun h => absurd h h2⟩
  rw [if_neg h1]
  by_cases h2 : a < configRegMapOffset + confRegMapNum
  · rw [if_pos h2, List.forall_mem_singleton, ok_reg]
    have h3 : ¬statusRegMapOffset ≤ a := Nat.not_le.mpr (Nat.lt_of_lt_of_le h2 (by decide))
    exact ⟨fun h => ⟨fun _ _ => h, fun h' => absurd h' h3⟩, fun h => h.1 (by omega) h2⟩
  rw [if_neg h2]
  by_cases h3 : statusRegMapOffset ≤ a ∧ a < statusRegMapOffset + 50
  · rw [if_pos h3, List.forall_mem_singleton]
    refine ⟨fun h => ⟨fun _ h' => absurd h' h2, fun _ _ => h.2⟩, fun h => ⟨by omega, h.2 h3.1 h3.2⟩⟩
  · rw [if_neg h3]
    exact iff_of_true nofun ⟨fun _ h => absurd h h2, fun h h' => absurd ⟨h, h'⟩ h3⟩

theorem clean_read (d : Dev) (addr n : Nat) : Clean d (.read addr n) ↔ InTables d (.read addr n) := by
  unfold Clean InTables touches ReadsMapped
  dsimp only
  by_cases h : addr + n ≤ cpadSRegHoldingNregs
  · rw [if_pos h, List.forall_mem_flatMap, forall_prop_of_true h]
    simp only [List.mem_range, ok_readTouch]
    constructor
    · intro hall a ha hn
      obtain ⟨k, rfl⟩ : ∃ k, a = addr + k := Nat.exists_eq_add_of_le ha
      exact hall k (by omega)
    · exact fun hall k hk => hall (addr + k) (by omega) (by omega)
  · rw [if_neg h]
    exact iff_of_true nofun fun h' => absurd h' h

/-- What lies at address 0 does not show in a read without NULL. -/
theorem readRegs_clean {d : Dev} {addr n : Nat} (hn : addr + n ≤ cpadSRegHoldingNregs)
    (h : Clean d (.read addr n)) (flash : Word) : readRegs { d with flash := flash } addr n = readRegs d addr n := by
  have hread : ∀ a, addr ≤ a → a < addr + n → mbsReadReg { d with flash := flash } a = mbsReadReg d a := by
    intro a ha ha'
    obtain ⟨hconf, hsts⟩ := (clean_read d addr n).mp h hn a ha ha'
    unfold mbsReadReg Dev.word
    split
    · rfl
    · split
      · rename_i h1 h2
        rw [if_pos (hconf (Nat.le_of_not_lt h1) h2), if_pos (hconf (Nat.le_of_not_lt h1) h2)]
      · split
        · rename_i hs
          rw [if_pos (hsts hs.1 hs.2), if_pos (hsts hs.1 hs.2)]
        · rfl
  refine List.flatMap_congr fun k hk => ?_
  have hk' := List.mem_range.mp hk
  rw [hread (addr + k) (by omega) (by omega)]

/-! ## Single writes -/

theorem ok_comWriteTouch (r : Nat) (v : Word) (d : Dev) : (∀ t ∈ comWriteTouch r v d, Ok t) ↔ Safe r v := by
  unfold comWriteTouch
  rw [List.forall_mem_cons, ok_row]
  cases hr : confReg r with
  | none =>
    refine iff_of_false (fun h => ?_) (not_safe v hr)
    rw [confReg, List.getElem?_eq_none_iff, length_confRegMapInst] at hr
    omega
  | some row =>
    have hlt := lt_of_confReg hr
    dsimp only
    rw [(row_of_confReg hr).1, writeTouch, if_neg (by omega), List.forall_mem_cons, ok_row,
      regMapCheck_single hr (by decide), safe_iff hr, and_iff_right hlt, and_iff_right hlt]
    cases hm : row.mapped with
    | true =>
      refine iff_of_true (fun t ht => ?_) (.inl rfl)
      split at ht
      · rw [List.mem_pair, or_self] at ht
        rw [ht, ok_reg, isMapped_of_confReg hr, hm]
      · cases ht
    | false =>
      have hnull := dataCheck_null (d := d) (v := v) hr hm
      rw [safe_iff hr, hm] at hnull
      cases hc : dataCheck d row v with
      | none =>
        rw [Option.getD_none, if_pos rfl, List.forall_mem_cons, ok_reg, isMapped_of_confReg hr, hm]
        exact iff_of_false (fun h => Bool.false_ne_true h.1) (hnull.mp hc)
      | some err =>
        rw [Option.getD_some, if_neg (ne_noErr_of_dataCheck hc)]
        refine iff_of_true nofun (not_not.mp fun h => ?_)
        exact absurd ((hnull.mpr h).symm.trans hc) nofun

theorem not_ok_saveTouch {sel : Nat} (h : sel = 0 ∨ sel = 1) : ¬∀ t ∈ saveTouch sel, Ok t := by
  unfold saveTouch
  rw [if_pos h]
  exact fun hall => not_ok_zero (hall _ (List.mem_map.mpr ⟨0, List.mem_range.mpr (by decide), rfl⟩))

theorem ok_comSingleTouch (r : Nat) (v : Word) (d : Dev) :
    (∀ t ∈ comSingleTouch r v d, Ok t) ↔ Safe r v ∧ ¬(r = factoryReset ∧ v = 0x69) := by
  unfold comSingleTouch
  by_cases h1 : r = factoryReset
  · rw [if_pos h1, and_iff_right h1, and_iff_right (safe_of_command (by simp [h1]) v)]
    by_cases hv : v = 0x69
    · rw [if_pos hv]
      exact iff_of_false (not_ok_saveTouch (.inr rfl)) (not_not.mpr hv)
    · rw [if_neg hv]
      exact iff_of_true nofun hv
  rw [if_neg h1, and_iff_left fun h => h1 h.1]
  by_cases h2 : r = manualTset
  · rw [if_pos h2]
    split
    · exact iff_of_true nofun (safe_of_command (by simp [h2]) v)
    · exact ok_comWriteTouch r v d
  rw [if_neg h2]
  by_cases h3 : r = clearRt ∨ r = clearAlarmReg ∨ r = setTl ∨ r = setTh
  · rw [if_pos h3]
    exact iff_of_true nofun (safe_of_command (by rcases h3 with h | h | h | h <;> simp [h]) v)
  · rw [if_neg h3]
    exact ok_comWriteTouch r v d

theorem clean_single (d : Dev) (addr : Nat) (v : Word) : Clean d (.single addr v) ↔ InTables d (.single addr v) := by
  unfold Clean InTables touches SingleLawful
  dsimp only
  by_cases hwin : addr < cpadRegHoldingWriteNregs
  · rw [if_neg (by omega)]
    by_cases hconf : configRegMapOffset ≤ addr
    · rw [if_pos (by omega), ok_comSingleTouch, forall_prop_of_true hconf, forall_prop_of_true hwin,
        Nat.sub_eq_iff_eq_add hconf, Nat.add_comm factoryReset]
      exact Iff.rfl
    · rw [if_neg (by omega)]
      refine iff_of_true (fun t ht => ?_) ⟨fun h => absurd h hconf, fun h => hconf (by omega)⟩
      rw [List.mem_pair, or_self] at ht
      rw [ht]
      exact Nat.lt_of_not_le hconf
  · rw [if_pos (by omega)]
    refine iff_of_true nofun ⟨fun _ h => absurd h hwin, fun h => hwin ?_⟩
    rw [h.1]
    decide

/-- A single write with good accesses only ends without a fault. -/
theorem single_clean {d : Dev} (buf : Nat → Byte) {addr : Nat}
    (h : Clean d (.single addr (word (buf 0) (buf 1)))) :
    Ends (fun _ => True) ((cpadEMBRegHoldingCB .fault buf addr 1 .singleWrite d).map fun x => x.2.2) :=
  (ends_single_of (Q := fun _ => True) trivial buf addr (fun _ _ _ _ => trivial) fun _ _ => trivial).mpr
    ((clean_single d addr _).mp h).1

/-! ## Blocks, the save and the loads -/

theorem clean_block (d : Dev) (addr n : Nat) : Clean d (.block addr n) ↔ InTables d (.block addr n) := by
  unfold Clean InTables touches Reaches
  dsimp only
  split
  · rename_i h
    refine iff_of_false (fun hall => ?_) (not_not.mpr h)
    exact not_ok_saveTouch (.inl rfl) fun t ht => hall t (List.mem_append_left _ (List.mem_append_right _ ht))
  · rename_i h
    exact iff_of_true nofun h

theorem clean_save (d : Dev) (sel : Nat) : Clean d (.save sel) ↔ InTables d (.save sel) := by
  unfold Clean InTables touches
  dsimp only
  by_cases h : sel = 0 ∨ sel = 1
  · exact iff_of_false (not_ok_saveTouch h) fun h' => h.elim h'.1 h'.2
  · rw [saveTouch, if_neg h]
    exact iff_of_true nofun (not_or.mp h)

theorem clean_userLoad (d : Dev) : Clean d .userLoad ↔ InTables d .userLoad := by
  refine iff_of_false (fun hall => not_ok_zero (hall _ ?_)) id
  exact List.mem_flatMap.mpr ⟨0, List.mem_range.mpr (by decide), List.mem_cons_of_mem _ (List.mem_cons_self ..)⟩

/-- The load of the defaults goes around NULL, up to the identity, whose registers are all there. -/
theorem clean_factoryLoad (d : Dev) : Clean d .factoryLoad ↔ InTables d .factoryLoad := by
  unfold Clean InTables touches
  dsimp only
  split
  · rename_i h
    refine iff_of_true ?_ h
    rw [List.forall_mem_flatMap]
    intro i hi
    have hlt := List.mem_range.mp hi
    split
    · rw [List.forall_mem_singleton]
      exact ok_row.mpr hlt
    · rename_i hnull
      have hm : isMapped i = true := by
        by_cases hid : i < confRegSidStart
        · exact Bool.of_not_eq_false fun h' => hnull ⟨hid, h'⟩
        · rw [isMapped_of_confReg (confReg_text (Nat.le_trans (by decide) (Nat.le_of_not_lt hid)) hlt)]
          rfl
      rw [List.forall_mem_cons, List.forall_mem_singleton]
      exact ⟨ok_row.mpr hlt, ok_reg.mpr hm⟩
  · rename_i h
    refine iff_of_false (fun hall => not_ok_zero (hall _ ?_)) h
    exact List.mem_map.mpr ⟨0, List.mem_range.mpr (by decide), rfl⟩

/-- The calls whose accesses all stay within the tables and meet no NULL. -/
theorem accesses_good_iff (d : Dev) (op : TableOp) : Clean d op ↔ InTables d op := by
  cases op with
  | read addr n => exact clean_read d addr n
  | single addr v => exact clean_single d addr v
  | block addr n => exact clean_block d addr n
  | save sel => exact clean_save d sel
  | userLoad => exact clean_userLoad d
  | factoryLoad => exact clean_factoryLoad d

/-- A read of the first configuration register goes through NULL. -/
theorem read_meets_null : touches freshDev (.read 64 1) = [.reg 0] ∧ isMapped 0 = false ∧
    ¬Clean freshDev (.read 64 1) := by
  refine ⟨by decide, by decide +kernel, fun h => not_ok_zero (h _ ?_)⟩
  decide

end WM.Proof
