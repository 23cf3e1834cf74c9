import WaterMaker.Proof.Store.Boot

/-!
# A checked write, down to the banks

`regMapWrite_ok_iff`: a single write that passes the checks of `reg_map_write` and survives its store leaves `written`,
which is the value in the register, if there is one, and a write to the three banks (`ee_written`).
-/

namespace WM.Proof

open WM WM.Impl WM.Spec

variable {null : NullStore}

/-- What a write that passed its checks leaves. -/
def written (i : Nat) (v : Word) (user : UserId) (d : Dev) : Dev :=
  let d₁ := d.load i v
  if Volatile i then d₁
  else { d₁ with ee := (eepromTrippleWrite i v (d.word i) d.ee).2 }.addEventlog i user (d.word i) v

section written

variable (i : Nat) (v : Word) (user : UserId) (d : Dev)

theorem ee_written : (written i v user d).ee =
    if Volatile i then d.ee else (eepromTrippleWrite i v (d.word i) d.ee).2 := by
  unfold written Dev.addEventlog Dev.load
  dsimp only
  split_ifs <;> rfl

theorem conf_written : (written i v user d).conf = (d.load i v).conf := by
  unfold written Dev.addEventlog
  dsimp only
  split_ifs <;> rfl

theorem regMapStore_written : regMapStore null i user i [v] d =
    if isMapped i = true ∨ null = .lost then .ok (written i v user d) else .error .fault := by
  have hee : (d.load i v).ee = d.ee := by
    unfold Dev.load
    split <;> rfl
  have hset : d.setReg null i v = if isMapped i = true ∨ null = .lost then .ok (d.load i v) else .error .fault := by
    unfold Dev.setReg
    cases null <;> simp
  unfold regMapStore
  rw [hset]
  by_cases h : isMapped i = true ∨ null = .lost
  · rw [if_pos h, if_pos h]
    unfold written regMapStore
    change ite _ _ _ = _
    rw [hee]
    split_ifs with h1 h2 h2
    · rfl
    · exact absurd h1 h2
    · exact absurd h2 h1
    · rfl
  · rw [if_neg h, if_neg h]
    rfl

end written

section taken

variable {i : Nat} {v : Word} {user : UserId} {d : Dev}

theorem regMapWrite_ok_iff {d' : Dev} : regMapWrite null i [v] user d = .ok (.noErr, d') ↔
    regMapCheck i [v] user d = .noErr ∧ (isMapped i = true ∨ null = .lost) ∧ d' = written i v user d := by
  unfold regMapWrite
  cases hc : regMapCheck i [v] user d with
  | noErr =>
    by_cases hm : isMapped i = true ∨ null = .lost
    · rw [regMapStore_written, if_pos hm]
      constructor
      · intro h
        cases h
        exact ⟨rfl, hm, rfl⟩
      · rintro ⟨-, -, rfl⟩
        rfl
    · rw [regMapStore_written, if_neg hm]
      exact ⟨nofun, fun h => absurd h.2.1 hm⟩
  | _ => exact ⟨nofun, nofun⟩

theorem regMapWrite_of_check (h : regMapCheck i [v] user d = .noErr) (hm : isMapped i = true) :
    regMapWrite null i [v] user d = .ok (.noErr, written i v user d) := regMapWrite_ok_iff.mpr ⟨h, .inl hm, rfl⟩

theorem regMapWrite_error (h : regMapCheck i [v] user d ≠ .noErr) :
    regMapWrite null i [v] user d = .ok (regMapCheck i [v] user d, d) := by
  unfold regMapWrite
  generalize regMapCheck i [v] user d = err at h ⊢
  cases err with
  | noErr => exact absurd rfl h
  | _ => rfl

/-- A row without a check of its own takes every value within its range. -/
theorem check_of_range {r : ConfReg} (h : confReg i = some r) (hchk : r.chk = none)
    (hv : r.min ≤ v.toNat ∧ v.toNat ≤ r.max) (hu : user ≠ .modebusSlave) : regMapCheck i [v] user d = .noErr := by
  rw [regMapCheck_single h hu, dataCheck_none_iff.mpr ⟨hv, by rw [hchk]; rfl⟩]
  rfl

theorem exists_row_of_check (h : regMapCheck i [v] user d = .noErr) :
    ∃ r, confReg i = some r ∧ dataCheck d r v = none := by
  by_cases hi : i < confRegMapNum
  · obtain ⟨r, hr⟩ := exists_row hi
    refine ⟨r, hr, ?_⟩
    unfold regMapCheck at h
    rw [drop_confReg hr, List.zip_cons_cons, List.zip_nil_right] at h
    generalize (if user = .modebusSlave then 3 else 4) = permission at h
    dsimp only at h
    split_ifs at h
    rw [List.findSome?_cons, List.findSome?_nil] at h
    cases hc : dataCheck d r v with
    | none => rfl
    | some err =>
      rw [hc] at h
      exact absurd h (ne_noErr_of_dataCheck hc)
  · unfold regMapCheck at h
    rw [if_pos (by rw [List.length_singleton]; omega)] at h
    cases h

theorem allowed_of_check (h : regMapCheck i [v] user d = .noErr) : Allowed i v := by
  obtain ⟨r, hr, hc⟩ := exists_row_of_check h
  intro r' hr' _
  obtain rfl : r = r' := Option.some.inj (hr.symm.trans hr')
  exact (dataCheck_none_iff.mp hc).1

end taken

/-- A write is refused, or faults, or leaves `written`. -/
theorem regStep_cases (d : Dev) (x : RegWrite) : regStep null d x = d ∨
    regStep null d x = written x.reg x.value x.user d ∧ regMapCheck x.reg [x.value] x.user d = .noErr := by
  unfold regStep
  by_cases hc : regMapCheck x.reg [x.value] x.user d = .noErr
  · by_cases hm : isMapped x.reg = true ∨ null = .lost
    · rw [regMapWrite_ok_iff.mpr ⟨hc, hm, rfl⟩]
      exact .inr ⟨rfl, hc⟩
    · unfold regMapWrite
      rw [hc]
      rw [regMapStore_written, if_neg hm]
      exact .inl rfl
  · rw [regMapWrite_error hc]
    exact .inl rfl

theorem word_of_mapped {i : Nat} (h : isMapped i = true) (d : Dev) : d.word i = d.conf i := if_pos h

/-- A register is changed, and its new value written to the EEPROM. -/
theorem change_then_write {i : Nat} {r : ConfReg} (h : confReg i = some r) (hm : r.mapped = true)
    (hchk : r.chk = none) {v : Word} (hv : r.min ≤ v.toNat ∧ v.toNat ≤ r.max) (d : Dev) :
    (do
      let d ← d.setReg null i v
      let (_, d) ← regMapWrite null i [d.conf i] .default d
      return d) = .ok (written i v .default { d with conf := Function.update d.conf i v }) := by
  have hi : isMapped i = true := (isMapped_of_confReg h).trans hm
  have hcheck : regMapCheck i [v] .default { d with conf := Function.update d.conf i v } = .noErr :=
    check_of_range h hchk hv nofun
  rw [setReg_mapped hi]
  change (regMapWrite null i [(Function.update d.conf i v) i] .default
    { d with conf := Function.update d.conf i v } >>= fun x => pure x.2) = _
  rw [Function.update_self, regMapWrite_of_check hcheck hi]
  rfl

end WM.Proof
