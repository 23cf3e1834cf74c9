import WaterMaker.Proof.Store.Write

/-!
# Writes of single registers

`reg_map_write` for one register either refuses the value and changes nothing, or writes the register
(`checked_regMapWrite`). So no run of such writes takes a register out of its range, nor the two cooling temperatures
out of their order (`single_writes_checked`).
-/

namespace WM.Proof

open WM WM.Impl WM.Spec

variable {null : NullStore}

/-! ## One write -/

/-- A write that passes the checks has the permission for its row, and may write it. -/
theorem rights_of_check {i : Nat} {v : Word} {user : UserId} {d : Dev} {r : ConfReg} (hr : confReg i = some r)
    (h : regMapCheck i [v] user d = .noErr) :
    r.permission ≤ (if user = .modebusSlave then 3 else 4) ∧ r.rw = 1 := by
  unfold regMapCheck at h
  rw [drop_confReg hr, List.zip_cons_cons, List.zip_nil_right] at h
  generalize (if user = .modebusSlave then 3 else 4) = permission at h ⊢
  dsimp only at h
  split_ifs at h with hlen hperm hrw
  simp only [List.any_cons, List.any_nil, Bool.or_false, decide_eq_true_eq, gt_iff_lt, Nat.not_lt] at hperm
  simp only [List.any_cons, List.any_nil, Bool.or_false, decide_eq_true_eq, ne_eq, not_not] at hrw
  exact ⟨hperm, hrw⟩

theorem written_eq {i : Nat} (h : isMapped i = true) (v : Word) (user : UserId) (d : Dev) : ∃ ee events,
    written i v user d = { d with conf := Function.update d.conf i v, ee := ee, events := events } := by
  unfold written Dev.addEventlog
  rw [load_mapped h]
  dsimp only
  split_ifs <;> exact ⟨_, _, rfl⟩

theorem isMapped_of_check {x : RegWrite} (hm : x.Mapped) {d : Dev}
    (h : regMapCheck x.reg [x.value] x.user d = .noErr) : isMapped x.reg = true := by
  obtain ⟨r, hr, -⟩ := exists_row_of_check h
  exact (isMapped_of_confReg hr).trans (hm r hr)

theorem checked_regMapWrite {x : RegWrite} (hm : x.Mapped) (d : Dev) : Checked null d x := by
  by_cases hc : regMapCheck x.reg [x.value] x.user d = .noErr
  · obtain ⟨r, hr, hdata⟩ := exists_row_of_check hc
    obtain ⟨hperm, hrw⟩ := rights_of_check hr hc
    obtain ⟨hmin, hmax⟩ := (dataCheck_none_iff.mp hdata).1
    have hmapped := isMapped_of_check hm hc
    exact ⟨.noErr, written x.reg x.value x.user d, regMapWrite_of_check hc hmapped, fun hne => absurd rfl hne,
      fun _ => ⟨lt_of_confReg hr, ⟨r, hr, hrw, hperm, hmin, hmax⟩, written_eq hmapped ..⟩⟩
  · exact ⟨_, d, regMapWrite_error hc, fun _ => rfl, fun herr => absurd herr hc⟩

/-! ## Runs of writes -/

/-- What a write leaves in the registers. -/
theorem conf_regStep (d : Dev) (x : RegWrite) : (regStep null d x).conf = d.conf ∨
    (regStep null d x).conf = Function.update d.conf x.reg x.value ∧ regMapCheck x.reg [x.value] x.user d = .noErr := by
  rcases regStep_cases d x with hd | ⟨hd, hc⟩
  · exact .inl (congrArg Dev.conf hd)
  · have hconf := (congrArg Dev.conf hd).trans (conf_written ..)
    by_cases hm : isMapped x.reg = true
    · exact .inr ⟨hconf.trans (congrArg Dev.conf (load_mapped hm _ d)), hc⟩
    · exact .inl (hconf.trans (congrArg Dev.conf (if_neg hm)))

theorem range_regStep {d : Dev} (h : ∀ i, Allowed i (d.conf i)) (x : RegWrite) :
    ∀ i, Allowed i ((regStep null d x).conf i) := by
  intro i
  rcases conf_regStep d x with hconf | ⟨hconf, hc⟩
  · rw [hconf]
    exact h i
  · rw [hconf]
    by_cases hi : i = x.reg
    · subst hi
      rw [Function.update_self]
      exact allowed_of_check hc
    · rw [Function.update_of_ne hi]
      exact h i

/-- The check of either temperature looks at the other one. -/
theorem apart_regStep {d : Dev} (h : d.conf coldWaterStopTemp < d.conf coldWaterStartTemp) (x : RegWrite) :
    (regStep null d x).conf coldWaterStopTemp < (regStep null d x).conf coldWaterStartTemp := by
  rcases conf_regStep d x with hconf | ⟨hconf, hc⟩
  · rw [hconf]
    exact h
  · obtain ⟨r, hr, hdata⟩ := exists_row_of_check hc
    rw [hconf]
    exact apart_of_dataCheck h hr hdata

theorem range_run {d : Dev} (h : ∀ i, Allowed i (d.conf i)) (xs : List RegWrite) :
    ∀ i, Allowed i ((run (regStep null) d xs).conf i) :=
  run_keeps (I := fun d : Dev => ∀ i, Allowed i (d.conf i)) (fun _ x hd => range_regStep hd x) h xs

theorem apart_run {d : Dev} (h : d.conf coldWaterStopTemp < d.conf coldWaterStartTemp) (xs : List RegWrite) :
    (run (regStep null) d xs).conf coldWaterStopTemp < (run (regStep null) d xs).conf coldWaterStartTemp :=
  run_keeps (I := fun d : Dev => d.conf coldWaterStopTemp < d.conf coldWaterStartTemp)
    (fun _ x hd => apart_regStep hd x) h xs

/-- Single checked writes, for every register, value, user and state of the device: each of them does what it is to do,
and any run of them keeps the registers within their ranges and the cooling temperatures in their order. -/
theorem single_writes_checked (null : NullStore) (d : Dev) :
    (∀ x : RegWrite, x.Mapped → Checked null d x) ∧
    ∀ xs : List RegWrite,
      ((∀ i, Allowed i (d.conf i)) → ∀ i, Allowed i ((run (regStep null) d xs).conf i)) ∧
      (d.conf coldWaterStopTemp < d.conf coldWaterStartTemp →
        (run (regStep null) d xs).conf coldWaterStopTemp < (run (regStep null) d xs).conf coldWaterStartTemp) :=
  ⟨fun _ hm => checked_regMapWrite hm d, fun xs => ⟨fun h => range_run h xs, fun h => apart_run h xs⟩⟩

/-- Cooling is to start at 20.0 degrees, set on the display, and then at 9.0, set over Modbus. -/
def coolerWrites : List RegWrite :=
  [⟨coldWaterStartTemp, 200, .default⟩, ⟨coldWaterStartTemp, 90, .modebusSlave⟩]

theorem single_writes_checked_cooler : (∀ x ∈ coolerWrites, x.Mapped ∧ Checked .fault freshDev x) ∧
    (∀ i, Allowed i ((run (regStep .fault) freshDev coolerWrites).conf i)) ∧
    (run (regStep .fault) freshDev coolerWrites).conf coldWaterStopTemp <
      (run (regStep .fault) freshDev coolerWrites).conf coldWaterStartTemp := by
  have hmapped : ∀ x ∈ coolerWrites, x.Mapped := by decide
  have hruns := (single_writes_checked .fault freshDev).2 coolerWrites
  refine ⟨fun x hx => ⟨hmapped x hx, (single_writes_checked .fault freshDev).1 x (hmapped x hx)⟩, hruns.1 ?_,
    hruns.2 legal_freshDev.apart⟩
  exact (legal_iff.mp legal_freshDev).1

end WM.Proof
