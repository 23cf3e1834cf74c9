import WaterMaker.Proof.Registers.Legal
import WaterMaker.Impl.Config
import WaterMaker.Impl.Persist

/-!
# The registers and the machine

The machine runs on the registers that remote writes change (`Dev.config`). Its rows are rows of the table
(`regRows_of_table`), so that lawful requests leave it a configuration within the ranges it is built for, with the
cooling temperatures in their order (`lawful_config`).
-/

namespace WM.Proof

open WM WM.Impl WM.Spec

theorem regRows_of_table : ∀ r ∈ regRows, (confReg r.addr).any (fun x =>
    x.mapped && x.min == r.min && x.max == r.max && x.dft == r.dft) = true := by
  decide +kernel

/-- Each register of the configuration is that of its row, or a flag made from it. -/
theorem get_config (d : Dev) : ∀ r ∈ regRows, r.get d.config = (d.conf r.addr).toNat ∨
    r.get d.config ≤ 1 ∧ r.min = 0 ∧ r.max = 1 := by
  unfold regRows
  repeat' refine List.forall_mem_cons.mpr ⟨?_, ?_⟩
  all_goals first | exact .inl rfl | exact .inr ⟨Bool.toNat_le _, rfl, rfl⟩ | exact nofun

theorem config_inRange {d : Dev} (h : Legal d.conf) : d.config.InRange := by
  intro r hr
  have hrow := regRows_of_table r hr
  cases hc : confReg r.addr with
  | none =>
    rw [hc] at hrow
    exact absurd hrow Bool.false_ne_true
  | some x =>
    rw [hc] at hrow
    simp only [Option.any_some, Bool.and_eq_true, beq_iff_eq] at hrow
    obtain ⟨⟨⟨hm, hmin⟩, hmax⟩, -⟩ := hrow
    have hall := (legal_iff.mp h).1 r.addr x hc hm
    rcases get_config d r hr with hg | hg <;> omega

/-- After a run of lawful requests the machine has a configuration within its ranges. -/
theorem lawful_config {d d' : Dev} (h : Legal d.conf) {rs : List Request}
    (hrs : Along (remoteStep .fault) LawfulAt (.ok d) rs) (hd : run (remoteStep .fault) (.ok d) rs = .ok d') :
    d'.config.InRange ∧ d'.config.coldWaterStopTemp < d'.config.coldWaterStartTemp := by
  have hlegal : Legal d'.conf := by
    have hends := ends_run h hrs
    rw [hd] at hends
    exact hends
  exact ⟨config_inRange hlegal, hlegal.apart⟩

end WM.Proof
