import WaterMaker.Proof.Frame
import WaterMaker.Spec.Plant

/-!
# The start conditions

`Sys_Fan_CP_WL` writes the reasons for standing still, `Fan_Close` and `Comp_Close`, and its own registers
(`startView_sysFanCpWl`). It sets and clears each reason for the fan and both compressors alike
(`SameClose.sysFanCpWl`), and at the upper switches it always sets `FC_WL` (`close_ne_zero_of_full`), ice
water or not.
-/

namespace WM.Proof

open WM WM.Impl WM.Spec

/-- A state without the start conditions. -/
def startView (s : Sys) : Sys :=
  { s with start := (boot s.cfg s.inp).start, fan := { s.fan with close := 0 }
           comp := { s.comp with close := ⟨0, 0⟩ } }

/-- The compressors stand still for the fan's reasons. -/
def SameClose (s : Sys) : Prop := ∀ k, s.comp.close.get k = s.fan.close

/-- A property of the close registers that writing a reason and the other registers keep. -/
structure CloseInv (P : Sys → Prop) : Prop where
  start : ∀ f s, P s → P (setStart f s)
  close : ∀ b on s, b < 8 → b ≠ fcWL → P s → P (closeOp b on s)

section sysFanCpWl

variable (s : Sys)

/-- `Sys_Fan_CP_WL` writes the start conditions alone. -/
theorem startView_sysFanCpWl : startView (sysFanCpWl s) = startView s :=
  StartFrame.sysFanCpWl ⟨fun _ _ => rfl, fun _ _ _ => rfl⟩ s

@[simp] theorem sysFanCpWl_sts : (sysFanCpWl s).sts = s.sts := by
  have h := congrArg Sys.sts (startView_sysFanCpWl s)
  exact h

@[simp] theorem sysFanCpWl_req : (sysFanCpWl s).req = s.req := by
  have h := congrArg Sys.req (startView_sysFanCpWl s)
  exact h

@[simp] theorem sysFanCpWl_tmo : (sysFanCpWl s).tmo = s.tmo := by
  have h := congrArg Sys.tmo (startView_sysFanCpWl s)
  exact h

@[simp] theorem sysFanCpWl_fan_fsm : (sysFanCpWl s).fan.fsm = s.fan.fsm := by
  have h := congrArg (·.fan.fsm) (startView_sysFanCpWl s)
  exact h

@[simp] theorem sysFanCpWl_fan_gear : (sysFanCpWl s).fan.gear = s.fan.gear := by
  have h := congrArg (·.fan.gear) (startView_sysFanCpWl s)
  exact h

/-- Behind the level condition only other reasons are written. -/
theorem CloseInv.sysFanCpWl {P : Sys → Prop} (hP : CloseInv P)
    (hlevel : P (levelClose (getWaterLevel s) (powerOnTime s))) : P (sysFanCpWl s) := by
  have hth : ∀ s, P s → P (thCheck s) := fun s h => by
    unfold thCheck
    dsimp only
    repeat' split
    · exact hP.close _ _ _ (by decide) (by decide) (hP.start _ _ (hP.start _ _ h))
    · exact hP.close _ _ _ (by decide) (by decide) (hP.start _ _ (hP.start _ _ h))
    · exact hP.start _ _ h
    · exact h
  have hdef : ∀ s, P s → P (defrostRecheck s) := fun s h => by
    unfold defrostRecheck
    split
    · exact hP.start _ _ h
    · exact h
  refine hP.close _ _ _ (by decide) (by decide) (hdef _ (hP.close _ _ _ (by decide) (by decide)
    (hth _ (hP.start _ _ hlevel))))

end sysFanCpWl

theorem SameClose.closeOp {s : Sys} (h : SameClose s) (b : Nat) (on : Bool) : SameClose (closeOp b on s) :=
  fun k => by
    simp only [Impl.closeOp, setCompSt_comp, setFanSt_comp, setCompSt_fan, setFanSt_fan, Pair.get_map, h k]

theorem SameClose.sysFanCpWl {s : Sys} (h : SameClose s) : SameClose (sysFanCpWl s) := by
  have hP : CloseInv SameClose := ⟨fun _ _ h => h, fun _ _ _ _ _ h => h.closeOp _ _⟩
  refine hP.sysFanCpWl s ?_
  have hcalc : ∀ wl s, SameClose s → SameClose (waterFullCalc wl s) := fun wl s h => by
    unfold waterFullCalc
    repeat' split
    all_goals exact h
  unfold levelClose
  split
  · exact SameClose.closeOp (s := setStart _ (powerOnTime s)) h _ _
  · exact (hcalc _ (powerOnTime s) h).closeOp _ _

theorem getLsbD_closeOp {b : Nat} (hb : b < 8) (on : Bool) (s : Sys) (k : CompId) (j : Nat) :
    ((closeOp b on s).comp.close.get k).getLsbD j =
      if j = b then on else (s.comp.close.get k).getLsbD j := by
  simp only [closeOp, setCompSt_comp, setFanSt_comp, Pair.get_map, getLsbD_putBit _ hb]

/-- A full tank closes both compressors, whatever the other conditions say. -/
theorem close_ne_zero_of_full {s : Sys} (h : Full s) (k : CompId) : (sysFanCpWl s).comp.close.get k ≠ 0 := by
  have hwl : ((sysFanCpWl s).comp.close.get k).getLsbD fcWL = true := by
    have hP : CloseInv fun s => (s.comp.close.get k).getLsbD fcWL = true := by
      refine ⟨fun _ _ h => h, fun b on s hb hne h => ?_⟩
      rw [getLsbD_closeOp hb, if_neg (Ne.symm hne)]
      exact h
    refine hP.sysFanCpWl s ?_
    have hfull : ((getWaterLevel s).sU || (getWaterLevel s).dU) = true := by simpa [Full] using h
    -- the exemption for ice water asks for neither of the upper switches
    have hice : ∀ a, (!(a && !(getWaterLevel s).sU && !(getWaterLevel s).dU)) = true := fun a => by
      cases h1 : (getWaterLevel s).sU <;> cases h2 : (getWaterLevel s).dU <;> simp_all
    rw [levelClose, hfull, Bool.true_or, if_pos rfl, getLsbD_closeOp (by decide), if_pos rfl]
    exact hice _
  intro h0
  simp [h0] at hwl

end WM.Proof
