import WaterMaker.Impl.Config
import WaterMaker.Spec.IceWater

/-!
# The order of the ice water's valves

A call of `Cold_Water_exe` is a call of the valves (`iceOf_coldWaterExe`), and a second of `sys_comp_cooldown` one of
theirs; the rest of the machine is taken to be in any state whatever when they come. `ice_valves_sequenced` is the order
of the valves in every run from power-up: that `WV` is requested only with `CV`, and that `CV` is closed only after two
calls with `WV` off, holds in all of them; that `WV` is opened only after two calls with `CV` on, in those that do not
leave the mode while `CV` is opening or open.
-/

namespace WM.Proof

open WM WM.Impl WM.Spec

/-! ## A call -/

theorem iceOf_coldSwitch (on : Bool) (s : Sys) : iceOf (coldSwitch on s) = (iceOf s).turn on ∧
    (coldSwitch on s).cold.coldWater = s.cold.coldWater ∧ (coldSwitch on s).cold.u8Coldwater = on := by
  unfold coldSwitch IceValves.turn
  by_cases h : s.cold.u8Coldwater = on
  · rw [if_pos h, if_pos (by exact h)]
    exact ⟨rfl, rfl, h⟩
  · rw [if_neg h, if_neg (by exact h)]
    exact ⟨rfl, rfl, rfl⟩

/-- The demand is the latch after it. -/
theorem iceOf_coldDemand (s : Sys) :
    iceOf (coldDemand (getWaterLevel s) s) = (iceOf s).turn ((iceWanted s).getD (iceOf s).latch) ∧
      (coldDemand (getWaterLevel s) s).cold.coldWater = (coldDemand (getWaterLevel s) s).cold.u8Coldwater := by
  have hturn : ∀ (w on : Bool) (s : Sys), let s' := coldSwitch on (setCold (fun c => { c with coldWater := w }) s)
      iceOf s' = (iceOf s).turn on ∧ s'.cold.coldWater = w ∧ s'.cold.u8Coldwater = on := fun w on s => by
    obtain ⟨h1, h2, h3⟩ := iceOf_coldSwitch on (setCold (fun c => { c with coldWater := w }) s)
    exact ⟨h1, h2, h3⟩
  unfold coldDemand iceWanted
  dsimp only
  split
  · simp only [setCold_cfg]
    split
    · obtain ⟨h1, h2, h3⟩ := hturn true true (setCold (fun c => { c with coldWater := false }) s)
      exact ⟨h1, h2.trans h3.symm⟩
    · split
      · obtain ⟨h1, h2, h3⟩ := hturn false false s
        exact ⟨h1, h2.trans h3.symm⟩
      · exact ⟨(if_pos rfl).symm, rfl⟩
  · obtain ⟨h1, h2, h3⟩ := hturn false false s
    exact ⟨h1, h2.trans h3.symm⟩

theorem iceOf_coldValves {s : Sys} (h : s.cold.coldWater = s.cold.u8Coldwater) :
    iceOf (coldValves s) = (iceOf s).drive := by
  have hbit : ∀ f (s : Sys) b, (setCold f s).reqBit b = s.reqBit b := fun _ _ _ => rfl
  unfold coldValves IceValves.drive
  rw [h]
  by_cases h0 : s.cold.delay0 = 0
  · by_cases h1 : s.cold.delay1 = 0 <;> cases hl : s.cold.u8Coldwater <;> simp [iceOf, h0, h1, hl, hbit]
  · rw [if_pos h0, if_pos (show (iceOf s).delay0 ≠ 0 from h0)]

theorem iceOf_coldWaterExe (s : Sys) : iceOf (coldWaterExe s) = (iceOf s).call (iceCallOf s) := by
  unfold coldWaterExe iceCallOf
  split
  · rfl
  · split
    · rfl
    · split
      · obtain ⟨hice, hcold⟩ := iceOf_coldDemand s
        exact (iceOf_coldValves hcold).trans (congrArg IceValves.drive hice)
      · simp [iceOf, IceValves.call]

/-! ## Runs -/

theorem iceOf_withIce (v : IceValves) (x : Sys) : iceOf (withIce v x) = v := by
  simp [iceOf, withIce]

theorem iceStep_call (l : IceLog) (x : Sys) : iceStep l (.call x) = l.call (iceCallOf x) := by
  unfold iceStep IceLog.call
  dsimp only
  rw [iceOf_coldWaterExe, iceOf_withIce]
  rfl

theorem iceStep_second (l : IceLog) (x : Sys) : iceStep l (.second x) = l.second := by
  have hcool : ∀ s, iceOf (sysCompCooldown s) = (iceOf s).second := fun _ => rfl
  unfold iceStep IceLog.second
  dsimp only
  rw [hcool, iceOf_withIce]

theorem closing_run (es : List IceEvent) : (run iceStep iceStart es).Closing := by
  have hstart : iceStart.Closing := ⟨id, fun _ _ => rfl, fun _ _ => rfl⟩
  refine run_keeps (I := IceLog.Closing) (fun l e hl => ?_) hstart es
  cases e with
  | call x => rw [iceStep_call]; exact IceLog.closing_call hl _
  | second x => rw [iceStep_second]; exact IceLog.closing_second hl

theorem opening_run {es : List IceEvent} (h : Along iceStep Keeping iceStart es) :
    (run iceStep iceStart es).Opening := by
  have hstart : iceStart.Opening := ⟨fun hl _ => hl, fun hl _ => hl⟩
  refine h.run_inv (I := IceLog.Opening) (fun l e hl hk => ?_) hstart
  cases e with
  | call x => rw [iceStep_call]; exact IceLog.opening_call hl hk
  | second x => rw [iceStep_second]; exact IceLog.opening_second hl

/-- In every run of calls and seconds from power-up, whatever the temperatures, levels, sources, modes and thresholds
are at each of them: after a call, `WV` is requested only with `CV`, and a call with `NORMAL_ICE` closes `CV` only if
`WV` was off after each of the two calls before. If no call has left the mode while ice water was wanted and `CV` had
begun to open, a call opens `WV` only if `CV` was requested after each of the two calls before. -/
theorem ice_valves_sequenced (es : List IceEvent) (x : Sys) :
    let l := run iceStep iceStart es
    let l' := iceStep l (.call x)
    (l'.now.wv = true → l'.now.cv = true) ∧
      (x.cfg.normalIce = true → l.now.cv = true → l'.now.cv = false → l.now.wv = false ∧ l.wv = false) ∧
      (Along iceStep Keeping iceStart es → l.now.wv = false → l'.now.wv = true → l.now.cv = true ∧ l.cv = true) := by
  have hclosing := closing_run es
  dsimp only
  rw [iceStep_call]
  refine ⟨(IceLog.closing_call hclosing _).both, fun hmode hon hoff => ?_,
    fun hkeep => IceLog.rises (opening_run hkeep)⟩
  have hcall : iceCallOf x = .back ∨ iceCallOf x = .make (iceWanted x) := by
    unfold iceCallOf
    rw [hmode]
    split
    · exact Or.inl rfl
    · split
      · exact Or.inl rfl
      · exact Or.inr rfl
  rcases hcall with hcall | hcall <;> rw [hcall] at hoff
  · exact absurd (hoff.symm.trans hon) Bool.false_ne_true
  · exact IceLog.falls hclosing hon hoff

/-- A machine that makes ice water of 20 degrees, with the middle float. -/
def iceMaking : Sys := boot { defaultConfig with coldWaterMode := 1 } { quiet with din := 0 }

/-- The demand begins, and a minute and two calls later `CV` has been on for two calls. -/
def openingRun : List IceEvent :=
  .call iceMaking :: (List.replicate 60 (.second iceMaking) ++ List.replicate 2 (.call iceMaking))

theorem ice_valves_sequenced_opening : let l := run iceStep iceStart openingRun
    let l' := iceStep l (.call iceMaking)
    Along iceStep Keeping iceStart openingRun ∧ l.now.wv = false ∧ l'.now.wv = true ∧ l'.now.cv = true ∧
      l.now.cv = true ∧ l.cv = true := by
  have hkeep : Along iceStep Keeping iceStart openingRun := by decide +kernel
  have hoff : (run iceStep iceStart openingRun).now.wv = false := by decide +kernel
  have hon : (iceStep (run iceStep iceStart openingRun) (.call iceMaking)).now.wv = true := by decide +kernel
  obtain ⟨hboth, -, hrise⟩ := ice_valves_sequenced openingRun iceMaking
  exact ⟨hkeep, hoff, hon, hboth hon, hrise hkeep hoff hon⟩

/-- The mode is left and taken up again: one call opens both valves. -/
theorem ice_valves_together : let es := openingRun ++ [.call iceMaking, .call (boot defaultConfig quiet)]
    let l := run iceStep iceStart es
    let l' := iceStep l (.call iceMaking)
    l.now.cv = false ∧ l.now.wv = false ∧ l'.now.cv = true ∧ l'.now.wv = true := by
  decide +kernel

end WM.Proof
