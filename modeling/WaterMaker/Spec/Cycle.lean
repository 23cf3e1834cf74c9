import WaterMaker.Spec.Bank

/-!
# Off and on times of a compressor

`offCredit` is what a compressor that is off still has to wait before it can come on, and `onCredit` what
one that runs undisturbed still has to run. Neither falls by more than 1 in a second, nor at all in a pass
(`offCredit_le_step`, `onCredit_le_step`); both are spent when the compressor switches
(`switches_on_credit`, `switches_off_credit`).
-/

namespace WM.Spec

open WM WM.Impl

namespace Comp

/-- The seconds before the compressor can come on. -/
def offCredit (T : Timing) (u : Comp) : Nat :=
  if u.on then 0 else
  match u.fsm with
  | .idle => u.timer + T.startupDelay
  | .init => u.timer
  | .stop => T.startDelay + T.startupDelay
  | _ => 0

/-- The seconds before a compressor that nothing disturbs can leave for `STOP`. -/
def onCredit (T : Timing) (u : Comp) : Nat :=
  match u.fsm with
  | .startup => u.timer + (T.minRuntime - T.shield) + T.stopDelay
  | .normal => u.timer + T.stopDelay
  | .shuting => u.timer
  | _ => 0

section credit

variable {T : Timing} {u : Comp} {sig : CompSig} {si so : Nat} {held : Bool}

theorem offCredit_le_force (ht : u.Timed T) : u.offCredit T ≤ (u.force held).offCredit T := by
  obtain ⟨fsm, on, t⟩ := u
  cases held <;> cases on <;> cases fsm <;> simp [force, offCredit, Timed] at ht ⊢
  omega

theorem offCredit_le_step (h : u.Wf) (ht : u.Timed T) :
    u.offCredit T ≤ (u.step T sig si so).offCredit T := by
  obtain ⟨fsm, on, t⟩ := u
  cases on <;> cases fsm <;> simp only [Comp.step] <;> (repeat' split) <;>
    simp_all [offCredit, Wf, Timed]

theorem offCredit_le_cool : u.offCredit T ≤ u.cool.offCredit T + 1 := by
  obtain ⟨fsm, on, t⟩ := u
  cases on <;> cases fsm <;> simp [cool, offCredit] <;> omega

theorem onCredit_le_step (ht : u.Timed T) (hsig : sig ≠ .err) :
    u.onCredit T ≤ (u.step T sig si so).onCredit T := by
  obtain ⟨fsm, on, t⟩ := u
  cases fsm <;> simp only [Comp.step] <;> (repeat' split) <;> simp_all [onCredit, Timed]

theorem onCredit_le_cool : u.onCredit T ≤ u.cool.onCredit T + 1 := by
  obtain ⟨fsm, on, t⟩ := u
  cases fsm <;> simp [cool, onCredit] <;> omega

/-- What a compressor has left to wait when it comes on, and to run from then. -/
theorem credit_of_rise (h : u.Wf) (hu : u.on = false) (hd : ((u.force held).step T sig si so).on = true) :
    u.offCredit T = 0 ∧
      ((u.force held).step T sig si so).onCredit T = T.shield + (T.minRuntime - T.shield) + T.stopDelay := by
  obtain ⟨⟨hf, rfl, ht⟩, hsi⟩ := ready_of_switch (d := true) h.force (by simpa using hu) hd
  have hforce : u.force held = u := by
    unfold force at hf ⊢
    split at hf
    · cases hf
    · rename_i hn
      rw [if_neg hn]
  rw [hforce] at hf ht ⊢
  replace hsi : si = 0 := hsi
  simp [offCredit, onCredit, Comp.step, hf, hu, ht, hsi]

/-- What a compressor has left to wait when it goes off. -/
theorem credit_of_fall (h : u.Wf) (hu : u.on = true) (hd : ((u.force held).step T sig si so).on = false) :
    ((u.force held).step T sig si so).offCredit T = T.startDelay + T.startupDelay ∧
      (held = false → u.onCredit T = 0) := by
  obtain ⟨hf, hso⟩ := ready_of_switch (d := false) h.force (by simpa using hu) hd
  replace hf : (u.force held).fsm = .stop := hf
  replace hso : so = 0 := hso
  refine ⟨by simp [offCredit, Comp.step, hf, hso], ?_⟩
  rintro rfl
  replace hf : u.fsm = .stop := by simpa [force] using hf
  simp [onCredit, hf]

end credit

end Comp

namespace Bank

variable {T : Timing} {b : Bank} {k : CompId} {e : Event}

/-- The pass neither stops compressor `k` by `ERR` nor holds it off. -/
def Event.Undisturbed (k : CompId) : Event → Prop
  | .pass o => o.sig.get k ≠ .err ∧ o.forced.get k = false
  | _ => True

theorem offCredit_le_step (h : b.Wf) (ht : b.Timed T) (e : Event) :
    (b.comp.get k).offCredit T ≤ ((b.step T e).comp.get k).offCredit T + e.tick.toNat := by
  cases e with
  | keep => exact Nat.le_add_right ..
  | pass o =>
    obtain ⟨si, so, hk⟩ := pass_comp T o b k
    rw [step, hk]
    exact (Comp.offCredit_le_force (ht k)).trans (Comp.offCredit_le_step (h k).force (ht k).force)
  | cool =>
    rw [step, cool, Pair.get_map]
    exact Comp.offCredit_le_cool

theorem onCredit_le_step (ht : b.Timed T) (he : e.Undisturbed k) :
    (b.comp.get k).onCredit T ≤ ((b.step T e).comp.get k).onCredit T + e.tick.toNat := by
  cases e with
  | keep => exact Nat.le_add_right ..
  | pass o =>
    obtain ⟨si, so, hk⟩ := pass_comp T o b k
    have hsig : o.sigOf k ≠ .err := by simpa [Order.sigOf, he.2] using he.1
    rw [step, hk, he.2]
    exact Comp.onCredit_le_step (ht k) hsig
  | cool =>
    rw [step, cool, Pair.get_map]
    exact Comp.onCredit_le_cool

/-- When compressor `k` comes on it has waited, and is to run for the shield and the minimal runtime. -/
theorem switches_on_credit (h : b.Wf) (hd : Switches true k b (b.step T e)) :
    (b.comp.get k).offCredit T = 0 ∧
      ((b.step T e).comp.get k).onCredit T = T.shield + (T.minRuntime - T.shield) + T.stopDelay := by
  obtain ⟨o, rfl⟩ := hd.exists_pass
  obtain ⟨si, so, hk⟩ := pass_comp T o b k
  have hon := hd.2
  rw [step, hk] at hon ⊢
  exact Comp.credit_of_rise (h k) hd.1 hon

/-- When it goes off it is to wait for both delays, and undisturbed it has run. -/
theorem switches_off_credit (h : b.Wf) (hd : Switches false k b (b.step T e)) :
    ((b.step T e).comp.get k).offCredit T = T.startDelay + T.startupDelay ∧
      (e.Undisturbed k → (b.comp.get k).onCredit T = 0) := by
  obtain ⟨o, rfl⟩ := hd.exists_pass
  obtain ⟨si, so, hk⟩ := pass_comp T o b k
  have hoff := hd.2
  rw [step, hk] at hoff ⊢
  obtain ⟨h1, h2⟩ := Comp.credit_of_fall (h k) hd.1 hoff
  exact ⟨h1, fun he => h2 he.2⟩

end Bank

end WM.Spec
