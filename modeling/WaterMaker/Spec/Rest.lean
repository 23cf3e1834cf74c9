import WaterMaker.Spec.Bank

/-!
# Compressors at rest

A compressor is at rest in `IDLE` and in `STOP`. Without an order to start it stays there, and a compressor
that is off or held comes there (`Comp.resting_step`, `Comp.resting_of_off`, `Comp.resting_of_held`). In
`STOP` it may still run: it does so through a pass exactly if the shared countdown makes it wait
(`Bank.pass_on_iff`).
-/

namespace WM.Spec

open WM WM.Impl

namespace Comp

/-- `IDLE` or `STOP`. -/
def resting (u : Comp) : Prop := u.fsm = .idle ∨ u.fsm = .stop

section resting

variable {T : Timing} {u : Comp} {sig : CompSig} {si so : Nat} {held : Bool}

theorem resting_step (h : u.resting) (hsig : sig ≠ .on) :
    ((u.force held).step T sig si so).resting := by
  obtain ⟨fsm, on, t⟩ := u
  rcases h with rfl | rfl
  · simp [force, Comp.step, hsig, resting]
  · simp only [force, Comp.step, ne_eq, not_true_eq_false, false_and, and_false, if_false]
    split
    · exact .inl rfl
    · exact .inr rfl

theorem resting_of_held (h : u.Wf) : ((u.force true).step T .off si so).resting := by
  obtain ⟨fsm, on, t⟩ := u
  cases fsm <;> simp [force, Comp.step, resting, Wf] at h ⊢ <;> split <;> simp

theorem resting_of_off (h : u.Wf) (hoff : u.on = false) (hsig : sig ≠ .on) :
    ((u.force held).step T sig si so).resting := by
  obtain ⟨fsm, on, t⟩ := u
  cases held <;> cases fsm <;> simp_all [force, Comp.step, resting, Wf] <;> split <;> simp

/-- At rest and not asked for, a compressor runs on exactly if it has to wait in `STOP`. -/
theorem on_step_iff (hrest : u.resting) (hsig : sig ≠ .on) :
    ((u.force held).step T sig si so).on = true ↔ u.fsm = .stop ∧ u.on = true ∧ so ≠ 0 := by
  obtain ⟨fsm, on, t⟩ := u
  rcases hrest with rfl | rfl
  · simp [force, Comp.step, hsig]
  · by_cases h0 : so = 0 <;> simp [force, Comp.step, h0]

theorem force_resting (h : u.resting) : u.force held = u := by
  obtain ⟨fsm, on, t⟩ := u
  rcases h with rfl | rfl <;> simp [force]

end resting

end Comp

namespace Bank

variable {T : Timing} {b : Bank} {o : Order} {k : CompId}

/-- Compressor `k` has to wait in `STOP`: for the shared countdown, or for the first compressor, which
is switched off before it and arms the countdown. -/
def Waits (b : Bank) (k : CompId) : Prop :=
  (b.comp.get k).fsm = .stop ∧ (b.comp.get k).on = true ∧
    (b.stopInt ≠ 0 ∨ k = .c2 ∧ b.comp.c1.fsm = .stop)

theorem pass_on_iff (hT : 0 < T.interval) (hrest : ∀ j, (b.comp.get j).resting)
    (hsig : ∀ j, o.sigOf j ≠ .on) : ((b.pass T o).comp.get k).on = true ↔ b.Waits k := by
  cases k with
  | c1 =>
    have h1 : ((b.pass T o).comp.get .c1).on = true ↔
        b.comp.c1.fsm = .stop ∧ b.comp.c1.on = true ∧ b.stopInt ≠ 0 :=
      Comp.on_step_iff (hrest .c1) (hsig .c1)
    rw [h1]
    simp [Waits, Pair.get]
  | c2 =>
    have hso : ((b.force o).one T .c1 (o.sigOf .c1)).stopInt ≠ 0 ↔
        b.stopInt ≠ 0 ∨ b.comp.c1.fsm = .stop := by
      have hf : (b.comp.c1.force o.forced.c1) = b.comp.c1 := Comp.force_resting (hrest .c1)
      simp only [one, force, Pair.get, hf, Comp.ready]
      split <;> grind
    have h2 : ((b.pass T o).comp.get .c2).on = true ↔ b.comp.c2.fsm = .stop ∧ b.comp.c2.on = true ∧
        ((b.force o).one T .c1 (o.sigOf .c1)).stopInt ≠ 0 :=
      Comp.on_step_iff (hrest .c2) (hsig .c2)
    rw [h2, hso]
    simp [Waits, Pair.get]

end Bank

end WM.Spec
