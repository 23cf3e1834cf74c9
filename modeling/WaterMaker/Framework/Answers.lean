import WaterMaker.Framework.Run

/-!
# What the callers of a component see

A component that answers is a step function `σ → ε → ρ × σ`. Its callers see the answers to a run of calls (`answers`).
A component refines another if a relation between their states lets every call have the same answer on both, and is
kept by it: then no run of calls tells them apart (`answers_eq`).
-/

namespace WM

variable {σ τ ε ε' ρ : Type*} {step : σ → ε → ρ × σ} {step' : τ → ε' → ρ × τ} {s : σ} {t : τ}

/-- The answers to the calls `es`, one after the other. -/
def answers (step : σ → ε → ρ × σ) : σ → List ε → List ρ
  | _, [] => []
  | s, e :: es => (step s e).1 :: answers step (step s e).2 es

/-- The state after a call. -/
def moves (step : σ → ε → ρ × σ) (s : σ) (e : ε) : σ := (step s e).2

theorem answers_append (s : σ) (es fs : List ε) :
    answers step s (es ++ fs) = answers step s es ++ answers step (run (moves step) s es) fs := by
  induction es generalizing s with
  | nil => rfl
  | cons e es ih => exact congrArg ((step s e).1 :: ·) (ih _)

/-- Calls of which each has the property `P`. -/
theorem answers_eq_of_forall {R : σ → τ → Prop} {P : ε → Prop} {g : ε → ε'}
    (hstep : ∀ s t e, P e → R s t → (step s e).1 = (step' t (g e)).1 ∧ R (step s e).2 (step' t (g e)).2) (h : R s t)
    {es : List ε} (hes : ∀ e ∈ es, P e) : answers step s es = answers step' t (es.map g) := by
  induction es generalizing s t with
  | nil => rfl
  | cons e es ih =>
    obtain ⟨hanswer, hnext⟩ := hstep s t e (hes e List.mem_cons_self) h
    show (step s e).1 :: answers step (step s e).2 es = _ :: answers step' (step' t (g e)).2 (es.map g)
    rw [hanswer, ih hnext fun e he => hes e (List.mem_cons_of_mem _ he)]

theorem answers_eq {R : σ → τ → Prop} {g : ε → ε'}
    (hstep : ∀ s t e, R s t → (step s e).1 = (step' t (g e)).1 ∧ R (step s e).2 (step' t (g e)).2) (h : R s t)
    (es : List ε) : answers step s es = answers step' t (es.map g) :=
  answers_eq_of_forall (P := fun _ => True) (fun s t e _ => hstep s t e) h fun _ _ => trivial

theorem moves_related {R : σ → τ → Prop} {g : ε → ε'} (hstep : ∀ s t e, R s t → R (step s e).2 (step' t (g e)).2)
    (h : R s t) (es : List ε) : R (run (moves step) s es) (run (moves step') t (es.map g)) := by
  induction es generalizing s t with
  | nil => exact h
  | cons e es ih => exact ih (hstep s t e h)

end WM
