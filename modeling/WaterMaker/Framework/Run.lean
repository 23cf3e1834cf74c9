import Mathlib.Tactic.Common
import Mathlib.Data.List.Basic
import Mathlib.Logic.Function.Iterate

/-!
# Runs of a step function

A component is a step function `σ → ε → σ` on states and events; a run is a list of events folded
over it (`run`). `Along step C s es` says that the condition `C` holds of every event of the run
`es` from `s` in the state it is met in. `run_keeps` and, under a condition, `Along.run_inv` are the
invariant rules, and `run_hom` is the one for views that take steps of their own; `credit_le_run`
bounds from below, and `run_rank_le` from above, the number of ticks a run takes to get from one
value of a measure to another. `foldl_range_inv` is the invariant rule for loops that count.
-/

namespace WM

variable {σ ε : Type*} {step : σ → ε → σ}

/-- The state after the events `es`. -/
def run (step : σ → ε → σ) (s : σ) (es : List ε) : σ :=
  es.foldl step s

@[simp] theorem run_nil (s : σ) : run step s [] = s := rfl

@[simp] theorem run_cons (s : σ) (e : ε) (es : List ε) :
    run step s (e :: es) = run step (step s e) es := rfl

theorem run_append (s : σ) (es fs : List ε) :
    run step s (es ++ fs) = run step (run step s es) fs :=
  List.foldl_append

theorem run_snoc (s : σ) (es : List ε) (e : ε) :
    run step s (es ++ [e]) = step (run step s es) e := by
  rw [run_append, run_cons, run_nil]

/-- What every step preserves holds after the run. -/
theorem run_keeps {I : σ → Prop} (hstep : ∀ s e, I s → I (step s e)) {s : σ} (hs : I s) (es : List ε) :
    I (run step s es) := by
  induction es generalizing s with
  | nil => exact hs
  | cons e es ih => exact ih (hstep s e hs)

/-- A view of the state that follows a step function of its own. -/
theorem run_hom {τ : Type*} {step' : τ → ε → τ} {f : σ → τ} (hf : ∀ s e, f (step s e) = step' (f s) e) (s : σ)
    (es : List ε) : f (run step s es) = run step' (f s) es := by
  induction es generalizing s with
  | nil => rfl
  | cons e es ih => rw [run_cons, run_cons, ih, hf]

/-- A view of the state that no step changes. -/
theorem run_view {τ : Type*} {f : σ → τ} (hf : ∀ s e, f (step s e) = f s) (s : σ) (es : List ε) :
    f (run step s es) = f s :=
  run_keeps (I := fun t => f t = f s) (fun t e ht => (hf t e).trans ht) rfl es

/-- A view that every event of the run moves in the same way. -/
theorem run_iterate {τ : Type*} {f : σ → τ} {g : τ → τ} {E : ε → Prop} (hf : ∀ s e, E e → f (step s e) = g (f s))
    (s : σ) {es : List ε} (h : ∀ e ∈ es, E e) : f (run step s es) = g^[es.length] (f s) := by
  induction es generalizing s with
  | nil => rfl
  | cons e es ih =>
    rw [run_cons, ih _ fun e' he' => h e' (List.mem_cons_of_mem _ he'), hf s e (h e (List.mem_cons_self ..))]
    rfl

/-- Every event of the run meets `C` in the state it is taken in. -/
def Along (step : σ → ε → σ) (C : σ → ε → Prop) : σ → List ε → Prop
  | _, [] => True
  | s, e :: es => C s e ∧ Along step C (step s e) es

instance Along.decidable {C : σ → ε → Prop} [∀ s e, Decidable (C s e)] :
    ∀ (es : List ε) (s : σ), Decidable (Along step C s es)
  | [], _ => inferInstanceAs (Decidable True)
  | e :: es, s =>
    have : Decidable (Along step C (step s e) es) := Along.decidable es (step s e)
    inferInstanceAs (Decidable (C s e ∧ Along step C (step s e) es))

namespace Along

variable {C D : σ → ε → Prop} {s : σ} {es fs : List ε} {e : ε}

@[simp] theorem nil : Along step C s [] := trivial

@[simp] theorem cons : Along step C s (e :: es) ↔ C s e ∧ Along step C (step s e) es := Iff.rfl

theorem append : Along step C s (es ++ fs) ↔
    Along step C s es ∧ Along step C (run step s es) fs := by
  induction es generalizing s with
  | nil => simp
  | cons e es ih => simp only [List.cons_append, cons, run_cons, ih, and_assoc]

theorem mono (h : ∀ s e, C s e → D s e) (hs : Along step C s es) : Along step D s es := by
  induction es generalizing s with
  | nil => trivial
  | cons e es ih => exact ⟨h _ _ hs.1, ih hs.2⟩

theorem and (h : Along step C s es) (h' : Along step D s es) :
    Along step (fun s e => C s e ∧ D s e) s es := by
  induction es generalizing s with
  | nil => trivial
  | cons e es ih => exact ⟨⟨h.1, h'.1⟩, ih h.2 h'.2⟩

/-- A condition on the events alone is a condition on the members of the list. -/
theorem of_forall {E : ε → Prop} (h : ∀ e ∈ es, E e) : Along step (fun _ e => E e) s es := by
  induction es generalizing s with
  | nil => trivial
  | cons e es ih =>
    exact ⟨h e (List.mem_cons_self ..), ih fun e' he' => h e' (List.mem_cons_of_mem _ he')⟩

/-- The invariant rule: what every step of the run keeps, the run keeps. -/
theorem run_inv {I : σ → Prop} (hstep : ∀ s e, I s → C s e → I (step s e)) (hs : I s)
    (h : Along step C s es) : I (run step s es) := by
  induction es generalizing s with
  | nil => exact hs
  | cons e es ih => exact ih (hstep s e hs h.1) h.2

/-- A condition may be strengthened by an invariant of the run. -/
theorem and_inv {I : σ → Prop} (hstep : ∀ s e, I s → C s e → I (step s e)) (hs : I s)
    (h : Along step C s es) : Along step (fun s e => C s e ∧ I s) s es := by
  induction es generalizing s with
  | nil => trivial
  | cons e es ih => exact ⟨⟨h.1, hs⟩, ih (hstep s e hs h.1) h.2⟩

/-- Where an invariant turns the condition into one on the events alone, and events that meet that keep the invariant,
the run meets the condition when its events do. -/
theorem iff_forall {I : σ → Prop} {E : ε → Prop} (hcond : ∀ s e, I s → (C s e ↔ E e))
    (hstep : ∀ s e, I s → E e → I (step s e)) (hs : I s) : Along step C s es ↔ ∀ e ∈ es, E e := by
  induction es generalizing s with
  | nil => simp
  | cons e es ih =>
    rw [cons, List.forall_mem_cons, hcond s e hs]
    exact and_congr_right fun he => ih (hstep s e hs he)

end Along

/-! ## Two machines on the same events -/

/-- Two machines that take the same events; the second may be a register that only the proof keeps. -/
def both {τ : Type*} (step : σ → ε → σ) (step' : τ → ε → τ) (x : σ × τ) (e : ε) : σ × τ :=
  (step x.1 e, step' x.2 e)

section both

variable {τ : Type*} {step' : τ → ε → τ}

theorem run_both (x : σ × τ) (es : List ε) :
    run (both step step') x es = (run step x.1 es, run step' x.2 es) :=
  Prod.ext (run_hom (f := Prod.fst) (fun _ _ => rfl) x es) (run_hom (f := Prod.snd) (fun _ _ => rfl) x es)

theorem Along.both {C : σ → ε → Prop} {D : τ → ε → Prop} {x : σ × τ} {es : List ε}
    (h : Along step C x.1 es) (h' : Along step' D x.2 es) :
    Along (WM.both step step') (fun x e => C x.1 e ∧ D x.2 e) x es := by
  induction es generalizing x with
  | nil => trivial
  | cons e es ih => exact ⟨⟨h.1, h'.1⟩, ih (x := WM.both step step' x e) h.2 h'.2⟩

end both

/-! ## Loops that count -/

section count

variable {f : σ → Nat → σ} {n : Nat} {s : σ}

/-- The invariant rule: `P k` holds after `k` rounds. -/
theorem foldl_range_inv (P : Nat → σ → Prop) (h0 : P 0 s) (hstep : ∀ k s, k < n → P k s → P (k + 1) (f s k)) :
    P n ((List.range n).foldl f s) := by
  induction n with
  | zero => exact h0
  | succ n ih =>
    rw [List.range_succ, List.foldl_append, List.foldl_cons, List.foldl_nil]
    exact hstep n _ (Nat.lt_succ_self n) (ih fun k s hk => hstep k s (Nat.lt_succ_of_lt hk))

/-- A loop whose round `i` changes cell `i` alone leaves in each cell what its own round puts there. -/
theorem foldl_range_at {α : Type*} {g : σ → Nat → α} (hother : ∀ s i j, j ≠ i → g (f s i) j = g s j)
    {P : α → Prop} {i : Nat} (hat : ∀ s, P (g (f s i) i)) (hi : i < n) (s : σ) :
    P (g ((List.range n).foldl f s) i) := by
  refine foldl_range_inv (fun k s => i < k → P (g s i)) (fun h => absurd h (Nat.not_lt_zero i))
    (fun k s _ ih hk => ?_) hi
  by_cases hik : i = k
  · rw [← hik]
    exact hat s
  · rw [hother s k i hik]
    exact ih (by omega)

/-- A loop whose round `i` maps cell `i` by `h i` and leaves the others has mapped every cell before `n`. -/
theorem foldl_range_get {α : Type*} {g : σ → Nat → α} {h : Nat → α → α}
    (hround : ∀ s, ∀ i < n, ∀ j, g (f s i) j = if j = i then h i (g s i) else g s j) (s : σ) (j : Nat) :
    g ((List.range n).foldl f s) j = if j < n then h j (g s j) else g s j := by
  refine foldl_range_inv (fun k x => g x j = if j < k then h j (g s j) else g s j)
    (if_neg (Nat.not_lt_zero j)).symm fun k x hk ih => ?_
  rw [hround x k hk]
  by_cases hjk : j = k
  · subst hjk
    rw [if_neg (Nat.lt_irrefl j)] at ih
    rw [if_pos rfl, ih, if_pos (Nat.lt_succ_self j)]
  · rw [if_neg hjk, ih]
    exact if_congr (by omega) rfl rfl

end count

/-! ## Measures -/

/-- A measure that no event lowers by more than its own weight is, at the start of a run, at most
what is left of it at the end and the weights on the way. -/
theorem credit_le_run (credit : σ → Nat) {tick : ε → Bool} {C : σ → ε → Prop} {s : σ} {es : List ε}
    (h : Along step C s es) (hstep : ∀ s e, C s e → credit s ≤ credit (step s e) + (tick e).toNat) :
    credit s ≤ credit (run step s es) + es.countP tick := by
  induction es generalizing s with
  | nil => simp
  | cons e es ih =>
    have h1 := hstep s e h.1
    have h2 := ih h.2
    rw [run_cons, List.countP_cons]
    cases ht : tick e <;> simp only [ht, Bool.toNat_false, Bool.toNat_true] at h1 <;>
      simp only [Bool.false_eq_true, if_false, if_true] <;> omega

/-- A measure that every tick lowers until it is 0, and that no event raises, is lowered by the
number of ticks of the run. -/
theorem run_rank_le (rank : σ → Nat) {tick : ε → Bool} {C : σ → ε → Prop} {s : σ} {es : List ε}
    (h : Along step C s es) (hstep : ∀ s e, C s e → rank (step s e) ≤ rank s - (tick e).toNat) :
    rank (run step s es) ≤ rank s - es.countP tick := by
  induction es generalizing s with
  | nil => simp
  | cons e es ih =>
    have h1 := hstep s e h.1
    have h2 := ih h.2
    rw [run_cons, List.countP_cons]
    cases ht : tick e <;> simp only [ht, Bool.toNat_false, Bool.toNat_true] at h1 <;>
      simp only [Bool.false_eq_true, if_false, if_true] <;> omega

end WM
