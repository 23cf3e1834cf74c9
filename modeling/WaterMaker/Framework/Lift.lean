import Mathlib.Logic.Basic

/-!
# Programs on two levels

A component that is written over other operations is related on two levels as soon as its operations are: the relation
between programs has to be kept by sequencing, and nothing else (`Lifts`). `Lifts.hom` is the relation of programs that
do the same under a map of the states. In `Lifts.foretold` the lower level decides and the upper one is told
beforehand what it will decide, by a list that it uses up.
-/

namespace WM

/-- A relation between programs over two kinds of states that sequencing keeps. -/
structure Lifts (σ τ : Type) where
  rel : ∀ {ρ : Type}, StateM σ ρ → StateM τ ρ → Prop
  pure : ∀ {ρ : Type} (r : ρ), rel (pure r) (pure r)
  bind : ∀ {ρ ρ' : Type} {x : StateM σ ρ} {y : StateM τ ρ} {f : ρ → StateM σ ρ'} {g : ρ → StateM τ ρ'},
    rel x y → (∀ r, rel (f r) (g r)) → rel (x >>= f) (y >>= g)

namespace Lifts

variable {σ τ : Type}

theorem ite (L : Lifts σ τ) {ρ : Type} {x x' : StateM σ ρ} {y y' : StateM τ ρ} (c : Prop) [Decidable c]
    (h : L.rel x y) (h' : L.rel x' y') : L.rel (if c then x else x') (if c then y else y') := by
  by_cases hc : c
  · rw [if_pos hc, if_pos hc]
    exact h
  · rw [if_neg hc, if_neg hc]
    exact h'

/-- The program does on `f s` what the other one does on `s`. -/
def hom (f : τ → σ) : Lifts σ τ where
  rel x y := ∀ s, x (f s) = ((y s).1, f (y s).2)
  pure _ _ := rfl
  bind {_ _ x y F G} h h' s := by
    show F (x (f s)).1 (x (f s)).2 = ((G (y s).1 (y s).2).1, f (G (y s).1 (y s).2).2)
    rw [h s]
    exact h' _ _

/-- From every state of the lower level there is a list of decisions with which the upper level has the same result;
it is used up, and what follows is left. -/
def foretold {ε : Type} (R : σ → List ε → τ → Prop) : Lifts σ τ where
  rel x y := ∀ s, ∃ es, ∀ rest t, R s (es ++ rest) t → (y t).1 = (x s).1 ∧ R (x s).2 rest (y t).2
  pure _ _ := ⟨[], fun _ _ h => ⟨rfl, h⟩⟩
  bind {_ _ x y F G} h h' s := by
    obtain ⟨es, hes⟩ := h s
    obtain ⟨es', hes'⟩ := h' (x s).1 (x s).2
    refine ⟨es ++ es', fun rest t ht => ?_⟩
    rw [List.append_assoc] at ht
    obtain ⟨hr, hnext⟩ := hes _ t ht
    show (G (y t).1 (y t).2).1 = (F (x s).1 (x s).2).1 ∧ R (F (x s).1 (x s).2).2 rest (G (y t).1 (y t).2).2
    rw [hr]
    exact hes' rest _ hnext

end Lifts

end WM
