import Mathlib.Tactic.Common

/-!
# Functions that jump

A function that changes a state and may leave by a jump (a `goto` to a label of its caller, a fault) is an `EStateM`:
unlike an exception the jump keeps what has been done to the state. `Meets P m Q E` says what holds at either end, and
there is one rule for each way to put such functions together.
-/

namespace WM

variable {ε σ α β : Type} {P P' : σ → Prop} {Q Q' : α → σ → Prop} {E E' : ε → σ → Prop} {m : EStateM ε σ α}

/-- From a state with `P` the function returns with `Q`, or jumps with `E`. -/
def Meets (P : σ → Prop) (m : EStateM ε σ α) (Q : α → σ → Prop) (E : ε → σ → Prop) : Prop :=
  ∀ s, P s → (∃ a s', m s = .ok a s' ∧ Q a s') ∨ ∃ e s', m s = .error e s' ∧ E e s'

namespace Meets

theorem mono (h : Meets P m Q E) (hpre : ∀ s, P' s → P s) (hpost : ∀ a s, Q a s → Q' a s)
    (hjump : ∀ e s, E e s → E' e s) : Meets P' m Q' E' := by
  intro s hs
  obtain ⟨a, s', hm, hq⟩ | ⟨e, s', hm, he⟩ := h s (hpre s hs)
  · exact .inl ⟨a, s', hm, hpost a s' hq⟩
  · exact .inr ⟨e, s', hm, hjump e s' he⟩

theorem pre (h : Meets P m Q E) (hpre : ∀ s, P' s → P s) : Meets P' m Q E := by
  refine h.mono hpre ?_ ?_ <;> exact fun _ _ h => h

theorem post (h : Meets P m Q E) (hpost : ∀ a s, Q a s → Q' a s) : Meets P m Q' E := by
  refine h.mono ?_ hpost ?_
  · exact fun _ h => h
  · exact fun _ _ h => h

/-- What is known of the state at the start may be used as a fact. -/
theorem intro (h : ∀ s, P s → Meets (· = s) m Q E) : Meets P m Q E := fun s hs => h s hs s rfl

theorem bind {R : β → σ → Prop} {m : EStateM ε σ β} {f : β → EStateM ε σ α} (h : Meets P m R E)
    (hf : ∀ b, Meets (R b) (f b) Q E) : Meets P (m >>= f) Q E := by
  intro s hs
  obtain ⟨b, s', hm, hr⟩ | ⟨e, s', hm, he⟩ := h s hs
  · obtain ⟨a, t, hft, hq⟩ | ⟨e, t, hft, he⟩ := hf b s' hr
    · refine .inl ⟨a, t, ?_, hq⟩
      show EStateM.bind m f s = _
      simp only [EStateM.bind, hm, hft]
    · refine .inr ⟨e, t, ?_, he⟩
      show EStateM.bind m f s = _
      simp only [EStateM.bind, hm, hft]
  · refine .inr ⟨e, s', ?_, he⟩
    show EStateM.bind m f s = _
    simp only [EStateM.bind, hm]

theorem pure {a : α} (h : ∀ s, P s → Q a s) : Meets P (Pure.pure a : EStateM ε σ α) Q E :=
  fun s hs => .inl ⟨a, s, rfl, h s hs⟩

theorem throw {e : ε} (h : ∀ s, P s → E e s) : Meets P (MonadExcept.throw e : EStateM ε σ α) Q E :=
  fun s hs => .inr ⟨e, s, rfl, h s hs⟩

theorem modify {f : σ → σ} {Q : PUnit → σ → Prop} (h : ∀ s, P s → Q ⟨⟩ (f s)) :
    Meets P (MonadStateOf.modifyGet fun s => (PUnit.unit, f s) : EStateM ε σ PUnit) Q E :=
  fun s hs => .inl ⟨⟨⟩, f s, rfl, h s hs⟩

/-- What follows reads the state it starts from. -/
theorem get {f : σ → EStateM ε σ α} (h : ∀ s, P s → Meets (· = s) (f s) Q E) :
    Meets P (MonadState.get >>= f) Q E :=
  fun s hs => h s hs s rfl

theorem ite {c : Prop} [Decidable c] {m' : EStateM ε σ α} (h : c → Meets P m Q E) (h' : ¬c → Meets P m' Q E) :
    Meets P (if c then m else m') Q E := by
  by_cases hc : c
  · rw [if_pos hc]
    exact h hc
  · rw [if_neg hc]
    exact h' hc

/-- A part that is done only under a condition. -/
theorem when {c : Prop} [Decidable c] {R : PUnit → σ → Prop} {m : EStateM ε σ PUnit} {f : PUnit → EStateM ε σ α}
    (h : c → Meets P m R E) (h' : ¬c → ∀ s, P s → R ⟨⟩ s) (hf : Meets (R ⟨⟩) (f ⟨⟩) Q E) :
    Meets P (if c then m >>= f else f ⟨⟩) Q E :=
  ite (fun hc => (h hc).bind fun _ => hf) fun hc => hf.pre (h' hc)

/-- A jump under a condition. -/
theorem jump {c : Prop} [Decidable c] {e : ε} {f : PUnit → EStateM ε σ α} (h : c → ∀ s, P s → E e s)
    (hf : ¬c → Meets P (f ⟨⟩) Q E) : Meets P (if c then MonadExcept.throw e >>= f else f ⟨⟩) Q E :=
  ite (fun hc s hs => .inr ⟨e, s, rfl, h hc s hs⟩) hf

end Meets

end WM
