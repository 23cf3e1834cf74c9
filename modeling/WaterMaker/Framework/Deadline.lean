import Mathlib.Data.Fintype.Card
import WaterMaker.Framework.Run

/-!
# Jobs with deadlines

Some jobs are done again and again, each of them in its turn when it has the earliest deadline. `left` is the time that
each has left, and a job that is `spent` will not be taken once more. When a job is overdue, those ahead of it are the
ones that may be taken before it (`Deadline.rank` counts them): deadlines are compared only to within `g`. As time
passes no job gets ahead, since one that has been done has a deadline at least `g` away.
-/

namespace WM.Deadline

variable {ι : Type} [Fintype ι] [DecidableEq ι]

/-- The jobs at one moment. -/
structure Jobs (ι : Type) where
  left : ι → Int
  spent : ι → Bool

/-- Job `j` may be taken before job `k`. -/
def Ahead (g : Int) (m : Jobs ι) (k j : ι) : Prop := j ≠ k ∧ m.left j < m.left k + g ∧ m.spent j = false

instance (g : Int) (m : Jobs ι) (k : ι) : DecidablePred (Ahead g m k) := fun j =>
  inferInstanceAs (Decidable (j ≠ k ∧ m.left j < m.left k + g ∧ m.spent j = false))

/-- How many jobs are ahead of job `k`. -/
def rank (g : Int) (m : Jobs ι) (k : ι) : Nat := (Finset.univ.filter (Ahead g m k)).card

/-- Job `j` has its deadline still. -/
def Standing (δ : Int) (m m' : Jobs ι) (j : ι) : Prop :=
  m'.left j = m.left j - δ ∧ (m.spent j = true → m'.spent j = true)

/-- Job `j` has been done, and has a new deadline. -/
def Postponed (g δ : Int) (m' : Jobs ι) (j : ι) : Prop := g ≤ m'.left j + δ

variable {g δ : Int} {m m' : Jobs ι} {k : ι}

omit [Fintype ι] [DecidableEq ι] in
theorem not_ahead_of_postponed {j : ι} (hk : m'.left k = m.left k - δ) (hover : m.left k ≤ 0)
    (hj : Postponed g δ m' j) :
    ¬Ahead g m' k j := by
  rintro ⟨-, hlt, -⟩
  unfold Postponed at hj
  omega

omit [Fintype ι] [DecidableEq ι] in
/-- No job gets ahead of one that is overdue. -/
theorem ahead_of_ahead (hk : m'.left k = m.left k - δ) (hover : m.left k ≤ 0)
    (hstep : ∀ j, Standing δ m m' j ∨ Postponed g δ m' j) {j : ι} (h : Ahead g m' k j) : Ahead g m k j := by
  obtain ⟨hleft, hspent⟩ := (hstep j).resolve_right fun hj => not_ahead_of_postponed hk hover hj h
  obtain ⟨hne, hlt, hlive⟩ := h
  refine ⟨hne, by omega, ?_⟩
  cases hs : m.spent j with
  | false => rfl
  | true => exact absurd (hspent hs) (by simp [hlive])

theorem rank_le (hk : m'.left k = m.left k - δ) (hover : m.left k ≤ 0)
    (hstep : ∀ j, Standing δ m m' j ∨ Postponed g δ m' j) : rank g m' k ≤ rank g m k := by
  refine Finset.card_le_card fun j hj => ?_
  rw [Finset.mem_filter] at hj ⊢
  exact ⟨hj.1, ahead_of_ahead hk hover hstep hj.2⟩

/-- When one that was ahead is done, or spent, there is one less. -/
theorem rank_lt (hk : m'.left k = m.left k - δ) (hover : m.left k ≤ 0)
    (hstep : ∀ j, Standing δ m m' j ∨ Postponed g δ m' j) {j : ι} (hahead : Ahead g m k j)
    (hj : Postponed g δ m' j ∨ m'.spent j = true) : rank g m' k < rank g m k := by
  refine Finset.card_lt_card ⟨fun i hi => ?_, fun hsub => ?_⟩
  · rw [Finset.mem_filter] at hi ⊢
    exact ⟨hi.1, ahead_of_ahead hk hover hstep hi.2⟩
  · have hin : Ahead g m' k j := (Finset.mem_filter.1 (hsub (Finset.mem_filter.2 ⟨Finset.mem_univ j, hahead⟩))).2
    rcases hj with hj | hj
    · exact not_ahead_of_postponed hk hover hj hin
    · exact absurd hj (by simp [hin.2.2])

/-- All the others are ahead at most. -/
theorem rank_lt_card (g : Int) (m : Jobs ι) (k : ι) : rank g m k < Fintype.card ι := by
  refine Finset.card_lt_univ_of_notMem (x := k) fun h => ?_
  exact (Finset.mem_filter.1 h).2.1 rfl

/-! ## Waiting -/

variable {σ ε ω : Type} {step : σ → ε → σ}

/-- The entry `p` has been made in the log between two states. -/
def Written (log : σ → List ω) (p : ω) (s t : σ) : Prop := ∃ ws, log t = log s ++ ws ∧ p ∈ ws

theorem run_grows {log : σ → List ω} {C : σ → ε → Prop} {J : σ → Prop}
    (hgrow : ∀ s e, J s → C s e → log s <+: log (step s e) ∧ J (step s e)) {s : σ} (hs : J s) {es : List ε}
    (h : Along step C s es) : log s <+: log (run step s es) := by
  induction es generalizing s with
  | nil => exact List.prefix_rfl
  | cons e es ih => exact (hgrow s e hs h.1).1.trans (ih (hgrow s e hs h.1).2 h.2)

/-- A measure that every tick lowers until the entry `p` is made bounds the number of ticks before it is. -/
theorem written_or_ticks_le (log : σ → List ω) (p : ω) (rank : σ → Nat) (tick : ε → Bool) {C : σ → ε → Prop}
    {J I : σ → Prop} (hgrow : ∀ s e, J s → C s e → log s <+: log (step s e) ∧ J (step s e))
    (hstep : ∀ s e, J s → I s → C s e →
      Written log p s (step s e) ∨ (I (step s e) ∧ rank (step s e) + (tick e).toNat ≤ rank s))
    {s : σ} (hJ : J s) (hI : I s) {es : List ε} (h : Along step C s es) :
    Written log p s (run step s es) ∨ es.countP tick ≤ rank s := by
  induction es generalizing s with
  | nil => exact .inr (Nat.zero_le _)
  | cons e es ih =>
    obtain ⟨hpre, hnext⟩ := hgrow s e hJ h.1
    rcases hstep s e hJ hI h.1 with ⟨ws, hws, hp⟩ | ⟨hI', hrank⟩
    · obtain ⟨vs, hvs⟩ := run_grows hgrow hnext h.2
      refine .inl ⟨ws ++ vs, ?_, List.mem_append_left _ hp⟩
      rw [run_cons, ← hvs, hws, List.append_assoc]
    · rcases ih hnext hI' h.2 with ⟨ws, hws, hp⟩ | hle
      · obtain ⟨vs, hvs⟩ := hpre
        refine .inl ⟨vs ++ ws, ?_, List.mem_append_right _ hp⟩
        rw [run_cons, hws, ← hvs, List.append_assoc]
      · refine .inr ?_
        rw [List.countP_cons]
        cases ht : tick e <;> simp only [ht, Bool.toNat_false, Bool.toNat_true] at hrank <;>
          simp only [Bool.false_eq_true, if_false, if_true] <;> omega

end WM.Deadline
