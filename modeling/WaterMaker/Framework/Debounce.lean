import Mathlib.Data.List.Basic
import Mathlib.Tactic.Common

/-!
# Debouncing

A condition is read again and again as `high`, `low` or `keep`. The debounced output goes up when a condition
that is `high` has been confirmed by `delay` and one more readings, and comes down again the same way, unless
it is `latched` (`Debounce.step`). The machine has only a phase and a counter; `Debounce.Traces` relates them to
the history of readings, and `Traces.rises_iff` and `Traces.falls_iff` say with it in which reading exactly the
output changes.
-/

namespace WM

inductive Reading
  | high | low | keep
  deriving DecidableEq

inductive Phase
  | idle | arming | up | releasing
  deriving DecidableEq

/-- The readings `a` since the last reading `b`; a history has its newest reading first. -/
def streak (a b : Reading) (h : List Reading) : Nat := (h.takeWhile (· ≠ b)).count a

theorem streak_cons (a b r : Reading) (h : List Reading) :
    streak a b (r :: h) = if r = b then 0 else streak a b h + if r = a then 1 else 0 := by
  unfold streak
  rw [List.takeWhile_cons]
  by_cases hb : r = b
  · simp [hb]
  · simp [hb, List.count_cons]

theorem streak_keep {a b : Reading} (ha : a ≠ .keep) (hb : b ≠ .keep) (h : List Reading) :
    streak a b (.keep :: h) = streak a b h := by
  rw [streak_cons, if_neg hb.symm, if_neg ha.symm, Nat.add_zero]

structure Debounce where
  delay : Nat
  latched : Bool

namespace Debounce

structure State where
  phase : Phase
  left : Nat
  deriving DecidableEq

/-- The debounced output. -/
def State.output (x : State) : Bool :=
  match x.phase with
  | .idle | .arming => false
  | .up | .releasing => true

def step (d : Debounce) (x : State) (r : Reading) : State :=
  match x.phase, r with
  | .idle, .high => ⟨.arming, d.delay⟩
  | .idle, _ => x
  | .arming, .high => if x.left > 0 then ⟨.arming, x.left - 1⟩ else ⟨.up, x.left⟩
  | .arming, .low => ⟨.idle, 0⟩
  | .up, .high => ⟨.up, 0⟩
  | .up, .low => if d.latched then x else ⟨.releasing, d.delay⟩
  | .releasing, .low => if x.left > 0 then ⟨.releasing, x.left - 1⟩ else ⟨.idle, x.left⟩
  | .releasing, .high => ⟨.up, 0⟩
  | _, .keep => x

/-- The phase and the counter say how far the history has got. -/
def Traces (d : Debounce) (x : State) (h : List Reading) : Prop :=
  match x.phase with
  | .idle => streak .high .low h = 0
  | .arming => streak .high .low h + x.left = d.delay + 1 ∧ x.left ≤ d.delay
  | .up => d.latched = false → streak .low .high h = 0
  | .releasing => d.latched = false ∧ streak .low .high h + x.left = d.delay + 1 ∧ x.left ≤ d.delay

namespace Traces

variable {d : Debounce} {x : State} {h : List Reading}

theorem idle (n : Nat) : d.Traces ⟨.idle, n⟩ [] := rfl

/-- A reading keeps the phase and the counter in step with the history. -/
theorem step (ht : d.Traces x h) (r : Reading) : d.Traces (d.step x r) (r :: h) := by
  have hhigh : streak .high .low (.keep :: h) = streak .high .low h := streak_keep (by decide) (by decide) h
  have hlow : streak .low .high (.keep :: h) = streak .low .high h := streak_keep (by decide) (by decide) h
  obtain ⟨phase, left⟩ := x
  cases phase with
  | idle =>
    have ht : streak .high .low h = 0 := ht
    cases r <;> simp [Traces, Debounce.step, streak_cons, ht]
    omega
  | arming =>
    obtain ⟨hs, hl⟩ : streak .high .low h + left = d.delay + 1 ∧ left ≤ d.delay := ht
    cases r with
    | high =>
      unfold Debounce.step
      dsimp only
      split
      · refine ⟨?_, Nat.le_trans (Nat.sub_le _ _) hl⟩
        simp only [streak_cons, reduceCtorEq, ↓reduceIte]
        omega
      · exact fun _ => by simp [streak_cons]
    | low => exact by simp [Traces, Debounce.step, streak_cons]
    | keep => exact ⟨(congrArg (· + left) hhigh).trans hs, hl⟩
  | up =>
    have ht : d.latched = false → streak .low .high h = 0 := ht
    cases r with
    | high => exact fun _ => by simp [streak_cons]
    | low =>
      unfold Debounce.step
      cases hlat : d.latched with
      | true => exact fun hf => absurd (hf.symm.trans hlat) Bool.false_ne_true
      | false =>
        refine ⟨hlat, ?_, Nat.le_refl _⟩
        simp only [streak_cons, reduceCtorEq, ↓reduceIte, ht hlat]
        omega
    | keep => exact fun hlat => hlow.trans (ht hlat)
  | releasing =>
    obtain ⟨hlat, hs, hl⟩ : d.latched = false ∧ streak .low .high h + left = d.delay + 1 ∧ left ≤ d.delay := ht
    cases r with
    | high => exact fun _ => by simp [streak_cons]
    | low =>
      unfold Debounce.step
      dsimp only
      split
      · refine ⟨hlat, ?_, Nat.le_trans (Nat.sub_le _ _) hl⟩
        simp only [streak_cons, reduceCtorEq, ↓reduceIte]
        omega
      · exact by simp [Traces, streak_cons]
    | keep => exact ⟨hlat, (congrArg (· + left) hlow).trans hs, hl⟩

/-- The output goes up exactly with the `delay + 2`-nd `high` reading without a `low` one among them. -/
theorem rises_iff (ht : d.Traces x h) (hx : x.output = false) (r : Reading) :
    (d.step x r).output = true ↔ r = .high ∧ streak .high .low (r :: h) = d.delay + 2 := by
  obtain ⟨phase, left⟩ := x
  cases phase with
  | idle =>
    have ht : streak .high .low h = 0 := ht
    cases r <;> simp [Debounce.step, State.output, streak_cons, ht]
  | arming =>
    obtain ⟨hs, hl⟩ : streak .high .low h + left = d.delay + 1 ∧ left ≤ d.delay := ht
    cases r with
    | high =>
      simp only [streak_cons, reduceCtorEq, ↓reduceIte, true_and]
      unfold Debounce.step
      dsimp only
      split
      · exact ⟨fun hf => absurd hf Bool.false_ne_true, fun he => by omega⟩
      · exact ⟨fun _ => by omega, fun _ => rfl⟩
    | low | keep => simp [Debounce.step, State.output]
  | up | releasing => exact absurd hx.symm Bool.false_ne_true

/-- The output comes down exactly with the `delay + 2`-nd `low` reading without a `high` one among them, and
never if it is latched. -/
theorem falls_iff (ht : d.Traces x h) (hx : x.output = true) (r : Reading) :
    (d.step x r).output = false ↔ d.latched = false ∧ r = .low ∧ streak .low .high (r :: h) = d.delay + 2 := by
  obtain ⟨phase, left⟩ := x
  cases phase with
  | idle | arming => exact absurd hx Bool.false_ne_true
  | up =>
    have ht : d.latched = false → streak .low .high h = 0 := ht
    cases r with
    | high | keep => simp [Debounce.step, State.output]
    | low =>
      cases hlat : d.latched with
      | true => simp [Debounce.step, State.output, hlat]
      | false => simp [Debounce.step, State.output, hlat, streak_cons, ht hlat]
  | releasing =>
    obtain ⟨hlat, hs, hl⟩ : d.latched = false ∧ streak .low .high h + left = d.delay + 1 ∧ left ≤ d.delay := ht
    cases r with
    | high | keep => simp [Debounce.step, State.output]
    | low =>
      simp only [streak_cons, reduceCtorEq, ↓reduceIte, true_and, hlat]
      unfold Debounce.step
      dsimp only
      split
      · exact ⟨fun hf => absurd hf.symm Bool.false_ne_true, fun he => by omega⟩
      · exact ⟨fun _ => by omega, fun _ => rfl⟩

end Traces

end Debounce

end WM
