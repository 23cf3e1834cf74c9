import Mathlib.Tactic.Common

/-!
# Two out of three

`vote` is the value that two of three copies agree on. Three copies of which at most one is wrong give the right
value (`vote_of_one_wrong`).
-/

namespace WM

variable {α : Type*} [DecidableEq α] {x y z v : α}

def vote (x y z : α) : Option α :=
  if x = y then some x else if x = z then some z else if y = z then some y else none

theorem vote_eq_some_iff : vote x y z = some v ↔ (x = v ∧ y = v) ∨ (x = v ∧ z = v) ∨ (y = v ∧ z = v) := by
  unfold vote
  split_ifs with h1 h2 h3
  · subst h1
    rw [Option.some.injEq]
    tauto
  · subst h2
    rw [Option.some.injEq]
    constructor
    · rintro rfl
      exact .inr (.inl ⟨rfl, rfl⟩)
    · rintro (⟨h, -⟩ | ⟨h, -⟩ | ⟨-, h⟩) <;> exact h
  · subst h3
    rw [Option.some.injEq]
    constructor
    · rintro rfl
      exact .inr (.inr ⟨rfl, rfl⟩)
    · rintro (⟨-, h⟩ | ⟨-, h⟩ | ⟨h, -⟩) <;> exact h
  · refine ⟨nofun, ?_⟩
    rintro (⟨rfl, rfl⟩ | ⟨rfl, rfl⟩ | ⟨rfl, rfl⟩)
    · exact absurd rfl h1
    · exact absurd rfl h2
    · exact absurd rfl h3

theorem vote_eq_none_iff : vote x y z = none ↔ x ≠ y ∧ x ≠ z ∧ y ≠ z := by
  unfold vote
  split_ifs with h1 h2 h3
  · exact ⟨nofun, fun h => absurd h1 h.1⟩
  · exact ⟨nofun, fun h => absurd h2 h.2.1⟩
  · exact ⟨nofun, fun h => absurd h3 h.2.2⟩
  · exact ⟨fun _ => ⟨h1, h2, h3⟩, fun _ => rfl⟩

@[simp] theorem vote_same (x : α) : vote x x x = some x := if_pos rfl

/-- One copy may be wrong. -/
theorem vote_of_one_wrong (hxy : x = v ∨ y = v) (hxz : x = v ∨ z = v) (hyz : y = v ∨ z = v) :
    vote x y z = some v := by
  rw [vote_eq_some_iff]
  tauto

/-- The first two decide for all three as long as the third does not tip the scales. -/
theorem two_of_three_iff {p q r : Prop} : (p ∧ q ↔ p ∧ q ∨ p ∧ r ∨ q ∧ r) ↔ (r → (p ↔ q)) := by
  tauto

end WM
