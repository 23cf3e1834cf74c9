import Mathlib.Data.Fintype.Card
import Mathlib.Data.Finset.Card

/-!
# Copying what has changed

A copy of some cells is brought up to date one cell at a time: `next` looks for the first cell, in a given order, whose
copy is stale, and renews that one. It finds none exactly if no copy is stale, and every copy it renews makes the number
of stale ones smaller by one (`card_stale_next`): as long as the cells stay as they are, a call finds none after at most
as many calls as there are cells (`next_none_within`). The stale ones are renewed in the order (`pending`).
-/

namespace WM.Sync

variable {ι ρ : Type} [DecidableEq ι] (order : List ι) (stale : ι → ρ → Prop) [∀ i r, Decidable (stale i r)]
  (fresh : ι → ρ)

/-- The cell to be renewed, and the copies with it. -/
def next (c : ι → ρ) : Option ι × (ι → ρ) :=
  match order.find? fun i => stale i (c i) with
  | none => (none, c)
  | some i => (some i, Function.update c i (fresh i))

variable {order stale fresh} {c : ι → ρ} {i : ι}

theorem next_none_iff (hall : ∀ i, i ∈ order) : (next order stale fresh c).1 = none ↔ ∀ i, ¬stale i (c i) := by
  unfold next
  cases hfind : order.find? fun i => stale i (c i) with
  | none =>
    rw [List.find?_eq_none] at hfind
    exact iff_of_true rfl fun i => by simpa using hfind i (hall i)
  | some i =>
    have hi := List.find?_some hfind
    exact iff_of_false (Option.some_ne_none i) fun hnone => hnone i (of_decide_eq_true hi)

/-- Only the cell that is renewed changes; it was stale, and those before it in the order are not. -/
theorem next_some (h : (next order stale fresh c).1 = some i) :
    (next order stale fresh c).2 = Function.update c i (fresh i) ∧ stale i (c i) ∧
      ∃ before after, order = before ++ i :: after ∧ ∀ j ∈ before, ¬stale j (c j) := by
  unfold next at *
  cases hfind : order.find? fun i => stale i (c i) with
  | none => rw [hfind] at h; exact nomatch h
  | some j =>
    rw [hfind] at h
    cases h
    obtain ⟨hi, before, after, horder, hbefore⟩ := List.find?_eq_some_iff_append.mp hfind
    exact ⟨rfl, of_decide_eq_true hi, before, after, horder, fun j hj => by simpa using hbefore j hj⟩

theorem next_none (h : (next order stale fresh c).1 = none) : (next order stale fresh c).2 = c := by
  unfold next at *
  cases hfind : order.find? fun i => stale i (c i) with
  | none => rfl
  | some i => rw [hfind] at h; exact nomatch h

variable (order stale c) in
/-- The cells with a stale copy, in the order. -/
def pending : List ι := order.filter fun i => stale i (c i)

theorem next_of_pending_nil (h : pending order stale c = []) : next order stale fresh c = (none, c) := by
  have hfind : order.find? (fun i => stale i (c i)) = none := by
    rw [← List.head?_filter]
    exact congrArg List.head? h
  unfold next
  rw [hfind]

/-- The first of the cells is renewed, and the others are left. -/
theorem next_of_pending_cons {is : List ι} (hfresh : ∀ i, ¬stale i (fresh i)) (horder : order.Nodup)
    (h : pending order stale c = i :: is) :
    next order stale fresh c = (some i, Function.update c i (fresh i)) ∧
      pending order stale (Function.update c i (fresh i)) = is := by
  have hfind : order.find? (fun i => stale i (c i)) = some i := by
    rw [← List.head?_filter]
    exact congrArg List.head? h
  have hnodup : (i :: is).Nodup := h ▸ horder.filter _
  have hrest : pending order stale (Function.update c i (fresh i)) = (pending order stale c).filter (· ≠ i) := by
    unfold pending
    rw [List.filter_filter]
    refine List.filter_congr fun j _ => ?_
    by_cases hj : j = i
    · subst hj
      simp [hfresh]
    · simp [hj]
  refine ⟨?_, ?_⟩
  · unfold next
    rw [hfind]
  · rw [hrest, h, List.filter_cons_of_neg (by simp)]
    exact List.filter_eq_self.mpr fun j hj => by simpa using ne_of_mem_of_not_mem hj (List.nodup_cons.mp hnodup).1

section card

variable [Fintype ι] (stale) in
/-- The cells with a stale copy. -/
def staleCells (c : ι → ρ) : Finset ι := Finset.univ.filter fun i => stale i (c i)

variable [Fintype ι] (hfresh : ∀ i, ¬stale i (fresh i))
include hfresh

theorem card_stale_next (h : (next order stale fresh c).1 = some i) :
    (staleCells stale (next order stale fresh c).2).card + 1 = (staleCells stale c).card := by
  obtain ⟨hcopy, hstale, -⟩ := next_some h
  have hmem : i ∈ staleCells stale c := by simp [staleCells, hstale]
  have herase : staleCells stale (next order stale fresh c).2 = (staleCells stale c).erase i := by
    rw [hcopy]
    ext j
    by_cases hj : j = i
    · subst hj
      simp [staleCells, hfresh]
    · simp [staleCells, hj]
  rw [herase, Finset.card_erase_add_one hmem]

/-- From any copies, one of the next calls finds none, by the time the stale ones are renewed. -/
theorem next_none_within (order : List ι) (c : ι → ρ) :
    ∃ k ≤ (staleCells stale c).card,
      (next order stale fresh ((fun c => (next order stale fresh c).2)^[k] c)).1 = none := by
  induction hn : (staleCells stale c).card generalizing c with
  | zero =>
    cases hnext : (next order stale fresh c).1 with
    | none => exact ⟨0, Nat.le_refl _, hnext⟩
    | some i =>
      have := card_stale_next hfresh hnext
      omega
  | succ n ih =>
    cases hnext : (next order stale fresh c).1 with
    | none => exact ⟨0, Nat.zero_le _, hnext⟩
    | some i =>
      have hcard := card_stale_next hfresh hnext
      obtain ⟨k, hk, hnone⟩ := ih (next order stale fresh c).2 (by omega)
      exact ⟨k + 1, by omega, by rwa [Function.iterate_succ_apply]⟩

end card

end WM.Sync
