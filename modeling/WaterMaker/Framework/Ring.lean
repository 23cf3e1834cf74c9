import Mathlib.Data.List.DropRight
import Mathlib.Data.List.Rotate
import Mathlib.Tactic.Common

/-!
# Cells that are written in turn

A ring is a list of cells and the index of the cell that was written last. `Recent z i cells xs` says that the cells
hold the last of the values `xs`, as many as there are cells, and `z` where nothing was written yet. A value that goes
into the next cell is the last of them (`Recent.push`), and up to their order the cells are those values
(`Recent.perm`).
-/

namespace WM

variable {α : Type*} {z v : α} {i : Nat} {cells xs : List α}

/-- The cells from the oldest on, when the cell `i` was written last. -/
def oldestFirst (i : Nat) (cells : List α) : List α := cells.rotate (i + 1)

/-- The next cell is the oldest. -/
theorem oldestFirst_set (hpos : 0 < cells.length) (i : Nat) (v : α) :
    oldestFirst (i + 1) (cells.set ((i + 1) % cells.length) v) = (oldestFirst i cells).tail ++ [v] := by
  unfold oldestFirst
  refine List.ext_getElem ?_ fun k hk hk' => ?_
  · rw [List.length_rotate, List.length_set, List.length_append, List.length_tail, List.length_rotate,
      List.length_singleton]
    omega
  · rw [List.length_rotate, List.length_set] at hk
    rw [List.getElem_rotate, List.getElem_set]
    simp only [List.length_set]
    by_cases hlast : k + 1 = cells.length
    · have hsame : (i + 1) % cells.length = (k + (i + 1 + 1)) % cells.length := by
        rw [show k + (i + 1 + 1) = i + 1 + cells.length by omega, Nat.add_mod_right]
      rw [if_pos hsame, List.getElem_append_right (by rw [List.length_tail, List.length_rotate]; omega),
        List.getElem_singleton]
    · have hother : (i + 1) % cells.length ≠ (k + (i + 1 + 1)) % cells.length := by
        have hlt := Nat.mod_lt (i + 1) hpos
        rw [show k + (i + 1 + 1) = k + 1 + (i + 1) by omega, ← Nat.add_mod_mod (k + 1)]
        generalize (i + 1) % cells.length = r at hlt ⊢
        by_cases hwrap : k + 1 + r < cells.length
        · rw [Nat.mod_eq_of_lt hwrap]
          omega
        · rw [Nat.mod_eq_sub_mod (by omega), Nat.mod_eq_of_lt (by omega)]
          omega
      rw [if_neg hother, List.getElem_append_left (by rw [List.length_tail, List.length_rotate]; omega),
        List.getElem_tail, List.getElem_rotate]
      congr 2
      omega

/-- The cells hold the last of the values, and `z` where nothing was written yet. -/
def Recent (z : α) (i : Nat) (cells xs : List α) : Prop :=
  oldestFirst i cells = (List.replicate cells.length z ++ xs).drop xs.length

theorem recent_start (z : α) (i n : Nat) : Recent z i (List.replicate n z) [] := by
  unfold Recent oldestFirst
  rw [List.rotate_replicate, List.append_nil, List.length_nil, List.drop_zero, List.length_replicate]

/-- The index counts round the ring. -/
theorem Recent.congr {j : Nat} (h : Recent z i cells xs) (hmod : (i + 1) % cells.length = (j + 1) % cells.length) :
    Recent z j cells xs := by
  unfold Recent oldestFirst at *
  rw [← List.rotate_mod, ← hmod, List.rotate_mod, h]

theorem Recent.push (h : Recent z i cells xs) (hpos : 0 < cells.length) (v : α) :
    Recent z (i + 1) (cells.set ((i + 1) % cells.length) v) (xs ++ [v]) := by
  unfold Recent at *
  have hle : xs.length + 1 ≤ (List.replicate cells.length z ++ xs).length := by
    rw [List.length_append, List.length_replicate]
    omega
  rw [oldestFirst_set hpos, h, List.length_set, ← List.append_assoc, List.length_append, List.length_singleton,
    List.tail_drop, List.drop_append_of_le_length hle]

theorem Recent.perm (h : Recent z i cells xs) :
    cells.Perm (List.replicate (cells.length - xs.length) z ++ xs.rtake cells.length) := by
  have hperm : (oldestFirst i cells).Perm cells := List.rotate_perm ..
  rw [h, List.drop_append, List.drop_replicate, List.length_replicate] at hperm
  exact hperm.symm

end WM
