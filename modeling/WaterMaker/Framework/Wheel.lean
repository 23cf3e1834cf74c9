import WaterMaker.Framework.Block
import Mathlib.Data.Nat.ModEq

/-!
# Blocks that are written in turn

A wheel is a part of a memory with room for `n` blocks of `w` values, from address `a` on. Blocks are numbered as they
come, and block `i` has its place at `i % n`. `Turned a w n i xs f` says that the memory `f` holds the blocks `xs`,
whose numbers begin with `i`. As long as there is room another block can be written behind them (`Turned.push`), and
the first can be taken away (`Turned.pop`); a queue and a log of the last blocks are both kept that way.
-/

namespace WM

variable {α : Type*} {f : Nat → α} {a w n i s s' : Nat} {x v : List α} {xs : List (List α)}

/-- The block at place `s`. -/
def blockAt (a w : Nat) (f : Nat → α) (s : Nat) : List α := (List.range w).map fun k => f (a + s * w + k)

theorem length_blockAt (a w : Nat) (f : Nat → α) (s : Nat) : (blockAt a w f s).length = w := by
  simp [blockAt]

theorem blockAt_blit_self (a : Nat) (f : Nat → α) (s : Nat) (hv : v.length = w) :
    blockAt a w (blit f (a + s * w) v) s = v := by
  refine List.ext_getElem (by rw [length_blockAt, hv]) fun k hk hk' => ?_
  simp only [blockAt, List.getElem_map, List.getElem_range]
  exact blit_at f _ hk'

/-- The other places are as they were. -/
theorem blockAt_blit_of_ne (a : Nat) (f : Nat → α) (hv : v.length = w) (hs : s' ≠ s) :
    blockAt a w (blit f (a + s * w) v) s' = blockAt a w f s' := by
  refine List.map_congr_left fun k hk => blit_of_not _ _ _ ?_
  have hk := List.mem_range.mp hk
  rw [hv]
  rcases Nat.lt_or_gt_of_ne hs with hlt | hlt
  · have : (s' + 1) * w ≤ s * w := Nat.mul_le_mul_right w hlt
    rw [Nat.succ_mul] at this
    omega
  · have : (s + 1) * w ≤ s' * w := Nat.mul_le_mul_right w hlt
    rw [Nat.succ_mul] at this
    omega

/-- Blocks that are less than a round apart have different places. -/
theorem mod_ne_mod {j : Nat} (hlt : i < j) (hround : j < i + n) : i % n ≠ j % n := by
  intro heq
  have hdvd : n ∣ j - i := (Nat.modEq_iff_dvd' hlt.le).mp heq
  have := Nat.le_of_dvd (by omega) hdvd
  omega

/-- The next place, where the last one is followed by the first. -/
theorem succ_mod (hs : s < n) : (s + 1) % n = if s + 1 = n then 0 else s + 1 := by
  split
  · rename_i heq
    rw [heq, Nat.mod_self]
  · exact Nat.mod_eq_of_lt (by omega)

/-- The memory holds the blocks `xs`, each at its place, from block `i` on. -/
def Turned (a w n i : Nat) (xs : List (List α)) (f : Nat → α) : Prop :=
  ∀ (j : Nat) (h : j < xs.length), blockAt a w f ((i + j) % n) = xs[j]

theorem turned_nil (a w n i : Nat) (f : Nat → α) : Turned a w n i [] f := nofun

/-- A block is written behind the others, when there is room. -/
theorem Turned.push (h : Turned a w n i xs f) (hroom : xs.length < n) (hv : v.length = w) :
    Turned a w n i (xs ++ [v]) (blit f (a + (i + xs.length) % n * w) v) := by
  intro j hj
  rw [List.length_append, List.length_singleton] at hj
  by_cases hlast : j = xs.length
  · subst hlast
    rw [blockAt_blit_self a f _ hv, List.getElem_concat_length rfl]
  · rw [blockAt_blit_of_ne a f hv (mod_ne_mod (by omega) (by omega)), List.getElem_append_left (by omega)]
    exact h j (by omega)

/-- The first block is taken away. -/
theorem Turned.pop (h : Turned a w n i (x :: xs) f) : blockAt a w f (i % n) = x ∧ Turned a w n (i + 1) xs f := by
  refine ⟨h 0 (Nat.zero_lt_succ _), fun j hj => ?_⟩
  have hnext := h (j + 1) (Nat.succ_lt_succ hj)
  rw [List.getElem_cons_succ] at hnext
  rw [Nat.add_assoc, Nat.add_comm 1 j]
  exact hnext

/-- What is before the wheel does not matter. -/
theorem Turned.of_eq {g : Nat → α} (h : Turned a w n i xs f) (hfg : ∀ k, a ≤ k → g k = f k) : Turned a w n i xs g := by
  intro j hj
  rw [← h j hj]
  refine List.map_congr_left fun k _ => hfg _ ?_
  omega

/-- The place before the next one. -/
theorem pred_mod (hn : 0 < n) (hi : 0 < i) : (i - 1) % n = if i % n = 0 then n - 1 else i % n - 1 := by
  have hs := Nat.mod_lt (i - 1) hn
  have hmod := succ_mod hs
  rw [Nat.mod_add_mod, Nat.sub_add_cancel hi] at hmod
  rw [hmod]
  by_cases hlast : (i - 1) % n + 1 = n
  · rw [if_pos hlast, if_pos rfl]
    omega
  · rw [if_neg hlast, if_neg (Nat.succ_ne_zero _)]
    rfl

end WM
