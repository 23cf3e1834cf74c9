import Mathlib.Algebra.GroupWithZero.Nat
import Mathlib.Data.List.GetD
import Mathlib.Logic.Function.Basic
import Mathlib.Tactic.Common

/-!
# Blocks of a memory

A memory is a function from addresses. `blit f i vs` is the memory `f` with the values `vs` from address `i` on;
`blit_cons` takes them one at a time, as a loop that writes them does, and `blit_at` and `blit_of_not` read the
memory inside and outside the block. A 16-bit word travels as two bytes, the high one first (`word`).
-/

namespace WM

variable {α : Type*}

def blit (f : Nat → α) (i : Nat) (vs : List α) : Nat → α := fun k =>
  if i ≤ k then vs.getD (k - i) (f k) else f k

@[simp] theorem blit_nil (f : Nat → α) (i : Nat) : blit f i [] = f := by
  funext k
  simp [blit]

/-- The loop that writes a block writes its first value and goes on with the others. -/
theorem blit_cons (f : Nat → α) (i : Nat) (v : α) (vs : List α) :
    blit f i (v :: vs) = blit (Function.update f i v) (i + 1) vs := by
  funext k
  unfold blit
  rcases Nat.lt_trichotomy k i with h | rfl | h
  · rw [if_neg (by omega), if_neg (by omega), Function.update_of_ne (by omega)]
  · rw [if_pos (Nat.le_refl _), if_neg (by omega), Nat.sub_self, List.getD_cons_zero, Function.update_self]
  · rw [if_pos (by omega), if_pos (by omega), show k - i = k - (i + 1) + 1 by omega, List.getD_cons_succ,
      Function.update_of_ne (by omega)]

@[simp] theorem blit_singleton (f : Nat → α) (i : Nat) (v : α) : blit f i [v] = Function.update f i v := by
  rw [blit_cons, blit_nil]

theorem blit_at (f : Nat → α) (i : Nat) {vs : List α} {j : Nat} (h : j < vs.length) :
    blit f i vs (i + j) = vs[j] := by
  unfold blit
  rw [if_pos (Nat.le_add_right ..), Nat.add_sub_cancel_left, List.getD_eq_getElem _ _ h]

theorem blit_congr {f g : Nat → α} {i : Nat} {vs : List α} {k : Nat} (h : i ≤ k) (hk : k < i + vs.length) :
    blit f i vs k = blit g i vs k := by
  obtain ⟨j, rfl⟩ := Nat.exists_eq_add_of_le h
  rw [blit_at f i (by omega), blit_at g i (by omega)]

theorem blit_of_not (f : Nat → α) (i : Nat) (vs : List α) {k : Nat} (h : ¬(i ≤ k ∧ k < i + vs.length)) :
    blit f i vs k = f k := by
  unfold blit
  split
  · exact List.getD_eq_default _ _ (by omega)
  · rfl

theorem blit_concat (f : Nat → α) (i : Nat) (vs : List α) (v : α) :
    blit f i (vs ++ [v]) = Function.update (blit f i vs) (i + vs.length) v := by
  induction vs generalizing f i with
  | nil => rw [List.nil_append, blit_cons, blit_nil, blit_nil, List.length_nil, Nat.add_zero]
  | cons u us ih =>
    rw [List.cons_append, blit_cons, ih, blit_cons, List.length_cons, Nat.add_right_comm, Nat.add_assoc]

theorem blit_append (f : Nat → α) (i : Nat) (vs ws : List α) :
    blit f i (vs ++ ws) = blit (blit f i vs) (i + vs.length) ws := by
  induction vs generalizing f i with
  | nil => rw [List.nil_append, blit_nil, List.length_nil, Nat.add_zero]
  | cons v vs ih =>
    rw [List.cons_append, blit_cons, ih, blit_cons, List.length_cons, Nat.add_right_comm, Nat.add_assoc]

/-- What holds at every address of a memory holds after a block was written exactly if it holds of the block. -/
theorem forall_blit_iff {P : Nat → α → Prop} {f : Nat → α} (hf : ∀ k, P k (f k)) (i : Nat) (vs : List α) :
    (∀ k, P k (blit f i vs k)) ↔ ∀ (j : Nat) (h : j < vs.length), P (i + j) vs[j] := by
  constructor
  · intro h j hj
    rw [← blit_at f i hj]
    exact h _
  · intro h k
    by_cases hk : i ≤ k ∧ k < i + vs.length
    · have hb := blit_at f i (show k - i < vs.length by omega)
      have hp := h (k - i) (by omega)
      rw [← hb, Nat.add_sub_cancel' hk.1] at hp
      exact hp
    · rw [blit_of_not f i vs hk]
      exact hf k

/-- A word from its two bytes. -/
def word (hi lo : BitVec 8) : BitVec 16 := hi ++ lo

def hiByte (w : BitVec 16) : BitVec 8 := w.extractLsb' 8 8

def loByte (w : BitVec 16) : BitVec 8 := w.extractLsb' 0 8

@[simp] theorem word_bytes (w : BitVec 16) : word (hiByte w) (loByte w) = w := by
  unfold word hiByte loByte
  ext i hi
  rw [BitVec.getElem_append]
  split
  · rw [BitVec.getElem_extractLsb', Nat.zero_add, BitVec.getLsbD_eq_getElem]
  · rw [BitVec.getElem_extractLsb', show 8 + (i - 8) = i by omega, BitVec.getLsbD_eq_getElem]

@[simp] theorem hiByte_word (hi lo : BitVec 8) : hiByte (word hi lo) = hi := by
  unfold hiByte word
  exact BitVec.extractLsb'_append_eq_left

@[simp] theorem loByte_word (hi lo : BitVec 8) : loByte (word hi lo) = lo := by
  unfold loByte word
  exact BitVec.extractLsb'_append_eq_right

theorem toNat_word (hi lo : BitVec 8) : (word hi lo).toNat = 256 * hi.toNat + lo.toNat := by
  unfold word
  rw [BitVec.toNat_append, ← Nat.shiftLeft_add_eq_or_of_lt lo.isLt, Nat.shiftLeft_eq]
  omega

/-- The sum of bytes, in 8 bits. -/
theorem toNat_foldl_add (bs : List (BitVec 8)) (a : BitVec 8) :
    (bs.foldl (· + ·) a).toNat = (a.toNat + (bs.map BitVec.toNat).sum) % 256 := by
  induction bs generalizing a with
  | nil => exact (Nat.mod_eq_of_lt a.isLt).symm
  | cons b bs ih =>
    rw [List.foldl_cons, ih, BitVec.toNat_add, List.map_cons, List.sum_cons]
    omega

end WM
