import Mathlib.Logic.Function.Basic
import Mathlib.Tactic.Common

/-!
# Exclusive-or sums

`xorSum f k` is the exclusive or of the first `k` words of a memory. A checksum word that makes it 0 can be carried
on when one word changes (`xorSum_update`), and shows every change of a single word (`xorSum_update_ne`).
-/

namespace WM

variable {n : Nat} {f g : Nat → BitVec n} {i k : Nat} {v : BitVec n}

theorem xor_xor_cancel (a b : BitVec n) : a ^^^ b ^^^ b = a := by
  rw [BitVec.xor_assoc, BitVec.xor_self, BitVec.xor_zero]

theorem xor_eq_zero_iff {a b : BitVec n} : a ^^^ b = 0#n ↔ a = b := by
  constructor
  · intro h
    rw [← xor_xor_cancel a b, h, BitVec.zero_xor]
  · rintro rfl
    exact BitVec.xor_self

/-- A sum stays as it is if what is taken out is what is put in. -/
theorem xor_xor_eq_iff {a b c : BitVec n} : a ^^^ b ^^^ c = a ↔ b = c := by
  constructor
  · intro h
    rw [BitVec.xor_assoc] at h
    exact xor_eq_zero_iff.mp ((BitVec.xor_right_inj a).mp (h.trans BitVec.xor_zero.symm))
  · rintro rfl
    exact xor_xor_cancel a b

def xorSum (f : Nat → BitVec n) : Nat → BitVec n
  | 0 => 0#n
  | k + 1 => xorSum f k ^^^ f k

theorem xorSum_succ (f : Nat → BitVec n) (k : Nat) : xorSum f (k + 1) = xorSum f k ^^^ f k := rfl

theorem xorSum_congr (h : ∀ i < k, f i = g i) : xorSum f k = xorSum g k := by
  induction k with
  | zero => rfl
  | succ k ih => rw [xorSum_succ, xorSum_succ, ih fun i hi => h i (by omega), h k (by omega)]

theorem xorSum_xor (f g : Nat → BitVec n) (k : Nat) :
    xorSum (fun i => f i ^^^ g i) k = xorSum f k ^^^ xorSum g k := by
  induction k with
  | zero => exact (BitVec.xor_self ..).symm
  | succ k ih =>
    rw [xorSum_succ, xorSum_succ, xorSum_succ, ih]
    ac_rfl

/-- One word changes: the sum changes by the old word and the new one. -/
theorem xorSum_update (hi : i < k) : xorSum (Function.update f i v) k = xorSum f k ^^^ f i ^^^ v := by
  induction k with
  | zero => omega
  | succ k ih =>
    rw [xorSum_succ, xorSum_succ]
    by_cases hk : i = k
    · subst hk
      have hbelow : xorSum (Function.update f i v) i = xorSum f i :=
        xorSum_congr fun j hj => Function.update_of_ne (by omega) ..
      rw [hbelow, Function.update_self, xor_xor_cancel]
    · rw [ih (by omega), Function.update_of_ne (Ne.symm hk)]
      ac_rfl

/-- A sum that is 0 shows the change of any single word. -/
theorem xorSum_update_ne (h : xorSum f k = 0#n) (hi : i < k) (hv : v ≠ f i) :
    xorSum (Function.update f i v) k ≠ 0#n := by
  rw [xorSum_update hi, h, BitVec.zero_xor]
  exact fun h0 => hv (xor_eq_zero_iff.mp h0).symm

theorem foldl_xor (f : Nat → BitVec n) (a : BitVec n) (k : Nat) :
    ((List.range k).map f).foldl (· ^^^ ·) a = a ^^^ xorSum f k := by
  induction k with
  | zero => exact (BitVec.xor_zero ..).symm
  | succ k ih =>
    rw [List.range_succ, List.map_append, List.foldl_append, ih, xorSum_succ, ← BitVec.xor_assoc]
    rfl

end WM
