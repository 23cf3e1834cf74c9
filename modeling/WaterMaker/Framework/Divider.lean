import Mathlib.Data.Nat.ModEq
import Mathlib.Tactic.Common

/-!
# Dividing calls

A counter of calls that starts again at `p` lets those calls pass at which it is a multiple of `d` (`Passes`). The calls
that pass are `d` apart, except where the counter starts again: `close_iff` finds every pair of calls that is closer.
There is none if `d` divides `p`.
-/

namespace WM.Divider

/-- Call `n`, counted from 1, passes. -/
def Passes (p d n : Nat) : Prop := n % p % d = 0

instance (p d n : Nat) : Decidable (Passes p d n) := inferInstanceAs (Decidable (_ = _))

/-- The counter is a multiple of `d` below `d`. -/
theorem eq_zero_of_lt {d n : Nat} (h : n % d = 0) (hn : n < d) : n = 0 := by
  rwa [Nat.mod_eq_of_lt hn] at h

variable {p d m k : Nat}

/-- Two calls that pass are closer than `d` only if the counter starts again at the second. -/
theorem close_iff (hp : d ≤ p) (hk : 0 < k) (hkd : k < d) :
    Passes p d m ∧ Passes p d (m + k) ↔ k = p % d ∧ p ∣ m + k := by
  have hpos : 0 < p := by omega
  have hm := Nat.mod_lt m hpos
  have hadd : (m + k) % p = if m % p + k < p then m % p + k else m % p + k - p := by
    rw [Nat.add_mod, Nat.mod_eq_of_lt (show k < p by omega)]
    split
    · rename_i hlt
      exact Nat.mod_eq_of_lt hlt
    · rename_i hge
      rw [Nat.mod_eq_sub_mod (Nat.le_of_not_lt hge), Nat.mod_eq_of_lt (by omega)]
  unfold Passes
  rw [Nat.dvd_iff_mod_eq_zero]
  refine ⟨fun ⟨hfirst, hsecond⟩ => ?_, fun ⟨hrem, hsecond⟩ => ⟨?_, by rw [hsecond, Nat.zero_mod]⟩⟩
  · rw [hadd] at hsecond ⊢
    split at hsecond
    · -- without a new start the second is `k` past a multiple of `d`
      rw [Nat.add_mod, hfirst, Nat.zero_add, Nat.mod_mod] at hsecond
      exact absurd (eq_zero_of_lt hsecond hkd) (by omega)
    · rename_i hge
      have hzero := eq_zero_of_lt hsecond (by omega)
      refine ⟨?_, by rwa [if_neg hge]⟩
      rw [show p = k + m % p by omega, Nat.add_mod, hfirst, Nat.add_zero, Nat.mod_mod, Nat.mod_eq_of_lt hkd]
  · rw [hadd] at hsecond
    split at hsecond
    · omega
    · rw [show m % p = p - p % d by omega]
      exact Nat.mod_eq_zero_of_dvd (Nat.dvd_sub_mod p)

end WM.Divider
