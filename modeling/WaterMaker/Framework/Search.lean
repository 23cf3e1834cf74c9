import Mathlib.Order.Interval.Set.Defs
import Mathlib.Order.Monotone.Defs
import Mathlib.Data.Nat.Find
import Mathlib.Order.Lattice
import Mathlib.Tactic.Common

/-!
# Segments of a rising sequence

A sequence that rises on its first entries cuts the keys into segments: key and index are on the same one if the key is
between the entry and the next (`Segment`). A key from the first entry on and below a later one is on a segment before
that (`exists_segment`). Comparing the key with an entry tells on which side of the entry its segment is
(`Segment.lt_of_lt`, `Segment.le_of_le`), which is what a search by halves goes by.
-/

namespace WM

variable {α : Type*} [LinearOrder α] {f : Nat → α} {key : α} {i m n : Nat}

/-- The key is between entry `i` and the next. -/
def Segment (f : Nat → α) (key : α) (i : Nat) : Prop := f i ≤ key ∧ key < f (i + 1)

instance (f : Nat → α) (key : α) (i : Nat) : Decidable (Segment f key i) := inferInstanceAs (Decidable (_ ∧ _))

theorem exists_segment (h0 : f 0 ≤ key) (hn : key < f n) : ∃ i < n, Segment f key i := by
  classical
  have hex : ∃ j, key < f j := ⟨n, hn⟩
  obtain ⟨i, hi⟩ : ∃ i, Nat.find hex = i + 1 := by
    refine Nat.exists_eq_add_one.mpr (Nat.pos_of_ne_zero fun hzero => ?_)
    have hlt := Nat.find_spec hex
    rw [hzero] at hlt
    exact not_lt_of_ge h0 hlt
  have hlt := Nat.find_spec hex
  have hle := Nat.find_min' hex hn
  have hnot := Nat.find_min hex (show i < Nat.find hex by omega)
  rw [hi] at hlt hle
  exact ⟨i, hle, not_lt.mp hnot, hlt⟩

section rising

variable (hf : StrictMonoOn f (Set.Iic n))
include hf

/-- Below an entry that is above the key. -/
theorem Segment.lt_of_lt (h : Segment f key i) (hi : i ≤ n) (hm : m ≤ n) (hkey : key < f m) : i < m := by
  by_contra hle
  exact not_lt_of_ge (hf.monotoneOn hm hi (not_lt.mp hle)) (h.1.trans_lt hkey)

/-- Not below an entry that is not above the key. -/
theorem Segment.le_of_le (h : Segment f key i) (hi : i + 1 ≤ n) (hm : m ≤ n) (hkey : f m ≤ key) : m ≤ i := by
  by_contra hlt
  exact not_lt_of_ge (hf.monotoneOn hi hm (not_le.mp hlt)) (hkey.trans_lt h.2)

end rising

end WM
