import WaterMaker.Framework.Odometer
import WaterMaker.Impl.Access

/-!
# Usage counters

The machine counts the seconds of its outputs and of the air filter, and of the filter elements either the seconds of
dispensing or the volume that was dispensed; the total is in millilitres, litres and cubic metres. `gain` is what a
second adds to a counter. `SecondCounted` is a second of all counters, without a bound on them: every one takes its
gain with the carries, and the sums fit the 16-bit words. From it the worth of each counter grows by its gain
(`SecondCounted.usage`).
-/

namespace WM.Spec

open WM.Impl WM.Odometer

def digits (r : Runtime) : List Nat := [r.low, r.high]

/-- Millilitres, litres and cubic metres. -/
def cumulative (s : Sys) : List Nat := [s.sts.cumulative2, s.sts.cumulative0, s.sts.cumulative1]

/-- A counter is of seconds and hours; the filter elements', from 33 on, are of millilitres and litres when their
accounting is by volume. -/
def bases (s : Sys) (i : Nat) : List Nat := if 33 ≤ i ∧ s.cfg.filterElementType = 0 then [1000] else [3600]

/-- The dispense that waits to be taken. -/
def pendingWater (s : Sys) : Nat := if s.out.ok = .out then s.sts.lastWater else 0

/-- What a filter element gains. -/
def elementGain (s : Sys) : Nat :=
  if s.cfg.filterElementType ≠ 0 then (s.remap .outWater).toNat else pendingWater s

/-- What counter `i` gains in a second: the outputs, the air filter and the filter elements. -/
def gain (s : Sys) (i : Nat) : Nat :=
  if i < 32 then (s.sts.dout.get i).toNat
  else if i = 32 then (s.sts.dout.get Do.fan.bpos).toNat
  else elementGain s

/-- What counter `i` is worth, in seconds or millilitres. -/
def usage (s : Sys) (i : Nat) : Nat := worth (bases s i) (digits (s.sts.runtime.getD i ⟨0, 0⟩))

/-- Every digit of the 39 counters and of the total is carried. -/
structure Normal (s : Sys) : Prop where
  table : s.sts.runtime.length = 39
  counters : ∀ i r, s.sts.runtime[i]? = some r → Carried (bases s i) (digits r)
  cumulative : Carried [1000, 1000] (cumulative s)

/-- No top digit is within 100 of its end. -/
structure Spare (s : Sys) : Prop where
  counters : ∀ (i : Nat) (r : Runtime), s.sts.runtime[i]? = some r → r.high + 100 ≤ 65535
  cumulative : s.sts.cumulative1 + 100 ≤ 65535

/-- A second of all counters. -/
structure SecondCounted (s s' : Sys) : Prop where
  mode : s'.cfg.filterElementType = s.cfg.filterElementType
  table : s'.sts.runtime.length = s.sts.runtime.length
  fits : ∀ i r, s.sts.runtime[i]? = some r → Fits 65536 (bases s i) (gain s i) (digits r)
  counters : ∀ i r, s.sts.runtime[i]? = some r →
    ∃ r', s'.sts.runtime[i]? = some r' ∧ digits r' = add (bases s i) (gain s i) (digits r)
  fitsTotal : Fits 65536 [1000, 1000] (pendingWater s) (cumulative s)
  total : cumulative s' = add [1000, 1000] (pendingWater s) (cumulative s)

namespace SecondCounted

variable {s s' : Sys}

theorem bases (h : SecondCounted s s') (i : Nat) : bases s' i = bases s i := by
  unfold Spec.bases
  rw [h.mode]

theorem length_bases (s : Sys) (i : Nat) : (Spec.bases s i).length = 1 := by
  unfold Spec.bases
  split <;> rfl

theorem usage (h : SecondCounted s s') {i : Nat} (hi : i < s.sts.runtime.length) :
    usage s' i = usage s i + gain s i := by
  obtain ⟨r', hr', hdigits⟩ := h.counters i s.sts.runtime[i] (List.getElem?_eq_getElem hi)
  unfold Spec.usage
  rw [h.bases, List.getD_eq_getElem?_getD, List.getD_eq_getElem?_getD, hr', List.getElem?_eq_getElem hi,
    Option.getD_some, Option.getD_some, hdigits, worth_add _ _ _ (by rw [length_bases]; rfl)]

theorem worth_total (h : SecondCounted s s') :
    worth [1000, 1000] (cumulative s') = worth [1000, 1000] (cumulative s) + pendingWater s := by
  rw [h.total, worth_add _ _ _ rfl]

/-- The counters are carried again. -/
theorem normal (h : SecondCounted s s') (hn : Normal s) : Normal s' where
  table := h.table.trans hn.table
  counters i r' hr' := by
    have hi : i < s.sts.runtime.length := by
      rw [← h.table]
      exact (List.getElem?_eq_some_iff.mp hr').1
    obtain ⟨r, hr, hdigits⟩ := h.counters i s.sts.runtime[i] (List.getElem?_eq_getElem hi)
    obtain rfl : r = r' := Option.some.inj (hr.symm.trans hr')
    rw [hdigits, h.bases]
    refine carried_add (fun b hb => ?_) _ _
    unfold Spec.bases at hb
    split at hb <;> simp only [List.mem_singleton] at hb <;> omega
  cumulative := by
    rw [h.total]
    exact carried_add (by simp) _ _

end SecondCounted

end WM.Spec
