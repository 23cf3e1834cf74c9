import WaterMaker.Impl.RuntimeStore

/-!
# The filters' counters

`FiltersReset` is what the end of a storage is for: the counters of the first four filter elements are 0 and every other
one is as it was, in the table (`counter`) and in its copy in the EEPROM (`copied`).
-/

namespace WM.Spec

open WM.Impl

/-- Counter `i` of the table. -/
def counter (s : Sys) (i : Nat) : Runtime := s.sts.runtime.getD i ⟨0, 0⟩

/-- Word `i` of the copy. -/
def copiedWord (f : Nat → Byte) (i : Nat) : Nat :=
  (word (f (stsRegEe1Addr + (2 * i + 1))) (f (stsRegEe1Addr + 2 * i))).toNat

/-- Counter `i` of the copy. -/
def copied (f : Nat → Byte) (i : Nat) : Runtime := ⟨copiedWord f i, copiedWord f (doMaxCnt + i)⟩

/-- The filter elements 0 to 3. -/
def FirstElement (i : Nat) : Prop := 33 ≤ i ∧ i ≤ 36

instance (i : Nat) : Decidable (FirstElement i) := inferInstanceAs (Decidable (_ ∧ _))

/-- Just the counters of the elements are reset. -/
structure ResetsElements (before after : Nat → Runtime) : Prop where
  reset : ∀ i < doMaxCnt, FirstElement i → after i = ⟨0, 0⟩
  kept : ∀ i < doMaxCnt, ¬FirstElement i → after i = before i

def FiltersReset (b b' : Machine) : Prop :=
  ResetsElements (counter b.sys) (counter b'.sys) ∧ ResetsElements (copied b.chip.mem) (copied b'.chip.mem)

/-- The table is one of 16-bit words. -/
structure WordTable (s : Sys) : Prop where
  length : s.sts.runtime.length = doMaxCnt
  words : ∀ r ∈ s.sts.runtime, r.low < 65536 ∧ r.high < 65536

end WM.Spec
