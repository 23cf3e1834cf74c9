import Mathlib.Data.Nat.Bitwise
import Mathlib.Tactic.Common

/-!
# Bits of machine words

Setting and clearing one bit of a word (`putBit`), and a bitmap of 32 channels kept in two 16-bit
words (`Words`), as firmware keeps its digital outputs. `Words.get_put` is the read-after-write rule
and `Words.ext_get` says that the 32 bits determine the pair. `remapBits` moves bits by a table of pairs;
`getLsbD_remapBits` reads the result where the table is an involution of the channels below `m`.
-/

namespace WM

/-- Bit `i` of `w` set, `w |= 1 << i`, or cleared, `w &= ~(1 << i)`. -/
def putBit {n : Nat} (w : BitVec n) (i : Nat) (on : Bool) : BitVec n :=
  if on then w ||| (1#n <<< i) else w &&& ~~~(1#n <<< i)

theorem getLsbD_one_shiftLeft {n i : Nat} (hi : i < n) (j : Nat) :
    (1#n <<< i).getLsbD j = decide (j = i) := by
  rw [BitVec.getLsbD_shiftLeft, BitVec.getLsbD_one]
  by_cases h : j = i
  · subst h
    simp [hi, Nat.zero_lt_of_lt hi]
  · simp only [h, decide_false, Bool.and_eq_false_iff, Bool.not_eq_false', decide_eq_true_eq,
      decide_eq_false_iff_not]
    omega

theorem getLsbD_putBit {n i : Nat} (w : BitVec n) (hi : i < n) (on : Bool) (j : Nat) :
    (putBit w i on).getLsbD j = if j = i then on else w.getLsbD j := by
  by_cases hj : j < n
  · cases on <;> by_cases h : j = i <;>
      simp only [putBit, if_true, Bool.false_eq_true, if_false, BitVec.getLsbD_or,
        BitVec.getLsbD_and, BitVec.getLsbD_not, getLsbD_one_shiftLeft hi, h, hj, decide_true,
        decide_false, Bool.or_true, Bool.or_false, Bool.not_true, Bool.not_false, Bool.and_true,
        Bool.and_false]
  · -- past the top of the word both sides read 0
    have hne : j ≠ i := by omega
    simp only [hne, if_false, BitVec.getLsbD_of_ge _ _ (Nat.le_of_not_lt hj)]

/-! ## Moving bits by a table -/

section remap

variable {n : Nat}

/-- Bit `e.2` is set for every row `e` of the table whose bit `e.1` is set in `w`. -/
def remapBits (table : List (Nat × Nat)) (w : BitVec n) : BitVec n :=
  table.foldl (fun r e => if w.getLsbD e.1 then putBit r e.2 true else r) 0

theorem getLsbD_foldl_remap {table : List (Nat × Nat)} (h : ∀ e ∈ table, e.2 < n) (w r : BitVec n) (i : Nat) :
    (table.foldl (fun r e => if w.getLsbD e.1 then putBit r e.2 true else r) r).getLsbD i =
      (r.getLsbD i || table.any fun e => e.2 == i && w.getLsbD e.1) := by
  induction table generalizing r with
  | nil => simp
  | cons e table ih =>
    rw [List.foldl_cons, ih fun e' he' => h e' (List.mem_cons_of_mem _ he'), List.any_cons, ← Bool.or_assoc]
    congr 1
    split
    · rename_i hb
      rw [getLsbD_putBit _ (h e (List.mem_cons_self ..)), hb, Bool.and_true]
      by_cases hi : i = e.2
      · simp [hi]
      · simp [hi, Ne.symm hi]
    · rename_i hb
      simp [hb]

/-- A table that pairs the channels below `m` with each other. -/
theorem getLsbD_remapBits {m : Nat} (hm : m ≤ n) {σ : Nat → Nat} (hσ : ∀ i, σ (σ i) = i) (hlt : ∀ i < m, σ i < m)
    (w : BitVec n) (i : Nat) :
    (remapBits ((List.range m).map fun j => (j, σ j)) w).getLsbD i = (decide (i < m) && w.getLsbD (σ i)) := by
  rw [remapBits, getLsbD_foldl_remap, Bool.eq_iff_iff]
  · simp only [BitVec.ofNat_eq_ofNat, BitVec.getLsbD_zero, Bool.false_or, List.any_map, List.any_eq_true,
      List.mem_range, Function.comp, Bool.and_eq_true, beq_iff_eq, decide_eq_true_eq]
    constructor
    · rintro ⟨j, hj, rfl, hb⟩
      rw [hσ]
      exact ⟨hlt j hj, hb⟩
    · rintro ⟨hi, hb⟩
      exact ⟨σ i, hlt i hi, hσ i, hb⟩
  · intro e he
    obtain ⟨j, hj, rfl⟩ := List.mem_map.mp he
    exact (hlt j (List.mem_range.mp hj)).trans_le hm

end remap

/-- The channels 0 to 15 in `w0` and 16 to 31 in `w1`. -/
@[ext] structure Words where
  w0 : BitVec 16
  w1 : BitVec 16
  deriving DecidableEq, Repr

namespace Words

def zero : Words := ⟨0, 0⟩

/-- Channel `i`: bit `i & 0x0f` of word `i >> 4`. -/
def get (w : Words) (i : Nat) : Bool :=
  if i < 16 then w.w0.getLsbD i else w.w1.getLsbD (i - 16)

/-- Channel `i` set or cleared. -/
def put (w : Words) (i : Nat) (on : Bool) : Words :=
  if i < 16 then { w with w0 := putBit w.w0 i on } else { w with w1 := putBit w.w1 (i - 16) on }

/-- The word-by-word combination of two pairs. -/
def map2 (f : BitVec 16 → BitVec 16 → BitVec 16) (a b : Words) : Words :=
  ⟨f a.w0 b.w0, f a.w1 b.w1⟩

@[simp] theorem get_zero (i : Nat) : zero.get i = false := by
  simp [zero, get]

theorem get_put (w : Words) {i j : Nat} (hi : i < 32) (on : Bool) :
    (w.put i on).get j = if j = i then on else w.get j := by
  by_cases hi' : i < 16 <;> by_cases hj' : j < 16
  · simp only [get, put, hi', hj', if_true, getLsbD_putBit _ hi']
  · simp only [get, put, hi', hj', if_true, if_false, show j ≠ i by omega]
  · simp only [get, put, hi', hj', if_true, if_false, show j ≠ i by omega]
  · simp only [get, put, hi', hj', if_false, getLsbD_putBit _ (show i - 16 < 16 by omega),
      show (j - 16 = i - 16) = (j = i) by simp only [eq_iff_iff]; omega]

theorem get_map2 {f : BitVec 16 → BitVec 16 → BitVec 16} {g : Bool → Bool → Bool}
    (hf : ∀ x y i, i < 16 → (f x y).getLsbD i = g (x.getLsbD i) (y.getLsbD i)) (a b : Words)
    {i : Nat} (hi : i < 32) : (map2 f a b).get i = g (a.get i) (b.get i) := by
  by_cases h : i < 16
  · simp only [get, map2, h, if_true, hf _ _ _ h]
  · simp only [get, map2, h, if_false, hf _ _ _ (show i - 16 < 16 by omega)]

/-- The 32 channels determine the two words. -/
theorem ext_get {a b : Words} (h : ∀ i < 32, a.get i = b.get i) : a = b := by
  ext i hi
  · have := h i (by omega)
    simpa [get, hi, BitVec.getLsbD_eq_getElem hi] using this
  · have := h (i + 16) (by omega)
    simpa [get, show ¬ i + 16 < 16 by omega, BitVec.getLsbD_eq_getElem hi] using this

theorem get_and (a b : Words) {i : Nat} (hi : i < 32) : (map2 (· &&& ·) a b).get i = (a.get i && b.get i) :=
  get_map2 (fun _ _ _ _ => BitVec.getLsbD_and) a b hi

/-- Two bitmaps are the same under a mask when they agree on its channels. -/
theorem and_eq_iff {a b m : Words} :
    map2 (· &&& ·) a m = map2 (· &&& ·) b m ↔ ∀ i < 32, m.get i = true → a.get i = b.get i := by
  constructor
  · intro h i hi hm
    have hbit := congrArg (fun w => w.get i) h
    simpa only [get_and _ _ hi, hm, Bool.and_true] using hbit
  · intro h
    refine ext_get fun i hi => ?_
    rw [get_and _ _ hi, get_and _ _ hi]
    cases hm : m.get i with
    | false => rw [Bool.and_false, Bool.and_false]
    | true => rw [h i hi hm]

end Words

end WM
