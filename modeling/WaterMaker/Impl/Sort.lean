import WaterMaker.Impl.Eeprom

/-!
# Sorting samples

`quick` of `calc.c` sorts a part of an array of half-words in place, and `ADCValProcess` of `daq.c` takes from twenty
samples of a channel the mean of those that are left without the two least and the two greatest. An access beside the
array has no result, nor has a loop for which the fuel does not suffice.
-/

namespace WM.Impl

/-- An array. The pointers into it are `int16_t`, which may lie before its start. -/
structure Cells where
  get : Int → Word
  size : Nat

namespace Cells

def read (c : Cells) (x : Int) : Option Word := if 0 ≤ x ∧ x < c.size then some (c.get x) else none

def write (c : Cells) (x : Int) (v : Word) : Option Cells :=
  if 0 ≤ x ∧ x < c.size then some { c with get := Function.update c.get x v } else none

end Cells

/-- `while (a[m] < k && m < j) m++`. -/
def scanUp (c : Cells) (k : Word) (j : Int) : Nat → Int → Option Int
  | 0, _ => none
  | fuel + 1, m => do if (← c.read m) < k ∧ m < j then scanUp c k j fuel (m + 1) else return m

/-- `while (a[n] > k && n > i) n--`. -/
def scanDown (c : Cells) (k : Word) (i : Int) : Nat → Int → Option Int
  | 0, _ => none
  | fuel + 1, n => do if (← c.read n) > k ∧ n > i then scanDown c k i fuel (n - 1) else return n

/-- The cells at `m` and `n` change places. -/
def swapCells (c : Cells) (m n : Int) : Option Cells := do
  let temp ← c.read m
  let c ← c.write m (← c.read n)
  c.write n temp

/-- The loop of `quick`, with the places where it leaves `m` and `n`. -/
def divide (k : Word) (i j : Int) : Nat → Cells → Int → Int → Option (Cells × Int × Int)
  | 0, _, _, _ => none
  | fuel + 1, c, m, n => do
    let m ← scanUp c k j (fuel + 1) m
    let n ← scanDown c k i (fuel + 1) n
    if m ≤ n then
      let c ← swapCells c m n
      if m + 1 ≤ n - 1 then divide k i j fuel c (m + 1) (n - 1) else return (c, m + 1, n - 1)
    else return (c, m, n)

/-- `quick`. -/
def quick : Nat → Cells → Int → Int → Option Cells
  | 0, _, _, _ => none
  | fuel + 1, c, i, j => do
    let k ← c.read ((i + j).tdiv 2)
    let (c, m, n) ← divide k i j (fuel + 1) c i j
    let c ← (if m < j then quick fuel c m j else some c)
    if n > i then quick fuel c i n else return c

/-- `AI_MAX_CNT`. -/
def aiMaxCnt : Nat := 5

/-- `MAX_ADBUFEVERY`. -/
def maxAdbufevery : Nat := 20

/-- The samples of a channel, in `ADC_Tmp`. -/
def adcTmp (ptrADCbuf : Nat → Word) (index : Nat) : Cells :=
  ⟨fun i => ptrADCbuf (i.toNat * aiMaxCnt + index), maxAdbufevery⟩

/-- `ADCValProcess`: what goes into `ptrADCval[index]`. The sum has 16 bits. -/
def adcValProcess (ptrADCbuf : Nat → Word) (index : Nat) : Option Word := do
  let c ← quick maxAdbufevery (adcTmp ptrADCbuf index) 0 19
  return ((List.range 16).foldl (fun sum i => sum + c.get ((i + 2 : Nat) : Int)) 0) >>> 4

end WM.Impl
