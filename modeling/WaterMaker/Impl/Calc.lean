import WaterMaker.Impl.Eeprom

/-!
# Looking up a temperature

`calc_ntc` of `daq.c` turns the reading of a thermistor into a temperature: `bin_search` of `calc.c` finds the segment
of `ntc_lookup_tab` that the reading is in, and the temperature is interpolated. Both are written out with the entries
that they read.
-/

namespace WM.Impl

/-- Reading half-words through a pointer, with the indices that are read. `none` is no result: a loop that does not
come to an end, or a division by 0. -/
abbrev Fetch (α : Type) := StateT (List Int) Option α

def fetch (a : Int → Word) (i : Int) : Fetch Word := fun reads => some (a i, reads ++ [i])

/-- The condition of a hit, whose parts are looked at one after the other. -/
def binSearchHit (a : Int → Word) (arraySize key : Word) (mid : Int) : Fetch Bool := do
  let here ← fetch a mid
  if here ≤ key then
    let next ← fetch a (mid + 1)
    return decide (key < next ∧ mid + 1 < arraySize.toNat)
  else return false

/-- The loop of `bin_search`, for as many rounds as there is fuel. -/
def binSearchLoop (a : Int → Word) (arraySize key : Word) : Nat → Int → Int → Fetch Int
  | 0, _, _ => fun _ => none
  | fuel + 1, low, high =>
    if low ≤ high then do
      let mid := (low + high).tdiv 2
      let hit ← binSearchHit a arraySize key mid
      if hit then return mid
      else
        let here ← fetch a mid
        if key < here then binSearchLoop a arraySize key fuel low (mid - 1)
        else binSearchLoop a arraySize key fuel (mid + 1) high
    else return -1

/-- `bin_search`; what it returns has 16 bits. -/
def binSearch (a : Int → Word) (arraySize key : Word) (fuel : Nat) : Fetch Int := do
  let first ← fetch a 0
  if key < first then return -1
  else
    let last ← fetch a arraySize.toNat
    if last < key then return -1
    else
      let mid ← binSearchLoop a arraySize key fuel 0 (arraySize.toNat - 1)
      return (BitVec.ofInt 16 mid).toInt

/-- `ABNORMAL_VALUE`. -/
def abnormalValue : Int := 0x7FFF

def ntcLookupTab : List Nat :=
  [193, 204, 215, 227, 239, 252, 265, 279, 294, 309, 324, 340, 357, 375, 393, 411, 431, 451, 471,
   492, 514, 537, 560, 584, 609, 635, 661, 687, 715, 743, 772, 801, 831, 862, 893, 925, 957, 991,
   1024, 1058, 1093, 1128, 1164, 1200, 1236, 1273, 1310, 1348, 1386, 1424, 1463, 1501, 1540,
   1579, 1618, 1657, 1697, 1736, 1775, 1815, 1854, 1893, 1932, 1971, 2010, 2048, 2087, 2125,
   2163, 2200, 2238, 2274, 2311, 2347, 2383, 2418, 2453, 2488, 2522, 2556, 2589, 2622, 2654,
   2685, 2717, 2747, 2777, 2807, 2836, 2865, 2893, 2921, 2948, 2974, 3000, 3026, 3051, 3075,
   3099, 3123, 3146, 3168, 3190, 3212, 3233, 3253, 3273, 3293, 3312, 3331, 3349, 3367, 3384,
   3401, 3418, 3434, 3450, 3465, 3481, 3495, 3510, 3524, 3537, 3551, 3564, 3576, 3588, 3600,
   3612, 3624, 3635, 3646, 3656, 3667, 3677, 3686, 3696, 3705, 3714, 3723, 3732, 3740, 3748,
   3756, 3764, 3772, 3779, 3786, 3793, 3800, 3807, 3813, 3820, 3826, 3832, 3838, 3844, 3849,
   3855, 3860, 3865, 3870, 3875, 3880, 3884, 3889, 3893, 3898, 3902, 3906, 3910, 3914, 3918,
   3922, 3925, 3929, 3932, 3936, 3939, 3942, 3945, 3949, 3952, 3954, 3957, 3960, 3963, 3966,
   3968, 3971, 3973]

/-- `ntc_lookup_tab` with what lies beside it. -/
def ntcMem (beside : Int → Word) (i : Int) : Word :=
  if 0 ≤ i ∧ i < 191 then BitVec.ofNat 16 (ntcLookupTab.getD i.toNat 0) else beside i

/-- `calc_ntc`, on the memory that holds the table. -/
def calcNtc (tab : Int → Word) (adcValue adjust : Word) (fuel : Nat) : Fetch Int := do
  let adcValue : Word := 4096 - adcValue
  let index ← binSearch tab 190 adcValue fuel
  if index < 0 then return abnormalValue
  else
    let below ← fetch tab (index - 1)
    let here ← fetch tab index
    let below' ← fetch tab (index - 1)
    let width : Int := here.toNat - below'.toNat
    if width = 0 then fun _ => none
    else
      let offset : Word := BitVec.ofInt 16 (((adcValue.toNat : Int) - below.toNat) * 10 |>.tdiv width)
      return (BitVec.ofInt 16 ((index - 39) * 10 + offset.toNat + adjust.toInt - 15)).toInt

end WM.Impl
