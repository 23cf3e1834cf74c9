import WaterMaker.Framework.Bits
import Mathlib.Logic.Function.Basic

/-!
# Digital inputs

`dio_bsp.c`: a timer puts the levels of the input pins into a ring of samples (`stimer_di_timeout`), the input thread
makes a word of them (`di_reg_update`), and the acquisition thread gives it the right polarity, in place, and publishes
it (`di_sts_update`).
-/

namespace WM.Impl

/-- `DI_MAX_CNT`. -/
abbrev diMaxCnt : Nat := 16

/-- `DI_BUF_DEPTH`. -/
abbrev diBufDepth : Nat := 50

/-- `DIN_WORD2`. -/
abbrev dinWord2 : Nat := 16

/-- The part of `dev_mask` for the inputs. -/
structure DinConfig where
  din : Words
  polarity : Words
  pusl : BitVec 16
  deriving DecidableEq, Repr

/-- `dio_dev_inst.din`, the sample count of the timer, and what is published of the inputs. -/
structure DinDev where
  bitmap : Words
  regArray0 : Nat → BitVec 16
  regArray1 : Nat → BitVec 16
  count : Nat
  /-- `status.din_bitmap` -/
  dinBitmap : Words
  /-- `ComSta.u16Din_bitmap[0]` -/
  comDin : BitVec 16

/-- `di_read`: the pins are shifted in, the last one first. -/
def diRead (pins : Nat → Bool) : BitVec 32 :=
  (List.range diMaxCnt).foldl (fun r i =>
    let r := r ||| BitVec.ofNat 32 (pins (diMaxCnt - 1 - i)).toNat
    if i < diMaxCnt - 1 then r <<< 1 else r) 0

/-- `stimer_di_timeout`. -/
def stimerDiTimeout (pins : Nat → Bool) (d : DinDev) : DinDev :=
  let count := if d.count ≥ diBufDepth then d.count % diBufDepth else d.count
  let buf := diRead pins
  { d with
    regArray0 := Function.update d.regArray0 count (buf.setWidth 16)
    regArray1 := Function.update d.regArray1 count ((buf >>> 16).setWidth 16)
    count := count + 1 }

/-- `di_reg[i]`: the inner loop adds up the samples of channel `i`. -/
def diReg (d : DinDev) (i : Nat) : Nat :=
  (List.range diBufDepth).foldl (fun n j =>
    if i < dinWord2 then n + ((d.regArray0 j >>> i) &&& 1).toNat
    else n + ((d.regArray1 j >>> (i - dinWord2)) &&& 1).toNat) 0

/-- `di_reg_update`. The channels of `din_pusl` stay 0. -/
def diRegUpdate (c : DinConfig) (d : DinDev) : DinDev :=
  let data := (List.range diMaxCnt).foldl (fun (w : Words) i =>
    if i < dinWord2 ∧ c.pusl.getLsbD i then w
    else w.put i (decide (diReg d i < diBufDepth - diBufDepth / 4))) .zero
  { d with bitmap := data }

/-- `di_sts_update`. -/
def diStsUpdate (c : DinConfig) (d : DinDev) : DinDev :=
  let bitmap : Words := ⟨~~~(d.bitmap.w0 ^^^ c.polarity.w0), ~~~(d.bitmap.w1 ^^^ c.polarity.w1)⟩
  { d with
    bitmap := bitmap
    dinBitmap := ⟨c.din.w0 &&& bitmap.w0, (d.dinBitmap.w1 &&& 0xFF) ||| ((c.din.w1 &&& bitmap.w1) <<< 8)⟩
    comDin := c.din.w0 &&& bitmap.w0 }

end WM.Impl
