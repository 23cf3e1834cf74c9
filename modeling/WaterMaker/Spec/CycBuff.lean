import WaterMaker.Framework.Run
import WaterMaker.Framework.Wheel
import WaterMaker.Impl.CycBuff

/-!
# A log of the last blocks

What `cyc_buff.c` is for: blocks are added one after the other, and a query gives the last of them, the newest first,
as long as they are not more than `depth` blocks back (`LogLike`).
-/

namespace WM.Spec

open WM WM.Impl

/-- The page writes since `c` stay within `n` bytes from `a` on. -/
def WritesWithin (a n : Nat) (c c' : Chip) : Prop :=
  ∃ ws, c'.issued = c.issued ++ ws ∧
    ∀ w ∈ ws, ∀ k < w.burst.data.length, a ≤ w.burst.addr + k ∧ w.burst.addr + k < a + n

/-- No transfer fails. -/
def NoErrors (e : EeBus) : Prop := e.begins = [] ∧ e.chip.ends = []

/-- A log of `depth` blocks at `base` is set up, cleared, and the blocks `hist` are added. -/
def logged (blockSize depth base : Word) (s : CycState) (hist : List (Nat → Byte)) : CycState :=
  run addCycbuff (clearCycbuffLog (initCycbuff blockSize depth base s.1, s.2)).2 hist

/-- The state `s` is a log of `hist`, as far as it has room: nothing was written beside the log, and with the pointers
read again the number of blocks is right and every query gives the blocks from the `offset`-newest back. -/
structure LogLike (blockSize depth base : Word) (c : Chip) (hist : List (Nat → Byte)) (s : CycState) : Prop where
  region : WritesWithin base.toNat (6 + blockSize.toNat * depth.toNat) c s.2.chip
  count : (readPt s).1.ptInst.cnt.toNat = min hist.length depth.toNat
  query : ∀ (offset : Word) (cnt : Byte) (buf : Nat → Byte), offset.toNat ≤ min hist.length depth.toNat →
    (quiryCycbuff offset cnt buf (readPt s)).1.toNat = min cnt.toNat (min hist.length depth.toNat - offset.toNat) ∧
    (List.range (quiryCycbuff offset cnt buf (readPt s)).1.toNat).map
        (blockAt 0 blockSize.toNat (quiryCycbuff offset cnt buf (readPt s)).2.1) =
      ((hist.reverse.drop offset.toNat).take (quiryCycbuff offset cnt buf (readPt s)).1.toNat).map
        fun buffData => slice buffData 0 blockSize.toNat

end WM.Spec
