import WaterMaker.Impl.Ble

/-!
# The image of the registers

What a peer is to get when it connects: the frames up to the first for the lamps hold every block of registers once
(`FullImage`).
-/

namespace WM.Spec

open WM WM.Impl

/-- The frame for a block of registers. -/
def blockFrame (d : Dev) (i : Fin 30) : List Byte :=
  let bytes := [0xFF, 0xA5, cmdReg, 14, BitVec.ofNat 8 (blockAddress i / 256), BitVec.ofNat 8 (blockAddress i % 256)] ++
    readRegs d (blockAddress i) 6
  bytes ++ [bytes.foldl (· + ·) 0]

/-- A frame for the lamps. -/
def IsLed (frame : List Byte) : Prop := frame.getD 2 0 = cmdLed

instance (frame : List Byte) : Decidable (IsLed frame) := inferInstanceAs (Decidable (_ = _))

/-- The frames before the first for the lamps. -/
def untilLed (frames : List (List Byte)) : List (List Byte) := frames.takeWhile fun f => ¬IsLed f

/-- The address in a frame for registers. -/
def frameAddress (frame : List Byte) : Nat := 256 * (frame.getD 4 0).toNat + (frame.getD 5 0).toNat

/-- Every block of registers is in exactly one of the frames, as it is. -/
def FullImage (d : Dev) (frames : List (List Byte)) : Prop :=
  ∀ i : Fin 30, frames.filter (fun f => frameAddress f = blockAddress i) = [blockFrame d i]

/-- The keys do not end the connection. -/
def StaysOn (keys : Option KeyBytes) : Prop := ∀ k ∈ keys, k.ble.getLsbD 0 = true

instance : DecidablePred StaysOn := fun _ => inferInstanceAs (Decidable (∀ k ∈ _, _))

/-- The row of a block as `getRegData` writes it. -/
def freshRow (d : Dev) (i : Fin 30) : BleRow :=
  ⟨BitVec.ofNat 8 (blockAddress i / 256), BitVec.ofNat 8 (blockAddress i % 256), readRegs d (blockAddress i) 6⟩

end WM.Spec
