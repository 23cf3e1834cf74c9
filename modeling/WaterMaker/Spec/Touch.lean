import WaterMaker.Impl.Touch
import WaterMaker.Spec.Registers

/-!
# Accesses within the tables

`Ok`: an access stays within its buffer or table, and goes through no pointer that is NULL there. `InTables` says
which calls have only such accesses.
-/

namespace WM.Spec

open WM WM.Impl

def Ok : Touch → Prop
  | .cmd i => i < configRegMapOffset
  | .row i => 0 ≤ i ∧ i < confRegMapNum
  | .reg i => 0 ≤ i ∧ i < confRegMapNum ∧ isMapped i.toNat = true
  | .sts i => i < 50 ∧ stsMapped i = true

instance : DecidablePred Ok
  | .cmd _ => by unfold Ok; infer_instance
  | .row _ => by unfold Ok; infer_instance
  | .reg _ => by unfold Ok; infer_instance
  | .sts _ => by unfold Ok; infer_instance

/-- All accesses of a call are good. -/
def Clean (d : Dev) (op : TableOp) : Prop := ∀ t ∈ touches d op, Ok t

/-- No address of the range belongs to a pointer that is NULL. -/
def ReadsMapped (addr n : Nat) : Prop := ∀ a, addr ≤ a → a < addr + n →
  (configRegMapOffset ≤ a → a < configRegMapOffset + confRegMapNum → isMapped (a - configRegMapOffset) = true) ∧
  (statusRegMapOffset ≤ a → a < statusRegMapOffset + 50 → stsMapped (a - statusRegMapOffset) = true)

/-- A read is refused or meets no NULL, a single write is lawful and does not save the factory settings, and a block
is not written, since it is followed by a save. The loads and the save of all registers meet NULL always, except where
the defaults are loaded. -/
def InTables (d : Dev) : TableOp → Prop
  | .read addr n => addr + n ≤ cpadSRegHoldingNregs → ReadsMapped addr n
  | .single addr v => SingleLawful addr v ∧ ¬(addr = configRegMapOffset + factoryReset ∧ v = 0x69)
  | .block addr n => ¬Reaches addr n
  | .save sel => sel ≠ 0 ∧ sel ≠ 1
  | .userLoad => False
  | .factoryLoad => checksumU16 ((List.range (confRegMapNum + 1)).map (i2cEeBufRead .fact 0 d.ee).2.1) ≠ 0

end WM.Spec
