import WaterMaker.Framework.Run
import WaterMaker.Impl.Din

/-!
# What is published of the digital inputs

The samples in the ring when `di_reg_update` last ran say what is to be published until it runs again (`Published`),
however the timer, the input thread and the acquisition thread take turns.
-/

namespace WM.Spec

open WM WM.Impl

/-- Bit `i` of the filtered word: set when less than 75 percent of the samples are high, and 0 for a pulse channel. -/
def filteredBit (c : DinConfig) (ring : Nat → BitVec 16) (i : Nat) : Bool :=
  !c.pusl.getLsbD i && decide (4 * (List.range diBufDepth).countP (fun j => (ring j).getLsbD i) < 3 * diBufDepth)

/-- The published word is the filtered one with its polarity, under the mask. -/
def Published (c : DinConfig) (ring : Nat → BitVec 16) (w : BitVec 16) : Prop :=
  ∀ i < 16, w.getLsbD i = (c.din.w0.getLsbD i && !(filteredBit c ring i ^^ c.polarity.w0.getLsbD i))

instance (c : DinConfig) (ring : Nat → BitVec 16) (w : BitVec 16) : Decidable (Published c ring w) := by
  unfold Published; infer_instance

inductive DinEvent
  | sample (pins : Nat → Bool)
  | reg
  | sts

/-- The inputs, and the ring as it was when `di_reg_update` last ran. -/
structure DinWatch where
  dev : DinDev
  ring : Nat → BitVec 16

def dinStep (c : DinConfig) (x : DinWatch) : DinEvent → DinWatch
  | .sample pins => { x with dev := stimerDiTimeout pins x.dev }
  | .reg => ⟨diRegUpdate c x.dev, x.dev.regArray0⟩
  | .sts => { x with dev := diStsUpdate c x.dev }

/-- After a `di_sts_update` what is published is right. -/
def PublishesRight (c : DinConfig) (x : DinWatch) : DinEvent → Prop
  | .sts => Published c x.ring (dinStep c x .sts).dev.comDin
  | _ => True

/-- Between two runs of `di_sts_update` there is one of `di_reg_update`; `fresh` says that there is one since the last
of them. -/
def Renewed (fresh : Bool) : List DinEvent → Prop
  | [] => True
  | .sample _ :: es => Renewed fresh es
  | .reg :: es => Renewed true es
  | .sts :: es => fresh = true ∧ Renewed false es

end WM.Spec
