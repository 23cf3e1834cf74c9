import WaterMaker.Impl.Clock

/-!
# Setting the clock

The two halves of a time, the writes that send it, and how often they set the clock.
-/

namespace WM.Spec

open WM WM.Impl

/-- The flag of a half. -/
def halfBit : Half → Nat
  | .low => 1
  | .high => 2

def otherHalf : Half → Half
  | .low => .high
  | .high => .low

def halfOf (t : BitVec 32) : Half → Word
  | .low => t.extractLsb' 0 16
  | .high => t.extractLsb' 16 16

/-- The half `first` of the time, the other half, and what the background thread does meanwhile and after. -/
def settime (first : Half) (t : BitVec 32) (between after : List Tick) : List ClockEvent :=
  .write first (halfOf t first) :: between.map .tick ++
    .write (otherHalf first) (halfOf t (otherHalf first)) :: after.map .tick

/-- How often the clock is set in the calls `bs` if both flags are set and the delay is `k`. -/
def fires : Nat → List Tick → Nat
  | _, [] => 0
  | k, .cooldown :: bs => fires (k - 1) bs
  | k, .systime :: bs => if k = 0 then 0 else fires k bs + 1

/-- Seconds of the background thread. -/
def ticks (k : Nat) : List Tick := (List.replicate k [.cooldown, .systime]).flatten

end WM.Spec
