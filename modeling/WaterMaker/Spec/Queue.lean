import WaterMaker.Framework.Answers
import WaterMaker.Impl.Fifo

/-!
# Bounded queues

A queue of at most `depth` blocks, as a list with the oldest first, and what its callers see of it (`queueStep`).
-/

namespace WM.Spec

open WM WM.Impl

variable {α β : Type}

/-- A push fails if the queue is full, and then changes nothing; a pop takes the oldest block. -/
def queueStep (depth : Nat) (q : List β) : FifoOp β → FifoRes β × List β
  | .push b => if q.length = depth then (.flag false, q) else (.flag true, q ++ [b])
  | .pop => (.popped q.head?, q.tail)
  | .length => (.count q.length, q)
  | .empty => (.flag (decide (q.length = 0)), q)
  | .full => (.flag (decide (q.length = depth)), q)
  | .reset => (.done, [])

/-- A call with the block of `w` values that its pointer leads to. -/
def blockOp (w : Nat) : FifoOp (Nat → α) → FifoOp (List α)
  | .push src => .push ((List.range w).map src)
  | .pop => .pop
  | .length => .length
  | .empty => .empty
  | .full => .full
  | .reset => .reset

/-- The answers to the calls are those of a queue of `depth` blocks of `w` values, and the buffer is not left. -/
structure QueueLike (step : Fifo α → FifoOp (Nat → α) → FifoRes (List α) × Fifo α) (w depth : Nat) (f : Fifo α)
    (ops : List (FifoOp (Nat → α))) : Prop where
  same : answers step f ops = answers (queueStep depth) [] (ops.map (blockOp w))
  inside : ∀ x ∈ (run (moves step) f ops).touched, x.1 + x.2 ≤ f.size

end WM.Spec
