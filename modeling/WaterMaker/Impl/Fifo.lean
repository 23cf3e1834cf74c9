import Mathlib.Algebra.Group.Nat.Defs
import WaterMaker.Impl.Eeprom

/-!
# Queues of blocks

`fifo.c`: a queue of blocks in a buffer from the heap, once for bytes and once for half-words. The two are alike but for
the size of a value. Pointers into the buffer are given by their distance from its start, in values; what is copied to
and from the buffer is kept (`Fifo.touched`).
-/

namespace WM.Impl

/-- `fifo8_cb_td` and `fifo16_cb_td`, with the buffer. -/
structure Fifo (α : Type) where
  /-- the memory from `buffer_ptr` on -/
  buffer : Nat → α
  /-- how many values were allocated -/
  size : Nat
  bhead : Nat
  btail : Nat
  blockSize : Word
  depth : Word
  length : Word
  /-- where `rt_memcpy` wrote to or read from the buffer, and how many values -/
  touched : List (Nat × Nat)

section family

variable {α : Type}

/-- `rt_malloc`, when the largest free block has `mem` bytes; sizes have 32 bits. -/
def rtMalloc (mem size : Nat) : Option Nat :=
  let size := size % 2 ^ 32
  if 0 < size ∧ size ≤ mem then some size else none

/-- A queue of values of `width` bytes, in a buffer that holds anything. -/
def fifoInit (width mem : Nat) (left : Nat → α) (blockSize depth : Word) : Option (Fifo α) := do
  let bytes ← rtMalloc mem (blockSize.toNat * depth.toNat * width)
  return ⟨left, bytes / width, 0, 0, blockSize, depth, 0, []⟩

def isFifoFull (f : Fifo α) : Bool := f.length == f.depth

def isFifoEmpty (f : Fifo α) : Bool := f.length == 0

/-- The pointer after a block: the last block is followed by the first. -/
def Fifo.next (f : Fifo α) (ptr : Nat) : Nat :=
  if (ptr : Int) ≥ f.blockSize.toNat * ((f.depth.toNat : Int) - 1) then 0 else ptr + f.blockSize.toNat

/-- The block is copied from `src`. -/
def fifoPush (src : Nat → α) (f : Fifo α) : Bool × Fifo α :=
  if isFifoFull f then (false, f)
  else
    (true, { f with
      buffer := blit f.buffer f.bhead ((List.range f.blockSize.toNat).map src)
      bhead := f.next f.bhead
      length := f.length + 1
      touched := f.touched ++ [(f.bhead, f.blockSize.toNat)] })

/-- The block that is copied to `dest`, if there is one. -/
def fifoPop (f : Fifo α) : Option (List α) × Fifo α :=
  if isFifoEmpty f then (none, f)
  else
    (some ((List.range f.blockSize.toNat).map fun k => f.buffer (f.btail + k)), { f with
      btail := f.next f.btail
      length := f.length - 1
      touched := f.touched ++ [(f.btail, f.blockSize.toNat)] })

def fifoReset (f : Fifo α) : Fifo α := { f with bhead := 0, btail := 0, length := 0 }

end family

/-! ## Bytes and half-words -/

def fifo8Init : Nat → (Nat → Byte) → Word → Word → Option (Fifo Byte) := fifoInit 1
def isFifo8Full : Fifo Byte → Bool := isFifoFull
def isFifo8Empty : Fifo Byte → Bool := isFifoEmpty
def fifo8Push : (Nat → Byte) → Fifo Byte → Bool × Fifo Byte := fifoPush
def fifo8Pop : Fifo Byte → Option (List Byte) × Fifo Byte := fifoPop
def fifo8Reset : Fifo Byte → Fifo Byte := fifoReset

/-- `get_fifo8_length`. `get_fifo16_length` is declared and has no body; the field is there too. -/
def getFifo8Length (f : Fifo Byte) : Word := f.length

def fifo16Init : Nat → (Nat → Word) → Word → Word → Option (Fifo Word) := fifoInit 2
def isFifo16Full : Fifo Word → Bool := isFifoFull
def isFifo16Empty : Fifo Word → Bool := isFifoEmpty
def fifo16Push : (Nat → Word) → Fifo Word → Bool × Fifo Word := fifoPush
def fifo16Pop : Fifo Word → Option (List Word) × Fifo Word := fifoPop
def fifo16Reset : Fifo Word → Fifo Word := fifoReset

/-! ## Calls -/

/-- A call, where `β` is what is pushed. -/
inductive FifoOp (β : Type)
  | push (b : β)
  | pop | length | empty | full | reset
  deriving Repr

/-- What a caller sees, where `β` is what is popped. -/
inductive FifoRes (β : Type)
  | flag (b : Bool)
  | popped (b : Option β)
  | count (n : Nat)
  | done
  deriving DecidableEq, Repr

def fifo8Step (f : Fifo Byte) : FifoOp (Nat → Byte) → FifoRes (List Byte) × Fifo Byte
  | .push src => let (b, f) := fifo8Push src f; (.flag b, f)
  | .pop => let (b, f) := fifo8Pop f; (.popped b, f)
  | .length => (.count (getFifo8Length f).toNat, f)
  | .empty => (.flag (isFifo8Empty f), f)
  | .full => (.flag (isFifo8Full f), f)
  | .reset => (.done, fifo8Reset f)

def fifo16Step (f : Fifo Word) : FifoOp (Nat → Word) → FifoRes (List Word) × Fifo Word
  | .push src => let (b, f) := fifo16Push src f; (.flag b, f)
  | .pop => let (b, f) := fifo16Pop f; (.popped b, f)
  | .length => (.count f.length.toNat, f)
  | .empty => (.flag (isFifo16Empty f), f)
  | .full => (.flag (isFifo16Full f), f)
  | .reset => (.done, fifo16Reset f)

end WM.Impl
