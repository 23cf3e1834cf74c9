import WaterMaker.Framework.Run

/-!
# A bus of two wires

A master drives the clock `SCL`, and `SDA` where it has not let go of it; a device sees the edges (`Device.edge`) and
may pull `SDA` down. A change of `SDA` while the clock is high starts or stops a transfer, and every pulse of the clock
carries a bit.

`Peer` is a device that is told of bytes, and `Peer.device` turns it into one that is told of edges: it counts the
pulses of a byte and answers with the ninth. What a pulse does to it is `taken_pulse`.
-/

namespace WM.TwoWire

/-! ## Lines -/

/-- A device on the bus. -/
structure Device (σ : Type*) where
  start : σ → σ
  stop : σ → σ
  /-- the clock rises, with the level of `SDA` -/
  rise : Bool → σ → σ
  fall : σ → σ
  /-- it pulls `SDA` down -/
  holds : σ → Bool

/-- The levels `scl` and `sda` change to `scl'` and `sda'`. -/
def Device.edge {σ : Type*} (D : Device σ) (scl sda scl' sda' : Bool) (d : σ) : σ :=
  match scl, scl' with
  | false, true => D.rise sda' d
  | true, false => D.fall d
  | true, true => if sda && !sda' then D.start d else if !sda && sda' then D.stop d else d
  | false, false => d

/-- The pins of the master, and the device. -/
structure Bus (σ : Type*) where
  scl : Bool
  /-- the level that the master puts on `SDA` -/
  latch : Bool
  /-- the master drives `SDA` -/
  out : Bool
  dev : σ

namespace Bus

variable {σ : Type*} (D : Device σ)

/-- The level of `SDA`. -/
def sda (w : Bus σ) : Bool := if w.out then w.latch else !D.holds w.dev

def setScl (v : Bool) (w : Bus σ) : Bus σ := { w with scl := v, dev := D.edge w.scl (w.sda D) v (w.sda D) w.dev }

/-- The lines after a change of the pins of `SDA`. -/
def change (w w' : Bus σ) : Bus σ := { w' with dev := D.edge w.scl (w.sda D) w'.scl (w'.sda D) w.dev }

def setSda (v : Bool) (w : Bus σ) : Bus σ := change D w { w with latch := v }

def setOut (v : Bool) (w : Bus σ) : Bus σ := change D w { w with out := v }

variable {D} {d : σ} {v latch out : Bool}

/-! While the clock is low, `SDA` may change. -/

@[simp] theorem setSda_low : setSda D v ⟨false, latch, out, d⟩ = ⟨false, v, out, d⟩ := rfl

@[simp] theorem setOut_low : setOut D v ⟨false, latch, out, d⟩ = ⟨false, latch, v, d⟩ := rfl

@[simp] theorem setScl_low : setScl D false ⟨false, latch, out, d⟩ = ⟨false, latch, out, d⟩ := rfl

@[simp] theorem setScl_fall : setScl D false ⟨true, latch, out, d⟩ = ⟨false, latch, out, D.fall d⟩ := rfl

/-- The master's own level rises with the clock. -/
@[simp] theorem setScl_rise_out : setScl D true ⟨false, latch, true, d⟩ = ⟨true, latch, true, D.rise latch d⟩ := rfl

/-- The device's level rises with the clock. -/
@[simp] theorem setScl_rise_in :
    setScl D true ⟨false, latch, false, d⟩ = ⟨true, latch, false, D.rise (!D.holds d) d⟩ := rfl

end Bus

/-! ## Bytes -/

/-- A device on the bus, told of bytes. -/
structure Peer (τ : Type*) where
  start : τ → τ
  stop : τ → τ
  /-- a byte comes: whether it is acknowledged -/
  take : BitVec 8 → τ → Bool × τ
  /-- the byte that it sends next -/
  give : τ → BitVec 8
  /-- the byte has been sent: whether the master wants more -/
  told : Bool → τ → τ

/-- A slave with the pulses of the byte under way. -/
inductive Target (τ : Type*)
  /-- not addressed -/
  | off (s : τ)
  /-- `k` bits have come; `first` after a start -/
  | takes (s : τ) (first : Bool) (k : Nat) (bits : BitVec 8)
  /-- the ninth pulse of a byte that came; `gives` if the next byte is the slave's -/
  | answers (s : τ) (ack gives : Bool)
  /-- `k` bits have been sent -/
  | gives (s : τ) (k : Nat) (byte : BitVec 8)
  /-- the ninth pulse of a byte that was sent, before and after its rise -/
  | asks (s : τ)
  | heard (s : τ) (more : Bool)

namespace Target

variable {τ : Type*}

def slave : Target τ → τ
  | .off s => s
  | .takes s _ _ _ => s
  | .answers s _ _ => s
  | .gives s _ _ => s
  | .asks s => s
  | .heard s _ => s

/-- Something happens to the slave that the lines have no part in. -/
def map (f : τ → τ) : Target τ → Target τ
  | .off s => .off (f s)
  | .takes s first k bits => .takes (f s) first k bits
  | .answers s ack next => .answers (f s) ack next
  | .gives s k byte => .gives (f s) k byte
  | .asks s => .asks (f s)
  | .heard s more => .heard (f s) more

def holds : Target τ → Bool
  | .answers _ ack _ => ack
  | .gives _ k byte => !byte.getLsbD (7 - k)
  | _ => false

end Target

namespace Peer

variable {τ : Type*} (S : Peer τ)

/-- One more bit, at the end. -/
def pushBit (bits : BitVec 8) (v : Bool) : BitVec 8 := (bits <<< 1) + (BitVec.ofBool v).setWidth 8

def rise (v : Bool) : Target τ → Target τ
  | .takes s first k bits => .takes s first (k + 1) (pushBit bits v)
  | .asks s => .heard (S.told (!v) s) (!v)
  | t => t

def fall : Target τ → Target τ
  | .takes s first k bits =>
    if k = 8 then .answers (S.take bits s).2 (S.take bits s).1 (first && bits.getLsbD 0) else .takes s first k bits
  | .answers s ack gives =>
    if ack then if gives then .gives s 0 (S.give s) else .takes s false 0 0 else .off s
  | .gives s k byte => if k = 7 then .asks s else .gives s (k + 1) byte
  | .heard s more => if more then .gives s 0 (S.give s) else .off s
  | t => t

/-- The slave on the lines. -/
def device : Device (Target τ) where
  start t := .takes (S.start t.slave) true 0 0
  stop t := .off (S.stop t.slave)
  rise := S.rise
  fall := S.fall
  holds := Target.holds

/-! ### Pulses -/

/-- The first `k` bits of a byte. -/
def bitsOf (b : BitVec 8) (k : Nat) : BitVec 8 :=
  (List.range k).foldl (fun bits i => pushBit bits (b.getLsbD (7 - i))) 0

theorem bitsOf_succ (b : BitVec 8) (k : Nat) : bitsOf b (k + 1) = pushBit (bitsOf b k) (b.getLsbD (7 - k)) := by
  rw [bitsOf, List.range_succ, List.foldl_append]
  rfl

theorem bitsOf_eight (b : BitVec 8) : bitsOf b 8 = b := by
  revert b
  decide

variable {S} {s : τ} {first : Bool} {b : BitVec 8}

/-- A pulse of a byte that comes: the slave has one more bit of it, and with the eighth it answers. -/
theorem taken_pulse {k : Nat} (hk : k < 8) :
    S.fall (S.rise (b.getLsbD (7 - k)) (S.fall (.takes s first k (bitsOf b k)))) =
      S.fall (.takes s first (k + 1) (bitsOf b (k + 1))) := by
  have hne : k ≠ 8 := by omega
  simp only [fall, rise, if_neg hne, bitsOf_succ]

theorem fall_taken :
    S.fall (.takes s first 8 (bitsOf b 8)) = .answers (S.take b s).2 (S.take b s).1 (first && b.getLsbD 0) := by
  rw [bitsOf_eight, fall, if_pos rfl]

end Peer

end WM.TwoWire
