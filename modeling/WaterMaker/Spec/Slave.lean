import WaterMaker.Impl.Slave
import WaterMaker.Spec.Registers

/-!
# Frames and replies

What a reply should be (`WellFormed`), by what was asked for and whether it was done (`Served`). And what the answer
to a frame should depend on: `Received` is the state of a slave that has received the frame, whatever else its buffer
holds, and `effect` is what is seen of its answer.
-/

namespace WM.Spec

open WM WM.Impl

/-! ## Replies -/

/-- A single write of `v` to row `i` is answered by an error. -/
def RowDeclined (d : Dev) (i : Nat) (v : Word) : Prop :=
  if i = factoryReset then v ∉ [0x3C, 0x5A, 0x69, 0x2D, 0x1E, 0x15]
  else if i = clearAlarmReg then v ≠ 0x5A
  else if i = clearRt ∨ i = setTl ∨ i = setTh then v = 0
  else (i = manualTset → v ≠ 0) ∧ ∃ r ∈ confReg i, dataCheck d r v ≠ none

def Declined (d : Dev) (addr : Nat) (v : Word) : Prop :=
  cpadRegHoldingWriteNregs ≤ addr ∨ configRegMapOffset ≤ addr ∧ RowDeclined d (addr - configRegMapOffset) v

/-- The value of a single write. -/
def frameValue (rx : Nat → Byte) : Word := word (rx 4) (rx 5)

/-- The request in the buffer is carried out: its function is known, its registers are there, and so many can be
read or written at once; and a single value is taken. -/
def Served (rx : Nat → Byte) (d : Dev) : Prop :=
  if rx 1 = 0x03 then frameAddr rx + frameNreg rx ≤ cpadSRegHoldingNregs
  else if rx 1 = 0x06 then ¬Declined d (frameAddr rx) (frameValue rx)
  else rx 1 = 0x10 ∧ Reaches (frameAddr rx) (frameNreg rx)

structure WellFormed (rx : Nat → Byte) (d : Dev) (r : Reply) : Prop where
  length : 5 ≤ r.sendlen ∧ r.sendlen ≤ mntRxLen
  crc : word (r.rxbuf (r.sendlen - 1)) (r.rxbuf (r.sendlen - 2)) = usMBCRC16 r.rxbuf (r.sendlen - 2)
  read : rx 1 = 0x03 → Served rx d →
    (r.rxbuf 2).toNat = 2 * frameNreg rx ∧ r.sendlen = 3 + 2 * frameNreg rx + 2
  exception : ¬Served rx d → r.sendlen = 5 ∧ r.rxbuf 1 = 0x80 ||| rx 1
  /-- nothing is written beyond the buffer -/
  beyond : ∀ k, mntRxLen ≤ k → r.rxbuf k = rx k

/-- Two replies that are the same as far as `n` bytes of the buffer, and what is sent, show. -/
def SameReply (n : Nat) : Except Halt Reply → Except Halt Reply → Prop
  | .ok r, .ok r' => r'.sendlen = r.sendlen ∧ r'.dev = r.dev ∧ ∀ k, k < n ∨ k < r.sendlen → r'.rxbuf k = r.rxbuf k
  | .error e, .error e' => e' = e
  | _, _ => False

/-- A reply is well formed, unless the controller restarts before it; and what lies beyond the buffer has no part in
it. -/
structure Replies (rx : Nat → Byte) (d : Dev) : Prop where
  wellFormed : ∀ r, analysisProtocol .fault rx d = .ok r → WellFormed rx d r
  noFault : analysisProtocol .fault rx d ≠ .error .fault
  within : ∀ rx', (∀ k < mntRxLen, rx' k = rx k) →
    SameReply mntRxLen (analysisProtocol .fault rx d) (analysisProtocol .fault rx' d)

/-! ## Frames -/

/-- A slave at the address `a` has received the bytes `bs` of a frame: it was idle, bytes for others came and went,
and `cpad_MBPoll` ran while the frame was not there yet. Bytes that come after it are lost. -/
inductive Received (a : Word) : List Byte → Slave → Prop
  | idle {s : Slave} : s.addr = a → s.recState = .addr → s.ready = false → Received a [] s
  | noise {s : Slave} {b : Byte} : Received a [] s → b.toNat ≠ a.toNat →
    Received a [] (s.cpadPortSerialReceiveFSM b)
  | byte {bs : List Byte} {s : Slave} {b : Byte} : Received a bs s → s.rxOk = false → bs.length < mntRxLen →
    (bs = [] → b.toNat = a.toNat) → Received a (bs ++ [b]) (s.cpadPortSerialReceiveFSM b)
  | lost {bs : List Byte} {s : Slave} {b : Byte} : Received a bs s → s.rxOk = true →
    Received a bs (s.cpadPortSerialReceiveFSM b)
  | poll {bs : List Byte} {s : Slave} : Received a bs s → s.ready = false → Received a bs s.seen
  | timeout {bs : List Byte} {s : Slave} : Received a bs s → s.timer = true → Received a bs s.tim5

/-- What is seen of an answer: what was sent, the registers and the EEPROM. -/
structure Effect where
  sent : List Byte
  conf : Nat → Word
  cmd : Nat → Word
  sts : Nat → Word
  ee : Eeprom

def effectOf (sent : List Byte) (d : Dev) : Effect := ⟨sent, d.conf, d.cmd, d.sts, d.ee⟩

/-- After a fault nothing is known. -/
def effect : Except Halt Polled → Option Effect
  | .ok p => some (effectOf p.sent p.dev)
  | .error (.reset d) | .error (.hang d) => some (effectOf [] d)
  | .error .fault => none

def SameEffect (x y : Except Halt Polled) : Prop := ∃ e, effect x = some e ∧ effect y = some e

/-! ## The bytes on the line -/

/-- A byte comes, or `cpad_MBPoll` runs and, if it has a frame, leaves its reply in the buffer. -/
inductive LineEvent
  | byte (b : Byte)
  | poll (reply : Nat → Byte)

/-- The line without timeouts: only `cpad_MBPoll` clears `rx_ok`. -/
def lineStep (s : Slave) : LineEvent → Slave
  | .byte b => s.cpadPortSerialReceiveFSM b
  | .poll reply =>
    let s := s.seen
    if s.rxOk then { s with timer := false, rxbuf := reply, recCnt := 0, rxOk := false } else s

/-- The length of a frame: eight bytes, or for a write of several registers nine more than its seventh byte says. -/
def frameLength (bs : List Byte) : Nat := if bs.getD 1 0 = 0x10 then (bs.getD 6 0).toNat + 9 else 8

/-- What is on the line: nothing for this slave, the first bytes of a frame, or a whole one. -/
inductive Line
  | idle
  | part (bs : List Byte)
  | whole (bs : List Byte)

/-- A frame begins with the slave's address `a` and ends with its length; the bytes after it are lost until it has been
taken. -/
def Line.step (a : Word) : Line → LineEvent → Line
  | .idle, .byte b => if b.toNat = a.toNat then .part [b] else .idle
  | .part bs, .byte b =>
    if (bs ++ [b]).length = frameLength (bs ++ [b]) then .whole (bs ++ [b]) else .part (bs ++ [b])
  | .whole _, .poll _ => .idle
  | l, _ => l

/-- The slave waits for its address. -/
structure Listening (s : Slave) : Prop where
  rxOk : s.rxOk = false
  recState : s.recState = .addr
  recCnt : s.recCnt = 0

/-- The bytes `rxbuf[0..rec_cnt)`. -/
def inBuffer (s : Slave) : List Byte := (List.range s.recCnt).map s.rxbuf

/-- The slave has what is on the line: `rx_ok` is set when a whole frame is there. -/
def Shows : Line → Slave → Prop
  | .idle, s => Listening s
  | .part bs, s => s.rxOk = false ∧ s.recState = .data ∧ inBuffer s = bs ∧ bs ≠ [] ∧ bs.length < frameLength bs
  | .whole bs, s => s.rxOk = true ∧ s.recState = .addr ∧ inBuffer s = bs ∧ bs.length = frameLength bs

/-- The buffer, its count and the state have not changed. -/
def Unmoved (s t : Slave) : Prop :=
  t.rxbuf = s.rxbuf ∧ t.recCnt = s.recCnt ∧ t.recState = s.recState ∧ t.rxOk = s.rxOk

/-- The slave after the bytes `bs`. -/
def afterBytes (s : Slave) (bs : List Byte) : Slave := run lineStep s (bs.map .byte)

/-- How a slave takes the bytes that come. -/
structure Frames (a : Word) (s : Slave) : Prop where
  bounded : s.recCnt ≤ 264
  /-- bytes that come while a frame is there -/
  full : s.rxOk = true → ∀ bs, Unmoved s (afterBytes s bs)
  /-- bytes before the address -/
  noise : Listening s → ∀ bs : List Byte, (∀ b ∈ bs, b.toNat ≠ a.toNat) → Unmoved s (afterBytes s bs)
  /-- the bytes from the address on -/
  frame : Listening s → ∀ noise : List Byte, (∀ b ∈ noise, b.toNat ≠ a.toNat) → ∀ (b : Byte) (bs : List Byte),
    b.toNat = a.toNat →
      ((afterBytes s (noise ++ b :: bs)).rxOk = true ↔ frameLength (b :: bs) ≤ (b :: bs).length) ∧
      inBuffer (afterBytes s (noise ++ b :: bs)) = (b :: bs).take (frameLength (b :: bs))

/-! ## Frames that do what they say -/

/-- The requests with a good reply. The byte count of a read must fit a byte, a single write must not meet NULL, and
a block is beyond the registers or goes to registers that are there. -/
def Answerable (rx : Nat → Byte) : Prop :=
  if rx 1 = 0x03 then cpadSRegHoldingNregs < frameAddr rx + frameNreg rx ∨ frameNreg rx ≤ 127
  else if rx 1 = 0x06 then SingleLawful (frameAddr rx) (frameValue rx)
  else rx 1 = 0x10 ∧ (Refused (frameAddr rx) (frameNreg rx) ∨
    Reaches (frameAddr rx) (frameNreg rx) ∧ Mapped (frameAddr rx) (frameNreg rx))

/-- A frame that does only what it says. With its first six bytes there, a read must fit the buffer, a single write
must not meet NULL, and the registers of a block must be there and its values in the frame. A shorter one must be
refused whatever its other bytes may be. -/
def Contained (bs : List Byte) (d : Dev) : Prop :=
  let rx := frame bs
  if 6 ≤ bs.length then
    if rx 1 = 0x03 then cpadSRegHoldingNregs < frameAddr rx + frameNreg rx ∨ frameNreg rx ≤ 254
    else if rx 1 = 0x06 then SingleLawful (frameAddr rx) (frameValue rx)
    else rx 1 = 0x10 ∧ (Reaches (frameAddr rx) (frameNreg rx) →
      Mapped (frameAddr rx) (frameNreg rx) ∧ 7 + 2 * frameNreg rx ≤ bs.length)
  else if rx 1 = 0x03 ∨ rx 1 = 0x10 then cpadSRegHoldingNregs < frameAddr rx + (word (rx 4) 0).toNat
  else rx 1 = 0x06 ∧ ∀ v : Word, (bs.length = 5 → hiByte v = rx 4) → Declined d (frameAddr rx) v

end WM.Spec
