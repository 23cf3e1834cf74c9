import WaterMaker.Impl.Modbus

/-!
# The serial port of the slave

The receive interrupt puts the bytes of a frame into the buffer (`CpadPortSerialReceiveFSM_MBS`) until a frame of its
length is there; or the timer ends it, a while after the last byte. `cpad_MBPoll` checks the frame that is there and
has it answered. What a frame does not overwrite in the buffer stays there from the frames before it, and from the
replies to them.
-/

namespace WM.Impl

/-- `MNT_RX_LEN`, the length of the buffer. -/
abbrev mntRxLen : Nat := 512

/-- `MNT_RX_MIN`. -/
abbrev mntRxMin : Nat := 4

/-- `MNT_CMD_LEN`. -/
abbrev mntCmdLen : Nat := 8

/-- `rec_state`; two of the states belong to the protocol of the screen. -/
inductive RecState
  | addr | head | len | data
  deriving DecidableEq, Repr

/-- `cpad_slave_inst`, and whether the timer `TIM5` runs. -/
structure Slave where
  recState : RecState
  rxbuf : Nat → Byte
  rxFlag : Bool
  rxOk : Bool
  recCnt : Nat
  addr : Word
  rxTimeout : Bool
  timer : Bool

namespace Slave

/-- A frame is complete. -/
def complete (s : Slave) : Slave := { s with rxOk := true, recState := .addr }

/-- A byte goes to the buffer. A write of several registers tells its length, the others are eight bytes long. -/
def store (b : Byte) (s : Slave) : Slave :=
  let s := { s with rxbuf := Function.update s.rxbuf s.recCnt b, recCnt := s.recCnt + 1 }
  if s.rxbuf 1 ≠ 0x10 then if s.recCnt ≥ mntCmdLen then s.complete else s
  else if s.recCnt ≥ 9 then if s.recCnt = (s.rxbuf 6).toNat + 9 then s.complete else s
  else s

/-- `CpadPortSerialReceiveFSM_MBS`. -/
def cpadPortSerialReceiveFSM (b : Byte) (s : Slave) : Slave :=
  let s := { s with rxFlag := true }
  if s.rxOk then s
  else match s.recState with
    | .addr =>
      if b.toNat = s.addr.toNat then
        { s with rxbuf := Function.update s.rxbuf 0 b, recCnt := 1, recState := .data }
      else s
    | .data =>
      if s.recCnt < mntRxLen then s.store b else { s with recCnt := 0, rxOk := false, recState := .addr }
    | .head | .len => { s with recState := .addr }

/-- `TIM5_IRQHandler`. -/
def tim5 (s : Slave) : Slave := { s with rxTimeout := true }

/-- The start of `cpad_MBPoll`: bytes that came start the timer anew. -/
def seen (s : Slave) : Slave := if s.rxFlag then { s with rxFlag := false, timer := true } else s

/-- A frame is there, by its length or by the timer. -/
def ready (s : Slave) : Bool := s.rxOk || s.rxTimeout

end Slave

/-- What `cpad_MBPoll` leaves: the slave, the bytes it sent, and the registers. -/
structure Polled where
  slave : Slave
  sent : List Byte
  dev : Dev

/-- `cpad_MBPoll`. -/
def cpadMBPoll (null : NullStore) (s : Slave) (d : Dev) : Except Halt Polled :=
  let s := s.seen
  if s.ready then
    let s := { s with timer := false }
    let s := if s.rxTimeout then { s with rxOk := true, rxTimeout := false, recState := .addr } else s
    if s.recCnt ≥ mntRxMin ∧ usMBCRC16 s.rxbuf s.recCnt = 0 then do
      let r ← analysisProtocol null s.rxbuf d
      return ⟨{ s with rxbuf := r.rxbuf, recCnt := 0, rxOk := false }, (List.range r.sendlen).map r.rxbuf, r.dev⟩
    else .ok ⟨{ s with recCnt := 0, rxOk := false }, [], d⟩
  else .ok ⟨s, [], d⟩

end WM.Impl
