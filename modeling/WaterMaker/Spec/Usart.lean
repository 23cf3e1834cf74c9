import Mathlib.Algebra.GroupWithZero.Nat
import WaterMaker.Framework.Answers
import WaterMaker.Framework.Framer
import WaterMaker.Impl.Tds
import WaterMaker.Impl.Usart

/-!
# Frames of the serial port

The frames that the PM2.5 sensor and the heater send, and the receivers for them: both look for a header of two bytes
and drop a byte that does not fit. What the firmware keeps of a frame is its value (`pm25`, `heatWater`). A frame of the
conductivity sensor has marks at six places; of its values the registers show little (`tdsShown`).
-/

namespace WM.Spec

open WM WM.Impl

/-! ## The PM2.5 sensor -/

/-- Nine bytes `FF 18 …`, of which the last makes the sum of those behind the first 0. -/
structure Pm25Frame (f : List Byte) : Prop where
  length : f.length = 9
  head : f.getD 0 0 = 0xFF
  kind : f.getD 1 0 = 0x18
  sum : ((f.drop 1).map BitVec.toNat).sum % 256 = 0

instance (f : List Byte) : Decidable (Pm25Frame f) :=
  decidable_of_iff (f.length = 9 ∧ f.getD 0 0 = 0xFF ∧ f.getD 1 0 = 0x18 ∧ ((f.drop 1).map BitVec.toNat).sum % 256 = 0)
    ⟨fun ⟨h1, h2, h3, h4⟩ => ⟨h1, h2, h3, h4⟩, fun ⟨h1, h2, h3, h4⟩ => ⟨h1, h2, h3, h4⟩⟩

def pm25 (f : List Byte) : Nat := 100 * (f.getD 3 0).toNat + (f.getD 4 0).toNat

def pm25Framer : Framer Byte :=
  .ofHeader 9 (fun b => decide (b = 0xFF)) (fun b => decide (b = 0x18))
    fun f => decide (((f.drop 1).map BitVec.toNat).sum % 256 = 0)

/-- A stream of bytes from the sensor. -/
def zph01Run (s : Zph01) (bs : List Byte) : Zph01 := run (fun s b => zph01ReceiveData b s) s bs

/-! ## The heater -/

/-- Eighteen bytes: the address, open or closed, and at the end the sum of the others. -/
structure HeatFrame (f : List Byte) : Prop where
  length : f.length = 18
  head : f.getD 0 0 = 0x01
  state : f.getD 1 0 = 1 ∨ f.getD 1 0 = 0
  sum : (f.getD 16 0).toNat * 256 + (f.getD 17 0).toNat = ((f.take 16).map BitVec.toNat).sum

instance (f : List Byte) : Decidable (HeatFrame f) :=
  decidable_of_iff (f.length = 18 ∧ f.getD 0 0 = 0x01 ∧ (f.getD 1 0 = 1 ∨ f.getD 1 0 = 0) ∧
      (f.getD 16 0).toNat * 256 + (f.getD 17 0).toNat = ((f.take 16).map BitVec.toNat).sum)
    ⟨fun ⟨h1, h2, h3, h4⟩ => ⟨h1, h2, h3, h4⟩, fun ⟨h1, h2, h3, h4⟩ => ⟨h1, h2, h3, h4⟩⟩

/-- The state and the flow. -/
def heatWater (f : List Byte) : Nat × Nat :=
  ((f.getD 1 0).toNat, 256 * (f.getD 3 0).toNat + (f.getD 4 0).toNat)

def heatFramer : Framer Byte :=
  .ofHeader 18 (fun b => decide (b = 0x01)) (fun b => decide (b = 1 ∨ b = 0)) fun f =>
    decide ((f.getD 16 0).toNat * 256 + (f.getD 17 0).toNat = ((f.take 16).map BitVec.toNat).sum)

/-- The bytes that come in. -/
def bytesOf (es : List LinkEvent) : List Byte :=
  es.filterMap fun
    | .byte b => some b
    | _ => none

/-! ## The conductivity sensor -/

/-- The two bytes for each of the four probes. -/
structure TdsReading where
  tds1 : Byte × Byte
  tds2 : Byte × Byte
  tds3 : Byte × Byte
  tds4 : Byte × Byte
  deriving DecidableEq, Repr

def tdsFrame (r : TdsReading) : List Byte :=
  [0xFF, 0x01, r.tds1.1, r.tds1.2, 0x02, r.tds2.1, r.tds2.2, 0x03, r.tds3.1, r.tds3.2, 0x04, r.tds4.1, r.tds4.2, 0xEE]

/-- What the registers show: three bytes of the eight, and two of the marks. -/
def tdsShown (r : TdsReading) : List Word :=
  [word r.tds1.1 0x02, word 0x02 r.tds2.2, word r.tds2.2 r.tds3.1, word r.tds3.1 0x04]

/-- The byte may stand at place `n`. -/
def tdsFits (n : Nat) (b : Byte) : Bool :=
  match n with
  | 0 => b = 0xFF
  | 1 => b = 0x01
  | 4 => b = 0x02
  | 7 => b = 0x03
  | 10 => b = 0x04
  | 13 => b = 0xEE
  | _ => true

def tdsFramer : Framer Byte where
  size := 14
  fits p b := tdsFits p.length b
  good _ := true

/-- The bytes that the sensor sends. -/
def tdsSent (es : List TdsEvent) : List Byte :=
  es.flatMap fun
    | .byte b => [b]
    | _ => []

/-- The bytes that the thread reads. -/
def tdsRead (es : List TdsEvent) : List Byte :=
  (answers tdsStep Tds.init es).flatMap TdsIo.read

/-- There are never more than `n` bytes that have not been read. -/
def TdsInTime (n : Nat) (es : List TdsEvent) : Prop :=
  ∀ fs, fs <+: es → (tdsSent fs).length ≤ (tdsRead fs).length + n

/-! ## Bytes through the ring -/

/-- The bytes that have come. -/
def sentBy (es : List SerialEvent) : List Byte :=
  es.flatMap fun
    | .byte b => [b]
    | _ => []

/-- The bytes that have been read. -/
def readBy (B : Nat) (es : List SerialEvent) : List Byte :=
  (answers (serialStep B) Uart.opened es).flatten

/-- There are never more than `B` bytes that have not been read. -/
def InTime (B : Nat) (es : List SerialEvent) : Prop :=
  ∀ fs, fs <+: es → (sentBy fs).length ≤ (readBy B fs).length + B

/-- The thread takes a message and serves it. -/
def served (k : Nat) : List TdsEvent := (List.replicate k [.recv, .serve]).flatten

/-! ## Frames of the heater -/

/-- The last byte `b` of what comes in with `mid` completes the reception of a frame. -/
def Accepted (s : HeatLink) (mid : List LinkEvent) (b : Byte) : Prop :=
  (run linkStep s mid).comStat ≠ .recvOver ∧ (run linkStep s (mid ++ [.byte b])).comStat = .recvOver

end WM.Spec
