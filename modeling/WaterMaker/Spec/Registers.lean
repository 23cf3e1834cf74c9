import WaterMaker.Impl.Remote
import WaterMaker.Framework.Run
import Mathlib.Data.Option.Basic

/-!
# Legal configurations

What the register table promises about the configuration (`Legal`): every register lies within its row's range,
and cooling starts at a higher temperature than it stops at. `Lawful` is what a request has to meet for that, on
what it sends and on the registers it meets.
-/

namespace WM.Spec

open WM WM.Impl

/-- The value `v` may stand in row `i`. -/
def Allowed (i : Nat) (v : Word) : Prop :=
  ∀ r ∈ confReg i, r.mapped = true → r.min ≤ v.toNat ∧ v.toNat ≤ r.max

instance (i : Nat) (v : Word) : Decidable (Allowed i v) := by unfold Allowed; infer_instance

structure Legal (conf : Nat → Word) : Prop where
  range : ∀ r ∈ confRegMapInst, r.mapped = true → r.min ≤ (conf r.id).toNat ∧ (conf r.id).toNat ≤ r.max
  apart : conf coldWaterStopTemp < conf coldWaterStartTemp

instance (conf : Nat → Word) : Decidable (Legal conf) :=
  decidable_of_iff ((∀ r ∈ confRegMapInst, r.mapped = true →
    r.min ≤ (conf r.id).toNat ∧ (conf r.id).toNat ≤ r.max) ∧ conf coldWaterStopTemp < conf coldWaterStartTemp)
    ⟨fun h => ⟨h.1, h.2⟩, fun h => ⟨h.1, h.2⟩⟩

/-- The values of a block of `n` registers. -/
def sent (buf : Nat → Byte) (n : Nat) : List Word :=
  (List.range n).map fun i => word (buf (2 * i)) (buf (2 * i + 1))

@[simp] theorem length_sent (buf : Nat → Byte) (n : Nat) : (sent buf n).length = n := by
  rw [sent, List.length_map, List.length_range]

/-- The registers of a block are written into the table. -/
def Reaches (addr n : Nat) : Prop :=
  0 < n ∧ n ≤ 100 ∧ addr + n ≤ cpadRegHoldingWriteNregs ∧ configRegMapOffset + 1 ≤ addr + n

instance (addr n : Nat) : Decidable (Reaches addr n) := by unfold Reaches; infer_instance

/-- All registers of a block are there. -/
def Mapped (addr n : Nat) : Prop :=
  configRegMapOffset ≤ addr ∧ ∀ j < n, isMapped (addr - configRegMapOffset + j) = true

instance (addr n : Nat) : Decidable (Mapped addr n) := by unfold Mapped; infer_instance

/-- A block that keeps the configuration legal: its registers are there, its values are within their ranges, and
with it the temperatures stay in their order. -/
structure BlockLawful (conf : Nat → Word) (addr : Nat) (vs : List Word) : Prop where
  mapped : Mapped addr vs.length
  allowed : ∀ (j : Nat) (h : j < vs.length), Allowed (addr - configRegMapOffset + j) vs[j]
  apart : blit conf (addr - configRegMapOffset) vs coldWaterStopTemp <
    blit conf (addr - configRegMapOffset) vs coldWaterStartTemp

instance (conf : Nat → Word) (addr : Nat) (vs : List Word) : Decidable (BlockLawful conf addr vs) :=
  decidable_of_iff (Mapped addr vs.length ∧
    (∀ (j : Nat) (h : j < vs.length), Allowed (addr - configRegMapOffset + j) vs[j]) ∧
    blit conf (addr - configRegMapOffset) vs coldWaterStopTemp <
      blit conf (addr - configRegMapOffset) vs coldWaterStartTemp)
    ⟨fun h => ⟨h.1, h.2.1, h.2.2⟩, fun h => ⟨h.1, h.2, h.3⟩⟩

def SettingLawful (conf : Nat → Word) (addr n : Nat) (buf : Nat → Byte) : Prop :=
  Reaches addr n → BlockLawful conf addr (sent buf n)

/-- A single write goes to a row of the table, and to one without a register only with a value that is refused. -/
def SingleLawful (addr : Nat) (v : Word) : Prop :=
  configRegMapOffset ≤ addr → addr < cpadRegHoldingWriteNregs →
    ∃ r ∈ confReg (addr - configRegMapOffset), r.mapped = true ∨ r.max < v.toNat ∨ v.toNat < r.min

def Lawful (d : Dev) : Request → Prop
  | .modbus f =>
    if f.rx 1 = 0x06 then SingleLawful (frameAddr f.rx) (word (f.rx 4) (f.rx 5))
    else SettingLawful d.conf (frameAddr f.rx) (frameNreg f.rx) fun k => f.rx (7 + k)
  | .cloud _ none => True
  | .cloud mem (some m) =>
    ∃ o, settingOf mem m = .ok o ∧ ∀ s ∈ o, SettingLawful d.conf s.addr s.n fun k => s.data.getD k 0
  | .ble rx => ∀ s, bleSetting rx d = .ok (some s) → SettingLawful d.conf s.addr s.n fun k => s.data.getD k 0

/-- What a computation leaves behind meets `P`, whether it returns or the controller restarts or hangs in it; and
there is no fault. -/
def Ends (P : Dev → Prop) : Except Halt Dev → Prop
  | .ok d | .error (.reset d) | .error (.hang d) => P d
  | .error .fault => False

/-! ## Messages of the cloud -/

/-- The number that hexadecimal digits make. -/
def hexValue (cs : List Char) : Nat := cs.foldl (fun n c => 16 * n + (hexDigit c).getD 0) 0

/-- Word `k` of a text of hexadecimal digits, four digits to a word. -/
def hexWord (s : List Char) (k : Nat) : Word := BitVec.ofNat 16 (hexValue ((s.drop (4 * k)).take 4))

/-- The message sets `n` registers from `a` on, by the digits `s`. What is a number is up to `sscanf`. -/
structure ParamSet (m : ParamMsg) (a n : Int) (s : List Char) : Prop where
  code : itemInt m.mCode = .ok 5
  addr : itemInt m.setaddrstart = .ok a
  leng : itemInt m.settingleng = .ok n
  msg : m.settingmsg = some (.str s)
  hex : ∀ c ∈ s, (hexDigit c).isSome = true
  enough : 4 * n ≤ s.length

/-- The block that a message leads to is written without an error, and leaves `d'`. -/
def WriteAccepted (mem : Nat × Nat) (m : ParamMsg) (d d' : Dev) : Prop :=
  ∃ b, settingOf mem m = .ok (some b) ∧
    cpadEMBRegHoldingCB .fault (fun k => b.data.getD k 0) b.addr b.n .multipleWrite d = .ok (.noErr, [], d')

/-- The registers from the address `a` on hold the words of the text. -/
def HoldsWords (d : Dev) (a n : Int) (s : List Char) : Prop :=
  ∀ k : Nat, (k : Int) < n →
    ∃ i < confRegMapNum, ((configRegMapOffset + i : Nat) : Int) = a + k ∧ d.conf i = hexWord s k

/-- A message sets all of its registers and is answered by `RT_EOK`, or sets none and is answered by an error. -/
def AllOrNothing (mem : Nat × Nat) (msg : Option ParamMsg) (d : Dev) : Prop :=
  ∃ rc d', networkParameterSetResult .fault mem msg d = .ok (rc, d') ∧
    (rc = 0 → ∃ m ∈ msg, ∃ a n s, ParamSet m a n s ∧ WriteAccepted mem m d d' ∧ HoldsWords d' a n s) ∧
    (rc ≠ 0 → d' = d)

/-- The message can be carried out: there is memory for it, and its registers can be written at once. -/
structure Settable (mem : Nat × Nat) (a n : Int) : Prop where
  nonneg : 0 ≤ n
  first : n.toNat * 4 + 1 ≤ mem.1
  second : 0 < n → n.toNat * 2 ≤ mem.2
  none : n = 0 → (BitVec.ofInt 16 a).toNat ≤ cpadSRegHoldingNregs
  some : 0 < n → n ≤ 100 ∧ 0 ≤ a ∧ Mapped a.toNat n.toNat

/-! ## Acknowledged blocks -/

/-- A block beyond the registers that can be written, or beyond all of them, is refused. -/
def Refused (addr n : Nat) : Prop :=
  cpadSRegHoldingNregs < addr + n ∨ (0 < n ∧ n ≤ 100 ∧ cpadRegHoldingWriteNregs < addr + n)

instance (addr n : Nat) : Decidable (Refused addr n) := by unfold Refused; infer_instance

/-- Function `0x03` for the one register `a` is answered with `v`. -/
def Reads (d : Dev) (a : Nat) (v : Word) : Prop :=
  ∀ rx, rx 1 = 0x03 → frameAddr rx = a → frameNreg rx = 1 → ∃ s, analysisProtocol .fault rx d = .ok s ∧
    s.rxbuf 1 = 0x03 ∧ s.rxbuf 2 = 2 ∧ word (s.rxbuf 3) (s.rxbuf 4) = v

/-- An acknowledged block write took effect: the frame's byte count is that of its registers, and each of them
reads back as it was sent. -/
def TookEffect (rx : Nat → Byte) (d : Dev) : Prop :=
  ∃ s, analysisProtocol .fault rx d = .ok s ∧ (s.rxbuf 1 = 0x10 → (rx 6).toNat = 2 * frameNreg rx ∧
    ∀ k < frameNreg rx, Reads s.dev (frameAddr rx + k) (word (rx (7 + 2 * k)) (rx (8 + 2 * k))))

/-- The block is refused; or its byte count is right, and its registers are all there if it reaches the table, or
hold what it sends if it is passed over. -/
def Truthful (rx : Nat → Byte) (d : Dev) : Prop :=
  Refused (frameAddr rx) (frameNreg rx) ∨ (rx 6).toNat = 2 * frameNreg rx ∧
    if Reaches (frameAddr rx) (frameNreg rx) then Mapped (frameAddr rx) (frameNreg rx)
    else ∀ k < frameNreg rx, mbsReadReg d (frameAddr rx + k) = word (rx (7 + 2 * k)) (rx (8 + 2 * k))

instance (rx : Nat → Byte) (d : Dev) : Decidable (Truthful rx d) := by unfold Truthful; infer_instance

/-! ## Requests along a run -/

/-- The bytes of a frame at the start of the buffer. -/
def frame (bytes : List Byte) : Nat → Byte := fun k => bytes.getD k 0

/-- The requests that come while the controller runs are lawful. -/
def LawfulAt (x : Except Halt Dev) (r : Request) : Prop := ∀ d, x = .ok d → Lawful d r

end WM.Spec
