import WaterMaker.Impl.Remote

/-!
# The Bluetooth module

`ble_key.cpp`: the keys and lamps of the front are behind a Bluetooth module on the I²C bus, to which the i2c thread
writes 20 bytes (`refreshTxData`) and from which it reads 20. While the module has a connection, the registers are
sent in blocks of six; `regMap` remembers what was sent, and only blocks that have changed are sent again
(`getRegData`). What `operateRxData` does with a frame is written out here byte by byte (`rxCommand`), with its loop
and with what it reads.
-/

namespace WM.Impl

/-! ## Blocks of registers -/

/-- A row of `regMap`: the address and the registers of a block. -/
structure BleRow where
  addrHi : Byte
  addrLo : Byte
  data : List Byte
  deriving DecidableEq, Repr

/-- `regMap`. -/
abbrev RegCache := Fin 30 → BleRow

def BleRow.zero : BleRow := ⟨0, 0, List.replicate 12 0⟩

/-- The address of block `i`: `PARA_ADDR_START` and `STATE_ADDR_START` are the beginnings of the two windows. -/
def blockAddress (i : Fin 30) : Nat := if i.val < 22 then i.val * 6 + 64 else (i.val - 22) * 6 + 500

/-- What `cpad_eMBRegHoldingCB` puts into `temp`. -/
def blockTemp (d : Dev) (i : Fin 30) : List Byte :=
  match cpadEMBRegHoldingCB .fault (fun _ => 0) (blockAddress i) 6 .read d with
  | .ok (_, temp, _) => temp
  | .error _ => []

/-- The loop of `getRegData`. -/
def getRegDataFrom (d : Dev) : List (Fin 30) → RegCache → Option BleRow × RegCache
  | [], regMap => (none, regMap)
  | i :: is, regMap =>
    let temp := blockTemp d i
    if (regMap i).data ≠ temp then
      let row : BleRow := ⟨BitVec.ofNat 8 (blockAddress i / 256), BitVec.ofNat 8 (blockAddress i % 256), temp⟩
      (some row, Function.update regMap i row)
    else getRegDataFrom d is regMap

/-- `getRegData`: the row it returns, if any, and `regMap`. -/
def getRegData (d : Dev) (regMap : RegCache) : Option BleRow × RegCache :=
  getRegDataFrom d (List.finRange 30) regMap

/-! ## Checksums -/

/-- Reading bytes through a pointer, with the indices that are read; `none` if it does not come to an end. -/
abbrev Peek (α : Type) := StateT (List Nat) Option α

def peek (data : Nat → Byte) (i : Nat) : Peek Byte := fun reads => some (data i, reads ++ [i])

/-- The loop of `getCheckSum`, for as many rounds as there is fuel. Its index has 8 bits. -/
def checkSumLoop (data : Nat → Byte) : Nat → Nat → Byte → Peek Byte
  | 0, _, _ => fun _ => none
  | fuel + 1, i, checkSum => do
    let len ← peek data 3
    if i < len.toNat + 4 then
      let b ← peek data i
      checkSumLoop data fuel ((i + 1) % 256) (checkSum + b)
    else return checkSum

def peekCheckSum (data : Nat → Byte) (fuel : Nat) : Peek Byte := checkSumLoop data fuel 0 0

/-! ## What is sent -/

/-- The bytes of `keyState`, `keyTrg` and `k_count`. -/
structure KeyBytes where
  key : Byte
  restain : Byte
  ble : Byte
  deriving DecidableEq, Repr

/-- The variables of `ble_key.cpp`. -/
structure Ble where
  txBuffer : Nat → Byte
  keyState : KeyBytes
  keyTrg : KeyBytes
  kCount : KeyBytes
  ledState : Fin 5 → Byte
  regMap : RegCache

/-- `BLEON`. -/
def Ble.bleOn (b : Ble) : Bool := b.keyState.ble.getLsbD 0

def cmdKey : Byte := 1
def cmdLed : Byte := 2
def cmdReg : Byte := 3

/-- The frame without its checksum. -/
def txFrame (cmd len : Byte) (bytes : List Byte) (tx : Nat → Byte) : Nat → Byte :=
  blit tx 0 ([0xFF, 0xA5, cmd, len] ++ bytes)

/-- `refreshTxData`. -/
def refreshTxData (d : Dev) (fuel : Nat) (b : Ble) : Option Ble := do
  let (regPoint, regMap) := if b.bleOn then getRegData d b.regMap else (none, b.regMap)
  let tx := match regPoint with
    | some row => txFrame cmdReg 14 (row.addrHi :: row.addrLo :: row.data) b.txBuffer
    | none => txFrame cmdLed 5 (List.ofFn b.ledState) b.txBuffer
  let (checkSum, _) ← peekCheckSum tx fuel []
  return { b with txBuffer := Function.update tx ((tx 3).toNat + 4) checkSum, regMap := regMap }

/-! ## What is received -/

/-- What a frame asks for. -/
inductive RxCmd
  | nothing
  | key (k : KeyBytes)
  /-- a call of `cpad_eMBRegHoldingCB` for six registers -/
  | reg (address : Nat) (values : List Byte)
  deriving DecidableEq, Repr

/-- `*(rxData + 4) << 8 + *(rxData + 5)`, where the sum binds first. The language leaves a shift by 32 or more, or
into the sign, open; `wide` is what comes of it. -/
def rxAddress (wide : Nat) (hi lo : Byte) : Nat :=
  let n := 8 + lo.toNat
  (if n < 32 ∧ hi.toNat * 2 ^ n < 2 ^ 31 then hi.toNat * 2 ^ n else wide) % 65536

/-- The switch of `operateRxData`. -/
def rxSwitch (wide : Nat) (rxData : Nat → Byte) : Peek RxCmd := do
  let cmd ← peek rxData 2
  if cmd = cmdKey then
    let k0 ← peek rxData 4
    let k1 ← peek rxData 5
    let k2 ← peek rxData 6
    return .key ⟨k0, k1, k2 ^^^ 1⟩
  else if cmd = cmdReg then
    let hi ← peek rxData 4
    let lo ← peek rxData 5
    -- `cpad_eMBRegHoldingCB` gets the pointer and takes the registers' bytes from it
    let values ← (List.range 12).mapM fun k => peek rxData (6 + k)
    return .reg (rxAddress wide hi lo) values
  else return .nothing

/-- How `operateRxData` reads a frame. -/
def rxCommand (wide : Nat) (rxData : Nat → Byte) (fuel : Nat) : Peek RxCmd := do
  let checkSum ← peekCheckSum rxData fuel
  let len ← peek rxData 3
  let last ← peek rxData (len.toNat + 4)
  if checkSum = last then rxSwitch wide rxData else return .nothing

/-- `keyRecOperation`: the keys that are pressed now; a new connection begins with an empty `regMap`. -/
def keyRecOperation (b : Ble) : Ble :=
  let k := b.keyState
  let trg : KeyBytes := ⟨k.key &&& (k.key ^^^ b.kCount.key), k.restain &&& (k.restain ^^^ b.kCount.restain),
    k.ble &&& (k.ble ^^^ b.kCount.ble)⟩
  let b := { b with keyTrg := trg, kCount := k }
  if trg.ble.getLsbD 0 then { b with regMap := fun _ => .zero } else b

/-- What the frame asks for is done. -/
def carryOut (null : NullStore) (c : RxCmd) (b : Ble) (d : Dev) : Except Halt (Ble × Dev) :=
  match c with
  | .nothing => .ok (b, d)
  | .key k => .ok (keyRecOperation { b with keyState := k }, d)
  | .reg address values => do return (b, ← applySetting null ⟨address, 6, values⟩ d)

/-! ## The thread -/

/-- The frame that is in `tx_buffer`, with its checksum. -/
def Ble.frame (b : Ble) : List Byte := (List.range ((b.txBuffer 3).toNat + 5)).map b.txBuffer

/-- The variables after a read: the keys of the frame, if it has some. -/
def Ble.takeKeys (b : Ble) : Option KeyBytes → Ble
  | none => b
  | some k => keyRecOperation { b with keyState := k }

/-- The frames that the rounds of `i2c_thread_entry` make. In every round the registers are those of a device, and a
frame with keys may be read; a transfer that fails, and a frame that sets registers, leave the variables alone. -/
def i2cThreadEntry (fuel : Nat) : Ble → List (Dev × Option KeyBytes) → Option (List (List Byte))
  | _, [] => some []
  | b, (d, keys) :: rounds => do
    let b ← refreshTxData d fuel b
    let frames ← i2cThreadEntry fuel (b.takeKeys keys) rounds
    return b.frame :: frames

end WM.Impl
