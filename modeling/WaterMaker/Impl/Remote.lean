import Mathlib.Algebra.Group.Nat.Defs
import WaterMaker.Impl.Modbus

/-!
# Remote writes

The registers can be written from three sides: by Modbus, by a message of the cloud
(`network_parameter_set_parse`) and by a frame of the Bluetooth key board (`operateRxData`). The last two decode
what they are sent and hand a block to `cpad_eMBRegHoldingCB`. What C leaves undefined on the way (a missing field
that is read, a conversion that gives no number, an `int` that overflows) is a fault.
-/

namespace WM.Impl

/-- A block to be written, as it is handed on. -/
structure Setting where
  addr : Nat
  n : Nat
  data : List Byte

/-! ## The cloud -/

/-- A member of a JSON object, by its `valuestring`. -/
inductive Item
  | str (s : List Char)
  | other

/-- The members that `network_parameter_set_parse` looks for. -/
structure ParamMsg where
  mCode : Option Item
  setaddrstart : Option Item
  settingleng : Option Item
  settingmsg : Option Item

def digit (c : Char) : Option Nat := if c.isDigit then some (c.toNat - '0'.toNat) else none

def hexDigit (c : Char) : Option Nat :=
  if c.isDigit then some (c.toNat - '0'.toNat)
  else if 'a' ≤ c ∧ c ≤ 'f' then some (c.toNat - 'a'.toNat + 10)
  else if 'A' ≤ c ∧ c ≤ 'F' then some (c.toNat - 'A'.toNat + 10)
  else none

/-- The number that the digits at the start of `s` make, if there are any. -/
def scanDigits (base : Nat) (value : Char → Option Nat) (s : List Char) : Option Nat :=
  match (s.takeWhile fun c => (value c).isSome).filterMap value with
  | [] => none
  | ds => some (ds.foldl (fun n v => base * n + v) 0)

def scanSigned (base : Nat) (value : Char → Option Nat) : List Char → Option Int
  | '-' :: s => (scanDigits base value s).map fun n => -(n : Int)
  | '+' :: s => (scanDigits base value s).map Int.ofNat
  | s => (scanDigits base value s).map Int.ofNat

def skipSpace (s : List Char) : List Char := s.dropWhile Char.isWhitespace

/-- `sscanf` with `%d`, into an `int`. -/
def scanInt (s : List Char) : Option Int :=
  (scanSigned 10 digit (skipSpace s)).filter fun v => -2147483648 ≤ v ∧ v < 2147483648

/-- `sscanf` with `%02X`: two characters at most. -/
def scanHex (s : List Char) : Option Int := scanSigned 16 hexDigit ((skipSpace s).take 2)

/-- A number in a member that must be there. -/
def itemInt : Option Item → Except Halt Int
  | some (.str s) => match scanInt s with | some v => .ok v | none => .error .fault
  | _ => .error .fault

/-- The conversions of `Settingmsg_str`, two characters after two; where one fails the last value stays. -/
def settingBytes (s : List Char) : Nat → Nat → Option Int → Except Halt (List Byte)
  | 0, _, _ => .ok []
  | k + 1, i, last =>
    match (scanHex (s.drop (2 * i))).orElse fun _ => last with
    | none => .error .fault
    | some v => do return BitVec.ofInt 8 v :: (← settingBytes s k (i + 1) (some v))

/-- What a message sets, if anything. `mem` is the size of the largest block that `rt_calloc` has, in each of its
two calls. -/
def settingOf (mem : Nat × Nat) (msg : ParamMsg) : Except Halt (Option Setting) := do
  if (← itemInt msg.mCode) ≠ 5 then return none
  let addr ← itemInt msg.setaddrstart
  let leng ← itemInt msg.settingleng
  if ¬(-2147483648 ≤ leng * 4 + 1 ∧ leng * 4 + 1 < 2147483648) then .error .fault
  -- a negative size is a large one
  else if leng < 0 ∨ leng.toNat * 4 + 1 > mem.1 then return none
  else
    match msg.settingmsg with
    | none => return none
    | some .other => .error .fault
    | some (.str s) =>
      if 0 < leng ∧ leng.toNat * 2 > mem.2 then .error .fault
      else
        let data ← settingBytes (s.take (leng.toNat * 4)) (leng.toNat * 2) 0 none
        return some ⟨(BitVec.ofInt 16 addr).toNat, (BitVec.ofInt 16 leng).toNat, data⟩

/-- A block from another side than Modbus; nobody looks at the error. -/
def applySetting (null : NullStore) (s : Setting) (d : Dev) : Except Halt Dev := do
  let (_, _, d) ← cpadEMBRegHoldingCB null (fun k => s.data.getD k 0) s.addr s.n .multipleWrite d
  return d

/-- `network_parameter_set_parse`; `none` is a text that is no JSON. -/
def networkParameterSetParse (null : NullStore) (mem : Nat × Nat) (msg : Option ParamMsg) (d : Dev) : Except Halt Dev :=
  match msg with
  | none => .ok d
  | some m => do
    match ← settingOf mem m with
    | none => return d
    | some s => applySetting null s d

/-- `network_parameter_set_parse` with its result, `RT_EOK` or an error. Whatever went wrong with a message that has
the code for it, the result is `RT_EOK`. -/
def networkParameterSetResult (null : NullStore) (mem : Nat × Nat) (msg : Option ParamMsg) (d : Dev) :
    Except Halt (Int × Dev) :=
  match msg with
  | none => .ok (-1, d)
  | some m => do
    if (← itemInt m.mCode) ≠ 5 then return (-1, d)
    match ← settingOf mem m with
    | none => return (0, d)
    | some s => return (0, ← applySetting null s d)

/-- `utils_hb2hex`. -/
def utilsHb2hex (hb : Byte) : Char :=
  let hb := (hb &&& 0xF).toNat
  Char.ofNat (if hb < 10 then '0'.toNat + hb else hb - 10 + 'a'.toNat)

/-- Two digits for every byte. If `char` has a sign the shift brings it in, above the digit. -/
def hexText (bytes : List Byte) : List Char := bytes.flatMap fun b : Byte => [utilsHb2hex (b >>> 4), utilsHb2hex b]

/-- The members of a report that are about the registers. -/
structure ParamReport where
  setaddrstart : List Char
  settingmsg : List Char
  settingleng : List Char
  deriving DecidableEq, Repr

/-- `network_Serialize_para_json`. -/
def networkSerializeParaJson (d : Dev) : ParamReport :=
  let signCache := match cpadEMBRegHoldingCB .fault (fun _ => 0) 100 80 .read d with
    | .ok (_, bytes, _) => bytes
    | .error _ => []
  ⟨['1', '0', '0'], hexText ((List.range 160).map fun i => signCache.getD i 0), ['8', '0']⟩

/-- The strings of a report in a message with the given code. -/
def ParamReport.message (code : List Char) (r : ParamReport) : ParamMsg :=
  ⟨some (.str code), some (.str r.setaddrstart), some (.str r.settingleng), some (.str r.settingmsg)⟩

/-! ## The key board -/

/-- `getCheckSum`. -/
def getCheckSum (rx : Nat → Byte) : Byte := (List.range ((rx 3).toNat + 4)).foldl (fun sum i => sum + rx i) 0

/-- What a frame sets, if anything. The counter of `getCheckSum` has 8 bits, and the address is
`rx[4] << (8 + rx[5])`. -/
def bleSetting (rx : Nat → Byte) (d : Dev) : Except Halt (Option Setting) :=
  if (rx 3).toNat + 4 ≥ 256 then .error (.hang d)
  else if getCheckSum rx ≠ rx ((rx 3).toNat + 4) then .ok none
  else if rx 2 = 3 then
    .ok (some ⟨(rx 4).toNat * 2 ^ (8 + (rx 5).toNat) % 65536, 6, (List.range 12).map fun k => rx (6 + k)⟩)
  else .ok none

/-- `operateRxData`, but for the keys. -/
def operateRxData (null : NullStore) (rx : Nat → Byte) (d : Dev) : Except Halt Dev := do
  match ← bleSetting rx d with
  | none => return d
  | some s => applySetting null s d

/-! ## Requests -/

/-- A frame with one of the two functions that write. -/
structure WriteFrame where
  rx : Nat → Byte
  write : rx 1 = 0x06 ∨ rx 1 = 0x10

inductive Request
  | modbus (f : WriteFrame)
  | cloud (mem : Nat × Nat) (msg : Option ParamMsg)
  | ble (rx : Nat → Byte)

def request (null : NullStore) (d : Dev) : Request → Except Halt Dev
  | .modbus f => do return (← analysisProtocol null f.rx d).dev
  | .cloud mem msg => networkParameterSetParse null mem msg d
  | .ble rx => operateRxData null rx d

/-- Requests one after another, until the controller halts. -/
def remoteStep (null : NullStore) (x : Except Halt Dev) (r : Request) : Except Halt Dev := do request null (← x) r

end WM.Impl
