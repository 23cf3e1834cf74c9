import WaterMaker.Impl.Boot
import WaterMaker.Impl.Modbus

/-!
# What is touched in the tables

The accesses of `cpad_eMBRegHoldingCB`, `save_conf_reg`, `init_load_user_conf` and `init_load_factory_conf` to the
command buffer, the two tables and through their pointers, in the order of the source. An index can be negative: a
block that starts among the command registers leads before the table. Behind an access beside a table nothing is
known, and the list ends.
-/

namespace WM.Impl

inductive Touch
  /-- `cpad_usSRegHoldBuf[i]` -/
  | cmd (i : Nat)
  /-- a field of `conf_reg_map_inst[i]` -/
  | row (i : Int)
  /-- `*(conf_reg_map_inst[i].reg_ptr)` -/
  | reg (i : Int)
  /-- `*(status_reg_map_inst[i].reg_ptr)` -/
  | sts (i : Nat)
  deriving DecidableEq, Repr

/-- `mbs_read_reg`. -/
def readTouch (a : Nat) : List Touch :=
  if a < configRegMapOffset then [.cmd a]
  else if a < configRegMapOffset + confRegMapNum then [.reg (a - configRegMapOffset : Nat)]
  else if statusRegMapOffset ≤ a ∧ a < statusRegMapOffset + 50 then [.sts (a - statusRegMapOffset)]
  else []

/-- `save_conf_reg`. -/
def saveTouch (sel : Nat) : List Touch :=
  if sel = 0 ∨ sel = 1 then (List.range confRegMapNum).map fun i : Nat => .reg i else []

/-- `reg_map_write` of one register: the row for the checks, and its register if they are passed. -/
def writeTouch (i : Nat) (v : Word) (user : UserId) (d : Dev) : List Touch :=
  if i + 1 > confRegMapNum then []
  else .row i :: if regMapCheck i [v] user d = .noErr then [.reg i, .reg i] else []

/-- A single write by way of `reg_map_write`; the `id` is read from the row. -/
def comWriteTouch (r : Nat) (v : Word) (d : Dev) : List Touch :=
  .row r :: match confReg r with
    | none => []
    | some row => writeTouch row.id v .cpad d

/-- `COM_SINGLE_eMBRegHoldingCB`; the clock's registers are written by their names. -/
def comSingleTouch (r : Nat) (v : Word) (d : Dev) : List Touch :=
  if r = factoryReset then if v = 0x69 then saveTouch 1 else []
  else if r = manualTset then if v = 0 then [] else comWriteTouch r v d
  else if r = clearRt ∨ r = clearAlarmReg ∨ r = setTl ∨ r = setTh then []
  else comWriteTouch r v d

/-- The calls that lead into the tables. -/
inductive TableOp
  | read (addr n : Nat)
  | single (addr : Nat) (v : Word)
  | block (addr n : Nat)
  | save (sel : Nat)
  | userLoad
  | factoryLoad
  deriving DecidableEq, Repr

/-- The accesses of a call, where `cpad_eMBRegHoldingCB` is called with a number of registers. -/
def touches (d : Dev) : TableOp → List Touch
  | .read addr n =>
    if addr + n ≤ cpadSRegHoldingNregs then (List.range n).flatMap fun k => readTouch (addr + k) else []
  | .single addr v =>
    if addr + 1 > cpadRegHoldingWriteNregs then []
    else if addr + 1 ≥ configRegMapOffset + 1 then comSingleTouch (addr - configRegMapOffset) v d
    else [.cmd addr, .cmd addr]
  | .block addr n =>
    if 0 < n ∧ n ≤ 100 ∧ addr + n ≤ cpadRegHoldingWriteNregs ∧ addr + n ≥ configRegMapOffset + 1 then
      (List.range n).map (fun i => .reg ((addr : Int) - configRegMapOffset + i)) ++ saveTouch 0 ++
        if addr = configRegMapOffset + eeWifiPassword then writeTouch eeWifiSet 0x5AA5 .default d else []
    else []
  | .save sel => saveTouch sel
  | .userLoad => (List.range confRegMapNum).flatMap fun i : Nat => [.row i, .reg i]
  | .factoryLoad =>
    let (_, buf, _) := i2cEeBufRead .fact 0 d.ee
    if checksumU16 ((List.range (confRegMapNum + 1)).map buf) ≠ 0 then
      (List.range confRegMapNum).flatMap fun i : Nat =>
        if i < confRegSidStart ∧ isMapped i = false then [.row i] else [.row i, .reg i]
    else (List.range confRegMapNum).map fun i : Nat => .reg i

end WM.Impl
