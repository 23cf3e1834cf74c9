import WaterMaker.Impl.RegMap

/-!
# Start-up

`sys_global_var_init` loads the registers as the flag in the EEPROM says: by a vote of the user banks
(`init_load_user_conf`), from the factory bank (`init_load_factory_conf`), or with the table's defaults
(`init_load_default`). The device's identity, from `CONF_REG_SID_START` on, is left out of the defaults and read
from the user banks. The loads store through every `reg_ptr`, 206 of which are NULL, so that a controller that starts
has survived such stores: they are lost here (`Dev.load`).
-/

namespace WM.Impl

/-- `CONF_REG_SID_START`. -/
abbrev confRegSidStart : Nat := 335

/-- `conf_reg_read_ee`: 0 if the word could be read and may stand in its register. -/
def confRegReadEe (i : Nat) (d : Dev) : Nat × Dev :=
  let (err, v, ee) := eepromCompareRead i 0 d.ee
  let d := { d with ee := ee }
  match confReg i with
  | none => (1, d) -- not reached: all callers stay within the table
  | some r =>
    if r.mapped ∧ (v.toNat < r.min ∨ v.toNat > r.max) then (1, d.load i (BitVec.ofNat 16 r.dft))
    else (if err ≠ 0 then 1 else 0, d.load i v)

/-- One round of the loop of `init_load_user_conf`: the errors so far and the registers. -/
def userStep (x : Nat × Dev) (i : Nat) : Nat × Dev :=
  let (err, d) := confRegReadEe i x.2
  (x.1 + err, d)

/-- `init_load_user_conf`: 1 if all went well. -/
def initLoadUserConf (d : Dev) : Nat × Dev :=
  let x := (List.range confRegMapNum).foldl userStep (0, d)
  (if x.1 = 0 then 1 else 0, x.2)

/-- A row as `init_load_default` loads it, and `init_load_factory_conf` if the factory bank is damaged. -/
def defaultStep (d : Dev) (i : Nat) : Dev :=
  if i < confRegSidStart then
    match confReg i with
    | none => d
    | some r => if r.mapped then d.load i (BitVec.ofNat 16 r.dft) else d
  else (confRegReadEe i d).2

def loadDefault (d : Dev) : Dev := (List.range confRegMapNum).foldl defaultStep d

/-- `authen_init` writes the four passwords, which lie beside the banks. -/
def authenInit (d : Dev) : Dev := { d with ee := { d.ee with bus := d.ee.bus.drop 4 } }

/-- `init_load_default`. -/
def initLoadDefault (d : Dev) : Dev := authenInit (loadDefault d)

/-- `init_load_factory_conf`: 1 if the factory bank has the right checksum. -/
def initLoadFactoryConf (d : Dev) : Nat × Dev :=
  let (_, buf, ee) := i2cEeBufRead .fact 0 d.ee
  let d := { d with ee := ee }
  if checksumU16 ((List.range (confRegMapNum + 1)).map buf) ≠ 0 then (0, loadDefault d)
  else (1, (List.range confRegMapNum).foldl (fun d i => d.load i (buf i)) d)

/-- `save_conf_reg` and `set_load_flag`. -/
def Dev.save (sel : Nat) (d : Dev) : Dev := { d with ee := (saveConfReg sel d.image d.ee).2 }
def Dev.setFlag (sel : Nat) (d : Dev) : Dev := { d with ee := setLoadFlag sel d.ee }

/-- `init_state_em`. -/
inductive InitState
  | usr | fact | debut | dft
  deriving DecidableEq, Repr

/-- `get_ee_status`; the jumper `Start_Init` asks for the first start. -/
def getEeStatus (startInit : Bool) (e : Eeprom) : InitState × Eeprom :=
  let (flag, e) := match e.transfer with
    | (.done, e) => (e.flag, e)
    | (.failed _ left, e) => (loByte (left 0), e)
  (if startInit then .debut
   else if flag = eeFlagLoadUsr then .usr
   else if flag = eeFlagLoadFact then .fact
   else if flag = 0x9b then .dft
   else .debut, e)

/-- The registers that `sys_global_var_init` clears: `u16Manual_Test_En`, `alarm_bypass_en`, `u16Test_Mode_Type`,
`u16ExitWater_Mode`, `u16Water_Mode`, `u16Water_Flow` and `Net_ERR`. -/
def clearedRows : List Nat := [58, 5, 57, 50, 46, 47, 105]

def Dev.clearRows (d : Dev) : Dev := { d with conf := fun i => if i ∈ clearedRows then 0 else d.conf i }

/-- The loads of `sys_global_var_init`. -/
def loadConf (state : InitState) (d : Dev) : Dev :=
  match state with
  | .usr => (Prod.snd ∘ initLoadUserConf) d
  | .fact =>
    let x := initLoadFactoryConf d
    if x.1 = 1 then (x.2.save 0).setFlag 0 else x.2
  | .debut => (((initLoadDefault d).save 0).save 1).setFlag 0
  | .dft => initLoadDefault d

/-- `sys_global_var_init`. `sts` are the status registers, which `init_load_status` sets with two reads of its
own. -/
def sysGlobalVarInit (startInit : Bool) (sts : Nat → Word) (d : Dev) : Dev :=
  let (state, ee) := getEeStatus startInit d.ee
  let d := { d with sts := sts, ee := { ee with bus := ee.bus.drop 2 } }
  (loadConf state d).clearRows

/-- `load_factory_pram`, up to the restart. -/
def loadFactoryPram (d : Dev) : Dev :=
  ((authenInit (initLoadFactoryConf d).2).save 0).setFlag 0

end WM.Impl
