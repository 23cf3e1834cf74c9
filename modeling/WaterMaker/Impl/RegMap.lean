import WaterMaker.Impl.Eeprom

/-!
# The register map

`conf_reg_map_inst`, the table of the 435 configuration registers with their ranges and checks, the registers
themselves (`Dev`), and `reg_map_write`, which writes them one by one after checking all of them. An entry of the
table with `reg_ptr` NULL has no register: reading through it gives the half-word at address 0 of the flash. What a
store through it does, C leaves open, and what follows from it in the firmware depends on it (`NullStore`): the
functions that store take it as a parameter. An access beside the table is a fault.
-/

namespace WM.Impl

/-- `chk_ptr`. -/
inductive Chk
  | coldWaterStartTemp | coldWaterStopTemp
  deriving DecidableEq, Repr

/-- `conf_reg_map_st`. -/
structure ConfReg where
  id : Nat
  /-- `reg_ptr` is not NULL -/
  mapped : Bool
  min : Nat
  max : Nat
  dft : Nat
  permission : Nat
  rw : Nat
  chk : Option Chk
  deriving DecidableEq, Repr

namespace ConfReg

def reg (id min max dft permission : Nat) : ConfReg := ⟨id, true, min, max, dft, permission, 1, none⟩

def null (id min max dft permission : Nat) : ConfReg := ⟨id, false, min, max, dft, permission, 1, none⟩

/-- `n` entries without a register. -/
def unused (id n : Nat) : List ConfReg := (List.range n).map fun k => null (id + k) 0 3600 0 0

/-- `n` words of text: the network, and the device's identity. -/
def text (id n : Nat) : List ConfReg := (List.range n).map fun k => reg (id + k) 0 0xFFFF 0 2

end ConfReg

open ConfReg in
def confRegMapInst : List ConfReg :=
  [null 0 0 3600 0 0,
   null 1 0 3600 0 0,
   reg 2 0 5 1 1,                             -- general.surv_baudrate
   reg 3 1 128 1 1,                           -- general.surv_addr
   reg 4 0 1 0 2,                             -- general.diagnose_mode_en
   reg 5 0 1 0 3,                             -- general.alarm_bypass_en
   reg 6 0 1 0 4,                             -- general.testing_mode_en
   reg 7 0 1 1 3,                             -- general.power_mode_mb_en
   reg 8 0 0xFFFF 0xBEDB 3,                   -- dev_mask.din_bitmap_polarity[0]
   reg 9 0 0xFFFF 0 3,                        -- dev_mask.din_bitmap_polarity[1]
   reg 10 0 0xFFFF 0x801F 3,                  -- dev_mask.ain
   reg 11 0 0xFFFF 0x3F7F 3,                  -- dev_mask.din[0]
   reg 12 0 0xFFFF 0 3,                       -- dev_mask.din[1]
   reg 13 0 0x3F 1 3,                         -- dev_mask.aout
   reg 14 0 0xFFFF 1 3,                       -- dev_mask.mb_comp
   reg 15 0 0xFFFF 0xFFFF 3,                  -- dev_mask.dout[0]
   reg 16 0 0xFFFF 0x3F 3,                    -- dev_mask.dout[1]
   null 17 0 0 0 0,
   reg 18 0 8 0 1,                            -- fan.mode
   null 19 0 3600 0 0,
   null 20 0 3600 0 0,
   null 21 0 3600 0 0,
   reg 22 0 600 0 2,                          -- compressor.startup_delay
   reg 23 0 90 5 2,                           -- compressor.stop_delay
   reg 24 60 600 180 2,                       -- compressor.min_runtime
   reg 25 60 600 180 2,                       -- compressor.min_stoptime
   reg 26 60 600 120 2,                       -- compressor.startup_lowpress_shield
   reg 27 0 0xFFFF 0 2,                       -- ComPara.u16SN_Code[0]
   reg 28 0 0xFFFF 0 2,                       -- ComPara.u16SN_Code[1]
   reg 29 0 0xFFFF 0 2,                       -- ComPara.u16SN_Code[2]
   reg 30 0 0xFFFF 0 2,                       -- ComPara.u16SN_Code[3]
   null 31 0 3600 0 0,
   null 32 0 3600 0 0,
   null 33 0 3600 0 0,
   null 34 0 3600 0 0,
   reg 35 0 100 0 2,                          -- ComPara.u16M_Type
   reg 36 0 1 1 2,                            -- ComPara.u16Power_Mode
   reg 37 0 800 150 2,                        -- ComPara.u16Start_Temp[0]
   reg 38 0 999 350 2,                        -- ComPara.u16Start_Humidity
   reg 39 0 800 100 2,                        -- ComPara.u16Stop_Temp[0]
   reg 40 0 999 300 2,                        -- ComPara.u16Stop_Humidity
   reg 41 0 0xFFFF 65506 2,                   -- ComPara.u16Start_Defrost_Temp
   reg 42 0 0xFFFF 60 2,                      -- ComPara.u16Stop_Defrost_Temp
   reg 43 1 600 8 2,                          -- ComPara.u16Sterilize_Time[0]
   reg 44 1 10000 60 2,                       -- ComPara.u16Sterilize_Interval[0]
   reg 45 0 0xFFFF 8 2,                       -- ComPara.u16Water_Ctrl
   reg 46 0 4 0 2,                            -- ComPara.u16Water_Mode
   reg 47 0 65500 1000 2,                     -- ComPara.u16Water_Flow
   reg 48 0 400 230 2,                        -- ComPara.u16NormalWater_Temp
   reg 49 0 1000 500 2,                       -- ComPara.u16HotWater_Temp
   reg 50 0 2 0 2,                            -- ComPara.u16ExitWater_Mode
   reg 51 0 1 0 2,                            -- ComPara.u16Disinfection_Mode
   reg 52 0 3 3 2,                            -- ComPara.u16Sterilize_Mode
   reg 53 1 600 15 2,                         -- ComPara.u16Sterilize_Time[1]
   reg 54 1 10000 60 2,                       -- ComPara.u16Sterilize_Interval[1]
   reg 55 0 1000 5 2,                         -- ComPara.u16UV_Delay
   reg 56 0 0xFF 0 2,                         -- ComPara.u16Reset
   reg 57 0 0xFF 0 2,                         -- ComPara.u16Test_Mode_Type
   reg 58 0 2 0 2,                            -- ComPara.u16Manual_Test_En
   reg 59 0 0xFFFF 0 1,                       -- l_sys.bitmap[0][BITMAP_MANUAL]
   reg 60 0 1 0 2,                            -- ComPara.u16TPower_En
   reg 61 0 0xFFFF 500 2,                     -- ComPara.u16TPower_On
   reg 62 0 0xFFFF 2300 2,                    -- ComPara.u16TPower_Off
   reg 63 1 65000 4320 2,                     -- alarm[ACL_FILTER_OT].alarm_param
   reg 64 1 65000 240 2,                      -- alarm[ACL_E9].alarm_param
   reg 65 1 0xFFFF 2500 2,                    -- alarm[ACL_FILTER_ELEMENT_0_OT].alarm_param
   reg 66 0 0xFF 0 2,                         -- ComPara.u16Clear_RT
   reg 67 0 0xFF 0 2,                         -- ComPara.u16Clear_ALARM
   reg 68 0 0xFFFF 0 2,                       -- ComPara.u16Set_Time[0]
   reg 69 0 0xFFFF 0 2,                       -- ComPara.u16Set_Time[1]
   reg 70 1 600 180 1,                        -- ComPara.u16Start_Delay
   reg 71 1 300 60 1,                         -- ComPara.u16Fan_Stop_Delay
   reg 72 10 600 30 2,                        -- ComPara.u16Comp_Interval
   reg 73 0 0xFFFF 0 2,                       -- ComPara.u16WaterFlow
   null 74 0 3600 0 0,
   reg 75 0 0xFFFF 0 2,                       -- general.ai_cali[0]
   reg 76 0 0xFFFF 0 2,                       -- general.ntc_cali[0]
   reg 77 0 0xFFFF 0 2,                       -- general.ntc_cali[1]
   reg 78 0 0xFFFF 0 2,                       -- general.ntc_cali[2]
   reg 79 0 0xFFFF 0 2,                       -- general.temp_sensor_cali[0].temp
   reg 80 0 0xFFFF 0 2,                       -- general.temp_sensor_cali[0].hum
   reg 81 0 0xFFFF 0 2,                       -- general.ntc_cali[3]
   reg 82 0 0xFFFF 0 2,                       -- ComPara.u16HotWater_Cali
   reg 83 0 100 0 0,                          -- l_sys.ao_list[AO_EC_FAN][BITMAP_MANUAL]
   reg 84 0 100 60 2,                         -- fan.set_speed
   null 85 0 3600 0 2,
   reg 86 0 2 0 2,                            -- ComPara.u16ColdWater_Mode
   { reg 87 50 400 150 2 with chk := some .coldWaterStartTemp }, -- ComPara.u16ColdWater_StartTemp
   { reg 88 10 300 70 2 with chk := some .coldWaterStopTemp }, -- ComPara.u16ColdWater_StopTemp
   reg 89 0 1000 600 2,                       -- ComPara.u16HeatFan_StartTemp
   reg 90 0 1000 400 2,                       -- ComPara.u16HeatFan_StopTemp
   reg 91 0 1 0 2,                            -- ComPara.u16FILTER_ELEMENT_Type
   reg 92 1 0xFFFF 2500 2,                    -- alarm[ACL_FILTER_ELEMENT_1_OT].alarm_param
   reg 93 1 0xFFFF 2500 2,                    -- alarm[ACL_FILTER_ELEMENT_2_OT].alarm_param
   reg 94 1 0xFFFF 2500 2,                    -- alarm[ACL_FILTER_ELEMENT_3_OT].alarm_param
   reg 95 1 0xFFFF 2500 2,                    -- alarm[ACL_FILTER_ELEMENT_4_OT].alarm_param
   reg 96 1 0xFFFF 30000 2,                   -- alarm[ACL_UV1_OT].alarm_param
   reg 97 0 800 380 2,                        -- ComPara.u16Start_Temp[1]
   reg 98 0 800 400 2,                        -- ComPara.u16Stop_Temp[1]
   reg 99 0 0xFFFF 0x8003 2,                  -- Platform.Restart_Enable
   reg 100 1 0xFFFF 0xC03 2,                  -- Platform.Restart_Delay
   reg 101 10 1000 60 2,                      -- Platform.Fixed_Report
   reg 102 5 0xFFFF 300 2,                    -- Platform.Real_Report
   reg 103 0 1 0 2,                           -- ComPara.u16CloseFrist
   reg 104 0 10 0 2,                          -- ComPara.u16CloseDelay
   reg 105 0 1 0 2,                           -- Platform.Net_ERR
   reg 106 0 1 0 2,                           -- ComPara.LN.u16LN_Enable
   reg 107 0 1 0 2,                           -- ComPara.LN.u16LN_Mode
   reg 108 0 2359 100 2,                      -- ComPara.LN.u16LN_Time[0]
   reg 109 0 2359 100 2,                      -- ComPara.LN.u16LN_Time[1]
   reg 110 0 100 45 2,                        -- ComPara.LN.u16LN_Fan
   null 111 0 3600 0 0,
   reg 112 0 0xFFFF 5 2,                      -- ComPara.u16TestEV[0]
   reg 113 0 0xFFFF 5 2,                      -- ComPara.u16TestEV[1]
   null 114 0 3600 0 0,
   reg 115 0 1 0 2,                           -- ComPara.u16Heater_PM25
   null 116 0 3600 0 0,
   null 117 0 3600 0 0,
   null 118 0 3600 0 0,
   null 119 0 3600 0 0,
   reg 120 0 1 0 2,                           -- ComPara.u16Storage
   reg 121 1 10000 80 2,                      -- ComPara.u16StorageDealy[0]
   reg 122 1 10000 10 2,                      -- ComPara.u16StorageDealy[1]
   null 123 0 3600 0 0,
   null 124 0 3600 0 0,
   reg 125 0 1000 30 2,                       -- ComPara.u16TH_Interal
   null 126 0 3600 0 0,
   null 127 0 3600 0 0,
   null 128 0 3600 0 0,
   null 129 0 3600 0 0,
   reg 130 100 1500 1150 2] ++                -- alarm[ACL_E11].alarm_param
  unused 131 181 ++
  [null 312 0 3600 0 2] ++
  text 313 122
  -- ComPara.Net_Conf and ComPara.device_info[0..99]

/-- Row `i`; there is none behind the table. -/
def confReg (i : Nat) : Option ConfReg := confRegMapInst[i]?

/-- Row `i` has a register. -/
def isMapped (i : Nat) : Bool := ((confReg i).map ConfReg.mapped).getD false

/-- The registers that the code names (`global_var.h`). -/
abbrev eeWaterMode : Nat := 46
abbrev eeWaterFlow : Nat := 47
abbrev factoryReset : Nat := 56
abbrev manualTset : Nat := 58
abbrev clearRt : Nat := 66
abbrev clearAlarmReg : Nat := 67
abbrev setTl : Nat := 68
abbrev setTh : Nat := 69
abbrev coldWaterStartTemp : Nat := 87
abbrev coldWaterStopTemp : Nat := 88
abbrev eeWifiSet : Nat := 313
abbrev eeWifiPassword : Nat := 325

/-! ## The registers -/

/-- `user_ID`. -/
inductive UserId
  | default | modebusSlave | cpad | admin
  deriving DecidableEq, Repr

def UserId.code : UserId → Nat
  | default => 0 | modebusSlave => 1 | cpad => 2 | admin => 3

/-- `event_log_st`. -/
structure EventLog where
  time : Nat
  eventId : Nat
  userId : Nat
  formerData : Word
  newData : Word
  deriving DecidableEq, Repr

/-- What a request asks of the rest of the machine. -/
inductive Outcall
  | resetRuntime (param : Word) | clearAlarm | closeDisPwr (off : Bool)
  deriving DecidableEq, Repr

/-- What the register map leads to. -/
structure Dev where
  /-- the registers of the table, by row -/
  conf : Nat → Word
  /-- `cpad_usSRegHoldBuf` -/
  cmd : Nat → Word
  /-- the registers of `status_reg_map_inst`, by row -/
  sts : Nat → Word
  /-- the half-word at address 0 -/
  flash : Word
  ee : Eeprom
  /-- `eventlog_fifo_inst`, the oldest entry first -/
  events : List EventLog
  permissionLevel : Nat
  now : Nat
  setSystimeDelay : Nat
  setSystimeFlag : Nat
  calls : List Outcall

/-- Why a function does not return: `NVIC_SystemReset` or a loop without end, with what the registers were then,
or a fault, after which nothing is known. -/
inductive Halt
  | reset (d : Dev)
  | hang (d : Dev)
  | fault

/-- A store through a pointer that is NULL: it is lost, or the controller does not survive it. -/
inductive NullStore
  | lost | fault
  deriving DecidableEq, Repr

namespace Dev

/-- Row `i` as it is read. -/
def word (d : Dev) (i : Nat) : Word := if isMapped i then d.conf i else d.flash

/-- `*(conf_reg_map_inst[i].reg_ptr) = v`, where a store through NULL is lost. -/
def load (i : Nat) (v : Word) (d : Dev) : Dev :=
  if isMapped i then { d with conf := Function.update d.conf i v } else d

/-- `*(conf_reg_map_inst[i].reg_ptr) = v`. -/
def setReg (null : NullStore) (i : Nat) (v : Word) (d : Dev) : Except Halt Dev :=
  match null with
  | .lost => .ok (d.load i v)
  | .fault => if isMapped i then .ok (d.load i v) else .error .fault

/-- The registers as `save_conf_reg` collects them. -/
def image (d : Dev) : List Word := (List.range confRegMapNum).map d.word

/-- `add_eventlog_fifo`; the FIFO has `EVENT_FIFO_DEPTH` blocks. -/
def addEventlog (id : Nat) (user : UserId) (old new : Word) (d : Dev) : Dev :=
  let e : EventLog := ⟨d.now, id, user.code <<< 8 ||| d.permissionLevel, old, new⟩
  if d.events.length < 64 then { d with events := d.events ++ [e] } else d

end Dev

/-! ## Checked writes -/

/-- `CPAD_ERR_*`. -/
inductive CpadErr
  | noErr | addrOr | dataOr | permOr | wrOr | conflictOr
  deriving DecidableEq, Repr

/-- `ColdWater_StartTemp_Chek` and `ColdWater_StopTemp_Chek`. -/
def Chk.ok (d : Dev) (v : Word) : Chk → Bool
  | coldWaterStartTemp => v > d.conf Impl.coldWaterStopTemp
  | coldWaterStopTemp => v < d.conf Impl.coldWaterStartTemp

/-- The range and the check of one value. -/
def dataCheck (d : Dev) (r : ConfReg) (v : Word) : Option CpadErr :=
  if v.toNat > r.max ∨ v.toNat < r.min then some .dataOr
  else if r.chk.all (Chk.ok d v) then none else some .conflictOr

/-- What `reg_map_write` checks before it writes: the address, then for all registers the permission, then the
right to write, then the values. -/
def regMapCheck (addr : Nat) (data : List Word) (user : UserId) (d : Dev) : CpadErr :=
  let permission := if user = .modebusSlave then 3 else 4
  let rows := (confRegMapInst.drop addr).zip data
  if addr + data.length > confRegMapNum then .addrOr
  else if rows.any fun x => x.1.permission > permission then .permOr
  else if rows.any fun x => x.1.rw ≠ 1 then .wrOr
  else (rows.findSome? fun x => dataCheck d x.1 x.2).getD .noErr

/-- The writes of `reg_map_write` from row `i` on. `u16Water_Mode` and `u16Water_Flow` stay out of the EEPROM,
with all that would follow them. -/
def regMapStore (null : NullStore) (addr : Nat) (user : UserId) : Nat → List Word → Dev → Except Halt Dev
  | _, [], d => .ok d
  | i, v :: vs, d => do
    let old := d.word i
    let d ← d.setReg null i v
    if addr = eeWaterMode ∨ addr = eeWaterFlow then .ok d
    else
      let d := { d with ee := (eepromTrippleWrite i v old d.ee).2 }
      regMapStore null addr user (i + 1) vs (d.addEventlog i user old v)

/-- `reg_map_write`. -/
def regMapWrite (null : NullStore) (addr : Nat) (data : List Word) (user : UserId) (d : Dev) :
    Except Halt (CpadErr × Dev) :=
  match regMapCheck addr data user d with
  | .noErr => do return (.noErr, ← regMapStore null addr user addr data d)
  | err => .ok (err, d)

end WM.Impl
