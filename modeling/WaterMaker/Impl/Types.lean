import WaterMaker.Framework.Bits

/-!
# The firmware's enumerations

Output and input channels, alarm numbers, status bits and the states of the finite state machines, in
the order and with the bit positions of `sys_conf.h`, `sys_def.h`, `req_execution.h` and `alarms.h`.
A channel that the board wires under several names keeps one constructor and aliases.
-/

namespace WM.Impl

/-- `uint16_t` read as `int16_t`. -/
def i16 (n : Nat) : Int := (n : Int).bmod 65536

/-- The two compressors, `compressor_id` 0 and 1. -/
inductive CompId
  | c1 | c2
  deriving DecidableEq, Repr

/-- One value for each compressor. -/
@[ext] structure Pair (α : Type) where
  c1 : α
  c2 : α
  deriving DecidableEq, Repr

namespace Pair

variable {α : Type}

def get (p : Pair α) : CompId → α
  | .c1 => p.c1
  | .c2 => p.c2

def set (p : Pair α) (k : CompId) (x : α) : Pair α :=
  match k with
  | .c1 => { p with c1 := x }
  | .c2 => { p with c2 := x }

def map {β : Type} (f : α → β) (p : Pair α) : Pair β := ⟨f p.c1, f p.c2⟩

@[simp] theorem get_set (p : Pair α) (k j : CompId) (x : α) :
    (p.set k x).get j = if j = k then x else p.get j := by
  cases k <;> cases j <;> rfl

@[simp] theorem get_map {β : Type} (f : α → β) (p : Pair α) (k : CompId) :
    (p.map f).get k = f (p.get k) := by
  cases k <;> rfl

end Pair

/-- The digital outputs (`DO_*_BPOS`). -/
inductive Do
  | comp1 | comp2 | rh1 | fan | lamp | wv | cv | uv1
  | wp | hwp | pwp | ev1 | ev2 | fv | ev3 | f24
  | bdFan | ev4 | ledLock | pwrCtrl | rsv20 | rsv21 | rsv22 | rsv23
  | rsv24 | rsv25 | rsv26 | rsv27 | rsv28 | rsv29 | rsv30 | rsv31
  deriving DecidableEq, Repr

namespace Do

/-- The channel of an output. -/
def bpos : Do → Nat
  | comp1 => 0 | comp2 => 1 | rh1 => 2 | fan => 3 | lamp => 4 | wv => 5 | cv => 6 | uv1 => 7
  | wp => 8 | hwp => 9 | pwp => 10 | ev1 => 11 | ev2 => 12 | fv => 13 | ev3 => 14 | f24 => 15
  | bdFan => 16 | ev4 => 17 | ledLock => 18 | pwrCtrl => 19
  | rsv20 => 20 | rsv21 => 21 | rsv22 => 22 | rsv23 => 23 | rsv24 => 24 | rsv25 => 25
  | rsv26 => 26 | rsv27 => 27 | rsv28 => 28 | rsv29 => 29 | rsv30 => 30 | rsv31 => 31

/-- `DO_UV24_BPOS`, the 24 V lamp, shares `DO_RSV2_BPOS` with the ice-water valve. -/
abbrev uv24 : Do := ev3

/-- `DO_P1_BPOS`, the collecting pump, is the purification pump. -/
abbrev p1 : Do := pwp

/-- `DO_P2_BPOS` is the dispensing pump. -/
abbrev p2 : Do := wp

/-- The output on a channel; the inverse of `bpos`. -/
def ofBpos (n : Nat) : Option Do :=
  [comp1, comp2, rh1, fan, lamp, wv, cv, uv1, wp, hwp, pwp, ev1, ev2, fv, ev3, f24, bdFan, ev4,
    ledLock, pwrCtrl, rsv20, rsv21, rsv22, rsv23, rsv24, rsv25, rsv26, rsv27, rsv28, rsv29, rsv30,
    rsv31][n]?

theorem ofBpos_bpos (b : Do) : ofBpos b.bpos = some b := by
  cases b <;> rfl

theorem bpos_lt (b : Do) : b.bpos < 32 := by
  cases b <;> decide

theorem bpos_inj {b b' : Do} : b.bpos = b'.bpos ↔ b = b' := by
  refine ⟨fun h => ?_, fun h => by rw [h]⟩
  have := ofBpos_bpos b
  rw [h, ofBpos_bpos] at this
  exact (Option.some.inj this).symm

theorem exists_bpos {i : Nat} (h : i < 32) : ∃ b : Do, b.bpos = i := by
  have hs : ∀ i < 32, (ofBpos i).map bpos = some i := by decide
  obtain ⟨b, _, hb⟩ := Option.map_eq_some_iff.mp (hs i h)
  exact ⟨b, hb⟩

/-- The channel of a compressor. -/
def comp : CompId → Do
  | .c1 => comp1
  | .c2 => comp2

end Do

/-- The digital inputs of word 0 (`DI_*_BPOS`). -/
inductive Di
  | sourceDown | sourceMiddle | sourceUp | drinkDown | drinkMiddle | drinkUp | drinkMd | hiPress1
  | hiPress2 | cold1 | heat | child | open | cold2 | fan01Od | waterLeak
  deriving DecidableEq, Repr

def Di.bpos : Di → Nat
  | sourceDown => 0 | sourceMiddle => 1 | sourceUp => 2 | drinkDown => 3 | drinkMiddle => 4
  | drinkUp => 5 | drinkMd => 6 | hiPress1 => 7 | hiPress2 => 8 | cold1 => 9 | heat => 10
  | child => 11 | .open => 12 | cold2 => 13 | fan01Od => 14 | waterLeak => 15

/-- The alarms (`ACL_*`, `alarms.h`). -/
inductive Acl
  | e0 | e1 | e2 | e3 | e4 | e5 | e6 | e7 | e8 | e9 | waterLeak | e11 | e12 | filterOt
  | filterElement0 | filterElement1 | filterElement2 | filterElement3 | filterElement4 | uv2Ot
  | rsNeterr | hiPress1 | hiPress2
  deriving DecidableEq, Repr

/-- The number of an alarm; its bit in the alarm bitmap. -/
def Acl.id : Acl → Nat
  | e0 => 0 | e1 => 1 | e2 => 2 | e3 => 3 | e4 => 4 | e5 => 5 | e6 => 6 | e7 => 7 | e8 => 8 | e9 => 9
  | waterLeak => 10 | e11 => 11 | e12 => 12 | filterOt => 13 | filterElement0 => 14
  | filterElement1 => 15 | filterElement2 => 16 | filterElement3 => 17 | filterElement4 => 18
  | uv2Ot => 19 | rsNeterr => 20 | hiPress1 => 21 | hiPress2 => 22

/-- The bits of `u16Status_remap[WORK_MODE_STS_REG_NO]`. -/
inductive WorkSts
  | pwr | cooling | outWater | sterilize | defrost1 | defrost2 | fan | heating | exitWater | net
  | alarmStuse | alarmBeep
  deriving DecidableEq, Repr

def WorkSts.bpos : WorkSts → Nat
  | pwr => 0 | cooling => 1 | outWater => 2 | sterilize => 3 | defrost1 => 4 | defrost2 => 5
  | fan => 6 | heating => 7 | exitWater => 8 | net => 9 | alarmStuse => 14 | alarmBeep => 15

/-- `FSM_FAN_*`; `other` is any value that only the `default` branch handles. -/
inductive FanFsm
  | idle | init | startUp | norm | shut | other
  deriving DecidableEq, Repr

/-- `FAN_GEAR_*`; `FAN_GEAR_START` is `FAN_GEAR_LOW`. -/
inductive FanGear
  | no | low | mid | high
  deriving DecidableEq, Repr

inductive FanSig
  | idle | start | stop
  deriving DecidableEq, Repr

/-- `COMPRESSOR_FSM_STATE_*`. The switch has no `default`, so `other` is never left. -/
inductive CompFsm
  | idle | init | startup | normal | shuting | stop | other
  deriving DecidableEq, Repr

inductive CompSig
  | hold | on | off | err
  deriving DecidableEq, Repr

/-- `WATER_STROGE_*`; `other` is any value that only the `default` branch handles. -/
inductive StorFsm
  | idle | one | two | three | stop | other
  deriving DecidableEq, Repr

/-- The water source (`Exit_Water`). -/
inductive WaterSource
  | air | fill | exit
  deriving DecidableEq, Repr

/-- `OutWater_Flag`, and the water type given to `WaterOut_Close`. -/
inductive Water
  | no | normalIce | heat | ice | heatPot
  deriving DecidableEq, Repr

/-- `OutWater_OK`: `HEATER_IDLE`, `HEATER_SEND`, `WATER_READ`, `WATER_OUT`. -/
inductive OutOk
  | idle | send | read | out
  deriving DecidableEq, Repr

/-- A telegram to the instant heater, as `Heat_Send` builds it. -/
inductive HeatCmd
  | readPara
  | writeOpen (temp flow : Nat)
  | writeClose (temp flow : Nat)
  deriving DecidableEq, Repr

/-- `ALARM_FSM_*`. -/
inductive AclFsm
  | inactive | preactive | active | postactive | error
  deriving DecidableEq, Repr

/-- What an alarm condition reports: `ALARM_ACL_CLEARED`, `ALARM_ACL_TRIGGERED`, `ALARM_ACL_HOLD`. -/
inductive AclTrig
  | cleared | triggered | hold
  deriving DecidableEq, Repr

end WM.Impl
