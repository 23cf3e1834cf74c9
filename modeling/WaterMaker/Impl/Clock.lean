import WaterMaker.Impl.Background
import WaterMaker.Impl.Modbus

/-!
# Setting the clock

The time has 32 bits and comes as two registers, `SET_TL` and `SET_TH`, each in a write of its own. A write sets a
flag for its half and `Set_Systime_Delay` (`comSingle`); the background thread counts the delay down in
`sys_comp_cooldown` and looks at the flags in `Set_Systime` (`bkg_thread.c`).
-/

namespace WM.Impl

/-- The two registers of the time. -/
inductive Half
  | low | high
  deriving DecidableEq, Repr

def Half.reg : Half → Nat
  | low => setTl
  | high => setTh

/-- The registers, the real-time clock, and the answers to the writes. -/
structure Clock where
  dev : Dev
  /-- whether `rt_device_find` knows the clock -/
  device : Bool
  /-- the times that the clock was set to -/
  rtc : List (BitVec 32)
  answers : List MbErr

/-- A single write to one of the two registers. -/
def writeHalf (null : NullStore) (h : Half) (v : Word) (d : Dev) : Except Halt (MbErr × List Byte × Dev) :=
  cpadEMBRegHoldingCB null (fun k => if k = 0 then hiByte v else loByte v) (configRegMapOffset + h.reg) 1 .singleWrite d

/-- The time in `u16Set_Time`. -/
def setTime (conf : Nat → Word) : BitVec 32 := (conf setTh).setWidth 32 <<< 16 ||| (conf setTl).setWidth 32

/-- `Set_Systime`, with what it returns. -/
def setSystime (c : Clock) : Nat × Clock :=
  let c := if c.dev.setSystimeDelay = 0 then { c with dev := { c.dev with setSystimeFlag := 0 } } else c
  if c.dev.setSystimeFlag = 3 then
    if c.device then (1, { c with rtc := c.rtc ++ [setTime c.dev.conf] }) else (0, c)
  else (0, c)

/-- What `sys_comp_cooldown` does to the delay. -/
def Dev.cooldown (d : Dev) : Dev := { d with setSystimeDelay := d.setSystimeDelay - 1 }

/-- The two calls of the background thread that have to do with the time. -/
inductive Tick
  | cooldown | systime
  deriving DecidableEq, Repr

inductive ClockEvent
  | write (h : Half) (v : Word)
  | tick (b : Tick)
  deriving DecidableEq, Repr

def clockStep (null : NullStore) (c : Clock) : ClockEvent → Clock
  | .write h v => match writeHalf null h v c.dev with
    | .ok (err, _, d) => { c with dev := d, answers := c.answers ++ [err] }
    | .error _ => c
  | .tick .cooldown => { c with dev := c.dev.cooldown }
  | .tick .systime => (setSystime c).2

end WM.Impl
