import WaterMaker.Proof.Start

/-!
# The fan's state machine

`fanNext` is the state that `fan_req_exe` leaves (`fanReqExe_fsm`), and in every state the gear and the
fan's request agree with it (`FanOk.fanReqExe`).
-/

namespace WM.Proof

open WM WM.Impl

/-- The states in which the fan runs. -/
def fanOn : FanFsm → Bool
  | .startUp | .norm | .shut => true
  | _ => false

/-- The switch of `fan_fsm_exe` as a function of the state and its countdown. -/
def fanSwitch (sig : FanSig) (t : Nat) : FanFsm → FanFsm
  | .idle => if sig = .start then .init else .idle
  | .init => if sig ≠ .start then .idle else if t = 0 then .startUp else .init
  | .startUp => if t = 0 then .norm else .startUp
  | .norm => if sig = .stop ∧ t = 0 then .shut else .norm
  | .shut => if sig = .start then .norm else if t = 0 then .idle else .shut
  | .other => .idle

/-- The fan's next state; a fan alarm puts it back to its start first. -/
def fanNext (alarm : Bool) (sig : FanSig) (t : Nat) (fsm : FanFsm) : FanFsm :=
  if alarm then fanSwitch sig 0 .idle else fanSwitch sig t fsm

/-- Gear and request agree with the state. -/
structure FanOk (s : Sys) : Prop where
  gear : s.fan.gear = if fanOn s.fan.fsm then .low else .no
  req : s.reqBit .fan = fanOn s.fan.fsm

section fanReqExe

variable (s : Sys)

theorem fanFsm_fsm (sig : FanSig) : (fanFsm sig s).fan.fsm = fanSwitch sig s.tmo.fan s.fan.fsm := by
  unfold fanFsm
  cases h : s.fan.fsm <;>
    simp [fanSwitch, setFan, apply_ite Sys.fan, apply_ite FanSt.fsm, h]

theorem fanFsm_gear (sig : FanSig) (h : s.fan.gear = if fanOn s.fan.fsm then .low else .no) :
    (fanFsm sig s).fan.gear = if fanOn (fanFsm sig s).fan.fsm then .low else .no := by
  rw [fanFsm_fsm]
  unfold fanFsm
  cases hf : s.fan.fsm <;> dsimp only [fanSwitch] <;> (repeat' split) <;>
    simp_all [setFan, fanOn]

theorem fanLowGear_fan (h : s.fan.gear = if fanOn s.fan.fsm then .low else .no) :
    (fanLowGear s).fan = s.fan := by
  unfold fanLowGear
  split
  · rename_i hg
    have hlow : s.fan.gear = .low := by
      rw [h] at hg ⊢
      split
      · rfl
      · rename_i hoff
        simp [hoff] at hg
    simp only [setFanSt_fan, ← hlow]
  · rfl

theorem fanFsmOut_fan : (fanFsmOut s).fan = s.fan := by
  unfold fanFsmOut
  cases s.fan.gear <;> rfl

theorem reqBit_fanFsmOut (h : s.fan.gear = if fanOn s.fan.fsm then .low else .no) :
    (fanFsmOut s).reqBit .fan = fanOn s.fan.fsm := by
  unfold fanFsmOut
  cases hon : fanOn s.fan.fsm <;> simp [h, hon]

/-- The state machine and the gear before `Fan_Fsm_Out`. -/
theorem fanFsmExe_fan (sig : FanSig) (h : s.fan.gear = if fanOn s.fan.fsm then .low else .no) :
    (fanFsmExe sig s).fan.fsm = fanNext (s.alarmBit .e7) sig s.tmo.fan s.fan.fsm ∧ FanOk (fanFsmExe sig s) := by
  have hreset : (fanAlarmReset s).fan.gear = if fanOn (fanAlarmReset s).fan.fsm then .low else .no := by
    unfold fanAlarmReset
    split
    · rfl
    · exact h
  have hnext : (fanFsm sig (fanAlarmReset s)).fan.fsm =
      fanNext (s.alarmBit .e7) sig s.tmo.fan s.fan.fsm := by
    rw [fanFsm_fsm, fanAlarmReset, fanNext]
    split <;> rfl
  have hgear := fanFsm_gear (fanAlarmReset s) sig hreset
  have hlow := fanLowGear_fan _ hgear
  have hlow' : (fanLowGear (fanFsm sig (fanAlarmReset s))).fan.gear =
      if fanOn (fanLowGear (fanFsm sig (fanAlarmReset s))).fan.fsm then .low else .no := by
    rw [hlow]
    exact hgear
  unfold fanFsmExe
  refine ⟨?_, ?_, ?_⟩
  · rw [fanFsmOut_fan, hlow, hnext]
  · rw [fanFsmOut_fan]
    exact hlow'
  · rw [fanFsmOut_fan]
    exact reqBit_fanFsmOut _ hlow'

/-- `fan_req_exe` takes the fan to its next state, and gear and request follow. -/
theorem FanOk.fanReqExe {s : Sys} (h : FanOk s) (temp : Int) :
    (fanReqExe temp s).fan.fsm = fanNext (s.alarmBit .e7) (fanSignalGen s) s.tmo.fan s.fan.fsm ∧
      FanOk (fanReqExe temp s) := by
  obtain ⟨hfsm, hgear, hreq⟩ := fanFsmExe_fan s (fanSignalGen s) h.gear
  exact ⟨hfsm, hgear, hreq⟩

end fanReqExe

end WM.Proof
