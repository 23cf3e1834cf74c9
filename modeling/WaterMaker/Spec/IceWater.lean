import WaterMaker.Impl.System
import Mathlib.Tactic.Common

/-!
# The valves of the ice water

Ice water is made through two valves: `CV` opens first and closes last, `WV` follows and leads by two calls. A latch
says whether ice water is wanted; when it turns over, both delays are loaded, the first for the seconds of another
thread, the second for calls. `IceLog` keeps the requests after the last call but one beside them. `closing_call` and
`opening_call` are the two halves of the order: `WV` was off, or `CV` was on, after the calls that the second delay
has counted. The second half needs the mode not to be left while `CV` is being opened or open (`Settled`): leaving it
closes both valves, and the latch and the delays stay behind.
-/

namespace WM.Spec

/-- The latch `u8Coldwater`, `Cold_Delay` and the requests of the valves. -/
structure IceValves where
  latch : Bool
  delay0 : Nat
  delay1 : Nat
  cv : Bool
  wv : Bool
  deriving DecidableEq, Repr

/-- What a call meets. -/
inductive IceCall
  /-- another source of water, or a machine without the middle float: it returns at once -/
  | back
  /-- another mode -/
  | off
  /-- what the level and the temperature ask for, if they do -/
  | make (want : Option Bool)
  deriving DecidableEq, Repr

namespace IceValves

def turn (on : Bool) (v : IceValves) : IceValves :=
  if v.latch = on then v else { v with latch := on, delay0 := 60, delay1 := 2 }

def drive (v : IceValves) : IceValves :=
  if v.delay0 ≠ 0 then v
  else if v.delay1 ≠ 0 then
    { v with cv := v.cv || v.latch, wv := v.wv && v.latch, delay1 := v.delay1 - 1 }
  else { v with cv := v.latch, wv := v.latch }

def call (c : IceCall) (v : IceValves) : IceValves :=
  match c with
  | .back => v
  | .off => { v with cv := false, wv := false }
  | .make want => (v.turn (want.getD v.latch)).drive

/-- A second of the other thread. -/
def second (v : IceValves) : IceValves := { v with delay0 := v.delay0 - 1 }

end IceValves

/-- The valves, and what was requested after the last call but one. -/
structure IceLog where
  now : IceValves
  cv : Bool
  wv : Bool
  deriving DecidableEq, Repr

namespace IceLog

def call (c : IceCall) (l : IceLog) : IceLog := ⟨l.now.call c, l.now.cv, l.now.wv⟩

def second (l : IceLog) : IceLog := { l with now := l.now.second }

/-- `WV` is requested only with `CV`; and since the demand ended, `WV` was off after the calls that are counted. -/
structure Closing (l : IceLog) : Prop where
  both : l.now.wv = true → l.now.cv = true
  last : l.now.latch = false → l.now.delay1 < 2 → l.now.wv = false
  before : l.now.latch = false → l.now.delay1 < 1 → l.wv = false

/-- Since the demand began, `CV` was on after the calls that are counted. -/
structure Opening (l : IceLog) : Prop where
  last : l.now.latch = true → l.now.delay1 < 2 → l.now.cv = true
  before : l.now.latch = true → l.now.delay1 < 1 → l.cv = true

/-- The call does not leave the mode once `CV` has begun to open. -/
def Settled (l : IceLog) (c : IceCall) : Prop := c = .off → l.now.latch = true → 2 ≤ l.now.delay1

instance (l : IceLog) (c : IceCall) : Decidable (l.Settled c) := by unfold Settled; infer_instance

variable {l : IceLog} {c : IceCall} {want : Option Bool}

/-- A call that makes ice water: the latch turns over, with new delays, or the first delay still runs, or the valves are
driven. -/
theorem make_cases (v : IceValves) (want : Option Bool) :
    (v.call (.make want) = { v with latch := !v.latch, delay0 := 60, delay1 := 2 }) ∨
      (v.delay0 ≠ 0 ∧ v.call (.make want) = v) ∨
      (v.delay0 = 0 ∧ v.delay1 ≠ 0 ∧ v.call (.make want) =
        { v with cv := v.cv || v.latch, wv := v.wv && v.latch, delay1 := v.delay1 - 1 }) ∨
      (v.delay0 = 0 ∧ v.delay1 = 0 ∧ v.call (.make want) = { v with cv := v.latch, wv := v.latch }) := by
  unfold IceValves.call IceValves.turn IceValves.drive
  dsimp only
  by_cases hturn : v.latch = want.getD v.latch
  · rw [if_pos hturn]
    by_cases h0 : v.delay0 = 0
    · rw [if_neg (not_not.mpr h0)]
      by_cases h1 : v.delay1 = 0
      · rw [if_neg (not_not.mpr h1)]
        exact Or.inr (Or.inr (Or.inr ⟨h0, h1, rfl⟩))
      · rw [if_pos h1]
        exact Or.inr (Or.inr (Or.inl ⟨h0, h1, rfl⟩))
    · rw [if_pos h0]
      exact Or.inr (Or.inl ⟨h0, rfl⟩)
  · rw [if_neg hturn]
    left
    have hnot : want.getD v.latch = !v.latch := by
      cases hl : v.latch <;> cases hw : want.getD v.latch <;> simp_all
    rw [hnot]
    rfl

theorem closing_second (h : l.Closing) : l.second.Closing := ⟨h.both, h.last, h.before⟩

theorem opening_second (h : l.Opening) : l.second.Opening := ⟨h.last, h.before⟩

theorem closing_call (h : l.Closing) (c : IceCall) : (l.call c).Closing := by
  obtain ⟨v, cv, wv⟩ := l
  obtain ⟨hboth, hlast, -⟩ := h
  dsimp only at hboth hlast
  cases c with
  | back => exact ⟨hboth, hlast, fun hl h1 => hlast hl (Nat.lt_succ_of_lt h1)⟩
  | off => exact ⟨nofun, fun _ _ => rfl, fun hl h1 => hlast hl (Nat.lt_succ_of_lt h1)⟩
  | make want =>
    unfold call
    rcases make_cases v want with heq | ⟨-, heq⟩ | ⟨-, h1, heq⟩ | ⟨-, h1, heq⟩ <;> rw [heq]
    · exact ⟨hboth, fun _ h => absurd h (Nat.lt_irrefl 2), fun _ h => nomatch h⟩
    · exact ⟨hboth, hlast, fun hl h => hlast hl (Nat.lt_succ_of_lt h)⟩
    · refine ⟨fun hw => ?_, fun hl _ => ?_, fun hl h => hlast hl ?_⟩
      · dsimp only at hw ⊢
        rw [hboth (Bool.and_eq_true_iff.mp hw).1, Bool.true_or]
      · dsimp only at hl ⊢
        rw [hl, Bool.and_false]
      · exact Nat.sub_lt_iff_lt_add (Nat.pos_of_ne_zero h1) |>.mp h
    · exact ⟨id, fun hl _ => hl, fun hl h => hlast hl (Nat.lt_succ_of_lt h)⟩

theorem opening_call (h : l.Opening) (hs : l.Settled c) : (l.call c).Opening := by
  obtain ⟨v, cv, wv⟩ := l
  obtain ⟨hlast, -⟩ := h
  dsimp only at hlast
  cases c with
  | back => exact ⟨hlast, fun hl h1 => hlast hl (Nat.lt_succ_of_lt h1)⟩
  | off =>
    -- the valves close, but the second delay has not begun to count
    have hfull : v.latch = true → ¬v.delay1 < 2 := fun hl => Nat.not_lt.mpr (hs rfl hl)
    exact ⟨fun hl h => absurd h (hfull hl), fun hl h => absurd (Nat.lt_succ_of_lt h) (hfull hl)⟩
  | make want =>
    unfold call
    rcases make_cases v want with heq | ⟨-, heq⟩ | ⟨-, h1, heq⟩ | ⟨-, h1, heq⟩ <;> rw [heq]
    · exact ⟨fun _ h => absurd h (Nat.lt_irrefl 2), fun _ h => nomatch h⟩
    · exact ⟨hlast, fun hl h => hlast hl (Nat.lt_succ_of_lt h)⟩
    · refine ⟨fun hl _ => ?_, fun hl h => hlast hl ?_⟩
      · dsimp only at hl ⊢
        rw [hl, Bool.or_true]
      · exact Nat.sub_lt_iff_lt_add (Nat.pos_of_ne_zero h1) |>.mp h
    · exact ⟨fun hl _ => hl, fun hl h => hlast hl (Nat.lt_succ_of_lt h)⟩

/-- `CV` is closed, while ice water can be made, only after two calls with `WV` off. -/
theorem falls (h : l.Closing) (hon : l.now.cv = true) (hoff : (l.now.call (.make want)).cv = false) :
    l.now.wv = false ∧ l.wv = false := by
  rcases make_cases l.now want with heq | ⟨-, heq⟩ | ⟨-, -, heq⟩ | ⟨-, h1, heq⟩ <;> rw [heq] at hoff
  · exact absurd (hoff.symm.trans hon) Bool.false_ne_true
  · exact absurd (hoff.symm.trans hon) Bool.false_ne_true
  · rw [hon, Bool.true_or] at hoff
    cases hoff
  · exact ⟨h.last hoff (by omega), h.before hoff (by omega)⟩

/-- `WV` is opened only after two calls with `CV` on. -/
theorem rises (h : l.Opening) (hoff : l.now.wv = false) (hon : (l.now.call c).wv = true) :
    l.now.cv = true ∧ l.cv = true := by
  cases c with
  | back => exact absurd (hoff.symm.trans hon) Bool.false_ne_true
  | off => cases hon
  | make want =>
    rcases make_cases l.now want with heq | ⟨-, heq⟩ | ⟨-, -, heq⟩ | ⟨-, h1, heq⟩ <;> rw [heq] at hon
    · exact absurd (hoff.symm.trans hon) Bool.false_ne_true
    · exact absurd (hoff.symm.trans hon) Bool.false_ne_true
    · rw [hoff, Bool.false_and] at hon
      cases hon
    · exact ⟨h.last hon (by omega), h.before hon (by omega)⟩

end IceLog

/-! ## The calls of the firmware -/

open WM WM.Impl

def iceOf (s : Sys) : IceValves :=
  ⟨s.cold.u8Coldwater, s.cold.delay0, s.cold.delay1, s.reqBit .cv, s.reqBit .wv⟩

/-- What the level and the temperature ask for. -/
def iceWanted (s : Sys) : Option Bool :=
  let t := i16 s.inp.ntc4
  if (getWaterLevel s).dL && (getWaterLevel s).dML && t != 0x7FFF then
    if t > s.cfg.coldWaterStartTemp then some true
    else if t < s.cfg.coldWaterStopTemp then some false else none
  else some false

def iceCallOf (s : Sys) : IceCall :=
  if s.cfg.exitWater ≠ .air then .back
  else if !s.cfg.maskDin.getLsbD 6 then .back
  else if s.cfg.normalIce then .make (iceWanted s)
  else .off

/-- The state `x`, but for the registers of the ice water: they are where the last call or second has left them. -/
def withIce (v : IceValves) (x : Sys) : Sys :=
  setCold (fun c => { c with u8Coldwater := v.latch, delay0 := v.delay0, delay1 := v.delay1 }) x
    |> reqBitmapOp .cv v.cv |> reqBitmapOp .wv v.wv

/-- A call of `Cold_Water_exe` or a second of `sys_comp_cooldown` in the state `x`. -/
inductive IceEvent
  | call (x : Sys)
  | second (x : Sys)

def iceStep (l : IceLog) : IceEvent → IceLog
  | .call x => ⟨iceOf (coldWaterExe (withIce l.now x)), l.now.cv, l.now.wv⟩
  | .second x => { l with now := iceOf (sysCompCooldown (withIce l.now x)) }

/-- Both valves are closed. -/
def iceStart : IceLog := ⟨⟨false, 0, 0, false, false⟩, false, false⟩

/-- The call does not leave the mode once `CV` has begun to open. -/
def Keeping (l : IceLog) : IceEvent → Prop
  | .call x => l.Settled (iceCallOf x)
  | .second _ => True

instance (l : IceLog) (e : IceEvent) : Decidable (Keeping l e) := by
  cases e <;> unfold Keeping <;> infer_instance

end WM.Spec
