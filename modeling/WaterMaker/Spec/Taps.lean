import WaterMaker.Framework.Run
import WaterMaker.Impl.Types

/-!
# Pumps, valves and the closing of a dispense

What dispensing is about: three pumps and two outlet valves, the hand-shake with the background thread
(`ok`), the closing delay and the clock of the dispense. `Plumbing` says how the machine is built and set
up. A pass of dispensing takes one action (`Act`); every served pass counts on the clock and ends with the
largest time. What the three closings at the end of a dispense come to is in
`Spec.Closing`.
-/

namespace WM.Spec

open WM WM.Impl

/-- How pumps and valves are built and set up. -/
structure Plumbing where
  /-- seconds between the closing of pump and valve, and which of them closes first -/
  delay : Nat
  pumpFirst : Bool
  /-- there is an ice tank with a valve of its own, not wired to a lamp -/
  iceTank : Bool
  iceValve : Bool
  /-- the water comes out of the machine's own tank, not from an external source -/
  air : Bool
  /-- the dispensing pump circulates for the lamp -/
  circ : Bool
  deriving DecidableEq

structure Taps where
  ok : OutOk
  flag : Water
  closeDelay : Nat
  clock : Nat
  /-- the dispensing, the hot-water and the purification pump -/
  wp : Bool
  hwp : Bool
  pwp : Bool
  /-- the outlet valve and the ice tank's -/
  ev2 : Bool
  ev3 : Bool
  deriving DecidableEq

/-- What a pass of dispensing does. -/
inductive Act
  /-- nothing is demanded, or it must not be served: everything is closed -/
  | close
  /-- the target volume of one water type is reached -/
  | target (w : Water)
  /-- the instant heater is asked, or asked to pause -/
  | hot (ok : OutOk)
  | pause (flag : Water)
  /-- the boiler's pump runs -/
  | pot
  /-- cold water is let out through either valve -/
  | cold (normal ice : Bool)

namespace Taps

variable (p : Plumbing)

def stopPump (t : Taps) : Taps := if p.circ then t else { t with wp := false }

/-- The outputs of one water type. -/
def closeWater (w : Water) (t : Taps) : Taps :=
  match w with
  | .normalIce =>
    if p.delay ≠ 0 then
      let t := { t with closeDelay := p.delay % 256 }
      if p.pumpFirst then t.stopPump p else { t with ev2 := false }
    else { t.stopPump p with ev2 := false }
  | .heat =>
    let t := { t with hwp := false }
    if !p.pumpFirst || t.closeDelay = 0 then { t with ev2 := false } else t
  | .ice =>
    if p.iceTank then
      { (if p.pumpFirst || t.closeDelay = 0 then t.stopPump p else t) with ev3 := false }
    else t
  | _ => t

/-- The second of pump and valve closes when the delay is over. -/
def wait (t : Taps) : Taps :=
  if t.closeDelay ≠ 0 then
    let t := { t with closeDelay := t.closeDelay - 1 }
    if p.delay ≠ 0 ∧ t.closeDelay = 0 then
      if p.pumpFirst then { t with ev2 := false } else t.stopPump p
    else t
  else t

def close (w : Water) (t : Taps) : Taps :=
  let t := { t with clock := 0, flag := .no }
  if t.ok ≠ .idle then closeWater p w { t with ok := .out } else t.wait p

/-- The three closings that end a dispense. -/
def closeAll (t : Taps) : Taps := t |> close p .normalIce |> close p .heat |> close p .ice

/-- The largest time of a dispense. -/
def limit (t : Taps) : Taps := if t.clock ≥ 600 then t.closeAll p else t

def count (t : Taps) : Taps := { t with clock := (t.clock + 1) % 65536 }

/-- Cold water through the pump, or from an external source, and through one of the valves. -/
def serveCold (normal ice : Bool) (t : Taps) : Taps :=
  let t := if p.air then { t with wp := true, pwp := false } else { t with wp := false }
  let t := if p.iceTank then
      if normal then { t with ev2 := true, ev3 := false }
      else if ice then { t with ev2 := false, ev3 := p.iceValve }
      else t
    else if normal then { t with ev2 := true } else t
  { t with ok := .read, flag := .normalIce }

/-- One pass of dispensing. The heater's pause returns before the largest time is looked at. -/
def pass (a : Act) (t : Taps) : Taps :=
  match a with
  | .close => t.closeAll p
  | .target w => (t.count.close p w).limit p
  | .hot ok => ({ t.count with ok := ok, flag := .heat } : Taps).limit p
  | .pause flag => { t.count with flag := flag }
  | .pot => ({ t.count with ok := .read, flag := .heatPot, hwp := true } : Taps).limit p
  | .cold normal ice => (t.count.serveCold p normal ice).limit p

/-- The outputs that an action opens. -/
def opened (a : Act) (t : Taps) : Taps :=
  match a with
  | .pot => { t.count with ok := .read, flag := .heatPot, hwp := true }
  | .cold normal ice => t.count.serveCold p normal ice
  | _ => t

/-- The hand-shake: the background thread takes a finished dispense. -/
def consume (t : Taps) : Taps := if t.ok = .out then { t with ok := .idle } else t

/-! ## What a pass can open -/

/-- No output is opened. -/
structure Shuts (t t' : Taps) : Prop where
  wp : t'.wp = true → t.wp = true
  hwp : t'.hwp = true → t.hwp = true
  pwp : t'.pwp = true → t.pwp = true
  ev2 : t'.ev2 = true → t.ev2 = true
  ev3 : t'.ev3 = true → t.ev3 = true

theorem Shuts.refl (t : Taps) : Shuts t t := ⟨id, id, id, id, id⟩

theorem Shuts.trans {t t' t'' : Taps} (h : Shuts t t') (h' : Shuts t' t'') : Shuts t t'' :=
  ⟨h.wp ∘ h'.wp, h.hwp ∘ h'.hwp, h.pwp ∘ h'.pwp, h.ev2 ∘ h'.ev2, h.ev3 ∘ h'.ev3⟩

/-- What the programs around dispensing may do to it: they close, and start the pump only to circulate or
while it waits for its own closing. -/
structure Eases (t t' : Taps) : Prop where
  held : t = { t' with wp := t.wp, pwp := t.pwp, ev2 := t.ev2, ev3 := t.ev3 }
  wp : t'.wp = true → t.wp = true ∨ p.circ = true ∨ p.pumpFirst = false ∧ t.closeDelay ≠ 0
  pwp : t'.pwp = true → t.pwp = true
  ev2 : t'.ev2 = true → t.ev2 = true
  ev3 : t'.ev3 = true → t.ev3 = true

namespace Eases

variable {p}

theorem refl (t : Taps) : Eases p t t := ⟨rfl, .inl, id, id, id⟩

variable {t t' : Taps} (h : Eases p t t')
include h

theorem ok : t'.ok = t.ok := (congrArg Taps.ok h.held).symm
theorem flag : t'.flag = t.flag := (congrArg Taps.flag h.held).symm
theorem closeDelay : t'.closeDelay = t.closeDelay := (congrArg Taps.closeDelay h.held).symm
theorem hwp : t'.hwp = t.hwp := (congrArg Taps.hwp h.held).symm

end Eases

section closing

variable {p}

theorem shuts_stopPump (t : Taps) : Shuts t (t.stopPump p) := by
  unfold stopPump
  split
  · exact .refl t
  · exact ⟨nofun, id, id, id, id⟩

theorem shuts_closeWater (w : Water) (t : Taps) : Shuts t (t.closeWater p w) := by
  have hev2 : ∀ t : Taps, Shuts t { t with ev2 := false } := fun t => ⟨id, id, id, nofun, id⟩
  have hev3 : ∀ t : Taps, Shuts t { t with ev3 := false } := fun t => ⟨id, id, id, id, nofun⟩
  have hhwp : ∀ t : Taps, Shuts t { t with hwp := false } := fun t => ⟨id, nofun, id, id, id⟩
  have hdelay : ∀ n, Shuts t { t with closeDelay := n } := fun n => ⟨id, id, id, id, id⟩
  cases w with
  | normalIce =>
    simp only [closeWater]
    split_ifs
    · exact (hdelay _).trans (shuts_stopPump _)
    · exact (hdelay (p.delay % 256)).trans (hev2 _)
    · exact (shuts_stopPump t).trans (hev2 _)
  | heat =>
    simp only [closeWater]
    split_ifs
    · exact (hhwp t).trans (hev2 _)
    · exact hhwp t
  | ice =>
    simp only [closeWater]
    split_ifs
    · exact (shuts_stopPump t).trans (hev3 _)
    · exact hev3 t
    · exact .refl t
  | no | heatPot => exact .refl t

theorem shuts_wait (t : Taps) : Shuts t (t.wait p) := by
  have hdelay : ∀ n, Shuts t { t with closeDelay := n } := fun n => ⟨id, id, id, id, id⟩
  unfold wait
  dsimp only
  split_ifs
  · exact ⟨id, id, id, nofun, id⟩
  · exact (hdelay _).trans (shuts_stopPump _)
  · exact hdelay _
  · exact .refl t

theorem shuts_close (w : Water) (t : Taps) : Shuts t (t.close p w) := by
  have hflag : ∀ ok, Shuts t { t with clock := 0, flag := .no, ok := ok } := fun _ => ⟨id, id, id, id, id⟩
  unfold close
  dsimp only
  split
  · exact (hflag _).trans (shuts_closeWater w _)
  · exact (hflag _).trans (shuts_wait _)

theorem shuts_closeAll (t : Taps) : Shuts t (t.closeAll p) :=
  (shuts_close _ t).trans ((shuts_close _ _).trans (shuts_close _ _))

theorem shuts_limit (t : Taps) : Shuts t (t.limit p) := by
  unfold limit
  split
  · exact shuts_closeAll t
  · exact .refl t

theorem serveCold_wp (n i : Bool) (t : Taps) : (t.serveCold p n i).wp = p.air := by
  unfold serveCold
  split_ifs <;> simp_all

theorem serveCold_pwp {n i : Bool} {t : Taps} (h : (t.serveCold p n i).pwp = true) : t.pwp = true := by
  unfold serveCold at h
  split_ifs at h <;> simp_all

theorem serveCold_pwp_air (hair : p.air = true) {n i : Bool} {t : Taps} :
    (t.serveCold p n i).pwp = false := by
  unfold serveCold
  rw [if_pos hair]
  split_ifs <;> rfl

theorem serveCold_hwp (n i : Bool) (t : Taps) : (t.serveCold p n i).hwp = t.hwp := by
  unfold serveCold
  split_ifs <;> rfl

theorem serveCold_ok (n i : Bool) (t : Taps) : (t.serveCold p n i).ok = .read := rfl

theorem serveCold_closeDelay (n i : Bool) (t : Taps) : (t.serveCold p n i).closeDelay = t.closeDelay := by
  unfold serveCold
  split_ifs <;> rfl

theorem serveCold_clock (n i : Bool) (t : Taps) : (t.serveCold p n i).clock = t.clock := by
  unfold serveCold
  split_ifs <;> rfl

theorem serveCold_flag (n i : Bool) (t : Taps) : (t.serveCold p n i).flag = .normalIce := rfl

/-- The dispensing pump is opened by cold water from the machine's own tank alone. -/
theorem opened_wp {a : Act} {t : Taps} (h : (t.opened p a).wp = true) :
    t.wp = true ∨ p.air = true ∧ ∃ n i, a = .cold n i := by
  cases a with
  | cold n i => exact .inr ⟨serveCold_wp n i t.count ▸ h, n, i, rfl⟩
  | close | target _ | hot _ | pause _ | pot => exact .inl h

theorem opened_pwp {a : Act} {t : Taps} (h : (t.opened p a).pwp = true) : t.pwp = true := by
  cases a with
  | cold n i => exact serveCold_pwp (t := t.count) h
  | close | target _ | hot _ | pause _ | pot => exact h

theorem opened_ev2 {a : Act} {t : Taps} (h : (t.opened p a).ev2 = true) :
    t.ev2 = true ∨ ∃ n i, a = .cold n i := by
  cases a with
  | cold n i => exact .inr ⟨n, i, rfl⟩
  | close | target _ | hot _ | pause _ | pot => exact .inl h

/-- A pass opens what its action opens and may close some of it. -/
theorem shuts_pass (a : Act) (t : Taps) : Shuts (t.opened p a) (t.pass p a) := by
  have hcount : ∀ ok flag, Shuts t { t.count with ok := ok, flag := flag } := fun _ _ => ⟨id, id, id, id, id⟩
  cases a with
  | close => exact shuts_closeAll t
  | target w => exact (hcount t.ok t.flag).trans ((shuts_close w t.count).trans (shuts_limit _))
  | hot ok => exact (hcount ok .heat).trans (shuts_limit _)
  | pause flag => exact hcount t.ok flag
  | pot => exact shuts_limit _
  | cold n i => exact shuts_limit _

theorem closeWater_clock (w : Water) (t : Taps) : (t.closeWater p w).clock = t.clock := by
  cases w <;> simp only [closeWater, stopPump] <;> split_ifs <;> rfl

theorem wait_clock (t : Taps) : (t.wait p).clock = t.clock := by
  simp only [wait, stopPump]
  split_ifs <;> rfl

theorem close_clock (w : Water) (t : Taps) : (t.close p w).clock = 0 := by
  simp only [close]
  split
  · rw [closeWater_clock]
  · rw [wait_clock]

theorem closeAll_clock (t : Taps) : (t.closeAll p).clock = 0 := close_clock _ _

/-- A closed dispense has its whole time before it. -/
theorem limit_of_clock {t : Taps} (h : t.clock < 600) : t.limit p = t := if_neg (Nat.not_le.mpr h)

end closing

end Taps

end WM.Spec
