import WaterMaker.Spec.Taps

/-!
# The closing of a dispense

Pump and valve close one after the other, `delay` seconds apart. Once a dispense is over, the one that is
still open waits for its closing (`Waits`) and the hot-water pump is off (`Closed`); `Orderly` says that
this holds whenever no dispense is served, and every action but the closing of a single water type keeps it
(`Orderly.pass`). A pass without a demand ends the dispense and, once the hand-shake is over, takes three
steps of the countdown (`closeAll_closeDelay`).
-/

namespace WM.Spec.Taps

open WM WM.Impl WM.Spec

variable {p : Plumbing} {t t' : Taps}

variable (p t) in
/-- Pump and valve are open only for as long as their closing waits. -/
structure Waits : Prop where
  le : t.closeDelay ≤ p.delay
  wp : t.wp = true → p.pumpFirst = false ∧ t.closeDelay ≠ 0
  ev2 : t.ev2 = true → p.pumpFirst = true ∧ t.closeDelay ≠ 0

theorem Waits.of_shuts (h : Waits p t) (hs : Shuts t t') (hd : t'.closeDelay = t.closeDelay) : Waits p t' :=
  ⟨hd ▸ h.le, fun hw => hd ▸ h.wp (hs.wp hw), fun hv => hd ▸ h.ev2 (hs.ev2 hv)⟩

/-- When the countdown is over, both are closed. -/
theorem Waits.off (h : Waits p t) (hd : t.closeDelay = 0) : t.wp = false ∧ t.ev2 = false :=
  ⟨Bool.eq_false_iff.mpr fun hw => (h.wp hw).2 hd, Bool.eq_false_iff.mpr fun hv => (h.ev2 hv).2 hd⟩

/-! ## Single closings -/

theorem closeWater_ok (w : Water) : (t.closeWater p w).ok = t.ok := by
  cases w <;> simp only [closeWater, stopPump] <;> split_ifs <;> rfl

theorem closeWater_closeDelay {w : Water} (hw : w ≠ .normalIce) :
    (t.closeWater p w).closeDelay = t.closeDelay := by
  cases w <;> first | exact absurd rfl hw | (simp only [closeWater, stopPump] <;> split_ifs <;> rfl)

/-- The first of pump and valve closes and the countdown starts. -/
theorem waits_closeNormalIce (hdelay : p.delay < 256) (hcirc : p.circ = false) (hle : t.closeDelay ≤ p.delay) :
    Waits p (t.closeWater p .normalIce) := by
  simp only [closeWater, stopPump, hcirc, Bool.false_eq_true, if_false]
  split_ifs with h0 hp
  · rw [Nat.mod_eq_of_lt hdelay]
    exact ⟨le_rfl, fun hoff => absurd hoff Bool.false_ne_true, fun _ => ⟨hp, h0⟩⟩
  · rw [Nat.mod_eq_of_lt hdelay]
    exact ⟨le_rfl, fun _ => ⟨Bool.eq_false_iff.mpr hp, h0⟩, fun hoff => absurd hoff Bool.false_ne_true⟩
  · exact ⟨hle, fun hoff => absurd hoff Bool.false_ne_true, fun hoff => absurd hoff Bool.false_ne_true⟩

theorem Waits.closeWater (h : Waits p t) (hdelay : p.delay < 256) (hcirc : p.circ = false) (w : Water) :
    Waits p (t.closeWater p w) := by
  by_cases hw : w = .normalIce
  · rw [hw]
    exact waits_closeNormalIce hdelay hcirc h.le
  · exact h.of_shuts (shuts_closeWater w t) (closeWater_closeDelay hw)

theorem wait_closeDelay : (t.wait p).closeDelay = t.closeDelay - 1 := by
  simp only [wait, stopPump]
  split_ifs <;> simp_all

/-- The countdown, at the end of which the second of pump and valve closes. -/
theorem Waits.wait (h : Waits p t) (hcirc : p.circ = false) : Waits p (t.wait p) := by
  have hle : (t.wait p).closeDelay ≤ p.delay := by
    rw [wait_closeDelay]
    exact (Nat.sub_le ..).trans h.le
  refine ⟨hle, fun hw => ⟨(h.wp ((shuts_wait t).wp hw)).1, fun h0 => ?_⟩,
    fun hv => ⟨(h.ev2 ((shuts_wait t).ev2 hv)).1, fun h0 => ?_⟩⟩
  · obtain ⟨hp, hd⟩ := h.wp ((shuts_wait t).wp hw)
    have hlast : p.delay ≠ 0 ∧ t.closeDelay - 1 = 0 := by
      rw [wait_closeDelay] at h0
      exact ⟨by have := h.le; omega, h0⟩
    simp [Taps.wait, stopPump, hd, hlast, hp, hcirc] at hw
  · obtain ⟨hp, hd⟩ := h.ev2 ((shuts_wait t).ev2 hv)
    have hlast : p.delay ≠ 0 ∧ t.closeDelay - 1 = 0 := by
      rw [wait_closeDelay] at h0
      exact ⟨by have := h.le; omega, h0⟩
    simp [Taps.wait, hd, hlast, hp] at hv

theorem close_running (h : t.ok ≠ .idle) (w : Water) :
    t.close p w = closeWater p w { t with clock := 0, flag := .no, ok := .out } := if_pos h

theorem close_idle (h : t.ok = .idle) (w : Water) : t.close p w = wait p { t with clock := 0, flag := .no } :=
  if_neg (not_not.mpr h)

theorem Waits.close (h : Waits p t) (hdelay : p.delay < 256) (hcirc : p.circ = false) (w : Water) :
    Waits p (t.close p w) := by
  by_cases hok : t.ok = .idle
  · have hflag : Waits p { t with clock := 0, flag := .no } := ⟨h.le, h.wp, h.ev2⟩
    rw [close_idle hok]
    exact hflag.wait hcirc
  · have hflag : Waits p { t with clock := 0, flag := .no, ok := .out } := ⟨h.le, h.wp, h.ev2⟩
    rw [close_running hok]
    exact hflag.closeWater hdelay hcirc w

theorem close_ok (w : Water) : (t.close p w).ok = if t.ok = .idle then .idle else .out := by
  have hwait : ∀ t : Taps, (t.wait p).ok = t.ok := fun t => by
    simp only [wait, stopPump]
    split_ifs <;> rfl
  split
  · rename_i h
    rw [close_idle h, hwait]
    exact h
  · rename_i h
    rw [close_running h, closeWater_ok]

/-! ## The end of a dispense -/

theorem closeAll_ok : (t.closeAll p).ok = if t.ok = .idle then .idle else .out := by
  unfold closeAll
  rw [close_ok, close_ok, close_ok]
  split <;> rfl

/-- After the hand-shake a pass takes three steps of the countdown. -/
theorem closeAll_closeDelay (h : t.ok = .idle) : (t.closeAll p).closeDelay = t.closeDelay - 3 := by
  have hone : ∀ (w : Water) (t : Taps), t.ok = .idle → (t.close p w).closeDelay = t.closeDelay - 1 := fun w t h => by
    rw [close_idle h, wait_closeDelay]
  have hok : ∀ (w : Water) (t : Taps), t.ok = .idle → (t.close p w).ok = .idle := fun w t h => by
    rw [close_ok, if_pos h]
  unfold closeAll
  rw [hone _ _ (hok _ _ (hok _ _ h)), hone _ _ (hok _ _ h), hone _ _ h]
  omega

/-- A running dispense is ended: its hot-water pump stops and, with an ice tank, that tank's valve closes. -/
theorem closeAll_running (h : t.ok ≠ .idle) :
    (t.closeAll p).hwp = false ∧ (p.iceTank = true → (t.closeAll p).ev3 = false) := by
  have hok : ∀ (w : Water) (t : Taps), t.ok ≠ .idle → (t.close p w).ok ≠ .idle := fun w t h => by
    rw [close_ok, if_neg h]
    exact OutOk.noConfusion
  have hheat : ∀ t : Taps, t.ok ≠ .idle → (t.close p .heat).hwp = false := fun t h => by
    rw [close_running h]
    simp only [closeWater]
    split <;> rfl
  have h1 := hok .normalIce t h
  unfold closeAll
  refine ⟨Bool.eq_false_iff.mpr fun hh => ?_, fun hice => ?_⟩
  · exact absurd ((hheat _ h1).symm.trans ((shuts_close .ice _).hwp hh)) Bool.false_ne_true
  · rw [close_running (hok _ _ h1)]
    simp only [closeWater, hice, if_true]

/-! ## The invariant -/

variable (p t) in
/-- A dispense that is over. -/
structure Closed : Prop extends Waits p t where
  hwp : t.hwp = false

variable (p t) in
/-- Whenever no dispense is served, the last one is over. -/
structure Orderly : Prop where
  le : t.closeDelay ≤ p.delay
  closed : t.ok = .idle ∨ t.ok = .out → Closed p t

/-- Only the closing's set-up matters, and not the purification pump. -/
theorem Orderly.congr {p' : Plumbing} (h : Orderly p t) (hd : p'.delay = p.delay)
    (hf : p'.pumpFirst = p.pumpFirst) : Orderly p' t := by
  refine ⟨hd ▸ h.le, fun hok => ?_⟩
  have hc := h.closed hok
  exact ⟨⟨hd ▸ hc.le, hf ▸ hc.wp, hf ▸ hc.ev2⟩, hc.hwp⟩

theorem Orderly.pwp (h : Orderly p t) (b : Bool) : Orderly p { t with pwp := b } :=
  ⟨h.le, fun hok => ⟨⟨h.le, (h.closed hok).wp, (h.closed hok).ev2⟩, (h.closed hok).hwp⟩⟩

/-- The heater's dialogue goes on or stays where it is. -/
def talks (t : Taps) (a : Act) : Prop :=
  match a with
  | .hot ok => ok = .read ∨ ok = .send ∨ ok = t.ok
  | _ => True

section

variable (hdelay : p.delay < 256) (hcirc : p.circ = false)
include hdelay hcirc

/-- The end of a dispense, and every pass without a demand. -/
theorem Orderly.closeAll (h : Orderly p t) : Closed p (t.closeAll p) := by
  by_cases hok : t.ok = .idle
  · have hc := h.closed (.inl hok)
    have hw := ((hc.toWaits.close hdelay hcirc .normalIce).close hdelay hcirc .heat).close hdelay hcirc .ice
    refine ⟨hw, Bool.eq_false_iff.mpr fun hh => ?_⟩
    exact absurd (hc.hwp.symm.trans ((shuts_closeAll t).hwp hh)) Bool.false_ne_true
  · have hfirst : Waits p (t.close p .normalIce) := by
      rw [close_running hok]
      exact waits_closeNormalIce hdelay hcirc h.le
    exact ⟨(hfirst.close hdelay hcirc .heat).close hdelay hcirc .ice, (closeAll_running hok).1⟩

theorem Orderly.limit (h : Orderly p t) : Orderly p (t.limit p) := by
  unfold Taps.limit
  split
  · have hc := h.closeAll hdelay hcirc
    exact ⟨hc.le, fun _ => hc⟩
  · exact h

/-- No action but the closing of a single water type leaves anything behind. -/
theorem Orderly.pass {a : Act} (h : Orderly p t) (ha : t.talks a) (hw : ∀ w, a ≠ .target w) :
    Orderly p (t.pass p a) := by
  have hserved : ∀ t' : Taps, t'.ok = .read ∨ t'.ok = .send → t'.closeDelay = t.closeDelay → Orderly p t' :=
    fun t' hok hd => ⟨hd ▸ h.le, fun hno => by rcases hok with hok | hok <;> simp [hok] at hno⟩
  have hsame : ∀ flag, Orderly p { t.count with flag := flag } := fun flag =>
    ⟨h.le, fun hok => ⟨⟨h.le, (h.closed hok).wp, (h.closed hok).ev2⟩, (h.closed hok).hwp⟩⟩
  cases a with
  | close =>
    have hc := h.closeAll hdelay hcirc
    exact ⟨hc.le, fun _ => hc⟩
  | target w => exact absurd rfl (hw w)
  | hot ok =>
    refine Orderly.limit hdelay hcirc ?_
    rcases ha with hr | hs | hk
    · exact hserved _ (.inl hr) rfl
    · exact hserved _ (.inr hs) rfl
    · rw [hk]
      exact hsame .heat
  | pause flag => exact hsame flag
  | pot =>
    refine Orderly.limit hdelay hcirc ?_
    exact hserved _ (.inl rfl) rfl
  | cold n i =>
    refine Orderly.limit hdelay hcirc ?_
    exact hserved _ (.inl (serveCold_ok n i t.count)) (serveCold_closeDelay n i t.count)

end

/-- The programs around dispensing keep the order. -/
theorem Orderly.eases (h : Orderly p t) (hcirc : p.circ = false) (he : Eases p t t') : Orderly p t' := by
  refine ⟨he.closeDelay ▸ h.le, fun hok => ?_⟩
  rw [he.ok] at hok
  have hc := h.closed hok
  refine ⟨⟨he.closeDelay ▸ h.le, fun hw => ?_, fun hv => ?_⟩, he.hwp.trans hc.hwp⟩
  · rw [he.closeDelay]
    rcases he.wp hw with hw | hw | hw
    · exact hc.wp hw
    · exact absurd (hcirc.symm.trans hw) Bool.false_ne_true
    · exact hw
  · rw [he.closeDelay]
    exact hc.ev2 (he.ev2 hv)

theorem Orderly.consume (h : Orderly p t) : Orderly p t.consume := by
  unfold Taps.consume
  split
  · rename_i hok
    have hc := h.closed (.inr hok)
    exact ⟨h.le, fun _ => ⟨⟨hc.le, hc.wp, hc.ev2⟩, hc.hwp⟩⟩
  · exact h

/-! ## What is left behind -/

variable (p t) in
/-- The hot-water pump and the ice tank's valve are off. -/
def Shut : Prop := t.hwp = false ∧ (p.iceTank = true → t.ev3 = false)

theorem Shut.of_shuts (h : Shut p t) (hs : Shuts t t') : Shut p t' :=
  ⟨Bool.eq_false_iff.mpr fun hh => absurd (h.1.symm.trans (hs.hwp hh)) Bool.false_ne_true,
    fun hice => Bool.eq_false_iff.mpr fun hv => absurd ((h.2 hice).symm.trans (hs.ev3 hv)) Bool.false_ne_true⟩

/-- A pass without a demand shuts what a running dispense has open, and nothing after it. -/
theorem shut_closeAll (h : t.ok = .idle → Shut p t) : Shut p (t.closeAll p) := by
  by_cases hok : t.ok = .idle
  · exact (h hok).of_shuts (shuts_closeAll t)
  · exact closeAll_running hok

theorem idle_of_limit (h : (t.limit p).ok = .idle) : t.ok = .idle := by
  unfold limit at h
  split at h
  · rw [closeAll_ok] at h
    by_contra hok
    rw [if_neg hok] at h
    exact OutOk.noConfusion h
  · exact h

theorem idle_of_close {w : Water} (h : (t.close p w).ok = .idle) : t.ok = .idle := by
  rw [close_ok] at h
  by_contra hok
  rw [if_neg hok] at h
  exact OutOk.noConfusion h

/-- A pass leaves the hand-shake idle only where it was, and opens nothing then. -/
theorem idle_of_pass {a : Act} (ha : t.talks a) (h : (t.pass p a).ok = .idle) :
    t.ok = .idle ∧ Shuts t (t.pass p a) := by
  have hs := shuts_pass (p := p) a t
  cases a with
  | close =>
    rw [pass, closeAll_ok] at h
    by_cases hok : t.ok = .idle
    · exact ⟨hok, hs⟩
    · rw [if_neg hok] at h
      exact OutOk.noConfusion h
  | target w => exact ⟨idle_of_close (t := t.count) (idle_of_limit h), hs⟩
  | hot ok =>
    have hok : ok = .idle := idle_of_limit h
    rw [hok] at ha
    rcases ha with ha | ha | ha
    · exact OutOk.noConfusion ha
    · exact OutOk.noConfusion ha
    · exact ⟨ha.symm, hs⟩
  | pause flag => exact ⟨h, hs⟩
  | pot => exact OutOk.noConfusion (idle_of_limit h)
  | cold n i => exact OutOk.noConfusion (idle_of_limit h)

/-- Whatever a pass does: if nothing was left behind after the hand-shake, nothing is. -/
theorem shut_of_idle_pass {a : Act} (ha : t.talks a) (h : t.ok = .idle → Shut p t)
    (hok : (t.pass p a).ok = .idle) : Shut p (t.pass p a) := by
  obtain ⟨hidle, hs⟩ := idle_of_pass ha hok
  exact (h hidle).of_shuts hs

/-! ## The largest time -/

variable (t) in
/-- The dispense is over: no water comes out, and none is metered. -/
def Over : Prop := t.flag = .no ∧ t.ok ≠ .read

theorem over_close (w : Water) (t : Taps) : (t.close p w).Over := by
  have hwater : ∀ t : Taps, (t.closeWater p w).flag = t.flag ∧ (t.closeWater p w).ok = t.ok := fun t => by
    constructor <;> cases w <;> simp only [closeWater, stopPump] <;> split_ifs <;> rfl
  have hwait : ∀ t : Taps, (t.wait p).flag = t.flag ∧ (t.wait p).ok = t.ok := fun t => by
    simp only [wait, stopPump]
    split_ifs <;> exact ⟨rfl, rfl⟩
  by_cases h : t.ok = .idle
  · rw [close_idle h]
    exact ⟨(hwait _).1, (hwait _).2.trans_ne (h.trans_ne (by decide))⟩
  · rw [close_running h]
    exact ⟨(hwater _).1, (hwater _).2.trans_ne (show OutOk.out ≠ .read by decide)⟩

/-- The clock after the limit was looked at: cut off, or below it. -/
theorem limit_cases : ((t.limit p).Over ∧ (t.limit p).clock = 0) ∨ t.limit p = t ∧ t.clock < 600 := by
  unfold limit
  split
  · exact .inl ⟨over_close _ _, closeAll_clock t⟩
  · rename_i h
    exact .inr ⟨rfl, by omega⟩

/-- A pass of a dispense ends it, or takes one step of its clock; the heater's pause does not look at the
limit. -/
theorem pass_clock {a : Act} (h : t.clock < 600) (ha : t.clock < 599 ∨ ∀ f, a ≠ .pause f) :
    ((t.pass p a).Over ∧ (t.pass p a).clock = 0) ∨ (t.pass p a).clock = t.clock + 1 ∧ t.clock < 599 := by
  have hcount : t.count.clock = t.clock + 1 := Nat.mod_eq_of_lt (by omega)
  have hlimit : ∀ t' : Taps, t'.clock = t.clock + 1 → ((t'.limit p).Over ∧ (t'.limit p).clock = 0) ∨
      (t'.limit p).clock = t.clock + 1 ∧ t.clock < 599 := fun t' ht => by
    rcases limit_cases (p := p) (t := t') with hcut | ⟨hsame, hlt⟩
    · exact .inl hcut
    · rw [hsame]
      exact .inr ⟨ht, by omega⟩
  cases a with
  | close => exact .inl ⟨over_close _ _, closeAll_clock t⟩
  | target w =>
    rw [pass, limit_of_clock (by rw [close_clock]; omega)]
    exact .inl ⟨over_close w t.count, close_clock w t.count⟩
  | hot ok => exact hlimit _ hcount
  | pause flag =>
    rcases ha with ha | ha
    · exact .inr ⟨hcount, ha⟩
    · exact absurd rfl (ha flag)
  | pot => exact hlimit _ hcount
  | cold n i => exact hlimit _ ((serveCold_clock n i t.count).trans hcount)

/-- The actions that let water out. -/
def serves : Act → Bool
  | .hot _ | .pot | .cold .. => true
  | _ => false

/-- The heater is asked to pause. -/
def pauses : Act → Bool
  | .pause _ => true
  | _ => false

/-- A pass that lets water out opens the dispense again, unless its time is over. -/
theorem pass_reopens {a : Act} (h : t.clock < 599) (ha : serves a = true) : (t.pass p a).flag ≠ .no := by
  have hcount : t.count.clock < 600 := (Nat.mod_le ..).trans_lt (by omega)
  have hopen : ∀ t' : Taps, t'.clock < 600 → t'.flag ≠ .no → (t'.limit p).flag ≠ .no := fun t' hc hf => by
    rw [limit_of_clock hc]
    exact hf
  cases a with
  | hot ok => exact hopen _ hcount nofun
  | pot => exact hopen _ hcount nofun
  | cold n i => exact hopen _ ((serveCold_clock n i t.count).trans_lt hcount) (by rw [serveCold_flag]; exact nofun)
  | close | target _ | pause _ => exact absurd ha Bool.false_ne_true

/-- A dispense that is over stays so in a pass that lets no water out, if a pause does not name it. -/
theorem Over.pass {a : Act} (h : t.Over) (ha : serves a = false) (hpause : ∀ f, a = .pause f → f = .no) :
    (t.pass p a).Over := by
  have hlimit : ∀ t' : Taps, t'.Over → (t'.limit p).Over := fun t' h => by
    rcases limit_cases (p := p) (t := t') with ⟨hcut, -⟩ | ⟨hsame, -⟩
    · exact hcut
    · rw [hsame]
      exact h
  cases a with
  | close => exact over_close _ _
  | target w => exact hlimit _ (over_close w t.count)
  | pause f => exact ⟨hpause f rfl, h.2⟩
  | hot _ | pot | cold _ _ => exact absurd ha.symm Bool.false_ne_true

theorem Over.consume (h : t.Over) : t.consume.Over := by
  unfold Taps.consume
  split
  · exact ⟨h.1, nofun⟩
  · exact h

/-! ## Hot and cold -/

variable (t) in
/-- The cold path is closed, but for a valve that waits for its closing. -/
def ColdShut : Prop := t.wp = false ∧ (t.ev2 = true → t.closeDelay ≠ 0)

variable (t) in
/-- Hot water runs with the cold path shut, and cold water without the hot-water pump. -/
structure Exclusive : Prop where
  hot : t.flag = .heat ∨ t.flag = .heatPot → t.ColdShut
  cold : t.flag = .normalIce → t.hwp = false

theorem Exclusive.of_no (h : t.flag = .no) : Exclusive t where
  hot hf := hf.elim (fun hf => Water.noConfusion (h.symm.trans hf)) fun hf => Water.noConfusion (h.symm.trans hf)
  cold hf := Water.noConfusion (h.symm.trans hf)

theorem Exclusive.of_shuts (h : Exclusive t) (hs : Shuts t t') (hf : t'.flag = t.flag)
    (hd : t'.closeDelay = t.closeDelay) : Exclusive t' := by
  refine ⟨fun hhot => ⟨Bool.eq_false_iff.mpr fun hw => ?_, fun hv => ?_⟩,
    fun hcold => Bool.eq_false_iff.mpr fun hw => ?_⟩
  · exact absurd ((h.hot (hf ▸ hhot)).1.symm.trans (hs.wp hw)) Bool.false_ne_true
  · rw [hd]
    exact (h.hot (hf ▸ hhot)).2 (hs.ev2 hv)
  · exact absurd ((h.cold (hf ▸ hcold)).symm.trans (hs.hwp hw)) Bool.false_ne_true

/-- A pass keeps hot and cold apart if it takes up hot water with the cold path shut and cold water with
the hot-water pump off; a pause leaves what runs as it is. -/
theorem Exclusive.pass {a : Act} (hcold : ∀ n i, a = .cold n i → t.hwp = false)
    (hhot : a = .pot ∨ (∃ ok, a = .hot ok) → t.ColdShut)
    (hpause : ∀ f, a = .pause f → Exclusive { t with flag := f }) : Exclusive (t.pass p a) := by
  have hlimit : ∀ t' : Taps, Exclusive t' → Exclusive (t'.limit p) := fun t' h => by
    rcases limit_cases (p := p) (t := t') with ⟨hcut, -⟩ | ⟨hsame, -⟩
    · exact .of_no hcut.1
    · rw [hsame]
      exact h
  cases a with
  | close => exact .of_no (over_close _ _).1
  | target w => exact hlimit _ (.of_no (over_close w t.count).1)
  | hot ok => exact hlimit _ ⟨fun _ => hhot (.inr ⟨ok, rfl⟩), nofun⟩
  | pause f => exact ⟨(hpause f rfl).hot, (hpause f rfl).cold⟩
  | pot => exact hlimit _ ⟨fun _ => hhot (.inl rfl), nofun⟩
  | cold n i =>
    refine hlimit _ ⟨fun hf => ?_, fun _ => ?_⟩
    · rw [serveCold_flag] at hf
      rcases hf with hf | hf <;> exact Water.noConfusion hf
    · rw [serveCold_hwp]
      exact hcold n i rfl

end WM.Spec.Taps
