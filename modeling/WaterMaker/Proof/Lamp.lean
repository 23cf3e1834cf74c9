import WaterMaker.Proof.WaterPath
import WaterMaker.Spec.Plant

/-!
# The lamps and the open case

With the case open (`E4`) `Sterilize_req_exe` calls `UV_req_exe(FALSE, FALSE)`, which does nothing for a
delay of 999 and otherwise puts out the lamps that the present mode selects (`douse`); closing a dispense
puts out the same ones. `lamps_off_iff` says what this comes to for a whole pass, and for every pass of a run: both
lamps are off exactly if every lamp that was lit is one that the present setting puts out.
-/

namespace WM.Proof

open WM WM.Impl WM.Spec

/-- The two lamps with the registers that select them. -/
structure Lamps where
  uv1 : Bool
  uv24 : Bool
  delay : Nat
  mode : Nat
  /-- the 24 V lamp's channel is the ice tank's valve -/
  iceTank : Bool
  deriving DecidableEq

def lampsOf (s : Sys) : Lamps where
  uv1 := s.reqBit .uv1
  uv24 := s.reqBit .uv24
  delay := s.cfg.uvDelay
  mode := s.cfg.sterilizeMode
  iceTank := s.cfg.bdIce

/-- The lamps that the mode selects are put out, unless they are to stay on. -/
def Lamps.douse (l : Lamps) : Lamps :=
  if l.delay = 999 then l
  else { l with uv1 := l.uv1 && l.mode = 2, uv24 := l.uv24 && !(l.mode = 2 || l.mode = 3) }

theorem Lamps.douse_douse (l : Lamps) : l.douse.douse = l.douse := by
  unfold douse
  split_ifs
  · rfl
  · simp only [Bool.and_assoc, Bool.and_self]

theorem Lamps.douse_off (l : Lamps) : (l.douse.uv1 = false ∧ l.douse.uv24 = false) ↔
    (l.uv1 = true → l.delay ≠ 999 ∧ l.mode ≠ 2) ∧ (l.uv24 = true → l.delay ≠ 999 ∧ (l.mode = 2 ∨ l.mode = 3)) := by
  obtain ⟨uv1, uv24, delay, mode, ice⟩ := l
  by_cases h : delay = 999
  · simp [douse, h]
  · cases uv1 <;> cases uv24 <;> simp only [douse, h, ↓reduceIte] <;> grind

section writes

variable (s : Sys)

theorem lampsOf_reqBitmapOp {b : Do} (h : b ≠ .uv1 ∧ b ≠ .uv24) (on : Bool) :
    lampsOf (reqBitmapOp b on s) = lampsOf s := by
  simp [lampsOf, h.1.symm, h.2.symm]

theorem lampsOf_uvLed : lampsOf (uvLed s) = lampsOf s := by
  unfold uvLed
  split
  · exact lampsOf_reqBitmapOp s (by decide) true
  · rfl

theorem lampsOf_uvLamp : lampsOf (uvLamp false s) = { lampsOf s with
    uv1 := s.reqBit .uv1 && s.cfg.sterilizeMode = 2
    uv24 := s.reqBit .uv24 && !(s.cfg.sterilizeMode = 2 || s.cfg.sterilizeMode = 3) } := by
  unfold uvLamp
  split_ifs with h2 h3 <;> simp [lampsOf, *]

/-- `UV_req_exe(FALSE, ...)` puts out what it can, or waits for the delay. -/
theorem lampsOf_uvReqExe (delay : Bool) : lampsOf (uvReqExe false delay s) =
    if delay && s.ster.uvDelay != 0 then lampsOf s else (lampsOf s).douse := by
  have hout : ∀ s', lampsOf s' = lampsOf s → s.cfg.uvDelay ≠ 999 →
      lampsOf (uvLed (uvLamp false s')) = (lampsOf s).douse := fun s' h h999 => by
    rw [lampsOf_uvLed, ← h, Lamps.douse, if_neg (by rw [h]; exact h999), lampsOf_uvLamp]
    rfl
  unfold uvReqExe
  simp only [Bool.false_eq_true, ↓reduceIte]
  split
  · rename_i h999
    rw [show (lampsOf s).douse = lampsOf s from if_pos h999, ite_self]
  · rename_i h999
    cases delay
    · exact hout (setSter (fun t => { t with uvDelay := 0 }) s) rfl h999
    · simp only [↓reduceIte, Bool.true_and, bne_iff_ne]
      split
      · rfl
      · exact hout s rfl h999

end writes

/-! ## Closing -/

section close

variable {s : Sys}

/-- The setting has nothing left to put out, and the 24 V lamp's channel is its own. -/
def Doused (s : Sys) : Prop := (lampsOf s).douse = lampsOf s ∧ s.cfg.bdIce = false

/-- The closing of a dispense finds nothing to put out. -/
theorem lampsOf_waterOutClose (w : Water) (h : Doused s) : lampsOf (waterOutClose w s) = lampsOf s := by
  have hreq : ∀ on s, lampsOf (reqBitmapOp .wp on s) = lampsOf s ∧ lampsOf (reqBitmapOp .hwp on s) = lampsOf s ∧
      lampsOf (reqBitmapOp .ev2 on s) = lampsOf s ∧ lampsOf (reqBitmapOp .fv on s) = lampsOf s := fun on s =>
    ⟨lampsOf_reqBitmapOp s (by decide) on, lampsOf_reqBitmapOp s (by decide) on,
      lampsOf_reqBitmapOp s (by decide) on, lampsOf_reqBitmapOp s (by decide) on⟩
  have hset : ∀ f s, lampsOf (setOut f s) = lampsOf s := fun _ _ => rfl
  have hsend : ∀ c s, lampsOf (heatSend c s) = lampsOf s := fun c s => by
    simp [heatSend, hset, apply_ite lampsOf]
  have hvol : ∀ s, lampsOf (closeVolume s) = lampsOf s := fun s => by
    unfold closeVolume
    split <;> rfl
  have hwp : ∀ s, lampsOf (closeWp s) = lampsOf s := fun s => by simp [closeWp, hreq, apply_ite lampsOf]
  have hflag : lampsOf (closeFlag s) = lampsOf s := by
    have hext : ∀ s, lampsOf (externalWaterExe false s) = lampsOf s := fun s => by
      simp [externalWaterExe, hreq, apply_ite lampsOf]
    unfold closeFlag
    dsimp only
    split
    · rw [lampsOf_uvReqExe, hext]
      exact (ite_congr rfl (fun _ => rfl) fun _ => h.1).trans (ite_self _)
    · exact hext _
  have hwater : ∀ s, s.cfg.bdIce = false → lampsOf (closeWater w s) = lampsOf s := fun s hbd => by
    cases w <;> simp [closeWater, closeNormalIce, closeHeat, closeIce, closeEv2, hbd, hwp, hreq, hset,
      apply_ite lampsOf]
  have hout : ∀ s, s.cfg.bdIce = false → lampsOf (closeOutputs w s) = lampsOf s := fun s hbd => by
    unfold closeOutputs
    split
    · rw [hwater, hvol, hset]
      exact (congrArg Lamps.iceTank (hvol (setOut _ s))).trans hbd
    · simp [closeWait, hwp, hreq, hset, apply_ite lampsOf]
  have hheat : ∀ s, lampsOf (closeHeater w s) = lampsOf s := fun s => by
    simp [closeHeater, closeHeatSend, hsend, hset, apply_ite lampsOf]
  unfold waterOutClose
  rw [hheat, hout _ ((congrArg Lamps.iceTank hflag).trans h.2), hflag]

theorem Doused.congr {s' : Sys} (h : Doused s) (hl : lampsOf s' = lampsOf s) : Doused s' :=
  ⟨by rw [hl]; exact h.1, (congrArg Lamps.iceTank hl).trans h.2⟩

theorem lampsOf_waterOutCloseAll (h : Doused s) : lampsOf (waterOutCloseAll s) = lampsOf s := by
  have h1 := lampsOf_waterOutClose .normalIce h
  have h2 := lampsOf_waterOutClose .heat (h.congr h1)
  have h3 := lampsOf_waterOutClose .ice ((h.congr h1).congr h2)
  exact h3.trans (h2.trans h1)

/-- With the case open nothing is served: everything is closed. -/
theorem lampsOf_waterOutReqExe (h : Doused s) (he4 : s.alarmBit .e4 = true) :
    lampsOf (waterOutReqExe s) = lampsOf s := by
  have hrh1 : lampsOf (reqBitmapOp .rh1 true s) = lampsOf s := lampsOf_reqBitmapOp s (by decide) true
  have hkeys : lampsOf (readKeys s) = lampsOf s := keys_keep s (fun _ _ _ => rfl) fun on s =>
    ⟨lampsOf_reqBitmapOp s (by decide) on, lampsOf_reqBitmapOp s (by decide) on⟩
  have hclear : ∀ s, lampsOf (clearDemand s) = lampsOf s := fun s => by
    unfold clearDemand
    split <;> rfl
  have he4' : (readKeys s).alarmBit .e4 = true := (alarmBit_of_reads (reads_readKeys s) .e4).trans he4
  have hall : ∀ s', lampsOf s' = lampsOf s → lampsOf (waterOutCloseAll s') = lampsOf s := fun s' hs =>
    (lampsOf_waterOutCloseAll (h.congr hs)).trans hs
  rw [waterOutReqExe_eq, if_pos he4']
  split_ifs
  · exact hrh1
  · exact hall _ ((hclear _).trans hkeys)
  · exact hall _ hkeys

end close

/-! ## A pass -/

section pass

variable (s : Sys)

theorem lampsOf_beforeLamp : lampsOf (coldWaterExe (pwpReqExe (plantPass s))) = lampsOf s := by
  have hplant : lampsOf (plantPass s) = lampsOf s := by
    simp only [lampsOf, plantPass_cfg, reqBit_plantPass s (b := .uv1) rfl, reqBit_plantPass s (b := .uv24) rfl]
  have hreq : ∀ {b : Do}, b ≠ .uv1 ∧ b ≠ .uv24 → ∀ on s, lampsOf (reqBitmapOp b on s) = lampsOf s :=
    fun h on s => lampsOf_reqBitmapOp s h on
  have hpwp : ∀ s, lampsOf (pwpReqExe s) = lampsOf s := fun s =>
    pwp_keeps s (fun _ _ => rfl) (fun on s => ⟨hreq (by decide) on s, hreq (by decide) on s, hreq (by decide) on s⟩)
      (fun _ => ⟨rfl, rfl⟩) fun _ _ _ => rfl
  have hcold : ∀ s, lampsOf (coldWaterExe s) = lampsOf s := fun s =>
    ice_keeps s (fun on s => ⟨hreq (by decide) on s, hreq (by decide) on s⟩) fun _ _ _ => rfl
  rw [hcold, hpwp, hplant]

theorem lampsOf_finish : lampsOf (finish s) = lampsOf s := by
  have hreq : ∀ {b : Do}, b ≠ .uv1 ∧ b ≠ .uv24 → ∀ on s, lampsOf (reqBitmapOp b on s) = lampsOf s :=
    fun h on s => lampsOf_reqBitmapOp s h on
  have hdef : ∀ s, lampsOf (defrostReqExe s) = lampsOf s := fun s => defrost_keeps s fun _ _ _ => rfl
  have hstor : ∀ s, lampsOf (storageExe s) = lampsOf s := StorFrame.storageExe
    ⟨fun _ _ => rfl, fun _ _ => rfl, fun _ _ => rfl,
      fun on s => (hreq (by decide) on _).trans (hreq (by decide) on s),
      fun on s => (hreq (by decide) on _).trans (hreq (by decide) on s), fun _ _ => rfl, fun _ => rfl,
      fun _ _ _ => rfl⟩
  have hres : ∀ s, lampsOf (restartDisExe s) = lampsOf s := fun s =>
    restart_keeps s (fun _ _ => rfl) (fun on s => hreq (by decide) on s) fun _ => rfl
  rw [finish, hres, hstor, hdef]

/-- A pass with the case open puts out what the setting can put out. -/
theorem lampsOf_reqExecution (he4 : s.alarmBit .e4 = true) (hbd : s.cfg.bdIce = false) :
    lampsOf (reqExecution s) = (lampsOf s).douse := by
  have hprep : lampsOf (prepared s) = (lampsOf s).douse := by
    have he4' := (alarmBit_of_reads (reads_beforeLamp s) .e4).trans he4
    rw [prepared, sterilizeReqExe, if_pos he4', lampsOf_reqBitmapOp _ (by decide),
      lampsOf_reqBitmapOp _ (by decide), lampsOf_uvReqExe, lampsOf_beforeLamp]
    rfl
  have hdoused : Doused (prepared s) := by
    refine ⟨by rw [hprep, Lamps.douse_douse], ?_⟩
    exact (setup_prepared s).2.2.1.trans hbd
  rw [reqExecution_eq_finish, lampsOf_finish,
    lampsOf_waterOutReqExe hdoused ((alarmBit_of_reads (reads_prepared s) .e4).trans he4), hprep]

end pass

theorem lampsOff_iff (s : Sys) (he4 : s.alarmBit .e4 = true) (hbd : s.cfg.coldWaterMode ≠ 2) :
    LampsOff s ↔ PutsOut s := by
  have hdouse := lampsOf_reqExecution s he4 (beq_false_of_ne hbd)
  have h1 : (reqExecution s).reqBit .uv1 = (lampsOf s).douse.uv1 := congrArg Lamps.uv1 hdouse
  have h24 : (reqExecution s).reqBit .uv24 = (lampsOf s).douse.uv24 := congrArg Lamps.uv24 hdouse
  unfold LampsOff
  rw [h1, h24]
  exact (lampsOf s).douse_off

/-- The lamps with the case open: whatever the local registers were, a pass leaves both off exactly if every
lamp that was lit is one that the present setting puts out. So it is in every run, whatever happens between the passes:
all its passes with the case open leave the lamps off exactly if each of them finds such a setting. -/
theorem lamps_off_iff (s : Sys) :
    (s.alarmBit .e4 = true → s.cfg.coldWaterMode ≠ 2 → (LampsOff s ↔ PutsOut s)) ∧
    ∀ es : List Event, Along step (AtReq fun t => t.cfg.coldWaterMode ≠ 2) s es →
      (Along step (AtReq fun t => t.alarmBit .e4 = true → LampsOff t) s es ↔
        Along step (AtReq fun t => t.alarmBit .e4 = true → PutsOut t) s es) := by
  refine ⟨lampsOff_iff s, fun es hbd => ⟨fun hoff => ?_, fun hputs => ?_⟩⟩
  · exact (hbd.and hoff).mono fun _ _ h t ht he4 => (lampsOff_iff t he4 (h.1 t ht)).mp (h.2 t ht he4)
  · exact (hbd.and hputs).mono fun _ _ h t ht he4 => (lampsOff_iff t he4 (h.1 t ht)).mpr (h.2 t ht he4)

/-- The case is open. -/
def caseOpen : Inputs := { quiet with din := 0x0076 }

/-- A dispense under mode 3 lights both lamps, the registers are written, and the case is opened; it stays open for `n`
passes. -/
def casePasses (f : Config → Config) (n : Nat) : List Event :=
  [.panel 1 500, .req, .panel 0 0, .req, .config (f defaultConfig.powerOn), .inputs caseOpen] ++ List.replicate n .core

/-- The state in which `req_execution` first meets the alarm. -/
def litOpen (f : Config → Config) : Sys :=
  alarmAclExe (run step (boot defaultConfig.powerOn quiet) (casePasses f 9))

/-- Under the mode that lit them both lamps go out, and they stay out. -/
theorem lamps_off_iff_unchanged : (litOpen id).alarmBit .e4 = true ∧ (litOpen id).reqBit .uv1 = true ∧
    (litOpen id).reqBit .uv24 = true ∧ LampsOff (litOpen id) ∧
    Along step (AtReq fun t => t.alarmBit .e4 = true → LampsOff t) (boot defaultConfig.powerOn quiet)
      (casePasses id 12) := by
  have hlit : (litOpen id).alarmBit .e4 = true ∧ (litOpen id).reqBit .uv1 = true ∧
    (litOpen id).reqBit .uv24 = true := by decide +kernel
  exact ⟨hlit.1, hlit.2.1, hlit.2.2, ((lamps_off_iff _).1 hlit.1 (by decide +kernel)).mpr (by decide +kernel),
    ((lamps_off_iff _).2 _ (by decide +kernel)).mpr (by decide +kernel)⟩

/-- Another mode, and a lamp that is to stay on. -/
def otherMode (c : Config) : Config := { c with sterilizeMode := 1 }
def stayOn (c : Config) : Config := { c with uvDelay := 999 }

/-- The mode that lit a lamp is not the one that puts it out, and 999 keeps every lamp on. -/
theorem lamps_left_on : (otherMode defaultConfig).InRange ∧ (stayOn defaultConfig).InRange ∧
    ((litOpen otherMode).alarmBit .e4 = true ∧ (reqExecution (litOpen otherMode)).reqBit .uv24 = true) ∧
    ((litOpen stayOn).alarmBit .e4 = true ∧ (reqExecution (litOpen stayOn)).reqBit .uv1 = true) :=
  ⟨by decide, by decide, by decide +kernel, by decide +kernel⟩

end WM.Proof
