import WaterMaker.Proof.Alarm.Clear
import WaterMaker.Proof.Alarm.Latch
import WaterMaker.Proof.Alarm.Notes

/-!
# No water

`acl00` counts the passes in which water is let out and does not flow, in 8 bits. In a fault that lasts, the counter
comes back to 0 at every 256th pass, and E0 is reported as over for four passes. Its state machine takes seven such
passes to let go of an alarm: `starved` is the slot after any number of passes, and from the tenth pass on it is up
(`noWater_persists`).
-/

namespace WM.Proof

open WM WM.Impl WM.Spec

/-- The slot of E0 after `k` passes without water, from rest with the timeout `t`. -/
def starved (t k : Nat) : Slot :=
  if k < 4 then ⟨.inactive, t⟩
  else if k < 10 then ⟨.preactive, 9 - k⟩
  else if k % 256 < 4 then ⟨.postactive, 5 - k % 256⟩
  else ⟨.active, 0⟩

theorem starved_up {t k : Nat} (h : 10 ≤ k) : (starved t k).up = true := by
  unfold starved
  rw [if_neg (by omega), if_neg (by omega)]
  split <;> rfl

/-- The next pass without water. -/
theorem starved_turn (t k : Nat) :
    ((starved t k).turn 5 true (trig (decide ((k + 1) % 256 > 3)))).1 = starved t (k + 1) := by
  have hres : ∀ {b : Prop} [Decidable b], b → trig (decide b) = .triggered := fun h => by simp [trig, h]
  have hclr : ∀ {b : Prop} [Decidable b], ¬b → trig (decide b) = .cleared := fun h => by simp [trig, h]
  unfold starved
  by_cases h4 : k + 1 < 4
  · rw [if_pos (by omega), if_pos h4, hclr (by omega)]
    rfl
  rw [if_neg h4]
  by_cases h10 : k + 1 < 10
  · rw [if_pos h10, hres (by omega)]
    by_cases h3 : k < 4
    · rw [if_pos h3, show k = 3 by omega]
      rfl
    · rw [if_neg h3, if_pos (by omega)]
      simp only [Slot.turn]
      rw [if_pos (by omega), show 9 - k - 1 = 9 - (k + 1) by omega]
  rw [if_neg h10]
  by_cases h9 : k < 10
  · rw [if_neg (by omega), if_pos h9, show k = 9 by omega]
    rfl
  rw [if_neg (by omega), if_neg h9]
  -- the alarm stands: the counter goes on, begins again or has just begun
  by_cases hlow : (k + 1) % 256 < 4
  · rw [if_pos hlow, hclr (by omega)]
    by_cases hk : k % 256 < 4
    · rw [if_pos hk]
      simp only [Slot.turn]
      rw [if_pos (by omega), show 5 - k % 256 - 1 = 5 - (k + 1) % 256 by omega]
    · rw [if_neg hk, show (k + 1) % 256 = 0 by omega]
      rfl
  · rw [if_neg hlow, hres (by omega)]
    split <;> rfl

/-! ## Passes -/

/-- E0 after `k` passes without water. -/
structure Starved (t k : Nat) (x : Recorded) : Prop where
  kept : Kept (fun _ => True) x
  slot : (mine .e0 x).slot = starved t k
  delay : x.sys.alarm.delay = k % 256
  request : 0 < k → (mine .e0 x).request = false

variable {t k : Nat} {x : Recorded}

/-- A removal requested before does not hit an alarm at rest. -/
theorem Starved.aclRemoved (h : Starved t k x) : aclRemoved .e0 x.sys = false := by
  unfold Impl.aclRemoved
  by_cases hk : 0 < k
  · have hreq : x.sys.alarm.remove.get Acl.e0.id = false := h.request hk
    rw [hreq]
    rfl
  · have hstate : (aclSts x.sys .e0).state = .inactive := by
      have hslot := congrArg Slot.state h.slot
      rwa [show k = 0 by omega] at hslot
    rw [hstate, Bool.and_assoc]
    exact Bool.and_false _

/-- What the rule reports and counts. -/
theorem acl00_starving {s : Sys} (hr : Impl.aclRemoved .e0 s = false) (hout : s.remap .outWater = true)
    (hcur : s.sts.curWater < 3) :
    (acl00 s).1 = trig (decide ((s.alarm.delay + 1) % 256 > 3)) ∧
    (acl00 s).2.alarm.delay = (s.alarm.delay + 1) % 256 := by
  have hfault : (s.remap .outWater && decide (s.sts.curWater < 3)) = true := by rw [hout, decide_eq_true hcur]; rfl
  have hcount : (if s.remap .outWater && decide (s.sts.curWater < 3) then (s.alarm.delay + 1) % 256 else 0) =
    (s.alarm.delay + 1) % 256 := if_pos hfault
  unfold acl00
  rw [aclClear_kept hr]
  exact ⟨congrArg (fun d => trig (decide (d > 3))) hcount, hcount⟩

theorem delay_pass (he : effective x.sys = true) (h : Tabled x.sys) :
    (recordStep x .pass).sys.alarm.delay = (acl00 (countPass x.sys)).2.alarm.delay := by
  show (recordPass x).sys.alarm.delay = _
  rw [sys_recordPass he]
  exact congrArg Prod.snd (counts_pass (s := countPass x.sys) h)

theorem Starved.pass (h : Starved t k x) (he : effective x.sys = true)
    (hout : x.sys.remap .outWater = true) (hcur : x.sys.sts.curWater < 3) : Starved t (k + 1) (recordStep x .pass) := by
  obtain ⟨hk, -, -, hafter⟩ := turn_in_pass h.kept he (show Acl.all = [] ++ .e0 :: Acl.all.tail from rfl)
  have hremoved : Impl.aclRemoved .e0 (countPass x.sys) = false := h.aclRemoved
  obtain ⟨hresult, hdelay⟩ := acl00_starving hremoved hout hcur
  have hcount : ((countPass x.sys).alarm.delay + 1) % 256 = (k + 1) % 256 := by
    show (x.sys.alarm.delay + 1) % 256 = _
    rw [h.delay]
    omega
  rw [hcount] at hresult hdelay
  refine ⟨h.kept.step (e := .pass) (fun _ hw => nomatch hw), ?_, (delay_pass he h.kept.tabled).trans hdelay,
    fun _ => ?_⟩
  · show (mine .e0 (recordPass x)).slot = _
    have hdropped : dropped (countPass x.sys) .e0 = false := hremoved
    have hslot : slotsOf (countPass x.sys) .e0 = starved t k := h.slot
    have hrule : (aclRule .e0 (countPass x.sys)).1 = trig (decide ((k + 1) % 256 > 3)) := hresult
    rw [hafter, slot_record hk, run_nil]
    rw [hdropped, hrule, hslot]
    exact starved_turn t k
  · show (mine .e0 (recordPass x)).request = false
    rw [hafter, request_record hk]
    rfl

theorem Starved.step {e : AlarmEvent} (h : Starved t k x) (he : Starving x e) :
    Starved t (k + effectivePasses x [e]) (recordStep x e) := by
  cases e with
  | clear => exact he.elim
  | world w => exact ⟨h.kept.step fun _ _ => trivial, h.slot, h.delay, h.request⟩
  | pass =>
    show Starved t (k + ((if effective x.sys then 1 else 0) + 0)) _
    cases heff : effective x.sys with
    | true =>
      obtain ⟨hout, hcur⟩ := he heff
      exact h.pass heff hout hcur
    | false =>
      rw [show recordStep x .pass = { x with sys := countPass x.sys } from recordPass_idle heff]
      exact ⟨h.kept.same rfl rfl trivial, h.slot, h.delay, h.request⟩

theorem effectivePasses_cons (x : Recorded) (e : AlarmEvent) (es : List AlarmEvent) :
    effectivePasses x (e :: es) = effectivePasses x [e] + effectivePasses (recordStep x e) es := by
  cases e with
  | pass => rfl
  | clear | world w => exact (Nat.zero_add _).symm

theorem Starved.run (h : Starved t k x) {es : List AlarmEvent} (hes : Along recordStep Starving x es) :
    Starved t (k + effectivePasses x es) (run recordStep x es) := by
  induction es generalizing x k with
  | nil => exact h
  | cons e es ih =>
    rw [run_cons, effectivePasses_cons, ← Nat.add_assoc]
    exact ih (h.step hes.1) hes.2

/-- For every run of the machine and every one that goes on from there with E0 and its counter at rest, with water let
out that does not flow at each pass and without a request to remove alarms, of any length: E0 is in the bitmap as soon
as ten passes have looked at the alarms. -/
theorem noWater_persists (c : Config) (i : Inputs) (es es' : List AlarmEvent)
    (hrest : (aclSts (run recordStep (alarmBoot c i) es).sys .e0).state = .inactive ∧
      (run recordStep (alarmBoot c i) es).sys.alarm.delay = 0)
    (hes' : Along recordStep Starving (run recordStep (alarmBoot c i) es) es')
    (hten : 10 ≤ effectivePasses (run recordStep (alarmBoot c i) es) es') :
    (run recordStep (run recordStep (alarmBoot c i) es) es').sys.alarmBit .e0 = true := by
  have hk := kept_run (L := fun _ => True) c i trivial trivial es fun _ _ _ _ => trivial
  generalize run recordStep (alarmBoot c i) es = x at *
  have hslot : (mine .e0 x).slot = starved (mine .e0 x).slot.timeout 0 := Slot.ext hrest.1 rfl
  have hstart : Starved (mine .e0 x).slot.timeout 0 x := ⟨hk, hslot, hrest.2, nofun⟩
  have hend := hstart.run hes'
  have hbit := hend.kept.bit .e0
  rw [hend.slot, starved_up (by omega)] at hbit
  exact hbit

/-- Water is let out. -/
def tapOpen : List AlarmEvent := [.world (setRemapStatus .outWater true (boot defaultConfig quiet))]

/-- The alarm stands after twenty calls, of which ten look at it. -/
theorem noWater_persists_tapOpen :
    (run recordStep (run recordStep (alarmBoot defaultConfig quiet) tapOpen)
      (List.replicate 20 .pass)).sys.alarmBit .e0 = true :=
  noWater_persists defaultConfig quiet tapOpen (List.replicate 20 .pass) (by decide +kernel) (by decide +kernel)
    (by decide +kernel)

end WM.Proof
