import WaterMaker.Impl.Config
import WaterMaker.Spec.Circulation

/-!
# The sterilisation cycle

A call of `Sterilize_req_exe` that nothing disturbs moves the clocks of the sterilisation and reads nothing but them and
the two configured times (`circulation_sterCall`), whatever the rest of the machine does between the calls. So the cycle
is that of the clocks: `sterilization_punctual_iff` says that it keeps its times exactly if the configured time of a
circulation fits into the 16 bits of `u16Sterilize_Time[0]`.
-/

namespace WM.Proof

open WM WM.Impl WM.Spec

variable {T I : Nat}

def circulation (t : SterSt) : Circulation := ⟨t.sterilize, t.interval, t.time⟩

/-! ## A call -/

theorem circulation_uvReqExe (on delay : Bool) (s : Sys) :
    circulation (uvReqExe on delay s).ster = circulation s.ster := by
  have hlamp : ∀ v (s : Sys), circulation (uvLed (uvLamp v s)).ster = circulation s.ster := fun v s => by
    unfold uvLed uvLamp
    split_ifs <;> rfl
  have hwait : ∀ s : Sys, circulation (if s.ster.uvDelay ≠ 0 then s else s |> uvLamp false |> uvLed).ster =
      circulation s.ster := fun s => by
    split
    · rfl
    · exact hlamp ..
  unfold uvReqExe
  split_ifs
  · exact hlamp ..
  · rfl
  · exact hwait _
  · exact hwait _

theorem circulation_sterCirculate {s : Sys} (h : s.pwp.opened = false) :
    circulation (sterCirculate s).ster = ⟨decide (s.cfg.sterilizeInterval * 60 * 2 ≤ s.ster.interval), s.ster.interval,
        if s.cfg.sterilizeInterval * 60 * 2 ≤ s.ster.interval then (s.ster.time + 1) % 65536 else s.ster.time⟩ ∧
      (sterCirculate s).cfg = s.cfg ∧ (sterCirculate s).out = s.out := by
  have hev2 : ∀ s, (closeEv2 s).ster = s.ster ∧ (closeEv2 s).cfg = s.cfg ∧ (closeEv2 s).out = s.out := fun s => by
    unfold closeEv2
    split <;> exact ⟨rfl, rfl, rfl⟩
  unfold sterCirculate
  by_cases hdue : s.cfg.sterilizeInterval * 60 * 2 ≤ s.ster.interval
  · rw [if_pos ⟨hdue, h⟩, if_pos hdue, decide_eq_true hdue]
    dsimp only
    split <;> simp only [circulation, reqBitmapOp_ster, reqBitmapOp_cfg, reqBitmapOp_out, hev2, setSter_ster,
      setSter_cfg, setSter_out, and_self]
  · rw [if_neg fun hboth => hdue hboth.1, if_neg hdue, decide_eq_false hdue]
    dsimp only
    split <;> exact ⟨rfl, rfl, rfl⟩

theorem circulation_sterEnd {s : Sys} (h : s.out.flag ≠ .normalIce) :
    circulation (sterEnd s).ster =
      if s.cfg.sterilizeTime * 60 * 2 ≤ s.ster.time then ⟨false, 0, 0⟩ else circulation s.ster := by
  unfold sterEnd
  rw [if_neg h]
  by_cases hend : s.cfg.sterilizeTime * 60 * 2 ≤ s.ster.time
  · rw [if_pos hend, if_pos hend]
    dsimp only
    split <;> rfl
  · rw [if_neg hend, if_neg hend]

theorem circulation_sterilizeReqExe {s : Sys} (h : Unhindered T I s) :
    circulation (sterilizeReqExe s).ster = (circulation s.ster).call T I := by
  obtain ⟨s', hs'⟩ : ∃ s', s' = setSter (fun t => { t with interval := (t.interval + 1) % 4294967296 }) s := ⟨_, rfl⟩
  have hlevel : (getWaterLevel s').dL = true := by rw [hs']; exact h.level
  have hstor : s'.stor.status = false := by rw [hs']; exact h.storage
  have hcfg : s'.cfg = s.cfg := by rw [hs']; rfl
  have hster : s'.ster = { s.ster with interval := (s.ster.interval + 1) % 4294967296 } := by rw [hs']; rfl
  have hflag : s'.out.flag ≠ .normalIce := by rw [hs']; exact h.dispense
  obtain ⟨hcirc, hcirccfg, hcircout⟩ := circulation_sterCirculate (s := s') (by rw [hs']; exact h.intake)
  have htime := congrArg Circulation.time hcirc
  dsimp only [circulation] at htime
  unfold sterilizeReqExe
  rw [if_neg fun hdoor => absurd (h.door.symm.trans hdoor) Bool.false_ne_true, if_neg fun hne => hne h.source, ← hs']
  simp only [hlevel, hstor, Bool.not_true, Bool.false_eq_true, if_false]
  rw [circulation_uvReqExe, circulation_sterEnd (by rw [hcircout]; exact hflag), hcirc, htime, hcirccfg, hcfg, h.time,
    h.interval, hster]
  unfold Circulation.call circulation
  simp only [decide_eq_true_eq]

/-- A call that nothing disturbs is one of the clocks. -/
theorem circulation_sterCall (t : SterSt) {x : Sys} (h : Unhindered T I x) :
    circulation (sterCall t x) = (circulation t).call T I :=
  circulation_sterilizeReqExe (s := { x with ster := { t with uvDelay := x.ster.uvDelay } })
    ⟨h.door, h.source, h.level, h.storage, h.dispense, h.intake, h.time, h.interval⟩

/-! ## Runs -/

theorem circulation_run (t : SterSt) {xs : List Sys} (h : ∀ x ∈ xs, Unhindered T I x) :
    circulation (run sterCall t xs) = (Circulation.call T I)^[xs.length] (circulation t) :=
  run_iterate (f := circulation) (g := Circulation.call T I) (E := Unhindered T I)
    (fun t _ hx => circulation_sterCall t hx) t h

theorem circulating_eq (t : SterSt) {xs : List Sys} (h : ∀ x ∈ xs, Unhindered T I x) :
    circulating t xs = ((Circulation.call T I)^[xs.length] (circulation t)).on :=
  congrArg Circulation.on (circulation_run t h)

theorem circulation_rested {t : SterSt} (h : Rested I t) : circulation t = .waiting t.interval := by
  unfold circulation Circulation.waiting
  rw [h.1, h.2.1]

/-- A run through the call `x`. -/
theorem iterate_through (t : SterSt) {pre : List Sys} {x : Sys} {post : List Sys}
    (h : ∀ y ∈ pre ++ x :: post, Unhindered T I y) :
    circulating t pre = ((Circulation.call T I)^[pre.length] (circulation t)).on ∧
      circulating t (pre ++ [x]) = (((Circulation.call T I)^[pre.length] (circulation t)).call T I).on ∧
      circulating t (pre ++ x :: post) = ((Circulation.call T I)^[post.length]
        (((Circulation.call T I)^[pre.length] (circulation t)).call T I)).on := by
  obtain ⟨hpre, hrest⟩ := List.forall_mem_append.mp h
  obtain ⟨hx, -⟩ := List.forall_mem_cons.mp hrest
  have hsnoc := List.forall_mem_append.mpr ⟨hpre, List.forall_mem_singleton.mpr hx⟩
  refine ⟨circulating_eq t hpre, ?_, ?_⟩
  · rw [circulating_eq t hsnoc, List.length_append, List.length_singleton, Function.iterate_succ_apply']
  · rw [circulating_eq t h, List.length_append, List.length_cons, ← Nat.add_assoc, Nat.add_right_comm, Nat.add_comm,
      Function.iterate_add_apply, Function.iterate_succ_apply']

theorem punctual_of_le (hT : 1 ≤ T) (hT' : T ≤ 546) (hI : 1 ≤ I) (hI' : I ≤ 10000) {t : SterSt} (h : Rested I t) :
    Punctual T I t := by
  have htimely : ∀ n, ((Circulation.call T I)^[n] (circulation t)).Timely T I := fun n => by
    induction n with
    | zero => exact Or.inl ⟨t.interval, h.2.2, circulation_rested h⟩
    | succ n ih =>
      rw [Function.iterate_succ_apply']
      exact Circulation.timely_call hT hT' hI hI' ih
  refine ⟨fun pre x post hall hoff hon => ?_, fun pre x post hall hon hoff => ?_⟩
  · obtain ⟨hpre, hsnoc, hpost⟩ := iterate_through t hall
    rw [hpost, Circulation.starts_running hT hI' (htimely _) (hpre.symm.trans hoff) (hsnoc.symm.trans hon)]
    exact Circulation.on_running hT hT' hI'
  · obtain ⟨hpre, hsnoc, hpost⟩ := iterate_through t hall
    rw [hpost, Circulation.ends_waiting hT' hI' (htimely _) (hpre.symm.trans hon) (hsnoc.symm.trans hoff)]
    exact Circulation.on_waiting hT hI hI'

/-- A machine that nothing disturbs. -/
def undisturbed (T I : Nat) : Sys :=
  boot { defaultConfig with sterilizeTime := T, sterilizeInterval := I } quiet

theorem undisturbed_spec (T I : Nat) : Unhindered T I (undisturbed T I) := by
  have hdoor : (boot defaultConfig quiet).alarmBit .e4 = false := by decide
  have hlevel : (getWaterLevel (boot defaultConfig quiet)).dL = true := by decide
  exact ⟨hdoor, rfl, hlevel, rfl, nofun, rfl, rfl, rfl⟩

/-- A time beyond the counter: the circulation that starts after the interval is still going on when its time is up. -/
theorem circulating_overrun (hT : 547 ≤ T) (hT' : T ≤ 600) (hI : I ≤ 10000) {t : SterSt} (h : Rested I t) :
    ∃ pre x post, (∀ y ∈ pre ++ x :: post, Unhindered T I y) ∧ circulating t pre = false ∧
      circulating t (pre ++ [x]) = true ∧ post.length + 1 = 120 * T ∧ circulating t (pre ++ x :: post) = true := by
  have hlt := h.2.2
  have hall : ∀ y ∈ List.replicate (120 * I - t.interval - 1) (undisturbed T I) ++
      undisturbed T I :: List.replicate (120 * T - 1) (undisturbed T I), Unhindered T I y := by
    refine List.forall_mem_append.mpr ⟨fun y hy => ?_, List.forall_mem_cons.mpr
      ⟨undisturbed_spec T I, fun y hy => ?_⟩⟩ <;>
    · rw [List.eq_of_mem_replicate hy]
      exact undisturbed_spec T I
  obtain ⟨hpre, hsnoc, hpost⟩ := iterate_through t hall
  have hwait := Circulation.waits (T := T) (by omega) hI
    (show t.interval + (120 * I - t.interval - 1) < 120 * I by omega)
  simp only [List.length_replicate, circulation_rested h, hwait] at hpre hsnoc hpost
  rw [Circulation.call_start (by omega) hI (by omega)] at hsnoc hpost
  refine ⟨_, _, _, hall, hpre, hsnoc, by rw [List.length_replicate]; omega, hpost.trans ?_⟩
  exact Circulation.on_overrun hT hI (by omega)

/-- For every configured time and interval, in every undisturbed run from a state in which no circulation is going on
and none is due, whatever the rest of the machine does meanwhile: a circulation ends with its `120 * T`-th call, and the
next one starts with the `120 * I`-th call after that, exactly if `120 * T` fits into the 16 bits of
`u16Sterilize_Time[0]`. -/
theorem sterilization_punctual_iff (hT : 1 ≤ T) (hT' : T ≤ 600) (hI : 1 ≤ I) (hI' : I ≤ 10000) {t : SterSt}
    (h : Rested I t) : Punctual T I t ↔ T ≤ 546 := by
  refine ⟨fun hp => ?_, fun hle => punctual_of_le hT hle hI hI' h⟩
  by_contra hgt
  obtain ⟨pre, x, post, hall, hoff, hon, hlen, hstill⟩ := circulating_overrun (by omega) hT' hI' h
  exact absurd (((hp.ends pre x post hall hoff hon).2 hlen).symm.trans hstill) Bool.false_ne_true

/-- Power-up, with the defaults of 8 minutes every hour. -/
theorem sterilization_punctual_powerUp : Rested 60 (boot defaultConfig quiet).ster ∧
    Punctual 8 60 (boot defaultConfig quiet).ster :=
  ⟨by unfold Rested; decide, (sterilization_punctual_iff (by decide) (by decide) (by decide) (by decide)
    (by unfold Rested; decide)).mpr (by decide)⟩

/-- Circulation of 600 minutes: it is still going on after 72000 calls. -/
theorem sterilization_overruns : ¬Punctual 600 1 (boot defaultConfig quiet).ster := by
  intro hp
  obtain ⟨pre, x, post, hall, hoff, hon, hlen, hstill⟩ := circulating_overrun (T := 600) (I := 1)
    (t := (boot defaultConfig quiet).ster) (by decide) (by decide) (by decide) (by unfold Rested; decide)
  exact absurd (((hp.ends pre x post hall hoff hon).2 hlen).symm.trans hstill) Bool.false_ne_true

end WM.Proof
