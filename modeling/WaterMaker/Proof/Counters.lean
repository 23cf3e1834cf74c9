import WaterMaker.Spec.Counters
import WaterMaker.Impl.Config
import WaterMaker.Impl.System

/-!
# `run_time_process` counts

`time_calc` and `Flow_calc` are the carry of a counter as long as its sums fit (`digits_second`, `digits_flow`), so that
`run_time_process` is a second of all counters (`counted_runTimeProcess`). `usage_conserved` says in seconds and
millilitres what each of them gains; nothing is lost in the 16-bit words.
-/

namespace WM.Proof

open WM WM.Impl WM.Spec WM.Odometer

/-! ## One counter -/

section counter

variable {r : Runtime} {v : Nat}

/-- The second that fills the hour clears the seconds. -/
theorem digits_second (hc : Carried [3600] (digits r)) (hf : Fits 65536 [3600] 1 (digits r)) :
    digits r.second = add [3600] 1 (digits r) := by
  obtain ⟨hlow, -⟩ : r.low < 3600 ∧ True := hc
  obtain ⟨-, hhigh⟩ : r.low + 1 < 65536 ∧ r.high + (r.low + 1) / 3600 < 65536 := hf
  change [r.second.low, r.second.high] = [(r.low + 1) % 3600, r.high + (r.low + 1) / 3600]
  unfold Runtime.second
  dsimp only
  rw [Nat.mod_eq_of_lt (show r.low + 1 < 65536 by omega), Nat.mod_eq_of_lt (show r.low + 1 < 4096 by omega)]
  split
  · rw [show r.low + 1 = 3600 by omega] at hhigh ⊢
    rw [Nat.mod_eq_of_lt (show r.high + 1 < 65536 by omega)]
  · rw [Nat.mod_eq_of_lt (show r.low + 1 < 3600 by omega), Nat.div_eq_of_lt (show r.low + 1 < 3600 by omega)]
    rfl

theorem digits_flow (hf : Fits 65536 [1000] v (digits r)) : digits (r.flow v) = add [1000] v (digits r) := by
  obtain ⟨hlow, hhigh⟩ : r.low + v < 65536 ∧ r.high + (r.low + v) / 1000 < 65536 := hf
  change [(r.flow v).low, (r.flow v).high] = [(r.low + v) % 1000, r.high + (r.low + v) / 1000]
  unfold Runtime.flow
  dsimp only
  rw [Nat.mod_eq_of_lt hlow]
  split
  · rw [Nat.mod_eq_of_lt hhigh]
  · rw [Nat.mod_eq_of_lt (show r.low + v < 1000 by omega), Nat.div_eq_of_lt (by omega), Nat.add_zero]

/-- A counter that runs with `on`. -/
theorem digits_running (on : Bool) (hc : Carried [3600] (digits r)) (hf : Fits 65536 [3600] on.toNat (digits r)) :
    digits (if on then r.second else r) = add [3600] on.toNat (digits r) := by
  cases on with
  | true => exact digits_second hc hf
  | false => exact (add_zero _ hc).symm

end counter

/-! ## The table and the total -/

variable {s : Sys}

theorem bases_of_lt {i : Nat} (hi : i < 33) : bases s i = [3600] := if_neg fun h => absurd h.1 (Nat.not_le.mpr hi)

/-- A filter element counts the second, or the dispense that is taken. -/
theorem digits_elementCount {i : Nat} {r : Runtime} (hi : 33 ≤ i) (hc : Carried (bases s i) (digits r))
    (hf : Fits 65536 (bases s i) (elementGain s) (digits r)) :
    digits (elementCount s r) = add (bases s i) (elementGain s) (digits r) := by
  unfold elementCount
  by_cases htime : s.cfg.filterElementType ≠ 0
  · have hgain : elementGain s = (s.remap .outWater).toNat := if_pos htime
    have hbases : bases s i = [3600] := if_neg fun h => htime h.2
    rw [hbases] at hc hf ⊢
    rw [hgain] at hf ⊢
    rw [if_pos htime]
    exact digits_running _ hc hf
  · have hgain : elementGain s = pendingWater s := if_neg htime
    have hbases : bases s i = [1000] := if_pos ⟨hi, not_not.mp htime⟩
    rw [hbases] at hc hf ⊢
    rw [hgain] at hf ⊢
    rw [if_neg htime]
    unfold pendingWater at hf ⊢
    split
    · rename_i hok
      rw [if_pos hok] at hf
      exact digits_flow hf
    · exact (add_zero _ hc).symm

/-- Every counter of the table takes its gain. -/
theorem digits_countRuntime {i : Nat} {r : Runtime} (hc : Carried (bases s i) (digits r))
    (hf : Fits 65536 (bases s i) (gain s i) (digits r)) :
    digits (countRuntime s.sts.dout (elementCount s) i r) = add (bases s i) (gain s i) (digits r) := by
  unfold countRuntime
  unfold gain at hf ⊢
  split
  · rename_i hout
    rw [if_pos hout] at hf
    rw [bases_of_lt (by omega)] at hc hf ⊢
    exact digits_running _ hc hf
  · rename_i hout
    rw [if_neg hout] at hf
    split
    · rename_i hair
      rw [if_pos hair] at hf
      rw [bases_of_lt (by omega)] at hc hf ⊢
      exact digits_running _ hc hf
    · rename_i hair
      rw [if_neg hair] at hf
      exact digits_elementCount (by omega) hc hf

/-- The total takes the dispense through both of its carries. -/
theorem cumulative_consumeOut (hc : Carried [1000, 1000] (cumulative s))
    (hf : Fits 65536 [1000, 1000] (pendingWater s) (cumulative s)) :
    cumulative (consumeOut s) = add [1000, 1000] (pendingWater s) (cumulative s) := by
  unfold pendingWater at hf ⊢
  by_cases hok : s.out.ok = .out
  · rw [if_pos hok] at hf ⊢
    obtain ⟨hml, hl, hm⟩ := hf
    have hfirst := digits_flow (r := ⟨s.sts.cumulative2, s.sts.cumulative0⟩) ⟨hml, hl⟩
    obtain ⟨k, hk⟩ : ∃ k, k = Runtime.flow s.sts.lastWater ⟨s.sts.cumulative2, s.sts.cumulative0⟩ := ⟨_, rfl⟩
    rw [← hk] at hfirst
    obtain ⟨hlow, hhigh⟩ := List.cons.inj hfirst
    obtain ⟨hhigh, -⟩ := List.cons.inj hhigh
    have hsecond := digits_flow (r := ⟨k.high, s.sts.cumulative1⟩) (v := 0)
      ⟨by rw [hhigh]; exact hl, by rw [hhigh]; exact hm⟩
    have hcum : cumulative (consumeOut s) = k.low :: digits (Runtime.flow 0 ⟨k.high, s.sts.cumulative1⟩) := by
      unfold consumeOut
      rw [if_pos hok, hk]
      rfl
    rw [hcum, hsecond, hlow, hhigh]
    rfl
  · rw [if_neg hok, add_zero _ hc]
    unfold consumeOut
    rw [if_neg hok]

theorem pendingWater_le (hlast : s.sts.lastWater ≤ 64000) : pendingWater s ≤ 64000 := by
  unfold pendingWater
  split
  · exact hlast
  · exact Nat.zero_le _

/-- A counter gains at most a second, or the volume of a dispense. -/
theorem gain_le (hlast : s.sts.lastWater ≤ 64000) (i : Nat) :
    bases s i = [3600] ∧ gain s i ≤ 1 ∨ bases s i = [1000] ∧ gain s i ≤ 64000 := by
  have hbool : ∀ b : Bool, b.toNat ≤ 1 := by decide
  unfold gain elementGain
  split_ifs with hout hair htime
  · exact Or.inl ⟨bases_of_lt (by omega), hbool _⟩
  · exact Or.inl ⟨bases_of_lt (by omega), hbool _⟩
  · exact Or.inl ⟨if_neg fun h => htime h.2, hbool _⟩
  · exact Or.inr ⟨if_pos ⟨by omega, not_not.mp htime⟩, pendingWater_le hlast⟩

theorem fits_gain (hn : Normal s) (hs : Spare s) (hlast : s.sts.lastWater ≤ 64000) {i : Nat} {r : Runtime}
    (hr : s.sts.runtime[i]? = some r) : Fits 65536 (bases s i) (gain s i) (digits r) := by
  have hc := hn.counters i r hr
  have hhigh := hs.counters i r hr
  rcases gain_le hlast i with ⟨hbases, hgain⟩ | ⟨hbases, hgain⟩
  · rw [hbases] at hc ⊢
    obtain ⟨hlow, -⟩ : r.low < 3600 ∧ True := hc
    exact ⟨by omega, (show r.high + (r.low + gain s i) / 3600 < 65536 by omega)⟩
  · rw [hbases] at hc ⊢
    obtain ⟨hlow, -⟩ : r.low < 1000 ∧ True := hc
    exact ⟨by omega, (show r.high + (r.low + gain s i) / 1000 < 65536 by omega)⟩

theorem fits_pendingWater (hn : Normal s) (hs : Spare s) (hlast : s.sts.lastWater ≤ 64000) :
    Fits 65536 [1000, 1000] (pendingWater s) (cumulative s) := by
  have hpending := pendingWater_le hlast
  have htop := hs.cumulative
  obtain ⟨hml, hl, -⟩ : s.sts.cumulative2 < 1000 ∧ s.sts.cumulative0 < 1000 ∧ True := hn.cumulative
  have hcarry : (s.sts.cumulative2 + pendingWater s) / 1000 ≤ 64 := by omega
  exact ⟨by omega, by omega,
    (show s.sts.cumulative1 + (s.sts.cumulative0 + (s.sts.cumulative2 + pendingWater s) / 1000) / 1000 < 65536 by omega)⟩

/-- `run_time_process` is a second of all counters. -/
theorem counted_runTimeProcess (hn : Normal s) (hs : Spare s) (hlast : s.sts.lastWater ≤ 64000) :
    SecondCounted s (runTimeProcess s) := by
  have hframe : ∀ x, (consumeOut x).cfg = x.cfg ∧ (consumeOut x).sts.runtime = x.sts.runtime := fun x => by
    unfold consumeOut
    split <;> exact ⟨rfl, rfl⟩
  have htable : (runTimeProcess s).sts.runtime =
      s.sts.runtime.mapIdx (countRuntime s.sts.dout (elementCount s)) := (hframe _).2
  have hfits := fits_pendingWater hn hs hlast
  refine ⟨congrArg Config.filterElementType (hframe _).1, ?_, fun i r hr => fits_gain hn hs hlast hr, fun i r hr => ?_,
    hfits, cumulative_consumeOut (s := setSts _ s) hn.cumulative hfits⟩
  · rw [htable, List.length_mapIdx]
  · refine ⟨_, ?_, digits_countRuntime (hn.counters i r hr) (fits_gain hn hs hlast hr)⟩
    rw [htable, List.getElem?_mapIdx, hr]
    rfl

/-- One second of normal counters with spare top digits, in seconds and millilitres: the outputs and the air filter gain
the second that they were on, the filter elements the second of dispensing or the volume that was dispensed, the total
that volume, which is then taken. No sum passes its word and the counters are normal again. -/
theorem usage_conserved (s : Sys) (hn : Normal s) (hs : Spare s) (hlast : s.sts.lastWater ≤ 64000) :
    let s' := runTimeProcess s
    (∀ i < 32, usage s' i = usage s i + (s.sts.dout.get i).toNat) ∧
    usage s' 32 = usage s 32 + (s.sts.dout.get Do.fan.bpos).toNat ∧
    (∀ i, 33 ≤ i → i < 39 → usage s' i = usage s i +
      if s.cfg.filterElementType ≠ 0 then (s.remap .outWater).toNat else pendingWater s) ∧
    worth [1000, 1000] (cumulative s') = worth [1000, 1000] (cumulative s) + pendingWater s ∧
    s'.out.ok = (if s.out.ok = .out then .idle else s.out.ok) ∧ SecondCounted s s' ∧ Normal s' := by
  intro s'
  have hcounted : SecondCounted s s' := counted_runTimeProcess hn hs hlast
  have husage : ∀ i < 39, usage s' i = usage s i + gain s i := fun i hi => hcounted.usage (by rw [hn.table]; exact hi)
  refine ⟨fun i hi => ?_, husage 32 (by omega), fun i hlow hi => ?_, hcounted.worth_total, ?_, hcounted,
    hcounted.normal hn⟩
  · rw [husage i (by omega), gain, if_pos hi]
  · rw [husage i hi, gain, if_neg (by omega), if_neg (by omega)]
    rfl
  · change (consumeOut (setSts _ s)).out.ok = _
    unfold consumeOut
    exact apply_ite (fun x : Sys => x.out.ok) _ _ _

/-- Volume accounting, with a dispense of 64 l to take and every carry due. -/
def fullCounters : Sys :=
  boot { defaultConfig with filterElementType := 0 } quiet
    |> setOut (fun o => { o with ok := .out })
    |> setSts (fun t => { t with lastWater := 64000, dout := ⟨0xFFFF, 0xFFFF⟩, runtime := List.replicate 39 ⟨999, 5⟩
                                 cumulative2 := 999, cumulative0 := 999, cumulative1 := 7 })

theorem eq_of_fullCounters {i : Nat} {r : Runtime} (hr : fullCounters.sts.runtime[i]? = some r) : r = ⟨999, 5⟩ :=
  List.eq_of_mem_replicate (n := 39) (List.mem_of_getElem? hr)

theorem normal_fullCounters : Normal fullCounters where
  table := rfl
  counters i r hr := by
    obtain rfl := eq_of_fullCounters hr
    unfold bases
    split <;> simp [Carried, digits]
  cumulative := by simp [Carried, cumulative, fullCounters, setOut, setSts]

theorem spare_fullCounters : Spare fullCounters where
  counters i r hr := by
    obtain rfl := eq_of_fullCounters hr
    decide
  cumulative := by decide

/-- The elements gain 64 l, the total passes to the next cubic metre. -/
theorem usage_conserved_fullCounters :
    let s' := runTimeProcess fullCounters
    (∀ i, 33 ≤ i → i < 39 → usage s' i = usage fullCounters i + 64000) ∧
      worth [1000, 1000] (cumulative s') = worth [1000, 1000] (cumulative fullCounters) + 64000 ∧ Normal s' := by
  obtain ⟨-, -, helements, htotal, -, -, hnormal⟩ :=
    usage_conserved fullCounters normal_fullCounters spare_fullCounters (by decide)
  exact ⟨helements, htotal, hnormal⟩

end WM.Proof
