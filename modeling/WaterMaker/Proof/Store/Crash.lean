import WaterMaker.Proof.Store.Boot

/-!
# Power cuts in a write

`eeprom_tripple_write` writes word by word (`run_trippleWrites`). If the power is cut after any of them, two banks
still agree on every word, and all of them on the words that are not being written (`holds_cut`). So the next
start-up finds the old configuration or the new one, and mends the banks (`write_crash_atomic`).
-/

namespace WM.Proof

open WM WM.Impl WM.Spec

/-! ## The words that are written -/

theorem run_compareReadWrites {e : Eeprom} (hq : e.bus = []) (i : Nat) (prior : Word) :
    run Eeprom.put e (compareReadWrites i e) = (eepromCompareRead i prior e).2.2 := by
  rw [eepromCompareRead_quiet hq]
  unfold compareReadWrites
  dsimp only
  split_ifs
  · rfl
  · rfl
  · exact run_singelWrites ..
  · exact run_singelWrites ..
  · exact run_singelWrites ..
  · rfl

theorem trippleWrites_some {e : Eeprom} (hq : e.bus = []) {c : Word} (h : majority e confRegMapNum = some c)
    (i : Nat) (wr rd : Word) : trippleWrites i wr rd e = compareReadWrites confRegMapNum e ++
      sixWrites i wr (seen e confRegMapNum c e.stack ^^^ rd ^^^ wr) := by
  unfold trippleWrites
  rw [eepromCompareRead_majority hq h]
  rfl

theorem trippleWrites_none {e : Eeprom} (hq : e.bus = []) (h : majority e confRegMapNum = none)
    (i : Nat) (wr rd : Word) : trippleWrites i wr rd e = compareReadWrites confRegMapNum e := by
  unfold trippleWrites
  rw [eepromCompareRead_none hq h]
  exact List.append_nil _

/-- The words written one by one make up the whole of `eeprom_tripple_write`. -/
theorem run_trippleWrites {e : Eeprom} (hq : e.bus = []) (i : Nat) (wr rd : Word) :
    run Eeprom.put e (trippleWrites i wr rd e) = (eepromTrippleWrite i wr rd e).2 := by
  cases h : majority e confRegMapNum with
  | none =>
    rw [trippleWrites_none hq h, eepromTrippleWrite_none hq i wr rd h, run_compareReadWrites hq _ 0,
      eepromCompareRead_none hq h]
  | some c =>
    rw [trippleWrites_some hq h, eepromTrippleWrite_put hq i wr rd h, run_append, run_compareReadWrites hq _ 0,
      eepromCompareRead_majority hq h]

/-! ## What a part of them leaves -/

/-- A word that is not written stays. -/
theorem bank_run_put {ws : List WordWrite} {b : EeArea} {j : Nat} (h : ∀ x ∈ ws, x.area = b → x.index ≠ j)
    (e : Eeprom) : (run Eeprom.put e ws).bank b j = e.bank b j := by
  induction ws generalizing e with
  | nil => rfl
  | cons x xs ih =>
    rw [run_cons, ih fun y hy => h y (List.mem_cons_of_mem _ hy)]
    unfold Eeprom.put
    by_cases hb : b = x.area
    · subst hb
      rw [setBank_bank, Function.update_of_ne (h x (List.mem_cons_self ..) rfl).symm]
    · rw [setBank_of_ne e _ hb]

theorem bus_run_put (ws : List WordWrite) (e : Eeprom) : (run Eeprom.put e ws).bus = e.bus := by
  have hput : ∀ (e : Eeprom) (x : WordWrite), (e.put x).bus = e.bus := fun _ _ => rfl
  exact run_view hput e ws

/-- The vote on the checksums writes to checksums only. -/
theorem index_compareReadWrites {e : Eeprom} {x : WordWrite} (h : x ∈ compareReadWrites confRegMapNum e) :
    x.index = confRegMapNum := by
  unfold compareReadWrites singelWrites at h
  dsimp only at h
  split_ifs at h <;> simp only [List.not_mem_nil, List.mem_cons, or_false] at h
  all_goals rcases h with rfl | rfl <;> rfl

section six

variable {w : Nat → Word} {e : Eeprom} (h : Agree w e) {i : Nat} (hi : i < confRegMapNum)
include h

theorem agree_run_checksums {ws : List WordWrite} (hws : ∀ x ∈ ws, x.index = confRegMapNum) :
    Agree w (run Eeprom.put e ws) := by
  intro b hb j hj
  rw [bank_run_put (fun x hx _ => by rw [hws x hx]; exact (Nat.ne_of_lt hj).symm), h b hb j hj]

include hi

/-- After the first bank the old word still has the majority; after the second the new one has it. -/
theorem holds_take_six (v cs : Word) (m : Nat) : ∃ w', (w' = w ∨ w' = Function.update w i v) ∧
    Holds w' (run Eeprom.put e ((sixWrites i v cs).take m)) := by
  rcases m with _ | _ | m
  · exact ⟨w, .inl rfl, h.holds⟩
  · refine ⟨w, .inl rfl, fun j hj => vote_eq_some_iff.mpr (.inr (.inr ⟨?_, ?_⟩))⟩
    · exact h .ee2 nofun j hj
    · exact h .ee3 nofun j hj
  · refine ⟨_, .inr rfl, fun j hj => vote_eq_some_iff.mpr (.inl ?_)⟩
    have hrest : ∀ x ∈ ((sixWrites i v cs).drop 2).take m, x.area ≠ .ee3 → x.index ≠ j := by
      intro x hx harea
      have hmem := List.mem_of_mem_take hx
      simp only [sixWrites, List.drop_succ_cons, List.drop_zero, List.mem_cons, List.not_mem_nil, or_false] at hmem
      rcases hmem with rfl | rfl | rfl | rfl
      · exact absurd rfl harea
      all_goals exact (Nat.ne_of_lt hj).symm
    have hput : ∀ b, b = .ee1 ∨ b = .ee2 →
        (run Eeprom.put e [⟨.ee1, i, v⟩, ⟨.ee2, i, v⟩]).bank b j = Function.update w i v j := by
      intro b hb
      by_cases hji : j = i
      · subst hji
        rw [Function.update_self]
        rcases hb with rfl | rfl <;> exact Function.update_self ..
      · rw [Function.update_of_ne hji, bank_run_put fun x hx _ => by
          simp only [List.mem_cons, List.not_mem_nil, or_false] at hx
          rcases hx with rfl | rfl <;> exact Ne.symm hji]
        rcases hb with rfl | rfl
        · exact h .ee1 nofun j hj
        · exact h .ee2 nofun j hj
    change (run Eeprom.put (run Eeprom.put e [⟨.ee1, i, v⟩, ⟨.ee2, i, v⟩]) (((sixWrites i v cs).drop 2).take m)).bank
      .ee1 j = _ ∧ (run Eeprom.put (run Eeprom.put e [⟨.ee1, i, v⟩, ⟨.ee2, i, v⟩])
        (((sixWrites i v cs).drop 2).take m)).bank .ee2 j = _
    constructor
    · rw [bank_run_put fun x hx ha => hrest x hx (by rw [ha]; exact nofun)]
      exact hput .ee1 (.inl rfl)
    · rw [bank_run_put fun x hx ha => hrest x hx (by rw [ha]; exact nofun)]
      exact hput .ee2 (.inr rfl)

/-- Wherever a write is cut, the banks hold the configuration with the old word or with the new one. -/
theorem holds_cut (hq : e.bus = []) (v rd : Word) (k : Nat) : ∃ w', (w' = w ∨ w' = Function.update w i v) ∧
    Holds w' (run Eeprom.put e ((trippleWrites i v rd e).take k)) := by
  have hvote : ∀ n, Agree w (run Eeprom.put e ((compareReadWrites confRegMapNum e).take n)) := fun n =>
    agree_run_checksums h fun x hx => index_compareReadWrites (List.mem_of_mem_take hx)
  cases hmaj : majority e confRegMapNum with
  | none =>
    rw [trippleWrites_none hq hmaj]
    exact ⟨w, .inl rfl, (hvote k).holds⟩
  | some c =>
    rw [trippleWrites_some hq hmaj, List.take_append, run_append]
    exact holds_take_six (hvote k) hi v _ _

end six

/-! ## The next start-up -/

/-- The configuration after a cut is within the ranges, as the old one and the new value are. -/
theorem allowed_cut {w w' : Nat → Word} {i : Nat} {v : Word} (hv : Allowed i v)
    (hw' : w' = w ∨ w' = Function.update w i v) {j : Nat} (hj : Allowed j (w j)) : Allowed j (w' j) := by
  rcases hw' with rfl | rfl
  · exact hj
  · by_cases hji : j = i
    · subst hji
      rw [Function.update_self]
      exact hv
    · rw [Function.update_of_ne hji]
      exact hj

/-- A power cut in a write leaves a register with its old value or with the new one and all others as they were; the
banks agree again after the next start-up, and further ones load the same. -/
theorem write_crash_atomic {w : Nat → Word} {d : Dev} (hq : d.ee.bus = []) (hsame : Agree w d.ee)
    (hrange : ∀ i < confRegMapNum, Allowed i (w i)) {i : Nat} (hm : isMapped i = true) {v : Word}
    (hv : Allowed i v) (rd : Word) (k : Nat) :
    let d₁ := (initLoadUserConf (cutAt i v rd k d)).2
    (d₁.conf i = w i ∨ d₁.conf i = v) ∧ (∀ j, isMapped j = true → j ≠ i → d₁.conf j = w j) ∧
      (∃ w', Agree w' d₁.ee) ∧ ∀ j, isMapped j = true → (initLoadUserConf d₁).2.conf j = d₁.conf j := by
  intro d₁
  have hd₁ : d₁ = (initLoadUserConf (cutAt i v rd k d)).2 := rfl
  obtain ⟨r, hr, -⟩ := isMapped_iff.mp hm
  have hq' : (cutAt i v rd k d).ee.bus = [] := (bus_run_put ..).trans hq
  obtain ⟨w', hw', hholds⟩ : ∃ w', (w' = w ∨ w' = Function.update w i v) ∧ Holds w' (cutAt i v rd k d).ee :=
    holds_cut hsame (lt_of_confReg hr) hq v rd k
  have hallowed : ∀ j, isMapped j = true → Allowed j (w' j) := fun j hj => by
    obtain ⟨r', hr', -⟩ := isMapped_iff.mp hj
    exact allowed_cut hv hw' (hrange j (lt_of_confReg hr'))
  have hconf : ∀ j, isMapped j = true → d₁.conf j = w' j := fun j hj => by
    rw [hd₁, conf_booted hq' hholds hj (hallowed j hj)]
  have hagree : Agree w' d₁.ee := agree_initLoadUserConf hq' hholds
  refine ⟨?_, fun j hj hji => ?_, ⟨w', hagree⟩, fun j hj => ?_⟩
  · rw [hconf i hm]
    rcases hw' with rfl | rfl
    · exact .inl rfl
    · exact .inr (Function.update_self ..)
  · rw [hconf j hj]
    rcases hw' with rfl | rfl
    · rfl
    · exact Function.update_of_ne hji ..
  · rw [conf_booted (bus_booted hq' hholds) hagree.holds hj (hallowed j hj), hconf j hj]

/-- Switching off, cut when two of the three banks have the new word. -/
theorem write_crash_atomic_power : storedDev.conf 36 = 1 ∧ isMapped 36 = true ∧ Allowed 36 0 ∧
    let d₁ := (initLoadUserConf (cutAt 36 0 1 2 storedDev)).2
    (d₁.conf 36 = 1 ∨ d₁.conf 36 = 0) ∧ d₁.conf 37 = freshDev.conf 37 ∧ ∃ w', Agree w' d₁.ee := by
  have hm : isMapped 36 = true := by decide
  have hv : Allowed 36 0 := by decide
  have h1 : freshDev.conf 36 = 1 := by decide
  obtain ⟨hi, hother, hagree, -⟩ := write_crash_atomic (d := storedDev) rfl agree_storedDev
    (fun i _ => allowed_freshDev i) hm hv 1 2
  rw [h1] at hi
  exact ⟨h1, hm, hv, hi, hother 37 (by decide) (by decide), hagree⟩

end WM.Proof
