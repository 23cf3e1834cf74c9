import WaterMaker.Proof.Store.Checksum

/-!
# A read that fails

The votes take a read that failed for a word of its bank: what it left in the buffer is compared with the other two
banks. If it differs, the bank, which is right, is written again, and its checksum is made to fit a word that never
stood there (`compareRead_failed`). `unharmed_iff`: a failed read does no harm to a vote on a register exactly if it
left the right word; a write to the three banks sets the checksums itself, and only a failed read that leaves a
checksum of 0 unread does harm there.
-/

namespace WM.Proof

open WM WM.Impl WM.Spec

section transfer

variable {e : Eeprom} {rest : List Transfer} (b : EeArea) (i : Nat)

theorem read_done (h : e.bus = .done :: rest) :
    i2cEeBufRead b i e = (0, fun k => e.bank b (i + k), { e with bus := rest }) := by
  unfold i2cEeBufRead Eeprom.transfer
  rw [h]
  rfl

theorem read_failed {code : Nat} {left : Nat → Word} (h : e.bus = .failed code left :: rest) :
    i2cEeBufRead b i e = (code, left, { e with bus := rest }) := by
  unfold i2cEeBufRead Eeprom.transfer
  rw [h]
  rfl

end transfer

/-- A vote in which one read fails, on a word that the banks agree on. -/
theorem compareRead_failed {e : Eeprom} {i j code : Nat} {left : Nat → Word} {v : Word} (hj : j < 3)
    (hbus : e.bus = List.replicate j .done ++ [.failed code left]) (hv : ∀ b, b ≠ .fact → e.bank b i = v)
    (prior : Word) : ∃ b, b ≠ .fact ∧ eepromCompareRead i prior e =
      if left 0 = v then (0, if v ≠ 0 then v else prior, { e with bus := [] })
      else (0, v, (eepromSingelWrite b i v (left 0) { e with bus := [] }).2) := by
  obtain ⟨h1, h2, h3⟩ := forall_user.mp hv
  unfold eepromCompareRead
  have hcases : j = 0 ∨ j = 1 ∨ j = 2 := by omega
  rcases hcases with rfl | rfl | rfl
  · refine ⟨.ee1, nofun, ?_⟩
    rw [read_failed _ _ hbus]
    dsimp only
    rw [read_quiet rfl]
    rw [read_quiet rfl]
    simp only [Nat.add_zero, h2, h3]
    by_cases hg : left 0 = v
    · simp only [hg, and_self, if_true]
    · simp only [hg, and_true, if_false, if_true]
  · refine ⟨.ee2, nofun, ?_⟩
    rw [read_done _ _ hbus]
    dsimp only
    rw [read_failed _ _ rfl]
    rw [read_quiet rfl]
    simp only [Nat.add_zero, h1, h3]
    by_cases hg : left 0 = v
    · simp only [hg, and_self, if_true]
    · simp only [hg, Ne.symm hg, and_self, if_false, if_true]
  · refine ⟨.ee3, nofun, ?_⟩
    rw [read_done _ _ hbus]
    dsimp only
    rw [read_done _ _ rfl]
    rw [read_failed _ _ rfl]
    simp only [Nat.add_zero, h1, h2]
    by_cases hg : left 0 = v
    · simp only [hg, and_self, if_true]
    · simp only [hg, true_and, if_false, if_true]

/-- The bank that is taken to be wrong gets its own word again, and another checksum. -/
theorem singelWrite_right {e : Eeprom} (hq : e.bus = []) {b : EeArea} {i : Nat} {v : Word} (hv : e.bank b i = v)
    (got : Word) : (eepromSingelWrite b i v got e).2 =
      e.put ⟨b, confRegMapNum, e.bank b confRegMapNum ^^^ got ^^^ v⟩ := by
  have hsame : e.put ⟨b, i, v⟩ = e := by
    unfold Eeprom.put Eeprom.setBank
    rw [← hv, Function.update_eq_self, Function.update_eq_self]
  rw [eepromSingelWrite_put hq, singelWrites, run_cons, run_cons, run_nil, hsame]

section one

variable {e : Eeprom} (h : Consistent e) {j code : Nat} {left : Nat → Word} (hj : j < 3)
  (hbus : e.bus = List.replicate j .done ++ [.failed code left])
include h hj hbus

theorem unharmed_compareRead {i : Nat} (hi : i < confRegMapNum) (prior : Word) :
    (StoreCall.compareRead prior).Unharmed i e ↔ left 0 = e.bank .ee1 i ∧ (left 0 ≠ 0 ∨ prior = 0) := by
  obtain ⟨b, hb, heq⟩ := compareRead_failed hj hbus (fun b hb => h.agree b hb i hi) prior
  unfold StoreCall.Unharmed
  dsimp only
  rw [heq]
  by_cases hg : left 0 = e.bank .ee1 i
  · rw [if_pos hg, ← hg]
    constructor
    · rintro ⟨e', he, -⟩
      have hval : (if left 0 ≠ 0 then left 0 else prior) = left 0 := (Prod.mk.inj (Prod.mk.inj he).2).1
      refine ⟨rfl, or_iff_not_imp_left.mpr fun h0 => ?_⟩
      rw [if_neg h0] at hval
      exact hval.trans (not_not.mp h0)
    · rintro ⟨-, hprior⟩
      refine ⟨{ e with bus := [] }, ?_, rfl⟩
      by_cases h0 : left 0 ≠ 0
      · rw [if_pos h0]
      · rw [if_neg h0, not_not.mp h0, hprior.resolve_left h0]
  · rw [if_neg hg]
    refine ⟨?_, fun hk => absurd hk.1 hg⟩
    rintro ⟨e', he, hbank⟩
    have hright := singelWrite_right (e := { e with bus := [] }) rfl (h.agree b hb i hi) (left 0)
    have he' := (Prod.mk.inj (Prod.mk.inj he).2).2
    rw [← he', hright] at hbank
    have hsum := congrFun (congrFun hbank b) confRegMapNum
    unfold Eeprom.put at hsum
    rw [setBank_bank, Function.update_self] at hsum
    exact absurd (xor_xor_eq_iff.mp hsum) hg

/-- The checksum, read with a failure: it is missed only where both it and the buffer are 0. The words of the banks
are not touched. -/
theorem sum_failed (stack : Word) : ∃ e', Agree (e.bank .ee1) e' ∧ e'.bus = [] ∧
    eepromCompareRead confRegMapNum stack e =
      (0, if e.bank .ee1 confRegMapNum = 0 ∧ left 0 = 0 then stack else e.bank .ee1 confRegMapNum, e') := by
  obtain ⟨b, hb, heq⟩ := compareRead_failed hj hbus (fun b hb => h.same b hb _ (Nat.le_refl _)) stack
  rw [heq]
  by_cases hg : left 0 = e.bank .ee1 confRegMapNum
  · refine ⟨{ e with bus := [] }, h.agree, rfl, ?_⟩
    rw [if_pos hg, hg]
    by_cases h0 : e.bank .ee1 confRegMapNum = 0
    · rw [if_neg (not_not.mpr h0), if_pos ⟨h0, h0⟩]
    · rw [if_pos h0, if_neg fun hc => h0 hc.1]
  · have hright := singelWrite_right (e := { e with bus := [] }) rfl (h.same b hb _ (Nat.le_refl _)) (left 0)
    rw [if_neg hg, hright, if_neg fun hc => hg (hc.2.trans hc.1.symm)]
    refine ⟨_, fun b' hb' k hk => ?_, ?_, rfl⟩
    · unfold Eeprom.put
      by_cases hbb : b' = b
      · rw [hbb, setBank_bank, Function.update_of_ne (Nat.ne_of_lt hk)]
        exact h.agree b hb k hk
      · rw [setBank_of_ne _ _ hbb]
        exact h.agree b' hb' k hk
    · rfl

theorem unharmed_trippleWrite {i : Nat} (hi : i < confRegMapNum) (wr rd : Word) :
    (StoreCall.trippleWrite wr rd).Unharmed i e ↔
      ¬(e.bank .ee1 confRegMapNum = 0 ∧ left 0 = 0) ∧ e.bank .ee1 i = rd := by
  unfold StoreCall.Unharmed
  rw [← carried_iff (c := e.bank .ee1 confRegMapNum) (v := wr)]
  refine forall_congr' fun stack => ?_
  obtain ⟨e', hagree, hq, heq⟩ := sum_failed (e := { e with stack := stack }) ⟨h.same, h.sum⟩ hj hbus stack
  have hagree : Agree (e.bank .ee1) e' := hagree
  have hiff := consistent_stored_iff hagree hi wr
    ((if e.bank .ee1 confRegMapNum = 0 ∧ left 0 = 0 then stack else e.bank .ee1 confRegMapNum) ^^^ rd ^^^ wr)
  rw [h.checksum] at hiff
  rw [eepromTrippleWrite_of_read hq i wr rd heq, run_sixWrites, ← hiff]
  constructor
  · rintro ⟨e₁, he, hc, -⟩
    exact (Prod.mk.inj he).2 ▸ hc
  · intro hc
    refine ⟨_, rfl, hc, fun b hb k hk => ?_⟩
    rw [bank_onUsers hb, stored_data hk]
    by_cases hki : k = i
    · rw [hki, Function.update_self, Function.update_self]
    · rw [Function.update_of_ne hki, Function.update_of_ne hki, hagree b hb k hk, h.agree b hb k hk]

end one

/-- From consistent banks, with one failed read: a vote on a register returns its word and leaves the banks alone, and
a write leaves consistent banks with the new word, exactly if what the failed read left does no harm. -/
theorem unharmed_iff {e : Eeprom} (h : Consistent e) {i : Nat} (hi : i < confRegMapNum) {j code : Nat}
    {left : Nat → Word} (hj : j < 3) (hbus : e.bus = List.replicate j .done ++ [.failed code left]) (x : StoreCall) :
    x.Unharmed i e ↔ Harmless i e (left 0) x := by
  cases x with
  | compareRead prior => exact unharmed_compareRead h hj hbus hi prior
  | trippleWrite wr rd => exact unharmed_trippleWrite h hj hbus hi wr rd

/-- Saved banks, and a bus on which the second read fails. -/
def failingEe (got : Word) : Eeprom :=
  { (savedDev plainConf).ee with bus := List.replicate 1 .done ++ [.failed 1 fun _ => got] }

theorem consistent_failingEe (got : Word) : Consistent (failingEe got) :=
  ⟨(consistent_savedDev plainConf).same, (consistent_savedDev plainConf).sum⟩

theorem unharmed_iff_power : (StoreCall.compareRead 0).Unharmed 36 (failingEe 1) ∧
    ¬(StoreCall.trippleWrite 0 0).Unharmed 36 (failingEe 0) := by
  have hiff : ∀ got x, StoreCall.Unharmed 36 (failingEe got) x ↔ Harmless 36 (failingEe got) got x := fun got x =>
    unharmed_iff (consistent_failingEe got) (by decide) (by decide) rfl x
  refine ⟨(hiff 1 _).mpr ?_, fun h => absurd ((hiff 0 _).mp h).2 (by decide)⟩
  exact ⟨by decide, .inl (by decide)⟩

/-- The vote on `u16Power_Mode` with a failed read returns the right word and spoils the checksum of the second
bank. -/
theorem failed_read_spoils_sum : Consistent (failingEe 0x1234) ∧
    (eepromCompareRead 36 0 (failingEe 0x1234)).2.1 = 1 ∧
    (eepromCompareRead 36 0 (failingEe 0x1234)).2.2.bank .ee2 confRegMapNum ≠
      (failingEe 0x1234).bank .ee2 confRegMapNum :=
  ⟨consistent_failingEe _, by decide, by decide +kernel⟩

end WM.Proof
