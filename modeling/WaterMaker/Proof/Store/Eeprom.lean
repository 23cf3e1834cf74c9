import WaterMaker.Spec.Store

/-!
# The EEPROM without failures

What the functions of the EEPROM do while no transfer fails (`e.bus = []`), one lemma for each:
`eepromCompareRead_majority` and `eepromCompareRead_none` for the vote, `eepromTrippleWrite_eq` and
`eepromTrippleWrite_none` for a write to the three banks.
-/

namespace WM.Proof

open WM WM.Impl WM.Spec

/-! ## Transfers -/

section quiet

variable {e : Eeprom} (hq : e.bus = [])
include hq

theorem transfer_quiet : e.transfer = (.done, e) := by
  unfold Eeprom.transfer
  rw [hq]
  exact congrArg (Prod.mk _) (congrArg (fun bus => { e with bus := bus }) hq.symm)

theorem read_quiet (b : EeArea) (i : Nat) : i2cEeBufRead b i e = (0, fun k => e.bank b (i + k), e) := by
  unfold i2cEeBufRead
  rw [transfer_quiet hq]

theorem write_quiet (b : EeArea) (i : Nat) (data : List Word) :
    i2cEeBufWrite b i data e = (0, e.setBank b (blit (e.bank b) i data)) := by
  unfold i2cEeBufWrite
  rw [transfer_quiet hq]

theorem flagWrite_quiet (flag : Byte) : i2cEeFlagWrite flag e = (0, { e with flag := flag }) := by
  unfold i2cEeFlagWrite
  rw [transfer_quiet hq]

theorem write_put (b : EeArea) (i : Nat) (v : Word) : i2cEeBufWrite b i [v] e = (0, e.put ⟨b, i, v⟩) := by
  rw [write_quiet hq, blit_singleton]
  rfl

theorem eepromSingelWrite_put (b : EeArea) (i : Nat) (wr rd : Word) :
    eepromSingelWrite b i wr rd e = (0, run Eeprom.put e (singelWrites b i wr rd e)) := by
  have hq1 : (e.put ⟨b, i, wr⟩).bus = [] := hq
  unfold eepromSingelWrite
  rw [read_quiet hq]
  dsimp only
  rw [write_put hq]
  rw [write_put hq1]
  rfl

end quiet

theorem setBank_bank (e : Eeprom) (b : EeArea) (f : Nat → Word) : (e.setBank b f).bank b = f :=
  Function.update_self ..

theorem setBank_of_ne (e : Eeprom) {b b' : EeArea} (f : Nat → Word) (h : b' ≠ b) :
    (e.setBank b f).bank b' = e.bank b' := Function.update_of_ne h ..

theorem eeprom_ext {e e' : Eeprom} (hbank : ∀ b, e.bank b = e'.bank b) (hflag : e.flag = e'.flag)
    (hbus : e.bus = e'.bus) (hstack : e.stack = e'.stack) : e = e' := by
  obtain ⟨bank, flag, bus, stack⟩ := e
  obtain ⟨bank', flag', bus', stack'⟩ := e'
  obtain rfl : bank = bank' := funext hbank
  obtain rfl : flag = flag' := hflag
  obtain rfl : bus = bus' := hbus
  obtain rfl : stack = stack' := hstack
  rfl

theorem run_singelWrites (b : EeArea) (i : Nat) (wr : Word) (e : Eeprom) :
    run Eeprom.put e (singelWrites b i wr (e.bank b i) e) = e.setBank b (mend i wr (e.bank b)) := by
  unfold singelWrites mend
  rw [run_cons, run_cons, run_nil]
  unfold Eeprom.put Eeprom.setBank
  dsimp only
  rw [Function.update_self, Function.update_idem]

/-! ## The vote -/

/-- Mending the one bank that is wrong mends the user banks. -/
theorem setBank_mend {e : Eeprom} {b : EeArea} (hb : b ≠ .fact) {i : Nat} {v : Word}
    (h : ∀ b', b' ≠ .fact → b' ≠ b → e.bank b' i = v) :
    e.setBank b (mend i v (e.bank b)) = onUsers (mend i v) e := by
  refine eeprom_ext (fun b' => ?_) rfl rfl rfl
  by_cases hf : b' = .fact
  · subst hf
    rw [setBank_of_ne e _ hb.symm, fact_onUsers]
  · rw [bank_onUsers hf]
    by_cases he : b' = b
    · subst he
      rw [setBank_bank]
    · rw [setBank_of_ne e _ he, mend_right (h b' hf he)]

theorem onUsers_mend_right {e : Eeprom} {i : Nat} {v : Word} (h : ∀ b, b ≠ .fact → e.bank b i = v) :
    onUsers (mend i v) e = e := onUsers_self fun b hb => mend_right (h b hb)

/-- Where all three banks hold 0, the caller's variable keeps what it held. -/
def seen (e : Eeprom) (i : Nat) (v prior : Word) : Word :=
  if e.bank .ee1 i = 0 ∧ e.bank .ee2 i = 0 ∧ e.bank .ee3 i = 0 then prior else v

section vote

variable {e : Eeprom} (hq : e.bus = []) {i : Nat}
include hq

theorem eepromCompareRead_quiet (prior : Word) : eepromCompareRead i prior e =
    let r0 := e.bank .ee1 i
    let r1 := e.bank .ee2 i
    let r2 := e.bank .ee3 i
    if r0 = r1 ∧ r2 = r1 then (0, if r0 ≠ 0 then r0 else prior, e)
    else if r0 = r1 then (0, r0, e.setBank .ee3 (mend i r0 (e.bank .ee3)))
    else if r0 = r2 then (0, r2, e.setBank .ee2 (mend i r2 (e.bank .ee2)))
    else if r1 = r2 then (0, r1, e.setBank .ee1 (mend i r1 (e.bank .ee1)))
    else (1, 0x7fff, e) := by
  unfold eepromCompareRead
  rw [read_quiet hq]
  dsimp only
  rw [read_quiet hq]
  rw [read_quiet hq]
  dsimp only [Nat.add_zero]
  rw [eepromSingelWrite_put hq, eepromSingelWrite_put hq, eepromSingelWrite_put hq]
  rw [run_singelWrites, run_singelWrites, run_singelWrites]

/-- The vote gives the majority, and brings the banks into agreement on it. -/
theorem eepromCompareRead_majority {v : Word} (h : majority e i = some v) (prior : Word) :
    eepromCompareRead i prior e = (0, seen e i v prior, onUsers (mend i v) e) := by
  rw [eepromCompareRead_quiet hq]
  unfold majority at h
  unfold seen
  by_cases h01 : e.bank .ee1 i = e.bank .ee2 i
  · have hv : e.bank .ee1 i = v := by
      rw [vote, if_pos h01] at h
      exact Option.some.inj h
    by_cases h21 : e.bank .ee3 i = e.bank .ee2 i
    · have hall : ∀ b, b ≠ .fact → e.bank b i = v :=
        forall_user.mpr ⟨hv, h01.symm.trans hv, h21.trans (h01.symm.trans hv)⟩
      rw [if_pos ⟨h01, h21⟩, onUsers_mend_right hall, h21, ← h01, hv]
      by_cases h0 : v = 0
      · rw [if_neg (not_not.mpr h0), if_pos ⟨h0, h0, h0⟩]
      · rw [if_pos h0, if_neg fun h => h0 h.1]
    · rw [if_neg fun h => h21 h.2, if_pos h01, hv, setBank_mend (b := .ee3) nofun, if_neg]
      · rintro ⟨h1, h2, h3⟩
        exact h21 (h3.trans (h1.symm.trans (hv.symm.trans h01)))
      · exact forall_user.mpr ⟨fun _ => hv, fun _ => h01.symm.trans hv, fun h => absurd rfl h⟩
  · rw [vote, if_neg h01] at h
    have hsome : ¬(e.bank .ee1 i = 0 ∧ e.bank .ee2 i = 0 ∧ e.bank .ee3 i = 0) := fun h0 =>
      h01 (h0.1.trans h0.2.1.symm)
    rw [if_neg hsome, if_neg fun h => h01 h.1, if_neg h01]
    by_cases h02 : e.bank .ee1 i = e.bank .ee3 i
    · rw [if_pos h02] at h
      have hv : e.bank .ee3 i = v := Option.some.inj h
      rw [if_pos h02, hv, setBank_mend (b := .ee2) nofun]
      exact forall_user.mpr ⟨fun _ => h02.trans hv, fun h => absurd rfl h, fun _ => hv⟩
    · rw [if_neg h02] at h ⊢
      by_cases h12 : e.bank .ee2 i = e.bank .ee3 i
      · rw [if_pos h12] at h
        have hv : e.bank .ee2 i = v := Option.some.inj h
        rw [if_pos h12, hv, setBank_mend (b := .ee1) nofun]
        exact forall_user.mpr ⟨fun h => absurd rfl h, fun _ => hv, fun _ => h12.symm.trans hv⟩
      · rw [if_neg h12] at h
        exact absurd h nofun

theorem eepromCompareRead_none (h : majority e i = none) (prior : Word) :
    eepromCompareRead i prior e = (1, 0x7fff, e) := by
  obtain ⟨h01, h02, h12⟩ := vote_eq_none_iff.mp h
  rw [eepromCompareRead_quiet hq]
  rw [if_neg fun h => h01 h.1, if_neg h01, if_neg h02, if_neg h12]

end vote

theorem seen_zero (e : Eeprom) {i : Nat} {v : Word} (h : majority e i = some v) : seen e i v 0 = v := by
  unfold seen
  split
  · rename_i h0
    have hv : majority e i = some 0 := by
      unfold majority
      rw [h0.1, h0.2.1, h0.2.2, vote_same]
    exact Option.some.inj (hv.symm.trans h)
  · rfl

/-- What mending a word of the user banks changes. -/
theorem bank_onUsers_mend (e : Eeprom) (i : Nat) (v : Word) (b : EeArea) (k : Nat) :
    (onUsers (mend i v) e).bank b k = e.bank b k ∨ b ≠ .fact ∧ e.bank b i ≠ v ∧ (k = i ∨ k = confRegMapNum) := by
  by_cases hb : b = .fact
  · subst hb
    exact .inl rfl
  · rw [bank_onUsers hb]
    by_cases hv : e.bank b i = v
    · rw [mend_right hv]
      exact .inl rfl
    · by_cases hk : k = i ∨ k = confRegMapNum
      · exact .inr ⟨hb, hv, hk⟩
      · rw [not_or] at hk
        exact .inl (mend_of_ne hk.1 hk.2)

/-- The word is right in every user bank, be it the checksum itself. -/
theorem mend_self {i : Nat} (hi : i ≤ confRegMapNum) (v : Word) (f : Nat → Word) : mend i v f i = v := by
  rcases Nat.lt_or_eq_of_le hi with hlt | rfl
  · exact mend_at hlt
  · rw [mend_checksum, Function.update_self]

/-- Exactly when a vote is right: the result variable is not written where all three banks hold 0. -/
theorem voted_read_iff {e : Eeprom} (hq : e.bus = []) {i : Nat} (hi : i ≤ confRegMapNum) (prior : Word) :
    VotesRight i prior e ↔
      (e.bank .ee1 i = 0 ∧ e.bank .ee2 i = 0 ∧ e.bank .ee3 i = 0 → prior = 0) := by
  constructor
  · rintro h ⟨h1, h2, h3⟩
    have hzero : majority e i = some 0 := majority_of_same (forall_user.mpr ⟨h1, h2, h3⟩)
    obtain ⟨e', hread, -⟩ := h.agreed 0 hzero
    rw [eepromCompareRead_majority hq hzero, seen, if_pos ⟨h1, h2, h3⟩] at hread
    exact congrArg (fun x => x.2.1) hread
  · intro hprior
    refine ⟨fun v hv => ?_, fun hnone => eepromCompareRead_none hq hnone prior⟩
    have hseen : seen e i v prior = v := by
      rw [← seen_zero e hv]
      unfold seen
      split
      · rename_i h0
        exact hprior h0
      · rfl
    refine ⟨onUsers (mend i v) e, ?_, rfl, fun b hb => ?_, bank_onUsers_mend e i v⟩
    · rw [eepromCompareRead_majority hq hv, hseen]
    · rw [bank_onUsers hb, mend_self hi]

/-- The word 7 in two of the banks, and 5 in the first. -/
def oddFirst : Eeprom := ⟨fun b i => if b = .ee1 ∧ i = 36 then 5 else 7, eeFlagLoadUsr, [], 0⟩

theorem voted_read_iff_oddFirst : majority oddFirst 36 = some 7 ∧ VotesRight 36 0x1234 oddFirst :=
  ⟨by decide, (voted_read_iff rfl (by decide) 0x1234).mpr fun h => absurd h.1 (by decide)⟩

/-- Three banks of zeros. -/
def zeroBanks : Eeprom := ⟨fun _ _ => 0, eeFlagLoadUsr, [], 0⟩

/-- A vote on a word that is 0 in all banks leaves what the caller's variable held before. -/
theorem zero_not_read : majority zeroBanks 36 = some 0 ∧ (eepromCompareRead 36 0x1234 zeroBanks).1 = 0 ∧
    (eepromCompareRead 36 0x1234 zeroBanks).2.1 = 0x1234 := by
  decide

/-! ## A write to the three banks -/

/-- A bank with the word `wr` and the checksum `cs`. -/
def stored (i : Nat) (wr cs : Word) (f : Nat → Word) : Nat → Word :=
  Function.update (Function.update f i wr) confRegMapNum cs

/-- The word and the checksum, bank by bank. -/
def sixWrites (i : Nat) (wr cs : Word) : List WordWrite :=
  [⟨.ee1, i, wr⟩, ⟨.ee2, i, wr⟩, ⟨.ee3, i, wr⟩, ⟨.ee1, confRegMapNum, cs⟩, ⟨.ee2, confRegMapNum, cs⟩,
    ⟨.ee3, confRegMapNum, cs⟩]

theorem run_sixWrites (i : Nat) (wr cs : Word) (e : Eeprom) :
    run Eeprom.put e (sixWrites i wr cs) = onUsers (stored i wr cs) e := by
  refine eeprom_ext (fun b => ?_) rfl rfl rfl
  cases b <;> rfl

theorem stored_update (i : Nat) (wr cs c : Word) (f : Nat → Word) :
    stored i wr cs (Function.update f confRegMapNum c) = stored i wr cs f := by
  unfold stored
  by_cases hi : i = confRegMapNum
  · subst hi
    simp only [Function.update_idem]
  · have hcomm : Function.update (Function.update f confRegMapNum c) i wr =
        Function.update (Function.update f i wr) confRegMapNum c := Function.update_comm (Ne.symm hi) ..
    rw [hcomm, Function.update_idem]

/-- Once the checksum is read, the words follow. -/
theorem eepromTrippleWrite_of_read {e e' : Eeprom} (hq : e'.bus = []) (i : Nat) (wr rd : Word) {cs : Word}
    (h : eepromCompareRead confRegMapNum e.stack e = (0, cs, e')) :
    eepromTrippleWrite i wr rd e = (0, run Eeprom.put e' (sixWrites i wr (cs ^^^ rd ^^^ wr))) := by
  have hput : ∀ {e : Eeprom} (w : WordWrite), e.bus = [] → (e.put w).bus = [] := fun _ h => h
  unfold eepromTrippleWrite
  rw [h]
  dsimp only
  rw [if_neg (not_not.mpr rfl), write_put hq]
  rw [write_put (hput _ hq)]
  rw [write_put (hput _ (hput _ hq))]
  rw [write_put (hput _ (hput _ (hput _ hq)))]
  rw [write_put (hput _ (hput _ (hput _ (hput _ hq))))]
  rw [write_put (hput _ (hput _ (hput _ (hput _ (hput _ hq)))))]
  rfl

section write

variable {e : Eeprom} (hq : e.bus = []) (i : Nat) (wr rd : Word)
include hq

theorem eepromTrippleWrite_put {c : Word} (h : majority e confRegMapNum = some c) :
    eepromTrippleWrite i wr rd e = (0, run Eeprom.put (onUsers (mend confRegMapNum c) e)
      (sixWrites i wr (seen e confRegMapNum c e.stack ^^^ rd ^^^ wr))) := by
  have hq0 : (onUsers (mend confRegMapNum c) e).bus = [] := hq
  have hread := eepromCompareRead_majority hq h e.stack
  exact eepromTrippleWrite_of_read hq0 i wr rd hread

/-- A write reaches all three banks if their checksums can be read. -/
theorem eepromTrippleWrite_eq {c : Word} (h : majority e confRegMapNum = some c) :
    eepromTrippleWrite i wr rd e =
      (0, onUsers (stored i wr (seen e confRegMapNum c e.stack ^^^ rd ^^^ wr)) e) := by
  rw [eepromTrippleWrite_put hq i wr rd h, run_sixWrites]
  refine congrArg (Prod.mk 0) ?_
  rw [onUsers_onUsers]
  refine onUsers_congr fun b _ => ?_
  rw [mend_checksum, stored_update]

/-- And none of them otherwise. -/
theorem eepromTrippleWrite_none (h : majority e confRegMapNum = none) :
    eepromTrippleWrite i wr rd e = (-1, e) := by
  unfold eepromTrippleWrite
  rw [eepromCompareRead_none hq h]
  rfl

end write

end WM.Proof
