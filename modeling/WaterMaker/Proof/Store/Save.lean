import WaterMaker.Proof.Store.Eeprom

/-!
# Saving whole banks

`save_conf_reg` of the registers `w` leaves them and their checksum in each bank it writes (`saved`,
`saveConfReg_users`, `saveConfReg_fact`): the words it reads back are the ones it wrote, so that no mismatch is
counted. Banks saved so are consistent (`consistent_saved`). When transfers fail, a mismatch in one bank is counted in
all that follow it (`saves_right_iff`).
-/

namespace WM.Proof

open WM WM.Impl WM.Spec

/-- `checksum_u16` of the first `k` words. -/
theorem checksumU16_map (f : Nat → Word) (k : Nat) : checksumU16 ((List.range k).map f) = xorSum f k := by
  have hfold : ∀ ws : List Word, checksumU16 ws = ws.foldl (· ^^^ ·) 0#16 := by
    intro ws
    cases ws with
    | nil => rfl
    | cons w ws => rw [checksumU16, List.foldl_cons, BitVec.zero_xor]
  rw [hfold, foldl_xor, BitVec.zero_xor]

/-- The registers `w` as `save_conf_reg` takes them. -/
def imageOf (w : Nat → Word) : List Word := (List.range confRegMapNum).map w

/-- A bank with the words `w` and their checksum. -/
def saved (w f : Nat → Word) : Nat → Word := fun i =>
  if i < confRegMapNum then w i else if i = confRegMapNum then xorSum w confRegMapNum else f i

section saved

variable (w f : Nat → Word)

theorem saved_data {i : Nat} (h : i < confRegMapNum) : saved w f i = w i := if_pos h

theorem saved_checksum : saved w f confRegMapNum = xorSum w confRegMapNum := by
  unfold saved
  rw [if_neg (Nat.lt_irrefl _), if_pos rfl]

/-- The words cancel out with their checksum. -/
theorem xorSum_saved : xorSum (saved w f) (confRegMapNum + 1) = 0#16 := by
  rw [xorSum_succ, saved_checksum, xorSum_congr fun i hi => saved_data w f hi, BitVec.xor_self]

theorem blit_imageOf : Function.update (blit f 0 (imageOf w)) confRegMapNum (xorSum w confRegMapNum) = saved w f := by
  have hlen : (imageOf w).length = confRegMapNum := by
    rw [imageOf, List.length_map, List.length_range]
  funext i
  by_cases hi : i = confRegMapNum
  · rw [hi, Function.update_self, saved_checksum]
  · rw [Function.update_of_ne hi]
    by_cases hlt : i < confRegMapNum
    · have hat := blit_at f 0 (hlen.symm ▸ hlt : i < (imageOf w).length)
      rw [Nat.zero_add] at hat
      rw [hat, saved_data w f hlt]
      simp only [imageOf, List.getElem_map, List.getElem_range]
    · rw [blit_of_not f 0 (imageOf w) (by omega), saved, if_neg hlt, if_neg hi]

end saved

/-- What was written is what is read back. -/
theorem mismatches_nil (f : Nat → Word) (image : List Word) :
    (image.zipIdx.filter fun x => x.1 ≠ blit f 0 image (0 + x.2)) = [] := by
  refine List.filter_eq_nil_iff.mpr fun x hx => ?_
  obtain ⟨hlt, hat⟩ := List.getElem?_eq_some_iff.mp (List.mem_zipIdx_iff_getElem?.mp hx)
  rw [blit_at f 0 hlt, hat]
  simp

section quiet

variable {e : Eeprom} (hq : e.bus = []) (w : Nat → Word)
include hq

theorem saveBank_quiet (flag : Byte) (b : EeArea) : saveBank (imageOf w) flag b 0 e =
    (0, { e.setBank b (saved w (e.bank b)) with flag := flag }) := by
  have hq1 : (e.setBank b (blit (e.bank b) 0 (imageOf w))).bus = [] := hq
  have hmismatch := mismatches_nil (e.bank b) (imageOf w)
  unfold saveBank
  rw [write_quiet hq]
  dsimp only
  rw [read_quiet hq1]
  rw [setBank_bank, hmismatch, List.length_nil, Nat.add_zero, if_neg (not_not.mpr rfl), write_quiet hq1]
  rw [flagWrite_quiet (by exact hq)]
  refine congrArg (Prod.mk 0) ?_
  rw [setBank_bank, blit_singleton, imageOf, checksumU16_map, ← imageOf, blit_imageOf]
  unfold Eeprom.setBank
  rw [Function.update_idem]

theorem saveConfReg_fact : saveConfReg 1 (imageOf w) e =
    (0, { e.setBank .fact (saved w (e.bank .fact)) with flag := eeFlagLoadFact }) :=
  saveBank_quiet hq w eeFlagLoadFact .fact

theorem saveConfReg_users :
    saveConfReg 0 (imageOf w) e = (0, { onUsers (saved w) e with flag := eeFlagLoadUsr }) := by
  have hq' : ∀ {e : Eeprom} (b : EeArea), e.bus = [] →
      ({ e.setBank b (saved w (e.bank b)) with flag := eeFlagLoadUsr } : Eeprom).bus = [] := fun _ h => h
  unfold saveConfReg
  rw [saveBank_quiet hq]
  dsimp only
  rw [saveBank_quiet (hq' .ee1 hq)]
  rw [saveBank_quiet (hq' .ee2 (hq' .ee1 hq))]
  refine congrArg (Prod.mk 0) (eeprom_ext (fun b => ?_) rfl rfl rfl)
  cases b <;> rfl

end quiet

theorem consistent_saved (w : Nat → Word) (e : Eeprom) (flag : Byte) :
    Consistent { onUsers (saved w) e with flag := flag } := by
  have hbank : ∀ b, b ≠ .fact →
      ({ onUsers (saved w) e with flag := flag } : Eeprom).bank b = saved w (e.bank b) := fun b hb => bank_onUsers hb
  refine ⟨fun b hb i hi => ?_, ?_⟩
  · rw [hbank b hb, hbank .ee1 nofun]
    rcases Nat.lt_or_eq_of_le hi with hlt | rfl
    · rw [saved_data _ _ hlt, saved_data _ _ hlt]
    · rw [saved_checksum, saved_checksum]
  · rw [hbank .ee1 nofun]
    exact xorSum_saved w _

/-! ## Saving with failures -/

section frames

variable (b b' : EeArea) (i : Nat) (data : List Word) (e : Eeprom)

theorem read_ee : (i2cEeBufRead b i e).2.2 = e.transfer.2 := by
  unfold i2cEeBufRead
  split <;> rename_i h <;> rw [h]

theorem flagWrite_ee (flag : Byte) : ∃ f, (i2cEeFlagWrite flag e).2 = { e.transfer.2 with flag := f } := by
  unfold i2cEeFlagWrite
  split <;> rename_i h <;> rw [h]
  · exact ⟨_, rfl⟩
  · exact ⟨_, rfl⟩

/-- A write puts as many words as it is given, and these if it succeeds. -/
theorem write_ee : ∃ vs, vs.length = data.length ∧ (e.transfer.1 = .done → vs = data) ∧
    (i2cEeBufWrite b i data e).2 = e.transfer.2.setBank b (blit (e.bank b) i vs) := by
  unfold i2cEeBufWrite
  split <;> rename_i hx
  all_goals
    rename_i e₁
    have hbank : e₁.bank = e.bank := congrArg (fun x => x.2.bank) hx.symm
    rw [hx, hbank]
  · exact ⟨data, rfl, fun _ => rfl, rfl⟩
  · exact ⟨_, (List.length_map ..).trans List.length_range, nofun, rfl⟩

theorem bank_read : (i2cEeBufRead b i e).2.2.bank = e.bank := by
  rw [read_ee]
  rfl

theorem bank_flagWrite (flag : Byte) : (i2cEeFlagWrite flag e).2.bank = e.bank := by
  obtain ⟨f, hf⟩ := flagWrite_ee e flag
  rw [hf]
  rfl

/-- A write touches the words it names only, whether it succeeds or not. -/
theorem bank_write {k : Nat} (h : b' = b → ¬(i ≤ k ∧ k < i + data.length)) :
    (i2cEeBufWrite b i data e).2.bank b' k = e.bank b' k := by
  obtain ⟨vs, hlen, -, he⟩ := write_ee b i data e
  rw [he]
  by_cases hb : b' = b
  · subst hb
    rw [setBank_bank, blit_of_not _ _ _ (hlen ▸ h rfl)]
  · rw [setBank_of_ne _ _ hb]
    rfl

theorem bank_write_done {v : Word} (h : e.transfer.1 = .done) : (i2cEeBufWrite b i [v] e).2.bank b i = v := by
  obtain ⟨vs, -, hvs, he⟩ := write_ee b i [v] e
  rw [he, hvs h, setBank_bank, blit_singleton, Function.update_self]

end frames

section save

variable {image : List Word}

/-- Writing and reading back a bank leaves all checksums. -/
theorem sum_verified (hlen : image.length = confRegMapNum) (b b' : EeArea) (e : Eeprom) :
    (verified image b e).2.bank b' confRegMapNum = e.bank b' confRegMapNum := by
  unfold verified
  rw [bank_read, bank_write _ _ _ _ _ fun _ => by omega]

theorem mismatches_zero_iff (image : List Word) (b : EeArea) (e : Eeprom) :
    (image.zipIdx.filter fun x => x.1 ≠ (verified image b e).1 x.2).length = 0 ↔ ReadsBack image b e := by
  rw [List.length_eq_zero_iff, List.filter_eq_nil_iff]
  unfold ReadsBack
  simp only [decide_eq_true_eq, not_not]

/-- One bank of `save_conf_reg`, whatever the transfers do. -/
theorem saveBank_right {b : EeArea} {e : Eeprom} {flag : Byte} (h : ReadsBack image b e) :
    saveBank image flag b 0 e =
      (0, (i2cEeFlagWrite flag (i2cEeBufWrite b confRegMapNum [checksumU16 image] (verified image b e).2).2).2) := by
  unfold saveBank
  exact if_neg (not_not.mpr ((Nat.zero_add _).trans ((mismatches_zero_iff ..).mpr h)))

theorem saveBank_wrong {b : EeArea} {e : Eeprom} {flag : Byte} {n : Nat} (h : n ≠ 0 ∨ ¬ReadsBack image b e) :
    (saveBank image flag b n e).1 ≠ 0 ∧ (saveBank image flag b n e).2 = (verified image b e).2 := by
  have hcnt : n + (image.zipIdx.filter fun x => x.1 ≠ (verified image b e).1 x.2).length ≠ 0 := by
    have hback := mismatches_zero_iff image b e
    rcases h with hn | hr
    · omega
    · exact fun h0 => hr (hback.mp (by omega))
  have heq : saveBank image flag b n e =
      (n + (image.zipIdx.filter fun x => x.1 ≠ (verified image b e).1 x.2).length, (verified image b e).2) := by
    unfold saveBank
    exact if_pos hcnt
  rw [heq]
  exact ⟨hcnt, rfl⟩

/-- A bank is taken for right if it is, and if all banks before it were. -/
theorem saveBank_zero_iff {b : EeArea} {e : Eeprom} {flag : Byte} {n : Nat} :
    (saveBank image flag b n e).1 = 0 ↔ n = 0 ∧ ReadsBack image b e := by
  by_cases h : n = 0 ∧ ReadsBack image b e
  · obtain ⟨rfl, hr⟩ := h
    rw [saveBank_right hr]
    exact iff_of_true rfl ⟨rfl, hr⟩
  · exact iff_of_false (saveBank_wrong (not_and_or.mp h)).1 h

section sum

variable (hlen : image.length = confRegMapNum) {b : EeArea} {e : Eeprom} {flag : Byte} {n : Nat}
include hlen

/-- The other banks keep their checksums. -/
theorem sum_saveBank_of_ne {b' : EeArea} (hb : b' ≠ b) :
    (saveBank image flag b n e).2.bank b' confRegMapNum = e.bank b' confRegMapNum := by
  by_cases h : n = 0 ∧ ReadsBack image b e
  · obtain ⟨rfl, hr⟩ := h
    rw [saveBank_right hr, bank_flagWrite, bank_write _ _ _ _ _ fun hb' => absurd hb' hb, sum_verified hlen]
  · rw [(saveBank_wrong (not_and_or.mp h)).2, sum_verified hlen]

theorem sum_saveBank_wrong (h : ¬(n = 0 ∧ ReadsBack image b e)) :
    (saveBank image flag b n e).2.bank b confRegMapNum = e.bank b confRegMapNum := by
  rw [(saveBank_wrong (not_and_or.mp h)).2, sum_verified hlen]

omit hlen in
theorem sum_saveBank_right (flag : Byte) (hr : ReadsBack image b e) (ht : (verified image b e).2.transfer.1 = .done) :
    (saveBank image flag b 0 e).2.bank b confRegMapNum = checksumU16 image := by
  rw [saveBank_right hr, bank_flagWrite, bank_write_done _ _ _ ht]

end sum

/-- What `save_conf_reg` leaves in the checksum of a bank. -/
theorem sum_saveConfReg (hlen : image.length = confRegMapNum) (e : Eeprom) {b : EeArea} (hb : b ≠ .fact) :
    let e' := (saveConfReg 0 image e).2
    (Preceded image e b ∧ Right image e b → SumTaken image e b → e'.bank b confRegMapNum = checksumU16 image) ∧
      (¬(Preceded image e b ∧ Right image e b) → e'.bank b confRegMapNum = e.bank b confRegMapNum) := by
  intro e'
  have h1 : (saveBank image eeFlagLoadUsr .ee1 0 e).1 = 0 ↔ Right image e .ee1 :=
    saveBank_zero_iff.trans (and_iff_right rfl)
  have h2 : (saveBank image eeFlagLoadUsr .ee2 (saveBank image eeFlagLoadUsr .ee1 0 e).1
      (turnOf image e .ee2)).1 = 0 ↔ Right image e .ee1 ∧ Right image e .ee2 :=
    saveBank_zero_iff.trans (and_congr_left fun _ => h1)
  have he : e' = (saveBank image eeFlagLoadUsr .ee3 (saveBank image eeFlagLoadUsr .ee2
      (saveBank image eeFlagLoadUsr .ee1 0 e).1 (turnOf image e .ee2)).1 (turnOf image e .ee3)).2 := rfl
  have hthird : ∀ b, b ≠ .ee3 → e'.bank b confRegMapNum = (turnOf image e .ee3).bank b confRegMapNum := fun b hb => by
    rw [he, sum_saveBank_of_ne hlen hb]
  have hsecond : ∀ b, b ≠ .ee2 →
      (turnOf image e .ee3).bank b confRegMapNum = (turnOf image e .ee2).bank b confRegMapNum := fun b hb =>
    sum_saveBank_of_ne hlen hb
  have hfirst : ∀ b, b ≠ .ee1 → (turnOf image e .ee2).bank b confRegMapNum = e.bank b confRegMapNum := fun b hb =>
    sum_saveBank_of_ne hlen hb
  cases b with
  | ee1 =>
    rw [hthird .ee1 nofun, hsecond .ee1 nofun]
    refine ⟨fun hr ht => sum_saveBank_right _ hr.2 ht, fun hr => sum_saveBank_wrong hlen fun h => hr ⟨trivial, h.2⟩⟩
  | ee2 =>
    rw [hthird .ee2 nofun, ← hfirst .ee2 nofun]
    refine ⟨fun hr ht => ?_, fun hr => sum_saveBank_wrong hlen fun h => hr ⟨h1.mp h.1, h.2⟩⟩
    have hsum := sum_saveBank_right eeFlagLoadUsr hr.2 ht
    rw [← h1.mpr hr.1] at hsum
    exact hsum
  | ee3 =>
    rw [he, ← hfirst .ee3 nofun, ← hsecond .ee3 nofun]
    refine ⟨fun hr ht => ?_, fun hr => sum_saveBank_wrong hlen fun h => hr ⟨h2.mp h.1, h.2⟩⟩
    have hsum := sum_saveBank_right eeFlagLoadUsr hr.2 ht
    rw [← h2.mpr hr.1] at hsum
    exact hsum
  | fact => exact absurd rfl hb

/-- The result is 0 exactly if the first two banks read back right: mismatches are never forgotten. -/
theorem report_saveConfReg (image : List Word) (e : Eeprom) :
    (saveConfReg 0 image e).1 = 0 ↔ Right image e .ee1 ∧ Right image e .ee2 := by
  obtain ⟨err1, herr1⟩ : ∃ n, (saveBank image eeFlagLoadUsr .ee1 0 e).1 = n := ⟨_, rfl⟩
  obtain ⟨err2, herr2⟩ : ∃ n, (saveBank image eeFlagLoadUsr .ee2 err1 (turnOf image e .ee2)).1 = n := ⟨_, rfl⟩
  obtain ⟨err3, herr3⟩ : ∃ n, (saveBank image eeFlagLoadUsr .ee3 err2 (turnOf image e .ee3)).1 = n := ⟨_, rfl⟩
  have h1 : err1 = 0 ↔ Right image e .ee1 := herr1 ▸ saveBank_zero_iff.trans (and_iff_right rfl)
  have h2 : err2 = 0 ↔ err1 = 0 ∧ Right image e .ee2 := herr2 ▸ saveBank_zero_iff
  have h3 : err3 = 0 ↔ err2 = 0 ∧ Right image e .ee3 := herr3 ▸ saveBank_zero_iff
  have hret : (saveConfReg 0 image e).1 =
      if ([err1, err2, err3].filter (· ≠ 0)).length < 2 then 0 else ([err1, err2, err3].filter (· ≠ 0)).length := by
    subst herr1 herr2 herr3
    rfl
  rw [hret, ← h1, ← h2]
  by_cases hzero : err2 = 0
  · rw [(h2.mp hzero).1, hzero]
    by_cases h0 : err3 = 0 <;> simp [h0]
  · have hthree : err3 ≠ 0 := fun h0 => hzero (h3.mp h0).1
    by_cases h0 : err1 = 0 <;> simp [h0, hzero, hthree]

/-- Exactly when a save of the registers does what it is to do: a bank that reads back right comes after right ones
only, or its checksum was the new one already; and if the third is right, the first two are alike. -/
theorem saves_right_iff (d : Dev) : SavesRight d.image d.ee ↔
    (∀ b, b ≠ .fact → Right d.image d.ee b → SumTaken d.image d.ee b →
      Preceded d.image d.ee b ∨ d.ee.bank b confRegMapNum = checksumU16 d.image) ∧
    (Right d.image d.ee .ee3 → (Right d.image d.ee .ee1 ↔ Right d.image d.ee .ee2)) := by
  have hlen : d.image.length = confRegMapNum := by
    rw [Dev.image, List.length_map, List.length_range]
  have hsum := fun b (hb : b ≠ EeArea.fact) => sum_saveConfReg hlen d.ee hb
  have hret := report_saveConfReg d.image d.ee
  generalize d.image = image at hlen hsum hret ⊢
  constructor
  · intro h
    refine ⟨fun b hb hr ht => ?_, two_of_three_iff.mp (hret.symm.trans h.report)⟩
    by_cases hp : Preceded image d.ee b
    · exact .inl hp
    · exact .inr (((hsum b hb).2 fun hpr => hp hpr.1).symm.trans (h.sum b hb hr ht))
  · rintro ⟨hall, hthird⟩
    refine ⟨fun b hb hr ht => ?_, fun b hb hr => (hsum b hb).2 fun hpr => hr hpr.2,
      hret.trans (two_of_three_iff.mpr hthird)⟩
    by_cases hp : Preceded image d.ee b
    · exact (hsum b hb).1 ⟨hp, hr⟩ ht
    · rw [(hsum b hb).2 fun hpr => hp hpr.1]
      exact (hall b hb hr ht).resolve_left hp

end save

/-! ## How far a save gets on the bus -/

section bus

variable (b : EeArea) (i : Nat) (e : Eeprom)

theorem bus_read : (i2cEeBufRead b i e).2.2.bus = e.bus.tail := by
  rw [read_ee]
  rfl

theorem bus_write (data : List Word) : (i2cEeBufWrite b i data e).2.bus = e.bus.tail := by
  obtain ⟨vs, -, -, he⟩ := write_ee b i data e
  rw [he]
  rfl

theorem bus_flagWrite (flag : Byte) : (i2cEeFlagWrite flag e).2.bus = e.bus.tail := by
  obtain ⟨f, hf⟩ := flagWrite_ee e flag
  rw [hf]
  rfl

theorem bus_verified (image : List Word) : (verified image b e).2.bus = e.bus.tail.tail := by
  unfold verified
  rw [bus_read, bus_write]

/-- A bank that is right takes four transfers, any other two. -/
theorem bus_saveBank_right {image : List Word} (flag : Byte) (h : ReadsBack image b e) :
    (saveBank image flag b 0 e).2.bus = e.bus.tail.tail.tail.tail := by
  rw [saveBank_right h, bus_flagWrite, bus_write, bus_verified]

theorem bus_saveBank_wrong (image : List Word) (flag : Byte) {n : Nat} (h : n ≠ 0 ∨ ¬ReadsBack image b e) :
    (saveBank image flag b n e).2.bus = e.bus.tail.tail := by
  rw [(saveBank_wrong h).2, bus_verified]

end bus

/-! ## A bank that fails -/

/-- A bank that is written and read without a failure reads back right. -/
theorem readsBack_done {image : List Word} {b : EeArea} {e : Eeprom} (h : e.bus.headD .done = .done)
    (h' : e.bus.tail.headD .done = .done) : ReadsBack image b e := by
  have hwrite : i2cEeBufWrite b 0 image e = (0, e.transfer.2.setBank b (blit (e.bank b) 0 image)) := by
    unfold i2cEeBufWrite
    rw [show e.transfer = (.done, e.transfer.2) from Prod.ext h rfl]
    rfl
  have hread : (verified image b e).1 = blit (e.bank b) 0 image := by
    unfold verified
    rw [hwrite]
    unfold i2cEeBufRead
    rw [show (e.transfer.2.setBank b (blit (e.bank b) 0 image)).transfer =
      (.done, (e.transfer.2.setBank b (blit (e.bank b) 0 image)).transfer.2) from Prod.ext h' rfl]
    funext k
    exact congrFun (setBank_bank ..) (0 + k) |>.trans (by rw [Nat.zero_add])
  intro x hx
  obtain ⟨hlt, hat⟩ := List.getElem?_eq_some_iff.mp (List.mem_zipIdx_iff_getElem?.mp hx)
  have hblit := blit_at (e.bank b) 0 hlt
  rw [Nat.zero_add] at hblit
  rw [hread, hblit, hat]

/-- A bank that a failed read gives another first word of. -/
theorem not_readsBack_failed {image : List Word} {b : EeArea} {e : Eeprom} {code : Nat} {left : Nat → Word}
    {w : Word} (hw : image[0]? = some w) (hne : left 0 ≠ w) (h : e.bus.tail.headD .done = .failed code left) :
    ¬ReadsBack image b e := by
  intro hr
  have hread : (verified image b e).1 = left := by
    unfold verified i2cEeBufRead
    have ht : (i2cEeBufWrite b 0 image e).2.transfer.1 = .failed code left := by
      unfold Eeprom.transfer
      rw [bus_write]
      exact h
    rw [show (i2cEeBufWrite b 0 image e).2.transfer =
      (.failed code left, (i2cEeBufWrite b 0 image e).2.transfer.2) from Prod.ext ht rfl]
  have hfirst := hr (w, 0) (List.mem_zipIdx_iff_getElem?.mpr hw)
  rw [hread] at hfirst
  exact hne hfirst.symm

/-- A transfer that fails and leaves another word. -/
def badRead : Transfer := .failed 1 fun _ => 0x1234

section failing

variable {image : List Word} {e : Eeprom} (hw : image[0]? = some 0)
include hw

/-- The third bank cannot be read back. -/
theorem third_fails (hbus : e.bus = [.done, .done, .done, .done, .done, .done, .done, .done, .done, badRead]) :
    Right image e .ee1 ∧ Right image e .ee2 ∧ ¬Right image e .ee3 := by
  have hturn : turnOf image e .ee1 = e := rfl
  have h1 : Right image e .ee1 := readsBack_done (by rw [hturn, hbus]; rfl) (by rw [hturn, hbus]; rfl)
  have hbus2 : (turnOf image e .ee2).bus = [.done, .done, .done, .done, .done, badRead] := by
    rw [turnOf, bus_saveBank_right .ee1 e eeFlagLoadUsr h1, hbus]
    rfl
  have h2 : Right image e .ee2 := readsBack_done (by rw [hbus2]; rfl) (by rw [hbus2]; rfl)
  have hzero : (saveBank image eeFlagLoadUsr .ee1 0 e).1 = 0 := saveBank_zero_iff.mpr ⟨rfl, h1⟩
  have hbus3 : (turnOf image e .ee3).bus = [.done, badRead] := by
    have hbus := bus_saveBank_right .ee2 (turnOf image e .ee2) eeFlagLoadUsr h2
    rw [← hzero, hbus2] at hbus
    exact hbus
  exact ⟨h1, h2, not_readsBack_failed hw (by decide : (0x1234 : Word) ≠ 0) (by rw [hbus3]; rfl)⟩

/-- Only the first bank cannot be read back. -/
theorem first_fails (hbus : e.bus = [.done, badRead]) :
    ¬Right image e .ee1 ∧ Right image e .ee2 ∧ Right image e .ee3 := by
  have hturn : turnOf image e .ee1 = e := rfl
  have h1 : ¬Right image e .ee1 :=
    not_readsBack_failed hw (by decide : (0x1234 : Word) ≠ 0) (by rw [hturn, hbus]; rfl)
  have hbus2 : (turnOf image e .ee2).bus = [] := by
    rw [turnOf, bus_saveBank_wrong .ee1 e image eeFlagLoadUsr (.inr h1), hbus]
    rfl
  have hone : (saveBank image eeFlagLoadUsr .ee1 0 e).1 ≠ 0 := (saveBank_wrong (.inr h1)).1
  have hbus3 : (turnOf image e .ee3).bus = [] := by
    have hbus := bus_saveBank_wrong .ee2 (turnOf image e .ee2) image eeFlagLoadUsr (.inl hone)
    rw [hbus2] at hbus
    exact hbus
  exact ⟨h1, readsBack_done (by rw [hbus2]; rfl) (by rw [hbus2]; rfl),
    readsBack_done (by rw [hbus3]; rfl) (by rw [hbus3]; rfl)⟩

end failing

/-- Registers that are all 1, on a bus that may fail. -/
def busDev (bus : List Transfer) : Dev where
  conf _ := 1
  cmd _ := 0
  sts _ := 0
  flash := 0
  ee := ⟨fun _ _ => 0, eeFlagLoadUsr, bus, 0⟩
  events := []
  permissionLevel := 0
  now := 0
  setSystimeDelay := 0
  setSystimeFlag := 0
  calls := []

theorem image_busDev (bus : List Transfer) : (busDev bus).image[0]? = some 0 := rfl

/-- Two banks are saved, and the save succeeds. -/
theorem saves_right_iff_third :
    let d := busDev [.done, .done, .done, .done, .done, .done, .done, .done, .done, badRead]
    (saveConfReg 0 d.image d.ee).1 = 0 ∧ SavesRight d.image d.ee := by
  intro d
  obtain ⟨h1, h2, h3⟩ := third_fails (image_busDev _) (e := d.ee) rfl
  refine ⟨(report_saveConfReg d.image d.ee).mpr ⟨h1, h2⟩, (saves_right_iff d).mpr ⟨?_, fun hr => absurd hr h3⟩⟩
  exact forall_user.mpr ⟨fun _ _ => .inl trivial, fun _ _ => .inl h1, fun hr => absurd hr h3⟩

/-- The second and the third bank are right, but the save reports a failure. -/
theorem first_bank_spoils_all : let d := busDev [.done, badRead]
    ¬Right d.image d.ee .ee1 ∧ Right d.image d.ee .ee2 ∧ Right d.image d.ee .ee3 ∧
      (saveConfReg 0 d.image d.ee).1 ≠ 0 := by
  intro d
  obtain ⟨h1, h2, h3⟩ := first_fails (image_busDev _) (e := d.ee) rfl
  exact ⟨h1, h2, h3, fun h0 => h1 ((report_saveConfReg d.image d.ee).mp h0).1⟩

end WM.Proof
