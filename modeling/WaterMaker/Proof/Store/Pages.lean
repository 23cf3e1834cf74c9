import WaterMaker.Proof.Store.Eeprom
import WaterMaker.Proof.Store.Walk

/-!
# A buffer written by pages

`I2C_EE_BufWrite_bsp` cuts a buffer at the pages of the chip (`bufWrite_by_pages`). The page writes of each part are
described by `Pages`, and the parts are put together along the walk (`pages_append`). The transfers of the store are
such writes (`stores_bufWrite`).
-/

namespace WM.Proof

open WM WM.Impl WM.Spec

/-! ## Parts -/

theorem length_slice (buf : Nat → Byte) (pos n : Nat) : (slice buf pos n).length = n := by
  rw [slice, List.length_map, List.length_range]

theorem slice_add (buf : Nat → Byte) (pos m n : Nat) :
    slice buf pos (m + n) = slice buf pos m ++ slice buf (pos + m) n := by
  unfold slice
  rw [List.range_add, List.map_append, List.map_map]
  congr 1
  refine List.map_congr_left fun k _ => ?_
  rw [Function.comp_apply, Nat.add_assoc]

theorem pages_nil (a : Nat) (c : Chip) : Pages a [] c c [] :=
  ⟨(List.append_nil _).symm, nofun, fun _ _ => rfl, fun _ => rfl, fun _ => (blit_nil ..).symm⟩

theorem pages_append {a : Nat} {bs bs' : List Byte} {c c₁ c₂ : Chip} {ws us : List PageWrite}
    (h : Pages a bs c c₁ ws) (h' : Pages (a + bs.length) bs' c₁ c₂ us) : Pages a (bs ++ bs') c c₂ (ws ++ us) := by
  have hall : AllOk (ws ++ us) → AllOk ws ∧ AllOk us := List.forall_mem_append.mp
  refine ⟨?_, List.forall_mem_append.mpr ⟨h.inPage, h'.inPage⟩, fun k hk => ?_, fun hok => ?_, fun hok => ?_⟩
  · rw [h'.issued, h.issued, List.append_assoc]
  · rw [List.length_append] at hk
    rw [h'.kept k (by omega), h.kept k (by omega)]
  · rw [List.map_append]
    exact (h.covers (hall hok).1).append (h'.covers (hall hok).2)
  · rw [h'.mem (hall hok).2, h.mem (hall hok).1, blit_append]

/-! ## One page -/

theorem pages_writeEEROMPage (buf : Nat → Byte) (pos : Nat) (addr : Word) (num : Byte) (hpos : 0 < num.toNat)
    (hpage : addr.toNat % i2cEePageSize + num.toNat ≤ i2cEePageSize) (c : Chip) :
    ∃ w, w.ok = (writeEEROMPage buf pos addr num c).1 ∧
      Pages addr.toNat (slice buf pos num.toNat) c (writeEEROMPage buf pos addr num c).2 [w] := by
  have hin : Burst.InPage i2cEePageSize ⟨addr.toNat, slice buf pos num.toNat⟩ := by
    unfold Burst.InPage
    rw [length_slice]
    exact ⟨hpos, hpage⟩
  unfold writeEEROMPage
  split
  · refine ⟨⟨⟨addr.toNat, slice buf pos num.toNat⟩, true⟩, rfl, rfl, List.forall_mem_singleton.mpr hin, fun k hk => ?_,
      fun _ => Covers.single .., fun _ => burst_eq_blit _ hin.2⟩
    dsimp only
    rw [burst_eq_blit _ hin.2, blit_of_not _ _ _ hk]
  · rename_i taken _
    have hfits : addr.toNat % i2cEePageSize + ((slice buf pos num.toNat).take taken).length ≤ i2cEePageSize :=
      Nat.le_trans (Nat.add_le_add_left (List.length_take_le' ..) _) hin.2
    refine ⟨⟨⟨addr.toNat, slice buf pos num.toNat⟩, false⟩, rfl, rfl, List.forall_mem_singleton.mpr hin,
      fun k hk => ?_, fun hok => ?_, fun hok => ?_⟩
    · dsimp only
      have := List.length_take_le' taken (slice buf pos num.toNat)
      rw [burst_eq_blit _ hfits, blit_of_not _ _ _ (by omega)]
    · exact nomatch List.forall_mem_singleton.mp hok
    · exact nomatch List.forall_mem_singleton.mp hok

/-- After a write that failed nothing is promised but that the writes stay in their pages, and at their addresses. -/
theorem pages_failed {a : Nat} {bs bs₁ : List Byte} (bs₂ : List Byte) {c c₁ c₂ : Chip} {w : PageWrite}
    {us : List PageWrite} (hw : w.ok = false) (h : Pages a bs c c₁ [w]) (h' : Pages a bs₁ c₁ c₂ us)
    (hle : bs.length ≤ bs₂.length) (hle' : bs₁.length ≤ bs₂.length) : Pages a bs₂ c c₂ (w :: us) ∧ ¬AllOk (w :: us) := by
  have hnot : ¬AllOk (w :: us) := fun hok => by
    have hok := hok w (List.mem_cons_self ..)
    rw [hw] at hok
    cases hok
  refine ⟨⟨?_, List.forall_mem_cons.mpr ⟨h.inPage w (List.mem_singleton_self w), h'.inPage⟩, fun k hk => ?_,
    fun hok => absurd hok hnot, fun hok => absurd hok hnot⟩, hnot⟩
  · rw [h'.issued, h.issued, List.append_assoc, List.singleton_append]
  · rw [h'.kept k (by omega), h.kept k (by omega)]

/-- A whole page, tried at least once if it is to be written. -/
theorem pages_tryPage (buf : Nat → Byte) (pos : Nat) {addr : Word} (h : addr.toNat % i2cEePageSize = 0) (cnt : Nat)
    (c : Chip) : ∃ bs ws, Pages addr.toNat bs c (tryPage buf pos addr cnt c) ws ∧
      bs.length ≤ (slice buf pos i2cEePageSize).length ∧ (0 < cnt → bs = slice buf pos i2cEePageSize) := by
  induction cnt generalizing c with
  | zero => exact ⟨[], [], pages_nil .., Nat.zero_le _, fun hlt => absurd hlt (Nat.lt_irrefl 0)⟩
  | succ cnt ih =>
    obtain ⟨w, hok, hw⟩ := pages_writeEEROMPage buf pos addr (BitVec.ofNat 8 i2cEePageSize) (by decide)
      (by rw [h]; decide) c
    refine ⟨slice buf pos i2cEePageSize, ?_⟩
    unfold tryPage
    rcases hr : writeEEROMPage buf pos addr (BitVec.ofNat 8 i2cEePageSize) c with ⟨_ | _, c₁⟩
    · rw [hr] at hok hw
      obtain ⟨bs, us, hus, hle, -⟩ := ih c₁
      exact ⟨w :: us, (pages_failed _ hok hw hus (Nat.le_refl _) hle).1, Nat.le_refl _, fun _ => rfl⟩
    · rw [hr] at hw
      exact ⟨[w], hw, Nat.le_refl _, fun _ => rfl⟩

/-! ## The parts together -/

theorem pages_next {a p m : Nat} {buf : Nat → Byte} {c c₁ c₂ : Chip} {ws us : List PageWrite}
    (h : Pages a (slice buf 0 p) c c₁ ws) (h' : Pages (a + p) (slice buf p m) c₁ c₂ us) :
    Pages a (slice buf 0 (p + m)) c c₂ (ws ++ us) := by
  rw [slice_add, Nat.zero_add]
  exact pages_append h (by rw [length_slice]; exact h')

/-- The page writes of a call, of which one has failed if it returns an error. -/
theorem paged_bufWrite (buf : Nat → Byte) (addr num : Word) (hnum : 1 ≤ num.toNat)
    (hroom : addr.toNat + num.toNat ≤ 65536) (c : Chip) :
    Paged addr.toNat (slice buf 0 num.toNat) c (i2cEeBufWriteBsp buf addr num c) := by
  obtain ⟨⟨hpos, hle⟩, hpage, -⟩ := firstCount_fits addr hnum
  have hend : Ended (fun p c' => ∃ ws, Pages addr.toNat (slice buf 0 p) c c' ws)
      (fun c' => ∃ ws, Pages addr.toNat (slice buf 0 num.toNat) c c' ws ∧ ¬AllOk ws) num.toNat
      (i2cEeBufWriteBsp buf addr num c) := by
    refine walk_chip hnum ?_ ?_ ?_
    · obtain ⟨w, hok, hw⟩ := pages_writeEEROMPage buf 0 addr (firstCount addr num) hpos hpage c
      unfold Writes
      split
      · exact ⟨[w], hw⟩
      · rename_i hfailed
        exact ⟨[w], pages_failed (slice buf 0 num.toNat) (hok.trans (Bool.eq_false_iff.mpr hfailed)) hw (pages_nil _ _)
          (by rw [length_slice, length_slice]; exact hle) (Nat.zero_le _)⟩
    · rintro p w c₁ ⟨ws, hws⟩ ha haddr hfit
      rw [Nat.mod_eq_of_lt (by unfold i2cEePageSize at hfit; omega)] at haddr
      obtain ⟨bs, us, hus, -, hbs⟩ := pages_tryPage buf p (by rw [haddr]; exact ha) 10 c₁
      obtain rfl := hbs (by decide)
      rw [haddr] at hus
      exact ⟨_, pages_next hws hus⟩
    · rintro p w m c₁ ⟨ws, hws⟩ ha haddr hm hlt hfit
      rw [Nat.mod_eq_of_lt (by omega)] at haddr
      obtain ⟨u, hok, hu⟩ := pages_writeEEROMPage buf p w m hm (by rw [haddr, ha]; omega) c₁
      rw [haddr] at hu
      have hall := pages_next hws hu
      rw [hfit] at hall
      unfold Writes
      split
      · exact ⟨_, hall⟩
      · rename_i hfailed
        refine ⟨_, hall, fun hallOk => hfailed ?_⟩
        rw [← hok]
        exact hallOk u (List.mem_append_right _ (List.mem_singleton_self u))
  rcases hend with ⟨hcode, ws, hws⟩ | ⟨-, ws, hws, hnot⟩
  · exact ⟨ws, hws, fun _ => hcode⟩
  · exact ⟨ws, hws, fun hok => absurd hok hnot⟩

theorem getElem_slice (buf : Nat → Byte) {pos n k : Nat} (h : k < (slice buf pos n).length) :
    (slice buf pos n)[k] = buf (pos + k) := by
  simp only [slice, List.getElem_map, List.getElem_range]

theorem blit_slice (f buf : Nat → Byte) (a n k : Nat) :
    blit f a (slice buf 0 n) k = if a ≤ k ∧ k < a + n then buf (k - a) else f k := by
  have hlen := length_slice buf 0 n
  split
  · rename_i hin
    obtain ⟨j, rfl⟩ := Nat.exists_eq_add_of_le hin.1
    rw [blit_at _ _ (by omega), getElem_slice, Nat.zero_add, Nat.add_sub_cancel_left]
  · rename_i hout
    rw [blit_of_not _ _ _ (by rw [hlen]; exact hout)]

/-- For every buffer, address and length within the chip, whatever page writes fail: the page writes that are made have
at most 64 bytes, all of them in one page; and if they all succeed they are the buffer, each byte once and in order, the
chip holds it and nothing else has changed, and the call returns `EEPROM_NOERRO`. -/
theorem bufWrite_by_pages (buf : Nat → Byte) (addr num : Word) (hnum : 1 ≤ num.toNat)
    (hroom : addr.toNat + num.toNat ≤ 65536) (c : Chip) :
    ∃ r c' ws, i2cEeBufWriteBsp buf addr num c = (r, c') ∧ c'.issued = c.issued ++ ws ∧
      (∀ w ∈ ws, w.burst.data.length ≤ 64 ∧
        ∀ k < w.burst.data.length, (w.burst.addr + k) / 64 = w.burst.addr / 64) ∧
      (AllOk ws → r = eepromNoErro ∧ Covers addr.toNat (ws.map PageWrite.burst) (slice buf 0 num.toNat) ∧
        ∀ k, c'.mem k = if addr.toNat ≤ k ∧ k < addr.toNat + num.toNat then buf (k - addr.toNat) else c.mem k) := by
  obtain ⟨ws, hws, hcode⟩ := paged_bufWrite buf addr num hnum hroom c
  generalize i2cEeBufWriteBsp buf addr num c = x at hws hcode ⊢
  obtain ⟨r, c'⟩ := x
  refine ⟨r, c', ws, rfl, hws.issued, fun w hw => (hws.inPage w hw).page,
    fun hok => ⟨hcode hok, hws.covers hok, fun k => ?_⟩⟩
  rw [hws.mem hok, blit_slice]

/-- A buffer of 100 bytes, of which 34 fit into the first page: a page and 2 bytes follow. -/
theorem bufWrite_by_pages_long : 1 ≤ (100 : Word).toNat ∧ (0x021E : Word).toNat + (100 : Word).toNat ≤ 65536 ∧
    ∃ r c' ws, i2cEeBufWriteBsp (fun k => BitVec.ofNat 8 k) 0x021E 100 ⟨fun _ => 0xFF, [], []⟩ = (r, c') ∧
      c'.issued = ws ∧ (AllOk ws → r = eepromNoErro ∧ ∀ k, c'.mem k =
        if 0x021E ≤ k ∧ k < 0x021E + 100 then BitVec.ofNat 8 (k - 0x021E) else 0xFF) := by
  obtain ⟨r, c', ws, heq, hissued, -, hok⟩ := bufWrite_by_pages (fun k => BitVec.ofNat 8 k) 0x021E 100 (by decide)
    (by decide) ⟨fun _ => 0xFF, [], []⟩
  exact ⟨by decide, by decide, r, c', ws, heq, hissued, fun hall => ⟨(hok hall).1, (hok hall).2.2⟩⟩

/-! ## The banks -/

/-- The bytes of a block of words in memory. -/
def wordBytes (data : List Word) : Nat → Byte := fun k =>
  if k % 2 = 0 then loByte (data.getD (k / 2) 0) else hiByte (data.getD (k / 2) 0)

/-- The addresses of a word are not those of another, whatever the area. -/
theorem areaAddr_apart {b b' : EeArea} {i n k : Nat} (hn : i + n ≤ confRegMapNum + 1) (hk : k ≤ confRegMapNum)
    (h : ¬(b' = b ∧ i ≤ k ∧ k < i + n)) {j : Nat} (hj : j < 2) :
    ¬(areaAddr b + 2 * i ≤ areaAddr b' + 2 * k + j ∧
      areaAddr b' + 2 * k + j < areaAddr b + 2 * i + 2 * n) := by
  unfold confRegMapNum at hn hk
  cases b <;> cases b' <;>
    simp only [areaAddr, confRegMapNum, reduceCtorEq, false_and, true_and, not_false_eq_true] at h ⊢ <;> omega

theorem areaAddr_le (b : EeArea) : areaAddr b + 2 * (confRegMapNum + 1) ≤ 65536 := by
  cases b <;> decide

theorem chipWord_kept {b : EeArea} {i n : Nat} (hn : i + n ≤ confRegMapNum + 1) {f g : Nat → Byte}
    (hkept : ∀ k, ¬(areaAddr b + 2 * i ≤ k ∧ k < areaAddr b + 2 * i + 2 * n) → g k = f k) {b' : EeArea} {k : Nat}
    (hk : k ≤ confRegMapNum) (h : ¬(b' = b ∧ i ≤ k ∧ k < i + n)) : chipWord g b' k = chipWord f b' k := by
  have hlow := hkept _ (areaAddr_apart hn hk h Nat.zero_lt_two)
  rw [Nat.add_zero] at hlow
  unfold chipWord
  rw [hkept _ (areaAddr_apart hn hk h Nat.one_lt_two), hlow]

theorem wordBytes_at {data : List Word} {j r : Nat} (hj : j < data.length) (hr : r < 2) :
    wordBytes data (2 * j + r) = if r = 0 then loByte data[j] else hiByte data[j] := by
  unfold wordBytes
  rw [show (2 * j + r) % 2 = r by omega, show (2 * j + r) / 2 = j by omega, List.getD_eq_getElem _ _ hj]

theorem chipWord_blit (f : Nat → Byte) (b : EeArea) (i : Nat) {data : List Word} {j : Nat} (hj : j < data.length) :
    chipWord (blit f (areaAddr b + 2 * i) (slice (wordBytes data) 0 (2 * data.length))) b (i + j) = data[j] := by
  have hlen := length_slice (wordBytes data) 0 (2 * data.length)
  have hat : ∀ r < 2, blit f (areaAddr b + 2 * i) (slice (wordBytes data) 0 (2 * data.length))
      (areaAddr b + 2 * (i + j) + r) = if r = 0 then loByte data[j] else hiByte data[j] := fun r hr => by
    rw [show areaAddr b + 2 * (i + j) + r = areaAddr b + 2 * i + (2 * j + r) by omega, blit_at _ _ (by omega),
      getElem_slice, Nat.zero_add, wordBytes_at hj hr]
  unfold chipWord
  rw [hat 1 Nat.one_lt_two, ← Nat.add_zero (areaAddr b + 2 * (i + j)), hat 0 Nat.zero_lt_two]
  exact word_bytes _

/-- A bank into which the words of a block are put as the chip holds them, when all other words are as they were. -/
theorem stores_setBank {c c' : Chip} {e : Eeprom} (h : Stores c e) {b : EeArea} {i : Nat} {vs : List Word}
    (hkept : ∀ {b' k}, k ≤ confRegMapNum → ¬(b' = b ∧ i ≤ k ∧ k < i + vs.length) →
      chipWord c'.mem b' k = chipWord c.mem b' k)
    (hword : ∀ (j : Nat) (hj : j < vs.length), vs[j] = chipWord c'.mem b (i + j)) :
    Stores c' (e.setBank b (blit (e.bank b) i vs)) := by
  intro b' k hk
  by_cases hb : b' = b
  · subst hb
    rw [setBank_bank]
    by_cases hin : i ≤ k ∧ k < i + vs.length
    · obtain ⟨j, rfl⟩ := Nat.exists_eq_add_of_le hin.1
      rw [blit_at _ _ (by omega), hword]
    · rw [blit_of_not _ _ _ hin, hkept hk fun hout => hin hout.2, h b' k hk]
  · rw [setBank_of_ne _ _ hb, hkept hk fun hout => hb hout.1, h b' k hk]

/-- The store's transfers are page writes: one that is done writes its words, and one that is not leaves anything in
them, and nothing in other words of the banks. -/
theorem stores_bufWrite {c : Chip} {e : Eeprom} (h : Stores c e) (b : EeArea) (i : Nat) {data : List Word}
    (hne : 0 < data.length) (hlen : i + data.length ≤ confRegMapNum + 1) :
    ∃ t, let r := i2cEeBufWriteBsp (wordBytes data) (BitVec.ofNat 16 (areaAddr b + 2 * i))
          (BitVec.ofNat 16 (2 * data.length)) c
        let x := i2cEeBufWrite b i data { e with bus := t :: e.bus }
        r.1 = x.1 ∧ Stores r.2 x.2 ∧ (AllOk (r.2.issued.drop c.issued.length) → t = .done) := by
  have hroom := areaAddr_le b
  have haddr : (BitVec.ofNat 16 (areaAddr b + 2 * i)).toNat = areaAddr b + 2 * i := by
    rw [BitVec.toNat_ofNat, Nat.mod_eq_of_lt (by omega)]
  have hnum : (BitVec.ofNat 16 (2 * data.length)).toNat = 2 * data.length := by
    rw [BitVec.toNat_ofNat, Nat.mod_eq_of_lt (by unfold confRegMapNum at hlen; omega)]
  obtain ⟨ws, hws, hcode⟩ := paged_bufWrite (wordBytes data) (BitVec.ofNat 16 (areaAddr b + 2 * i))
    (BitVec.ofNat 16 (2 * data.length)) (by omega) (by omega) c
  generalize i2cEeBufWriteBsp (wordBytes data) (BitVec.ofNat 16 (areaAddr b + 2 * i))
    (BitVec.ofNat 16 (2 * data.length)) c = r at hws hcode ⊢
  rw [haddr, hnum] at hws
  have hdrop : r.2.issued.drop c.issued.length = ws := by rw [hws.issued, List.drop_left]
  have hbank : ∀ vs : List Word, vs.length = data.length →
      (∀ (j : Nat) (hj : j < vs.length), vs[j] = chipWord r.2.mem b (i + j)) →
      Stores r.2 (e.setBank b (blit (e.bank b) i vs)) := by
    intro vs hvs hword
    refine stores_setBank h (fun hk hout => ?_) hword
    rw [hvs] at hout
    exact chipWord_kept hlen (fun k hk => hws.kept k (by rw [length_slice]; exact hk)) hk hout
  dsimp only
  rw [hdrop]
  by_cases hok : AllOk ws
  · refine ⟨.done, hcode hok, ?_, fun _ => rfl⟩
    refine hbank data rfl fun j hj => ?_
    rw [hws.mem hok, chipWord_blit _ _ _ hj]
  · refine ⟨.failed r.1 fun j => chipWord r.2.mem b (i + j), rfl, ?_, fun hall => absurd hall hok⟩
    refine hbank _ (by rw [List.length_map, List.length_range]) fun j hj => ?_
    rw [List.getElem_map, List.getElem_range]

end WM.Proof
