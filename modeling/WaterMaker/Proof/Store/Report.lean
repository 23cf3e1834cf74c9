import WaterMaker.Proof.Store.Pages

/-!
# Failures of page writes

`I2C_EE_BufWrite` reports a failure of the first page write and of the last, and tries a whole page in between ten
times; a whole page that fails each time is passed over, and the call returns `EEPROM_NOERRO` all the same. What a
call leaves in the chip is described for every way in which a page write that fails can leave its page (`MayLeave`):
the calls made and the result do not depend on it. How the page writes end says what is returned and whether a whole
page is lost (`walked_bufWrite`), and with it when a call that returns `EEPROM_NOERRO` has written its range
(`bufWrite_reports_iff`).
-/

namespace WM.Proof

open WM WM.Impl WM.Spec

/-! ## The page writes of a call -/

theorem made_append {c c₁ c₂ : Chip} {ws us : List PageWrite} (h : Made c c₁ ws) (h' : Made c₁ c₂ us) :
    Made c c₂ (ws ++ us) := by
  refine ⟨by rw [h'.issued, h.issued, List.append_assoc], ?_⟩
  rw [List.map_append]
  exact h.leaves.append h'.leaves

theorem madeBy_of_made {c : Chip} {r : Nat × Chip} {ws : List PageWrite} (h : Made c r.2 ws) : madeBy c r = ws := by
  rw [madeBy, h.issued, List.drop_left]

/-- A page write is made, and if it fails it leaves the other pages. -/
theorem made_write (buf : Nat → Byte) (pos : Nat) (addr : Word) (num : Byte)
    (hpage : addr.toNat % i2cEePageSize + num.toNat ≤ i2cEePageSize) (c : Chip) :
    Made c (writeEEROMPage buf pos addr num c).2
      [⟨⟨addr.toNat, slice buf pos num.toNat⟩, (writeEEROMPage buf pos addr num c).1⟩] := by
  unfold writeEEROMPage
  split
  · exact ⟨rfl, MayLeave.single.mpr rfl⟩
  · rename_i taken _
    have hlen : ((slice buf pos num.toNat).take taken).length ≤ num.toNat :=
      Nat.le_trans (List.length_take_le' ..) (Nat.le_of_eq (length_slice ..))
    refine ⟨rfl, MayLeave.single.mpr fun k hk => ?_⟩
    dsimp only at hk ⊢
    rw [burst_eq_blit _ (by omega), blit_of_not]
    unfold i2cEePageSize at hpage hk
    omega

/-! ## The ends of the page writes -/

theorem writeEEROMPage_ok (buf : Nat → Byte) (pos : Nat) (addr : Word) (num : Byte) (c : Chip) :
    (writeEEROMPage buf pos addr num c).1 = pageWell c.ends ∧
      (writeEEROMPage buf pos addr num c).2.ends = c.ends.tail := by
  unfold writeEEROMPage pageWell
  split <;> rename_i h <;> rw [h] <;> exact ⟨rfl, rfl⟩

theorem failures_of_pageWell {es : List PageEnd} (h : pageWell es = true) : failures es = 0 := by
  cases es with
  | nil => rfl
  | cons e es =>
    obtain rfl : e = .done := of_decide_eq_true h
    rfl

theorem failures_of_fails {es : List PageEnd} (h : pageWell es = false) :
    failures es = failures es.tail + 1 ∧ ∀ n, es.drop (n + 1) = es.tail.drop n := by
  cases es with
  | nil => exact absurd h.symm Bool.false_ne_true
  | cons e es =>
    have he : decide (e ≠ .done) = true := decide_eq_true (of_decide_eq_false h)
    refine ⟨?_, fun _ => rfl⟩
    simp only [failures, List.takeWhile_cons, he, if_true, List.length_cons, List.tail_cons]

/-- The tries of a whole page: they fail, but perhaps for the last. -/
theorem made_tryPage (buf : Nat → Byte) (pos : Nat) (addr : Word) (h : addr.toNat % i2cEePageSize = 0) (cnt : Nat)
    (c : Chip) : (∃ n, Made c (tryPage buf pos addr (cnt + 1) c)
      (List.replicate n ⟨⟨addr.toNat, slice buf pos i2cEePageSize⟩, false⟩ ++
        [⟨⟨addr.toNat, slice buf pos i2cEePageSize⟩, decide (failures c.ends ≤ cnt)⟩])) ∧
      (tryPage buf pos addr (cnt + 1) c).ends = c.ends.drop (min (failures c.ends + 1) (cnt + 1)) := by
  induction cnt generalizing c with
  | zero =>
    have hmade := made_write buf pos addr (BitVec.ofNat 8 i2cEePageSize) (by rw [h]; decide) c
    obtain ⟨hok, hends⟩ := writeEEROMPage_ok buf pos addr (BitVec.ofNat 8 i2cEePageSize) c
    have hlast : pageWell c.ends = decide (failures c.ends ≤ 0) := by
      cases hwell : pageWell c.ends with
      | true => rw [failures_of_pageWell hwell]; rfl
      | false => rw [(failures_of_fails hwell).1]; rfl
    rw [hok, hlast] at hmade
    rw [Nat.min_eq_right (Nat.le_add_left 1 _), List.drop_one, ← hends]
    unfold tryPage
    rcases hr : writeEEROMPage buf pos addr (BitVec.ofNat 8 i2cEePageSize) c with ⟨_ | _, c₁⟩ <;>
    · rw [hr] at hmade
      exact ⟨⟨0, hmade⟩, rfl⟩
  | succ cnt ih =>
    have hmade := made_write buf pos addr (BitVec.ofNat 8 i2cEePageSize) (by rw [h]; decide) c
    obtain ⟨hok, hends⟩ := writeEEROMPage_ok buf pos addr (BitVec.ofNat 8 i2cEePageSize) c
    unfold tryPage
    rcases hr : writeEEROMPage buf pos addr (BitVec.ofNat 8 i2cEePageSize) c with ⟨_ | _, c₁⟩ <;>
      rw [hr] at hmade hok hends
    · -- the first try fails: the others are those of the ends that are left
      obtain ⟨hfailures, hdrop⟩ := failures_of_fails hok.symm
      obtain ⟨⟨n, htries⟩, hleft⟩ := ih c₁
      dsimp only at hends
      rw [hends] at htries hleft
      rw [hfailures, Nat.add_min_add_right, hdrop, decide_eq_decide.mpr Nat.add_le_add_iff_right]
      exact ⟨⟨n + 1, (made_append hmade htries :)⟩, hleft⟩
    · rw [failures_of_pageWell hok.symm, Nat.min_eq_left (Nat.le_add_left 1 _), List.drop_one]
      exact ⟨⟨0, hmade⟩, hends⟩

/-! ## Page writes of different bytes -/

/-- A page write leaves the bytes of the range that are not its own. -/
theorem apart_of_placed {a : Nat} {buf : Nat → Byte} {lo hi : Nat} {w : PageWrite} (h : Placed a buf lo hi w)
    (hhi : hi ≤ 65536) {j : Nat} (hj : j < 65536) (hout : ¬(lo ≤ j ∧ j < hi)) :
    w.burst.Apart i2cEePageSize w.ok ((a + j) % 65536) := by
  obtain ⟨p, m, hlo, hm, hle, hburst, hpage, hfailed⟩ := h
  unfold Burst.Apart
  rw [hburst]
  dsimp only
  rw [length_slice]
  unfold i2cEePageSize at *
  refine ⟨by omega, ?_⟩
  rcases hok : w.ok with _ | _
  · have := hfailed hok
    change (a + j) % 65536 / 64 ≠ (a + p) % 65536 / 64
    omega
  · change ¬((a + p) % 65536 ≤ (a + j) % 65536 ∧ (a + j) % 65536 < (a + p) % 65536 + m)
    omega

theorem leaves_placed {a : Nat} {buf : Nat → Byte} {lo hi : Nat} {ws : List PageWrite}
    (h : ∀ w ∈ ws, Placed a buf lo hi w) (hhi : hi ≤ 65536) {f g : Nat → Byte}
    (hleaves : MayLeave i2cEePageSize (ws.map ended) f g) {j : Nat} (hj : j < 65536) (hout : ¬(lo ≤ j ∧ j < hi)) :
    g ((a + j) % 65536) = f ((a + j) % 65536) := by
  refine hleaves.kept fun u hu => ?_
  obtain ⟨w, hw, rfl⟩ := List.mem_map.mp hu
  exact apart_of_placed (h w hw) hhi hj hout

theorem placed_mono {a : Nat} {buf : Nat → Byte} {lo hi lo' hi' : Nat} {w : PageWrite} (h : Placed a buf lo hi w)
    (hlo : lo' ≤ lo) (hhi : hi ≤ hi') : Placed a buf lo' hi' w := by
  obtain ⟨p, m, hp, hm, hle, hrest⟩ := h
  exact ⟨p, m, Nat.le_trans hlo hp, hm, Nat.le_trans hle hhi, hrest⟩

theorem reports_append {a : Nat} {buf : Nat → Byte} {lo mid hi : Nat} {ws us : List PageWrite} {well well' : Bool}
    (h : Reports a buf lo mid ws well) (h' : Reports a buf mid hi us well') (hlo : lo ≤ mid) (hmid : mid ≤ hi)
    (hhi : hi ≤ 65536) : Reports a buf lo hi (ws ++ us) (well && well') := by
  refine ⟨?_, fun hall f g hleaves j hj hj' => ?_, fun hnot f => ?_⟩
  · refine List.forall_mem_append.mpr ⟨fun w hw => ?_, fun u hu => ?_⟩
    · exact placed_mono (h.placed w hw) (Nat.le_refl _) hmid
    · exact placed_mono (h'.placed u hu) hlo (Nat.le_refl _)
  · obtain ⟨hws, hus⟩ := (Bool.and_eq_true_iff ..).mp hall
    rw [List.map_append] at hleaves
    obtain ⟨f', hleft, hright⟩ := hleaves.of_append
    by_cases hin : j < mid
    · rw [leaves_placed h'.placed hhi hright (by omega) (by omega), h.held hws f f' hleft j hj hin]
    · exact h'.held hus f' g hright j (by omega) hj'
  · rw [List.map_append]
    cases hws : well with
    | true =>
      rw [hws] at hnot
      obtain ⟨f', hleft⟩ := exists_leaves i2cEePageSize (ws.map ended) f
      obtain ⟨g, hright, j, hj, hj', hne⟩ := h'.lost hnot f'
      exact ⟨g, hleft.append hright, j, by omega, hj', hne⟩
    | false =>
      obtain ⟨f', hleft, j, hj, hj', hne⟩ := h.lost hws f
      obtain ⟨g, hright⟩ := exists_leaves i2cEePageSize (us.map ended) f'
      -- what is wrong stays wrong: the page writes that follow are not at this address
      have hkept := leaves_placed h'.placed hhi hright (j := j) (by omega) (by omega)
      exact ⟨g, hleft.append hright, j, hj, by omega, by rw [hkept]; exact hne⟩

/-! ## The tries of a page -/

/-- The tries of a part that lies in a page; only a whole page is tried again, and passed over. -/
theorem reports_tries (a : Nat) (buf : Nat → Byte) (p n : Nat) (ok : Bool) {m : Nat} (hm : 0 < m)
    (hpage : (a + p) % i2cEePageSize + m ≤ i2cEePageSize) (hwhole : n = 0 ∧ ok = true ∨ m = i2cEePageSize) :
    Reports a buf p (p + m) (List.replicate n ⟨⟨(a + p) % 65536, slice buf p m⟩, false⟩ ++
      [⟨⟨(a + p) % 65536, slice buf p m⟩, ok⟩]) ok := by
  have hfits : (a + p) % 65536 % i2cEePageSize + m ≤ i2cEePageSize ∧ (a + p) % 65536 + m ≤ 65536 := by
    unfold i2cEePageSize at *
    omega
  refine ⟨List.forall_mem_append.mpr ⟨fun w hw => ?_, List.forall_mem_singleton.mpr ?_⟩,
    fun hok f g hleaves j hj hj' => ?_, fun hfailed f => ?_⟩
  · obtain ⟨hn, rfl⟩ := List.mem_replicate.mp hw
    refine ⟨p, m, Nat.le_refl _, hm, Nat.le_refl _, rfl, hpage, fun _ => ?_⟩
    rcases hwhole with ⟨hzero, -⟩ | hwhole
    · exact absurd hzero hn
    · exact hwhole
  · refine ⟨p, m, Nat.le_refl _, hm, Nat.le_refl _, rfl, hpage, fun hfailed => ?_⟩
    rcases hwhole with ⟨-, hok⟩ | hwhole
    · exact absurd (hok.symm.trans hfailed) nofun
    · exact hwhole
  · subst hok
    rw [List.map_append] at hleaves
    obtain ⟨f', -, hlast⟩ := hleaves.of_append
    obtain ⟨i, rfl⟩ := Nat.exists_eq_add_of_le hj
    have hg : g = burst i2cEePageSize f' ((a + p) % 65536) (slice buf p m) := MayLeave.single.mp hlast
    rw [hg, burst_eq_blit _ (by rw [length_slice]; exact hfits.1),
      show (a + (p + i)) % 65536 = (a + p) % 65536 + i by omega, blit_at _ _ (by rw [length_slice]; omega),
        getElem_slice]
  · subst hfailed
    rw [List.map_append]
    obtain ⟨f', hleft⟩ := exists_leaves i2cEePageSize
      ((List.replicate n (⟨⟨(a + p) % 65536, slice buf p m⟩, false⟩ : PageWrite)).map ended) f
    refine ⟨Function.update f' ((a + p) % 65536) (buf p + 1), hleft.append (MayLeave.single.mpr fun k hk => ?_), p,
      Nat.le_refl _, by omega, ?_⟩
    · exact Function.update_of_ne (fun heq => hk (by rw [heq])) ..
    · rw [Function.update_self]
      bv_omega

/-! ## The call -/

theorem losesPage_succ (k : Nat) (es : List PageEnd) :
    losesPage (k + 1) es = (losesPage k es || decide (10 ≤ failures (afterPage^[k] es))) := by
  induction k generalizing es with
  | zero => exact (Bool.or_false _).trans (Bool.false_or _).symm
  | succ k ih =>
    rw [losesPage, ih, losesPage, Bool.or_assoc]
    rfl

section call

variable {buf : Nat → Byte} {addr num : Word} {c : Chip}

/-- What the call has done when the first `p` bytes were written: the first page, whole pages, and perhaps the rest. -/
structure Walked (buf : Nat → Byte) (addr num : Word) (c : Chip) (p : Nat) (c' : Chip) : Prop where
  first : pageWell c.ends = true
  le : (firstCount addr num).toNat ≤ p
  ends : (p - (firstCount addr num).toNat) % i2cEePageSize = 0 →
    c'.ends = afterPage^[(p - (firstCount addr num).toNat) / i2cEePageSize] c.ends.tail
  last : (p - (firstCount addr num).toNat) % i2cEePageSize = 0 ∨
    pageWell (afterPage^[(p - (firstCount addr num).toNat) / i2cEePageSize] c.ends.tail) = true
  made : ∃ ws, Made c c' ws ∧ Reports addr.toNat buf 0 p ws
    (!losesPage ((p - (firstCount addr num).toNat) / i2cEePageSize) c.ends.tail)

/-- The page write that fails is the first or the last. -/
def GivenUp (addr num : Word) (c c' : Chip) : Prop :=
  (∃ ws, Made c c' ws) ∧ ¬(pageWell c.ends = true ∧ (restLength addr num % i2cEePageSize = 0 ∨
    pageWell (afterPage^[restLength addr num / i2cEePageSize] c.ends.tail) = true))

theorem restLength_eq (h : 0 < num.toNat) : restLength addr num = num.toNat - (firstCount addr num).toNat := by
  have hcount := toNat_firstCount addr num
  unfold restLength
  omega

theorem walked_first (h : 0 < num.toNat) : Writes (Walked buf addr num c) (GivenUp addr num c)
    (firstCount addr num).toNat (writeEEROMPage buf 0 addr (firstCount addr num) c) := by
  obtain ⟨⟨hpos, -⟩, hpage, -⟩ := firstCount_fits addr h
  have hmade := made_write buf 0 addr (firstCount addr num) hpage c
  obtain ⟨hok, hends⟩ := writeEEROMPage_ok buf 0 addr (firstCount addr num) c
  unfold Writes
  split
  · rename_i htrue
    rw [htrue] at hmade
    have hreports := reports_tries addr.toNat buf 0 0 true hpos (by rw [Nat.add_zero]; exact hpage) (.inl ⟨rfl, rfl⟩)
    rw [Nat.add_zero, Nat.mod_eq_of_lt addr.isLt, Nat.zero_add] at hreports
    refine ⟨hok.symm.trans htrue, Nat.le_refl _, fun _ => ?_, .inl ?_, _, hmade, ?_⟩
    · rw [Nat.sub_self]
      exact hends
    · rw [Nat.sub_self]
      rfl
    · rw [Nat.sub_self]
      exact hreports
  · rename_i hfalse
    exact ⟨⟨_, hmade⟩, fun hwell => hfalse (hok.trans hwell.1)⟩

/-- Behind the first page whole pages begin. -/
theorem Walked.aligned {p : Nat} {c' : Chip} (h : Walked buf addr num c p c')
    (ha : (addr.toNat + p) % i2cEePageSize = 0) (hp : p < num.toNat) :
    (p - (firstCount addr num).toNat) % i2cEePageSize = 0 := by
  have hle := h.le
  obtain ⟨-, -, hrest⟩ := firstCount_fits addr (Nat.zero_lt_of_lt hp)
  have hfirst := hrest (Nat.lt_of_le_of_lt hle hp)
  unfold i2cEePageSize at *
  omega

theorem walked_tries {p : Nat} {w : Word} {c' : Chip} (h : Walked buf addr num c p c')
    (ha : (addr.toNat + p) % i2cEePageSize = 0) (hw : w.toNat = (addr.toNat + p) % 65536)
    (hp : p + i2cEePageSize ≤ num.toNat) :
    Walked buf addr num c (p + i2cEePageSize) (tryPage buf p w 10 c') := by
  have hsize : 0 < i2cEePageSize := by decide
  have hlt := num.isLt
  have hmod := h.aligned ha (by omega)
  have hends := h.ends hmod
  obtain ⟨ws, hmade, hreports⟩ := h.made
  obtain ⟨⟨n, hmade'⟩, hends'⟩ := made_tryPage buf p w (by rw [hw]; unfold i2cEePageSize at *; omega) 9 c'
  rw [hw] at hmade'
  have hall := reports_append hreports (reports_tries addr.toNat buf p n (decide (failures c'.ends ≤ 9)) hsize (by omega)
    (.inr rfl)) (Nat.zero_le _) (Nat.le_add_right _ _) (by omega)
  have hnext : p + i2cEePageSize - (firstCount addr num).toNat = p - (firstCount addr num).toNat + i2cEePageSize := by
    have := h.le
    omega
  have hwell : (!losesPage ((p - (firstCount addr num).toNat) / i2cEePageSize + 1) c.ends.tail) =
      (!losesPage ((p - (firstCount addr num).toNat) / i2cEePageSize) c.ends.tail && decide (failures c'.ends ≤ 9)) := by
    rw [losesPage_succ, Bool.not_or, ← decide_not, ← hends]
    exact congrArg (_ && ·) (decide_eq_decide.mpr (Nat.not_le.trans Nat.lt_succ_iff))
  refine ⟨h.first, Nat.le_add_right_of_le h.le, fun _ => ?_, .inl ?_, _, made_append hmade hmade', ?_⟩
  · rw [hnext, Nat.add_div_right _ hsize, Function.iterate_succ_apply', ← hends]
    exact hends'
  · rw [hnext, Nat.add_mod_right]
    exact hmod
  · rw [hnext, Nat.add_div_right _ hsize, hwell]
    exact hall

theorem walked_last {p : Nat} {w : Word} {m : Byte} {c' : Chip} (h : Walked buf addr num c p c')
    (ha : (addr.toNat + p) % i2cEePageSize = 0) (hw : w.toNat = (addr.toNat + p) % 65536) (hm : 0 < m.toNat)
    (hlt : m.toNat < i2cEePageSize) (hp : p + m.toNat = num.toNat) :
    Writes (Walked buf addr num c) (GivenUp addr num c) num.toNat (writeEEROMPage buf p w m c') := by
  have hle := h.le
  have hmod := h.aligned ha (by omega)
  have hends := h.ends hmod
  obtain ⟨ws, hmade, hreports⟩ := h.made
  have hmade' := made_write buf p w m (by rw [hw]; unfold i2cEePageSize at *; omega) c'
  have hok := (writeEEROMPage_ok buf p w m c').1
  have hdiv : (num.toNat - (firstCount addr num).toNat) / i2cEePageSize =
      (p - (firstCount addr num).toNat) / i2cEePageSize := by unfold i2cEePageSize at *; omega
  have hrest : (num.toNat - (firstCount addr num).toNat) % i2cEePageSize ≠ 0 := by unfold i2cEePageSize at *; omega
  rw [hw, hok] at hmade'
  unfold Writes
  split
  · rename_i htrue
    have hwell : pageWell c'.ends = true := hok.symm.trans htrue
    have hall := reports_append hreports (reports_tries addr.toNat buf p 0 _ hm (by omega) (.inl ⟨rfl, hwell⟩))
      (Nat.zero_le _) (Nat.le_add_right _ _) (by have := num.isLt; omega)
    rw [hp, hwell, Bool.and_true] at hall
    rw [hwell] at hmade'
    refine ⟨h.first, by omega, fun hzero => absurd hzero hrest, .inr ?_, _, made_append hmade hmade', ?_⟩
    · rw [hdiv, ← hends]
      exact hwell
    · rw [hdiv]
      exact hall
  · rename_i hfalse
    refine ⟨⟨_, made_append hmade hmade'⟩, fun hwell => hfalse ?_⟩
    rw [restLength_eq (by omega), hdiv, ← hends] at hwell
    exact hok.trans (hwell.2.resolve_left hrest)

/-- How the page writes end says what is returned, and whether a whole page is lost. -/
theorem walked_bufWrite (buf : Nat → Byte) (addr : Word) (c : Chip) (h : 0 < num.toNat) :
    Ended (Walked buf addr num c) (GivenUp addr num c) num.toNat (i2cEeBufWriteBsp buf addr num c) :=
  walk_chip h (walked_first h) walked_tries walked_last

end call

/-- For every buffer, address and length, every pattern of page writes that fail and whether or not the mutex was
taken in time: a call that returns `EEPROM_NOERRO` is sure to leave the buffer in its range, unless a whole page fails
ten times while the mutex was taken and the first and the last page are written. Their failure is returned; the whole
page is passed over. -/
theorem bufWrite_reports_iff (taken : Bool) (buf : Nat → Byte) (addr num : Word) (c : Chip) :
    FailuresReported buf addr num c (c.i2cEeBufWrite taken buf addr num) ↔ ¬LostUnreported taken addr num c.ends := by
  unfold FailuresReported Chip.i2cEeBufWrite LostUnreported
  cases taken with
  | false =>
    have hcode : eepromMuxErro ≠ eepromNoErro := by decide
    exact ⟨fun _ h => absurd h.1 Bool.false_ne_true, fun _ _ _ h => absurd h hcode⟩
  | true =>
    rw [if_pos rfl]
    rcases Nat.eq_zero_or_pos num.toNat with hzero | hpos
    · -- without a byte there is no whole page
      refine ⟨fun _ hlost => ?_, fun _ _ _ _ k hk => by omega⟩
      rw [restLength, hzero, Nat.zero_sub, Nat.zero_div] at hlost
      exact absurd hlost.2.2.1 Bool.false_ne_true
    rcases walked_bufWrite buf addr c hpos with ⟨hcode, hwalked⟩ | ⟨hcode, -, hgiven⟩
    · obtain ⟨ws, hmade, hreports⟩ := hwalked.made
      have hlast := hwalked.last
      rw [← restLength_eq hpos] at hreports hlast
      rw [madeBy_of_made hmade]
      constructor
      · rintro h ⟨-, -, hlost, -⟩
        obtain ⟨g, hleaves, j, -, hj, hwrong⟩ := hreports.lost (by rw [hlost]; rfl) c.mem
        exact hwrong (h g hleaves hcode j hj)
      · intro h g hleaves _ k hk
        have hwell : losesPage (restLength addr num / i2cEePageSize) c.ends.tail = false :=
          Bool.eq_false_iff.mpr fun hlost => h ⟨rfl, hwalked.first, hlost, hlast⟩
        exact hreports.held (by rw [hwell]; rfl) c.mem g hleaves k (Nat.zero_le _) hk
    · have hne : eepromBussErro ≠ eepromNoErro := by decide
      exact ⟨fun _ hlost => hgiven ⟨hlost.2.1, hlost.2.2.2⟩, fun _ _ _ h => absurd (hcode.symm.trans h) hne⟩

/-- The second page is lost if its ten tries fail, and written if nine of them do. -/
example : LostUnreported true 0x0200 128 (.done :: List.replicate 10 (.failed 0)) ∧
    ¬LostUnreported true 0x0200 128 (.done :: List.replicate 9 (.failed 0)) := by decide

/-- A page and another that fails ten times: the call returns `EEPROM_NOERRO`, and nothing of the second page is
written. -/
theorem bufWrite_passes_over : let c : Chip := ⟨fun _ => 0xFF, .done :: List.replicate 10 (.failed 0), []⟩
    let r := c.i2cEeBufWrite true (fun k => BitVec.ofNat 8 k) 0x0200 128
    r.1 = eepromNoErro ∧ r.2.mem 0x0240 = 0xFF ∧ ¬FailuresReported (fun k => BitVec.ofNat 8 k) 0x0200 128 c r := by
  refine ⟨by decide, by decide +kernel, fun h => ?_⟩
  obtain ⟨-, hwalked⟩ | ⟨hcode, -⟩ := walked_bufWrite (fun k => BitVec.ofNat 8 k) 0x0200
    ⟨fun _ => 0xFF, .done :: List.replicate 10 (.failed 0), []⟩ (show 0 < (128 : Word).toNat by decide)
  · obtain ⟨ws, hmade, -⟩ := hwalked.made
    have hleaves := hmade.leaves
    rw [← madeBy_of_made hmade] at hleaves
    exact absurd (h _ hleaves (by decide) 64 (by decide)) (by decide +kernel)
  · exact absurd hcode (by decide)

end WM.Proof
