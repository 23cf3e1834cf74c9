import WaterMaker.Framework.Answers
import WaterMaker.Proof.Store.Lines
import WaterMaker.Proof.Store.Pages

/-!
# The part behind the driver

On the lines, with an AT24C256 on them, the driver does what it does on pages (`lines_refine_pages`), whichever bytes
the part leaves without an acknowledgement: `pageTo_ends` says how a page write ends. If it only does so while it
stores a page, and that takes no longer than the driver waits, the calls cannot be told from those on an array of bytes
(`lines_are_an_array`).
-/

namespace WM.Proof

open WM WM.Impl WM.Spec TwoWire

section part

variable {t : Nat} {s s' : At24} {b : Byte} {bs : List Byte}

/-! ## Bytes -/

theorem putBytes_reply (h : At24.take b s = s.reply s') :
    putBytes (at24 t).slave (b :: bs) s =
      if s.acks.headD true then putBytes (at24 t).slave bs { s' with acks := s.acks.tail }
      else (false, At24.stop t { s with acks := s.acks.tail }) := by
  rw [putBytes]
  show (if (At24.take b s).1 = true then putBytes (at24 t).slave bs (At24.take b s).2
    else (false, At24.stop t (At24.take b s).2)) = _
  rw [h, At24.reply]
  by_cases hack : s.acks.headD true = true
  · rw [if_pos hack, if_pos hack]
    rfl
  · rw [if_neg hack, if_neg hack]
    rfl

theorem stop_of_ne (h : s.stage ≠ .data) : At24.stop t s = { s with stage := .rest } := if_neg fun hs => h hs.1

/-- The bytes of a page, up to the first one that is not acknowledged. -/
theorem putBytes_data (hs : s.stage = .data) (bs : List Byte) :
    (∃ acks, putBytes (at24 t).slave bs s = (true, { s with page := s.page ++ bs, acks := acks })) ∨
    ∃ k acks, putBytes (at24 t).slave bs s =
      (false, At24.stop t { s with page := s.page ++ bs.take k, acks := acks }) := by
  induction bs generalizing s with
  | nil =>
    refine .inl ⟨s.acks, ?_⟩
    rw [List.append_nil]
    rfl
  | cons b bs ih =>
    have htake : At24.take b s = s.reply { s with page := s.page ++ [b] } := by rw [At24.take, hs]
    rw [putBytes_reply htake]
    by_cases hack : s.acks.headD true = true
    · rw [if_pos hack]
      obtain ⟨acks, hrun⟩ | ⟨k, acks, hrun⟩ := ih (s := { s with page := s.page ++ [b], acks := s.acks.tail }) hs
      · exact .inl ⟨acks, by rw [hrun, List.append_assoc]; rfl⟩
      · exact .inr ⟨k + 1, acks, by rw [hrun, List.append_assoc]; rfl⟩
    · rw [if_neg hack]
      exact .inr ⟨0, s.acks.tail, by rw [List.take_zero, List.append_nil]⟩

/-- A part that stores a page does not answer. -/
theorem putBytes_busy (hs : s.stage = .select) (hbusy : s.busy ≠ 0) :
    putBytes (at24 t).slave (b :: bs) s = (false, { s with stage := .rest }) := by
  have htake : At24.take b s = (false, { s with stage := .rest }) := by simp only [At24.take, hs, if_pos hbusy]
  rw [putBytes]
  show (if (At24.take b s).1 = true then _ else (false, At24.stop t (At24.take b s).2)) = _
  rw [htake]
  exact congrArg (Prod.mk false) (stop_of_ne At24Stage.noConfusion)

/-- A byte before the bytes of a page: it is acknowledged, or nothing is stored. -/
theorem putBytes_before (h : At24.take b s = s.reply s') (hs : s.stage ≠ .data) (bs : List Byte) :
    putBytes (at24 t).slave (b :: bs) s = putBytes (at24 t).slave bs { s' with acks := s.acks.tail } ∨
    ∃ s', putBytes (at24 t).slave (b :: bs) s = (false, s') ∧ s'.mem = s.mem ∧ s'.stage = .rest := by
  rw [putBytes_reply h]
  by_cases hack : s.acks.headD true = true
  · exact .inl (if_pos hack)
  · have hstop : At24.stop t { s with acks := s.acks.tail } = { s with acks := s.acks.tail, stage := .rest } :=
      stop_of_ne hs
    rw [if_neg hack, hstop]
    exact .inr ⟨_, rfl, rfl, rfl⟩

theorem take_select (hs : s.stage = .select) (hbusy : s.busy = 0) :
    At24.take 0xae s = s.reply { s with stage := .high } := by
  simp only [At24.take, hs, hbusy, ne_eq, not_true_eq_false, if_false, if_true]

theorem take_low {addr : Word} (hs : s.stage = .low (hiByte addr)) :
    At24.take (loByte addr) s = s.reply { s with stage := .data, addr := addr.toNat, page := [] } := by
  simp only [At24.take, hs, word_bytes]

/-- The part after the header: it waits for the bytes at the address, or it has not acknowledged. -/
theorem putBytes_header (hs : s.stage = .select) (addr : Word) (bs : List Byte) :
    (∃ acks, putBytes (at24 t).slave (header addr ++ bs) s =
      putBytes (at24 t).slave bs { s with stage := .data, addr := addr.toNat, page := [], acks := acks }) ∨
    ∃ s', putBytes (at24 t).slave (header addr ++ bs) s = (false, s') ∧ s'.mem = s.mem ∧ s'.stage = .rest := by
  have hheader : header addr ++ bs = 0xae :: hiByte addr :: loByte addr :: bs := rfl
  rw [hheader]
  by_cases hbusy : s.busy = 0
  · obtain h | h := putBytes_before (t := t) (take_select hs hbusy) (by rw [hs]; exact At24Stage.noConfusion)
      (hiByte addr :: loByte addr :: bs)
    · rw [h]
      obtain h | h := putBytes_before (t := t) (s := { s with stage := .high, acks := s.acks.tail })
        (b := hiByte addr) rfl At24Stage.noConfusion (loByte addr :: bs)
      · rw [h]
        obtain h | h := putBytes_before (t := t) (s := { s with stage := .low (hiByte addr), acks := s.acks.tail.tail })
          (take_low rfl) At24Stage.noConfusion bs
        · exact .inl ⟨_, h⟩
        · exact .inr h
      · exact .inr h
    · exact .inr h
  · rw [putBytes_busy hs hbusy]
    exact .inr ⟨_, rfl, rfl, rfl⟩

/-! ## Pages -/

theorem stop_data (hs : s.stage = .data) (hwp : s.wp = false) :
    (At24.stop t s).mem = burst i2cEePageSize s.mem s.addr s.page ∧ (At24.stop t s).stage = .rest := by
  rw [At24.stop]
  by_cases hpage : s.page = []
  · rw [if_neg fun h => h.2.1 hpage, hpage]
    exact ⟨rfl, rfl⟩
  · rw [if_pos ⟨hs, hpage, hwp⟩]
    exact ⟨rfl, rfl⟩

/-- A page write ends with all bytes stored, or with those that have been acknowledged. -/
theorem pageTo_ends (addr : Word) (data : List Byte) (s : At24) :
    (∃ s', pageTo (at24 t) addr data s = (true, s') ∧ s'.mem = burst i2cEePageSize s.mem addr.toNat data) ∨
    ∃ k s', pageTo (at24 t) addr data s = (false, s') ∧
      s'.mem = burst i2cEePageSize s.mem addr.toNat (data.take k) := by
  rw [pageTo]
  show (∃ s', ((putBytes (at24 t).slave (header addr ++ data) _).1, { At24.stop t
      (putBytes (at24 t).slave (header addr ++ data) _).2 with wp := true }) = _ ∧ _) ∨
    ∃ k s', ((putBytes (at24 t).slave (header addr ++ data) _).1, { At24.stop t
      (putBytes (at24 t).slave (header addr ++ data) _).2 with wp := true }) = _ ∧ _
  obtain ⟨acks, hrun⟩ | ⟨s', hrun, hmem, hrest⟩ := putBytes_header (t := t)
    (s := (at24 t).slave.start ((at24 t).protect false s)) rfl addr data
  · rw [hrun]
    obtain ⟨acks', hdata⟩ | ⟨k, acks', hdata⟩ := putBytes_data (t := t) (s := { (at24 t).slave.start
      ((at24 t).protect false s) with stage := .data, addr := addr.toNat, page := [], acks := acks }) rfl data
    · rw [hdata]
      exact .inl ⟨_, rfl, (stop_data rfl rfl).1⟩
    · rw [hdata]
      refine .inr ⟨k, _, rfl, ?_⟩
      have hstop := stop_data (t := t) (s := { (at24 t).slave.start ((at24 t).protect false s) with
        stage := .data, addr := addr.toNat, page := [] ++ data.take k, acks := acks' }) rfl rfl
      show (At24.stop t (At24.stop t _)).mem = _
      rw [stop_of_ne (by rw [hstop.2]; exact At24Stage.noConfusion)]
      exact hstop.1
  · rw [hrun]
    refine .inr ⟨0, _, rfl, ?_⟩
    show (At24.stop t s').mem = _
    rw [stop_of_ne (by rw [hrest]; exact At24Stage.noConfusion)]
    exact hmem

/-! ## The driver on pages -/

/-- The pages that the chip has, and how the next page writes end. -/
def Foretells (s : At24) (ends : List PageEnd) (c : Chip) : Prop := c.mem = s.mem ∧ c.ends = ends

theorem writeEEROMPage_foretold (buf : Nat → Byte) (pos : Nat) (addr : Word) (num : Byte) :
    (Lifts.foretold Foretells).rel ((bytePager (at24 t)).writeEEROMPage buf pos addr num)
      (chipPager.writeEEROMPage buf pos addr num) := by
  intro s
  show ∃ es, ∀ rest c, Foretells s (es ++ rest) c →
    (writeEEROMPage buf pos addr num c).1 = (pageTo (at24 t) addr (slice buf pos num.toNat) s).1 ∧
    Foretells (pageTo (at24 t) addr (slice buf pos num.toNat) s).2 rest (writeEEROMPage buf pos addr num c).2
  obtain ⟨s', hpage, hmem⟩ | ⟨k, s', hpage, hmem⟩ :=
    pageTo_ends (t := t) addr (slice buf pos num.toNat) s
  · refine ⟨[.done], fun rest c hc => ?_⟩
    rw [hpage, writeEEROMPage, hc.2]
    refine ⟨rfl, ?_, rfl⟩
    rw [hmem, ← hc.1]
    rfl
  · refine ⟨[.failed k], fun rest c hc => ?_⟩
    rw [hpage, writeEEROMPage, hc.2]
    refine ⟨rfl, ?_, rfl⟩
    rw [hmem, ← hc.1]
    rfl

theorem putBytes_acked (h : At24.take b s = s.reply s') (hacks : s.acks = []) (hacks' : s'.acks = [])
    (bs : List Byte) : putBytes (at24 t).slave (b :: bs) s = putBytes (at24 t).slave bs s' := by
  rw [putBytes_reply h, hacks]
  obtain ⟨mem, busy, wp, stage, addr, page, acks⟩ := s'
  obtain rfl : acks = [] := hacks'
  rfl

theorem putBytes_data_all (hs : s.stage = .data) (hacks : s.acks = []) (bs : List Byte) :
    putBytes (at24 t).slave bs s = (true, { s with page := s.page ++ bs }) := by
  induction bs generalizing s with
  | nil =>
    rw [List.append_nil]
    rfl
  | cons b bs ih =>
    have htake : At24.take b s = s.reply { s with page := s.page ++ [b] } := by rw [At24.take, hs]
    rw [putBytes_acked htake hacks hacks, ih (s := { s with page := s.page ++ [b] }) hs hacks, List.append_assoc]
    rfl

theorem putBytes_header_all (hs : s.stage = .select) (hbusy : s.busy = 0) (hacks : s.acks = []) (addr : Word)
    (bs : List Byte) :
    putBytes (at24 t).slave (header addr ++ bs) s =
      putBytes (at24 t).slave bs { s with stage := .data, addr := addr.toNat, page := [] } := by
  have hhigh : At24.take (hiByte addr) { s with stage := .high } =
      At24.reply { s with stage := .high } { s with stage := .low (hiByte addr) } := rfl
  show putBytes (at24 t).slave (0xae :: hiByte addr :: loByte addr :: bs) s = _
  rw [putBytes_acked (take_select hs hbusy) hacks hacks, putBytes_acked hhigh hacks hacks,
    putBytes_acked (s := { s with stage := .low (hiByte addr) }) (take_low rfl) hacks hacks]

variable {mem : Nat → Byte} {busy : Nat}

/-- A page is stored, which takes `t` ticks. -/
theorem pageTo_rests (h : s.Rests mem 0) (addr : Word) {data : List Byte} (hdata : data ≠ []) :
    (pageTo (at24 t) addr data s).1 = true ∧
      (pageTo (at24 t) addr data s).2.Rests (burst i2cEePageSize mem addr.toNat data) t := by
  have hput := putBytes_header_all (t := t) (s := (at24 t).slave.start ((at24 t).protect false s)) rfl h.busy
    h.acks addr data
  have hpage := putBytes_data_all (t := t) (s := { (at24 t).slave.start ((at24 t).protect false s) with
    stage := .data, addr := addr.toNat, page := [] }) rfl h.acks data
  rw [pageTo, hput, hpage]
  refine ⟨rfl, ?_⟩
  show At24.Rests _ _ { At24.stop t _ with wp := true }
  rw [At24.stop, if_pos ⟨rfl, hdata, rfl⟩]
  exact ⟨by rw [← h.mem]; rfl, rfl, rfl, h.acks⟩

/-- While a page is stored there is no answer. -/
theorem pageTo_busy (h : s.Rests mem busy) (hbusy : busy ≠ 0) (addr : Word) (data : List Byte) :
    (pageTo (at24 t) addr data s).1 = false ∧ (pageTo (at24 t) addr data s).2.Rests mem busy := by
  have hput : putBytes (at24 t).slave (header addr ++ data)
      ((at24 t).slave.start ((at24 t).protect false s)) = _ :=
    putBytes_busy (t := t) rfl (by rw [← h.busy] at hbusy; exact hbusy)
  rw [pageTo, hput]
  refine ⟨rfl, ?_⟩
  show At24.Rests _ _ { At24.stop t _ with wp := true }
  rw [stop_of_ne At24Stage.noConfusion]
  exact ⟨h.mem, h.busy, rfl, h.acks⟩

theorem pass_rests (h : s.Rests mem busy) (n : Nat) : ((at24 t).pass n s).Rests mem (busy - n) :=
  ⟨h.mem, by show s.busy - n = _; rw [h.busy], h.wp, h.acks⟩

/-- A whole page, tried for longer than the part is busy. -/
theorem tryPage_rests (buf : Nat → Byte) (pos : Nat) {addr : Word} (haddr : addr.toNat % i2cEePageSize = 0) {cnt : Nat}
    (h : s.Rests mem busy) (hcnt : busy < cnt) :
    ((bytePager (at24 t)).tryPage buf pos addr cnt s).2.Rests
      (blit mem addr.toNat (slice buf pos i2cEePageSize)) t := by
  induction cnt generalizing s busy with
  | zero => omega
  | succ cnt ih =>
    show ((if (pageTo (at24 t) addr (slice buf pos i2cEePageSize) s).1 = true then (pure () : StateM At24 Unit)
      else fun s => (bytePager (at24 t)).tryPage buf pos addr cnt ((at24 t).pass 1 s))
        (pageTo (at24 t) addr (slice buf pos i2cEePageSize) s).2).2.Rests _ _
    by_cases hbusy : busy = 0
    · subst hbusy
      have hne : slice buf pos i2cEePageSize ≠ [] := by
        intro hnil
        have hlen := length_slice buf pos i2cEePageSize
        rw [hnil] at hlen
        exact absurd hlen (by decide)
      obtain ⟨hok, hrests⟩ := pageTo_rests (t := t) h addr hne
      rw [if_pos hok]
      rw [burst_eq_blit _ (by rw [length_slice, haddr]; decide)] at hrests
      exact hrests
    · obtain ⟨hfail, hrests⟩ := pageTo_busy (t := t) h hbusy addr (slice buf pos i2cEePageSize)
      rw [hfail, if_neg Bool.false_ne_true]
      exact ih (pass_rests hrests 1) (by omega)

/-- A page of a buffer that does not reach into the next one. -/
theorem page_rests (buf : Nat → Byte) (pos : Nat) {addr : Word} {num : Byte} (hnum : 0 < num.toNat)
    (hpage : addr.toNat % i2cEePageSize + num.toNat ≤ i2cEePageSize) (h : s.Rests mem 0) :
    ((bytePager (at24 t)).writeEEROMPage buf pos addr num s).1 = true ∧
      ((bytePager (at24 t)).writeEEROMPage buf pos addr num s).2.Rests
        (blit mem addr.toNat (slice buf pos num.toNat)) t := by
  have hne : slice buf pos num.toNat ≠ [] := by
    rw [← List.length_pos_iff, length_slice]
    exact hnum
  have hpageTo := pageTo_rests (t := t) h addr hne
  rw [burst_eq_blit _ (by rw [length_slice]; exact hpage)] at hpageTo
  exact hpageTo

theorem delay_rests (ht : t ≤ 5) (h : s.Rests mem t) :
    ((bytePager (at24 t)).rtThreadDelay Pager.i2cPageWriteDelay s).2.Rests mem 0 := by
  have hpass := pass_rests (t := t) h Pager.i2cPageWriteDelay
  rwa [Nat.sub_eq_zero_of_le (show t ≤ Pager.i2cPageWriteDelay from ht)] at hpass

/-- A buffer is written, and the part answers again. A page is begun while the part stores the one before; the rest
waits until it is stored. -/
theorem bufWrite_rests (ht : t ≤ 5) (buf : Nat → Byte) {addr num : Word} (hnum : 1 ≤ num.toNat)
    (hroom : addr.toNat + num.toNat ≤ 65536) (h : s.Rests mem 0) :
    ((bytePager (at24 t)).i2cEeBufWriteBsp buf addr num s).1 = eepromNoErro ∧
      ((bytePager (at24 t)).i2cEeBufWriteBsp buf addr num s).2.Rests
        (blit mem addr.toNat (slice buf 0 num.toNat)) 0 := by
  have hnext : ∀ p m, blit (blit mem addr.toNat (slice buf 0 p)) (addr.toNat + p) (slice buf p m) =
      blit mem addr.toNat (slice buf 0 (p + m)) := fun p m => by
    rw [slice_add, blit_append, length_slice, Nat.zero_add]
  have hwalk : Walk (bytePager (at24 t)) buf addr num
      (fun p s => s.Rests (blit mem addr.toNat (slice buf 0 p)) t)
      (fun p s => s.Rests (blit mem addr.toNat (slice buf 0 p)) 0) fun _ => False := by
    refine ⟨fun {p w s} hs ha hw hp => ?_, delay_rests ht, fun {p w m s} hs ha hw hm hlt hp => ?_⟩
    · rw [Nat.mod_eq_of_lt (by unfold i2cEePageSize at hp; omega)] at hw
      have htry := tryPage_rests (t := t) buf p (by rw [hw]; exact ha) hs (show t < 10 by omega)
      rw [hw, hnext] at htry
      exact htry
    · rw [Nat.mod_eq_of_lt (by omega)] at hw
      obtain ⟨hok, hlast⟩ := page_rests (t := t) buf p hm (by rw [hw, ha]; omega) hs
      rw [hw, hnext, hp] at hlast
      rw [Writes, if_pos hok]
      exact hlast
  obtain ⟨⟨hpos, -⟩, hpage, -⟩ := firstCount_fits addr hnum
  obtain ⟨hok, hfirst⟩ := page_rests (t := t) buf 0 hpos hpage h
  rcases hwalk.bufWrite hnum (by rw [Writes, if_pos hok]; exact hfirst) with hend | ⟨-, hfalse⟩
  · exact hend
  · exact hfalse.elim

/-! ## Reading -/

theorem slice_succ (f : Nat → Byte) (a n : Nat) : slice f a (n + 1) = f a :: slice f (a + 1) n := by
  rw [Nat.add_comm n 1, slice_add]
  rfl

theorem getBytes_slice (n : Nat) (hroom : s.addr + n < 65536) :
    ∃ a, getBytes (at24 t).slave n (s.mem s.addr) s = (slice s.mem s.addr (n + 1), { s with addr := a }) := by
  induction n generalizing s with
  | zero => exact ⟨_, rfl⟩
  | succ n ih =>
    have hnext : (s.addr + 1) % 65536 = s.addr + 1 := Nat.mod_eq_of_lt (by omega)
    obtain ⟨a, hrest⟩ := ih (s := { s with addr := (s.addr + 1) % 65536 })
      (by show (s.addr + 1) % 65536 + n < 65536; omega)
    refine ⟨a, ?_⟩
    rw [slice_succ]
    simp only [hnext] at hrest
    show (s.mem s.addr :: (getBytes (at24 t).slave n (s.mem ((s.addr + 1) % 65536))
      { s with addr := (s.addr + 1) % 65536 }).1, (getBytes (at24 t).slave n (s.mem ((s.addr + 1) % 65536))
      { s with addr := (s.addr + 1) % 65536 }).2) = _
    rw [hnext, hrest]

/-- The byte that asks for bytes is acknowledged, and they come from the address that the part has. -/
theorem readOn_slice (hbusy : s.busy = 0) (hacks : s.acks = []) (n : Nat) (hroom : s.addr + n < 65536) :
    ∃ a, readOn (at24 t) n s = ((eepromNoErro, slice s.mem s.addr (n + 1)),
      At24.stop t { s with wp := true, stage := .sends, addr := a, page := [] }) := by
  have hasked : At24.take 0xaf { s with stage := .select, page := [] } =
      At24.reply { s with stage := .select, page := [] } { s with stage := .sends, page := [] } := by
    simp only [At24.take, hbusy, ne_eq, not_true_eq_false, if_false]
    rfl
  have hput : putBytes (at24 t).slave [0xaf] ((at24 t).slave.start s) =
      (true, { s with stage := .sends, page := [] }) := putBytes_acked (t := t) hasked hacks hacks []
  obtain ⟨a, hbytes⟩ := getBytes_slice (t := t) (s := { s with wp := true, stage := .sends, page := [] }) n hroom
  refine ⟨a, ?_⟩
  simp only [readOn, hput]
  exact congrArg (fun r : List Byte × At24 => ((eepromNoErro, r.1), At24.stop t r.2)) hbytes

theorem readFrom_rests (h : s.Rests mem 0) (addr : Word) {n : Nat} (hroom : addr.toNat + n < 65536) :
    (readFrom (at24 t) addr n s).1 = (eepromNoErro, slice mem addr.toNat (n + 1)) ∧
      (readFrom (at24 t) addr n s).2.Rests mem 0 := by
  have hheader : putBytes (at24 t).slave (header addr) ((at24 t).slave.start ((at24 t).protect false s)) =
      (true, { s with wp := false, stage := .data, addr := addr.toNat, page := [] }) := by
    have hput := putBytes_header_all (t := t) (s := (at24 t).slave.start ((at24 t).protect false s)) rfl h.busy
      h.acks addr []
    rw [List.append_nil] at hput
    exact hput
  obtain ⟨a, hread⟩ := readOn_slice (t := t)
    (s := { s with wp := false, stage := .data, addr := addr.toNat, page := [] }) h.busy h.acks n hroom
  simp only [readFrom, hheader, hread, stop_of_ne (s := { s with wp := true, stage := .sends, addr := a, page := [] })
    At24Stage.noConfusion]
  exact ⟨by rw [h.mem], h.mem, h.busy, rfl, h.acks⟩

/-! ## The driver as an array -/

/-- A call on the lines is one on the array. -/
theorem linesStep_rests (ht : t ≤ 5) (h : s.Rests mem 0) {e : EeCall} (hfits : e.Fits) :
    (linesStep (at24 t) (freeBus _ s) e).1 = (arrayStep mem e).1 ∧
      ∃ s', (linesStep (at24 t) (freeBus _ s) e).2 = freeBus _ s' ∧ s'.Rests (arrayStep mem e).2 0 := by
  cases e with
  | write buf addr num =>
    obtain ⟨hcode, hrests⟩ := bufWrite_rests ht buf hfits.1 hfits.2 h
    have hrun := bufWrite_free (E := at24 t) buf addr num s
    rw [linesStep, hrun, hcode]
    exact ⟨rfl, _, rfl, hrests⟩
  | read addr num =>
    obtain ⟨hnum, hroom⟩ := hfits
    obtain ⟨hread, hrests⟩ := readFrom_rests (t := t) h addr (n := num.toNat - 1) (by omega)
    rw [linesStep, i2cEeBufReadBsp_free, hread, Nat.sub_add_cancel hnum]
    exact ⟨rfl, _, rfl, hrests⟩

end part

end WM.Proof
