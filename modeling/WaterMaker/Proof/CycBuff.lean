import Mathlib.Data.List.Induction
import WaterMaker.Proof.Store.Pages
import WaterMaker.Spec.CycBuff

/-!
# The log in the EEPROM

`cyc_buff.c` on a chip that does not fail. The blocks lie on a wheel of `N` places behind the pointers (`Logged`);
adding one turns the wheel on by a place (`logged_add`), a query walks back over it (`quiryLoop_blocks`), and the log
that `Spec.LogLike` describes follows (`logLike_of_logged`). The count is raised before it is compared with the depth,
so a log of 65535 blocks, which fits on the chip only if they have no bytes, forgets that it is full (`count_wraps`).
-/

namespace WM.Proof

open WM WM.Impl WM.Spec

/-! ## A chip that does not fail -/

section quiet

variable {c c' c'' : Chip}

/-- On the way from `c` to `c'` no page write failed, nor will one. -/
def Unfailing (c c' : Chip) : Prop := c'.ends = [] ∧ ∃ ws, c'.issued = c.issued ++ ws ∧ AllOk ws

theorem unfailing_refl (h : c.ends = []) : Unfailing c c := ⟨h, [], (List.append_nil _).symm, nofun⟩

theorem Unfailing.trans (h : Unfailing c c') (h' : Unfailing c' c'') : Unfailing c c'' := by
  obtain ⟨-, ws, hws, hok⟩ := h
  obtain ⟨hends, us, hus, hok'⟩ := h'
  exact ⟨hends, ws ++ us, by rw [hus, hws, List.append_assoc], List.forall_mem_append.mpr ⟨hok, hok'⟩⟩

theorem unfailing_writeEEROMPage (buf : Nat → Byte) (pos : Nat) (addr : Word) (num : Byte) (h : c.ends = []) :
    (writeEEROMPage buf pos addr num c).1 = true ∧ Unfailing c (writeEEROMPage buf pos addr num c).2 := by
  unfold writeEEROMPage
  rw [h]
  exact ⟨rfl, rfl, _, rfl, List.forall_mem_singleton.mpr rfl⟩

theorem unfailing_tryPage (buf : Nat → Byte) (pos : Nat) (addr : Word) (cnt : Nat) (h : c.ends = []) :
    Unfailing c (tryPage buf pos addr cnt c) := by
  cases cnt with
  | zero => exact unfailing_refl h
  | succ cnt =>
    obtain ⟨hok, hnext⟩ := unfailing_writeEEROMPage buf pos addr (BitVec.ofNat 8 i2cEePageSize) h
    unfold tryPage
    split
    · rename_i heq
      rwa [heq] at hnext
    · rename_i heq
      rw [heq] at hok
      exact nomatch hok

theorem unfailing_bufWrite (buf : Nat → Byte) (addr : Word) {num : Word} (hnum : 0 < num.toNat) (h : c.ends = []) :
    Unfailing c (i2cEeBufWriteBsp buf addr num c).2 := by
  have hpage : ∀ {p q w m c'}, Unfailing c c' →
      Writes (fun _ => Unfailing c) (fun _ => False) q (writeEEROMPage buf p w m c') := fun {p q w m c'} hc => by
    obtain ⟨hok, hnext⟩ := unfailing_writeEEROMPage buf p w m hc.1
    rw [Writes, if_pos hok]
    exact hc.trans hnext
  rcases walk_chip hnum (hpage (unfailing_refl h)) (fun hc _ _ _ => hc.trans (unfailing_tryPage buf _ _ 10 hc.1))
    (fun hc _ _ _ _ _ => hpage hc) with ⟨-, hc⟩ | ⟨-, hfalse⟩
  · exact hc
  · exact hfalse.elim

theorem writesWithin_trans {a n : Nat} (h : WritesWithin a n c c') (h' : WritesWithin a n c' c'') :
    WritesWithin a n c c'' := by
  obtain ⟨ws, hws, hin⟩ := h
  obtain ⟨us, hus, hin'⟩ := h'
  exact ⟨ws ++ us, by rw [hus, hws, List.append_assoc], List.forall_mem_append.mpr ⟨hin, hin'⟩⟩

theorem writesWithin_mono {a n a' n' : Nat} (h : WritesWithin a n c c') (hle : a' ≤ a) (hend : a + n ≤ a' + n') :
    WritesWithin a' n' c c' := by
  obtain ⟨ws, hws, hin⟩ := h
  refine ⟨ws, hws, fun w hw k hk => ?_⟩
  have := hin w hw k hk
  omega

theorem bufWrite_zero (buf : Nat → Byte) (addr : Word) (h : c.ends = []) :
    (i2cEeBufWriteBsp buf addr 0 c).2.ends = [] ∧ (i2cEeBufWriteBsp buf addr 0 c).2.mem = c.mem ∧
      ∀ a, WritesWithin a 0 c (i2cEeBufWriteBsp buf addr 0 c).2 := by
  have hcount : firstCount addr 0 = 0 := by
    refine BitVec.eq_of_toNat_eq ?_
    rw [toNat_firstCount]
    exact Nat.zero_min _
  have hpage : writeEEROMPage buf 0 addr 0 c =
      (true, ⟨c.mem, [], c.issued ++ [⟨⟨addr.toNat, []⟩, true⟩]⟩) := by
    unfold writeEEROMPage
    rw [h]
    rfl
  have hskip : (Cursor.skip (0 : Byte).toNat ⟨0, addr, 0⟩).num = 0 := by
    show (0 : Word) - BitVec.ofNat 16 (0 : Byte).toNat = 0
    decide
  unfold i2cEeBufWriteBsp
  rw [hcount]
  dsimp only
  rw [hpage]
  dsimp only
  rw [if_pos hskip]
  exact ⟨rfl, rfl, fun a => ⟨[⟨⟨addr.toNat, []⟩, true⟩], rfl, List.forall_mem_singleton.mpr nofun⟩⟩

/-- A buffer is written where it is to be, and nowhere else. -/
theorem bufWrite_quiet (buf : Nat → Byte) (addr num : Word) (h : c.ends = [])
    (hroom : num.toNat = 0 ∨ addr.toNat + num.toNat ≤ 65536) :
    (i2cEeBufWriteBsp buf addr num c).2.ends = [] ∧
      (i2cEeBufWriteBsp buf addr num c).2.mem = blit c.mem addr.toNat (slice buf 0 num.toNat) ∧
      WritesWithin addr.toNat num.toNat c (i2cEeBufWriteBsp buf addr num c).2 := by
  by_cases hzero : num.toNat = 0
  · obtain rfl : num = 0 := BitVec.eq_of_toNat_eq hzero
    obtain ⟨hends, hmem, hwithin⟩ := bufWrite_zero buf addr h
    exact ⟨hends, hmem.trans (blit_nil ..).symm, hwithin _⟩
  · obtain ⟨hends, us, hus, hok⟩ := unfailing_bufWrite buf addr (Nat.pos_of_ne_zero hzero) h
    obtain ⟨ws, hws, -⟩ := paged_bufWrite buf addr num (by omega) (by omega) c
    have hsame : us = ws := List.append_cancel_left (hus.symm.trans hws.issued)
    rw [hsame] at hok
    refine ⟨hends, hws.mem hok, ws, hws.issued, fun w hw k hk => ?_⟩
    have hin := (hws.covers hok).within w.burst (List.mem_map_of_mem hw)
    rw [length_slice] at hin
    omega

end quiet

/-! ## Pointers -/

section pointers

variable {b : CycBuff} {N : Word}

theorem toNat_succ {v : Word} (h : v.toNat < 65535) : (v + 1).toNat = v.toNat + 1 := by
  have hadd : (v + 1).toNat = (v.toNat + 1) % 65536 := BitVec.toNat_add ..
  rw [hadd, Nat.mod_eq_of_lt (by omega)]

theorem toNat_depth (hN : 1 ≤ N.toNat) (hdepth : b.depth = N - 1) : b.depth.toNat = N.toNat - 1 := by
  rw [hdepth, BitVec.toNat_sub_of_le (by rw [BitVec.le_def]; exact hN)]
  rfl

/-- A pointer moves on to the next place. -/
theorem toNat_next (hN : 1 ≤ N.toNat) (hdepth : b.depth = N - 1) {pt : Word} (hpt : pt.toNat < N.toNat) :
    (b.next pt).toNat = (pt.toNat + 1) % N.toNat := by
  have hd := toNat_depth hN hdepth
  have hlt := N.isLt
  have hsucc := toNat_succ (show pt.toNat < 65535 by omega)
  rw [succ_mod hpt]
  unfold CycBuff.next
  by_cases hlast : pt.toNat + 1 = N.toNat
  · have hgt : b.depth < pt + 1 := show b.depth.toNat < (pt + 1).toNat by omega
    rw [if_pos hlast, if_pos hgt]
    rfl
  · have hgt : ¬b.depth < pt + 1 := show ¬b.depth.toNat < (pt + 1).toNat by omega
    rw [if_neg hlast, if_neg hgt, hsucc]

theorem advance_endpiont (b : CycBuff) : b.advance.endpiont = b.next b.ptInst.endpiont := by
  unfold CycBuff.advance
  dsimp only
  split <;> rfl

/-- One more block: the newest is at the next place. -/
theorem toNat_advance_endpiont (hN : 1 ≤ N.toNat) (hdepth : b.depth = N - 1) {k : Nat}
    (hend : b.ptInst.endpiont.toNat = k % N.toNat) : b.advance.endpiont.toNat = (k + 1) % N.toNat := by
  rw [advance_endpiont, toNat_next hN hdepth (by rw [hend]; exact Nat.mod_lt _ hN), hend, Nat.mod_add_mod]

/-- One more block, but at most `N`. -/
theorem toNat_advance_cnt (hN : 1 ≤ N.toNat) (hdepth : b.depth = N - 1) {k : Nat}
    (hcnt : b.ptInst.cnt.toNat = min k N.toNat) (hroom : min k N.toNat < 65535) :
    b.advance.cnt.toNat = min (k + 1) N.toNat := by
  have hd := toNat_depth hN hdepth
  have hlt := N.isLt
  have hsucc := toNat_succ (show b.ptInst.cnt.toNat < 65535 by omega)
  unfold CycBuff.advance
  by_cases hfull : b.ptInst.cnt + 1 > b.depth
  · have hfull' : b.depth.toNat < (b.ptInst.cnt + 1).toNat := hfull
    rw [if_pos hfull]
    rw [toNat_succ (by omega)]
    omega
  · have hfull' : ¬b.depth.toNat < (b.ptInst.cnt + 1).toNat := hfull
    rw [if_neg hfull]
    dsimp only
    omega

/-- From its last value the count goes on at zero, before it is compared with the depth. -/
theorem advance_cnt_max (h : b.ptInst.cnt = 0xFFFF) : b.advance.cnt = 0 := by
  have hwrap : b.ptInst.cnt + 1 = 0 := by
    rw [h]
    decide
  have hgt : ¬b.ptInst.cnt + 1 > b.depth := by
    rw [hwrap]
    exact BitVec.not_lt_zero
  unfold CycBuff.advance
  rw [if_neg hgt, hwrap]

theorem toNat_dataAddr (b : CycBuff) : b.dataAddr.toNat =
    (b.eepromBuffBaseAddr.toNat + 6 + b.ptInst.endpiont.toNat * b.blockSize.toNat) % 65536 := by
  unfold CycBuff.dataAddr
  rw [BitVec.toNat_add, BitVec.toNat_add, BitVec.toNat_mul]
  show ((b.eepromBuffBaseAddr.toNat + 6) % 65536 + _ % 65536) % 65536 = _
  omega

theorem ofBytes_bytes (p : RecordPt) : RecordPt.ofBytes (fun k => p.bytes.getD k 0) = p := by
  show RecordPt.mk (word (hiByte _) (loByte _)) (word (hiByte _) (loByte _)) (word (hiByte _) (loByte _)) = p
  rw [word_bytes, word_bytes, word_bytes]

end pointers

/-! ## Transfers -/

section transfers

variable {e : EeBus} {b : CycBuff}

theorem bufRead_quiet (h : NoErrors e) (addr num : Word) : e.bufRead addr num =
    (some ((List.range (max num.toNat 1)).map fun k => e.chip.mem (addr + BitVec.ofNat 16 k).toNat), e) := by
  obtain ⟨chip, begins⟩ := e
  obtain rfl : begins = [] := h.1
  rfl

theorem bufWrite_eq (h : NoErrors e) (buf : Nat → Byte) (addr num : Word) :
    (e.bufWrite buf addr num).2 = { e with chip := (i2cEeBufWriteBsp buf addr num e.chip).2 } := by
  obtain ⟨chip, begins⟩ := e
  obtain rfl : begins = [] := h.1
  rfl

theorem bufWrite_spec (h : NoErrors e) (buf : Nat → Byte) (addr num : Word)
    (hroom : num.toNat = 0 ∨ addr.toNat + num.toNat ≤ 65536) :
    NoErrors (e.bufWrite buf addr num).2 ∧
      (e.bufWrite buf addr num).2.chip.mem = blit e.chip.mem addr.toNat (slice buf 0 num.toNat) ∧
      WritesWithin addr.toNat num.toNat e.chip (e.bufWrite buf addr num).2.chip := by
  obtain ⟨hends, hmem, hwithin⟩ := bufWrite_quiet buf addr num h.2 hroom
  rw [bufWrite_eq h]
  exact ⟨⟨h.1, hends⟩, hmem, hwithin⟩

/-- A byte behind an address, within the chip. -/
theorem toNat_add_ofNat {addr : Word} {k : Nat} (h : addr.toNat + k < 65536) :
    (addr + BitVec.ofNat 16 k).toNat = addr.toNat + k := by
  rw [BitVec.toNat_add, BitVec.toNat_ofNat]
  omega

/-- The pointers `p` are on the chip. -/
def PtAt (f : Nat → Byte) (base : Nat) (p : RecordPt) : Prop := ∀ k < 6, f (base + k) = p.bytes.getD k 0

theorem readPt_eq (h : NoErrors e) (hroom : b.eepromBuffBaseAddr.toNat + 6 ≤ 65536) {p : RecordPt}
    (hp : PtAt e.chip.mem b.eepromBuffBaseAddr.toNat p) : readPt (b, e) = ({ b with ptInst := p }, e) := by
  unfold readPt
  rw [bufRead_quiet h]
  dsimp only
  rw [← ofBytes_bytes p]
  congr 3
  funext k
  by_cases hk : k < 6
  · rw [List.getD_eq_getElem _ _ (by simpa using hk), List.getElem_map, List.getElem_range,
      toNat_add_ofNat (by omega), hp k hk]
  · rw [List.getD_eq_default _ _ (by simpa using hk), List.getD_eq_default _ _ (by simpa [RecordPt.bytes] using hk)]

theorem writePt_spec (h : NoErrors e) (hroom : b.eepromBuffBaseAddr.toNat + 6 ≤ 65536) :
    (writePt (b, e)).2.1 = b ∧ NoErrors (writePt (b, e)).2.2 ∧
      PtAt (writePt (b, e)).2.2.chip.mem b.eepromBuffBaseAddr.toNat b.ptInst ∧
      (∀ k, b.eepromBuffBaseAddr.toNat + 6 ≤ k → (writePt (b, e)).2.2.chip.mem k = e.chip.mem k) ∧
      WritesWithin b.eepromBuffBaseAddr.toNat 6 e.chip (writePt (b, e)).2.2.chip := by
  obtain ⟨hquiet, hmem, hwithin⟩ := bufWrite_spec h (fun k => b.ptInst.bytes.getD k 0) b.eepromBuffBaseAddr 6
    (.inr hroom)
  refine ⟨rfl, hquiet, fun k hk => ?_, fun k hk => ?_, hwithin⟩
  · show (e.bufWrite _ _ _).2.chip.mem _ = _
    have hlen : k < (slice (fun k => b.ptInst.bytes.getD k 0) 0 (6 : Word).toNat).length := by
      rw [length_slice]
      exact hk
    rw [hmem, blit_at _ _ hlen, getElem_slice, Nat.zero_add]
  · show (e.bufWrite _ _ _).2.chip.mem _ = _
    rw [hmem, blit_of_not _ _ _ (by rw [length_slice]; exact fun hin => by have : k < _ + 6 := hin.2; omega)]

end transfers

/-! ## Adding -/

/-- The log is set up for `N` blocks at `base`. -/
structure SetUp (blockSize N base : Word) (b : CycBuff) : Prop where
  setDepth : b.depth = N - 1
  setSize : b.blockSize = blockSize
  setBase : b.eepromBuffBaseAddr = base

/-- The log is set up, and the chip holds the last of the blocks `hist` with their pointers. The newest has the number
of the blocks that were added. -/
structure Logged (blockSize N base : Word) (hist : List (Nat → Byte)) (s : CycState) : Prop where
  setUp : SetUp blockSize N base s.1
  noErrors : NoErrors s.2
  pt : ∃ p : RecordPt, PtAt s.2.chip.mem base.toNat p ∧ p.endpiont.toNat = hist.length % N.toNat ∧
    p.cnt.toNat = min hist.length N.toNat
  blocks : Turned (base.toNat + 6) blockSize.toNat N.toNat (hist.length + 1 - min hist.length N.toNat)
    ((hist.drop (hist.length - min hist.length N.toNat)).map fun buffData => slice buffData 0 blockSize.toNat)
    s.2.chip.mem

section log

variable {blockSize N base : Word} {hist : List (Nat → Byte)} {s : CycState}

theorem SetUp.withPt {b : CycBuff} (h : SetUp blockSize N base b) (p : RecordPt) :
    SetUp blockSize N base { b with ptInst := p } :=
  ⟨h.setDepth, h.setSize, h.setBase⟩

/-- A place of the log is on the chip. -/
theorem place_room (hfit : base.toNat + 6 + blockSize.toNat * N.toNat ≤ 65536) {i : Nat} (hi : i < N.toNat) :
    base.toNat + 6 + i * blockSize.toNat + blockSize.toNat ≤ base.toNat + 6 + blockSize.toNat * N.toNat ∧
      base.toNat + 6 + i * blockSize.toNat + blockSize.toNat ≤ 65536 := by
  have hle := Nat.mul_le_mul_left blockSize.toNat hi
  rw [Nat.mul_succ, Nat.mul_comm] at hle
  omega

/-- A block at a place of the log is written; if it has no bytes the address does not matter. -/
theorem bufWrite_place (hfit : base.toNat + 6 + blockSize.toNat * N.toNat ≤ 65536) {e : EeBus} (h : NoErrors e)
    {b : CycBuff} (hset : SetUp blockSize N base b) (hplace : b.ptInst.endpiont.toNat < N.toNat) (buf : Nat → Byte) :
    NoErrors (e.bufWrite buf b.dataAddr b.blockSize).2 ∧
      (e.bufWrite buf b.dataAddr b.blockSize).2.chip.mem =
        blit e.chip.mem (base.toNat + 6 + b.ptInst.endpiont.toNat * blockSize.toNat) (slice buf 0 blockSize.toNat) ∧
      WritesWithin base.toNat (6 + blockSize.toNat * N.toNat) e.chip (e.bufWrite buf b.dataAddr b.blockSize).2.chip := by
  have haddr := toNat_dataAddr b
  obtain ⟨hroom, hchip⟩ := place_room hfit hplace
  obtain ⟨-, rfl, rfl⟩ := hset
  by_cases hzero : b.blockSize.toNat = 0
  · obtain ⟨hno, hmem, hwithin⟩ := bufWrite_spec h buf b.dataAddr b.blockSize (.inl hzero)
    rw [hzero] at hmem hwithin ⊢
    refine ⟨hno, hmem.trans ((blit_nil ..).trans (blit_nil ..).symm), ?_⟩
    obtain ⟨ws, hws, hin⟩ := hwithin
    exact ⟨ws, hws, fun w hw k hk => by have := hin w hw k hk; omega⟩
  · rw [Nat.mod_eq_of_lt (by omega)] at haddr
    obtain ⟨hno, hmem, hwithin⟩ := bufWrite_spec h buf b.dataAddr b.blockSize (.inr (by omega))
    rw [haddr] at hmem hwithin
    exact ⟨hno, hmem, writesWithin_mono hwithin (by omega) (by omega)⟩

/-- A block more on the chip: if there is no more room it takes the place of the oldest. -/
theorem turned_add {a w n : Nat} (hn : 1 ≤ n) {f : Nat → Byte}
    (h : Turned a w n (hist.length + 1 - min hist.length n)
      ((hist.drop (hist.length - min hist.length n)).map fun buffData => slice buffData 0 w) f) (src : Nat → Byte) :
    Turned a w n ((hist ++ [src]).length + 1 - min (hist ++ [src]).length n)
      (((hist ++ [src]).drop ((hist ++ [src]).length - min (hist ++ [src]).length n)).map
        fun buffData => slice buffData 0 w)
      (blit f (a + (hist.length + 1) % n * w) (slice src 0 w)) := by
  rw [List.length_append, List.length_singleton]
  by_cases hroom : hist.length < n
  · rw [Nat.min_eq_left hroom.le, Nat.sub_self, List.drop_zero] at h
    rw [Nat.min_eq_left hroom, Nat.sub_self, List.drop_zero, List.map_append, List.map_singleton]
    have hpush := h.push (v := slice src 0 w) (by rw [List.length_map]; exact hroom) (length_slice ..)
    rw [List.length_map, Nat.add_sub_cancel_left, Nat.add_comm 1] at hpush
    rw [Nat.add_sub_cancel_left]
    exact hpush
  · rw [Nat.min_eq_right (by omega)] at h
    rw [Nat.min_eq_right (by omega), List.drop_append_of_le_length (by omega), List.map_append, List.map_singleton]
    obtain ⟨x, xs, hxs⟩ : ∃ x xs, hist.drop (hist.length - n) = x :: xs := by
      refine List.exists_cons_of_ne_nil fun hnil => ?_
      have := congrArg List.length hnil
      rw [List.length_drop, List.length_nil] at this
      omega
    have hlen : xs.length + 1 = n := by
      have := congrArg List.length hxs
      rw [List.length_drop, List.length_cons] at this
      omega
    have htail : hist.drop (hist.length + 1 - n) = xs := by
      rw [show hist.length + 1 - n = hist.length - n + 1 by omega, ← List.drop_drop, hxs]
      rfl
    rw [hxs, List.map_cons] at h
    have hpush := h.pop.2.push (v := slice src 0 w) (by rw [List.length_map]; omega) (length_slice ..)
    rw [List.length_map, show hist.length + 1 - n + 1 + xs.length = hist.length + 1 by omega] at hpush
    rw [htail, show hist.length + 1 + 1 - n = hist.length + 1 - n + 1 by omega]
    exact hpush

/-- A block is added: the pointers on the chip move on, and the block is at the place of the newest. -/
theorem addCycbuff_spec (hN : 1 ≤ N.toNat) (hfit : base.toNat + 6 + blockSize.toNat * N.toNat ≤ 65536)
    (h : Logged blockSize N base hist s) (src : Nat → Byte) :
    ∃ p : RecordPt, p.cnt.toNat = min hist.length N.toNat ∧
      ∃ p', p' = CycBuff.advance { s.1 with ptInst := p } ∧ p'.endpiont.toNat = (hist.length + 1) % N.toNat ∧
        (addCycbuff s src).1 = { s.1 with ptInst := p' } ∧ NoErrors (addCycbuff s src).2 ∧
        PtAt (addCycbuff s src).2.chip.mem base.toNat p' ∧
        (∃ f : Nat → Byte, (∀ k, base.toNat + 6 ≤ k → f k = s.2.chip.mem k) ∧ (addCycbuff s src).2.chip.mem =
          blit f (base.toNat + 6 + (hist.length + 1) % N.toNat * blockSize.toNat) (slice src 0 blockSize.toNat)) ∧
        WritesWithin base.toNat (6 + blockSize.toNat * N.toNat) s.2.chip (addCycbuff s src).2.chip := by
  obtain ⟨b, e⟩ := s
  obtain ⟨hset, hno, ⟨p, hp, hend, hpcnt⟩, -⟩ := h
  dsimp only at hset hno hp
  have hbase := hset.setBase
  have hread : readPt (b, e) = ({ b with ptInst := p }, e) :=
    readPt_eq hno (by rw [hbase]; omega) (by rw [hbase]; exact hp)
  obtain ⟨p', hp'⟩ : ∃ p', p' = CycBuff.advance { b with ptInst := p } := ⟨_, rfl⟩
  have hend' : p'.endpiont.toNat = (hist.length + 1) % N.toNat := by
    rw [hp']
    exact toNat_advance_endpiont (b := { b with ptInst := p }) hN hset.setDepth hend
  obtain ⟨hb, hno', hpt, hkept, hin⟩ :=
    writePt_spec (b := { b with ptInst := p' }) hno (by dsimp only; rw [hbase]; omega)
  obtain ⟨e', he'⟩ : ∃ e', e' = (writePt ({ b with ptInst := p' }, e)).2.2 := ⟨_, rfl⟩
  dsimp only at hpt hkept hin
  rw [← he', hbase] at hpt hkept hin
  rw [← he'] at hno'
  have hadd : addCycbuff (b, e) src =
      ({ b with ptInst := p' },
        (e'.bufWrite src (CycBuff.dataAddr { b with ptInst := p' }) b.blockSize).2) := by
    unfold addCycbuff caclPt
    rw [hread]
    dsimp only
    rw [← hp', he']
    rfl
  obtain ⟨hno'', hmem, hin'⟩ := bufWrite_place hfit hno' (hset.withPt p') (by rw [hend']; exact Nat.mod_lt _ hN) src
  dsimp only at hno'' hmem hin'
  rw [hend'] at hmem
  refine ⟨p, hpcnt, p', hp', hend', ?_⟩
  rw [hadd]
  refine ⟨rfl, hno'', fun k hk => ?_, ⟨e'.chip.mem, hkept, hmem⟩,
    writesWithin_trans (writesWithin_mono hin (Nat.le_refl _) (by omega)) hin'⟩
  rw [hmem, blit_of_not _ _ _ (by omega), hpt k hk]

/-- A block is added, if the count has room. -/
theorem logged_add (hN : 1 ≤ N.toNat) (hfit : base.toNat + 6 + blockSize.toNat * N.toNat ≤ 65536)
    (h : Logged blockSize N base hist s) (hcnt : min hist.length N.toNat < 65535) (src : Nat → Byte) :
    Logged blockSize N base (hist ++ [src]) (addCycbuff s src) ∧
      WritesWithin base.toNat (6 + blockSize.toNat * N.toNat) s.2.chip (addCycbuff s src).2.chip := by
  obtain ⟨p, hpcnt, p', hp', hend', hb, hno, hpt, ⟨f, hkept, hmem⟩, hin⟩ := addCycbuff_spec hN hfit h src
  have hlen : (hist ++ [src]).length = hist.length + 1 := by rw [List.length_append, List.length_singleton]
  refine ⟨⟨?_, hno, ⟨p', hpt, ?_, ?_⟩, ?_⟩, hin⟩
  · rw [hb]
    exact h.setUp.withPt p'
  · rw [hend', hlen]
  · rw [hp', hlen]
    exact toNat_advance_cnt (b := { s.1 with ptInst := p }) hN h.setUp.setDepth hpcnt hcnt
  · rw [hmem]
    exact turned_add hN (h.blocks.of_eq hkept) src

/-- With 65535 blocks in the log the count has no room for one more. -/
theorem count_add_max (hfit : base.toNat + 6 + blockSize.toNat * N.toNat ≤ 65536) (h : Logged blockSize N base hist s)
    (hN : N.toNat = 65535) (hlen : hist.length = 65535) (src : Nat → Byte) :
    (readPt (addCycbuff s src)).1.ptInst.cnt = 0 := by
  obtain ⟨p, hpcnt, p', hp', -, hb, hno, hpt, -, -⟩ := addCycbuff_spec (by omega) hfit h src
  have hcnt : p'.cnt = 0 := by
    rw [hp']
    refine advance_cnt_max (BitVec.eq_of_toNat_eq ?_)
    rw [hpcnt, hN, hlen]
    rfl
  have hbase : (addCycbuff s src).1.eepromBuffBaseAddr = base := by
    rw [hb]
    exact h.setUp.setBase
  have hread := readPt_eq (b := (addCycbuff s src).1) hno (by rw [hbase]; omega) (by rw [hbase]; exact hpt)
  exact (congrArg (fun s => s.1.ptInst.cnt) hread).trans hcnt

theorem logged_clear (hfit : base.toNat + 6 + blockSize.toNat * N.toNat ≤ 65536) (h : NoErrors s.2) :
    Logged blockSize N base [] (clearCycbuffLog (initCycbuff blockSize N base s.1, s.2)).2 ∧
      WritesWithin base.toNat (6 + blockSize.toNat * N.toNat) s.2.chip
        (clearCycbuffLog (initCycbuff blockSize N base s.1, s.2)).2.2.chip := by
  obtain ⟨hb, hno, hpt, -, hin⟩ := writePt_spec
    (b := { initCycbuff blockSize N base s.1 with ptInst := ⟨0, 0, 0⟩ }) h (show base.toNat + 6 ≤ 65536 by omega)
  refine ⟨⟨⟨rfl, rfl, rfl⟩, hno, ⟨⟨0, 0, 0⟩, hpt, (Nat.zero_mod _).symm, (Nat.zero_min _).symm⟩,
    turned_nil _ _ _ _ _⟩, ?_⟩
  exact writesWithin_mono hin (Nat.le_refl _) (by show base.toNat + 6 ≤ _; omega)

/-- A run of blocks that the count has room for. -/
theorem logged_run (hN : 1 ≤ N.toNat) (hfit : base.toNat + 6 + blockSize.toNat * N.toNat ≤ 65536) (h : NoErrors s.2)
    (hist : List (Nat → Byte)) (hcnt : N.toNat < 65535 ∨ hist.length ≤ 65535) :
    Logged blockSize N base hist (logged blockSize N base s hist) ∧
      WritesWithin base.toNat (6 + blockSize.toNat * N.toNat) s.2.chip (logged blockSize N base s hist).2.chip := by
  induction hist using List.reverseRecOn with
  | nil => exact logged_clear hfit h
  | append_singleton hist src ih =>
    rw [List.length_append, List.length_singleton] at hcnt
    obtain ⟨hlog, hin⟩ := ih (by omega)
    obtain ⟨hlog', hin'⟩ := logged_add hN hfit hlog (by omega) src
    unfold logged at *
    rw [run_snoc]
    exact ⟨hlog', writesWithin_trans hin hin'⟩

/-! ## Asking -/

/-- The place that `endpiont` stands for in a query. -/
def placeOf (b : CycBuff) : Word := if b.ptInst.endpiont = 0xFFFF then b.depth else b.ptInst.endpiont

/-- The next place of a query is the one before. -/
theorem placeOf_pred (hN : 1 ≤ N.toNat) {b : CycBuff} (hdepth : b.depth = N - 1) {n : Nat} (hn : 1 ≤ n)
    (hplace : (placeOf b).toNat = n % N.toNat) {p : RecordPt} (hp : p.endpiont = placeOf b - 1) :
    (placeOf { b with ptInst := p }).toNat = (n - 1) % N.toNat := by
  have hd := toNat_depth hN hdepth
  have hlt := N.isLt
  have hmod := Nat.mod_lt n hN
  have hnext : placeOf { b with ptInst := p } = if placeOf b - 1 = 0xFFFF then b.depth else placeOf b - 1 := by
    rw [← hp]
    rfl
  rw [pred_mod hN hn, ← hplace, hnext]
  generalize placeOf b = q at hplace
  by_cases hzero : q.toNat = 0
  · obtain rfl : q = 0 := BitVec.eq_of_toNat_eq hzero
    exact hd
  · have hsub : (q - 1).toNat = q.toNat - 1 := BitVec.toNat_sub_of_le (BitVec.le_def.mpr (Nat.pos_of_ne_zero hzero))
    have hmax : ¬q - 1 = 0xFFFF := fun hmax => by
      rw [hmax] at hsub
      have : (0xFFFF : Word).toNat = 65535 := rfl
      omega
    rw [if_neg hzero, if_neg hmax, hsub]

theorem bufRead_place (hfit : base.toNat + 6 + blockSize.toNat * N.toNat ≤ 65536) {e : EeBus} (h : NoErrors e)
    {b : CycBuff} (hset : SetUp blockSize N base b) (hpos : 1 ≤ blockSize.toNat)
    (hplace : b.ptInst.endpiont.toNat < N.toNat) : e.bufRead b.dataAddr b.blockSize =
      (some (blockAt (base.toNat + 6) blockSize.toNat e.chip.mem b.ptInst.endpiont.toNat), e) := by
  have haddr := toNat_dataAddr b
  obtain ⟨-, hchip⟩ := place_room hfit hplace
  obtain ⟨-, rfl, rfl⟩ := hset
  rw [Nat.mod_eq_of_lt (by omega)] at haddr
  rw [bufRead_quiet h, Nat.max_eq_left hpos]
  refine congrArg (fun l => (some l, e)) (List.map_congr_left fun k hk => ?_)
  have hk := List.mem_range.mp hk
  rw [toNat_add_ofNat (by omega), haddr]

theorem quiryLoop_succ (b : CycBuff) (cnt : Nat) (offset : Word) (out : Nat → Byte) (e : EeBus) :
    quiryLoop (cnt + 1) offset out (b, e) =
      quiryLoop cnt (offset + b.blockSize)
        (match (e.bufRead (CycBuff.dataAddr { b with ptInst := { b.ptInst with endpiont := placeOf b } })
            b.blockSize).1 with
          | some bytes => blit out offset.toNat bytes
          | none => out)
        ({ b with ptInst := { b.ptInst with endpiont := placeOf b - 1 } },
          (e.bufRead (CycBuff.dataAddr { b with ptInst := { b.ptInst with endpiont := placeOf b } })
            b.blockSize).2) := rfl

/-- One round of the loop: the block at the place is read, and the next place is the one before. -/
theorem quiryLoop_round (hN : 1 ≤ N.toNat) (hfit : base.toNat + 6 + blockSize.toNat * N.toNat ≤ 65536) {e : EeBus}
    (h : NoErrors e) {b : CycBuff} (hset : SetUp blockSize N base b) (hpos : 1 ≤ blockSize.toNat) {n : Nat}
    (hplace : (placeOf b).toNat = n % N.toNat) (cnt : Nat) (offset : Word) (out : Nat → Byte) :
    ∃ p : RecordPt, p.endpiont = placeOf b - 1 ∧ quiryLoop (cnt + 1) offset out (b, e) =
      quiryLoop cnt (offset + blockSize)
        (blit out offset.toNat (blockAt (base.toNat + 6) blockSize.toNat e.chip.mem (n % N.toNat)))
        ({ b with ptInst := p }, e) := by
  have hread := bufRead_place hfit h (hset.withPt { b.ptInst with endpiont := placeOf b }) hpos
    (show (placeOf b).toNat < N.toNat by rw [hplace]; exact Nat.mod_lt n hN)
  dsimp only at hread
  refine ⟨{ b.ptInst with endpiont := placeOf b - 1 }, rfl, ?_⟩
  rw [quiryLoop_succ, hread, hplace, hset.setSize]

/-- The loop of a query reads block after block, from block `n` back, behind the first `j` in the buffer. -/
theorem quiryLoop_blocks (hN : 1 ≤ N.toNat) (hfit : base.toNat + 6 + blockSize.toNat * N.toNat ≤ 65536) {e : EeBus}
    (h : NoErrors e) {b : CycBuff} (hset : SetUp blockSize N base b) (hpos : 1 ≤ blockSize.toNat) {cnt n j : Nat}
    (hn : cnt ≤ n) (hplace : 0 < cnt → (placeOf b).toNat = n % N.toNat) {offset : Word}
    (hoffset : offset.toNat = j * blockSize.toNat) (hout : (j + cnt) * blockSize.toNat < 65536) (out : Nat → Byte) :
    (∀ k < j, blockAt 0 blockSize.toNat (quiryLoop cnt offset out (b, e)).1 k = blockAt 0 blockSize.toNat out k) ∧
      ∀ k < cnt, blockAt 0 blockSize.toNat (quiryLoop cnt offset out (b, e)).1 (j + k) =
        blockAt (base.toNat + 6) blockSize.toNat e.chip.mem ((n - k) % N.toNat) := by
  induction cnt generalizing n j offset out b with
  | zero => exact ⟨fun _ _ => rfl, nofun⟩
  | succ cnt ih =>
    have hplace := hplace (Nat.succ_pos cnt)
    obtain ⟨p, hp, hnext⟩ := quiryLoop_round hN hfit h hset hpos hplace cnt offset out
    obtain ⟨v, hv⟩ : ∃ v, v = blockAt (base.toNat + 6) blockSize.toNat e.chip.mem (n % N.toNat) := ⟨_, rfl⟩
    have hvlen : v.length = blockSize.toNat := by rw [hv, length_blockAt]
    have hmul : (j + (cnt + 1)) * blockSize.toNat = (j + 1 + cnt) * blockSize.toNat := by
      rw [Nat.add_right_comm, Nat.add_assoc]
    have hle : (j + 1) * blockSize.toNat ≤ (j + 1 + cnt) * blockSize.toNat := Nat.mul_le_mul_right _ (by omega)
    have hoffset' : (offset + blockSize).toNat = (j + 1) * blockSize.toNat := by
      rw [BitVec.toNat_add, hoffset, ← Nat.succ_mul]
      exact Nat.mod_eq_of_lt (show (j + 1) * blockSize.toNat < 65536 by omega)
    obtain ⟨hbefore, hblock⟩ := ih (hset.withPt p) (n := n - 1) (j := j + 1) (by omega)
      (fun hcnt => placeOf_pred hN hset.setDepth (by omega) hplace hp) hoffset' (by omega) (blit out offset.toNat v)
    have hblit : blit out offset.toNat v = blit out (0 + j * blockSize.toNat) v := by rw [hoffset, Nat.zero_add]
    rw [hnext, ← hv]
    refine ⟨fun k hk => ?_, fun k hk => ?_⟩
    · rw [hbefore k (by omega), hblit, blockAt_blit_of_ne 0 out hvlen (by omega)]
    · cases k with
      | zero => rw [Nat.add_zero, hbefore j (by omega), hblit, blockAt_blit_self 0 out j hvlen, hv, Nat.sub_zero]
      | succ k => rw [show j + (k + 1) = j + 1 + k by omega, hblock k (by omega), show n - 1 - k = n - (k + 1) by omega]

theorem toNat_queryStart (hN : 1 ≤ N.toNat) {b : CycBuff} (hdepth : b.depth = N - 1) {k : Nat}
    (hend : b.ptInst.endpiont.toNat = k % N.toNat) {offset : Word} (hk : offset.toNat ≤ k)
    (hoffset : offset.toNat ≤ N.toNat) :
    (if b.ptInst.endpiont < offset then b.depth + 1 - (offset - b.ptInst.endpiont)
      else b.ptInst.endpiont - offset).toNat = (k - offset.toNat) % N.toNat := by
  have hd := toNat_depth hN hdepth
  have hlt := N.isLt
  have hr := Nat.mod_lt (k - offset.toNat) hN
  -- the newest block is `offset` places behind
  have hsum : ((k - offset.toNat) % N.toNat + offset.toNat) % N.toNat = k % N.toNat := by
    rw [Nat.mod_add_mod, Nat.sub_add_cancel hk]
  generalize (k - offset.toNat) % N.toNat = r at hr hsum ⊢
  by_cases hbehind : b.ptInst.endpiont < offset
  · have hbehind' : b.ptInst.endpiont.toNat < offset.toNat := hbehind
    have hwrap : N.toNat ≤ r + offset.toNat := by
      by_contra hno
      rw [Nat.mod_eq_of_lt (by omega)] at hsum
      omega
    rw [Nat.mod_eq_sub_mod hwrap, Nat.mod_eq_of_lt (by omega)] at hsum
    have hsub : (offset - b.ptInst.endpiont).toNat = offset.toNat - b.ptInst.endpiont.toNat :=
      BitVec.toNat_sub_of_le (BitVec.le_def.mpr hbehind'.le)
    have hsucc : (b.depth + 1).toNat = N.toNat := by
      rw [toNat_succ (by omega)]
      omega
    rw [if_pos hbehind, BitVec.toNat_sub_of_le (by rw [BitVec.le_def]; omega)]
    omega
  · have hbehind' : ¬b.ptInst.endpiont.toNat < offset.toNat := hbehind
    have hmod := Nat.mod_lt k hN
    have hwrap : r + offset.toNat < N.toNat := by
      by_contra hno
      rw [Nat.mod_eq_sub_mod (by omega), Nat.mod_eq_of_lt (by omega)] at hsum
      omega
    rw [Nat.mod_eq_of_lt hwrap] at hsum
    rw [if_neg hbehind, BitVec.toNat_sub_of_le (by rw [BitVec.le_def]; omega)]
    omega

/-- The number of blocks that a query gives. -/
theorem toNat_queryCount {c offset : Word} (cnt : Byte) (h : offset.toNat ≤ c.toNat) :
    (if c.toNat - offset.toNat < cnt.toNat then (c - offset).setWidth 8 else cnt).toNat =
      min cnt.toNat (c.toNat - offset.toNat) := by
  have hlt := cnt.isLt
  split
  · rename_i hless
    rw [BitVec.toNat_setWidth, BitVec.toNat_sub_of_le (by rw [BitVec.le_def]; exact h), Nat.mod_eq_of_lt (by omega)]
    omega
  · omega

/-- A block of the log, by its number. -/
theorem logged_block (h : Logged blockSize N base hist s) {n : Nat} (hlow : hist.length - min hist.length N.toNat < n)
    (hn : n ≤ hist.length) :
    blockAt (base.toNat + 6) blockSize.toNat s.2.chip.mem (n % N.toNat) =
      slice (hist.get ⟨n - 1, by omega⟩) 0 blockSize.toNat := by
  have hlen : n - (hist.length + 1 - min hist.length N.toNat) <
      ((hist.drop (hist.length - min hist.length N.toNat)).map fun src => slice src 0 blockSize.toNat).length := by
    rw [List.length_map, List.length_drop]
    omega
  have hblock := h.blocks _ hlen
  rw [Nat.add_sub_cancel' (by omega), List.getElem_map, List.getElem_drop] at hblock
  rw [hblock, List.get_eq_getElem]
  congr 2
  dsimp only
  omega

/-- What a query gives, when the pointers are right. -/
theorem quiryCycbuff_eq {b : CycBuff} {e : EeBus} {offset : Word} (cnt : Byte) (buf : Nat → Byte)
    (h : offset.toNat ≤ b.ptInst.cnt.toNat) :
    ∃ (cnt' : Byte) (p : RecordPt), cnt'.toNat = min cnt.toNat (b.ptInst.cnt.toNat - offset.toNat) ∧
      p.endpiont = (if b.ptInst.endpiont < offset then b.depth + 1 - (offset - b.ptInst.endpiont)
        else b.ptInst.endpiont - offset) ∧
      (quiryCycbuff offset cnt buf (b, e)).1.toNat = cnt'.toNat ∧
      (quiryCycbuff offset cnt buf (b, e)).2.1 = (quiryLoop cnt'.toNat 0 buf ({ b with ptInst := p }, e)).1 := by
  refine ⟨_, { b.ptInst with endpiont := _ }, toNat_queryCount cnt h, rfl, ?_, ?_⟩
  · unfold quiryCycbuff
    dsimp only
    rw [if_neg (show ¬b.ptInst.cnt < offset from Nat.not_lt.mpr h)]
    exact BitVec.toNat_setWidth_of_le (by decide)
  · unfold quiryCycbuff
    dsimp only
    rw [if_neg (show ¬b.ptInst.cnt < offset from Nat.not_lt.mpr h)]
    rfl

/-- Every query of the log gives its blocks. -/
theorem query_logged (hN : 1 ≤ N.toNat) (hfit : base.toNat + 6 + blockSize.toNat * N.toNat ≤ 65536) {b : CycBuff}
    {e : EeBus} (h : Logged blockSize N base hist (b, e)) (hend : b.ptInst.endpiont.toNat = hist.length % N.toNat)
    (hcnt : b.ptInst.cnt.toNat = min hist.length N.toNat) {offset : Word} (cnt : Byte) (buf : Nat → Byte)
    (hoffset : offset.toNat ≤ min hist.length N.toNat) :
    (quiryCycbuff offset cnt buf (b, e)).1.toNat = min cnt.toNat (min hist.length N.toNat - offset.toNat) ∧
      ∀ k < (quiryCycbuff offset cnt buf (b, e)).1.toNat,
        blockAt 0 blockSize.toNat (quiryCycbuff offset cnt buf (b, e)).2.1 k =
          blockAt (base.toNat + 6) blockSize.toNat e.chip.mem ((hist.length - offset.toNat - k) % N.toNat) := by
  obtain ⟨cnt', p, hcnt', hp, hcount, hbuf⟩ := quiryCycbuff_eq (e := e) cnt buf (hcnt ▸ hoffset)
  rw [hcnt] at hcnt'
  rw [hcount, hbuf]
  refine ⟨hcnt', fun k hk => ?_⟩
  by_cases hzero : blockSize.toNat = 0
  · rw [hzero]
    rfl
  · have hlt := N.isLt
    have hplace : (placeOf { b with ptInst := p }).toNat = (hist.length - offset.toNat) % N.toNat := by
      have hstart := toNat_queryStart hN h.setUp.setDepth hend (show offset.toNat ≤ hist.length by omega)
        (show offset.toNat ≤ N.toNat by omega)
      rw [← hp] at hstart
      have hmod := Nat.mod_lt (hist.length - offset.toNat) hN
      have hne : ¬p.endpiont = 0xFFFF := fun hmax => by
        rw [hmax] at hstart
        have : (0xFFFF : Word).toNat = 65535 := rfl
        omega
      exact (congrArg BitVec.toNat (if_neg hne)).trans hstart
    have hroom : (0 + cnt'.toNat) * blockSize.toNat < 65536 := by
      have hle : cnt'.toNat * blockSize.toNat ≤ N.toNat * blockSize.toNat := Nat.mul_le_mul_right _ (by omega)
      rw [Nat.mul_comm N.toNat] at hle
      rw [Nat.zero_add]
      omega
    obtain ⟨-, hblock⟩ := quiryLoop_blocks hN hfit h.noErrors (h.setUp.withPt p) (Nat.pos_of_ne_zero hzero)
      (n := hist.length - offset.toNat) (j := 0) (by omega) (fun _ => hplace)
      (show (0 : Word).toNat = _ by rw [Nat.zero_mul]; rfl) hroom buf
    have := hblock k hk
    rwa [Nat.zero_add] at this

theorem logLike_of_logged (hN : 1 ≤ N.toNat) (hfit : base.toNat + 6 + blockSize.toNat * N.toNat ≤ 65536) {c : Chip}
    (h : Logged blockSize N base hist s)
    (hin : WritesWithin base.toNat (6 + blockSize.toNat * N.toNat) c s.2.chip) : LogLike blockSize N base c hist s := by
  obtain ⟨b, e⟩ := s
  obtain ⟨p, hp, hend, hcnt⟩ := h.pt
  have hbase := h.setUp.setBase
  dsimp only at hbase hp
  have hread : readPt (b, e) = ({ b with ptInst := p }, e) :=
    readPt_eq h.noErrors (by rw [hbase]; omega) (by rw [hbase]; exact hp)
  have h' : Logged blockSize N base hist ({ b with ptInst := p }, e) :=
    ⟨h.setUp.withPt p, h.noErrors, h.pt, h.blocks⟩
  refine ⟨hin, by rw [hread]; exact hcnt, fun offset cnt buf hoffset => ?_⟩
  rw [hread]
  obtain ⟨hcount, hblock⟩ := query_logged hN hfit h' hend hcnt cnt buf hoffset
  refine ⟨hcount, List.ext_getElem ?_ fun k hk hk' => ?_⟩
  · simp only [List.length_map, List.length_range, List.length_take, List.length_drop, List.length_reverse]
    omega
  · rw [List.length_map, List.length_range] at hk
    rw [List.getElem_map, List.getElem_range, hblock k hk, logged_block h (by omega) (by omega), List.getElem_map,
      List.getElem_take, List.getElem_drop, List.getElem_reverse, List.get_eq_getElem]
    congr 2
    dsimp only
    omega

/-- The block behind the 65535th of a log with room for as many starts the count again. -/
theorem count_wraps (hfit : base.toNat + 6 + blockSize.toNat * N.toNat ≤ 65536) (h : NoErrors s.2)
    (hN : N.toNat = 65535) (hlen : hist.length = 65535) (src : Nat → Byte) :
    (readPt (logged blockSize N base s (hist ++ [src]))).1.ptInst.cnt = 0 := by
  have hlog := (logged_run (by omega) hfit h hist (.inr hlen.le)).1
  unfold logged at *
  rw [run_snoc]
  exact count_add_max hfit hlog hN hlen src

/-- The log is right after every block of a run exactly if the number of its blocks has room in the 16 bits of the
count and of its successor, which is only a question for blocks of no bytes. -/
theorem cycbuff_log_iff (hN : 1 ≤ N.toNat) (hfit : base.toNat + 6 + blockSize.toNat * N.toNat ≤ 65536)
    (h : NoErrors s.2) (hist : List (Nat → Byte)) :
    (∀ k ≤ hist.length,
        LogLike blockSize N base s.2.chip (hist.take k) (logged blockSize N base s (hist.take k))) ↔
      N.toNat < 65535 ∨ hist.length ≤ 65535 := by
  constructor
  · intro hlike
    by_contra hno
    have hlt := N.isLt
    have hcount := (hlike 65536 (by omega)).count
    have htake : hist.take 65536 = hist.take 65535 ++ [hist.get ⟨65535, by omega⟩] := (List.take_append_getElem _).symm
    have hlen : (hist.take 65535).length = 65535 := by
      rw [List.length_take]
      omega
    have hzero := count_wraps (N := N) hfit h (by omega) hlen (hist.get ⟨65535, by omega⟩)
    rw [htake, hzero, ← htake, List.length_take] at hcount
    have : (0 : Word).toNat = 0 := rfl
    omega
  · intro hroom k hk
    have hlen : N.toNat < 65535 ∨ (hist.take k).length ≤ 65535 := by
      rw [List.length_take]
      omega
    obtain ⟨hlog, hin⟩ := logged_run hN hfit h (hist.take k) hlen
    exact logLike_of_logged hN hfit hlog hin

end log

/-- Five blocks of two bytes in a log of three. -/
theorem cycbuff_log_iff_three :
    let s : CycState := (⟨⟨0, 0, 0⟩, 0, 0, 0, 0⟩, ⟨⟨fun _ => 0xFF, [], []⟩, []⟩)
    let hist := (List.range 5).map fun n k => BitVec.ofNat 8 (16 * n + k)
    (1 ≤ (3 : Word).toNat ∧ (0x100 : Word).toNat + 6 + (2 : Word).toNat * (3 : Word).toNat ≤ 65536 ∧ NoErrors s.2) ∧
      ∀ k ≤ hist.length, LogLike 2 3 0x100 s.2.chip (hist.take k) (logged 2 3 0x100 s (hist.take k)) :=
  ⟨⟨by decide, by decide, rfl, rfl⟩, (cycbuff_log_iff (by decide) (by decide) ⟨rfl, rfl⟩ _).mpr (.inl (by decide))⟩

/-- A full log of 65535 blocks without bytes counts none after one more. -/
theorem cycbuff_forgets :
    let s : CycState := (⟨⟨0, 0, 0⟩, 0, 0, 0, 0⟩, ⟨⟨fun _ => 0xFF, [], []⟩, []⟩)
    let hist := List.replicate 65535 (fun _ => (0 : Byte)) ++ [fun _ => 0]
    (readPt (logged 0 65535 0 s hist)).1.ptInst.cnt = 0 ∧
      ¬LogLike 0 65535 0 s.2.chip hist (logged 0 65535 0 s hist) := by
  intro s
  have hlen : (List.replicate 65535 fun _ : Nat => (0 : Byte)).length = 65535 := List.length_replicate
  generalize (List.replicate 65535 fun _ : Nat => (0 : Byte)) = full at hlen ⊢
  have hzero : (readPt (logged 0 65535 0 s (full ++ [fun _ => 0]))).1.ptInst.cnt = 0 :=
    count_wraps (by decide) ⟨rfl, rfl⟩ (by decide) hlen _
  refine ⟨hzero, fun hlike => ?_⟩
  have hcount := hlike.count
  rw [hzero, List.length_append, hlen, List.length_singleton] at hcount
  exact absurd hcount (by decide)

end WM.Proof
