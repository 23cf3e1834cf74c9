import WaterMaker.Spec.Lines
import Mathlib.Data.Nat.Basic

/-!
# The walk over a buffer

`I2C_EE_BufWrite_bsp` writes what fits into the first page, whole pages and the rest, whatever it is that writes a
page (`Pager`). What is to be said of a call is a property of the bytes that are done and of the state they leave. If
the writes of pages and the delays keep it (`Walk`), the call has it at its end (`Walk.bufWrite`, and `walk_chip` for
the pages of the chip); the cursor is followed here only.
-/

namespace WM.Proof

open WM WM.Impl WM.Spec

/-! ## The cursor -/

theorem num_skip {x : Cursor} {n : Nat} (hn : n ≤ x.num.toNat) : (x.skip n).num.toNat = x.num.toNat - n := by
  have := x.num.isLt
  unfold Cursor.skip
  rw [BitVec.toNat_sub_of_le, BitVec.toNat_ofNat, Nat.mod_eq_of_lt (by omega)]
  rw [BitVec.le_def, BitVec.toNat_ofNat, Nat.mod_eq_of_lt (by omega)]
  exact hn

/-- The cursor is at byte `pos` of a buffer of `n` bytes that goes to the addresses from `a` on. -/
structure Follows (a n : Nat) (x : Cursor) : Prop where
  addr : x.addr.toNat = (a + x.pos) % 65536
  num : x.pos + x.num.toNat = n

theorem follows_skip {a n : Nat} {x : Cursor} (h : Follows a n x) {m : Nat} (hm : m ≤ x.num.toNat) :
    Follows a n (x.skip m) := by
  refine ⟨?_, ?_⟩
  · change (x.addr + BitVec.ofNat 16 m).toNat = (a + (x.pos + m)) % 65536
    rw [BitVec.toNat_add, BitVec.toNat_ofNat, h.addr]
    omega
  · have := h.num
    rw [num_skip hm]
    change x.pos + m + _ = n
    omega

/-- The first page takes what fits into it. -/
theorem toNat_firstCount (addr num : Word) :
    (firstCount addr num).toNat = min num.toNat (i2cEePageSize - addr.toNat % i2cEePageSize) := by
  have hfit : (BitVec.ofNat 8 (i2cEePageSize - addr.toNat % i2cEePageSize)).toNat =
      i2cEePageSize - addr.toNat % i2cEePageSize := by
    rw [BitVec.toNat_ofNat, Nat.mod_eq_of_lt (by unfold i2cEePageSize; omega)]
  unfold firstCount
  dsimp only
  rw [hfit]
  split
  · rename_i hle
    rw [BitVec.toNat_setWidth, Nat.mod_eq_of_lt (by unfold i2cEePageSize at hle; omega), Nat.min_eq_left hle]
  · rename_i hle
    rw [hfit, Nat.min_eq_right (by omega)]

/-- At least a byte, none behind the page, and if there is a rest it begins with a page. -/
theorem firstCount_fits (addr : Word) {num : Word} (h : 0 < num.toNat) :
    (0 < (firstCount addr num).toNat ∧ (firstCount addr num).toNat ≤ num.toNat) ∧
      addr.toNat % i2cEePageSize + (firstCount addr num).toNat ≤ i2cEePageSize ∧
      ((firstCount addr num).toNat < num.toNat → (addr.toNat + (firstCount addr num).toNat) % i2cEePageSize = 0) := by
  have hcount := toNat_firstCount addr num
  unfold i2cEePageSize at *
  omega

/-! ## The walk -/

section walk

variable {σ : Type} {P : Pager σ} {buf : Nat → Byte} {addr num : Word} {I J : Nat → σ → Prop} {E : σ → Prop}

/-- A page write that succeeds has done the first `p` bytes. -/
def Writes (I : Nat → σ → Prop) (E : σ → Prop) (p : Nat) (r : Bool × σ) : Prop := if r.1 then I p r.2 else E r.2

/-- A call returns `EEPROM_NOERRO` with `n` bytes done, or an error. -/
def Ended (J : Nat → σ → Prop) (E : σ → Prop) (n : Nat) (r : Nat × σ) : Prop :=
  r.1 = eepromNoErro ∧ J n r.2 ∨ r.1 = eepromBussErro ∧ E r.2

/-- What the parts of a call keep: `I` after a page and `J` after the delay, for the number of bytes that are done.
Where the call gives up there is `E`. -/
structure Walk (P : Pager σ) (buf : Nat → Byte) (addr num : Word) (I J : Nat → σ → Prop) (E : σ → Prop) : Prop where
  tries : ∀ {p w s}, I p s → (addr.toNat + p) % i2cEePageSize = 0 → BitVec.toNat w = (addr.toNat + p) % 65536 →
    p + i2cEePageSize ≤ num.toNat → I (p + i2cEePageSize) (P.tryPage buf p w 10 s).2
  delay : ∀ {p s}, I p s → J p (P.rtThreadDelay Pager.i2cPageWriteDelay s).2
  last : ∀ {p w m s}, J p s → (addr.toNat + p) % i2cEePageSize = 0 → BitVec.toNat w = (addr.toNat + p) % 65536 →
    0 < BitVec.toNat m → m.toNat < i2cEePageSize → p + m.toNat = num.toNat →
    Writes I E num.toNat (P.writeEEROMPage buf p w m s)

theorem Walk.writePages (h : Walk P buf addr num I J E) {k : Nat} {x : Cursor} {s : σ}
    (hx : Follows addr.toNat num.toNat x) (ha : (addr.toNat + x.pos) % i2cEePageSize = 0)
    (hk : k * i2cEePageSize ≤ x.num.toNat) (hs : I x.pos s) :
    ∃ x' s', P.writePages buf k x s = (x', s') ∧ Follows addr.toNat num.toNat x' ∧
      x'.pos = x.pos + k * i2cEePageSize ∧ I x'.pos s' := by
  induction k generalizing x s with
  | zero => exact ⟨x, s, rfl, hx, by rw [Nat.zero_mul, Nat.add_zero], hs⟩
  | succ k ih =>
    rw [Nat.succ_mul] at hk ⊢
    have hnum := hx.num
    have hpage : i2cEePageSize ≤ x.num.toNat := by omega
    obtain ⟨x', s', heq, hx', hpos, hs'⟩ := ih (follows_skip hx hpage)
      (by change (addr.toNat + (x.pos + i2cEePageSize)) % _ = 0; rw [← Nat.add_assoc, Nat.add_mod_right]; exact ha)
      (by rw [num_skip hpage]; omega) (h.tries hs ha hx.addr (by omega))
    refine ⟨x', s', heq, hx', hpos.trans ?_, hs'⟩
    change x.pos + i2cEePageSize + k * i2cEePageSize = _
    omega

theorem Walk.writeLast (h : Walk P buf addr num I J E) {x : Cursor} {s : σ} (hx : Follows addr.toNat num.toNat x)
    (ha : (addr.toNat + x.pos) % i2cEePageSize = 0) (hne : x.num ≠ 0) (hlt : x.num.toNat < i2cEePageSize)
    (hs : J x.pos s) : Ended J E num.toNat (P.writeLast buf x s) := by
  have hpositive : 0 < x.num.toNat := Nat.pos_of_ne_zero fun h0 => hne (BitVec.eq_of_toNat_eq h0)
  have hwidth : (x.num.setWidth 8).toNat = x.num.toNat := by
    rw [BitVec.toNat_setWidth, Nat.mod_eq_of_lt (Nat.lt_trans hlt (by decide))]
  have hlast := h.last (m := x.num.setWidth 8) hs ha hx.addr (by rw [hwidth]; exact hpositive)
    (by rw [hwidth]; exact hlt) (by rw [hwidth]; exact hx.num)
  have hrun : P.writeLast buf x s = (if (P.writeEEROMPage buf x.pos x.addr (x.num.setWidth 8) s).1 = true then
      (do P.rtThreadDelay Pager.i2cPageWriteDelay; pure eepromNoErro : StateM σ Nat) else pure eepromBussErro)
        (P.writeEEROMPage buf x.pos x.addr (x.num.setWidth 8) s).2 := rfl
  rw [hrun]
  unfold Writes at hlast
  split at hlast
  · rename_i hok
    rw [if_pos hok]
    exact .inl ⟨rfl, h.delay hlast⟩
  · rename_i hok
    rw [if_neg hok]
    exact .inr ⟨rfl, hlast⟩

theorem Walk.writeRest (h : Walk P buf addr num I J E) {x : Cursor} {s : σ} (hx : Follows addr.toNat num.toNat x)
    (ha : (addr.toNat + x.pos) % i2cEePageSize = 0) (hs : I x.pos s) :
    Ended J E num.toNat (P.writeRest buf x s) := by
  have hmod := Nat.div_add_mod' x.num.toNat i2cEePageSize
  have hlt := Nat.mod_lt x.num.toNat (show 0 < i2cEePageSize by decide)
  obtain ⟨x', s', heq, hx', hpos, hs'⟩ := h.writePages hx ha (Nat.div_mul_le_self _ _) hs
  have hnum := hx.num
  have hnum' := hx'.num
  have hrun : P.writeRest buf x s = (if (P.writePages buf (x.num.toNat / i2cEePageSize) x s).1.num = 0 then
      (pure eepromNoErro : StateM σ Nat) else
        P.writeLast buf (P.writePages buf (x.num.toNat / i2cEePageSize) x s).1)
      (P.rtThreadDelay Pager.i2cPageWriteDelay (P.writePages buf (x.num.toNat / i2cEePageSize) x s).2).2 := rfl
  rw [hrun, heq]
  dsimp only
  by_cases hzero : x'.num = 0
  · have hdone : x'.pos = num.toNat := by
      rw [hzero] at hnum'
      exact hnum'
    rw [if_pos hzero]
    exact .inl ⟨rfl, hdone ▸ h.delay hs'⟩
  · rw [if_neg hzero]
    refine h.writeLast hx' ?_ hzero (by omega) (h.delay hs')
    rw [hpos, ← Nat.add_assoc, Nat.add_mul_mod_self_right]
    exact ha

/-- A call keeps what its parts keep. -/
theorem Walk.bufWrite (h : Walk P buf addr num I J E) (hnum : 0 < num.toNat) {s : σ}
    (hfirst : Writes I E (firstCount addr num).toNat (P.writeEEROMPage buf 0 addr (firstCount addr num) s)) :
    Ended J E num.toNat (P.i2cEeBufWriteBsp buf addr num s) := by
  obtain ⟨⟨-, hle⟩, -, hrest⟩ := firstCount_fits addr hnum
  have hx : Follows addr.toNat num.toNat (Cursor.skip (firstCount addr num).toNat ⟨0, addr, num⟩) :=
    follows_skip ⟨(Nat.mod_eq_of_lt addr.isLt).symm, Nat.zero_add _⟩ hle
  have hleft := num_skip (x := ⟨0, addr, num⟩) hle
  have hpos : (Cursor.skip (firstCount addr num).toNat ⟨0, addr, num⟩).pos = (firstCount addr num).toNat :=
    Nat.zero_add _
  have hrun : P.i2cEeBufWriteBsp buf addr num s =
      (if (P.writeEEROMPage buf 0 addr (firstCount addr num) s).1 = true then
        (if (Cursor.skip (firstCount addr num).toNat ⟨0, addr, num⟩).num = 0 then
          (do P.rtThreadDelay Pager.i2cPageWriteDelay; pure eepromNoErro : StateM σ Nat)
        else P.writeRest buf (Cursor.skip (firstCount addr num).toNat ⟨0, addr, num⟩))
      else pure eepromBussErro) (P.writeEEROMPage buf 0 addr (firstCount addr num) s).2 := rfl
  rw [hrun]
  unfold Writes at hfirst
  split at hfirst
  · rename_i hok
    rw [if_pos hok]
    by_cases hzero : (Cursor.skip (firstCount addr num).toNat ⟨0, addr, num⟩).num = 0
    · rw [hzero] at hleft
      have hall : (firstCount addr num).toNat = num.toNat := Nat.le_antisymm hle (Nat.le_of_sub_eq_zero hleft.symm)
      rw [if_pos hzero]
      exact .inl ⟨rfl, h.delay (hall ▸ hfirst)⟩
    · have hlt : (firstCount addr num).toNat < num.toNat := by
        refine Nat.lt_of_le_of_ne hle fun hall => hzero (BitVec.eq_of_toNat_eq ?_)
        rw [hleft, hall, Nat.sub_self]
        rfl
      rw [if_neg hzero]
      exact h.writeRest hx (by rw [hpos]; exact hrest hlt) (by rw [hpos]; exact hfirst)
  · rename_i hok
    rw [if_neg hok]
    exact .inr ⟨rfl, hfirst⟩

end walk

/-! ## The pages of the chip -/

theorem chipPager_tryPage (buf : Nat → Byte) (pos : Nat) (addr : Word) (cnt : Nat) (c : Chip) :
    chipPager.tryPage buf pos addr cnt c = ((), tryPage buf pos addr cnt c) := by
  induction cnt generalizing c with
  | zero => rfl
  | succ cnt ih =>
    show (if (writeEEROMPage buf pos addr _ c).1 = true then (pure () : StateM Chip Unit)
      else chipPager.tryPage buf pos addr cnt) (writeEEROMPage buf pos addr _ c).2 = _
    rw [tryPage]
    rcases writeEEROMPage buf pos addr _ c with ⟨_ | _, c₁⟩
    · exact ih c₁
    · rfl

theorem chipPager_writePages (buf : Nat → Byte) (n : Nat) (x : Cursor) (c : Chip) :
    chipPager.writePages buf n x c = writePages buf n x c := by
  induction n generalizing x c with
  | zero => rfl
  | succ n ih =>
    show chipPager.writePages buf n _ (chipPager.tryPage buf x.pos x.addr 10 c).2 = _
    rw [chipPager_tryPage, ih]
    rfl

theorem chipPager_writeRest (buf : Nat → Byte) (x : Cursor) (c : Chip) :
    chipPager.writeRest buf x c = writeRest buf x c := by
  have hlast : ∀ x c, chipPager.writeLast buf x c =
      pageResult (writeEEROMPage buf x.pos x.addr (x.num.setWidth 8) c) := by
    intro x c
    show (if (writeEEROMPage buf x.pos x.addr _ c).1 = true then (pure eepromNoErro : StateM Chip Nat)
      else pure eepromBussErro) (writeEEROMPage buf x.pos x.addr _ c).2 = _
    rcases writeEEROMPage buf x.pos x.addr (x.num.setWidth 8) c with ⟨_ | _, c₁⟩
    · rfl
    · rfl
  show (if (chipPager.writePages buf _ x c).1.num = 0 then (pure eepromNoErro : StateM Chip Nat)
    else chipPager.writeLast buf (chipPager.writePages buf _ x c).1) (chipPager.writePages buf _ x c).2 = _
  rw [chipPager_writePages, writeRest]
  rcases writePages buf _ x c with ⟨x', c'⟩
  by_cases hzero : x'.num = 0
  · simp only [hzero, if_true]
    rfl
  · simp only [hzero, if_false]
    exact hlast x' c'

/-- On the pages of the chip, ticks do not count. -/
theorem chipPager_bufWrite (buf : Nat → Byte) (addr num : Word) (c : Chip) :
    chipPager.i2cEeBufWriteBsp buf addr num c = i2cEeBufWriteBsp buf addr num c := by
  show (if (writeEEROMPage buf 0 addr _ c).1 = true then _ else (pure eepromBussErro : StateM Chip Nat))
    (writeEEROMPage buf 0 addr _ c).2 = _
  rw [i2cEeBufWriteBsp]
  rcases writeEEROMPage buf 0 addr (firstCount addr num) c with ⟨_ | _, c₁⟩
  · rfl
  · show (if _ = _ then _ else chipPager.writeRest buf _) c₁ = _
    by_cases hzero : (Cursor.skip (firstCount addr num).toNat ⟨0, addr, num⟩).num = 0
    · simp only [hzero, if_true]
      rfl
    · simp only [hzero, if_false]
      exact chipPager_writeRest buf _ c₁

theorem walk_chip {buf : Nat → Byte} {addr num : Word} {I : Nat → Chip → Prop} {E : Chip → Prop} (hnum : 0 < num.toNat)
    {c : Chip} (hfirst : Writes I E (firstCount addr num).toNat (writeEEROMPage buf 0 addr (firstCount addr num) c))
    (htries : ∀ {p w c}, I p c → (addr.toNat + p) % i2cEePageSize = 0 → BitVec.toNat w = (addr.toNat + p) % 65536 →
      p + i2cEePageSize ≤ num.toNat → I (p + i2cEePageSize) (tryPage buf p w 10 c))
    (hlast : ∀ {p w m c}, I p c → (addr.toNat + p) % i2cEePageSize = 0 → BitVec.toNat w = (addr.toNat + p) % 65536 →
      0 < BitVec.toNat m → m.toNat < i2cEePageSize → p + m.toNat = num.toNat →
      Writes I E num.toNat (writeEEROMPage buf p w m c)) :
    Ended I E num.toNat (i2cEeBufWriteBsp buf addr num c) := by
  rw [← chipPager_bufWrite]
  refine Walk.bufWrite (J := I) ⟨fun hc ha hw hle => ?_, id, hlast⟩ hnum hfirst
  rw [chipPager_tryPage]
  exact htries hc ha hw hle

end WM.Proof
