import WaterMaker.Proof.Ble.Sync
import WaterMaker.Proof.Slave.Frame

/-!
# Frames over Bluetooth

`operateRxData` trusts the length in the frame: the loop of its checksum comes to an end only up to 251 bytes, and
stays within the 20 bytes of the buffer only up to 15 (`rx_bounded_iff`). A frame that `refreshTxData` makes is within
these bounds, and its block is found again; but the address is put together with `<<` and `+` in the wrong order, so
that it is the block's only if its low byte is 0 (`ble_roundtrip_iff`).
-/

namespace WM.Proof

open WM WM.Impl WM.Spec

/-! ## The checksum -/

variable {data : Nat → Byte}

theorem bind_some {α β : Type} {x : Peek α} {reads reads' : List Nat} {a : α} (h : x reads = some (a, reads'))
    (f : α → Peek β) : (x >>= f) reads = f a reads' := by
  show (x reads).bind (fun r => f r.1 r.2) = _
  rw [h]
  rfl

theorem bind_none {α β : Type} {x : Peek α} {reads : List Nat} (h : x reads = none) (f : α → Peek β) :
    (x >>= f) reads = none := by
  show (x reads).bind (fun r => f r.1 r.2) = _
  rw [h]
  rfl

theorem peek_bind {α : Type} (data : Nat → Byte) (i : Nat) (f : Byte → Peek α) (reads : List Nat) :
    (peek data i >>= f) reads = f (data i) (reads ++ [i]) := rfl

theorem checkSumLoop_succ (data : Nat → Byte) (fuel i : Nat) (checkSum : Byte) (reads : List Nat) :
    checkSumLoop data (fuel + 1) i checkSum reads =
      if i < (data 3).toNat + 4 then
        checkSumLoop data fuel ((i + 1) % 256) (checkSum + data i) (reads ++ [3] ++ [i])
      else some (checkSum, reads ++ [3]) := by
  show (peek data 3 >>= _) reads = _
  rw [peek_bind]
  split <;> rfl

/-- A length that the index cannot reach: the loop does not end. -/
theorem checkSumLoop_none (h : 256 ≤ (data 3).toNat + 4) (fuel : Nat) {i : Nat} (hi : i < 256) (checkSum : Byte)
    (reads : List Nat) : checkSumLoop data fuel i checkSum reads = none := by
  induction fuel generalizing i checkSum reads with
  | zero => rfl
  | succ fuel ih =>
    rw [checkSumLoop_succ, if_pos (by omega)]
    exact ih (Nat.mod_lt _ (by omega)) _ _

/-- Otherwise it ends with the sum of the bytes that are left, and reads these and the length. -/
theorem checkSumLoop_some (h : (data 3).toNat + 4 ≤ 255) (k : Nat) {i fuel : Nat} (hk : i + k = (data 3).toNat + 4)
    (hfuel : k < fuel) (checkSum : Byte) (reads : List Nat) :
    ∃ new, checkSumLoop data fuel i checkSum reads =
        some ((List.range' i k).foldl (fun sum j => sum + data j) checkSum, reads ++ new) ∧
      ∀ j ∈ new, j < (data 3).toNat + 4 := by
  obtain ⟨fuel, rfl⟩ := Nat.exists_eq_add_one.mpr (Nat.zero_lt_of_lt hfuel)
  induction k generalizing i fuel checkSum reads with
  | zero =>
    rw [checkSumLoop_succ, if_neg (by omega)]
    exact ⟨[3], rfl, by simp⟩
  | succ k ih =>
    obtain ⟨fuel, rfl⟩ := Nat.exists_eq_add_one.mpr (show 0 < fuel by omega)
    rw [checkSumLoop_succ, if_pos (by omega), Nat.mod_eq_of_lt (by omega)]
    obtain ⟨new, hsome, hnew⟩ := ih (i := i + 1) (by omega) (checkSum + data i) (reads ++ [3] ++ [i]) fuel (by omega)
    refine ⟨[3, i] ++ new, ?_, ?_⟩
    · rw [hsome, List.range'_succ, List.foldl_cons]
      simp
    · intro j hj
      simp only [List.mem_append, List.mem_cons, List.not_mem_nil, or_false] at hj
      rcases hj with (rfl | rfl) | hj
      · omega
      · omega
      · exact hnew j hj

/-- `getCheckSum` with enough fuel. -/
theorem peekCheckSum_some (data : Nat → Byte) (h : (data 3).toNat + 4 ≤ 255) {fuel : Nat}
    (hfuel : (data 3).toNat + 4 < fuel) :
    ∃ reads, peekCheckSum data fuel [] = some (getCheckSum data, reads) ∧ ∀ j ∈ reads, j < (data 3).toNat + 4 := by
  obtain ⟨new, hsome, hnew⟩ := checkSumLoop_some h _ (Nat.zero_add _) hfuel 0 []
  refine ⟨new, hsome.trans ?_, hnew⟩
  unfold getCheckSum
  rw [List.range_eq_range']
  rfl

theorem peekCheckSum_none (h : 256 ≤ (data 3).toNat + 4) (fuel : Nat) (reads : List Nat) :
    peekCheckSum data fuel reads = none :=
  checkSumLoop_none h fuel (by omega) 0 reads

/-! ## Frames that come in -/

/-- What the switch makes of the bytes. -/
def rxSwitchOf (wide : Nat) (rx : Nat → Byte) : RxCmd :=
  if rx 2 = cmdKey then .key ⟨rx 4, rx 5, rx 6 ^^^ 1⟩
  else if rx 2 = cmdReg then .reg (rxAddress wide (rx 4) (rx 5)) ((List.range 12).map fun k => rx (6 + k))
  else .nothing

/-- What a frame asks for. -/
def rxCmdOf (wide : Nat) (rx : Nat → Byte) : RxCmd :=
  if getCheckSum rx = rx ((rx 3).toNat + 4) then rxSwitchOf wide rx else .nothing

theorem mapM_peek (data : Nat → Byte) (g : Nat → Nat) (ks : List Nat) (reads : List Nat) :
    (ks.mapM fun k => peek data (g k)) reads = some (ks.map fun k => data (g k), reads ++ ks.map g) := by
  induction ks generalizing reads with
  | nil => simp; rfl
  | cons k ks ih =>
    rw [List.mapM_cons, peek_bind, bind_some (ih (reads ++ [g k]))]
    simp
    rfl

theorem rxSwitch_some (wide : Nat) (data : Nat → Byte) (reads : List Nat) :
    ∃ new, rxSwitch wide data reads = some (rxSwitchOf wide data, reads ++ new) ∧ ∀ j ∈ new, j < 18 := by
  unfold rxSwitch rxSwitchOf
  rw [peek_bind]
  split
  · rw [peek_bind, peek_bind, peek_bind]
    exact ⟨[2] ++ [4] ++ [5] ++ [6], by simp; rfl, by decide⟩
  · split
    · rw [peek_bind, peek_bind, bind_some (mapM_peek data (fun k => 6 + k) (List.range 12) _)]
      exact ⟨[2] ++ [4] ++ [5] ++ (List.range 12).map fun k => 6 + k, by simp; rfl, by decide⟩
    · exact ⟨[2], rfl, by decide⟩

/-- `operateRxData` comes to an end up to a length of 251. It then reads the frame with the byte behind the payload, and
perhaps some of the first 18 bytes. -/
theorem rxCommand_some (data : Nat → Byte) (wide : Nat) (h : (data 3).toNat + 4 ≤ 255) {fuel : Nat}
    (hfuel : (data 3).toNat + 4 < fuel) :
    ∃ reads, rxCommand wide data fuel [] = some (rxCmdOf wide data, reads) ∧ (data 3).toNat + 4 ∈ reads ∧
      ∀ j ∈ reads, j ≤ (data 3).toNat + 4 ∨ j < 18 := by
  obtain ⟨sums, hsum, hsums⟩ := peekCheckSum_some data h hfuel
  unfold rxCommand rxCmdOf
  rw [bind_some hsum, peek_bind, peek_bind]
  have hread : ∀ j ∈ sums ++ [3] ++ [(data 3).toNat + 4], j ≤ (data 3).toNat + 4 ∨ j < 18 := by
    intro j hj
    simp only [List.mem_append, List.mem_singleton] at hj
    rcases hj with (hj | rfl) | rfl
    · exact .inl (hsums j hj).le
    · exact .inr (by omega)
    · exact .inl (Nat.le_refl _)
  split
  · obtain ⟨new, hnew, hlt⟩ := rxSwitch_some wide data (sums ++ [3] ++ [(data 3).toNat + 4])
    refine ⟨_, hnew, by simp, fun j hj => ?_⟩
    rcases List.mem_append.mp hj with hj | hj
    · exact hread j hj
    · exact .inr (hlt j hj)
  · exact ⟨_, rfl, by simp, hread⟩

theorem rxCommand_none (wide : Nat) (h : 256 ≤ (data 3).toNat + 4) (fuel : Nat) : rxCommand wide data fuel [] = none :=
  bind_none (peekCheckSum_none h fuel []) _

theorem checkSumLoop_mono {fuel i : Nat} {checkSum : Byte} {reads : List Nat} {r : Byte × List Nat}
    (h : checkSumLoop data fuel i checkSum reads = some r) (k : Nat) :
    checkSumLoop data (fuel + k) i checkSum reads = some r := by
  induction fuel generalizing i checkSum reads with
  | zero => exact nomatch h
  | succ fuel ih =>
    rw [Nat.add_right_comm, checkSumLoop_succ]
    rw [checkSumLoop_succ] at h
    by_cases hi : i < (data 3).toNat + 4
    · rw [if_pos hi] at *
      exact ih h
    · rw [if_neg hi] at *
      exact h

/-- Whenever `operateRxData` comes to an end, it is with this command, and the byte behind the payload was read. -/
theorem rxCommand_eq {wide fuel : Nat} {c : RxCmd} {reads : List Nat}
    (h : rxCommand wide data fuel [] = some (c, reads)) :
    (data 3).toNat + 4 ≤ 255 ∧ c = rxCmdOf wide data ∧ (data 3).toNat + 4 ∈ reads := by
  have hlen : (data 3).toNat + 4 ≤ 255 := by
    by_contra hlen
    rw [rxCommand_none wide (by omega)] at h
    exact nomatch h
  have hmore : rxCommand wide data (fuel + 256) [] = some (c, reads) := by
    cases hsum : peekCheckSum data fuel [] with
    | none =>
      rw [show rxCommand wide data fuel [] = none from bind_none hsum _] at h
      exact nomatch h
    | some r =>
      have hsame : peekCheckSum data (fuel + 256) [] = some r := checkSumLoop_mono hsum 256
      unfold rxCommand at *
      rw [bind_some hsum] at h
      rw [bind_some hsame]
      exact h
  obtain ⟨reads', hsome, hmem, -⟩ := rxCommand_some data wide hlen (show _ < fuel + 256 by omega)
  rw [hmore] at hsome
  obtain ⟨rfl, rfl⟩ := Prod.mk.inj (Option.some.inj hsome)
  exact ⟨hlen, rfl, hmem⟩

theorem toNat_getCheckSum (data : Nat → Byte) : (getCheckSum data).toNat =
    ((List.range ((data 3).toNat + 4)).map fun j => (data j).toNat).sum % 256 := by
  have hfold := toNat_foldl_add ((List.range ((data 3).toNat + 4)).map data) 0
  rw [List.foldl_map, List.map_map] at hfold
  exact hfold.trans (by simp [Function.comp_def])

/-- For every content of the buffer, and of the memory behind it: `operateRxData` comes to an end and stays within the
20 bytes exactly if the length in the frame is at most 15; and it acts on a frame only if the byte behind the payload
is the sum of those before. -/
theorem rx_bounded_iff (wide : Nat) (mem : Nat → Byte) :
    ((∃ fuel c reads, rxCommand wide mem fuel [] = some (c, reads) ∧ ∀ j ∈ reads, j < 20) ↔ (mem 3).toNat ≤ 15) ∧
    ∀ fuel c reads, rxCommand wide mem fuel [] = some (c, reads) → c ≠ .nothing →
      (mem ((mem 3).toNat + 4)).toNat = ((List.range ((mem 3).toNat + 4)).map fun j => (mem j).toNat).sum % 256 := by
  refine ⟨⟨fun ⟨fuel, c, reads, hsome, hin⟩ => ?_, fun hlen => ?_⟩, fun fuel c reads hsome hc => ?_⟩
  · have := hin _ (rxCommand_eq hsome).2.2
    omega
  · obtain ⟨reads, hsome, -, hin⟩ := rxCommand_some mem wide (by omega) (Nat.lt_succ_self _)
    exact ⟨_, _, reads, hsome, fun j hj => by have := hin j hj; omega⟩
  · obtain ⟨-, hcmd, -⟩ := rxCommand_eq hsome
    rw [← toNat_getCheckSum]
    by_contra hne
    refine hc (hcmd.trans ?_)
    unfold rxCmdOf
    exact if_neg fun hsum => hne (congrArg BitVec.toNat hsum.symm)

/-- A frame for the keys with the length `len` and the sum `sum` at index `last`. -/
def keyFrame (len : Byte) (last : Nat) (sum : Byte) : Nat → Byte :=
  Function.update (blit (fun _ => 0) 0 [0xFF, 0xA5, cmdKey, len, 0x01]) last sum

/-- A frame with three bytes: the first key is pressed. -/
theorem rx_bounded_iff_key :
    (∃ fuel c reads, rxCommand 0 (keyFrame 3 7 0xA9) fuel [] = some (c, reads) ∧ ∀ j ∈ reads, j < 20) ∧
    rxCmdOf 0 (keyFrame 3 7 0xA9) = .key ⟨1, 0, 1⟩ ∧
    (keyFrame 3 7 0xA9 7).toNat = ((List.range 7).map fun j => (keyFrame 3 7 0xA9 j).toNat).sum % 256 := by
  obtain ⟨hiff, hsum⟩ := rx_bounded_iff 0 (keyFrame 3 7 0xA9)
  obtain ⟨reads, hsome, -⟩ := rxCommand_some (keyFrame 3 7 0xA9) 0 (by decide) (show _ < 8 by decide)
  exact ⟨hiff.mpr (by decide), by decide, hsum 8 _ reads hsome (by decide)⟩

/-- With a length of 252 the checksum is never done; with one of 16 the byte behind the buffer is taken for the sum, and
the key is accepted if it happens to be right. -/
theorem rx_out_of_bounds : (∀ fuel, rxCommand 0 (keyFrame 252 19 0) fuel [] = none) ∧
    ∃ reads, rxCommand 0 (keyFrame 16 20 0xB6) 21 [] = some (.key ⟨1, 0, 1⟩, reads) ∧ 20 ∈ reads := by
  refine ⟨rxCommand_none 0 (by decide), ?_⟩
  obtain ⟨reads, hsome, hmem, -⟩ := rxCommand_some (keyFrame 16 20 0xB6) 0 (by decide) (show _ < 21 by decide)
  rw [show rxCmdOf 0 (keyFrame 16 20 0xB6) = .key ⟨1, 0, 1⟩ by decide] at hsome
  exact ⟨reads, hsome, hmem⟩

/-! ## Frames that go out -/

theorem getCheckSum_congr {data data' : Nat → Byte} (hlen : data' 3 = data 3)
    (h : ∀ j < (data 3).toNat + 4, data' j = data j) : getCheckSum data' = getCheckSum data := by
  unfold getCheckSum
  rw [hlen]
  exact List.foldl_ext _ _ _ fun sum j hj => by rw [h j (List.mem_range.mp hj)]

/-- The address is the one that was meant, whatever an open shift gives, exactly if its low byte is 0. -/
theorem rxAddress_iff (hi lo : Byte) : (∀ wide, rxAddress wide hi lo = 256 * hi.toNat + lo.toNat) ↔ lo = 0 := by
  have hhi := hi.isLt
  have hlo := lo.isLt
  have hpow : hi.toNat * 2 ^ (8 + lo.toNat) = 256 * (hi.toNat * 2 ^ lo.toNat) := by rw [Nat.pow_add, Nat.mul_left_comm]
  unfold rxAddress
  dsimp only
  rw [hpow]
  refine ⟨fun h => ?_, fun hzero wide => ?_⟩
  · have hnot := h (256 * hi.toNat + lo.toNat + 1)
    -- the low byte of what is shifted is 0
    have hmod : lo.toNat = 0 := by split at hnot <;> omega
    exact BitVec.eq_of_toNat_eq hmod
  · rw [hzero, show (0 : Byte).toNat = 0 from rfl, Nat.pow_zero, if_pos (by omega)]
    omega

/-- If an open shift gives 0, the address is that of `bleSetting`. -/
theorem rxAddress_zero (hi lo : Byte) : rxAddress 0 hi lo = hi.toNat * 2 ^ (8 + lo.toNat) % 65536 := by
  have hhi := hi.isLt
  unfold rxAddress
  dsimp only
  split
  · rfl
  · rename_i hwide
    -- the shift is by 16 or more: a shorter one is not open
    have hfar : 16 ≤ 8 + lo.toNat := by
      by_contra hnear
      have hle : hi.toNat * 2 ^ (8 + lo.toNat) ≤ 255 * 2 ^ 15 :=
        Nat.mul_le_mul (by omega) (Nat.pow_le_pow_right (by omega) (by omega))
      omega
    obtain ⟨k, hk⟩ := Nat.exists_eq_add_of_le hfar
    rw [hk, Nat.pow_add, Nat.mul_left_comm, Nat.mul_mod_right]

/-- What is done with a frame is what `operateRxData` does with it, byte by byte. -/
theorem carryOut_rxCommand {null : NullStore} {rx : Nat → Byte} {fuel : Nat} {c : RxCmd} {reads : List Nat}
    (h : rxCommand 0 rx fuel [] = some (c, reads)) (b : Ble) (d : Dev) :
    (carryOut null c b d).map Prod.snd = operateRxData null rx d := by
  obtain ⟨hlen, rfl, -⟩ := rxCommand_eq h
  unfold operateRxData bleSetting rxCmdOf
  rw [if_neg (show ¬(rx 3).toNat + 4 ≥ 256 by omega)]
  by_cases hsum : getCheckSum rx = rx ((rx 3).toNat + 4)
  · rw [if_pos hsum, if_neg (not_not.mpr hsum)]
    unfold rxSwitchOf
    by_cases hkey : rx 2 = cmdKey
    · rw [if_pos hkey, if_neg (by rw [hkey]; decide)]
      rfl
    · rw [if_neg hkey]
      by_cases hreg : rx 2 = cmdReg
      · rw [if_pos hreg, if_pos (by exact hreg), rxAddress_zero]
        show (applySetting null _ d >>= fun d' => Except.ok (b, d')).map Prod.snd = applySetting null _ d
        cases applySetting null ⟨_, 6, _⟩ d <;> rfl
      · rw [if_neg hreg, if_neg (by exact hreg)]
        rfl
  · rw [if_neg hsum, if_pos hsum]
    rfl

/-- A frame for a block of registers, up to its checksum. -/
theorem txFrame_reg {row : BleRow} (hrow : row.data.length = 12) (tx : Nat → Byte) :
    let f := txFrame cmdReg 14 (row.addrHi :: row.addrLo :: row.data) tx
    f 2 = cmdReg ∧ f 3 = 14 ∧ f 4 = row.addrHi ∧ f 5 = row.addrLo ∧
      (List.range 12).map (fun k => f (6 + k)) = row.data := by
  refine ⟨rfl, rfl, rfl, rfl, ?_⟩
  refine List.ext_getElem (by simp [hrow]) fun k hk hk' => ?_
  have hlt : 6 + k < ([0xFF, 0xA5, cmdReg, 14] ++ row.addrHi :: row.addrLo :: row.data).length := by simp; omega
  have hat := blit_at tx 0 hlt
  rw [List.getElem_map, List.getElem_range]
  unfold txFrame
  rw [← Nat.zero_add (6 + k), hat]
  simp [Nat.add_comm 6 k]

/-- A frame with its checksum behind it asks for what its bytes say. -/
theorem rxCommand_sealed {f : Nat → Byte} (h2 : f 2 = cmdReg) (h3 : f 3 = 14) (wide : Nat) : ∃ reads,
    rxCommand wide (Function.update f 18 (getCheckSum f)) 19 [] =
      some (.reg (rxAddress wide (f 4) (f 5)) ((List.range 12).map fun k => f (6 + k)), reads) := by
  obtain ⟨g, hg⟩ : ∃ g, g = Function.update f 18 (getCheckSum f) := ⟨_, rfl⟩
  have hsame : ∀ j < 18, g j = f j := fun j hj => by rw [hg, Function.update_of_ne (by omega)]
  have hlen : (g 3).toNat + 4 = 18 := by rw [hsame 3 (by omega), h3]; rfl
  have hlast : g 18 = getCheckSum f := by rw [hg, Function.update_self]
  have hsum : getCheckSum g = getCheckSum f := by
    refine getCheckSum_congr (hsame 3 (by omega)) fun j hj => hsame j ?_
    rwa [h3] at hj
  have hvalues : ((List.range 12).map fun k => g (6 + k)) = (List.range 12).map fun k => f (6 + k) :=
    List.map_congr_left fun k hk => hsame _ (by have := List.mem_range.mp hk; omega)
  obtain ⟨reads, hsome, -⟩ := rxCommand_some g wide (by omega) (show _ < 19 by omega)
  rw [← hg]
  refine ⟨reads, hsome.trans ?_⟩
  unfold rxCmdOf rxSwitchOf
  rw [hlen, hlast, if_pos hsum, hsame 2 (by omega), h2, if_neg (by decide), if_pos rfl, hsame 4 (by omega),
    hsame 5 (by omega), hvalues]

/-- The frame that `refreshTxData` makes of a row. -/
theorem refreshTxData_row {d : Dev} {b : Ble} {row : BleRow} {m : RegCache} (hon : b.bleOn = true)
    (hget : getRegData d b.regMap = (some row, m)) {f : Nat → Byte}
    (hf : f = txFrame cmdReg 14 (row.addrHi :: row.addrLo :: row.data) b.txBuffer) :
    refreshTxData d 19 b = some { b with txBuffer := Function.update f 18 (getCheckSum f), regMap := m } := by
  have hlen : (f 3).toNat + 4 = 18 := by
    rw [hf]
    rfl
  obtain ⟨reads, hsum, -⟩ := peekCheckSum_some f (by omega) (show _ < 19 by omega)
  unfold refreshTxData
  rw [if_pos hon, hget]
  dsimp only
  rw [← hf, hsum, ← hlen]
  rfl

/-- What comes of the frame that `refreshTxData` makes of a row. -/
theorem refreshTxData_reg {d : Dev} {b : Ble} {row : BleRow} (hon : b.bleOn = true)
    (hget : (getRegData d b.regMap).1 = some row) (hrow : row.data.length = 12) :
    ∃ b', refreshTxData d 19 b = some b' ∧ ∀ wide, ∃ reads,
      rxCommand wide b'.txBuffer 19 [] = some (.reg (rxAddress wide row.addrHi row.addrLo) row.data, reads) := by
  obtain ⟨f, hf⟩ : ∃ f, f = txFrame cmdReg 14 (row.addrHi :: row.addrLo :: row.data) b.txBuffer := ⟨_, rfl⟩
  obtain ⟨h2, h3, h4, h5, hdata⟩ := txFrame_reg hrow b.txBuffer
  rw [← hf] at h2 h3 h4 h5 hdata
  obtain ⟨m, hm⟩ : ∃ m, getRegData d b.regMap = (some row, m) := ⟨_, Prod.ext hget rfl⟩
  refine ⟨_, refreshTxData_row hon hm hf, fun wide => ?_⟩
  obtain ⟨reads, hsome⟩ := rxCommand_sealed h2 h3 wide
  rw [h4, h5, hdata] at hsome
  exact ⟨reads, hsome⟩

/-- The blocks of the parameters have an address below 256, whose low byte shifts everything out. -/
theorem rxAddress_para (d : Dev) {i : Fin 30} (hi : i.val < 22) (wide : Nat) :
    rxAddress wide (freshRow d i).addrHi (freshRow d i).addrLo = wide % 65536 := by
  have haddr : blockAddress i = i.val * 6 + 64 := if_pos hi
  have hlo : (BitVec.ofNat 8 (blockAddress i % 256)).toNat = i.val * 6 + 64 := by
    rw [haddr, BitVec.toNat_ofNat]
    omega
  show rxAddress wide _ (BitVec.ofNat 8 (blockAddress i % 256)) = _
  unfold rxAddress
  rw [hlo]
  exact congrArg (· % 65536) (if_neg fun h => by omega)

/-- For all registers and every `regMap`: the frame that `refreshTxData` makes of the block that `getRegData` chooses is
taken by `operateRxData` for one write of six registers, with the block's values; every frame with the right checksum
and `CMD_REG` is a write of its twelve bytes. The address of the write is the one in the frame exactly if its low byte
is 0; for a block of the parameters it is open. -/
theorem ble_roundtrip_iff (d : Dev) (b : Ble) (rx : Nat → Byte) :
    (∀ i : Fin 30, b.bleOn = true → (getRegData d b.regMap).1 = some (freshRow d i) →
      ∃ b', refreshTxData d 19 b = some b' ∧ ∀ wide, ∃ reads, rxCommand wide b'.txBuffer 19 [] =
        some (.reg (rxAddress wide (freshRow d i).addrHi (freshRow d i).addrLo)
          (readRegs d (blockAddress i) 6), reads)) ∧
    ((rx 3).toNat ≤ 251 → getCheckSum rx = rx ((rx 3).toNat + 4) → rx 2 = cmdReg →
      ∀ wide, ∃ reads, rxCommand wide rx 256 [] =
        some (.reg (rxAddress wide (rx 4) (rx 5)) ((List.range 12).map fun k => rx (6 + k)), reads)) ∧
    ((∀ wide, rxAddress wide (rx 4) (rx 5) = 256 * (rx 4).toNat + (rx 5).toNat) ↔ rx 5 = 0) ∧
    ∀ i : Fin 30, i.val < 22 → ∀ wide,
      rxAddress wide (freshRow d i).addrHi (freshRow d i).addrLo = wide % 65536 := by
  refine ⟨fun i hon hget => ?_, fun hlen hsum hcmd wide => ?_, rxAddress_iff _ _, fun i hi => rxAddress_para d hi⟩
  · exact refreshTxData_reg hon hget (length_readRegs ..)
  · obtain ⟨reads, hsome, -⟩ := rxCommand_some rx wide (by omega) (show _ < 256 by omega)
    refine ⟨reads, hsome.trans ?_⟩
    rw [rxCmdOf, if_pos hsum, rxSwitchOf, hcmd, if_neg (by decide), if_pos rfl]

/-- A connection that has just been made. -/
def freshBle : Ble where
  txBuffer := fun _ => 0
  keyState := ⟨0, 0, 1⟩
  keyTrg := ⟨0, 0, 1⟩
  kCount := ⟨0, 0, 1⟩
  ledState := fun _ => 0
  regMap := emptyCache

/-- A frame that writes zeros at the address `hi`, `lo`. -/
def regFrame (hi lo sum : Byte) : Nat → Byte :=
  blit (fun _ => 0) 0 ([0xFF, 0xA5, cmdReg, 14, hi, lo] ++ List.replicate 12 0 ++ [sum])

/-- The first block of a new machine, and a write at 512. -/
theorem ble_roundtrip_iff_fresh :
    (∃ b', refreshTxData freshDev 19 freshBle = some b' ∧ ∀ wide, ∃ reads, rxCommand wide b'.txBuffer 19 [] =
      some (.reg (wide % 65536) [0, 0, 0, 0, 0, 1, 0, 1, 0, 0, 0, 0], reads)) ∧
    ∀ wide, ∃ reads, rxCommand wide (regFrame 2 0 0xB7) 256 [] = some (.reg 512 (List.replicate 12 0), reads) := by
  obtain ⟨hblock, hframe, hlow, hpara⟩ := ble_roundtrip_iff freshDev freshBle (regFrame 2 0 0xB7)
  refine ⟨?_, fun wide => ?_⟩
  · obtain ⟨b', hb', hrx⟩ := hblock 0 (by decide) (by decide +kernel)
    refine ⟨b', hb', fun wide => ?_⟩
    rw [← hpara 0 (by decide) wide]
    exact hrx wide
  · obtain ⟨reads, hrx⟩ := hframe (by decide) (by decide) (by decide) wide
    refine ⟨reads, hrx.trans ?_⟩
    rw [hlow.mpr rfl wide]
    rfl

/-- On a controller where a shift by 72 gives 0, the first block of a new machine, which is at 64, comes back as a
write at 0; a frame for 513 is a write at 1024 on every controller. -/
theorem ble_address_lost :
    (∃ b' reads, refreshTxData freshDev 19 freshBle = some b' ∧ b'.txBuffer 4 = 0 ∧ b'.txBuffer 5 = 64 ∧
      blockAddress 0 = 64 ∧
      rxCommand 0 b'.txBuffer 19 [] = some (.reg 0 [0, 0, 0, 0, 0, 1, 0, 1, 0, 0, 0, 0], reads)) ∧
    getCheckSum (regFrame 2 1 0xB8) = regFrame 2 1 0xB8 18 ∧
    ∀ wide, ∃ reads, rxCommand wide (regFrame 2 1 0xB8) 256 [] = some (.reg 1024 (List.replicate 12 0), reads) := by
  have hget : (getRegData freshDev freshBle.regMap).1 = some (freshRow freshDev 0) := by decide +kernel
  refine ⟨?_, by decide, fun wide => ?_⟩
  · obtain ⟨b', hb', hrx⟩ := refreshTxData_reg (d := freshDev) (b := freshBle) (by decide) hget (by decide +kernel)
    obtain ⟨reads, hrx⟩ := hrx 0
    have hbytes : ((refreshTxData freshDev 19 freshBle).map fun b => (b.txBuffer 4, b.txBuffer 5)) = some (0, 64) := by
      decide +kernel
    rw [hb'] at hbytes
    obtain ⟨h4, h5⟩ := Prod.mk.inj (Option.some.inj hbytes)
    exact ⟨b', reads, hb', h4, h5, rfl, hrx⟩
  · obtain ⟨reads, hsome, -⟩ := rxCommand_some (regFrame 2 1 0xB8) wide (by decide) (show _ < 256 by decide)
    exact ⟨reads, hsome⟩

end WM.Proof
