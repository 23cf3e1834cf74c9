import Mathlib.Data.List.TakeWhile
import WaterMaker.Proof.Ble.Frame

/-!
# What a new connection gets

A connection begins with an empty `regMap`, so the frames of the rounds that follow hold the blocks that are not empty
themselves, in their order and as long as the connection lasts (`untilLed_frames`). The peer gets the whole image
exactly if no block of registers is all zeros (`ble_image_iff`).
-/

namespace WM.Proof

open WM WM.Impl WM.Spec

/-! ## Frames -/

/-- The bytes of a frame with its checksum behind it. -/
theorem frame_sealed (xs : List Byte) (tx : Nat → Byte) {b : Ble} (hlen : (xs.getD 3 0).toNat + 4 = xs.length)
    (hb : b.txBuffer = Function.update (blit tx 0 xs) xs.length (getCheckSum (blit tx 0 xs))) :
    b.frame = xs ++ [xs.foldl (· + ·) 0] := by
  obtain ⟨f, hf⟩ : ∃ f, f = blit tx 0 xs := ⟨_, rfl⟩
  rw [← hf] at hb
  have hbytes : (List.range xs.length).map f = xs := by
    refine List.ext_getElem (by rw [List.length_map, List.length_range]) fun k hk hk' => ?_
    have hat := blit_at tx 0 hk'
    rw [Nat.zero_add] at hat
    rw [List.getElem_map, List.getElem_range, hf, hat]
  have h3 : f 3 = xs.getD 3 0 := by
    have hat := blit_at tx 0 (show 3 < xs.length by omega)
    rw [Nat.zero_add] at hat
    rw [hf, hat, List.getD_eq_getElem _ _ (by omega)]
  have hsum : getCheckSum f = xs.foldl (· + ·) 0 := by
    unfold getCheckSum
    rw [h3, hlen]
    conv_rhs => rw [← hbytes, List.foldl_map]
  have hlen' : (b.txBuffer 3).toNat + 5 = xs.length + 1 := by
    rw [hb, Function.update_of_ne (by omega), h3]
    omega
  unfold Ble.frame
  rw [hlen', List.range_succ, List.map_append, List.map_singleton, hb, Function.update_self, hsum]
  congr 1
  conv_rhs => rw [← hbytes]
  exact List.map_congr_left fun k hk => Function.update_of_ne (Nat.ne_of_lt (List.mem_range.mp hk)) ..

theorem refreshTxData_block {d : Dev} {b : Ble} {i : Fin 30} {m : RegCache} (hon : b.bleOn = true)
    (hget : getRegData d b.regMap = (some (freshRow d i), m)) :
    ∃ b', refreshTxData d 19 b = some b' ∧ b'.frame = blockFrame d i ∧ b'.regMap = m ∧ b'.keyState = b.keyState ∧
      b'.kCount = b.kCount := by
  refine ⟨_, refreshTxData_row hon hget rfl, ?_, rfl, rfl, rfl⟩
  have hlen : (readRegs d (blockAddress i) 6).length = 12 := length_readRegs ..
  refine frame_sealed ([0xFF, 0xA5, cmdReg, 14, _, _] ++ readRegs d (blockAddress i) 6) b.txBuffer ?_ ?_
  · rw [List.length_append, hlen]
    rfl
  · rw [List.length_append, hlen]
    rfl

theorem refreshTxData_led {d : Dev} {b : Ble} (h : b.bleOn = true → (getRegData d b.regMap).1 = none) :
    ∃ b', refreshTxData d 19 b = some b' ∧ IsLed b'.frame := by
  obtain ⟨m, hget⟩ : ∃ m, (if b.bleOn then getRegData d b.regMap else (none, b.regMap)) = (none, m) := by
    by_cases hon : b.bleOn = true
    · exact ⟨_, (if_pos hon).trans (Prod.ext (h hon) rfl)⟩
    · exact ⟨_, if_neg hon⟩
  obtain ⟨f, hf⟩ : ∃ f, f = txFrame cmdLed 5 (List.ofFn b.ledState) b.txBuffer := ⟨_, rfl⟩
  have hlen : (f 3).toNat + 4 = 9 := by
    rw [hf]
    rfl
  obtain ⟨reads, hsum, -⟩ := peekCheckSum_some f (by omega) (show _ < 19 by omega)
  refine ⟨{ b with txBuffer := Function.update f 9 (getCheckSum f), regMap := m }, ?_, ?_⟩
  · unfold refreshTxData
    rw [hget]
    dsimp only
    rw [← hf, hsum, ← hlen]
    rfl
  · rw [hf]
    rfl

/-- A frame is always made. -/
theorem refreshTxData_some (d : Dev) (b : Ble) : ∃ b', refreshTxData d 19 b = some b' := by
  by_cases h : b.bleOn = true → (getRegData d b.regMap).1 = none
  · obtain ⟨b', hb', -⟩ := refreshTxData_led h
    exact ⟨b', hb'⟩
  · obtain ⟨hon, hsome⟩ := Classical.not_imp.mp h
    obtain ⟨row, hrow⟩ := Option.ne_none_iff_exists'.mp hsome
    exact ⟨_, refreshTxData_row hon (Prod.ext hrow rfl) rfl⟩

/-! ## Rounds -/

theorem i2cThreadEntry_cons {d : Dev} {b b' : Ble} (h : refreshTxData d 19 b = some b') (keys : Option KeyBytes)
    (rounds : List (Dev × Option KeyBytes)) :
    i2cThreadEntry 19 b ((d, keys) :: rounds) =
      (i2cThreadEntry 19 (b'.takeKeys keys) rounds).map (b'.frame :: ·) := by
  show (refreshTxData d 19 b >>= _) = _
  rw [h]
  show (i2cThreadEntry 19 _ rounds >>= _) = _
  cases i2cThreadEntry 19 (b'.takeKeys keys) rounds <;> rfl

/-- Every round makes a frame. -/
theorem i2cThreadEntry_some (b : Ble) (rounds : List (Dev × Option KeyBytes)) :
    ∃ frames, i2cThreadEntry 19 b rounds = some frames ∧ frames.length = rounds.length := by
  induction rounds generalizing b with
  | nil => exact ⟨[], rfl, rfl⟩
  | cons r rounds ih =>
    obtain ⟨b', hb'⟩ := refreshTxData_some r.1 b
    obtain ⟨frames, hframes, hlen⟩ := ih (b'.takeKeys r.2)
    refine ⟨b'.frame :: frames, ?_, congrArg (· + 1) hlen⟩
    rw [i2cThreadEntry_cons hb', hframes]
    rfl

/-- The frames depend on the registers of the blocks only. -/
theorem refreshTxData_congr {d d' : Dev} (h : ∀ i, blockTemp d' i = blockTemp d i) (fuel : Nat) (b : Ble) :
    refreshTxData d' fuel b = refreshTxData d fuel b := by
  have hget (is : List (Fin 30)) (m : RegCache) : getRegDataFrom d' is m = getRegDataFrom d is m := by
    induction is with
    | nil => rfl
    | cons i is ih =>
      unfold getRegDataFrom
      rw [h, ih]
  unfold refreshTxData getRegData
  rw [hget]

/-- As long as the registers stay as they are it does not matter what else happens to the device. -/
theorem i2cThreadEntry_congr {d : Dev} (fuel : Nat) (b : Ble) {rounds : List (Dev × Option KeyBytes)}
    (h : ∀ r ∈ rounds, ∀ i, blockTemp r.1 i = blockTemp d i) :
    i2cThreadEntry fuel b rounds = i2cThreadEntry fuel b ((rounds.map Prod.snd).map fun keys => (d, keys)) := by
  induction rounds generalizing b with
  | nil => rfl
  | cons r rounds ih =>
    rw [List.forall_mem_cons] at h
    show (refreshTxData r.1 fuel b >>= _) = (refreshTxData d fuel b >>= _)
    rw [refreshTxData_congr h.1]
    congr 1
    funext b'
    show (i2cThreadEntry fuel _ rounds >>= _) = (i2cThreadEntry fuel _ _ >>= _)
    rw [ih _ h.2]

/-- There is a connection, and the blocks `is` are still to be sent. -/
structure Connected (d : Dev) (is : List (Fin 30)) (b : Ble) : Prop where
  on : b.bleOn = true
  seen : b.kCount.ble.getLsbD 0 = true
  left : Sync.pending (List.finRange 30) (Stale d) b.regMap = is

section connected

variable {d : Dev} {b : Ble} {i : Fin 30} {is : List (Fin 30)}

/-- Keys that do not end the connection do not begin another. -/
theorem connected_takeKeys (h : Connected d is b) {keys : Option KeyBytes} (hon : StaysOn keys) :
    Connected d is (b.takeKeys keys) := by
  cases keys with
  | none => exact h
  | some k =>
    have hk : k.ble.getLsbD 0 = true := hon k rfl
    have htrg : ¬(k.ble &&& (k.ble ^^^ b.kCount.ble)).getLsbD 0 = true := by
      rw [BitVec.getLsbD_and, BitVec.getLsbD_xor, hk, h.seen]
      decide
    have hkeys : b.takeKeys (some k) = { b with
        keyState := k
        keyTrg := ⟨k.key &&& (k.key ^^^ b.kCount.key), k.restain &&& (k.restain ^^^ b.kCount.restain),
          k.ble &&& (k.ble ^^^ b.kCount.ble)⟩
        kCount := k } := if_neg htrg
    rw [hkeys]
    exact ⟨hk, hk, h.left⟩

theorem bleOn_takeKeys {k : KeyBytes} : (b.takeKeys (some k)).bleOn = k.ble.getLsbD 0 := by
  show (keyRecOperation { b with keyState := k }).bleOn = _
  unfold keyRecOperation
  dsimp only
  split <;> rfl

/-- The next block is sent. -/
theorem connected_round (h : Connected d (i :: is) b) :
    ∃ b', refreshTxData d 19 b = some b' ∧ b'.frame = blockFrame d i ∧ Connected d is b' := by
  have hfresh : ∀ i, ¬Stale d i (freshRow d i) := fun i => not_not.mpr rfl
  obtain ⟨hnext, hleft⟩ := Sync.next_of_pending_cons hfresh (List.nodup_finRange 30) h.left
  have hget := getRegData_eq d b.regMap
  rw [hnext] at hget
  obtain ⟨b', hb', hframe, hmap, hkeys, hcount⟩ := refreshTxData_block h.on hget
  refine ⟨b', hb', hframe, ?_, ?_, ?_⟩
  · rw [Ble.bleOn, hkeys]
    exact h.on
  · rw [hcount]
    exact h.seen
  · rw [hmap]
    exact hleft

/-- When there is no block left the lamps are sent. -/
theorem connected_done (h : Connected d [] b) : ∃ b', refreshTxData d 19 b = some b' ∧ IsLed b'.frame := by
  refine refreshTxData_led fun _ => ?_
  rw [getRegData_eq, Sync.next_of_pending_nil h.left]
  rfl

end connected

theorem untilLed_block (d : Dev) (i : Fin 30) (frames : List (List Byte)) :
    untilLed (blockFrame d i :: frames) = blockFrame d i :: untilLed frames := List.takeWhile_cons_of_pos (by rfl)

theorem untilLed_led {f : List Byte} (h : IsLed f) (frames : List (List Byte)) : untilLed (f :: frames) = [] :=
  List.takeWhile_cons_of_neg (by simpa using h)

/-- Without a connection the lamps are sent. -/
theorem untilLed_off {b : Ble} (hoff : b.bleOn = false) {rounds : List (Dev × Option KeyBytes)}
    {frames : List (List Byte)} (h : i2cThreadEntry 19 b rounds = some frames) : untilLed frames = [] := by
  cases rounds with
  | nil =>
    obtain rfl := Option.some.inj h
    rfl
  | cons r rounds =>
    obtain ⟨b', hb', hled⟩ := refreshTxData_led (d := r.1) (b := b) fun hon => by simp [hoff] at hon
    rw [i2cThreadEntry_cons hb'] at h
    obtain ⟨rest, -, rfl⟩ := Option.map_eq_some_iff.mp h
    exact untilLed_led hled _

/-- The frames of a connection: the blocks that are left, as long as it lasts. -/
theorem untilLed_frames {d : Dev} (ks : List (Option KeyBytes)) {b : Ble} {is : List (Fin 30)}
    (h : Connected d is b) {frames : List (List Byte)}
    (hframes : i2cThreadEntry 19 b (ks.map fun keys => (d, keys)) = some frames) :
    untilLed frames = (is.map (blockFrame d)).take (min ks.length ((ks.takeWhile fun k => StaysOn k).length + 1)) := by
  induction ks generalizing b is frames with
  | nil =>
    obtain rfl := Option.some.inj hframes
    rw [List.length_nil, Nat.zero_min, List.take_zero]
    rfl
  | cons k ks ih =>
    cases is with
    | nil =>
      obtain ⟨b', hb', hled⟩ := connected_done h
      rw [List.map_cons, i2cThreadEntry_cons hb'] at hframes
      obtain ⟨rest, -, rfl⟩ := Option.map_eq_some_iff.mp hframes
      rw [untilLed_led hled, List.map_nil, List.take_nil]
    | cons i is =>
      obtain ⟨b', hb', hframe, hleft⟩ := connected_round h
      rw [List.map_cons, i2cThreadEntry_cons hb'] at hframes
      obtain ⟨rest, hrest, rfl⟩ := Option.map_eq_some_iff.mp hframes
      rw [hframe, untilLed_block, List.map_cons]
      by_cases hon : StaysOn k
      · rw [ih (connected_takeKeys hleft hon) hrest, List.takeWhile_cons_of_pos (by simpa using hon), List.length_cons,
          List.length_cons, Nat.add_min_add_right, List.take_succ_cons]
      · obtain ⟨key, rfl, hoff⟩ : ∃ key, k = some key ∧ key.ble.getLsbD 0 = false := by
          unfold StaysOn at hon
          push Not at hon
          obtain ⟨key, hkey, hbit⟩ := hon
          exact ⟨key, hkey, by simpa using hbit⟩
        rw [untilLed_off (bleOn_takeKeys.trans hoff) hrest, List.takeWhile_cons_of_neg (by simpa using hon),
          List.length_nil, List.length_cons, Nat.zero_add, Nat.min_eq_right (by omega)]
        rfl

/-! ## The image -/

theorem frameAddress_blockFrame (d : Dev) (i : Fin 30) : frameAddress (blockFrame d i) = blockAddress i :=
  address_freshRow d i

theorem blockAddress_inj {i j : Fin 30} (h : blockAddress i = blockAddress j) : i = j := by
  have hi := i.isLt
  have hj := j.isLt
  unfold blockAddress at h
  refine Fin.ext ?_
  split at h <;> split at h <;> omega

/-- Frames of different blocks are the whole image exactly if they are of all blocks. -/
theorem fullImage_iff (d : Dev) {is : List (Fin 30)} (h : is.Nodup) :
    FullImage d (is.map (blockFrame d)) ↔ ∀ i, i ∈ is := by
  have hfilter (i : Fin 30) : (is.map (blockFrame d)).filter (fun f => frameAddress f = blockAddress i) =
      (is.filter (· = i)).map (blockFrame d) := by
    rw [List.filter_map]
    congr 1
    refine List.filter_congr fun j _ => ?_
    simp only [Function.comp_apply, frameAddress_blockFrame, decide_eq_decide]
    exact ⟨blockAddress_inj, congrArg _⟩
  refine forall_congr' fun i => ?_
  rw [hfilter]
  constructor
  · intro hone
    by_contra hnot
    have hnone : is.filter (· = i) = [] := List.filter_eq_nil_iff.mpr fun j hj => by
      simpa using ne_of_mem_of_not_mem hj hnot
    rw [hnone] at hone
    exact List.cons_ne_nil _ _ hone.symm
  · intro hmem
    have hone : is.filter (· = i) = [i] := by
      rw [List.filter_eq i, List.count_eq_one_of_mem h hmem]
      rfl
    rw [hone, List.map_singleton]

/-- All blocks are among the first `n` that are left exactly if they are all left and there are at most `n`. -/
theorem forall_mem_take_iff {is : List (Fin 30)} (h : is.Nodup) (n : Nat) :
    (∀ i, i ∈ is.take n) ↔ (∀ i, i ∈ is) ∧ 30 ≤ n := by
  have hcard {js : List (Fin 30)} (hjs : js.Nodup) (hall : ∀ i, i ∈ js) : js.length = 30 := by
    rw [← List.toFinset_card_of_nodup hjs, Finset.eq_univ_of_forall fun i => List.mem_toFinset.mpr (hall i)]
    exact Fintype.card_fin 30
  constructor
  · intro hall
    have hlen := hcard (h.sublist (List.take_sublist n is)) hall
    rw [List.length_take] at hlen
    exact ⟨fun i => List.mem_of_mem_take (hall i), by omega⟩
  · rintro ⟨hall, hn⟩ i
    rw [List.take_of_length_le (by rw [hcard h hall]; exact hn)]
    exact hall i

theorem le_length_takeWhile_iff {α : Type} {p : α → Bool} {l : List α} {n : Nat} (h : n ≤ l.length) :
    n ≤ (l.takeWhile p).length ↔ ∀ a ∈ l.take n, p a = true := by
  induction l generalizing n with
  | nil =>
    obtain rfl : n = 0 := Nat.le_zero.mp h
    simp
  | cons a l ih =>
    cases n with
    | zero => simp
    | succ n =>
      rw [List.take_succ_cons, List.forall_mem_cons]
      by_cases ha : p a = true
      · rw [List.takeWhile_cons_of_pos ha, List.length_cons, Nat.add_le_add_iff_right, ih (Nat.le_of_succ_le_succ h)]
        exact (and_iff_right ha).symm
      · rw [List.takeWhile_cons_of_neg ha]
        exact iff_of_false (by simp) fun hall => ha hall.1

/-- The blocks that are not all zeros. -/
def filledBlocks (d : Dev) : List (Fin 30) := Sync.pending (List.finRange 30) (Stale d) emptyCache

theorem nodup_filledBlocks (d : Dev) : (filledBlocks d).Nodup := by
  unfold filledBlocks Sync.pending
  exact (List.nodup_finRange 30).filter _

theorem mem_filledBlocks {d : Dev} {i : Fin 30} :
    i ∈ filledBlocks d ↔ readRegs d (blockAddress i) 6 ≠ List.replicate 12 0 := by
  unfold filledBlocks Sync.pending
  rw [List.mem_filter, decide_eq_true_iff, and_iff_right (List.mem_finRange i)]
  exact ne_comm

/-- A new connection has all of them to send. -/
theorem connected_edge (d : Dev) {b : Ble} {k : KeyBytes}
    (h : (keyRecOperation { b with keyState := k }).keyTrg.ble.getLsbD 0 = true) :
    Connected d (filledBlocks d) (keyRecOperation { b with keyState := k }) := by
  have htrg : (k.ble &&& (k.ble ^^^ b.kCount.ble)).getLsbD 0 = true := by
    unfold keyRecOperation at h
    dsimp only at h
    split at h
    · assumption
    · exact h
  have hk : k.ble.getLsbD 0 = true := by
    rw [BitVec.getLsbD_and, Bool.and_eq_true] at htrg
    exact htrg.1
  have hkeys : keyRecOperation { b with keyState := k } = { b with
      keyState := k
      keyTrg := ⟨k.key &&& (k.key ^^^ b.kCount.key), k.restain &&& (k.restain ^^^ b.kCount.restain),
        k.ble &&& (k.ble ^^^ b.kCount.ble)⟩
      kCount := k
      regMap := emptyCache } := if_pos htrg
  rw [hkeys]
  exact ⟨hk, hk, rfl⟩

section edge

variable {d : Dev} {b : Ble} {k : KeyBytes} {rounds : List (Dev × Option KeyBytes)} {frames : List (List Byte)}

/-- What a new connection gets before the lamps: the blocks that are not all zeros, as long as it lasts. -/
theorem untilLed_edge (hedge : (keyRecOperation { b with keyState := k }).keyTrg.ble.getLsbD 0 = true)
    (hconst : ∀ r ∈ rounds, ∀ i, readRegs r.1 (blockAddress i) 6 = readRegs d (blockAddress i) 6)
    (hframes : i2cThreadEntry 19 (keyRecOperation { b with keyState := k }) rounds = some frames) :
    untilLed frames = ((filledBlocks d).take
      (min rounds.length (((rounds.map Prod.snd).takeWhile fun k => StaysOn k).length + 1))).map (blockFrame d) := by
  have hsame : ∀ r ∈ rounds, ∀ i, blockTemp r.1 i = blockTemp d i := fun r hr i => by
    rw [blockTemp_eq, blockTemp_eq, hconst r hr]
  rw [i2cThreadEntry_congr 19 _ hsame] at hframes
  rw [untilLed_frames _ (connected_edge d hedge) hframes, List.length_map, List.map_take]

/-- The lamps come at the latest after the 30 blocks. -/
theorem exists_led (hedge : (keyRecOperation { b with keyState := k }).keyTrg.ble.getLsbD 0 = true)
    (hconst : ∀ r ∈ rounds, ∀ i, readRegs r.1 (blockAddress i) 6 = readRegs d (blockAddress i) 6)
    (hframes : i2cThreadEntry 19 (keyRecOperation { b with keyState := k }) rounds = some frames)
    (hlong : 31 ≤ frames.length) : ∃ f ∈ frames, IsLed f := by
  by_contra hno
  push Not at hno
  have hall : untilLed frames = frames := List.takeWhile_eq_self_iff.mpr fun f hf => by simpa using hno f hf
  have hlen := congrArg List.length (hall.symm.trans (untilLed_edge hedge hconst hframes))
  have hle : (filledBlocks d).length ≤ 30 := by
    refine (List.length_filter_le ..).trans ?_
    rw [List.length_finRange]
  rw [List.length_map, List.length_take] at hlen
  omega

end edge

/-- Whatever the variables and the registers are when a connection begins, if the registers then stay as they are: the
frames up to the first for the lamps, which is one of the next 31, are the whole image exactly if no block of registers
is all zeros and the connection lasts until the 30th of them. -/
theorem ble_image_iff (d : Dev) (b : Ble) (k : KeyBytes) (rounds : List (Dev × Option KeyBytes))
    (hedge : (keyRecOperation { b with keyState := k }).keyTrg.ble.getLsbD 0 = true)
    (hconst : ∀ r ∈ rounds, ∀ i, readRegs r.1 (blockAddress i) 6 = readRegs d (blockAddress i) 6)
    (hlong : 31 ≤ rounds.length) :
    ∃ frames, i2cThreadEntry 19 (keyRecOperation { b with keyState := k }) rounds = some frames ∧
      (∃ f ∈ frames, IsLed f) ∧
      (FullImage d (untilLed frames) ↔
        (∀ i, readRegs d (blockAddress i) 6 ≠ List.replicate 12 0) ∧ ∀ r ∈ rounds.take 29, StaysOn r.2) := by
  obtain ⟨frames, hframes, hlen⟩ := i2cThreadEntry_some (keyRecOperation { b with keyState := k }) rounds
  refine ⟨frames, hframes, exists_led hedge hconst hframes (by omega), ?_⟩
  have hnodup := nodup_filledBlocks d
  rw [untilLed_edge hedge hconst hframes, fullImage_iff d (hnodup.sublist (List.take_sublist _ _)),
    forall_mem_take_iff hnodup]
  refine and_congr (forall_congr' fun i => mem_filledBlocks) ?_
  obtain ⟨on, hon⟩ : ∃ on, on = ((rounds.map Prod.snd).takeWhile fun k => StaysOn k).length := ⟨_, rfl⟩
  have hlast : 30 ≤ min rounds.length (on + 1) ↔ 29 ≤ on := by omega
  rw [← hon, hlast, hon, le_length_takeWhile_iff (by rw [List.length_map]; omega), ← List.map_take, List.forall_mem_map]
  simp only [decide_eq_true_iff]

/-- A machine whose registers are all 1 sends them all. -/
theorem ble_image_iff_ones :
    let d : Dev := { freshDev with conf := fun _ => 1, sts := fun _ => 1, flash := 1 }
    let b : Ble := { freshBle with keyState := ⟨0, 0, 0⟩, kCount := ⟨0, 0, 0⟩ }
    ∃ frames, i2cThreadEntry 19 (keyRecOperation { b with keyState := ⟨0, 0, 1⟩ }) (List.replicate 31 (d, none)) =
      some frames ∧ FullImage d (untilLed frames) := by
  intro d b
  obtain ⟨frames, hframes, -, himage⟩ := ble_image_iff d b ⟨0, 0, 1⟩ (List.replicate 31 (d, none)) (by decide)
    (fun r hr i => by rw [List.eq_of_mem_replicate hr]) (by rw [List.length_replicate])
  refine ⟨frames, hframes, himage.mpr ⟨by decide +kernel, fun r hr => ?_⟩⟩
  rw [List.eq_of_mem_replicate (List.mem_of_mem_take hr)]
  exact nofun

/-- The registers from 94 on of a new machine are zeros, and are not sent. -/
theorem ble_block_missing :
    let b : Ble := { freshBle with keyState := ⟨0, 0, 0⟩, kCount := ⟨0, 0, 0⟩ }
    readRegs freshDev (blockAddress 5) 6 = List.replicate 12 0 ∧ blockAddress 5 = 94 ∧
    (keyRecOperation { b with keyState := ⟨0, 0, 1⟩ }).keyTrg.ble.getLsbD 0 = true ∧
    ∃ frames, i2cThreadEntry 19 (keyRecOperation { b with keyState := ⟨0, 0, 1⟩ })
        (List.replicate 31 (freshDev, none)) = some frames ∧
      (∃ f ∈ frames, IsLed f) ∧ ¬FullImage freshDev (untilLed frames) := by
  intro b
  have hzero : readRegs freshDev (blockAddress 5) 6 = List.replicate 12 0 := by decide +kernel
  have hedge : (keyRecOperation { b with keyState := ⟨0, 0, 1⟩ }).keyTrg.ble.getLsbD 0 = true := by decide
  have hconst : ∀ r ∈ List.replicate 31 (freshDev, (none : Option KeyBytes)), ∀ i,
      readRegs r.1 (blockAddress i) 6 = readRegs freshDev (blockAddress i) 6 :=
    fun r hr i => by rw [List.eq_of_mem_replicate hr]
  obtain ⟨frames, hframes, hlen⟩ := i2cThreadEntry_some (keyRecOperation { b with keyState := ⟨0, 0, 1⟩ })
    (List.replicate 31 (freshDev, none))
  refine ⟨hzero, by decide, hedge, frames, hframes, exists_led hedge hconst hframes ?_, fun hfull => ?_⟩
  · rw [hlen, List.length_replicate]
  · rw [untilLed_edge hedge hconst hframes,
      fullImage_iff _ ((nodup_filledBlocks _).sublist (List.take_sublist _ _))] at hfull
    exact mem_filledBlocks.mp (List.mem_of_mem_take (hfull 5)) hzero

end WM.Proof
