import Mathlib.Algebra.Order.BigOperators.Group.List
import Mathlib.Algebra.Order.Ring.Nat
import Mathlib.Algebra.BigOperators.Ring.Finset
import WaterMaker.Spec.Sensor

/-!
# The sensor

`Read_Sensor` decodes a frame exactly if its temperature is not negative (`readSensor_decodes_iff`): for a negative
one the mask that is to take off the sign is laid on the other byte. `AM_Sensor_update` keeps the last samples it
accepts in a ring, with 0 for an empty cell. As long as every answer has values above 0, these are the last samples
there were (`KeptSamples`), and `sensor_means` says that their means are published and no division by 0 comes up.
-/

namespace WM.Proof

open WM WM.Impl WM.Spec

/-! ## Frames -/

theorem checked_iff (f : Frame) : f.checked = true ↔ Intact f := by
  unfold Frame.checked Intact
  rw [beq_iff_eq, ← BitVec.toNat_inj]
  simp only [BitVec.toNat_add]
  omega

theorem sign_iff (b : Byte) : b &&& 0x80 ≠ 0 ↔ 128 ≤ b.toNat := by
  revert b
  decide

theorem toNat_magnitude (b : Byte) : (b &&& 0x7F).toNat = b.toNat % 128 := by
  rw [BitVec.toNat_and, show (0x7F : Byte).toNat = 2 ^ 7 - 1 from rfl, Nat.and_two_pow_sub_one_eq_mod]

theorem toNat_limitHumi (h : Word) : (limitHumi h).toNat = min h.toNat 999 := by
  unfold limitHumi
  split
  · rw [Nat.min_eq_right (by omega)]
    rfl
  · rw [Nat.min_eq_left (by omega)]

theorem toInt_limitTemprature (t : Word) : (limitTemprature t).toInt = max (-400) (min t.toInt 800) := by
  have hhigh : (800 : Word).toInt = 800 := by decide
  have hlow : (BitVec.ofInt 16 (-400)).toInt = -400 := by decide
  unfold limitTemprature
  dsimp only
  split
  · rw [if_neg (by rw [hhigh]; decide), hhigh]
    omega
  · split
    · rw [hlow]
      omega
    · omega

/-- A temperature that is not negative is decoded. -/
theorem i16Temprature_of_pos {f : Frame} (h : f.tempH.toNat < 128) : f.i16Temprature.toInt = temperature f := by
  have hlow := f.tempL.isLt
  have hword := toNat_word f.tempH f.tempL
  unfold Frame.i16Temprature temperature
  rw [if_neg (fun hs => by have := (sign_iff _).mp hs; omega), BitVec.toInt_eq_toNat_of_lt (by omega), hword]
  rw [if_neg (by omega), Nat.mod_eq_of_lt h]
  omega

/-- A negative temperature is decoded as one above 12 degrees, or as the lowest of all. -/
theorem i16Temprature_of_neg {f : Frame} (h : 128 ≤ f.tempH.toNat) :
    129 ≤ f.i16Temprature.toInt ∨ f.i16Temprature.toInt = -32768 ∧ -128 ≤ temperature f := by
  have hlow := f.tempL.isLt
  have hhigh := f.tempH.isLt
  have hword := toNat_word f.tempH (f.tempL &&& 0x7F)
  rw [toNat_magnitude] at hword
  unfold Frame.i16Temprature temperature
  rw [if_pos ((sign_iff _).mpr h)]
  rw [if_pos h, BitVec.toInt_eq_toNat_cond, BitVec.toNat_sub, hword, show (0 : Word).toNat = 0 from rfl]
  omega

/-- For every frame and buffer: the frame is decoded, and nothing taken from one with a wrong sum, exactly if the sum is
wrong or the sign is clear. -/
theorem readSensor_decodes_iff (f : Frame) (b : TempHum) : Decodes f b ↔ (Intact f → f.tempH.toNat < 128) := by
  unfold Decodes readSensor
  dsimp only
  by_cases hsum : Intact f
  · rw [if_pos hsum, if_pos ((checked_iff f).mpr hsum)]
    rw [toInt_limitTemprature, toNat_limitHumi]
    refine ⟨fun h _ => ?_, fun h => ⟨?_, ?_⟩⟩
    · by_contra hneg
      have htemp : temperature f ≤ 0 := by
        unfold temperature
        rw [if_pos (by omega)]
        omega
      rcases i16Temprature_of_neg (f := f) (by omega) with habove | ⟨hlowest, hsmall⟩ <;> omega
    · unfold Frame.u16Humi humidity
      rw [toNat_word, Nat.mul_comm]
    · rw [i16Temprature_of_pos (h hsum)]
  · rw [if_neg hsum, if_neg fun hchecked => hsum ((checked_iff f).mp hchecked)]
    exact ⟨fun _ h => absurd h hsum, fun _ => rfl⟩

/-- A tenth of a degree below 0 is taken for 80 degrees. -/
theorem readSensor_negative : Intact ⟨0x02, 0x58, 0x80, 0x01, 0xDB⟩ ∧ temperature ⟨0x02, 0x58, 0x80, 0x01, 0xDB⟩ = -1 ∧
    readSensor (some ⟨0x02, 0x58, 0x80, 0x01, 0xDB⟩) .zero = (0x0F, ⟨800, 600⟩) ∧
    ¬Decodes ⟨0x02, 0x58, 0x80, 0x01, 0xDB⟩ .zero := by
  unfold Decodes
  decide

/-! ## Means -/

theorem thSum_eq (xs : List Word) : thSum xs = BitVec.ofNat 16 (xs.map BitVec.toNat).sum := by
  have hfold : ∀ sum : Word, xs.foldl (fun sum x => if x ≠ 0 then sum + x else sum) sum =
      sum + BitVec.ofNat 16 (xs.map BitVec.toNat).sum := by
    induction xs with
    | nil => exact fun sum => (BitVec.add_zero sum).symm
    | cons x xs ih =>
      intro sum
      have hx : (if x ≠ 0 then sum + x else sum) = sum + x := by
        split
        · rfl
        · rename_i hzero
          rw [not_not.mp hzero]
          exact (BitVec.add_zero sum).symm
      rw [List.foldl_cons, ih, hx, List.map_cons, List.sum_cons, BitVec.ofNat_add, BitVec.ofNat_toNat,
        BitVec.setWidth_eq, BitVec.add_assoc]
  exact (hfold 0).trans (BitVec.zero_add _)

theorem thCount_eq (xs : List Word) : thCount xs = xs.countP fun x => decide (x ≠ 0) := by
  have hfold : ∀ n : Nat, xs.foldl (fun n x => if x ≠ 0 then n + 1 else n) n =
      n + xs.countP fun x => decide (x ≠ 0) := by
    induction xs with
    | nil => exact fun n => rfl
    | cons x xs ih =>
      intro n
      rw [List.foldl_cons, ih, List.countP_cons]
      by_cases hx : x = 0
      · rw [if_neg (not_not.mpr hx), if_neg (by simp [hx]), Nat.add_zero]
      · rw [if_pos hx, if_pos (decide_eq_true hx), Nat.add_right_comm, Nat.add_assoc]
  exact (hfold 0).trans (Nat.zero_add _)

section ring

variable {i : Nat} {cells xs : List TempHum} {sel : TempHum → Word}

/-- The cells hold zeros and the last values. -/
theorem perm_recent (h : Recent .zero i cells xs) (hlen : cells.length = thAveNum) (hzero : sel .zero = 0) :
    (cells.map sel).Perm (List.replicate (thAveNum - xs.length) 0 ++ (xs.rtake thAveNum).map sel) := by
  have hperm := h.perm.map sel
  rwa [hlen, List.map_append, List.map_replicate, hzero] at hperm

theorem thCount_recent (h : Recent .zero i cells xs) (hlen : cells.length = thAveNum) (hzero : sel .zero = 0)
    (hpos : ∀ b ∈ xs, 0 < (sel b).toNat) : thCount (cells.map sel) = (xs.rtake thAveNum).length := by
  rw [thCount_eq, (perm_recent h hlen hzero).countP_eq, List.countP_append, List.countP_replicate, List.countP_map,
    List.countP_eq_length.mpr]
  · simp
  · intro b hb
    have hb := hpos b (List.mem_of_mem_drop hb)
    refine decide_eq_true fun heq : sel b = 0 => ?_
    rw [heq] at hb
    exact absurd hb (by decide)

theorem thSum_recent (h : Recent .zero i cells xs) (hlen : cells.length = thAveNum) (hzero : sel .zero = 0) :
    thSum (cells.map sel) = BitVec.ofNat 16 ((xs.rtake thAveNum).map fun b => (sel b).toNat).sum := by
  rw [thSum_eq, ((perm_recent h hlen hzero).map BitVec.toNat).sum_eq, List.map_append, List.sum_append,
    List.map_replicate, List.sum_replicate, List.map_map]
  simp [Function.comp_def]

/-- The mean of a ring whose values are not 0: that of the last of them. -/
theorem thMean_recent (h : Recent .zero i cells xs) (hlen : cells.length = thAveNum) (hne : xs ≠ [])
    (hzero : sel .zero = 0) (hsel : ∀ b ∈ xs, 0 < (sel b).toNat ∧ (sel b).toNat ≤ 999) (cali : Word) :
    thMean cali (cells.map sel) =
      .ok (BitVec.ofInt 16 (floorMean ((xs.rtake thAveNum).map fun b => ((sel b).toNat : Int)) + cali.toInt)) := by
  have hcount := thCount_recent h hlen hzero fun b hb => (hsel b hb).1
  have hsum := thSum_recent h hlen hzero
  have hmem : ∀ b ∈ xs.rtake thAveNum, (sel b).toNat ≤ 999 := fun b hb => (hsel b (List.mem_of_mem_drop hb)).2
  have hlength : (xs.rtake thAveNum).length = min xs.length 5 := by
    rw [List.rtake, List.length_drop]
    unfold thAveNum
    omega
  have hpos := List.length_pos_iff.mpr hne
  generalize xs.rtake thAveNum = last at *
  -- five samples fit into 16 bits
  have hle : (last.map fun b => (sel b).toNat).sum ≤ last.length * 999 := by
    have := List.sum_le_card_nsmul (last.map fun b => (sel b).toNat) 999 fun n hn => by
      obtain ⟨b, hb, rfl⟩ := List.mem_map.mp hn
      exact hmem b hb
    rwa [List.length_map, nsmul_eq_mul] at this
  have hcast : (last.map fun b => ((sel b).toNat : Int)).sum = ((last.map fun b => (sel b).toNat).sum : Nat) := by
    rw [Nat.cast_list_sum, List.map_map]
    rfl
  unfold thMean floorMean
  rw [hcount, if_neg (by omega), hsum, BitVec.toNat_ofNat, Nat.mod_eq_of_lt (by omega), hcast, List.length_map,
    BitVec.ofInt_add, BitVec.ofInt_toInt, ← Int.natCast_ediv, BitVec.ofInt_natCast]

end ring

/-! ## Calls -/

theorem nextCnt_le (n : Nat) : nextCnt n ≤ 254 := by
  unfold nextCnt
  split <;> omega

/-- The counter goes round the ring. -/
theorem nextCnt_mod {n : Nat} (h : n ≤ 254) : nextCnt n % thAveNum = (n + 1) % thAveNum := by
  unfold nextCnt thAveNum
  split <;> omega

/-- The ring holds the last samples, which are above 0, and their means are published. -/
structure KeptSamples (cali : TempHum) (g : Gauge) : Prop where
  cells : g.sensor.thAve.length = thAveNum
  counter : g.sensor.thCnt ≤ 254
  errors : g.sensor.errCnt ≤ 255
  recent : Recent .zero g.sensor.thCnt g.sensor.thAve g.samples
  above : ∀ b ∈ g.samples, AboveZero b
  whole : g.divided = false
  published : MeansPublished cali g

variable {cali : TempHum} {g : Gauge} {a : Answer}

theorem toNat_temp {b : TempHum} (h : AboveZero b) : (b.temp.toNat : Int) = b.temp.toInt := by
  have hlow := h.1.1
  have hpos := h.2.1
  rw [BitVec.toInt_eq_toNat_cond] at *
  split at hpos <;> omega

/-- What the ring publishes. -/
theorem sensorPublish_recent {s : Sensor} {xs : List TempHum} (h : Recent .zero s.thCnt s.thAve xs)
    (hlen : s.thAve.length = thAveNum) (hne : xs ≠ []) (habove : ∀ b ∈ xs, AboveZero b) :
    sensorPublish cali s = .ok { s with th := meansOf cali xs } := by
  have htemp := thMean_recent h hlen hne (show TempHum.temp .zero = 0 from rfl) (fun b hb => by
    have hb := habove b hb
    have := toNat_temp hb
    have := hb.1
    have := hb.2
    unfold InScale at *
    omega) cali.temp
  have hhum := thMean_recent h hlen hne (show TempHum.hum .zero = 0 from rfl) (fun b hb =>
    ⟨(habove b hb).2.2, (habove b hb).1.2.2⟩) cali.hum
  have hsame : ((xs.rtake thAveNum).map fun b => (b.temp.toNat : Int)) =
      (xs.rtake thAveNum).map fun b => b.temp.toInt :=
    List.map_congr_left fun b hb => toNat_temp (habove b (List.mem_of_mem_drop hb))
  unfold sensorPublish
  rw [htemp, hhum, hsame]
  rfl

/-- A call that does not read the sensor. -/
theorem gaugeStep_skip (h : ¬readsNow g.sensor) (a : Answer) :
    gaugeStep cali g a = { g with sensor := { g.sensor with u8CNT := nextCnt g.sensor.u8CNT } } := by
  have hupdate : sensorUpdate a.reading cali g.sensor = .ok (0, { g.sensor with u8CNT := nextCnt g.sensor.u8CNT }) :=
    if_pos h
  have hsampled : g.sampled a = g.samples := by
    unfold Gauge.sampled
    split
    · exact if_neg h
    · rfl
  unfold gaugeStep
  rw [hupdate, hsampled]

/-- A call that reads the sensor. -/
theorem sensorUpdate_reads (cali : TempHum) {s s' : Sensor} (h : readsNow s) {r : Byte × TempHum}
    (hs' : sensorRead r { s with u8CNT := nextCnt s.u8CNT } = s') : sensorUpdate r cali s =
      if s'.errCnt > errorCntMax then .ok (r.1, { s' with th := ⟨285, 567⟩, com := false })
      else if s'.errCnt = 0 then (sensorPublish cali (sensorAccept (sensorBuff r) s')).map (Prod.mk r.1)
      else .ok (r.1, s') := by
  have hread : ¬nextCnt s.u8CNT % 6 ≠ 0 := not_not.mpr h
  unfold sensorUpdate
  dsimp only
  rw [if_neg hread, hs']
  cases sensorPublish cali (sensorAccept (sensorBuff r) s') <;> rfl

theorem recent_value (hk : KeptSamples cali g) (b : TempHum) :
    Recent .zero (nextCnt g.sensor.thCnt) (g.sensor.thAve.set (nextCnt g.sensor.thCnt % thAveNum) b)
      (g.samples ++ [b]) := by
  have hpush := hk.recent.push (by rw [hk.cells]; decide) b
  rw [hk.cells, ← nextCnt_mod hk.counter] at hpush
  refine hpush.congr ?_
  rw [List.length_set, hk.cells, Nat.add_mod, ← nextCnt_mod hk.counter, ← Nat.add_mod]

theorem ne_zero_of_above {b : TempHum} (hb : AboveZero b) : b.temp ≠ 0 ∧ b.hum ≠ 0 :=
  ⟨fun h0 => absurd hb.2.1 (by rw [h0]; decide), fun h0 => absurd hb.2.2 (by rw [h0]; decide)⟩

/-- A sample above 0 is accepted. -/
theorem sensorAccept_above {b : TempHum} (hb : AboveZero b) (s : Sensor) : sensorAccept b s =
    { s with thCnt := nextCnt s.thCnt, thAve := s.thAve.set (nextCnt s.thCnt % thAveNum) b } := by
  have htemp := toNat_temp hb
  have hscale := hb.1.2.1
  unfold sensorAccept
  rw [if_pos ⟨by omega, ne_zero_of_above hb⟩, if_pos hb.1.2.2]

/-- A sample goes into the next cell, and the means with it are published. -/
theorem kept_value (h : readsNow g.sensor) (hk : KeptSamples cali g) {b : TempHum} (hb : AboveZero b) :
    KeptSamples cali (gaugeStep cali g (.value b)) := by
  have hsome : (0x0F : Byte) ≠ 0 ∧ b.temp ≠ 0 := ⟨by decide, (ne_zero_of_above hb).1⟩
  have hread : sensorRead (0x0F, b) { g.sensor with u8CNT := nextCnt g.sensor.u8CNT } =
    { g.sensor with u8CNT := nextCnt g.sensor.u8CNT, errCnt := 0, com := true } := if_pos hsome
  have habove : ∀ b' ∈ g.samples ++ [b], AboveZero b' :=
    List.forall_mem_append.mpr ⟨hk.above, List.forall_mem_singleton.mpr hb⟩
  have hlen : (g.sensor.thAve.set (nextCnt g.sensor.thCnt % thAveNum) b).length = thAveNum := by
    rw [List.length_set]
    exact hk.cells
  have hrecent := recent_value hk b
  have hupdate := sensorUpdate_reads cali h hread
  rw [if_neg (Nat.not_lt_zero _), if_pos rfl, show sensorBuff (0x0F, b) = b from if_pos hsome,
    sensorAccept_above hb, sensorPublish_recent hrecent hlen (by simp) habove] at hupdate
  have hstep : gaugeStep cali g (.value b) = ⟨⟨nextCnt g.sensor.u8CNT, nextCnt g.sensor.thCnt, 0,
      g.sensor.thAve.set (nextCnt g.sensor.thCnt % thAveNum) b, meansOf cali (g.samples ++ [b]), true⟩, g.divided,
      g.samples ++ [b]⟩ := by
    unfold gaugeStep Gauge.sampled Answer.reading
    dsimp only
    rw [hupdate, if_pos h]
    rfl
  rw [hstep]
  exact ⟨hlen, nextCnt_le _, Nat.zero_le _, hrecent, habove, hk.whole, fun _ _ => rfl⟩

/-- An answer without a value counts as an error: the fixed values are published, or nothing, or, when the counter has
run out, the means again. -/
theorem kept_none (h : readsNow g.sensor) (hk : KeptSamples cali g) (ha : ∀ b, a ≠ .value b)
    (hlast : g.samples = [] → g.sensor.errCnt ≠ 255) : KeptSamples cali (gaugeStep cali g a) := by
  have hnone : ¬(a.reading.1 ≠ 0 ∧ a.reading.2.temp ≠ 0) := by
    cases a with
    | silent => exact fun hboth => hboth.1 rfl
    | garbled => exact fun hboth => hboth.2 rfl
    | value b => exact absurd rfl (ha b)
  have hsampled : g.sampled a = g.samples := by
    cases a with
    | value b => exact absurd rfl (ha b)
    | _ => rfl
  have hread : sensorRead a.reading { g.sensor with u8CNT := nextCnt g.sensor.u8CNT } =
    { g.sensor with u8CNT := nextCnt g.sensor.u8CNT, errCnt := (g.sensor.errCnt + 1) % 256 } := if_neg hnone
  have haccept : ∀ s, sensorAccept (sensorBuff a.reading) s = s := fun s => by
    unfold sensorAccept sensorBuff
    rw [if_neg hnone, if_neg fun hboth => hboth.2.1 rfl]
  have hupdate := sensorUpdate_reads cali h hread
  rw [haccept] at hupdate
  have herr := hk.errors
  unfold gaugeStep
  rw [hsampled, hupdate]
  by_cases hfault : (g.sensor.errCnt + 1) % 256 > errorCntMax
  · rw [if_pos hfault]
    exact ⟨hk.cells, hk.counter, Nat.lt_succ_iff.mp (Nat.mod_lt _ (by decide)), hk.recent, hk.above, hk.whole,
      fun hle => absurd hle (Nat.not_le.mpr hfault)⟩
  · rw [if_neg hfault]
    unfold errorCntMax at hfault
    by_cases hzero : (g.sensor.errCnt + 1) % 256 = 0
    · have hne : g.samples ≠ [] := fun hnil => hlast hnil (by omega)
      rw [if_pos hzero, sensorPublish_recent (by exact hk.recent) (by exact hk.cells) hne hk.above]
      exact ⟨hk.cells, hk.counter, Nat.lt_succ_iff.mp (Nat.mod_lt _ (by decide)), hk.recent, hk.above, hk.whole,
        fun _ _ => rfl⟩
    · rw [if_neg hzero]
      refine ⟨hk.cells, hk.counter, Nat.lt_succ_iff.mp (Nat.mod_lt _ (by decide)), hk.recent, hk.above, hk.whole,
        fun _ => hk.published ?_⟩
      unfold errorCntMax
      omega

theorem kept_step (hk : KeptSamples cali g) (ha : Plain g a) : KeptSamples cali (gaugeStep cali g a) := by
  by_cases h : readsNow g.sensor
  · cases a with
    | value b => exact kept_value h hk (ha h)
    | silent => exact kept_none h hk nofun (ha h)
    | garbled => exact kept_none h hk nofun (ha h)
  · rw [gaugeStep_skip h]
    exact ⟨hk.cells, hk.counter, hk.errors, hk.recent, hk.above, hk.whole, hk.published⟩

/-- For every offset and every series of answers from power-up, if each value that is read is above 0, for the
temperature and for the humidity, and there are no 256 failures in a row before the first of them: no division by 0
comes up, and after each call, unless the sensor has failed more than 20 times in a row, the means of the last five
values are published. -/
theorem sensor_means (cali : TempHum) {xs : List Answer} (h : Along (gaugeStep cali) Plain .init xs) :
    (run (gaugeStep cali) .init xs).divided = false ∧ MeansPublished cali (run (gaugeStep cali) .init xs) := by
  have hinit : KeptSamples cali .init := ⟨rfl, Nat.zero_le _, Nat.zero_le _, recent_start TempHum.zero 0 thAveNum,
    (fun _ hb => nomatch hb), rfl, fun _ hne => absurd rfl hne⟩
  have hkept := h.run_inv (I := KeptSamples cali) (fun g a hk ha => kept_step hk ha) hinit
  exact ⟨hkept.whole, hkept.published⟩

/-- Two values, with failures in between. -/
def twoValues : List Answer :=
  List.replicate 6 (Answer.value ⟨251, 600⟩) ++ List.replicate 12 Answer.silent ++
    List.replicate 6 (Answer.value ⟨254, 607⟩)

/-- Their means are published with an offset of half a degree. -/
theorem sensor_means_two : Along (gaugeStep ⟨5, 0⟩) Plain .init twoValues ∧
    (run (gaugeStep ⟨5, 0⟩) .init twoValues).divided = false ∧
    (run (gaugeStep ⟨5, 0⟩) .init twoValues).sensor.th = ⟨257, 603⟩ := by
  have hplain : Along (gaugeStep ⟨5, 0⟩) Plain .init twoValues := by decide +kernel
  obtain ⟨hwhole, hmeans⟩ := sensor_means ⟨5, 0⟩ hplain
  exact ⟨hplain, hwhole, (hmeans (by decide +kernel) (by decide +kernel)).trans (by decide +kernel)⟩

/-- The first value is 25.1 degrees and no humidity: it is not accepted, and the mean of no samples is taken. -/
theorem sensor_divides_by_zero :
    readSensor (some ⟨0, 0, 0, 251, 251⟩) .zero = Answer.reading (.value ⟨251, 0⟩) ∧ InScale ⟨251, 0⟩ ∧
    (run (gaugeStep .zero) .init (List.replicate 6 (.value ⟨251, 0⟩))).divided = true := by
  decide +kernel

end WM.Proof
