import WaterMaker.Proof.Registers.Acknowledge

/-!
# Messages of the cloud

`network_parameter_set_parse` answers every message with the code for it by `RT_EOK`, and reads members that are not
there. `all_or_nothing_iff` says which messages set all of their registers and are answered so, or set none and are
answered by an error, whatever the registers hold: those with another code, and those that are well formed and can be
carried out.
-/

namespace WM.Proof

open WM WM.Impl WM.Spec

/-! ## Hexadecimal digits -/

/-- A digit is worth less than 16, and stands behind the blanks and the signs in the alphabet. -/
theorem hexDigit_bounds {c : Char} {v : Nat} (h : hexDigit c = some v) : v < 16 ∧ '0'.toNat ≤ c.toNat := by
  unfold hexDigit at h
  split_ifs at h with h1 h2 h3
  · simp only [Char.isDigit, Bool.and_eq_true, decide_eq_true_eq, ge_iff_le, UInt32.le_iff_toNat_le] at h1
    have hv := Option.some.inj h
    change 48 ≤ c.toNat ∧ c.toNat ≤ 57 at h1
    change c.toNat - 48 = v at hv
    exact ⟨by omega, h1.1⟩
  · simp only [Char.le_def, UInt32.le_iff_toNat_le] at h2
    have hv := Option.some.inj h
    change 97 ≤ c.toNat ∧ c.toNat ≤ 102 at h2
    change c.toNat - 97 + 10 = v at hv
    exact ⟨by omega, by change 48 ≤ c.toNat; omega⟩
  · simp only [Char.le_def, UInt32.le_iff_toNat_le] at h3
    have hv := Option.some.inj h
    change 65 ≤ c.toNat ∧ c.toNat ≤ 70 at h3
    change c.toNat - 65 + 10 = v at hv
    exact ⟨by omega, by change 48 ≤ c.toNat; omega⟩

theorem ne_of_toNat_lt {c c' : Char} (h : c'.toNat < '0'.toNat) (hc : '0'.toNat ≤ c.toNat) : c ≠ c' := by
  rintro rfl
  omega

theorem isWhitespace_of_hexDigit {c : Char} {v : Nat} (h : hexDigit c = some v) : c.isWhitespace = false := by
  have hc := (hexDigit_bounds h).2
  simp only [Char.isWhitespace, Bool.or_eq_false_iff, decide_eq_false_iff_not]
  refine ⟨⟨⟨?_, ?_⟩, ?_⟩, ?_⟩ <;> exact ne_of_toNat_lt (by decide) hc

/-- Two digits are a byte. -/
theorem scanHex_two {c c' : Char} {v v' : Nat} (hc : hexDigit c = some v) (hc' : hexDigit c' = some v')
    (s : List Char) : scanHex (c :: c' :: s) = some ((16 * v + v' : Nat) : Int) := by
  have hskip : skipSpace (c :: c' :: s) = c :: c' :: s := by
    unfold skipSpace
    rw [List.dropWhile_cons_of_neg (by rw [isWhitespace_of_hexDigit hc]; exact Bool.false_ne_true)]
  have hdigits : scanDigits 16 hexDigit [c, c'] = some (16 * v + v') := by
    unfold scanDigits
    simp [List.takeWhile, hc, hc']
  have hlow := (hexDigit_bounds hc).2
  unfold scanHex
  rw [hskip]
  change scanSigned 16 hexDigit [c, c'] = _
  unfold scanSigned
  split
  · rename_i heq
    exact absurd (List.cons.inj heq).1 (ne_of_toNat_lt (by decide) hlow)
  · rename_i heq
    exact absurd (List.cons.inj heq).1 (ne_of_toNat_lt (by decide) hlow)
  · rw [hdigits]
    rfl

/-! ## The text of a message -/

/-- Byte `j` of a text of hexadecimal digits. -/
def hexByte (s : List Char) (j : Nat) : Byte := BitVec.ofNat 8 (hexValue ((s.drop (2 * j)).take 2))

/-- Two digits of a text that has them. -/
theorem drop_two {s : List Char} (h : ∀ c ∈ s, (hexDigit c).isSome = true) {i : Nat} (hi : i + 2 ≤ s.length) :
    ∃ c c' v v', s.drop i = c :: c' :: s.drop (i + 2) ∧ hexDigit c = some v ∧ hexDigit c' = some v' := by
  obtain ⟨v, hv⟩ := Option.isSome_iff_exists.mp (h s[i] (List.getElem_mem ..))
  obtain ⟨v', hv'⟩ := Option.isSome_iff_exists.mp (h s[i + 1] (List.getElem_mem ..))
  refine ⟨s[i], s[i + 1], v, v', ?_, hv, hv'⟩
  rw [List.drop_eq_getElem_cons (by omega), List.drop_eq_getElem_cons (by omega)]

theorem hexValue_two {c c' : Char} {v v' : Nat} (hc : hexDigit c = some v) (hc' : hexDigit c' = some v') :
    hexValue [c, c'] = 16 * v + v' := by
  simp [hexValue, hc, hc']

/-- The loop over a text of digits. -/
theorem settingBytes_hex {s : List Char} (h : ∀ c ∈ s, (hexDigit c).isSome = true) (k i : Nat)
    (hlen : 2 * (i + k) ≤ s.length) (last : Option Int) :
    settingBytes s k i last = .ok ((List.range k).map fun j => hexByte s (i + j)) := by
  induction k generalizing i last with
  | zero => rfl
  | succ k ih =>
    obtain ⟨c, c', v, v', hdrop, hv, hv'⟩ := drop_two h (show 2 * i + 2 ≤ s.length by omega)
    have hbyte : BitVec.ofInt 8 ((16 * v + v' : Nat) : Int) = hexByte s i := by
      rw [hexByte, hdrop]
      change _ = BitVec.ofNat 8 (hexValue [c, c'])
      rw [hexValue_two hv hv', BitVec.ofInt_natCast]
    have hrest : (List.range k).map (fun j => hexByte s (i + 1 + j)) =
        ((List.range k).map Nat.succ).map fun j => hexByte s (i + j) := by
      rw [List.map_map]
      refine List.map_congr_left fun j _ => ?_
      rw [Function.comp_apply, Nat.add_assoc, Nat.add_comm 1 j]
    unfold settingBytes
    rw [hdrop, scanHex_two hv hv']
    dsimp only [Option.orElse]
    rw [ih (i + 1) (by omega), hrest, List.range_succ_eq_map, List.map_cons, hbyte]
    rfl

/-- Four digits are a word, high byte first. -/
theorem word_hexByte {s : List Char} (h : ∀ c ∈ s, (hexDigit c).isSome = true) {k : Nat}
    (hk : 4 * k + 4 ≤ s.length) : word (hexByte s (2 * k)) (hexByte s (2 * k + 1)) = hexWord s k := by
  obtain ⟨c₀, c₁, v₀, v₁, hhigh, h₀, h₁⟩ := drop_two h (show 4 * k + 2 ≤ s.length by omega)
  obtain ⟨c₂, c₃, v₂, v₃, hlow, h₂, h₃⟩ := drop_two h (show 4 * k + 2 + 2 ≤ s.length by omega)
  have hb₀ := (hexDigit_bounds h₀).1
  have hb₁ := (hexDigit_bounds h₁).1
  have hb₂ := (hexDigit_bounds h₂).1
  have hb₃ := (hexDigit_bounds h₃).1
  have hword : hexValue [c₀, c₁, c₂, c₃] = 256 * (16 * v₀ + v₁) + (16 * v₂ + v₃) := by
    simp only [hexValue, List.foldl_cons, List.foldl_nil, h₀, h₁, h₂, h₃, Option.getD_some]
    omega
  refine BitVec.eq_of_toNat_eq ?_
  unfold hexByte hexWord
  rw [show 2 * (2 * k) = 4 * k by omega, show 2 * (2 * k + 1) = 4 * k + 2 by omega, toNat_word, hhigh, hlow]
  change 256 * (BitVec.ofNat 8 (hexValue [c₀, c₁])).toNat + (BitVec.ofNat 8 (hexValue [c₂, c₃])).toNat =
    (BitVec.ofNat 16 (hexValue [c₀, c₁, c₂, c₃])).toNat
  rw [hexValue_two h₀ h₁, hexValue_two h₂ h₃, hword, BitVec.toNat_ofNat, BitVec.toNat_ofNat, BitVec.toNat_ofNat]
  omega

/-- Only the first digits of a text are copied; they are all that is looked at. -/
theorem hexWord_take {s : List Char} {k n : Nat} (hk : k < n) : hexWord (s.take (4 * n)) k = hexWord s k := by
  unfold hexWord
  rw [List.drop_take, List.take_take, Nat.min_eq_left (by omega)]

/-! ## What a message sets -/

/-- The block of a message. -/
def hexSetting (a n : Int) (s : List Char) : Setting :=
  ⟨(BitVec.ofInt 16 a).toNat, (BitVec.ofInt 16 n).toNat,
    (List.range (n.toNat * 2)).map fun j => hexByte (s.take (n.toNat * 4)) (0 + j)⟩

section message

variable {mem : Nat × Nat} {m : ParamMsg} {a n : Int} {s : List Char}

theorem settingOf_members (hcode : itemInt m.mCode = .ok 5) (haddr : itemInt m.setaddrstart = .ok a)
    (hleng : itemInt m.settingleng = .ok n) (hmsg : m.settingmsg = some (.str s)) : settingOf mem m =
    if ¬(-2147483648 ≤ n * 4 + 1 ∧ n * 4 + 1 < 2147483648) then .error .fault
    else if n < 0 ∨ n.toNat * 4 + 1 > mem.1 then .ok none
    else if 0 < n ∧ n.toNat * 2 > mem.2 then .error .fault
    else (settingBytes (s.take (n.toNat * 4)) (n.toNat * 2) 0 none).map fun data =>
      some ⟨(BitVec.ofInt 16 a).toNat, (BitVec.ofInt 16 n).toNat, data⟩ := by
  unfold settingOf
  rw [hcode, haddr, hleng, hmsg]
  dsimp only [bind, Except.bind, pure, Except.pure]
  rw [if_neg (not_not.mpr rfl)]
  split_ifs
  · rfl
  · rfl
  · cases settingBytes (s.take (n.toNat * 4)) (n.toNat * 2) 0 none <;> rfl
  · rfl

theorem settingOf_paramSet (h : ParamSet m a n s) : settingOf mem m =
    if ¬(-2147483648 ≤ n * 4 + 1 ∧ n * 4 + 1 < 2147483648) then .error .fault
    else if n < 0 ∨ n.toNat * 4 + 1 > mem.1 then .ok none
    else if 0 < n ∧ n.toNat * 2 > mem.2 then .error .fault
    else .ok (some (hexSetting a n s)) := by
  have henough := h.enough
  rw [settingOf_members h.code h.addr h.leng h.msg]
  split_ifs
  · rfl
  · rfl
  · rw [settingBytes_hex (fun c hc => h.hex c (List.mem_of_mem_take hc)) _ _ (by rw [List.length_take]; omega)]
    rfl
  · rfl

theorem paramSet_unique {a' n' : Int} {s' : List Char} (h : ParamSet m a n s) (h' : ParamSet m a' n' s') :
    a' = a ∧ n' = n ∧ s' = s :=
  ⟨Except.ok.inj (h'.addr.symm.trans h.addr), Except.ok.inj (h'.leng.symm.trans h.leng),
    Item.str.inj (Option.some.inj (h'.msg.symm.trans h.msg))⟩

/-- A message that can be carried out leads to its block. -/
theorem settingOf_settable (h : ParamSet m a n s) (hs : Settable mem a n) (hn : n ≤ 100) :
    settingOf mem m = .ok (some (hexSetting a n s)) := by
  have hpos := hs.nonneg
  have hfirst := hs.first
  have hsecond := hs.second
  rw [settingOf_paramSet h, if_neg (by omega), if_neg (by omega), if_neg (by omega)]

/-- And only such a message does. -/
theorem eq_of_settingOf (h : ParamSet m a n s) {b : Setting} (hb : settingOf mem m = .ok (some b)) :
    b = hexSetting a n s ∧ 0 ≤ n ∧ n.toNat * 4 + 1 ≤ mem.1 ∧ (0 < n → n.toNat * 2 ≤ mem.2) := by
  rw [settingOf_paramSet h] at hb
  split_ifs at hb with h1 h2 h3
  · cases hb
  · cases hb
    exact ⟨rfl, by omega, by omega, fun hn => by omega⟩

end message

/-! ## The result -/

section result

variable {mem : Nat × Nat} {m : ParamMsg} {d : Dev}

theorem result_other {v : Int} (h : itemInt m.mCode = .ok v) (hv : v ≠ 5) :
    networkParameterSetResult .fault mem (some m) d = .ok (-1, d) := by
  unfold networkParameterSetResult
  dsimp only
  rw [h]
  exact if_pos hv

theorem result_code (h : itemInt m.mCode = .ok 5) : networkParameterSetResult .fault mem (some m) d =
    (settingOf mem m >>= fun o => (o.elim (.ok d) fun b => applySetting .fault b d).map fun d' => (0, d')) := by
  unfold networkParameterSetResult
  dsimp only
  rw [h]
  dsimp only [bind, Except.bind, pure, Except.pure]
  rw [if_neg (not_not.mpr rfl)]
  rcases settingOf mem m with e | _ | b
  · rfl
  · rfl
  · dsimp only [Option.elim]
    cases applySetting .fault b d <;> rfl

theorem result_fault {e : Halt} (h : itemInt m.mCode = .error e) :
    networkParameterSetResult .fault mem (some m) d = .error e := by
  unfold networkParameterSetResult
  dsimp only
  rw [h]
  rfl

end result

/-- Without its result it is the function of the other modules. -/
theorem networkParameterSetParse_eq (mem : Nat × Nat) (msg : Option ParamMsg) (d : Dev) :
    networkParameterSetParse .fault mem msg d = (networkParameterSetResult .fault mem msg d).map Prod.snd := by
  rcases msg with _ | m
  · rfl
  · unfold networkParameterSetParse
    dsimp only
    cases hcode : itemInt m.mCode with
    | error e =>
      rw [result_fault hcode, settingOf, hcode]
      rfl
    | ok v =>
      by_cases hv : v = 5
      · subst hv
        rw [result_code hcode]
        rcases settingOf mem m with e | _ | b
        · rfl
        · rfl
        · dsimp only [bind, Except.bind, Option.elim]
          cases applySetting .fault b d <;> rfl
      · rw [result_other hcode hv, settingOf, hcode]
        dsimp only [bind, Except.bind]
        rw [if_pos hv]
        rfl

/-- Whatever goes wrong, a message with the code is answered by `RT_EOK`. -/
theorem result_eok {mem : Nat × Nat} {m : ParamMsg} {d d' : Dev} {rc : Int} (h : itemInt m.mCode = .ok 5)
    (hr : networkParameterSetResult .fault mem (some m) d = .ok (rc, d')) : rc = 0 := by
  rw [result_code h] at hr
  rcases hs : settingOf mem m with e | o
  · rw [hs] at hr
    cases hr
  · rw [hs] at hr
    rcases ho : o.elim (.ok d) fun b => applySetting .fault b d with e | x
    · change Except.map _ (o.elim (.ok d) fun b => applySetting .fault b d) = _ at hr
      rw [ho] at hr
      cases hr
    · change Except.map _ (o.elim (.ok d) fun b => applySetting .fault b d) = _ at hr
      rw [ho] at hr
      cases hr
      rfl

theorem result_accepted {mem : Nat × Nat} {m : ParamMsg} {d d' : Dev} (h : itemInt m.mCode = .ok 5)
    (ha : WriteAccepted mem m d d') : networkParameterSetResult .fault mem (some m) d = .ok (0, d') := by
  obtain ⟨b, hb, hw⟩ := ha
  rw [result_code h, hb]
  change Except.map _ (applySetting .fault b d) = _
  unfold applySetting
  rw [hw]
  rfl

/-! ## The registers -/

section registers

variable {mem : Nat × Nat} {m : ParamMsg} {a n : Int} {s : List Char}

/-- The words of a message's block. -/
theorem word_hexSetting (h : ParamSet m a n s) {k : Nat} (hk : k < n.toNat) :
    word ((hexSetting a n s).data.getD (2 * k) 0) ((hexSetting a n s).data.getD (2 * k + 1) 0) = hexWord s k := by
  have henough := h.enough
  have hbyte : ∀ j < n.toNat * 2, (hexSetting a n s).data.getD j 0 = hexByte (s.take (n.toNat * 4)) j := by
    intro j hj
    unfold hexSetting
    rw [List.getD_eq_getElem _ _ (by rw [List.length_map, List.length_range]; exact hj), List.getElem_map,
      List.getElem_range, Nat.zero_add]
  rw [hbyte _ (by omega), hbyte _ (by omega), Nat.mul_comm n.toNat 4,
    word_hexByte (fun c hc => h.hex c (List.mem_of_mem_take hc)) (by rw [List.length_take]; omega), hexWord_take hk]

/-- The registers of a block that is there are addresses. -/
theorem add_le_of_mapped {addr k : Nat} (h : Mapped addr k) (hk : 0 < k) :
    configRegMapOffset ≤ addr ∧ addr + k ≤ configRegMapOffset + confRegMapNum := by
  obtain ⟨r, hr, -⟩ := isMapped_iff.mp (h.2 (k - 1) (by omega))
  have hlt := lt_of_confReg hr
  have hle := h.1
  exact ⟨hle, by omega⟩

theorem toNat_ofInt {v : Int} (h0 : 0 ≤ v) (h : v < 65536) : (BitVec.ofInt 16 v).toNat = v.toNat := by
  rw [BitVec.toNat_ofInt]
  omega

/-- A message that can be carried out sets its registers. -/
theorem accepted_settable (h : ParamSet m a n s) (hs : Settable mem a n) (d : Dev) :
    ∃ d', WriteAccepted mem m d d' ∧ HoldsWords d' a n s := by
  have hpos := hs.nonneg
  by_cases hn : n = 0
  · refine ⟨d, ⟨hexSetting a n s, settingOf_settable h hs (by omega), ?_⟩, fun k hk => absurd hk (by omega)⟩
    have hzero : (hexSetting a n s).n = 0 := by rw [hn]; rfl
    rw [hzero]
    refine block_passed d (fun href => ?_) fun hr => absurd hr.1 (Nat.lt_irrefl 0)
    rcases href with href | href
    · exact absurd (hs.none hn) (by rw [Nat.add_zero] at href; exact Nat.not_le.mpr href)
    · exact absurd href.1 (Nat.lt_irrefl 0)
  · obtain ⟨hle, ha, hm⟩ := hs.some (by omega)
    obtain ⟨hlow, hhigh⟩ := add_le_of_mapped hm (by omega)
    simp only [configRegMapOffset, confRegMapNum] at hlow hhigh
    have haddr : (hexSetting a n s).addr = a.toNat := toNat_ofInt ha (by omega)
    have hnum : (hexSetting a n s).n = n.toNat := toNat_ofInt hpos (by omega)
    have hr : Reaches a.toNat n.toNat := by
      unfold Reaches cpadRegHoldingWriteNregs configRegMapOffset
      omega
    obtain ⟨d', hw, hconf⟩ : ∃ d', blockWrite .fault (fun k => (hexSetting a n s).data.getD k 0) a.toNat n.toNat d = .ok d'
        ∧ d'.conf = blockConf d.conf a.toNat (sent (fun k => (hexSetting a n s).data.getD k 0) n.toNat) := by
      obtain ⟨ee, events, hw⟩ := blockWrite_mapped (fun k => (hexSetting a n s).data.getD k 0) d hm
      exact ⟨_, hw, rfl⟩
    refine ⟨d', ⟨hexSetting a n s, settingOf_settable h hs hle, ?_⟩, fun k hk => ?_⟩
    · rw [haddr, hnum, block_reaches d hr, hw]
      rfl
    · refine ⟨a.toNat - configRegMapOffset + k, ?_, ?_, ?_⟩
      · unfold confRegMapNum configRegMapOffset
        omega
      · unfold configRegMapOffset
        omega
      · rw [hconf, blockConf_at d.conf _ (by omega), word_hexSetting h (by omega)]

/-- Where the registers hold the words of a message, its addresses are those of registers. -/
theorem range_of_holds {d : Dev} (hn : 0 < n) (h : HoldsWords d a n s) : 64 ≤ a ∧ a + n ≤ 499 := by
  obtain ⟨i, -, hi, -⟩ := h 0 hn
  obtain ⟨j, hj, hj', -⟩ := h (n.toNat - 1) (by omega)
  unfold configRegMapOffset at hi hj'
  unfold confRegMapNum at hj
  omega

/-- Registers that hold something else than the first word. -/
def otherDev (w : Word) : Dev := { freshDev with conf := fun _ => ~~~w }

theorem ne_not (w : Word) : ~~~w ≠ w := by
  intro h
  have hbit := congrArg (fun v : Word => v.getLsbD 0) h
  simp at hbit

/-- A block that is written without an error and leaves the words in registers that did not hold them was written. -/
theorem mapped_of_holds (hn : 0 < n) {d' : Dev}
    (hw : cpadEMBRegHoldingCB .fault (fun k => (hexSetting a n s).data.getD k 0) (hexSetting a n s).addr
      (hexSetting a n s).n .multipleWrite (otherDev (hexWord s 0)) = .ok (.noErr, [], d'))
    (h : HoldsWords d' a n s) : n ≤ 100 ∧ 0 ≤ a ∧ Mapped a.toNat n.toNat := by
  obtain ⟨hlow, hhigh⟩ := range_of_holds hn h
  have haddr : (hexSetting a n s).addr = a.toNat := toNat_ofInt (by omega) (by omega)
  have hnum : (hexSetting a n s).n = n.toNat := toNat_ofInt (by omega) (by omega)
  rw [haddr, hnum] at hw
  by_cases hr : Reaches a.toNat n.toNat
  · refine ⟨by have := hr.2.1; omega, by omega, ?_⟩
    by_contra hm
    rw [block_reaches _ hr, blockWrite_fault _ hr.1 hm] at hw
    cases hw
  · -- passed over: the registers are as they were
    have hpass : ¬Refused a.toNat n.toNat := by
      unfold Refused cpadSRegHoldingNregs cpadRegHoldingWriteNregs
      omega
    rw [block_passed _ hpass hr] at hw
    obtain ⟨i, -, -, hi⟩ := h 0 hn
    cases hw
    exact absurd hi (ne_not _)

/-- If a message with the code sets its registers whatever they hold, it can be carried out. -/
theorem settable_of_all (hcode : itemInt m.mCode = .ok 5) (h : ∀ d, AllOrNothing mem (some m) d) :
    ∃ a n s, ParamSet m a n s ∧ Settable mem a n := by
  have heach : ∀ d, ∃ a n s d', ParamSet m a n s ∧ WriteAccepted mem m d d' ∧ HoldsWords d' a n s := by
    intro d
    obtain ⟨rc, d', hr, hset, -⟩ := h d
    obtain ⟨m', hm', a, n, s, hps, hacc, hholds⟩ := hset (result_eok hcode hr)
    cases hm'
    exact ⟨a, n, s, d', hps, hacc, hholds⟩
  obtain ⟨a, n, s, d', hps, ⟨b, hb, hw⟩, -⟩ := heach freshDev
  obtain ⟨rfl, hpos, hfirst, hsecond⟩ := eq_of_settingOf hps hb
  refine ⟨a, n, s, hps, hpos, hfirst, hsecond, fun hn => ?_, fun hn => ?_⟩
  · by_contra hfar
    rw [block_refused _ (.inl (by rw [Nat.not_le] at hfar; exact Nat.lt_add_right _ hfar))] at hw
    cases hw
  · obtain ⟨a', n', s', d'', hps', ⟨b', hb', hw'⟩, hholds⟩ := heach (otherDev (hexWord s 0))
    obtain ⟨rfl, rfl, rfl⟩ := paramSet_unique hps hps'
    obtain ⟨rfl, -⟩ := eq_of_settingOf hps hb'
    exact mapped_of_holds hn hw' hholds

end registers

/-- The messages of the cloud that set all of their registers and are answered by `RT_EOK`, or set none and are answered
by an error, whatever the registers hold: a text that is no JSON, a message with another code, and one that has all of
its members, numbers and digits, for which there is memory, and whose registers can be written at once. -/
theorem all_or_nothing_iff (mem : Nat × Nat) (msg : Option ParamMsg) :
    (∀ d, AllOrNothing mem msg d) ↔ ∀ m ∈ msg, (∃ v, itemInt m.mCode = .ok v ∧ v ≠ 5) ∨
      ∃ a n s, ParamSet m a n s ∧ Settable mem a n := by
  rcases msg with _ | m
  · exact iff_of_true (fun d => ⟨-1, d, rfl, fun h => absurd h (by decide), fun _ => rfl⟩) nofun
  · constructor
    · intro h m' hm'
      cases hm'
      cases hcode : itemInt m.mCode with
      | error e =>
        obtain ⟨rc, d', hr, -⟩ := h freshDev
        rw [result_fault hcode] at hr
        cases hr
      | ok v =>
        by_cases hv : v = 5
        · subst hv
          exact .inr (settable_of_all hcode h)
        · exact .inl ⟨v, rfl, hv⟩
    · intro h d
      rcases h m rfl with ⟨v, hcode, hv⟩ | ⟨a, n, s, hps, hs⟩
      · exact ⟨-1, d, result_other hcode hv, fun h => absurd h (by decide), fun _ => rfl⟩
      · obtain ⟨d', hacc, hholds⟩ := accepted_settable hps hs d
        exact ⟨0, d', result_accepted hps.code hacc, fun _ => ⟨m, rfl, a, n, s, hps, hacc, hholds⟩,
          fun h => absurd rfl h⟩

/-- A message for one register, with the code for it. -/
def oneSetting (addr : Option Item) (digits : List Char) : ParamMsg :=
  ⟨some (.str ['5']), addr, some (.str ['1']), some (.str digits)⟩

def noAddress : ParamMsg := oneSetting none ['0', '0', '0', '1']
def farAddress : ParamMsg := oneSetting (some (.str ['6', '0', '0'])) ['0', '0', '0', '1']
def noDigits : ParamMsg := oneSetting (some (.str ['6', '6'])) ['1', '2', 'Z', 'Z']

theorem settingOf_farAddress : settingOf (1000, 1000) farAddress = .ok (some ⟨600, 1, [0x00, 0x01]⟩) := by
  rw [settingOf_members (a := 600) (n := 1) (s := ['0', '0', '0', '1']) rfl rfl rfl rfl, if_neg (by decide),
    if_neg (by decide), if_neg (by decide)]
  rfl

theorem settingOf_noDigits : settingOf (1000, 1000) noDigits = .ok (some ⟨66, 1, [0x12, 0x12]⟩) := by
  rw [settingOf_members (a := 66) (n := 1) (s := ['1', '2', 'Z', 'Z']) rfl rfl rfl rfl, if_neg (by decide),
    if_neg (by decide), if_neg (by decide)]
  rfl

theorem result_noDigits : ∃ d', networkParameterSetResult .fault (1000, 1000) (some noDigits) freshDev = .ok (0, d') ∧
    d'.conf 2 = 0x1212 := by
  obtain ⟨ee, events, hw⟩ := blockWrite_mapped (fun k => [0x12, 0x12].getD k 0) freshDev (by decide : Mapped 66 1)
  have hcb := (block_reaches freshDev (by decide)).trans (congrArg (Except.map fun d => (MbErr.noErr, [], d)) hw)
  exact ⟨_, result_accepted rfl ⟨_, settingOf_noDigits, hcb⟩, rfl⟩

/-- The three of them with enough memory. A message without an address is read through a null pointer. A message to an
address beyond the registers is refused and answered by `RT_EOK`. And one whose text is not all digits is answered by
`RT_EOK` too, and sets the register to `0x1212`. -/
theorem message_unchecked :
    networkParameterSetResult .fault (1000, 1000) (some noAddress) freshDev = .error .fault ∧
    networkParameterSetResult .fault (1000, 1000) (some farAddress) freshDev = .ok (0, freshDev) ∧
    (∃ d', networkParameterSetResult .fault (1000, 1000) (some noDigits) freshDev = .ok (0, d') ∧ d'.conf 2 = 0x1212) ∧
    ∀ m ∈ [noAddress, farAddress, noDigits], ¬AllOrNothing (1000, 1000) (some m) freshDev := by
  have hfar : networkParameterSetResult .fault (1000, 1000) (some farAddress) freshDev = .ok (0, freshDev) := by
    rw [result_code rfl, settingOf_farAddress]
    rfl
  refine ⟨rfl, hfar, result_noDigits, ?_⟩
  simp only [List.forall_mem_cons]
  refine ⟨?_, ?_, ?_, nofun⟩
  · rintro ⟨rc, d', hr, -⟩
    cases hr
  · rintro ⟨rc, d', hr, hset, -⟩
    obtain ⟨m, hm, a, n, s, -, ⟨b, hb, hw⟩, -⟩ := hset (result_eok rfl hr)
    cases hm
    cases Option.some.inj (Except.ok.inj (settingOf_farAddress.symm.trans hb))
    rw [block_refused _ (by decide)] at hw
    cases hw
  · rintro ⟨rc, d', hr, hset, -⟩
    obtain ⟨m, hm, a, n, s, hps, -⟩ := hset (result_eok rfl hr)
    cases hm
    have htext : s = ['1', '2', 'Z', 'Z'] := (Item.str.inj (Option.some.inj hps.msg)).symm
    exact absurd (hps.hex 'Z' (by rw [htext]; decide)) (by decide)

end WM.Proof
