import WaterMaker.Proof.Slave.Receive

/-!
# The effect of a frame is its own

A write of several registers takes as many values from the buffer as it says, also where the frame is shorter, and a
frame that the timer ended need not have the bytes that are looked at; what earlier frames left in the buffer takes
their place (`stale_written`). `frame_alone_iff` says exactly of which frames the effect depends on the frame alone.
-/

namespace WM.Proof

open WM WM.Impl WM.Spec

/-- The frame has one effect, whatever is in the buffer behind it. -/
def Fixed (bs : List Byte) (d : Dev) : Prop := ∃ e, ∀ g, answerEffect (analysisProtocol .fault (blit g 0 bs) d) = some e

/-! ## Answers -/

theorem answerEffect_none_iff {x : Except Halt Reply} : answerEffect x = none ↔ x = .error .fault := by
  rcases x with (_ | _ | _) | _ <;> simp [answerEffect]

theorem answerEffect_congr {n : Nat} {x y : Except Halt Reply} (h : SameReply n x y) :
    answerEffect y = answerEffect x := by
  match x, y, h with
  | .ok r, .ok r', ⟨hlen, hdev, hbuf⟩ =>
    have hsent : (List.range r'.sendlen).map r'.rxbuf = (List.range r.sendlen).map r.rxbuf := by
      rw [hlen]
      exact List.map_congr_left fun k hk => hbuf k (.inr (List.mem_range.mp hk))
    unfold answerEffect
    dsimp only
    rw [hsent, hdev]
  | .error e, .error e', h => exact congrArg (fun e => answerEffect (.error e)) h

section sent

variable {r : Reply} {e : Effect} (h : answerEffect (.ok r) = some e)
include h

theorem length_of_answer : e.sent.length = r.sendlen := by
  cases h
  exact List.length_map _ |>.trans List.length_range

theorem getElem_of_answer {k : Nat} (hk : k < r.sendlen) : e.sent[k]? = some (r.rxbuf k) := by
  cases h
  change ((List.range r.sendlen).map r.rxbuf)[k]? = _
  rw [List.getElem?_map, List.getElem?_range hk]
  rfl

end sent

/-- A normal answer to a write repeats what was asked for. -/
theorem sent_write {rx : Nat → Byte} {e : Effect} {x : Except Halt (MbErr × List Byte × Dev)}
    (h : answerEffect (x.map fun y => reply y.1 rx 8 y.2.2) = some e) (hlen : e.sent.length = 8) :
    e.sent[5]? = some (rx 5) := by
  rcases x with (_ | _ | _) | ⟨err, bytes, d⟩
  · cases h
    cases hlen
  · cases h
    cases hlen
  · cases h
  · have hsend := (length_of_answer h).symm.trans hlen
    by_cases herr : err = .noErr
    · subst herr
      rw [getElem_of_answer h (by rw [hsend]; decide)]
      exact congrArg some (rxbuf_reply rx d (by decide))
    · rw [sendlen_reply, if_neg herr] at hsend
      omega

/-! ## Frames with their first six bytes -/

section long

variable {bs : List Byte} (d : Dev)

theorem frameAddr_blit (g : Nat → Byte) (h : 4 ≤ bs.length) : frameAddr (blit g 0 bs) = frameAddr (frame bs) :=
  frameAddr_congr (fun _ hk => blit_frame g hk) h

theorem frameNreg_blit (g : Nat → Byte) (h : 6 ≤ bs.length) : frameNreg (blit g 0 bs) = frameNreg (frame bs) :=
  frameNreg_congr (fun _ hk => blit_frame g hk) h

/-- Where all that is looked at is in the frame, only a fault can take its effect. -/
theorem fixed_iff_of_within (h : 6 ≤ bs.length) (hb : frame bs 1 = 0x10 →
    Reaches (frameAddr (frame bs)) (frameNreg (frame bs)) → 7 + 2 * frameNreg (frame bs) ≤ bs.length) :
    Fixed bs d ↔ analysisProtocol .fault (frame bs) d ≠ .error .fault := by
  have hsame : ∀ g, answerEffect (analysisProtocol .fault (blit g 0 bs) d) =
      answerEffect (analysisProtocol .fault (frame bs) d) :=
    fun g => answerEffect_congr (analysisProtocol_congr (fun k hk => blit_frame g hk) d h hb)
  unfold Fixed
  simp only [hsame, forall_const]
  rw [← Option.isSome_iff_exists, Option.isSome_iff_ne_none]
  exact not_congr answerEffect_none_iff

/-- A block that is longer than its frame. The low byte of its last register is not in the frame. -/
theorem not_fixed_of_short_block (h : 6 ≤ bs.length) (h10 : frame bs 1 = 0x10)
    (hr : Reaches (frameAddr (frame bs)) (frameNreg (frame bs)))
    (hlen : bs.length < 7 + 2 * frameNreg (frame bs)) : ¬Fixed bs d := by
  rintro ⟨e, he⟩
  have hcode : ∀ g, blit g 0 bs 1 = 0x10 := fun g => (blit_frame g (by omega)).trans h10
  have haddr := fun g => frameAddr_blit g (show 4 ≤ bs.length by omega)
  have hanswer : ∀ g, analysisProtocol .fault (blit g 0 bs) d =
      ((blockWrite .fault (fun k => blit g 0 bs (7 + k)) (frameAddr (frame bs)) (frameNreg (frame bs)) d).map
        fun d => (MbErr.noErr, ([] : List Byte), d)).map fun x => reply x.1 (blit g 0 bs) 8 x.2.2 := fun g => by
    rw [analysisProtocol_block (hcode g), haddr, frameNreg_blit g h, block_reaches d hr]
  by_cases hm : Mapped (frameAddr (frame bs)) (frameNreg (frame bs))
  · have hconf : ∀ g, e.conf (frameAddr (frame bs) - configRegMapOffset + (frameNreg (frame bs) - 1)) =
        word (blit g 0 bs (5 + 2 * frameNreg (frame bs))) (g (6 + 2 * frameNreg (frame bs))) := fun g => by
      obtain ⟨ee, events, hw⟩ := blockWrite_mapped (fun k => blit g 0 bs (7 + k)) d hm
      have heg := he g
      rw [hanswer g, hw] at heg
      cases heg
      have hpos := hr.1
      refine (blockConf_at d.conf _ (show frameNreg (frame bs) - 1 < frameNreg (frame bs) by omega)).trans ?_
      rw [show 7 + 2 * (frameNreg (frame bs) - 1) = 5 + 2 * frameNreg (frame bs) by omega,
        show 7 + (2 * (frameNreg (frame bs) - 1) + 1) = 6 + 2 * frameNreg (frame bs) by omega,
        blit_of_not g 0 bs (k := 6 + 2 * frameNreg (frame bs)) (by omega)]
    have h01 := congrArg loByte ((hconf fun _ => 0).symm.trans (hconf fun _ => 1))
    rw [loByte_word, loByte_word] at h01
    exact absurd h01 (by decide)
  · have heg := he fun _ => 0
    rw [hanswer, blockWrite_fault d hr.1 hm] at heg
    cases heg

theorem fixed_long_block (h : 6 ≤ bs.length) (h10 : frame bs 1 = 0x10) : Fixed bs d ↔
    (Reaches (frameAddr (frame bs)) (frameNreg (frame bs)) →
      Mapped (frameAddr (frame bs)) (frameNreg (frame bs)) ∧ 7 + 2 * frameNreg (frame bs) ≤ bs.length) := by
  by_cases hr : Reaches (frameAddr (frame bs)) (frameNreg (frame bs))
  · rw [forall_prop_of_true hr]
    by_cases hlen : 7 + 2 * frameNreg (frame bs) ≤ bs.length
    · rw [and_iff_left hlen, fixed_iff_of_within d h fun _ _ => hlen, analysisProtocol_block h10,
        block_reaches d hr]
      by_cases hm : Mapped (frameAddr (frame bs)) (frameNreg (frame bs))
      · obtain ⟨ee, events, hw⟩ := blockWrite_mapped (fun k => frame bs (7 + k)) d hm
        rw [hw]
        exact iff_of_true nofun hm
      · rw [blockWrite_fault d hr.1 hm]
        exact iff_of_false (not_not.mpr rfl) hm
    · exact iff_of_false (not_fixed_of_short_block d h h10 hr (by omega)) fun hc => hlen hc.2
  · rw [fixed_iff_of_within d h fun _ hr' => absurd hr' hr, analysisProtocol_block h10]
    refine iff_of_true ?_ fun hr' => absurd hr' hr
    by_cases href : Refused (frameAddr (frame bs)) (frameNreg (frame bs))
    · rw [block_refused d href]
      exact nofun
    · rw [block_passed d href hr]
      exact nofun

theorem fixed_iff_long (h : 6 ≤ bs.length) : Fixed bs d ↔ Contained bs d := by
  unfold Contained
  rw [if_pos h]
  by_cases h3 : frame bs 1 = 0x03
  · rw [if_pos h3, fixed_iff_of_within d h (by rw [h3]; exact nofun), analysisProtocol_read d h3]
    split
    · rename_i hn
      exact iff_of_true nofun (.inl hn)
    · rename_i hn
      rw [or_iff_right hn]
      split
      · exact iff_of_false (not_not.mpr rfl) (by omega)
      · exact iff_of_true nofun (by omega)
  rw [if_neg h3]
  by_cases h6 : frame bs 1 = 0x06
  · have hfault := single_fault_iff (fun k => frame bs (4 + k)) (frameAddr (frame bs)) d
    rw [if_pos h6, fixed_iff_of_within d h (by rw [h6]; exact nofun), analysisProtocol_single d h6]
    refine (not_congr ?_).trans ((not_congr hfault).trans not_not)
    cases cpadEMBRegHoldingCB .fault (fun k => frame bs (4 + k)) (frameAddr (frame bs)) 1 .singleWrite d with
    | ok x => exact iff_of_false nofun nofun
    | error e => exact ⟨fun he => congrArg _ (Except.error.inj he), fun he => congrArg _ (Except.error.inj he)⟩
  rw [if_neg h6]
  by_cases h10 : frame bs 1 = 0x10
  · rw [and_iff_right h10]
    exact fixed_long_block d h h10
  · rw [fixed_iff_of_within d h fun h' => absurd h' h10, analysisProtocol_other d h3 h6 h10]
    exact iff_of_false (not_not.mpr rfl) fun hc => h10 hc.1

end long

/-- An answer to a single write is sent, unless the controller restarts. -/
theorem sent_single {rx : Nat → Byte} {e : Effect} (d : Dev) (h6 : rx 1 = 0x06)
    (h : answerEffect (analysisProtocol .fault rx d) = some e)
    (hv : ¬Restarts (frameAddr rx) (frameValue rx)) : e.sent ≠ [] := by
  have hlong : ∀ err d', answerEffect (.ok (reply err rx 8 d')) = some e → e.sent ≠ [] := fun err d' he hnil => by
    have hlen := length_of_answer he
    rw [hnil, sendlen_reply] at hlen
    split at hlen <;> cases hlen
  rw [analysisProtocol_single d h6] at h
  by_cases hd : Declined d (frameAddr rx) (frameValue rx)
  · rw [single_declined (fun k => rx (4 + k)) hd] at h
    exact hlong _ _ h
  · rcases single_taken (fun k => rx (4 + k)) hd with ⟨d', hcb⟩ | hcb | ⟨hres, -⟩
    · rw [hcb] at h
      exact hlong _ _ h
    · rw [hcb] at h
      cases h
    · exact absurd hres hv

/-! ## Shorter frames -/

/-- What may be in the buffer behind a frame of four or five bytes. -/
def behind (hi lo : Byte) : Nat → Byte := fun k => if k = 4 then hi else lo

theorem exists_other_byte (b : Byte) : ∃ lo, lo ≠ b := by
  by_cases h : b = 0
  · exact ⟨1, by rw [h]; decide⟩
  · exact ⟨0, Ne.symm h⟩

/-- A command with another low byte does not restart the controller. -/
theorem exists_not_restarts {addr : Nat} {v : Word} (h : Restarts addr v) :
    ∃ lo, ¬Restarts addr (word (hiByte v) lo) := by
  rcases h with ⟨rfl, hmem⟩ | ⟨rfl, rfl⟩
  · have hhi : hiByte v = 0 := by
      simp only [List.mem_cons, List.not_mem_nil, or_false] at hmem
      rcases hmem with rfl | rfl | rfl | rfl <;> decide
    exact ⟨0, by rw [hhi]; decide⟩
  · exact ⟨1, by decide⟩

section short

variable {bs : List Byte} (d : Dev) (hmin : mntRxMin ≤ bs.length) (hshort : bs.length < 6)
include hmin

/-- A frame that gets an exception has one effect. -/
theorem fixed_of_exception {err : MbErr} (he : err ≠ .noErr)
    (h : ∀ g, analysisProtocol .fault (blit g 0 bs) d = .ok (reply err (blit g 0 bs) 8 d)) : Fixed bs d := by
  have h3 : 3 ≤ bs.length := Nat.le_trans (by decide) hmin
  obtain ⟨e, hframe⟩ : ∃ e, answerEffect (.ok (reply err (frame bs) 8 d)) = some e := ⟨_, rfl⟩
  refine ⟨e, fun g => ?_⟩
  rw [h g, ← hframe]
  exact answerEffect_congr (reply_congr d (fun k hk => blit_frame g hk) h3 fun h => absurd h he)

include hshort

theorem blit_behind {hi : Byte} (lo : Byte) (h : bs.length = 5 → hi = frame bs 4) :
    blit (behind hi lo) 0 bs 4 = hi ∧ blit (behind hi lo) 0 bs 5 = lo := by
  have h4 : 4 ≤ bs.length := hmin
  refine ⟨?_, blit_of_not _ _ _ (by omega)⟩
  by_cases h5 : bs.length = 5
  · rw [blit_frame _ (by omega), h h5]
  · exact blit_of_not _ _ _ (by omega)

/-- The number of registers is at least what the frame says of it. -/
theorem frameNreg_ge (g : Nat → Byte) : (word (frame bs 4) 0).toNat ≤ frameNreg (blit g 0 bs) := by
  have h4 : 4 ≤ bs.length := hmin
  unfold frameNreg
  rw [toNat_word, toNat_word]
  by_cases h5 : bs.length = 5
  · rw [blit_frame g (show 4 < bs.length by omega)]
    exact Nat.add_le_add_left (Nat.zero_le _) _
  · have hnone : frame bs 4 = 0 := List.getD_eq_default _ _ (by omega)
    rw [hnone]
    exact Nat.zero_le _

theorem frameNreg_behind (lo : Byte) :
    frameNreg (blit (behind (frame bs 4) lo) 0 bs) = 256 * (frame bs 4).toNat + lo.toNat := by
  obtain ⟨h4, h5⟩ := blit_behind hmin hshort lo fun _ => rfl
  unfold frameNreg
  rw [h4, h5, toNat_word]

theorem fixed_short_read (h3 : frame bs 1 = 0x03) :
    Fixed bs d ↔ cpadSRegHoldingNregs < frameAddr (frame bs) + (word (frame bs 4) 0).toNat := by
  have hlen : 4 ≤ bs.length := hmin
  have hcode : ∀ g, blit g 0 bs 1 = 0x03 := fun g => (blit_frame g (by omega)).trans h3
  constructor
  · rintro ⟨e, he⟩
    by_contra hno
    have h0 := he (behind (frame bs 4) 0)
    have h1 := he (behind (frame bs 4) 1)
    rw [analysisProtocol_read d (hcode _), frameAddr_blit _ hlen, frameNreg_behind hmin hshort] at h0 h1
    rw [toNat_word] at hno
    rw [if_neg hno] at h0
    by_cases hf : 254 < 256 * (frame bs 4).toNat + (0 : Byte).toNat
    · rw [if_pos hf] at h0
      cases h0
    have hzero : (frame bs 4).toNat = 0 := by
      have h0' : (0 : Byte).toNat = 0 := rfl
      omega
    -- no register is read, or one, or there is none at this address
    have hcount : ∀ lo : Byte, lo.toNat < 128 →
        (byteCount (blit (behind (frame bs 4) lo) 0 bs)).toNat = 2 * lo.toNat := fun lo hlo => by
      unfold byteCount
      rw [frameNreg_behind hmin hshort, hzero, BitVec.toNat_ofNat]
      omega
    have hc0 := hcount 0 (by decide)
    have hc1 := hcount 1 (by decide)
    rw [if_neg hf] at h0
    have hlen0 := length_of_answer h0
    rw [sendlen_reply, if_pos rfl, hc0] at hlen0
    split at h1
    · have hb0 := getElem_of_answer h0 (k := 1) (by rw [sendlen_reply, if_pos rfl]; omega)
      rw [getElem_of_answer h1 (k := 1) (by rw [sendlen_reply, if_neg (by decide)]; decide),
        rxbuf_exception (by decide), hcode, rxbuf_reply _ _ (by omega), Function.update_of_ne (by decide),
        blit_of_not _ _ _ (by omega), hcode] at hb0
      exact absurd hb0 (by decide)
    · rw [if_neg (by rw [hzero]; decide)] at h1
      have hlen1 := length_of_answer h1
      rw [sendlen_reply, if_pos rfl, hc1, hlen0] at hlen1
      exact absurd hlen1 (by decide)
  · intro hn
    refine fixed_of_exception d hmin (by decide : MbErr.noReg ≠ .noErr) fun g => ?_
    have hge := frameNreg_ge hmin hshort g
    rw [analysisProtocol_read d (hcode g), frameAddr_blit g hlen, if_pos (by omega)]

theorem fixed_short_block (h10 : frame bs 1 = 0x10) :
    Fixed bs d ↔ cpadSRegHoldingNregs < frameAddr (frame bs) + (word (frame bs 4) 0).toNat := by
  have hlen : 4 ≤ bs.length := hmin
  have hcode : ∀ g, blit g 0 bs 1 = 0x10 := fun g => (blit_frame g (by omega)).trans h10
  constructor
  · rintro ⟨e, he⟩
    by_contra hno
    have h0 := he (behind (frame bs 4) 0)
    have h1 := he (behind (frame bs 4) 1)
    rw [analysisProtocol_block (hcode _), frameAddr_blit _ hlen, frameNreg_behind hmin hshort] at h0 h1
    rw [toNat_word] at hno
    have hzero : (0 : Byte).toNat = 0 := rfl
    -- a whole number of 256 registers is none or too many, and is passed over
    have hpass : cpadEMBRegHoldingCB .fault (fun k => blit (behind (frame bs 4) 0) 0 bs (7 + k)) (frameAddr (frame bs))
        (256 * (frame bs 4).toNat + (0 : Byte).toNat) .multipleWrite d = .ok (.noErr, [], d) :=
      block_passed d (by unfold Refused; omega) (by unfold Reaches; omega)
    have hlen8 : e.sent.length = 8 := by
      rw [hpass] at h0
      exact length_of_answer h0
    have h5 := (sent_write h0 hlen8).symm.trans (sent_write h1 hlen8)
    rw [(blit_behind hmin hshort 0 fun _ => rfl).2, (blit_behind hmin hshort 1 fun _ => rfl).2] at h5
    exact absurd h5 (by decide)
  · intro hn
    refine fixed_of_exception d hmin (by decide : MbErr.noReg ≠ .noErr) fun g => ?_
    have hge := frameNreg_ge hmin hshort g
    rw [analysisProtocol_block (hcode g), frameAddr_blit g hlen, block_refused d (.inl (by omega))]
    rfl

theorem frameValue_behind {hi : Byte} (lo : Byte) (h : bs.length = 5 → hi = frame bs 4) :
    frameValue (blit (behind hi lo) 0 bs) = word hi lo := by
  obtain ⟨h4, h5⟩ := blit_behind hmin hshort lo h
  rw [frameValue, h4, h5]

/-- The answer to a value that is taken repeats it, and the controller does not restart whatever its low byte. -/
theorem not_fixed_of_taken (h6 : frame bs 1 = 0x06) {v : Word} (hv : bs.length = 5 → hiByte v = frame bs 4)
    (hd : ¬Declined d (frameAddr (frame bs)) v) : ¬Fixed bs d := by
  rintro ⟨e, he⟩
  have hlen : 4 ≤ bs.length := hmin
  have hcode : ∀ g, blit g 0 bs 1 = 0x06 := fun g => (blit_frame g (by omega)).trans h6
  have hval : ∀ lo, frameValue (blit (behind (hiByte v) lo) 0 bs) = word (hiByte v) lo := fun lo =>
    frameValue_behind hmin hshort lo hv
  have hself : frameValue (blit (behind (hiByte v) (loByte v)) 0 bs) = v := (hval _).trans (word_bytes v)
  have hanswer : ∀ lo, answerEffect ((cpadEMBRegHoldingCB .fault (fun k => blit (behind (hiByte v) lo) 0 bs (4 + k))
      (frameAddr (frame bs)) 1 .singleWrite d).map
        fun x => reply x.1 (blit (behind (hiByte v) lo) 0 bs) 8 x.2.2) = some e := fun lo => by
    rw [← frameAddr_blit (behind (hiByte v) lo) hlen, ← analysisProtocol_single d (hcode _), he]
  have hv' := hanswer (loByte v)
  rcases single_taken (fun k => blit (behind (hiByte v) (loByte v)) 0 bs (4 + k))
    (fun hdec => hd (hself ▸ hdec)) with ⟨d', hcb⟩ | hcb | ⟨hres, d', hcb⟩
  · have hlen8 : e.sent.length = 8 := by
      rw [hcb] at hv'
      exact length_of_answer hv'
    obtain ⟨lo, hlo⟩ := exists_other_byte (loByte v)
    have h5 := (sent_write (hanswer lo) hlen8).symm.trans (sent_write hv' hlen8)
    rw [(blit_behind hmin hshort lo hv).2, (blit_behind hmin hshort (loByte v) hv).2] at h5
    exact hlo (Option.some.inj h5)
  · rw [hcb] at hv'
    cases hv'
  · have hempty : e.sent = [] := by
      rw [hcb] at hv'
      cases hv'
      rfl
    obtain ⟨lo, hlo⟩ := exists_not_restarts (show Restarts (frameAddr (frame bs)) v from hself ▸ hres)
    refine sent_single d (hcode _) (he (behind (hiByte v) lo)) ?_ hempty
    rw [frameAddr_blit _ hlen, hval]
    exact hlo

theorem fixed_short_single (h6 : frame bs 1 = 0x06) : Fixed bs d ↔
    ∀ v : Word, (bs.length = 5 → hiByte v = frame bs 4) → Declined d (frameAddr (frame bs)) v := by
  have hlen : 4 ≤ bs.length := hmin
  constructor
  · intro hfixed v hv
    by_contra hd
    exact not_fixed_of_taken d hmin hshort h6 hv hd hfixed
  · intro hall
    have herr : (if frameAddr (frame bs) < cpadRegHoldingWriteNregs then MbErr.noRes else .noReg) ≠ .noErr := by
      split <;> decide
    refine fixed_of_exception d hmin herr fun g => ?_
    have hdec : Declined d (frameAddr (frame bs)) (word (blit g 0 bs (4 + 0)) (blit g 0 bs (4 + 1))) := by
      refine hall _ fun h5 => ?_
      rw [hiByte_word, blit_frame g (by omega)]
    rw [analysisProtocol_single d ((blit_frame g (by omega)).trans h6), frameAddr_blit g hlen,
      single_declined (fun k => blit g 0 bs (4 + k)) hdec]
    rfl

theorem fixed_iff_short : Fixed bs d ↔ Contained bs d := by
  have hlen : 4 ≤ bs.length := hmin
  unfold Contained
  rw [if_neg (by omega)]
  by_cases h3 : frame bs 1 = 0x03
  · rw [if_pos (.inl h3)]
    exact fixed_short_read d hmin hshort h3
  by_cases h10 : frame bs 1 = 0x10
  · rw [if_pos (.inr h10)]
    exact fixed_short_block d hmin hshort h10
  rw [if_neg (not_or.mpr ⟨h3, h10⟩)]
  by_cases h6 : frame bs 1 = 0x06
  · rw [and_iff_right h6]
    exact fixed_short_single d hmin hshort h6
  · refine iff_of_false (fun ⟨e, he⟩ => ?_) fun h => h6 h.1
    have h0 := he (frame bs)
    rw [analysisProtocol_other d (by rw [blit_frame _ (by omega)]; exact h3)
      (by rw [blit_frame _ (by omega)]; exact h6) (by rw [blit_frame _ (by omega)]; exact h10)] at h0
    cases h0

end short

/-! ## Slaves -/

/-- Of which frames the effect depends on the frame alone, for every slave that has received it and every state of the
registers. -/
theorem frame_alone_iff {a : Word} {bs : List Byte} {s : Slave} (h : Received a bs s) (hr : s.ready = true)
    (hmin : mntRxMin ≤ bs.length) (hcrc : usMBCRC16 (frame bs) bs.length = 0) (d : Dev) :
    (∀ s', Received a bs s' → s'.ready = true →
      SameEffect (cpadMBPoll .fault s d) (cpadMBPoll .fault s' d)) ↔ Contained bs d := by
  have hfixed : Fixed bs d ↔ Contained bs d := by
    by_cases h6 : 6 ≤ bs.length
    · exact fixed_iff_long d h6
    · exact fixed_iff_short d hmin (by omega)
  rw [← hfixed]
  constructor
  · intro hall
    obtain ⟨e, he, -⟩ := hall s h hr
    refine ⟨e, fun g => ?_⟩
    have hs := received_stale h g
    obtain ⟨e', he', hg⟩ := hall _ hs hr
    rw [effect_cpadMBPoll hs hr hmin hcrc] at hg
    rw [Option.some.inj (he.symm.trans he')]
    exact hg
  · rintro ⟨e, he⟩ s' h' hr'
    refine ⟨e, ?_, ?_⟩
    · rw [effect_cpadMBPoll h hr hmin hcrc, ← (holds_received h).buffer]
      exact he _
    · rw [effect_cpadMBPoll h' hr' hmin hcrc, ← (holds_received h').buffer]
      exact he _

/-- What was in the buffer before does not show in the answer to it. -/
theorem frame_alone_iff_read : Received 1 oneRead (hear oneRead (listening 0xFF)) ∧
    (hear oneRead (listening 0xFF)).ready = true ∧ mntRxMin ≤ oneRead.length ∧
    usMBCRC16 (frame oneRead) oneRead.length = 0 ∧
    ∀ s', Received 1 oneRead s' → s'.ready = true →
      SameEffect (cpadMBPoll .fault (hear oneRead (listening 0xFF)) freshDev) (cpadMBPoll .fault s' freshDev) := by
  have hrec : Received 1 oneRead (hear oneRead (listening 0xFF)) :=
    received_hear rfl rfl rfl (by decide) (by decide) (by decide +kernel)
  have hcrc : usMBCRC16 (frame oneRead) oneRead.length = 0 := by decide +kernel
  exact ⟨hrec, by decide +kernel, by decide, hcrc,
    (frame_alone_iff hrec (by decide +kernel) (by decide) hcrc freshDev).mpr (.inr (by decide))⟩

/-- A write of three registers that has a byte count of two, and is as long as that. -/
def shortBlock : List Byte := [0x01, 0x10, 0x00, 0x42, 0x00, 0x03, 0x02, 0x00, 0x01, 0x69, 0x0A]

/-- The third register is written with what was in the buffer before. -/
theorem stale_written : usMBCRC16 (frame shortBlock) shortBlock.length = 0 ∧
    (∀ b ∈ [0x00, 0x01], Received 1 shortBlock (hear shortBlock (listening b)) ∧
      (hear shortBlock (listening b)).ready = true ∧
      (effect (cpadMBPoll .fault (hear shortBlock (listening b)) freshDev)).map (fun e => e.conf 4) = some (word b b)) ∧
    ¬SameEffect (cpadMBPoll .fault (hear shortBlock (listening 0x00)) freshDev)
      (cpadMBPoll .fault (hear shortBlock (listening 0x01)) freshDev) := by
  have hb : ∀ b ∈ [0x00, 0x01], Received 1 shortBlock (hear shortBlock (listening b)) ∧
      (hear shortBlock (listening b)).ready = true ∧
      (effect (cpadMBPoll .fault (hear shortBlock (listening b)) freshDev)).map (fun e => e.conf 4) = some (word b b) := by
    rintro b hb
    simp only [List.mem_cons, List.not_mem_nil, or_false] at hb
    rcases hb with rfl | rfl
    · exact ⟨received_hear rfl rfl rfl (by decide) (by decide) (by decide +kernel), by decide +kernel,
        by decide +kernel⟩
    · exact ⟨received_hear rfl rfl rfl (by decide) (by decide) (by decide +kernel), by decide +kernel,
        by decide +kernel⟩
  refine ⟨by decide +kernel, hb, ?_⟩
  rintro ⟨e, h0, h1⟩
  have hc0 := (hb 0x00 (by decide)).2.2
  have hc1 := (hb 0x01 (by decide)).2.2
  rw [h0] at hc0
  rw [h1] at hc1
  exact absurd (hc0.symm.trans hc1) (by decide)

end WM.Proof
