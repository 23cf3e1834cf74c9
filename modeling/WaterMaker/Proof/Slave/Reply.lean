import WaterMaker.Proof.Slave.Frame

/-!
# Well-formed replies

The byte count of a read is one byte of the reply, so that the answer to a read of 128 registers carries none of them
(`read_cut_short`); an unknown function has no answer at all, and a block that is passed over a normal one.
`replies_iff` says exactly which requests get a good reply.
-/

namespace WM.Proof

open WM WM.Impl WM.Spec

/-- What lies beyond the buffer has no part in an answer. -/
theorem analysisProtocol_within {rx rx' : Nat → Byte} (d : Dev) (h : ∀ k < mntRxLen, rx' k = rx k) :
    SameReply mntRxLen (analysisProtocol .fault rx d) (analysisProtocol .fault rx' d) := by
  refine analysisProtocol_congr h d (by decide) fun _ hr => ?_
  have hn := hr.2.1
  change 7 + 2 * frameNreg rx ≤ 512
  omega

/-- A reply is well formed if it is an error exactly for what is not served. -/
theorem wellFormed_reply {rx f : Nat → Byte} {err : MbErr} {len : Nat} {d : Dev} (d' : Dev) (h5 : 5 ≤ len)
    (hmax : len ≤ mntRxLen) (hcode : f 1 = rx 1) (hf : ∀ k, mntRxLen ≤ k → f k = rx k)
    (hs : Served rx d ↔ err = .noErr)
    (hread : rx 1 = 0x03 → err = .noErr → (f 2).toNat = 2 * frameNreg rx ∧ len = 3 + 2 * frameNreg rx + 2) :
    WellFormed rx d (reply err f len d') where
  length := by
    rw [sendlen_reply]
    split
    · exact ⟨h5, hmax⟩
    · exact ⟨Nat.le_refl _, by decide⟩
  crc := crc_reply err f d' h5
  read := fun h3 hserved => by
    have he := hs.mp hserved
    subst he
    rw [rxbuf_reply f d' (show 2 + 2 < len by omega)]
    exact hread h3 rfl
  exception := fun hno => by
    have he : err ≠ .noErr := fun he => hno (hs.mpr he)
    rw [sendlen_reply, if_neg he, rxbuf_exception he, hcode]
    exact ⟨rfl, rfl⟩
  beyond := fun k hk => (rxbuf_reply_beyond err f d' hmax hk).trans (hf k hk)

theorem replies_of_ok {rx : Nat → Byte} {d : Dev} {r : Reply} (h : analysisProtocol .fault rx d = .ok r) :
    Replies rx d ↔ WellFormed rx d r := by
  refine ⟨fun hr => hr.wellFormed r h, fun hw => ⟨fun r' hr' => ?_, ?_, fun _ => analysisProtocol_within d⟩⟩
  · rw [← Except.ok.inj (h.symm.trans hr')]
    exact hw
  · rw [h]
    exact nofun

theorem not_replies_of_fault {rx : Nat → Byte} {d : Dev} (h : analysisProtocol .fault rx d = .error .fault) :
    ¬Replies rx d := fun hr => hr.noFault h

/-! ## The function codes -/

section codes

variable {rx : Nat → Byte} (d : Dev)

theorem replies_read (h : rx 1 = 0x03) : Replies rx d ↔
    cpadSRegHoldingNregs < frameAddr rx + frameNreg rx ∨ frameNreg rx ≤ 127 := by
  have hanswer := analysisProtocol_read d h
  have hserved : Served rx d ↔ frameAddr rx + frameNreg rx ≤ cpadSRegHoldingNregs := by
    unfold Served
    rw [if_pos h]
  have hcount : (byteCount rx).toNat = 2 * frameNreg rx % 256 := BitVec.toNat_ofNat ..
  have hbuf : (512 : Nat) = mntRxLen := rfl
  by_cases hn : cpadSRegHoldingNregs < frameAddr rx + frameNreg rx
  · rw [if_pos hn] at hanswer
    refine iff_of_true ((replies_of_ok hanswer).mpr ?_) (.inl hn)
    refine wellFormed_reply d (by decide) (by decide) rfl (fun _ _ => rfl) (iff_of_false ?_ nofun)
      fun _ he => nomatch he
    rw [hserved]
    omega
  rw [or_iff_right hn]
  rw [if_neg hn] at hanswer
  by_cases hf : 254 < frameNreg rx
  · rw [if_pos hf] at hanswer
    exact iff_of_false (not_replies_of_fault hanswer) (by omega)
  rw [if_neg hf] at hanswer
  rw [replies_of_ok hanswer]
  have hlen := length_readRegs d (frameAddr rx) (frameNreg rx)
  constructor
  · intro hw
    have hread := (hw.read h (hserved.mpr (by omega))).1
    have hlt := (reply .noErr (Function.update (blit rx 3 (readRegs d (frameAddr rx) (frameNreg rx))) 2 (byteCount rx))
      ((byteCount rx).toNat + 5) d).rxbuf 2 |>.isLt
    omega
  · intro hle
    have hwhole : (byteCount rx).toNat = 2 * frameNreg rx := hcount.trans (Nat.mod_eq_of_lt (by omega))
    refine wellFormed_reply d (by omega) (by omega) ?_ (fun k hk => ?_) (iff_of_true ?_ rfl) fun _ _ => ⟨?_, by omega⟩
    · rw [Function.update_of_ne (by decide), blit_of_not _ _ _ (by omega)]
    · rw [Function.update_of_ne (by omega), blit_of_not _ _ _ (by omega)]
    · exact hserved.mpr (by omega)
    · rw [Function.update_self, hwhole]

theorem replies_single (h : rx 1 = 0x06) : Replies rx d ↔ SingleLawful (frameAddr rx) (frameValue rx) := by
  have hanswer := analysisProtocol_single d h
  have hfault := single_fault_iff (fun k => rx (4 + k)) (frameAddr rx) d
  have hserved : Served rx d ↔ ¬Declined d (frameAddr rx) (frameValue rx) := by
    unfold Served
    rw [if_neg (by rw [h]; decide), if_pos h]
  have hgood : ∀ err d', (Served rx d ↔ err = .noErr) → WellFormed rx d (reply err rx 8 d') := fun err d' hs =>
    wellFormed_reply d' (by decide) (by decide) rfl (fun _ _ => rfl) hs fun h3 => by rw [h] at h3; cases h3
  by_cases hd : Declined d (frameAddr rx) (frameValue rx)
  · have hcb := single_declined (fun k => rx (4 + k)) hd
    rw [hcb] at hanswer hfault
    refine iff_of_true ((replies_of_ok hanswer).mpr (hgood _ d (iff_of_false ?_ ?_))) (not_not.mp fun hl => ?_)
    · exact fun hs => hserved.mp hs hd
    · dsimp only
      split <;> decide
    · exact nomatch hfault.mpr hl
  · rcases single_taken (fun k => rx (4 + k)) hd with ⟨d', hcb⟩ | hcb | ⟨-, d', hcb⟩
    · rw [hcb] at hanswer hfault
      refine iff_of_true ((replies_of_ok hanswer).mpr (hgood _ d' (iff_of_true (hserved.mpr hd) rfl)))
        (not_not.mp fun hl => ?_)
      exact nomatch hfault.mpr hl
    · refine iff_of_false (not_replies_of_fault ?_) (hfault.mp hcb)
      rw [hanswer, hcb]
      rfl
    · rw [hcb] at hanswer hfault
      refine iff_of_true ⟨fun r hr => ?_, ?_, fun _ => analysisProtocol_within d⟩ (not_not.mp fun hl => ?_)
      · exact nomatch hanswer.symm.trans hr
      · rw [hanswer]
        exact nofun
      · exact nomatch hfault.mpr hl

theorem replies_block (h : rx 1 = 0x10) : Replies rx d ↔ Refused (frameAddr rx) (frameNreg rx) ∨
    Reaches (frameAddr rx) (frameNreg rx) ∧ Mapped (frameAddr rx) (frameNreg rx) := by
  have hserved : Served rx d ↔ Reaches (frameAddr rx) (frameNreg rx) := by
    unfold Served
    rw [if_neg (by rw [h]; decide), if_neg (by rw [h]; decide), and_iff_right h]
  have hgood : ∀ err d', (Served rx d ↔ err = .noErr) → WellFormed rx d (reply err rx 8 d') := fun err d' hs =>
    wellFormed_reply d' (by decide) (by decide) rfl (fun _ _ => rfl) hs fun h3 => by rw [h] at h3; cases h3
  by_cases hr : Reaches (frameAddr rx) (frameNreg rx)
  · have hnot : ¬Refused (frameAddr rx) (frameNreg rx) := by
      unfold Refused
      unfold Reaches at hr
      have hwin : cpadRegHoldingWriteNregs ≤ cpadSRegHoldingNregs := by decide
      omega
    rw [or_iff_right hnot, and_iff_right hr]
    by_cases hm : Mapped (frameAddr rx) (frameNreg rx)
    · obtain ⟨ee, events, hw⟩ := blockWrite_mapped (fun k => rx (7 + k)) d hm
      have hanswer := analysisProtocol_block h d
      rw [block_reaches d hr, hw] at hanswer
      exact iff_of_true ((replies_of_ok hanswer).mpr (hgood _ _ (iff_of_true (hserved.mpr hr) rfl))) hm
    · refine iff_of_false (not_replies_of_fault ?_) hm
      rw [analysisProtocol_block h, block_reaches d hr, blockWrite_fault d hr.1 hm]
      rfl
  by_cases href : Refused (frameAddr rx) (frameNreg rx)
  · have hanswer : analysisProtocol .fault rx d = .ok (reply .noReg rx 8 d) := by
      rw [analysisProtocol_block h, block_refused d href]
      rfl
    exact iff_of_true ((replies_of_ok hanswer).mpr (hgood _ d (iff_of_false (mt hserved.mp hr) nofun))) (.inl href)
  · -- a block that is passed over is not served, but has a normal answer
    have hanswer : analysisProtocol .fault rx d = .ok (reply .noErr rx 8 d) := by
      rw [analysisProtocol_block h, block_passed d href hr]
      rfl
    refine iff_of_false (fun hw => ?_) fun hor => hor.elim href fun hr' => hr hr'.1
    have hlen := (((replies_of_ok hanswer).mp hw).exception (mt hserved.mp hr)).1
    exact absurd hlen (by rw [sendlen_reply, if_pos rfl]; decide)

end codes

/-- Exactly the answerable requests get a good reply, whatever the registers hold. -/
theorem replies_iff (rx : Nat → Byte) (d : Dev) : Replies rx d ↔ Answerable rx := by
  unfold Answerable
  by_cases h3 : rx 1 = 0x03
  · rw [if_pos h3]
    exact replies_read d h3
  rw [if_neg h3]
  by_cases h6 : rx 1 = 0x06
  · rw [if_pos h6]
    exact replies_single d h6
  rw [if_neg h6]
  by_cases h10 : rx 1 = 0x10
  · rw [and_iff_right h10]
    exact replies_block d h10
  · exact iff_of_false (not_replies_of_fault (analysisProtocol_other d h3 h6 h10)) fun h => h10 h.1

/-- A read of 128 registers from the first on. -/
def longRead : Nat → Byte := frame [0x01, 0x03, 0x00, 0x00, 0x00, 0x80, 0x44, 0x6A]

/-- The reply to it is five bytes long: its byte count is 0, and no register follows. -/
theorem read_cut_short : usMBCRC16 longRead 8 = 0 ∧ ¬Replies longRead freshDev ∧
    ∃ r, analysisProtocol .fault longRead freshDev = .ok r ∧ r.sendlen = 5 ∧ r.rxbuf 1 = 0x03 ∧ r.rxbuf 2 = 0 := by
  have hanswer := analysisProtocol_read freshDev (show longRead 1 = 0x03 from rfl)
  rw [if_neg (by decide), if_neg (by decide)] at hanswer
  refine ⟨by decide +kernel, ?_, _, hanswer, by decide, ?_, ?_⟩
  · rw [replies_read freshDev rfl]
    decide
  · rw [rxbuf_reply _ _ (by decide), Function.update_of_ne (by decide),
      blit_of_not _ _ _ fun h => absurd h.1 (by decide)]
    rfl
  · rw [rxbuf_reply _ _ (by decide), Function.update_self]
    decide

end WM.Proof
