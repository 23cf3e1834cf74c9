import WaterMaker.Proof.Registers.Legal

/-!
# Acknowledged block writes

`analysis_protocol` answers a block write with a normal reply unless the block is refused. A block of no registers
or of too many, and one among the command registers, is passed over (`block_passed`), and the byte count of the
frame is not looked at, so that an acknowledged write need not have taken effect (`block_passed_over`).
`acknowledged_iff` says exactly when it has.
-/

namespace WM.Proof

open WM WM.Impl WM.Spec

/-! ## Replies -/

/-- The start of a normal reply is that of the buffer. -/
theorem rxbuf_reply (rx : Nat → Byte) (d : Dev) {len k : Nat} (h : k + 2 < len) :
    (reply .noErr rx len d).rxbuf k = rx k := by
  unfold reply
  dsimp only
  rw [if_pos rfl, if_pos rfl, Function.update_of_ne (by omega), Function.update_of_ne (by omega)]

/-- An exception shows in the function code. -/
theorem rxbuf_exception {err : MbErr} (h : err ≠ .noErr) (rx : Nat → Byte) (len : Nat) (d : Dev) :
    (reply err rx len d).rxbuf 1 = 0x80 ||| rx 1 := by
  unfold reply
  dsimp only
  rw [if_neg h, if_neg h, Function.update_of_ne (by decide), Function.update_of_ne (by decide),
    Function.update_of_ne (by decide), Function.update_self]

/-- The frame for it. -/
def readFrame (a : Nat) : Nat → Byte :=
  frame [0x01, 0x03, hiByte (BitVec.ofNat 16 a), loByte (BitVec.ofNat 16 a), 0x00, 0x01]

theorem frameAddr_readFrame {a : Nat} (h : a < cpadSRegHoldingNregs) : frameAddr (readFrame a) = a := by
  change (word (hiByte (BitVec.ofNat 16 a)) (loByte (BitVec.ofNat 16 a))).toNat = a
  rw [word_bytes, BitVec.toNat_ofNat]
  exact Nat.mod_eq_of_lt (Nat.lt_trans h (by decide))

theorem frameNreg_readFrame (a : Nat) : frameNreg (readFrame a) = 1 := by
  change (word 0x00 0x01).toNat = 1
  decide

theorem read_one {rx : Nat → Byte} (d : Dev) (h : rx 1 = 0x03) (ha : frameAddr rx < cpadSRegHoldingNregs)
    (hn : frameNreg rx = 1) : ∃ s, analysisProtocol .fault rx d = .ok s ∧ s.rxbuf 1 = 0x03 ∧ s.rxbuf 2 = 2 ∧
      word (s.rxbuf 3) (s.rxbuf 4) = mbsReadReg d (frameAddr rx) := by
  have hbytes : readRegs d (frameAddr rx) 1 =
      [hiByte (mbsReadReg d (frameAddr rx)), loByte (mbsReadReg d (frameAddr rx))] := rfl
  unfold analysisProtocol cpadEMBRegHoldingCB
  rw [if_pos h, hn, if_pos (by omega)]
  rw [hbytes]
  refine ⟨_, rfl, ?_, ?_, ?_⟩
  · rw [rxbuf_reply _ _ (by decide), Function.update_of_ne (by decide),
      blit_of_not _ _ _ fun h => absurd h.1 (by decide)]
    exact h
  · rw [rxbuf_reply _ _ (by decide), Function.update_self]
    rfl
  · rw [rxbuf_reply _ _ (by decide), rxbuf_reply _ _ (by decide), Function.update_of_ne (by decide),
      Function.update_of_ne (by decide)]
    exact word_bytes _

theorem reads_iff {d : Dev} {a : Nat} (ha : a < cpadSRegHoldingNregs) {v : Word} :
    Reads d a v ↔ mbsReadReg d a = v := by
  constructor
  · intro h
    have haddr := frameAddr_readFrame ha
    obtain ⟨s, hs, -, -, hv⟩ := h (readFrame a) rfl haddr (frameNreg_readFrame a)
    obtain ⟨s', hs', -, -, hv'⟩ := read_one d (rfl : readFrame a 1 = 0x03) (by rw [haddr]; exact ha)
      (frameNreg_readFrame a)
    have he : s = s' := Except.ok.inj (hs.symm.trans hs')
    rw [he, hv', haddr] at hv
    exact hv
  · rintro rfl rx h rfl hn
    exact read_one d h ha hn

/-! ## Block writes -/

/-- The value of register `k` of a block. -/
theorem getElem_sent (buf : Nat → Byte) {n k : Nat} (h : k < (sent buf n).length) :
    (sent buf n)[k] = word (buf (2 * k)) (buf (2 * k + 1)) := by
  simp only [sent, List.getElem_map, List.getElem_range]

/-- Every register of a block holds what was sent. -/
theorem blockConf_at (conf : Nat → Word) {addr n : Nat} (buf : Nat → Byte) {k : Nat} (hk : k < n) :
    blockConf conf addr (sent buf n) (addr - configRegMapOffset + k) =
      word (buf (2 * k)) (buf (2 * k + 1)) := by
  have hlen : k < (sent buf n).length := by rw [length_sent]; exact hk
  unfold blockConf
  split
  · rename_i hwifi
    -- a block from the password on lies behind the register that it sets besides
    have hbehind : eeWifiSet < addr - configRegMapOffset := by
      rw [hwifi, Nat.add_sub_cancel_left]
      decide
    rw [Function.update_of_ne (by omega), blit_at _ _ hlen, getElem_sent]
  · rw [blit_at _ _ hlen, getElem_sent]

/-- Every register of a block reads back as it was sent. -/
theorem readBack (d d' : Dev) {addr n : Nat} {buf : Nat → Byte} (hm : Mapped addr n)
    (hconf : d'.conf = blockConf d.conf addr (sent buf n)) {k : Nat} (hk : k < n) :
    mbsReadReg d' (addr + k) = word (buf (2 * k)) (buf (2 * k + 1)) := by
  obtain ⟨hs, hmap⟩ := hm
  have hrow := hmap k hk
  obtain ⟨r, hr, -⟩ := isMapped_iff.mp hrow
  have hlt := lt_of_confReg hr
  have hidx : addr + k - configRegMapOffset = addr - configRegMapOffset + k := by omega
  unfold mbsReadReg Dev.word
  rw [if_neg (by omega), if_pos (by omega), hidx, if_pos hrow, hconf, blockConf_at d.conf buf hk]

theorem analysisProtocol_block {rx : Nat → Byte} (h : rx 1 = 0x10) (d : Dev) : analysisProtocol .fault rx d =
    (cpadEMBRegHoldingCB .fault (fun k => rx (7 + k)) (frameAddr rx) (frameNreg rx) .multipleWrite d).map
      fun x => reply x.1 rx 8 x.2.2 := by
  unfold analysisProtocol
  rw [if_neg (by rw [h]; decide), if_neg (by rw [h]; decide), if_pos h]
  cases cpadEMBRegHoldingCB .fault (fun k => rx (7 + k)) (frameAddr rx) (frameNreg rx) .multipleWrite d <;> rfl

/-- The answer to a block without an error is a normal one, so that everything depends on the registers then. -/
theorem tookEffect_of_noErr {rx : Nat → Byte} {d d' : Dev} (h : rx 1 = 0x10)
    (hw : ¬Refused (frameAddr rx) (frameNreg rx))
    (hcb : cpadEMBRegHoldingCB .fault (fun k => rx (7 + k)) (frameAddr rx) (frameNreg rx) .multipleWrite d =
      .ok (.noErr, [], d')) :
    TookEffect rx d ↔ (rx 6).toNat = 2 * frameNreg rx ∧ ∀ k < frameNreg rx,
      mbsReadReg d' (frameAddr rx + k) = word (rx (7 + 2 * k)) (rx (8 + 2 * k)) := by
  have hs : analysisProtocol .fault rx d = .ok (reply .noErr rx 8 d') := by
    rw [analysisProtocol_block h, hcb]
    rfl
  have hnormal : (reply .noErr rx 8 d').rxbuf 1 = 0x10 := (rxbuf_reply rx d' (by decide)).trans h
  have hread : ∀ k < frameNreg rx, (Reads d' (frameAddr rx + k) (word (rx (7 + 2 * k)) (rx (8 + 2 * k))) ↔
      mbsReadReg d' (frameAddr rx + k) = word (rx (7 + 2 * k)) (rx (8 + 2 * k))) := fun k hk => by
    unfold Refused at hw
    exact reads_iff (by omega)
  constructor
  · rintro ⟨s, hs', heff⟩
    cases hs.symm.trans hs'
    obtain ⟨hc, hr⟩ := heff hnormal
    exact ⟨hc, fun k hk => (hread k hk).mp (hr k hk)⟩
  · rintro ⟨hc, hr⟩
    exact ⟨_, hs, fun _ => ⟨hc, fun k hk => (hread k hk).mpr (hr k hk)⟩⟩

/-- Exactly when a block write that is acknowledged took effect, for every frame and every state. -/
theorem acknowledged_iff (rx : Nat → Byte) (h : rx 1 = 0x10) (d : Dev) : TookEffect rx d ↔ Truthful rx d := by
  unfold Truthful
  by_cases href : Refused (frameAddr rx) (frameNreg rx)
  · have hs : analysisProtocol .fault rx d = .ok (reply .noReg rx 8 d) := by
      rw [analysisProtocol_block h, block_refused d href]
      rfl
    have hexc : (reply .noReg rx 8 d).rxbuf 1 ≠ 0x10 := by
      rw [rxbuf_exception (by decide), h]
      decide
    exact iff_of_true ⟨_, hs, fun hn => absurd hn hexc⟩ (.inl href)
  rw [or_iff_right href]
  by_cases hr : Reaches (frameAddr rx) (frameNreg rx)
  · rw [if_pos hr]
    by_cases hm : Mapped (frameAddr rx) (frameNreg rx)
    · obtain ⟨ee, events, hw⟩ := blockWrite_mapped (fun k => rx (7 + k)) d hm
      have hcb := (block_reaches d hr).trans (congrArg (Except.map fun d => (MbErr.noErr, ([] : List Byte), d)) hw)
      rw [tookEffect_of_noErr h href hcb]
      refine and_congr_right fun _ => iff_of_true (fun k hk => ?_) hm
      have hback := readBack d { d with
        conf := blockConf d.conf (frameAddr rx) (sent (fun k => rx (7 + k)) (frameNreg rx)), ee := ee
        events := events } hm rfl hk
      rw [show 7 + (2 * k + 1) = 8 + 2 * k by omega] at hback
      exact hback
    · have hfault : analysisProtocol .fault rx d = .error .fault := by
        rw [analysisProtocol_block h, block_reaches d hr, blockWrite_fault d hr.1 hm]
        rfl
      refine iff_of_false ?_ fun hs => hm hs.2
      rintro ⟨s, hs, -⟩
      exact absurd (hfault.symm.trans hs) nofun
  · rw [if_neg hr]
    exact tookEffect_of_noErr h href (block_passed d href hr)

/-- A block of two registers of the table takes effect. -/
theorem acknowledged_iff_cooler : coolerFrame.rx 1 = 0x10 ∧ usMBCRC16 coolerFrame.rx 13 = 0 ∧
    TookEffect coolerFrame.rx freshDev :=
  ⟨rfl, by decide, (acknowledged_iff coolerFrame.rx rfl freshDev).mpr (by decide)⟩

/-- A block of one register, the first of the command registers. -/
def commandFrame : WriteFrame := ⟨frame [0x01, 0x10, 0x00, 0x00, 0x00, 0x01, 0x02, 0x12, 0x34, 0xAB, 0x27], .inr rfl⟩

/-- A frame with a valid checksum and the right byte count is acknowledged, but the register does not change. -/
theorem block_passed_over : usMBCRC16 commandFrame.rx 11 = 0 ∧ ¬TookEffect commandFrame.rx freshDev := by
  refine ⟨by decide, fun h => ?_⟩
  have hread := ((tookEffect_of_noErr rfl (by decide) (block_passed freshDev (by decide) (by decide))).mp h).2 0
    (by decide)
  exact absurd hread (by decide)

end WM.Proof
