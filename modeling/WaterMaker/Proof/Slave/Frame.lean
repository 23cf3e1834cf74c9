import WaterMaker.Spec.Slave
import WaterMaker.Proof.Registers.Acknowledge

/-!
# What a reply is made of

The answer of `analysis_protocol` for each function code (`analysisProtocol_read`, `analysisProtocol_single`,
`analysisProtocol_block`), with what a single write comes to (`single_declined`, `single_taken`); and
`analysisProtocol_congr`, which says how much of the buffer the answer depends on.
-/

namespace WM.Proof

open WM WM.Impl WM.Spec

/-! ## The end of a reply -/

theorem usMBCRC16_congr {f g : Nat → Byte} {len : Nat} (h : ∀ k < len, g k = f k) :
    usMBCRC16 g len = usMBCRC16 f len := by
  have hfold : (List.range len).foldl (fun crc k => crcStep crc (g k)) (0xFF, 0xFF) =
      (List.range len).foldl (fun crc k => crcStep crc (f k)) (0xFF, 0xFF) :=
    List.foldl_ext _ _ _ fun crc k hk => by rw [h k (List.mem_range.mp hk)]
  unfold usMBCRC16
  rw [hfold]

section reply

variable (err : MbErr) (rx : Nat → Byte) (len : Nat) (d : Dev)

/-- The buffer before the checksum is put into it. -/
def marked : Nat → Byte :=
  if err = .noErr then rx else Function.update (Function.update rx 1 (0x80 ||| rx 1)) 2 err.code

theorem sendlen_reply : (reply err rx len d).sendlen = if err = .noErr then len else 5 := rfl

theorem rxbuf_reply_eq : (reply err rx len d).rxbuf =
    let crc := usMBCRC16 (marked err rx) ((reply err rx len d).sendlen - 2)
    Function.update (Function.update (marked err rx) ((reply err rx len d).sendlen - 1) (hiByte crc))
      ((reply err rx len d).sendlen - 2) (loByte crc) := rfl

theorem rxbuf_reply_of_ne {k : Nat} (h1 : k ≠ (reply err rx len d).sendlen - 1)
    (h2 : k ≠ (reply err rx len d).sendlen - 2) : (reply err rx len d).rxbuf k = marked err rx k := by
  rw [rxbuf_reply_eq, Function.update_of_ne h2, Function.update_of_ne h1]

theorem rxbuf_reply_lo : (reply err rx len d).rxbuf ((reply err rx len d).sendlen - 2) =
    loByte (usMBCRC16 (marked err rx) ((reply err rx len d).sendlen - 2)) := by
  rw [rxbuf_reply_eq, Function.update_self]

theorem rxbuf_reply_hi (h : 2 ≤ (reply err rx len d).sendlen) :
    (reply err rx len d).rxbuf ((reply err rx len d).sendlen - 1) =
      hiByte (usMBCRC16 (marked err rx) ((reply err rx len d).sendlen - 2)) := by
  rw [rxbuf_reply_eq, Function.update_of_ne (by omega), Function.update_self]

variable {len}

/-- The last two bytes are the checksum of those before them. -/
theorem crc_reply (h : 5 ≤ len) :
    word ((reply err rx len d).rxbuf ((reply err rx len d).sendlen - 1))
        ((reply err rx len d).rxbuf ((reply err rx len d).sendlen - 2)) =
      usMBCRC16 (reply err rx len d).rxbuf ((reply err rx len d).sendlen - 2) := by
  have hlen : 5 ≤ (reply err rx len d).sendlen := by
    rw [sendlen_reply]
    split
    · exact h
    · exact Nat.le_refl _
  have hcrc : usMBCRC16 (reply err rx len d).rxbuf ((reply err rx len d).sendlen - 2) =
      usMBCRC16 (marked err rx) ((reply err rx len d).sendlen - 2) :=
    usMBCRC16_congr fun k hk => rxbuf_reply_of_ne err rx len d (by omega) (by omega)
  rw [hcrc, rxbuf_reply_hi err rx len d (by omega), rxbuf_reply_lo, word_bytes]

/-- Nothing is written beyond the buffer. -/
theorem rxbuf_reply_beyond (h : len ≤ mntRxLen) {k : Nat} (hk : mntRxLen ≤ k) :
    (reply err rx len d).rxbuf k = rx k := by
  have hlen : (reply err rx len d).sendlen ≤ mntRxLen := by
    rw [sendlen_reply]
    split
    · exact h
    · decide
  have h0 : 0 < mntRxLen := by decide
  have h2 : 2 < mntRxLen := by decide
  rw [rxbuf_reply_of_ne err rx len d (by omega) (by omega), marked]
  split
  · rfl
  · rw [Function.update_of_ne (by omega), Function.update_of_ne (by omega)]

end reply

/-- An exception does not depend on what was put into the reply before it. -/
theorem reply_exception {err : MbErr} (h : err ≠ .noErr) (rx : Nat → Byte) (b : Byte) (len : Nat) (d : Dev) :
    reply err (Function.update rx 2 b) len d = reply err rx 8 d := by
  have hmark : marked err (Function.update rx 2 b) = marked err rx := by
    unfold marked
    rw [if_neg h, if_neg h, Function.update_of_ne (by decide), Function.update_comm (by decide : (2 : Nat) ≠ 1),
      Function.update_idem]
  have hsend : (reply err (Function.update rx 2 b) len d).sendlen = (reply err rx 8 d).sendlen := by
    rw [sendlen_reply, sendlen_reply, if_neg h, if_neg h]
  have hbuf : (reply err (Function.update rx 2 b) len d).rxbuf = (reply err rx 8 d).rxbuf := by
    rw [rxbuf_reply_eq, rxbuf_reply_eq, hsend, hmark]
  calc reply err (Function.update rx 2 b) len d
      = ⟨(reply err (Function.update rx 2 b) len d).rxbuf,
          (reply err (Function.update rx 2 b) len d).sendlen, d⟩ := rfl
    _ = reply err rx 8 d := by rw [hbuf, hsend]; rfl

theorem marked_congr {err : MbErr} {f g : Nat → Byte} {n : Nat} (hn : 2 ≤ n) (h : ∀ k < n, g k = f k) {k : Nat}
    (hk : k < n) : marked err g k = marked err f k := by
  unfold marked
  split
  · exact h k hk
  · by_cases h2 : k = 2
    · rw [h2, Function.update_self, Function.update_self]
    · rw [Function.update_of_ne h2, Function.update_of_ne h2]
      by_cases h1 : k = 1
      · rw [h1, Function.update_self, Function.update_self, h 1 (by omega)]
      · rw [Function.update_of_ne h1, Function.update_of_ne h1, h k hk]

/-- Two buffers that are the same up to the checksum, or an exception, get the same reply. -/
theorem reply_congr {err : MbErr} {f g : Nat → Byte} {n len : Nat} (d : Dev) (h : ∀ k < n, g k = f k) (hn : 3 ≤ n)
    (hlen : err = .noErr → len ≤ n + 2) :
    SameReply n (.ok (reply err f len d)) (.ok (reply err g len d)) := by
  have hsend : (reply err f len d).sendlen ≤ n + 2 := by
    rw [sendlen_reply]
    split
    · exact hlen (by assumption)
    · omega
  have hcrc : usMBCRC16 (marked err g) ((reply err f len d).sendlen - 2) =
      usMBCRC16 (marked err f) ((reply err f len d).sendlen - 2) :=
    usMBCRC16_congr fun k hk => marked_congr (by omega) h (by omega)
  have hsame : (reply err g len d).sendlen = (reply err f len d).sendlen := rfl
  refine ⟨rfl, rfl, fun k hk => ?_⟩
  by_cases h2 : k = (reply err f len d).sendlen - 2
  · rw [h2, ← hsame, rxbuf_reply_lo, hsame, hcrc, rxbuf_reply_lo]
  by_cases h1 : k = (reply err f len d).sendlen - 1
  · have hpos : 2 ≤ (reply err f len d).sendlen := by omega
    rw [h1, ← hsame, rxbuf_reply_hi err g len d hpos, hsame, hcrc, rxbuf_reply_hi err f len d hpos]
  · rw [rxbuf_reply_of_ne err f len d h1 h2, rxbuf_reply_of_ne err g len d h1 h2]
    exact marked_congr (by omega) h (by omega)

/-! ## Single writes -/

section single

variable {d : Dev} {i : Nat} {v : Word}

theorem comWrite_declined (h : ∃ r ∈ confReg i, dataCheck d r v ≠ none) : comWrite .fault i v d = .ok (.noRes, d) := by
  obtain ⟨r, hr, hc⟩ := h
  obtain ⟨err, he⟩ := Option.ne_none_iff_exists'.mp hc
  unfold comWrite
  rw [hr]
  dsimp only
  rw [(row_of_confReg hr).1, regMapWrite_refused hr (by decide) he]
  change Except.ok (ite _ _ _, _) = _
  rw [if_neg (ne_noErr_of_dataCheck he)]

theorem comWrite_taken (h : ¬∃ r ∈ confReg i, dataCheck d r v ≠ none) :
    (∃ d', comWrite .fault i v d = .ok (.noErr, d')) ∨ comWrite .fault i v d = .error .fault := by
  unfold comWrite
  cases hr : confReg i with
  | none => exact .inr rfl
  | some r =>
    have hc : dataCheck d r v = none := not_not.mp fun hc => h ⟨r, hr, hc⟩
    dsimp only
    rw [(row_of_confReg hr).1]
    cases hm : r.mapped with
    | true =>
      obtain ⟨ee, events, he⟩ := regMapWrite_mapped hr (by decide : UserId.cpad ≠ .modebusSlave) hm hc
      rw [he]
      exact .inl ⟨_, rfl⟩
    | false =>
      rw [regMapWrite_null hr (by decide) hm hc]
      exact .inr rfl

/-- What a single write to row `i` comes to: an error, or it is done, or there is a fault or a restart. -/
def Comes (d : Dev) (i : Nat) (v : Word) (x : Except Halt (MbErr × Dev)) : Prop :=
  RowDeclined d i v ∧ x = .ok (.noRes, d) ∨ ¬RowDeclined d i v ∧ ((∃ d', x = .ok (.noErr, d')) ∨ x = .error .fault ∨
    (i = factoryReset ∧ v ∈ [0x3C, 0x5A, 0x69, 0x2D] ∨ i = manualTset ∧ v = 0) ∧ ∃ d', x = .error (.reset d'))

theorem comes_comWrite (hrow : RowDeclined d i v ↔ ∃ r ∈ confReg i, dataCheck d r v ≠ none) :
    Comes d i v (comWrite .fault i v d) := by
  by_cases hc : ∃ r ∈ confReg i, dataCheck d r v ≠ none
  · exact .inl ⟨hrow.mpr hc, comWrite_declined hc⟩
  · exact .inr ⟨mt hrow.mp hc, (comWrite_taken hc).imp_right .inl⟩

theorem comes_factoryReset (d : Dev) (v : Word) : Comes d factoryReset v (comSingle .fault factoryReset v d) := by
  have hrow : RowDeclined d factoryReset v ↔ v ∉ [0x3C, 0x5A, 0x69, 0x2D, 0x1E, 0x15] := by
    unfold RowDeclined
    rw [if_pos rfl]
  by_cases hv : v ∈ [0x3C, 0x5A, 0x69, 0x2D, 0x1E, 0x15]
  · refine .inr ⟨fun hd => hrow.mp hd hv, ?_⟩
    simp only [List.mem_cons, List.not_mem_nil, or_false] at hv
    rcases hv with rfl | rfl | rfl | rfl | rfl | rfl
    · exact .inr (.inr ⟨.inl ⟨rfl, by decide⟩, _, rfl⟩)
    · exact .inr (.inr ⟨.inl ⟨rfl, by decide⟩, _, rfl⟩)
    · exact .inr (.inr ⟨.inl ⟨rfl, by decide⟩, _, rfl⟩)
    · exact .inr (.inr ⟨.inl ⟨rfl, by decide⟩, _, rfl⟩)
    · exact .inl ⟨_, rfl⟩
    · exact .inl ⟨_, rfl⟩
  · refine .inl ⟨hrow.mpr hv, ?_⟩
    simp only [List.mem_cons, List.not_mem_nil, or_false, not_or] at hv
    unfold comSingle
    rw [if_pos rfl, if_neg hv.1, if_neg hv.2.1, if_neg hv.2.2.1, if_neg hv.2.2.2.1, if_neg hv.2.2.2.2.1,
      if_neg hv.2.2.2.2.2]

theorem comes_comSingle (d : Dev) (i : Nat) (v : Word) : Comes d i v (comSingle .fault i v d) := by
  by_cases h1 : i = factoryReset
  · subst h1
    exact comes_factoryReset d v
  by_cases h2 : i = clearAlarmReg
  · subst h2
    by_cases hv : v = 0x5A
    · subst hv
      exact .inr ⟨fun hd => hd rfl, .inl ⟨_, rfl⟩⟩
    · exact .inl ⟨hv, if_neg hv⟩
  by_cases h3 : i = clearRt ∨ i = setTl ∨ i = setTh
  · have hrow : RowDeclined d i v ↔ v = 0 := by
      unfold RowDeclined
      rw [if_neg h1, if_neg h2, if_pos h3]
    unfold Comes
    rw [hrow]
    by_cases hv : v = 0
    · refine .inl ⟨hv, ?_⟩
      rcases h3 with rfl | rfl | rfl <;> exact if_neg (not_not.mpr hv)
    · refine .inr ⟨hv, .inl ?_⟩
      rcases h3 with rfl | rfl | rfl <;> exact ⟨_, if_pos hv⟩
  have hrow : RowDeclined d i v ↔ (i = manualTset → v ≠ 0) ∧ ∃ r ∈ confReg i, dataCheck d r v ≠ none := by
    unfold RowDeclined
    rw [if_neg h1, if_neg h2, if_neg h3]
  unfold comSingle
  rw [if_neg h1]
  by_cases h4 : i = manualTset
  · rw [if_pos h4]
    by_cases hv : v = 0
    · rw [if_pos hv]
      exact .inr ⟨fun hd => (hrow.mp hd).1 h4 hv, .inr (.inr ⟨.inr ⟨h4, hv⟩, _, rfl⟩)⟩
    · rw [if_neg hv]
      exact comes_comWrite (hrow.trans (and_iff_right fun _ => hv))
  · rw [if_neg h4, if_neg fun h => h3 (.inl h), if_neg h2, if_neg fun h => h3 (.inr h)]
    exact comes_comWrite (hrow.trans (and_iff_right fun h => absurd h h4))

end single

/-- The commands that restart the controller. -/
def Restarts (addr : Nat) (v : Word) : Prop :=
  addr = configRegMapOffset + factoryReset ∧ v ∈ [0x3C, 0x5A, 0x69, 0x2D] ∨
    addr = configRegMapOffset + manualTset ∧ v = 0

instance (addr : Nat) (v : Word) : Decidable (Restarts addr v) := by unfold Restarts; infer_instance

section mode

variable (buf : Nat → Byte) {addr : Nat} {d : Dev}

theorem single_declined (h : Declined d addr (word (buf 0) (buf 1))) :
    cpadEMBRegHoldingCB .fault buf addr 1 .singleWrite d =
      .ok (if addr < cpadRegHoldingWriteNregs then .noRes else .noReg, [], d) := by
  unfold cpadEMBRegHoldingCB
  by_cases hwin : addr < cpadRegHoldingWriteNregs
  · obtain ⟨hconf, hrow⟩ := h.resolve_left (Nat.not_le.mpr hwin)
    rw [if_pos (Nat.le_trans hwin (by decide)), if_pos hwin]
    unfold singleWrite
    have hcom := ((comes_comSingle d _ _).resolve_right fun h => h.1 hrow).2
    rw [if_neg (by omega), if_pos (by omega), hcom]
    rfl
  · rw [if_neg hwin]
    split
    · unfold singleWrite
      rw [if_pos (by omega)]
      rfl
    · rfl

/-- A single write that is not declined is done, or ends in a fault or with the controller's restart. -/
theorem single_taken (h : ¬Declined d addr (word (buf 0) (buf 1))) :
    (∃ d', cpadEMBRegHoldingCB .fault buf addr 1 .singleWrite d = .ok (.noErr, [], d')) ∨
    cpadEMBRegHoldingCB .fault buf addr 1 .singleWrite d = .error .fault ∨
    Restarts addr (word (buf 0) (buf 1)) ∧
      ∃ d', cpadEMBRegHoldingCB .fault buf addr 1 .singleWrite d = .error (.reset d') := by
  unfold Declined at h
  obtain ⟨hwin, hrow⟩ := not_or.mp h
  unfold cpadEMBRegHoldingCB
  rw [if_pos (Nat.le_trans (Nat.lt_of_not_le hwin) (by decide))]
  unfold singleWrite
  rw [if_neg (by omega)]
  by_cases hconf : configRegMapOffset ≤ addr
  · rw [if_pos (by omega)]
    have hcom := ((comes_comSingle d _ _).resolve_left fun h => hrow ⟨hconf, h.1⟩).2
    rcases hcom with ⟨d', he⟩ | he | ⟨hv, d', he⟩
    · rw [he]
      exact .inl ⟨d', rfl⟩
    · rw [he]
      exact .inr (.inl rfl)
    · rw [he]
      refine .inr (.inr ⟨?_, d', rfl⟩)
      rw [Nat.sub_eq_iff_eq_add' hconf, Nat.sub_eq_iff_eq_add' hconf] at hv
      exact hv
  · rw [if_neg (by omega)]
    exact .inl ⟨_, rfl⟩

variable (addr d) in
/-- A single write that is not lawful meets NULL, or leads behind the table. -/
theorem single_fault_iff : cpadEMBRegHoldingCB .fault buf addr 1 .singleWrite d = .error .fault ↔
    ¬SingleLawful addr (word (buf 0) (buf 1)) := by
  have hends := ends_single_of (Q := fun _ => True) (d := d) trivial buf addr (fun _ _ _ _ => trivial)
    fun _ _ => trivial
  rw [← hends]
  cases hcb : cpadEMBRegHoldingCB .fault buf addr 1 .singleWrite d with
  | ok x => exact iff_of_false nofun (not_not.mpr trivial)
  | error e =>
    cases e with
    | fault => exact iff_of_true rfl id
    | reset d' => exact iff_of_false nofun (not_not.mpr trivial)
    | hang d' => exact iff_of_false nofun (not_not.mpr trivial)

end mode

/-! ## The function codes -/

theorem length_readRegs (d : Dev) (addr n : Nat) : (readRegs d addr n).length = 2 * n := by
  unfold readRegs
  rw [List.length_flatMap]
  simp only [List.length_cons, List.length_nil, List.map_const', List.length_range, List.sum_replicate_nat]
  omega

/-- The byte count of the answer to a read. -/
def byteCount (rx : Nat → Byte) : Byte := BitVec.ofNat 8 (2 * frameNreg rx)

section codes

variable {rx : Nat → Byte} (d : Dev)

theorem analysisProtocol_read (h : rx 1 = 0x03) : analysisProtocol .fault rx d =
    if cpadSRegHoldingNregs < frameAddr rx + frameNreg rx then .ok (reply .noReg rx 8 d)
    else if 254 < frameNreg rx then .error .fault
    else .ok (reply .noErr (Function.update (blit rx 3 (readRegs d (frameAddr rx) (frameNreg rx))) 2 (byteCount rx))
      ((byteCount rx).toNat + 5) d) := by
  have hlen := length_readRegs d (frameAddr rx) (frameNreg rx)
  unfold analysisProtocol cpadEMBRegHoldingCB
  rw [if_pos h]
  by_cases hn : cpadSRegHoldingNregs < frameAddr rx + frameNreg rx
  · rw [if_pos hn, if_neg (by omega)]
    change Except.ok (reply .noReg (Function.update (blit rx 3 []) 2 (byteCount rx)) _ d) = _
    rw [blit_nil, reply_exception (by decide)]
  · rw [if_neg hn, if_pos (by omega)]
    by_cases hf : 254 < frameNreg rx
    · rw [if_pos hf]
      exact if_pos (show 3 + (readRegs d (frameAddr rx) (frameNreg rx)).length > 512 by omega)
    · rw [if_neg hf]
      exact if_neg (show ¬3 + (readRegs d (frameAddr rx) (frameNreg rx)).length > 512 by omega)

theorem analysisProtocol_single (h : rx 1 = 0x06) : analysisProtocol .fault rx d =
    (cpadEMBRegHoldingCB .fault (fun k => rx (4 + k)) (frameAddr rx) 1 .singleWrite d).map
      fun x => reply x.1 rx 8 x.2.2 := by
  unfold analysisProtocol
  rw [if_neg (by rw [h]; decide), if_pos h]
  cases cpadEMBRegHoldingCB .fault (fun k => rx (4 + k)) (frameAddr rx) 1 .singleWrite d <;> rfl

theorem analysisProtocol_other (h3 : rx 1 ≠ 0x03) (h6 : rx 1 ≠ 0x06) (h10 : rx 1 ≠ 0x10) :
    analysisProtocol .fault rx d = .error .fault := by
  unfold analysisProtocol
  rw [if_neg h3, if_neg h6, if_neg h10]

end codes

/-! ## What the answer depends on -/

theorem sent_congr {buf buf' : Nat → Byte} {n : Nat} (h : ∀ k < 2 * n, buf' k = buf k) :
    sent buf' n = sent buf n := by
  refine List.map_congr_left fun i hi => ?_
  have hi' := List.mem_range.mp hi
  rw [h (2 * i) (by omega), h (2 * i + 1) (by omega)]

theorem blockWrite_congr {buf buf' : Nat → Byte} {addr n : Nat} (d : Dev) (hn : 0 < n)
    (h : ∀ k < 2 * n, buf' k = buf k) : blockWrite .fault buf' addr n d = blockWrite .fault buf addr n d := by
  by_cases hm : Mapped addr n
  · rw [blockWrite_eq buf' d hm, blockWrite_eq buf d hm, sent_congr h]
  · rw [blockWrite_fault d hn hm, blockWrite_fault d hn hm]

/-- A block that is not written does not depend on its values. -/
theorem block_congr (buf : Nat → Byte) {buf' : Nat → Byte} {addr n : Nat} (d : Dev)
    (h : Reaches addr n → ∀ k < 2 * n, buf' k = buf k) :
    cpadEMBRegHoldingCB .fault buf' addr n .multipleWrite d =
      cpadEMBRegHoldingCB .fault buf addr n .multipleWrite d := by
  by_cases hr : Reaches addr n
  · rw [block_reaches d hr, block_reaches d hr, blockWrite_congr d hr.1 (h hr)]
  by_cases href : Refused addr n
  · rw [block_refused d href, block_refused d href]
  · rw [block_passed d href hr, block_passed d href hr]

theorem single_congr (buf : Nat → Byte) {buf' : Nat → Byte} (addr : Nat) (d : Dev) (h : ∀ k < 2, buf' k = buf k) :
    cpadEMBRegHoldingCB .fault buf' addr 1 .singleWrite d = cpadEMBRegHoldingCB .fault buf addr 1 .singleWrite d := by
  unfold cpadEMBRegHoldingCB singleWrite
  rw [h 0 (by decide), h 1 (by decide)]

theorem sameReply_map {n : Nat} {f g : Nat → Byte} (hn : 6 ≤ n) (h : ∀ k < n, g k = f k)
    (x : Except Halt (MbErr × List Byte × Dev)) :
    SameReply n (x.map fun y => reply y.1 f 8 y.2.2) (x.map fun y => reply y.1 g 8 y.2.2) := by
  cases x with
  | error e => exact rfl
  | ok y => exact reply_congr y.2.2 h (by omega) fun _ => by omega

theorem SameReply.mono {m n : Nat} {x y : Except Halt Reply} (h : SameReply n x y) (hm : m ≤ n) :
    SameReply m x y := by
  match x, y, h with
  | .ok r, .ok r', h => exact ⟨h.1, h.2.1, fun k hk => h.2.2 k (by omega)⟩
  | .error _, .error _, h => exact h

section congr

variable {n : Nat} {rx rx' : Nat → Byte} (h : ∀ k < n, rx' k = rx k)
include h

theorem frameAddr_congr (hn : 4 ≤ n) : frameAddr rx' = frameAddr rx := by
  unfold frameAddr
  rw [h 2 (by omega), h 3 (by omega)]

theorem frameNreg_congr (hn : 6 ≤ n) : frameNreg rx' = frameNreg rx := by
  unfold frameNreg
  rw [h 4 (by omega), h 5 (by omega)]

theorem blit_bytes_congr (bs : List Byte) (hn : 3 ≤ n) {k : Nat} (hk : k < max n (3 + bs.length)) :
    blit rx' 3 bs k = blit rx 3 bs k := by
  by_cases hin : 3 ≤ k ∧ k < 3 + bs.length
  · exact blit_congr hin.1 hin.2
  · rw [blit_of_not _ _ _ hin, blit_of_not _ _ _ hin, h k (by omega)]

theorem read_congr (d : Dev) (hn : 6 ≤ n) (h3 : rx 1 = 0x03) :
    SameReply n (analysisProtocol .fault rx d) (analysisProtocol .fault rx' d) := by
  have hnreg := frameNreg_congr h hn
  have hcount : byteCount rx' = byteCount rx := by
    unfold byteCount
    rw [hnreg]
  have hle : (byteCount rx).toNat ≤ 2 * frameNreg rx := by
    unfold byteCount
    rw [BitVec.toNat_ofNat]
    exact Nat.mod_le ..
  rw [analysisProtocol_read d h3, analysisProtocol_read d ((h 1 (by omega)).trans h3), frameAddr_congr h (by omega),
    hnreg, hcount]
  split
  · exact reply_congr d h (by omega) nofun
  split
  · exact rfl
  · have hlen := length_readRegs d (frameAddr rx) (frameNreg rx)
    refine SameReply.mono (n := max n (3 + (readRegs d (frameAddr rx) (frameNreg rx)).length))
      (reply_congr d (fun k hk => ?_) (by omega) fun _ => by omega) (Nat.le_max_left ..)
    rw [Function.update_apply, Function.update_apply, blit_bytes_congr h _ (by omega) hk]

/-- The answer depends on the first six bytes of the buffer, and on the values of a block that is written. -/
theorem analysisProtocol_congr (d : Dev) (hn : 6 ≤ n)
    (hb : rx 1 = 0x10 → Reaches (frameAddr rx) (frameNreg rx) → 7 + 2 * frameNreg rx ≤ n) :
    SameReply n (analysisProtocol .fault rx d) (analysisProtocol .fault rx' d) := by
  have haddr := frameAddr_congr h (show 4 ≤ n by omega)
  have hcode : rx' 1 = rx 1 := h 1 (by omega)
  by_cases h3 : rx 1 = 0x03
  · exact read_congr h d hn h3
  by_cases h6 : rx 1 = 0x06
  · rw [analysisProtocol_single d h6, analysisProtocol_single d (hcode.trans h6), haddr,
      single_congr (fun k => rx (4 + k)) _ d fun k hk => h (4 + k) (by omega)]
    exact sameReply_map hn h _
  by_cases h10 : rx 1 = 0x10
  · rw [analysisProtocol_block h10, analysisProtocol_block (hcode.trans h10), haddr, frameNreg_congr h hn,
      block_congr (fun k => rx (7 + k)) d fun hr k hk => h (7 + k) (by have := hb h10 hr; omega)]
    exact sameReply_map hn h _
  · rw [analysisProtocol_other d h3 h6 h10, analysisProtocol_other d (hcode ▸ h3) (hcode ▸ h6) (hcode ▸ h10)]
    exact rfl

end congr

end WM.Proof
