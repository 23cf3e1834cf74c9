import WaterMaker.Proof.Slave.Receive

/-!
# Frames on the line

The slave finds in the bytes on the line the frames that begin with its address and have the length they tell
(`shows_run`, by induction on the line from `shows_lineStep`). `frames_run` reads off what that says of the flag
`rx_ok`, of the buffer and of the count.
-/

namespace WM.Proof

open WM WM.Impl WM.Spec

variable {bs : List Byte} {s : Slave} {l : Line}

/-! ## The length of a frame -/

theorem frameLength_le (bs : List Byte) : frameLength bs ≤ 264 := by
  unfold frameLength
  have := (bs.getD 6 0).isLt
  split <;> omega

theorem le_frameLength (bs : List Byte) : 8 ≤ frameLength bs := by
  unfold frameLength
  split <;> omega

/-- Seven bytes of a frame tell its length. -/
theorem frameLength_append (h : 7 ≤ bs.length) (cs : List Byte) :
    frameLength (bs ++ cs) = frameLength bs := by
  unfold frameLength
  rw [List.getD_append _ _ _ _ (by omega), List.getD_append _ _ _ _ (by omega)]

/-- A frame does not get past its length unnoticed: the length is told before it is reached. -/
theorem length_snoc_le (h : bs.length < frameLength bs) (b : Byte) :
    (bs ++ [b]).length ≤ frameLength (bs ++ [b]) := by
  by_cases hlen : 7 ≤ bs.length
  · rw [frameLength_append hlen, List.length_append, List.length_singleton]
    omega
  · have := le_frameLength (bs ++ [b])
    rw [List.length_append, List.length_singleton]
    omega

/-- The test of the receive interrupt, for a frame not past its length. -/
theorem whole_iff {f : Nat → Byte} (hf : ∀ k < bs.length, f k = bs.getD k 0) (h2 : 2 ≤ bs.length)
    (hle : bs.length ≤ frameLength bs) : Whole f bs.length ↔ bs.length = frameLength bs := by
  unfold Whole
  unfold frameLength at hle ⊢
  rw [hf 1 (by omega)]
  by_cases h1 : bs.getD 1 0 = 0x10
  · rw [if_neg (not_not.mpr h1), if_pos h1]
    constructor
    · rintro ⟨h9, hc⟩
      rw [hf 6 (by omega)] at hc
      exact hc
    · intro hc
      rw [hf 6 (by omega)]
      exact ⟨by omega, hc⟩
  · rw [if_neg h1] at hle ⊢
    rw [if_pos h1]
    exact ⟨fun h8 => Nat.le_antisymm hle h8, fun h8 => Nat.le_of_eq h8.symm⟩

/-! ## The buffer -/

theorem length_inBuffer (s : Slave) : (inBuffer s).length = s.recCnt := by
  unfold inBuffer
  rw [List.length_map, List.length_range]

theorem getD_inBuffer {k : Nat} (hk : k < s.recCnt) : (inBuffer s).getD k 0 = s.rxbuf k := by
  unfold inBuffer
  rw [List.getD_eq_getElem _ _ (by simpa using hk), List.getElem_map, List.getElem_range]

theorem inBuffer_putByte (b : Byte) (s : Slave) : inBuffer (putByte b s) = inBuffer s ++ [b] := by
  unfold inBuffer putByte
  dsimp only
  rw [List.range_succ, List.map_append, List.map_singleton, Function.update_self]
  congr 1
  refine List.map_congr_left fun k hk => Function.update_of_ne ?_ _ _
  have := List.mem_range.mp hk
  omega

/-! ## One event -/

theorem shows_first (h : Listening s) {b : Byte} (hb : b.toNat = s.addr.toNat) :
    Shows (.part [b]) (s.cpadPortSerialReceiveFSM b) := by
  have hlen : [b].length < 8 := Nat.one_lt_succ_succ 6
  rw [receive_first h.rxOk h.recState hb]
  refine ⟨h.rxOk, rfl, ?_, List.cons_ne_nil _ _, Nat.lt_of_lt_of_le hlen (le_frameLength [b])⟩
  unfold inBuffer
  simp

theorem shows_next (h : Shows (.part bs) s) (b : Byte) :
    Shows (if (bs ++ [b]).length = frameLength (bs ++ [b]) then .whole (bs ++ [b]) else .part (bs ++ [b]))
      (s.cpadPortSerialReceiveFSM b) := by
  obtain ⟨hok, hstate, hbuf, hne, hlt⟩ := h
  have hcnt : s.recCnt = bs.length := by rw [← hbuf, length_inBuffer]
  have hle := frameLength_le bs
  have hpos := List.length_pos_iff.mpr hne
  have hput : inBuffer (putByte b { s with rxFlag := true }) = bs ++ [b] := by
    rw [inBuffer_putByte]
    exact congrArg (· ++ [b]) hbuf
  have hlen : (putByte b { s with rxFlag := true }).recCnt = (bs ++ [b]).length := by rw [← length_inBuffer, hput]
  have hwhole : Whole (putByte b { s with rxFlag := true }).rxbuf (bs ++ [b]).length ↔
      (bs ++ [b]).length = frameLength (bs ++ [b]) := by
    refine whole_iff (fun k hk => ?_) (by rw [List.length_append, List.length_singleton]; omega) (length_snoc_le hlt b)
    rw [← hput, getD_inBuffer (hlen ▸ hk)]
  rw [receive_data hok hstate (by rw [hcnt]; unfold mntRxLen; omega), store_eq, hlen]
  by_cases hw : (bs ++ [b]).length = frameLength (bs ++ [b])
  · rw [if_pos hw, if_pos (hwhole.mpr hw)]
    exact ⟨rfl, rfl, hput, hw⟩
  · rw [if_neg hw, if_neg (mt hwhole.mp hw)]
    exact ⟨hok, hstate, hput, by simp, Nat.lt_of_le_of_ne (length_snoc_le hlt b) hw⟩

theorem addr_receive (b : Byte) (s : Slave) : (s.cpadPortSerialReceiveFSM b).addr = s.addr := by
  unfold Slave.cpadPortSerialReceiveFSM Slave.store Slave.complete
  dsimp only
  repeat' split
  all_goals rfl

/-- `cpad_MBPoll` first sees to the timer. -/
theorem seen_eq (s : Slave) : ∃ rxFlag timer, s.seen = { s with rxFlag := rxFlag, timer := timer } := by
  unfold Slave.seen
  split
  · exact ⟨false, true, rfl⟩
  · exact ⟨s.rxFlag, s.timer, rfl⟩

theorem addr_lineStep (s : Slave) (e : LineEvent) : (lineStep s e).addr = s.addr := by
  cases e with
  | byte b => exact addr_receive b s
  | poll reply =>
    obtain ⟨rxFlag, timer, hseen⟩ := seen_eq s
    unfold lineStep
    dsimp only
    rw [hseen]
    split <;> rfl

/-- The flag and the timer are not part of what the slave shows. -/
theorem shows_flags (h : Shows l s) (rxFlag timer : Bool) :
    Shows l { s with rxFlag := rxFlag, timer := timer } := by
  cases l with
  | idle => exact ⟨h.rxOk, h.recState, h.recCnt⟩
  | part bs => exact h
  | whole bs => exact h

theorem shows_poll (h : Shows l s) (reply : Nat → Byte) :
    Shows (l.step s.addr (.poll reply)) (lineStep s (.poll reply)) := by
  obtain ⟨rxFlag, timer, hseen⟩ := seen_eq s
  unfold lineStep
  dsimp only
  rw [hseen]
  cases l with
  | idle =>
    rw [if_neg (by rw [h.rxOk]; exact Bool.false_ne_true)]
    exact shows_flags h rxFlag timer
  | part bs =>
    rw [if_neg (by rw [h.1]; exact Bool.false_ne_true)]
    exact shows_flags h rxFlag timer
  | whole bs =>
    rw [if_pos h.1]
    exact ⟨rfl, h.2.1, rfl⟩

theorem shows_lineStep (h : Shows l s) (e : LineEvent) :
    Shows (l.step s.addr e) (lineStep s e) := by
  cases e with
  | poll reply => exact shows_poll h reply
  | byte b =>
    cases l with
    | idle =>
      change Shows (if b.toNat = s.addr.toNat then .part [b] else .idle) (s.cpadPortSerialReceiveFSM b)
      split
      · rename_i hb
        exact shows_first h hb
      · rename_i hb
        rw [receive_noise h.rxOk h.recState hb]
        exact ⟨h.rxOk, h.recState, h.recCnt⟩
    | part bs => exact shows_next h b
    | whole bs =>
      change Shows (.whole bs) (s.cpadPortSerialReceiveFSM b)
      rw [receive_lost h.1]
      exact h

/-- Without a timeout, `cpad_MBPoll` is what the line takes it for. -/
theorem slave_cpadMBPoll (h : s.rxTimeout = false) {d : Dev} {p : Polled} (hp : cpadMBPoll .fault s d = .ok p) :
    ∃ reply, p.slave = lineStep s (.poll reply) := by
  obtain ⟨rxFlag, timer, hseen⟩ := seen_eq s
  cases hok : s.rxOk with
  | false =>
    have hready : s.ready = false := by rw [Slave.ready, hok, h]; rfl
    rw [cpadMBPoll_waiting hready] at hp
    cases hp
    refine ⟨s.rxbuf, ?_⟩
    unfold lineStep
    dsimp only
    rw [if_neg (by rw [hseen, hok]; exact Bool.false_ne_true)]
  | true =>
    unfold lineStep
    unfold cpadMBPoll at hp
    dsimp only at hp ⊢
    rw [hseen] at hp ⊢
    simp only [Slave.ready, hok, h, Bool.true_or, if_true, Bool.false_eq_true, if_false] at hp ⊢
    split at hp
    · rcases ha : analysisProtocol .fault s.rxbuf d with err | r
      · rw [ha] at hp
        cases hp
      · rw [ha] at hp
        cases hp
        exact ⟨r.rxbuf, rfl⟩
    · cases hp
      exact ⟨s.rxbuf, rfl⟩

/-! ## The line -/

/-- The slave follows the line. -/
theorem shows_run (h : Shows l s) (es : List LineEvent) :
    Shows (run (Line.step s.addr) l es) (run lineStep s es) := by
  induction es generalizing l s with
  | nil => exact h
  | cons e es ih =>
    have hrest := ih (shows_lineStep h e)
    rw [addr_lineStep] at hrest
    exact hrest

theorem addr_run (s : Slave) (es : List LineEvent) : (run lineStep s es).addr = s.addr :=
  run_view addr_lineStep s es

theorem recCnt_le (h : Shows l s) : s.recCnt ≤ 264 := by
  cases l with
  | idle =>
    rw [h.recCnt]
    exact Nat.zero_le _
  | part bs =>
    obtain ⟨-, -, hbuf, -, hlt⟩ := h
    rw [← length_inBuffer, hbuf]
    exact Nat.le_trans (Nat.le_of_lt hlt) (frameLength_le bs)
  | whole bs =>
    obtain ⟨-, -, hbuf, hlen⟩ := h
    rw [← length_inBuffer, hbuf, hlen]
    exact frameLength_le bs

/-- A byte that is not taken moves nothing, and neither do more of them. -/
theorem unmoved_afterBytes {P : Slave → Prop} {E : Byte → Prop} (hP : P s)
    (hstep : ∀ t b, P t → E b → t.cpadPortSerialReceiveFSM b = { t with rxFlag := true })
    (hkeep : ∀ t, P t → P { t with rxFlag := true }) (hbs : ∀ b ∈ bs, E b) :
    Unmoved s (afterBytes s bs) := by
  induction bs generalizing s with
  | nil => exact ⟨rfl, rfl, rfl, rfl⟩
  | cons b bs ih =>
    rw [List.forall_mem_cons] at hbs
    change Unmoved s (afterBytes (s.cpadPortSerialReceiveFSM b) bs)
    rw [hstep s b hP hbs.1]
    exact ih (hkeep s hP) hbs.2

theorem unmoved_full (h : s.rxOk = true) (bs : List Byte) : Unmoved s (afterBytes s bs) :=
  unmoved_afterBytes (P := fun t => t.rxOk = true) (E := fun _ => True) h (fun _ _ ht _ => receive_lost ht)
    (fun _ ht => ht) fun _ _ => trivial

theorem unmoved_noise (h : Listening s) (hbs : ∀ b ∈ bs, b.toNat ≠ s.addr.toNat) :
    Unmoved s (afterBytes s bs) :=
  unmoved_afterBytes (P := fun t => Listening t ∧ t.addr = s.addr) (E := fun b => b.toNat ≠ s.addr.toNat) ⟨h, rfl⟩
    (fun _ _ ht hb => receive_noise ht.1.rxOk ht.1.recState (by rw [ht.2]; exact hb))
    (fun _ ht => ⟨⟨ht.1.rxOk, ht.1.recState, ht.1.recCnt⟩, ht.2⟩) hbs

/-! ## A frame on the line -/

/-- The line after the bytes of a frame, and more. -/
def lineOf (bs : List Byte) : Line :=
  if frameLength bs ≤ bs.length then .whole (bs.take (frameLength bs)) else .part bs

theorem step_lineOf (a : Word) (bs : List Byte) (b : Byte) :
    (lineOf bs).step a (.byte b) = lineOf (bs ++ [b]) := by
  have hlen : (bs ++ [b]).length = bs.length + 1 := by rw [List.length_append, List.length_singleton]
  unfold lineOf
  by_cases hw : frameLength bs ≤ bs.length
  · -- the frame is there: it told its length before
    have h7 : 7 ≤ bs.length := by
      have := le_frameLength bs
      omega
    rw [frameLength_append h7, if_pos hw, if_pos (by omega), List.take_append_of_le_length hw]
    rfl
  · rw [if_neg hw]
    change (if (bs ++ [b]).length = frameLength (bs ++ [b]) then Line.whole (bs ++ [b]) else .part (bs ++ [b])) = _
    have hle := length_snoc_le (Nat.lt_of_not_le hw) b
    by_cases he : (bs ++ [b]).length = frameLength (bs ++ [b])
    · rw [if_pos he, if_pos (Nat.le_of_eq he.symm), ← he, List.take_length]
    · rw [if_neg he, if_neg (by omega)]

theorem run_lineOf (a : Word) (bs cs : List Byte) :
    run (Line.step a) (lineOf bs) (cs.map .byte) = lineOf (bs ++ cs) := by
  induction cs generalizing bs with
  | nil => rw [List.append_nil]; rfl
  | cons c cs ih =>
    rw [List.map_cons, run_cons, step_lineOf, ih, List.append_assoc, List.singleton_append]

theorem run_noise {a : Word} (hbs : ∀ b ∈ bs, b.toNat ≠ a.toNat) :
    run (Line.step a) .idle (bs.map .byte) = .idle := by
  induction bs with
  | nil => rfl
  | cons b bs ih =>
    rw [List.forall_mem_cons] at hbs
    rw [List.map_cons, run_cons, Line.step, if_neg hbs.1]
    exact ih hbs.2

/-- What comes before the address is not part of the frame. -/
theorem run_frame {a : Word} {noise : List Byte} (hnoise : ∀ b ∈ noise, b.toNat ≠ a.toNat) {b : Byte}
    (hb : b.toNat = a.toNat) (bs : List Byte) :
    run (Line.step a) .idle ((noise ++ b :: bs).map .byte) = lineOf (b :: bs) := by
  have hfirst : lineOf [b] = .part [b] := if_neg (by have := le_frameLength [b]; simp; omega)
  rw [List.map_append, run_append, run_noise hnoise, List.map_cons, run_cons, Line.step, if_pos hb, ← hfirst,
    run_lineOf, List.singleton_append]

theorem shows_lineOf (h : Shows (lineOf bs) s) :
    (s.rxOk = true ↔ frameLength bs ≤ bs.length) ∧ inBuffer s = bs.take (frameLength bs) := by
  unfold lineOf at h
  split at h
  · rename_i hw
    exact ⟨iff_of_true h.1 hw, h.2.2.1⟩
  · rename_i hw
    refine ⟨iff_of_false (by rw [h.1]; exact Bool.false_ne_true) hw, ?_⟩
    rw [h.2.2.1, List.take_of_length_le (by omega)]

theorem frames_of_shows (h : Shows l s) : Frames s.addr s := by
  refine ⟨recCnt_le h, unmoved_full, fun hl bs => unmoved_noise hl, fun hl noise hnoise b bs hb => ?_⟩
  have hrun : Shows _ (afterBytes s (noise ++ b :: bs)) := shows_run (l := .idle) hl ((noise ++ b :: bs).map .byte)
  rw [run_frame hnoise hb] at hrun
  exact shows_lineOf hrun

/-- From the initial state, after any bytes and any calls of `cpad_MBPoll`: the slave shows what is on the line, and
takes the next bytes as it is to. -/
theorem frames_run {s : Slave} (h : Listening s) (es : List LineEvent) :
    Shows (run (Line.step s.addr) .idle es) (run lineStep s es) ∧ Frames s.addr (run lineStep s es) := by
  have hshows := shows_run (l := .idle) h es
  have hframes := frames_of_shows hshows
  rw [addr_run] at hframes
  exact ⟨hshows, hframes⟩

/-- A byte for another slave, a read of the first register, a byte too many, and the call that takes the frame. -/
def readLine : List LineEvent := (0x05 :: oneRead ++ [0x01]).map .byte ++ [.poll fun _ => 0]

theorem frames_run_read : Listening (listening 0xFF) ∧
    Shows (run (Line.step 1) .idle readLine) (run lineStep (listening 0xFF) readLine) ∧
    Frames 1 (run lineStep (listening 0xFF) readLine) := by
  have hlisten : Listening (listening 0xFF) := ⟨rfl, rfl, rfl⟩
  exact ⟨hlisten, frames_run hlisten readLine⟩

end WM.Proof
