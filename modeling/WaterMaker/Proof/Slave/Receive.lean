import WaterMaker.Proof.Slave.Frame

/-!
# Receiving a frame

A slave that has received the bytes of a frame has them at the start of its buffer (`holds_received`), and what was in
the buffer behind them makes no difference to how they are received (`received_stale`). `effect_cpadMBPoll` says what
`cpad_MBPoll` then makes of the frame.
-/

namespace WM.Proof

open WM WM.Impl WM.Spec

/-! ## One byte -/

/-- The frame at the start of the buffer `f` is complete with `c` bytes. -/
def Whole (f : Nat → Byte) (c : Nat) : Prop :=
  if f 1 ≠ 0x10 then c ≥ mntCmdLen else c ≥ 9 ∧ c = (f 6).toNat + 9

instance (f : Nat → Byte) (c : Nat) : Decidable (Whole f c) := by unfold Whole; infer_instance

theorem whole_congr {f g : Nat → Byte} {c : Nat} (hc : 2 ≤ c) (h : ∀ k < c, f k = g k) : Whole f c ↔ Whole g c := by
  unfold Whole
  rw [h 1 (by omega)]
  split
  · exact Iff.rfl
  · refine and_congr_right fun h9 => ?_
    rw [h 6 (by omega)]

/-- A byte in the buffer. -/
def putByte (b : Byte) (s : Slave) : Slave :=
  { s with rxbuf := Function.update s.rxbuf s.recCnt b, recCnt := s.recCnt + 1 }

theorem store_eq (b : Byte) (s : Slave) :
    s.store b = if Whole (putByte b s).rxbuf (putByte b s).recCnt then (putByte b s).complete else putByte b s := by
  change (if (putByte b s).rxbuf 1 ≠ 0x10 then
      if (putByte b s).recCnt ≥ mntCmdLen then (putByte b s).complete else putByte b s
    else if (putByte b s).recCnt ≥ 9 then
      if (putByte b s).recCnt = ((putByte b s).rxbuf 6).toNat + 9 then (putByte b s).complete else putByte b s
    else putByte b s) = _
  unfold Whole
  split
  · rfl
  · rw [ite_and]

section step

variable {s : Slave} {b : Byte}

theorem receive_first (hok : s.rxOk = false) (hs : s.recState = .addr) (hb : b.toNat = s.addr.toNat) :
    s.cpadPortSerialReceiveFSM b =
      { s with rxFlag := true, rxbuf := Function.update s.rxbuf 0 b, recCnt := 1, recState := .data } := by
  unfold Slave.cpadPortSerialReceiveFSM
  rw [hok, hs]
  exact if_pos hb

/-- A byte of a frame for another slave. -/
theorem receive_noise (hok : s.rxOk = false) (hs : s.recState = .addr) (hb : b.toNat ≠ s.addr.toNat) :
    s.cpadPortSerialReceiveFSM b = { s with rxFlag := true } := by
  unfold Slave.cpadPortSerialReceiveFSM
  rw [hok, hs]
  exact if_neg hb

theorem receive_data (hok : s.rxOk = false) (hs : s.recState = .data) (hc : s.recCnt < mntRxLen) :
    s.cpadPortSerialReceiveFSM b = Slave.store b { s with rxFlag := true } := by
  unfold Slave.cpadPortSerialReceiveFSM
  rw [hok, hs]
  exact if_pos hc

theorem receive_lost (hok : s.rxOk = true) : s.cpadPortSerialReceiveFSM b = { s with rxFlag := true } := by
  unfold Slave.cpadPortSerialReceiveFSM
  rw [hok]
  rfl

end step

/-! ## The bytes of a frame -/

/-- What a slave has that has received the bytes `bs`. -/
structure HoldsFrame (a : Word) (bs : List Byte) (s : Slave) : Prop where
  addr : s.addr = a
  start : bs = [] → s.recState = .addr ∧ s.rxOk = false
  count : bs ≠ [] → s.recCnt = bs.length ∧ (s.rxOk = false → s.recState = .data)
  buffer : blit s.rxbuf 0 bs = s.rxbuf

theorem update_length (g : Nat → Byte) (bs : List Byte) (b : Byte) :
    Function.update (blit g 0 bs) bs.length b = blit g 0 (bs ++ [b]) := by
  rw [blit_concat, Nat.zero_add]

theorem blit_blit (g : Nat → Byte) (bs : List Byte) : blit (blit g 0 bs) 0 bs = blit g 0 bs := by
  funext k
  by_cases hk : k < bs.length
  · exact blit_congr (Nat.zero_le k) (by omega)
  · rw [blit_of_not _ _ _ (by omega)]

theorem blit_frame (g : Nat → Byte) {bs : List Byte} {k : Nat} (hk : k < bs.length) : blit g 0 bs k = frame bs k := by
  have hat := blit_at g 0 hk
  rw [Nat.zero_add] at hat
  rw [hat, frame, List.getD_eq_getElem _ _ hk]

theorem holds_store {a : Word} {bs : List Byte} {s : Slave} (b : Byte) (h : HoldsFrame a bs s) (hne : bs ≠ []) :
    HoldsFrame a (bs ++ [b]) (s.store b) := by
  obtain ⟨hc, hs⟩ := h.count hne
  have hbuf : (putByte b s).rxbuf = blit s.rxbuf 0 (bs ++ [b]) := by
    unfold putByte
    rw [hc, ← update_length, h.buffer]
  have hput : HoldsFrame a (bs ++ [b]) (putByte b s) := by
    refine ⟨h.addr, fun he => absurd he (by simp), fun _ => ⟨?_, hs⟩, ?_⟩
    · rw [List.length_append, List.length_singleton, ← hc]
      rfl
    · rw [hbuf, blit_blit]
  rw [store_eq]
  split
  · exact ⟨hput.addr, fun he => absurd he (by simp), fun hn => ⟨(hput.count hn).1, fun ho => nomatch ho⟩, hput.buffer⟩
  · exact hput

theorem holds_received {a : Word} {bs : List Byte} {s : Slave} (h : Received a bs s) : HoldsFrame a bs s := by
  induction h with
  | idle ha hs hr => exact ⟨ha, fun _ => ⟨hs, (Bool.or_eq_false_iff.mp hr).1⟩, fun hn => absurd rfl hn, blit_nil ..⟩
  | @noise s b _ hb ih =>
    obtain ⟨hs, hok⟩ := ih.start rfl
    rw [receive_noise hok hs (by rw [ih.addr]; exact hb)]
    exact ⟨ih.addr, fun _ => ⟨hs, hok⟩, fun hn => absurd rfl hn, blit_nil ..⟩
  | @byte bs s b _ hok hlen hfirst ih =>
    by_cases hne : bs = []
    · subst hne
      rw [receive_first hok (ih.start rfl).1 (by rw [ih.addr]; exact hfirst rfl)]
      refine ⟨ih.addr, fun he => (nomatch he), fun _ => ⟨rfl, fun _ => rfl⟩, ?_⟩
      rw [List.nil_append, blit_singleton, Function.update_idem]
    · obtain ⟨hc, hs⟩ := ih.count hne
      rw [receive_data hok (hs hok) (by rw [hc]; exact hlen)]
      exact holds_store b ⟨ih.addr, ih.start, ih.count, ih.buffer⟩ hne
  | @lost bs s b _ hok ih =>
    rw [receive_lost hok]
    exact ⟨ih.addr, ih.start, ih.count, ih.buffer⟩
  | @poll bs s _ hr ih =>
    unfold Slave.seen
    split
    · exact ⟨ih.addr, ih.start, ih.count, ih.buffer⟩
    · exact ih
  | timeout _ _ ih => exact ⟨ih.addr, ih.start, ih.count, ih.buffer⟩

/-- A slave that waits for a frame, with `b` everywhere in its buffer. -/
def listening (b : Byte) : Slave := ⟨.addr, fun _ => b, false, false, 0, 1, false, false⟩

/-- A read of the first register. -/
def oneRead : List Byte := [0x01, 0x03, 0x00, 0x00, 0x00, 0x01, 0x84, 0x0A]

/-- The bytes of a frame one after the other. -/
def hear (bs : List Byte) (s : Slave) : Slave := bs.foldl (fun s b => s.cpadPortSerialReceiveFSM b) s

/-- An idle slave receives a frame byte by byte, if it does not take a shorter one for it. -/
theorem received_hear {a : Word} {s : Slave} {bs : List Byte} (ha : s.addr = a) (hs : s.recState = .addr)
    (hr : s.ready = false) (hlen : bs.length ≤ mntRxLen) (hfirst : ∀ b ∈ bs.head?, b.toNat = a.toNat)
    (hok : ∀ n < bs.length, (hear (bs.take n) s).rxOk = false) : Received a bs (hear bs s) := by
  have htake : ∀ n ≤ bs.length, Received a (bs.take n) (hear (bs.take n) s) := by
    intro n
    induction n with
    | zero => exact fun _ => .idle ha hs hr
    | succ n ih =>
      intro hn
      have hstep : bs.take (n + 1) = bs.take n ++ [bs[n]] := by rw [List.take_append_getElem hn]
      rw [hstep, hear, List.foldl_concat]
      refine .byte (ih (by omega)) (hok n hn) ?_ fun hnil => ?_
      · rw [List.length_take]
        omega
      · have hzero : n = 0 := by
          have hl := congrArg List.length hnil
          rw [List.length_take, List.length_nil] at hl
          omega
        subst hzero
        exact hfirst _ (List.head?_eq_getElem? .. |>.trans (List.getElem?_eq_getElem hn))
  have hall := htake bs.length (Nat.le_refl _)
  rw [List.take_length] at hall
  exact hall

/-! ## What was in the buffer before -/

/-- The slave with `bs` at the start of another buffer. -/
def stale (g : Nat → Byte) (bs : List Byte) (s : Slave) : Slave := { s with rxbuf := blit g 0 bs }

/-- A byte is received in the same way, whatever is in the buffer behind the frame. -/
theorem receive_stale {a : Word} {bs : List Byte} {s : Slave} {b : Byte} (h : HoldsFrame a bs s)
    (hok : s.rxOk = false) (hlen : bs.length < mntRxLen) (hfirst : bs = [] → b.toNat = a.toNat) (g : Nat → Byte) :
    (stale g bs s).cpadPortSerialReceiveFSM b = stale g (bs ++ [b]) (s.cpadPortSerialReceiveFSM b) := by
  by_cases hne : bs = []
  · subst hne
    have hb : b.toNat = s.addr.toNat := by rw [h.addr]; exact hfirst rfl
    obtain ⟨hs, -⟩ := h.start rfl
    rw [receive_first (s := s) hok hs hb, receive_first (s := stale g [] s) hok hs hb]
    unfold stale
    rw [List.nil_append, blit_nil, blit_singleton]
  · obtain ⟨hc, hs⟩ := h.count hne
    have hlt : s.recCnt < mntRxLen := by rw [hc]; exact hlen
    rw [receive_data (s := s) hok (hs hok) hlt, receive_data (s := stale g bs s) hok (hs hok) hlt]
    have hput : putByte b { stale g bs s with rxFlag := true } =
        stale g (bs ++ [b]) (putByte b { s with rxFlag := true }) := by
      unfold putByte stale
      rw [hc, update_length]
    have hbuf : (putByte b { s with rxFlag := true }).rxbuf = blit s.rxbuf 0 (bs ++ [b]) := by
      unfold putByte
      rw [hc, ← update_length, h.buffer]
    have hcnt : (putByte b { s with rxFlag := true }).recCnt = (bs ++ [b]).length := by
      rw [List.length_append, List.length_singleton, ← hc]
      rfl
    have hpos := List.length_pos_iff.mpr hne
    have hwhole : Whole (blit g 0 (bs ++ [b])) (bs ++ [b]).length ↔
        Whole (blit s.rxbuf 0 (bs ++ [b])) (bs ++ [b]).length :=
      whole_congr (by rw [List.length_append, List.length_singleton]; omega) fun k hk =>
        blit_congr (Nat.zero_le k) (by omega)
    rw [store_eq, store_eq, hput]
    change (if Whole (blit g 0 (bs ++ [b])) (putByte b { s with rxFlag := true }).recCnt then _ else _) = _
    rw [hbuf, hcnt]
    by_cases hw : Whole (blit s.rxbuf 0 (bs ++ [b])) (bs ++ [b]).length
    · rw [if_pos hw, if_pos (hwhole.mpr hw)]
      rfl
    · rw [if_neg hw, if_neg (mt hwhole.mp hw)]

/-- Any bytes may have been in the buffer before the frame was received. -/
theorem received_stale {a : Word} {bs : List Byte} {s : Slave} (h : Received a bs s) (g : Nat → Byte) :
    Received a bs (stale g bs s) := by
  induction h with
  | idle ha hs hr => exact .idle ha hs hr
  | @noise s b hrec hb ih =>
    have hold := holds_received hrec
    obtain ⟨hs, hok⟩ := hold.start rfl
    have hb' : b.toNat ≠ s.addr.toNat := by rw [hold.addr]; exact hb
    have hn := Received.noise ih hb
    rw [receive_noise (s := stale g [] s) hok hs hb'] at hn
    rw [receive_noise hok hs hb']
    exact hn
  | @byte bs s b hrec hok hlen hfirst ih =>
    rw [← receive_stale (holds_received hrec) hok hlen hfirst g]
    exact .byte ih hok hlen hfirst
  | @lost bs s b _ hok ih =>
    have hl := Received.lost (b := b) ih hok
    rw [receive_lost (s := stale g bs s) hok] at hl
    rw [receive_lost hok]
    exact hl
  | @poll bs s _ hr ih =>
    have hp := Received.poll ih hr
    unfold Slave.seen at hp ⊢
    by_cases hf : s.rxFlag = true
    · rw [if_pos hf]
      rw [if_pos (show (stale g bs s).rxFlag = true from hf)] at hp
      exact hp
    · rw [if_neg hf]
      exact ih
  | timeout _ ht ih => exact .timeout ih ht

/-! ## The answer -/

/-- Until a frame is there, `cpad_MBPoll` only starts the timer anew. -/
theorem cpadMBPoll_waiting {s : Slave} (h : s.ready = false) (d : Dev) :
    cpadMBPoll .fault s d = .ok ⟨s.seen, [], d⟩ := by
  have hseen : s.seen.ready = false := by
    unfold Slave.seen
    split
    · exact h
    · exact h
  unfold cpadMBPoll
  dsimp only
  rw [hseen]
  rfl

/-- What is seen of the answer to a frame. -/
def answerEffect : Except Halt Reply → Option Effect
  | .ok r => some (effectOf ((List.range r.sendlen).map r.rxbuf) r.dev)
  | .error (.reset d) | .error (.hang d) => some (effectOf [] d)
  | .error .fault => none

/-- A frame that is there and whose checksum is right is answered. -/
theorem effect_cpadMBPoll {a : Word} {bs : List Byte} {s : Slave} (h : Received a bs s) (hr : s.ready = true)
    (hmin : mntRxMin ≤ bs.length) (hcrc : usMBCRC16 (frame bs) bs.length = 0) (d : Dev) :
    effect (cpadMBPoll .fault s d) = answerEffect (analysisProtocol .fault s.rxbuf d) := by
  have hold := holds_received h
  have hc : s.recCnt = bs.length := (hold.count (List.length_pos_iff.mp (Nat.lt_of_lt_of_le (by decide) hmin))).1
  have hbuf : usMBCRC16 s.rxbuf s.recCnt = 0 := by
    rw [hc, ← hcrc, ← hold.buffer]
    exact usMBCRC16_congr fun k hk => blit_frame s.rxbuf hk
  have hseen : s.seen.ready = true ∧ s.seen.recCnt = s.recCnt ∧ s.seen.rxbuf = s.rxbuf := by
    unfold Slave.seen
    split
    · exact ⟨hr, rfl, rfl⟩
    · exact ⟨hr, rfl, rfl⟩
  obtain ⟨h1, h2, h3⟩ := hseen
  unfold cpadMBPoll
  dsimp only
  rw [if_pos h1]
  by_cases ht : s.seen.rxTimeout = true
  · rw [if_pos ht]
    rw [h2, h3, if_pos ⟨by rw [hc]; exact hmin, hbuf⟩]
    rcases analysisProtocol .fault s.rxbuf d with (_ | _ | _) | _ <;> rfl
  · rw [if_neg ht]
    rw [h2, h3, if_pos ⟨by rw [hc]; exact hmin, hbuf⟩]
    rcases analysisProtocol .fault s.rxbuf d with (_ | _ | _) | _ <;> rfl

end WM.Proof
