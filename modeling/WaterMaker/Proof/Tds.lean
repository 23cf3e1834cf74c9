import Mathlib.Tactic.IntervalCases
import WaterMaker.Proof.Serial

/-!
# The conductivity sensor

`receiveData` is the receiver `tdsFramer`, with its unfinished frame in `rx_buffer` (`FramesTds`), and the registers
show the last frame if it ends the bytes that the thread has read (`TdsReads`). The queue of messages may be full, and
a message then gets lost; but as long as the messages in it ask for as many bytes as have been told, none of the bytes
stay in the port (`TdsHolds.waiting`), and with 21 messages they do.
-/

namespace WM.Proof

open WM WM.Impl WM.Spec

/-! ## Frames -/

theorem frame_tdsFrame (r : TdsReading) : tdsFramer.Frame (tdsFrame r) := by
  refine ⟨rfl, fun p b q heq => ?_, rfl⟩
  have hb : (tdsFrame r)[p.length]? = some b := by rw [heq]; simp
  have hlen : p.length < 14 := by
    have hlen := congrArg List.length heq
    rw [List.length_append, List.length_cons] at hlen
    exact Nat.lt_of_lt_of_eq (by omega) hlen.symm
  show tdsFits p.length b = true
  generalize p.length = n at hb hlen ⊢
  clear heq
  interval_cases n <;> obtain rfl := Option.some.inj hb <;> rfl

theorem exists_tdsFrame {f : List Byte} (h : tdsFramer.Frame f) : ∃ r, f = tdsFrame r := by
  have hlen : f.length = 14 := h.length
  have hmark : ∀ i < 14, tdsFits i (f.getD i 0) = true := fun i hi => by
    have hget : f.getD i 0 = f[i] := List.getD_eq_getElem _ _ (by omega)
    have hfits := h.headed (f.take i) f[i] (f.drop (i + 1)) (by simp)
    rw [hget]
    simpa [tdsFramer, show min i f.length = i by omega] using hfits
  have hall : f = (List.range 14).map (f.getD · 0) := by
    refine List.ext_getElem (by simp [hlen]) fun i hi hi' => ?_
    rw [List.getElem_map, List.getElem_range, List.getD_eq_getElem _ _ hi]
  have h0 : f.getD 0 0 = 0xFF := of_decide_eq_true (hmark 0 (by decide))
  have h1 : f.getD 1 0 = 0x01 := of_decide_eq_true (hmark 1 (by decide))
  have h4 : f.getD 4 0 = 0x02 := of_decide_eq_true (hmark 4 (by decide))
  have h7 : f.getD 7 0 = 0x03 := of_decide_eq_true (hmark 7 (by decide))
  have h10 : f.getD 10 0 = 0x04 := of_decide_eq_true (hmark 10 (by decide))
  have h13 : f.getD 13 0 = 0xEE := of_decide_eq_true (hmark 13 (by decide))
  refine ⟨⟨(f.getD 2 0, f.getD 3 0), (f.getD 5 0, f.getD 6 0), (f.getD 8 0, f.getD 9 0),
    (f.getD 11 0, f.getD 12 0)⟩, hall.trans ?_⟩
  show [f.getD 0 0, f.getD 1 0, f.getD 2 0, f.getD 3 0, f.getD 4 0, f.getD 5 0, f.getD 6 0, f.getD 7 0, f.getD 8 0,
    f.getD 9 0, f.getD 10 0, f.getD 11 0, f.getD 12 0, f.getD 13 0] = _
  rw [h0, h1, h4, h7, h10, h13]
  rfl

/-- The registers that are made of a frame. -/
theorem tdsDataProcess_frame {rxBuffer : List Byte} {r : TdsReading} (h : rxBuffer.take 14 = tdsFrame r) :
    tdsDataProcess rxBuffer = tdsShown r := by
  rw [← List.take_append_drop 14 rxBuffer, h]
  rfl

/-! ## The receiver -/

/-- The unfinished frame stands in the buffer. -/
structure FramesTds (s : TdsRx) (x : Framer.Rx Byte) : Prop where
  size : s.rxBuffer.length = 20
  part : s.rxBuffer.take s.count = x.part
  count : s.count < 14

section receiver

variable {s : TdsRx} {x : Framer.Rx Byte} {bs : List Byte} {regs : List Word}

theorem receiveData_eq (hcount : s.count < 14) (b : Byte) :
    receiveData b s = if tdsFits s.count b then
      if s.count + 1 = 14 then (true, (s.store b).reset) else (false, s.store b) else (false, s.reset) := by
  obtain ⟨buffer, n⟩ := s
  have hlt : n < 14 := hcount
  interval_cases n <;> simp [receiveData, tdsFits]

theorem FramesTds.length (h : FramesTds s x) : x.part.length = s.count := by
  have hsize := h.size
  have hcount := h.count
  rw [← h.part, List.length_take]
  omega

theorem take_store (h : FramesTds s x) (b : Byte) : (s.store b).rxBuffer.take (s.count + 1) = x.part ++ [b] := by
  have hsize := h.size
  have hcount := h.count
  show (s.rxBuffer.set s.count b).take (s.count + 1) = _
  rw [List.take_succ_eq_append_getElem (by rw [List.length_set]; omega), List.getElem_set_self,
    List.take_set_of_le (Nat.le_refl _), h.part]

theorem FramesTds.reset (h : FramesTds s x) (taken : List (List Byte)) : FramesTds s.reset ⟨[], taken⟩ :=
  ⟨h.size, List.take_zero, by show 0 < 14; decide⟩

theorem FramesTds.step (h : FramesTds s x) (b : Byte) : FramesTds (receiveData b s).2 (tdsFramer.step x b) := by
  have hlen := h.length
  have hsize : (s.store b).rxBuffer.length = 20 := List.length_set.trans h.size
  rw [receiveData_eq h.count, ← hlen]
  by_cases hfits : tdsFits x.part.length b = true
  · rw [if_pos hfits]
    by_cases hlast : x.part.length + 1 = 14
    · rw [if_pos hlast, Framer.step_last (F := tdsFramer) hfits hlast]
      exact ⟨hsize, List.take_zero, by show 0 < 14; decide⟩
    · have hcount := h.count
      rw [if_neg hlast, Framer.step_fits (F := tdsFramer) hfits hlast]
      exact ⟨hsize, take_store h b, by show s.count + 1 < 14; omega⟩
  · rw [if_neg hfits, Framer.step_drop (F := tdsFramer) hfits]
    exact h.reset x.taken

theorem receiveData_true (h : FramesTds s x) (b : Byte) :
    (receiveData b s).1 = true ↔ tdsFits x.part.length b = true ∧ x.part.length + 1 = 14 := by
  rw [receiveData_eq h.count, ← h.length]
  split
  · rename_i hfits
    split
    · rename_i hlast
      exact iff_of_true rfl ⟨hfits, hlast⟩
    · rename_i hlast
      exact iff_of_false Bool.false_ne_true fun ⟨_, h⟩ => hlast h
  · rename_i hfits
    exact iff_of_false Bool.false_ne_true fun ⟨h, _⟩ => hfits h

theorem take_receiveData (h : FramesTds s x) {b : Byte} (hok : (receiveData b s).1 = true) :
    (receiveData b s).2.rxBuffer.take 14 = x.part ++ [b] := by
  obtain ⟨hfits, hlast⟩ := (receiveData_true h b).1 hok
  rw [h.length] at hfits hlast
  rw [receiveData_eq h.count, if_pos hfits, if_pos hlast, ← hlast]
  exact take_store h b

/-! ## What the registers show -/

/-- The bytes `bs` have been given to the receiver, and the registers are `regs`. -/
structure TdsReads (bs : List Byte) (s : TdsRx) (regs : List Word) : Prop where
  frames : FramesTds s (run tdsFramer.step ⟨[], []⟩ bs)
  /-- they show a frame -/
  shown : regs = [0, 0, 0, 0] ∨ ∃ r, tdsFrame r <:+: bs ∧ regs = tdsShown r
  /-- they show the frame at the end, if the receiver was idle when it began -/
  last : ∀ p r, bs = p ++ tdsFrame r → (run tdsFramer.step ⟨[], []⟩ p).part = [] → regs = tdsShown r

theorem tdsReads_init : TdsReads [] ⟨tdsBuffer, 0⟩ [0, 0, 0, 0] := by
  refine ⟨⟨rfl, rfl, by decide⟩, .inl rfl, fun p r h _ => ?_⟩
  have hlen := congrArg List.length h
  rw [List.length_append] at hlen
  exact absurd hlen (by show 0 ≠ p.length + 14; omega)

theorem receiveAll_snoc (c : List Byte) (b : Byte) (s : TdsRx) :
    receiveAll (c ++ [b]) s = receiveData b (receiveAll c s).2 :=
  List.foldl_concat _ _ _ _

theorem FramesTds.all (h : FramesTds s x) (c : List Byte) :
    FramesTds (receiveAll c s).2 (run tdsFramer.step x c) := by
  induction c using List.reverseRecOn with
  | nil => exact h
  | append_singleton c b ih =>
    rw [receiveAll_snoc, run_snoc]
    exact ih.step b

/-- The last byte of a frame that an idle receiver gets from its beginning. -/
theorem last_of_frame {q p : List Byte} {b : Byte} {r : TdsReading} (h : q ++ [b] = p ++ tdsFrame r)
    (hidle : (run tdsFramer.step ⟨[], []⟩ p).part = []) :
    tdsFits (run tdsFramer.step ⟨[], []⟩ q).part.length b = true ∧
      (run tdsFramer.step ⟨[], []⟩ q).part ++ [b] = tdsFrame r := by
  obtain ⟨g, hg⟩ : ∃ g, tdsFrame r = g ++ [0xEE] := ⟨(tdsFrame r).dropLast, rfl⟩
  have hframe := frame_tdsFrame r
  rw [hg, ← List.append_assoc] at h
  obtain ⟨hq, hb⟩ := List.append_inj' h rfl
  have hlen : g.length = 13 := by
    have hlen := hframe.length.symm
    rw [hg, List.length_append] at hlen
    exact (Nat.succ.inj hlen).symm
  have hstart : run tdsFramer.step ⟨[], []⟩ p = ⟨[], (run tdsFramer.step ⟨[], []⟩ p).taken⟩ :=
    congrArg (fun part => (⟨part, _⟩ : Framer.Rx Byte)) hidle
  have hheaded : tdsFramer.Headed ([] ++ g) := (hg ▸ hframe.headed : tdsFramer.Headed (g ++ [0xEE])).left
  have hpart : (run tdsFramer.step ⟨[], []⟩ q).part = g := by
    rw [hq, run_append, hstart, Framer.run_prefix _ hheaded (by rw [List.nil_append, hlen]; decide)]
    rfl
  rw [hpart, hlen, List.singleton_inj.1 hb]
  exact ⟨by decide, hg.symm⟩

theorem TdsReads.all (h : TdsReads bs s regs) (c : List Byte) :
    TdsReads (bs ++ c) (receiveAll c s).2
      (if (receiveAll c s).1 then tdsDataProcess (receiveAll c s).2.rxBuffer else regs) := by
  rcases List.eq_nil_or_concat c with rfl | ⟨c, b, rfl⟩
  · rw [List.append_nil]
    exact h
  rw [List.concat_eq_append]
  have hframes := h.frames.all c
  rw [← run_append] at hframes
  have hreceives := Framer.receives_run (F := tdsFramer) (by decide) (bs ++ c)
  have hlast : ∀ p r, bs ++ (c ++ [b]) = p ++ tdsFrame r → (run tdsFramer.step ⟨[], []⟩ p).part = [] →
      (receiveAll (c ++ [b]) s).1 = true ∧ tdsDataProcess (receiveAll (c ++ [b]) s).2.rxBuffer = tdsShown r := by
    intro p r heq hidle
    obtain ⟨hfits, hframe⟩ := last_of_frame ((List.append_assoc bs c [b]).trans heq) hidle
    have hlen := congrArg List.length hframe
    rw [List.length_append] at hlen
    rw [receiveAll_snoc]
    have hok := (receiveData_true hframes b).2 ⟨hfits, hlen⟩
    exact ⟨hok, tdsDataProcess_frame ((take_receiveData hframes hok).trans hframe)⟩
  refine ⟨?_, ?_, fun p r heq hidle => ?_⟩
  · rw [receiveAll_snoc, ← List.append_assoc, run_snoc]
    exact hframes.step b
  · by_cases hok : (receiveAll (c ++ [b]) s).1 = true
    · rw [if_pos hok]
      rw [receiveAll_snoc] at hok ⊢
      obtain ⟨hfits, hlen⟩ := (receiveData_true hframes b).1 hok
      obtain ⟨hframe, hsuffix⟩ := hreceives.frame hfits hlen rfl
      obtain ⟨r, hr⟩ := exists_tdsFrame hframe
      refine .inr ⟨r, ?_, tdsDataProcess_frame ((take_receiveData hframes hok).trans hr)⟩
      rw [← hr, ← List.append_assoc]
      exact hsuffix.isInfix
    · rw [if_neg hok]
      exact h.shown.imp_right fun ⟨r, hin, hshown⟩ => ⟨r, hin.trans (List.prefix_append _ _).isInfix, hshown⟩
  · obtain ⟨hok, hshown⟩ := hlast p r heq hidle
    rw [if_pos hok, hshown]

end receiver

/-! ## The queue -/

/-- The messages in the queue. -/
structure Rings (rxMq : List Nat) : Prop where
  positive : ∀ m ∈ rxMq, 0 < m
  few : rxMq.length ≤ rxMqMax

theorem Rings.length_le {rxMq : List Nat} (h : ∀ m ∈ rxMq, 0 < m) : rxMq.length ≤ rxMq.sum := by
  induction rxMq with
  | nil => exact Nat.le_refl 0
  | cons m rxMq ih =>
    have hm := h m List.mem_cons_self
    have hle := ih fun k hk => h k (List.mem_cons_of_mem m hk)
    rw [List.length_cons, List.sum_cons]
    omega

theorem Rings.send {rxMq : List Nat} (h : Rings rxMq) {size : Nat} (hsize : 0 < size) :
    Rings (uartInput rxMq size) := by
  rw [uartInput]
  split
  · rename_i hroom
    refine ⟨fun m hm => ?_, ?_⟩
    · rcases List.mem_append.1 hm with hm | hm
      · exact h.positive m hm
      · exact List.mem_singleton.1 hm ▸ hsize
    · rw [List.length_append]
      exact hroom
  · exact h

theorem Rings.sendAll {rxMq told : List Nat} (h : Rings rxMq) (htold : ∀ m ∈ told, 0 < m) :
    Rings (told.foldl uartInput rxMq) := by
  induction told generalizing rxMq with
  | nil => exact h
  | cons m told ih =>
    exact ih (h.send (htold m List.mem_cons_self)) fun k hk => htold k (List.mem_cons_of_mem m hk)

/-- The messages ask for all bytes that have been told: one that gets lost would be the 22nd. -/
theorem Rings.asked {rxMq told : List Nat} {k a a' : Nat} (h : Rings rxMq) (hasked : a ≤ k + rxMq.sum)
    (htold : Told a a' told) (hfew : a' ≤ rxMqMax) : a' ≤ k + (told.foldl uartInput rxMq).sum := by
  rcases htold.last with ⟨hnil, heq⟩ | hlast
  · rw [hnil, heq]
    exact hasked
  obtain ⟨told, rfl⟩ : ∃ t, told = t ++ [a'] := List.getLast?_eq_some_iff.1 hlast
  have hbefore := h.sendAll fun m hm => htold.positive m (List.mem_append_left [a'] hm)
  rw [List.foldl_concat, uartInput]
  split
  · rw [List.sum_append, List.sum_singleton]
    omega
  · rename_i hfull
    have hlen := Rings.length_le hbefore.positive
    omega

/-! ## Steps of the whole -/

/-- The bytes `bs` have been read and `xs` not, of which `a` have been told. -/
structure TdsHolds (n : Nat) (bs xs : List Byte) (a : Nat) (s : Tds) : Prop where
  uart : Tracks rtSerialRbBufsz xs a s.uart
  reads : TdsReads bs s.rx s.u16TDS
  room : xs.length ≤ n
  rings : Rings s.rxMq
  waiting : n ≤ rxMqMax → a ≤ s.msg.getD 0 + s.rxMq.sum

section holds

variable {n a : Nat} {bs xs : List Byte} {s : Tds}

theorem tdsHolds_init (n : Nat) : TdsHolds n [] [] 0 Tds.init :=
  ⟨tracks_opened (by decide), tdsReads_init, Nat.zero_le n, ⟨nofun, Nat.zero_le _⟩, fun _ => Nat.zero_le _⟩

theorem TdsHolds.byte (h : TdsHolds n bs xs a s) (hn : n ≤ rtSerialRbBufsz) (hroom : xs.length < n) (b : Byte) :
    TdsHolds n bs (xs ++ [b]) a (tdsStep s (.byte b)).2 :=
  ⟨tracks_store h.uart (Nat.lt_of_lt_of_le hroom hn) b, h.reads, by rw [List.length_append]; exact hroom, h.rings,
    h.waiting⟩

theorem TdsHolds.interrupts (h : TdsHolds n bs xs a s) (idle : Bool) :
    ∃ a', TdsHolds n bs xs a' (tdsStep s (.interrupts idle)).2 ∧ (idle = true → a' = xs.length) := by
  obtain ⟨a', htracks, hall, htold⟩ := tracks_interrupts (by decide) h.uart idle
  refine ⟨a', ⟨htracks, h.reads, h.room, h.rings.sendAll htold.positive, fun hn => ?_⟩, hall⟩
  exact h.rings.asked (h.waiting hn) htold (Nat.le_trans htracks.told (Nat.le_trans h.room hn))

/-- The messages that the thread still has to serve. -/
def unserved (s : Tds) : Nat := s.msg.toList.length + s.rxMq.length

theorem TdsHolds.recv (h : TdsHolds n bs xs a s) : TdsHolds n bs xs a s.recv.2 ∧ s.recv.1.read = [] ∧
    unserved s.recv.2 = unserved s ∧ (s.recv.2.msg = none → s.recv.2.rxMq = []) := by
  have hwaiting := h.waiting
  have hrings := h.rings
  rw [Tds.recv]
  split
  · rename_i hmsg
    exact ⟨h, rfl, rfl, fun hnone => absurd (hmsg.symm.trans hnone) (Option.some_ne_none _)⟩
  · rename_i size rxMq hmsg hmq
    rw [hmq] at hrings
    rw [hmsg, hmq, List.sum_cons] at hwaiting
    refine ⟨⟨h.uart, h.reads, h.room, ⟨fun m hm => hrings.positive m (List.mem_cons_of_mem size hm), ?_⟩, fun hn => ?_⟩,
      rfl, ?_, nofun⟩
    · exact Nat.le_of_succ_le hrings.few
    · have hle : a ≤ 0 + (size + rxMq.sum) := hwaiting hn
      show a ≤ size + rxMq.sum
      omega
    · rw [unserved, unserved, hmsg, hmq]
      show 1 + rxMq.length = 0 + (rxMq.length + 1)
      omega
  · rename_i hmsg hmq
    split
    · exact ⟨⟨h.uart, h.reads, h.room, h.rings, h.waiting⟩, rfl, rfl, fun _ => hmq⟩
    · exact ⟨⟨h.uart, h.reads, h.room, h.rings, h.waiting⟩, rfl, rfl, fun _ => hmq⟩

/-- Some of the bytes told are read. -/
theorem TdsHolds.serve (h : TdsHolds n bs xs a s) : ∃ k ≤ a, s.serve.1.read = xs.take k ∧
    TdsHolds n (bs ++ xs.take k) (xs.drop k) (a - k) s.serve.2 ∧ s.serve.2.msg = none ∧ s.serve.2.rxMq = s.rxMq := by
  have hwaiting := h.waiting
  rw [Tds.serve]
  split
  · rename_i hmsg
    refine ⟨0, Nat.zero_le a, rfl, ?_, hmsg, rfl⟩
    rw [List.take_zero, List.append_nil]
    exact h
  · rename_i size hmsg
    obtain ⟨hread, htracks⟩ := tracks_read (by decide) h.uart size
    rw [hmsg] at hwaiting
    have hroom := h.room
    generalize rtSerialRead rtSerialRbBufsz size s.uart = r at hread htracks ⊢
    obtain ⟨rcvBuffer, uart⟩ := r
    obtain rfl : rcvBuffer = _ := hread
    refine ⟨min size a, Nat.min_le_right size a, rfl, ⟨htracks, h.reads.all _, ?_, h.rings, fun hn => ?_⟩, rfl, rfl⟩
    · rw [List.length_drop]
      omega
    · have hle := hwaiting hn
      rw [Option.getD_some] at hle
      show a - min size a ≤ 0 + s.rxMq.sum
      omega

/-- The queue being served, all bytes told are read. -/
theorem TdsHolds.served (h : TdsHolds n bs xs xs.length s) (hn : n ≤ rxMqMax) {k : Nat} (hk : unserved s ≤ k) :
    TdsHolds n (bs ++ xs) [] 0 (run (moves tdsStep) s (served k)) := by
  induction k generalizing bs xs s with
  | zero =>
    rw [unserved] at hk
    have hmsg : s.msg = none := Option.toList_eq_nil_iff.1 (List.length_eq_zero_iff.1 (by omega))
    have hmq : s.rxMq = [] := List.length_eq_zero_iff.1 (by omega)
    have hle := h.waiting hn
    rw [hmsg, hmq] at hle
    obtain rfl := List.length_eq_zero_iff.1 (Nat.le_zero.1 hle)
    rw [List.append_nil]
    exact h
  | succ k ih =>
    obtain ⟨hrecv, -, hunserved, hempty⟩ := h.recv
    obtain ⟨j, hj, -, hserve, hmsg, hmq⟩ := hrecv.serve
    rw [← List.length_drop] at hserve
    rw [← List.take_append_drop j xs, ← List.append_assoc]
    refine ih hserve ?_
    show unserved s.recv.2.serve.2 ≤ k
    rw [unserved, hmsg, hmq]
    show 0 + s.recv.2.rxMq.length ≤ k
    rw [← hunserved, unserved] at hk
    cases hheld : s.recv.2.msg with
    | none =>
      rw [hempty hheld]
      exact Nat.zero_le k
    | some size =>
      rw [hheld, Option.toList_some, List.length_singleton] at hk
      omega

end holds

/-! ## Runs -/

theorem tdsRead_snoc (es : List TdsEvent) (e : TdsEvent) :
    tdsRead (es ++ [e]) = tdsRead es ++ (tdsStep (run (moves tdsStep) Tds.init es) e).1.read := by
  rw [tdsRead, answers_append, List.flatMap_append]
  exact congrArg (tdsRead es ++ ·) (List.append_nil _)

theorem tdsSent_append (es fs : List TdsEvent) : tdsSent (es ++ fs) = tdsSent es ++ tdsSent fs := List.flatMap_append

theorem tdsHolds_run {n : Nat} (hn : n ≤ rtSerialRbBufsz) (es : List TdsEvent) (h : TdsInTime n es) :
    ∃ xs a, TdsHolds n (tdsRead es) xs a (run (moves tdsStep) Tds.init es) ∧ tdsSent es = tdsRead es ++ xs := by
  induction es using List.reverseRecOn with
  | nil => exact ⟨[], 0, tdsHolds_init n, rfl⟩
  | append_singleton es e ih =>
    obtain ⟨xs, a, hholds, hsent⟩ := ih fun fs hfs => h fs (hfs.trans (List.prefix_append es [e]))
    have hroom := h _ (List.prefix_refl _)
    rw [tdsRead_snoc, tdsSent_append, hsent] at hroom
    rw [run_snoc, tdsRead_snoc, tdsSent_append, hsent]
    cases e with
    | byte b =>
      have hlen : (tdsRead es ++ xs ++ [b]).length ≤ (tdsRead es ++ []).length + n := hroom
      simp only [List.length_append, List.length_singleton, List.append_nil] at hlen
      refine ⟨xs ++ [b], a, ?_, ?_⟩
      · rw [show (tdsStep _ (.byte b)).1.read = [] from rfl, List.append_nil]
        exact hholds.byte hn (by omega) b
      · show tdsRead es ++ xs ++ [b] = tdsRead es ++ [] ++ (xs ++ [b])
        rw [List.append_nil, List.append_assoc]
    | interrupts idle =>
      obtain ⟨a', hholds', -⟩ := hholds.interrupts idle
      rw [show (tdsStep _ (.interrupts idle)).1.read = [] from rfl, List.append_nil]
      exact ⟨xs, a', hholds', List.append_nil _⟩
    | recv =>
      obtain ⟨hholds', hread, -⟩ := hholds.recv
      rw [show (tdsStep _ .recv).1.read = [] from hread, List.append_nil]
      exact ⟨xs, a, hholds', List.append_nil _⟩
    | serve =>
      obtain ⟨k, -, hread, hholds', -⟩ := hholds.serve
      rw [show (tdsStep _ .serve).1.read = xs.take k from hread]
      refine ⟨xs.drop k, a - k, hholds', ?_⟩
      show tdsRead es ++ xs ++ [] = _
      rw [List.append_nil, List.append_assoc, List.take_append_drop]

theorem idle_flatMap (rs : List TdsReading) (taken : List (List Byte)) :
    (run tdsFramer.step ⟨[], taken⟩ (rs.flatMap tdsFrame)).part = [] := by
  induction rs generalizing taken with
  | nil => rfl
  | cons r rs ih =>
    rw [List.flatMap_cons, run_append, Framer.run_frame (frame_tdsFrame r) (by decide)]
    exact ih _

end WM.Proof
