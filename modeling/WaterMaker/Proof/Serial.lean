import Mathlib.Data.List.Induction
import Mathlib.Data.List.Infix
import WaterMaker.Spec.Usart

/-!
# No byte of a serial port is lost

The indices of the FIFO and of the DMA controller are places on a circle of `B` cells, of which those of the bytes that
have come and have not been read are in use (`Tracks`): the first `a` of them have been told by an interrupt. An
interrupt at the end of the buffer waits exactly when the places that have not been told go beyond it, and so the
differences of indices are the numbers of bytes. `tracks_store`, `tracks_interrupts` and `tracks_read` are the steps.
-/

namespace WM.Proof

open WM WM.Impl WM.Spec

/-- A place on the circle. -/
def onCircle (B x : Nat) : Nat := if x < B then x else x - B

theorem onCircle_of_lt {B x : Nat} (h : x < B) : onCircle B x = x := if_pos h

theorem onCircle_of_le {B x : Nat} (h : B ≤ x) : onCircle B x = x - B := if_neg (Nat.not_lt.2 h)

/-- The bytes `xs` have come and have not been read; the first `a` of them have been told. -/
structure Tracks (B : Nat) (xs : List Byte) (a : Nat) (u : Uart) : Prop where
  get_lt : u.fifo.getIndex < B
  told : a ≤ xs.length
  room : xs.length ≤ B
  put : u.fifo.putIndex = onCircle B (u.fifo.getIndex + a)
  full : u.fifo.isFull = decide (a = B)
  last : u.last = onCircle B (u.fifo.getIndex + a)
  pos : u.pos = onCircle B (u.fifo.getIndex + xs.length)
  done : u.done = decide (u.fifo.getIndex + a < B ∧ B ≤ u.fifo.getIndex + xs.length)
  cells : ∀ (j : Nat) (h : j < xs.length), u.fifo.buffer (onCircle B (u.fifo.getIndex + j)) = xs[j]

theorem tracks_opened {B : Nat} (hB : 0 < B) : Tracks B [] 0 Uart.opened := by
  refine ⟨hB, Nat.le_refl 0, Nat.zero_le B, (onCircle_of_lt hB).symm, ?_, (onCircle_of_lt hB).symm,
    (onCircle_of_lt hB).symm, ?_, nofun⟩
  · exact (decide_eq_false (by omega)).symm
  · exact (decide_eq_false (by show ¬(0 + 0 < B ∧ B ≤ 0 + 0); omega)).symm

section steps

variable {B a : Nat} {xs : List Byte} {u : Uart}

/-! ## A byte -/

/-- Two places less than a round apart are different. -/
theorem onCircle_ne {g j k : Nat} (hjk : j < k) (hk : k < B) : onCircle B (g + j) ≠ onCircle B (g + k) := by
  simp only [onCircle]
  split <;> split <;> omega

theorem tracks_store (h : Tracks B xs a u) (hroom : xs.length < B) (b : Byte) :
    Tracks B (xs ++ [b]) a (u.store B b) := by
  have hg := h.get_lt
  have htold := h.told
  have hpos := h.pos
  have hlen : (xs ++ [b]).length = xs.length + 1 := by simp
  refine ⟨hg, by omega, by omega, h.put, h.full, h.last, ?_, ?_, fun j hj => ?_⟩
  · show (if u.pos + 1 = B then 0 else u.pos + 1) = onCircle B (u.fifo.getIndex + (xs ++ [b]).length)
    rw [hlen, hpos]
    simp only [onCircle]
    split <;> split <;> split <;> omega
  · show (u.done || decide (u.pos + 1 = B)) =
        decide (u.fifo.getIndex + a < B ∧ B ≤ u.fifo.getIndex + (xs ++ [b]).length)
    rw [hlen, h.done, hpos, ← Bool.decide_or]
    refine decide_eq_decide.2 ?_
    simp only [onCircle]
    split <;> omega
  · show Function.update u.fifo.buffer u.pos b (onCircle B (u.fifo.getIndex + j)) = _
    rw [hpos]
    by_cases hj' : j = xs.length
    · subst hj'
      rw [Function.update_self, List.getElem_concat_length rfl]
    · rw [Function.update_of_ne (onCircle_ne (by omega) hroom), List.getElem_append_left (by omega)]
      exact h.cells j (by omega)

/-! ## Interrupts -/

/-- The FIFO takes the bytes that it is told: they may fill it, and then both indices are the same. -/
theorem movePutIndex_tracks (h16 : 2 * B ≤ 65536) (buffer : Nat → Byte) {get len : Nat} (hg : get < B) (hlen : 0 < len)
    (hroom : a + len ≤ B) :
    movePutIndex B len ⟨buffer, onCircle B (get + a), get, false⟩ =
      ⟨buffer, onCircle B (get + (a + len)), get, decide (a + len = B)⟩ := by
  by_cases hwrap : get + a < B
  · have hmove : (((get + a : Nat) : Int) + (len : Int)) % 65536 = ((get + (a + len) : Nat) : Int) := by omega
    simp only [movePutIndex, onCircle_of_lt hwrap, hmove, Int.toNat_natCast, if_pos (Nat.le_add_right get a),
      Bool.false_or]
    by_cases hend : get + (a + len) < B
    · rw [if_neg (by omega), onCircle_of_lt hend, decide_eq_false (by omega)]
    · have hmod : (get + (a + len)) % B = get + (a + len) - B := by
        rw [Nat.mod_eq_sub_mod (by omega), Nat.mod_eq_of_lt (by omega)]
      rw [if_pos (by omega), hmod, onCircle_of_le (by omega)]
      exact congrArg _ (decide_eq_decide.2 (by omega))
  · have hmove : (((get + a - B : Nat) : Int) + (len : Int)) % 65536 = ((get + (a + len) - B : Nat) : Int) := by omega
    simp only [movePutIndex, onCircle_of_le (Nat.not_lt.1 hwrap), hmove, Int.toNat_natCast]
    rw [if_neg (by omega), onCircle_of_le (by omega)]
    by_cases hall : a + len = B
    · rw [if_pos (by omega), if_neg (by omega), decide_eq_true hall]
    · rw [if_neg (by omega), decide_eq_false hall]

theorem updatePutIndex_tracks (h16 : 2 * B ≤ 65536) (buffer : Nat → Byte) {get len : Nat} (hg : get < B)
    (hlen : 0 < len) (hroom : a + len ≤ B) :
    rtDmaRecvUpdatePutIndex B len ⟨buffer, onCircle B (get + a), get, false⟩ =
      ⟨buffer, onCircle B (get + (a + len)), get, decide (a + len = B)⟩ := by
  simp only [rtDmaRecvUpdatePutIndex, movePutIndex_tracks h16 buffer hg hlen hroom]
  by_cases hall : a + len = B
  · have hput : onCircle B (get + B) = get := by
      rw [onCircle_of_le (Nat.le_add_left B get), Nat.add_sub_cancel]
    simp only [hall, decide_true, if_true, hput, ge_iff_le, if_neg (Nat.not_le.2 hg)]
  · simp only [hall, decide_false, Bool.false_eq_true, if_false, ge_iff_le, if_neg (Nat.not_le.2 hg)]

/-- The length that the callback is told. -/
theorem calcRecvedLen_tracks (buffer : Nat → Byte) {get : Nat} (hg : get < B) (ha : a ≤ B) :
    serialFifoCalcRecvedLen B ⟨buffer, onCircle B (get + a), get, decide (a = B)⟩ = a := by
  simp only [serialFifoCalcRecvedLen, decide_eq_true_eq]
  by_cases hwrap : get + a < B
  · rw [onCircle_of_lt hwrap]
    by_cases hzero : a = 0
    · rw [if_pos (by omega), if_neg (by omega), hzero]
    · rw [if_neg (by omega), if_pos (by omega)]
      omega
  · rw [onCircle_of_le (Nat.not_lt.1 hwrap)]
    by_cases hall : a = B
    · rw [if_pos (by omega), if_pos hall, hall]
    · rw [if_neg (by omega), if_neg (by omega)]
      omega

theorem Tracks.fifo (h : Tracks B xs a u) :
    u.fifo = ⟨u.fifo.buffer, onCircle B (u.fifo.getIndex + a), u.fifo.getIndex, decide (a = B)⟩ := by
  rw [← h.put, ← h.full]

/-- An interrupt tells the next `len` bytes. -/
theorem tracks_isr (h16 : 2 * B ≤ 65536) (h : Tracks B xs a u) (len last : Nat) (hlen : a + len ≤ xs.length)
    (hlast : last = onCircle B (u.fifo.getIndex + (a + len)))
    (hdone : ¬(u.fifo.getIndex + (a + len) < B ∧ B ≤ u.fifo.getIndex + xs.length)) :
    (rtHwSerialIsr B len { u with last := last, done := false }).1 = (if len = 0 then [] else [a + len]) ∧
      Tracks B xs (a + len) (rtHwSerialIsr B len { u with last := last, done := false }).2 := by
  have hg := h.get_lt
  have hroom := h.room
  rw [rtHwSerialIsr]
  by_cases hzero : len = 0
  · subst hzero
    exact ⟨rfl, hg, hlen, hroom, h.put, h.full, hlast, h.pos, (decide_eq_false hdone).symm, h.cells⟩
  · have hput := updatePutIndex_tracks (a := a) h16 u.fifo.buffer hg (Nat.pos_of_ne_zero hzero) (by omega)
    have hfifo : rtDmaRecvUpdatePutIndex B len u.fifo = ⟨u.fifo.buffer, onCircle B (u.fifo.getIndex + (a + len)),
        u.fifo.getIndex, decide (a + len = B)⟩ := by
      have hfull : decide (a = B) = false := decide_eq_false (by omega)
      have hstart := h.fifo
      rw [hfull] at hstart
      rw [hstart]
      exact hput
    rw [if_neg (by omega), if_neg hzero]
    show [serialFifoCalcRecvedLen B (rtDmaRecvUpdatePutIndex B len u.fifo)] = _ ∧
      Tracks B xs (a + len) { u with fifo := rtDmaRecvUpdatePutIndex B len u.fifo, last := last, done := false }
    rw [hfifo, calcRecvedLen_tracks u.fifo.buffer hg (by omega)]
    exact ⟨rfl, hg, hlen, hroom, rfl, rfl, hlast, h.pos, (decide_eq_false hdone).symm, h.cells⟩

theorem rtHwSerialIsr_done (len : Int) (hdone : u.done = false) : (rtHwSerialIsr B len u).2.done = false := by
  rw [rtHwSerialIsr]
  split <;> exact hdone

/-- The interrupt at the end of the buffer tells the bytes up to there. -/
theorem tracks_done (h16 : 2 * B ≤ 65536) (h : Tracks B xs a u) (hdone : u.done = true) :
    (dmaRxDoneIsr B u).1 = [B - u.fifo.getIndex] ∧ Tracks B xs (B - u.fifo.getIndex) (dmaRxDoneIsr B u).2 := by
  have hg := h.get_lt
  obtain ⟨hlow, hhigh⟩ := of_decide_eq_true (h.done.symm.trans hdone)
  have hlast : u.last = u.fifo.getIndex + a := h.last.trans (onCircle_of_lt hlow)
  have hlen : (B : Int) - u.last = ((B - (u.fifo.getIndex + a) : Nat) : Int) := by omega
  obtain ⟨htold, htracks⟩ := tracks_isr h16 h (B - (u.fifo.getIndex + a)) 0 (by omega)
    (by rw [onCircle_of_le (by omega)]; omega) (by omega)
  rw [dmaRxDoneIsr, hlen]
  rw [if_neg (by omega)] at htold
  rw [show a + (B - (u.fifo.getIndex + a)) = B - u.fifo.getIndex by omega] at htold htracks
  exact ⟨htold, htracks⟩

/-- The interrupt of the idle line tells all bytes, if the other one does not wait. -/
theorem tracks_idle (h16 : 2 * B ≤ 65536) (h : Tracks B xs a u) (hdone : u.done = false) :
    (dmaUartRxIdleIsr B u).1 = (if xs.length = a then [] else [xs.length]) ∧
      Tracks B xs xs.length (dmaUartRxIdleIsr B u).2 := by
  have hg := h.get_lt
  have hroom := h.room
  have htold := h.told
  have hnot := of_decide_eq_false (h.done.symm.trans hdone)
  have hlen : (u.pos : Int) - u.last = ((xs.length - a : Nat) : Int) := by
    rw [h.pos, h.last]
    simp only [onCircle]
    split <;> split <;> omega
  obtain ⟨htold', htracks⟩ := tracks_isr h16 h (xs.length - a) u.pos (by omega)
    (by rw [h.pos, Nat.add_sub_cancel' htold]) (by omega)
  rw [dmaUartRxIdleIsr, hlen]
  rw [Nat.add_sub_cancel' htold] at htold' htracks
  refine ⟨htold'.trans ?_, htracks⟩
  by_cases hall : xs.length = a
  · rw [if_pos (by omega), if_pos hall]
  · rw [if_neg (by omega), if_neg hall]

/-- The lengths that the callback is told when the bytes told become `a'`: the last one is the length of them all. -/
structure Told (a a' : Nat) (told : List Nat) : Prop where
  positive : ∀ m ∈ told, 0 < m
  last : told = [] ∧ a' = a ∨ told.getLast? = some a'

theorem Told.nothing (a : Nat) : Told a a [] := ⟨nofun, .inl ⟨rfl, rfl⟩⟩

theorem Told.single {a' : Nat} (a : Nat) (h : 0 < a') : Told a a' [a'] :=
  ⟨fun _ hm => List.mem_singleton.1 hm ▸ h, .inr rfl⟩

theorem Told.append {a' a'' : Nat} {told told' : List Nat} (h : Told a a' told) (h' : Told a' a'' told') :
    Told a a'' (told ++ told') := by
  refine ⟨fun m hm => (List.mem_append.1 hm).elim (h.positive m) (h'.positive m), ?_⟩
  rcases h'.last with ⟨hnil, heq⟩ | hlast
  · rw [hnil, List.append_nil, heq]
    exact h.last
  · exact .inr (List.getLast?_append_of_ne_nil _ (by rintro rfl; exact absurd hlast (by simp)) |>.trans hlast)

/-- The interrupts tell more bytes, all of them if the line is idle. -/
theorem tracks_interrupts (h16 : 2 * B ≤ 65536) (h : Tracks B xs a u) (idle : Bool) :
    ∃ a', Tracks B xs a' (u.interrupts B idle).2 ∧ (idle = true → a' = xs.length) ∧
      Told a a' (u.interrupts B idle).1 := by
  have hfirst : ∃ a₁, Tracks B xs a₁ (if u.done then dmaRxDoneIsr B u else ([], u)).2 ∧
      (if u.done then dmaRxDoneIsr B u else ([], u)).2.done = false ∧
      Told a a₁ (if u.done then dmaRxDoneIsr B u else ([], u)).1 := by
    by_cases hdone : u.done = true
    · obtain ⟨htold, htracks⟩ := tracks_done h16 h hdone
      rw [if_pos hdone, htold]
      exact ⟨_, htracks, rtHwSerialIsr_done _ rfl, .single a (Nat.sub_pos_of_lt h.get_lt)⟩
    · rw [if_neg hdone]
      exact ⟨a, h, Bool.eq_false_iff.2 hdone, .nothing a⟩
  obtain ⟨a₁, htracks, hdone, htold⟩ := hfirst
  rw [Uart.interrupts]
  generalize (if u.done then dmaRxDoneIsr B u else ([], u)) = r at htracks hdone htold ⊢
  obtain ⟨told, u₁⟩ := r
  cases idle
  · exact ⟨a₁, htracks, fun h => absurd h Bool.false_ne_true, htold.append (.nothing a₁)⟩
  · obtain ⟨htold', htracks'⟩ := tracks_idle h16 htracks hdone
    refine ⟨xs.length, htracks', fun _ => rfl, htold.append ?_⟩
    show Told a₁ xs.length (dmaUartRxIdleIsr B u₁).1
    rw [htold']
    by_cases hall : xs.length = a₁
    · rw [if_pos hall, hall]
      exact .nothing a₁
    · have hle := htracks.told
      rw [if_neg hall]
      exact .single a₁ (by omega)

/-! ## Reads -/

/-- The places on the circle after `k` more. -/
theorem onCircle_add {g k j : Nat} (hg : g < B) (hj : k + j ≤ B) :
    onCircle B (onCircle B (g + k) + j) = onCircle B (g + (k + j)) := by
  simp only [onCircle]
  split <;> split <;> split <;> omega

/-- What is copied, in one part or in two. -/
theorem copied_eq (buffer : Nat → Byte) {g k : Nat} (hg : g < B) :
    (if g + k < B then slice buffer g k else slice buffer g (B - g) ++ slice buffer 0 (k + g - B)) =
      (List.range k).map fun j => buffer (onCircle B (g + j)) := by
  by_cases hend : g + k < B
  · rw [if_pos hend]
    refine List.map_congr_left fun j hj => ?_
    have hlt := List.mem_range.1 hj
    rw [onCircle_of_lt (by omega)]
  · have hsplit : List.range k = List.range (B - g) ++ (List.range (k + g - B)).map (B - g + ·) := by
      rw [← List.range_add, show B - g + (k + g - B) = k by omega]
    rw [if_neg hend, hsplit, List.map_append, List.map_map]
    refine congrArg₂ _ (List.map_congr_left fun j hj => ?_) (List.map_congr_left fun j hj => ?_)
    · have hlt := List.mem_range.1 hj
      rw [onCircle_of_lt (by omega)]
    · rw [Function.comp_apply, onCircle_of_le (by omega)]
      exact congrArg buffer (by omega)

/-- A read takes bytes that have been told, the first ones. -/
theorem tracks_read (h16 : 2 * B ≤ 65536) (h : Tracks B xs a u) (size : Nat) :
    (rtSerialRead B size u).1 = xs.take (min size a) ∧
      Tracks B (xs.drop (min size a)) (a - min size a) (rtSerialRead B size u).2 := by
  have hg := h.get_lt
  have htold := h.told
  have hroom := h.room
  have hcalc : serialFifoCalcRecvedLen B u.fifo = a := by
    rw [h.fifo]
    exact calcRecvedLen_tracks u.fifo.buffer hg (by omega)
  rw [rtSerialRead, hcalc]
  generalize hk : min size a = k
  have hka : k ≤ a := hk ▸ Nat.min_le_right size a
  have hget : (if (u.fifo.getIndex + k) % 65536 ≥ B then (u.fifo.getIndex + k) % 65536 % B
      else (u.fifo.getIndex + k) % 65536) = onCircle B (u.fifo.getIndex + k) := by
    rw [Nat.mod_eq_of_lt (by omega)]
    by_cases hend : u.fifo.getIndex + k < B
    · rw [if_neg (by omega), onCircle_of_lt hend]
    · rw [if_pos (by omega), onCircle_of_le (by omega), Nat.mod_eq_sub_mod (by omega), Nat.mod_eq_of_lt (by omega)]
  have hlength : (xs.drop k).length = xs.length - k := List.length_drop
  refine ⟨?_, ?_⟩
  · show (if _ then _ else _) = _
    rw [copied_eq u.fifo.buffer hg]
    refine List.ext_getElem (by simp; omega) fun j hj hj' => ?_
    rw [List.getElem_map, List.getElem_range, List.getElem_take]
    exact h.cells j _
  · simp only [rtDmaRecvUpdateGetIndex, hget]
    refine ⟨?_, by omega, by omega, ?_, ?_, ?_, ?_, ?_, fun j hj => ?_⟩
    · show onCircle B (u.fifo.getIndex + k) < B
      simp only [onCircle]
      split <;> omega
    · show u.fifo.putIndex = onCircle B (onCircle B (u.fifo.getIndex + k) + (a - k))
      rw [h.put, onCircle_add hg (by omega), Nat.add_sub_cancel' hka]
    · show (u.fifo.isFull && k == 0) = decide (a - k = B)
      rw [h.full]
      by_cases hzero : k = 0
      · rw [hzero, Nat.sub_zero]
        exact Bool.and_true _
      · rw [decide_eq_false (show ¬a - k = B by omega), beq_eq_false_iff_ne.2 hzero, Bool.and_false]
    · show u.last = onCircle B (onCircle B (u.fifo.getIndex + k) + (a - k))
      rw [h.last, onCircle_add hg (by omega), Nat.add_sub_cancel' hka]
    · show u.pos = onCircle B (onCircle B (u.fifo.getIndex + k) + (xs.drop k).length)
      rw [h.pos, hlength, onCircle_add hg (by omega), Nat.add_sub_cancel' (by omega)]
    · show u.done = decide (onCircle B (u.fifo.getIndex + k) + (a - k) < B ∧
        B ≤ onCircle B (u.fifo.getIndex + k) + (xs.drop k).length)
      rw [h.done, hlength]
      refine decide_eq_decide.2 ?_
      simp only [onCircle]
      split <;> omega
    · show u.fifo.buffer (onCircle B (onCircle B (u.fifo.getIndex + k) + j)) = _
      rw [onCircle_add hg (by omega), List.getElem_drop]
      exact h.cells (k + j) (by omega)

end steps

/-! ## Runs -/

theorem readBy_snoc (B : Nat) (es : List SerialEvent) (e : SerialEvent) :
    readBy B (es ++ [e]) = readBy B es ++ (serialStep B (run (moves (serialStep B)) Uart.opened es) e).1 := by
  rw [readBy, answers_append, List.flatten_append]
  exact congrArg (readBy B es ++ ·) (List.append_nil _)

theorem sentBy_append (es fs : List SerialEvent) : sentBy (es ++ fs) = sentBy es ++ sentBy fs := List.flatMap_append

/-- What has come has been read or is in the buffer. -/
theorem tracks_run {B : Nat} (hB : 0 < B) (h16 : 2 * B ≤ 65536) (es : List SerialEvent) (h : InTime B es) :
    ∃ xs a, Tracks B xs a (run (moves (serialStep B)) Uart.opened es) ∧ sentBy es = readBy B es ++ xs := by
  induction es using List.reverseRecOn with
  | nil => exact ⟨[], 0, tracks_opened hB, rfl⟩
  | append_singleton es e ih =>
    obtain ⟨xs, a, htracks, hsent⟩ := ih fun fs hfs => h fs (hfs.trans (List.prefix_append es [e]))
    have hroom := h _ (List.prefix_refl _)
    rw [readBy_snoc, sentBy_append, hsent] at hroom
    rw [run_snoc, readBy_snoc, sentBy_append, hsent]
    cases e with
    | byte b =>
      refine ⟨xs ++ [b], a, tracks_store htracks ?_ b, ?_⟩
      · have hlen : (readBy B es ++ xs ++ [b]).length ≤ (readBy B es ++ []).length + B := hroom
        simp only [List.length_append, List.length_singleton, List.append_nil] at hlen
        omega
      · show readBy B es ++ xs ++ [b] = readBy B es ++ [] ++ (xs ++ [b])
        rw [List.append_nil, List.append_assoc]
    | interrupts idle =>
      obtain ⟨a', htracks', -⟩ := tracks_interrupts h16 htracks idle
      refine ⟨xs, a', htracks', ?_⟩
      show readBy B es ++ xs ++ [] = readBy B es ++ [] ++ xs
      rw [List.append_nil, List.append_nil]
    | read size =>
      obtain ⟨hread, htracks'⟩ := tracks_read h16 htracks size
      refine ⟨xs.drop (min size a), _, htracks', ?_⟩
      show readBy B es ++ xs ++ [] = readBy B es ++ (rtSerialRead B size _).1 ++ _
      rw [hread, List.append_nil, List.append_assoc, List.take_append_drop]

end WM.Proof
