import WaterMaker.Spec.Usart

/-!
# The PM2.5 sensor

`zph01ReceiveData` is the receiver `pm25Framer`, with its unfinished frame in `rx_buffer` (`FramesPm25`). What it
publishes is therefore always the value of a frame in the stream; but a frame whose first byte comes while the second
byte of a header is awaited loses that byte, and with it the whole frame (`pm25_synchronised`).
-/

namespace WM.Proof

open WM WM.Impl WM.Spec

theorem frame_pm25Framer {f : List Byte} : pm25Framer.Frame f ↔ Pm25Frame f := by
  have hheaded : f.length = 9 → (pm25Framer.Headed f ↔ _) := fun hlen => Framer.headed_ofHeader (by omega) 0
  refine ⟨fun h => ?_, fun h => ⟨h.length, (hheaded h.length).mpr ?_, decide_eq_true h.sum⟩⟩
  · obtain ⟨h0, h1⟩ := (hheaded h.length).mp h.headed
    exact ⟨h.length, of_decide_eq_true h0, of_decide_eq_true h1, of_decide_eq_true h.good⟩
  · exact ⟨decide_eq_true h.head, decide_eq_true h.kind⟩

/-! ## The buffer -/

/-- A byte goes behind those that are there. -/
theorem set_append_replicate {α : Type} (p : List α) (b z : α) {n : Nat} (hn : 0 < n) :
    (p ++ List.replicate n z).set p.length b = p ++ [b] ++ List.replicate (n - 1) z := by
  obtain ⟨n, rfl⟩ := Nat.exists_eq_add_one.mpr hn
  rw [List.set_append_right _ _ (Nat.le_refl _), Nat.sub_self, List.replicate_succ, List.set_cons_zero]
  simp

/-- The checksum of the source makes the sum 0. -/
theorem fucCheckSum_iff {f : List Byte} (hlen : f.length = 9) (tail : List Byte) :
    (f ++ tail).getD 8 0 = fucCheckSum (f ++ tail) 9 ↔ ((f.drop 1).map BitVec.toNat).sum % 256 = 0 := by
  obtain ⟨a, f, rfl⟩ := List.exists_cons_of_length_eq_add_one hlen
  rcases List.eq_nil_or_concat f with rfl | ⟨mid, c, rfl⟩
  · exact nomatch hlen
  rw [List.concat_eq_append] at *
  have hmid : mid.length = 7 := by simpa using hlen
  have hlast : (a :: (mid ++ [c]) ++ tail).getD 8 0 = c := by simp [hmid]
  have hsum : (((a :: (mid ++ [c]) ++ tail).drop 1).take (9 - 2)) = mid := by simp [hmid]
  have hc := c.isLt
  unfold fucCheckSum
  rw [hlast, hsum, ← BitVec.toNat_inj, BitVec.toNat_add, BitVec.toNat_not, toNat_foldl_add]
  simp only [List.drop_one, List.tail_cons, List.map_append, List.sum_append, List.map_cons, List.map_nil,
    List.sum_singleton]
  show c.toNat = (2 ^ 8 - 1 - (0 + (mid.map BitVec.toNat).sum) % 256 + 1) % 2 ^ 8 ↔ _
  omega

/-! ## One byte -/

/-- What was published last. -/
def publishedOf (v : Nat) : List (List Byte) → Nat
  | [] => v
  | f :: _ => pm25 f

/-- The parser holds what the receiver does; `v` was published before. -/
structure FramesPm25 (v : Nat) (s : Zph01) (x : Framer.Rx Byte) : Prop where
  buffer : s.rxBuffer = x.part ++ List.replicate (10 - x.part.length) 0
  count : s.count = x.part.length
  value : s.u16PM25 = publishedOf v x.taken

variable {v : Nat} {s : Zph01} {x : Framer.Rx Byte} {b : Byte}

theorem FramesPm25.init (v : Nat) : FramesPm25 v { Zph01.init with u16PM25 := v } ⟨[], []⟩ := ⟨rfl, rfl, rfl⟩

theorem FramesPm25.reset (h : s.u16PM25 = publishedOf v x.taken) : FramesPm25 v s.reset ⟨[], x.taken⟩ := ⟨rfl, rfl, h⟩

theorem FramesPm25.store (h : FramesPm25 v s x) (hlen : x.part.length < 9) :
    FramesPm25 v (s.store b) ⟨x.part ++ [b], x.taken⟩ := by
  refine ⟨?_, ?_, h.value⟩
  · show s.rxBuffer.set s.count b = x.part ++ [b] ++ List.replicate (10 - (x.part ++ [b]).length) 0
    rw [h.buffer, h.count, set_append_replicate _ _ _ (by omega), List.length_append, Nat.sub_add_eq]
    rfl
  · show s.count + 1 = (x.part ++ [b]).length
    rw [h.count, List.length_append]
    rfl

/-- The three branches that store a byte are those in which it fits. -/
theorem accept_eq (h : FramesPm25 v s x) (hlen : x.part.length < 9) (b : Byte) :
    s.accept b = if pm25Framer.fits x.part b then s.store b else s.reset := by
  have hcount := h.count
  unfold Zph01.accept
  generalize x.part = p at *
  rcases p with _ | ⟨a, _ | ⟨c, p⟩⟩
  · simp [pm25Framer, Framer.ofHeader, hcount]
  · simp [pm25Framer, Framer.ofHeader, hcount]
  · rw [List.length_cons, List.length_cons] at *
    rw [if_neg (by omega), if_neg (by omega), if_pos (by omega)]
    rfl

/-- A complete frame is published if the receiver takes it. -/
theorem FramesPm25.publish (h : FramesPm25 v s x) (hlen : x.part.length = 9) :
    FramesPm25 v s.publish.reset ⟨[], pm25Framer.take x.part x.taken⟩ := by
  have hsum := fucCheckSum_iff hlen (List.replicate (10 - x.part.length) 0)
  rw [← h.buffer] at hsum
  have hgood : _ ↔ pm25Framer.good x.part = true := hsum.trans decide_eq_true_iff.symm
  refine ⟨rfl, rfl, ?_⟩
  show s.publish.u16PM25 = publishedOf v (pm25Framer.take x.part x.taken)
  unfold Zph01.publish Framer.take
  by_cases htaken : pm25Framer.good x.part = true
  · rw [if_pos (hgood.mpr htaken), if_pos htaken]
    show (s.rxBuffer.getD 3 0).toNat * 100 + (s.rxBuffer.getD 4 0).toNat =
      100 * (x.part.getD 3 0).toNat + (x.part.getD 4 0).toNat
    rw [h.buffer, List.getD_append _ _ _ _ (by omega), List.getD_append _ _ _ _ (by omega), Nat.mul_comm]
  · rw [if_neg fun hchecked => htaken (hgood.mp hchecked), if_neg htaken]
    exact h.value

theorem FramesPm25.step (h : FramesPm25 v s x) (hlen : x.part.length < 9) (b : Byte) :
    FramesPm25 v (zph01ReceiveData b s) (pm25Framer.step x b) := by
  unfold zph01ReceiveData
  rw [accept_eq h hlen]
  by_cases hfits : pm25Framer.fits x.part b = true
  · have hnext := h.store (b := b) hlen
    have hcount : (s.store b).count = x.part.length + 1 := by rw [hnext.count]; simp
    rw [if_pos hfits]
    by_cases hlast : x.part.length + 1 = 9
    · rw [if_pos (hcount.trans hlast), Framer.step_last hfits hlast]
      exact hnext.publish (by simpa using hlast)
    · rw [if_neg (by omega), Framer.step_fits hfits hlast]
      exact hnext
  · rw [if_neg hfits, Framer.step_drop hfits]
    exact .reset h.value

/-- The parser is the receiver, along every stream. -/
theorem FramesPm25.run (h : FramesPm25 v s x) (hlen : x.part.length < 9) (bs : List Byte) :
    FramesPm25 v (zph01Run s bs) (run pm25Framer.step x bs) := by
  induction bs generalizing s x with
  | nil => exact h
  | cons b bs ih => exact ih (h.step hlen b) (Framer.short_step (F := pm25Framer) hlen b)

/-! ## Streams -/

/-- A frame is published, whatever was published before, exactly if the parser is idle when it begins. -/
theorem decoded_iff (h : FramesPm25 v s x) (hcount : s.count ≤ 1) {f : List Byte} (hf : Pm25Frame f) :
    (∀ w, (zph01Run { s with u16PM25 := w } f).u16PM25 = pm25 f) ↔ s.count = 0 := by
  have hpart := h.count
  have hrun : ∀ w, (zph01Run { s with u16PM25 := w } f).u16PM25 =
      publishedOf w (run pm25Framer.step ⟨x.part, []⟩ f).taken := fun w =>
    (FramesPm25.run (v := w) (s := { s with u16PM25 := w }) (x := ⟨x.part, []⟩) ⟨h.buffer, h.count, rfl⟩
      (by dsimp only; omega) f).value
  refine ⟨fun hdecoded => ?_, fun hidle w => ?_⟩
  · by_contra hne
    -- the first byte is dropped, and eight are not a frame
    obtain ⟨a, f, rfl⟩ := List.exists_cons_of_length_eq_add_one hf.length
    have hdrop : ¬pm25Framer.fits x.part a = true := by
      have ha : a = 0xFF := hf.head
      obtain ⟨c, hc⟩ := List.length_eq_one_iff.mp (show x.part.length = 1 by omega)
      rw [ha, hc]
      exact Bool.false_ne_true
    have hlen := hf.length
    rw [List.length_cons] at hlen
    have hshort : (run pm25Framer.step ⟨[], []⟩ f).taken = [] :=
      Framer.taken_short (show 0 + f.length < 9 by omega)
    have hlost := hrun (pm25 (a :: f) + 1)
    rw [run_cons, Framer.step_drop (x := ⟨x.part, []⟩) hdrop, hshort, hdecoded] at hlost
    exact absurd hlost (Nat.ne_of_lt (Nat.lt_succ_self _))
  · rw [hrun, List.length_eq_zero_iff.mp (show x.part.length = 0 by omega),
      Framer.run_frame (frame_pm25Framer.mpr hf) (show 0 < 9 by omega)]
    rfl

/-- For every stream of bytes from power-up: a byte changes `u16PM25` only if it completes a frame, to the frame's
value; and a frame that begins while the parser is idle or awaits the second byte of the header is decoded, whatever
value was published before, exactly if the parser is idle. -/
theorem pm25_synchronised (bs : List Byte) :
    (∀ b, (zph01Run .init (bs ++ [b])).u16PM25 ≠ (zph01Run .init bs).u16PM25 →
      ∃ f, Pm25Frame f ∧ f <:+ bs ++ [b] ∧ (zph01Run .init (bs ++ [b])).u16PM25 = pm25 f) ∧
    ∀ f, Pm25Frame f → (zph01Run .init bs).count ≤ 1 →
      ((∀ v, (zph01Run { zph01Run .init bs with u16PM25 := v } f).u16PM25 = pm25 f) ↔
        (zph01Run .init bs).count = 0) := by
  have hinit : ∀ bs, FramesPm25 0 (zph01Run .init bs) (run pm25Framer.step ⟨[], []⟩ bs) := fun bs =>
    (FramesPm25.init 0).run (show 0 < 9 by omega) bs
  refine ⟨fun b hne => ?_, fun f hf hcount => decoded_iff (hinit bs) hcount hf⟩
  have hreceives := Framer.receives_run (F := pm25Framer) (show 0 < 9 by omega) bs
  rw [(hinit bs).value, (hinit (bs ++ [b])).value, run_snoc] at *
  rcases hreceives.taken_step b with hsame | ⟨f, hnew, hframe, hsuffix⟩
  · exact absurd (by rw [hsame]) hne
  · exact ⟨f, frame_pm25Framer.mp hframe, hsuffix, by rw [hnew]; rfl⟩

/-- `FF 18` and a value of 1.05, with the checksum. -/
def pm25Sample : List Byte := [0xFF, 0x18, 0x00, 0x01, 0x05, 0x00, 0x00, 0x00, 0xE2]

/-- The frame is decoded behind a stray byte, and the value is one of the stream. -/
theorem pm25_synchronised_sample : (zph01Run .init ([0x33] ++ pm25Sample)).u16PM25 = 105 ∧
    (zph01Run { zph01Run .init [0x33] with u16PM25 := 7 } pm25Sample).u16PM25 = 105 ∧
    ∃ f, Pm25Frame f ∧ f <:+ [0x33] ++ pm25Sample.dropLast ++ [0xE2] ∧ 105 = pm25 f := by
  have hvalue : (zph01Run .init ([0x33] ++ pm25Sample.dropLast ++ [0xE2])).u16PM25 = 105 := by decide
  refine ⟨by decide, ?_, ?_⟩
  · exact ((pm25_synchronised [0x33]).2 pm25Sample (by decide) (by decide)).mpr (by decide) 7
  · have h := (pm25_synchronised ([0x33] ++ pm25Sample.dropLast)).1 0xE2 (by decide)
    rwa [hvalue] at h

/-- Behind a stray `FF` the same frame is lost. -/
theorem pm25_frame_lost : Pm25Frame pm25Sample ∧ (zph01Run .init [0xFF]).count = 1 ∧
    (zph01Run .init ([0xFF] ++ pm25Sample)).u16PM25 = 0 := by
  decide

end WM.Proof
