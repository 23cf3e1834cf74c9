import Mathlib.Tactic.Ring
import Mathlib.Tactic.Positivity
import WaterMaker.Spec.Mqtt

/-!
# Packets are taken from the stream as they were put there

As long as every call of `recv` has at least one byte, the reader cannot lose its place: a packet that it accepts is
the next one of the stream. Otherwise it can, since the end of `decodePacket` is not looked at; but even then what it
accepts has the form of a packet, because the length is written anew. Nothing keeps it inside `readbuf`.
-/

namespace WM.Proof

open Impl Spec

variable {k len m n v : Nat} {s s' : Socket} {r : Option (List Byte)} {t : Bool} {rest : List Byte}

/-! ## The bytes of a length -/

theorem and_low : (BitVec.ofNat 8 (n % 128) &&& 127 : Byte).toNat = n % 128 := by
  have h : ∀ k < 128, (BitVec.ofNat 8 k &&& 127 : Byte).toNat = k := by decide +kernel
  exact h _ (Nat.mod_lt _ (by decide))

theorem and_low_continued : ((BitVec.ofNat 8 (n % 128) ||| 0x80) &&& 127 : Byte).toNat = n % 128 := by
  have h : ∀ k < 128, ((BitVec.ofNat 8 k ||| 0x80) &&& 127 : Byte).toNat = k := by decide +kernel
  exact h _ (Nat.mod_lt _ (by decide))

theorem and_high : (BitVec.ofNat 8 (n % 128) &&& 128 : Byte) = 0 := by
  have h : ∀ k < 128, (BitVec.ofNat 8 k &&& 128 : Byte) = 0 := by decide +kernel
  exact h _ (Nat.mod_lt _ (by decide))

theorem and_high_continued : ((BitVec.ofNat 8 (n % 128) ||| 0x80) &&& 128 : Byte) ≠ 0 := by
  have h : ∀ k < 128, ((BitVec.ofNat 8 k ||| 0x80) &&& 128 : Byte) ≠ 0 := by decide +kernel
  exact h _ (Nat.mod_lt _ (by decide))

/-! ## Single reads -/

/-- `recv` takes its bytes from the front of the stream. -/
theorem recv_stream (h : s.recv k = (r, s')) :
    r.getD [] ++ s'.stream = s.stream ∧ (r.getD []).length ≤ k := by
  unfold Socket.recv at h
  split at h <;> cases h
  · exact ⟨List.take_append_drop .., List.length_take_le ..⟩
  · refine ⟨List.take_append_drop .., ?_⟩
    exact Nat.le_trans (List.length_take_le ..) (Nat.min_le_right ..)
  · exact ⟨rfl, Nat.zero_le _⟩
  · exact ⟨rfl, Nat.zero_le _⟩

/-- `net_read` makes no call of `recv`, or one, or two. -/
theorem netRead_cases {r : NetRead} (h : netRead len t s = (r, s')) :
    (r = ⟨[], true⟩ ∧ s' = s) ∨ (∃ o, s.recv len = (o, s') ∧ r = ⟨o.getD [], o.isSome⟩) ∨
      ∃ first s₁ o, s.recv len = (some first, s₁) ∧ s₁.recv (len - first.length) = (o, s') ∧
        r = ⟨first ++ o.getD [], o.isSome⟩ := by
  unfold netRead at h
  split at h
  · cases h
    exact .inl ⟨rfl, rfl⟩
  · right
    rcases h1 : s.recv len with ⟨_ | first, s₁⟩ <;> rw [h1] at h
    · cases h
      exact .inl ⟨none, rfl, rfl⟩
    · dsimp only at h
      split at h
      · cases h
        exact .inl ⟨some first, rfl, rfl⟩
      · right
        rcases h2 : s₁.recv (len - first.length) with ⟨_ | second, s₂⟩ <;> rw [h2] at h <;> cases h
        · exact ⟨first, s₁, none, rfl, h2, by rw [Option.getD_none, List.append_nil]; rfl⟩
        · exact ⟨first, s₁, some second, rfl, h2, rfl⟩

/-- It takes its bytes from the front of the stream too, and stores no more than it is asked for. -/
theorem netRead_stream {r : NetRead} (h : netRead len t s = (r, s')) :
    r.stored ++ s'.stream = s.stream ∧ r.stored.length ≤ len := by
  obtain ⟨rfl, rfl⟩ | ⟨o, h1, rfl⟩ | ⟨first, s₁, o, h1, h2, rfl⟩ := netRead_cases h
  · exact ⟨rfl, Nat.zero_le _⟩
  · exact recv_stream h1
  · obtain ⟨hs₁, hlen₁⟩ := recv_stream h1
    obtain ⟨hs₂, hlen₂⟩ := recv_stream h2
    rw [Option.getD_some] at hs₁ hlen₁
    refine ⟨by rw [← hs₁, ← hs₂, List.append_assoc], ?_⟩
    rw [List.length_append]
    omega

theorem prompt_recv (hp : Forthcoming s) (h : s.recv k = (r, s')) :
    Forthcoming s' ∧ r ≠ none := by
  unfold Socket.recv at h
  unfold Forthcoming at hp ⊢
  split at h <;> cases h
  next hr => exact ⟨by simp [hr], by simp⟩
  next hr => exact ⟨fun r hr' => hp r (hr ▸ List.mem_cons_of_mem _ hr'), by simp⟩
  next hr =>
    obtain ⟨n, -, hn⟩ := hp .notConnected (hr ▸ List.mem_cons_self ..)
    cases hn
  next hr =>
    obtain ⟨n, -, hn⟩ := hp .failed (hr ▸ List.mem_cons_self ..)
    cases hn

theorem prompt_netRead {r : NetRead} (hp : Forthcoming s) (h : netRead len t s = (r, s')) :
    Forthcoming s' ∧ r.ok = true := by
  obtain ⟨rfl, rfl⟩ | ⟨o, h1, rfl⟩ | ⟨first, s₁, o, h1, h2, rfl⟩ := netRead_cases h
  · exact ⟨hp, rfl⟩
  · exact (prompt_recv hp h1).imp_right Option.isSome_iff_ne_none.mpr
  · exact (prompt_recv (prompt_recv hp h1).1 h2).imp_right Option.isSome_iff_ne_none.mpr

/-- One byte is read at once. -/
theorem netRead_one {b : Byte} (hp : Forthcoming s) (hs : s.stream = b :: rest) :
    ∃ s', netRead 1 t s = (⟨[b], true⟩, s') ∧ s'.stream = rest ∧ Forthcoming s' := by
  have hrecv : ∃ s', s.recv 1 = (some [b], s') ∧ s'.stream = rest := by
    unfold Socket.recv
    cases hr : s.recvs with
    | nil => exact ⟨⟨rest, []⟩, by simp [hs], rfl⟩
    | cons r rs =>
      obtain ⟨n, hn, rfl⟩ := hp r (hr ▸ List.mem_cons_self ..)
      refine ⟨⟨rest, rs⟩, ?_, rfl⟩
      simp [hs, Nat.min_eq_right hn]
  obtain ⟨s', hs', hrest⟩ := hrecv
  refine ⟨s', ?_, hrest, (prompt_recv hp hs').1⟩
  simp [netRead, hs']

/-! ## The length -/

/-- What was encoded is decoded, and the rest of the stream is left. -/
theorem decodeLoop_encodeLoop {j : Nat} (hp : Forthcoming s) (hj : k ≤ j)
    (hn : n < 128 ^ (k + 1)) (hs : s.stream = encodeLoop (j + 1) n ++ rest) :
    ∃ s', decodeLoop (k + 1) m v s = (v + n * m, s') ∧ s'.stream = rest ∧ Forthcoming s' := by
  induction k generalizing j n m v s with
  | zero =>
    have hlt : ¬n / 128 > 0 := by omega
    simp only [encodeLoop, if_neg hlt, List.cons_append, List.nil_append] at hs
    obtain ⟨s', hread, hrest, hp'⟩ := netRead_one (t := true) hp hs
    refine ⟨s', ?_, hrest, hp'⟩
    simp only [decodeLoop, hread, and_low, and_high]
    simp [Nat.mod_eq_of_lt (show n < 128 by omega)]
  | succ k ih =>
    by_cases hlt : n / 128 > 0
    · simp only [encodeLoop, if_pos hlt, List.cons_append] at hs
      obtain ⟨s₁, hread, hrest, hp₁⟩ := netRead_one (t := true) hp hs
      obtain ⟨j, rfl⟩ : ∃ j', j = j' + 1 := ⟨j - 1, by omega⟩
      obtain ⟨s', hdec, hrest', hp'⟩ := ih (m := m * 128) (v := v + n % 128 * m) hp₁ (by omega)
        (by rw [Nat.pow_succ] at hn; omega) hrest
      refine ⟨s', ?_, hrest', hp'⟩
      rw [decodeLoop]
      simp only [hread, and_low_continued]
      rw [if_pos and_high_continued, hdec]
      congr 1
      calc v + n % 128 * m + n / 128 * (m * 128) = v + (n % 128 + 128 * (n / 128)) * m := by ring
        _ = v + n * m := by rw [Nat.mod_add_div]
    · simp only [encodeLoop, if_neg hlt, List.cons_append, List.nil_append] at hs
      obtain ⟨s', hread, hrest, hp'⟩ := netRead_one (t := true) hp hs
      refine ⟨s', ?_, hrest, hp'⟩
      rw [decodeLoop]
      simp only [hread, and_low, and_high]
      simp [Nat.mod_eq_of_lt (show n < 128 by omega)]

theorem decodePacket_encode (hp : Forthcoming s) (hn : n < 268435456)
    (hs : s.stream = mqttPacketEncode n ++ rest) :
    ∃ s', decodePacket s = (n, s') ∧ s'.stream = rest ∧ Forthcoming s' := by
  obtain ⟨s', hdec, hrest, hp'⟩ := decodeLoop_encodeLoop (k := 3) (m := 1) (v := 0) hp (by omega) hn hs
  exact ⟨s', by simpa [decodePacket] using hdec, hrest, hp'⟩

/-- A length is below `128 ^ 4`, whatever has been read of it. -/
theorem decodeLoop_lt (s : Socket) (hv : v < m) : (decodeLoop k m v s).1 < 128 ^ k * m := by
  induction k generalizing m v s with
  | zero => simpa [decodeLoop] using hv
  | succ k ih =>
    have hm : m ≤ 128 ^ (k + 1) * m := Nat.le_mul_of_pos_left m (by positivity)
    rw [decodeLoop]
    split
    next i s' _ =>
      have hi : (i &&& 127).toNat ≤ 127 := by
        rw [BitVec.toNat_and]
        exact Nat.and_le_right
      have hnext : v + (i &&& 127).toNat * m < m * 128 := by
        have := Nat.mul_le_mul_right m hi
        omega
      split
      · calc (decodeLoop k (m * 128) (v + (i &&& 127).toNat * m) s').1 < 128 ^ k * (m * 128) := ih s' hnext
          _ = 128 ^ (k + 1) * m := by ring
      · calc v + (i &&& 127).toNat * m < m * 128 := hnext
          _ ≤ 128 ^ k * (m * 128) := Nat.le_mul_of_pos_left _ (by positivity)
          _ = 128 ^ (k + 1) * m := by ring
    next => exact Nat.lt_of_lt_of_le hv hm

theorem decodePacket_lt (s : Socket) : (decodePacket s).1 < 268435456 := by
  have h := decodeLoop_lt (k := 4) (m := 1) (v := 0) s (by omega)
  simpa [decodePacket] using h

/-! ## Packets -/

-- The second byte of a length comes late: the packet that is accepted is none that was sent.
example : mqttPacketReadPacket ⟨[0x30, 0x82, 0x01, 0x41, 0x42], [.upto 1, .upto 1, .upto 0, .upto 0]⟩ =
    (⟨some 3, [0x30, 0x02, 0x01, 0x41]⟩, ⟨[0x42], []⟩) := by decide

/-- A packet at the front of the stream is read as it is, or the reading fails in its body. -/
theorem readPacket_front {p : Framed} (hp : Forthcoming s)
    (hs : s.stream = p.bytes ++ rest) :
    ∃ body s', mqttPacketReadPacket s =
        (⟨if body.length = p.body.length then some (p.header >>> 4) else none,
          p.header :: mqttPacketEncode p.body.length ++ body⟩, s') ∧
      body ++ s'.stream = p.body ++ rest ∧ body.length ≤ p.body.length ∧ Forthcoming s' := by
  rw [Framed.bytes, List.cons_append, List.cons_append, List.append_assoc] at hs
  obtain ⟨s₁, hhead, hrest₁, hp₁⟩ := netRead_one (t := false) hp hs
  obtain ⟨s₂, hdec, hrest₂, hp₂⟩ := decodePacket_encode hp₁ p.fits hrest₁
  cases hbody : netRead p.body.length true s₂ with | mk body s₃ => ?_
  obtain ⟨hp₃, hok⟩ := prompt_netRead hp₂ hbody
  obtain ⟨hstream, hle⟩ := netRead_stream hbody
  refine ⟨body.stored, s₃, ?_, hstream.trans hrest₂, hle, hp₃⟩
  simp [mqttPacketReadPacket, hhead, hdec, hbody, hok]

theorem readPackets_front {ps : List Framed} {bufs : List (List Byte)} (hp : Forthcoming s)
    (hs : s.stream = (ps.map Framed.bytes).flatten ++ rest) (h : readPackets ps.length s = (some bufs, s')) :
    bufs = ps.map Framed.bytes ∧ s'.stream = rest := by
  induction ps generalizing s bufs with
  | nil =>
    cases h
    exact ⟨rfl, hs⟩
  | cons p ps ih =>
    rw [List.map_cons, List.flatten_cons, List.append_assoc] at hs
    obtain ⟨body, s₁, hread, hstream, hle, hp₁⟩ := readPacket_front hp hs
    rw [List.length_cons, readPackets, hread] at h
    by_cases hlen : body.length = p.body.length
    · rw [if_pos hlen] at h
      obtain ⟨rfl, hrest⟩ := List.append_inj hstream hlen
      cases hmore : readPackets ps.length s₁ with | mk more s₂ => ?_
      simp only [hmore, Prod.mk.injEq] at h
      obtain ⟨hbufs, rfl⟩ := h
      cases more with
      | none => cases hbufs
      | some more =>
        cases hbufs
        obtain ⟨rfl, hend⟩ := ih hp₁ hrest hmore
        exact ⟨rfl, hend⟩
    · rw [if_neg hlen] at h
      cases h

/-! ## With all the bytes at hand -/

theorem recvs_recv (hs : s.recvs = []) (h : s.recv k = (r, s')) :
    s'.recvs = [] := by
  simp only [Socket.recv, hs] at h
  cases h
  rfl

theorem recvs_netRead {r : NetRead} (hs : s.recvs = []) (h : netRead len t s = (r, s')) : s'.recvs = [] := by
  obtain ⟨rfl, rfl⟩ | ⟨o, h1, rfl⟩ | ⟨first, s₁, o, h1, h2, rfl⟩ := netRead_cases h
  · exact hs
  · exact recvs_recv hs h1
  · exact recvs_recv (recvs_recv hs h1) h2

theorem recvs_decodeLoop (hs : s.recvs = []) : (decodeLoop k m v s).2.recvs = [] := by
  induction k generalizing m v s with
  | zero => exact hs
  | succ k ih =>
    rw [decodeLoop]
    split
    next i s' h =>
      split
      · exact ih (recvs_netRead hs h)
      · exact recvs_netRead hs h
    next r s' _ h => exact recvs_netRead hs h

theorem readPacket_all (p : Framed) (rest : List Byte) :
    mqttPacketReadPacket ⟨p.bytes ++ rest, []⟩ = (⟨some (p.header >>> 4), p.bytes⟩, ⟨rest, []⟩) := by
  have hp : Forthcoming ⟨p.bytes ++ rest, []⟩ := fun r hr => absurd hr (List.not_mem_nil)
  have hs : (⟨p.bytes ++ rest, []⟩ : Socket).stream =
      p.header :: (mqttPacketEncode p.body.length ++ (p.body ++ rest)) := by
    simp [Framed.bytes]
  obtain ⟨s₁, hhead, hrest₁, hp₁⟩ := netRead_one (t := false) hp hs
  obtain ⟨s₂, hdec, hrest₂, -⟩ := decodePacket_encode hp₁ p.fits hrest₁
  have hnil : s₂.recvs = [] := by
    have h := recvs_decodeLoop (k := 4) (m := 1) (v := 0) (recvs_netRead rfl hhead)
    rw [show decodeLoop 4 1 0 s₁ = decodePacket s₁ from rfl, hdec] at h
    exact h
  obtain rfl : s₂ = ⟨p.body ++ rest, []⟩ := by
    cases s₂
    cases hnil
    cases hrest₂
    rfl
  have hbody : netRead p.body.length true ⟨p.body ++ rest, []⟩ = (⟨p.body, true⟩, ⟨rest, []⟩) := by
    unfold netRead
    split
    next h0 => simp [List.eq_nil_of_length_eq_zero h0]
    next => simp [Socket.recv]
  rw [mqttPacketReadPacket, hhead]
  simp [hdec, hbody, Framed.bytes]

theorem length_mqttPacketEncode_of_lt (h : n < 128) : (mqttPacketEncode n).length = 1 := by
  simp [mqttPacketEncode, encodeLoop, show ¬n / 128 > 0 by omega]

theorem length_mqttPacketEncode_two (h : 128 ≤ n) (h' : n < 16384) : (mqttPacketEncode n).length = 2 := by
  simp [mqttPacketEncode, encodeLoop, show 0 < n / 128 by omega, show n / 128 / 128 = 0 by omega]

end WM.Proof
