import WaterMaker.Spec.Usart

/-!
# The heater's link

`HeatPortSerialReceiveFSM` is the receiver `heatFramer` with its unfinished frame at the beginning of `g_ComBuff`
(`FramesHeat`), whatever `Comm_Service` does in between: a timeout changes the state of the link only, and the parser
goes on with the frame it has begun. What reaches `AnalyseProtocol` are frames of the stream; but a frame is taken
only if the parser is idle when it begins, and a timeout does not make it so (`heater_link_sound`).
-/

namespace WM.Proof

open WM WM.Impl WM.Spec

/-! ## Frames and sums -/

theorem frame_heatFramer {f : List Byte} : heatFramer.Frame f ↔ HeatFrame f := by
  have hheaded : f.length = 18 → (heatFramer.Headed f ↔ _) := fun hlen => Framer.headed_ofHeader (by omega) 0
  refine ⟨fun h => ?_, fun h => ⟨h.length, (hheaded h.length).mpr ?_, decide_eq_true h.sum⟩⟩
  · obtain ⟨h0, h1⟩ := (hheaded h.length).mp h.headed
    exact ⟨h.length, of_decide_eq_true h0, of_decide_eq_true h1, of_decide_eq_true h.good⟩
  · exact ⟨decide_eq_true h.head, decide_eq_true h.state⟩

/-- The sum of the bytes before the checksum. -/
def heatSum (p : List Byte) : Nat := ((p.take 16).map BitVec.toNat).sum

theorem heatSum_snoc {p : List Byte} (b : Byte) (h : p.length < 16) : heatSum (p ++ [b]) = heatSum p + b.toNat := by
  unfold heatSum
  rw [List.take_of_length_le (by simp; omega), List.take_of_length_le (by omega)]
  simp

theorem heatSum_checksum {p : List Byte} (b : Byte) (h : 16 ≤ p.length) : heatSum (p ++ [b]) = heatSum p := by
  unfold heatSum
  rw [List.take_append_of_le_length h]

/-- Sixteen bytes do not reach the width of the sum. -/
theorem heatSum_le (p : List Byte) : heatSum p ≤ 4080 := by
  have hle : ∀ l : List Byte, (l.map BitVec.toNat).sum ≤ 255 * l.length := fun l => by
    induction l with
    | nil => exact Nat.le_refl _
    | cons b l ih =>
      have := b.isLt
      rw [List.map_cons, List.sum_cons, List.length_cons]
      omega
  have hlen := List.length_take_le 16 p
  have := hle (p.take 16)
  unfold heatSum
  omega

/-- `u16FrameCheckSum` with the next byte. -/
theorem add_heatSum {p : List Byte} {n : Nat} (b : Byte) (hn : n = heatSum p) (h : p.length < 16) :
    (n + b.toNat) % 65536 = heatSum (p ++ [b]) := by
  have := heatSum_le p
  have := b.isLt
  rw [heatSum_snoc b h, ← hn]
  exact Nat.mod_eq_of_lt (by omega)

/-! ## The buffer -/

theorem take_set_succ {α : Type} {l : List α} {n : Nat} (b : α) (h : n < l.length) :
    (l.set n b).take (n + 1) = l.take n ++ [b] := by
  rw [List.set_eq_take_append_cons_drop, if_pos h, List.take_append, List.length_take, Nat.min_eq_left h.le,
    List.take_take, Nat.min_eq_right n.le_succ, Nat.add_sub_cancel_left]
  rfl

/-- The unfinished frame stands at the beginning of the buffer. -/
structure Buffered (s : HeatLink) (p : List Byte) : Prop where
  room : s.comBuff.length = 20
  buff : s.comBuff.take p.length = p
  count : s.dataCount = p.length

theorem Buffered.store {s : HeatLink} {p : List Byte} (h : Buffered s p) (hlen : p.length < 18) (b : Byte) :
    Buffered (s.store b) (p ++ [b]) := by
  refine ⟨?_, ?_, ?_⟩
  · show (s.comBuff.set s.dataCount b).length = 20
    rw [List.length_set, h.room]
  · show (s.comBuff.set s.dataCount b).take (p ++ [b]).length = p ++ [b]
    rw [h.count, List.length_append, List.length_singleton, take_set_succ b (by rw [h.room]; omega), h.buff]
  · show (s.dataCount + 1) % 256 = (p ++ [b]).length
    rw [h.count, List.length_append, List.length_singleton]
    omega

theorem getD_of_take {l f : List Byte} {n i : Nat} (h : l.take n = f) (hi : i < n) : l.getD i 0 = f.getD i 0 := by
  rw [← h, List.getD_eq_getElem?_getD, List.getD_eq_getElem?_getD, List.getElem?_take_of_lt hi]

theorem u16CheckSum_of_take {s : HeatLink} {f : List Byte} (h : s.comBuff.take 18 = f) :
    s.u16CheckSum = (f.getD 16 0).toNat * 256 + (f.getD 17 0).toNat := by
  unfold HeatLink.u16CheckSum
  rw [getD_of_take h (by omega), getD_of_take h (by omega)]

/-- Where the parser stands in a frame of which `n` bytes have come. -/
def StackAt (n : Nat) (s : HeatLink) : Prop :=
  match s.stack with
  | .idle => n = 0
  | .ck => n = 1
  | .rcv => 2 ≤ n ∧ n < 16 ∧ s.u8FrameDataLength = 16 - n
  | .cs => 16 ≤ n ∧ n < 18 ∧ s.u8FrameDataLength = 18 - n
  | .ended => False

/-- The parser holds what the receiver does, and a frame that waits for `Comm_Service` is the last one taken. -/
structure FramesHeat (s : HeatLink) (x : Framer.Rx Byte) : Prop where
  stack : StackAt x.part.length s
  room : s.comBuff.length = 20
  bound : s.dataCount ≤ 18
  buffered : x.part ≠ [] → Buffered s x.part ∧ s.u16FrameCheckSum = heatSum x.part
  whole : s.comStat = .recvOver → x.part = [] ∧ x.taken.head? = some (s.comBuff.take 18)
  analysed : ∀ u ∈ s.analysed, u.take 18 ∈ x.taken

theorem FramesHeat.init : FramesHeat .init ⟨[], []⟩ :=
  ⟨rfl, rfl, Nat.zero_le _, fun h => absurd rfl h, nofun, nofun⟩

variable {s : HeatLink} {x : Framer.Rx Byte}

/-! ## One byte -/

theorem fits_behind {p : List Byte} (b : Byte) (h : 2 ≤ p.length) : heatFramer.fits p b = true := by
  rcases p with _ | ⟨a, _ | ⟨c, p⟩⟩
  · exact absurd h (by decide)
  · exact absurd h (by simp)
  · rfl

section byte

variable (h : FramesHeat s x) (b : Byte)
include h

theorem FramesHeat.byte_idle (hs : s.stack = .idle) :
    FramesHeat (heatPortSerialReceiveFSM b s) (heatFramer.step x b) := by
  have hpart : x.part = [] := by
    simpa only [StackAt, hs, List.length_eq_zero_iff] using h.stack
  have hfits : heatFramer.fits x.part b = decide (b = 0x01) := by rw [hpart]; rfl
  unfold heatPortSerialReceiveFSM
  rw [hs]
  dsimp only
  by_cases hb : b = 0x01
  · rw [if_pos hb, Framer.step_fits (hfits.trans (decide_eq_true hb)) (by rw [hpart]; decide), hpart]
    have hset := take_set_succ (l := s.comBuff) (n := 0) b (by rw [h.room]; decide)
    refine ⟨rfl, ?_, show 1 ≤ 18 by omega, fun _ => ⟨⟨?_, hset, rfl⟩, ?_⟩, nofun, h.analysed⟩
    · exact (List.length_set ..).trans h.room
    · exact (List.length_set ..).trans h.room
    · exact (Nat.add_zero _).symm
  · have hdrop : ¬heatFramer.fits x.part b = true := by rw [hfits]; simpa using hb
    rw [if_neg hb, Framer.step_drop hdrop]
    exact ⟨rfl, h.room, h.bound, fun hne => absurd rfl hne, fun hover => ⟨rfl, (h.whole hover).2⟩, h.analysed⟩

/-- A byte that belongs to a frame that has begun. -/
theorem FramesHeat.goes_on {s' : HeatLink} (hne : x.part ≠ []) (hlen : x.part.length < 17)
    (hstack : StackAt (x.part.length + 1) s') (hbuff : Buffered s' (x.part ++ [b]))
    (hsum : s'.u16FrameCheckSum = heatSum (x.part ++ [b])) (hstat : s'.comStat = s.comStat)
    (han : s'.analysed = s.analysed) : FramesHeat s' ⟨x.part ++ [b], x.taken⟩ := by
  have hlength : (x.part ++ [b]).length = x.part.length + 1 := by simp
  refine ⟨?_, hbuff.room, ?_, fun _ => ⟨hbuff, hsum⟩, fun hover => ?_, ?_⟩
  · rwa [hlength]
  · rw [hbuff.count, hlength]
    omega
  · exact absurd (h.whole (hstat ▸ hover)).1 hne
  · rw [han]
    exact h.analysed

theorem FramesHeat.byte_ck (hs : s.stack = .ck) :
    FramesHeat (heatPortSerialReceiveFSM b s) (heatFramer.step x b) := by
  have hlen : x.part.length = 1 := by
    simpa only [StackAt, hs] using h.stack
  obtain ⟨a, ha⟩ := List.length_eq_one_iff.mp hlen
  have hne : x.part ≠ [] := by rw [ha]; exact List.cons_ne_nil _ _
  have hfits : heatFramer.fits x.part b = decide (b = 1 ∨ b = 0) := by rw [ha]; rfl
  obtain ⟨hbuff, hsum⟩ := h.buffered hne
  unfold heatPortSerialReceiveFSM
  rw [hs]
  dsimp only
  by_cases hb : b = 1 ∨ b = 0
  · rw [if_pos hb, Framer.step_fits (hfits.trans (decide_eq_true hb)) (by rw [hlen]; decide)]
    obtain ⟨hroom, htake, hcount⟩ := hbuff.store (by omega) b
    refine h.goes_on b hne (by omega) ?_ ⟨hroom, htake, hcount⟩ ?_ rfl rfl
    · rw [hlen]
      exact ⟨by omega, by omega, rfl⟩
    · exact add_heatSum b hsum (by omega)
  · have hdrop : ¬heatFramer.fits x.part b = true := by rw [hfits]; simpa using hb
    rw [if_neg hb, Framer.step_drop hdrop]
    exact ⟨rfl, h.room, h.bound, fun hne => absurd rfl hne, nofun, h.analysed⟩

theorem FramesHeat.byte_rcv (hs : s.stack = .rcv) :
    FramesHeat (heatPortSerialReceiveFSM b s) (heatFramer.step x b) := by
  obtain ⟨hlow, hhigh, hleft⟩ : 2 ≤ x.part.length ∧ x.part.length < 16 ∧ s.u8FrameDataLength = 16 - x.part.length := by
    simpa only [StackAt, hs] using h.stack
  have hne : x.part ≠ [] := fun hnil => by rw [hnil] at hlow; exact absurd hlow (by decide)
  have hfits : heatFramer.fits x.part b = true := fits_behind b hlow
  obtain ⟨hbuff, hsum⟩ := h.buffered hne
  obtain ⟨hroom, htake, hcount⟩ := hbuff.store (by omega) b
  have hadd := add_heatSum b hsum hhigh
  have hdown : (s.u8FrameDataLength + 255) % 256 = 16 - (x.part.length + 1) := by omega
  unfold heatPortSerialReceiveFSM
  rw [hs, Framer.step_fits hfits (show x.part.length + 1 ≠ 18 by omega)]
  dsimp only
  split
  · rename_i hzero
    have hzero : (s.u8FrameDataLength + 255) % 256 = 0 := hzero
    refine h.goes_on b hne (by omega) ?_ ⟨hroom, htake, hcount⟩ hadd rfl rfl
    exact ⟨by omega, by omega, show 2 = _ by omega⟩
  · rename_i hzero
    have hzero : ¬(s.u8FrameDataLength + 255) % 256 = 0 := hzero
    refine h.goes_on b hne (by omega) ?_ ⟨hroom, htake, hcount⟩ hadd rfl rfl
    exact ⟨by omega, by omega, hdown⟩

/-- The last byte of a frame: the sum is compared, and the parser is idle again. -/
theorem FramesHeat.byte_last (hlen : x.part.length = 17) : heatPortSerialReceiveFSM b s =
    { (HeatLink.store b { s with comGap := 0 }).countDown with
      stack := .idle, comStat := if heatFramer.good (x.part ++ [b]) then .recvOver else .initApply } := by
  obtain ⟨hbuff, hsum⟩ := h.buffered fun hnil => by rw [hnil] at hlen; exact nomatch hlen
  obtain ⟨hs, hleft⟩ : s.stack = .cs ∧ s.u8FrameDataLength = 1 := by
    have := h.stack
    unfold StackAt at this
    rw [hlen] at this
    cases hs : s.stack <;> rw [hs] at this <;> simp at this ⊢
    exact this
  have htake := (hbuff.store (by omega) b).buff
  rw [List.length_append, List.length_singleton, hlen] at htake
  have hgood : (s.store b).u16CheckSum = s.u16FrameCheckSum ↔ heatFramer.good (x.part ++ [b]) = true := by
    rw [u16CheckSum_of_take htake, hsum, ← heatSum_checksum b (by omega)]
    exact decide_eq_true_iff.symm
  have hzero : (s.u8FrameDataLength + 255) % 256 = 0 := by omega
  unfold heatPortSerialReceiveFSM
  rw [hs]
  refine (if_pos hzero).trans ?_
  by_cases htaken : heatFramer.good (x.part ++ [b]) = true
  · rw [if_pos htaken]
    exact if_pos (hgood.mpr htaken)
  · rw [if_neg htaken]
    exact if_neg fun hsame => htaken (hgood.mp hsame)

theorem FramesHeat.byte_cs (hs : s.stack = .cs) :
    FramesHeat (heatPortSerialReceiveFSM b s) (heatFramer.step x b) := by
  obtain ⟨hlow, hhigh, hleft⟩ : 16 ≤ x.part.length ∧ x.part.length < 18 ∧ s.u8FrameDataLength = 18 - x.part.length := by
    simpa only [StackAt, hs] using h.stack
  have hne : x.part ≠ [] := fun hnil => by rw [hnil] at hlow; exact absurd hlow (by decide)
  have hfits : heatFramer.fits x.part b = true := fits_behind b (by omega)
  obtain ⟨hbuff, hsum⟩ := h.buffered hne
  obtain ⟨hroom, htake, hcount⟩ := hbuff.store hhigh b
  by_cases hlast : x.part.length + 1 = 18
  · rw [List.length_append, List.length_singleton, hlast] at htake hcount
    rw [h.byte_last b (by omega), Framer.step_last hfits hlast, Framer.take]
    split
    · refine ⟨rfl, hroom, hcount.le, fun hnil => absurd rfl hnil, fun _ => ⟨rfl, congrArg some htake.symm⟩,
        fun u hu => ?_⟩
      exact List.mem_cons_of_mem _ (h.analysed u hu)
    · exact ⟨rfl, hroom, hcount.le, fun hnil => absurd rfl hnil, (fun hover => by cases hover), h.analysed⟩
  · have hdown : (s.u8FrameDataLength + 255) % 256 = 18 - (x.part.length + 1) := by omega
    rw [Framer.step_fits hfits hlast]
    unfold heatPortSerialReceiveFSM
    rw [hs]
    dsimp only
    split
    · rename_i hzero
      have hzero : (s.u8FrameDataLength + 255) % 256 = 0 := hzero
      omega
    · refine h.goes_on b hne (by omega) ?_ ⟨hroom, htake, hcount⟩ (hsum.trans (heatSum_checksum b hlow).symm) rfl rfl
      exact ⟨by omega, by omega, hdown⟩

theorem FramesHeat.byte : FramesHeat (heatPortSerialReceiveFSM b s) (heatFramer.step x b) := by
  cases hs : s.stack with
  | idle => exact h.byte_idle b hs
  | ck => exact h.byte_ck b hs
  | rcv => exact h.byte_rcv b hs
  | cs => exact h.byte_cs b hs
  | ended =>
    have hstack := h.stack
    simp only [StackAt, hs] at hstack

end byte

/-! ## Runs -/

/-- A change of the link's state, and of its timer, that does not complete a frame. -/
theorem FramesHeat.stat (h : FramesHeat s x) (st : ProtocolStatus) (gap : Nat) (hst : st ≠ .recvOver) :
    FramesHeat { s with comStat := st, comGap := gap } x :=
  ⟨h.stack, h.room, h.bound,
    fun hne => ⟨⟨h.room, (h.buffered hne).1.buff, (h.buffered hne).1.count⟩, (h.buffered hne).2⟩,
    fun hover => absurd hover hst, h.analysed⟩

/-- `Comm_Service` takes the frame that waits, and nothing from the parser. -/
theorem FramesHeat.service (h : FramesHeat s x) : FramesHeat (commService s) x := by
  unfold commService
  cases hstat : s.comStat with
  | recvOver =>
    obtain ⟨hpart, hhead⟩ := h.whole hstat
    refine ⟨h.stack, by simp, h.bound, fun hne => absurd hpart hne, nofun, List.forall_mem_cons.mpr ⟨?_, h.analysed⟩⟩
    exact List.mem_of_head? hhead
  | recvGoing =>
    dsimp only
    split
    · exact h.stat _ _ nofun
    · rw [← hstat]
      exact h.stat _ _ (by rw [hstat]; nofun)
  | sendGoing =>
    dsimp only
    split
    · rw [← hstat]
      exact h.stat _ _ (by rw [hstat]; nofun)
    · exact h.stat _ _ nofun
  | recvWait => exact h.stat .recvWait _ nofun
  | sendWait => exact h.stat .sendGoing _ nofun
  | sendOver => exact h.stat .recvWait _ nofun
  | initApply => exact h.stat .recvWait _ nofun

theorem bytesOf_snoc (es : List LinkEvent) (e : LinkEvent) : bytesOf (es ++ [e]) = bytesOf es ++ bytesOf [e] :=
  List.filterMap_append

/-- The parser is the receiver, along every interleaving: the calls of `Comm_Service` are of no account to it. -/
theorem framesHeat_run (h : FramesHeat s x) (es : List LinkEvent) :
    FramesHeat (run linkStep s es) (run heatFramer.step x (bytesOf es)) := by
  induction es using List.reverseRecOn with
  | nil => exact h
  | append_singleton es e ih =>
    rw [run_snoc, bytesOf_snoc, run_append]
    cases e with
    | byte b => exact ih.byte b
    | service => exact ih.service
    | sent =>
      rw [show bytesOf [.sent] = [] from rfl, run_nil]
      exact ih.stat .sendOver _ nofun

/-- The parser is idle exactly between frames. -/
theorem FramesHeat.idle_iff (h : FramesHeat s x) : s.stack = .idle ↔ x.part = [] := by
  have hstack := h.stack
  unfold StackAt at hstack
  rw [← List.length_eq_zero_iff]
  cases hs : s.stack <;> rw [hs] at hstack
  case idle => exact iff_of_true rfl hstack
  case ended => exact hstack.elim
  all_goals refine iff_of_false nofun ?_; omega

/-- A byte completes the reception only in the last place of a frame. -/
theorem FramesHeat.completes (h : FramesHeat s x) {b : Byte} (hbefore : s.comStat ≠ .recvOver)
    (hafter : (heatPortSerialReceiveFSM b s).comStat = .recvOver) : x.part.length + 1 = 18 := by
  have hstack := h.stack
  unfold StackAt at hstack
  unfold heatPortSerialReceiveFSM at hafter
  cases hs : s.stack <;> rw [hs] at hstack hafter <;> dsimp only at hafter
  case cs =>
    split at hafter
    · rename_i hzero
      have hzero : (s.u8FrameDataLength + 255) % 256 = 0 := hzero
      omega
    · exact absurd hafter hbefore
  case ended => exact hstack.elim
  case idle =>
    split at hafter
    · exact nomatch hafter
    · exact absurd hafter hbefore
  case ck =>
    split at hafter
    · exact absurd hafter hbefore
    · exact nomatch hafter
  case rcv => split at hafter <;> exact absurd hafter hbefore

/-- A frame is accepted exactly if the parser is idle when it begins. -/
theorem FramesHeat.accepted_iff (h : FramesHeat s x) (hshort : x.part.length < 18) {mid : List LinkEvent} {b : Byte}
    (hf : HeatFrame (bytesOf mid ++ [b])) : Accepted s mid b ↔ s.stack = .idle := by
  have hframe := frame_heatFramer.mpr hf
  have hmid := framesHeat_run h mid
  have hlen : (bytesOf mid).length + 1 = 18 := by simpa using hf.length
  unfold Accepted
  rw [run_snoc, h.idle_iff]
  refine ⟨fun ⟨hbefore, hafter⟩ => ?_, fun hidle => ?_⟩
  · by_contra hne
    exact Framer.part_ne_last hne hshort hlen (hmid.completes hbefore hafter)
  · obtain ⟨part, taken⟩ := x
    cases hidle
    rw [Framer.run_prefix taken (p := []) (q := bytesOf mid) hframe.headed.left
        (show (bytesOf mid).length < 18 by omega),
      List.nil_append] at hmid
    refine ⟨fun hover => ?_, ?_⟩
    · have hnil : bytesOf mid = [] := (hmid.whole hover).1
      rw [hnil] at hlen
      exact nomatch hlen
    · show (heatPortSerialReceiveFSM b _).comStat = _
      rw [hmid.byte_last b (by dsimp only; omega)]
      exact if_pos hframe.good

/-- Bytes that do not begin a frame leave one that waits for `Comm_Service` as it is. -/
theorem waits_run (hover : s.comStat = .recvOver) (hs : s.stack = .idle) {stray : List Byte}
    (h : ∀ c ∈ stray, c ≠ 0x01) :
    let z := run linkStep s (stray.map .byte)
    z.comStat = .recvOver ∧ z.comBuff = s.comBuff := by
  induction stray generalizing s with
  | nil => exact ⟨hover, rfl⟩
  | cons c stray ih =>
    have hstep : linkStep s (.byte c) = { s with comGap := 0 } := by
      show heatPortSerialReceiveFSM c s = _
      unfold heatPortSerialReceiveFSM
      rw [hs]
      exact if_neg (h c List.mem_cons_self)
    rw [List.map_cons, run_cons, hstep]
    exact ih (s := { s with comGap := 0 }) hover hs fun d hd => h d (List.mem_cons_of_mem _ hd)

/-- A frame that waits is taken by `Comm_Service`. -/
theorem heatWater_service (hover : s.comStat = .recvOver) {f : List Byte} (hbuff : s.comBuff.take 18 = f) :
    ((commService s).heatWaterSt, (commService s).heatWaterFlow) = heatWater f := by
  have hservice : commService s = { analyseProtocol s.comBuff { s with comGap := (s.comGap + 1) % 256 } with
      comBuff := List.replicate 20 0, comStat := .sendWait } := by
    unfold commService
    rw [hover]
  rw [hservice]
  show ((s.comBuff.getD 1 0).toNat, (s.comBuff.getD 3 0).toNat * 256 + (s.comBuff.getD 4 0).toNat) = heatWater f
  rw [getD_of_take hbuff (by omega), getD_of_take hbuff (by omega), getD_of_take hbuff (by omega), Nat.mul_comm]
  rfl

/-- For every interleaving of bytes, calls of `Comm_Service` and requests to the heater, from power-up: at most 18
bytes of a frame are stored; `AnalyseProtocol` is applied only to frames, which stand in the stream; and a frame that
comes next is accepted exactly if the parser is idle when it begins, whatever the state of the link is. The next call
of `Comm_Service` then sets the heater's state and flow from it, if no byte that may begin a frame comes before. -/
theorem heater_link_sound (es : List LinkEvent) :
    let s := run linkStep .init es
    s.dataCount ≤ 18 ∧
    (∀ u ∈ s.analysed, HeatFrame (u.take 18) ∧ u.take 18 <:+: bytesOf es) ∧
    ∀ (mid : List LinkEvent) (b : Byte), HeatFrame (bytesOf mid ++ [b]) →
      (Accepted s mid b ↔ s.stack = .idle) ∧
      (Accepted s mid b → ∀ stray : List Byte, (∀ c ∈ stray, c ≠ 0x01) →
        let z := run linkStep s (mid ++ [.byte b] ++ stray.map .byte ++ [.service])
        (z.heatWaterSt, z.heatWaterFlow) = heatWater (bytesOf mid ++ [b])) := by
  have hframes := framesHeat_run .init es
  have hreceives := Framer.receives_run (F := heatFramer) (show 0 < 18 by omega) (bytesOf es)
  generalize run linkStep .init es = s at *
  generalize run heatFramer.step ⟨[], []⟩ (bytesOf es) = x at *
  refine ⟨hframes.bound, fun u hu => ?_, fun mid b hf => ⟨hframes.accepted_iff hreceives.short hf, ?_⟩⟩
  · obtain ⟨hframe, hinfix⟩ := hreceives.taken _ (hframes.analysed u hu)
    exact ⟨frame_heatFramer.mp hframe, hinfix⟩
  · intro haccepted stray hstray
    have hidle := (hframes.accepted_iff hreceives.short hf).mp haccepted
    have hpart := hframes.idle_iff.mp hidle
    have hnow := framesHeat_run hframes (mid ++ [.byte b])
    have hbytes : bytesOf (mid ++ [.byte b]) = bytesOf mid ++ [b] := bytesOf_snoc mid (.byte b)
    -- the frame is the last one taken, and stays in the buffer until `Comm_Service`
    obtain ⟨part, taken⟩ := x
    cases hpart
    rw [hbytes, Framer.run_frame (frame_heatFramer.mpr hf) (show 0 < 18 by omega)] at hnow
    have hbuff := Option.some.inj (hnow.whole haccepted.2).2
    obtain ⟨hover, hkeep⟩ := waits_run haccepted.2 (hnow.idle_iff.mpr rfl) hstray
    rw [run_snoc, run_append]
    exact heatWater_service hover (by rw [hkeep]; exact hbuff.symm)

/-- A frame of the heater: open, with a flow of 300. -/
def heatSample : List Byte := [0x01, 0x01, 0x00, 0x01, 0x2C, 0, 0, 0, 0, 0, 0, 0, 0, 0, 0, 0, 0x00, 0x2F]

/-- Two bytes of a frame, and then nothing until the reception times out and `Comm_Service` waits for a new frame. -/
def heatTimeout : List LinkEvent := [.byte 0x01, .byte 0x01] ++ List.replicate 252 .service

/-- After power-up the frame is taken, with calls of `Comm_Service` in its middle. -/
theorem heater_link_sound_sample : HeatFrame heatSample ∧
    (let z := run linkStep (run linkStep .init [])
      (((heatSample.take 9).map .byte ++ [.service, .service] ++ ((heatSample.drop 9).take 8).map .byte) ++
        [.byte 0x2F] ++ [0x33].map .byte ++ [.service])
    (z.heatWaterSt, z.heatWaterFlow) = (1, 300)) := by
  obtain ⟨-, -, h⟩ := heater_link_sound []
  obtain ⟨hiff, hset⟩ :=
    h ((heatSample.take 9).map .byte ++ [.service, .service] ++ ((heatSample.drop 9).take 8).map .byte) 0x2F (by decide)
  exact ⟨by decide, hset (hiff.mpr rfl) [0x33] (by decide)⟩

/-- After a timeout in the middle of a frame the same frame is lost. -/
theorem heater_frame_lost :
    (run linkStep .init ([.byte 0x01, .byte 0x01] ++ List.replicate 250 .service)).comStat = .recvGoing ∧
    (run linkStep .init heatTimeout).comStat = .recvWait ∧ HeatFrame heatSample ∧
    (let z := run linkStep .init (heatTimeout ++ heatSample.map .byte ++ List.replicate 3 .service)
    z.analysed = [] ∧ (z.heatWaterSt, z.heatWaterFlow) = (0, 0)) := by
  decide +kernel

end WM.Proof
