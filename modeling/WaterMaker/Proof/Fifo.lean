import WaterMaker.Framework.Wheel
import WaterMaker.Impl.RegMap
import WaterMaker.Spec.Queue

/-!
# Queues of blocks

The buffer of a FIFO is a wheel of blocks (`FifoHolds`). Every call keeps that and has the answer of a bounded queue
(`fifoHolds_step`), so that no run of calls tells the two apart; the wheel fits into the buffer unless its size did not
fit into 32 bits (`fifo_queue_iff`). The event log, which `Dev` holds as a list, is such a queue (`events_addEventlog`).
-/

namespace WM.Proof

open WM WM.Impl WM.Spec

variable {α : Type} {f : Fifo α} {q : List (List α)} {t : Nat}

/-- The calls of both kinds of queues. -/
def fifoStep (f : Fifo α) : FifoOp (Nat → α) → FifoRes (List α) × Fifo α
  | .push src => (.flag (fifoPush src f).1, (fifoPush src f).2)
  | .pop => (.popped (fifoPop f).1, (fifoPop f).2)
  | .length => (.count f.length.toNat, f)
  | .empty => (.flag (isFifoEmpty f), f)
  | .full => (.flag (isFifoFull f), f)
  | .reset => (.done, fifoReset f)

theorem fifo8Step_eq : fifo8Step = fifoStep := by
  funext f op
  cases op <;> rfl

theorem fifo16Step_eq : fifo16Step = fifoStep := by
  funext f op
  cases op <;> rfl

/-- The buffer is a wheel that holds the blocks of the queue, of which the oldest has number `t`. -/
structure FifoHolds (t : Nat) (q : List (List α)) (f : Fifo α) : Prop where
  size_pos : 1 ≤ f.blockSize.toNat
  depth_pos : 1 ≤ f.depth.toNat
  room : q.length ≤ f.depth.toNat
  length : f.length.toNat = q.length
  tail : f.btail = t % f.depth.toNat * f.blockSize.toNat
  head : f.bhead = (t + q.length) % f.depth.toNat * f.blockSize.toNat
  blocks : Turned 0 f.blockSize.toNat f.depth.toNat t q f.buffer

/-- The pointer behind a block is at the next place of the wheel. -/
theorem next_place (h : FifoHolds t q f) (i : Nat) :
    f.next (i % f.depth.toNat * f.blockSize.toNat) = (i + 1) % f.depth.toNat * f.blockSize.toNat := by
  have hplace := Nat.mod_lt i h.depth_pos
  have hsize := h.size_pos
  rw [← Nat.mod_add_mod, succ_mod hplace]
  unfold Fifo.next
  obtain ⟨s, hs⟩ : ∃ s, s = i % f.depth.toNat := ⟨_, rfl⟩
  rw [← hs] at hplace ⊢
  by_cases hlast : s + 1 = f.depth.toNat
  · have hn : ((f.depth.toNat : Int) - 1) = s := by omega
    rw [if_pos hlast, if_pos (by rw [hn, Int.mul_comm]; simp), Nat.zero_mul]
  · have hlt : s * f.blockSize.toNat < f.blockSize.toNat * (f.depth.toNat - 1) := by
      rw [Nat.mul_comm]
      exact Nat.mul_lt_mul_of_pos_left (by omega) hsize
    have hcast : ((f.blockSize.toNat * (f.depth.toNat - 1) : Nat) : Int) =
        f.blockSize.toNat * ((f.depth.toNat : Int) - 1) := by
      rw [Int.natCast_mul, Int.natCast_sub h.depth_pos]
      rfl
    rw [if_neg hlast, if_neg (by omega), Nat.succ_mul]

theorem isFifoFull_eq (h : FifoHolds t q f) : isFifoFull f = decide (q.length = f.depth.toNat) := by
  unfold isFifoFull
  rw [← h.length, Bool.eq_iff_iff, beq_iff_eq, decide_eq_true_iff, BitVec.toNat_inj]

theorem isFifoEmpty_eq (h : FifoHolds t q f) : isFifoEmpty f = decide (q.length = 0) := by
  unfold isFifoEmpty
  rw [← h.length, Bool.eq_iff_iff, beq_iff_eq, decide_eq_true_iff, ← BitVec.toNat_inj]
  rfl

theorem fifoHolds_push (h : FifoHolds t q f) (src : Nat → α) (hroom : q.length < f.depth.toNat) :
    (fifoPush src f).1 = true ∧
      FifoHolds t (q ++ [(List.range f.blockSize.toNat).map src]) (fifoPush src f).2 := by
  have hfull : ¬isFifoFull f = true := by
    rw [isFifoFull_eq h, decide_eq_true_iff]
    omega
  have hdepth := f.depth.isLt
  unfold fifoPush
  rw [if_neg hfull]
  refine ⟨rfl, h.size_pos, h.depth_pos, ?_, ?_, h.tail, ?_, ?_⟩
  · rw [List.length_append]
    exact hroom
  · have hadd : (f.length + 1).toNat = (f.length.toNat + 1) % 65536 := BitVec.toNat_add ..
    rw [List.length_append, List.length_singleton, ← h.length, hadd, h.length]
    exact Nat.mod_eq_of_lt (by omega)
  · show f.next f.bhead = _
    rw [h.head, next_place h, List.length_append, List.length_singleton, Nat.add_assoc]
  · have hblocks := h.blocks.push hroom (show ((List.range f.blockSize.toNat).map src).length = _ by simp)
    rw [Nat.zero_add, ← h.head] at hblocks
    exact hblocks

theorem fifoHolds_pop {x : List α} {xs : List (List α)} (h : FifoHolds t (x :: xs) f) :
    (fifoPop f).1 = some x ∧ FifoHolds (t + 1) xs (fifoPop f).2 := by
  have hempty : ¬isFifoEmpty f = true := by
    rw [isFifoEmpty_eq h, decide_eq_true_iff]
    exact Nat.succ_ne_zero _
  obtain ⟨hfirst, hblocks⟩ := h.blocks.pop
  have hroom := h.room
  have hlength := h.length
  rw [List.length_cons] at hroom hlength
  unfold fifoPop
  rw [if_neg hempty]
  refine ⟨congrArg some ?_, h.size_pos, h.depth_pos, by show xs.length ≤ f.depth.toNat; omega, ?_, ?_, ?_, hblocks⟩
  · rw [← hfirst, h.tail]
    unfold blockAt
    rw [Nat.zero_add]
  · show (f.length - 1).toNat = _
    rw [BitVec.toNat_sub_of_le (by rw [BitVec.le_def, hlength]; exact Nat.succ_pos _), hlength]
    rfl
  · show f.next f.btail = _
    rw [h.tail, next_place h]
  · show f.bhead = _
    rw [h.head, List.length_cons, Nat.add_right_comm, Nat.add_assoc]

theorem fifoHolds_reset (h : FifoHolds t q f) : FifoHolds 0 [] (fifoReset f) where
  size_pos := h.size_pos
  depth_pos := h.depth_pos
  room := Nat.zero_le _
  length := rfl
  tail := by rw [Nat.zero_mod, Nat.zero_mul]; rfl
  head := by rw [List.length_nil, Nat.zero_mod, Nat.zero_mul]; rfl
  blocks := turned_nil _ _ _ _ _

/-- No call changes what the queue was set up with. -/
def setup (f : Fifo α) : Nat × Word × Word := (f.size, f.blockSize, f.depth)

theorem setup_step (f : Fifo α) (op : FifoOp (Nat → α)) : setup (fifoStep f op).2 = setup f := by
  cases op with
  | push src =>
    unfold fifoStep fifoPush
    dsimp only
    split <;> rfl
  | pop =>
    unfold fifoStep fifoPop
    dsimp only
    split <;> rfl
  | _ => rfl

/-- Every call has the answer of the queue, and keeps the wheel. -/
theorem fifoHolds_step (h : FifoHolds t q f) (op : FifoOp (Nat → α)) :
    (fifoStep f op).1 = (queueStep f.depth.toNat q (blockOp f.blockSize.toNat op)).1 ∧
      ∃ t', FifoHolds t' (queueStep f.depth.toNat q (blockOp f.blockSize.toNat op)).2 (fifoStep f op).2 := by
  cases op with
  | push src =>
    show FifoRes.flag (fifoPush src f).1 = (ite _ _ _ : FifoRes _ × _).1 ∧
      ∃ t', FifoHolds t' (ite _ _ _ : FifoRes _ × _).2 (fifoPush src f).2
    by_cases hfull : q.length = f.depth.toNat
    · have hpush : fifoPush src f = (false, f) := if_pos (by rw [isFifoFull_eq h, hfull]; exact decide_eq_true rfl)
      rw [if_pos hfull, hpush]
      exact ⟨rfl, t, h⟩
    · obtain ⟨hok, hnext⟩ := fifoHolds_push h src (Nat.lt_of_le_of_ne h.room hfull)
      rw [if_neg hfull, hok]
      exact ⟨rfl, t, hnext⟩
  | pop =>
    cases q with
    | nil =>
      have hpop : fifoPop f = (none, f) := if_pos (by rw [isFifoEmpty_eq h]; rfl)
      show FifoRes.popped (fifoPop f).1 = _ ∧ ∃ t', FifoHolds t' [] (fifoPop f).2
      rw [hpop]
      exact ⟨rfl, t, h⟩
    | cons x xs =>
      obtain ⟨hblock, hnext⟩ := fifoHolds_pop h
      exact ⟨congrArg FifoRes.popped hblock, t + 1, hnext⟩
  | length => exact ⟨congrArg FifoRes.count h.length, t, h⟩
  | empty => exact ⟨congrArg FifoRes.flag (isFifoEmpty_eq h), t, h⟩
  | full => exact ⟨congrArg FifoRes.flag (isFifoFull_eq h), t, h⟩
  | reset => exact ⟨rfl, 0, fifoHolds_reset h⟩

/-- A place of the wheel ends within it. -/
theorem place_le (h : FifoHolds t q f) (i : Nat) :
    i % f.depth.toNat * f.blockSize.toNat + f.blockSize.toNat ≤ f.depth.toNat * f.blockSize.toNat := by
  have hle := Nat.mul_le_mul_right f.blockSize.toNat (Nat.mod_lt i h.depth_pos)
  rwa [Nat.succ_mul] at hle

/-- What a call touches is in the wheel. -/
theorem touched_step (h : FifoHolds t q f) (op : FifoOp (Nat → α))
    (hall : ∀ x ∈ f.touched, x.1 + x.2 ≤ f.depth.toNat * f.blockSize.toNat) :
    ∀ x ∈ (fifoStep f op).2.touched, x.1 + x.2 ≤ f.depth.toNat * f.blockSize.toNat := by
  have hconcat : ∀ i, ∀ x ∈ f.touched ++ [(i % f.depth.toNat * f.blockSize.toNat, f.blockSize.toNat)],
      x.1 + x.2 ≤ f.depth.toNat * f.blockSize.toNat := by
    intro i x hx
    rcases List.mem_append.mp hx with hx | hx
    · exact hall x hx
    · rw [List.mem_singleton.mp hx]
      exact place_le h i
  cases op with
  | push src =>
    unfold fifoStep fifoPush
    dsimp only
    split
    · exact hall
    · dsimp only
      rw [h.head]
      exact hconcat _
  | pop =>
    unfold fifoStep fifoPop
    dsimp only
    split
    · exact hall
    · dsimp only
      rw [h.tail]
      exact hconcat _
  | _ => exact hall

/-- The queue `q` as it is kept in `f`, which was set up for blocks of `blockSize` and has the depth `depth`. -/
structure Refines (size : Nat) (blockSize depth : Word) (f : Fifo α) (q : List (List α)) : Prop where
  setup : setup f = (size, blockSize, depth)
  holds : ∃ t, FifoHolds t q f
  touched : ∀ x ∈ f.touched, x.1 + x.2 ≤ depth.toNat * blockSize.toNat

section refines

variable {size : Nat} {blockSize depth : Word}

theorem refines_step (h : Refines size blockSize depth f q) (op : FifoOp (Nat → α)) :
    (fifoStep f op).1 = (queueStep depth.toNat q (blockOp blockSize.toNat op)).1 ∧
      Refines size blockSize depth (fifoStep f op).2 (queueStep depth.toNat q (blockOp blockSize.toNat op)).2 := by
  obtain ⟨hsetup, ⟨t, hholds⟩, htouched⟩ := h
  obtain ⟨rfl, hrest⟩ := Prod.mk.inj hsetup
  obtain ⟨rfl, rfl⟩ := Prod.mk.inj hrest
  obtain ⟨hanswer, hnext⟩ := fifoHolds_step hholds op
  exact ⟨hanswer, setup_step f op, hnext, touched_step hholds op htouched⟩

/-- A queue that was set up, whatever the width of its values. -/
theorem refines_init {width mem : Nat} {left : Nat → α} (hsize : 1 ≤ blockSize.toNat) (hdepth : 1 ≤ depth.toNat)
    (h : fifoInit width mem left blockSize depth = some f) :
    f.size = blockSize.toNat * depth.toNat * width % 2 ^ 32 / width ∧ FifoHolds 0 [] f ∧
      Refines f.size blockSize depth f [] := by
  unfold fifoInit rtMalloc at h
  dsimp only at h
  split at h
  · obtain rfl := Option.some.inj h
    have hholds : FifoHolds 0 [] (⟨left, blockSize.toNat * depth.toNat * width % 2 ^ 32 / width, 0, 0, blockSize, depth,
        0, []⟩ : Fifo α) :=
      ⟨hsize, hdepth, Nat.zero_le _, rfl, by simp, by simp, turned_nil _ _ _ _ _⟩
    exact ⟨rfl, hholds, rfl, ⟨0, hholds⟩, fun x hx => absurd hx List.not_mem_nil⟩
  · cases h

/-- A queue whose wheel fits into its buffer. -/
theorem queueLike_of_fits (h : Refines size blockSize depth f []) (hf : f.size = size)
    (hfits : depth.toNat * blockSize.toNat ≤ size) (ops : List (FifoOp (Nat → α))) :
    QueueLike fifoStep blockSize.toNat depth.toNat f ops := by
  refine ⟨answers_eq (R := Refines size blockSize depth) (fun f q op h => refines_step h op) h ops, fun x hx => ?_⟩
  have hrun : Refines size blockSize depth (run (moves fifoStep) f ops)
      (run (moves (queueStep depth.toNat)) [] (ops.map (blockOp blockSize.toNat))) :=
    moves_related (R := Refines size blockSize depth) (fun f q op h => (refines_step h op).2) h ops
  rw [hf]
  exact (hrun.touched x hx).trans hfits

/-- One block after the other is pushed. -/
theorem fifoHolds_pushes (h : FifoHolds 0 [] f) (src : Nat → α) {k : Nat} (hk : k ≤ f.depth.toNat) :
    setup (run (moves fifoStep) f (List.replicate k (.push src))) = setup f ∧
      ∃ q, q.length = k ∧ FifoHolds 0 q (run (moves fifoStep) f (List.replicate k (.push src))) := by
  induction k with
  | zero => exact ⟨rfl, [], rfl, h⟩
  | succ k ih =>
    obtain ⟨hsetup, q, hq, hholds⟩ := ih (by omega)
    rw [List.replicate_succ', run_snoc]
    have hdepth : (run (moves fifoStep) f (List.replicate k (.push src))).depth = f.depth :=
      congrArg (fun x => x.2.2) hsetup
    refine ⟨(setup_step _ _).trans hsetup, _, ?_, (fifoHolds_push hholds src (by rw [hdepth]; omega)).2⟩
    rw [List.length_append, hq]
    rfl

/-- When the queue is full its last block ends where the wheel does. -/
theorem touched_pushes (h : FifoHolds 0 [] f) (src : Nat → α) :
    ((f.depth.toNat - 1) * f.blockSize.toNat, f.blockSize.toNat) ∈
      (run (moves fifoStep) f (List.replicate f.depth.toNat (.push src))).touched := by
  have hpos := h.depth_pos
  obtain ⟨hsetup, q, hq, hholds⟩ := fifoHolds_pushes h src (show f.depth.toNat - 1 ≤ f.depth.toNat by omega)
  have hn := Nat.sub_add_cancel hpos
  rw [← hn, List.replicate_succ', run_snoc, Nat.add_sub_cancel]
  generalize run (moves fifoStep) f (List.replicate (f.depth.toNat - 1) (.push src)) = g at hsetup hholds ⊢
  obtain ⟨-, hrest⟩ := Prod.mk.inj hsetup
  obtain ⟨hsize, hdepth⟩ := Prod.mk.inj hrest
  have hfull : ¬isFifoFull g = true := by
    rw [isFifoFull_eq hholds, decide_eq_true_iff, hdepth]
    omega
  have hhead : g.bhead = (f.depth.toNat - 1) * f.blockSize.toNat := by
    rw [hholds.head, hq, hdepth, hsize, Nat.zero_add, Nat.mod_eq_of_lt (by omega)]
  show _ ∈ (fifoPush src g).2.touched
  unfold fifoPush
  rw [if_neg hfull]
  rw [hhead, hsize]
  exact List.mem_append_right _ (List.mem_singleton_self _)

end refines

/-- For every block size and depth of at least 1, when the allocation succeeds: whatever calls are made, a FIFO of bytes
answers them like a bounded queue of blocks and does not leave its buffer; so does one of half-words exactly if the
size of its buffer has no more than 32 bits. -/
theorem fifo_queue_iff (mem : Nat) (left8 : Nat → Byte) (left16 : Nat → Word) (blockSize depth : Word)
    (hsize : 1 ≤ blockSize.toNat) (hdepth : 1 ≤ depth.toNat) :
    (∀ f, fifo8Init mem left8 blockSize depth = some f →
      ∀ ops, QueueLike fifo8Step blockSize.toNat depth.toNat f ops) ∧
    ∀ f, fifo16Init mem left16 blockSize depth = some f →
      ((∀ ops, QueueLike fifo16Step blockSize.toNat depth.toNat f ops) ↔
        blockSize.toNat * depth.toNat * 2 < 2 ^ 32) := by
  have hmul : depth.toNat * blockSize.toNat ≤ 65535 * 65535 :=
    Nat.mul_le_mul (Nat.le_of_lt_succ depth.isLt) (Nat.le_of_lt_succ blockSize.isLt)
  rw [fifo8Step_eq, fifo16Step_eq]
  refine ⟨fun f hf ops => ?_, fun f hf => ⟨fun hall => ?_, fun hsmall ops => ?_⟩⟩
  · obtain ⟨hsz, -, hrefines⟩ := refines_init hsize hdepth hf
    refine queueLike_of_fits hrefines rfl ?_ ops
    rw [hsz, Nat.mul_comm blockSize.toNat]
    omega
  · -- the last block of a full queue is behind a buffer whose size was cut off
    obtain ⟨hsz, hholds, hrefines⟩ := refines_init hsize hdepth hf
    obtain ⟨-, hrest⟩ := Prod.mk.inj hrefines.setup
    obtain ⟨hbs, hd⟩ := Prod.mk.inj hrest
    have hinside := (hall _).inside _ (touched_pushes hholds fun _ => 0)
    dsimp only at hinside
    rw [hbs, hd, ← Nat.succ_mul, Nat.succ_eq_add_one, Nat.sub_add_cancel hdepth, hsz, Nat.mul_comm blockSize.toNat]
      at hinside
    rw [Nat.mul_comm blockSize.toNat]
    omega
  · obtain ⟨hsz, -, hrefines⟩ := refines_init hsize hdepth hf
    refine queueLike_of_fits hrefines rfl ?_ ops
    rw [hsz, Nat.mod_eq_of_lt hsmall, Nat.mul_div_cancel _ (by decide), Nat.mul_comm]

/-- Two blocks of two values, and a third one when there is no room. -/
theorem fifo_queue_iff_pairs :
    (∀ f, fifo8Init 64 (fun _ => 0) 2 2 = some f → QueueLike fifo8Step 2 2 f [.push fun _ => 1, .push fun _ => 2,
      .full, .push fun _ => 3, .pop, .length]) ∧
    (∀ f, fifo16Init 64 (fun _ => 0) 2 2 = some f → QueueLike fifo16Step 2 2 f [.push fun _ => 1, .pop, .pop]) ∧
    answers (queueStep 2) [] ([.push fun _ => (1 : Byte), .push fun _ => 2, .full, .push fun _ => 3, .pop, .length].map
        (blockOp 2)) =
      [.flag true, .flag true, .flag true, .flag false, .popped (some [1, 1]), .count 1] := by
  obtain ⟨h8, h16⟩ := fifo_queue_iff 64 (fun _ => 0) (fun _ => 0) 2 2 (by decide) (by decide)
  exact ⟨fun f hf => h8 f hf _, fun f hf => (h16 f hf).mpr (by decide) _, by decide⟩

/-- 46341 blocks of 46341 half-words: 9266 bytes are allocated, and the first block has 92682. -/
theorem fifo16_outgrows : ∃ f, fifo16Init 10000 (fun _ => 0) 46341 46341 = some f ∧ f.size = 4633 ∧
    (0, 46341) ∈ (run (moves fifo16Step) f [.push fun _ => 0]).touched ∧
    ¬QueueLike fifo16Step 46341 46341 f [.push fun _ => 0] := by
  have htouched : (0, 46341) ∈ (run (moves fifo16Step) ⟨fun _ => 0, 4633, 0, 0, 46341, 46341, 0, []⟩
      [.push fun _ => 0]).touched := List.mem_singleton_self _
  exact ⟨_, rfl, rfl, htouched, fun hlike => absurd (hlike.inside _ htouched) (by decide)⟩

/-! ## The event log -/

theorem moves_push {β : Type} (depth : Nat) (q : List β) (e : β) :
    moves (queueStep depth) q (.push e) = if q.length = depth then q else q ++ [e] :=
  apply_ite Prod.snd _ _ _

/-- `add_eventlog_fifo` pushes a block and ignores the answer. -/
theorem events_addEventlog (id : Nat) (user : UserId) (old new : Word) {d : Dev} (h : d.events.length ≤ 64) :
    ∃ e, (d.addEventlog id user old new).events = moves (queueStep 64) d.events (.push e) := by
  refine ⟨⟨d.now, id, user.code <<< 8 ||| d.permissionLevel, old, new⟩, ?_⟩
  unfold Dev.addEventlog
  rw [moves_push]
  rcases Nat.lt_or_eq_of_le h with hroom | hfull
  · rw [if_pos hroom, if_neg hroom.ne]
  · rw [if_neg hfull.not_lt, if_pos hfull]

end WM.Proof
