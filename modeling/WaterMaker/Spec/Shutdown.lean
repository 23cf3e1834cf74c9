import WaterMaker.Spec.Bank

/-!
# A bank under stop orders comes to rest

Under orders that never ask for a compressor (`Order.Stop`), with a pass between any two seconds, the bank
comes to rest. The measure is `Bank.rank`: while a compressor runs, what is left of its stages (`Comp.work`)
and an interval for each compressor that is not idle; afterwards what is left of the shared countdown and
an interval for each further compressor. The flag `p` says that a second has passed since the last pass: a
countdown of 0 is then noticed before the next second.
-/

namespace WM.Spec

open WM WM.Impl

/-- No compressor is asked for. -/
def Order.Stop (o : Order) : Prop := ∀ k, o.sig.get k = .off ∨ o.sig.get k = .err

theorem Order.Stop.sigOf {o : Order} (h : o.Stop) (k : CompId) : o.sigOf k = .off ∨ o.sigOf k = .err := by
  unfold Order.sigOf
  split
  · exact .inl rfl
  · exact h k

/-- The seconds a countdown takes to be noticed at 0. -/
def stage (p : Bool) (n : Nat) : Nat := if p then n else max n 1

namespace Comp

/-- The compressor has not reached `STOP` yet. -/
def running (u : Comp) : Bool := u.fsm = .startup || u.fsm = .normal || u.fsm = .shuting

/-- The seconds before a running compressor reaches `STOP`. -/
def work (T : Timing) (p : Bool) (u : Comp) : Nat :=
  match u.fsm with
  | .startup => stage p u.timer + max (T.minRuntime - T.shield) 1 + max T.stopDelay 1
  | .normal => stage p u.timer + max T.stopDelay 1
  | .shuting => stage p u.timer
  | _ => 0

/-- An interval for a compressor that is not idle. -/
def share (T : Timing) (u : Comp) : Nat := if u.fsm = .idle then 0 else T.interval

section step

variable {T : Timing} {u : Comp} {sig : CompSig} {si so : Nat} {held : Bool}

/-- What a pass does to a compressor that is not asked for: it comes nearer to `STOP`, and from there it
becomes idle as soon as the shared countdown allows it. -/
structure Winds (T : Timing) (p : Bool) (so so' : Nat) (u u' : Comp) : Prop where
  share : u'.share T ≤ u.share T
  running : u'.running → u.running ∧ u'.work T false ≤ u.work T p
  countdown : so' = so ∨ so = 0 ∧ so' = T.interval ∧ u.share T = T.interval ∧ u'.share T = 0
  idle : u.running = false → so = 0 → u'.share T = 0

theorem share_eq (u : Comp) : u.share T = 0 ∨ u.share T = T.interval := by
  unfold Comp.share
  split <;> simp

theorem share_le (u : Comp) : u.share T ≤ T.interval := by
  unfold Comp.share
  split
  · exact Nat.zero_le _
  · exact Nat.le_refl _

theorem share_of_running (hrun : u.running) : u.share T = T.interval := by
  refine if_neg fun hidle => ?_
  simp [Comp.running, hidle] at hrun

/-- A pass that finds the compressor in `STOP`, or has forced it there. -/
theorem winds_of_stop {v : Comp} (p : Bool) (hv : v.fsm = .stop) (hu : u.fsm ≠ .idle) :
    Winds T p so (if v.ready sig false ∧ so = 0 then T.interval else so) u (v.step T sig si so) := by
  have hshare : u.share T = T.interval := if_neg hu
  have hready : v.ready sig false := hv
  unfold Comp.step
  rw [hv]
  by_cases hso : so = 0
  · rw [if_pos ⟨hready, hso⟩, if_pos hso]
    exact ⟨Nat.zero_le _, nofun, .inr ⟨hso, rfl, hshare, rfl⟩, fun _ _ => rfl⟩
  · have hv_run : v.running = false := by simp [Comp.running, hv]
    rw [if_neg fun h => hso h.2, if_neg hso]
    refine ⟨?_, fun h => ?_, .inl rfl, fun _ h => absurd h hso⟩
    · rw [hshare]
      exact v.share_le
    · exact absurd (hv_run.symm.trans h) Bool.false_ne_true

/-- A pass over a compressor on its way to `STOP`. -/
theorem winds_of_running {u' : Comp} {p : Bool} (hrun : u.running) (hwork : u'.running → u'.work T false ≤ u.work T p) :
    Winds T p so so u u' := by
  refine ⟨?_, fun h => ⟨hrun, hwork h⟩, .inl rfl, fun h => absurd (h.symm.trans hrun) Bool.false_ne_true⟩
  rw [share_of_running hrun]
  exact u'.share_le

theorem le_stage (p : Bool) (n : Nat) : n ≤ stage p n := by
  unfold stage
  split <;> omega

/-- A pass that does not find it in `STOP`: it goes on with its stage or begins the next one. -/
theorem winds_of_ne_stop (h : u.Wf) (p : Bool) (hsig : sig = .off ∨ sig = .err) (hu : u.fsm ≠ .stop) :
    Winds T p so so u (u.step T sig si so) := by
  have hon : sig ≠ .on := by rcases hsig with rfl | rfl <;> decide
  obtain ⟨fsm, on, t⟩ := u
  have ht := le_stage p t
  have hleft : sig ≠ .err → ¬(sig = .off ∧ t = 0) → t ≠ 0 := fun herr hover h0 => hover ⟨hsig.resolve_right herr, h0⟩
  cases fsm with
  | idle =>
    have hstep : Comp.step T sig si so ⟨.idle, on, t⟩ = ⟨.idle, false, t⟩ := if_neg fun h => hon h.1
    rw [hstep]
    exact ⟨Nat.le_refl _, nofun, .inl rfl, fun _ _ => rfl⟩
  | init =>
    have hstep : Comp.step T sig si so ⟨.init, on, t⟩ = ⟨.idle, false, 0⟩ := if_pos hon
    rw [hstep]
    exact ⟨Nat.zero_le _, nofun, .inl rfl, fun _ _ => rfl⟩
  | startup =>
    refine winds_of_running rfl ?_
    dsimp only [Comp.step]
    split_ifs
    · exact nofun
    all_goals
      intro _
      simp only [work, stage, Bool.false_eq_true, if_false] at ht ⊢
      omega
  | normal =>
    refine winds_of_running rfl ?_
    dsimp only [Comp.step]
    split_ifs with herr hover
    · exact nofun
    · intro _
      simp only [work, stage, Bool.false_eq_true, if_false]
      omega
    · intro _
      have hn := hleft herr hover
      simp only [work, stage, Bool.false_eq_true, if_false] at ht ⊢
      omega
  | shuting =>
    refine winds_of_running rfl ?_
    dsimp only [Comp.step]
    split_ifs with herr hover
    · exact nofun
    · exact nofun
    · intro _
      have hn := hleft herr hover
      simp only [work, stage, Bool.false_eq_true, if_false] at ht ⊢
      omega
  | stop => exact absurd rfl hu
  | other => exact absurd h not_false

theorem winds (h : u.Wf) (p : Bool) (hsig : sig = .off ∨ sig = .err) :
    Winds T p so (if (u.force held).ready sig false ∧ so = 0 then T.interval else so) u
      ((u.force held).step T sig si so) := by
  by_cases hstop : (u.force held).fsm = .stop
  · refine winds_of_stop p hstop fun hidle => ?_
    have hforce : u.force held = u := if_neg fun h => h.2.2 hidle
    exact absurd ((congrArg Comp.fsm hforce).symm.trans hstop) (by rw [hidle]; decide)
  · have hforce : u.force held = u := by
      unfold Comp.force at hstop ⊢
      split at hstop
      · exact absurd rfl hstop
      · exact if_neg ‹_›
    rw [hforce] at hstop ⊢
    rw [if_neg fun h => hstop h.1]
    exact winds_of_ne_stop h p hsig hstop

theorem work_cool (hrun : u.running) : u.cool.work T true + 1 ≤ u.work T false := by
  obtain ⟨fsm, on, t⟩ := u
  cases fsm <;> simp_all [running, work, cool, stage] <;> omega

theorem work_of_not_running (hrun : u.running = false) (p : Bool) : u.work T p = 0 := by
  obtain ⟨fsm, on, t⟩ := u
  cases fsm <;> simp_all [running, work]

theorem work_le (ht : u.Timed T) (p : Bool) :
    u.work T p ≤ max T.shield T.minRuntime + T.stopDelay + 3 := by
  obtain ⟨fsm, on, t⟩ := u
  cases p <;> cases fsm <;> simp_all [work, stage, Timed] <;> omega

end step

end Comp

namespace Bank

variable {T : Timing} {b : Bank} {p : Bool} {o : Order}

/-- The seconds before the bank is at rest. -/
def rank (T : Timing) (p : Bool) (b : Bank) : Nat :=
  let x := b.comp.c1.share T + b.comp.c2.share T
  if x = 0 then 0
  else if b.comp.c1.running || b.comp.c2.running then
    max (b.comp.c1.work T p) (b.comp.c2.work T p) + x + 1
  else stage p b.stopInt + (x - T.interval) + 1

theorem rank_eq_zero (h : b.Wf) (hT : 0 < T.interval) (h0 : b.rank T p = 0) (k : CompId) :
    (b.comp.get k).on = false := by
  have hidle : ∀ u : Comp, u.Wf → u.share T = 0 → u.on = false := fun u hu hs => by
    obtain ⟨fsm, on, t⟩ := u
    cases fsm <;> simp_all [Comp.share, Comp.Wf]
  unfold rank at h0
  have hx : b.comp.c1.share T = 0 ∧ b.comp.c2.share T = 0 := by
    dsimp only at h0
    split at h0
    · omega
    · split at h0 <;> omega
  cases k
  · exact hidle _ (h .c1) hx.1
  · exact hidle _ (h .c2) hx.2

theorem rank_le (ht : b.Timed T) (hso : b.stopInt ≤ T.interval) (hT : 0 < T.interval) :
    b.rank T p ≤ max T.shield T.minRuntime + T.stopDelay + 2 * T.interval + 4 := by
  have w1 := Comp.work_le (ht .c1) p
  have w2 := Comp.work_le (ht .c2) p
  have s1 := b.comp.c1.share_eq (T := T)
  have s2 := b.comp.c2.share_eq (T := T)
  have hst : stage p b.stopInt ≤ T.interval := by
    unfold stage
    split <;> omega
  change b.comp.c1.work T p ≤ _ at w1
  change b.comp.c2.work T p ≤ _ at w2
  unfold rank
  dsimp only
  split
  · omega
  · split <;> omega

/-- The measure over a pass, from what the pass does to either compressor. -/
theorem rank_le_of_winds {b' : Bank} {so : Nat} (hT : 0 < T.interval) (hso : b.stopInt ≤ T.interval)
    (w1 : Comp.Winds T p b.stopInt so b.comp.c1 b'.comp.c1)
    (w2 : Comp.Winds T p so b'.stopInt b.comp.c2 b'.comp.c2) : b'.rank T false ≤ b.rank T p := by
  have s1 := b.comp.c1.share_eq (T := T)
  have s2 := b.comp.c2.share_eq (T := T)
  have c1 := w1.countdown
  have c2 := w2.countdown
  have l1 := w1.share
  have l2 := w2.share
  have n1 : b'.comp.c1.running = false → b'.comp.c1.work T false = 0 := (Comp.work_of_not_running · _)
  have n2 : b'.comp.c2.running = false → b'.comp.c2.work T false = 0 := (Comp.work_of_not_running · _)
  unfold rank
  by_cases hx : b'.comp.c1.share T + b'.comp.c2.share T = 0
  · rw [if_pos hx]
    exact Nat.zero_le _
  have hx0 : b.comp.c1.share T + b.comp.c2.share T ≠ 0 := by omega
  rw [if_neg hx, if_neg hx0]
  cases hr : b.comp.c1.running || b.comp.c2.running
  · -- both wait for the shared countdown
    obtain ⟨r1, r2⟩ := Bool.or_eq_false_iff.mp hr
    have r1' : b'.comp.c1.running = false := by
      by_contra h
      exact absurd (w1.running (by simpa using h)).1 (by simp [r1])
    have r2' : b'.comp.c2.running = false := by
      by_contra h
      exact absurd (w2.running (by simpa using h)).1 (by simp [r2])
    have i1 := w1.idle r1
    have i2 := w2.idle r2
    simp only [r1', r2', Bool.or_false, Bool.false_eq_true, if_false, stage]
    cases p <;> simp only [if_true, if_false, Bool.false_eq_true] <;> omega
  · cases hr' : b'.comp.c1.running || b'.comp.c2.running
    · -- the last one has reached `STOP`: an interval is left for each
      have s1' := b'.comp.c1.share_eq (T := T)
      have s2' := b'.comp.c2.share_eq (T := T)
      simp only [Bool.false_eq_true, if_false, if_true, stage]
      omega
    · have v1 : b'.comp.c1.work T false ≤ b.comp.c1.work T p := by
        cases h : b'.comp.c1.running
        · rw [n1 h]; exact Nat.zero_le _
        · exact (w1.running h).2
      have v2 : b'.comp.c2.work T false ≤ b.comp.c2.work T p := by
        cases h : b'.comp.c2.running
        · rw [n2 h]; exact Nat.zero_le _
        · exact (w2.running h).2
      simp only [if_true]
      omega

theorem pass_rank (h : b.Wf) (hT : 0 < T.interval) (hso : b.stopInt ≤ T.interval) (ho : o.Stop) :
    (b.pass T o).rank T false ≤ b.rank T p :=
  rank_le_of_winds hT hso (Comp.winds (h .c1) p (ho.sigOf .c1)) (Comp.winds (h .c2) p (ho.sigOf .c2))

theorem cool_rank (b : Bank) : b.cool.rank T true ≤ b.rank T false - 1 := by
  have hs : ∀ u : Comp, u.cool.share T = u.share T := fun _ => rfl
  have hr : ∀ u : Comp, u.cool.running = u.running := fun _ => rfl
  have n : ∀ u : Comp, u.running = false → u.cool.work T true = 0 := fun u h =>
    Comp.work_of_not_running (u := u.cool) h _
  have n1 := n b.comp.c1
  have n2 := n b.comp.c2
  have v1 : b.comp.c1.running → _ := Comp.work_cool (T := T)
  have v2 : b.comp.c2.running → _ := Comp.work_cool (T := T)
  simp only [rank, cool, Pair.map, hs, hr]
  split
  · exact Nat.zero_le _
  · cases r1 : b.comp.c1.running <;> cases r2 : b.comp.c2.running <;>
      simp_all [stage] <;> omega

/-- The shared countdown is at most the interval. -/
theorem stopInt_le_step (hso : b.stopInt ≤ T.interval) (e : Event) : (b.step T e).stopInt ≤ T.interval := by
  have hone : ∀ (b : Bank) k sig, b.stopInt ≤ T.interval → (b.one T k sig).stopInt ≤ T.interval :=
    fun b k sig h => by
      unfold one
      dsimp only
      split
      · exact Nat.le_refl _
      · exact h
  cases e with
  | keep => exact hso
  | pass o => exact hone _ _ _ (hone _ _ _ hso)
  | cool => exact (Nat.sub_le _ _).trans hso

end Bank

end WM.Spec
