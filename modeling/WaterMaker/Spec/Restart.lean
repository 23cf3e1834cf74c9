import WaterMaker.Impl.System

/-!
# The supervision of the display

A display that is silent, or reports no network, for `hold` calls is restarted: `close` calls ask for its power to be
taken away. After `max` restarts there is a lock-out of `interval` calls. The restarts are counted in a register of
`word` values. `Watch.call` is a call of the supervision and `Tally` what an observer counts: the calls up to now
after which the power was off, and the restarts since the supervision was locked out or disabled. A restart is
complete with the call that gives up its counter (`Watch.completes`). `bounded` and `unbounded` say that the restarts
are limited just if the limit fits the register. The call that completes a restart leaves the request, so that the
power is off for one call more (`restart_time`); a restart that was disabled has only its last calls in a row.
-/

namespace WM.Spec

structure Plan where
  close : Nat
  max : Nat
  word : Nat
  hold : Nat
  interval : Nat
  close_pos : 0 < close
  word_pos : 0 < word
  /-- a restart is not due again with the call after it -/
  hold_gt : 1 < hold

/-- The calls of the restart under way and the restarts, the clocks of the lock-out, of the silence and of the missing
network, whether a restart is due, and the request to take the power away. -/
@[ext] structure Watch where
  cycle : Nat
  count : Nat
  lock : Nat
  uart : Nat
  net : Nat
  restart : Bool
  off : Bool

/-- What a call meets: whether it is enabled, whether the display has spoken since the last one, and whether it reports
that there is no network. -/
structure Scene where
  enable : Bool
  spoke : Bool
  netErr : Bool

namespace Watch

def disable (w : Watch) : Watch := { w with count := 0, lock := 0, uart := 0, net := 0, restart := false, off := false }

def lockOut (p : Plan) (w : Watch) : Watch :=
  let due := p.interval ≤ w.lock + 1
  { w with lock := if due then 0 else w.lock + 1, count := if due then 0 else w.count, uart := 0, net := 0
           restart := false, off := false }

def listen (p : Plan) (e : Scene) (w : Watch) : Watch :=
  let u := (if e.spoke then 0 else w.uart) + 1
  let n := w.net + 1
  { w with uart := min u p.hold, net := if e.netErr then min n p.hold else w.net
           restart := w.restart || p.hold ≤ u || (e.netErr && p.hold ≤ n) }

/-- The call that completes a restart leaves the request as it is. -/
def power (p : Plan) (w : Watch) : Watch :=
  if w.restart then
    if w.cycle + 1 ≤ p.close then { w with cycle := w.cycle + 1, off := true }
    else { w with cycle := 0, count := (w.count + 1) % p.word, uart := 0, net := 0, restart := false }
  else { w with off := false }

def call (p : Plan) (w : Watch) (e : Scene) : Watch :=
  if !e.enable then w.disable
  else if p.max ≤ w.count then w.lockOut p
  else (w.listen p e).power p

/-- The call is one of a lock-out, or disabled. -/
def rests (p : Plan) (w : Watch) (e : Scene) : Bool := !e.enable || p.max ≤ w.count

/-- The call completes a restart. -/
def completes (p : Plan) (w : Watch) (e : Scene) : Bool := (w.call p e).cycle < w.cycle

end Watch

/-- The calls up to now after which the power was off, the restarts since the last rest, and how many calls the restart
under way had made when the power was on for the last time. -/
structure Tally where
  on : Nat
  done : Nat
  resumed : Nat
  deriving DecidableEq

def Tally.note (rests completes off : Bool) (cycle : Nat) (t : Tally) : Tally :=
  ⟨if off then t.on + 1 else 0, if rests then 0 else if completes then t.done + 1 else t.done,
    if off then t.resumed else cycle⟩

/-- The supervision with its observer. -/
structure Overseen where
  watch : Watch
  tally : Tally

def watchStep (p : Plan) (x : Overseen) (e : Scene) : Overseen :=
  ⟨x.watch.call p e,
    x.tally.note (x.watch.rests p e) (x.watch.completes p e) (x.watch.call p e).off (x.watch.call p e).cycle⟩

def Overseen.start : Overseen := ⟨⟨0, 0, 0, 0, 0, false, false⟩, ⟨0, 0, 0⟩⟩

variable {p : Plan}

/-! ## What a call does -/

/-- A call that rests closes the restart under way but for its counter. -/
structure Resting (w w' : Watch) : Prop where
  cycle : w'.cycle = w.cycle
  count : w'.count = 0 ∨ w'.count = w.count
  restart : w'.restart = false
  off : w'.off = false

theorem resting_disable (w : Watch) : Resting w w.disable := ⟨rfl, Or.inl rfl, rfl, rfl⟩

theorem resting_lockOut (w : Watch) : Resting w (w.lockOut p) := by
  refine ⟨rfl, ?_, rfl, rfl⟩
  unfold Watch.lockOut
  dsimp only
  split
  · exact Or.inl rfl
  · exact Or.inr rfl

theorem power_quiet {w : Watch} (h : w.restart = false) : w.power p = { w with off := false } := by
  unfold Watch.power
  rw [if_neg (by rw [h]; exact Bool.false_ne_true)]

theorem power_cycle {w : Watch} (h : w.restart = true) (hc : w.cycle < p.close) :
    w.power p = { w with cycle := w.cycle + 1, off := true } := by
  unfold Watch.power
  rw [if_pos h, if_pos (show w.cycle + 1 ≤ p.close from hc)]

theorem power_complete {w : Watch} (h : w.restart = true) (hc : p.close ≤ w.cycle) : w.power p =
    { w with cycle := 0, count := (w.count + 1) % p.word, uart := 0, net := 0, restart := false } := by
  unfold Watch.power
  rw [if_pos h, if_neg (by omega)]

/-- A call of a lock-out, or a disabled one. -/
theorem watchStep_rest {x : Overseen} {e : Scene} (h : x.watch.rests p e = true) :
    ∃ w', Resting x.watch w' ∧ watchStep p x e = ⟨w', 0, 0, x.watch.cycle⟩ := by
  have hnote : ∀ w', Resting x.watch w' → x.watch.call p e = w' → watchStep p x e = ⟨w', 0, 0, x.watch.cycle⟩ := by
    intro w' hrest hcall
    unfold watchStep Watch.completes Tally.note
    rw [h, hcall, hrest.off, hrest.cycle]
    rfl
  cases he : e.enable with
  | false => exact ⟨_, resting_disable x.watch, hnote _ (resting_disable _) (if_pos (by rw [he]; rfl))⟩
  | true =>
    unfold Watch.rests at h
    rw [he] at h
    have hcall : x.watch.call p e = x.watch.lockOut p := by
      unfold Watch.call
      rw [he, if_pos (of_decide_eq_true h)]
      rfl
    exact ⟨_, resting_lockOut x.watch, hnote _ (resting_lockOut _) hcall⟩

section active

variable {x : Overseen} {e : Scene}

/-- Any other call. -/
theorem watchStep_eq (he : e.enable = true) (hmax : x.watch.count < p.max) {w : Watch} (hw : w = x.watch.listen p e) :
    watchStep p x e =
        ⟨w.power p, x.tally.note false ((w.power p).cycle < w.cycle) (w.power p).off (w.power p).cycle⟩ ∧
      x.watch.completes p e = decide ((w.power p).cycle < w.cycle) := by
  have hcall : x.watch.call p e = w.power p := by
    unfold Watch.call
    rw [he, if_neg (Nat.not_le.mpr hmax), hw]
    rfl
  have hrests : x.watch.rests p e = false := by
    unfold Watch.rests
    rw [he, decide_eq_false (Nat.not_le.mpr hmax)]
    rfl
  have hcycle : x.watch.cycle = w.cycle := by rw [hw]; rfl
  unfold watchStep Watch.completes
  rw [hrests, hcall, hcycle]
  exact ⟨rfl, rfl⟩

/-- No restart is due. -/
theorem watchStep_quiet (he : e.enable = true) (hmax : x.watch.count < p.max) {w : Watch}
    (hw : w = x.watch.listen p e) (hr : w.restart = false) :
    watchStep p x e = ⟨{ w with off := false }, 0, x.tally.done, w.cycle⟩ := by
  rw [(watchStep_eq he hmax hw).1, power_quiet hr]
  simp [Tally.note]

/-- A restart goes on. -/
theorem watchStep_cycle (he : e.enable = true) (hmax : x.watch.count < p.max) {w : Watch}
    (hw : w = x.watch.listen p e) (hr : w.restart = true) (hc : w.cycle < p.close) :
    watchStep p x e =
      ⟨{ w with cycle := w.cycle + 1, off := true }, x.tally.on + 1, x.tally.done, x.tally.resumed⟩ := by
  rw [(watchStep_eq he hmax hw).1, power_cycle hr hc]
  simp [Tally.note]

/-- A restart is completed. -/
theorem watchStep_complete (he : e.enable = true) (hmax : x.watch.count < p.max) {w : Watch}
    (hw : w = x.watch.listen p e) (hr : w.restart = true) (hc : p.close ≤ w.cycle) :
    watchStep p x e =
        ⟨{ w with cycle := 0, count := (w.count + 1) % p.word, uart := 0, net := 0, restart := false },
          if w.off then x.tally.on + 1 else 0, x.tally.done + 1, if w.off then x.tally.resumed else 0⟩ ∧
      x.watch.completes p e = true := by
  have hpos := p.close_pos
  obtain ⟨hstep, hcompletes⟩ := watchStep_eq he hmax hw
  rw [hstep, hcompletes, power_complete hr hc]
  simp [Tally.note, show 0 < w.cycle by omega]

end active

/-- A call rests, or is enabled and below the limit. -/
theorem rests_or_active (p : Plan) (w : Watch) (e : Scene) :
    w.rests p e = true ∨ e.enable = true ∧ w.count < p.max := by
  unfold Watch.rests
  cases e.enable with
  | false => exact Or.inl rfl
  | true => simpa using Nat.lt_or_ge w.count p.max |>.symm

/-! ## Ranges -/

/-- The clocks and the counter of the calls do not pass their ends. -/
structure Ranged (p : Plan) (w : Watch) : Prop where
  cycle : w.cycle ≤ p.close
  lock : w.lock ≤ p.interval
  uart : w.uart ≤ p.hold
  net : w.net ≤ p.hold

theorem Ranged.call {w : Watch} (h : Ranged p w) (e : Scene) : Ranged p (w.call p e) := by
  obtain ⟨hcycle, hlock, huart, hnet⟩ := h
  unfold Watch.call
  split
  · exact ⟨hcycle, Nat.zero_le _, Nat.zero_le _, Nat.zero_le _⟩
  · split
    · refine ⟨hcycle, ?_, Nat.zero_le _, Nat.zero_le _⟩
      unfold Watch.lockOut
      dsimp only
      split <;> omega
    · have hclock : (w.listen p e).net ≤ p.hold := by
        unfold Watch.listen
        dsimp only
        split
        · exact Nat.min_le_right _ _
        · exact hnet
      unfold Watch.power
      split_ifs with _ hclose
      · exact ⟨hclose, hlock, Nat.min_le_right _ _, hclock⟩
      · exact ⟨Nat.zero_le _, hlock, Nat.zero_le _, Nat.zero_le _⟩
      · exact ⟨hcycle, hlock, Nat.min_le_right _ _, hclock⟩

/-- A word of the display is a clock that was cleared before the call. -/
theorem call_spoke (p : Plan) (w : Watch) (e : Scene) :
    { w with uart := if e.spoke then 0 else w.uart }.call p { e with spoke := false } = w.call p e := rfl

/-! ## The limit -/

/-- The restarts are those of the register. -/
structure WithinLimit (p : Plan) (x : Overseen) : Prop where
  done : x.tally.done ≤ x.watch.count
  count : x.watch.count ≤ p.max

theorem withinLimit_watchStep (hword : p.max < p.word) {x : Overseen} (h : WithinLimit p x) (e : Scene) :
    WithinLimit p (watchStep p x e) := by
  obtain ⟨hdone, hcount⟩ := h
  rcases rests_or_active p x.watch e with hrests | ⟨he, hmax⟩
  · obtain ⟨w', hrest, hstep⟩ := watchStep_rest hrests
    rw [hstep]
    refine ⟨Nat.zero_le _, (?_ : w'.count ≤ p.max)⟩
    rcases hrest.count with h | h <;> omega
  · cases hr : (x.watch.listen p e).restart with
    | false =>
      rw [watchStep_quiet he hmax rfl hr]
      exact ⟨hdone, hcount⟩
    | true =>
      by_cases hclose : (x.watch.listen p e).cycle < p.close
      · rw [watchStep_cycle he hmax rfl hr hclose]
        exact ⟨hdone, hcount⟩
      · have hcarry : (x.watch.count + 1) % p.word = x.watch.count + 1 := Nat.mod_eq_of_lt (by omega)
        rw [(watchStep_complete he hmax rfl hr (Nat.not_lt.mp hclose)).1]
        refine ⟨(?_ : x.tally.done + 1 ≤ (x.watch.count + 1) % p.word),
          (?_ : (x.watch.count + 1) % p.word ≤ p.max)⟩ <;> omega

/-- A limit that fits the register is kept in every run. -/
theorem bounded (hword : p.max < p.word) (es : List Scene) : (run (watchStep p) .start es).tally.done ≤ p.max := by
  have hlimited : WithinLimit p (run (watchStep p) .start es) :=
    run_keeps (I := WithinLimit p) (fun _ e h => withinLimit_watchStep hword h e) ⟨Nat.le_refl 0, Nat.zero_le _⟩ es
  exact Nat.le_trans hlimited.done hlimited.count

/-! ## A display that is silent -/

/-- Nothing is heard of the display. -/
def silence : Scene := ⟨true, false, false⟩

/-- `k` calls without a word, after `n` restarts. -/
structure Silent (p : Plan) (k n : Nat) (x : Overseen) : Prop where
  restart : x.watch.restart = false
  cycle : x.watch.cycle = 0
  uart : x.watch.uart = k
  count : x.watch.count = n % p.word
  done : x.tally.done = n

/-- The `k`-th call of the next restart. -/
structure Cycling (p : Plan) (k n : Nat) (x : Overseen) : Prop where
  restart : x.watch.restart = true
  cycle : x.watch.cycle = k
  count : x.watch.count = n % p.word
  done : x.tally.done = n

theorem listen_silence (w : Watch) : w.listen p silence =
    { w with uart := min (w.uart + 1) p.hold, restart := w.restart || decide (p.hold ≤ w.uart + 1) } := by
  simp [Watch.listen, silence]

section silent

variable {k n : Nat} {x : Overseen}

theorem silent_step (hmax : n % p.word < p.max) (h : Silent p k n x) (hk : k + 1 < p.hold) :
    Silent p (k + 1) n (watchStep p x silence) := by
  have hquiet : (x.watch.listen p silence).restart = false := by
    rw [listen_silence, h.restart, h.uart, decide_eq_false (Nat.not_le.mpr hk)]
    rfl
  rw [watchStep_quiet rfl (h.count ▸ hmax) rfl hquiet, listen_silence]
  exact ⟨by rw [← hquiet, listen_silence], h.cycle, by rw [h.uart]; exact Nat.min_eq_left (Nat.le_of_lt hk),
    h.count, h.done⟩

theorem silent_last (hmax : n % p.word < p.max) (h : Silent p k n x) (hk : k + 1 = p.hold) :
    Cycling p 1 n (watchStep p x silence) := by
  have hdue : (x.watch.listen p silence).restart = true := by
    rw [listen_silence, h.restart, h.uart, decide_eq_true (Nat.le_of_eq hk.symm)]
    rfl
  have hcycle : (x.watch.listen p silence).cycle = 0 := h.cycle
  rw [watchStep_cycle rfl (h.count ▸ hmax) rfl hdue (hcycle ▸ p.close_pos)]
  exact ⟨hdue, by rw [hcycle], h.count, h.done⟩

theorem cycling_step (hmax : n % p.word < p.max) (h : Cycling p k n x) (hk : k < p.close) :
    Cycling p (k + 1) n (watchStep p x silence) := by
  have hdue : (x.watch.listen p silence).restart = true := by
    rw [listen_silence, h.restart]
    rfl
  have hcycle : (x.watch.listen p silence).cycle = k := h.cycle
  rw [watchStep_cycle rfl (h.count ▸ hmax) rfl hdue (hcycle ▸ hk)]
  exact ⟨hdue, by rw [hcycle], h.count, h.done⟩

theorem cycling_last (hmax : n % p.word < p.max) (h : Cycling p p.close n x) :
    Silent p 0 (n + 1) (watchStep p x silence) ∧ x.watch.completes p silence = true := by
  have hdue : (x.watch.listen p silence).restart = true := by
    rw [listen_silence, h.restart]
    rfl
  have hcycle : (x.watch.listen p silence).cycle = p.close := h.cycle
  obtain ⟨hstep, hcompletes⟩ := watchStep_complete rfl (h.count ▸ hmax) rfl hdue (Nat.le_of_eq hcycle.symm)
  rw [hstep]
  refine ⟨⟨rfl, rfl, rfl, ?_, congrArg (· + 1) h.done⟩, hcompletes⟩
  change (x.watch.count + 1) % p.word = (n + 1) % p.word
  rw [h.count, Nat.mod_add_mod]

theorem silent_run (hmax : n % p.word < p.max) (h : Silent p 0 n x) (hk : k < p.hold) :
    Silent p k n (run (watchStep p) x (List.replicate k silence)) := by
  induction k with
  | zero => exact h
  | succ k ih =>
    rw [List.replicate_succ', run_snoc]
    exact silent_step hmax (ih (by omega)) hk

theorem cycling_run (hmax : n % p.word < p.max) (h : Cycling p 1 n x) (hk : k < p.close) :
    Cycling p (1 + k) n (run (watchStep p) x (List.replicate k silence)) := by
  induction k with
  | zero => exact h
  | succ k ih =>
    rw [List.replicate_succ', run_snoc]
    exact cycling_step (k := 1 + k) hmax (ih (by omega)) (by omega)

/-- A silence of `hold + close` calls is one restart, which the last of them completes. -/
theorem silent_round (hmax : n % p.word < p.max) (h : Silent p 0 n x) :
    ∃ k, Silent p 0 (n + 1) (run (watchStep p) x (List.replicate (k + 1) silence)) ∧
      (run (watchStep p) x (List.replicate k silence)).watch.completes p silence = true := by
  have hclose := p.close_pos
  have hhold := p.hold_gt
  have hwait := silent_last hmax (silent_run (k := p.hold - 1) hmax h (by omega)) (by omega)
  have hend := cycling_run (k := p.close - 1) hmax hwait (by omega)
  refine ⟨p.hold - 1 + 1 + (p.close - 1), ?_⟩
  rw [List.replicate_succ', run_snoc, List.replicate_add, run_append, List.replicate_succ', run_snoc]
  rw [Nat.add_sub_cancel' hclose] at hend
  exact cycling_last hmax hend

/-- A limit that does not fit the register is none. -/
theorem unbounded (hword : p.word ≤ p.max) (n : Nat) :
    ∃ k, Silent p 0 n (run (watchStep p) .start (List.replicate k silence)) := by
  induction n with
  | zero => exact ⟨0, rfl, rfl, rfl, (Nat.zero_mod _).symm, rfl⟩
  | succ n ih =>
    obtain ⟨k, hsilent⟩ := ih
    obtain ⟨j, hnext, -⟩ := silent_round (Nat.lt_of_lt_of_le (Nat.mod_lt _ p.word_pos) hword) hsilent
    refine ⟨k + (j + 1), ?_⟩
    rw [List.replicate_add, run_append]
    exact hnext

end silent

/-! ## The time of a restart -/

/-- In a restart the power has been off for its calls since it was taken up. Otherwise it is on, or a restart was just
completed. -/
inductive InStep (p : Plan) (x : Overseen) : Prop
  | cycling (restart : x.watch.restart = true) (lt : x.tally.resumed < x.watch.cycle) (le : x.watch.cycle ≤ p.close)
      (on : x.tally.on + x.tally.resumed = x.watch.cycle) (off : x.watch.off = true) (count : x.watch.count < p.max)
  | idle (restart : x.watch.restart = false) (le : x.watch.cycle ≤ p.close) (resumed : x.tally.resumed = x.watch.cycle)
      (on : x.tally.on = 0) (off : x.watch.off = false)
  | fresh (restart : x.watch.restart = false) (cycle : x.watch.cycle = 0) (uart : x.watch.uart = 0)
      (net : x.watch.net = 0)

section inStep

variable {x : Overseen} {e : Scene}

/-- Just after a restart none is due. -/
theorem listen_fresh {w : Watch} (hr : w.restart = false) (hu : w.uart = 0) (hn : w.net = 0) :
    (w.listen p e).restart = false := by
  have hhold : ¬p.hold ≤ 1 := Nat.not_le.mpr p.hold_gt
  unfold Watch.listen
  dsimp only
  rw [hr, hu, hn, ite_self, Nat.zero_add, decide_eq_false hhold, Bool.and_false]
  rfl

theorem listen_due {w : Watch} (hr : w.restart = true) : (w.listen p e).restart = true := by
  unfold Watch.listen
  rw [hr]
  rfl

theorem inStep_rest (hrests : x.watch.rests p e = true) (hle : x.watch.cycle ≤ p.close) :
    InStep p (watchStep p x e) := by
  obtain ⟨w', hrest, hstep⟩ := watchStep_rest hrests
  rw [hstep]
  exact .idle hrest.restart (hrest.cycle ▸ hle) hrest.cycle.symm rfl hrest.off

/-- A call of a restart. -/
theorem inStep_due (he : e.enable = true) (hmax : x.watch.count < p.max)
    (hdue : (x.watch.listen p e).restart = true) (hle : x.tally.resumed ≤ x.watch.cycle)
    (hon : x.tally.on + x.tally.resumed = x.watch.cycle) : InStep p (watchStep p x e) := by
  by_cases hclose : x.watch.cycle < p.close
  · rw [watchStep_cycle he hmax rfl hdue hclose]
    refine .cycling hdue (Nat.lt_succ_of_le hle) hclose ?_ rfl hmax
    change x.tally.on + 1 + x.tally.resumed = x.watch.cycle + 1
    omega
  · rw [(watchStep_complete he hmax rfl hdue (Nat.not_lt.mp hclose)).1]
    exact .fresh rfl rfl rfl rfl

theorem inStep_watchStep (h : InStep p x) (e : Scene) : InStep p (watchStep p x e) := by
  have hle : x.watch.cycle ≤ p.close := by
    cases h with
    | cycling _ _ hle => exact hle
    | idle _ hle => exact hle
    | fresh _ hc => exact hc ▸ Nat.zero_le _
  rcases rests_or_active p x.watch e with hrests | ⟨he, hmax⟩
  · exact inStep_rest hrests hle
  · cases hdue : (x.watch.listen p e).restart with
    | false =>
      rw [watchStep_quiet he hmax rfl hdue]
      exact .idle hdue hle rfl rfl rfl
    | true =>
      cases h with
      | cycling _ hlt _ hon => exact inStep_due he hmax hdue (Nat.le_of_lt hlt) hon
      | idle _ _ hresumed hon =>
        exact inStep_due he hmax hdue (Nat.le_of_eq hresumed) (by rw [hon, hresumed, Nat.zero_add])
      | fresh hr _ huart hnet => exact absurd (hdue.symm.trans (listen_fresh hr huart hnet)) nofun

/-- A call that completes a restart finds its counter at the end. -/
theorem due_of_completes (hdone : x.watch.completes p e = true) :
    e.enable = true ∧ x.watch.count < p.max ∧ (x.watch.listen p e).restart = true ∧ p.close ≤ x.watch.cycle := by
  have hlt : (watchStep p x e).watch.cycle < x.watch.cycle := of_decide_eq_true hdone
  rcases rests_or_active p x.watch e with hrests | ⟨he, hmax⟩
  · obtain ⟨w', hrest, hstep⟩ := watchStep_rest hrests
    rw [hstep] at hlt
    exact absurd hrest.cycle (Nat.ne_of_lt hlt)
  · cases hdue : (x.watch.listen p e).restart with
    | false =>
      rw [watchStep_quiet he hmax rfl hdue] at hlt
      exact absurd hlt (Nat.lt_irrefl _)
    | true =>
      refine ⟨he, hmax, rfl, ?_⟩
      by_contra hno
      rw [watchStep_cycle he hmax rfl hdue (Nat.not_le.mp hno)] at hlt
      exact absurd hlt (Nat.not_lt.mpr (Nat.le_succ _))

/-- A restart that is completed has had the power off for its calls since it was taken up and for the one that completes
it; one that was disabled after its last call, for none. The next call withdraws the request. -/
theorem restart_time (h : InStep p x) (hdone : x.watch.completes p e = true) :
    (watchStep p x e).tally.on = (if x.tally.resumed = p.close then 0 else p.close + 1 - x.tally.resumed) ∧
      ∀ e', (watchStep p (watchStep p x e) e').watch.off = false := by
  obtain ⟨he, hmax, hdue, hclose⟩ := due_of_completes hdone
  obtain ⟨y, hy⟩ : ∃ y, y = watchStep p x e := ⟨_, rfl⟩
  have hcomplete := hy.trans (watchStep_complete he hmax rfl hdue hclose).1
  rw [← hy]
  refine ⟨?_, fun e' => ?_⟩
  · have hon : y.tally.on = if x.watch.off then x.tally.on + 1 else 0 := by rw [hcomplete]; rfl
    rw [hon]
    cases h with
    | cycling _ hlt hle hon hoff =>
      rw [hoff, if_pos rfl, if_neg (by omega)]
      omega
    | idle _ hle hresumed _ hoff =>
      rw [hoff, if_neg Bool.false_ne_true, if_pos (by omega)]
    | fresh hr hc huart hnet => exact absurd (hdue.symm.trans (listen_fresh hr huart hnet)) nofun
  · have hquiet : (y.watch.listen p e').restart = false := by
      rw [hcomplete]
      exact listen_fresh rfl rfl rfl
    rcases rests_or_active p y.watch e' with hrests | ⟨he', hmax'⟩
    · obtain ⟨w', hrest, hstep⟩ := watchStep_rest hrests
      rw [hstep]
      exact hrest.off
    · rw [watchStep_quiet he' hmax' rfl hquiet]

/-! ### Restarts that are not disabled -/

/-- The supervision is not disabled during a restart. -/
def Uncut (x : Overseen) (e : Scene) : Prop := e.enable = false → x.watch.cycle = 0

/-- No restart was taken up again. -/
structure FullTime (p : Plan) (x : Overseen) : Prop where
  inStep : InStep p x
  cycle : x.watch.restart = false → x.watch.cycle = 0
  resumed : x.watch.restart = true → x.tally.resumed = 0

/-- Neither a lock-out nor, in such a run, a disabled call meets a restart. -/
theorem FullTime.quiet_of_rests (h : FullTime p x) (hu : Uncut x e) (hrests : x.watch.rests p e = true) :
    x.watch.restart = false := by
  cases h.inStep with
  | idle hr => exact hr
  | fresh hr => exact hr
  | cycling _ hlt _ _ _ hcount =>
    rcases Bool.or_eq_true_iff.mp hrests with hoff | hlock
    · have := hu ((Bool.not_eq_true' _).mp hoff)
      omega
    · have := of_decide_eq_true hlock
      omega

theorem FullTime.resumed_of_due (h : FullTime p x) (hdue : (x.watch.listen p e).restart = true) :
    x.tally.resumed = 0 := by
  cases h.inStep with
  | cycling hr => exact h.resumed hr
  | idle hr _ hresumed => exact hresumed.trans (h.cycle hr)
  | fresh hr _ huart hnet => exact absurd (hdue.symm.trans (listen_fresh hr huart hnet)) nofun

theorem FullTime.watchStep (h : FullTime p x) (hu : Uncut x e) : FullTime p (watchStep p x e) := by
  have hnext := inStep_watchStep h.inStep e
  rcases rests_or_active p x.watch e with hrests | ⟨he, hmax⟩
  · have hquiet := h.quiet_of_rests hu hrests
    obtain ⟨w', hrest, hstep⟩ := watchStep_rest hrests
    rw [hstep] at hnext ⊢
    exact ⟨hnext, fun _ => hrest.cycle.trans (h.cycle hquiet), fun hr => absurd (hrest.restart.symm.trans hr) nofun⟩
  · cases hdue : (x.watch.listen p e).restart with
    | false =>
      have hquiet : x.watch.restart = false :=
        Bool.eq_false_iff.mpr fun hr => absurd ((listen_due hr).symm.trans hdue) nofun
      rw [watchStep_quiet he hmax rfl hdue] at hnext ⊢
      exact ⟨hnext, fun _ => h.cycle hquiet, fun hr => absurd (hdue.symm.trans hr) nofun⟩
    | true =>
      by_cases hclose : x.watch.cycle < p.close
      · rw [watchStep_cycle he hmax rfl hdue hclose] at hnext ⊢
        refine ⟨hnext, fun hr => absurd (hdue.symm.trans hr) nofun, fun _ => ?_⟩
        exact h.resumed_of_due hdue
      · rw [(watchStep_complete he hmax rfl hdue (Nat.not_lt.mp hclose)).1] at hnext ⊢
        exact ⟨hnext, fun _ => rfl, nofun⟩

end inStep

/-! ## The calls of the firmware -/

open WM WM.Impl

/-- `u16MaxTimes`. -/
def maxTimes (e : BitVec 16) : Nat := (e &&& 0x0FFF#16).toNat

/-- The settings: restarts and holding time, the latter of at least a minute. -/
structure Settings where
  enable : BitVec 16
  delay : Nat
  enabled : enable.getLsbD 15 = true
  hold : 1 ≤ delay % 256
  word : delay < 65536

/-- The state has these settings. -/
def Settings.In (c : Settings) (s : Sys) : Prop := s.cfg.restartEnable = c.enable ∧ s.cfg.restartDelay = c.delay

/-- What the supervision is to do with them. -/
def Settings.plan (c : Settings) : Plan where
  close := 5
  max := maxTimes c.enable
  word := 256
  hold := c.delay % 256 * 60 * 2
  interval := c.delay / 256 * 3600 * 2
  close_pos := by decide
  word_pos := by decide
  hold_gt := by have := c.hold; omega

/-- A run of calls: the registers and the request that the last one has left, and what was observed. -/
structure Vigil where
  dis : DisSt
  off : Bool
  tally : Tally

def Vigil.start : Vigil := ⟨⟨0, false, 0, 0, 0, 0, 0⟩, false, ⟨0, 0, 0⟩⟩

/-- The state `x`, but for these registers and the request. A display that has spoken has cleared the clock of its
silence. -/
def withVigil (v : Vigil) (x : Sys) : Sys :=
  reqBitmapOp .pwrCtrl v.off
    (setDis (fun d => { v.dis with uartTimeout1 := if d.uartTimeout1 = 0 then 0 else v.dis.uartTimeout1 }) x)

/-- The call completes a restart. -/
def restarts (v : Vigil) (x : Sys) : Bool := (restartDisExe (withVigil v x)).dis.closeTime0 < v.dis.closeTime0

/-- The call is disabled, or one of a lock-out. -/
def restsAt (v : Vigil) (x : Sys) : Bool :=
  !closeDisEnable (withVigil v x) || maxTimes x.cfg.restartEnable ≤ v.dis.closeTime1

def vigilStep (v : Vigil) (x : Sys) : Vigil :=
  let s := restartDisExe (withVigil v x)
  ⟨s.dis, s.reqBit .pwrCtrl, v.tally.note (restsAt v x) (restarts v x) (s.reqBit .pwrCtrl) s.dis.closeTime0⟩

/-- The supervision is not disabled during a restart. -/
def Unbroken (v : Vigil) (x : Sys) : Prop := closeDisEnable (withVigil v x) = false → v.dis.closeTime0 = 0

instance (v : Vigil) (x : Sys) : Decidable (Unbroken v x) := inferInstanceAs (Decidable (_ → _))

/-- The restarts between two rests are limited. -/
def RestartsLimited (c : Settings) : Prop :=
  ∀ xs, (∀ x ∈ xs, c.In x) → (run vigilStep .start xs).tally.done ≤ maxTimes c.enable

/-- Every restart that is completed has requested the power off after `CLOSE_TIME` consecutive calls. -/
def RestartsInTime (c : Settings) : Prop :=
  ∀ xs x, (∀ y ∈ xs ++ [x], c.In y) → restarts (run vigilStep .start xs) x = true →
    (vigilStep (run vigilStep .start xs) x).tally.on = 5

end WM.Spec
