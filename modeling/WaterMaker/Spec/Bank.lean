import WaterMaker.Framework.Run
import WaterMaker.Impl.Types

/-!
# Two compressors under orders

What the compressors of the machine are: two units (`Comp`: a state, the contactor's request and one
countdown), two countdowns that both units share, and a pass that takes any pair of signals and any
forced stops (`Order`). The timing is a parameter. A unit is well formed (`Comp.Wf`) when its request
agrees with its state, and timed (`Comp.Timed`) when its countdown is at most what its state loads;
`Bank.Ok` is both for both units. Every pass and every second keep them (`Bank.Ok.step`).
-/

namespace WM.Spec

open WM WM.Impl

/-- The timing registers. -/
structure Timing where
  startDelay : Nat
  startupDelay : Nat
  shield : Nat
  minRuntime : Nat
  stopDelay : Nat
  interval : Nat
  deriving DecidableEq

/-- One compressor. -/
structure Comp where
  fsm : CompFsm
  on : Bool
  timer : Nat
  deriving DecidableEq

/-- What a pass is told: the generator's signals and which compressors an alarm holds off. -/
structure Order where
  sig : Pair CompSig
  forced : Pair Bool

/-- The signal that reaches a compressor. -/
def Order.sigOf (o : Order) (k : CompId) : CompSig :=
  if o.forced.get k then .off else o.sig.get k

namespace Comp

/-- A held compressor leaves whatever it is doing for `STOP`. -/
def force (held : Bool) (u : Comp) : Comp :=
  if held ∧ u.fsm ≠ .stop ∧ u.fsm ≠ .idle then { u with fsm := .stop } else u

/-- The state machine would switch the request to the given value, were the shared countdown out. -/
def ready (sig : CompSig) (u : Comp) : Bool → Prop
  | true => u.fsm = .init ∧ sig = .on ∧ u.timer = 0
  | false => u.fsm = .stop

instance (sig : CompSig) (u : Comp) : ∀ d, Decidable (u.ready sig d)
  | true => inferInstanceAs (Decidable (_ ∧ _ ∧ _))
  | false => inferInstanceAs (Decidable (_ = _))

/-- One step of a compressor's state machine. -/
def step (T : Timing) (sig : CompSig) (startInt stopInt : Nat) (u : Comp) : Comp :=
  match u.fsm with
  | .idle => if sig = .on ∧ u.timer = 0 then ⟨.init, false, T.startupDelay⟩ else ⟨.idle, false, u.timer⟩
  | .init =>
    if sig ≠ .on then ⟨.idle, false, 0⟩
    else if u.timer = 0 then
      if startInt = 0 then ⟨.startup, true, T.shield⟩ else ⟨.init, false, u.timer⟩
    else ⟨.init, false, u.timer⟩
  | .startup =>
    if sig = .err then { u with fsm := .stop }
    else if u.timer = 0 then ⟨.normal, true, T.minRuntime - T.shield⟩
    else ⟨.startup, true, u.timer⟩
  | .normal =>
    if sig = .err then { u with fsm := .stop }
    else if sig = .off ∧ u.timer = 0 then ⟨.shuting, true, T.stopDelay⟩
    else ⟨.normal, true, u.timer⟩
  | .shuting =>
    if sig = .err then { u with fsm := .stop }
    else if sig = .off ∧ u.timer = 0 then { u with fsm := .stop }
    else if sig = .on then ⟨.normal, true, 0⟩
    else ⟨.shuting, true, u.timer⟩
  | .stop => if stopInt = 0 then ⟨.idle, false, T.startDelay⟩ else u
  | .other => u

/-- A second passes. -/
def cool (u : Comp) : Comp := { u with timer := u.timer - 1 }

/-- The request agrees with the state; in `STOP` the compressor may still run. -/
def Wf (u : Comp) : Prop :=
  match u.fsm with
  | .idle | .init => u.on = false
  | .startup | .normal | .shuting => u.on = true
  | .stop => True
  | .other => False

/-- The countdown is at most what the state loads. -/
def Timed (T : Timing) (u : Comp) : Prop :=
  match u.fsm with
  | .idle => u.timer ≤ T.startDelay
  | .init => u.timer ≤ T.startupDelay
  | .startup => u.timer ≤ T.shield
  | .normal => u.timer ≤ T.minRuntime - T.shield
  | .shuting => u.timer ≤ T.stopDelay
  | .stop | .other => True

section step

variable {T : Timing} {u : Comp} {sig : CompSig} {si so : Nat} {held : Bool}

theorem Wf.force (h : u.Wf) : (u.force held).Wf := by
  unfold Comp.force
  split
  · trivial
  · exact h

theorem Wf.step (h : u.Wf) : (u.step T sig si so).Wf := by
  obtain ⟨fsm, on, t⟩ := u
  cases fsm <;> simp only [Comp.step] <;> (repeat' split) <;> first | rfl | trivial

theorem Timed.force (h : u.Timed T) : (u.force held).Timed T := by
  unfold Comp.force
  split
  · trivial
  · exact h

theorem Timed.step (h : u.Timed T) : (u.step T sig si so).Timed T := by
  obtain ⟨fsm, on, t⟩ := u
  cases fsm <;> simp only [Comp.step] <;> (repeat' split) <;>
    first | exact h | exact Nat.le_refl _ | exact Nat.zero_le _ | trivial

theorem Wf.cool (h : u.Wf) : u.cool.Wf := h

theorem Timed.cool (h : u.Timed T) : u.cool.Timed T := by
  obtain ⟨fsm, on, t⟩ := u
  cases fsm <;> simp only [Timed, Comp.cool] at h ⊢ <;> omega

/-- A compressor comes on only by `INIT → STARTUP` and goes off only by `STOP → IDLE`, each when the
countdown that both compressors share is out. -/
theorem ready_of_switch {d : Bool} (h : u.Wf) (hu : u.on = !d) (hd : (u.step T sig si so).on = d) :
    u.ready sig d ∧ bif d then si = 0 else so = 0 := by
  obtain ⟨fsm, on, t⟩ := u
  cases fsm <;> cases d <;> simp_all [Comp.step, Wf, ready] <;> grind

end step

@[simp] theorem force_on (held : Bool) (u : Comp) : (u.force held).on = u.on := by
  unfold force; split <;> rfl

end Comp

/-- The two compressors and the countdowns they share. -/
structure Bank where
  comp : Pair Comp
  startInt : Nat
  stopInt : Nat
  deriving DecidableEq

namespace Bank

/-- One compressor's step in a bank. -/
def one (T : Timing) (k : CompId) (sig : CompSig) (b : Bank) : Bank :=
  let u := b.comp.get k
  { comp := b.comp.set k (u.step T sig b.startInt b.stopInt)
    startInt := if u.ready sig true ∧ b.startInt = 0 then T.interval else b.startInt
    stopInt := if u.ready sig false ∧ b.stopInt = 0 then T.interval else b.stopInt }

/-- The forced stops. -/
def force (o : Order) (b : Bank) : Bank :=
  { b with comp := ⟨b.comp.c1.force o.forced.c1, b.comp.c2.force o.forced.c2⟩ }

/-- A pass: the forced stops, then the first and the second compressor. -/
def pass (T : Timing) (o : Order) (b : Bank) : Bank :=
  (b.force o).one T .c1 (o.sigOf .c1) |>.one T .c2 (o.sigOf .c2)

/-- A second passes. -/
def cool (b : Bank) : Bank :=
  { comp := b.comp.map Comp.cool, startInt := b.startInt - 1, stopInt := b.stopInt - 1 }

/-- What can happen to the bank. -/
inductive Event
  | keep
  | pass (o : Order)
  | cool

def step (T : Timing) (b : Bank) : Event → Bank
  | .keep => b
  | .pass o => b.pass T o
  | .cool => b.cool

/-- Only a second is a tick. -/
def Event.tick : Event → Bool
  | .cool => true
  | _ => false

variable {T : Timing} {b : Bank} {o : Order} {k : CompId}

/-- In a pass each compressor is forced, then takes one step at some value of the shared countdowns. -/
theorem pass_comp (T : Timing) (o : Order) (b : Bank) (k : CompId) :
    ∃ si so, (b.pass T o).comp.get k =
      ((b.comp.get k).force (o.forced.get k)).step T (o.sigOf k) si so := by
  cases k
  · exact ⟨_, _, rfl⟩
  · exact ⟨_, _, rfl⟩

/-- What a step of one compressor keeps, the bank keeps. -/
theorem comp_inv {I : Comp → Prop} (hforce : ∀ u held, I u → I (u.force held))
    (hstep : ∀ u sig si so, I u → I (u.step T sig si so)) (hcool : ∀ u, I u → I u.cool)
    (h : ∀ k, I (b.comp.get k)) (e : Event) : ∀ k, I ((b.step T e).comp.get k) := by
  intro k
  cases e with
  | keep => exact h k
  | pass o =>
    obtain ⟨si, so, hk⟩ := pass_comp T o b k
    rw [step, hk]
    exact hstep _ _ _ _ (hforce _ _ (h k))
  | cool =>
    rw [step, cool, Pair.get_map]
    exact hcool _ (h k)

/-- Both requests agree with their states. -/
def Wf (b : Bank) : Prop := ∀ k, (b.comp.get k).Wf

/-- Both countdowns are in range. -/
def Timed (T : Timing) (b : Bank) : Prop := ∀ k, (b.comp.get k).Timed T

theorem Wf.step (h : b.Wf) (e : Event) : (b.step T e).Wf :=
  comp_inv (I := Comp.Wf) (fun _ _ => Comp.Wf.force) (fun _ _ _ _ => Comp.Wf.step) (fun _ => Comp.Wf.cool) h e

theorem Timed.step (h : b.Timed T) (e : Event) : (b.step T e).Timed T :=
  comp_inv (I := Comp.Timed T) (fun _ _ => Comp.Timed.force) (fun _ _ _ _ => Comp.Timed.step)
    (fun _ => Comp.Timed.cool) h e

/-! ## The shared countdowns -/

/-- The countdown that keeps two switches to `d` apart. -/
def gap (b : Bank) : Bool → Nat
  | true => b.startInt
  | false => b.stopInt

section gap

variable {d : Bool} {sig : CompSig}

theorem one_gap : (b.one T k sig).gap d =
    if (b.comp.get k).ready sig d ∧ b.gap d = 0 then T.interval else b.gap d := by
  cases d <;> rfl

theorem force_gap : (b.force o).gap d = b.gap d := by
  cases d <;> rfl

theorem gap_le_one : b.gap d ≤ (b.one T k sig).gap d := by
  rw [one_gap]
  split
  · rename_i h
    omega
  · exact Nat.le_refl _

/-- No pass shortens a shared countdown and a second shortens it by 1. -/
theorem gap_le_step (e : Event) : b.gap d ≤ (b.step T e).gap d + e.tick.toNat := by
  cases e with
  | keep => exact Nat.le_add_right ..
  | pass o =>
    calc b.gap d = (b.force o).gap d := force_gap.symm
      _ ≤ ((b.force o).one T .c1 (o.sigOf .c1)).gap d := gap_le_one
      _ ≤ (b.pass T o).gap d := gap_le_one
  | cool => cases d <;> simp only [gap, step, cool, Event.tick, Bool.toNat_true] <;> omega

/-- Compressor `k`'s request changes to `d` in the pass. -/
def Switches (d : Bool) (k : CompId) (b b' : Bank) : Prop :=
  (b.comp.get k).on = !d ∧ (b'.comp.get k).on = d

/-- The one that switches finds the shared countdown out and arms it. -/
theorem one_switches (h : b.Wf) (hd : Switches d k b (b.one T k sig)) :
    b.gap d = 0 ∧ (b.one T k sig).gap d = T.interval := by
  have hstep : ((b.comp.get k).step T sig b.startInt b.stopInt).on = d := by
    have := hd.2
    rwa [one, Pair.get_set, if_pos rfl] at this
  obtain ⟨hready, hgap⟩ := Comp.ready_of_switch (h k) hd.1 hstep
  have h0 : b.gap d = 0 := by cases d <;> exact hgap
  exact ⟨h0, by rw [one_gap, if_pos ⟨hready, h0⟩]⟩

theorem Wf.force (h : b.Wf) : (b.force o).Wf
  | .c1 => Comp.Wf.force (h .c1)
  | .c2 => Comp.Wf.force (h .c2)

theorem Wf.one (h : b.Wf) : (b.one T k sig).Wf := fun j => by
  rw [Bank.one, Pair.get_set]
  split
  · exact (h k).step
  · exact h j

/-- In a pass the compressor that switches finds the shared countdown out, leaves it armed, and is the
only one to switch that way. -/
theorem pass_switches (h : b.Wf) (hT : 0 < T.interval) (hd : Switches d k b (b.pass T o)) :
    b.gap d = 0 ∧ (b.pass T o).gap d = T.interval ∧ ∀ j, Switches d j b (b.pass T o) → j = k := by
  have hf := h.force (o := o)
  have h1 : Switches d .c1 b (b.pass T o) →
      Switches d .c1 (b.force o) ((b.force o).one T .c1 (o.sigOf .c1)) := fun hs =>
    ⟨(Comp.force_on ..).trans hs.1, hs.2⟩
  have h2 : Switches d .c2 b (b.pass T o) →
      Switches d .c2 ((b.force o).one T .c1 (o.sigOf .c1)) (b.pass T o) := fun hs =>
    ⟨(Comp.force_on ..).trans hs.1, hs.2⟩
  have h0 : b.gap d ≤ ((b.force o).one T .c1 (o.sigOf .c1)).gap d := force_gap.symm.trans_le gap_le_one
  -- if both switched, the second would find the countdown that the first has armed
  have hne : ¬ (Switches d .c1 b (b.pass T o) ∧ Switches d .c2 b (b.pass T o)) := fun ⟨a, b⟩ => by
    have e1 := (one_switches hf (h1 a)).2
    have e2 := (one_switches hf.one (h2 b)).1
    omega
  refine ⟨?_, ?_, fun j hj => ?_⟩
  · cases k with
    | c1 => exact force_gap.symm.trans (one_switches hf (h1 hd)).1
    | c2 =>
      have := (one_switches hf.one (h2 hd)).1
      omega
  · cases k with
    | c1 =>
      rw [pass, one_gap, if_neg, (one_switches hf (h1 hd)).2]
      rw [(one_switches hf (h1 hd)).2]
      omega
    | c2 => exact (one_switches hf.one (h2 hd)).2
  · match k, j, hd, hj with
    | .c1, .c1, _, _ | .c2, .c2, _, _ => rfl
    | .c1, .c2, hd, hj => exact (hne ⟨hd, hj⟩).elim
    | .c2, .c1, hd, hj => exact (hne ⟨hj, hd⟩).elim

/-- Only a pass switches a compressor. -/
theorem Switches.exists_pass {e : Event} (hd : Switches d k b (b.step T e)) : ∃ o, e = .pass o := by
  cases e with
  | keep =>
    have := hd.1.symm.trans hd.2
    cases d <;> cases this
  | pass o => exact ⟨o, rfl⟩
  | cool =>
    have hon := hd.2
    rw [step, cool, Pair.get_map, Comp.cool, hd.1] at hon
    cases d <;> cases hon

theorem step_switches (h : b.Wf) (hT : 0 < T.interval) {e : Event} (hd : Switches d k b (b.step T e)) :
    b.gap d = 0 ∧ (b.step T e).gap d = T.interval ∧ ∀ j, Switches d j b (b.step T e) → j = k := by
  obtain ⟨o, rfl⟩ := hd.exists_pass
  exact pass_switches h hT hd

end gap

end Bank

end WM.Spec
