import WaterMaker.Impl.System
import Mathlib.Logic.Function.Iterate
import Mathlib.Tactic.Common

/-!
# The clocks of the sterilisation

Circulation starts when the interval counter reaches `120 * I` calls and ends when the time counter reaches `120 * T`.
`call` is a call that nothing disturbs. Between two circulations the clocks are `waiting i`, and in the `m`-th call of
one they are `running I m`; `waits` and `runs` say where they are after `n` calls. The time counter has 16 bits, so that
a circulation of more than `65535` calls does not see its end.
-/

namespace WM.Spec

/-- `l_sys.Sterilize`, `u32Sterilize_Interval[0]` and `u16Sterilize_Time[0]`. -/
structure Circulation where
  on : Bool
  interval : Nat
  time : Nat
  deriving DecidableEq, Repr

namespace Circulation

/-- An undisturbed call, with `T` for the time and `I` for the interval, in minutes. -/
def call (T I : Nat) (c : Circulation) : Circulation :=
  let interval := (c.interval + 1) % 4294967296
  let due : Bool := decide (I * 60 * 2 ≤ interval)
  let time := if due then (c.time + 1) % 65536 else c.time
  if T * 60 * 2 ≤ time then ⟨false, 0, 0⟩ else ⟨due, interval, time⟩

/-- `i` calls after the last circulation. -/
def waiting (i : Nat) : Circulation := ⟨false, i, 0⟩

/-- After the `m`-th call of a circulation. -/
def running (I m : Nat) : Circulation := ⟨true, 120 * I + m - 1, m % 65536⟩

section

variable {T I i m : Nat}

theorem call_waiting (hT : 1 ≤ T) (hI : I ≤ 10000) (h : i + 1 < 120 * I) :
    (waiting i).call T I = waiting (i + 1) := by
  unfold call waiting
  dsimp only
  rw [Nat.mod_eq_of_lt (by omega), decide_eq_false (by omega)]
  simp only [Bool.false_eq_true, if_false]
  rw [if_neg (by omega)]

theorem call_start (hT : 1 ≤ T) (hI : I ≤ 10000) (h : i + 1 = 120 * I) : (waiting i).call T I = running I 1 := by
  unfold call waiting running
  dsimp only
  rw [Nat.mod_eq_of_lt (by omega), decide_eq_true (by omega)]
  simp only [if_true]
  rw [if_neg (by omega), h, Nat.add_sub_cancel]

/-- A call of a circulation that it does not end. -/
theorem call_running (hI : I ≤ 10000) (hm : 1 ≤ m) (hle : m ≤ 72000) (h : (m + 1) % 65536 < 120 * T) :
    (running I m).call T I = running I (m + 1) := by
  unfold call running
  dsimp only
  rw [show 120 * I + m - 1 + 1 = 120 * I + (m + 1) - 1 by omega, Nat.mod_eq_of_lt (by omega : _ < 4294967296),
    decide_eq_true (by omega)]
  simp only [if_true, Nat.mod_add_mod]
  rw [if_neg (by omega)]

theorem call_last (hI : I ≤ 10000) (hm : 1 ≤ m) (hle : m ≤ 72000) (h : 120 * T ≤ (m + 1) % 65536) :
    (running I m).call T I = waiting 0 := by
  unfold call running waiting
  dsimp only
  rw [Nat.mod_eq_of_lt (by omega : _ < 4294967296), decide_eq_true (by omega)]
  simp only [if_true, Nat.mod_add_mod]
  rw [if_pos (by omega)]

theorem waits (hT : 1 ≤ T) (hI : I ≤ 10000) {n : Nat} (h : i + n < 120 * I) :
    (call T I)^[n] (waiting i) = waiting (i + n) := by
  induction n with
  | zero => rfl
  | succ n ih =>
    rw [Function.iterate_succ_apply', ih (by omega), call_waiting hT hI (by omega)]
    rfl

/-- As long as the time counter stays below its limit, circulation goes on. -/
theorem runs (hI : I ≤ 10000) (hm : 1 ≤ m) {n : Nat} (hle : m + n ≤ 72000)
    (h : ∀ k, m < k → k ≤ m + n → k % 65536 < 120 * T) : (call T I)^[n] (running I m) = running I (m + n) := by
  induction n with
  | zero => rfl
  | succ n ih =>
    rw [Function.iterate_succ_apply', ih (by omega) fun k hk hk' => h k hk (by omega),
      call_running hI (by omega) (by omega) (h _ (by omega) (by omega))]
    rfl

/-- The clocks between circulations and in one, when the limit is within reach of the time counter. -/
def Timely (T I : Nat) (c : Circulation) : Prop :=
  (∃ i < 120 * I, c = waiting i) ∨ ∃ m, 1 ≤ m ∧ m < 120 * T ∧ c = running I m

theorem timely_call (hT : 1 ≤ T) (hT' : T ≤ 546) (hI : 1 ≤ I) (hI' : I ≤ 10000) {c : Circulation}
    (h : c.Timely T I) : (c.call T I).Timely T I := by
  rcases h with ⟨i, hi, rfl⟩ | ⟨m, hm, hlt, rfl⟩
  · by_cases hnext : i + 1 = 120 * I
    · exact Or.inr ⟨1, Nat.le_refl _, by omega, call_start hT hI' hnext⟩
    · exact Or.inl ⟨i + 1, by omega, call_waiting hT hI' (by omega)⟩
  · by_cases hnext : m + 1 = 120 * T
    · exact Or.inl ⟨0, by omega, call_last hI' hm (by omega) (by omega)⟩
    · exact Or.inr ⟨m + 1, by omega, by omega, call_running hI' hm (by omega) (by omega)⟩

/-- The call that starts a circulation is its first. -/
theorem starts_running (hT : 1 ≤ T) (hI : I ≤ 10000) {c : Circulation} (h : c.Timely T I) (hoff : c.on = false)
    (hon : (c.call T I).on = true) : c.call T I = running I 1 := by
  rcases h with ⟨i, hi, rfl⟩ | ⟨m, hm, hlt, rfl⟩
  · by_cases hnext : i + 1 = 120 * I
    · exact call_start hT hI hnext
    · rw [call_waiting hT hI (by omega)] at hon
      cases hon
  · cases hoff

/-- The call that ends a circulation leaves both counters at 0. -/
theorem ends_waiting (hT' : T ≤ 546) (hI : I ≤ 10000) {c : Circulation} (h : c.Timely T I) (hon : c.on = true)
    (hoff : (c.call T I).on = false) : c.call T I = waiting 0 := by
  rcases h with ⟨i, hi, rfl⟩ | ⟨m, hm, hlt, rfl⟩
  · cases hon
  · by_cases hnext : m + 1 = 120 * T
    · exact call_last hI hm (by omega) (by omega)
    · rw [call_running hI hm (by omega) (by omega)] at hoff
      cases hoff

/-- A circulation of `120 * T` calls. -/
theorem on_running (hT : 1 ≤ T) (hT' : T ≤ 546) (hI : I ≤ 10000) {n : Nat} :
    (n + 1 < 120 * T → ((call T I)^[n] (running I 1)).on = true) ∧
      (n + 1 = 120 * T → ((call T I)^[n] (running I 1)).on = false) := by
  constructor
  · intro h
    rw [runs hI (Nat.le_refl _) (by omega) fun k hk hk' => by omega]
    rfl
  · intro h
    obtain ⟨n, rfl⟩ : ∃ n', n = n' + 1 := ⟨n - 1, by omega⟩
    rw [Function.iterate_succ_apply', runs hI (Nat.le_refl _) (by omega) fun k hk hk' => by omega,
      call_last hI (by omega) (by omega) (by omega)]
    rfl

/-- The interval to the next one. -/
theorem on_waiting (hT : 1 ≤ T) (hI : 1 ≤ I) (hI' : I ≤ 10000) {n : Nat} :
    (n < 120 * I → ((call T I)^[n] (waiting 0)).on = false) ∧
      (n = 120 * I → ((call T I)^[n] (waiting 0)).on = true) := by
  constructor
  · intro h
    rw [waits hT hI' (by omega)]
    rfl
  · intro h
    obtain ⟨n, rfl⟩ : ∃ n', n = n' + 1 := ⟨n - 1, by omega⟩
    rw [Function.iterate_succ_apply', waits hT hI' (by omega), call_start hT hI' (by omega)]
    rfl

/-- A limit beyond the time counter is not seen. -/
theorem on_overrun (hT : 547 ≤ T) (hI : I ≤ 10000) {n : Nat} (hn : n < 72000) :
    ((call T I)^[n] (running I 1)).on = true := by
  rw [runs hI (Nat.le_refl _) (by omega) fun k _ _ => by omega]
  rfl

end

end Circulation

/-! ## The calls of the firmware -/

open WM WM.Impl

/-- A call of `Sterilize_req_exe` that finds the machine in the state `x`, but for the clocks of the sterilisation: they
are where the last call has left them. -/
def sterCall (t : SterSt) (x : Sys) : SterSt :=
  (sterilizeReqExe { x with ster := { t with uvDelay := x.ster.uvDelay } }).ster

/-- No door alarm, external water, storage or dispense, water in the tank and an idle intake pump; the times are those
configured, and everything else is left open. -/
structure Unhindered (T I : Nat) (x : Sys) : Prop where
  door : x.alarmBit .e4 = false
  source : x.cfg.exitWater = .air
  level : (getWaterLevel x).dL = true
  storage : x.stor.status = false
  dispense : x.out.flag ≠ .normalIce
  intake : x.pwp.opened = false
  time : x.cfg.sterilizeTime = T
  interval : x.cfg.sterilizeInterval = I

/-- `l_sys.Sterilize` after the calls `xs`. -/
def circulating (t : SterSt) (xs : List Sys) : Bool := (run sterCall t xs).sterilize

/-- No circulation is going on or was broken off, and none is due: as after power-up and after each circulation. -/
def Rested (I : Nat) (t : SterSt) : Prop := t.sterilize = false ∧ t.time = 0 ∧ t.interval < 120 * I

/-- The times of the cycle, in undisturbed runs from `t`. -/
structure Punctual (T I : Nat) (t : SterSt) : Prop where
  /-- the circulation that the call `x` starts ends with its `120 * T`-th call -/
  ends : ∀ pre x post, (∀ y ∈ pre ++ x :: post, Unhindered T I y) →
    circulating t pre = false → circulating t (pre ++ [x]) = true →
    (post.length + 1 < 120 * T → circulating t (pre ++ x :: post) = true) ∧
      (post.length + 1 = 120 * T → circulating t (pre ++ x :: post) = false)
  /-- after the circulation that the call `x` ends the next one starts with the `120 * I`-th further call -/
  next : ∀ pre x post, (∀ y ∈ pre ++ x :: post, Unhindered T I y) →
    circulating t pre = true → circulating t (pre ++ [x]) = false →
    (post.length < 120 * I → circulating t (pre ++ x :: post) = false) ∧
      (post.length = 120 * I → circulating t (pre ++ x :: post) = true)

end WM.Spec
