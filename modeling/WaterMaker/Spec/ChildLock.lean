import WaterMaker.Impl.System
import Mathlib.Tactic.Common

/-!
# The child lock

A key held for a second opens a lock for `5` seconds; while it is open the hot key is taken. One thread
counts the seconds (`second`), the other reads the keys (`read`), opens the lock and closes it again.
`since` counts the seconds since the child-lock key was last seen pressed. If the keys are read before the
second that follows the end of the countdown, the lock is open for at most five seconds after the key was
seen (`Guarded`), and so the hot key is taken only then (`Guarded.hot`).
-/

namespace WM.Spec

structure ChildLock where
  /-- the lock is open -/
  latch : Bool
  /-- seconds the key has been held, and seconds the lock stays open -/
  held : Nat
  left : Nat
  /-- the hot key is taken -/
  hot : Bool
  deriving DecidableEq

namespace ChildLock

/-- A second passes, with the key pressed or not. -/
def second (child : Bool) (l : ChildLock) : ChildLock :=
  { l with held := if child then (l.held + 1) % 256 else 0, left := l.left - 1 }

/-- The key was held: the lock opens. -/
def unlock (l : ChildLock) : ChildLock :=
  if l.held ≥ 1 then { l with held := 0, latch := true, left := 5 } else l

/-- The hot key is taken while the lock is open, and released at any time. -/
def take (heat : Bool) (l : ChildLock) : ChildLock :=
  if heat then if l.latch then { l with hot := true } else l else { l with hot := false }

/-- The lock closes at the end of the countdown. -/
def expire (l : ChildLock) : ChildLock := if l.left ≠ 0 then l else { l with latch := false }

/-- The keys are read. -/
def read (heat : Bool) (l : ChildLock) : ChildLock := ((l.unlock).take heat).expire

/-- The seconds since the key was last seen pressed, if it ever was. -/
def since (child : Bool) (n : Option Nat) : Option Nat := if child then some 0 else n.map (· + 1)

/-- A key that is held was just seen; an open lock has its countdown within five seconds of that. -/
structure Guarded (l : ChildLock) (n : Option Nat) : Prop where
  held : l.held ≠ 0 → n = some 0
  latch : l.latch = true → ∃ k, n = some k ∧ k + l.left ≤ 5

variable {l : ChildLock} {n : Option Nat}

theorem Guarded.second (h : Guarded l n) (child : Bool) (hc : l.latch = true → l.left ≠ 0) :
    Guarded (l.second child) (since child n) := by
  cases child with
  | true =>
    refine ⟨fun _ => rfl, fun hl => ⟨0, rfl, ?_⟩⟩
    obtain ⟨k, -, hk⟩ := h.latch hl
    dsimp only [ChildLock.second]
    omega
  | false =>
    refine ⟨fun hh => absurd rfl hh, fun hl => ?_⟩
    obtain ⟨k, rfl, hk⟩ := h.latch hl
    have := hc hl
    refine ⟨k + 1, rfl, ?_⟩
    dsimp only [ChildLock.second]
    omega

theorem Guarded.unlock (h : Guarded l n) : Guarded l.unlock n := by
  unfold ChildLock.unlock
  split
  · rename_i hh
    exact ⟨fun hz => absurd rfl hz, fun _ => ⟨0, h.held (by omega), Nat.le_refl _⟩⟩
  · exact h

theorem Guarded.take (h : Guarded l n) (heat : Bool) : Guarded (l.take heat) n := by
  unfold ChildLock.take
  split_ifs
  · exact ⟨h.held, h.latch⟩
  · exact h
  · exact ⟨h.held, h.latch⟩

theorem Guarded.expire (h : Guarded l n) : Guarded l.expire n := by
  unfold ChildLock.expire
  split
  · exact h
  · exact ⟨h.held, nofun⟩

theorem Guarded.read (h : Guarded l n) (heat : Bool) : Guarded (l.read heat) n := (h.unlock.take heat).expire

/-- The hot key is newly taken only with the lock open. -/
theorem latch_of_hot {heat : Bool} (hoff : l.hot = false) (hon : (l.read heat).hot = true) :
    l.unlock.latch = true := by
  have hexp : ∀ l : ChildLock, l.expire.hot = l.hot := fun l => by
    unfold ChildLock.expire
    split <;> rfl
  have hopen : l.unlock.hot = l.hot := by
    unfold ChildLock.unlock
    split <;> rfl
  rw [ChildLock.read, hexp] at hon
  unfold ChildLock.take at hon
  split_ifs at hon with _ hl
  · exact hl
  · rw [hopen, hoff] at hon
    exact absurd hon Bool.false_ne_true

/-- The hot key is taken at most five seconds after the child-lock key was seen pressed. -/
theorem Guarded.hot (h : Guarded l n) {heat : Bool} (hoff : l.hot = false) (hon : (l.read heat).hot = true) :
    ∃ k, n = some k ∧ k ≤ 5 := by
  obtain ⟨k, hk, hle⟩ := h.unlock.latch (latch_of_hot hoff hon)
  exact ⟨k, hk, by omega⟩

end ChildLock

/-! ## The key in the firmware -/

open WM WM.Impl

/-- A run with the seconds since one saw the child-lock key pressed. -/
structure Watched where
  sys : Sys
  since : Option Nat

def watch (x : Watched) (e : Event) : Watched :=
  ⟨step x.sys e, match e with
    | .cooldown => ChildLock.since (x.sys.diSts .child) x.since
    | _ => x.since⟩

/-- `WaterOut_Key` has closed an expired lock before the next second. -/
def Attended (x : Watched) : Event → Prop
  | .cooldown => x.sys.out.childLockKey = true → x.sys.out.childLockCnt1 ≠ 0
  | _ => True

instance (x : Watched) (e : Event) : Decidable (Attended x e) := by
  cases e <;> unfold Attended <;> infer_instance

/-- If the hot key is newly taken, the child-lock key was seen at most `ChildKey_Lose` seconds ago. -/
def TakenUnlocked (x : Watched) (e : Event) : Prop :=
  x.sys.out.key.getLsbD keyHeat = false → (step x.sys e).out.key.getLsbD keyHeat = true →
    ∃ n, x.since = some n ∧ n ≤ 5

end WM.Spec
