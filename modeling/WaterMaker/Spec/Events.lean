import WaterMaker.Impl.System

/-!
# Kinds of events

The events of a run by what they are: passes of the core thread, single calls, seconds of the background thread, and
what happens between them.
-/

namespace WM.Spec

open WM WM.Impl

/-- The passes of `req_execution`. -/
def isPass : Event → Bool
  | .req | .core => true
  | _ => false

def isCall : Event → Bool
  | .waterOut => true
  | _ => false

/-- A second of the background thread. -/
def second : Event → Bool
  | .cooldown => true
  | _ => false

theorem second_iff {e : Event} : second e = true ↔ e = .cooldown := by
  cases e <;> simp [second]

/-- What happens between the passes: not a single function of the core thread, and no registers but the
panel's demand. -/
def between : Event → Bool
  | .core | .req | .waterOut | .config _ => false
  | _ => true

/-- Passes and what happens between them, under constant registers but for the panel's demand. -/
def plain (e : Event) : Bool := isPass e || between e

/-- The events of the core and the background thread and of the outside: not a single function of the core
thread, not a write of the registers, and no status from nowhere. -/
def isTick : Event → Bool
  | .req | .waterOut | .config _ | .env .. => false
  | _ => true

/-- The state in which the event calls `req_execution`. -/
def atReq (s : Sys) : Event → Option Sys
  | .req => some s
  | .core => some (alarmAclExe s)
  | _ => none

/-- If the event calls `req_execution`, it is in a state with the property `Q`. -/
def AtReq (Q : Sys → Prop) (s : Sys) (e : Event) : Prop := ∀ t ∈ atReq s e, Q t

instance (Q : Sys → Prop) [DecidablePred Q] (s : Sys) (e : Event) : Decidable (AtReq Q s e) :=
  inferInstanceAs (Decidable (∀ t ∈ atReq s e, Q t))

end WM.Spec
