import WaterMaker.Framework.Window
import Mathlib.Algebra.Group.Nat.Defs
import Mathlib.Data.List.Induction

/-!
# The lock-out of the compressor

Three exhaust alarms within an hour lock the machine. `activated` are the times at which the alarm began, by the
counter of the system, which has 32 bits; `WithinHour` is an hour of it. The firmware takes the time one pass later,
if the sensor can be read then (`recorded`), and compares in its own way (`Close`); `near_close_iff` says where that
comes to the same.
-/

namespace WM.Spec

/-- A pass over the alarms: when it was, whether the exhaust sensor could be read, and whether the exhaust alarm
began. -/
structure Moment where
  tick : Nat
  abnormal : Bool
  rose : Bool
  deriving DecidableEq

/-- When the alarm began, up to the last pass but one. -/
def activated (ms : List Moment) : List Nat :=
  (lag 1 ms).filterMap fun p => if p.1.rose then some p.1.tick else none

/-- What is recorded of it: the time of the pass behind, if there is a reading. -/
def recorded (ms : List Moment) : List Nat :=
  (lag 1 ms).filterMap fun p => if p.1.rose && !p.2.abnormal then some p.2.tick else none

/-- From `a` to `c` it is an hour at most. -/
def WithinHour (a c : Nat) : Prop := (c + 2 ^ 32 - a) % 2 ^ 32 ≤ 3600000

instance : DecidableRel WithinHour := fun _ _ => inferInstanceAs (Decidable (_ ≤ _))

/-- How `alarm_lock` compares: `0xFFFFFFFF` is no time, and stands in for a time behind the end of the counter. -/
def Close (a c : Nat) : Prop := a ≠ 0xFFFFFFFF ∧ (if c < a then 0xFFFFFFFF else c) - a ≤ 3600 * 1000

instance : DecidableRel Close := fun _ _ => inferInstanceAs (Decidable (_ ∧ _))

/-- The comparison is wrong: a beginning at the last tick of the counter is not seen, and one in the last hour before
the counter begins again is taken to be close to every later one. -/
def Misjudged (a c : Nat) : Prop :=
  if a = 0xFFFFFFFF then WithinHour a c else c < a ∧ 0xFFFFFFFF ≤ a + 3600000 ∧ ¬WithinHour a c

instance : DecidableRel Misjudged := fun _ _ => inferInstanceAs (Decidable (ite _ _ _))

theorem not_close_none (c : Nat) : ¬Close 0xFFFFFFFF c := fun h => h.1 rfl

theorem close_iff_withinHour {a c : Nat} (ha : a < 2 ^ 32) (hc : c < 2 ^ 32) :
    (Close a c ↔ WithinHour a c) ↔ ¬Misjudged a c := by
  unfold Misjudged Close WithinHour
  by_cases hlt : c < a
  · rw [if_pos hlt]
    split <;> omega
  · rw [if_neg hlt]
    split <;> omega

/-- Two times are as far from each other as they are later. -/
theorem withinHour_shift {a c : Nat} (ha : a < 2 ^ 32) (hc : c < 2 ^ 32) (d : Nat) :
    WithinHour ((a + d) % 2 ^ 32) ((c + d) % 2 ^ 32) ↔ WithinHour a c := by
  unfold WithinHour
  omega

/-- The alarm began in the last pass. -/
def Rose (ms : List Moment) : Prop := ∃ m ∈ ms.getLast?, m.rose = true

theorem rose_snoc (ms : List Moment) (m : Moment) : Rose (ms ++ [m]) ↔ m.rose = true := by
  unfold Rose
  rw [List.getLast?_concat]
  simp

/-- A pass behind a beginning of the alarm records its own time. -/
theorem recorded_of_rose {ms : List Moment} {m : Moment} (h : Rose ms) (hm : m.abnormal = false) :
    recorded (ms ++ [m]) = recorded ms ++ [m.tick] := by
  obtain ⟨l, hl, hrose⟩ := h
  obtain ⟨pre, rfl⟩ := List.getLast?_eq_some_iff.mp hl
  unfold recorded
  rw [show lag 1 (pre ++ [l] ++ [m]) = _ from lag_snoc pre [] l m, List.filterMap_append]
  simp [hrose, hm]

theorem recorded_of_not {ms : List Moment} {m : Moment} (h : ¬(Rose ms ∧ m.abnormal = false)) :
    recorded (ms ++ [m]) = recorded ms := by
  rcases List.eq_nil_or_concat ms with rfl | ⟨pre, l, rfl⟩
  · rfl
  · rw [List.concat_eq_append, rose_snoc] at h
    unfold recorded
    rw [List.concat_eq_append, show lag 1 (pre ++ [l] ++ [m]) = _ from lag_snoc pre [] l m, List.filterMap_append]
    simp [h]

/-- What was recorded stays so. -/
theorem recorded_append (ms ms' : List Moment) : ∃ more, recorded (ms ++ ms') = recorded ms ++ more := by
  induction ms' using List.reverseRecOn with
  | nil => exact ⟨[], by simp⟩
  | append_singleton ms' m ih =>
    obtain ⟨more, hmore⟩ := ih
    rw [← List.append_assoc]
    by_cases hnew : Rose (ms ++ ms') ∧ m.abnormal = false
    · exact ⟨more ++ [m.tick], by rw [recorded_of_rose hnew.1 hnew.2, hmore, List.append_assoc]⟩
    · exact ⟨more, by rw [recorded_of_not hnew, hmore]⟩

/-- The sensor is read in the pass behind a beginning of the alarm, which comes a fixed time after it. -/
structure Prompt (d : Nat) (ms : List Moment) : Prop where
  read : ∀ p ∈ lag 1 ms, p.1.rose = true → p.2.abnormal = false
  even : ∀ p ∈ lag 1 ms, p.1.rose = true → p.2.tick = (p.1.tick + d) % 2 ^ 32
  tick : ∀ m ∈ ms, m.tick < 2 ^ 32

theorem Prompt.recorded {d : Nat} {ms : List Moment} (h : Prompt d ms) :
    recorded ms = (activated ms).map fun t => (t + d) % 2 ^ 32 := by
  unfold Spec.recorded activated
  rw [List.map_filterMap]
  refine List.filterMap_congr fun p hp => ?_
  cases hrose : p.1.rose with
  | false => rfl
  | true =>
    rw [h.read p hp hrose, h.even p hp hrose]
    rfl

/-- Then the firmware finds what it should, unless it misjudges one of the times. -/
theorem near_close_iff {d : Nat} {ms : List Moment} (h : Prompt d ms) (hjudge : ¬Near 2 Misjudged (recorded ms)) :
    Near 2 Close (recorded ms) ↔ Near 2 WithinHour (activated ms) := by
  have hrecorded : ∀ t ∈ recorded ms, t < 2 ^ 32 := by
    rw [h.recorded]
    intro t ht
    obtain ⟨_, -, rfl⟩ := List.mem_map.mp ht
    exact Nat.mod_lt _ (by decide)
  have hactivated : ∀ t ∈ activated ms, t < 2 ^ 32 := by
    intro t ht
    obtain ⟨p, hp, hsome⟩ := List.mem_filterMap.mp ht
    split at hsome
    · rw [← Option.some.inj hsome]
      exact h.tick p.1 (mem_of_mem_lag hp).1
    · exact nomatch hsome
  calc Near 2 Close (recorded ms) ↔ Near 2 WithinHour (recorded ms) := near_congr fun p hp =>
        (close_iff_withinHour (hrecorded _ (mem_of_mem_lag hp).1) (hrecorded _ (mem_of_mem_lag hp).2)).mpr fun hm =>
          hjudge ⟨p, hp, hm⟩
    _ ↔ Near 2 (fun a c => WithinHour ((a + d) % 2 ^ 32) ((c + d) % 2 ^ 32)) (activated ms) := by
        rw [h.recorded, near_map]
    _ ↔ Near 2 WithinHour (activated ms) := near_congr fun p hp =>
        withinHour_shift (hactivated _ (mem_of_mem_lag hp).1) (hactivated _ (mem_of_mem_lag hp).2) d

end WM.Spec
