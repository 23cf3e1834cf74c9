import WaterMaker.Proof.Registers.Legal
import WaterMaker.Spec.Clock

/-!
# Setting the clock

A request is a write of each half of a time, in either order, with calls of the background thread between and after
them. `Set_Systime` does not clear the flags, so that the clock is set again with every call until the delay has run
out (`fires`); a half that was left over from before makes a time of its own together with the first write
(`settime_rtc`). A half that is 0 is refused. `settime_once_iff` puts together when a request does what it should.
-/

namespace WM.Proof

open WM WM.Impl WM.Spec

variable {null : NullStore}

/-! ## Requests -/

/-- Every second until the delay has run out. -/
theorem fires_ticks (n k : Nat) : fires (n + 1) (ticks k) = min k n := by
  induction k generalizing n with
  | zero => simp [ticks, fires]
  | succ k ih =>
    show fires (n + 1) (.cooldown :: .systime :: ticks k) = _
    unfold fires
    rw [Nat.add_sub_cancel]
    unfold fires
    cases n with
    | zero => simp
    | succ n =>
      rw [if_neg (by omega), ih]
      omega

/-! ## Steps -/

/-- The registers after a half was taken. -/
def halfTaken (d : Dev) (h : Half) (v : Word) : Dev :=
  { d with
    setSystimeDelay := 10
    setSystimeFlag := d.setSystimeFlag ||| halfBit h
    conf := Function.update d.conf h.reg v }

theorem comSingle_half (h : Half) (v : Word) (d : Dev) :
    comSingle null h.reg v d = if v = 0 then .ok (.noRes, d) else .ok (.noErr, halfTaken d h v) := by
  rw [← ite_not]
  cases h with
  | low => rfl
  | high => rfl

/-- A half is taken unless it is 0. -/
theorem writeHalf_eq (h : Half) (v : Word) (d : Dev) :
    writeHalf null h v d = if v = 0 then .ok (.noRes, [], d) else .ok (.noErr, [], halfTaken d h v) := by
  have hreg : h.reg ≤ 69 := by cases h <;> decide
  have hsub : configRegMapOffset + h.reg - configRegMapOffset = h.reg := Nat.add_sub_cancel_left ..
  unfold writeHalf cpadEMBRegHoldingCB singleWrite
  rw [if_pos (by unfold cpadSRegHoldingNregs configRegMapOffset; omega)]
  dsimp only
  rw [if_neg (by unfold cpadRegHoldingWriteNregs configRegMapOffset; omega), if_pos (by omega), if_pos rfl,
    if_neg (by decide), word_bytes, hsub, comSingle_half]
  split <;> rfl

theorem clockStep_answers (c : Clock) (h : Half) (v : Word) :
    (clockStep null c (.write h v)).answers = c.answers ++ [if v = 0 then .noRes else .noErr] := by
  simp only [clockStep, writeHalf_eq]
  by_cases hv : v = 0
  · rw [if_pos hv, if_pos hv]
  · rw [if_neg hv, if_neg hv]

theorem clockStep_taken (c : Clock) (h : Half) {v : Word} (hv : v ≠ 0) : clockStep null c (.write h v) =
    { c with dev := halfTaken c.dev h v, answers := c.answers ++ [.noErr] } := by
  simp only [clockStep, writeHalf_eq, if_neg hv]

/-- Everything that `Set_Systime` does. -/
theorem setSystime_eq (c : Clock) : (setSystime c).2 =
    if c.dev.setSystimeDelay = 0 then { c with dev := { c.dev with setSystimeFlag := 0 } }
    else if c.dev.setSystimeFlag = 3 ∧ c.device = true then { c with rtc := c.rtc ++ [setTime c.dev.conf] }
    else c := by
  unfold setSystime
  by_cases hdelay : c.dev.setSystimeDelay = 0
  · rw [if_pos hdelay, if_pos hdelay]
    rfl
  · rw [if_neg hdelay, if_neg hdelay, ite_and]
    by_cases hflag : c.dev.setSystimeFlag = 3
    · rw [if_pos hflag, if_pos hflag]
      split <;> rfl
    · rw [if_neg hflag, if_neg hflag]

/-- Without both flags the clock is not set. -/
theorem setSystime_idle {c : Clock} (h : c.dev.setSystimeDelay = 0 ∨ c.dev.setSystimeFlag ≠ 3) :
    (setSystime c).2.rtc = c.rtc ∧ (setSystime c).2.dev.setSystimeFlag ≠ 3 := by
  rw [setSystime_eq]
  by_cases hdelay : c.dev.setSystimeDelay = 0
  · rw [if_pos hdelay]
    exact ⟨rfl, nofun⟩
  · have hflag := h.resolve_left hdelay
    rw [if_neg hdelay, if_neg fun h => hflag h.1]
    exact ⟨rfl, hflag⟩

/-! ## Runs of the background thread -/

theorem ticks_answers (c : Clock) (bs : List Tick) : (run (clockStep null) c (bs.map .tick)).answers = c.answers := by
  induction bs generalizing c with
  | nil => rfl
  | cons b bs ih =>
    rw [List.map_cons, run_cons, ih]
    cases b with
    | cooldown => rfl
    | systime =>
      show (setSystime c).2.answers = c.answers
      rw [setSystime_eq]
      split
      · rfl
      · split <;> rfl

theorem ticks_idle {c : Clock} (h : c.dev.setSystimeFlag ≠ 3) (bs : List Tick) :
    (run (clockStep null) c (bs.map .tick)).rtc = c.rtc := by
  induction bs generalizing c with
  | nil => rfl
  | cons b bs ih =>
    cases b with
    | cooldown => exact ih (c := { c with dev := c.dev.cooldown }) h
    | systime =>
      obtain ⟨hrtc, hflag⟩ := setSystime_idle (.inr h)
      exact (ih hflag).trans hrtc

/-- The clock is set with every call of `Set_Systime` until the delay has run out. -/
theorem ticks_rtc {c : Clock} (hdevice : c.device = true) (hflag : c.dev.setSystimeFlag = 3) (bs : List Tick) :
    (run (clockStep null) c (bs.map .tick)).rtc =
      c.rtc ++ List.replicate (fires c.dev.setSystimeDelay bs) (setTime c.dev.conf) := by
  induction bs generalizing c with
  | nil => simp [fires]
  | cons b bs ih =>
    cases b with
    | cooldown => exact ih (c := { c with dev := c.dev.cooldown }) hdevice hflag
    | systime =>
      show (run (clockStep null) (setSystime c).2 (bs.map .tick)).rtc = _
      unfold fires
      by_cases hdelay : c.dev.setSystimeDelay = 0
      · obtain ⟨hrtc, hidle⟩ := setSystime_idle (.inl hdelay)
        rw [ticks_idle hidle, hrtc, if_pos hdelay]
        simp
      · rw [setSystime_eq, if_neg hdelay, if_pos ⟨hflag, hdevice⟩,
          ih (c := { c with rtc := c.rtc ++ [setTime c.dev.conf] }) hdevice hflag, List.append_assoc, if_neg hdelay,
          List.replicate_succ]
        rfl

/-- Before the delay has run out nothing else changes. -/
theorem ticks_live {c : Clock} (hdevice : c.device = true) {bs : List Tick}
    (h : bs.count .cooldown < c.dev.setSystimeDelay) : run (clockStep null) c (bs.map .tick) =
      { c with
        dev := { c.dev with setSystimeDelay := c.dev.setSystimeDelay - bs.count .cooldown }
        rtc := c.rtc ++
          List.replicate (if c.dev.setSystimeFlag = 3 then bs.count .systime else 0) (setTime c.dev.conf) } := by
  induction bs generalizing c with
  | nil => simp
  | cons b bs ih =>
    rw [List.map_cons, run_cons]
    cases b with
    | cooldown =>
      rw [List.count_cons_self] at h
      have hlt : bs.count .cooldown < c.dev.cooldown.setSystimeDelay := Nat.lt_sub_of_add_lt h
      have hrest := ih (c := { c with dev := c.dev.cooldown }) hdevice hlt
      rw [List.count_cons_self, List.count_cons_of_ne (by decide), Nat.add_comm, Nat.sub_add_eq]
      exact hrest
    | systime =>
      rw [List.count_cons_of_ne (by decide)] at h
      have hstep : clockStep null c (.tick .systime) = _ := setSystime_eq c
      rw [hstep, if_neg (by omega), List.count_cons_of_ne (by decide), List.count_cons_self]
      by_cases hflag : c.dev.setSystimeFlag = 3
      · rw [if_pos ⟨hflag, hdevice⟩, ih (c := { c with rtc := c.rtc ++ [setTime c.dev.conf] }) hdevice h]
        simp [hflag, List.replicate_succ]
      · rw [if_neg fun h => hflag h.1, ih hdevice h, if_neg hflag, if_neg hflag]

/-! ## A request -/

/-- The halves of a time make it up. -/
theorem setTime_halves (conf : Nat → Word) (t : BitVec 32) (first : Half) :
    setTime (Function.update (Function.update conf first.reg (halfOf t first)) (otherHalf first).reg
      (halfOf t (otherHalf first))) = t := by
  have hhalves : (halfOf t .high).setWidth 32 <<< 16 ||| (halfOf t .low).setWidth 32 = t := by
    refine BitVec.eq_of_getLsbD_eq fun i hi => ?_
    simp only [halfOf, BitVec.getLsbD_or, BitVec.getLsbD_shiftLeft, BitVec.getLsbD_setWidth, BitVec.getLsbD_extractLsb']
    rcases Nat.lt_or_ge i 16 with hlow | hhigh
    · simp [hi, hlow]
    · have hlt : i - 16 < 16 := by omega
      have hlt' : i - 16 < 32 := by omega
      simp [hi, hlt, hlt', Nat.not_lt.mpr hhigh, Nat.add_sub_cancel' hhigh]
  cases first with
  | low => exact hhalves
  | high => exact hhalves

/-- Both flags are set after both writes. -/
theorem flag_halves {f : Nat} (hf : f < 4) (first : Half) : f ||| halfBit first ||| halfBit (otherHalf first) = 3 := by
  cases first with
  | low => exact (by decide : ∀ f < 4, f ||| 1 ||| 2 = 3) f hf
  | high => exact (by decide : ∀ f < 4, f ||| 2 ||| 1 = 3) f hf

theorem settime_answers (c : Clock) (first : Half) (t : BitVec 32) (between after : List Tick) :
    (run (clockStep null) c (settime first t between after)).answers = c.answers ++
      [if halfOf t first = 0 then .noRes else .noErr, if halfOf t (otherHalf first) = 0 then .noRes else .noErr] := by
  unfold settime
  rw [List.cons_append, run_cons, run_append, run_cons, ticks_answers, clockStep_answers, ticks_answers,
    clockStep_answers, List.append_assoc]
  rfl

/-- The times that the clock is set to by a request whose halves are taken. If the other half is left over from
before, the first write makes a time with it. -/
theorem settime_rtc {c : Clock} (hdevice : c.device = true) (hflag : c.dev.setSystimeFlag < 4) {t : BitVec 32}
    (first : Half) {between : List Tick} (hbetween : between.count .cooldown < 10) (after : List Tick)
    (h1 : halfOf t first ≠ 0) (h2 : halfOf t (otherHalf first) ≠ 0) :
    (run (clockStep null) c (settime first t between after)).rtc = c.rtc ++
      List.replicate (if c.dev.setSystimeFlag ||| halfBit first = 3 then between.count .systime else 0)
        (setTime (Function.update c.dev.conf first.reg (halfOf t first))) ++
      List.replicate (fires 10 after) t := by
  unfold settime
  rw [List.cons_append, run_cons, run_append, run_cons, clockStep_taken c first h1,
    ticks_live (c := { c with dev := halfTaken c.dev first (halfOf t first), answers := _ }) hdevice hbetween,
    clockStep_taken _ _ h2]
  refine (ticks_rtc ?_ ?_ after).trans ?_
  · exact hdevice
  · exact flag_halves hflag first
  · show _ ++ List.replicate (fires 10 after) (setTime (Function.update (Function.update _ _ _) _ _)) = _
    rw [setTime_halves]
    rfl

theorem device_step (c : Clock) (e : ClockEvent) (h : c.device = true) : (clockStep null c e).device = true := by
  match e with
  | .write half v =>
    unfold clockStep
    dsimp only
    split <;> exact h
  | .tick .cooldown => exact h
  | .tick .systime =>
    show (setSystime c).2.device = true
    rw [setSystime_eq]
    split
    · exact h
    · split <;> exact h

/-- The flags are two bits. -/
theorem flag_step (c : Clock) (e : ClockEvent) (h : c.dev.setSystimeFlag < 4) :
    (clockStep null c e).dev.setSystimeFlag < 4 := by
  match e with
  | .write half v =>
    by_cases hv : v = 0
    · simpa only [clockStep, writeHalf_eq, if_pos hv] using h
    · rw [clockStep_taken c half hv]
      exact Nat.or_lt_two_pow (n := 2) h (by cases half <;> decide)
  | .tick .cooldown => exact h
  | .tick .systime =>
    show (setSystime c).2.dev.setSystimeFlag < 4
    rw [setSystime_eq]
    split
    · exact Nat.zero_lt_succ 3
    · split <;> exact h

theorem replicate_once {α : Type} {a b : α} {m n : Nat} : List.replicate m a ++ List.replicate n b = [b] ↔
    m = 0 ∧ n = 1 ∨ m = 1 ∧ n = 0 ∧ a = b := by
  constructor
  · intro h
    have hlen : m + n = 1 := by simpa using congrArg List.length h
    rcases Nat.eq_zero_or_pos m with hm | hm
    · exact .inl ⟨hm, by omega⟩
    · obtain ⟨rfl, rfl⟩ : m = 1 ∧ n = 0 := by omega
      exact .inr ⟨rfl, rfl, by simpa using h⟩
  · rintro (⟨rfl, rfl⟩ | ⟨rfl, rfl, rfl⟩) <;> rfl

/-- After every history, for every time and either order of the two writes, with fewer than ten calls of
`sys_comp_cooldown` between them: both are taken exactly if neither half is 0. Then the clock is set to the time once
for every call of `Set_Systime` until the delay has run out, which is nine seconds, or nine and a call if the second
write comes just before it. If the other half was left over, the clock is also set to a mixture, once for every call
between the writes. So it is set once, and to the time, exactly if this is so of one call. -/
theorem settime_once_iff (d : Dev) (hd : d.setSystimeFlag = 0) (history : List ClockEvent) (t : BitVec 32)
    (first : Half) (between after : List Tick) (hbetween : between.count .cooldown < 10) :
    let c := run (clockStep null) ⟨d, true, [], []⟩ history
    let c' := run (clockStep null) c (settime first t between after)
    let leftOver := c.dev.setSystimeFlag ||| halfBit first = 3
    let mixture := setTime (Function.update c.dev.conf first.reg (halfOf t first))
    (c'.answers = c.answers ++ [.noErr, .noErr] ↔ halfOf t .low ≠ 0 ∧ halfOf t .high ≠ 0) ∧
    (c'.answers = c.answers ++ [.noErr, .noErr] →
      c'.rtc = c.rtc ++ List.replicate (if leftOver then between.count .systime else 0) mixture ++
        List.replicate (fires 10 after) t ∧
      (c'.rtc = c.rtc ++ [t] ↔ ((leftOver → .systime ∉ between) ∧ fires 10 after = 1) ∨
        (leftOver ∧ mixture = t ∧ between.count .systime = 1 ∧ fires 10 after = 0))) ∧
    ∀ k, fires 10 (ticks k) = min k 9 ∧ fires 10 (.systime :: ticks k) = min k 9 + 1 := by
  intro c c' leftOver mixture
  have hdevice : c.device = true := run_keeps (I := fun c : Clock => c.device = true) device_step rfl history
  have hflag : c.dev.setSystimeFlag < 4 :=
    run_keeps (I := fun c : Clock => c.dev.setSystimeFlag < 4) flag_step (show d.setSystimeFlag < 4 by omega) history
  have hanswers : c'.answers = c.answers ++ [.noErr, .noErr] ↔ halfOf t first ≠ 0 ∧ halfOf t (otherHalf first) ≠ 0 := by
    rw [settime_answers, List.append_cancel_left_eq]
    simp
  refine ⟨hanswers.trans ?_, fun hok => ?_, fun k => ⟨fires_ticks 9 k, ?_⟩⟩
  · cases first with
    | low => rfl
    | high => exact and_comm
  · obtain ⟨h1, h2⟩ := hanswers.mp hok
    have hrtc : c'.rtc = _ := settime_rtc hdevice hflag first hbetween after h1 h2
    refine ⟨hrtc, ?_⟩
    rw [hrtc, List.append_assoc, List.append_cancel_left_eq, replicate_once]
    by_cases hleft : leftOver
    · rw [if_pos hleft, List.count_eq_zero]
      simp only [hleft, true_implies, true_and]
      exact or_congr_right and_rotate.symm
    · rw [if_neg hleft]
      simp [hleft]
  · show fires 10 (ticks k) + 1 = _
    rw [fires_ticks 9 k]

/-- The controller after power-on. -/
def freshClock : Clock := ⟨freshDev, true, [], []⟩

/-- A second between the writes and one after them: the clock is set once. -/
theorem settime_once_iff_second :
    let c := run (clockStep .fault) freshClock (settime .low 0x00010002 (ticks 1) (ticks 1))
    c.answers = [.noErr, .noErr] ∧ c.rtc = [0x00010002] := by
  obtain ⟨hanswers, hrtc, -⟩ := settime_once_iff freshDev rfl [] 0x00010002 .low (ticks 1) (ticks 1) (by decide)
  have hok := hanswers.mpr (by decide)
  exact ⟨hok, (hrtc hok).2.mpr (.inl ⟨fun hleft => absurd hleft (by decide), by decide⟩)⟩

/-- Ten seconds after both writes the clock has been set nine times. A time whose low half is 0 is not taken. And if a
second time is sent before the delay of the first has run out, the clock is set to a mixture of both. -/
theorem settime_repeated :
    (run (clockStep .fault) freshClock (settime .low 0x00010002 [] (ticks 10))).rtc = List.replicate 9 0x00010002 ∧
    (run (clockStep .fault) freshClock (settime .low 0x00010000 [] (ticks 10))).answers = [.noRes, .noErr] ∧
    (run (clockStep .fault) freshClock (settime .low 0x00010000 [] (ticks 10))).rtc = [] ∧
    (run (clockStep .fault) freshClock
      (settime .low 0x00010002 [] (ticks 1) ++ settime .low 0x00030004 (ticks 1) (ticks 1))).rtc =
      [0x00010002, 0x00010004, 0x00030004] := by
  decide +kernel

end WM.Proof
