import WaterMaker.Impl.Config
import WaterMaker.Spec.Restart

/-!
# The restarts of the display

A call of `Restart_DIS_exe` is a call of the supervision (`watchOf_restartDisExe`) as long as its registers are in
range, which they stay. `display_supervised` is about every run of calls with constant settings, whatever the enable
input, the display and the network do: the restarts are limited exactly if their number, which has 12 bits, is one of
the 8 bits that count them; and each of them requests the power off for one call more than `CLOSE_TIME`, less those
that it had made when the supervision was disabled during it.
-/

namespace WM.Proof

open WM WM.Impl WM.Spec

def watchOf (s : Sys) : Watch where
  cycle := s.dis.closeTime0
  count := s.dis.closeTime1
  lock := s.dis.rsInteral
  uart := s.dis.uartTimeout1
  net := s.dis.neterrDelay
  restart := s.dis.restart != 0
  off := s.reqBit .pwrCtrl

/-- What a call finds. -/
def foundBy (s : Sys) : Scene := ⟨s.diSts .hiPress2, false, s.cfg.netErr != 0⟩

variable {c : Settings} {s : Sys}

theorem watchOf_off (s : Sys) (on : Bool) : watchOf (reqBitmapOp .pwrCtrl on s) = { watchOf s with off := on } := by
  have hbit : (reqBitmapOp .pwrCtrl on s).reqBit .pwrCtrl = on := by rw [reqBit_reqBitmapOp, if_pos rfl]
  unfold watchOf
  rw [hbit]
  rfl

theorem watchOf_restartHold (hs : c.In s) (hr : Ranged c.plan (watchOf s)) :
    watchOf (restartHold s) = (watchOf s).lockOut c.plan := by
  have hword := c.word
  have hlock : s.dis.rsInteral ≤ c.delay / 256 * 3600 * 2 := hr.lock
  have hnext : (s.dis.rsInteral + 1) % 4294967296 = s.dis.rsInteral + 1 := Nat.mod_eq_of_lt (by omega)
  unfold restartHold
  rw [hnext, hs.2, watchOf_off]
  rfl

/-- A clock stops at the holding time. -/
theorem capped (k hold : Nat) : (if k ≥ hold then hold else k) = min k hold := by
  split <;> omega

/-- A restart is due with either bit. -/
theorem due_iff (r u n netErr hold : Nat) :
    ((if netErr ≠ 0 ∧ n ≥ hold then (if u ≥ hold then r ||| 1 else r) ||| 3 else if u ≥ hold then r ||| 1 else r) != 0) =
      ((r != 0) || decide (hold ≤ u) || ((netErr != 0) && decide (hold ≤ n))) := by
  have hor : ∀ a b : Nat, 0 < b → ((a ||| b) != 0) = true := fun a b hb => by
    rw [bne_iff_ne]
    exact fun h => absurd (Nat.or_eq_zero_iff.mp h).2 (by omega)
  by_cases hnet : netErr ≠ 0 ∧ n ≥ hold
  · rw [if_pos hnet, hor _ _ (by decide), bne_iff_ne.mpr hnet.1, decide_eq_true hnet.2, Bool.and_true, Bool.or_true]
  · have hnone : ((netErr != 0) && decide (hold ≤ n)) = false := by
      rw [Bool.eq_false_iff]
      simpa using hnet
    rw [if_neg hnet, hnone, Bool.or_false]
    by_cases huart : u ≥ hold
    · rw [if_pos huart, hor _ _ (by decide), decide_eq_true huart, Bool.or_true]
    · rw [if_neg huart, decide_eq_false huart, Bool.or_false]

theorem watchOf_restartCount (hs : c.In s) (hr : Ranged c.plan (watchOf s)) :
    watchOf (restartCount s) = (watchOf s).listen c.plan (foundBy s) := by
  have huart : s.dis.uartTimeout1 ≤ c.delay % 256 * 60 * 2 := hr.uart
  have hnet : s.dis.neterrDelay ≤ c.delay % 256 * 60 * 2 := hr.net
  have hu : (s.dis.uartTimeout1 + 1) % 65536 = s.dis.uartTimeout1 + 1 := Nat.mod_eq_of_lt (by omega)
  have hn : (s.dis.neterrDelay + 1) % 65536 = s.dis.neterrDelay + 1 := Nat.mod_eq_of_lt (by omega)
  unfold restartCount
  rw [hu, hn, hs.2]
  refine Watch.ext rfl rfl rfl (capped ..) ?_ (due_iff ..) rfl
  change (if s.cfg.netErr = 0 then s.dis.neterrDelay else _) =
    if s.cfg.netErr != 0 then min (s.dis.neterrDelay + 1) c.plan.hold else s.dis.neterrDelay
  rw [capped]
  by_cases h : s.cfg.netErr = 0
  · simp [h]
  · simp [h]
    rfl

theorem watchOf_restartPower (hr : s.dis.closeTime0 ≤ 5) :
    watchOf (restartPower s) = (watchOf s).power c.plan := by
  have hnext : (s.dis.closeTime0 + 1) % 256 = s.dis.closeTime0 + 1 := Nat.mod_eq_of_lt (by omega)
  unfold restartPower Watch.power
  rw [hnext]
  by_cases hzero : s.dis.restart = 0
  · have hrest : (watchOf s).restart = false := by
      change (s.dis.restart != 0) = false
      rw [hzero]
      rfl
    rw [if_pos hzero, if_neg (by rw [hrest]; exact Bool.false_ne_true), watchOf_off]
  · have hrest : (watchOf s).restart = true := bne_iff_ne.mpr hzero
    rw [if_neg hzero, if_pos hrest]
    by_cases hclose : s.dis.closeTime0 + 1 ≤ 5
    · rw [if_pos hclose, if_pos (by exact hclose), watchOf_off]
      rfl
    · rw [if_neg hclose, if_neg (by exact hclose)]
      rfl

/-- `Restart_DIS_exe` is a call of the supervision. -/
theorem watchOf_restartDisExe (hs : c.In s) (hr : Ranged c.plan (watchOf s)) :
    watchOf (restartDisExe s) = (watchOf s).call c.plan (foundBy s) := by
  have henable : closeDisEnable s = (foundBy s).enable := by
    unfold closeDisEnable
    rw [hs.1, c.enabled]
    rfl
  unfold restartDisExe Watch.call
  rw [henable, hs.1]
  split
  · rw [watchOf_off]
    rfl
  · split
    · rename_i hmax
      rw [if_pos (by exact hmax)]
      exact watchOf_restartHold hs hr
    · rename_i hmax
      rw [if_neg (by exact hmax), watchOf_restartPower (c := c) (by exact hr.cycle), watchOf_restartCount hs hr]

/-! ## Runs -/

def watchedOf (v : Vigil) : Overseen where
  watch := ⟨v.dis.closeTime0, v.dis.closeTime1, v.dis.rsInteral, v.dis.uartTimeout1, v.dis.neterrDelay,
    v.dis.restart != 0, v.off⟩
  tally := v.tally

def sceneOf (x : Sys) : Scene := ⟨x.diSts .hiPress2, x.dis.uartTimeout1 == 0, x.cfg.netErr != 0⟩

section step

variable {v : Vigil} {x : Sys}

theorem watchOf_withVigil (v : Vigil) (x : Sys) : watchOf (withVigil v x) =
    { (watchedOf v).watch with uart := if (sceneOf x).spoke then 0 else (watchedOf v).watch.uart } := by
  unfold withVigil
  rw [watchOf_off]
  refine Watch.ext rfl rfl rfl ?_ rfl rfl rfl
  change (if x.dis.uartTimeout1 = 0 then 0 else v.dis.uartTimeout1) =
    if (x.dis.uartTimeout1 == 0) = true then 0 else v.dis.uartTimeout1
  simp only [beq_iff_eq]

theorem closeDisEnable_withVigil (hx : c.In x) : closeDisEnable (withVigil v x) = (sceneOf x).enable := by
  unfold closeDisEnable
  rw [show (withVigil v x).cfg.restartEnable = c.enable from hx.1, c.enabled]
  rfl

theorem watchOf_call (hx : c.In x) (hr : Ranged c.plan (watchedOf v).watch) :
    watchOf (restartDisExe (withVigil v x)) = (watchedOf v).watch.call c.plan (sceneOf x) := by
  have hrange : Ranged c.plan (watchOf (withVigil v x)) := by
    rw [watchOf_withVigil]
    refine ⟨hr.cycle, hr.lock, ?_, hr.net⟩
    split
    · exact Nat.zero_le _
    · exact hr.uart
  have hin : c.In (withVigil v x) := hx
  rw [watchOf_restartDisExe hin hrange, watchOf_withVigil, ← call_spoke]
  rfl

theorem restarts_eq (hx : c.In x) (hr : Ranged c.plan (watchedOf v).watch) :
    restarts v x = (watchedOf v).watch.completes c.plan (sceneOf x) := by
  unfold restarts Watch.completes
  rw [← watchOf_call hx hr]
  rfl

/-- A call of a run is a step of the supervision with its observer. -/
theorem watchedOf_vigilStep (hx : c.In x) (hr : Ranged c.plan (watchedOf v).watch) :
    watchedOf (vigilStep v x) = watchStep c.plan (watchedOf v) (sceneOf x) := by
  have hcall := watchOf_call hx hr
  have hrests : restsAt v x = (watchedOf v).watch.rests c.plan (sceneOf x) := by
    unfold restsAt Watch.rests
    rw [closeDisEnable_withVigil hx, hx.1]
    rfl
  unfold vigilStep watchStep
  rw [← hcall, ← hrests, ← restarts_eq hx hr]
  rfl

end step

theorem ranged_start (c : Settings) : Ranged c.plan (watchedOf .start).watch :=
  ⟨Nat.zero_le _, Nat.zero_le _, Nat.zero_le _, Nat.zero_le _⟩

theorem ranged_vigilStep {v : Vigil} {x : Sys} (hx : c.In x) (hr : Ranged c.plan (watchedOf v).watch) :
    Ranged c.plan (watchedOf (vigilStep v x)).watch := by
  rw [watchedOf_vigilStep hx hr]
  exact hr.call (sceneOf x)

/-- A run of calls is a run of the supervision. -/
theorem watchedOf_run {v : Vigil} (hr : Ranged c.plan (watchedOf v).watch) {xs : List Sys} (hxs : ∀ x ∈ xs, c.In x) :
    watchedOf (run vigilStep v xs) = run (watchStep c.plan) (watchedOf v) (xs.map sceneOf) := by
  induction xs generalizing v with
  | nil => rfl
  | cons x xs ih =>
    obtain ⟨hx, hxs⟩ := List.forall_mem_cons.mp hxs
    rw [run_cons, ih (ranged_vigilStep hx hr) hxs, watchedOf_vigilStep hx hr]
    rfl

/-- A display of which nothing is heard. -/
def silentDisplay (c : Settings) : Sys :=
  boot { defaultConfig with restartEnable := c.enable, restartDelay := c.delay } { quiet with din := 0xFFFF }
    |> setDis (fun d => { d with uartTimeout1 := 1 })

theorem sceneOf_silentDisplay (c : Settings) : sceneOf (silentDisplay c) = silence := by
  have hbit : (0xFFFF : BitVec 16).getLsbD Di.hiPress2.bpos = true := by decide
  unfold sceneOf
  rw [show (silentDisplay c).diSts .hiPress2 = true from hbit]
  rfl

theorem in_of_mem_silence {n : Nat} : ∀ x ∈ List.replicate n (silentDisplay c), c.In x := fun x hx => by
  rw [List.eq_of_mem_replicate hx]
  exact ⟨rfl, rfl⟩

/-- A silence of the display is one of the supervision. -/
theorem watchedOf_silence (c : Settings) (n : Nat) :
    watchedOf (run vigilStep .start (List.replicate n (silentDisplay c))) =
      run (watchStep c.plan) .start (List.replicate n silence) := by
  rw [watchedOf_run (ranged_start c) in_of_mem_silence, List.map_replicate, sceneOf_silentDisplay]
  rfl

theorem restartsLimited_iff (c : Settings) : RestartsLimited c ↔ maxTimes c.enable ≤ 255 := by
  constructor
  · intro h
    by_contra hlarge
    have hword : c.plan.word ≤ c.plan.max := Nat.not_le.mp hlarge
    obtain ⟨n, hsilent⟩ := unbounded hword (c.plan.max + 1)
    have hdone : (run vigilStep .start (List.replicate n (silentDisplay c))).tally.done = c.plan.max + 1 := by
      rw [← hsilent.done, ← watchedOf_silence]
      rfl
    have hle := h (List.replicate n (silentDisplay c)) in_of_mem_silence
    rw [hdone] at hle
    exact absurd hle (Nat.not_succ_le_self _)
  · intro hsmall xs hxs
    have hbound := bounded (p := c.plan) (Nat.lt_succ_of_le hsmall) (xs.map sceneOf)
    rw [← show watchedOf .start = Overseen.start from rfl, ← watchedOf_run (ranged_start c) hxs] at hbound
    exact hbound

/-! ## The time of a restart -/

/-- What holds along every run. -/
structure Watching (c : Settings) (v : Vigil) : Prop where
  ranged : Ranged c.plan (watchedOf v).watch
  inStep : InStep c.plan (watchedOf v)

theorem watching_start (c : Settings) : Watching c .start :=
  ⟨ranged_start c, .idle rfl (Nat.zero_le _) rfl rfl rfl⟩

theorem watching_vigilStep {v : Vigil} {x : Sys} (h : Watching c v) (hx : c.In x) : Watching c (vigilStep v x) := by
  refine ⟨ranged_vigilStep hx h.ranged, ?_⟩
  rw [watchedOf_vigilStep hx h.ranged]
  exact inStep_watchStep h.inStep (sceneOf x)

theorem watching_run (xs : List Sys) (hxs : ∀ x ∈ xs, c.In x) : Watching c (run vigilStep .start xs) :=
  (Along.of_forall hxs).run_inv (I := Watching c) (fun _ _ h hx => watching_vigilStep h hx) (watching_start c)

/-- The calls with the power off up to the one that completes a restart; the next withdraws the request. -/
theorem time_of_restart {v : Vigil} {x : Sys} (h : Watching c v) (hx : c.In x) (hdone : restarts v x = true) :
    (vigilStep v x).tally.on = (if v.tally.resumed = 5 then 0 else 6 - v.tally.resumed) ∧
      ∀ y, c.In y → (vigilStep (vigilStep v x) y).off = false := by
  rw [restarts_eq hx h.ranged] at hdone
  obtain ⟨htime, hback⟩ := restart_time h.inStep hdone
  rw [← watchedOf_vigilStep hx h.ranged] at htime hback
  refine ⟨htime, fun y hy => ?_⟩
  have hnext := hback (sceneOf y)
  rw [← watchedOf_vigilStep hy (ranged_vigilStep hx h.ranged)] at hnext
  exact hnext

/-- In a run that does not disable the supervision during a restart none is taken up again. -/
theorem whole_run {xs : List Sys} {x : Sys} (hin : ∀ y ∈ xs ++ [x], c.In y)
    (hrun : Along vigilStep Unbroken .start (xs ++ [x])) (hdone : restarts (run vigilStep .start xs) x = true) :
    (run vigilStep .start xs).tally.resumed = 0 := by
  have huncut : ∀ v y, Unbroken v y → c.In y → Uncut (watchedOf v) (sceneOf y) := fun v y hu hy he =>
    hu ((closeDisEnable_withVigil hy).trans he)
  obtain ⟨hruns, ⟨-, hx⟩, -⟩ := Along.append.mp (hrun.and (Along.of_forall hin))
  have hv := hruns.run_inv (I := fun v => Watching c v ∧ FullTime c.plan (watchedOf v)) (fun v y h hy => by
    refine ⟨watching_vigilStep h.1 hy.2, ?_⟩
    rw [watchedOf_vigilStep hy.2 h.1.ranged]
    exact h.2.watchStep (huncut v y hy.1 hy.2)) ⟨watching_start c, (watching_start c).inStep, fun _ => rfl, nofun⟩
  rw [restarts_eq hx hv.1.ranged] at hdone
  exact hv.2.resumed_of_due (due_of_completes hdone).2.2.1

/-- A silent display is restarted, and its power is off for six calls. -/
theorem restartsInTime_iff (c : Settings) : RestartsInTime c ↔ maxTimes c.enable = 0 := by
  constructor
  · intro h
    by_contra hpos
    obtain ⟨n, -, hdone⟩ := silent_round (p := c.plan) (n := 0) (x := .start)
      (by rw [Nat.zero_mod]; exact Nat.pos_of_ne_zero hpos) ⟨rfl, rfl, rfl, (Nat.zero_mod _).symm, rfl⟩
    have hin : ∀ y ∈ List.replicate n (silentDisplay c) ++ [silentDisplay c], c.In y := by
      rw [← List.replicate_succ']
      exact in_of_mem_silence
    have hx : c.In (silentDisplay c) := ⟨rfl, rfl⟩
    have hv := watching_run (c := c) (List.replicate n (silentDisplay c)) in_of_mem_silence
    rw [← watchedOf_silence, ← sceneOf_silentDisplay c, ← restarts_eq hx hv.ranged] at hdone
    have hunbroken : Along vigilStep Unbroken .start (List.replicate n (silentDisplay c) ++ [silentDisplay c]) := by
      refine Along.mono (fun v y hy he => ?_) (Along.of_forall (E := fun y => y = silentDisplay c) fun y hy => ?_)
      · rw [hy, closeDisEnable_withVigil hx, sceneOf_silentDisplay] at he
        exact absurd he nofun
      · rw [← List.replicate_succ'] at hy
        exact List.eq_of_mem_replicate hy
    have htime := (time_of_restart hv hx hdone).1
    rw [whole_run hin hunbroken hdone, h _ _ hin hdone] at htime
    exact absurd htime (by decide)
  · intro hzero xs x hin hdone
    have hx : c.In x := hin x (List.mem_append_right _ (List.mem_singleton_self x))
    have hv := watching_run (c := c) xs fun y hy => hin y (List.mem_append_left _ hy)
    rw [restarts_eq hx hv.ranged] at hdone
    have hlt : _ < maxTimes c.enable := (due_of_completes hdone).2.1
    rw [hzero] at hlt
    exact absurd hlt (Nat.not_lt_zero _)

/-- For all settings with a holding time of at least a minute, and every run of calls: the restarts are limited
exactly if their number is at most 255, and their time is right only if there are none. A restart that is completed
has had the request on after six consecutive calls, less those that it had made when it was disabled, and after none
if it had made all five; so it is five calls just if it was disabled after the first, and six in every run that does
not disable the supervision during a restart. The request is withdrawn with the call after. -/
theorem display_supervised (c : Settings) : (RestartsLimited c ↔ maxTimes c.enable ≤ 255) ∧
    (RestartsInTime c ↔ maxTimes c.enable = 0) ∧
    ∀ xs x, (∀ y ∈ xs ++ [x], c.In y) →
      let v := run vigilStep .start xs
      restarts v x = true →
        (vigilStep v x).tally.on = (if v.tally.resumed = 5 then 0 else 6 - v.tally.resumed) ∧
        ((vigilStep v x).tally.on = 5 ↔ v.tally.resumed = 1) ∧
        (Along vigilStep Unbroken .start (xs ++ [x]) → (vigilStep v x).tally.on = 6) ∧
        ∀ y, c.In y → (vigilStep (vigilStep v x) y).off = false := by
  refine ⟨restartsLimited_iff c, restartsInTime_iff c, fun xs x hin => ?_⟩
  intro v hdone
  have hx : c.In x := hin x (List.mem_append_right _ (List.mem_singleton_self x))
  have hv : Watching c v := watching_run _ fun y hy => hin y (List.mem_append_left _ hy)
  obtain ⟨htime, hback⟩ := time_of_restart hv hx hdone
  refine ⟨htime, ?_, fun hrun => ?_, hback⟩
  · rw [htime]
    split <;> omega
  · rw [htime, whole_run hin hrun hdone]
    rfl

/-- Three restarts, a minute, twelve hours. -/
def oneMinute : Settings := ⟨0x8003, 0x0C01, by decide, by decide, by decide⟩

/-- A display of which nothing is heard while the supervision is disabled. -/
def disabledDisplay (c : Settings) : Sys :=
  boot { defaultConfig with restartEnable := c.enable, restartDelay := c.delay } quiet
    |> setDis (fun d => { d with uartTimeout1 := 1 })

/-- A restart that is disabled after its first call is completed with five consecutive calls. -/
theorem display_supervised_oneMinute :
    let xs := List.replicate 120 (silentDisplay oneMinute) ++ [disabledDisplay oneMinute] ++
      List.replicate 123 (silentDisplay oneMinute)
    let v := run vigilStep .start xs
    restarts v (silentDisplay oneMinute) = true ∧ (vigilStep v (silentDisplay oneMinute)).tally.on = 5 ∧
      RestartsLimited oneMinute := by
  intro xs v
  have hin : ∀ y ∈ xs ++ [silentDisplay oneMinute], oneMinute.In y := by
    intro y hy
    simp only [xs, List.mem_append, List.mem_replicate, List.mem_singleton] at hy
    rcases hy with ((⟨-, rfl⟩ | rfl) | ⟨-, rfl⟩) | rfl <;> exact ⟨rfl, rfl⟩
  have hdone : restarts v (silentDisplay oneMinute) = true ∧ v.tally.resumed = 1 := by decide +kernel
  obtain ⟨hlimit, -, htime⟩ := display_supervised oneMinute
  exact ⟨hdone.1, (htime xs _ hin hdone.1).2.1.mpr hdone.2, hlimit.mpr (by decide)⟩

/-- The same with 256 restarts. -/
def manyRestarts : Settings := ⟨0x8100, 0x0C01, by decide, by decide, by decide⟩

/-- After a minute of silence the display is without power for six calls. A restart that is disabled after three calls
is completed with three more. A limit of 256 restarts is none. -/
theorem display_unsupervised :
    (let v := run vigilStep .start (List.replicate 124 (silentDisplay oneMinute))
     restarts v (silentDisplay oneMinute) = true ∧ (vigilStep v (silentDisplay oneMinute)).tally.on = 6 ∧
       (vigilStep (vigilStep v (silentDisplay oneMinute)) (silentDisplay oneMinute)).off = false) ∧
    (let v := run vigilStep .start (List.replicate 122 (silentDisplay oneMinute) ++ [disabledDisplay oneMinute] ++
       List.replicate 121 (silentDisplay oneMinute))
     restarts v (silentDisplay oneMinute) = true ∧ (vigilStep v (silentDisplay oneMinute)).tally.on = 3) ∧
    maxTimes manyRestarts.enable = 256 ∧ ¬RestartsLimited manyRestarts := by
  refine ⟨by decide +kernel, by decide +kernel, by decide, ?_⟩
  rw [restartsLimited_iff]
  decide

end WM.Proof
