import WaterMaker.Proof.Alarm.Notes
import WaterMaker.Proof.Sensor

/-!
# Calls that are left out

`alarm_acl_exe` evaluates the alarms on every second call, `AM_Sensor_update` reads the sensor on every sixth. Both
count their calls in 8 bits and start again at 255, which neither 2 nor 6 divides. `dividers_spaced_iff` finds the
calls that come too early in runs of any length: those whose number is a multiple of 255.
-/

namespace WM.Proof

open WM WM.Impl WM.Spec

/-! ## The alarms -/

theorem results_turns (x : Recorded) (as : List Acl) :
    (run record x as).results.length = x.results.length + as.length := by
  induction as generalizing x with
  | nil => rfl
  | cons a as ih =>
    have hone : (record x a).results.length = x.results.length + 1 := List.length_cons ..
    rw [run_cons, ih, hone, List.length_cons]
    omega

theorem evaluates_iff (x : Recorded) : Evaluates x ↔ effective x.sys = true := by
  show (recordPass x).results ≠ x.results ↔ _
  cases he : effective x.sys with
  | false => simp [recordPass_idle he]
  | true =>
    refine iff_of_true (fun heq => ?_) rfl
    have hlen := congrArg List.length heq
    rw [recordPass_turns he] at hlen
    have hturns := results_turns { x with sys := countPass x.sys } Acl.all
    have hall : Acl.all.length = 23 := rfl
    dsimp only at hlen hturns
    omega

theorem evaluates_run (c : Config) (i : Inputs) (es : List AlarmEvent) :
    Evaluates (run recordStep (alarmBoot c i) es) ↔ Divider.Passes 255 2 (calls es + 1) :=
  (evaluates_iff _).trans (effective_run c i es)

/-! ## The sensor -/

theorem nextCnt_calls (n : Nat) : nextCnt (n % 255) = (n + 1) % 255 := by
  unfold nextCnt
  split <;> omega

theorem u8CNT_sensorPublish {cali : TempHum} {s s' : Sensor} (h : sensorPublish cali s = .ok s') :
    s'.u8CNT = s.u8CNT := by
  unfold sensorPublish at h
  cases ht : thMean cali.temp (s.thAve.map TempHum.temp) with
  | error e => rw [ht] at h; exact nomatch h
  | ok t =>
    cases hh : thMean cali.hum (s.thAve.map TempHum.hum) with
    | error e => rw [ht, hh] at h; exact nomatch h
    | ok u =>
      rw [ht, hh] at h
      cases h
      rfl

theorem u8CNT_sensorAccept (b : TempHum) (s : Sensor) : (sensorAccept b s).u8CNT = s.u8CNT := by
  unfold sensorAccept
  split_ifs <;> rfl

theorem u8CNT_sensorRead (r : Byte × TempHum) (s : Sensor) : (sensorRead r s).u8CNT = s.u8CNT := by
  unfold sensorRead
  split <;> rfl

theorem u8CNT_sensorUpdate {r : Byte × TempHum} {cali : TempHum} {s : Sensor} {q : Byte × Sensor}
    (h : sensorUpdate r cali s = .ok q) : q.2.u8CNT = nextCnt s.u8CNT := by
  by_cases hread : readsNow s
  · have hsensor := u8CNT_sensorRead r { s with u8CNT := nextCnt s.u8CNT }
    rw [sensorUpdate_reads cali hread rfl] at h
    split at h
    · cases h
      exact hsensor
    · split at h
      · cases hp : sensorPublish cali
            (sensorAccept (sensorBuff r) (sensorRead r { s with u8CNT := nextCnt s.u8CNT })) with
        | error e => rw [hp] at h; exact nomatch h
        | ok s' =>
          rw [hp] at h
          cases h
          exact ((u8CNT_sensorPublish hp).trans (u8CNT_sensorAccept _ _)).trans hsensor
      · cases h
        exact hsensor
  · have hskip : sensorUpdate r cali s = .ok (0, { s with u8CNT := nextCnt s.u8CNT }) := if_pos hread
    rw [hskip] at h
    cases h
    rfl

theorem u8CNT_sensorCalls {s s' : Sensor} {rs : List ((Byte × TempHum) × TempHum)} {n : Nat}
    (hs : s.u8CNT = n % 255) (h : sensorCalls s rs = .ok s') : s'.u8CNT = (n + rs.length) % 255 := by
  induction rs generalizing s n with
  | nil => cases h; exact hs
  | cons r rs ih =>
    unfold sensorCalls at h
    rw [List.foldlM_cons] at h
    cases hq : sensorUpdate r.1 r.2 s with
    | error e => rw [hq] at h; exact nomatch h
    | ok q =>
      rw [hq] at h
      have hcnt : q.2.u8CNT = (n + 1) % 255 := by rw [u8CNT_sensorUpdate hq, hs, nextCnt_calls]
      rw [ih hcnt h, List.length_cons]
      congr 1
      omega

theorem readsNow_calls {s : Sensor} {n : Nat} (hs : s.u8CNT = n % 255) :
    readsNow s ↔ Divider.Passes 255 6 (n + 1) := by
  unfold readsNow Divider.Passes
  rw [hs, nextCnt_calls]

/-! ## Both -/

/-- For every run of the machine from power-up: of two calls of `alarm_acl_exe` with none between, both evaluate the
alarms exactly if the second one's number is a multiple of 255; and of two calls of `AM_Sensor_update` less than six
apart, whatever the sensor answers, both read the sensor exactly if they are three apart and the second one's number is
a multiple of 255. -/
theorem dividers_spaced_iff (c : Config) (i : Inputs) (es es' : List AlarmEvent)
    (rs rs' : List ((Byte × TempHum) × TempHum)) :
    (calls es' = 0 →
      (Evaluates (run recordStep (alarmBoot c i) es) ∧ Evaluates (run recordStep (alarmBoot c i) (es ++ .pass :: es')) ↔
        255 ∣ calls es + 2)) ∧
    ∀ s s' : Sensor, sensorCalls .init rs = .ok s → sensorCalls s rs' = .ok s' → 0 < rs'.length → rs'.length < 6 →
      (readsNow s ∧ readsNow s' ↔ rs'.length = 3 ∧ 255 ∣ rs.length + rs'.length + 1) := by
  refine ⟨fun hes => ?_, fun s s' hs hs' hpos hlt => ?_⟩
  · have hcalls : calls (es ++ .pass :: es') = calls es + 1 := by
      show (es ++ .pass :: es').countP AlarmEvent.isPass = _
      rw [List.countP_append, List.countP_cons]
      show calls es + (calls es' + 1) = _
      rw [hes]
    rw [evaluates_run, evaluates_run, hcalls,
      Divider.close_iff (show 2 ≤ 255 by omega) Nat.one_pos (show 1 < 2 by omega)]
    exact and_iff_right rfl
  · have hfirst := u8CNT_sensorCalls (n := 0) rfl hs
    rw [Nat.zero_add] at hfirst
    rw [readsNow_calls hfirst, readsNow_calls (u8CNT_sensorCalls hfirst hs'), Nat.add_right_comm,
      Divider.close_iff (show 6 ≤ 255 by omega) hpos hlt, Nat.add_right_comm]

/-- The sensor does not answer. -/
def unanswered (n : Nat) : List ((Byte × TempHum) × TempHum) := List.replicate n ((0, .zero), .zero)

/-- The first two calls do not both evaluate the alarms, and of the calls 6 and 9 only the first reads the sensor. -/
theorem dividers_spaced_first :
    ¬(Evaluates (run recordStep (alarmBoot defaultConfig quiet) []) ∧
      Evaluates (run recordStep (alarmBoot defaultConfig quiet) ([] ++ .pass :: []))) ∧
    sensorCalls .init (unanswered 5) = .ok { Sensor.init with u8CNT := 5 } ∧
    sensorCalls { Sensor.init with u8CNT := 5 } (unanswered 3) = .ok { Sensor.init with u8CNT := 8, errCnt := 1 } ∧
    ¬(readsNow { Sensor.init with u8CNT := 5 } ∧ readsNow { Sensor.init with u8CNT := 8, errCnt := 1 }) := by
  obtain ⟨halarm, hsensor⟩ := dividers_spaced_iff defaultConfig quiet [] [] (unanswered 5) (unanswered 3)
  refine ⟨?_, rfl, rfl, ?_⟩
  · rw [halarm rfl]
    decide
  · rw [hsensor { Sensor.init with u8CNT := 5 } { Sensor.init with u8CNT := 8, errCnt := 1 } rfl rfl (by decide)
      (by decide)]
    decide

set_option maxRecDepth 100000 in
/-- The calls 254 and 255 both evaluate the alarms, and the calls 252 and 255 both read the sensor. -/
theorem dividers_too_close :
    (Evaluates (run recordStep (alarmBoot defaultConfig quiet) (List.replicate 253 .pass)) ∧
      Evaluates (run recordStep (alarmBoot defaultConfig quiet) (List.replicate 254 .pass))) ∧
    ∃ s s', sensorCalls .init (unanswered 251) = .ok s ∧ sensorCalls s (unanswered 3) = .ok s' ∧
      readsNow s ∧ readsNow s' := by
  refine ⟨?_, ?_⟩
  · rw [evaluates_run, evaluates_run]
    decide
  · refine ⟨⟨251, 0, 41, List.replicate thAveNum .zero, ⟨285, 567⟩, false⟩,
      ⟨254, 0, 42, List.replicate thAveNum .zero, ⟨285, 567⟩, false⟩, ?_, ?_, by decide, by decide⟩ <;> rfl

end WM.Proof
