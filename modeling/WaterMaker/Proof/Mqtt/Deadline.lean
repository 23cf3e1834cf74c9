import WaterMaker.Framework.Deadline
import WaterMaker.Proof.Mqtt.Session

/-!
# Reports and pings are not held up

The loop takes the packet that has the fewest seconds left. The seconds are rounded, so that of two packets whose
deadlines are less than a second apart either may come first; the proof compares deadlines in milliseconds, to within
a second (`Deadline.Ahead`). A ping has no new deadline until it is answered, but a second one closes the connection:
one that is outstanding is `spent`.
-/

namespace WM.Proof

open Impl Spec Deadline

instance : Fintype Job where
  elems := {.ping, .timing, .realtime}
  complete j := by cases j <;> simp

instance (x : Session) : Decidable (UnderWay x) :=
  inferInstanceAs (Decidable (x.isInformed = true ∧ x.isQRcodegeted = true ∧ x.isparameterPutted = true))

instance (x : Session) (e : MqttEvent) : Decidable (Uneventful x e) :=
  decidable_of_iff ((mqttStep x e).place = .loop ∧ UnderWay (mqttStep x e) ∧
      networkGetInterval (mqttStep x e).dev = networkGetInterval x.dev ∧
      ∀ j : Job, j.age x + ((mqttStep x e).time - x.time) < 4294967296)
    ⟨fun h => ⟨h.1, h.2.1, h.2.2.1, h.2.2.2⟩, fun h => ⟨h.place, h.underWay, h.intervals, h.clock⟩⟩

/-- The packets of a session as jobs. -/
def jobs (x : Session) : Jobs Job where
  left j := j.left x
  spent j := decide (j = .ping) && x.pingOutstanding

def sendOf : Job → ClientSend
  | .ping => .ping
  | .timing => .timing
  | .realtime => .realtime

/-! ## The choice -/

/-- The seconds left, as the code has them. -/
def seconds (x : Session) (j : Job) : Int := j.interval x - (j.age x / 1000 : Nat)

theorem choose_eq {x : Session} (h : UnderWay x) : (choose x).1 =
    if seconds x .timing < seconds x .ping then
      if seconds x .realtime < seconds x .timing then .realtime else .timing
    else if seconds x .realtime < seconds x .ping then .realtime else .ping := by
  obtain ⟨hi, hq, hp⟩ := h
  have hchoose : (choose x).1 = (if seconds x .realtime <
        (if seconds x .timing < seconds x .ping then (ClientSend.timing, seconds x .timing)
          else (.ping, seconds x .ping)).2 then (.realtime, seconds x .realtime)
      else if seconds x .timing < seconds x .ping then (ClientSend.timing, seconds x .timing)
      else (.ping, seconds x .ping)).1 := by
    simp only [choose, hi, hq, hp, not_true_eq_false, if_false]
    rfl
  rw [hchoose]
  by_cases h1 : seconds x .timing < seconds x .ping
  · simp only [if_pos h1]
    split <;> rfl
  · simp only [if_neg h1]
    split <;> rfl

/-- The one that is taken has the fewest seconds left. -/
theorem choose_underWay {x : Session} (h : UnderWay x) :
    ∃ j : Job, (choose x).1 = sendOf j ∧ ∀ k : Job, j.left x < k.left x + 1000 := by
  have hleast : ∃ j : Job, (choose x).1 = sendOf j ∧ ∀ k : Job, seconds x j ≤ seconds x k := by
    rw [choose_eq h]
    split <;> split
    · exact ⟨.realtime, rfl, fun k => by cases k <;> omega⟩
    · exact ⟨.timing, rfl, fun k => by cases k <;> omega⟩
    · exact ⟨.realtime, rfl, fun k => by cases k <;> omega⟩
    · exact ⟨.ping, rfl, fun k => by cases k <;> omega⟩
  obtain ⟨j, hj, hle⟩ := hleast
  refine ⟨j, hj, fun k => ?_⟩
  have := hle k
  simp only [seconds, Job.left] at this ⊢
  omega

/-! ## Deadlines -/

theorem toNat_tick_add {t δ : Nat} {s : RtTick} (h : (BitVec.ofNat 32 t - s).toNat + δ < 4294967296) :
    (BitVec.ofNat 32 (t + δ) - s).toNat = (BitVec.ofNat 32 t - s).toNat + δ := by
  simp only [BitVec.toNat_sub, BitVec.toNat_ofNat] at h ⊢
  omega

theorem toNat_tick_sub {t t' : Nat} (h : t ≤ t') (hlt : t' - t < 4294967296) :
    (BitVec.ofNat 32 t' - BitVec.ofNat 32 t).toNat = t' - t := by
  simp only [BitVec.toNat_sub, BitVec.toNat_ofNat]
  omega

/-- What a round does to the jobs, of which it takes at most one. -/
structure Moved (taken : Option Job) (x y : Session) : Prop where
  time : x.time ≤ y.time
  alive : y.keepAliveInterval = x.keepAliveInterval
  stamp : ∀ j : Job, (j.stamp y = j.stamp x ∧ ((jobs x).spent j = true → (jobs y).spent j = true)) ∨
    ∃ t, x.time ≤ t ∧ t ≤ y.time ∧ j.stamp y = BitVec.ofNat 32 t
  report : ∀ j : Job, j ≠ .ping → taken ≠ some j → j.stamp y = j.stamp x
  live : ∀ j, taken = some j → (jobs x).spent j = false
  done : ∀ j : Job, taken = some j →
    (jobs y).spent j = true ∨ ∃ t, x.time ≤ t ∧ t ≤ y.time ∧ j.stamp y = BitVec.ofNat 32 t
  wire : x.wire ++ (taken.map fun j => Wire.sent j.packet).toList <+: y.wire

/-- The answer to a ping may come in any round. -/
theorem stamp_ping {x z y : Session} (h : Handled z y) (htime : x.time ≤ z.time) (hping : z.tickPing = x.tickPing)
    (hout : z.pingOutstanding = x.pingOutstanding) :
    (Job.ping.stamp y = Job.ping.stamp x ∧ ((jobs x).spent .ping = true → (jobs y).spent .ping = true)) ∨
      ∃ t, x.time ≤ t ∧ t ≤ y.time ∧ Job.ping.stamp y = BitVec.ofNat 32 t := by
  rcases h.ping with ⟨htick, hsame⟩ | ⟨htick, -⟩
  · refine .inl ⟨htick.trans hping, ?_⟩
    simp only [jobs, hsame, hout]
    exact fun h => h
  · exact .inr ⟨z.time, htime, h.time.ge, htick⟩

theorem spent_report (x : Session) {j : Job} (h : j ≠ .ping) : (jobs x).spent j = false := by simp [jobs, h]

theorem moved_of_turn {x y : Session} {i : PassIn} (hs : UnderWay x) (h : Turn x i y) :
    ∃ taken, Moved taken x y ∧ (idle (.pass i) = true → ∃ j, taken = some j ∧ (choose x).1 = sendOf j) := by
  obtain ⟨a, b, hw⟩ := waited_eq x i.waited
  obtain ⟨j, hj, -⟩ := choose_underWay hs
  cases h with
  | published p topic n took hselect htopic hy =>
    rw [hw] at hy
    rw [hj] at htopic
    have htime : x.time + i.waited + took = y.time := by
      rw [hy.time]
      cases topic <;> rfl
    have hping := stamp_ping (x := x) hy (by cases topic <;> exact (Nat.le_add_right ..).trans (Nat.le_add_right ..))
      (by cases topic <;> rfl) (by cases topic <;> rfl)
    have hj' : j ≠ .ping := by
      rintro rfl
      cases htopic
    have hnew : ∃ t, x.time ≤ t ∧ t ≤ y.time ∧ j.stamp y = BitVec.ofNat 32 t := by
      refine ⟨x.time + i.waited, by omega, by omega, ?_⟩
      cases j <;> cases htopic
      · exact hy.tickTiming
      · exact hy.tickRealtime
    have hother : ∀ k : Job, k ≠ .ping → k ≠ j → k.stamp y = k.stamp x := by
      intro k hk hkj
      cases j <;> cases htopic <;> cases k <;>
        first | exact absurd rfl hk | exact absurd rfl hkj | exact hy.tickTiming | exact hy.tickRealtime
    refine ⟨some j, ⟨by omega, ?_, fun k => ?_, fun k hk htaken => ?_, ?_, ?_, ?_⟩, fun _ => ⟨j, rfl, hj⟩⟩
    · have := hy.keepAliveInterval
      cases topic <;> exact this
    · by_cases hk : k = .ping
      · exact hk ▸ hping
      · by_cases hkj : k = j
        · exact .inr (hkj ▸ hnew)
        · exact .inl ⟨hother k hk hkj, fun h => by simp [spent_report x hk] at h⟩
    · exact hother k hk fun h => htaken (by rw [h])
    · rintro k ⟨⟩
      exact spent_report x hj'
    · rintro k ⟨⟩
      exact .inr hnew
    · have := hy.wire
      cases j <;> cases htopic <;> exact this
  | pinged p hselect hping hfirst hy =>
    rw [hw] at hy
    subst hy
    have hjping : j = .ping := by
      rw [hping] at hj
      cases j <;> first | rfl | cases hj
    subst hjping
    refine ⟨some .ping, ⟨Nat.le_add_right .., rfl, fun j => ?_, fun j hne _ => ?_, fun j hjob => ?_, fun j hjob => ?_,
      List.prefix_rfl⟩, fun _ => ⟨.ping, rfl, hping⟩⟩
    · cases j with
      | ping => exact .inl ⟨rfl, fun _ => rfl⟩
      | timing => exact .inl ⟨rfl, fun h => by simp [jobs] at h⟩
      | realtime => exact .inl ⟨rfl, fun h => by simp [jobs] at h⟩
    · cases j with
      | ping => exact absurd rfl hne
      | timing => rfl
      | realtime => rfl
    · cases hjob
      simp [jobs, hfirst]
    · cases hjob
      exact .inl rfl
  | quiet sock pipe hselect hy =>
    rw [hw] at hy
    have hother : ∀ k : Job, k ≠ .ping → k.stamp y = k.stamp x := by
      intro k hk
      cases k <;> first | exact absurd rfl hk | exact hy.tickTiming | exact hy.tickRealtime
    refine ⟨none, ⟨?_, hy.keepAliveInterval, fun k => ?_, fun k hk _ => hother k hk, ?_, ?_, ?_⟩, fun hidle => ?_⟩
    · rw [hy.time]
      exact Nat.le_add_right ..
    · by_cases hk : k = .ping
      · exact hk ▸ stamp_ping hy (Nat.le_add_right ..) rfl rfl
      · exact .inl ⟨hother k hk, fun h => by simp [spent_report x hk] at h⟩
    · rintro k ⟨⟩
    · rintro k ⟨⟩
    · rw [Option.map_none, Option.toList_none, List.append_nil]
      exact hy.wire
    · obtain ⟨_, select, _⟩ := i
      cases hselect
      cases hidle

theorem moved_rest {x y : Session} (htime : y.time = x.time) (halive : y.keepAliveInterval = x.keepAliveInterval)
    (hstamp : ∀ j : Job, j.stamp y = j.stamp x) (hping : y.pingOutstanding = x.pingOutstanding)
    (hwire : y.wire = x.wire) : Moved none x y := by
  refine ⟨htime.ge, halive, fun j => .inl ⟨hstamp j, ?_⟩, fun j _ _ => hstamp j, ?_, ?_, ?_⟩
  · simp only [jobs, hping]
    exact fun h => h
  · rintro j ⟨⟩
  · rintro j ⟨⟩
  · rw [Option.map_none, Option.toList_none, List.append_nil, hwire]

theorem place_leave (j : Jump) (x : Session) : (leave j x).place ≠ .loop := by cases j <;> simp [leave]

theorem turn_of_uneventful {x : Session} {i : PassIn} (hr : Round x) (hc : Uneventful x (.pass i)) :
    Round (mqttStep x (.pass i)) ∧ Turn x i (mqttStep x (.pass i)) := by
  have hstep : mqttStep x (.pass i) = through (mqttPass i) x := if_pos hr.1
  have hplace := hc.place
  rw [hstep] at hplace ⊢
  unfold through at hplace ⊢
  obtain ⟨_, y, hm, hy⟩ | ⟨j, y, hm, -⟩ := mqttPass_meets i hr.1 hr.2 x rfl
  · rw [hm]
    exact hy
  · rw [hm] at hplace
    exact absurd hplace (place_leave j y)

theorem moved_of_uneventful {x : Session} {e : MqttEvent} (hr : Round x) (hs : UnderWay x) (hc : Uneventful x e) :
    Round (mqttStep x e) ∧ ∃ taken, Moved taken x (mqttStep x e) ∧
      (idle e = true → ∃ j, taken = some j ∧ (choose x).1 = sendOf j) := by
  cases e with
  | start i =>
    have hstep : mqttStep x (.start i) = x := if_neg (by simp [hr.1])
    rw [hstep]
    refine ⟨hr, none, moved_rest rfl rfl (fun _ => rfl) rfl rfl, fun h => ?_⟩
    cases h
  | pass i =>
    obtain ⟨hround, hturn⟩ := turn_of_uneventful hr hc
    exact ⟨hround, moved_of_turn hs hturn⟩
  | request null r =>
    have hplace := hc.place
    have hrunning : ¬x.place = .halted := by simp [hr.1]
    cases hreq : request null x.dev r with
    | error h =>
      simp only [mqttStep, if_neg hrunning, hreq, reduceCtorEq] at hplace
    | ok d =>
      simp only [mqttStep, if_neg hrunning, hreq]
      refine ⟨⟨hr.1, ⟨hr.2.talk, hr.2.isconnected, hr.2.keepAliveInterval⟩, hr.2.netSts⟩, none,
        moved_rest rfl rfl (fun j => by cases j <;> rfl) rfl rfl, fun h => ?_⟩
      cases h

theorem interval_pos {x : Session} (hr : Round x) (j : Job) : 1 ≤ j.interval x := by
  cases j with
  | ping =>
    show (1 : Int) ≤ x.keepAliveInterval - 10
    rw [hr.2.keepAliveInterval]
    decide
  | timing =>
    show (1 : Int) ≤ (networkGetInterval x.dev).2
    simp only [networkGetInterval]
    omega
  | realtime =>
    show (1 : Int) ≤ (networkGetInterval x.dev).1
    simp only [networkGetInterval]
    omega

section round

variable {x y : Session} {taken : Option Job}

theorem left_of_stamp {j : Job} (htime : x.time ≤ y.time) (hstamp : j.stamp y = j.stamp x)
    (hinterval : j.interval y = j.interval x) (hclock : j.age x + (y.time - x.time) < 4294967296) :
    j.left y = j.left x - (y.time - x.time : Nat) := by
  have hage : j.age y = j.age x + (y.time - x.time) := by
    have h := toNat_tick_add hclock
    rw [Nat.add_sub_cancel' htime] at h
    rw [Job.age, hstamp]
    exact h
  simp only [Job.left, hinterval, hage]
  omega

theorem postponed_of_stamp {j : Job} {t : Nat} (ht : x.time ≤ t) (ht' : t ≤ y.time)
    (hstamp : j.stamp y = BitVec.ofNat 32 t) (hpos : 1 ≤ j.interval y) (hclock : y.time - x.time < 4294967296) :
    Postponed 1000 (y.time - x.time : Nat) (jobs y) j := by
  have hage : j.age y = y.time - t := by
    rw [Job.age, hstamp]
    exact toNat_tick_sub ht' (by omega)
  simp only [Postponed, jobs, Job.left, hage]
  omega

end round

/-- In an uneventful round every packet keeps its deadline or gets a new one; a report only if it is sent. -/
theorem jobs_of_uneventful {x : Session} {e : MqttEvent} {taken : Option Job} (hr : Round (mqttStep x e))
    (hc : Uneventful x e) (hm : Moved taken x (mqttStep x e)) :
    (∀ j, Standing ((mqttStep x e).time - x.time : Nat) (jobs x) (jobs (mqttStep x e)) j ∨
      Postponed 1000 ((mqttStep x e).time - x.time : Nat) (jobs (mqttStep x e)) j) ∧
    ∀ j : Job, j ≠ .ping → taken ≠ some j →
      j.left (mqttStep x e) = j.left x - ((mqttStep x e).time - x.time : Nat) := by
  have hinterval : ∀ j : Job, j.interval (mqttStep x e) = j.interval x := by
    intro j
    cases j <;> simp only [Job.interval, hm.alive, hc.intervals]
  refine ⟨fun j => ?_, fun j hj htaken => ?_⟩
  · rcases hm.stamp j with ⟨hstamp, hspent⟩ | ⟨t, ht, ht', hstamp⟩
    · exact .inl ⟨left_of_stamp hm.time hstamp (hinterval j) (hc.clock j), hspent⟩
    · exact .inr (postponed_of_stamp ht ht' hstamp (interval_pos hr j) (by have := hc.clock j; omega))
  · exact left_of_stamp hm.time (hm.report j hj htaken) (hinterval j) (hc.clock j)

/-- A round brings an overdue report forward, if it does not send it. -/
theorem report_step {x : Session} {e : MqttEvent} {k : Job} (hk : k ≠ .ping) (hr : Round x) (hs : UnderWay x)
    (hover : k.left x ≤ 0) (hc : Uneventful x e) :
    Written Session.wire (.sent k.packet) x (mqttStep x e) ∨
      (k.left (mqttStep x e) ≤ 0 ∧
        rank 1000 (jobs (mqttStep x e)) k + (idle e).toNat ≤ rank 1000 (jobs x) k) := by
  obtain ⟨hround, taken, hm, hidle⟩ := moved_of_uneventful hr hs hc
  obtain ⟨hjobs, hreport⟩ := jobs_of_uneventful hround hc hm
  by_cases htaken : taken = some k
  · obtain ⟨ws, hws⟩ := hm.wire
    subst htaken
    refine .inl ⟨Wire.sent k.packet :: ws, ?_, List.mem_cons_self ..⟩
    rw [← hws, List.append_assoc]
    rfl
  · refine .inr ?_
    have hleft := hreport k hk htaken
    refine ⟨by omega, ?_⟩
    cases hi : idle e with
    | false => exact rank_le hleft hover hjobs
    | true =>
      obtain ⟨j, rfl, hj⟩ := hidle hi
      -- the one that is sent was ahead of the report, and is not so any more
      have hahead : Ahead 1000 (jobs x) k j := by
        obtain ⟨j', hj', hleast⟩ := choose_underWay hs
        have hjj : j' = j := by
          rw [hj] at hj'
          cases j <;> cases j' <;> first | rfl | cases hj'
        exact ⟨fun h => htaken (by rw [h]), hjj ▸ hleast k, hm.live j rfl⟩
      refine rank_lt hleft hover hjobs hahead ?_
      rcases hm.done j rfl with hspent | ⟨t, ht, ht', hstamp⟩
      · exact .inr hspent
      · exact .inl (postponed_of_stamp ht ht' hstamp (interval_pos hround j) (by have := hc.clock j; omega))

/-- An overdue report is sent before the third wait without input has ended, whatever else is due and whatever comes
in. -/
theorem overdue_report_is_sent (filter : SubTopic → List Char) (time : Nat) (d : Dev) (es₀ es : List MqttEvent)
    (k : Job) (hk : k ≠ .ping) (hplace : (sessionAfter filter time d es₀).place = .loop)
    (hunderWay : UnderWay (sessionAfter filter time d es₀)) (hover : k.left (sessionAfter filter time d es₀) ≤ 0)
    (huneventful : Along mqttStep Uneventful (sessionAfter filter time d es₀) es) (hidle : 3 ≤ es.countP idle) :
    ∃ ws, (run mqttStep (sessionAfter filter time d es₀) es).wire = (sessionAfter filter time d es₀).wire ++ ws ∧
      Wire.sent k.packet ∈ ws := by
  have hproper := proper_sessionAfter filter time d es₀
  rw [Proper, hplace] at hproper
  have h := written_or_ticks_le Session.wire (.sent k.packet) (fun x => rank 1000 (jobs x) k) idle
    (J := fun x => Round x ∧ UnderWay x) (I := fun x => k.left x ≤ 0) ?_ ?_ ⟨⟨hplace, hproper⟩, hunderWay⟩ hover
      huneventful
  · refine h.resolve_right fun hle => ?_
    have hcard : rank 1000 (jobs (sessionAfter filter time d es₀)) k < 3 := rank_lt_card ..
    omega
  · intro x e hx hc
    obtain ⟨hround, taken, hm, -⟩ := moved_of_uneventful hx.1 hx.2 hc
    exact ⟨(List.prefix_append ..).trans hm.wire, hround, hc.underWay⟩
  · exact fun x e hx hover hc => report_step hk hx.1 hx.2 hover hc

section sample

/-- Everything goes well, and `p` comes back. -/
def goesWell (p : Packet) : Exchange := ⟨true, true, 0, some ⟨some p, .fault, (0, 0), true⟩⟩

def sampleFilter : SubTopic → List Char
  | .waterNotice => ['n']
  | _ => []

def sampleDev : Dev := ⟨fun _ => 0, fun _ => 0, fun _ => 0, 0, ⟨fun _ _ => 0, 0, [], 0⟩, [], 0, 0, 0, 0, []⟩

def sampleIdle : MqttEvent := .pass ⟨1000, .timeout ⟨goesWell .puback, true⟩, true⟩

/-- A session up to its reports, the first of which is a second late. -/
def sampleOpening : List MqttEvent :=
  [.start ⟨true, true, 0, goesWell (.connack (some 0)), fun _ => goesWell (.suback (some 0))⟩, sampleIdle,
   .pass ⟨0, .input (some ⟨some (.publish (some ⟨['n'], 0, 0, some ⟨some (.str []), none, none, none⟩⟩)), .fault, (0, 0),
    true⟩) none, true⟩,
   sampleIdle, .pass ⟨4000, .input none none, true⟩]

theorem overdue_report_is_sent_realtime :
    let x := sessionAfter sampleFilter 0 sampleDev sampleOpening
    x.place = .loop ∧ ∃ ws, (run mqttStep x [sampleIdle, sampleIdle, sampleIdle]).wire = x.wire ++ ws ∧
      Wire.sent (.publish .realtimeReport) ∈ ws := by
  refine ⟨by decide +kernel, overdue_report_is_sent sampleFilter 0 sampleDev sampleOpening _ .realtime (by simp)
    ?_ ?_ ?_ ?_ ?_⟩ <;> decide +kernel

end sample

end WM.Proof
