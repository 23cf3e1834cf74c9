import WaterMaker.Framework.Jump
import WaterMaker.Spec.Mqtt

/-!
# The session keeps to the protocol
-/

namespace WM.Proof

open Impl Spec

variable {P : Session → Prop} {E : Jump → Session → Prop} {x : Session} {m : Message} {k : Nat} {b : Bool}
  {topic : PubTopic}

/-! ## What a packet does -/

/-- What the handling of a packet leaves as it is. -/
structure Handled (x y : Session) : Prop where
  place : y.place = x.place
  filter : y.filter = x.filter
  isconnected : y.isconnected = x.isconnected
  isInformed : y.isInformed = x.isInformed
  keepAliveInterval : y.keepAliveInterval = x.keepAliveInterval
  tickRealtime : y.tickRealtime = x.tickRealtime
  tickTiming : y.tickTiming = x.tickTiming
  sendState : y.sendState = x.sendState
  netSts : y.netSts = x.netSts
  time : y.time = x.time
  /-- the traffic goes on -/
  wire : x.wire <+: y.wire
  /-- but for the answer to a ping -/
  ping : (y.tickPing = x.tickPing ∧ y.pingOutstanding = x.pingOutstanding) ∨
    (y.tickPing = x.tick ∧ y.pingOutstanding = false)

/-- The session after a message that may be a notice or a wish. -/
def delivered (notice wish : Bool) (d : Dev) (x : Session) : Session :=
  { x with dev := d, isQRcodegeted := x.isQRcodegeted || notice, isparameterPutted := x.isparameterPutted && !wish }

theorem delivered_delivered (n n' w w' : Bool) (d d' : Dev) (x : Session) :
    delivered n' w' d' (delivered n w d x) = delivered (n || n') (w || w') d' x := by
  simp [delivered, Bool.or_assoc, Bool.and_assoc]

theorem orHalt_meets {α : Type} {e : Except Halt α} {Q : α → Session → Prop}
    (hok : ∀ a, e = .ok a → ∀ x, P x → Q a x) (hhalt : ∀ h x, P x → E (.halt h) x) :
    Meets P (orHalt e) Q E := by
  cases e with
  | ok a => exact Meets.pure (hok a rfl)
  | error h => exact Meets.throw (hhalt h)

theorem networkWaterNoticeParse_ok {msg : Option ParamMsg} {rc : Int} (h : networkWaterNoticeParse msg = .ok rc) :
    rc = 0 ↔ hasCode msg = true := by
  unfold networkWaterNoticeParse at h
  unfold hasCode
  split at h
  · cases h
    simp
  · split at h <;> cases h <;> simp [*]

theorem networkParameterGetParse_ok {msg : Option ParamMsg} {rc : Int} (h : networkParameterGetParse msg = .ok rc) :
    rc = 0 ↔ hasCode msg = true := by
  unfold networkParameterGetParse at h
  unfold hasCode
  split at h
  · cases h
    simp
  · split at h <;> cases h
    simp [*]

/-- The controller has stopped within the handling of a packet. -/
def Stopped (x : Session) (j : Jump) (y : Session) : Prop := (∃ h, j = .halt h) ∧ y.wire = x.wire ∧ y.filter = x.filter

/-- To handler `i` the message is a notice. -/
def notices (x : Session) (m : Message) : SubTopic → Bool
  | .waterNotice => isNotice x.filter m
  | _ => false

def wishes (x : Session) (m : Message) : SubTopic → Bool
  | .parameterGet => isWish x.filter m
  | _ => false

/-- A handler that looks at the code of the message. -/
theorem parsed_meets {e : Except Halt Int} (he : ∀ rc, e = .ok rc → (rc = 0 ↔ hasCode m.payload = true))
    {f : Session → Session} {notice wish : Bool}
    (hyes : hasCode m.payload = true → f x = delivered notice wish x.dev x)
    (hno : hasCode m.payload = false → x = delivered notice wish x.dev x) :
    Meets (· = x) (do let rc ← orHalt e; if rc = 0 then modify f) (fun _ y => ∃ d, y = delivered notice wish d x)
      (Stopped x) := by
  refine (orHalt_meets (Q := fun rc y => y = x ∧ (rc = 0 ↔ hasCode m.payload = true)) ?_ ?_).bind fun rc => ?_
  · exact fun a ha y hy => ⟨hy, he a ha⟩
  · rintro h' y rfl
    exact ⟨⟨h', rfl⟩, rfl, rfl⟩
  · refine Meets.ite (fun hrc => Meets.modify ?_) (fun hrc => Meets.pure ?_)
    · rintro y ⟨rfl, hy⟩
      exact ⟨y.dev, hyes (hy.1 hrc)⟩
    · rintro y ⟨rfl, hy⟩
      exact ⟨y.dev, hno (by simpa using mt hy.2 hrc)⟩

theorem callback_meets (null : NullStore) (mem : Nat × Nat) (m : Message) (i : SubTopic) (x : Session)
    (h : m.isFor (x.filter i)) : Meets (· = x) (callback null mem m i)
      (fun _ y => ∃ d, y = delivered (notices x m i) (wishes x m i) d x) (Stopped x) := by
  cases i with
  | waterNotice =>
    refine parsed_meets (fun _ => networkWaterNoticeParse_ok) (fun hc => ?_) fun hc => ?_
    · simp [delivered, notices, wishes, isNotice, h, hc]
    · simp [delivered, notices, wishes, isNotice, hc]
  | parameterSet =>
    refine Meets.get fun y hy => ?_
    subst hy
    refine (orHalt_meets (Q := fun _ z => z = y) ?_ ?_).bind fun d => Meets.modify ?_
    · exact fun _ _ _ h => h
    · rintro h' z rfl
      exact ⟨⟨h', rfl⟩, rfl, rfl⟩
    · rintro z rfl
      refine ⟨d, ?_⟩
      simp [delivered, notices, wishes]
  | parameterGet =>
    refine parsed_meets (fun _ => networkParameterGetParse_ok) (fun hc => ?_) fun hc => ?_
    · simp [delivered, notices, wishes, isWish, h, hc]
    · simp [delivered, notices, wishes, isWish, hc]
  | otaUpgrade =>
    refine Meets.pure ?_
    rintro y rfl
    refine ⟨y.dev, ?_⟩
    simp [delivered, notices, wishes]

/-- A message for another topic is neither a notice nor a wish to handler `i`. -/
theorem not_for {i : SubTopic} (h : ¬m.isFor (x.filter i)) :
    notices x m i = false ∧ wishes x m i = false := by
  cases i <;> simp_all [notices, wishes, isNotice, isWish]

theorem deliverMessage_meets (null : NullStore) (mem : Nat × Nat) (m : Message) (is : List SubTopic) (x : Session) :
    Meets (· = x) (deliverMessage null mem m is)
      (fun _ y => ∃ d, y = delivered (is.any (notices x m)) (is.any (wishes x m)) d x) (Stopped x) := by
  induction is generalizing x with
  | nil =>
    refine Meets.pure ?_
    rintro y rfl
    exact ⟨y.dev, by simp [delivered]⟩
  | cons i is ih =>
    refine Meets.get fun y hy => ?_
    subst hy
    refine Meets.when (R := fun _ z => ∃ d, z = delivered (notices y m i) (wishes y m i) d y)
      (callback_meets null mem m i y) ?_ ?_
    · rintro hfor z rfl
      exact ⟨z.dev, by simp [delivered, not_for hfor]⟩
    · refine Meets.intro ?_
      rintro _ ⟨d, rfl⟩
      refine (ih _).mono (fun _ h => h) ?_ ?_
      · rintro _ _ ⟨d', rfl⟩
        exact ⟨d', delivered_delivered ..⟩
      · rintro j z ⟨hj, hw, hf⟩
        exact ⟨hj, hw, hf⟩

/-! ## The traffic -/

/-- What someone knows who has watched the sockets. -/
def overheard (x : Session) : Option Talk := Talk.after x.filter x.wire

/-- What the client itself remembers of the talk. -/
def view (phase : Stage) (waiting : Bool) (answer : Option Sent) (x : Session) : Talk :=
  ⟨phase, waiting, answer, x.isInformed, x.isQRcodegeted, x.isparameterPutted, x.pingOutstanding⟩

/-- The two agree, and nothing is left to be answered. -/
def Agrees (phase : Stage) (waiting : Bool) (x : Session) : Prop := overheard x = some (view phase waiting none x)

theorem overheard_push (x : Session) (w : Wire) :
    overheard { x with wire := x.wire ++ [w] } = (overheard x).bind (Talk.next x.filter · w) := by
  simp [overheard, Talk.after, List.foldlM_append]

theorem sendPacket_meets {p : Sent} {ok : Bool} {Q : Int → Session → Prop}
    (h : ∀ x, P x → Q (if ok then 0 else -1) { x with wire := x.wire ++ [.sent p] }) :
    Meets P (sendPacket p ok) Q E :=
  (Meets.modify h).bind fun _ => Meets.pure fun _ h => h

theorem elapse_meets {ms : Nat} {Q : PUnit → Session → Prop}
    (h : ∀ x, P x → Q ⟨⟩ { x with time := x.time + ms }) : Meets P (elapse ms) Q E := Meets.modify h

/-- An answer that is asked for may be sent. -/
theorem answer_meets {a : Sent} {ok : Bool} (ha : a ≠ .disconnect)
    (hx : overheard x = some (view (.up k) false (some a) x)) :
    Meets (· = x) (sendPacket a ok)
      (fun _ y => y = { x with wire := x.wire ++ [.sent a] } ∧ Agrees (.up k) false y) E := by
  refine sendPacket_meets ?_
  rintro _ rfl
  refine ⟨rfl, ?_⟩
  rw [Agrees, overheard_push, hx]
  cases a <;> first | exact absurd rfl ha | simp [view, Talk.next]

theorem handled_delivered (n w : Bool) (d : Dev) (x : Session) {ws : List Wire} (h : x.wire <+: ws) :
    Handled x { delivered n w d x with wire := ws } :=
  ⟨rfl, rfl, rfl, rfl, rfl, rfl, rfl, rfl, rfl, rfl, h, .inl ⟨rfl, rfl⟩⟩

theorem handled_wire (x : Session) {ws : List Wire} (h : x.wire <+: ws) : Handled x { x with wire := ws } :=
  ⟨rfl, rfl, rfl, rfl, rfl, rfl, rfl, rfl, rfl, rfl, h, .inl ⟨rfl, rfl⟩⟩

/-- The handlers do to the client what the message does to the talk. -/
theorem overheard_delivered (d : Dev)
    (hx : overheard x = some ((view (.up k) b none x).hear x.filter (.publish (some m)))) :
    overheard (delivered (SubTopic.all.any (notices x m)) (SubTopic.all.any (wishes x m)) d x) =
      some (view (.up k) false (answerTo (.publish (some m)))
        (delivered (SubTopic.all.any (notices x m)) (SubTopic.all.any (wishes x m)) d x)) := by
  show overheard x = _
  rw [hx]
  simp [Talk.hear, view, delivered, SubTopic.all, notices, wishes]

/-- What is left of the handling of a message once it has been delivered. -/
theorem acknowledge_meets {acked : Bool}
    (hx : overheard x = some (view (.up k) false (answerTo (.publish (some m))) x)) :
    Meets (· = x)
      (if m.qos = 0 then pure 0
        else if m.qos = 1 then sendPacket (.puback m.id) acked
        else if m.qos = 2 then sendPacket (.pubrec m.id) acked
        else pure (-1))
      (fun _ y => (∃ ws, x.wire <+: ws ∧ y = { x with wire := ws }) ∧ Agrees (.up k) false y) E := by
  refine Meets.ite (fun h0 => Meets.pure ?_) fun h0 => Meets.ite (fun h1 => ?_) fun h1 =>
    Meets.ite (fun h2 => ?_) fun h2 => Meets.pure ?_
  · rintro y rfl
    exact ⟨⟨y.wire, List.prefix_rfl, rfl⟩, by rw [Agrees, hx]; simp [answerTo, h0]⟩
  · refine (answer_meets (k := k) (by simp) (by rw [hx]; simp [answerTo, h1])).post ?_
    exact fun _ y hy => ⟨⟨_, List.prefix_append .., hy.1⟩, hy.2⟩
  · refine (answer_meets (k := k) (by simp) (by rw [hx]; simp [answerTo, h2])).post ?_
    exact fun _ y hy => ⟨⟨_, List.prefix_append .., hy.1⟩, hy.2⟩
  · rintro y rfl
    exact ⟨⟨y.wire, List.prefix_rfl, rfl⟩, by rw [Agrees, hx]; simp [answerTo, h1, h2]⟩

/-- A packet is handled: the client still agrees with the talk, and waits for nothing unless there was none. -/
theorem mqttCycle_meets (r : Incoming) (hx : Agrees (.up k) b x) :
    Meets (· = x) (mqttCycle r)
      (fun rc y => Handled x y ∧ ∃ b', Agrees (.up k) b' y ∧ (0 ≤ rc → b' = false))
      (fun j y => (∃ h, j = .halt h) ∧ (overheard y).isSome) := by
  unfold mqttCycle
  cases r.packet with
  | none =>
    refine Meets.pure ?_
    rintro y rfl
    exact ⟨handled_wire y List.prefix_rfl, b, hx, by omega⟩
  | some p =>
    refine Meets.bind (R := fun _ y => y = { x with wire := x.wire ++ [.got p] })
      (Meets.modify fun y hy => by rw [hy]) fun _ => ?_
    have hgot : overheard { x with wire := x.wire ++ [.got p] } = some ((view (.up k) b none x).hear x.filter p) := by
      rw [overheard_push, hx]
      simp [Talk.next, view]
    -- a packet that asks for nothing
    have hplain : ∀ rc : Int, (view (.up k) b none x).hear x.filter p = view (.up k) false none x →
        Meets (· = { x with wire := x.wire ++ [.got p] }) (pure rc : Mqtt Int)
          (fun rc y => Handled x y ∧ ∃ b', Agrees (.up k) b' y ∧ (0 ≤ rc → b' = false))
          (fun j y => (∃ h, j = .halt h) ∧ (overheard y).isSome) := by
      refine fun rc hp => Meets.pure ?_
      rintro _ rfl
      exact ⟨handled_wire x (List.prefix_append ..), false, hgot.trans (by rw [hp]; rfl), fun _ => rfl⟩
    cases p with
    | connack code => exact hplain 0 (by simp [Talk.hear, view, answerTo])
    | puback => exact hplain 0 rfl
    | suback granted => exact hplain _ rfl
    | pubcomp => exact hplain 0 rfl
    | other => exact hplain 0 rfl
    | publish message =>
      cases message with
      | none => exact hplain 0 rfl
      | some m =>
        refine Meets.bind ((deliverMessage_meets r.null r.mem m SubTopic.all _).mono (fun _ h => h) (fun _ _ h => h) ?_)
          fun _ => Meets.intro ?_
        · rintro j y ⟨hj, hw, hf⟩
          exact ⟨hj, by rw [overheard, hw, hf]; exact Option.isSome_iff_exists.2 ⟨_, hgot⟩⟩
        · rintro _ ⟨d, rfl⟩
          refine (acknowledge_meets (overheard_delivered d hgot)).post ?_
          rintro rc _ ⟨⟨ws, hws, rfl⟩, hagrees⟩
          exact ⟨handled_delivered _ _ d x ((List.prefix_append ..).trans hws), false, hagrees, fun _ => rfl⟩
    | pubrec id =>
      cases id with
      | none => exact hplain (-1) rfl
      | some id =>
        refine (answer_meets (by simp) hgot).post ?_
        rintro rc _ ⟨rfl, hagrees⟩
        refine ⟨handled_wire x ?_, false, hagrees, fun _ => rfl⟩
        exact (List.prefix_append ..).trans (List.prefix_append ..)
    | pingresp =>
      refine (Meets.modify (Q := fun _ y => Handled x y ∧ Agrees (.up k) false y) ?_).bind fun _ => Meets.pure ?_
      · rintro _ rfl
        exact ⟨⟨rfl, rfl, rfl, rfl, rfl, rfl, rfl, rfl, rfl, rfl, List.prefix_append .., .inr ⟨rfl, rfl⟩⟩, hgot⟩
      · exact fun y hy => ⟨hy.1, false, hy.2, fun _ => rfl⟩

/-! ## The thread -/

/-- No connection is open. -/
structure Offline (x : Session) : Prop where
  talk : overheard x = some Talk.idle
  isconnected : x.isconnected = false
  isInformed : x.isInformed = false
  isQRcodegeted : x.isQRcodegeted = false
  isparameterPutted : x.isparameterPutted = false
  pingOutstanding : x.pingOutstanding = false

theorem Offline.same {y : Session} (h : Offline x) (hy : (overheard y, y.isconnected, y.isInformed, y.isQRcodegeted,
      y.isparameterPutted, y.pingOutstanding) = (overheard x, x.isconnected, x.isInformed, x.isQRcodegeted,
      x.isparameterPutted, x.pingOutstanding)) : Offline y := by
  simp only [Prod.mk.injEq] at hy
  obtain ⟨h1, h2, h3, h4, h5, h6⟩ := hy
  exact ⟨h1.trans h.talk, h2.trans h.isconnected, h3.trans h.isInformed, h4.trans h.isQRcodegeted,
    h5.trans h.isparameterPutted, h6.trans h.pingOutstanding⟩

/-- The connection is open with `k` subscriptions. -/
structure Opened (k : Nat) (x : Session) : Prop where
  talk : Agrees (.up k) false x
  isconnected : x.isconnected = true
  keepAliveInterval : x.keepAliveInterval = 60

/-- At the top of the loop. -/
structure Online (x : Session) : Prop extends Opened 4 x where
  netSts : x.netSts = true

/-- What holds at each place of the thread. -/
def Proper (x : Session) : Prop :=
  match x.place with
  | .start => Offline x ∧ x.netSts = false
  | .loop => Online x
  | .exited => Offline x ∧ x.netSts = true
  | .halted => (overheard x).isSome

/-- What holds at each label. -/
def AtLabel : Jump → Session → Prop
  | .disconnect, x => (overheard x).isSome
  | .restart, x => Offline x
  | .netDisconnect, x => Offline x ∧ x.netSts = false
  | .disconnectExit, x => (overheard x).isSome ∧ x.netSts = true
  | .halt _, x => (overheard x).isSome

theorem offline_afterDisconnect (h : (overheard x).isSome) : Offline (leave.afterDisconnect x) := by
  obtain ⟨t, ht⟩ := Option.isSome_iff_exists.1 h
  refine ⟨?_, rfl, rfl, rfl, rfl, rfl⟩
  exact (overheard_push x (.sent .disconnect)).trans (by rw [ht]; rfl)

theorem proper_leave {j : Jump} (h : AtLabel j x) : Proper (leave j x) := by
  cases j with
  | disconnect => exact ⟨(offline_afterDisconnect h).same rfl, rfl⟩
  | restart => exact ⟨Offline.same h rfl, rfl⟩
  | netDisconnect => exact ⟨h.1.same rfl, h.2⟩
  | disconnectExit => exact ⟨(offline_afterDisconnect h.1).same rfl, h.2⟩
  | halt => exact h

theorem Agrees.isSome {ph : Stage} (h : Agrees ph b x) : (overheard x).isSome := by
  rw [h]
  rfl

theorem atLabel_halt {j : Jump} (h : (∃ h, j = .halt h) ∧ (overheard x).isSome) : AtLabel j x := by
  obtain ⟨⟨_, rfl⟩, hx⟩ := h
  exact hx

theorem mqttConnect_meets (i : Exchange) (hx : Offline x) :
    Meets (· = x) (mqttConnect i) (fun rc y => (overheard y).isSome ∧ (rc = 0 → Opened 0 y)) AtLabel := by
  have hsome : (overheard x).isSome := by rw [hx.talk]; rfl
  refine Meets.get ?_
  rintro _ rfl
  refine Meets.ite (fun h => absurd h (by simp [hx.isconnected])) fun _ => ?_
  refine (Meets.modify (Q := fun _ y => Offline y ∧ y.keepAliveInterval = 60) fun y hy => ?_).bind fun _ => ?_
  · subst hy
    exact ⟨hx.same rfl, rfl⟩
  refine Meets.ite (fun _ => Meets.pure fun y hy => ⟨by rw [hy.1.talk]; rfl, by omega⟩) fun _ => ?_
  refine (sendPacket_meets (Q := fun _ y => Agrees .asked true y ∧ y.keepAliveInterval = 60) fun y hy => ?_).bind
    fun rc => ?_
  · obtain ⟨hy, halive⟩ := hy
    refine ⟨?_, halive⟩
    rw [Agrees, overheard_push, hy.talk]
    simp [Talk.next, Talk.idle, Talk.say, view, hy.isInformed, hy.isQRcodegeted, hy.isparameterPutted,
      hy.pingOutstanding]
  refine Meets.ite (fun hrc => Meets.pure fun y hy => ⟨hy.1.isSome, fun h => absurd h hrc⟩) fun _ => ?_
  refine (elapse_meets (Q := fun _ y => Agrees .asked true y ∧ y.keepAliveInterval = 60) fun y hy => hy).bind
    fun _ => ?_
  cases i.reply.bind Incoming.packet with
  | none => exact Meets.pure fun y hy => ⟨hy.1.isSome, by omega⟩
  | some p =>
    refine (Meets.modify (Q := fun _ y => overheard y = some ((view .asked true none y).hear y.filter p) ∧
      y.keepAliveInterval = 60) fun y hy => ⟨?_, hy.2⟩).bind fun _ => ?_
    · rw [overheard_push, hy.1]
      rfl
    have hrefused : ∀ y : Session, overheard y = some ((view .asked true none y).hear y.filter p) ∧
        y.keepAliveInterval = 60 → (overheard y).isSome ∧ ((-1 : Int) = 0 → Opened 0 y) :=
      fun y hy => ⟨by rw [hy.1]; rfl, by omega⟩
    cases p with
    | connack code =>
      cases code with
      | none => exact Meets.pure hrefused
      | some code =>
        refine Meets.when (R := fun _ y => (overheard y).isSome ∧ ((code.toNat : Int) = 0 → Opened 0 y))
          (fun hc => Meets.modify fun y hy => ?_) (fun hc y hy => ?_) (Meets.pure fun _ h => h)
        · have hup : overheard y = some (view (.up 0) false none y) := by
            rw [hy.1]; simp [Talk.hear, view, answerTo, hc]
          exact ⟨Agrees.isSome hup, fun _ => ⟨hup, rfl, hy.2⟩⟩
        · refine ⟨by rw [hy.1]; rfl, fun h => absurd ?_ hc⟩
          exact BitVec.eq_of_toNat_eq (by simpa using h)
    | _ => exact Meets.pure hrefused

theorem mqttSubscribe_meets {topic : SubTopic} (i : Exchange) (hk : SubTopic.all[k]? = some topic) :
    Meets (Opened k) (mqttSubscribe topic i)
      (fun rc y => (overheard y).isSome ∧ (rc = 0 → Opened (k + 1) y)) AtLabel := by
  refine Meets.get fun x hx => ?_
  refine Meets.ite (fun h => absurd hx.isconnected h) fun _ => ?_
  refine (Meets.modify (Q := fun _ y => Opened k y) fun y hy => by
    subst hy; exact ⟨hx.talk, hx.isconnected, hx.keepAliveInterval⟩).bind fun _ => ?_
  refine Meets.ite (fun _ => Meets.pure fun y hy => ⟨hy.talk.isSome, by omega⟩) fun _ => ?_
  refine (sendPacket_meets (Q := fun _ y => Agrees (.up (k + 1)) true y ∧ y.isconnected = true ∧
    y.keepAliveInterval = 60) fun y hy => ⟨?_, hy.isconnected, hy.keepAliveInterval⟩).bind fun rc => ?_
  · rw [Agrees, overheard_push, hy.talk]
    simp [Talk.next, Talk.say, view, hk]
  refine Meets.ite (fun hrc => Meets.pure fun y hy => ⟨hy.1.isSome, fun h => absurd h hrc⟩) fun _ => ?_
  refine (elapse_meets (Q := fun _ y => Agrees (.up (k + 1)) true y ∧ y.isconnected = true ∧
    y.keepAliveInterval = 60) fun y hy => hy).bind fun _ => ?_
  cases i.reply with
  | none => exact Meets.pure fun y hy => ⟨hy.1.isSome, by omega⟩
  | some r =>
    refine Meets.intro fun y hy => (mqttCycle_meets r hy.1).mono (fun _ h => h) ?_ fun _ _ => atLabel_halt
    rintro rc z ⟨hz, b, hagrees, hb⟩
    refine ⟨hagrees.isSome, fun hrc => ⟨?_, hz.isconnected.trans hy.2.1,
      hz.keepAliveInterval.trans hy.2.2⟩⟩
    rwa [hb (by omega)] at hagrees

theorem subscribeAll_meets (i : SubTopic → Exchange) {ts : List SubTopic} (hk : k ≤ 4)
    (hts : ts = SubTopic.all.drop k) : Meets (Opened k) (subscribeAll i ts) (fun _ => Opened 4) AtLabel := by
  induction ts generalizing k with
  | nil =>
    have hall : SubTopic.all.length ≤ k := List.drop_eq_nil_iff.1 hts.symm
    have h4 : k = 4 := Nat.le_antisymm hk hall
    subst h4
    exact Meets.pure fun _ h => h
  | cons t ts ih =>
    have hlt : k < SubTopic.all.length := by
      refine Nat.lt_of_not_le fun h => ?_
      rw [List.drop_eq_nil_of_le h] at hts
      cases hts
    have ht : SubTopic.all[k]? = some t ∧ ts = SubTopic.all.drop (k + 1) := by
      rw [List.drop_eq_getElem_cons hlt, List.cons.injEq] at hts
      exact ⟨by rw [List.getElem?_eq_getElem hlt, hts.1], hts.2⟩
    refine (mqttSubscribe_meets (i t) ht.1).bind fun rc => Meets.jump (fun _ y hy => hy.1) fun hrc => ?_
    exact (ih hlt ht.2).pre fun y hy => hy.2 (not_not.1 hrc)

theorem mqttStart_meets (i : StartIn) (hx : Offline x) (hnet : x.netSts = false) :
    Meets (· = x) (mqttStart i) (fun _ y => y.place = .loop ∧ Online y) AtLabel := by
  refine (Meets.modify (Q := fun _ y => Offline y ∧ y.netSts = false) fun y hy => ?_).bind fun _ => ?_
  · subst hy
    exact ⟨hx.same rfl, hnet⟩
  refine Meets.jump (fun _ y hy => hy) fun _ => ?_
  refine (Meets.modify (Q := fun _ y => Offline y) fun y hy => hy.1.same rfl).bind fun _ => ?_
  refine Meets.jump (fun _ y hy => hy) fun _ => ?_
  refine Meets.bind (Meets.intro fun y hy => mqttConnect_meets i.connect hy) fun rc => ?_
  refine Meets.jump (fun _ y hy => hy.1) fun hrc => ?_
  refine ((subscribeAll_meets (k := 0) i.subscribe (by omega) rfl).pre fun y hy =>
    hy.2 (not_not.1 hrc)).bind fun _ => ?_
  exact Meets.modify fun y hy => ⟨rfl, ⟨hy.talk, hy.isconnected, hy.keepAliveInterval⟩, rfl⟩

/-! ## The loop -/

/-- The state of the exchange in which `s` is sent. -/
def Due (x : Session) : ClientSend → Prop
  | .inform => x.isInformed = false
  | .init | .sentInit => x.isInformed = true ∧ x.isQRcodegeted = false
  | .parameter => x.isInformed = true ∧ x.isQRcodegeted = true ∧ x.isparameterPutted = false
  | .ping | .realtime | .timing => x.isInformed = true ∧ x.isQRcodegeted = true ∧ x.isparameterPutted = true
  | .past => False

theorem due_choose (x : Session) : Due x (choose x).1 := by
  unfold choose
  split
  · simp_all [Due]
  · split
    · split <;> simp_all [Due]
    · split
      · simp_all [Due]
      · dsimp only
        split <;> split <;> simp_all [Due]

/-- What is published for `s`. -/
def topicOf : ClientSend → Option PubTopic
  | .inform => some .otaInform
  | .init | .sentInit => some .platformInit
  | .parameter => some .parameterPut
  | .realtime => some .realtimeReport
  | .timing => some .timingReport
  | .ping | .past => none

theorem mqClientPublish_meets (json fits : Bool) :
    Meets (· = x) (mqClientPublish json fits) (fun _ y => ∃ n, y = { x with nextPacketid := n }) E := by
  refine Meets.get ?_
  rintro y rfl
  refine Meets.ite (fun _ => Meets.pure ?_) fun _ => Meets.ite (fun _ => Meets.pure ?_) fun _ => ?_
  · rintro z rfl
    exact ⟨z.nextPacketid, rfl⟩
  · rintro z rfl
    exact ⟨z.nextPacketid, rfl⟩
  · refine (Meets.modify (Q := fun _ z => ∃ n, z = { y with nextPacketid := n }) ?_).bind fun _ =>
      Meets.pure fun _ h => h
    rintro z rfl
    exact ⟨_, rfl⟩

/-- A publication that is due may be made; it counts for the talk before it does for the client. -/
theorem overheard_publish (hx : Online x) (hdue : Due x x.sendState)
    (ht : topicOf x.sendState = some topic) :
    overheard { x with wire := x.wire ++ [.sent (.publish topic)] } = some (view (.up 4) true none (confirm x)) := by
  rw [overheard_push, hx.talk]
  cases hs : x.sendState <;> rw [hs] at hdue ht <;> simp only [topicOf, Option.some.injEq, reduceCtorEq] at ht <;>
    subst ht <;> simp only [Due] at hdue <;>
    simp [Talk.next, Talk.say, Talk.publish, Talk.steady, view, confirm, hs, hdue]

/-- The connection is as at the top of the loop, but for what the talk is at. -/
structure Linked (x : Session) : Prop where
  place : x.place = .loop
  isconnected : x.isconnected = true
  keepAliveInterval : x.keepAliveInterval = 60
  netSts : x.netSts = true

/-- At the top of the loop again. -/
def Round (y : Session) : Prop := y.place = .loop ∧ Online y

theorem receive_meets (r : Incoming) (hc : Linked x) (hx : Agrees (.up 4) b x) :
    Meets (· = x) (receive r) (fun _ y => Round y ∧ Handled x y) AtLabel := by
  refine ((mqttCycle_meets r hx).mono (fun _ h => h) (fun _ _ h => h) fun _ _ => atLabel_halt).bind fun rc => ?_
  refine Meets.ite (fun _ => Meets.throw ?_) fun hrc => Meets.pure ?_
  · rintro y ⟨-, b', hy, -⟩
    exact hy.isSome
  · rintro y ⟨hkept, b', hy, hb⟩
    rw [hb (by omega)] at hy
    exact ⟨⟨hkept.place.trans hc.place, ⟨hy, hkept.isconnected.trans hc.isconnected,
      hkept.keepAliveInterval.trans hc.keepAliveInterval⟩, hkept.netSts.trans hc.netSts⟩, hkept⟩

/-- The session once a publication has been made and the broker has given a sign. -/
def published (topic : PubTopic) (n took : Nat) (x : Session) : Session :=
  confirm { stamp topic { x with nextPacketid := n } with
    wire := x.wire ++ [.sent (.publish topic)], time := x.time + took }

theorem linked_published (n took : Nat) (hp : x.place = .loop) (hx : Online x) :
    Linked (published topic n took x) := by
  cases topic <;> exact ⟨hp, hx.isconnected, hx.keepAliveInterval, hx.netSts⟩

theorem agrees_published (n took : Nat) (hx : Online x) (hdue : Due x x.sendState)
    (ht : topicOf x.sendState = some topic) : Agrees (.up 4) true (published topic n took x) := by
  have h := overheard_publish hx hdue ht
  cases topic <;> exact h

theorem publish_meets (i : PublishIn) (hp : x.place = .loop) (hx : Online x)
    (hdue : Due x x.sendState) (ht : topicOf x.sendState = some topic) :
    Meets (· = x) (publish topic i) (fun _ y => Round y ∧ ∃ n took, Handled (published topic n took x) y)
      AtLabel := by
  have hsome : ∀ n took, (overheard (published topic n took x)).isSome := fun n took =>
    (agrees_published n took hx hdue ht).isSome
  refine (mqClientPublish_meets i.json i.fits).bind fun len => Meets.intro ?_
  rintro _ ⟨n, rfl⟩
  refine (Meets.modify (Q := fun _ y => y = stamp topic { x with nextPacketid := n }) fun y hy => by rw [hy]).bind
    fun _ => ?_
  refine Meets.jump (fun _ y hy => ?_) fun _ => ?_
  · subst hy
    cases topic <;> exact hx.talk.isSome
  refine (sendPacket_meets (Q := fun _ y => y =
    { stamp topic { x with nextPacketid := n } with wire := x.wire ++ [.sent (.publish topic)] }) ?_).bind fun rc => ?_
  · rintro _ rfl
    cases topic <;> rfl
  refine Meets.jump (fun _ y hy => ?_) fun _ => ?_
  · subst hy
    exact hsome n 0
  refine (elapse_meets (Q := fun _ y => y = { stamp topic { x with nextPacketid := n } with
    wire := x.wire ++ [.sent (.publish topic)], time := x.time + i.took }) ?_).bind fun _ => ?_
  · rintro _ rfl
    cases topic <;> rfl
  cases i.reply with
  | none => exact Meets.throw fun y hy => by subst hy; exact hsome n i.took
  | some r =>
    refine (Meets.modify (Q := fun _ y => y = published topic n i.took x) fun y hy => by rw [hy]; rfl).bind fun _ => ?_
    refine (receive_meets r (linked_published n i.took hp hx) (agrees_published n i.took hx hdue ht)).post ?_
    exact fun _ y hy => ⟨hy.1, n, i.took, hy.2⟩

/-- The session once a ping has been sent. -/
def pinged (x : Session) : Session := { x with wire := x.wire ++ [.sent .pingreq], pingOutstanding := true }

theorem keepalive_meets (sent : Bool) (hp : x.place = .loop) (hx : Online x) (hdue : Due x .ping) :
    Meets (· = x) (keepalive sent)
      (fun rc y => (overheard y).isSome ∧ (rc = 0 → Round y ∧ x.pingOutstanding = false ∧ y = pinged x)) AtLabel := by
  refine Meets.get ?_
  rintro x rfl
  refine Meets.ite (fun h => absurd hx.isconnected h) fun _ => ?_
  refine Meets.ite (fun _ => Meets.pure fun y hy => ?_) fun _ => ?_
  · subst hy
    exact ⟨hx.talk.isSome, by omega⟩
  refine Meets.ite (fun _ => Meets.pure fun y hy => ?_) fun hping => ?_
  · subst hy
    exact ⟨hx.talk.isSome, by omega⟩
  have htalk : Agrees (.up 4) false (pinged x) := by
    refine (overheard_push x (.sent .pingreq)).trans ?_
    rw [hx.talk]
    simp only [Due] at hdue
    simp [Talk.next, Talk.say, Talk.steady, view, pinged, hdue, hping]
  refine (sendPacket_meets (Q := fun _ y => y = { x with wire := x.wire ++ [.sent .pingreq] }) fun y hy => by
    rw [hy]).bind fun rc => ?_
  refine Meets.when (R := fun _ y => (overheard y).isSome ∧ (rc = 0 → Round y ∧ x.pingOutstanding = false ∧ y = pinged x))
    (fun _ => Meets.modify fun y hy => ?_) (fun hrc y hy => ?_) (Meets.pure fun _ h => h)
  · subst hy
    exact ⟨htalk.isSome, fun _ => ⟨⟨hp, ⟨htalk, hx.isconnected, hx.keepAliveInterval⟩, hx.netSts⟩, by simpa using hping,
      rfl⟩⟩
  · subst hy
    exact ⟨htalk.isSome, fun h => absurd h hrc⟩

theorem checkRest_meets (pipe : Option Command) (ready : Bool) (hP : ∀ y, P y → Round y) :
    Meets P (checkRest pipe ready) (fun _ => P) AtLabel := by
  unfold checkRest
  split
  · exact Meets.throw fun y hy => ⟨(hP y hy).2.talk.isSome, (hP y hy).2.netSts⟩
  · exact Meets.throw fun y hy => (hP y hy).2.talk.isSome
  · exact Meets.ite (fun _ => Meets.pure fun _ h => h) fun _ => Meets.throw fun y hy => (hP y hy).2.talk.isSome

/-- The session when the `select` of the loop has ended. -/
def waited (x : Session) (ms : Nat) : Session := { plan x with time := (plan x).time + ms }

/-- What a round does: it sends what is due, or handles what has come. -/
inductive Turn (x : Session) (i : PassIn) (y : Session) : Prop
  | published (p : PublishIn) (topic : PubTopic) (n took : Nat) (hselect : i.select = .timeout p)
      (htopic : topicOf (choose x).1 = some topic)
      (hy : Handled (published topic n took (waited x i.waited)) y)
  | pinged (p : PublishIn) (hselect : i.select = .timeout p) (hping : (choose x).1 = .ping)
      (hfirst : x.pingOutstanding = false) (hy : y = pinged (waited x i.waited))
  | quiet (sock : Option Incoming) (pipe : Option Command) (hselect : i.select = .input sock pipe)
      (hy : Handled (waited x i.waited) y)

theorem waited_eq (x : Session) (ms : Nat) : ∃ a b, waited x ms =
    { x with sendState := (choose x).1, realtimeInterval := a, timingInterval := b, time := x.time + ms } := by
  unfold waited plan
  by_cases h : x.isInformed ∧ x.isQRcodegeted ∧ x.isparameterPutted
  · rw [if_pos h]
    exact ⟨_, _, rfl⟩
  · rw [if_neg h]
    exact ⟨_, _, rfl⟩

theorem mqttPass_meets (i : PassIn) (hp : x.place = .loop) (hx : Online x) :
    Meets (· = x) (mqttPass i) (fun _ y => Round y ∧ Turn x i y) AtLabel := by
  refine (Meets.modify (Q := fun _ y => y = plan x) fun y hy => by rw [hy]).bind fun _ => ?_
  refine (elapse_meets (Q := fun _ y => y = waited x i.waited) ?_).bind fun _ => ?_
  · rintro _ rfl
    rfl
  obtain ⟨a, b, hw⟩ := waited_eq x i.waited
  have hround : Round (waited x i.waited) := by
    rw [hw]
    exact ⟨hp, ⟨hx.talk, hx.isconnected, hx.keepAliveInterval⟩, hx.netSts⟩
  have hstate : (waited x i.waited).sendState = (choose x).1 := by rw [hw]
  have hdue : Due (waited x i.waited) (waited x i.waited).sendState := by
    rw [hstate, hw]
    exact due_choose x
  cases hselect : i.select with
  | failed => exact Meets.throw fun y hy => by subst hy; exact hround.2.talk.isSome
  | timeout p =>
    refine Meets.get fun y hy => ?_
    subst hy
    have hpub : ∀ topic, topicOf (choose x).1 = some topic →
        Meets (· = waited x i.waited) (do publish topic p; checkRest none i.ready) (fun _ y => Round y ∧ Turn x i y)
          AtLabel := by
      refine fun topic ht => (publish_meets p hround.1 hround.2 hdue (hstate ▸ ht)).bind fun _ => ?_
      refine (checkRest_meets none i.ready fun y hy => hy.1).post ?_
      rintro _ y ⟨hy, n, took, hkept⟩
      exact ⟨hy, .published p topic n took hselect ht hkept⟩
    rw [hstate]
    rw [hstate] at hdue
    cases hs : (choose x).1 with
    | ping =>
      refine (keepalive_meets p.sent hround.1 hround.2 (hs ▸ hdue)).bind fun rc => ?_
      refine Meets.ite (fun _ => Meets.throw fun z hz => hz.1) fun hrc => Meets.pure fun z hz => ?_
      obtain ⟨hz, hfirst, hpinged⟩ := hz.2 (not_not.1 hrc)
      refine ⟨hz, .pinged p hselect hs ?_ hpinged⟩
      rwa [hw] at hfirst
    | past => exact Meets.throw fun z hz => by subst hz; exact hround.2.talk.isSome
    | inform => exact hpub _ (by rw [hs]; rfl)
    | init => exact hpub _ (by rw [hs]; rfl)
    | sentInit => exact hpub _ (by rw [hs]; rfl)
    | parameter => exact hpub _ (by rw [hs]; rfl)
    | realtime => exact hpub _ (by rw [hs]; rfl)
    | timing => exact hpub _ (by rw [hs]; rfl)
  | input sock pipe =>
    cases sock with
    | none =>
      refine (checkRest_meets (P := fun y => Round y ∧ y = waited x i.waited) pipe i.ready fun _ h => h.1).mono ?_ ?_
        fun _ _ h => h
      · rintro _ rfl
        exact ⟨hround, rfl⟩
      · rintro _ y ⟨hy, rfl⟩
        exact ⟨hy, .quiet none pipe hselect (handled_wire _ List.prefix_rfl)⟩
    | some r =>
      have hc : Linked (waited x i.waited) :=
        ⟨hround.1, hround.2.isconnected, hround.2.keepAliveInterval, hround.2.netSts⟩
      refine (receive_meets r hc hround.2.talk).bind fun _ => ?_
      refine (checkRest_meets pipe i.ready fun y hy => hy.1).post ?_
      exact fun _ y hy => ⟨hy.1, .quiet (some r) pipe hselect hy.2⟩

/-! ## Runs -/

theorem proper_of_online (hp : x.place = .loop) (hx : Online x) : Proper x := by
  rw [Proper, hp]
  exact hx

theorem proper_through {m : Mqtt PUnit}
    (h : Meets (· = x) m (fun _ => Round) AtLabel) : Proper (through m x) := by
  unfold through
  obtain ⟨_, y, hm, hy⟩ | ⟨j, y, hm, hy⟩ := h x rfl
  · rw [hm]
    exact proper_of_online hy.1 hy.2
  · rw [hm]
    exact proper_leave hy

theorem Proper.isSome (h : Proper x) : (overheard x).isSome := by
  unfold Proper at h
  split at h
  · rw [h.1.talk]; rfl
  · exact h.talk.isSome
  · rw [h.1.talk]; rfl
  · exact h

theorem proper_dev (d : Dev) (h : Proper x) : Proper { x with dev := d } := by
  unfold Proper at h ⊢
  cases hp : x.place <;> simp only [hp] at h ⊢
  · exact ⟨h.1.same rfl, h.2⟩
  · exact ⟨⟨h.talk, h.isconnected, h.keepAliveInterval⟩, h.netSts⟩
  · exact ⟨h.1.same rfl, h.2⟩
  · exact h

theorem proper_mqttStep (x : Session) (e : MqttEvent) (h : Proper x) : Proper (mqttStep x e) := by
  cases e with
  | start i =>
    show Proper (if x.place = .start then _ else x)
    split
    next hp =>
      rw [Proper, hp] at h
      exact proper_through (mqttStart_meets i h.1 h.2)
    next => exact h
  | pass i =>
    show Proper (if x.place = .loop then _ else x)
    split
    next hp =>
      rw [Proper, hp] at h
      exact proper_through ((mqttPass_meets i hp h).post fun _ _ hy => hy.1)
    next => exact h
  | request null r =>
    unfold mqttStep
    dsimp only
    split
    · exact h
    · split
      · exact proper_dev _ h
      · exact h.isSome

theorem proper_sessionAfter (filter : SubTopic → List Char) (time : Nat) (d : Dev) (es : List MqttEvent) :
    Proper (sessionAfter filter time d es) := by
  refine run_keeps proper_mqttStep ?_ es
  show Offline _ ∧ _
  exact ⟨⟨rfl, rfl, rfl, rfl, rfl, rfl⟩, rfl⟩

/-- After its `return` the thread does nothing any more, and the bit stays. -/
theorem run_exited (hp : x.place = .exited) (hn : x.netSts = true) (es : List MqttEvent) :
    (run mqttStep x es).netSts = true ∧ (run mqttStep x es).wire = x.wire := by
  have hstop : (run mqttStep x es).netSts = true ∧ (run mqttStep x es).wire = x.wire ∧
      ((run mqttStep x es).place = .exited ∨ (run mqttStep x es).place = .halted) := by
    refine run_keeps (I := fun y : Session => y.netSts = true ∧ y.wire = x.wire ∧ (y.place = .exited ∨ y.place = .halted))
      (fun y e hy => ?_) ⟨hn, rfl, .inl hp⟩ es
    obtain ⟨hy, hw, hpl⟩ := hy
    cases e with
    | start i =>
      have : mqttStep y (.start i) = y := if_neg (by rcases hpl with h | h <;> simp [h])
      rw [this]
      exact ⟨hy, hw, hpl⟩
    | pass i =>
      have : mqttStep y (.pass i) = y := if_neg (by rcases hpl with h | h <;> simp [h])
      rw [this]
      exact ⟨hy, hw, hpl⟩
    | request null r =>
      unfold mqttStep
      dsimp only
      split
      · exact ⟨hy, hw, hpl⟩
      · split
        · exact ⟨hy, hw, hpl⟩
        · exact ⟨hy, hw, .inr rfl⟩
  exact ⟨hstop.1, hstop.2.1⟩

end WM.Proof
