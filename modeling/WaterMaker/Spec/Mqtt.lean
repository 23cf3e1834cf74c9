import WaterMaker.Framework.Run
import WaterMaker.Impl.Mqtt
import WaterMaker.Impl.MqttRead

/-!
# A session with the cloud

The protocol as someone sees it who only watches the sockets. `Talk` is what the traffic so far amounts to, and
`Talk.next` has a result only for what may come next. A connection is asked for and granted, the four topics are
subscribed to, the machine says what it is, asks for its QR code until there is a notice, puts its parameters, and
only then sends reports and pings; a wish for the parameters takes it back by one step. The machine waits for a
packet after each of its own and answers what asks for an answer.
-/

namespace WM.Spec

open Impl

/-- How far a connection has come; `up k` has `k` subscriptions. -/
inductive Stage
  | closed | asked
  | up (k : Nat)
  deriving DecidableEq, Repr

structure Talk where
  phase : Stage
  /-- a packet must come before the next is sent -/
  waiting : Bool
  /-- the answer that the last packet asks for -/
  answer : Option Sent
  informed : Bool
  noticed : Bool
  put : Bool
  pinging : Bool
  deriving DecidableEq, Repr

/-- A message that can be understood. -/
def hasCode : Option ParamMsg → Bool
  | none => false
  | some m => match m.mCode with | some (.str _) => true | _ => false

variable (filter : SubTopic → List Char)

/-- The QR code is there. -/
def isNotice (m : Message) : Bool := m.isFor (filter .waterNotice) && hasCode m.payload

/-- The cloud wants to have the parameters. -/
def isWish (m : Message) : Bool := m.isFor (filter .parameterGet) && hasCode m.payload

/-- The answer that a packet asks for. -/
def answerTo : Packet → Option Sent
  | .publish (some m) => if m.qos = 1 then some (.puback m.id) else if m.qos = 2 then some (.pubrec m.id) else none
  | .pubrec (some id) => some (.pubrel id)
  | _ => none

namespace Talk

def idle : Talk := ⟨.closed, false, none, false, false, false, false⟩

/-- Everything has been exchanged that comes before the reports. -/
def steady (t : Talk) : Bool := t.informed && t.noticed && t.put

/-- A packet from the broker. -/
def hear (t : Talk) (p : Packet) : Talk :=
  let t := { t with waiting := false, answer := answerTo p }
  match p with
  | .connack code => if t.phase = .asked ∧ code = some 0 then { t with phase := .up 0 } else t
  | .publish (some m) => { t with noticed := t.noticed || isNotice filter m, put := t.put && !isWish filter m }
  | .pingresp => { t with pinging := false }
  | _ => t

/-- A publication, in the state in which it is due. -/
def publish (t : Talk) : PubTopic → Option Talk
  | .otaInform => if ¬t.informed then some { t with informed := true, waiting := true } else none
  | .platformInit => if t.informed ∧ ¬t.noticed then some { t with waiting := true } else none
  | .parameterPut =>
    if t.informed ∧ t.noticed ∧ ¬t.put then some { t with put := true, waiting := true } else none
  | .realtimeReport | .timingReport => if t.steady then some { t with waiting := true } else none

/-- A packet of the machine when none is to be answered. -/
def say (t : Talk) : Sent → Option Talk
  | .connect => if t.phase = .closed then some { t with phase := .asked, waiting := true } else none
  | .subscribe topic =>
    match t.phase with
    | .up k => if SubTopic.all[k]? = some topic then some { t with phase := .up (k + 1), waiting := true } else none
    | _ => none
  | .publish topic => if t.phase = .up 4 then t.publish topic else none
  | .pingreq => if t.phase = .up 4 ∧ t.steady ∧ ¬t.pinging then some { t with pinging := true } else none
  | _ => none

/-- What may come next, and what it leads to. A connection may be ended at any time. -/
def next (t : Talk) : Wire → Option Talk
  | .got p => if t.phase = .closed then none else some (t.hear filter p)
  | .sent .disconnect => some idle
  | .sent p =>
    match t.answer with
    | some a => if p = a then some { t with answer := none } else none
    | none => if t.waiting then none else t.say p

/-- The traffic of a machine, from its start. -/
def after (ws : List Wire) : Option Talk := ws.foldlM (next filter) idle

end Talk

/-! ## What has to be sent again and again -/

/-- The packets of a session that is under way. -/
inductive Job
  | ping | timing | realtime
  deriving DecidableEq, Repr

namespace Job

def packet : Job → Sent
  | ping => .pingreq
  | timing => .publish .timingReport
  | realtime => .publish .realtimeReport

/-- The seconds from one to the next. -/
def interval (x : Session) : Job → Int
  | ping => x.keepAliveInterval - 10
  | timing => (networkGetInterval x.dev).2
  | realtime => (networkGetInterval x.dev).1

/-- When there was one last; for a ping, when it was answered. -/
def stamp (x : Session) : Job → RtTick
  | ping => x.tickPing
  | timing => x.tickTiming
  | realtime => x.tickRealtime

/-- The milliseconds since then. -/
def age (x : Session) (j : Job) : Nat := (x.tick - j.stamp x).toNat

/-- The milliseconds left until the next one. -/
def left (x : Session) (j : Job) : Int := 1000 * j.interval x - j.age x

end Job

/-- Everything has been exchanged that comes before the reports. -/
def UnderWay (x : Session) : Prop := x.isInformed = true ∧ x.isQRcodegeted = true ∧ x.isparameterPutted = true

/-- Nothing comes in between: the connection stays, the cloud does not ask for the parameters, the intervals are not
changed and no count of milliseconds goes round. -/
structure Uneventful (x : Session) (e : MqttEvent) : Prop where
  place : (mqttStep x e).place = .loop
  underWay : UnderWay (mqttStep x e)
  intervals : networkGetInterval (mqttStep x e).dev = networkGetInterval x.dev
  clock : ∀ j : Job, j.age x + ((mqttStep x e).time - x.time) < 4294967296

/-- The wait of the loop ends without anything to read. -/
def idle : MqttEvent → Bool
  | .pass ⟨_, .timeout _, _⟩ => true
  | _ => false

/-! ## Packets as bytes -/

/-- A packet as it is sent: its first byte, the length of the rest, and the rest. -/
structure Framed where
  header : Byte
  body : List Byte
  fits : body.length < 268435456

def Framed.bytes (p : Framed) : List Byte := p.header :: mqttPacketEncode p.body.length ++ p.body

/-- No call of `recv` comes back with nothing. -/
def Forthcoming (s : Socket) : Prop := ∀ r ∈ s.recvs, ∃ n, 1 ≤ n ∧ r = Recv.upto n

/-- The session of a client with the given filters, after a run. -/
def sessionAfter (filter : SubTopic → List Char) (time : Nat) (d : Dev) (es : List MqttEvent) : Session :=
  run mqttStep (mqttClientInit filter time d) es

end WM.Spec
