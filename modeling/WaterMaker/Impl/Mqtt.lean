import WaterMaker.Impl.Remote

/-!
# The link to the cloud

`paho_mqtt_thread` keeps a session with the broker. From `_mqtt_start` it connects and subscribes (`mqttStart`); then
it goes round a loop (`mqttPass`) that waits for a packet, for a command of the pipe, or until something has to be
sent. A `goto` is a `Jump`. What `select`, `send` and the module do is in the arguments, and a packet is what the
packet library makes of the bytes in `readbuf`; `rt_tick` counts milliseconds.
-/

namespace WM.Impl

abbrev RtTick := BitVec 32

/-! ## Packets -/

/-- `_topic_sub_enmu_t`. -/
inductive SubTopic
  | waterNotice | parameterSet | parameterGet | otaUpgrade
  deriving DecidableEq, Repr

/-- The subscriptions in their order. -/
def SubTopic.all : List SubTopic := [.waterNotice, .parameterSet, .parameterGet, .otaUpgrade]

/-- `_topic_pub_enmu_t`, as far as the thread uses it. -/
inductive PubTopic
  | platformInit | parameterPut | realtimeReport | timingReport | otaInform
  deriving DecidableEq, Repr

/-- `MessageData`; the payload is a text, which may be no JSON. -/
structure Message where
  topicName : List Char
  qos : Nat
  id : Word
  payload : Option ParamMsg

/-- A packet from the broker. Where the library may find it malformed it is in an `Option`. -/
inductive Packet
  | connack (code : Option Byte)
  | puback
  | suback (grantedQoS : Option Nat)
  | publish (message : Option Message)
  | pubrec (id : Option Word)
  | pubcomp
  | pingresp
  | other

/-- A packet to the broker. -/
inductive Sent
  | connect
  | subscribe (topic : SubTopic)
  | publish (topic : PubTopic)
  | puback (id : Word)
  | pubrec (id : Word)
  | pubrel (id : Word)
  | pingreq
  | disconnect
  deriving DecidableEq, Repr

/-- What passes over the socket. -/
inductive Wire
  | sent (p : Sent)
  | got (p : Packet)

/-! ## The client -/

/-- `enum ClientSend`; `sendState++` may go past the last one. -/
inductive ClientSend
  | inform | init | sentInit | parameter | ping | realtime | timing | past
  deriving DecidableEq, Repr

def ClientSend.next : ClientSend → ClientSend
  | inform => init
  | init => sentInit
  | sentInit => parameter
  | parameter => ping
  | ping => realtime
  | realtime => timing
  | timing => past
  | past => past

/-- Where the thread is: at `_mqtt_start`, at the top of its loop, after its `return`; or the controller has stopped. -/
inductive Place
  | start | loop | exited | halted
  deriving DecidableEq, Repr

/-- `MQTTClient` and what else the thread uses. -/
structure Session where
  place : Place
  /-- `messagesubHandlers[i].topicFilter` -/
  filter : SubTopic → List Char
  isconnected : Bool
  isInformed : Bool
  isQRcodegeted : Bool
  isparameterPutted : Bool
  pingOutstanding : Bool
  keepAliveInterval : Nat
  tickPing : RtTick
  tickRealtime : RtTick
  tickTiming : RtTick
  realtimeInterval : Nat
  timingInterval : Nat
  nextPacketid : Nat
  sendState : ClientSend
  /-- the bit `NET_STS_BPOS` of the status that the display shows -/
  netSts : Bool
  /-- the time since the start; `rt_tick` is cut to its size -/
  time : Nat
  dev : Dev
  /-- what has passed over the sockets so far -/
  wire : List Wire

/-- The labels behind the loop, and the ways in which the controller stops. -/
inductive Jump
  | disconnect | restart | netDisconnect | disconnectExit
  | halt (h : Halt)

abbrev Mqtt := EStateM Jump Session

namespace Session

/-- `rt_tick_get`. -/
def tick (x : Session) : RtTick := BitVec.ofNat 32 x.time

/-- `(tick_now - t) / RT_TICK_PER_SECOND`. -/
def secondsSince (x : Session) (t : RtTick) : Nat := (x.tick - t).toNat / 1000

end Session

/-- Time passes. -/
def elapse (ms : Nat) : Mqtt PUnit := modify fun x => { x with time := x.time + ms }

/-- `sendPacket`. -/
def sendPacket (p : Sent) (ok : Bool) : Mqtt Int := do
  modify fun x => { x with wire := x.wire ++ [.sent p] }
  return if ok then 0 else -1

/-- `getNextPacketId`. -/
def getNextPacketId : Mqtt PUnit :=
  modify fun x => { x with nextPacketid := if x.nextPacketid = 65535 then 1 else x.nextPacketid + 1 }

/-! ## Messages -/

/-- `isTopicMatched`: the two pointers walk on until one text ends or a character does not fit. -/
def isTopicMatched : List Char → List Char → Bool
  | [], [] => true
  | [], _ :: _ => false
  | _ :: _, [] => false
  | f :: fs, c :: cs =>
    if c = '/' ∧ f ≠ '/' then false
    else if f ≠ '+' ∧ f ≠ '#' ∧ f ≠ c then false
    else
      -- a `+` skips to the next separator and a `#` to the end
      isTopicMatched fs (if f = '+' then cs.dropWhile (· ≠ '/') else if f = '#' then [] else cs)

/-- `network_water_notice_parse`: every text with a code is taken for a notice. -/
def networkWaterNoticeParse : Option ParamMsg → Except Halt Int
  | none => .ok (-1)
  | some m =>
    match m.mCode with
    | none => .ok (-1)
    | some .other => .error .fault
    | some (.str _) => .ok 0

/-- `network_parameter_get_parse`: the code must be there. -/
def networkParameterGetParse : Option ParamMsg → Except Halt Int
  | none => .ok (-1)
  | some m =>
    match m.mCode with
    | some (.str _) => .ok 0
    | _ => .error .fault

/-- A part that cannot jump but may stop the controller. -/
def orHalt {α : Type} : Except Halt α → Mqtt α
  | .ok a => pure a
  | .error h => throw (.halt h)

/-- `messagesubHandlers[i].callback`. -/
def callback (null : NullStore) (mem : Nat × Nat) (m : Message) : SubTopic → Mqtt PUnit
  | .waterNotice => do
    if (← orHalt (networkWaterNoticeParse m.payload)) = 0 then
      modify fun x => { x with isQRcodegeted := true }
  | .parameterSet => do
    let d ← orHalt (networkParameterSetParse null mem m.payload (← get).dev)
    modify fun x => { x with dev := d }
  | .parameterGet => do
    if (← orHalt (networkParameterGetParse m.payload)) = 0 then
      modify fun x => { x with isparameterPutted := false }
  | .otaUpgrade => pure ⟨⟩

/-- `MQTTPacket_equals(topicName, filter) || isTopicMatched(filter, topicName)`. -/
def Message.isFor (m : Message) (filter : List Char) : Bool :=
  m.topicName = filter || isTopicMatched filter m.topicName

/-- `deliverMessage` from one handler on; the default handler only logs. -/
def deliverMessage (null : NullStore) (mem : Nat × Nat) (m : Message) : List SubTopic → Mqtt PUnit
  | [] => pure ⟨⟩
  | i :: is => do
    if m.isFor ((← get).filter i) then callback null mem m i
    deliverMessage null mem m is

/-! ## Packets that come in -/

/-- A packet that is read, if the reading goes well, and what its handling meets: what a store through NULL does, the
memory there is, and how the sending of an answer goes. -/
structure Incoming where
  packet : Option Packet
  null : NullStore
  mem : Nat × Nat
  acked : Bool

/-- `MQTT_cycle`. -/
def mqttCycle (r : Incoming) : Mqtt Int :=
  match r.packet with
  | none => return -3
  | some p => do
    modify fun x => { x with wire := x.wire ++ [.got p] }
    match p with
    | .connack _ | .puback | .pubcomp | .other => return 0
    | .suback granted => return if granted = some 0x80 then 0x80 else 0
    | .publish none => return 0
    | .publish (some m) =>
      deliverMessage r.null r.mem m SubTopic.all
      if m.qos = 0 then return 0
      else if m.qos = 1 then sendPacket (.puback m.id) r.acked
      else if m.qos = 2 then sendPacket (.pubrec m.id) r.acked
      else return -1
    | .pubrec none => return -1
    | .pubrec (some id) => sendPacket (.pubrel id) r.acked
    | .pingresp =>
      modify fun x => { x with tickPing := x.tick, pingOutstanding := false }
      return 0

/-! ## Opening a connection -/

/-- How a request goes: the packet fits into `buf`, it is sent, and a packet comes within five seconds. -/
structure Exchange where
  fits : Bool
  sent : Bool
  took : Nat
  reply : Option Incoming

/-- `MQTTConnect`. -/
def mqttConnect (i : Exchange) : Mqtt Int := do
  if (← get).isconnected then return -1
  modify fun x => { x with keepAliveInterval := 60 }
  if ¬i.fits then return -1
  let rc ← sendPacket .connect i.sent
  if rc ≠ 0 then return rc
  elapse i.took
  match i.reply.bind Incoming.packet with
  | none => return -1
  | some p =>
    modify fun x => { x with wire := x.wire ++ [.got p] }
    match p with
    | .connack (some code) =>
      if code = 0 then modify fun x => { x with isconnected := true }
      return code.toNat
    | _ => return -1

/-- `MQTTDisconnect`. -/
def mqttDisconnect : Mqtt PUnit := do
  let _ ← sendPacket .disconnect true
  modify fun x => { x with isconnected := false, isQRcodegeted := false, isparameterPutted := false,
                           isInformed := false, pingOutstanding := false }

/-- `MQTTSubscribe`. Any packet that is not a refusal will do for an answer. -/
def mqttSubscribe (topic : SubTopic) (i : Exchange) : Mqtt Int := do
  if ¬(← get).isconnected then return -1
  getNextPacketId
  if ¬i.fits then return -1
  let rc ← sendPacket (.subscribe topic) i.sent
  if rc ≠ 0 then return rc
  elapse i.took
  match i.reply with
  | none => return -1
  | some r => mqttCycle r

def subscribeAll (i : SubTopic → Exchange) : List SubTopic → Mqtt PUnit
  | [] => pure ⟨⟩
  | t :: ts => do
    if (← mqttSubscribe t (i t)) ≠ 0 then throw .disconnect
    subscribeAll i ts

/-- From `_mqtt_start` to the loop. `ready` says that the module is, `net` how `net_connect` ends. -/
structure StartIn where
  ready : Bool
  net : Bool
  took : Nat
  connect : Exchange
  subscribe : SubTopic → Exchange

def mqttStart (i : StartIn) : Mqtt PUnit := do
  elapse i.took
  if ¬i.ready then throw .netDisconnect
  modify fun x => { x with nextPacketid := 0 }
  if ¬i.net then throw .restart
  if (← mqttConnect i.connect) ≠ 0 then throw .disconnect
  subscribeAll i.subscribe SubTopic.all
  modify fun x => { x with netSts := true, tickPing := x.tick, tickRealtime := x.tick, tickTiming := x.tick,
                           place := .loop }

/-! ## The loop -/

/-- `network_get_interval`, from `Fixed_Report` and `Real_Report`. -/
def networkGetInterval (d : Dev) : Nat × Nat :=
  (max 5 (min 1000 (d.conf 102).toNat), max 60 (min 60000 ((d.conf 101).toNat * 60)))

/-- What is to be sent next, and the seconds to wait for it. -/
def choose (x : Session) : ClientSend × Int :=
  if ¬x.isInformed then (.inform, 1)
  else if ¬x.isQRcodegeted then
    if x.sendState = .sentInit then (.sentInit, 5) else (.init, 1)
  else if ¬x.isparameterPutted then (.parameter, 1)
  else
    let (real, timing) := networkGetInterval x.dev
    let next : ClientSend × Int := (.ping, x.keepAliveInterval - 10 - x.secondsSince x.tickPing)
    let t : Int := timing - x.secondsSince x.tickTiming
    let next := if t < next.2 then (.timing, t) else next
    let t : Int := real - x.secondsSince x.tickRealtime
    let next := if t < next.2 then (.realtime, t) else next
    (next.1, if next.2 ≤ 5 then 1 else next.2)

/-- The top of the loop; the intervals are read only where reports are due. -/
def plan (x : Session) : Session :=
  let x := if x.isInformed ∧ x.isQRcodegeted ∧ x.isparameterPutted then
      { x with realtimeInterval := (networkGetInterval x.dev).1, timingInterval := (networkGetInterval x.dev).2 }
    else x
  { x with sendState := (choose x).1 }

/-- `mq_client_publish`; `json` says that there is memory for the text. -/
def mqClientPublish (json fits : Bool) : Mqtt Int := do
  if ¬(← get).isconnected then return -1
  if ¬json then return -1
  getNextPacketId
  return if fits then 1 else -1

/-- `keepalive`. Its `SUCCESS` is that of the chip's library, which is not 0. -/
def keepalive (sent : Bool) : Mqtt Int := do
  let x ← get
  if ¬x.isconnected then return 1
  if x.keepAliveInterval = 0 then return 1
  if x.pingOutstanding then return -1
  let rc ← sendPacket .pingreq sent
  if rc = 0 then modify fun x => { x with pingOutstanding := true }
  return rc

/-- What a publication or a ping meets. -/
structure PublishIn extends Exchange where
  json : Bool

/-- The time of a report is noted before it is sent. -/
def stamp (topic : PubTopic) (x : Session) : Session :=
  match topic with
  | .realtimeReport => { x with tickRealtime := x.tick }
  | .timingReport => { x with tickTiming := x.tick }
  | _ => x

/-- The broker has given a sign, of whatever kind. -/
def confirm (x : Session) : Session :=
  { x with
    isInformed := x.isInformed || x.sendState = .inform
    isparameterPutted := x.isparameterPutted || x.sendState = .parameter
    sendState := if x.sendState = .sentInit then .sentInit else x.sendState.next }

/-- The socket has something to read. -/
def receive (r : Incoming) : Mqtt PUnit := do if (← mqttCycle r) < 0 then throw .disconnect

/-- The publication of `sendState`. -/
def publish (topic : PubTopic) (i : PublishIn) : Mqtt PUnit := do
  let len ← mqClientPublish i.json i.fits
  modify (stamp topic)
  if len ≤ 0 then throw .disconnect
  if (← sendPacket (.publish topic) i.sent) ≠ 0 then throw .disconnect
  elapse i.took
  match i.reply with
  | none => throw .disconnect
  | some r =>
    modify confirm
    receive r

/-- A command of the pipe. -/
inductive Command
  | disconnect | reconnect | refresh | other

/-- How the `select` of the loop ends. -/
inductive Select
  | failed
  | timeout (i : PublishIn)
  | input (sock : Option Incoming) (pipe : Option Command)

structure PassIn where
  waited : Nat
  select : Select
  /-- the module is ready at the end -/
  ready : Bool

/-- The pipe, and then the module. -/
def checkRest (pipe : Option Command) (ready : Bool) : Mqtt PUnit :=
  match pipe with
  | some .disconnect => throw .disconnectExit
  | some .reconnect => throw .disconnect
  | _ => if ready then pure ⟨⟩ else throw .disconnect

/-- Once round the loop. -/
def mqttPass (i : PassIn) : Mqtt PUnit := do
  modify plan
  elapse i.waited
  match i.select with
  | .failed => throw .disconnect
  | .timeout p =>
    match (← get).sendState with
    -- a ping goes straight back to the top
    | .ping => if (← keepalive p.sent) ≠ 0 then throw .disconnect
    | .inform => publish .otaInform p; checkRest none i.ready
    | .init | .sentInit => publish .platformInit p; checkRest none i.ready
    | .parameter => publish .parameterPut p; checkRest none i.ready
    | .realtime => publish .realtimeReport p; checkRest none i.ready
    | .timing => publish .timingReport p; checkRest none i.ready
    | .past => throw .disconnect
  | .input none pipe => checkRest pipe i.ready
  | .input (some r) pipe => receive r; checkRest pipe i.ready

/-! ## The thread -/

/-- The code behind the loop. `mqtt_offline_callback` takes the bit away, but not at `_mqtt_disconnect_exit`. -/
def leave : Jump → Session → Session
  | .disconnect, x => { (afterDisconnect x) with netSts := false, place := .start }
  | .restart, x => { x with netSts := false, place := .start }
  | .netDisconnect, x => { x with place := .start }
  | .disconnectExit, x => { (afterDisconnect x) with place := .exited }
  | .halt _, x => { x with place := .halted }
where
  afterDisconnect (x : Session) : Session :=
    match mqttDisconnect x with
    | .ok _ x => x
    | .error _ x => x

def through (m : Mqtt PUnit) (x : Session) : Session :=
  match m x with
  | .ok _ x => x
  | .error j x => leave j x

/-- The thread goes on, or a request from another side is carried out meanwhile. -/
inductive MqttEvent
  | start (i : StartIn)
  | pass (i : PassIn)
  | request (null : NullStore) (r : Request)

/-- One step of `paho_mqtt_thread` or of the others; an event in the wrong place is none. -/
def mqttStep (x : Session) : MqttEvent → Session
  | .start i => if x.place = .start then through (mqttStart i) x else x
  | .pass i => if x.place = .loop then through (mqttPass i) x else x
  | .request null r =>
    if x.place = .halted then x
    else
      match request null x.dev r with
      | .ok d => { x with dev := d }
      | .error _ => { x with place := .halted }

/-- `mqtt_client_init`; the rest of the client is zero at the start. -/
def mqttClientInit (filter : SubTopic → List Char) (time : Nat) (d : Dev) : Session where
  place := .start
  filter := filter
  isconnected := false
  isInformed := false
  isQRcodegeted := false
  isparameterPutted := false
  pingOutstanding := false
  keepAliveInterval := 0
  tickPing := 0
  tickRealtime := 0
  tickTiming := 0
  realtimeInterval := (networkGetInterval d).1
  timingInterval := (networkGetInterval d).2
  nextPacketid := 0
  sendState := .init
  netSts := false
  time := time
  dev := d
  wire := []

end WM.Impl
