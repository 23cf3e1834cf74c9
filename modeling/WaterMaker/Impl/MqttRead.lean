import WaterMaker.Impl.Eeprom

/-!
# Reading packets

`MQTTPacket_readPacket` takes a packet from the socket, in three parts: the first byte, the length, of up to four
bytes, and as many bytes as it says. `net_read` asks for the bytes of each part at most twice. The length is written
back into `readbuf` by `MQTTPacket_encode` of the packet library, in the shortest form.
-/

namespace WM.Impl

/-- How a call of `recv` ends: with at most so many bytes, with `ENOTCONN` or `ECONNRESET`, which `net_read` passes
over, or with another error. -/
inductive Recv
  | upto (n : Nat)
  | notConnected
  | failed
  deriving DecidableEq, Repr

/-- A socket: the bytes that the broker has sent or will send, and how the next calls of `recv` end. Those after
them have all the bytes that are asked for. -/
structure Socket where
  stream : List Byte
  recvs : List Recv
  deriving DecidableEq, Repr

/-- `recv`: the bytes, or nothing if `net_read` is to give up. -/
def Socket.recv (s : Socket) (asked : Nat) : Option (List Byte) × Socket :=
  match s.recvs with
  | [] => (some (s.stream.take asked), { s with stream := s.stream.drop asked })
  | .upto n :: rs => (some (s.stream.take (min n asked)), ⟨s.stream.drop (min n asked), rs⟩)
  | .notConnected :: rs => (some [], { s with recvs := rs })
  | .failed :: rs => (none, { s with recvs := rs })

/-- What `net_read` has stored in the buffer, and whether it returns their number. -/
structure NetRead where
  stored : List Byte
  ok : Bool
  deriving DecidableEq, Repr

/-- `net_read`; with a `timeout` it waits once and tries again. -/
def netRead (len : Nat) (timeout : Bool) (s : Socket) : NetRead × Socket :=
  if len = 0 then (⟨[], true⟩, s)
  else
    match s.recv len with
    | (none, s) => (⟨[], false⟩, s)
    | (some first, s) =>
      if first.length ≥ len ∨ ¬timeout then (⟨first, true⟩, s)
      else
        match s.recv (len - first.length) with
        | (none, s) => (⟨first, false⟩, s)
        | (some second, s) => (⟨first ++ second, true⟩, s)

/-- The loop of `decodePacket`, with the number of bytes it may still read. -/
def decodeLoop : Nat → Nat → Nat → Socket → Nat × Socket
  | 0, _, value, s => (value, s)
  | k + 1, multiplier, value, s =>
    match netRead 1 true s with
    | (⟨[i], true⟩, s) =>
      let value := value + (i &&& 127).toNat * multiplier
      if i &&& 128 ≠ 0 then decodeLoop k (multiplier * 128) value s else (value, s)
    | (_, s) => (value, s)

/-- `decodePacket`. Nobody looks at how it ends. -/
def decodePacket (s : Socket) : Nat × Socket := decodeLoop 4 1 0 s

/-- The loop of `MQTTPacket_encode`; an `int` has five digits. -/
def encodeLoop : Nat → Nat → List Byte
  | 0, _ => []
  | k + 1, length =>
    let d : Byte := BitVec.ofNat 8 (length % 128)
    if length / 128 > 0 then (d ||| 0x80) :: encodeLoop k (length / 128) else [d]

/-- `MQTTPacket_encode`. -/
def mqttPacketEncode (length : Nat) : List Byte := encodeLoop 5 length

/-- What `MQTTPacket_readPacket` returns, -1 or the type of the packet, and what it has stored from the start of
`readbuf` on. -/
structure ReadPacket where
  rc : Option Byte
  readbuf : List Byte
  deriving DecidableEq, Repr

/-- `MQTTPacket_readPacket`. The size of `readbuf` is not looked at. -/
def mqttPacketReadPacket (s : Socket) : ReadPacket × Socket :=
  match netRead 1 false s with
  | (⟨[header], true⟩, s) =>
    let (remLen, s) := decodePacket s
    let (body, s) := netRead remLen true s
    (⟨if body.ok ∧ body.stored.length = remLen then some (header >>> 4) else none,
      header :: mqttPacketEncode remLen ++ body.stored⟩, s)
  | (r, s) => (⟨none, r.stored⟩, s)

/-- Packets one after another, until one cannot be read: what `readbuf` had each time. -/
def readPackets : Nat → Socket → Option (List (List Byte)) × Socket
  | 0, s => (some [], s)
  | k + 1, s =>
    match mqttPacketReadPacket s with
    | (⟨none, _⟩, s) => (none, s)
    | (⟨some _, buf⟩, s) =>
      let (bufs, s) := readPackets k s
      (bufs.map (buf :: ·), s)

end WM.Impl
