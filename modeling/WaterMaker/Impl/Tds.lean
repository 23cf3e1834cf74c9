import WaterMaker.Impl.Serial

/-!
# The conductivity sensor

`Comm_TDS.c`: the serial port of the sensor tells `uart_input` how many bytes wait, which puts the number into a message
queue; `TDS_thread_entry` takes the messages, reads as many bytes, gives them to `receiveData`, and if the last of them
completes a frame, copies the frame into the registers (`TDSData_Process`). If no message comes, it asks the sensor.
-/

namespace WM.Impl

/-- `tx_buffer`, of which `COM_LEN` bytes are sent; `rx_buffer` begins with the same bytes. -/
def tdsBuffer : List Byte :=
  [0xFF, 0x01, 0x00, 0x00, 0x02, 0x00, 0x00, 0x03, 0x00, 0x00, 0x04, 0x00, 0x00, 0xEE, 0, 0, 0, 0, 0, 0]

def comLen : Nat := 14

/-- The messages that `msg_pool` has room for: one has 8 bytes and a link of 4. -/
def rxMqMax : Nat := 256 / (8 + 4)

/-- `rx_buffer`, and the `count` of `receiveData`. -/
structure TdsRx where
  rxBuffer : List Byte
  count : Nat
  deriving DecidableEq, Repr

def TdsRx.store (data : Byte) (s : TdsRx) : TdsRx :=
  { rxBuffer := s.rxBuffer.set s.count data, count := s.count + 1 }

def TdsRx.reset (s : TdsRx) : TdsRx := { s with count := 0 }

/-- `receiveData`: whether the byte completes a frame. -/
def receiveData (data : Byte) (s : TdsRx) : Bool × TdsRx :=
  match s.count with
  | 0x00 => if data = 0xFF then (false, s.store data) else (false, s.reset)
  | 0x01 => if data = 0x01 then (false, s.store data) else (false, s.reset)
  | 0x02 | 0x03 => (false, s.store data)
  | 0x04 => if data = 0x02 then (false, s.store data) else (false, s.reset)
  | 0x05 | 0x06 => (false, s.store data)
  | 0x07 => if data = 0x03 then (false, s.store data) else (false, s.reset)
  | 0x08 | 0x09 => (false, s.store data)
  | 0x0A => if data = 0x04 then (false, s.store data) else (false, s.reset)
  | 0x0B | 0x0C => (false, s.store data)
  | 0x0D => if data = 0xEE then (true, (s.store data).reset) else (false, s.reset)
  | _ => (false, s.reset)

/-- The loop over the bytes that were read, with the last result of `receiveData`. -/
def receiveAll (rcvBuffer : List Byte) (s : TdsRx) : Bool × TdsRx :=
  rcvBuffer.foldl (fun r data => receiveData data r.2) (false, s)

/-- `TDSData_Process`: the four registers. -/
def tdsDataProcess (rxBuffer : List Byte) : List Word :=
  (List.range 4).map fun i => word (rxBuffer.getD ((i + 1) * 2) 0) (rxBuffer.getD ((i + 1) * 2 + 2) 0)

/-- The sensor's port and thread. -/
structure Tds where
  uart : Uart
  /-- `rx_mq`: the numbers of bytes -/
  rxMq : List Nat
  /-- `msg.size`, between `rt_mq_recv` and `rt_device_read` -/
  msg : Option Nat
  rx : TdsRx
  u16TDS : List Word
  u8TXDelay : Nat

/-- `uart_input`, with `rt_mq_send`: a queue that is full takes no message. -/
def uartInput (rxMq : List Nat) (size : Nat) : List Nat := if rxMq.length < rxMqMax then rxMq ++ [size] else rxMq

/-- The bytes read from the port, and the bytes written to it. -/
structure TdsIo where
  read : List Byte := []
  written : List Byte := []

/-- `TDS_thread_entry` as far as `rt_mq_recv`, or the branch without a message. A thread that has a message does not
wait for one. -/
def Tds.recv (s : Tds) : TdsIo × Tds :=
  match s.msg, s.rxMq with
  | some _, _ => ({}, s)
  | none, size :: rxMq => ({}, { s with msg := some size, rxMq := rxMq })
  | none, [] =>
    if s.u8TXDelay ≥ 2 then ({ written := tdsBuffer.take comLen }, { s with u8TXDelay := 1 })
    else ({}, { s with u8TXDelay := s.u8TXDelay + 1 })

/-- `TDS_thread_entry` from `rt_device_read` on. -/
def Tds.serve (s : Tds) : TdsIo × Tds :=
  match s.msg with
  | none => ({}, s)
  | some size =>
    let (rcvBuffer, uart) := rtSerialRead rtSerialRbBufsz size s.uart
    let (recOK, rx) := receiveAll rcvBuffer s.rx
    ({ read := rcvBuffer },
      { s with
        uart := uart
        msg := none
        rx := rx
        u16TDS := if recOK then tdsDataProcess rx.rxBuffer else s.u16TDS
        u8TXDelay := (s.u8TXDelay + 1) % 256 })

/-- What happens at the port, and what the thread does. -/
inductive TdsEvent
  | byte (b : Byte)
  | interrupts (idle : Bool)
  | recv
  | serve
  deriving DecidableEq, Repr

def tdsStep (s : Tds) : TdsEvent → TdsIo × Tds
  | .byte b => ({}, { s with uart := s.uart.store rtSerialRbBufsz b })
  | .interrupts idle =>
    let (told, uart) := s.uart.interrupts rtSerialRbBufsz idle
    ({}, { s with uart := uart, rxMq := told.foldl uartInput s.rxMq })
  | .recv => s.recv
  | .serve => s.serve

/-- The thread has opened the port. -/
def Tds.init : Tds := ⟨Uart.opened, [], none, ⟨tdsBuffer, 0⟩, [0, 0, 0, 0], 0⟩

end WM.Impl
