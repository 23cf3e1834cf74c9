import WaterMaker.Impl.Eeprom

/-!
# The serial port

What `USART1_IRQHandler` does with a byte: it belongs to the instant heater (`HeatPortSerialReceiveFSM` of
`usart_bsp.c`) or to the PM2.5 sensor (`zph01ReceiveData` of `zph01_opt.c`), as the register `u16Heater_PM25` says.
The heater's frames are taken by `Comm_Service`, which the Modbus master's thread calls.
-/

namespace WM.Impl

/-! ## The PM2.5 sensor -/

/-- The `static` variables of `zph01_opt.c`, and `u16PM25`. -/
structure Zph01 where
  rxBuffer : List Byte
  count : Nat
  u16PM25 : Nat
  deriving DecidableEq, Repr

/-- `FucCheckSum`: the bytes between the first and the last of `ln`. -/
def fucCheckSum (i : List Byte) (ln : Nat) : Byte :=
  ~~~(((i.drop 1).take (ln - 2)).foldl (· + ·) 0) + 1

def Zph01.store (data : Byte) (s : Zph01) : Zph01 :=
  { s with rxBuffer := s.rxBuffer.set s.count data, count := s.count + 1 }

def Zph01.reset (s : Zph01) : Zph01 := { s with rxBuffer := List.replicate 10 0, count := 0 }

/-- A byte is taken into the frame, or the frame is given up. -/
def Zph01.accept (data : Byte) (s : Zph01) : Zph01 :=
  if s.count = 0 ∧ data = 0xFF then s.store data
  else if s.count = 1 ∧ data = 0x18 then s.store data
  else if s.count > 1 ∧ s.count < 9 then s.store data
  else s.reset

/-- The value of a frame with the right checksum. -/
def Zph01.publish (s : Zph01) : Zph01 :=
  if s.rxBuffer.getD 8 0 = fucCheckSum s.rxBuffer 9 then
    { s with u16PM25 := (s.rxBuffer.getD 3 0).toNat * 100 + (s.rxBuffer.getD 4 0).toNat }
  else s

/-- `zph01ReceiveData`. -/
def zph01ReceiveData (data : Byte) (s : Zph01) : Zph01 :=
  let s := s.accept data
  if s.count = 9 then s.publish.reset else s

/-- Power-up. -/
def Zph01.init : Zph01 := ⟨List.replicate 10 0, 0, 0⟩

/-! ## The heater -/

/-- `UartRcvState`. -/
inductive UartRcvState
  | idle | ck | rcv | cs | ended
  deriving DecidableEq, Repr

/-- `PROTOCOL_STATUS`. -/
inductive ProtocolStatus
  | recvWait | recvGoing | recvOver | sendWait | sendGoing | sendOver | initApply
  deriving DecidableEq, Repr

/-- The heater's part of `usart_bsp.c`. -/
structure HeatLink where
  /-- `Protocol[UART_HEAT].StatckStatus` and `DataCount` -/
  stack : UartRcvState
  dataCount : Nat
  u16FrameCheckSum : Nat
  u8FrameDataLength : Nat
  /-- `g_ComBuff[UART_HEAT]`, of `PROTOCOL_FRAME_MaxLen` bytes -/
  comBuff : List Byte
  /-- `g_ComStat[UART_HEAT]` and `g_ComGap[UART_HEAT]` -/
  comStat : ProtocolStatus
  comGap : Nat
  /-- `l_sys.HeatWater_st` and `l_sys.HeatWater_Flow` -/
  heatWaterSt : Nat
  heatWaterFlow : Nat
  /-- what `AnalyseProtocol` was called with, the latest first -/
  analysed : List (List Byte)
  deriving DecidableEq, Repr

namespace HeatLink

/-- `g_ComBuff[port][DataCount++] = RXDByte`. -/
def store (b : Byte) (s : HeatLink) : HeatLink :=
  { s with comBuff := s.comBuff.set s.dataCount b, dataCount := (s.dataCount + 1) % 256 }

/-- `u16FrameCheckSum += RXDByte`. -/
def addSum (b : Byte) (s : HeatLink) : HeatLink :=
  { s with u16FrameCheckSum := (s.u16FrameCheckSum + b.toNat) % 65536 }

/-- `u8FrameDataLength--`. -/
def countDown (s : HeatLink) : HeatLink := { s with u8FrameDataLength := (s.u8FrameDataLength + 255) % 256 }

/-- The two bytes of the checksum. -/
def u16CheckSum (s : HeatLink) : Nat := (s.comBuff.getD 16 0).toNat * 256 + (s.comBuff.getD 17 0).toNat

end HeatLink

/-- `HeatPortSerialReceiveFSM`; the words it leaves in `TEST` to `TEST6` are not kept. -/
def heatPortSerialReceiveFSM (rxdByte : Byte) (s : HeatLink) : HeatLink :=
  let s := { s with comGap := 0 }
  match s.stack with
  | .idle =>
    if rxdByte = 0x01 then
      { s with comStat := .recvGoing, comBuff := s.comBuff.set 0 rxdByte, u16FrameCheckSum := rxdByte.toNat
               dataCount := 1, stack := .ck }
    else s
  | .ck =>
    -- `HEAT_OPEN` and `HEAT_CLOSE`
    if rxdByte = 1 ∨ rxdByte = 0 then
      { (s.addSum rxdByte).store rxdByte with u8FrameDataLength := 14, stack := .rcv }
    else { s with stack := .idle, comStat := .initApply }
  | .rcv =>
    let s := ((s.addSum rxdByte).store rxdByte).countDown
    if s.u8FrameDataLength = 0 then { s with u8FrameDataLength := 2, stack := .cs } else s
  | .cs =>
    let s := (s.store rxdByte).countDown
    if s.u8FrameDataLength = 0 then
      if s.u16CheckSum = s.u16FrameCheckSum then { s with stack := .idle, comStat := .recvOver }
      else { s with stack := .idle, comStat := .initApply }
    else s
  | .ended => s

/-- `AnalyseProtocol`. -/
def analyseProtocol (u8Buff : List Byte) (s : HeatLink) : HeatLink :=
  { s with
    heatWaterSt := (u8Buff.getD 1 0).toNat
    heatWaterFlow := (u8Buff.getD 3 0).toNat * 256 + (u8Buff.getD 4 0).toNat
    analysed := u8Buff :: s.analysed }

/-- `Comm_Service`. -/
def commService (s : HeatLink) : HeatLink :=
  let s := { s with comGap := (s.comGap + 1) % 256 }
  match s.comStat with
  | .recvWait => s
  | .recvGoing => if s.comGap > 250 then { s with comStat := .initApply } else s
  | .recvOver => { analyseProtocol s.comBuff s with comBuff := List.replicate 20 0, comStat := .sendWait }
  | .sendWait => { s with comGap := 0, comStat := .sendGoing }
  | .sendGoing => if s.comGap < 100 then s else { s with comStat := .recvWait }
  | .sendOver | .initApply => { s with comStat := .recvWait }

/-- `xPort_Usart_Init`. -/
def HeatLink.init : HeatLink where
  stack := .idle
  dataCount := 0
  u16FrameCheckSum := 0
  u8FrameDataLength := 0
  comBuff := List.replicate 20 0
  comStat := .initApply
  comGap := 0
  heatWaterSt := 0
  heatWaterFlow := 0
  analysed := []

/-- What happens on the heater's link: a byte comes in, `Comm_Service` is called, or `WaterOut_req_exe` has asked for a
frame and sets `SEND_Over`. -/
inductive LinkEvent
  | byte (b : Byte)
  | service
  | sent
  deriving DecidableEq, Repr

def linkStep (s : HeatLink) : LinkEvent → HeatLink
  | .byte b => heatPortSerialReceiveFSM b s
  | .service => commService s
  | .sent => { s with comStat := .sendOver }

end WM.Impl
