import WaterMaker.Impl.I2c

/-!
# Serial ports with DMA

The DMA controller stores the bytes of a serial port one after the other in a buffer, and begins again at its start.
Two interrupts tell how far it is: one when the end of the buffer is reached, and one when the line falls idle
(`dma_rx_done_isr` and `dma_uart_rx_idle_isr` of `usart_bsp.c`). `serial.c` takes the buffer for a FIFO
(`rt_dma_recv_update_put_index`, `_serial_dma_rx`). The bytes come whenever they come, whatever the program does; an
interrupt is taken as a whole, and of two that wait the one of the DMA controller first, by its priority.
-/

namespace WM.Impl

/-- `RT_SERIAL_RB_BUFSZ`, which is `config.bufsz` and `setting_recv_len`. -/
def rtSerialRbBufsz : Nat := 64

/-- `struct rt_serial_rx_fifo`. The indices have 16 bits. -/
structure RxFifo where
  buffer : Nat → Byte
  putIndex : Nat
  getIndex : Nat
  isFull : Bool

/-- A serial port. -/
structure Uart where
  fifo : RxFifo
  /-- `last_recv_index` -/
  last : Nat
  /-- where the next byte is stored: `setting_recv_len` without the counter of the DMA controller -/
  pos : Nat
  /-- the interrupt at the end of the buffer waits -/
  done : Bool

section bufsz

variable (bufsz : Nat)

/-- The DMA controller stores a byte. -/
def Uart.store (b : Byte) (u : Uart) : Uart :=
  { u with
    fifo := { u.fifo with buffer := Function.update u.fifo.buffer u.pos b }
    pos := if u.pos + 1 = bufsz then 0 else u.pos + 1
    done := u.done || u.pos + 1 = bufsz }

/-- `_serial_fifo_calc_recved_len`. -/
def serialFifoCalcRecvedLen (f : RxFifo) : Nat :=
  if f.putIndex = f.getIndex then if f.isFull then bufsz else 0
  else if f.putIndex > f.getIndex then f.putIndex - f.getIndex
  else bufsz - (f.getIndex - f.putIndex)

/-- `rt_dma_recv_update_get_index`. -/
def rtDmaRecvUpdateGetIndex (len : Nat) (f : RxFifo) : RxFifo :=
  let getIndex := (f.getIndex + len) % 65536
  { f with
    isFull := f.isFull && len == 0
    getIndex := if getIndex ≥ bufsz then getIndex % bufsz else getIndex }

/-- `rt_dma_recv_update_put_index` without its last lines. -/
def movePutIndex (len : Int) (f : RxFifo) : RxFifo :=
  let putIndex := ((f.putIndex + len) % 65536).toNat
  if f.getIndex ≤ f.putIndex then
    if putIndex ≥ bufsz then
      { f with putIndex := putIndex % bufsz, isFull := f.isFull || putIndex % bufsz ≥ f.getIndex }
    else { f with putIndex := putIndex }
  else if putIndex ≥ f.getIndex then
    { f with putIndex := if putIndex ≥ bufsz then putIndex % bufsz else putIndex, isFull := true }
  else { f with putIndex := putIndex }

/-- `rt_dma_recv_update_put_index`. A length below 0 comes from a difference of indices. -/
def rtDmaRecvUpdatePutIndex (len : Int) (f : RxFifo) : RxFifo :=
  let f := movePutIndex bufsz len f
  let f := if f.isFull then { f with getIndex := f.putIndex } else f
  if f.getIndex ≥ bufsz then { f with getIndex := 0 } else f

/-- `rt_hw_serial_isr` with `RT_SERIAL_EVENT_RX_DMADONE`, if there are bytes: the length that it gives to the callback
is that of the whole FIFO. -/
def rtHwSerialIsr (recvLen : Int) (u : Uart) : List Nat × Uart :=
  if recvLen = 0 then ([], u)
  else
    let fifo := rtDmaRecvUpdatePutIndex bufsz recvLen u.fifo
    ([serialFifoCalcRecvedLen bufsz fifo], { u with fifo := fifo })

/-- `dma_rx_done_isr`. -/
def dmaRxDoneIsr (u : Uart) : List Nat × Uart :=
  rtHwSerialIsr bufsz ((bufsz : Int) - u.last) { u with last := 0, done := false }

/-- `dma_uart_rx_idle_isr`, which clears the flag of the DMA controller too. -/
def dmaUartRxIdleIsr (u : Uart) : List Nat × Uart :=
  rtHwSerialIsr bufsz ((u.pos : Int) - u.last) { u with last := u.pos, done := false }

/-- The interrupts that wait are taken; the lengths that the callback is told. -/
def Uart.interrupts (idle : Bool) (u : Uart) : List Nat × Uart :=
  let (told, u) := if u.done then dmaRxDoneIsr bufsz u else ([], u)
  let (told', u) := if idle then dmaUartRxIdleIsr bufsz u else ([], u)
  (told ++ told', u)

/-- `rt_serial_read`, by `_serial_dma_rx`. -/
def rtSerialRead (size : Nat) (u : Uart) : List Byte × Uart :=
  let f := u.fifo
  let recvLen := min size (serialFifoCalcRecvedLen bufsz f)
  let data :=
    if f.getIndex + recvLen < bufsz then slice f.buffer f.getIndex recvLen
    else slice f.buffer f.getIndex (bufsz - f.getIndex) ++ slice f.buffer 0 (recvLen + f.getIndex - bufsz)
  (data, { u with fifo := rtDmaRecvUpdateGetIndex bufsz recvLen f })

/-- What happens at a port. -/
inductive SerialEvent
  | byte (b : Byte)
  | interrupts (idle : Bool)
  | read (size : Nat)

/-- The bytes that a read returns. -/
def serialStep (u : Uart) : SerialEvent → List Byte × Uart
  | .byte b => ([], u.store bufsz b)
  | .interrupts idle => ([], (u.interrupts bufsz idle).2)
  | .read size => rtSerialRead bufsz size u

end bufsz

/-- A port that has been opened. -/
def Uart.opened : Uart := ⟨⟨fun _ => 0, 0, 0, false⟩, 0, 0, false⟩

end WM.Impl
