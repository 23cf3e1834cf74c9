import WaterMaker.Impl.RegMap

/-!
# The temperature and humidity sensor

`TH_Sensor_Bsp.c`: `Read_Sensor` takes five bytes from the sensor, checks and decodes them; `AM_Sensor_update` reads
every sixth call, keeps the last five samples and publishes their means, or fixed values when the sensor has failed
too often. A division by 0 is a fault.
-/

namespace WM.Impl

/-- What the sensor sends. -/
structure Frame where
  humiH : Byte
  humiL : Byte
  tempH : Byte
  tempL : Byte
  tempCal : Byte
  deriving DecidableEq, Repr

/-- A temperature and a humidity, in tenths. -/
structure TempHum where
  temp : Word
  hum : Word
  deriving DecidableEq, Repr

def TempHum.zero : TempHum := ⟨0, 0⟩

/-- `Temp_CAL == temp`. -/
def Frame.checked (f : Frame) : Bool := f.tempCal == f.humiH + f.humiL + f.tempH + f.tempL

/-- `i16Temprature` as it is decoded; the mask that should take the sign off is laid on the low byte. -/
def Frame.i16Temprature (f : Frame) : Word :=
  if f.tempH &&& 0x80 ≠ 0 then 0 - word f.tempH (f.tempL &&& 0x7F) else word f.tempH f.tempL

def Frame.u16Humi (f : Frame) : Word := word f.humiH f.humiL

/-- What is out of the sensor's range is taken to its end. -/
def limitTemprature (t : Word) : Word :=
  let t := if t.toInt > 800 then 800 else t
  if t.toInt < -400 then BitVec.ofInt 16 (-400) else t

def limitHumi (h : Word) : Word := if h.toNat > 999 then 999 else h

/-- `Read_Sensor`, with `Sensor_AnswerFlag`; the sensor sends `f`, or does not answer. -/
def readSensor (answer : Option Frame) (buff : TempHum) : Byte × TempHum :=
  match answer with
  | none => (0, buff)
  | some f =>
    if f.checked then (0x0F, ⟨limitTemprature f.i16Temprature, limitHumi f.u16Humi⟩) else (0x17, buff)

/-- `ERROR_CNT_MAX`. -/
abbrev errorCntMax : Nat := 20

/-- `TH_AVE_NUM`. -/
abbrev thAveNum : Nat := 5

/-- The `static` variables of `AM_Sensor_update`, for the one sensor it reads, and what it publishes. -/
structure Sensor where
  u8CNT : Nat
  thCnt : Nat
  errCnt : Nat
  /-- `u16TH_Ave[0]` -/
  thAve : List TempHum
  /-- `ComSta.u16TH[0]` -/
  th : TempHum
  /-- bit 0 of `status_remap[MBM_COM_STS_REG_NO]` -/
  com : Bool
  deriving DecidableEq, Repr

/-- A counter of 8 bits that starts again instead of reaching `0xFF`. -/
def nextCnt (n : Nat) : Nat := if (n + 1) % 256 ≥ 0xFF then 0 else (n + 1) % 256

/-- The reading is counted: one with a temperature clears the errors. -/
def sensorRead (r : Byte × TempHum) (s : Sensor) : Sensor :=
  if r.1 ≠ 0 ∧ r.2.temp ≠ 0 then { s with errCnt := 0, com := true }
  else { s with errCnt := (s.errCnt + 1) % 256 }

/-- `u16TH_Buff`. -/
def sensorBuff (r : Byte × TempHum) : TempHum := if r.1 ≠ 0 ∧ r.2.temp ≠ 0 then r.2 else .zero

/-- The next cell takes the sample, if it is accepted. -/
def sensorAccept (b : TempHum) (s : Sensor) : Sensor :=
  if b.temp.toNat ≤ 999 ∧ b.temp ≠ 0 ∧ b.hum ≠ 0 then
    if b.hum.toNat ≤ 999 then
      { s with thCnt := nextCnt s.thCnt, thAve := s.thAve.set (nextCnt s.thCnt % thAveNum) b }
    else s
  else s

/-- `u16TH_Sum` and `u8TH_Cnt` of the cells that are not 0. -/
def thSum (xs : List Word) : Word := xs.foldl (fun sum x => if x ≠ 0 then sum + x else sum) 0
def thCount (xs : List Word) : Nat := xs.foldl (fun n x => if x ≠ 0 then n + 1 else n) 0

/-- A mean with its offset. -/
def thMean (cali : Word) (xs : List Word) : Except Halt Word :=
  if thCount xs = 0 then .error .fault else .ok (BitVec.ofNat 16 ((thSum xs).toNat / thCount xs) + cali)

/-- The two means are published. -/
def sensorPublish (cali : TempHum) (s : Sensor) : Except Halt Sensor := do
  let t ← thMean cali.temp (s.thAve.map TempHum.temp)
  let h ← thMean cali.hum (s.thAve.map TempHum.hum)
  .ok { s with th := ⟨t, h⟩ }

/-- `AM_Sensor_update`; `r` is what `Read_Sensor` returns and leaves in `u16TH_Sensor`, which it finds cleared. -/
def sensorUpdate (r : Byte × TempHum) (cali : TempHum) (s : Sensor) : Except Halt (Byte × Sensor) := do
  let s := { s with u8CNT := nextCnt s.u8CNT }
  if s.u8CNT % 6 ≠ 0 then .ok (0, s)
  else
    let s := sensorRead r s
    if s.errCnt > errorCntMax then .ok (r.1, { s with th := ⟨285, 567⟩, com := false })
    else if s.errCnt = 0 then
      let s ← sensorPublish cali (sensorAccept (sensorBuff r) s)
      .ok (r.1, s)
    else .ok (r.1, s)

/-- The same with what the sensor sends. -/
def amSensorUpdate (answer : Option Frame) (cali : TempHum) (s : Sensor) : Except Halt (Byte × Sensor) :=
  sensorUpdate (readSensor answer .zero) cali s

/-- Power-up. -/
def Sensor.init : Sensor := ⟨0, 0, 0, List.replicate thAveNum .zero, .zero, false⟩

end WM.Impl
