import Mathlib.Algebra.Ring.Int.Defs
import WaterMaker.Framework.Ring
import WaterMaker.Framework.Run
import WaterMaker.Impl.Sensor

/-!
# What the sensor measures

A frame carries an unsigned humidity, a temperature by sign and magnitude, and the low byte of the sum of its other
bytes; `Decodes` is what `Read_Sensor` is to make of it. What `AM_Sensor_update` is to publish are the means of the
last five samples, with their offsets (`MeansPublished`), where every answer with a value is a sample. `Gauge` keeps
the samples beside the registers, and whether a division by 0 has come up.
-/

namespace WM.Spec

open WM WM.Impl

/-! ## Frames -/

def Intact (f : Frame) : Prop :=
  (f.humiH.toNat + f.humiL.toNat + f.tempH.toNat + f.tempL.toNat) % 256 = f.tempCal.toNat

instance (f : Frame) : Decidable (Intact f) := by unfold Intact; infer_instance

def humidity (f : Frame) : Nat := f.humiH.toNat * 256 + f.humiL.toNat

/-- The top bit is the sign, the others are the magnitude. -/
def temperature (f : Frame) : Int :=
  let magnitude : Nat := f.tempH.toNat % 128 * 256 + f.tempL.toNat
  if 128 ≤ f.tempH.toNat then -magnitude else magnitude

/-- The humidity and the temperature within the sensor's range; nothing from a frame with a wrong sum. -/
def Decodes (f : Frame) (b : TempHum) : Prop :=
  let b' := (readSensor (some f) b).2
  if Intact f then b'.hum.toNat = min (humidity f) 999 ∧ b'.temp.toInt = max (-400) (min (temperature f) 800)
  else b' = b

/-! ## Samples -/

/-- No answer, a frame with a wrong sum, or a value. -/
inductive Answer
  | silent
  | garbled
  | value (b : TempHum)
  deriving DecidableEq, Repr

def Answer.reading : Answer → Byte × TempHum
  | .silent => (0, .zero)
  | .garbled => (0x17, .zero)
  | .value b => (0x0F, b)

/-- A value of the sensor's range. -/
def InScale (b : TempHum) : Prop := -400 ≤ b.temp.toInt ∧ b.temp.toInt ≤ 800 ∧ b.hum.toNat ≤ 999

/-- A value of the sensor's range with both parts above 0. -/
def AboveZero (b : TempHum) : Prop := InScale b ∧ 0 < b.temp.toInt ∧ 0 < b.hum.toNat

instance (b : TempHum) : Decidable (InScale b) := by unfold InScale; infer_instance
instance (b : TempHum) : Decidable (AboveZero b) := by unfold AboveZero; infer_instance

/-- The next call reads the sensor. -/
def readsNow (s : Sensor) : Prop := nextCnt s.u8CNT % 6 = 0

instance (s : Sensor) : Decidable (readsNow s) := by unfold readsNow; infer_instance

structure Gauge where
  sensor : Sensor
  divided : Bool
  /-- the oldest first -/
  samples : List TempHum
  deriving DecidableEq, Repr

def Gauge.init : Gauge := ⟨.init, false, []⟩

/-- The samples with the next answer. -/
def Gauge.sampled (a : Answer) (g : Gauge) : List TempHum :=
  match a with
  | .value b => if readsNow g.sensor then g.samples ++ [b] else g.samples
  | _ => g.samples

/-- A call of `AM_Sensor_update` that finds this answer. -/
def gaugeStep (cali : TempHum) (g : Gauge) (a : Answer) : Gauge :=
  match sensorUpdate a.reading cali g.sensor with
  | .ok (_, s) => ⟨s, g.divided, g.sampled a⟩
  | .error _ => ⟨g.sensor, true, g.sampled a⟩

def floorMean (vs : List Int) : Int := vs.sum / vs.length

/-- The means of the last five samples, with their offsets. -/
def meansOf (cali : TempHum) (xs : List TempHum) : TempHum :=
  let last := xs.rtake thAveNum
  ⟨BitVec.ofInt 16 (floorMean (last.map fun b => b.temp.toInt) + cali.temp.toInt),
   BitVec.ofInt 16 (floorMean (last.map fun b => (b.hum.toNat : Int)) + cali.hum.toInt)⟩

/-- Unless the sensor has failed too often, the means are published as soon as there are samples. -/
def MeansPublished (cali : TempHum) (g : Gauge) : Prop :=
  g.sensor.errCnt ≤ errorCntMax → g.samples ≠ [] → g.sensor.th = meansOf cali g.samples

instance (cali : TempHum) (g : Gauge) : Decidable (MeansPublished cali g) := by
  unfold MeansPublished; infer_instance

/-- If the answer is read, it has a temperature and a humidity above 0; or if it has none, there is a sample or the 8
bits of the error counter do not run out with it. -/
def Plain (g : Gauge) (a : Answer) : Prop :=
  readsNow g.sensor →
    match a with
    | .value b => AboveZero b
    | _ => g.samples = [] → g.sensor.errCnt ≠ 255

instance (g : Gauge) (a : Answer) : Decidable (Plain g a) := by
  cases a <;> unfold Plain <;> infer_instance

/-- Calls of `AM_Sensor_update`, each with what the sensor answers and with the offsets at that time. -/
def sensorCalls (s : Sensor) (rs : List ((Byte × TempHum) × TempHum)) : Except Halt Sensor :=
  rs.foldlM (fun s r => Prod.snd <$> sensorUpdate r.1 r.2 s) s

end WM.Spec
