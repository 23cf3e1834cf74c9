import WaterMaker.Proof.ChildLock
import WaterMaker.Proof.HotCold
import WaterMaker.Proof.Lamp
import WaterMaker.Proof.MaxTime
import WaterMaker.Proof.Overflow
import WaterMaker.Proof.Storage
import WaterMaker.Proof.Interlock.Run
import WaterMaker.Proof.Registers.Machine
import WaterMaker.Proof.Registers.Touch
import WaterMaker.Proof.Slave.Contained
import WaterMaker.Proof.Slave.Reply
import WaterMaker.Proof.Store.Crash
import WaterMaker.Proof.Store.Failure
import WaterMaker.Proof.Store.Identity
import WaterMaker.Proof.Registers.Checked
import WaterMaker.Proof.Store.Fallback
import WaterMaker.Proof.Pins
import WaterMaker.Proof.Manual
import WaterMaker.Proof.Din
import WaterMaker.Proof.Slave.Framing
import WaterMaker.Proof.Circulation
import WaterMaker.Proof.Counters
import WaterMaker.Proof.Filters
import WaterMaker.Proof.IceWater
import WaterMaker.Proof.Metering
import WaterMaker.Proof.Restart
import WaterMaker.Proof.Store.Report
import WaterMaker.Proof.Alarm.Lockout
import WaterMaker.Proof.Alarm.NoWater
import WaterMaker.Proof.Alarm.Probes
import WaterMaker.Proof.Clock
import WaterMaker.Proof.Dividers
import WaterMaker.Proof.Heater
import WaterMaker.Proof.Zph01
import WaterMaker.Proof.Calc
import WaterMaker.Proof.Fifo
import WaterMaker.Proof.CycBuff
import WaterMaker.Proof.Ble.Image
import WaterMaker.Proof.Registers.Report
import WaterMaker.Proof.Mqtt.Read
import WaterMaker.Proof.Mqtt.Deadline
import WaterMaker.Proof.Sort
import WaterMaker.Proof.Store.Part
import WaterMaker.Proof.Tds
