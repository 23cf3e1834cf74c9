import WaterMaker.Framework.Pool
import WaterMaker.Impl.State

/-!
# The standing alarms in memory

The list of standing alarms as `event_record.c` keeps it: nodes in the blocks of `alarm_status_mp_inst`, linked
from `head_node` on, and the counters `alarm_status_cnt` beside them. `WM.Impl.nodeAppend` and
`WM.Impl.nodeDelete` are the same functions on a list.
-/

namespace WM.Impl

/-- `alarm_status_cnt`. -/
structure AlarmCnt where
  critical : Nat
  major : Nat
  mioor : Nat
  deriving DecidableEq

/-- `total_cnt`. -/
def AlarmCnt.total (c : AlarmCnt) : Nat := c.critical + c.major + c.mioor

/-- `head_node` with the pool, and the counters. -/
structure Chain where
  pool : Pool 23 AlarmNode
  cnt : AlarmCnt

namespace Chain

/-- `chain_init`. -/
def chainInit : Chain := ⟨Pool.init ⟨0, 0, 0⟩, ⟨0, 0, 0⟩⟩

/-- A node is counted under the level in its number. -/
def countNode (c : AlarmCnt) (x : AlarmNode) : AlarmCnt :=
  if x.alarmId / 256 % 4 = 0 then { c with critical := c.critical + 1 }
  else if x.alarmId / 256 % 4 = 1 then { c with major := c.major + 1 }
  else { c with mioor := c.mioor + 1 }

/-- `calc_alrarm_cnt`, with `WORK_LIMIT_CATION`; `none` if the walk does not end. -/
def calcAlrarmCnt (workLimit : Bool) (c : Chain) : Option Chain :=
  (c.pool.fold countNode 23 c.pool.head ⟨0, 0, 0⟩).map fun n =>
    { c with cnt := { n with critical := n.critical + workLimit.toNat } }

/-- `node_append`, with what it returns. -/
def nodeAppend (workLimit : Bool) (x : AlarmNode) (c : Chain) : Option (Bool × Chain) :=
  match c.pool.push x with
  | none => some (false, c)
  | some p => (calcAlrarmCnt workLimit { c with pool := p }).map (true, ·)

/-- `node_delete`: the search is bounded by `total_cnt`. -/
def nodeDelete (workLimit : Bool) (id : Nat) (c : Chain) : Option (Bool × Chain) :=
  match c.pool.delete (fun x => x.alarmId == id) c.cnt.total with
  | none => some (false, c)
  | some p => (calcAlrarmCnt workLimit { c with pool := p }).map (true, ·)

end Chain

end WM.Impl
