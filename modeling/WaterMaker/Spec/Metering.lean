import WaterMaker.Spec.Dispense
import WaterMaker.Spec.Ledger

/-!
# Metering, as it is observed

The call of the ledger (`Spec.Ledger`) that `WaterOut_req_exe` is, runs with the books beside them, and runs of cold and
of hot calls in which the rest of the machine is left open at every call.
-/

namespace WM.Spec

open WM WM.Impl

/-! ## The books -/

def handOf (s : Sys) : Hand := ⟨s.out.ok, s.sts.curWater, s.sts.lastWater⟩

/-- The flow meter's reading; it restarts with the dispense. -/
def pulseReading (s : Sys) : Nat := pluseCalcWater (if s.out.ok = .read then s.out.pulses else 0)

/-- The instant heater's reading: its telegram, or the time. -/
def heatReading (s : Sys) : Option Nat :=
  if s.out.ok ≠ .read then none
  else if s.out.heatSt = 1 then some s.out.heatFlow
  else if (s.out.heatTime + 1) % 65536 ≠ 0 then some (heatFlowCalc ((s.out.heatTime + 1) % 65536) s)
  else none

/-- The dispense's clock is over with this call. -/
def cutsOff (s : Sys) : Bool := (s.tmo.ev2 + 1) % 65536 ≥ waterMaxtime

/-- What an action means for the hand-shake. -/
def moveOf (cut : Bool) : Act → Move
  | .close | .target _ => .close
  | .hot ok => .serve ok cut
  | .pause _ => .keep
  | .pot | .cold .. => .serve .read cut

/-- What serving a demand meters. -/
def readingOf (s : Sys) : Option Nat :=
  if demandHeat s then if !s.cfg.heartPot then heatReading s else some (pulseReading s)
  else if demandNormal s || demandIce s then some (pulseReading s)
  else none

def serveOf (s : Sys) : Call := ⟨readingOf s, moveOf (cutsOff s) (actServe s)⟩

/-- The call of the abstract machine that `WaterOut_req_exe` is. -/
def callOf (s : Sys) : Call :=
  if s.stor.status then ⟨none, .keep⟩
  else
    let s := readKeys s
    if !waterDemand s || !waterOutLevel s || s.alarmBit .e4 then ⟨none, .close⟩ else serveOf s

/-- The cumulative water in millilitres. -/
def total (s : Sys) : Nat := 1000000 * s.sts.cumulative1 + 1000 * s.sts.cumulative0 + s.sts.cumulative2

/-- Millilitres and litres are carried. -/
def Normalised (s : Sys) : Prop := s.sts.cumulative2 < 1000 ∧ s.sts.cumulative0 < 1000

/-- The registers have room for what is handed over. -/
def Room (s : Sys) : Prop :=
  s.out.ok = .out → s.sts.cumulative2 + s.sts.lastWater < 65536 ∧ total s + s.sts.lastWater < 65536000000

/-- A run with the books that are kept beside it. -/
structure Audited where
  sys : Sys
  books : Ledger

def audit (x : Audited) (e : Event) : Audited :=
  match e with
  | .waterOut => ⟨step x.sys e, x.books.book (callOf x.sys) (handOf x.sys)⟩
  | _ => ⟨step x.sys e, x.books⟩

/-- What is asked of the calls and of `run_time_process`: dispenses in order, and room for them. Passes of the
whole thread and a status out of nowhere are no part of the run. -/
def Accountable (x : Audited) : Event → Prop
  | .waterOut => InOrder (callOf x.sys) (handOf x.sys) x.books
  | .runTime => Room x.sys
  | .core | .req | .env .. => False
  | _ => True

instance (s : Sys) : Decidable (Room s) := inferInstanceAs (Decidable (_ → _ ∧ _))

instance (s : Sys) : Decidable (Normalised s) := inferInstanceAs (Decidable (_ ∧ _))

instance (x : Audited) : DecidablePred (Accountable x)
  | .waterOut => inferInstanceAs (Decidable (InOrder _ _ _))
  | .runTime => inferInstanceAs (Decidable (Room _))
  | .core | .req | .env .. => instDecidableFalse
  | .cooldown | .runningMode | .clearAlarm | .inputs _ | .pulses _ | .heater _ _ | .panel _ _ | .config _ =>
    instDecidableTrue

/-! ## Runs of calls -/

/-- The counts behind a breakpoint whose volume is less than that of the last count before it. -/
def Sagging (q : Nat) : Prop := 570 ≤ q ∧ q < 575 ∨ 1250 ≤ q ∧ q < 1373 ∨ 2750 ≤ q ∧ q < 2898

/-- The state `x`, but for the dispense: it is where the last call has left it. -/
def withHand (h : Hand) (x : Sys) : Sys :=
  { x with out := { x.out with ok := h.ok }, sts := { x.sts with curWater := h.cur, lastWater := h.last } }

/-- The call serves a demand. -/
structure Serves (s : Sys) : Prop where
  storage : s.stor.status = false
  demand : waterDemand (readKeys s) = true
  level : waterOutLevel (readKeys s) = true
  door : (readKeys s).alarmBit .e4 = false

/-- The call serves cold water. -/
structure ColdCall (s : Sys) : Prop extends Serves s where
  hot : demandHeat (readKeys s) = false
  cold : (demandNormal (readKeys s) || demandIce (readKeys s)) = true

/-- A run of cold calls: the dispense and the last count. -/
structure ColdRun where
  hand : Hand
  pulses : Nat

def coldStep (r : ColdRun) (x : Sys) : ColdRun := ⟨handOf (waterOutReqExe (withHand r.hand x)), x.out.pulses⟩

/-- The count does not go back. -/
structure ColdOk (r : ColdRun) (x : Sys) : Prop where
  call : ColdCall (withHand r.hand x)
  count : r.pulses ≤ x.out.pulses

/-- At the count `q` a cold dispense never shows less than it did, so that a target which was reached stays reached. -/
def NeverBack (q : Nat) : Prop :=
  ∀ (h : Hand) (xs : List Sys) (x : Sys), h.ok ≠ .read → h.cur = 0 → Along coldStep ColdOk ⟨h, 0⟩ (xs ++ [x]) →
    x.out.pulses = q → (run coldStep ⟨h, 0⟩ xs).hand.cur ≤ pulseReading (withHand (run coldStep ⟨h, 0⟩ xs).hand x)

/-- The calls that the instant heater has been read. -/
def heatTime (s : Sys) : Nat := s.out.heatTime

/-- The call serves hot water of the instant heater, which reports no outflow. -/
structure HotCall (s : Sys) : Prop extends Serves s where
  hot : demandHeat (readKeys s) = true
  instant : s.cfg.heartPot = false
  silent : s.out.heatSt ≠ 1

/-- A run of hot calls: the dispense, its time and its calls in the read state so far. -/
structure HotRun where
  hand : Hand
  time : Nat
  reads : Nat

/-- The state `x`, but for the dispense and its time. -/
def withRun (r : HotRun) (x : Sys) : Sys := setOut (fun o => { o with heatTime := r.time }) (withHand r.hand x)

/-- The calls in the read state when this one has metered. -/
def HotRun.counted (r : HotRun) : Nat := if r.hand.ok = .read then r.reads + 1 else r.reads

def hotStep (r : HotRun) (x : Sys) : HotRun :=
  let s := waterOutReqExe (withRun r x)
  ⟨handOf s, heatTime s, if isOpen s.out.ok then r.counted else 0⟩

/-- The volume that a hot call meters and compares with the target. -/
def metered (r : HotRun) (x : Sys) : Nat := (heatMetered (readKeys (withRun r x))).sts.curWater

/-- A hot call whose conversion to 16 bits is good: it makes 0 of the first volume, which is negative, and the others
are in range. -/
structure HotOk (r : HotRun) (x : Sys) : Prop where
  call : HotCall (withRun r x)
  first : r.hand.ok = .read → r.reads = 0 → x.inp.f2uOut = 0
  range : r.hand.ok = .read → r.reads < 15730

instance (r : HotRun) (x : Sys) : Decidable (HotOk r x) :=
  decidable_of_iff (((withRun r x).stor.status = false ∧ waterDemand (readKeys (withRun r x)) = true ∧
      waterOutLevel (readKeys (withRun r x)) = true ∧ (readKeys (withRun r x)).alarmBit .e4 = false) ∧
    (demandHeat (readKeys (withRun r x)) = true ∧ (withRun r x).cfg.heartPot = false ∧ (withRun r x).out.heatSt ≠ 1) ∧
      (r.hand.ok = .read → r.reads = 0 → x.inp.f2uOut = 0) ∧ (r.hand.ok = .read → r.reads < 15730))
    ⟨fun ⟨⟨h1, h2, h3, h4⟩, ⟨h5, h6, h7⟩, h8, h9⟩ => ⟨⟨⟨h1, h2, h3, h4⟩, h5, h6, h7⟩, h8, h9⟩,
      fun ⟨⟨⟨h1, h2, h3, h4⟩, h5, h6, h7⟩, h8, h9⟩ => ⟨⟨h1, h2, h3, h4⟩, ⟨h5, h6, h7⟩, h8, h9⟩⟩

end WM.Spec
