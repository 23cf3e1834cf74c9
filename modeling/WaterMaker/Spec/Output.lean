import WaterMaker.Impl.Output
import WaterMaker.Framework.Run

/-!
# What the outputs are to show

A build's pins and the reported status of its channels follow the last final word (`OutputsFollow`). When the machine
is switched to manual mode, its outputs stay as they are (`Bumpless`).
-/

namespace WM.Spec

open WM WM.Impl

/-! ## Pins and status -/

/-- Every pin is at the level of the channel that the build's table gives it, and `sys_get_do_sts` reports every
channel as it is in the final word `f`. -/
def OutputsFollow (b : Build) (f : BitVec 32) (s : Sys) : Prop :=
  (∀ e ∈ b.doRemapTable, s.pins.getLsbD e.2 = f.getLsbD e.1) ∧ ∀ k < 21, s.sts.comDout.get k = f.getLsbD k

instance (b : Build) (f : BitVec 32) (s : Sys) : Decidable (OutputsFollow b f s) := by
  unfold OutputsFollow; infer_instance

/-- All pins are low and nothing is reported to be on. -/
structure OutputsOff (s : Sys) : Prop where
  pins : s.pins = 0
  dout : s.sts.dout = .zero
  comDout : s.sts.comDout = .zero

/-! ## From automatic to manual mode -/

/-- What a pass is asked for: the REQ words of the digital outputs and of the analog output. -/
structure OutRequest where
  dout : Words
  aout : Int
  deriving DecidableEq, Repr

def OutRequest.put (q : OutRequest) (s : Sys) : Sys := { s with req := q.dout, fan := { s.fan with aoReq := q.aout } }

/-- A call of `oc_update` with the request in place. -/
def requestStep (s : Sys) (q : OutRequest) : Sys := ocUpdate (q.put s)

/-- A call with `Manual_Test_En` set, and the manual words as they are. -/
def manualStep (s : Sys) (q : OutRequest) : Sys :=
  ocUpdate (setCfg (fun c => { c with manualTestEn := 1 }) (q.put s))

/-- Neither manual nor test mode, and no output is masked by an alarm. -/
structure Automatic (s : Sys) : Prop where
  mode : s.cfg.normalMode = true
  alarms : s.mask = .zero

/-- The first call in manual mode leaves the final outputs as the call before it left them. -/
def Bumpless (s : Sys) (q : OutRequest) : Prop :=
  (manualStep s q).final = s.final ∧ (manualStep s q).fan.aoFinal = s.fan.aoFinal

instance (s : Sys) (q : OutRequest) : Decidable (Bumpless s q) := by unfold Bumpless; infer_instance

end WM.Spec
