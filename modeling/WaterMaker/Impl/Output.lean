import WaterMaker.Impl.Access

/-!
# Output arbitration

`oc_update` of `output_ctrl.c`: the request word, or the manual word in manual and test mode, is
overridden by the alarm word under the alarm mask, restricted to the fitted outputs, and put on the pins.
-/

namespace WM.Impl

/-- Neither manual nor test mode. -/
def Config.normalMode (c : Config) : Bool := c.manualTestEn == 0 && c.testModeType == 0

/-- One word of `oc_arbitration`. -/
def ocFinalWord (c : Config) (req manual alm mask dev : BitVec 16) : BitVec 16 :=
  let target := if c.normalMode then req else manual
  let maskReg := if c.alarmBypassEn = 0 then mask else 0
  let sys := (target &&& ~~~maskReg) ||| (alm &&& maskReg)
  (if c.testModeType = 0 then sys else manual) &&& dev

/-- `oc_arbitration`. The manual word follows the final word of the pass before. -/
def ocArbitration (s : Sys) : Sys :=
  { s with
    final :=
      ⟨ocFinalWord s.cfg s.req.w0 s.manual.w0 s.alm.w0 s.mask.w0 s.cfg.maskDout.w0,
       ocFinalWord s.cfg s.req.w1 s.manual.w1 s.alm.w1 s.mask.w1 s.cfg.maskDout.w1⟩
    manual := if s.cfg.normalMode then s.final else s.manual }

/-- The two words as one. -/
def toBits (w : Words) : BitVec 32 := w.w1 ++ w.w0
def ofBits (b : BitVec 32) : Words := ⟨b.setWidth 16, (b >>> 16).setWidth 16⟩

/-- `dio_set_do`; pins are numbered from 1 to `Pin_Map_Out`. -/
def dioSetDo (pin : Nat) (v : Bool) (pins : BitVec 32) : BitVec 32 :=
  if pin ≤ 21 ∧ 0 < pin then putBit pins (pin - 1) v else pins

/-- The pins whose bit changed are set to their new value. -/
def setPins (old new pins : BitVec 32) : BitVec 32 :=
  (List.range 32).foldl
    (fun p i => if (new ^^^ old).getLsbD i then dioSetDo (i + 1) (new.getLsbD i) p else p) pins

/-- The builds with a `DO_remap_table` of their own: without and with `SYS_M_T10`. -/
inductive Build
  | standard
  | t10
  deriving DecidableEq, Repr

namespace Build

/-- The pin's bit of channel `i`. On this board the two agree; on the T10 the outputs 5 and 17 are swapped. -/
def pinBit : Build → Nat → Nat
  | .t10, 4 => 16
  | .t10, 16 => 4
  | _, i => i

/-- `DO_remap_table`: the channel and the pin's bit. -/
def doRemapTable (b : Build) : List (Nat × Nat) := (List.range 21).map fun i => (i, b.pinBit i)

/-- `Sts_Remap(bits, Rep_DO, 0)`. -/
def stsRemap (b : Build) (bits : BitVec 32) : BitVec 32 := remapBits b.doRemapTable bits

/-- `oc_do_update`. -/
def ocDoUpdate (b : Build) (bits : BitVec 32) (s : Sys) : Sys :=
  let old := b.stsRemap (toBits s.sts.dout)
  let new := b.stsRemap bits
  if new ^^^ old ≠ 0 then
    { s with
      pins := setPins old new s.pins
      sts := { s.sts with dout := ofBits new, comDout := ofBits new } }
  else s

end Build

/-- `oc_do_update` of this board. -/
def ocDoUpdate : BitVec 32 → Sys → Sys := Build.standard.ocDoUpdate

/-- `oc_ao_arbitration`. -/
def ocAoArbitration (s : Sys) : Sys :=
  if s.cfg.normalMode then
    setFanSt (fun f => { f with aoManual := i16 s.sts.aout, aoFinal := f.aoReq }) s
  else setFanSt (fun f => { f with aoFinal := f.aoManual }) s

/-- `oc_ao_update`. -/
def ocAoUpdate (s : Sys) : Sys :=
  if s.cfg.maskAout.getLsbD 0 then
    if (s.sts.comAo : Int) ≠ s.fan.aoFinal then
      setSts (fun t => { t with comAo := (s.fan.aoFinal % 65536).toNat }) s
    else s
  else setSts (fun t => { t with comAo := 0 }) s

/-- `oc_update`. -/
def ocUpdate (s : Sys) : Sys :=
  let s := ocArbitration s
  ocDoUpdate (toBits s.final) s |> ocAoArbitration |> ocAoUpdate

end WM.Impl
