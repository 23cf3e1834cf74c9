import WaterMaker.Impl.Access

/-!
# The register table

`conf_reg_map_inst` of `global_var.c`, for the registers the model reads: each row's address, range and
default (`regRows`), the default configuration (`defaultConfig`), and what `sys_global_var_init` resets
at power-on (`Config.powerOn`).
-/

namespace WM.Impl

/-- A row of `conf_reg_map_inst`. -/
structure RegRow where
  addr : Nat
  get : Config → Nat
  min : Nat
  max : Nat
  dft : Nat

def regRows : List RegRow :=
  [⟨5, (·.alarmBypassEn), 0, 1, 0⟩,
   ⟨10, (·.maskAin.toNat), 0, 0xffff, 0x801F⟩,
   ⟨11, (·.maskDin.toNat), 0, 0xFFFF, 0x3F7F⟩,
   ⟨13, (·.maskAout.toNat), 0, 0x003f, 0x0001⟩,
   ⟨15, (·.maskDout.w0.toNat), 0, 0xffff, 0xFFFF⟩,
   ⟨16, (·.maskDout.w1.toNat), 0, 0xffff, 0x3F⟩,
   ⟨18, (·.fanMode), 0, 8, 0⟩,
   ⟨22, (·.startupDelay), 0, 600, 0⟩,
   ⟨23, (·.stopDelay), 0, 90, 5⟩,
   ⟨24, (·.minRuntime), 60, 600, 180⟩,
   ⟨26, (·.startupLowpressShield), 60, 600, 120⟩,
   ⟨36, (·.powerMode), 0, 1, 1⟩,
   ⟨37, (·.startTemp0), 0, 800, 150⟩,
   ⟨38, (·.startHumidity), 0, 999, 350⟩,
   ⟨39, (·.stopTemp0), 0, 800, 100⟩,
   ⟨40, (·.stopHumidity), 0, 999, 300⟩,
   ⟨41, (·.startDefrostTemp), 0, 0xFFFF, 65506⟩,
   ⟨42, (·.stopDefrostTemp), 0, 0xFFFF, 60⟩,
   ⟨43, (·.sterilizeTime), 1, 600, 8⟩,
   ⟨44, (·.sterilizeInterval), 1, 10000, 60⟩,
   ⟨45, (·.waterCtrl.toNat), 0, 0xFFFF, 0x0008⟩,
   ⟨46, (·.waterMode), 0, 4, 0⟩,
   ⟨47, (·.waterFlow), 0, 65500, 1000⟩,
   ⟨48, (·.normalWaterTemp), 0, 400, 230⟩,
   ⟨49, (·.hotWaterTemp), 0, 1000, 500⟩,
   ⟨50, (·.exitWaterMode), 0, 2, 0⟩,
   ⟨51, (·.disinfectionMode), 0, 1, 0⟩,
   ⟨52, (·.sterilizeMode), 0, 3, 3⟩,
   ⟨55, (·.uvDelay), 0, 1000, 5⟩,
   ⟨57, (·.testModeType), 0, 0xFF, 0⟩,
   ⟨58, (·.manualTestEn), 0, 2, 0⟩,
   ⟨60, (·.tPowerEn), 0, 1, 0⟩,
   ⟨61, (·.tPowerOn), 0, 0xFFFF, 500⟩,
   ⟨62, (·.tPowerOff), 0, 0xFFFF, 2300⟩,
   ⟨63, (·.alarmParam.filterOt), 1, 65000, 4320⟩,
   ⟨64, (·.alarmParam.e9), 1, 65000, 240⟩,
   ⟨65, (·.alarmParam.filterElement0), 1, 65535, 2500⟩,
   ⟨70, (·.startDelay), 1, 600, 180⟩,
   ⟨71, (·.fanStopDelay), 1, 300, 60⟩,
   ⟨72, (·.compInterval), 10, 600, 30⟩,
   ⟨82, (·.hotWaterCali), 0, 0xffff, 0⟩,
   ⟨84, (·.setSpeed), 0, 100, 60⟩,
   ⟨86, (·.coldWaterMode), 0, 2, 0⟩,
   ⟨87, (·.coldWaterStartTemp), 50, 400, 150⟩,
   ⟨88, (·.coldWaterStopTemp), 10, 300, 70⟩,
   ⟨91, (·.filterElementType), 0, 1, 0⟩,
   ⟨92, (·.alarmParam.filterElement1), 1, 65535, 2500⟩,
   ⟨93, (·.alarmParam.filterElement2), 1, 65535, 2500⟩,
   ⟨96, (·.alarmParam.uv1Ot), 1, 65535, 30000⟩,
   ⟨97, (·.startTemp1), 0, 800, 380⟩,
   ⟨98, (·.stopTemp1), 0, 800, 400⟩,
   ⟨99, (·.restartEnable.toNat), 0, 0xFFFF, 0x8003⟩,
   ⟨100, (·.restartDelay), 1, 0xFFFF, 0x0C03⟩,
   ⟨103, (·.closeFrist), 0, 1, 0⟩,
   ⟨104, (·.closeDelay), 0, 10, 0⟩,
   ⟨105, (·.netErr), 0, 1, 0⟩,
   ⟨106, (·.lnEnable), 0, 1, 0⟩,
   ⟨107, (·.lnMode), 0, 1, 0⟩,
   ⟨110, (·.lnFan), 0, 100, 45⟩,
   ⟨115, (·.heaterPm25.toNat), 0, 1, 0⟩,
   ⟨120, (·.storage), 0, 1, 0⟩,
   ⟨121, (·.storageDealy0), 1, 10000, 80⟩,
   ⟨122, (·.storageDealy1), 1, 10000, 10⟩,
   ⟨125, (·.thInteral), 0, 1000, 30⟩,
   ⟨130, (·.alarmParam.e11), 100, 1500, 1150⟩]

/-- Every register is within its row's range. -/
def Config.InRange (c : Config) : Prop := ∀ r ∈ regRows, r.min ≤ r.get c ∧ r.get c ≤ r.max

instance (c : Config) : Decidable c.InRange := by
  unfold Config.InRange; infer_instance

/-- The default of every row; the fan's registers without a row are never written. -/
def defaultConfig : Config where
  powerMode := 1
  tPowerEn := 0
  tPowerOn := 500
  tPowerOff := 2300
  manualTestEn := 0
  testModeType := 0
  alarmBypassEn := 0
  maskAin := 0x801F
  maskDin := 0x3F7F
  maskDout := ⟨0xFFFF, 0x3F⟩
  maskAout := 1
  alarmParam := ⟨30000, 240, 1150, 4320, 2500, 2500, 2500⟩
  fanType := 0
  fanMode := 0
  setSpeed := 60
  minSpeed := 0
  maxSpeed := 0
  adjustStep := 0
  startDelay := 180
  fanStopDelay := 60
  startupDelay := 0
  startupLowpressShield := 120
  minRuntime := 180
  stopDelay := 5
  compInterval := 30
  lnEnable := 0
  lnMode := 0
  lnFan := 45
  thInteral := 30
  startTemp0 := 150
  startTemp1 := 380
  startHumidity := 350
  stopTemp0 := 100
  stopTemp1 := 400
  stopHumidity := 300
  startDefrostTemp := 65506
  stopDefrostTemp := 60
  waterCtrl := 0x0008
  exitWaterMode := 0
  disinfectionMode := 0
  coldWaterMode := 0
  coldWaterStartTemp := 150
  coldWaterStopTemp := 70
  waterMode := 0
  waterFlow := 1000
  closeDelay := 0
  closeFrist := 0
  normalWaterTemp := 230
  hotWaterTemp := 500
  hotWaterCali := 0
  heaterPm25 := false
  sterilizeMode := 3
  sterilizeTime := 8
  sterilizeInterval := 60
  uvDelay := 5
  storage := 0
  storageDealy0 := 80
  storageDealy1 := 10
  filterElementType := 0
  restartEnable := 0x8003
  restartDelay := 0x0C03
  netErr := 0

theorem defaultConfig_dft : ∀ r ∈ regRows, r.get defaultConfig = r.dft := by decide

theorem defaultConfig_inRange : defaultConfig.InRange := by decide

/-- `sys_global_var_init`: no test, no bypass, no dispense and no external source after power-on. -/
def Config.powerOn (c : Config) : Config :=
  { c with manualTestEn := 0, alarmBypassEn := 0, testModeType := 0, exitWaterMode := 0, waterMode := 0
           waterFlow := 0, netErr := 0 }

/-- What power-on resets is a register whose range starts at 0. -/
theorem powerOn_row (c : Config) : ∀ r ∈ regRows,
    r.get c.powerOn = r.get c ∨ r.get c.powerOn = 0 ∧ r.min = 0 := by
  unfold regRows
  repeat' refine List.forall_mem_cons.mpr ⟨?_, ?_⟩
  all_goals first | exact .inl rfl | exact .inr ⟨rfl, rfl⟩ | exact nofun

theorem Config.InRange.powerOn {c : Config} (h : c.InRange) : c.powerOn.InRange := by
  intro r hr
  have := h r hr
  rcases powerOn_row c r hr with h' | ⟨h', h0⟩ <;> omega

end WM.Impl
