import WaterMaker.Proof.Registers.Write

/-!
# Remote writes and the legal configurations

A block goes to the registers unchecked, so that a remote write can take the configuration out of its legal set
(`block_unchecked`). `ends_request` says exactly which requests keep it there, and `remote_writes_legal` that
any run of them does.
-/

namespace WM.Proof

open WM WM.Impl WM.Spec

/-! ## The legal set -/

theorem legal_iff {conf : Nat → Word} :
    Legal conf ↔ (∀ i, Allowed i (conf i)) ∧ conf coldWaterStopTemp < conf coldWaterStartTemp := by
  constructor
  · intro h
    refine ⟨fun i r hr hm => ?_, h.apart⟩
    have hi := (row_of_confReg hr).1
    have hrange := h.range r (List.mem_of_getElem? hr) hm
    rw [hi] at hrange
    exact hrange
  · intro h
    refine ⟨fun r hr hm => ?_, h.2⟩
    obtain ⟨i, hi⟩ := List.mem_iff_getElem?.mp hr
    rw [(row_of_confReg hi).1]
    exact h.1 i r hi hm

/-- A row with the range of a word admits every value. -/
theorem allowed_of_wordRange {i : Nat} {r : ConfReg} (h : confReg i = some r) (hmin : r.min = 0)
    (hmax : r.max = 0xFFFF) (v : Word) : Allowed i v := by
  intro r' hr _
  have he : r' = r := Option.some.inj ((Option.mem_def.mp hr).symm.trans h)
  have hv := v.isLt
  rw [he, hmin, hmax]
  omega

theorem allowed_eeWifiSet (v : Word) : Allowed eeWifiSet v := allowed_of_wordRange confReg_eeWifiSet rfl rfl v

section legal

variable {conf : Nat → Word}

theorem legal_update (h : Legal conf) {i : Nat} {v : Word} (hv : Allowed i v)
    (ha : Function.update conf i v coldWaterStopTemp < Function.update conf i v coldWaterStartTemp) :
    Legal (Function.update conf i v) := by
  refine legal_iff.mpr ⟨fun k => ?_, ha⟩
  by_cases hk : k = i
  · subst hk
    rw [Function.update_self]
    exact hv
  · rw [Function.update_of_ne hk]
    exact (legal_iff.mp h).1 k

/-- A register that may hold anything does not matter. -/
theorem legal_update_eeWifiSet (v : Word) : Legal (Function.update conf eeWifiSet v) ↔ Legal conf := by
  have hother : ∀ k, k ≠ eeWifiSet → Function.update conf eeWifiSet v k = conf k := fun k hk =>
    Function.update_of_ne hk ..
  rw [legal_iff, legal_iff, hother _ (by decide), hother _ (by decide)]
  refine and_congr_left fun _ => forall_congr' fun k => ?_
  by_cases hk : k = eeWifiSet
  · rw [hk]
    exact iff_of_true (allowed_eeWifiSet _) (allowed_eeWifiSet _)
  · rw [hother k hk]

/-- The registers after a block are legal exactly if the block is. -/
theorem legal_blockConf_iff (h : Legal conf) {addr : Nat} {vs : List Word} (hm : Mapped addr vs.length) :
    Legal (blockConf conf addr vs) ↔ BlockLawful conf addr vs := by
  have hwifi : Legal (blockConf conf addr vs) ↔ Legal (blit conf (addr - configRegMapOffset) vs) := by
    unfold blockConf
    split
    · exact legal_update_eeWifiSet _
    · rfl
  rw [hwifi, legal_iff, forall_blit_iff (legal_iff.mp h).1]
  exact ⟨fun h => ⟨hm, h.1, h.2⟩, fun h => ⟨h.allowed, h.apart⟩⟩

end legal

/-! ## Blocks -/

theorem ends_map {α : Type} {P : Dev → Prop} {f : α → Dev} {g : Dev → α} (hg : ∀ d, f (g d) = d)
    (x : Except Halt Dev) : Ends P ((x.map g).map f) ↔ Ends P x := by
  cases x with
  | ok d =>
    change P (f (g d)) ↔ P d
    rw [hg]
  | error e => cases e <;> rfl

/-- What the callback leaves of the registers when it is given a block. -/
theorem ends_block {d : Dev} (h : Legal d.conf) (buf : Nat → Byte) (addr n : Nat) :
    Ends (fun d => Legal d.conf) ((cpadEMBRegHoldingCB .fault buf addr n .multipleWrite d).map fun x => x.2.2) ↔
      SettingLawful d.conf addr n buf := by
  by_cases hr : Reaches addr n
  · rw [block_reaches d hr, ends_map fun _ => rfl]
    have hlen := length_sent buf n
    by_cases hm : Mapped addr n
    · obtain ⟨ee, events, hw⟩ := blockWrite_mapped buf d hm
      rw [hw]
      refine (legal_blockConf_iff h (hlen.symm ▸ hm)).trans ?_
      exact ⟨fun hb _ => hb, fun hb => hb hr⟩
    · rw [blockWrite_fault d hr.1 hm]
      exact ⟨False.elim, fun hb => hm (hlen ▸ (hb hr).mapped)⟩
  · have hkeep : ∃ err, cpadEMBRegHoldingCB .fault buf addr n .multipleWrite d = .ok (err, [], d) := by
      by_cases href : Refused addr n
      · exact ⟨_, block_refused d href⟩
      · exact ⟨_, block_passed d href hr⟩
    obtain ⟨err, hk⟩ := hkeep
    rw [hk]
    exact iff_of_true h fun hr' => absurd hr' hr

/-! ## Single writes -/

/-- The two rows with a check, and the rows without a register, which have none. -/
theorem chk_of_table : ∀ r ∈ confRegMapInst, (r.mapped = false → r.chk = none) ∧
    (r.id = coldWaterStartTemp → r.chk = some .coldWaterStartTemp) ∧
    (r.id = coldWaterStopTemp → r.chk = some .coldWaterStopTemp) := by
  decide +kernel

/-- A write to any other row keeps the temperatures apart. -/
theorem apart_update {conf : Nat → Word} (h : conf coldWaterStopTemp < conf coldWaterStartTemp) {i : Nat}
    (hstart : i ≠ coldWaterStartTemp) (hstop : i ≠ coldWaterStopTemp) (v : Word) :
    Function.update conf i v coldWaterStopTemp < Function.update conf i v coldWaterStartTemp := by
  rw [Function.update_of_ne hstop.symm, Function.update_of_ne hstart.symm]
  exact h

/-- A value that passes the checks keeps the temperatures apart. -/
theorem apart_of_dataCheck {d : Dev} (h : d.conf coldWaterStopTemp < d.conf coldWaterStartTemp) {i : Nat}
    {r : ConfReg} {v : Word} (hr : confReg i = some r) (hc : dataCheck d r v = none) :
    Function.update d.conf i v coldWaterStopTemp < Function.update d.conf i v coldWaterStartTemp := by
  obtain ⟨-, hstart, hstop⟩ := chk_of_table r (List.mem_of_getElem? hr)
  rw [(row_of_confReg hr).1] at hstart hstop
  have hchk := (dataCheck_none_iff.mp hc).2
  by_cases h1 : i = coldWaterStartTemp
  · rw [hstart h1] at hchk
    have hgt : d.conf coldWaterStopTemp < v := of_decide_eq_true hchk
    subst h1
    rw [Function.update_self, Function.update_of_ne (by decide)]
    exact hgt
  · by_cases h2 : i = coldWaterStopTemp
    · rw [hstop h2] at hchk
      have hlt : v < d.conf coldWaterStartTemp := of_decide_eq_true hchk
      subst h2
      rw [Function.update_self, Function.update_of_ne (by decide)]
      exact hlt
    · exact apart_update h h1 h2 v

/-- Row `i` has a register, or the value is refused. -/
def Safe (i : Nat) (v : Word) : Prop := ∃ r ∈ confReg i, r.mapped = true ∨ r.max < v.toNat ∨ v.toNat < r.min

theorem safe_iff {i : Nat} {v : Word} {r : ConfReg} (h : confReg i = some r) :
    Safe i v ↔ r.mapped = true ∨ r.max < v.toNat ∨ v.toNat < r.min := by
  unfold Safe
  simp only [h, Option.mem_some_iff, exists_eq_left']

theorem not_safe {i : Nat} (v : Word) (h : confReg i = none) : ¬Safe i v := by
  rintro ⟨r, hmem, -⟩
  exact absurd (h.symm.trans hmem) nofun

/-- A value is refused in a row without a register by its range only. -/
theorem dataCheck_null {d : Dev} {i : Nat} {r : ConfReg} {v : Word} (h : confReg i = some r)
    (hm : r.mapped = false) : dataCheck d r v = none ↔ ¬Safe i v := by
  have hchk := (chk_of_table r (List.mem_of_getElem? h)).1 hm
  rw [safe_iff h, dataCheck_none_iff, hchk, hm]
  simp only [Option.all_none, and_true, Bool.false_eq_true, false_or]
  omega

/-- The rows of the commands have registers. -/
theorem mapped_of_command : ∀ i ∈ [factoryReset, manualTset, clearRt, clearAlarmReg, setTl, setTh],
    isMapped i = true := by
  decide

theorem safe_of_command {i : Nat} (hi : i ∈ [factoryReset, manualTset, clearRt, clearAlarmReg, setTl, setTh])
    (v : Word) : Safe i v := by
  obtain ⟨r, hr, hm⟩ := isMapped_iff.mp (mapped_of_command i hi)
  exact ⟨r, hr, .inl hm⟩

section single

variable {Q : (Nat → Word) → Prop} {d : Dev} {i : Nat} {v : Word} (h : Q d.conf)
  (hw : ∀ r, confReg i = some r → dataCheck d r v = none → Q (Function.update d.conf i v))
include h hw

/-- A checked write keeps what holds of the registers before it, and with a value that is accepted. -/
theorem ends_comWrite : Ends (fun d => Q d.conf) ((comWrite .fault i v d).map Prod.snd) ↔ Safe i v := by
  unfold comWrite
  cases hr : confReg i with
  | none => exact iff_of_false id (not_safe v hr)
  | some r =>
    dsimp only
    rw [(row_of_confReg hr).1]
    cases hm : r.mapped with
    | false =>
      cases hc : dataCheck d r v with
      | some err =>
        rw [regMapWrite_refused hr (by decide) hc]
        refine iff_of_true h (not_not.mp fun hs => ?_)
        rw [(dataCheck_null hr hm).mpr hs] at hc
        cases hc
      | none =>
        rw [regMapWrite_null hr (by decide) hm hc]
        exact iff_of_false id ((dataCheck_null hr hm).mp hc)
    | true =>
      refine iff_of_true ?_ ((safe_iff hr).mpr (.inl hm))
      cases hc : dataCheck d r v with
      | some err =>
        rw [regMapWrite_refused hr (by decide) hc]
        exact h
      | none =>
        obtain ⟨ee, events, he⟩ := regMapWrite_mapped hr (by decide : UserId.cpad ≠ .modebusSlave) hm hc
        rw [he]
        exact hw r hr hc

theorem ends_comSingle (ht : i = setTl ∨ i = setTh → Q (Function.update d.conf i v)) :
    Ends (fun d => Q d.conf) ((comSingle .fault i v d).map Prod.snd) ↔ Safe i v := by
  unfold comSingle
  by_cases h1 : i = factoryReset
  · rw [if_pos h1]
    refine iff_of_true ?_ (safe_of_command (by simp [h1]) v)
    split_ifs <;> exact h
  rw [if_neg h1]
  by_cases h2 : i = manualTset
  · rw [if_pos h2]
    split
    · exact iff_of_true h (safe_of_command (by simp [h2]) v)
    · exact ends_comWrite h hw
  rw [if_neg h2]
  by_cases h3 : i = clearRt
  · rw [if_pos h3]
    refine iff_of_true ?_ (safe_of_command (by simp [h3]) v)
    split <;> exact h
  rw [if_neg h3]
  by_cases h4 : i = clearAlarmReg
  · rw [if_pos h4]
    refine iff_of_true ?_ (safe_of_command (by simp [h4]) v)
    split <;> exact h
  rw [if_neg h4]
  by_cases h5 : i = setTl ∨ i = setTh
  · rw [if_pos h5]
    refine iff_of_true ?_ (safe_of_command (by rcases h5 with h5 | h5 <;> simp [h5]) v)
    split
    · exact ht h5
    · exact h
  rw [if_neg h5]
  exact ends_comWrite h hw

end single

/-- A single write keeps what holds of the registers before it and after a write that is accepted, or is no write
at all. -/
theorem ends_single_of {Q : (Nat → Word) → Prop} {d : Dev} (h : Q d.conf) (buf : Nat → Byte) (addr : Nat)
    (hw : ∀ i r, confReg i = some r → dataCheck d r (word (buf 0) (buf 1)) = none →
      Q (Function.update d.conf i (word (buf 0) (buf 1))))
    (ht : ∀ i, i = setTl ∨ i = setTh → Q (Function.update d.conf i (word (buf 0) (buf 1)))) :
    Ends (fun d => Q d.conf) ((cpadEMBRegHoldingCB .fault buf addr 1 .singleWrite d).map fun x => x.2.2) ↔
      SingleLawful addr (word (buf 0) (buf 1)) := by
  have hout : ∀ x : Except Halt (MbErr × Dev), Ends (fun d => Q d.conf)
      ((x >>= fun y => pure (y.1, ([] : List Byte), y.2)).map fun x => x.2.2) ↔
        Ends (fun d => Q d.conf) (x.map Prod.snd) := by
    rintro (_ | _) <;> rfl
  have hpass : ∀ x : Except Halt (MbErr × Dev), Ends (fun d => Q d.conf)
      ((x >>= fun y => pure (if y.1 = .noErr then MbErr.noErr else MbErr.noRes, y.2)).map Prod.snd) ↔
        Ends (fun d => Q d.conf) (x.map Prod.snd) := by
    rintro (_ | _) <;> rfl
  unfold SingleLawful cpadEMBRegHoldingCB
  by_cases hwin : addr < cpadRegHoldingWriteNregs
  · rw [if_pos (Nat.le_trans hwin (by decide))]
    refine (hout _).trans ?_
    unfold singleWrite
    rw [if_neg (by omega)]
    by_cases hconf : configRegMapOffset ≤ addr
    · rw [if_pos (by omega)]
      refine (hpass _).trans ((ends_comSingle h (hw _) (ht _)).trans ?_)
      exact ⟨fun hs _ _ => hs, fun hs => hs hconf hwin⟩
    · rw [if_neg (by omega)]
      exact iff_of_true h fun hc => absurd hc hconf
  · refine iff_of_true ?_ fun _ hc => absurd hc hwin
    split
    · refine (hout _).mpr ?_
      unfold singleWrite
      rw [if_pos (by omega)]
      exact h
    · exact h

theorem legal_setTime {conf : Nat → Word} (h : Legal conf) {i : Nat} (hi : i = setTl ∨ i = setTh) (v : Word) :
    Legal (Function.update conf i v) := by
  have hlow : confReg setTl = some (ConfReg.reg setTl 0 0xFFFF 0 2) := rfl
  have hhigh : confReg setTh = some (ConfReg.reg setTh 0 0xFFFF 0 2) := rfl
  rcases hi with rfl | rfl
  · exact legal_update h (allowed_of_wordRange hlow rfl rfl v) (apart_update h.apart (by decide) (by decide) v)
  · exact legal_update h (allowed_of_wordRange hhigh rfl rfl v) (apart_update h.apart (by decide) (by decide) v)

theorem ends_single {d : Dev} (h : Legal d.conf) (buf : Nat → Byte) (addr : Nat) :
    Ends (fun d => Legal d.conf) ((cpadEMBRegHoldingCB .fault buf addr 1 .singleWrite d).map fun x => x.2.2) ↔
      SingleLawful addr (word (buf 0) (buf 1)) := by
  refine ends_single_of h buf addr (fun i r hr hc => ?_) fun i hi => legal_setTime h hi _
  refine legal_update h (fun r' hr' _ => ?_) (apart_of_dataCheck h.apart hr hc)
  have he : r' = r := Option.some.inj (hr'.symm.trans hr)
  rw [he]
  exact (dataCheck_none_iff.mp hc).1

/-! ## Requests -/

theorem request_single {f : WriteFrame} (h : f.rx 1 = 0x06) (d : Dev) : request .fault d (.modbus f) =
    (cpadEMBRegHoldingCB .fault (fun k => f.rx (4 + k)) (frameAddr f.rx) 1 .singleWrite d).map fun x => x.2.2 := by
  unfold request analysisProtocol
  dsimp only
  rw [if_neg (by rw [h]; decide), if_pos h]
  cases cpadEMBRegHoldingCB .fault (fun k => f.rx (4 + k)) (frameAddr f.rx) 1 .singleWrite d <;> rfl

theorem request_block {f : WriteFrame} (h : f.rx 1 ≠ 0x06) (d : Dev) : request .fault d (.modbus f) =
    (cpadEMBRegHoldingCB .fault (fun k => f.rx (7 + k)) (frameAddr f.rx) (frameNreg f.rx) .multipleWrite d).map
      fun x => x.2.2 := by
  have hw := f.write.resolve_left h
  unfold request analysisProtocol
  dsimp only
  rw [if_neg (by rw [hw]; decide), if_neg h, if_pos hw]
  cases cpadEMBRegHoldingCB .fault (fun k => f.rx (7 + k)) (frameAddr f.rx) (frameNreg f.rx) .multipleWrite d <;> rfl

theorem ends_applySetting {d : Dev} (h : Legal d.conf) (s : Setting) :
    Ends (fun d => Legal d.conf) (applySetting .fault s d) ↔
      SettingLawful d.conf s.addr s.n fun k => s.data.getD k 0 := by
  rw [← ends_block h]
  unfold applySetting
  cases cpadEMBRegHoldingCB .fault (fun k => s.data.getD k 0) s.addr s.n .multipleWrite d <;> rfl

/-- The controller neither restarts nor hangs in a computation. -/
def OnlyFaults {α : Type} (x : Except Halt α) : Prop := ∀ e, x = .error e → e = .fault

namespace OnlyFaults

variable {α β : Type}

theorem ok (a : α) : OnlyFaults (.ok a) := nofun

theorem fault : OnlyFaults (.error .fault : Except Halt α) := fun _ h => (Except.error.inj h).symm

theorem bind {x : Except Halt α} {f : α → Except Halt β} (hx : OnlyFaults x) (hf : ∀ a, OnlyFaults (f a)) :
    OnlyFaults (x >>= f) := by
  cases x with
  | ok a => exact hf a
  | error e => exact fun e' h => hx e' (congrArg Except.error (Except.error.inj h))

end OnlyFaults

theorem onlyFaults_itemInt (o : Option Item) : OnlyFaults (itemInt o) := by
  unfold itemInt
  split
  · split
    · exact .ok _
    · exact .fault
  · exact .fault

theorem onlyFaults_settingBytes (s : List Char) (k i : Nat) (last : Option Int) :
    OnlyFaults (settingBytes s k i last) := by
  induction k generalizing i last with
  | zero => exact .ok _
  | succ k ih =>
    unfold settingBytes
    split
    · exact .fault
    · exact (ih _ _).bind fun bs => .ok _

/-- A message either sets something, or nothing, or cannot be decoded. -/
theorem onlyFaults_settingOf (mem : Nat × Nat) (m : ParamMsg) : OnlyFaults (settingOf mem m) := by
  unfold settingOf
  refine (onlyFaults_itemInt _).bind fun code => ?_
  split
  · exact .ok _
  refine (onlyFaults_itemInt _).bind fun addr => (onlyFaults_itemInt _).bind fun leng => ?_
  split
  · exact .fault
  split
  · exact .ok _
  split
  · exact .ok _
  · exact .fault
  · split
    · exact .fault
    · exact (onlyFaults_settingBytes _ _ _ _).bind fun data => .ok _

/-- Exactly the lawful requests keep a legal configuration legal. -/
theorem ends_request {d : Dev} (h : Legal d.conf) (r : Request) :
    Ends (fun d => Legal d.conf) (request .fault d r) ↔ Lawful d r := by
  cases r with
  | modbus f =>
    unfold Lawful
    dsimp only
    split
    · rename_i hf
      rw [request_single hf]
      exact ends_single h _ _
    · rename_i hf
      rw [request_block hf]
      exact ends_block h _ _ _
  | cloud mem msg =>
    cases msg with
    | none => exact iff_of_true h trivial
    | some m =>
      unfold request networkParameterSetParse Lawful
      dsimp only
      cases hs : settingOf mem m with
      | error e =>
        cases onlyFaults_settingOf mem m e hs
        refine iff_of_false id ?_
        rintro ⟨o, ho, -⟩
        cases ho
      | ok o =>
        have hlaw : (∃ o', (.ok o : Except Halt _) = .ok o' ∧
            ∀ s ∈ o', SettingLawful d.conf s.addr s.n fun k => s.data.getD k 0) ↔
            ∀ s ∈ o, SettingLawful d.conf s.addr s.n fun k => s.data.getD k 0 :=
          ⟨fun ⟨_, he, hall⟩ => Except.ok.inj he ▸ hall, fun hall => ⟨o, rfl, hall⟩⟩
        rw [hlaw]
        cases o with
        | none => exact iff_of_true h nofun
        | some s =>
          refine (ends_applySetting h s).trans ?_
          exact ⟨fun hl s' hs' => Option.some.inj hs' ▸ hl, fun hl => hl s rfl⟩
  | ble rx =>
    unfold request operateRxData Lawful
    dsimp only
    cases hs : bleSetting rx d with
    | error e =>
      have hhang : e = .hang d := by
        unfold bleSetting at hs
        split_ifs at hs
        exact (Except.error.inj hs).symm
      rw [hhang]
      exact iff_of_true h nofun
    | ok o =>
      cases o with
      | none => exact iff_of_true h fun s he => absurd he nofun
      | some s =>
        refine (ends_applySetting h s).trans ?_
        exact ⟨fun hl s' hs' => Option.some.inj (Except.ok.inj hs') ▸ hl, fun hl => hl s rfl⟩

theorem ends_run {d : Dev} (h : Legal d.conf) {rs : List Request}
    (hrs : Along (remoteStep .fault) LawfulAt (.ok d) rs) :
    Ends (fun d => Legal d.conf) (run (remoteStep .fault) (.ok d) rs) := by
  refine hrs.run_inv (fun x r hx hr => ?_) h
  cases x with
  | ok d => exact (ends_request hx r).mpr (hr d rfl)
  | error e => exact hx

/-- Every register at its default. -/
def freshDev : Dev where
  conf i := BitVec.ofNat 16 ((confReg i).elim 0 ConfReg.dft)
  cmd _ := 0
  sts _ := 0
  flash := 0
  ee := ⟨fun _ _ => 0, 0xdf, [], 0⟩
  events := []
  permissionLevel := 0
  now := 0
  setSystimeDelay := 0
  setSystimeFlag := 0
  calls := []

/-- Every default is within the range of its row. -/
theorem dft_of_table : ∀ r ∈ confRegMapInst, r.mapped = true →
    r.min ≤ (BitVec.ofNat 16 r.dft).toNat ∧ (BitVec.ofNat 16 r.dft).toNat ≤ r.max := by
  decide +kernel

theorem legal_freshDev : Legal freshDev.conf := by
  refine ⟨fun r hr hm => ?_, by decide⟩
  obtain ⟨i, hi⟩ := List.mem_iff_getElem?.mp hr
  have hrow : confReg i = some r := hi
  have hconf : freshDev.conf i = BitVec.ofNat 16 r.dft := by
    change BitVec.ofNat 16 ((confReg i).elim 0 ConfReg.dft) = _
    rw [hrow]
    rfl
  rw [(row_of_confReg hrow).1, hconf]
  exact dft_of_table r hr hm

/-- Cooling is to start at 20.0 degrees and to stop at 10.0: a block of two registers. -/
def coolerFrame : WriteFrame :=
  ⟨frame [0x01, 0x10, 0x00, 0x97, 0x00, 0x02, 0x04, 0x00, 0xC8, 0x00, 0x64, 0x3B, 0x30], .inr rfl⟩

/-- Cooling is to start at 0 degrees: a block of one register. -/
def frostFrame : WriteFrame := ⟨frame [0x01, 0x10, 0x00, 0x97, 0x00, 0x01, 0x02, 0x00, 0x00, 0xBA, 0xB7], .inr rfl⟩

end WM.Proof
