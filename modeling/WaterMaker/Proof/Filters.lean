import WaterMaker.Impl.Config
import WaterMaker.Impl.System
import WaterMaker.Proof.Store.Pages
import WaterMaker.Spec.Filters

/-!
# The filters' counters after a storage

`Storage_exe` ends with four calls of `reset_runtime`, whose argument counts the counters from 1; it passes the
positions of the filter elements, which count from 0. The counters reset are those of the air filter and of the
elements 0 to 2 (`counter_storageThree`), and each call writes the whole table to the EEPROM (`copied_storageThree`).
`filters_reset_iff` says for which tables that does what it is for.
-/

namespace WM.Proof

open WM WM.Impl WM.Spec

/-! ## The image in memory -/

theorem word_byteOf (i : Nat) {n : Nat} (hn : n < 65536) :
    (word (byteOf (2 * i + 1) n) (byteOf (2 * i) n)).toNat = n := by
  unfold byteOf
  rw [if_neg (by omega), if_pos (by omega), word_bytes, BitVec.toNat_ofNat, Nat.mod_eq_of_lt hn]

/-- A memory that holds the image holds the counters. -/
theorem copied_of_image {t : List Runtime} (hlen : t.length = doMaxCnt)
    (hwords : ∀ r ∈ t, r.low < 65536 ∧ r.high < 65536) {f : Nat → Byte}
    (hf : ∀ k < 4 * doMaxCnt, f (stsRegEe1Addr + k) = runtimeImage t k) {i : Nat} (hi : i < doMaxCnt) :
    copied f i = t.getD i ⟨0, 0⟩ := by
  have hr : t.getD i ⟨0, 0⟩ ∈ t := by
    rw [List.getD_eq_getElem _ _ (hlen ▸ hi)]
    exact List.getElem_mem _
  obtain ⟨hlow, hhigh⟩ := hwords _ hr
  have himage : ∀ k, k / 2 = i → runtimeImage t k = byteOf k (t.getD i ⟨0, 0⟩).low := fun k hk => by
    unfold runtimeImage
    rw [if_pos (by rw [hk]; exact hi), hk]
  have himage' : ∀ k, k / 2 = doMaxCnt + i → runtimeImage t k = byteOf k (t.getD i ⟨0, 0⟩).high := fun k hk => by
    unfold runtimeImage
    rw [if_neg (by omega), hk, Nat.add_sub_cancel_left]
  unfold copied copiedWord
  unfold doMaxCnt at *
  rw [hf _ (by omega), hf _ (by omega), hf _ (by omega), hf _ (by omega), himage _ (by omega), himage _ (by omega),
    himage' _ (by omega), himage' _ (by omega), word_byteOf _ hlow, word_byteOf _ hhigh]

/-! ## Writing the table -/

section board

variable (b : Machine)

/-- A write makes page writes; if it gets the mutex and they all succeed, the buffer is there. -/
theorem issued_bufWrite (buf : Nat → Byte) (addr num : Nat) (hnum : 1 ≤ num) (hroom : addr + num < 65536) :
    ∃ ws, (b.bufWrite buf addr num).chip.issued = b.chip.issued ++ ws ∧
      (b.mutex.headD true = true → AllOk ws → ∀ k < num, (b.bufWrite buf addr num).chip.mem (addr + k) = buf k) := by
  have haddr : (BitVec.ofNat 16 addr).toNat = addr := by rw [BitVec.toNat_ofNat, Nat.mod_eq_of_lt (by omega)]
  have hlen : (BitVec.ofNat 16 num).toNat = num := by rw [BitVec.toNat_ofNat, Nat.mod_eq_of_lt (by omega)]
  unfold Machine.bufWrite Chip.i2cEeBufWrite
  cases b.mutex.headD true with
  | false => exact ⟨[], (List.append_nil _).symm, nofun⟩
  | true =>
    obtain ⟨ws, hws, -⟩ := paged_bufWrite buf (BitVec.ofNat 16 addr) (BitVec.ofNat 16 num) (by omega) (by omega) b.chip
    refine ⟨ws, hws.issued, fun _ hok k hk => ?_⟩
    rw [if_pos rfl, hws.mem hok, haddr, hlen, blit_slice, if_pos (by omega), Nat.add_sub_cancel_left]

theorem issued_saveRuntime : ∃ ws, b.saveRuntime.chip.issued = b.chip.issued ++ ws ∧
    (b.mutex.headD true = true → AllOk ws → WordTable b.sys → ∀ i < doMaxCnt,
      copied b.saveRuntime.chip.mem i = counter b.sys i) := by
  obtain ⟨ws, hissued, hmem⟩ := issued_bufWrite b (runtimeImage b.sys.sts.runtime) stsRegEe1Addr (4 * doMaxCnt)
    (by decide) (by decide)
  exact ⟨ws, hissued, fun hmutex hok ht i hi => copied_of_image ht.length ht.words (hmem hmutex hok) hi⟩

variable {b}

theorem resetRuntime_one {param : Nat} (h : 0 < param) (h' : param ≤ doMaxCnt) :
    b.resetRuntime param = (b.setSys (Impl.resetRuntime param)).saveRuntime := by
  unfold Machine.resetRuntime
  unfold doMaxCnt at *
  rw [if_neg (by omega), if_pos ⟨h, h'⟩]

theorem sys_resetRuntime {param : Nat} (h : 0 < param) (h' : param ≤ doMaxCnt) :
    (b.resetRuntime param).sys = Impl.resetRuntime param b.sys := by
  rw [resetRuntime_one h h']
  rfl

theorem mutex_resetRuntime {param : Nat} (h : 0 < param) (h' : param ≤ doMaxCnt) :
    (b.resetRuntime param).mutex = b.mutex.tail := by
  rw [resetRuntime_one h h']
  rfl

theorem counter_resetRuntime {param : Nat} (h : 0 < param) (h' : param ≤ doMaxCnt) {s : Sys}
    (hlen : s.sts.runtime.length = doMaxCnt) {i : Nat} (hi : i < doMaxCnt) :
    counter (Impl.resetRuntime param s) i = if i + 1 = param then ⟨0, 0⟩ else counter s i := by
  unfold Impl.resetRuntime counter
  rw [if_pos ⟨h, h'⟩]
  change (s.sts.runtime.set (param - 1) ⟨0, 0⟩).getD i ⟨0, 0⟩ = _
  rw [List.getD_eq_getElem _ _ (by rw [List.length_set, hlen]; exact hi), List.getElem_set,
    List.getD_eq_getElem _ _ (by rw [hlen]; exact hi)]
  by_cases hp : i + 1 = param
  · rw [if_pos (by omega), if_pos hp]
  · rw [if_neg (by omega), if_neg hp]

theorem wordTable_resetRuntime (param : Nat) {s : Sys} (h : WordTable s) : WordTable (Impl.resetRuntime param s) := by
  unfold Impl.resetRuntime
  split
  · refine ⟨by rw [← h.length]; exact List.length_set, fun r hr => ?_⟩
    rcases List.mem_or_eq_of_mem_set hr with hin | rfl
    · exact h.words r hin
    · exact ⟨by decide, by decide⟩
  · exact h

/-- After a reset whose page writes succeed the copy is the table. -/
theorem issued_resetRuntime (b : Machine) {param : Nat} (h : 0 < param) (h' : param ≤ doMaxCnt) :
    ∃ ws, (b.resetRuntime param).chip.issued = b.chip.issued ++ ws ∧
      (b.mutex.headD true = true → AllOk ws → WordTable b.sys → ∀ i < doMaxCnt,
        copied (b.resetRuntime param).chip.mem i = counter (b.resetRuntime param).sys i) := by
  obtain ⟨ws, hws, hcopied⟩ := issued_saveRuntime (b.setSys (Impl.resetRuntime param))
  rw [resetRuntime_one h h']
  exact ⟨ws, hws, fun hmutex hok ht => hcopied hmutex hok (wordTable_resetRuntime param ht)⟩

/-! ## The phase -/

/-- The first three calls of the phase. -/
def thrice (b : Machine) : Machine :=
  b.setSys (setStor fun t => { t with status := b.sys.storageSignal })
    |> Machine.resetRuntime 33 |> Machine.resetRuntime 34 |> Machine.resetRuntime 35

theorem storageThree_eq (hsignal : b.sys.storageSignal = true) :
    b.storageThree = ((thrice b).resetRuntime 36).setSys (storNext .stop) := if_pos hsignal

theorem sys_thrice : (thrice b).sys = (setStor (fun t => { t with status := b.sys.storageSignal }) b.sys
    |> Impl.resetRuntime 33 |> Impl.resetRuntime 34 |> Impl.resetRuntime 35) := by
  unfold thrice
  rw [sys_resetRuntime (by decide) (by decide), sys_resetRuntime (by decide) (by decide),
    sys_resetRuntime (by decide) (by decide)]
  rfl

/-- The phase is that of `Storage_exe`. -/
theorem sys_storageThree (hphase : b.sys.stor.fsm = .three) (hsignal : b.sys.storageSignal = true) :
    b.storageThree.sys = storageExe b.sys := by
  rw [storageThree_eq hsignal]
  change storNext .stop ((thrice b).resetRuntime 36).sys = _
  rw [sys_resetRuntime (by decide) (by decide), sys_thrice]
  have hthree : ∀ wl x, x.stor.fsm = .three → x.stor.status = true → storageFsm wl x = (x |> Impl.resetRuntime 33
      |> Impl.resetRuntime 34 |> Impl.resetRuntime 35 |> Impl.resetRuntime 36 |> storNext .stop) := by
    intro wl x hfsm hstatus
    unfold storageFsm
    rw [hfsm]
    exact if_pos hstatus
  unfold storageExe
  exact (hthree (getWaterLevel b.sys) (setStor (fun t => { t with status := b.sys.storageSignal }) b.sys) hphase
    hsignal).symm

/-- The air filter and the elements 0 to 2 are reset. -/
theorem counter_storageThree (hsignal : b.sys.storageSignal = true) (ht : WordTable b.sys) {i : Nat}
    (hi : i < doMaxCnt) : counter b.storageThree.sys i = if 32 ≤ i ∧ i ≤ 35 then ⟨0, 0⟩ else counter b.sys i := by
  have hstart : WordTable (setStor (fun t => { t with status := b.sys.storageSignal }) b.sys) := ⟨ht.length, ht.words⟩
  have h33 := wordTable_resetRuntime 33 hstart
  have h34 := wordTable_resetRuntime 34 h33
  have h35 := wordTable_resetRuntime 35 h34
  rw [storageThree_eq hsignal]
  change counter ((thrice b).resetRuntime 36).sys i = _
  rw [sys_resetRuntime (by decide) (by decide), sys_thrice,
    counter_resetRuntime (by decide) (by decide) h35.length hi,
    counter_resetRuntime (by decide) (by decide) h34.length hi, counter_resetRuntime (by decide) (by decide) h33.length hi,
    counter_resetRuntime (by decide) (by decide) hstart.length hi]
  change (if i + 1 = 36 then _ else if i + 1 = 35 then _ else if i + 1 = 34 then _ else if i + 1 = 33 then _ else
    counter b.sys i) = _
  split_ifs <;> first | rfl | omega

theorem issued_thrice : ∃ ws, (thrice b).chip.issued = b.chip.issued ++ ws := by
  obtain ⟨b₁, hb₁⟩ : ∃ b₁, b₁ = b.setSys (setStor fun t => { t with status := b.sys.storageSignal }) := ⟨_, rfl⟩
  have hstart : b₁.chip.issued = b.chip.issued := by rw [hb₁]; rfl
  obtain ⟨ws, hws, -⟩ := issued_resetRuntime b₁ (show 0 < 33 by decide) (by decide)
  obtain ⟨us, hus, -⟩ := issued_resetRuntime (b₁.resetRuntime 33) (show 0 < 34 by decide) (by decide)
  obtain ⟨vs, hvs, -⟩ := issued_resetRuntime ((b₁.resetRuntime 33).resetRuntime 34) (show 0 < 35 by decide)
    (by decide)
  refine ⟨ws ++ us ++ vs, ?_⟩
  unfold thrice
  rw [← hb₁, hvs, hus, hws, hstart, List.append_assoc, List.append_assoc, List.append_assoc]

theorem mutex_thrice (hmutex : ∀ t ∈ b.mutex, t = true) : (thrice b).mutex.headD true = true := by
  have htail : (thrice b).mutex = b.mutex.tail.tail.tail := by
    unfold thrice
    rw [mutex_resetRuntime (by decide) (by decide), mutex_resetRuntime (by decide) (by decide),
      mutex_resetRuntime (by decide) (by decide)]
    rfl
  rw [htail]
  rcases hm : b.mutex.tail.tail.tail with _ | ⟨t, ts⟩
  · rfl
  · refine hmutex t (List.mem_of_mem_tail (List.mem_of_mem_tail (List.mem_of_mem_tail ?_)))
    rw [hm]
    exact List.mem_cons_self

theorem wordTable_thrice (ht : WordTable b.sys) : WordTable (thrice b).sys := by
  rw [sys_thrice]
  exact wordTable_resetRuntime _ (wordTable_resetRuntime _ (wordTable_resetRuntime _ ⟨ht.length, ht.words⟩))

/-- If the mutex is got and no page write fails, the copy is the table. -/
theorem copied_storageThree (hsignal : b.sys.storageSignal = true) (ht : WordTable b.sys)
    (hmutex : ∀ t ∈ b.mutex, t = true) (hok : AllOk (madeBy b.chip (0, b.storageThree.chip))) {i : Nat}
    (hi : i < doMaxCnt) : copied b.storageThree.chip.mem i = counter b.storageThree.sys i := by
  obtain ⟨ws, hws⟩ := issued_thrice (b := b)
  obtain ⟨us, hus, hcopied⟩ := issued_resetRuntime (thrice b) (show 0 < 36 by decide) (by decide)
  have hnext : ∀ x : Machine, (x.setSys (storNext .stop)).chip = x.chip ∧
      counter (x.setSys (storNext .stop)).sys i = counter x.sys i := fun _ => ⟨rfl, rfl⟩
  rw [storageThree_eq hsignal] at hok ⊢
  rw [(hnext _).1, madeBy, hus, hws, List.append_assoc, List.drop_left] at hok
  rw [(hnext _).1, (hnext _).2]
  exact hcopied (mutex_thrice hmutex) (fun w hw => hok w (List.mem_append_right _ hw)) (wordTable_thrice ht) i hi

/-- The table alone: the air filter and element 3 make the difference. -/
theorem resetsElements_iff (hsignal : b.sys.storageSignal = true) (ht : WordTable b.sys) :
    ResetsElements (counter b.sys) (counter b.storageThree.sys) ↔
      counter b.sys 32 = ⟨0, 0⟩ ∧ counter b.sys 36 = ⟨0, 0⟩ := by
  have hcounter := fun i => counter_storageThree (b := b) hsignal ht (i := i)
  constructor
  · intro h
    have h32 := h.kept 32 (by decide) (by decide)
    have h36 := h.reset 36 (by decide) (by decide)
    rw [hcounter 32 (by decide), if_pos (by decide)] at h32
    rw [hcounter 36 (by decide), if_neg (by decide)] at h36
    exact ⟨h32.symm, h36⟩
  · rintro ⟨h32, h36⟩
    refine ⟨fun i hi hin => ?_, fun i hi hnot => ?_⟩
    · rw [hcounter i hi]
      split
      · rfl
      · unfold FirstElement at hin
        rw [show i = 36 by omega, h36]
    · rw [hcounter i hi]
      split
      · unfold FirstElement at hnot
        rw [show i = 32 by omega, h32]
      · rfl

end board

/-- In phase 3 with the storage still requested, and with an EEPROM that takes the writes: just the counters of the
filter elements 0 to 3 are reset, in the table and in its copy, exactly if those of the air filter and of element 3
are 0 already and the copy of the others is up to date. -/
theorem filters_reset_iff (b : Machine) (hphase : b.sys.stor.fsm = .three) (hsignal : b.sys.storageSignal = true)
    (ht : WordTable b.sys) (hmutex : ∀ t ∈ b.mutex, t = true)
    (hok : AllOk (madeBy b.chip (0, b.storageThree.chip))) :
    b.storageThree.sys = storageExe b.sys ∧
      (FiltersReset b b.storageThree ↔ counter b.sys 32 = ⟨0, 0⟩ ∧ counter b.sys 36 = ⟨0, 0⟩ ∧
        ∀ i < doMaxCnt, ¬FirstElement i → copied b.chip.mem i = counter b.sys i) := by
  have hcopied := fun i => copied_storageThree (b := b) hsignal ht hmutex hok (i := i)
  have hram := resetsElements_iff hsignal ht
  refine ⟨sys_storageThree hphase hsignal, fun ⟨htable, hcopy⟩ => ?_, fun ⟨h32, h36, hcopy⟩ => ?_⟩
  · obtain ⟨h32, h36⟩ := hram.mp htable
    refine ⟨h32, h36, fun i hi hnot => ?_⟩
    rw [← hcopy.kept i hi hnot, hcopied i hi, htable.kept i hi hnot]
  · have htable := hram.mpr ⟨h32, h36⟩
    refine ⟨htable, fun i hi hin => ?_, fun i hi hnot => ?_⟩
    · rw [hcopied i hi, htable.reset i hi hin]
    · rw [hcopied i hi, htable.kept i hi hnot, hcopy i hi hnot]

/-- The last phase of a storage, with the counters `t` and an EEPROM that works and has them. -/
def finishing (t : List Runtime) : Machine where
  sys := boot { defaultConfig with storage := 1 } quiet |> setStor (fun _ => ⟨true, .three⟩)
    |> setSts (fun x => { x with runtime := t })
  chip := ⟨fun k => runtimeImage t (k - stsRegEe1Addr), [], []⟩
  mutex := []

/-- Air filter and element 3 are new, all others have run for an hour. -/
def newFilters : List Runtime := List.replicate 32 ⟨0, 1⟩ ++ [⟨0, 0⟩, ⟨0, 1⟩, ⟨0, 1⟩, ⟨0, 1⟩, ⟨0, 0⟩, ⟨0, 1⟩, ⟨0, 1⟩]

theorem filters_reset_newFilters : FiltersReset (finishing newFilters) (finishing newFilters).storageThree := by
  have ht : WordTable (finishing newFilters).sys := ⟨by decide, by decide⟩
  have hok : AllOk (madeBy (finishing newFilters).chip (0, (finishing newFilters).storageThree.chip)) := by
    unfold AllOk
    decide +kernel
  refine (filters_reset_iff (finishing newFilters) (by decide) (by decide) ht nofun hok).2.mpr
    ⟨by decide, by decide, fun i hi _ => ?_⟩
  refine copied_of_image ht.length ht.words (fun k _ => ?_) hi
  change runtimeImage newFilters (stsRegEe1Addr + k - stsRegEe1Addr) = _
  rw [Nat.add_sub_cancel_left]
  rfl

/-- All counters at an hour: the air filter's is reset and element 3's is not. -/
theorem filters_reset_shifted :
    let b := finishing (List.replicate 39 ⟨0, 1⟩)
    let b' := b.storageThree
    b'.sys = storageExe b.sys ∧ counter b.sys 32 = ⟨0, 1⟩ ∧ counter b.sys 36 = ⟨0, 1⟩ ∧
      counter b'.sys 32 = ⟨0, 0⟩ ∧ counter b'.sys 36 = ⟨0, 1⟩ ∧
      copied b'.chip.mem 32 = ⟨0, 0⟩ ∧ copied b'.chip.mem 36 = ⟨0, 1⟩ := by
  refine ⟨sys_storageThree (by decide) (by decide), ?_⟩
  decide +kernel

end WM.Proof
