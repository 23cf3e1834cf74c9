import WaterMaker.Spec.ChildLock
import WaterMaker.Proof.WaterPath

/-!
# The child lock in the firmware

`sys_comp_cooldown` counts the child lock's seconds and `WaterOut_Key` reads the keys: `lockOf` reads the
abstract lock off a state (`lockOf_waterOutKey`, `lockOf_step`). `WaterOut_Key` runs only with `HMI_KEY` and
outside of storage, and it alone closes the lock. `child_lock_holds` says that in every run in which it
closes the lock before the next second (`Attended`), the hot key is taken at most `ChildKey_Lose` seconds
after the child-lock key was seen pressed; `child_lock_stays_open` is a run in which it does not.
-/

namespace WM.Proof

open WM WM.Impl WM.Spec

def lockOf (s : Sys) : ChildLock where
  latch := s.out.childLockKey
  held := s.out.childLockCnt0
  left := s.out.childLockCnt1
  hot := s.out.key.getLsbD keyHeat

section keys

variable (s : Sys)

theorem lockOf_keyCold : lockOf (keyCold s) = lockOf s := by
  have hbit : (keyCold s).out.key.getLsbD keyHeat = s.out.key.getLsbD keyHeat := by
    change (putBit (putBit s.out.key keyNormalIce _) keyIce _).getLsbD keyHeat = _
    rw [getLsbD_putBit _ (by decide), getLsbD_putBit _ (by decide), if_neg (by decide), if_neg (by decide)]
  exact congrArg (fun b => { lockOf s with hot := b }) hbit

theorem lockOf_keyChild : lockOf (keyChild s) = (lockOf s).unlock := by
  unfold keyChild ChildLock.unlock
  exact apply_ite lockOf _ _ _

theorem lockOf_keyHot : lockOf (keyHot s) = (lockOf s).take (s.diSts .heat) := by
  have hput : ∀ on n, lockOf (setOut (fun o => { o with key := putBit o.key keyHeat on, delay1 := n }) s) =
      { lockOf s with hot := on } := fun on n => by
    have hbit : (putBit s.out.key keyHeat on).getLsbD keyHeat = on := by
      rw [getLsbD_putBit _ (by decide), if_pos rfl]
    exact congrArg (fun b => { lockOf s with hot := b }) hbit
  unfold keyHot ChildLock.take
  rw [apply_ite lockOf, apply_ite lockOf, hput, hput]
  rfl

theorem lockOf_keyLamp : lockOf (keyLamp s) = (lockOf s).expire := by
  unfold keyLamp ChildLock.expire
  exact apply_ite lockOf _ _ _

/-- `WaterOut_Key` reads the keys of the abstract lock. -/
theorem lockOf_waterOutKey : lockOf (waterOutKey s) = (lockOf s).read (s.diSts .heat) := by
  have hheat : (keyChild (keyCold s)).diSts .heat = s.diSts .heat := by
    unfold keyChild
    split <;> rfl
  unfold waterOutKey ChildLock.read
  rw [lockOf_keyLamp, lockOf_keyHot, hheat, lockOf_keyChild, lockOf_keyCold]

/-- The keys are read with `HMI_KEY` and outside of storage. -/
def readsKeys (s : Sys) : Bool := s.cfg.hmiKey && !s.stor.status

theorem lockOf_waterOutReqExe : lockOf (waterOutReqExe s) =
    if readsKeys s then (lockOf s).read (s.diSts .heat) else lockOf s := by
  have hframe : OutFrame lockOf := by
    refine ⟨⟨fun f s hf => ?_, fun _ _ => rfl, fun _ _ _ => rfl, fun _ _ _ => rfl, fun _ _ _ => rfl,
      fun _ _ _ _ => rfl⟩, fun _ => rfl⟩
    obtain ⟨h1, h2, h3, h4, -⟩ := hf s.out
    simp only [lockOf, setOut_out, h1, h2, h3, h4]
  rw [hframe.waterOutReqExe_keys]
  unfold readsKeys readKeys
  cases hst : s.stor.status <;> cases hkey : s.cfg.hmiKey
  · simp only [reqBitmapOp_cfg, hkey, Bool.false_eq_true, ↓reduceIte, Bool.false_and]
    rfl
  · simp only [reqBitmapOp_cfg, hkey, Bool.false_eq_true, ↓reduceIte, Bool.not_false, Bool.and_self]
    exact lockOf_waterOutKey (reqBitmapOp .rh1 true s)
  · rfl
  · rfl

theorem lockOf_reqExecution : lockOf (reqExecution s) =
    if readsKeys s then (lockOf s).read (s.diSts .heat) else lockOf s := by
  have hfin : lockOf (reqExecution s) = lockOf (waterOutReqExe (prepared s)) := by
    have hout : (reqExecution s).out = (waterOutReqExe (prepared s)).out :=
      congrArg Prod.snd (outView_finish (waterOutReqExe (prepared s)))
    simp only [lockOf, hout]
  have hst : (prepared s).stor = s.stor := congrArg (·.1) (keptView_prepared s)
  have hout : (prepared s).out = s.out := congrArg (·.2.1) (keptView_prepared s)
  have hlock : lockOf (prepared s) = lockOf s := by simp only [lockOf, hout]
  have hreads : readsKeys (prepared s) = readsKeys s := by simp only [readsKeys, hst, hmiKey_prepared]
  have hheat : (prepared s).diSts .heat = s.diSts .heat := congrArg (·.din.getLsbD Di.heat.bpos) (inp_prepared s)
  rw [hfin, lockOf_waterOutReqExe, hlock, hreads, hheat]

end keys

/-- A step reads the keys, counts a second or leaves the lock alone. -/
theorem lockOf_step (s : Sys) (e : Event) :
    (e = .cooldown ∧ lockOf (step s e) = (lockOf s).second (s.diSts .child)) ∨
      e ≠ .cooldown ∧ ((∃ heat, lockOf (step s e) = (lockOf s).read heat) ∨ lockOf (step s e) = lockOf s) := by
  have hread : ∀ (s' : Sys) (b : Bool), lockOf s' = (if b then (lockOf s).read (s.diSts .heat) else lockOf s) →
      (∃ heat, lockOf s' = (lockOf s).read heat) ∨ lockOf s' = lockOf s := fun s' b h => by
    cases b
    · exact .inr h
    · exact .inl ⟨_, h⟩
  cases e with
  | cooldown => exact .inl ⟨rfl, rfl⟩
  | req => exact .inr ⟨Event.noConfusion, hread _ _ (lockOf_reqExecution s)⟩
  | waterOut => exact .inr ⟨Event.noConfusion, hread _ _ (lockOf_waterOutReqExe s)⟩
  | core =>
    have hview := alarmView_alarmAclExe s
    have h1 := congrArg lockOf hview
    have h2 := congrArg readsKeys hview
    have h3 := congrArg (·.diSts .heat) hview
    have h4 := congrArg lockOf (outputView_ocUpdate (reqExecution (alarmAclExe s)))
    have hreq := lockOf_reqExecution (alarmAclExe s)
    refine .inr ⟨Event.noConfusion, hread _ (readsKeys s) ?_⟩
    exact h4.trans (hreq.trans (by
      rw [show lockOf (alarmAclExe s) = lockOf s from h1, show readsKeys (alarmAclExe s) = readsKeys s from h2,
        show (alarmAclExe s).diSts .heat = s.diSts .heat from h3]))
  | runTime =>
    have h := congrArg lockOf (counterView_runTimeProcess s)
    exact .inr ⟨Event.noConfusion, .inr h⟩
  | runningMode =>
    have h := congrArg lockOf (modeView_sysRunningModeUpdate s)
    exact .inr ⟨Event.noConfusion, .inr h⟩
  | _ =>
    exact .inr ⟨Event.noConfusion, .inr rfl⟩

/-! ## Runs -/

theorem run_watch (x : Watched) (es : List Event) : (run watch x es).sys = run step x.sys es :=
  run_hom (fun _ _ => rfl) x es

theorem since_watch {x : Watched} {e : Event} (he : e ≠ .cooldown) : (watch x e).since = x.since := by
  cases e with
  | cooldown => exact absurd rfl he
  | _ => rfl

theorem guarded_watch {x : Watched} {e : Event} (h : ChildLock.Guarded (lockOf x.sys) x.since)
    (hc : Attended x e) : ChildLock.Guarded (lockOf (watch x e).sys) (watch x e).since := by
  rcases lockOf_step x.sys e with ⟨rfl, hlock⟩ | ⟨he, ⟨heat, hlock⟩ | hlock⟩
  · exact h.second (x.sys.diSts .child) hc
  · have hsys : lockOf (watch x e).sys = _ := hlock
    rw [hsys, since_watch he]
    exact h.read heat
  · have hsys : lockOf (watch x e).sys = _ := hlock
    rw [hsys, since_watch he]
    exact h

theorem takenUnlocked_of_guarded {x : Watched} {e : Event} (h : ChildLock.Guarded (lockOf x.sys) x.since) :
    TakenUnlocked x e := by
  intro hoff hon
  have hsame : lockOf (step x.sys e) ≠ lockOf x.sys := fun hs =>
    absurd (hoff.symm.trans ((congrArg ChildLock.hot hs).symm.trans hon)) Bool.false_ne_true
  rcases lockOf_step x.sys e with ⟨rfl, -⟩ | ⟨-, ⟨heat, hlock⟩ | hlock⟩
  · exact absurd (hoff.symm.trans hon) Bool.false_ne_true
  · exact h.hot hoff ((congrArg ChildLock.hot hlock).symm.trans hon)
  · exact absurd hlock hsame

/-- The child lock, in every run that attends to it: whatever the storage mode and `HMI_KEY`, the hot key is
newly taken only within `ChildKey_Lose` seconds of the child-lock key. -/
theorem child_lock_holds (c : Config) (i : Inputs) (es : List Event)
    (h : Along watch Attended ⟨boot c i, none⟩ es) :
    (run watch ⟨boot c i, none⟩ es).sys = run step (boot c i) es ∧
      Along watch TakenUnlocked ⟨boot c i, none⟩ es := by
  have hboot : ChildLock.Guarded (lockOf (boot c i)) none := ⟨fun hz => absurd rfl hz, nofun⟩
  have hinv := h.and_inv (I := fun x => ChildLock.Guarded (lockOf x.sys) x.since)
    (fun _ _ hx hc => guarded_watch hx hc) hboot
  exact ⟨run_watch _ es, hinv.mono fun _ _ hx => takenUnlocked_of_guarded hx.2⟩

/-- The child-lock key and the hot key are pressed. -/
def childKey : Inputs := { quiet with din := 0x1876 }
def hotKey : Inputs := { quiet with din := 0x1476 }

/-- Dispensing by keys. -/
def keyedConfig : Config := { defaultConfig.powerOn with waterCtrl := 0x0002 }

/-- The lock is opened and the hot key pressed. -/
def unlockRun : List Event := [.inputs childKey, .cooldown, .req, .inputs hotKey, .cooldown, .req]

/-- The hot key is taken after one second, within the time of the lock. -/
theorem child_lock_holds_unlockRun : Along watch TakenUnlocked ⟨boot keyedConfig quiet, none⟩ unlockRun ∧
    (run watch ⟨boot keyedConfig quiet, none⟩ unlockRun).sys.out.key.getLsbD keyHeat = true ∧
    (run watch ⟨boot keyedConfig quiet, none⟩ unlockRun).since = some 1 :=
  ⟨(child_lock_holds keyedConfig quiet unlockRun (by decide +kernel)).2, by decide +kernel⟩

/-- The lock is opened, `HMI_KEY` is switched off for ten seconds, and on again. -/
def forgottenRun : List Event :=
  [.inputs childKey, .cooldown, .req, .inputs hotKey, .config defaultConfig.powerOn] ++
    List.replicate 10 .cooldown ++ [.config keyedConfig]

/-- The lock is still open, and the hot key is taken ten seconds after the child-lock key was released. -/
theorem child_lock_stays_open : keyedConfig.InRange ∧
    (let x := run watch ⟨boot keyedConfig quiet, none⟩ forgottenRun
     x.since = some 10 ∧ x.sys.out.key.getLsbD keyHeat = false ∧
       (step x.sys .req).out.key.getLsbD keyHeat = true) :=
  ⟨by decide, by decide +kernel⟩

end WM.Proof
