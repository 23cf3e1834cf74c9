import WaterMaker.Spec.Cycle
import WaterMaker.Proof.Bank

/-!
# When the compressors switch

Runs of the whole machine seen through the bank: two switches of the compressors in one direction are
`u16Comp_Interval` seconds apart, whichever compressors they are (`switches_staggered`), and one compressor
stays off and runs for its minimal times (`short_cycle_protected`).
-/

namespace WM.Proof

open WM WM.Impl WM.Spec

/-! ## Staggering -/

/-- In every run from power-on under a constant interval, two switches to the same value have at least the
interval's seconds between them, and one event switches at most one compressor. -/
theorem switches_staggered (c : Config) (i : Inputs) (C : Nat) (hC : 10 ≤ C) (hc : c.compInterval = C)
    (pre mid : List Event) (e e' : Event)
    (hes : ∀ x ∈ pre ++ e :: (mid ++ [e']), KeepsTiming (·.interval = C) x) (d : Bool) (k k' : CompId) :
    let s₁ := run step (boot c i) pre
    let s₂ := step s₁ e
    let s₃ := run step s₂ mid
    let s₄ := step s₃ e'
    ReqSwitch d k s₁ s₂ →
      (ReqSwitch d k' s₃ s₄ → C ≤ mid.countP second) ∧ (ReqSwitch d k' s₁ s₂ → k' = k) := by
  intro s₁ s₂ s₃ s₄ h₁₂
  have hinv : ∀ s x, ((bankOf s).Wf ∧ (timingOf s.cfg).interval = C) → KeepsTiming (·.interval = C) x →
      (bankOf (step s x)).Wf ∧ (timingOf (step s x).cfg).interval = C := fun s x h hx =>
    ⟨wf_bankOf_step h.1 x, timing_kept hx h.2⟩
  have hall : Along step _ (boot c i) _ := Along.of_forall hes
  obtain ⟨hpre, he, hmid⟩ := Along.append.mp hall
  obtain ⟨hmid, he', -⟩ := Along.append.mp hmid
  have i₁ := hpre.run_inv hinv ⟨wf_bankOf_boot c i, hc⟩
  have i₂ := hinv _ _ i₁ he
  have i₃ := hmid.run_inv hinv i₂
  have hswitch : ∀ {s x j}, ((bankOf s).Wf ∧ (timingOf s.cfg).interval = C) → ReqSwitch d j s (step s x) →
      (bankOf s).gap d = 0 ∧ (bankOf (step s x)).gap d = C ∧
        ∀ j', ReqSwitch d j' s (step s x) → j' = j := fun {s x j} hs hj => by
    have := Bank.step_switches hs.1 (by omega) ((bankOf_step s x) ▸ bank_switches.mpr hj)
    rw [← bankOf_step, hs.2] at this
    exact ⟨this.1, this.2.1, fun j' h => this.2.2 j' (bank_switches.mpr h)⟩
  refine ⟨fun h₃₄ => ?_, (hswitch i₁ h₁₂).2.2 k'⟩
  have hcredit : (bankOf s₂).gap d ≤ (bankOf s₃).gap d + mid.countP second :=
    credit_le_run (fun s => (bankOf s).gap d) hmid fun s x _ => by
      rw [bankOf_step, ← tick_bankEvent s x]
      exact Bank.gap_le_step _
  rw [(hswitch i₁ h₁₂).2.1, (hswitch i₃ h₃₄).1] at hcredit
  omega

/-- The shortest timing that the registers allow. -/
def quickConfig : Config :=
  { defaultConfig.powerOn with
    startDelay := 1, startupDelay := 0, startupLowpressShield := 60, minRuntime := 60, stopDelay := 0
    compInterval := 10 }

/-- From power-on to the pass before the first compressor starts. -/
def startRun : List Event := [.runningMode, .core, .cooldown, .core, .runningMode, .core, .core]

/-- The second compressor starts ten seconds after the first. -/
theorem switches_staggered_start :
    let s₁ := run step (boot quickConfig quiet) startRun
    let s₃ := run step (step s₁ .core) (.core :: List.replicate 10 .cooldown)
    ReqSwitch true .c1 s₁ (step s₁ .core) ∧ ReqSwitch true .c2 s₃ (step s₃ .core) ∧
      10 ≤ (.core :: List.replicate 10 .cooldown).countP second := by
  intro s₁ s₃
  have h₁ : ReqSwitch true .c1 s₁ (step s₁ .core) := by decide +kernel
  have h₃ : ReqSwitch true .c2 s₃ (step s₃ .core) := by decide +kernel
  exact ⟨h₁, h₃, (switches_staggered quickConfig quiet 10 (by decide) rfl startRun _ .core .core
    (by decide) true .c1 .c2 h₁).1 h₃⟩

/-! ## Minimal off and on times -/

theorem undisturbed_bankEvent {k : CompId} {s : Sys} {e : Event} (h : Undisturbed k s e) :
    (bankEvent s e).Undisturbed k := by
  cases e <;> first | exact trivial | (cases k <;> exact h)

/-- The request agrees with the states, and the countdowns with the timing. -/
def Timed (T : Timing) (s : Sys) : Prop := (bankOf s).Wf ∧ (bankOf s).Timed T ∧ timingOf s.cfg = T

theorem timed_boot {c : Config} {T : Timing} (hc : timingOf c = T) (i : Inputs) : Timed T (boot c i) :=
  ⟨wf_bankOf_boot c i, fun k => by cases k <;> exact Nat.zero_le _, hc⟩

theorem Timed.step {T : Timing} {s : Sys} {e : Event} (h : Timed T s) (he : KeepsTiming (· = T) e) :
    Timed T (step s e) := by
  obtain ⟨hwf, ht, rfl⟩ := h
  refine ⟨wf_bankOf_step hwf e, ?_, timing_kept he rfl⟩
  rw [bankOf_step]
  exact ht.step _

theorem Timed.bankOf_step {T : Timing} {s : Sys} (h : Timed T s) (e : Event) :
    bankOf (Impl.step s e) = (bankOf s).step T (Proof.bankEvent s e) := by
  rw [← h.2.2, Proof.bankOf_step]

theorem Timed.switches {T : Timing} {s : Sys} {e : Event} {d : Bool} {k : CompId} (h : Timed T s)
    (hd : ReqSwitch d k s (Impl.step s e)) :
    Bank.Switches d k (bankOf s) ((bankOf s).step T (Proof.bankEvent s e)) := by
  rw [← h.bankOf_step]
  exact bank_switches.mpr hd

/-- In every run from power-on under a constant timing, a compressor comes on no sooner than the start
delay and the startup delay after it went off; and when it goes off without having been disturbed since it
came on, it has run for the longer of the minimal runtime and the shield, and for the stop delay. -/
theorem short_cycle_protected (c : Config) (i : Inputs) (T : Timing) (hc : timingOf c = T)
    (pre mid : List Event) (e e' : Event)
    (hes : ∀ x ∈ pre ++ e :: (mid ++ [e']), KeepsTiming (· = T) x) (k : CompId) :
    let s₁ := run step (boot c i) pre
    let s₂ := step s₁ e
    let s₃ := run step s₂ mid
    let s₄ := step s₃ e'
    (ReqSwitch false k s₁ s₂ → ReqSwitch true k s₃ s₄ →
      T.startDelay + T.startupDelay ≤ mid.countP second) ∧
    (ReqSwitch true k s₁ s₂ → ReqSwitch false k s₃ s₄ → Along step (Undisturbed k) s₂ (mid ++ [e']) →
      max T.minRuntime T.shield + T.stopDelay ≤ mid.countP second) := by
  intro s₁ s₂ s₃ s₄
  have hstep : ∀ s x, Timed T s → KeepsTiming (· = T) x → Timed T (step s x) := fun _ _ h hx => h.step hx
  have hall : Along step _ (boot c i) _ := Along.of_forall hes
  obtain ⟨hpre, he, hmid⟩ := Along.append.mp hall
  obtain ⟨hmid, he', -⟩ := Along.append.mp hmid
  have i₁ : Timed T s₁ := hpre.run_inv hstep (timed_boot hc i)
  have i₂ : Timed T s₂ := hstep _ _ i₁ he
  have i₃ : Timed T s₃ := hmid.run_inv hstep i₂
  have hmid := hmid.and_inv hstep i₂
  constructor
  · intro h₁₂ h₃₄
    have hcredit : ((bankOf s₂).comp.get k).offCredit T ≤
        ((bankOf s₃).comp.get k).offCredit T + mid.countP second :=
      credit_le_run (fun s => ((bankOf s).comp.get k).offCredit T) hmid fun s x hx => by
        rw [hx.2.bankOf_step, ← tick_bankEvent s x]
        exact Bank.offCredit_le_step hx.2.1 hx.2.2.1 _
    have h₂ := (Bank.switches_off_credit i₁.1 (i₁.switches h₁₂)).1
    rw [← i₁.bankOf_step] at h₂
    rw [h₂, (Bank.switches_on_credit i₃.1 (i₃.switches h₃₄)).1] at hcredit
    omega
  · intro h₁₂ h₃₄ hcalm
    obtain ⟨hcalm, hcalm', -⟩ := Along.append.mp hcalm
    have hcredit : ((bankOf s₂).comp.get k).onCredit T ≤
        ((bankOf s₃).comp.get k).onCredit T + mid.countP second :=
      credit_le_run (fun s => ((bankOf s).comp.get k).onCredit T) (hmid.and hcalm) fun s x hx => by
        rw [hx.1.2.bankOf_step, ← tick_bankEvent s x]
        exact Bank.onCredit_le_step hx.1.2.2.1 (undisturbed_bankEvent hx.2)
    have h₂ := (Bank.switches_on_credit i₁.1 (i₁.switches h₁₂)).2
    rw [← i₁.bankOf_step] at h₂
    rw [h₂, (Bank.switches_off_credit i₃.1 (i₃.switches h₃₄)).2 (undisturbed_bankEvent hcalm')] at hcredit
    omega

/-- The first compressor runs for a minute, the machine is switched off, and on again. -/
def stopRun : List Event :=
  List.replicate 60 .cooldown ++
    [.config { quickConfig with powerMode := 0 }, .runningMode, .core, .core, .core]
def restartRun : List Event := [.config quickConfig, .runningMode, .cooldown, .core, .core]

/-- With the shortest timing the first compressor runs for 60 seconds and stays off for 1. -/
theorem short_cycle_protected_quick :
    let s₁ := run step (boot quickConfig quiet) startRun
    let s₃ := run step (step s₁ .core) stopRun
    let s₅ := run step (boot quickConfig quiet) (startRun ++ .core :: stopRun)
    let s₇ := run step (step s₅ .core) restartRun
    (ReqSwitch true .c1 s₁ (step s₁ .core) ∧ ReqSwitch false .c1 s₃ (step s₃ .core) ∧
      60 ≤ stopRun.countP second) ∧
    (ReqSwitch false .c1 s₅ (step s₅ .core) ∧ ReqSwitch true .c1 s₇ (step s₇ .core) ∧
      1 ≤ restartRun.countP second) := by
  intro s₁ s₃ s₅ s₇
  obtain ⟨h₁, h₃, hcalm⟩ : ReqSwitch true .c1 s₁ (step s₁ .core) ∧ ReqSwitch false .c1 s₃ (step s₃ .core) ∧
      Along step (Undisturbed .c1) (step s₁ .core) (stopRun ++ [.core]) := by decide +kernel
  have h₅ : ReqSwitch false .c1 s₅ (step s₅ .core) := by
    have hs : ∀ s, run step s (startRun ++ .core :: stopRun) = run step (step (run step s startRun) .core) stopRun :=
      fun s => by rw [run_append, run_cons]
    unfold s₅
    rw [hs]
    exact h₃
  have h₇ : ReqSwitch true .c1 s₇ (step s₇ .core) := by decide +kernel
  exact ⟨⟨h₁, h₃, (short_cycle_protected quickConfig quiet _ rfl startRun stopRun .core .core
      (by decide +kernel) .c1).2 h₁ h₃ hcalm⟩,
    ⟨h₅, h₇, (short_cycle_protected quickConfig quiet _ rfl (startRun ++ .core :: stopRun) restartRun
      .core .core (by decide +kernel) .c1).1 h₅ h₇⟩⟩

end WM.Proof
