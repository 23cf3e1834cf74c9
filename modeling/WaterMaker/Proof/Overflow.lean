import WaterMaker.Spec.Shutdown
import WaterMaker.Proof.Start
import WaterMaker.Proof.Switching

/-!
# A full tank stops the compressors

While a tank is full every pass orders the compressors to stop (`stop_of_full`), so with a pass between any
two seconds the bank is at rest after a bounded number of seconds and stays so (`overflow_stops`).
-/

namespace WM.Proof

open WM WM.Impl WM.Spec

/-- A full tank orders both compressors to stop. -/
theorem stop_of_full {s : Sys} (h : Full s) : (orderOf (beforeComp s)).Stop := by
  intro k
  have hclose : ((beforeComp s).comp.close.c1 != 0 && (beforeComp s).comp.close.c2 != 0) = true := by
    have h1 := close_ne_zero_of_full h .c1
    have h2 := close_ne_zero_of_full h .c2
    simpa [beforeComp, Pair.get] using ⟨h1, h2⟩
  simp only [orderOf, compressorSignalGen, hclose, Bool.or_true, if_true]
  split
  · cases k <;> exact .inr rfl
  · cases k <;> exact .inl rfl

/-- What holds in every state that a run under a constant timing reaches. -/
def Steady (T : Timing) (s : Sys) : Prop := Timed T s ∧ (bankOf s).stopInt ≤ T.interval

theorem Steady.step {T : Timing} {s : Sys} {e : Event} (h : Steady T s) (he : KeepsTiming (· = T) e) :
    Steady T (step s e) := by
  refine ⟨h.1.step he, ?_⟩
  rw [h.1.bankOf_step]
  exact Bank.stopInt_le_step h.2 _

theorem fullAtPass_stop {s : Sys} {e : Event} (h : FullAtPass s e) {o : Order}
    (he : bankEvent s e = .pass o) : o.Stop := by
  cases e <;> try cases he
  · refine stop_of_full ?_
    have hview := alarmView_alarmAclExe s
    have hlevel : getWaterLevel (alarmAclExe s) = getWaterLevel s := by
      have h := congrArg getWaterLevel hview
      exact h
    have hs : Full s := h rfl
    unfold Full at hs ⊢
    rwa [hlevel]
  · exact stop_of_full (h rfl)

/-- The measure of a state and the flag `pending`. -/
def rankOf (T : Timing) (x : Sys × Bool) : Nat := (bankOf x.1).rank T x.2

/-- No event raises the measure, and every second lowers it. -/
theorem rankOf_step {T : Timing} (hT : 0 < T.interval) {x : Sys × Bool} {e : Event} (hs : Steady T x.1)
    (hfull : FullAtPass x.1 e) (hp : second e → x.2 = false) :
    rankOf T (both step pending x e) ≤ rankOf T x - (second e).toNat := by
  obtain ⟨s, p⟩ := x
  dsimp only at hs hfull hp
  simp only [rankOf, both, hs.1.bankOf_step]
  cases hb : bankEvent s e with
  | keep =>
    have hkeep : second e = false ∧ pending p e = p := by
      cases e <;> first | exact ⟨rfl, rfl⟩ | cases hb
    rw [hkeep.1, hkeep.2]
    exact Nat.le_refl _
  | pass o =>
    have hpass : second e = false ∧ pending p e = false := by
      cases e <;> first | exact ⟨rfl, rfl⟩ | cases hb
    rw [hpass.1, hpass.2]
    exact Bank.pass_rank hs.1.1 hT hs.2 (fullAtPass_stop hfull hb)
  | cool =>
    have hcool : second e = true ∧ pending p e = true := by
      cases e <;> first | exact ⟨rfl, rfl⟩ | cases hb
    rw [hcool.1, hcool.2, hp hcool.1]
    exact Bank.cool_rank _

/-- From every state that a run under a constant timing reaches, once a tank is full at every pass and a
pass comes between any two seconds, both compressors are off after the stages of one compressor and two
intervals, and stay off while this lasts. -/
theorem overflow_stops (c : Config) (i : Inputs) (T : Timing) (hc : timingOf c = T) (hT : 0 < T.interval)
    (pre es : List Event) (hes : ∀ x ∈ pre ++ es, KeepsTiming (· = T) x)
    (hfull : Along step FullAtPass (run step (boot c i) pre) es) (hsp : Spaced es)
    (hn : max T.shield T.minRuntime + T.stopDelay + 2 * T.interval + 8 ≤ es.countP second) (k : CompId) :
    (run step (boot c i) (pre ++ es)).reqBit (.comp k) = false := by
  have hstep : ∀ s x, Steady T s → KeepsTiming (· = T) x → Steady T (step s x) := fun _ _ h hx => h.step hx
  have hkeep : Along step _ (boot c i) _ := Along.of_forall hes
  obtain ⟨hpre, hes⟩ := Along.append.mp hkeep
  have i₁ : Steady T (run step (boot c i) pre) :=
    hpre.run_inv hstep ⟨timed_boot hc i, Nat.zero_le _⟩
  have i₂ := hes.run_inv hstep i₁
  have hall := ((hes.and_inv hstep i₁).and hfull).both
    (x := (run step (boot c i) pre, false)) hsp
  have hrank := run_rank_le (rankOf T) hall fun x e hx => rankOf_step hT hx.1.1.2 hx.1.2 hx.2
  have h0 := Bank.rank_le i₁.1.2.1 i₁.2 hT (p := false)
  simp only [run_both, rankOf] at hrank
  have hrest : (bankOf (run step (run step (boot c i) pre) es)).rank T (run pending false es) = 0 := by
    omega
  have hoff := Bank.rank_eq_zero i₂.1.1 hT hrest k
  rw [run_append]
  simpa only [get_bankOf, compOf] using hoff

/-- The lower and the middle switches of the source tank are up, and so is its upper one. -/
def fullInputs : Inputs := { quiet with din := 0x1070 }

theorem full_reqExecution {s : Sys} (h : Full s) : Full (reqExecution s) := by
  have hlevel : getWaterLevel (reqExecution s) = getWaterLevel s := view_reqExecution s (fun _ => rfl) fun _ => rfl
  unfold Full
  rw [hlevel]
  exact h

/-- Passes and seconds leave a full tank full. -/
theorem fullAtPass_of_full {s : Sys} (h : Full s) {es : List Event} (hes : ∀ e ∈ es, e = .req ∨ e = .cooldown) :
    Along step FullAtPass s es := by
  have hstep : ∀ s e, Full s → (e = .req ∨ e = .cooldown) → Full (step s e) := by
    rintro s e h (rfl | rfl)
    · exact full_reqExecution h
    · exact h
  exact ((Along.of_forall hes).and_inv hstep h).mono fun _ _ hs _ => hs.2

/-- The tank is full, and passes and seconds take turns. -/
def fullRun : List Event := .inputs fullInputs :: (List.replicate 88 [.req, .cooldown]).flatten

/-- With the shortest timing the first compressor, just started, is off 88 seconds later. -/
theorem overflow_stops_quick :
    (run step (boot quickConfig quiet) (startRun ++ [.core])).reqBit (.comp .c1) = true ∧
      (run step (boot quickConfig quiet) (startRun ++ [.core] ++ fullRun)).reqBit (.comp .c1) = false := by
  have hturns : ∀ e ∈ (List.replicate 88 [Event.req, Event.cooldown]).flatten, e = .req ∨ e = .cooldown := by
    intro e he
    obtain ⟨l, hl, he⟩ := List.mem_flatten.mp he
    obtain rfl := List.eq_of_mem_replicate hl
    simpa using he
  have hoff := overflow_stops quickConfig quiet (timingOf quickConfig) rfl (by decide)
    (startRun ++ [.core]) fullRun (by decide +kernel) ⟨nofun, fullAtPass_of_full (by decide +kernel) hturns⟩
    (by decide +kernel) (by decide +kernel) .c1
  exact ⟨by decide +kernel, hoff⟩

end WM.Proof
