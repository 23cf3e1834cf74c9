import Mathlib.Data.List.Infix
import WaterMaker.Framework.Run

/-!
# Receiving frames

A receiver collects frames of a fixed number of bytes from a stream (`Framer`). A byte either fits behind the unfinished
frame or it is dropped together with it; a frame that is complete is taken if its checksum is right. What is taken are
frames that stand in the stream (`Receives`), and a frame is taken if the receiver is idle when it begins (`run_frame`).
Behind a byte that was dropped nothing is taken before as many bytes have come as a frame has (`taken_short`).
-/

namespace WM

structure Framer (β : Type) where
  size : Nat
  /-- the byte may follow these bytes of a frame -/
  fits : List β → β → Bool
  /-- the complete frame is taken -/
  good : List β → Bool

namespace Framer

/-- The unfinished frame, and the frames taken, the newest first. -/
structure Rx (β : Type) where
  part : List β
  taken : List (List β)

variable {β : Type} (F : Framer β)

def take (f : List β) (taken : List (List β)) : List (List β) := if F.good f then f :: taken else taken

def step (x : Rx β) (b : β) : Rx β :=
  if F.fits x.part b then
    if x.part.length + 1 = F.size then ⟨[], F.take (x.part ++ [b]) x.taken⟩ else ⟨x.part ++ [b], x.taken⟩
  else ⟨[], x.taken⟩

/-- Each byte fits behind those before it. -/
def Headed (f : List β) : Prop := ∀ p b q, f = p ++ b :: q → F.fits p b = true

/-- A frame that is to be taken. -/
structure Frame (f : List β) : Prop where
  length : f.length = F.size
  headed : F.Headed f
  good : F.good f = true

variable {F} {x : Rx β} {b : β} {p q bs : List β}

theorem Headed.nil : F.Headed [] := fun p b q h => absurd h.symm (by simp)

theorem Headed.snoc (h : F.Headed p) (hb : F.fits p b = true) : F.Headed (p ++ [b]) := by
  intro p' b' q' heq
  rcases List.eq_nil_or_concat q' with rfl | ⟨q', c, rfl⟩
  · obtain ⟨rfl, hb'⟩ := List.append_inj' heq rfl
    rwa [← List.singleton_inj.mp hb']
  · rw [List.concat_eq_append, ← List.cons_append, ← List.append_assoc] at heq
    exact h p' b' q' (List.append_inj' heq rfl).1

theorem Headed.left (h : F.Headed (p ++ q)) : F.Headed p := fun p' b q' heq =>
  h p' b (q' ++ q) (by rw [heq]; simp)

/-! ## One byte -/

theorem step_fits (h : F.fits x.part b = true) (hlen : x.part.length + 1 ≠ F.size) :
    F.step x b = ⟨x.part ++ [b], x.taken⟩ := by
  rw [step, if_pos h, if_neg hlen]

theorem step_last (h : F.fits x.part b = true) (hlen : x.part.length + 1 = F.size) :
    F.step x b = ⟨[], F.take (x.part ++ [b]) x.taken⟩ := by
  rw [step, if_pos h, if_pos hlen]

theorem step_drop (h : ¬F.fits x.part b = true) : F.step x b = ⟨[], x.taken⟩ := by
  rw [step, if_neg h]

/-- The unfinished frame is shorter than a frame. -/
theorem short_step (h : x.part.length < F.size) (b : β) : (F.step x b).part.length < F.size := by
  by_cases hfits : F.fits x.part b = true
  · by_cases hlast : x.part.length + 1 = F.size
    · rw [step_last hfits hlast]
      exact Nat.zero_lt_of_lt h
    · rw [step_fits hfits hlast]
      simp only [List.length_append, List.length_singleton]
      omega
  · rw [step_drop hfits]
    exact Nat.zero_lt_of_lt h

/-! ## What is taken -/

/-- The receiver has made this of the stream. -/
structure Receives (F : Framer β) (bs : List β) (x : Rx β) : Prop where
  suffix : x.part <:+ bs
  short : x.part.length < F.size
  headed : F.Headed x.part
  taken : ∀ f ∈ x.taken, F.Frame f ∧ f <:+: bs

theorem Receives.init (h : 0 < F.size) : Receives F [] ⟨[], []⟩ := ⟨List.suffix_refl _, h, .nil, nofun⟩

/-- A frame that a byte completes ends the stream. -/
theorem Receives.frame (h : Receives F bs x) (hfits : F.fits x.part b = true) (hlast : x.part.length + 1 = F.size)
    (hgood : F.good (x.part ++ [b]) = true) : F.Frame (x.part ++ [b]) ∧ x.part ++ [b] <:+ bs ++ [b] := by
  refine ⟨⟨?_, h.headed.snoc hfits, hgood⟩, ?_⟩
  · rw [List.length_append, List.length_singleton, hlast]
  · obtain ⟨pre, hpre⟩ := h.suffix
    exact ⟨pre, by rw [← List.append_assoc, hpre]⟩

/-- Either a frame is taken, which ends the stream, or none is. -/
theorem Receives.taken_step (h : Receives F bs x) (b : β) : (F.step x b).taken = x.taken ∨
    ∃ f, (F.step x b).taken = f :: x.taken ∧ F.Frame f ∧ f <:+ bs ++ [b] := by
  by_cases hfits : F.fits x.part b = true
  · by_cases hlast : x.part.length + 1 = F.size
    · rw [step_last hfits hlast, take]
      split
      · rename_i hgood
        exact .inr ⟨_, rfl, h.frame hfits hlast hgood⟩
      · exact .inl rfl
    · rw [step_fits hfits hlast]
      exact .inl rfl
  · rw [step_drop hfits]
    exact .inl rfl

theorem Receives.step (h : Receives F bs x) (b : β) : Receives F (bs ++ [b]) (F.step x b) := by
  have hold : ∀ f ∈ x.taken, F.Frame f ∧ f <:+: bs ++ [b] := fun f hf =>
    ⟨(h.taken f hf).1, (h.taken f hf).2.trans (List.prefix_append bs [b]).isInfix⟩
  have htaken : ∀ f ∈ (F.step x b).taken, F.Frame f ∧ f <:+: bs ++ [b] := by
    rcases h.taken_step b with hsame | ⟨f, hnew, hframe, hsuffix⟩
    · rwa [hsame]
    · rw [hnew]
      exact List.forall_mem_cons.mpr ⟨⟨hframe, hsuffix.isInfix⟩, hold⟩
  have hshort := short_step h.short b
  by_cases hfits : F.fits x.part b = true
  · by_cases hlast : x.part.length + 1 = F.size
    · rw [step_last hfits hlast] at *
      exact ⟨List.nil_suffix, hshort, .nil, htaken⟩
    · obtain ⟨pre, hpre⟩ := h.suffix
      rw [step_fits hfits hlast] at *
      exact ⟨⟨pre, by rw [← List.append_assoc, hpre]⟩, hshort, h.headed.snoc hfits, htaken⟩
  · rw [step_drop hfits] at *
    exact ⟨List.nil_suffix, hshort, .nil, htaken⟩

theorem receives_run (h : 0 < F.size) (bs : List β) : Receives F bs (run F.step ⟨[], []⟩ bs) := by
  induction bs using List.reverseRecOn with
  | nil => exact .init h
  | append_singleton bs b ih =>
    rw [run_snoc]
    exact ih.step b

/-! ## Frames from the beginning, and others -/

/-- Bytes that do not complete a frame. -/
theorem run_prefix (t : List (List β)) (h : F.Headed (p ++ q)) (hlen : (p ++ q).length < F.size) :
    run F.step ⟨p, t⟩ q = ⟨p ++ q, t⟩ := by
  induction q generalizing p with
  | nil => simp
  | cons b q ih =>
    simp only [List.length_append, List.length_cons] at hlen
    rw [run_cons, step_fits (h p b q rfl) (show p.length + 1 ≠ F.size by omega),
      ih (by simpa using h) (by simp; omega)]
    simp

/-- A frame that an idle receiver gets from its beginning. -/
theorem run_frame {f : List β} (h : F.Frame f) (hpos : 0 < F.size) (t : List (List β)) :
    run F.step ⟨[], t⟩ f = ⟨[], f :: t⟩ := by
  have hlen := h.length
  rcases List.eq_nil_or_concat f with rfl | ⟨p, b, rfl⟩
  · exact absurd hlen.symm hpos.ne'
  rw [List.concat_eq_append] at *
  rw [List.length_append, List.length_singleton] at hlen
  rw [run_snoc, run_prefix t (p := []) h.headed.left (by simp; omega), List.nil_append,
    step_last (h.headed p b [] rfl) hlen, take, if_pos h.good]

/-- Too few bytes to complete a frame. -/
theorem taken_short (h : x.part.length + bs.length < F.size) : (run F.step x bs).taken = x.taken := by
  induction bs generalizing x with
  | nil => rfl
  | cons b bs ih =>
    rw [List.length_cons] at h
    rw [run_cons]
    by_cases hfits : F.fits x.part b = true
    · rw [step_fits hfits (by omega), ih (by simp; omega)]
    · rw [step_drop hfits, ih (by simp; omega)]

/-- As long as no byte is dropped and no frame complete, the bytes stand behind the unfinished frame; afterwards there
are fewer than have come. -/
theorem part_run (hbs : bs ≠ []) :
    (run F.step x bs).part = x.part ++ bs ∨ (run F.step x bs).part.length < bs.length := by
  induction bs using List.reverseRecOn with
  | nil => exact absurd rfl hbs
  | append_singleton bs b ih =>
    have hone : ∀ y : Rx β, (F.step y b).part = y.part ++ [b] ∨ (F.step y b).part = [] := fun y => by
      unfold step
      split_ifs <;> simp
    rw [run_snoc]
    rcases hone (run F.step x bs) with hpart | hpart
    · rw [hpart]
      by_cases hne : bs = []
      · subst hne
        exact .inl rfl
      · rcases ih hne with hall | hlt
        · exact .inl (by rw [hall, List.append_assoc])
        · exact .inr (by simp only [List.length_append, List.length_singleton]; omega)
    · rw [hpart]
      exact .inr (by simp)

/-- The last byte of a frame that began while another one was unfinished completes nothing. -/
theorem part_ne_last {f : List β} (hx : x.part ≠ []) (hshort : x.part.length < F.size) (hf : f.length + 1 = F.size) :
    (run F.step x f).part.length + 1 ≠ F.size := by
  have hpos := List.length_pos_iff.mpr hx
  have hrun : (run F.step x f).part.length < F.size := run_keeps (I := fun y : Rx β => y.part.length < F.size)
    (fun y b hy => short_step hy b) hshort f
  intro hlast
  cases f with
  | nil =>
    simp only [List.length_nil] at hf
    omega
  | cons b f =>
    rcases part_run (F := F) (x := x) (List.cons_ne_nil b f) with hall | hlt
    · rw [hall, List.length_append] at hlast
      omega
    · omega

/-! ## Frames with a header of two bytes -/

/-- A receiver that looks at the first two bytes. -/
def ofHeader (size : Nat) (first second : β → Bool) (good : List β → Bool) : Framer β where
  size := size
  fits p b :=
    match p.length with
    | 0 => first b
    | 1 => second b
    | _ => true
  good := good

theorem headed_ofHeader {size : Nat} {first second : β → Bool} {good : List β → Bool} {f : List β} (h : 2 ≤ f.length)
    (d : β) : (ofHeader size first second good).Headed f ↔ first (f.getD 0 d) = true ∧ second (f.getD 1 d) = true := by
  rcases f with _ | ⟨a, _ | ⟨c, f⟩⟩
  · exact absurd h (by simp)
  · exact absurd h (by simp)
  · refine ⟨fun h => ⟨h [] a (c :: f) rfl, h [a] c f rfl⟩, fun ⟨h0, h1⟩ p b q hf => ?_⟩
    rcases p with _ | ⟨a', _ | ⟨c', p⟩⟩
    · cases hf
      exact h0
    · cases hf
      exact h1
    · rfl

end Framer

end WM
