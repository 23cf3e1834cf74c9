import WaterMaker.Framework.Block

/-!
# Memories that are written by pages

A memory with pages of `p` bytes takes a burst of bytes from an address on; past the end of the page it goes on at the
start of the same page (`burst`). A burst that stays in its page is a block (`burst_eq_blit`). `Covers a ws bs` says
that the bursts `ws`, one after the other, are the bytes `bs` from `a` on, each of them once and in order. A burst that
fails leaves anything in its page; `MayLeave` says what bursts can leave of which some failed.
-/

namespace WM

variable {α : Type*}

/-- The values from address `a` on, within its page of `p`. -/
def burst (p : Nat) (f : Nat → α) (a : Nat) : List α → Nat → α
  | [] => f
  | v :: vs => burst p (Function.update f a v) (a / p * p + (a + 1) % p) vs

theorem next_in_page {p a : Nat} (h : a % p + 1 < p) : a / p * p + (a + 1) % p = a + 1 := by
  have hdiv := Nat.div_add_mod' a p
  have hmod : (a + 1) % p = a % p + 1 := by
    rw [Nat.add_mod, Nat.mod_eq_of_lt (by omega : 1 < p), Nat.mod_eq_of_lt h]
  omega

theorem burst_eq_blit {p : Nat} (f : Nat → α) {a : Nat} {vs : List α} (h : a % p + vs.length ≤ p) :
    burst p f a vs = blit f a vs := by
  induction vs generalizing f a with
  | nil => rw [burst, blit_nil]
  | cons v vs ih =>
    rw [burst, blit_cons]
    rw [List.length_cons] at h
    cases vs with
    | nil => rw [burst, blit_nil]
    | cons u us =>
      rw [List.length_cons] at h
      have hmod : (a + 1) % p = a % p + 1 := by
        rw [Nat.add_mod, Nat.mod_eq_of_lt (by omega : 1 < p), Nat.mod_eq_of_lt (by omega)]
      rw [next_in_page (by omega)]
      exact ih _ (by rw [hmod, List.length_cons]; omega)

/-- A burst: its address and its values. -/
structure Burst (α : Type*) where
  addr : Nat
  data : List α
  deriving DecidableEq, Repr

/-- The burst is not empty and stays in a page. -/
def Burst.InPage (p : Nat) (w : Burst α) : Prop := 0 < w.data.length ∧ w.addr % p + w.data.length ≤ p

instance (p : Nat) (w : Burst α) : Decidable (w.InPage p) := by unfold Burst.InPage; infer_instance

/-- A burst that stays in a page has no more values than a page, and all of its addresses in one. -/
theorem Burst.InPage.page {p : Nat} {w : Burst α} (h : w.InPage p) :
    w.data.length ≤ p ∧ ∀ k < w.data.length, (w.addr + k) / p = w.addr / p := by
  refine ⟨by have := h.2; omega, fun k hk => ?_⟩
  have hp : 0 < p := by have := h.1; have := h.2; omega
  have hdiv := Nat.div_add_mod w.addr p
  have hlt : w.addr % p + k < p := by have := h.2; omega
  rw [← hdiv, Nat.add_assoc, Nat.mul_add_div hp, Nat.div_eq_of_lt hlt, Nat.add_zero, hdiv]

/-- The bursts are the values from `a` on, each of them once and in order. -/
def Covers : Nat → List (Burst α) → List α → Prop
  | _, [], vs => vs = []
  | a, w :: ws, vs => w.addr = a ∧ ∃ rest, vs = w.data ++ rest ∧ Covers (a + w.data.length) ws rest

theorem Covers.append {a : Nat} {ws us : List (Burst α)} {vs vs' : List α} (h : Covers a ws vs)
    (h' : Covers (a + vs.length) us vs') : Covers a (ws ++ us) (vs ++ vs') := by
  induction ws generalizing a vs with
  | nil =>
    have hnil : vs = [] := h
    subst hnil
    exact h'
  | cons w ws ih =>
    obtain ⟨haddr, rest, rfl, hrest⟩ := h
    refine ⟨haddr, rest ++ vs', List.append_assoc .., ih hrest ?_⟩
    rw [List.length_append, ← Nat.add_assoc] at h'
    exact h'

theorem Covers.single (a : Nat) (vs : List α) : Covers a [⟨a, vs⟩] vs := ⟨rfl, [], (List.append_nil vs).symm, rfl⟩

/-- None of the bursts is outside of the range. -/
theorem Covers.within {a : Nat} {ws : List (Burst α)} {vs : List α} (h : Covers a ws vs) :
    ∀ w ∈ ws, a ≤ w.addr ∧ w.addr + w.data.length ≤ a + vs.length := by
  induction ws generalizing a vs with
  | nil => exact nofun
  | cons u us ih =>
    obtain ⟨haddr, rest, rfl, hrest⟩ := h
    intro w hw
    rw [List.length_append]
    rcases List.mem_cons.mp hw with rfl | hw
    · omega
    · have := ih hrest w hw
      omega

/-! ## Bursts that fail -/

/-- What a burst can leave of the memory `f`: its values if it is done, and anything in its page if not. -/
def Burst.MayLeave (p : Nat) (w : Burst α) (ok : Bool) (f g : Nat → α) : Prop :=
  if ok then g = burst p f w.addr w.data else ∀ k, k / p ≠ w.addr / p → g k = f k

/-- What bursts can leave, one after the other. -/
def MayLeave (p : Nat) : List (Burst α × Bool) → (Nat → α) → (Nat → α) → Prop
  | [], f, g => g = f
  | w :: ws, f, g => ∃ h, w.1.MayLeave p w.2 f h ∧ MayLeave p ws h g

theorem MayLeave.append {p : Nat} {ws us : List (Burst α × Bool)} {f g h : Nat → α} (hws : MayLeave p ws f h)
    (hus : MayLeave p us h g) : MayLeave p (ws ++ us) f g := by
  induction ws generalizing f with
  | nil =>
    have hnil : h = f := hws
    subst hnil
    exact hus
  | cons w ws ih =>
    obtain ⟨f', hw, hrest⟩ := hws
    exact ⟨f', hw, ih hrest⟩

theorem MayLeave.of_append {p : Nat} {ws us : List (Burst α × Bool)} {f g : Nat → α} (h : MayLeave p (ws ++ us) f g) :
    ∃ h, MayLeave p ws f h ∧ MayLeave p us h g := by
  induction ws generalizing f with
  | nil => exact ⟨f, rfl, h⟩
  | cons w ws ih =>
    obtain ⟨f', hw, hrest⟩ := h
    obtain ⟨h, hws, hus⟩ := ih hrest
    exact ⟨h, ⟨f', hw, hws⟩, hus⟩

theorem MayLeave.single {p : Nat} {w : Burst α} {ok : Bool} {f g : Nat → α} :
    MayLeave p [(w, ok)] f g ↔ w.MayLeave p ok f g :=
  ⟨fun ⟨_, hw, hg⟩ => hg ▸ hw, fun hw => ⟨g, hw, rfl⟩⟩

/-- Something is left in any case. -/
theorem exists_leaves (p : Nat) (ws : List (Burst α × Bool)) (f : Nat → α) : ∃ g, MayLeave p ws f g := by
  induction ws generalizing f with
  | nil => exact ⟨f, rfl⟩
  | cons w ws ih =>
    obtain ⟨g, hg⟩ := ih (burst p f w.1.addr w.1.data)
    obtain ⟨g', hg'⟩ := ih f
    rcases hok : w.2 with _ | _
    · exact ⟨g', f, by unfold Burst.MayLeave; rw [hok]; exact fun _ _ => rfl, hg'⟩
    · exact ⟨g, _, by unfold Burst.MayLeave; rw [hok]; rfl, hg⟩

/-- The burst is not at address `k`, and if it fails not in the page of it either. -/
def Burst.Apart (p : Nat) (w : Burst α) (ok : Bool) (k : Nat) : Prop :=
  w.addr % p + w.data.length ≤ p ∧ if ok then ¬(w.addr ≤ k ∧ k < w.addr + w.data.length) else k / p ≠ w.addr / p

/-- Bursts apart from an address leave what is there. -/
theorem MayLeave.kept {p : Nat} {ws : List (Burst α × Bool)} {f g : Nat → α} (h : MayLeave p ws f g) {k : Nat}
    (hk : ∀ w ∈ ws, w.1.Apart p w.2 k) : g k = f k := by
  induction ws generalizing f with
  | nil => exact congrFun h k
  | cons w ws ih =>
    obtain ⟨f', hw, hrest⟩ := h
    obtain ⟨hfits, hapart⟩ := hk w (List.mem_cons_self ..)
    rw [ih hrest fun u hu => hk u (List.mem_cons_of_mem _ hu)]
    unfold Burst.MayLeave at hw
    rcases hok : w.2 with _ | _ <;> rw [hok] at hw hapart
    · exact hw k hapart
    · have hw : f' = burst p f w.1.addr w.1.data := hw
      rw [hw, burst_eq_blit _ hfits]
      exact blit_of_not _ _ _ hapart

end WM
