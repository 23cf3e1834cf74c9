import WaterMaker.Framework.Run
import Mathlib.Data.List.Zip

/-!
# A window on a history

`lag k l` pairs the entries of a list with those `k` places behind them. `window e l` holds the last three entries, with
`e` for those that there are not. Looking at the window whenever an entry comes finds the first of all pairs in
`lag 2 l` that are of interest, if the placeholder is of none (`near_snoc`, `near_of_window`).
-/

namespace WM

variable {α β : Type*}

/-- The entries of a list with those `k` places behind them. -/
def lag (k : Nat) (l : List α) : List (α × α) := l.zip (l.drop k)

/-- Some entry and the one `k` places behind it satisfy `P`. -/
def Near (k : Nat) (P : α → α → Prop) (l : List α) : Prop := ∃ p ∈ lag k l, P p.1 p.2

instance (k : Nat) (P : α → α → Prop) [DecidableRel P] (l : List α) : Decidable (Near k P l) :=
  inferInstanceAs (Decidable (∃ p ∈ lag k l, P p.1 p.2))

theorem lag_snoc (pre rest : List α) (a x : α) : lag (rest.length + 1) (pre ++ a :: rest ++ [x]) =
    lag (rest.length + 1) (pre ++ a :: rest) ++ [(a, x)] := by
  obtain ⟨d, hd⟩ : ∃ d, d = (pre ++ a :: rest).drop (rest.length + 1) := ⟨_, rfl⟩
  have hlen : d.length = pre.length := by simp [hd]
  have hdrop : (pre ++ a :: rest ++ [x]).drop (rest.length + 1) = d ++ [x] := by
    rw [hd, List.drop_append_of_le_length (by simp)]
  have hshort : (pre ++ a :: rest).zip d = pre.zip d := by
    have hzip : (pre ++ a :: rest).zip (d ++ []) = pre.zip d ++ (a :: rest).zip [] := List.zip_append hlen.symm
    simpa using hzip
  unfold lag
  rw [hdrop, ← hd, hshort, List.append_assoc, List.zip_append hlen.symm]
  simp

theorem lag_of_short {k : Nat} {l : List α} (h : l.length ≤ k) : lag k l = [] := by
  unfold lag
  rw [List.drop_of_length_le h, List.zip_nil_right]

theorem lag_map (f : α → β) (k : Nat) (l : List α) : lag k (l.map f) = (lag k l).map (Prod.map f f) := by
  unfold lag
  rw [← List.map_drop, List.zip_map]

theorem near_map (f : α → β) (k : Nat) (P : β → β → Prop) (l : List α) :
    Near k P (l.map f) ↔ Near k (fun a c => P (f a) (f c)) l := by
  unfold Near
  rw [lag_map]
  simp

theorem near_congr {k : Nat} {P Q : α → α → Prop} {l : List α} (h : ∀ p ∈ lag k l, (P p.1 p.2 ↔ Q p.1 p.2)) :
    Near k P l ↔ Near k Q l :=
  exists_congr fun p => and_congr_right fun hp => h p hp

theorem mem_lag {k : Nat} {l : List α} {p : α × α} :
    p ∈ lag k l ↔ ∃ i : Nat, l[i]? = some p.1 ∧ l[k + i]? = some p.2 := by
  unfold lag
  rw [List.mem_iff_getElem?]
  simp only [List.getElem?_zip_eq_some, List.getElem?_drop]

theorem mem_of_mem_lag {k : Nat} {l : List α} {p : α × α} (h : p ∈ lag k l) : p.1 ∈ l ∧ p.2 ∈ l := by
  obtain ⟨h1, h2⟩ := List.of_mem_zip h
  exact ⟨h1, List.mem_of_mem_drop h2⟩

/-- What is found stays. -/
theorem Near.append {k : Nat} {P : α → α → Prop} {l : List α} (h : Near k P l) (l' : List α) : Near k P (l ++ l') := by
  obtain ⟨p, hp, hP⟩ := h
  obtain ⟨i, h1, h2⟩ := mem_lag.mp hp
  have hlt : ∀ {j : Nat} {a : α}, l[j]? = some a → j < l.length := fun h => (List.getElem?_eq_some_iff.mp h).1
  refine ⟨p, mem_lag.mpr ⟨i, ?_, ?_⟩, hP⟩
  · rwa [List.getElem?_append_left (hlt h1)]
  · rwa [List.getElem?_append_left (hlt h2)]

/-! ## The last three -/

def push (w : α × α × α) (x : α) : α × α × α := (w.2.1, w.2.2, x)

/-- The last three entries of a list. -/
def window (e : α) (l : List α) : α × α × α := run push (e, e, e) l

theorem window_snoc (e : α) (l : List α) (x : α) : window e (l ++ [x]) = push (window e l) x := run_snoc ..

/-- A new entry is of interest with the one two places before it, which is in the window. -/
theorem near_snoc {e : α} {P : α → α → Prop} (he : ∀ c, ¬P e c) (l : List α) (x : α) :
    Near 2 P (l ++ [x]) ↔ Near 2 P l ∨ P (window e l).2.1 x := by
  have hnone : ∀ {l : List α}, l.length ≤ 2 → ¬Near 2 P l := fun h => by
    unfold Near
    rw [lag_of_short h]
    simp
  rcases List.eq_nil_or_concat l with rfl | ⟨l, b, rfl⟩
  · exact iff_of_false (hnone (by simp)) (not_or.mpr ⟨hnone (by simp), he x⟩)
  rcases List.eq_nil_or_concat l with rfl | ⟨l, a, rfl⟩
  · exact iff_of_false (hnone (by simp)) (not_or.mpr ⟨hnone (by simp), he x⟩)
  · have hwindow : (window e (l ++ [a] ++ [b])).2.1 = a := by rw [window_snoc, window_snoc]; rfl
    have hlag : lag 2 (l ++ [a, b] ++ [x]) = lag 2 (l ++ [a, b]) ++ [(a, x)] := lag_snoc l [b] a x
    unfold Near
    rw [List.concat_eq_append, List.concat_eq_append, hwindow, List.append_assoc l [a] [b], List.singleton_append, hlag]
    simp [or_and_right, exists_or]

/-- Looking at the window again finds nothing new. -/
theorem near_of_window {e : α} {P : α → α → Prop} (he : ∀ c, ¬P e c) {l : List α}
    (h : P (window e l).1 (window e l).2.2) : Near 2 P l := by
  rcases List.eq_nil_or_concat l with rfl | ⟨l, x, rfl⟩
  · exact absurd h (he e)
  · rw [List.concat_eq_append] at h ⊢
    rw [window_snoc] at h
    exact (near_snoc he l x).mpr (.inr h)

end WM
