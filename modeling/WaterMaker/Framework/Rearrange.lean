import Mathlib.Logic.Equiv.Basic
import Mathlib.Data.List.Nodup
import Mathlib.Data.Set.Defs

/-!
# Cells in another order

`Rearranged s a b`: the cells `b` are those of `a` in another order, and the order differs only in places of `s`. What
all cells of `s` have in common they still have (`Rearranged.forall_mem`), and as lists the cells are a permutation
(`Rearranged.perm`).
-/

namespace WM

variable {ι α : Type*} {s t : Set ι} {a b c : ι → α}

/-- The cells in the places `s` have changed places among themselves. -/
def Rearranged (s : Set ι) (a b : ι → α) : Prop := ∃ e : Equiv.Perm ι, (∀ x, x ∉ s → e x = x) ∧ b = a ∘ e

namespace Rearranged

theorem refl (s : Set ι) (a : ι → α) : Rearranged s a a := ⟨Equiv.refl ι, fun _ _ => rfl, rfl⟩

theorem trans (h : Rearranged s a b) (h' : Rearranged s b c) : Rearranged s a c := by
  obtain ⟨e, he, rfl⟩ := h
  obtain ⟨e', he', rfl⟩ := h'
  refine ⟨e'.trans e, fun x hx => ?_, rfl⟩
  rw [Equiv.trans_apply, he' x hx, he x hx]

theorem mono (h : Rearranged s a b) (hst : s ⊆ t) : Rearranged t a b := by
  obtain ⟨e, he, rfl⟩ := h
  exact ⟨e, fun x hx => he x fun hs => hx (hst hs), rfl⟩

/-- Two cells change places. -/
theorem swap [DecidableEq ι] {x y : ι} (hx : x ∈ s) (hy : y ∈ s) :
    Rearranged s a (Function.update (Function.update a x (a y)) y (a x)) := by
  refine ⟨Equiv.swap x y, fun z hz => ?_, ?_⟩
  · refine Equiv.swap_apply_of_ne_of_ne ?_ ?_
    · rintro rfl
      exact hz hx
    · rintro rfl
      exact hz hy
  · funext z
    show _ = a (Equiv.swap x y z)
    by_cases hzy : z = y
    · rw [hzy, Function.update_self, Equiv.swap_apply_right]
    · rw [Function.update_of_ne hzy]
      by_cases hzx : z = x
      · rw [hzx, Function.update_self, Equiv.swap_apply_left]
      · rw [Function.update_of_ne hzx, Equiv.swap_apply_of_ne_of_ne hzx hzy]

theorem outside (h : Rearranged s a b) {x : ι} (hx : x ∉ s) : b x = a x := by
  obtain ⟨e, he, rfl⟩ := h
  show a (e x) = a x
  rw [he x hx]

/-- A place of `s` has the cell of a place of `s`. -/
theorem inside (h : Rearranged s a b) {x : ι} (hx : x ∈ s) : ∃ y ∈ s, b x = a y := by
  obtain ⟨e, he, rfl⟩ := h
  refine ⟨e x, ?_, rfl⟩
  by_contra hout
  have hfix : e x = x := e.injective (he (e x) hout)
  rw [hfix] at hout
  exact hout hx

theorem forall_mem {P : α → Prop} (h : Rearranged s a b) (ha : ∀ x ∈ s, P (a x)) : ∀ x ∈ s, P (b x) := by
  intro x hx
  obtain ⟨y, hy, hxy⟩ := h.inside hx
  rw [hxy]
  exact ha y hy

/-- Cells that are all in `s` are permuted. -/
theorem perm [DecidableEq ι] (h : Rearranged s a b) {l : List ι} (hl : l.Nodup) (hs : ∀ x, x ∈ l ↔ x ∈ s) :
    (l.map b).Perm (l.map a) := by
  obtain ⟨e, he, rfl⟩ := h
  have hmem : ∀ x, x ∈ l.map e ↔ x ∈ l := by
    intro x
    rw [List.mem_map, hs]
    constructor
    · rintro ⟨y, hy, rfl⟩
      have hid : Rearranged s id (id ∘ e) := ⟨e, he, rfl⟩
      obtain ⟨z, hz, hez⟩ := hid.inside ((hs y).1 hy)
      rwa [show e y = z from hez]
    · intro hx
      by_contra hno
      have hout : e.symm x ∉ s := fun hin => hno ⟨e.symm x, (hs _).2 hin, e.apply_symm_apply x⟩
      have hfix := he _ hout
      rw [e.apply_symm_apply] at hfix
      rw [← hfix] at hout
      exact hout hx
  have hperm : (l.map e).Perm l := (List.perm_ext_iff_of_nodup (List.Nodup.map e.injective hl) hl).2 hmem
  rw [← List.map_map]
  exact hperm.map a

end Rearranged

end WM
