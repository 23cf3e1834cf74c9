import WaterMaker.Framework.Sync
import WaterMaker.Spec.Ble
import WaterMaker.Proof.Registers.Legal
import Mathlib.Data.List.FinRange

/-!
# Registers over Bluetooth

`getRegData` brings `regMap` up to date block by block (`getRegData_eq`): it is the copying of `WM.Sync`, where a
block is stale if its twelve bytes are not those of the registers. `getRegData_sound` says what it returns and that it
comes to an end.
-/

namespace WM.Proof

open WM WM.Impl WM.Spec

/-- The registers of a block are always read. -/
theorem blockTemp_eq (d : Dev) (i : Fin 30) : blockTemp d i = readRegs d (blockAddress i) 6 := by
  have hin : blockAddress i + 6 ≤ cpadSRegHoldingNregs := by
    have hi := i.isLt
    unfold blockAddress cpadSRegHoldingNregs
    split <;> omega
  unfold blockTemp cpadEMBRegHoldingCB
  rw [if_pos hin]

/-- The registers of the block have changed. -/
def Stale (d : Dev) (i : Fin 30) (row : BleRow) : Prop := row.data ≠ readRegs d (blockAddress i) 6

instance (d : Dev) (i : Fin 30) (row : BleRow) : Decidable (Stale d i row) := inferInstanceAs (Decidable (_ ≠ _))

/-- `getRegData` renews the first stale block. -/
theorem getRegData_eq (d : Dev) (m : RegCache) : getRegData d m =
    ((Sync.next (List.finRange 30) (Stale d) (freshRow d) m).1.map (freshRow d),
      (Sync.next (List.finRange 30) (Stale d) (freshRow d) m).2) := by
  unfold getRegData
  generalize List.finRange 30 = is
  induction is with
  | nil => rfl
  | cons i is ih =>
    unfold getRegDataFrom Sync.next
    rw [blockTemp_eq]
    by_cases hstale : Stale d i (m i)
    · rw [List.find?_cons_of_pos (by simpa using hstale)]
      exact if_pos hstale
    · rw [List.find?_cons_of_neg (by simpa using hstale)]
      exact (if_neg hstale).trans ih

/-- The header of a row is the block's address. -/
theorem address_freshRow (d : Dev) (i : Fin 30) :
    256 * (freshRow d i).addrHi.toNat + (freshRow d i).addrLo.toNat = blockAddress i := by
  have hlt : blockAddress i < 65536 := by
    have hi := i.isLt
    unfold blockAddress
    split <;> omega
  show 256 * (BitVec.ofNat 8 (blockAddress i / 256)).toNat + (BitVec.ofNat 8 (blockAddress i % 256)).toNat = _
  rw [BitVec.toNat_ofNat, BitVec.toNat_ofNat]
  omega

/-- Those before `i` in the order of the blocks are the smaller ones. -/
theorem mem_of_lt {before after : List (Fin 30)} {i j : Fin 30} (h : List.finRange 30 = before ++ i :: after)
    (hj : j < i) : j ∈ before := by
  have hmem : j ∈ before ++ i :: after := h ▸ List.mem_finRange j
  have hsorted := List.pairwise_lt_finRange 30
  rw [h, List.pairwise_append] at hsorted
  rcases List.mem_append.mp hmem with hbefore | hafter
  · exact hbefore
  · rcases List.mem_cons.mp hafter with rfl | hafter
    · exact absurd hj (lt_irrefl _)
    · exact absurd (List.rel_of_pairwise_cons hsorted.2.1 hafter) (not_lt_of_gt hj)

/-- For all registers and every cache: `getRegData` returns nothing exactly if the data of all 30 blocks is that of the
registers. Otherwise it returns the first block for which it is not, with its address and the registers as they are, and
puts it in its place; if the registers stay as they are, one of the next 30 calls returns nothing. -/
theorem getRegData_sound (d : Dev) (m : RegCache) :
    ((getRegData d m).1 = none ↔ ∀ i, (m i).data = readRegs d (blockAddress i) 6) ∧
    ((getRegData d m).1 = none → (getRegData d m).2 = m) ∧
    ∀ row, (getRegData d m).1 = some row →
      (∃ i, (m i).data ≠ readRegs d (blockAddress i) 6 ∧ (∀ j < i, (m j).data = readRegs d (blockAddress j) 6) ∧
        256 * row.addrHi.toNat + row.addrLo.toNat = blockAddress i ∧ row.data = readRegs d (blockAddress i) 6 ∧
        (getRegData d m).2 = Function.update m i row) ∧
      ∃ k < 30, (getRegData d ((fun m => (getRegData d m).2)^[k] (getRegData d m).2)).1 = none := by
  have hstep : (fun m => (getRegData d m).2) =
      fun m => (Sync.next (List.finRange 30) (Stale d) (freshRow d) m).2 := by
    funext m
    rw [getRegData_eq]
  have hfresh : ∀ i, ¬Stale d i (freshRow d i) := fun i => not_not.mpr rfl
  rw [hstep]
  simp only [getRegData_eq, Option.map_eq_none_iff, Option.map_eq_some_iff]
  refine ⟨?_, Sync.next_none, ?_⟩
  · rw [Sync.next_none_iff List.mem_finRange]
    exact forall_congr' fun i => not_not
  · rintro row ⟨i, hnext, rfl⟩
    obtain ⟨hcopy, hstale, before, after, horder, hbefore⟩ := Sync.next_some hnext
    refine ⟨⟨i, hstale, fun j hj => not_not.mp (hbefore j (mem_of_lt horder hj)), address_freshRow d i, rfl, hcopy⟩, ?_⟩
    have hcard := Sync.card_stale_next hfresh hnext
    obtain ⟨k, hk, hnone⟩ := Sync.next_none_within hfresh (List.finRange 30)
      (Sync.next (List.finRange 30) (Stale d) (freshRow d) m).2
    have hle : (Sync.staleCells (Stale d) m).card ≤ 30 := (Finset.card_le_univ _).trans (Fintype.card_fin 30).le
    exact ⟨k, by omega, hnone⟩

/-- `regMap` at the beginning of a connection. -/
def emptyCache : RegCache := fun _ => .zero

/-- The first block of a new machine is sent first, and all blocks within 31 calls; if all registers are 0, none is. -/
theorem getRegData_sound_fresh :
    (getRegData freshDev emptyCache).1 = some ⟨0, 64, [0, 0, 0, 0, 0, 1, 0, 1, 0, 0, 0, 0]⟩ ∧
    (∃ k < 30,
      (getRegData freshDev ((fun m => (getRegData freshDev m).2)^[k] (getRegData freshDev emptyCache).2)).1 = none) ∧
    (getRegData { freshDev with conf := fun _ => 0 } emptyCache).2 = emptyCache := by
  have hfirst : (getRegData freshDev emptyCache).1 = some ⟨0, 64, [0, 0, 0, 0, 0, 1, 0, 1, 0, 0, 0, 0]⟩ := by
    decide +kernel
  obtain ⟨-, -, hsome⟩ := getRegData_sound freshDev emptyCache
  obtain ⟨-, hnone, -⟩ := getRegData_sound { freshDev with conf := fun _ => 0 } emptyCache
  exact ⟨hfirst, (hsome _ hfirst).2, hnone (by decide +kernel)⟩

end WM.Proof
