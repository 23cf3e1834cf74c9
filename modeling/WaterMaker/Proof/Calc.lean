import Mathlib.Data.List.Chain
import Mathlib.Data.Nat.SuccPred
import Mathlib.Order.Interval.Set.Monotone
import WaterMaker.Framework.Search
import WaterMaker.Impl.Calc

/-!
# Looking up a temperature

`bin_search` finds the segment that the key is on (`binSearch_finds`): a round of its loop either hits it or leaves it
in the half that it goes on with (`binSearchLoop_finds`). `calc_ntc` interpolates on the segment before, so that the
temperature rises with the key (`ntcOffset_mono`), but on the first segment it takes the half-word before the table for
the beginning of one (`calcNtc_cases`).
-/

namespace WM.Proof

open WM WM.Impl

/-! ## Searching by halves -/

section search

variable {a : Int → Word} {n key : Word}

/-- The entries as numbers. -/
def entry (a : Int → Word) (i : Nat) : Nat := (a i).toNat

theorem fetch_bind {α : Type} (a : Int → Word) (i : Int) (f : Word → Fetch α) (reads : List Int) :
    (fetch a i >>= f) reads = f (a i) (reads ++ [i]) := rfl

theorem bind_fetch {α β : Type} {x : Fetch α} {reads reads' : List Int} {v : α} (h : x reads = some (v, reads'))
    (f : α → Fetch β) : (x >>= f) reads = f v reads' := by
  show (x reads).bind (fun r => f r.1 r.2) = _
  rw [h]
  rfl

theorem toInt_ofInt_of_fits {z : Int} (hlow : -32768 ≤ z) (hhigh : z < 32768) : (BitVec.ofInt 16 z).toInt = z := by
  rw [BitVec.toInt_ofInt]
  exact Int.bmod_eq_of_le hlow hhigh

/-- Whether there is a hit, and what was read for it. -/
theorem binSearchHit_some (a : Int → Word) (n key : Word) (mid : Nat) (reads : List Int) :
    ∃ new, binSearchHit a n key mid reads =
        some (decide (Segment (entry a) key.toNat mid ∧ mid + 1 < n.toNat), reads ++ new) ∧
      ∀ i ∈ new, i = (mid : Int) ∨ i = mid + 1 := by
  unfold binSearchHit
  rw [fetch_bind]
  by_cases hle : a mid ≤ key
  · rw [if_pos hle, fetch_bind]
    refine ⟨[(mid : Int), mid + 1], ?_, by simp⟩
    have hiff : (key < a (mid + 1) ∧ (mid : Int) + 1 < n.toNat) ↔
        Segment (entry a) key.toNat mid ∧ mid + 1 < n.toNat :=
      ⟨fun h => ⟨⟨hle, h.1⟩, by omega⟩, fun h => ⟨h.1.2, by omega⟩⟩
    simp only [hiff, List.append_assoc, List.cons_append, List.nil_append]
    rfl
  · rw [if_neg hle]
    refine ⟨[(mid : Int)], ?_, by simp⟩
    rw [decide_eq_false fun h => hle h.1.1]
    rfl

theorem middle_eq {l h : Nat} (hlt : l < h) : ((l : Int) + (h - 1)).tdiv 2 = ((l + h - 1) / 2 : Nat) := by
  rw [Int.tdiv_eq_ediv_of_nonneg (by omega)]
  omega

/-- What a search of the entries from `l` to below `h` may return: a segment that the key is on, or -1 if it is on none
of them. -/
def Finds (a : Int → Word) (n key : Word) (l h : Nat) (r : Int) : Prop :=
  (∃ i : Nat, r = i ∧ Segment (entry a) key.toNat i ∧ i + 1 < n.toNat) ∨
    (r = -1 ∧ ∀ i, l ≤ i → i < h → i + 1 < n.toNat → ¬Segment (entry a) key.toNat i)

/-- The entries from the middle on are above the key. -/
theorem Finds.below (hrise : StrictMonoOn (entry a) (Set.Iic n.toNat)) {l mid h : Nat} {r : Int}
    (hfinds : Finds a n key l mid r) (hmid : mid ≤ n.toNat) (hkey : key < a mid) : Finds a n key l h r := by
  refine hfinds.imp id fun hnone => ⟨hnone.1, fun i hl _ hin hs => ?_⟩
  exact hnone.2 i hl (hs.lt_of_lt hrise (by omega) hmid hkey) hin hs

/-- The entries up to the middle are not above the key, and the segment of the middle is not the one. -/
theorem Finds.above (hrise : StrictMonoOn (entry a) (Set.Iic n.toNat)) {l mid h : Nat} {r : Int}
    (hfinds : Finds a n key (mid + 1) h r) (hmid : mid ≤ n.toNat) (hkey : ¬key < a mid)
    (hmiss : ¬(Segment (entry a) key.toNat mid ∧ mid + 1 < n.toNat)) : Finds a n key l h r := by
  refine hfinds.imp id fun hnone => ⟨hnone.1, fun i _ hi hin hs => ?_⟩
  have hle := hs.le_of_le hrise (by omega) hmid (Nat.le_of_not_lt hkey)
  have hne : mid ≠ i := by
    rintro rfl
    exact hmiss ⟨hs, hin⟩
  exact hnone.2 i (by omega) hi hin hs

variable (key) in
/-- The loop on the window from `l` to below `h`: every round either hits the segment or halves the window, and keeps
the segment in it. -/
theorem binSearchLoop_finds (hrise : StrictMonoOn (entry a) (Set.Iic n.toNat)) (fuel : Nat) {l h : Nat}
    (hh : h ≤ n.toNat) (hfuel : h - l < fuel) (reads : List Int) :
    ∃ r new, binSearchLoop a n key fuel l (h - 1) reads = some (r, reads ++ new) ∧
      (∀ i ∈ new, 0 ≤ i ∧ i ≤ (n.toNat : Int)) ∧ Finds a n key l h r := by
  induction fuel generalizing l h reads with
  | zero => omega
  | succ fuel ih =>
    unfold binSearchLoop
    by_cases hlt : l < h
    · obtain ⟨mid, hmid⟩ : ∃ mid, mid = (l + h - 1) / 2 := ⟨_, rfl⟩
      obtain ⟨hits, hhit, hread⟩ := binSearchHit_some a n key mid reads
      have hin : ∀ i ∈ hits, 0 ≤ i ∧ i ≤ (n.toNat : Int) := fun i hi => by
        have := hread i hi
        omega
      rw [if_pos (by omega), middle_eq hlt, ← hmid, bind_fetch hhit]
      by_cases hseg : Segment (entry a) key.toNat mid ∧ mid + 1 < n.toNat
      · rw [decide_eq_true hseg]
        exact ⟨mid, hits, rfl, hin, .inl ⟨mid, rfl, hseg⟩⟩
      · rw [decide_eq_false hseg, if_neg Bool.false_ne_true, fetch_bind]
        have hins : ∀ {new : List Int}, (∀ i ∈ new, 0 ≤ i ∧ i ≤ (n.toNat : Int)) →
            ∀ i ∈ hits ++ [(mid : Int)] ++ new, 0 ≤ i ∧ i ≤ (n.toNat : Int) := fun hnew i hi => by
          simp only [List.mem_append, List.mem_singleton] at hi
          rcases hi with (hi | rfl) | hi
          · exact hin i hi
          · omega
          · exact hnew i hi
        by_cases hkey : key < a mid
        · -- the segment is below the middle
          obtain ⟨r, new, hr, hnew, hfinds⟩ := ih (l := l) (h := mid) (by omega) (by omega)
            (reads ++ (hits ++ [(mid : Int)]))
          rw [if_pos hkey, List.append_assoc, hr]
          exact ⟨r, _, by rw [List.append_assoc], hins hnew, hfinds.below hrise (by omega) hkey⟩
        · -- it is above it
          obtain ⟨r, new, hr, hnew, hfinds⟩ := ih (l := mid + 1) (h := h) hh (by omega)
            (reads ++ (hits ++ [(mid : Int)]))
          rw [if_neg hkey, List.append_assoc, show (mid : Int) + 1 = ((mid + 1 : Nat) : Int) from rfl, hr]
          exact ⟨r, _, by rw [List.append_assoc], hins hnew, hfinds.above hrise (by omega) hkey hseg⟩
    · rw [if_neg (by omega)]
      exact ⟨-1, [], by rw [List.append_nil]; rfl, nofun, .inr ⟨rfl, fun i hl hi => by omega⟩⟩

variable (key) in
/-- `bin_search` with enough fuel. -/
theorem binSearch_finds (hrise : StrictMonoOn (entry a) (Set.Iic n.toNat)) (hpos : 1 ≤ n.toNat)
    (hsize : n.toNat ≤ 32767) {fuel : Nat} (hfuel : n.toNat < fuel) (reads : List Int) :
    ∃ r new, binSearch a n key fuel reads = some (r, reads ++ new) ∧ (∀ i ∈ new, 0 ≤ i ∧ i ≤ (n.toNat : Int)) ∧
      Finds a n key 0 n.toNat r := by
  unfold binSearch
  rw [fetch_bind]
  by_cases hfirst : key < a 0
  · rw [if_pos hfirst]
    refine ⟨-1, [0], rfl, by simp, .inr ⟨rfl, fun i _ hi _ hs => ?_⟩⟩
    exact absurd (hs.lt_of_lt hrise hi.le (Nat.zero_le _) hfirst) (Nat.not_lt_zero i)
  · rw [if_neg hfirst, fetch_bind]
    by_cases hlast : a n.toNat < key
    · rw [if_pos hlast]
      refine ⟨-1, [0, (n.toNat : Int)], by simp; rfl, by simp, .inr ⟨rfl, fun i _ hi hin hs => ?_⟩⟩
      have := hs.le_of_le hrise hin.le (le_refl n.toNat) (Nat.le_of_lt hlast)
      omega
    · obtain ⟨r, new, hr, hnew, hfinds⟩ := binSearchLoop_finds key hrise fuel (l := 0) (le_refl n.toNat)
        (by omega) (reads ++ [0] ++ [(n.toNat : Int)])
      rw [Int.natCast_zero] at hr
      rw [if_neg hlast, bind_fetch hr]
      refine ⟨r, [0, (n.toNat : Int)] ++ new, ?_, by simpa using hnew, hfinds⟩
      have hrange : -1 ≤ r ∧ r < n.toNat := by
        rcases hfinds with ⟨i, rfl, -, hi⟩ | ⟨rfl, -⟩ <;> omega
      rw [toInt_ofInt_of_fits (by omega) (by omega), List.append_assoc, List.append_assoc]
      rfl

/-- For every rising array of at least `n + 1` entries, `1 ≤ n ≤ 32767`, and every key: `bin_search` comes to an end,
reads only the first `n + 1` entries, and returns the segment of the key if it is on one of the first `n - 1`, and -1
otherwise. -/
theorem binSearch_sound (a : Int → Word) (n key : Word) (hpos : 1 ≤ n.toNat) (hsize : n.toNat ≤ 32767)
    (hrise : ∀ i j : Nat, i < j → j ≤ n.toNat → a i < a j) {fuel : Nat} (hfuel : n.toNat < fuel) :
    ∃ r reads, binSearch a n key fuel [] = some (r, reads) ∧ (∀ i ∈ reads, 0 ≤ i ∧ i ≤ (n.toNat : Int)) ∧
      (a 0 ≤ key ∧ key < a ((n.toNat - 1 : Nat) : Int) →
        ∃ i : Nat, r = i ∧ a i ≤ key ∧ key < a ((i + 1 : Nat) : Int) ∧ i + 1 < n.toNat) ∧
      (¬(a 0 ≤ key ∧ key < a ((n.toNat - 1 : Nat) : Int)) → r = -1) := by
  have hmono : StrictMonoOn (entry a) (Set.Iic n.toNat) := fun i _ j hj hij => hrise i j hij hj
  obtain ⟨r, reads, hr, hin, hfinds⟩ := binSearch_finds key hmono hpos hsize hfuel []
  refine ⟨r, reads, hr, hin, fun hkey => ?_, fun hkey => ?_⟩
  · rcases hfinds with ⟨i, rfl, hs, hi⟩ | ⟨-, hnone⟩
    · exact ⟨i, rfl, hs.1, hs.2, hi⟩
    · obtain ⟨i, hi, hs⟩ : ∃ i < n.toNat - 1, Segment (entry a) key.toNat i := exists_segment hkey.1 hkey.2
      exact absurd hs (hnone i (Nat.zero_le i) (by omega) (by omega))
  · rcases hfinds with ⟨i, rfl, hs, hi⟩ | ⟨hr, -⟩
    · refine absurd ⟨?_, ?_⟩ hkey
      · exact (hmono.monotoneOn (Nat.zero_le _) (show i ≤ n.toNat by omega) (Nat.zero_le i)).trans hs.1
      · exact lt_of_lt_of_le hs.2 (hmono.monotoneOn (show i + 1 ≤ n.toNat by omega) (Nat.sub_le _ _) (by omega))
    · exact hr

end search

/-- Five steps of ten. -/
def tens (i : Int) : Word := BitVec.ofInt 16 (10 * i + 10)

/-- A key on the second segment, and one on the last, which is not searched. -/
theorem binSearch_sound_tens : (∃ reads, binSearch tens 4 25 5 [] = some (1, reads) ∧ ∀ i ∈ reads, 0 ≤ i ∧ i ≤ 4) ∧
    ∃ reads, binSearch tens 4 45 5 [] = some (-1, reads) ∧ ∀ i ∈ reads, 0 ≤ i ∧ i ≤ 4 := by
  have hrise : ∀ i j : Nat, i < j → j ≤ (4 : Word).toNat → tens i < tens j := fun i j hij hj => by
    have hle : j ≤ 4 := hj
    have hall : ∀ j ≤ 4, ∀ i < j, tens (i : Nat) < tens (j : Nat) := by decide
    exact hall j hle i hij
  obtain ⟨r, reads, hr, hin, hfound, -⟩ :=
    binSearch_sound tens 4 25 (by decide) (by decide) hrise (show 4 < 5 by decide)
  obtain ⟨r', reads', hr', hin', -, hnone⟩ :=
    binSearch_sound tens 4 45 (by decide) (by decide) hrise (show 4 < 5 by decide)
  have hsegment : ∀ i < 3, tens (i : Nat) ≤ 25 → 25 < tens ((i + 1 : Nat) : Int) → i = 1 := by decide
  obtain ⟨i, rfl, hle, hlt, hi⟩ := hfound (by decide)
  obtain rfl := hsegment i (Nat.lt_of_succ_lt_succ hi) hle hlt
  obtain rfl := hnone (by decide)
  exact ⟨⟨reads, hr, hin⟩, reads', hr', hin'⟩

/-! ## Thermistors -/

/-- The table as numbers. -/
def ntcEntry (i : Nat) : Nat := ntcLookupTab.getD i 0

theorem length_ntcLookupTab : ntcLookupTab.length = 191 := by decide +kernel

theorem ntcEntry_lt_succ {i : Nat} (hi : i < 190) : ntcEntry i < ntcEntry (i + 1) := by
  have hchain : ntcLookupTab.IsChain (· < ·) := by decide +kernel
  have hlen := length_ntcLookupTab
  unfold ntcEntry
  rw [List.getD_eq_getElem _ _ (by omega), List.getD_eq_getElem _ _ (by omega)]
  exact List.isChain_iff_getElem.mp hchain i (by omega)

theorem entry_ntcMem (beside : Int → Word) {i : Nat} (hi : i < 191) : entry (ntcMem beside) i = ntcEntry i := by
  have hsmall : ∀ v ∈ ntcLookupTab, v < 65536 := by decide +kernel
  have hlen := length_ntcLookupTab
  unfold entry ntcMem ntcEntry
  rw [if_pos (by omega), Int.toNat_natCast, List.getD_eq_getElem _ _ (by omega), BitVec.toNat_ofNat,
    Nat.mod_eq_of_lt (hsmall _ (List.getElem_mem _))]

theorem rising_ntcEntry : StrictMonoOn ntcEntry (Set.Iic 190) :=
  strictMonoOn_Iic_of_lt_succ fun _ hi => ntcEntry_lt_succ hi

theorem rising_ntcMem (beside : Int → Word) : StrictMonoOn (entry (ntcMem beside)) (Set.Iic 190) :=
  rising_ntcEntry.congr fun _ hi => (entry_ntcMem beside (Nat.lt_succ_of_le hi)).symm

/-- A segment is not much wider than the one before it. -/
theorem ntcEntry_even {i : Nat} (hpos : 1 ≤ i) (hi : i < 189) :
    (ntcEntry (i + 1) - 1 - ntcEntry (i - 1)) * 10 < 21 * (ntcEntry i - ntcEntry (i - 1)) := by
  have hall : ∀ i < 189, 1 ≤ i →
      (ntcEntry (i + 1) - 1 - ntcEntry (i - 1)) * 10 < 21 * (ntcEntry i - ntcEntry (i - 1)) := by decide +kernel
  exact hall i hi hpos

/-- What `calc_ntc` adds within segment `i`: it measures from the beginning of the segment before, in tenths of its
width. -/
def ntcOffset (key i : Nat) : Nat := (key - ntcEntry (i - 1)) * 10 / (ntcEntry i - ntcEntry (i - 1))

section offset

variable {key i : Nat}

theorem ntcEntry_pred_lt (hpos : 1 ≤ i) (hi : i < 189) : ntcEntry (i - 1) < ntcEntry i := by
  have hlt := ntcEntry_lt_succ (show i - 1 < 190 by omega)
  rwa [Nat.sub_add_cancel hpos] at hlt

theorem le_ntcOffset (h : Segment ntcEntry key i) (hpos : 1 ≤ i) (hi : i < 189) : 10 ≤ ntcOffset key i := by
  have hlt := ntcEntry_pred_lt hpos hi
  have hle := h.1
  unfold ntcOffset
  rw [Nat.le_div_iff_mul_le (by omega)]
  omega

theorem ntcOffset_le (h : Segment ntcEntry key i) (hpos : 1 ≤ i) (hi : i < 189) : ntcOffset key i ≤ 20 := by
  have hlt := ntcEntry_pred_lt hpos hi
  have heven := ntcEntry_even hpos hi
  have hkey := h.2
  refine Nat.le_of_lt_succ ?_
  unfold ntcOffset
  rw [Nat.div_lt_iff_lt_mul (by omega)]
  omega

/-- The temperature does not fall within a segment nor from one to the next. -/
theorem ntcOffset_mono {key' i' : Nat} (h : Segment ntcEntry key i) (h' : Segment ntcEntry key' i') (hpos : 1 ≤ i)
    (hi' : i' < 189) (hle : i ≤ i') (hkey : key ≤ key') : 10 * i + ntcOffset key i ≤ 10 * i' + ntcOffset key' i' := by
  rcases hle.lt_or_eq with hlt | rfl
  · have := ntcOffset_le h hpos (by omega)
    have := le_ntcOffset h' (by omega) hi'
    omega
  · refine Nat.add_le_add_left (Nat.div_le_div_right ?_) _
    omega

end offset

/-- What `calc_ntc` returns for a key on a segment from the second on. -/
def ntcTemp (adjust : Word) (key i : Nat) : Int := ((i : Int) - 39) * 10 + ntcOffset key i + adjust.toInt - 15

section ntc

variable {beside : Int → Word} {adc adjust : Word} {fuel : Nat}

theorem toNat_key (hadc : adc.toNat < 4096) : (4096 - adc).toNat = 4096 - adc.toNat := by
  rw [BitVec.toNat_sub_of_le (by rw [BitVec.le_def]; exact hadc.le)]
  rfl

/-- The interpolation, on whole numbers. -/
theorem tdiv_ntcOffset {key i : Nat} (h : Segment ntcEntry key i) (hpos : 1 ≤ i) (hi : i < 189) :
    (((key : Int) - ntcEntry (i - 1)) * 10).tdiv (ntcEntry i - ntcEntry (i - 1)) = ntcOffset key i := by
  have hlt := ntcEntry_pred_lt hpos hi
  have hle := h.1
  rw [show (key : Int) - ntcEntry (i - 1) = ((key - ntcEntry (i - 1) : Nat) : Int) by omega,
    show (ntcEntry i : Int) - ntcEntry (i - 1) = ((ntcEntry i - ntcEntry (i - 1) : Nat) : Int) by omega,
    Int.tdiv_eq_ediv_of_nonneg (by omega)]
  rfl

/-- The temperature needs no more than 16 bits. -/
theorem ntcTemp_fits (hadj : -1000 ≤ adjust.toInt ∧ adjust.toInt ≤ 1000) {key i : Nat} (h : Segment ntcEntry key i)
    (hpos : 1 ≤ i) (hi : i < 189) :
    (BitVec.ofInt 16 (((i : Int) - 39) * 10 + (BitVec.ofInt 16 (ntcOffset key i)).toNat + adjust.toInt - 15)).toInt =
      ntcTemp adjust key i := by
  have hle := ntcOffset_le h hpos hi
  rw [BitVec.ofInt_natCast, BitVec.toNat_ofNat, Nat.mod_eq_of_lt (by omega)]
  unfold ntcTemp
  exact toInt_ofInt_of_fits (by omega) (by omega)

/-- What `bin_search` finds in the table. -/
theorem binSearch_ntcMem (beside : Int → Word) (key : Word) (hfuel : 190 < fuel) (reads : List Int) :
    ∃ r new, binSearch (ntcMem beside) 190 key fuel reads = some (r, reads ++ new) ∧
      (∀ i ∈ new, 0 ≤ i ∧ i ≤ 190) ∧
      ((∃ i : Nat, r = i ∧ Segment ntcEntry key.toNat i ∧ i < 189) ∨
        r = -1 ∧ ¬(193 ≤ key.toNat ∧ key.toNat < 3971)) := by
  obtain ⟨r, new, hr, hnew, hfinds⟩ := binSearch_finds key (n := 190) (rising_ntcMem beside) (by decide)
    (by decide) hfuel reads
  refine ⟨r, new, hr, hnew, hfinds.imp ?_ ?_⟩
  · rintro ⟨i, rfl, ⟨hle, hlt⟩, hi⟩
    have hi : i < 189 := by have : i + 1 < 190 := hi; omega
    rw [entry_ntcMem beside (by omega)] at hle hlt
    exact ⟨i, rfl, ⟨hle, hlt⟩, hi⟩
  · rintro ⟨rfl, hnone⟩
    refine ⟨rfl, fun hkey => ?_⟩
    have hfirst : entry (ntcMem beside) 0 ≤ key.toNat := by rw [entry_ntcMem beside (by omega)]; exact hkey.1
    have hlast : key.toNat < entry (ntcMem beside) 189 := by rw [entry_ntcMem beside (by omega)]; exact hkey.2
    obtain ⟨i, hi, hs⟩ := exists_segment hfirst hlast
    exact hnone i (Nat.zero_le i) (show i < 190 by omega) (show i + 1 < 190 by omega) hs

/-- The keys on a segment that is searched, and on the first one. -/
theorem segment_range {key i : Nat} (h : Segment ntcEntry key i) (hi : i < 189) :
    193 ≤ key ∧ key < 3971 ∧ (key < 204 ↔ i = 0) := by
  have hmono := rising_ntcEntry.monotoneOn
  have hlow : 193 ≤ ntcEntry i := hmono (Nat.zero_le 190) (show i ≤ 190 by omega) (Nat.zero_le i)
  have hhigh : ntcEntry (i + 1) ≤ 3971 := hmono (show i + 1 ≤ 190 by omega) (show 189 ≤ 190 by omega) (by omega)
  refine ⟨hlow.trans h.1, h.2.trans_le hhigh, fun hkey => ?_, fun hzero => ?_⟩
  · have := h.lt_of_lt rising_ntcEntry (by omega) (show 1 ≤ 190 by omega) hkey
    omega
  · rw [hzero] at h
    exact h.2

/-- The result of `calc_ntc` and what it reads: nothing beside the table, unless the key is on the first segment. -/
theorem calcNtc_cases (beside : Int → Word) (hadc : adc.toNat < 4096)
    (hadj : -1000 ≤ adjust.toInt ∧ adjust.toInt ≤ 1000) (hfuel : 190 < fuel) :
    (¬(193 ≤ 4096 - adc.toNat ∧ 4096 - adc.toNat < 3971) ∧ ∃ reads,
      calcNtc (ntcMem beside) adc adjust fuel [] = some (abnormalValue, reads) ∧ ∀ i ∈ reads, 0 ≤ i ∧ i ≤ 190) ∨
    ((193 ≤ 4096 - adc.toNat ∧ 4096 - adc.toNat < 204) ∧
      ∀ r reads, calcNtc (ntcMem beside) adc adjust fuel [] = some (r, reads) → -1 ∈ reads) ∨
    ∃ i reads, 1 ≤ i ∧ i < 189 ∧ Segment ntcEntry (4096 - adc.toNat) i ∧
      calcNtc (ntcMem beside) adc adjust fuel [] = some (ntcTemp adjust (4096 - adc.toNat) i, reads) ∧
      ∀ i ∈ reads, 0 ≤ i ∧ i ≤ 190 := by
  obtain ⟨r, new, hr, hnew, hcases⟩ := binSearch_ntcMem beside (4096 - adc) hfuel []
  rw [toNat_key hadc] at hcases
  unfold calcNtc
  rw [bind_fetch hr, List.nil_append]
  rcases hcases with ⟨i, rfl, hs, hi⟩ | ⟨rfl, hout⟩
  · obtain ⟨hlow, hhigh, hfirst⟩ := segment_range hs hi
    rw [if_neg (by omega), fetch_bind, fetch_bind, fetch_bind]
    by_cases hzero : i = 0
    · -- the entry before the first
      refine .inr (.inl ⟨⟨hlow, hfirst.mpr hzero⟩, fun r reads hsome => ?_⟩)
      subst hzero
      split at hsome
      · exact nomatch hsome
      · obtain ⟨-, rfl⟩ := Prod.mk.inj (Option.some.inj hsome)
        simp
    · have hpos : 1 ≤ i := Nat.one_le_iff_ne_zero.mpr hzero
      have hlt := ntcEntry_pred_lt hpos hi
      have hbelow : (ntcMem beside ((i : Int) - 1)).toNat = ntcEntry (i - 1) := by
        rw [show (i : Int) - 1 = ((i - 1 : Nat) : Int) by omega]
        exact entry_ntcMem beside (by omega)
      have hhere : (ntcMem beside (i : Int)).toNat = ntcEntry i := entry_ntcMem beside (by omega)
      have hoffset := ntcOffset_le hs hpos hi
      refine .inr (.inr ⟨i, new ++ [(i : Int) - 1] ++ [(i : Int)] ++ [(i : Int) - 1], hpos, hi, hs, ?_, ?_⟩)
      · rw [hbelow, hhere, if_neg (by omega), toNat_key hadc, tdiv_ntcOffset hs hpos hi, ← ntcTemp_fits hadj hs hpos hi]
        rfl
      · intro j hj
        simp only [List.mem_append, List.mem_singleton] at hj
        rcases hj with ((hj | rfl) | rfl) | rfl
        · exact hnew j hj
        all_goals omega
  · exact .inl ⟨hout, new, rfl, hnew⟩

/-- A temperature is not the abnormal value. -/
theorem ntcTemp_ne (hadj : adjust.toInt ≤ 1000) {key i : Nat} (h : Segment ntcEntry key i) (hpos : 1 ≤ i)
    (hi : i < 189) : ntcTemp adjust key i ≠ abnormalValue := by
  have := ntcOffset_le h hpos hi
  unfold ntcTemp abnormalValue
  omega

/-- For every reading of 12 bits and every offset of at most 1000, whatever is in memory beside the table: `calc_ntc`
reads only the table, returns `ABNORMAL_VALUE` exactly if the key is not on a segment that is searched, and else a
temperature that does not fall as the key rises, exactly if the key is not on the first segment. -/
theorem calcNtc_sound_iff (beside : Int → Word) (adc adjust : Word) (hadc : adc.toNat < 4096)
    (hadj : -1000 ≤ adjust.toInt ∧ adjust.toInt ≤ 1000) {fuel : Nat} (hfuel : 190 < fuel) :
    (∃ r reads, calcNtc (ntcMem beside) adc adjust fuel [] = some (r, reads) ∧ (∀ i ∈ reads, 0 ≤ i ∧ i ≤ 190) ∧
      (r = abnormalValue ↔ ¬(193 ≤ 4096 - adc.toNat ∧ 4096 - adc.toNat < 3971)) ∧
      ∀ (adc' : Word) (r' : Int) (reads' : List Int), adc'.toNat < 4096 →
        calcNtc (ntcMem beside) adc' adjust fuel [] = some (r', reads') →
        193 ≤ 4096 - adc.toNat → 4096 - adc.toNat ≤ 4096 - adc'.toNat → 4096 - adc'.toNat < 3971 → r ≤ r') ↔
    ¬(193 ≤ 4096 - adc.toNat ∧ 4096 - adc.toNat < 204) := by
  rcases calcNtc_cases beside hadc hadj hfuel with ⟨hout, reads, hr, hin⟩ | ⟨hfirst, hread⟩ |
    ⟨i, reads, hpos, hi, hs, hr, hin⟩
  · refine iff_of_true ⟨_, reads, hr, hin, iff_of_true rfl hout, fun adc' r' reads' _ _ hlow hle hhigh => ?_⟩ (by omega)
    omega
  · refine iff_of_false (fun ⟨r, reads, hr, hin, _⟩ => ?_) (not_not.mpr hfirst)
    have := hin _ (hread r reads hr)
    omega
  · obtain ⟨hlow, hhigh, hzero⟩ := segment_range hs hi
    refine iff_of_true ⟨_, reads, hr, hin, iff_of_false (ntcTemp_ne hadj.2 hs hpos hi) (by omega), ?_⟩ (by omega)
    intro adc' r' reads' hadc' hr' _ hle hhigh'
    rcases calcNtc_cases beside hadc' hadj hfuel with ⟨hout, -⟩ | ⟨hfirst, -⟩ | ⟨i', _, hpos', hi', hs', hsome, -⟩
    · omega
    · omega
    · rw [hsome] at hr'
      obtain ⟨rfl, -⟩ := Prod.mk.inj (Option.some.inj hr')
      have hii : i ≤ i' := hs'.le_of_le rising_ntcEntry (by omega) (show i ≤ 190 by omega) (hs.1.trans hle)
      have hmono := ntcOffset_mono hs hs' hpos hi' hii hle
      unfold ntcTemp
      omega

/-- A reading in the middle of the table, at 25 degrees or so. -/
theorem calcNtc_sound_iff_warm : ∃ r reads, calcNtc (ntcMem fun _ => 0) 2048 0 191 [] = some (r, reads) ∧
    (∀ i ∈ reads, 0 ≤ i ∧ i ≤ 190) ∧ r ≠ abnormalValue := by
  obtain ⟨r, reads, hr, hin, habnormal, -⟩ :=
    (calcNtc_sound_iff (fun _ => 0) 2048 0 (by decide) (by decide) (show 190 < 191 by decide)).mpr (by decide)
  exact ⟨r, reads, hr, hin, fun h => habnormal.mp h (by decide)⟩

/-- On the first segment the half-word before the table is read. If it is 192, the reading 3893 gives -29.5 degrees and
the next one, 3892, gives -38.5. -/
theorem calcNtc_before_table : ∃ reads reads',
    calcNtc (ntcMem fun _ => 192) 3893 0 191 [] = some (-295, reads) ∧ -1 ∈ reads ∧
    calcNtc (ntcMem fun _ => 192) 3892 0 191 [] = some (-385, reads') := by
  refine ⟨_, _, rfl, ?_, rfl⟩
  decide +kernel

end ntc

end WM.Proof
