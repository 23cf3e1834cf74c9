import WaterMaker.Framework.Rearrange
import WaterMaker.Framework.Run
import WaterMaker.Impl.Sort

/-!
# `quick` sorts, and the mean of the samples is not led astray

The loop of `quick` keeps the cells before `m` at most `k` and those behind `n` at least `k` (`Parted`). A scan comes
to an end because there is a cell that stops it: at first the one that `k` was taken from, and later one that has been
swapped. The first round always swaps, so both parts are shorter than the whole.
-/

namespace WM.Proof

open WM WM.Impl

/-- The places from `i` to `j`. -/
def Places (i j : Int) : Set Int := { x | i ≤ x ∧ x ≤ j }

/-- The cells from `i` to `j` are in order. -/
def SortedOn (i j : Int) (a : Int → Word) : Prop := ∀ x y, i ≤ x → x ≤ y → y ≤ j → a x ≤ a y

/-! ## Scans -/

section scan

variable {c : Cells} {k : Word} {i j m n p : Int} {fuel : Nat}

theorem read_eq {x : Int} (h0 : 0 ≤ x) (h1 : x < c.size) : c.read x = some (c.get x) := if_pos ⟨h0, h1⟩

theorem write_eq {x : Int} (v : Word) (h0 : 0 ≤ x) (h1 : x < c.size) :
    c.write x v = some { c with get := Function.update c.get x v } := if_pos ⟨h0, h1⟩

/-- From below up to the first cell that is not less than `k`; there is one at `p`. -/
theorem scanUp_stops (h0 : 0 ≤ m) (hmp : m ≤ p) (hpj : p ≤ j) (hj : j < c.size) (hp : k ≤ c.get p)
    (hfuel : p - m < fuel) :
    ∃ m', scanUp c k j fuel m = some m' ∧ m ≤ m' ∧ m' ≤ p ∧ k ≤ c.get m' ∧ ∀ x, m ≤ x → x < m' → c.get x < k := by
  induction fuel generalizing m with
  | zero => omega
  | succ fuel ih =>
    rw [scanUp, read_eq h0 (by omega)]
    show ∃ m', (if c.get m < k ∧ m < j then _ else _) = _ ∧ _
    by_cases hlt : c.get m < k
    · have hne : m ≠ p := by
        rintro rfl
        exact absurd hlt (BitVec.not_lt.2 hp)
      obtain ⟨m', hm', hle, hle', hk, hall⟩ := ih (by omega) (by omega) (by omega) (m := m + 1)
      refine ⟨m', ?_, by omega, hle', hk, fun x hx hx' => ?_⟩
      · rw [if_pos ⟨hlt, by omega⟩]
        exact hm'
      · by_cases hxm : x = m
        · rw [hxm]
          exact hlt
        · exact hall x (by omega) hx'
    · refine ⟨m, ?_, Int.le_refl m, hmp, BitVec.not_lt.1 hlt, fun x hx hx' => by omega⟩
      rw [if_neg fun h => hlt h.1]
      rfl

/-- From above down to the first cell that is not greater than `k`; there is one at `p`. -/
theorem scanDown_stops (hn : n < c.size) (hpn : p ≤ n) (hip : i ≤ p) (h0 : 0 ≤ i) (hp : c.get p ≤ k)
    (hfuel : n - p < fuel) :
    ∃ n', scanDown c k i fuel n = some n' ∧ n' ≤ n ∧ p ≤ n' ∧ c.get n' ≤ k ∧ ∀ x, n' < x → x ≤ n → k < c.get x := by
  induction fuel generalizing n with
  | zero => omega
  | succ fuel ih =>
    rw [scanDown, read_eq (by omega) hn]
    show ∃ n', (if c.get n > k ∧ n > i then _ else _) = _ ∧ _
    by_cases hgt : c.get n > k
    · have hne : n ≠ p := by
        rintro rfl
        exact absurd hgt (BitVec.not_lt.2 hp)
      obtain ⟨n', hn', hle, hle', hk, hall⟩ := ih (by omega) (by omega) (by omega) (n := n - 1)
      refine ⟨n', ?_, by omega, hle', hk, fun x hx hx' => ?_⟩
      · rw [if_pos ⟨hgt, by omega⟩]
        exact hn'
      · by_cases hxn : x = n
        · rw [hxn]
          exact hgt
        · exact hall x hx (by omega)
    · refine ⟨n, ?_, Int.le_refl n, hpn, BitVec.not_lt.1 hgt, fun x hx hx' => by omega⟩
      rw [if_neg fun h => hgt h.1]
      rfl

end scan

/-! ## The loop -/

/-- What the rounds have brought about: the cells before `m` belong to the lower part, those behind `n` to the upper
one. -/
structure Parted (k : Word) (i j : Int) (a : Int → Word) (m n : Int) : Prop where
  below : ∀ x, i ≤ x → x < m → a x ≤ k
  above : ∀ x, n < x → x ≤ j → k ≤ a x

/-- The cells that stop the two scans of a round. -/
structure Stops (k : Word) (i j : Int) (a : Int → Word) (m n : Int) : Prop where
  up : ∃ p, m ≤ p ∧ p ≤ j ∧ k ≤ a p
  down : ∃ q, i ≤ q ∧ q ≤ n ∧ a q ≤ k

section loop

variable {k : Word} {i j m n : Int}

/-- The cells after an exchange. -/
def exchanged (a : Int → Word) (m n : Int) : Int → Word := Function.update (Function.update a m (a n)) n (a m)

theorem swapCells_eq {c : Cells} (h0 : 0 ≤ m) (hmn : m ≤ n) (hn : n < c.size) :
    swapCells c m n = some { c with get := exchanged c.get m n } := by
  rw [swapCells, read_eq h0 (by omega), read_eq (by omega) hn]
  show (c.write m (c.get n)).bind _ = _
  rw [write_eq _ h0 (by omega)]
  exact write_eq _ (by omega) hn

variable {a : Int → Word}

theorem exchanged_left : exchanged a m n m = a n := by
  by_cases h : m = n
  · rw [exchanged, h, Function.update_self]
  · rw [exchanged, Function.update_of_ne h, Function.update_self]

theorem exchanged_right : exchanged a m n n = a m := by rw [exchanged, Function.update_self]

theorem exchanged_other {x : Int} (hm : x ≠ m) (hn : x ≠ n) : exchanged a m n x = a x := by
  rw [exchanged, Function.update_of_ne hn, Function.update_of_ne hm]

/-- The scans widen the two parts. -/
theorem Parted.scanned {m' n' : Int} (h : Parted k i j a m n) (hup : ∀ x, m ≤ x → x < m' → a x < k)
    (hdown : ∀ x, n' < x → x ≤ n → k < a x) : Parted k i j a m' n' := by
  constructor
  · intro x hi hx
    by_cases hxm : x < m
    · exact h.below x hi hxm
    · exact BitVec.le_of_lt (hup x (by omega) hx)
  · intro x hx hj
    by_cases hxn : n < x
    · exact h.above x hxn hj
    · exact BitVec.le_of_lt (hdown x hx (by omega))

/-- The cells that are exchanged go to the part they belong to. -/
theorem Parted.exchange (h : Parted k i j a m n) (hmn : m ≤ n) (hm : k ≤ a m) (hn : a n ≤ k) :
    Parted k i j (exchanged a m n) (m + 1) (n - 1) := by
  constructor
  · intro x hi hx
    by_cases hxm : x = m
    · rw [hxm, exchanged_left]
      exact hn
    · rw [exchanged_other hxm (by omega)]
      exact h.below x hi (by omega)
  · intro x hx hj
    by_cases hxn : x = n
    · rw [hxn, exchanged_right]
      exact hm
    · rw [exchanged_other (by omega) hxn]
      exact h.above x (by omega) hj

/-- The exchanged cells stop the scans of the next round. -/
theorem stops_exchanged (hi : i ≤ m) (hmn : m + 1 ≤ n - 1) (hj : n ≤ j) (hm : k ≤ a m) (hn : a n ≤ k) :
    Stops k i j (exchanged a m n) (m + 1) (n - 1) := by
  constructor
  · refine ⟨n, by omega, hj, ?_⟩
    rw [exchanged_right]
    exact hm
  · refine ⟨m, hi, by omega, ?_⟩
    rw [exchanged_left]
    exact hn

/-- What the loop leaves behind. Where a cell stops both scans of its first round, both parts are shorter. -/
structure Divided (k : Word) (i j m n : Int) (c c' : Cells) (m' n' : Int) : Prop where
  size : c'.size = c.size
  within : Rearranged (Places i j) c.get c'.get
  parted : Parted k i j c'.get m' n'
  crossed : n' < m'
  up : m ≤ m'
  down : n' ≤ n
  shorter : ∀ p, m ≤ p → p ≤ n → c.get p = k → m < m' ∧ n' < n

/-- The fuel is that of the longer scan: with every round that goes on both ends come closer. -/
theorem divide_spec {c : Cells} {fuel : Nat} (h0 : 0 ≤ i) (hj : j < c.size) (him : i ≤ m) (hmn : m ≤ n) (hnj : n ≤ j)
    (hparted : Parted k i j c.get m n) (hstops : Stops k i j c.get m n) (hup : j - m < fuel) (hdown : n - i < fuel) :
    ∃ c' m' n', divide k i j fuel c m n = some (c', m', n') ∧ Divided k i j m n c c' m' n' := by
  induction fuel generalizing c m n with
  | zero => omega
  | succ fuel ih =>
    obtain ⟨p, hmp, hpj, hp⟩ := hstops.up
    obtain ⟨q, hiq, hqn, hq⟩ := hstops.down
    obtain ⟨m', hscan, hm, hm', hkm, hless⟩ :=
      scanUp_stops (by omega) hmp hpj hj hp (show p - m < (fuel + 1 : Nat) by omega)
    obtain ⟨n', hscan', hn, hn', hkn, hmore⟩ :=
      scanDown_stops (by omega) hqn hiq h0 hq (show n - q < (fuel + 1 : Nat) by omega)
    have hscanned := hparted.scanned hless hmore
    -- a cell that equals `k` is passed by neither scan
    have hmeet : ∀ x, m ≤ x → x ≤ n → c.get x = k → m' ≤ x ∧ x ≤ n' := by
      intro x hx hx' hxk
      constructor
      · by_contra hlt
        exact absurd (hless x hx (by omega)) (by rw [hxk]; exact BitVec.lt_irrefl k)
      · by_contra hgt
        exact absurd (hmore x (by omega) hx') (by rw [hxk]; exact BitVec.lt_irrefl k)
    rw [divide, hscan]
    show ∃ c' m'' n'', (scanDown c k i (fuel + 1) n).bind _ = _ ∧ _
    rw [hscan']
    show ∃ c' m'' n'', (if m' ≤ n' then _ else _) = _ ∧ _
    by_cases hle : m' ≤ n'
    · rw [if_pos hle, swapCells_eq (by omega) hle (by omega)]
      have hswap : Rearranged (Places i j) c.get (exchanged c.get m' n') :=
        Rearranged.swap ⟨by omega, by omega⟩ ⟨by omega, by omega⟩
      have hparted' := hscanned.exchange hle hkm hkn
      show ∃ c' m'' n'', (if m' + 1 ≤ n' - 1 then _ else _) = _ ∧ _
      by_cases hon : m' + 1 ≤ n' - 1
      · obtain ⟨c', m'', n'', hrun, hd⟩ := ih (c := { c with get := exchanged c.get m' n' }) hj (by omega) hon
          (by omega) hparted' (stops_exchanged (by omega) hon (by omega) hkm hkn) (by omega) (by omega)
        have hup' := hd.up
        have hdown' := hd.down
        refine ⟨c', m'', n'', ?_, hd.size, hswap.trans hd.within, hd.parted, hd.crossed, by omega, by omega,
          fun _ _ _ _ => ⟨by omega, by omega⟩⟩
        rw [if_pos hon]
        exact hrun
      · refine ⟨_, m' + 1, n' - 1, if_neg hon, rfl, hswap, hparted', by omega, by omega, by omega,
          fun _ _ _ _ => ⟨by omega, by omega⟩⟩
    · refine ⟨c, m', n', if_neg hle, rfl, Rearranged.refl _ _, hscanned, by omega, hm, hn, fun x hx hx' hxk => ?_⟩
      have hx := hmeet x hx hx' hxk
      omega

end loop

/-! ## The sort -/

/-- A part has been put in order. -/
structure Ordered (i j : Int) (c c' : Cells) : Prop where
  size : c'.size = c.size
  within : Rearranged (Places i j) c.get c'.get
  sorted : SortedOn i j c'.get

/-- A part of one cell is in order as it is. -/
theorem Ordered.refl {i j : Int} (c : Cells) (h : j ≤ i) : Ordered i j c c := by
  refine ⟨rfl, Rearranged.refl _ _, fun x y hx hxy hy => ?_⟩
  rw [show x = y by omega]
  exact BitVec.le_refl _

/-- The two parts in order make the whole one in order, since every cell of the one is at most `k`, every cell of the
other at least `k`, and those between them are both. -/
theorem Divided.ordered {k : Word} {i j m' n' : Int} {c c₁ c₂ c₃ : Cells} (hd : Divided k i j i j c c₁ m' n')
    (h : Ordered m' j c₁ c₂) (h' : Ordered i n' c₂ c₃) : Ordered i j c c₃ := by
  have hcrossed := hd.crossed
  have hup := hd.up
  have hdown := hd.down
  have hin : Rearranged (Places i j) c₁.get c₂.get := h.within.mono fun x hx => ⟨Int.le_trans hup hx.1, hx.2⟩
  have hin' : Rearranged (Places i j) c₂.get c₃.get := h'.within.mono fun x hx => ⟨hx.1, Int.le_trans hx.2 hdown⟩
  have hlow : ∀ x, i ≤ x → x < m' → c₃.get x ≤ k := by
    intro x hi hx
    have hlow₂ : ∀ y, i ≤ y → y < m' → c₂.get y ≤ k := by
      intro y hiy hy
      rw [h.within.outside fun hmem => absurd hmem.1 (by omega)]
      exact hd.parted.below y hiy hy
    by_cases hxn : x ≤ n'
    · exact h'.within.forall_mem (P := (· ≤ k)) (fun y hy => hlow₂ y hy.1 (by have := hy.2; omega)) x ⟨hi, hxn⟩
    · rw [h'.within.outside fun hmem => hxn hmem.2]
      exact hlow₂ x hi hx
  have hhigh : ∀ x, n' < x → x ≤ j → k ≤ c₃.get x := by
    intro x hx hj
    rw [h'.within.outside fun hmem => absurd hmem.2 (by omega)]
    by_cases hxm : m' ≤ x
    · exact h.within.forall_mem (P := (k ≤ ·)) (fun y hy => hd.parted.above y (by have := hy.1; omega) hy.2) x ⟨hxm, hj⟩
    · rw [h.within.outside fun hmem => hxm hmem.1]
      exact hd.parted.above x hx hj
  refine ⟨by rw [h'.size, h.size, hd.size], (hd.within.trans hin).trans hin', fun x y hx hxy hy => ?_⟩
  by_cases hyn : y ≤ n'
  · exact h'.sorted x y hx hxy hyn
  · by_cases hxm : m' ≤ x
    · rw [h'.within.outside fun hmem => absurd hmem.2 (by omega),
        h'.within.outside fun hmem => hyn hmem.2]
      exact h.sorted x y hxm hxy hy
    · exact BitVec.le_trans (hlow x hx (by omega)) (hhigh y (by omega) hy)

theorem quick_spec {c : Cells} {i j : Int} {fuel : Nat} (h0 : 0 ≤ i) (hij : i ≤ j) (hj : j < c.size)
    (hfuel : j - i < fuel) : ∃ c', quick fuel c i j = some c' ∧ Ordered i j c c' := by
  induction fuel generalizing c i j with
  | zero => omega
  | succ fuel ih =>
    have hmid : (i + j).tdiv 2 = (i + j) / 2 := Int.tdiv_eq_ediv_of_nonneg (by omega)
    have hk : Parted (c.get ((i + j) / 2)) i j c.get i j :=
      ⟨fun x hi hx => absurd hi (by omega), fun x hx hxj => absurd hxj (by omega)⟩
    have hstops : Stops (c.get ((i + j) / 2)) i j c.get i j :=
      ⟨⟨(i + j) / 2, by omega, by omega, BitVec.le_refl _⟩, ⟨(i + j) / 2, by omega, by omega, BitVec.le_refl _⟩⟩
    obtain ⟨c₁, m, n, hrun, hd⟩ :=
      divide_spec h0 hj (Int.le_refl i) hij (Int.le_refl j) hk hstops
        (show j - i < (fuel + 1 : Nat) by omega) (by omega)
    obtain ⟨hm, hn⟩ := hd.shorter ((i + j) / 2) (by omega) (by omega) rfl
    have hsize := hd.size
    have hright : ∃ c₂, (if m < j then quick fuel c₁ m j else some c₁) = some c₂ ∧ Ordered m j c₁ c₂ := by
      by_cases hmj : m < j
      · rw [if_pos hmj]
        exact ih (by omega) (by omega) (by omega) (by omega)
      · exact ⟨c₁, if_neg hmj, Ordered.refl c₁ (by omega)⟩
    obtain ⟨c₂, hrun₂, h₂⟩ := hright
    have hsize₂ := h₂.size
    have hleft : ∃ c₃, (if n > i then quick fuel c₂ i n else some c₂) = some c₃ ∧ Ordered i n c₂ c₃ := by
      by_cases hni : n > i
      · rw [if_pos hni]
        exact ih h0 (by omega) (by omega) (by omega)
      · exact ⟨c₂, if_neg hni, Ordered.refl c₂ (by omega)⟩
    obtain ⟨c₃, hrun₃, h₃⟩ := hleft
    refine ⟨c₃, ?_, hd.ordered h₂ h₃⟩
    rw [quick, hmid, read_eq (by omega) (by omega)]
    show (divide _ i j (fuel + 1) c i j).bind _ = _
    rw [hrun]
    show (if m < j then quick fuel c₁ m j else some c₁).bind _ = _
    rw [hrun₂]
    exact hrun₃

/-- The samples of a channel. -/
def samples (ptrADCbuf : Nat → Word) (index : Nat) : List Word :=
  (List.range maxAdbufevery).map fun i => ptrADCbuf (i * aiMaxCnt + index)

/-- The places of `ADC_Tmp`. -/
def tmpPlaces : List Int := (List.range maxAdbufevery).map Nat.cast

theorem mem_tmpPlaces (x : Int) : x ∈ tmpPlaces ↔ x ∈ Places 0 19 := by
  rw [tmpPlaces, List.mem_map]
  constructor
  · rintro ⟨n, hn, rfl⟩
    have hlt : n < 20 := List.mem_range.1 hn
    exact ⟨by omega, by omega⟩
  · rintro ⟨h0, h19⟩
    refine ⟨x.toNat, List.mem_range.2 ?_, by omega⟩
    show x.toNat < 20
    omega

theorem samples_eq (ptrADCbuf : Nat → Word) (index : Nat) :
    samples ptrADCbuf index = tmpPlaces.map (adcTmp ptrADCbuf index).get := by
  rw [tmpPlaces, List.map_map]
  rfl

/-- Three places with a property are three of all. -/
theorem three_le_countP {a : Int → Word} {p : Word → Bool} {l : List Int} (hl : l.Sublist tmpPlaces) (h3 : l.length = 3)
    (hp : ∀ x ∈ l, p (a x) = true) : 3 ≤ (tmpPlaces.map a).countP p := by
  have hall : (l.map a).countP p = (l.map a).length := by
    rw [List.countP_eq_length]
    simpa using hp
  rw [List.length_map, h3] at hall
  rw [← hall]
  exact (hl.map a).countP_le

/-- Where at most two cells are below `lo` and at most two above `hi`, those that are left without two on either side
are neither. -/
theorem middle_between {a : Int → Word} {lo hi : Word} (hsorted : SortedOn 0 19 a)
    (hlo : (tmpPlaces.map a).countP (· < lo) ≤ 2) (hhi : (tmpPlaces.map a).countP (hi < ·) ≤ 2) {x : Int}
    (hx : 2 ≤ x) (hx' : x < 18) : lo ≤ a x ∧ a x ≤ hi := by
  constructor
  · by_contra hlt
    have h3 := three_le_countP (a := a) (p := (· < lo)) (l := [0, 1, 2]) (by decide) rfl fun y hy => by
      have hy' : 0 ≤ y ∧ y ≤ 2 := by
        simp only [List.mem_cons, List.not_mem_nil, or_false] at hy
        omega
      have hle := hsorted y x hy'.1 (by omega) (by omega)
      refine decide_eq_true ?_
      simp only [BitVec.lt_def, BitVec.le_def] at hle hlt ⊢
      omega
    omega
  · by_contra hgt
    have h3 := three_le_countP (a := a) (p := (hi < ·)) (l := [17, 18, 19]) (by decide) rfl fun y hy => by
      have hy' : 17 ≤ y ∧ y ≤ 19 := by
        simp only [List.mem_cons, List.not_mem_nil, or_false] at hy
        omega
      have hle := hsorted x y (by omega) (by omega) hy'.2
      refine decide_eq_true ?_
      simp only [BitVec.lt_def, BitVec.le_def] at hle hgt ⊢
      omega
    omega

/-- Sixteen values of twelve bits have a sum of sixteen bits. -/
theorem sum_between {g : Nat → Word} {lo hi : Word} (h12 : ∀ i < 16, (g i).toNat < 4096)
    (hg : ∀ i < 16, lo ≤ g i ∧ g i ≤ hi) :
    16 * lo.toNat ≤ ((List.range 16).foldl (fun sum i => sum + g i) 0).toNat ∧
      ((List.range 16).foldl (fun sum i => sum + g i) 0).toNat ≤ 16 * hi.toNat := by
  have hinv : ∀ n ≤ 16, n * lo.toNat ≤ ((List.range n).foldl (fun sum i => sum + g i) 0).toNat ∧
      ((List.range n).foldl (fun sum i => sum + g i) 0).toNat ≤ n * hi.toNat ∧
      ((List.range n).foldl (fun sum i => sum + g i) 0).toNat ≤ n * 4095 := by
    intro n hn
    refine foldl_range_inv (fun k (sum : Word) => k * lo.toNat ≤ sum.toNat ∧ sum.toNat ≤ k * hi.toNat ∧
      sum.toNat ≤ k * 4095) (by simp) fun k sum hk ih => ?_
    have hlo : lo.toNat ≤ (g k).toNat := BitVec.le_def.1 (hg k (by omega)).1
    have hhi : (g k).toNat ≤ hi.toNat := BitVec.le_def.1 (hg k (by omega)).2
    have hlt := h12 k (by omega)
    rw [BitVec.toNat_add, Nat.mod_eq_of_lt (by omega), Nat.add_mul, Nat.add_mul, Nat.add_mul]
    omega
  exact ⟨(hinv 16 (Nat.le_refl 16)).1, (hinv 16 (Nat.le_refl 16)).2.1⟩

/-- Two samples that failed and two that are out of range, among sixteen around 2000. -/
def outliers (i : Nat) : Word := if i < 10 then 0 else if i < 20 then 4095 else BitVec.ofNat 16 (1990 + i / 5)

end WM.Proof
