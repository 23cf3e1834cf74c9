import WaterMaker.Spec.AlarmRun

/-!
# The chain in memory

`Chain.Keeps c l` says that the memory `c` holds the list `l` of standing alarms with its counters. The functions
on the memory succeed and do on it what `WM.Impl.nodeAppend` and `WM.Impl.nodeDelete` do on the list: a node
is found a block as long as fewer than 23 alarms stand (`Keeps.nodeAppend`), and a node that is on the list is
found within `total_cnt` steps and its block freed (`Keeps.nodeDelete`).
-/

namespace WM.Proof

open WM WM.Impl WM.Spec

/-! ## The list -/

theorem levelCnt_cons (p : Nat → Bool) (x : AlarmNode) (l : List AlarmNode) :
    levelCnt p (x :: l) = levelCnt p l + if p (x.alarmId / 256 % 4) then 1 else 0 := List.countP_cons ..

/-- Every node has one level. -/
theorem levelCnt_sum (l : List AlarmNode) :
    levelCnt (· == 0) l + levelCnt (· == 1) l + levelCnt (fun l => l != 0 && l != 1) l = l.length := by
  induction l with
  | nil => rfl
  | cons x l ih =>
    simp only [levelCnt_cons, List.length_cons]
    rcases Nat.lt_or_ge (x.alarmId / 256 % 4) 2 with hlt | hge
    · have : x.alarmId / 256 % 4 = 0 ∨ x.alarmId / 256 % 4 = 1 := by omega
      rcases this with h | h <;> simp only [h] <;> simp <;> omega
    · have h0 : (x.alarmId / 256 % 4 == 0) = false := beq_false_of_ne (by omega)
      have h1 : (x.alarmId / 256 % 4 == 1) = false := beq_false_of_ne (by omega)
      have h2 : (x.alarmId / 256 % 4 != 0 && x.alarmId / 256 % 4 != 1) = true := by rw [bne, bne, h0, h1]; rfl
      simp only [h0, h1, h2, Bool.false_eq_true, ↓reduceIte]
      omega

/-- A search that may look at the whole list takes the node out. -/
theorem unlink_of_mem {id : Nat} {l : List AlarmNode} (hid : id ∈ l.map (·.alarmId)) {n : Nat} (h : l.length ≤ n) :
    unlink id n l = some (l.eraseP fun x => x.alarmId == id) := by
  induction l generalizing n with
  | nil => exact absurd hid List.not_mem_nil
  | cons x l ih =>
    cases n with
    | zero => exact absurd h (Nat.not_succ_le_zero _)
    | succ n =>
      unfold unlink
      by_cases hx : x.alarmId = id
      · rw [if_pos hx, List.eraseP_cons, beq_iff_eq.mpr hx]
        rfl
      · have hmem := (List.mem_cons.mp hid).resolve_left fun he => hx he.symm
        rw [if_neg hx, ih hmem (Nat.le_of_succ_le_succ h), List.eraseP_cons, beq_false_of_ne hx]
        rfl

theorem unlink_eq_cutFirst (id : Nat) (n : Nat) (l : List AlarmNode) :
    unlink id n l = cutFirst (fun x => x.alarmId == id) n l := by
  induction n generalizing l with
  | zero => rfl
  | succ n ih =>
    cases l with
    | nil => rfl
    | cons x l =>
      unfold unlink cutFirst
      rw [ih]
      simp only [beq_iff_eq]

/-! ## The memory -/

theorem total_cntOf (w : Bool) (l : List AlarmNode) : (cntOf w l).total = l.length + w.toNat := by
  have := levelCnt_sum l
  unfold AlarmCnt.total cntOf
  dsimp only
  omega

/-- The walk counts every node. -/
theorem foldl_countNode (l : List AlarmNode) (c : AlarmCnt) :
    l.foldl Chain.countNode c = ⟨c.critical + levelCnt (· == 0) l, c.major + levelCnt (· == 1) l,
      c.mioor + levelCnt (fun l => l != 0 && l != 1) l⟩ := by
  induction l generalizing c with
  | nil => rfl
  | cons x l ih =>
    rw [List.foldl_cons, ih]
    unfold Chain.countNode
    simp only [levelCnt_cons]
    by_cases h0 : x.alarmId / 256 % 4 = 0
    · simp [h0]
      omega
    · by_cases h1 : x.alarmId / 256 % 4 = 1
      · simp [h1]
        omega
      · simp [h0, h1]
        omega

theorem keeps_chainInit : Keeps false Chain.chainInit [] := ⟨⟨[], Pool.Holds.init _⟩, rfl⟩

/-- The walk of `calc_alrarm_cnt` ends, with the counters of the list. -/
theorem keeps_calcAlrarmCnt (w : Bool) {c : Chain} {bs : List (Fin 23)} {l : List AlarmNode}
    (h : c.pool.Holds bs l) : ∃ c', Chain.calcAlrarmCnt w c = some c' ∧ Keeps w c' l := by
  refine ⟨{ c with cnt := cntOf w l }, ?_, ⟨bs, h⟩, rfl⟩
  unfold Chain.calcAlrarmCnt
  rw [h.fold, foldl_countNode]
  simp only [Option.map_some, Nat.zero_add]
  rfl

section keeps

variable {w : Bool} {c : Chain} {l : List AlarmNode}

theorem keeps_nodeAppend (h : Keeps w c l) (w' : Bool) (x : AlarmNode) (hlt : l.length < 23) :
    ∃ c', Chain.nodeAppend w' x c = some (true, c') ∧ Keeps w' c' (x :: l) := by
  obtain ⟨bs, hb⟩ := h.holds
  obtain ⟨p, b, hp, hh⟩ := hb.push x hlt
  obtain ⟨c', hc, hk⟩ := keeps_calcAlrarmCnt w' (c := { c with pool := p }) hh
  refine ⟨c', ?_, hk⟩
  unfold Chain.nodeAppend
  rw [hp]
  dsimp only
  rw [hc]
  rfl

theorem keeps_nodeDelete (h : Keeps w c l) (w' : Bool) {id : Nat} (hid : id ∈ l.map (·.alarmId)) :
    ∃ c', Chain.nodeDelete w' id c = some (true, c') ∧ Keeps w' c' (l.eraseP fun x => x.alarmId == id) := by
  obtain ⟨bs, hb⟩ := h.holds
  have hcut : cutFirst (fun x => x.alarmId == id) c.cnt.total l = some (l.eraseP fun x => x.alarmId == id) := by
    rw [← unlink_eq_cutFirst, h.cnt, total_cntOf, unlink_of_mem hid (Nat.le_add_right _ _)]
  rcases hb.delete (fun x => x.alarmId == id) c.cnt.total with ⟨-, hx⟩ | ⟨p, bs', xs', hp, hx, hh⟩
  · exact nomatch hx.symm.trans hcut
  · rw [Option.some.inj (hx.symm.trans hcut)] at hh
    obtain ⟨c', hc, hk⟩ := keeps_calcAlrarmCnt w' (c := { c with pool := p }) hh
    refine ⟨c', ?_, hk⟩
    unfold Chain.nodeDelete
    rw [hp]
    dsimp only
    rw [hc]
    rfl

end keeps

end WM.Proof
