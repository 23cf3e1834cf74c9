import WaterMaker.Framework.Debounce
import WaterMaker.Impl.Alarm
import Mathlib.Data.List.Nodup
import Mathlib.Data.List.Perm.Subperm

/-!
# The alarm board

What the alarms are kept for: every alarm has a slot, in which its condition is debounced (`Slot.turn`), a bit
and, while it stands, one node on the chain; its beginnings and ends are announced. `Board.turn` is one alarm's
turn. A turn keeps the four views of an alarm in agreement (`Consistent.turn`), and the slot is a debouncer
(`Slot.turn_debounced`).
-/

namespace WM.Spec

open WM.Impl

/-- `ALARM_TRIGER` and `ALARM_END`. -/
inductive Notice
  | triger | ended
  deriving DecidableEq

/-- The state and the counter of an alarm. -/
@[ext] structure Slot where
  state : AclFsm
  timeout : Nat
  deriving DecidableEq

namespace Slot

/-- The alarm stands. -/
def up (x : Slot) : Bool :=
  match x.state with
  | .active | .postactive => true
  | _ => false

/-- A condition is reported; the alarm may begin or end. -/
def turn (delay : Nat) (auto : Bool) (t : AclTrig) (x : Slot) : Slot × Option Notice :=
  match x.state, t with
  | .inactive, .triggered => (⟨.preactive, delay⟩, none)
  | .inactive, _ => (x, none)
  | .preactive, .triggered =>
    if x.timeout > 0 then (⟨.preactive, x.timeout - 1⟩, none) else (⟨.active, x.timeout⟩, some .triger)
  | .preactive, .cleared => (⟨.inactive, 0⟩, none)
  | .active, .triggered => (⟨.active, 0⟩, none)
  | .active, .cleared => (if auto then ⟨.postactive, delay⟩ else x, none)
  | .postactive, .cleared =>
    if x.timeout > 0 then (⟨.postactive, x.timeout - 1⟩, none) else (⟨.inactive, x.timeout⟩, some .ended)
  | .postactive, .triggered => (⟨.active, 0⟩, none)
  | .error, _ => (⟨.inactive, x.timeout⟩, none)
  | _, .hold => (x, none)

/-- An alarm begins if it did not stand, and ends if it did. -/
theorem turn_cases (delay : Nat) (auto : Bool) (t : AclTrig) (x : Slot) :
    ((x.turn delay auto t).2 = none ∧ (x.turn delay auto t).1.up = x.up) ∨
    (x.turn delay auto t = (⟨.active, x.timeout⟩, some .triger) ∧ x.up = false) ∨
    (x.turn delay auto t = (⟨.inactive, x.timeout⟩, some .ended) ∧ x.up = true) := by
  obtain ⟨state, timeout⟩ := x
  cases state with
  | inactive | error => cases t <;> exact .inl ⟨rfl, rfl⟩
  | preactive =>
    cases t with
    | cleared | hold => exact .inl ⟨rfl, rfl⟩
    | triggered =>
      simp only [turn]
      split
      · exact .inl ⟨rfl, rfl⟩
      · exact .inr (.inl ⟨rfl, rfl⟩)
  | active => cases t <;> cases auto <;> exact .inl ⟨rfl, rfl⟩
  | postactive =>
    cases t with
    | triggered | hold => exact .inl ⟨rfl, rfl⟩
    | cleared =>
      simp only [turn]
      split
      · exact .inl ⟨rfl, rfl⟩
      · exact .inr (.inr ⟨rfl, rfl⟩)

theorem turn_state (delay : Nat) (auto : Bool) (t : AclTrig) (x : Slot) :
    (x.turn delay auto t).1.state ≠ .error := by
  obtain ⟨state, timeout⟩ := x
  cases state <;> cases t <;> cases auto <;> simp only [turn] <;> (try split) <;> exact nofun

/-! ### Debouncing -/

def phase : AclFsm → Phase
  | .inactive | .error => .idle
  | .preactive => .arming
  | .active => .up
  | .postactive => .releasing

def reading : AclTrig → Reading
  | .triggered => .high
  | .cleared => .low
  | .hold => .keep

def debounce (x : Slot) : Debounce.State := ⟨phase x.state, x.timeout⟩

theorem output_debounce (x : Slot) : x.debounce.output = x.up := by
  obtain ⟨state, timeout⟩ := x
  cases state <;> rfl

/-- A slot is a debouncer. -/
theorem turn_debounced (delay : Nat) (auto : Bool) (t : AclTrig) {x : Slot} (h : x.state ≠ .error) :
    (x.turn delay auto t).1.debounce = Debounce.step ⟨delay, !auto⟩ x.debounce (reading t) := by
  obtain ⟨state, timeout⟩ := x
  cases state with
  | error => exact absurd rfl h
  | inactive => cases t <;> rfl
  | preactive =>
    cases t with
    | hold | cleared => rfl
    | triggered => exact apply_ite (fun r : Slot × Option Notice => r.1.debounce) _ _ _
  | postactive =>
    cases t with
    | hold | triggered => rfl
    | cleared => exact apply_ite (fun r : Slot × Option Notice => r.1.debounce) _ _ _
  | active =>
    cases t with
    | hold | triggered => rfl
    | cleared => cases auto <;> rfl

end Slot

/-! ## Announcements -/

/-- Beginnings and ends in turn, the first one a beginning; the newest stands first. -/
def Alternates : List Notice → Prop
  | [] => True
  | [n] => n = .triger
  | n :: m :: l => n ≠ m ∧ Alternates (m :: l)

theorem Alternates.triger {l : List Notice} (h : Alternates l) (hl : l.head? ≠ some .triger) :
    Alternates (.triger :: l) := by
  cases l with
  | nil => rfl
  | cons m l => exact ⟨fun he => hl (congrArg some he.symm), h⟩

theorem Alternates.ended {l : List Notice} (h : Alternates l) (hl : l.head? = some .triger) :
    Alternates (.ended :: l) := by
  cases l with
  | nil => exact nomatch hl
  | cons m l => exact ⟨fun he => Notice.noConfusion (he.trans (Option.some.inj hl)), h⟩

/-- What was announced of one alarm. -/
def said (a : Acl) (log : List (Acl × Notice)) : List Notice := (log.filter fun e => e.1 = a).map Prod.snd

theorem said_self (a : Acl) (n : Notice) (log : List (Acl × Notice)) : said a ((a, n) :: log) = n :: said a log := by
  simp [said]

theorem said_of_ne {a b : Acl} (h : b ≠ a) (n : Notice) (log : List (Acl × Notice)) :
    said a ((b, n) :: log) = said a log := by
  simp [said, h]

/-! ## The board -/

structure Board where
  slot : Acl → Slot
  bit : Acl → Bool
  chain : List AlarmNode
  log : List (Acl × Notice)

namespace Board

/-- The numbers on the chain. -/
def ids (b : Board) : List Nat := b.chain.map (·.alarmId)

/-- The alarm is to be removed: it is as good as over. -/
def drop (a : Acl) (b : Board) : Board := { b with slot := Function.update b.slot a ⟨.postactive, 0⟩ }

/-- The announcement of an alarm with its bit and its node. -/
def announce (a : Acl) (node : AlarmNode) (b : Board) : Option Notice → Board
  | none => b
  | some .triger =>
    { b with bit := Function.update b.bit a true, chain := node :: b.chain, log := (a, .triger) :: b.log }
  | some .ended =>
    { b with bit := Function.update b.bit a false, chain := b.chain.eraseP fun x => x.alarmId == a.logId
             log := (a, .ended) :: b.log }

/-- One alarm's turn. -/
def turn (a : Acl) (delay : Nat) (t : AclTrig) (node : AlarmNode) (b : Board) : Board :=
  let r := (b.slot a).turn delay a.autoReset t
  announce a node { b with slot := Function.update b.slot a r.1 } r.2

theorem slot_announce (a : Acl) (node : AlarmNode) (b : Board) (n : Option Notice) :
    (b.announce a node n).slot = b.slot := by
  rcases n with _ | (_ | _) <;> rfl

theorem slot_turn (a : Acl) (delay : Nat) (t : AclTrig) (node : AlarmNode) (b : Board) :
    (b.turn a delay t node).slot = Function.update b.slot a ((b.slot a).turn delay a.autoReset t).1 :=
  slot_announce ..

theorem said_turn (a : Acl) (delay : Nat) (t : AclTrig) (node : AlarmNode) (b : Board) :
    said a (b.turn a delay t node).log = ((b.slot a).turn delay a.autoReset t).2.toList ++ said a b.log := by
  unfold turn
  dsimp only
  rcases ((b.slot a).turn delay a.autoReset t).2 with _ | (_ | _)
  · rfl
  · exact said_self ..
  · exact said_self ..

/-- A turn concerns its own alarm. -/
theorem turn_of_ne {a c : Acl} (h : c ≠ a) (delay : Nat) (t : AclTrig) (node : AlarmNode) (b : Board) :
    (b.turn a delay t node).slot c = b.slot c ∧ (b.turn a delay t node).bit c = b.bit c ∧
      said c (b.turn a delay t node).log = said c b.log := by
  rw [slot_turn, Function.update_of_ne h]
  refine ⟨rfl, ?_⟩
  unfold turn
  dsimp only
  rcases ((b.slot a).turn delay a.autoReset t).2 with _ | (_ | _)
  · exact ⟨rfl, rfl⟩
  · exact ⟨Function.update_of_ne h _ _, said_of_ne h.symm _ _⟩
  · exact ⟨Function.update_of_ne h _ _, said_of_ne h.symm _ _⟩

/-- The views of one alarm agree: its slot, its bit, the numbers on the chain and what was announced of it. -/
structure Agree (a : Acl) (x : Slot) (on : Bool) (ids : List Nat) (l : List Notice) : Prop where
  state : x.state ≠ .error
  bit : on = x.up
  mem : on = true ↔ a.logId ∈ ids
  said : Alternates l
  last : on = true ↔ l.head? = some .triger

structure Consistent (b : Board) : Prop where
  agree : ∀ a, Agree a (b.slot a) (b.bit a) b.ids (said a b.log)
  nodup : b.ids.Nodup
  only : ∀ i ∈ b.ids, ∃ a : Acl, i = a.logId

namespace Consistent

variable {b b' : Board} {a : Acl}

/-- What concerns one alarm only leaves the others in agreement. -/
theorem update (h : Consistent b) (hself : Agree a (b'.slot a) (b'.bit a) b'.ids (said a b'.log))
    (hother : ∀ c, c ≠ a → b'.slot c = b.slot c ∧ b'.bit c = b.bit c ∧
      (c.logId ∈ b'.ids ↔ c.logId ∈ b.ids) ∧ said c b'.log = said c b.log)
    (hnodup : b'.ids.Nodup) (honly : ∀ i ∈ b'.ids, ∃ a : Acl, i = a.logId) : Consistent b' := by
  refine ⟨fun c => ?_, hnodup, honly⟩
  by_cases hc : c = a
  · subst hc
    exact hself
  · obtain ⟨hslot, hbit, hmem, hsaid⟩ := hother c hc
    have hag := h.agree c
    rw [hslot, hbit, hsaid]
    exact ⟨hag.state, hag.bit, hag.mem.trans hmem.symm, hag.said, hag.last⟩

/-- A slot may change as long as its alarm stands as before. -/
theorem slot (h : Consistent b) {x : Slot} (hx : x.state ≠ .error) (hup : x.up = (b.slot a).up) :
    Consistent { b with slot := Function.update b.slot a x } := by
  have hag := h.agree a
  refine h.update (a := a) ?_ (fun c hc => ⟨Function.update_of_ne hc _ _, rfl, Iff.rfl, rfl⟩) h.nodup h.only
  dsimp only
  rw [Function.update_self]
  exact ⟨hx, hag.bit.trans hup.symm, hag.mem, hag.said, hag.last⟩

theorem drop (h : Consistent b) (hup : (b.slot a).up = true) : Consistent (b.drop a) :=
  h.slot nofun hup.symm

theorem triger (h : Consistent b) {x : Slot} (hx : x.state ≠ .error) (hup : x.up = true)
    (hdown : (b.slot a).up = false) {node : AlarmNode} (hn : node.alarmId = a.logId) :
    Consistent (announce a node { b with slot := Function.update b.slot a x } (some .triger)) := by
  have hag := h.agree a
  have hbit : b.bit a ≠ true := by
    rw [hag.bit, hdown]
    exact Bool.false_ne_true
  have hids : (announce a node { b with slot := Function.update b.slot a x } (some .triger)).ids =
      a.logId :: b.ids := congrArg (· :: b.ids) hn
  refine h.update (a := a) ?_ (fun c hc => ?_) ?_ ?_
  · rw [hids]
    simp only [announce, Function.update_self, said_self]
    exact ⟨hx, hup.symm, iff_of_true rfl List.mem_cons_self,
      hag.said.triger fun hl => hbit (hag.last.mpr hl), iff_of_true rfl rfl⟩
  · rw [hids]
    refine ⟨Function.update_of_ne hc _ _, Function.update_of_ne hc _ _, ?_, said_of_ne hc.symm _ _⟩
    rw [List.mem_cons, or_iff_right fun he => hc (Acl.logId_inj.mp he)]
  · rw [hids]
    exact List.nodup_cons.mpr ⟨fun hm => hbit (hag.mem.mpr hm), h.nodup⟩
  · rw [hids]
    intro i hi
    rcases List.mem_cons.mp hi with rfl | hi
    · exact ⟨a, rfl⟩
    · exact h.only i hi

theorem ended (h : Consistent b) {x : Slot} (hx : x.state ≠ .error) (hup : x.up = false)
    (hstood : (b.slot a).up = true) (node : AlarmNode) :
    Consistent (announce a node { b with slot := Function.update b.slot a x } (some .ended)) := by
  have hag := h.agree a
  have hbit : b.bit a = true := hag.bit.trans hstood
  have hids : (announce a node { b with slot := Function.update b.slot a x } (some .ended)).ids =
      b.ids.erase a.logId := by
    unfold ids
    rw [List.erase_eq_eraseP', List.eraseP_map]
    rfl
  refine h.update (a := a) ?_ (fun c hc => ?_) ?_ ?_
  · rw [hids]
    simp only [announce, Function.update_self, said_self]
    refine ⟨hx, hup.symm, iff_of_false Bool.false_ne_true h.nodup.not_mem_erase,
      hag.said.ended (hag.last.mp hbit), iff_of_false Bool.false_ne_true nofun⟩
  · rw [hids]
    exact ⟨Function.update_of_ne hc _ _, Function.update_of_ne hc _ _,
      List.mem_erase_of_ne fun he => hc (Acl.logId_inj.mp he), said_of_ne hc.symm _ _⟩
  · rw [hids]
    exact h.nodup.erase _
  · rw [hids]
    exact fun i hi => h.only i (List.mem_of_mem_erase hi)

/-- A turn keeps the views in agreement. -/
theorem turn (h : Consistent b) (delay : Nat) (t : AclTrig) {node : AlarmNode} (hn : node.alarmId = a.logId) :
    Consistent (b.turn a delay t node) := by
  unfold Board.turn
  dsimp only
  rcases (b.slot a).turn_cases delay a.autoReset t with ⟨hr, hup⟩ | ⟨hr, hdown⟩ | ⟨hr, hstood⟩
  · rw [hr]
    exact h.slot ((b.slot a).turn_state delay a.autoReset t) hup
  · rw [hr]
    exact h.triger AclFsm.noConfusion rfl hdown hn
  · rw [hr]
    exact h.ended AclFsm.noConfusion rfl hstood node

/-- The chain has one node for every alarm that stands, and no other. -/
theorem count (h : Consistent b) (a : Acl) :
    b.chain.countP (fun x => x.alarmId == a.logId) = if b.bit a then 1 else 0 := by
  have hcount : b.ids.count a.logId = b.chain.countP fun x => x.alarmId == a.logId := by
    unfold ids
    rw [List.count, List.countP_map]
    rfl
  rw [← hcount]
  split
  · rename_i hbit
    exact List.count_eq_one_of_mem h.nodup ((h.agree a).mem.mp hbit)
  · rename_i hbit
    exact List.count_eq_zero_of_not_mem fun hm => hbit ((h.agree a).mem.mpr hm)

/-- There is room on the chain for an alarm that does not stand. -/
theorem room (h : Consistent b) (hdown : (b.slot a).up = false) : b.chain.length < 23 := by
  have hbit : b.bit a ≠ true := by
    rw [(h.agree a).bit, hdown]
    exact Bool.false_ne_true
  have hsub : a.logId :: b.ids ⊆ Acl.all.map Acl.logId := by
    intro i hi
    rcases List.mem_cons.mp hi with rfl | hi
    · exact List.mem_map_of_mem a.mem_all
    · obtain ⟨c, rfl⟩ := h.only i hi
      exact List.mem_map_of_mem c.mem_all
  have hnd : (a.logId :: b.ids).Nodup := List.nodup_cons.mpr ⟨fun hm => hbit ((h.agree a).mem.mpr hm), h.nodup⟩
  have hle := (List.subperm_of_subset hnd hsub).length_le
  rw [List.length_cons, ids, List.length_map, List.length_map] at hle
  exact hle

end Consistent

end Board

end WM.Spec
