import Mathlib.Data.List.FinRange
import Mathlib.Logic.Function.Basic
import Mathlib.Tactic.Common

/-!
# A linked list in a pool of blocks

A pool has `n` blocks with a link and a value each. The list starts at `head`; the blocks that are not on it
are free. `Pool.Holds p bs xs` says that the links lead through the blocks `bs`, that these hold `xs`, and
that the blocks of the list and the free ones are all blocks, each once: nothing is lost. Taking a block
(`Holds.push`), the search that keeps its predecessor and unlinks (`Holds.delete`) and a walk to the end of the
list (`Holds.fold`) do on `xs` what they are meant to.
-/

namespace WM

/-- The first of at most `k` elements that satisfies `q` is taken out. -/
def cutFirst {α : Type*} (q : α → Bool) : Nat → List α → Option (List α)
  | 0, _ => none
  | _, [] => none
  | k + 1, x :: xs => if q x then some xs else (cutFirst q k xs).map (x :: ·)

structure Pool (n : Nat) (α : Type*) where
  next : Fin n → Option (Fin n)
  data : Fin n → α
  head : Option (Fin n)
  free : List (Fin n)

namespace Pool

variable {n : Nat} {α β : Type*}

/-- No block is taken. -/
def init (x : α) : Pool n α := ⟨fun _ => none, fun _ => x, none, List.finRange n⟩

/-- A block is taken and becomes the first of the list; `none` if there is no block. -/
def push (x : α) (p : Pool n α) : Option (Pool n α) :=
  match p.free with
  | [] => none
  | b :: fs => some ⟨Function.update p.next b p.head, Function.update p.data b x, some b, fs⟩

/-- The search for a block, with the one before it: at most `k` blocks are looked at. -/
def search (q : α → Bool) (p : Pool n α) : Nat → Option (Fin n) → Fin n → Option (Option (Fin n) × Fin n)
  | 0, _, _ => none
  | k + 1, prev, b =>
    if q (p.data b) then some (prev, b)
    else
      match p.next b with
      | some c => search q p k (some b) c
      | none => none

/-- Block `b` is unlinked behind `prev`, or at the head, and freed. -/
def unlink (prev : Option (Fin n)) (b : Fin n) (p : Pool n α) : Pool n α :=
  match prev with
  | none => { p with head := p.next b, free := b :: p.free }
  | some a => { p with next := Function.update p.next a (p.next b), free := b :: p.free }

def delete (q : α → Bool) (k : Nat) (p : Pool n α) : Option (Pool n α) :=
  match p.head with
  | none => none
  | some b => (p.search q k none b).map fun r => p.unlink r.1 r.2

/-- The walk along the links; `none` if the fuel runs out before the end. -/
def fold (f : β → α → β) (p : Pool n α) : Nat → Option (Fin n) → β → Option β
  | _, none, y => some y
  | 0, some _, _ => none
  | k + 1, some b, y => fold f p k (p.next b) (f y (p.data b))

/-- The links lead from `b` through the blocks to the end. -/
def Path (next : Fin n → Option (Fin n)) : Option (Fin n) → List (Fin n) → Prop
  | p, [] => p = none
  | p, b :: bs => p = some b ∧ Path next (next b) bs

/-- The pool's list is `xs`, in the blocks `bs`; every block is on the list or free, and only once. -/
structure Holds (p : Pool n α) (bs : List (Fin n)) (xs : List α) : Prop where
  path : Path p.next p.head bs
  data : bs.map p.data = xs
  blocks : (bs ++ p.free).Perm (List.finRange n)

/-! ## Paths -/

theorem Path.congr {next next' : Fin n → Option (Fin n)} {p : Option (Fin n)} {bs : List (Fin n)}
    (h : Path next p bs) (he : ∀ b ∈ bs, next' b = next b) : Path next' p bs := by
  induction bs generalizing p with
  | nil => exact h
  | cons b bs ih =>
    refine ⟨h.1, ?_⟩
    rw [he b List.mem_cons_self]
    exact ih h.2 fun c hc => he c (List.mem_cons_of_mem _ hc)

/-- Block `b` behind `a` is skipped. -/
theorem Path.splice {next : Fin n → Option (Fin n)} {p : Option (Fin n)} {as bs : List (Fin n)} {a b : Fin n}
    (h : Path next p (as ++ a :: b :: bs)) (hd : (as ++ a :: b :: bs).Nodup) :
    Path (Function.update next a (next b)) p (as ++ a :: bs) := by
  induction as generalizing p with
  | nil =>
    obtain ⟨hp, -, hbs⟩ := h
    refine ⟨hp, ?_⟩
    rw [Function.update_self]
    refine hbs.congr fun c hc => Function.update_of_ne (fun he => ?_) _ _
    subst he
    exact (List.nodup_cons.mp hd).1 (List.mem_cons_of_mem _ hc)
  | cons c as ih =>
    obtain ⟨hc, hd⟩ := List.nodup_cons.mp hd
    have hne : c ≠ a := fun he => hc (by rw [he]; simp)
    refine ⟨h.1, ?_⟩
    rw [Function.update_of_ne hne]
    exact ih h.2 hd

/-- A search finds the first block that fits, with the one before it. -/
theorem search_spec (q : α → Bool) (p : Pool n α) (k : Nat) (prev : Option (Fin n)) (b : Fin n)
    (bs : List (Fin n)) (h : Path p.next (some b) (b :: bs)) :
    (p.search q k prev b = none ∧ cutFirst q k ((b :: bs).map p.data) = none) ∨
    ∃ as c cs, b :: bs = as ++ c :: cs ∧ p.search q k prev b = some (as.getLast?.or prev, c) ∧
      cutFirst q k ((b :: bs).map p.data) = some ((as ++ cs).map p.data) := by
  induction k generalizing prev b bs with
  | zero => exact .inl ⟨rfl, rfl⟩
  | succ k ih =>
    unfold search
    rw [List.map_cons, cutFirst]
    cases hq : q (p.data b) with
    | true => exact .inr ⟨[], b, bs, rfl, rfl, rfl⟩
    | false =>
      simp only [Bool.false_eq_true, ↓reduceIte]
      cases bs with
      | nil =>
        rw [show p.next b = none from h.2]
        refine .inl ⟨rfl, ?_⟩
        cases k <;> rfl
      | cons c cs =>
        obtain ⟨hc, hcs⟩ := h.2
        rw [hc]
        rcases ih (some b) c cs ⟨rfl, hcs⟩ with ⟨hs, hx⟩ | ⟨as, d, ds, hl, hs, hx⟩
        · exact .inl ⟨hs, by rw [hx]; rfl⟩
        · refine .inr ⟨b :: as, d, ds, by rw [hl]; rfl, hs.trans ?_, by rw [hx]; rfl⟩
          cases as with
          | nil => rfl
          | cons a as => rw [List.getLast?_cons_cons, List.getLast?_cons]; rfl

/-! ## Operations -/

namespace Holds

variable {p : Pool n α} {bs : List (Fin n)} {xs : List α}

theorem init (x : α) : Holds (Pool.init x : Pool n α) [] [] :=
  ⟨rfl, rfl, List.Perm.refl _⟩

theorem nodup (h : Holds p bs xs) : (bs ++ p.free).Nodup :=
  h.blocks.nodup_iff.mpr (List.nodup_finRange n)

/-- Every block is on the list or free. -/
theorem length (h : Holds p bs xs) : xs.length + p.free.length = n := by
  have hl := h.blocks.length_eq
  rw [List.length_append, List.length_finRange] at hl
  rw [← h.data, List.length_map]
  exact hl

/-- A block is taken as long as the list has fewer than `n` elements. -/
theorem push (h : Holds p bs xs) (x : α) (hlt : xs.length < n) :
    ∃ p' b, p.push x = some p' ∧ Holds p' (b :: bs) (x :: xs) := by
  have hlen := h.length
  obtain ⟨next, data, head, free⟩ := p
  cases free with
  | nil => exact absurd hlen (by simp only [List.length_nil]; omega)
  | cons b fs =>
    have hnd := h.nodup
    have hb : ∀ c ∈ bs, c ≠ b := fun c hc he => by
      subst he
      exact List.disjoint_of_nodup_append hnd hc List.mem_cons_self
    refine ⟨_, b, rfl, ⟨rfl, ?_⟩, ?_, ?_⟩
    · dsimp only
      rw [Function.update_self]
      exact h.path.congr fun c hc => Function.update_of_ne (hb c hc) _ _
    · dsimp only
      rw [List.map_cons, Function.update_self, ← h.data]
      refine congrArg (x :: ·) (List.map_congr_left fun c hc => ?_)
      exact Function.update_of_ne (hb c hc) _ _
    · exact List.perm_middle.symm.trans h.blocks

/-- Block `c` behind the blocks `as` is unlinked. -/
theorem unlink {as cs : List (Fin n)} {c : Fin n} (h : Holds p (as ++ c :: cs) xs) :
    Holds (p.unlink as.getLast? c) (as ++ cs) ((as ++ cs).map p.data) := by
  have hnd := (List.nodup_append.mp h.nodup).1
  have hblocks : ((as ++ cs) ++ c :: p.free).Perm (List.finRange n) := by
    refine List.Perm.trans ?_ h.blocks
    rw [List.append_assoc, List.append_assoc, List.cons_append]
    exact List.Perm.append_left as List.perm_middle
  rcases List.eq_nil_or_concat as with rfl | ⟨as, a, rfl⟩
  · exact ⟨h.path.2, rfl, hblocks⟩
  · have hlast : (as.concat a).getLast? = some a := by rw [List.concat_eq_append, List.getLast?_concat]
    have hpath := h.path
    rw [List.concat_eq_append, List.append_assoc, List.singleton_append] at hnd hpath
    rw [hlast]
    refine ⟨?_, rfl, hblocks⟩
    rw [List.concat_eq_append, List.append_assoc, List.singleton_append]
    exact hpath.splice hnd

/-- The search takes out what `cutFirst` takes out of the list. -/
theorem delete (h : Holds p bs xs) (q : α → Bool) (k : Nat) :
    (p.delete q k = none ∧ cutFirst q k xs = none) ∨
    ∃ p' bs' xs', p.delete q k = some p' ∧ cutFirst q k xs = some xs' ∧ Holds p' bs' xs' := by
  cases bs with
  | nil =>
    refine .inl ⟨?_, ?_⟩
    · unfold Pool.delete
      rw [show p.head = none from h.path]
    · rw [← h.data]
      cases k <;> rfl
  | cons b bs =>
    have hhead : p.head = some b := h.path.1
    unfold Pool.delete
    rw [hhead]
    dsimp only
    rcases search_spec q p k none b bs ⟨rfl, h.path.2⟩ with ⟨hs, hx⟩ | ⟨as, c, cs, hl, hs, hx⟩
    · rw [h.data] at hx
      exact .inl ⟨by rw [hs]; rfl, hx⟩
    · rw [h.data] at hx
      rw [hl] at h
      refine .inr ⟨_, as ++ cs, _, ?_, hx, h.unlink⟩
      rw [hs, Option.or_none]
      rfl

/-- The walk ends, and folds the list. -/
theorem fold (h : Holds p bs xs) (f : β → α → β) (y : β) : p.fold f n p.head y = some (xs.foldl f y) := by
  have hwalk : ∀ (bs : List (Fin n)) (b : Option (Fin n)) (k : Nat) (y : β), Path p.next b bs → bs.length ≤ k →
      p.fold f k b y = some ((bs.map p.data).foldl f y) := by
    intro bs
    induction bs with
    | nil =>
      intro b k y hp _
      rw [show b = none from hp]
      cases k <;> rfl
    | cons c cs ih =>
      intro b k y hp hk
      obtain ⟨rfl, hcs⟩ := hp
      cases k with
      | zero => exact absurd hk (Nat.not_succ_le_zero _)
      | succ k => exact ih (p.next c) k _ hcs (Nat.le_of_succ_le_succ hk)
  have hlen := h.length
  rw [← h.data] at hlen ⊢
  rw [List.length_map] at hlen
  exact hwalk bs p.head n y h.path (by omega)

end Holds

end Pool

end WM
