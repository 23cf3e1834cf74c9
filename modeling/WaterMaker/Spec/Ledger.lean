import WaterMaker.Impl.Types

/-!
# The volume of a dispense

One thread meters a dispense and closes it (`Hand.call`), the other takes the closed dispense into the total
(`Hand.taken`). They share the hand-shake `ok`, the volume so far and the last volume that was not 0. The
books (`Ledger`) are kept beside them: the last volume of the dispense that is open, and the sum of the
closed ones. If a dispense is opened only after the last one was taken and closed only after it was metered
(`InOrder`), the total and what waits to be taken are the sum of the books (`Balanced.call`).
-/

namespace WM.Spec

open WM.Impl

/-- The hand-shake with the volume of the dispense and the last one that was not 0. -/
structure Hand where
  ok : OutOk
  cur : Nat
  last : Nat
  deriving DecidableEq

/-- What a call does with the dispense. -/
inductive Move
  | close
  /-- it is served, and cut off at its largest time -/
  | serve (ok : OutOk) (cut : Bool)
  | keep

/-- A call meters, if it does, and moves. -/
structure Call where
  metered : Option Nat
  move : Move

/-- A dispense is open. -/
def isOpen : OutOk → Bool
  | .send | .read => true
  | .idle | .out => false

namespace Hand

def meter (m : Option Nat) (h : Hand) : Hand :=
  match m with
  | none => h
  | some v => { h with cur := v, last := if v ≠ 0 then v else h.last }

/-- The dispense is handed over with its volume. -/
def close (h : Hand) : Hand :=
  if h.ok = .idle then h else if h.cur ≠ 0 then ⟨.out, 0, h.cur⟩ else { h with ok := .out }

def move (m : Move) (h : Hand) : Hand :=
  match m with
  | .close => h.close
  | .serve ok cut => if cut then close { h with ok := ok } else { h with ok := ok }
  | .keep => h

def call (c : Call) (h : Hand) : Hand := (h.meter c.metered).move c.move

/-- The other thread takes a dispense that was handed over. -/
def taken (h : Hand) : Hand := if h.ok = .out then { h with ok := .idle } else h

/-- What waits to be taken into the total. -/
def pending (h : Hand) : Nat := if h.ok = .out then h.last else 0

theorem close_close (h : Hand) : h.close.close = h.close := by
  unfold close
  split_ifs <;> simp_all

end Hand

/-- The books: the last volume of the open dispense that was not 0, and the sum over the closed ones. -/
structure Ledger where
  vol : Nat
  sum : Nat
  deriving DecidableEq

namespace Ledger

/-- The last volume of the dispense that was not 0, after the call. -/
def volume (c : Call) (h : Hand) (g : Ledger) : Nat :=
  let base := if isOpen h.ok then g.vol else 0
  match c.metered with
  | none => base
  | some v => if v ≠ 0 then v else base

/-- The call closes an open dispense. -/
def ends (c : Call) (h : Hand) : Bool :=
  match c.move with
  | .close => isOpen h.ok
  | .serve ok cut => cut && isOpen ok
  | .keep => false

/-- The call opens a dispense. -/
def opens (c : Call) (h : Hand) : Bool :=
  match c.move with
  | .serve ok _ => isOpen ok && !isOpen h.ok
  | _ => false

def book (c : Call) (h : Hand) (g : Ledger) : Ledger :=
  if ends c h then ⟨0, g.sum + g.volume c h⟩ else ⟨g.volume c h, g.sum⟩

end Ledger

/-- A call meters only a dispense that is read, and serves by opening or by leaving the hand-shake. -/
structure Call.Fits (c : Call) (h : Hand) : Prop where
  metered : h.ok ≠ .read → ∀ v, c.metered = some v → v = 0
  serve : ∀ ok cut, c.move = .serve ok cut → isOpen ok = true ∨ ok = h.ok

/-- A dispense is opened when no volume waits to be taken, and closed with a volume of its own, or when
there is none to be mistaken for it. -/
structure InOrder (c : Call) (h : Hand) (g : Ledger) : Prop where
  opened : Ledger.opens c h = true → h.ok = .out → h.last = 0
  closed : Ledger.ends c h = true → g.volume c h ≠ 0 ∨ h.last = 0

instance (c : Call) (h : Hand) (g : Ledger) : Decidable (InOrder c h g) :=
  decidable_of_iff ((Ledger.opens c h = true → h.ok = .out → h.last = 0) ∧
    (Ledger.ends c h = true → g.volume c h ≠ 0 ∨ h.last = 0)) ⟨fun h => ⟨h.1, h.2⟩, fun h => ⟨h.1, h.2⟩⟩

/-- The hand-shake agrees with the books, and the total `n` with their sum since it was `n₀`. -/
structure Balanced (n₀ n : Nat) (h : Hand) (g : Ledger) : Prop where
  shut : isOpen h.ok = false → h.cur = 0
  cur : isOpen h.ok = true → h.cur ≠ 0 → h.cur = g.vol
  last : isOpen h.ok = true → g.vol ≠ 0 → h.last = g.vol
  sum : n + h.pending = n₀ + g.sum

namespace Balanced

variable {n₀ n : Nat} {h : Hand} {g : Ledger} {c : Call}

theorem pending_of_open (ho : isOpen h.ok = true) : h.pending = 0 := by
  unfold Hand.pending
  split
  · rename_i hok
    rw [hok] at ho
    exact absurd ho Bool.false_ne_true
  · rfl

/-- Metering an open dispense keeps the books. -/
theorem meter_open (hb : Balanced n₀ n h g) (ho : isOpen h.ok = true) :
    Balanced n₀ n (h.meter c.metered) ⟨g.volume c h, g.sum⟩ := by
  have hok : (h.meter c.metered).ok = h.ok := by
    unfold Hand.meter
    split <;> rfl
  have hsum := hb.sum
  rw [pending_of_open ho] at hsum
  have hp : (h.meter c.metered).pending = 0 := pending_of_open (hok ▸ ho)
  refine ⟨fun hf => absurd (hf.symm.trans (hok ▸ ho)) Bool.false_ne_true, fun _ => ?_, fun _ => ?_, by rw [hp, hsum]⟩
  · unfold Hand.meter Ledger.volume
    rw [if_pos ho]
    cases c.metered with
    | none => exact hb.cur ho
    | some v =>
      intro hv
      exact (if_pos hv).symm
  · unfold Hand.meter Ledger.volume
    rw [if_pos ho]
    cases c.metered with
    | none => exact hb.last ho
    | some v =>
      dsimp only
      split
      · exact fun _ => rfl
      · exact hb.last ho

/-- Metering without a dispense meters nothing. -/
theorem meter_shut (hb : Balanced n₀ n h g) (hf : c.Fits h) (ho : isOpen h.ok = false) :
    h.meter c.metered = h ∧ g.volume c h = 0 := by
  have hread : h.ok ≠ .read := fun hr => by
    rw [hr] at ho
    exact absurd ho.symm Bool.false_ne_true
  have hzero := hb.shut ho
  obtain ⟨ok, cur, last⟩ := h
  unfold Hand.meter Ledger.volume
  rw [if_neg (by rw [ho]; exact Bool.false_ne_true)]
  cases hm : c.metered with
  | none => exact ⟨rfl, rfl⟩
  | some v =>
    have hv := hf.metered hread v hm
    dsimp only at hzero
    rw [hv, hzero]
    exact ⟨rfl, rfl⟩

/-- A dispense is closed with its volume, or with none. -/
theorem close_open (hb : Balanced n₀ n h g) (ho : isOpen h.ok = true) (hc : g.vol ≠ 0 ∨ h.last = 0) :
    Balanced n₀ n h.close ⟨0, g.sum + g.vol⟩ := by
  have hidle : h.ok ≠ .idle := fun hi => by
    rw [hi] at ho
    exact absurd ho Bool.false_ne_true
  have hsum := hb.sum
  rw [pending_of_open ho] at hsum
  unfold Hand.close
  rw [if_neg hidle]
  split
  · rename_i hcur
    refine ⟨fun _ => rfl, nofun, nofun, ?_⟩
    have := hb.cur ho hcur
    change n + h.cur = n₀ + (g.sum + g.vol)
    omega
  · rename_i hcur
    refine ⟨fun _ => not_not.mp hcur, nofun, nofun, ?_⟩
    change n + h.last = n₀ + (g.sum + g.vol)
    by_cases hv : g.vol = 0
    · have := hc.resolve_left (not_not.mpr hv)
      omega
    · have := hb.last ho hv
      omega

theorem close_shut (hb : Balanced n₀ n h g) (ho : isOpen h.ok = false) : h.close = h := by
  have hzero := hb.shut ho
  obtain ⟨ok, cur, last⟩ := h
  dsimp only at hzero
  subst hzero
  cases ok <;> first | rfl | exact absurd ho.symm Bool.false_ne_true

/-- Serving keeps a dispense open. -/
theorem serve_open (hb : Balanced n₀ n h g) (ho : isOpen h.ok = true) {ok : OutOk} (hok : isOpen ok = true) :
    Balanced n₀ n { h with ok := ok } g := by
  refine ⟨fun hz => absurd (hz.symm.trans hok) Bool.false_ne_true, fun _ => hb.cur ho, fun _ => hb.last ho, ?_⟩
  rw [pending_of_open hok, ← hb.sum, pending_of_open ho]

/-- What is closed is the volume after the call, or nothing. -/
theorem last_meter (hc : g.volume c h ≠ 0 ∨ h.last = 0) :
    g.volume c h ≠ 0 ∨ (h.meter c.metered).last = 0 := by
  by_cases hv : g.volume c h = 0
  · refine .inr ?_
    have hlast := hc.resolve_left (not_not.mpr hv)
    unfold Ledger.volume at hv
    unfold Hand.meter
    cases hm : c.metered with
    | none => exact hlast
    | some v =>
      rw [hm] at hv
      dsimp only at hv ⊢
      split at hv
      · rename_i hne
        exact absurd hv hne
      · rename_i hz
        rw [if_neg hz, hlast]
  · exact .inl hv

/-- A call keeps the books of an open dispense. -/
theorem call_open (hb : Balanced n₀ n h g) (hf : c.Fits h) (hc : InOrder c h g) (ho : isOpen h.ok = true) :
    Balanced n₀ n (h.call c) (g.book c h) := by
  have hm := hb.meter_open (c := c) ho
  have hok : isOpen (h.meter c.metered).ok = true := by
    unfold Hand.meter
    split <;> exact ho
  have hclosed := fun he => last_meter (hc.closed he)
  obtain ⟨metered, move⟩ := c
  cases move with
  | keep => exact hm
  | close =>
    have hbook : g.book ⟨metered, .close⟩ h = ⟨0, g.sum + g.volume ⟨metered, .close⟩ h⟩ := if_pos ho
    rw [hbook]
    exact hm.close_open hok (hclosed ho)
  | serve ok cut =>
    have hopen : isOpen ok = true := (hf.serve ok cut rfl).elim id fun he => he ▸ ho
    cases cut with
    | false => exact hm.serve_open hok hopen
    | true =>
      have hbook : g.book ⟨metered, .serve ok true⟩ h = ⟨0, g.sum + g.volume ⟨metered, .serve ok true⟩ h⟩ :=
        if_pos hopen
      rw [hbook]
      exact (hm.serve_open hok hopen).close_open hopen (hclosed hopen)

/-- Without a dispense a call opens one, or changes nothing. -/
theorem call_shut (hb : Balanced n₀ n h g) (hf : c.Fits h) (hc : InOrder c h g) (ho : isOpen h.ok = false) :
    Balanced n₀ n (h.call c) (g.book c h) := by
  obtain ⟨hm, hv⟩ := hb.meter_shut hf ho
  have hsame : Balanced n₀ n h ⟨0, g.sum⟩ :=
    ⟨hb.shut, fun h1 => absurd (ho.symm.trans h1) Bool.false_ne_true,
      fun h1 => absurd (ho.symm.trans h1) Bool.false_ne_true, hb.sum⟩
  have hshut : Balanced n₀ n h.close ⟨0, g.sum⟩ := by
    rw [hb.close_shut ho]
    exact hsame
  have hclosed := hc.closed
  have hopened := hc.opened
  have hbook : g.book c h = ⟨0, g.sum⟩ := by rw [Ledger.book, hv, Nat.add_zero, ite_self]
  rw [hv] at hclosed
  rw [Hand.call, hbook, hm]
  obtain ⟨metered, move⟩ := c
  cases move with
  | keep => exact hsame
  | close => exact hshut
  | serve ok cut =>
    rcases hf.serve ok cut rfl with hopen | rfl
    · -- a dispense is opened: nothing waits to be taken
      have hpend : h.pending = 0 := by
        unfold Hand.pending
        split
        · rename_i hout
          exact hopened (Bool.and_eq_true_iff.mpr ⟨hopen, by rw [ho]; rfl⟩) hout
        · rfl
      have hs : Balanced n₀ n { h with ok := ok } ⟨0, g.sum⟩ := by
        refine ⟨fun _ => hb.shut ho, fun _ hcur => absurd (hb.shut ho) hcur, fun _ hz => absurd rfl hz, ?_⟩
        rw [pending_of_open hopen, ← hb.sum, hpend]
      cases cut with
      | false => exact hs
      | true => exact hs.close_open hopen (hclosed hopen)
    · cases cut with
      | false => exact hsame
      | true => exact hshut

/-- A call in order keeps the books. -/
theorem call (hb : Balanced n₀ n h g) (hf : c.Fits h) (hc : InOrder c h g) :
    Balanced n₀ n (h.call c) (g.book c h) := by
  cases ho : isOpen h.ok with
  | true => exact hb.call_open hf hc ho
  | false => exact hb.call_shut hf hc ho

/-- What was handed over is taken into the total. -/
theorem taken (hb : Balanced n₀ n h g) : Balanced n₀ (n + h.pending) h.taken g := by
  have hsum := hb.sum
  unfold Hand.taken Hand.pending at *
  split
  · rename_i hout
    rw [if_pos hout] at hsum
    refine ⟨fun _ => hb.shut (by rw [hout]; rfl), nofun, nofun, ?_⟩
    exact hsum
  · rename_i hout
    exact ⟨hb.shut, hb.cur, hb.last, by rw [Hand.pending, if_neg hout]; rw [if_neg hout] at hsum; exact hsum⟩

end Balanced

end WM.Spec
