import Mathlib.Tactic.Common

/-!
# Counters of several digits

A counter is a list of digits, the lowest first; every digit but the top one has a base. What is added to the lowest
digit is carried from digit to digit (`add`): the worth of the counter grows by just that (`worth_add`) and the digits
are below their bases afterwards (`carried_add`), whether or not they were before. A counter in words of `w` values
counts like that as long as none of the sums passes its word (`Fits`).
-/

namespace WM.Odometer

/-- What the digits `ds` are worth in the bases `bs`. -/
def worth : (bs ds : List Nat) → Nat
  | b :: bs, d :: ds => d + b * worth bs ds
  | [], d :: _ => d
  | _, [] => 0

/-- `v` is added to the lowest digit. -/
def add : (bs : List Nat) → (v : Nat) → (ds : List Nat) → List Nat
  | b :: bs, v, d :: ds => (d + v) % b :: add bs ((d + v) / b) ds
  | [], v, d :: ds => (d + v) :: ds
  | _, _, [] => []

/-- Every digit is below its base. -/
def Carried : (bs ds : List Nat) → Prop
  | b :: bs, d :: ds => d < b ∧ Carried bs ds
  | [], _ => True
  | _, [] => True

/-- No sum of the addition passes a word of `w` values. -/
def Fits (w : Nat) : (bs : List Nat) → (v : Nat) → (ds : List Nat) → Prop
  | b :: bs, v, d :: ds => d + v < w ∧ Fits w bs ((d + v) / b) ds
  | [], v, d :: _ => d + v < w
  | _, _, [] => True

/-- Nothing is lost in the carries. -/
theorem worth_add (bs : List Nat) : ∀ (v : Nat) (ds : List Nat), ds.length = bs.length + 1 →
    worth bs (add bs v ds) = worth bs ds + v := by
  induction bs with
  | nil =>
    intro v ds hlen
    obtain ⟨d, rfl⟩ := List.length_eq_one_iff.mp hlen
    rfl
  | cons b bs ih =>
    intro v ds hlen
    cases ds with
    | nil => exact nomatch hlen
    | cons d ds =>
      have hrest := ih ((d + v) / b) ds (Nat.succ.inj hlen)
      have hdiv := Nat.mod_add_div (d + v) b
      calc (d + v) % b + b * worth bs (add bs ((d + v) / b) ds)
          = (d + v) % b + b * ((d + v) / b) + b * worth bs ds := by rw [hrest, Nat.mul_add]; omega
        _ = d + b * worth bs ds + v := by omega

theorem carried_add {bs : List Nat} (hpos : ∀ b ∈ bs, 0 < b) : ∀ (v : Nat) (ds : List Nat),
    Carried bs (add bs v ds) := by
  induction bs with
  | nil => exact fun _ _ => trivial
  | cons b bs ih =>
    intro v ds
    cases ds with
    | nil => trivial
    | cons d ds =>
      exact ⟨Nat.mod_lt _ (hpos b List.mem_cons_self), ih (fun b hb => hpos b (List.mem_cons_of_mem _ hb)) _ _⟩

/-- Nothing is added to a counter whose digits are below their bases. -/
theorem add_zero (bs : List Nat) : ∀ {ds : List Nat}, Carried bs ds → add bs 0 ds = ds := by
  induction bs with
  | nil =>
    intro ds _
    cases ds <;> rfl
  | cons b bs ih =>
    intro ds h
    cases ds with
    | nil => rfl
    | cons d ds =>
      change (d + 0) % b :: add bs ((d + 0) / b) ds = _
      rw [Nat.add_zero, Nat.mod_eq_of_lt h.1, Nat.div_eq_of_lt h.1, ih h.2]

end WM.Odometer
