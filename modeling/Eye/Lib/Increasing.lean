import Mathlib.Data.Finset.Lattice.Fold
import Mathlib.Data.Nat.Notation
import Mathlib.Order.Lattice.Nat

/-!
# The least strictly increasing sequence above given bounds

A sequence begins at `a` and takes a list of lower bounds one by one: each value is greater than the
one before it and not below its bound. `least` is the least such sequence in closed form: the bound
that reaches furthest, or the number of values.

* `least_succ`: each value is the `next` one after the value before;
* `least_strictMono`, `le_least_succ`: the sequence increases and respects its bounds;
* `least_le`: no other such sequence is below it.
-/

namespace Increasing

/-- The least value greater than `last` and not below `x`. -/
def next (last x : ℕ) : ℕ := max (last + 1) x

/-- The least `k`-th value of a strictly increasing sequence behind `a`, whose values are not below
those of `xs`: the bound with index `j` has been followed by `k - 1 - j` increments. -/
def least (a : ℕ) (xs : List ℕ) (k : ℕ) : ℕ :=
  max (a + k) ((Finset.range k).sup fun j => xs.getD j 0 + (k - 1 - j))

variable {a k : ℕ} {xs : List ℕ}

theorem least_le_iff {b : ℕ} :
    least a xs k ≤ b ↔ a + k ≤ b ∧ ∀ j < k, xs.getD j 0 + (k - 1 - j) ≤ b := by
  unfold least
  rw [Nat.max_le, Finset.sup_le_iff]
  simp only [Finset.mem_range]

theorem least_succ (a : ℕ) (xs : List ℕ) (k : ℕ) :
    least a xs (k + 1) = next (least a xs k) (xs.getD k 0) := by
  apply eq_of_forall_ge_iff
  intro b
  unfold next
  rw [Nat.max_le, least_le_iff]
  constructor
  · rintro ⟨ha, hall⟩
    have hk := hall k (Nat.lt_succ_self k)
    refine ⟨?_, by omega⟩
    have hle : least a xs k ≤ b - 1 := by
      rw [least_le_iff]
      refine ⟨by omega, ?_⟩
      intro j hj
      have := hall j (Nat.lt_succ_of_lt hj)
      omega
    omega
  · rintro ⟨hle, hk⟩
    obtain ⟨ha, hall⟩ := least_le_iff.mp (Nat.le_sub_one_of_lt hle)
    refine ⟨by omega, ?_⟩
    intro j hj
    rcases Nat.lt_succ_iff_lt_or_eq.mp hj with hj | rfl
    · have := hall j hj
      omega
    · omega

theorem least_lt_succ (a : ℕ) (xs : List ℕ) (k : ℕ) : least a xs k < least a xs (k + 1) := by
  rw [least_succ]
  exact Nat.le_max_left _ _

theorem least_strictMono (a : ℕ) (xs : List ℕ) : StrictMono (least a xs) :=
  strictMono_nat_of_lt_succ (least_lt_succ a xs)

theorem le_least_succ (a : ℕ) (xs : List ℕ) (k : ℕ) : xs.getD k 0 ≤ least a xs (k + 1) := by
  rw [least_succ]
  exact Nat.le_max_right _ _

/-- A sequence that increases from `a` and respects its bounds has values at least as great. -/
theorem least_le {t : ℕ → ℕ} (ha : a ≤ t 0) (hlt : ∀ j < k, t j < t (j + 1))
    (hle : ∀ j < k, xs.getD j 0 ≤ t (j + 1)) : least a xs k ≤ t k := by
  induction k with
  | zero => simpa [least] using ha
  | succ k ih =>
    have hk := ih (fun j hj => hlt j (Nat.lt_succ_of_lt hj))
      fun j hj => hle j (Nat.lt_succ_of_lt hj)
    rw [least_succ]
    apply Nat.max_le.mpr
    exact ⟨Nat.lt_of_le_of_lt hk (hlt k (Nat.lt_succ_self k)), hle k (Nat.lt_succ_self k)⟩

end Increasing
