import Mathlib.Algebra.BigOperators.Ring.List
import Mathlib.Algebra.Order.BigOperators.Group.List
import Mathlib.Algebra.Order.Field.Basic
import Mathlib.Tactic.FieldSimp
import Mathlib.Tactic.Ring

/-!
# Mean and variance of a sample

A sample is a list over an ordered field, the empty one included (its mean
and variance are 0). `variance` is the mean squared deviation;
`variance_eq` is the form that is computed from the running sums of the
values and of their squares, and is non-negative because the other one is.
-/
namespace Wirewolf.Sample

variable {K : Type} [Field K]

def mean (l : List K) : K := l.sum / l.length

def variance (l : List K) : K := mean (l.map fun x => (x - mean l) * (x - mean l))

/-- The squared deviations from `c`, by the two sums. -/
theorem sum_deviations (c : K) (l : List K) :
    (l.map fun x => (x - c) * (x - c)).sum =
      (l.map fun x => x * x).sum - 2 * c * l.sum + l.length * (c * c) := by
  induction l with
  | nil => simp
  | cons x l ih =>
    simp only [List.map_cons, List.sum_cons, List.length_cons, Nat.cast_succ, ih]
    ring

section CharZero

variable [CharZero K] {c : K} {l : List K}

theorem length_ne_zero (hne : l ≠ []) : (l.length : K) ≠ 0 := by
  rw [Nat.cast_ne_zero]
  exact fun h => hne (List.length_eq_zero_iff.1 h)

theorem mean_of_const (hne : l ≠ []) (hc : ∀ x ∈ l, x = c) : mean l = c := by
  have hlen : (l.length : K) ≠ 0 := length_ne_zero hne
  rw [mean, List.eq_replicate_of_mem hc, List.sum_replicate, List.length_replicate, nsmul_eq_mul]
  field_simp

/-- A sample of one value does not vary. -/
theorem variance_of_const (hc : ∀ x ∈ l, x = c) : variance l = 0 := by
  by_cases hne : l = []
  · subst hne
    simp [variance, mean]
  · have hzero : ∀ y ∈ l.map fun x => (x - mean l) * (x - mean l), y = 0 := by
      intro y hy
      obtain ⟨x, hx, rfl⟩ := List.mem_map.1 hy
      rw [mean_of_const hne hc, hc x hx, sub_self, zero_mul]
    rw [variance, mean, List.sum_eq_zero hzero, zero_div]

/-- The mean of the squares less the square of the mean. -/
theorem variance_eq (l : List K) :
    variance l = mean (l.map fun x => x * x) - mean l * mean l := by
  by_cases hne : l = []
  · subst hne
    simp [variance, mean]
  · have hlen : (l.length : K) ≠ 0 := length_ne_zero hne
    rw [variance, mean, List.length_map, sum_deviations, mean, mean, List.length_map]
    field_simp
    ring

end CharZero

section Order

variable [LinearOrder K] [IsStrictOrderedRing K]

theorem mean_nonneg {l : List K} (h : ∀ x ∈ l, 0 ≤ x) : 0 ≤ mean l :=
  div_nonneg (List.sum_nonneg h) (Nat.cast_nonneg _)

theorem variance_nonneg (l : List K) : 0 ≤ variance l := by
  refine mean_nonneg fun y hy => ?_
  obtain ⟨x, -, rfl⟩ := List.mem_map.1 hy
  exact mul_self_nonneg _

end Order

end Wirewolf.Sample
