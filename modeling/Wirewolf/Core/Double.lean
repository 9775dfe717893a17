import Mathlib.Algebra.Order.Ring.Rat
import Mathlib.Data.Int.Log
import Mathlib.Data.Rat.Floor
import Mathlib.Tactic.Linarith

/-!
# Double-precision arithmetic

`nearest` is the number of the binary64 format that is nearest to a rational
number, and the one with an even mantissa when two are. What is beyond the
largest number of the format is left unbounded.

* `nearest_intCast`: integers below 2^53 are numbers of the format.
* `abs_nearest_sub_le`: below 2^n the error is at most 2^(n - 54).
-/
namespace Wirewolf.Double

/-- To the nearest whole number, ties to even. -/
def roundEven (q : Rat) : Int :=
  let n := q.floor
  let r := q - n
  if 1 / 2 < r ∨ (r = 1 / 2 ∧ n % 2 = 1) then n + 1 else n

/-- The nearest number with 53 binary digits, the last of them not below
`2^-1074`. There is no largest one. -/
def nearest (q : Rat) : Rat :=
  let x := max (Int.log 2 |q|) (-1022)
  roundEven (q * 2 ^ (52 - x)) * 2 ^ (x - 52)

def add (x y : Rat) : Rat := nearest (x + y)

def mul (x y : Rat) : Rat := nearest (x * y)

theorem roundEven_intCast (n : Int) : roundEven n = n := by
  have hhalf : ¬ (1 / 2 < (0 : Rat) ∨ ((0 : Rat) = 1 / 2 ∧ n % 2 = 1)) := by
    intro h
    rcases h with h | ⟨h, -⟩
    · exact absurd h (by decide +kernel)
    · exact absurd h (by decide +kernel)
  rw [roundEven, Rat.floor_intCast, sub_self]
  exact if_neg hhalf

theorem abs_roundEven_sub_le (q : Rat) : |(roundEven q : Rat) - q| ≤ 1 / 2 := by
  have hle : (q.floor : Rat) ≤ q := Rat.floor_le q
  have hlt : q < q.floor + 1 := by exact_mod_cast Rat.lt_floor_add_one q
  unfold roundEven
  dsimp only
  rw [abs_le]
  split
  · next h =>
    have hhalf : 1 / 2 ≤ q - q.floor := h.elim le_of_lt fun h => h.1.ge
    push_cast
    constructor <;> linarith
  · next h =>
    have hhalf : q - q.floor ≤ 1 / 2 := not_lt.1 fun hlt => h (.inl hlt)
    constructor <;> linarith

/-! ## The last place -/

/-- The exponent of the last binary digit. -/
def lastPlace (q : Rat) : Int := max (Int.log 2 |q|) (-1022) - 52

theorem place_pos (q : Rat) : (0 : Rat) < 2 ^ lastPlace q := zpow_pos (by norm_num) _

theorem nearest_eq (q : Rat) : nearest q = roundEven (q / 2 ^ lastPlace q) * 2 ^ lastPlace q := by
  rw [div_eq_mul_inv, ← zpow_neg, lastPlace, neg_sub]
  rfl

theorem lastPlace_le {q : Rat} {n : Int} (hq : q ≠ 0) (hn : -1021 ≤ n) (h : |q| < 2 ^ n) :
    lastPlace q ≤ n - 53 := by
  have hlog : Int.log 2 |q| < n := (Int.lt_zpow_iff_log_lt (by norm_num) (abs_pos.2 hq)).1 h
  unfold lastPlace
  omega

theorem nearest_of_multiple {q : Rat} {m : Int} (h : q / 2 ^ lastPlace q = m) : nearest q = q := by
  rw [nearest_eq, h, roundEven_intCast, ← h, div_mul_cancel₀ _ (place_pos q).ne']

theorem nearest_zero : nearest 0 = 0 :=
  nearest_of_multiple (m := 0) (by rw [zero_div, Int.cast_zero])

theorem nearest_intCast {n : Int} (h : |n| < 2 ^ 53) : nearest n = n := by
  rcases eq_or_ne n 0 with rfl | hne
  · rw [Int.cast_zero, nearest_zero]
  have hplace : lastPlace (n : Rat) ≤ 53 - 53 :=
    lastPlace_le (Int.cast_ne_zero.2 hne) (by norm_num) (by exact_mod_cast h)
  obtain ⟨k, hk⟩ := Int.eq_ofNat_of_zero_le (Int.neg_nonneg.2 (hplace.trans_eq (by norm_num)))
  refine nearest_of_multiple (m := n * 2 ^ k) ?_
  rw [show lastPlace (n : Rat) = -k by omega, zpow_neg, zpow_natCast, div_inv_eq_mul]
  push_cast
  rfl

theorem add_intCast {m n : Int} (h : |m + n| < 2 ^ 53) : add m n = (m + n : Int) := by
  rw [add, ← Int.cast_add, nearest_intCast h]

theorem mul_intCast {m n : Int} (h : |m * n| < 2 ^ 53) : mul m n = (m * n : Int) := by
  rw [mul, ← Int.cast_mul, nearest_intCast h]

theorem abs_nearest_sub_le {q : Rat} {n : Int} (hn : -1021 ≤ n) (h : |q| < 2 ^ n) :
    |nearest q - q| ≤ 2 ^ (n - 54) := by
  rcases eq_or_ne q 0 with rfl | hq
  · rw [nearest_zero, sub_self, abs_zero]
    exact (zpow_pos (by norm_num) _).le
  have hscale : nearest q - q = (roundEven (q / 2 ^ lastPlace q) - q / 2 ^ lastPlace q) *
      2 ^ lastPlace q := by
    rw [nearest_eq, sub_mul, div_mul_cancel₀ _ (place_pos q).ne']
  calc |nearest q - q|
      = |roundEven (q / 2 ^ lastPlace q) - q / 2 ^ lastPlace q| * 2 ^ lastPlace q := by
        rw [hscale, abs_mul, abs_of_pos (place_pos q)]
    _ ≤ 1 / 2 * 2 ^ (n - 53) :=
        mul_le_mul (abs_roundEven_sub_le _)
          (zpow_le_zpow_right₀ (by norm_num) (lastPlace_le hq hn h))
          (place_pos q).le (by norm_num)
    _ = 2 ^ (n - 54) := by
        rw [show n - 54 = -1 + (n - 53) by ring, zpow_add₀ (by norm_num), zpow_neg_one, one_div]

end Wirewolf.Double
