import Mathlib.Algebra.Group.Nat.Defs
import Mathlib.Order.Defs.LinearOrder

/-!
# Serial numbers: positions of an unbounded stream on a 32-bit counter

A stream position `n : Nat` is written on the wire as the counter value
`pos o n = o + n mod 2^32`, where `o` is the counter of position 0. Two
counters are compared circularly, by the sign of their 32-bit difference
(`before`).

* `before_pos`: on positions less than 2^31 apart the circular comparison is
  the order of the positions, whatever `o` is and wherever the counter wraps.
* `pos_sub`, `pos_inj`: the counter difference of two positions less than
  2^32 apart is their distance.
* `pos_lt_pos`: the raw (unsigned) order of two counters instead puts every
  position past the wrap (`wrapAt o`) before every position short of it.
-/
namespace Wirewolf

instance linearOrderUInt32 : LinearOrder UInt32 where
  le_refl := UInt32.le_refl
  le_trans _ _ _ := UInt32.le_trans
  lt_iff_le_not_ge a b := by
    simp only [UInt32.lt_iff_toNat_lt, UInt32.le_iff_toNat_le]; omega
  le_antisymm _ _ := UInt32.le_antisymm
  le_total := UInt32.le_total
  toDecidableLE := inferInstance

namespace Serial

/-- `a` comes before `b` on the circle. -/
def before (a b : UInt32) : Bool := decide ((a - b).toInt32 < 0)

/-- The counter of stream position `n` when position 0 has counter `o`. -/
def pos (o : UInt32) (n : Nat) : UInt32 := o + UInt32.ofNat n

/-- The first position whose counter has wrapped past 2^32. -/
def wrapAt (o : UInt32) : Nat := 2 ^ 32 - o.toNat

theorem before_iff (a b : UInt32) : before a b = true ↔ 2 ^ 31 ≤ (a - b).toNat := by
  have h := (a - b).toBitVec.toInt_eq_toNat_cond
  have hlt := (a - b).toNat_lt
  simp only [UInt32.toNat_toBitVec] at h
  rw [before, decide_eq_true_iff, Int32.lt_iff_toInt_lt, ← Int32.toInt_toBitVec,
    UInt32.toBitVec_toInt32, h, Int32.toInt_zero]
  split <;> omega

@[simp] theorem pos_zero (o : UInt32) : pos o 0 = o := by simp [pos]

theorem toNat_pos (o : UInt32) (n : Nat) : (pos o n).toNat = (o.toNat + n) % 2 ^ 32 := by
  simp only [pos, UInt32.toNat_add, UInt32.toNat_ofNat']; omega

theorem pos_pos (o : UInt32) (m n : Nat) : pos (pos o m) n = pos o (m + n) := by
  apply UInt32.toNat_inj.1
  simp only [toNat_pos]; omega

theorem pos_add_ofNat (o : UInt32) (m n : Nat) : pos o m + UInt32.ofNat n = pos o (m + n) :=
  pos_pos o m n

theorem pos_sub (o : UInt32) {m n : Nat} (h : m ≤ n) (hlt : n < m + 2 ^ 32) :
    (pos o n - pos o m).toNat = n - m := by
  have := o.toNat_lt
  rw [UInt32.toNat_sub, toNat_pos, toNat_pos]; omega

/-- The counter difference seen backwards. -/
theorem pos_sub_lt (o : UInt32) {m n : Nat} (h : m < n) (hlt : n ≤ m + 2 ^ 32) :
    (pos o m - pos o n).toNat = 2 ^ 32 - (n - m) := by
  have := o.toNat_lt
  rw [UInt32.toNat_sub, toNat_pos, toNat_pos]; omega

/-- The circular comparison of two positions at most 2^31 apart is the order
of the positions. -/
theorem before_pos (o : UInt32) {m n : Nat} (h₁ : m < n + 2 ^ 31) (h₂ : n ≤ m + 2 ^ 31) :
    before (pos o m) (pos o n) = true ↔ m < n := by
  rw [before_iff]
  rcases Nat.lt_or_ge m n with h | h
  · rw [pos_sub_lt o h (by omega)]; omega
  · rw [pos_sub o h (by omega)]; omega

theorem pos_inj (o : UInt32) {m n : Nat} (h₁ : m < n + 2 ^ 32) (h₂ : n < m + 2 ^ 32) :
    pos o m = pos o n ↔ m = n := by
  refine ⟨fun h => ?_, fun h => by rw [h]⟩
  have := congrArg UInt32.toNat h
  simp only [toNat_pos] at this; omega

/-- Every counter is the counter of some position below 2^32. -/
theorem pos_dist (o q : UInt32) : pos o (q - o).toNat = q := by
  apply UInt32.toNat_inj.1
  have := o.toNat_lt; have := q.toNat_lt
  rw [toNat_pos, UInt32.toNat_sub]; omega

theorem toNat_pos_short (o : UInt32) {n : Nat} (h : n < wrapAt o) :
    (pos o n).toNat = o.toNat + n := by
  unfold wrapAt at h
  rw [toNat_pos, Nat.mod_eq_of_lt (by omega)]

theorem toNat_pos_past (o : UInt32) {n : Nat} (h : wrapAt o ≤ n) (hn : n < 2 ^ 32) :
    (pos o n).toNat + 2 ^ 32 = o.toNat + n := by
  have := o.toNat_lt
  unfold wrapAt at h
  rw [toNat_pos, Nat.mod_eq_sub_mod (by omega), Nat.mod_eq_of_lt (by omega)]; omega

/-- The raw order of counters: positions past the wrap come first. -/
theorem pos_lt_pos (o : UInt32) {m n : Nat} (hm : m < 2 ^ 31) (hn : n < 2 ^ 31) :
    pos o m < pos o n ↔ (wrapAt o ≤ m ∧ n < wrapAt o) ∨
    ((wrapAt o ≤ m ↔ wrapAt o ≤ n) ∧ m < n) := by
  have ho := o.toNat_lt
  rw [UInt32.lt_iff_toNat_lt]
  rcases Nat.lt_or_ge m (wrapAt o) with h₁ | h₁ <;> rcases Nat.lt_or_ge n (wrapAt o) with h₂ | h₂
  · rw [toNat_pos_short o h₁, toNat_pos_short o h₂]; omega
  · have := toNat_pos_past o h₂ (by omega)
    rw [toNat_pos_short o h₁]; omega
  · have := toNat_pos_past o h₁ (by omega)
    rw [toNat_pos_short o h₂]; unfold wrapAt at *; omega
  · have := toNat_pos_past o h₁ (by omega)
    have := toNat_pos_past o h₂ (by omega)
    omega

end Serial
end Wirewolf
