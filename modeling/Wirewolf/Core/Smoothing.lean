import Mathlib.Algebra.BigOperators.Ring.List
import Mathlib.Algebra.Order.BigOperators.Group.List
import Mathlib.Algebra.Order.Field.Basic
import Mathlib.Data.List.Nodup
import Mathlib.Tactic.Linarith
import Mathlib.Tactic.Ring
import Wirewolf.Core.OrdMap

/-!
# Smoothed counts

A list of weights becomes a list of probabilities when `k` is added to each
and the sum is divided out. The weights of a row are looked up in a sorted
table, for every character of a larger alphabet.

* `distribution_smooth`: the smoothed weights are in `(0, 1]` and sum to 1.
* `sum_lookup`: the looked up counts of an alphabet sum to those of the row.
-/
namespace Wirewolf.Smoothing

variable {κ R : Type} [Field R]

theorem sum_map_add_const (w : List R) (k : R) : (w.map (· + k)).sum = w.sum + k * w.length := by
  induction w with
  | nil => simp
  | cons x w ih =>
    rw [List.map_cons, List.sum_cons, ih, List.sum_cons, List.length_cons]
    push_cast
    ring

variable [LinearOrder R] [IsStrictOrderedRing R]

/-- Probabilities of a finite sample space. -/
structure Distribution (ps : List R) : Prop where
  unit : ∀ p ∈ ps, 0 < p ∧ p ≤ 1
  sum : ps.sum = 1

theorem smooth_pos {w : List R} {k : R} (hw : ∀ c ∈ w, 0 ≤ c) (hk : 0 < k) (hne : w ≠ []) :
    0 < w.sum + k * w.length := by
  have hsum := List.sum_nonneg hw
  have hlen : (0 : R) < w.length := Nat.cast_pos.2 (List.length_pos_iff.2 hne)
  have hmul := mul_pos hk hlen
  linarith

theorem distribution_smooth {w : List R} {k : R} (hw : ∀ c ∈ w, 0 ≤ c) (hk : 0 < k) (hne : w ≠ []) :
    Distribution (w.map fun c => (c + k) / (w.sum + k * w.length)) := by
  have hpos := smooth_pos hw hk hne
  constructor
  · intro p hp
    obtain ⟨c, hc, rfl⟩ := List.mem_map.1 hp
    have hle := List.single_le_sum hw c hc
    have hone : (1 : R) ≤ w.length := Nat.one_le_cast.2 (List.length_pos_iff.2 hne)
    have hmul := mul_le_mul_of_nonneg_left hone hk.le
    refine ⟨div_pos (by linarith [hw c hc]) hpos, (div_le_one hpos).2 ?_⟩
    linarith
  · have hdiv : (w.map fun c => (c + k) / (w.sum + k * w.length)) =
        (w.map (· + k)).map (· * (w.sum + k * w.length)⁻¹) := by
      rw [List.map_map]
      exact List.map_congr_left fun c _ => div_eq_mul_inv _ _
    rw [hdiv, List.sum_map_mul_right, List.map_id', sum_map_add_const]
    exact mul_inv_cancel₀ (ne_of_gt hpos)

variable [LinearOrder κ]

/-- What one key of an alphabet contributes. -/
theorem sum_ite_key {ks : List κ} (hks : ks.Nodup) {k₀ : κ} (h : k₀ ∈ ks) (v : Int) :
    (ks.map fun k => if k = k₀ then v else 0).sum = v := by
  induction ks with
  | nil => cases h
  | cons k ks ih =>
    obtain ⟨hnot, hks⟩ := List.nodup_cons.1 hks
    rw [List.map_cons, List.sum_cons]
    rcases List.mem_cons.1 h with rfl | h
    · have hzero : (ks.map fun k' => if k' = k₀ then v else 0) = ks.map fun _ => 0 :=
        List.map_congr_left fun k' hk' => if_neg (ne_of_mem_of_not_mem hk' hnot)
      rw [if_pos rfl, hzero]
      simp
    · rw [if_neg (ne_of_mem_of_not_mem h hnot).symm, ih hks h, zero_add]

theorem sum_lookup (r : OrdMap κ Int) {ks : List κ} (hks : ks.Nodup)
    (hsub : ∀ e ∈ r.entries, e.1 ∈ ks) :
    (ks.map fun k => (r.find? k).getD 0).sum = (r.entries.map Prod.snd).sum := by
  have hlist : ∀ l : List (κ × Int), l.Pairwise (fun a b => a.1 < b.1) → (∀ e ∈ l, e.1 ∈ ks) →
      (ks.map fun k => ((l.find? fun e => e.1 = k).map Prod.snd).getD 0).sum =
        (l.map Prod.snd).sum := by
    intro l
    induction l with
    | nil => simp
    | cons e l ih =>
      intro hsorted hmem
      obtain ⟨hlt, hsorted⟩ := List.pairwise_cons.1 hsorted
      obtain ⟨he, hmem⟩ := List.forall_mem_cons.1 hmem
      -- the first entry counts for its own key, the others for theirs
      have hsplit : ∀ k, (((e :: l).find? fun e => e.1 = k).map Prod.snd).getD 0 =
          (if k = e.1 then e.2 else 0) + ((l.find? fun e => e.1 = k).map Prod.snd).getD 0 := by
        intro k
        by_cases hk : k = e.1
        · have hnone : (l.find? fun x => x.1 = k) = none :=
            List.find?_eq_none.2 fun x hx => by simpa [hk] using ne_of_gt (hlt x hx)
          rw [hnone, List.find?_cons_of_pos (by simp [hk]), if_pos hk]
          simp
        · rw [List.find?_cons_of_neg (by simpa using Ne.symm hk), if_neg hk, zero_add]
      rw [List.map_congr_left fun k _ => hsplit k, List.sum_map_add, sum_ite_key hks he,
        ih hsorted hmem, List.map_cons, List.sum_cons]
  exact hlist r.entries r.sorted hsub

end Wirewolf.Smoothing
