import Mathlib.Algebra.BigOperators.Ring.Finset
import Wirewolf.Core.Smoothing
import Wirewolf.L3Table.MarkovFile

/-!
# Transition probabilities of a Markov model

`log_prob` reads three maps that training and loading fill separately: the
counts, the totals of the rows and the alphabet. With the totals in step with
the counts, each row of smoothed probabilities is a distribution.

* `row_distribution`: for any model whose derived fields are right.
* `rows_distribution`: for trained models, and for those that come back from
  a file without blanks in the alphabet.
* `reloaded_row_short`: two blanks as targets of one row are both read as a
  colon, and the total counts both.
-/
namespace Wirewolf.L3.Smoothing

open Wirewolf.L3.Markov Wirewolf.L3.MarkovFile
open Wirewolf.Smoothing (Distribution)

/-- The denominator of `log_prob`. -/
def denominator (m : MarkovModel) (src : UInt8) : Rat :=
  (m.rowTotals.find? src).getD 0 + m.k * m.alphabet.size

/-- What `log_prob` takes the logarithm of. -/
def prob (m : MarkovModel) (src dst : UInt8) : Rat :=
  (((m.counts.find? src).bind (·.find? dst)).getD 0 + m.k) / denominator m src

theorem logProb_eq (log : Rat → Rat) (m : MarkovModel) (src dst : UInt8) :
    m.logProb log src dst = log (prob m src dst) := rfl

/-- The row of `src` over the alphabet. -/
def row (m : MarkovModel) (src : UInt8) : List Rat := m.alphabet.keys.map (prob m src)

/-! ## Counts are not negative -/

def NonNeg (m : MarkovModel) : Prop := ∀ row ∈ m.counts.entries, ∀ t ∈ row.2.entries, 0 ≤ t.2

theorem nonneg_find {m : MarkovModel} (h : NonNeg m) (src dst : UInt8) :
    0 ≤ ((m.counts.find? src).bind (·.find? dst)).getD 0 := by
  cases hrow : m.counts.find? src with
  | none => exact le_refl _
  | some r =>
    show 0 ≤ (r.find? dst).getD 0
    cases hcell : r.find? dst with
    | none => exact le_refl _
    | some c => exact h _ (OrdMap.mem_of_find? hrow) _ (OrdMap.mem_of_find? hcell)

theorem count_nonneg {m : MarkovModel} (h : NonNeg m) (src dst : UInt8) :
    NonNeg (m.count src dst) := by
  intro r hr t ht
  rcases OrdMap.mem_alter hr with rfl | hr
  · rcases OrdMap.mem_alter ht with rfl | ht
    · have hfind := nonneg_find h src dst
      show 0 ≤ (((m.counts.find? src).getD .empty).find? dst).getD 0 + 1
      cases hrow : m.counts.find? src with
      | none => exact Int.one_nonneg
      | some r =>
        rw [hrow] at hfind
        exact Int.add_nonneg hfind Int.one_nonneg
    · cases hrow : m.counts.find? src with
      | none => rw [hrow] at ht; cases ht
      | some r =>
        rw [hrow] at ht
        exact h _ (OrdMap.mem_of_find? hrow) t ht
  · exact h r hr t ht

theorem countFrom_nonneg {m : MarkovModel} (h : NonNeg m) (src : UInt8) (s : Bytes) :
    NonNeg (m.countFrom src s) := by
  induction s generalizing m src with
  | nil => exact h
  | cons dst s ih => exact ih (count_nonneg h src dst) dst

theorem fresh_nonneg (label : Bytes) (k : Rat) :
    NonNeg ({ label := label, k := k } : MarkovModel) := fun _ hrow => by cases hrow

theorem train_nonneg {m : MarkovModel} (h : NonNeg m) (strings : List Bytes) :
    NonNeg (m.train strings) := by
  induction strings generalizing m with
  | nil => exact h
  | cons s l ih =>
    refine ih ?_
    match s with
    | [] => exact h
    | [_] => exact h
    | c :: d :: s => exact countFrom_nonneg (m := m.mark c) h c (d :: s)

/-! ## Rows -/

section

variable {p : UInt8 → Prop} {m : MarkovModel}

/-- The counts of a row, over the alphabet, add up to its total. -/
theorem sum_row (h : Coherent p m) (src : UInt8) :
    (m.alphabet.keys.map fun dst => ((m.counts.find? src).bind (·.find? dst)).getD 0).sum =
      (m.rowTotals.find? src).getD 0 := by
  have htotal : m.rowTotals.find? src = (m.counts.find? src).map rowSum := by
    have hderived := h.derived
    rw [MarkovModel.mk.injEq] at hderived
    obtain ⟨-, -, -, htotals, -, -⟩ := hderived
    rw [htotals]
    exact OrdMap.find?_map rowSum m.counts src
  rw [htotal]
  cases hrow : m.counts.find? src with
  | none => simp
  | some r =>
    refine Wirewolf.Smoothing.sum_lookup r m.alphabet.keys_nodup fun e he => ?_
    have hmark := (h.rows _ (OrdMap.mem_of_find? hrow)).2.2 e he
    exact List.mem_map_of_mem (OrdMap.mem_of_find? hmark)

/-- Every row of a coherent model is a distribution, over a denominator that
is not zero. -/
theorem row_distribution (h : Coherent p m) (hn : NonNeg m) (hk : 0 < m.k)
    (hne : m.alphabet.isEmpty = false) (src : UInt8) :
    denominator m src ≠ 0 ∧ Distribution (row m src) := by
  let w : List Rat := m.alphabet.keys.map fun dst =>
    ((((m.counts.find? src).bind (·.find? dst)).getD 0 : Int) : Rat)
  have hw : ∀ c ∈ w, 0 ≤ c := List.forall_mem_map.2 fun dst _ =>
    Int.cast_nonneg (nonneg_find hn src dst)
  have hlen : w.length = m.alphabet.size := by
    rw [List.length_map, OrdMap.keys, List.length_map]; rfl
  have hwne : w ≠ [] := fun hnil => by
    rw [hnil] at hlen
    have hempty := OrdMap.isEmpty_iff.2 (List.length_eq_zero_iff.1 hlen.symm)
    rw [hne] at hempty
    cases hempty
  have hsum : w.sum = ((m.rowTotals.find? src).getD 0 : Int) := by
    rw [← sum_row h src, Int.cast_list_sum, List.map_map]
    rfl
  have hden : w.sum + m.k * w.length = denominator m src := by rw [hsum, hlen]; rfl
  have hrow : row m src = w.map fun c => (c + m.k) / (w.sum + m.k * w.length) := by
    rw [hden, row, List.map_map]
    rfl
  rw [hrow, ← hden]
  exact ⟨ne_of_gt (Wirewolf.Smoothing.smooth_pos hw hk hwne),
    Wirewolf.Smoothing.distribution_smooth hw hk hwne⟩

end

/-- A trained model, from any strings. -/
def trainedOn (label : Bytes) (k : Rat) (strings : List Bytes) : MarkovModel :=
  ({ label := label, k := k } : MarkovModel).train strings

/-- The models that training gives, and those that are read from a file of
single lines of a model trained without blanks. -/
inductive Reached : MarkovModel → Prop
  | trained (label : Bytes) (k : Rat) (strings : List Bytes) : Reached (trainedOn label k strings)
  | loaded {label : Bytes} {k : Rat} {strings : List Bytes} {fp fp' : Bytes} {m : MarkovModel} :
      (0x0A : UInt8) ∉ label → (0x0A : UInt8) ∉ fp → (∀ s ∈ strings, ∀ c ∈ s, isSpace c = false) →
      load (serialize (trainedOn label k strings) fp) = some (m, fp') → Reached m

/-- For every reached model with a positive `k` and a character, and every
source: the smoothed probabilities over the alphabet are a distribution. -/
theorem rows_distribution {m : MarkovModel} (h : Reached m) (hk : 0 < m.k)
    (hne : m.alphabet.isEmpty = false) (src : UInt8) :
    denominator m src ≠ 0 ∧ Distribution (row m src) := by
  cases h with
  | trained label k strings =>
    have hcoh : Coherent (fun _ => True) (trainedOn label k strings) :=
      train_coherent (fresh_coherent label k) fun _ _ _ _ => trivial
    exact row_distribution hcoh (train_nonneg (fresh_nonneg label k) strings) hk hne src
  | @loaded label k strings fp fp' m hlabel hfp hblank hload =>
    have hcoh : Coherent Visible (trainedOn label k strings) :=
      train_coherent (fresh_coherent label k) hblank
    have hnn : NonNeg (trainedOn label k strings) :=
      train_nonneg (fresh_nonneg label k) strings
    have hsingle : (0x0A : UInt8) ∉ (trainedOn label k strings).label := by
      rw [trainedOn, (train_keeps _ _).1]
      exact hlabel
    by_cases hcolon : NoColon (trainedOn label k strings)
    · rw [load_of_visible hcoh hcolon hsingle hfp] at hload
      obtain ⟨hm, -⟩ := Prod.mk.inj (Option.some.inj hload)
      have hcoh' : Coherent Visible m := by
        rw [← hm]
        exact reloaded_coherent hcoh
      exact row_distribution hcoh' (by rw [← hm]; exact hnn) hk hne src
    · rw [load_of_colon hcoh hcolon hsingle hfp] at hload
      cases hload

theorem rows_distribution_botnet :
    ∃ m, Reached m ∧ m.label = lit "Botnet" ∧ denominator m 0x61 ≠ 0 ∧
    Distribution (row m 0x61) := by
  have hload : (load (serialize (trainedOn (lit "Botnet") (1 / 2) [lit "a.b-a-"]) (lit "fp"))).any
      (fun r => decide (r.1.label = lit "Botnet" ∧ 0 < r.1.k ∧ r.1.alphabet.isEmpty = false)) =
        true := by decide +kernel
  obtain ⟨⟨m, fp⟩, hload, htest⟩ := (Option.any_eq_true _ _).1 hload
  obtain ⟨hlabel, hk, hne⟩ := of_decide_eq_true htest
  have hblank : ∀ s ∈ [lit "a.b-a-"], ∀ c ∈ s, isSpace c = false :=
    List.forall_mem_singleton.2 (not_space_of_all (by decide))
  have hreached : Reached m := .loaded (by decide) (by decide) hblank hload
  exact ⟨m, hreached, hlabel, rows_distribution hreached hk hne 0x61⟩

/-- From `a` to a space and from `a` to a tab: the reader finds `:1` twice. -/
theorem reloaded_row_short : ¬ ∀ (label : Bytes) (k : Rat) (strings : List Bytes) (fp fp' : Bytes)
    (m : MarkovModel), load (serialize (trainedOn label k strings) fp) = some (m, fp') → 0 < m.k →
      m.alphabet.isEmpty = false → ∀ src, denominator m src ≠ 0 ∧ Distribution (row m src) := by
  intro h
  have hload : (load (serialize (trainedOn (lit "n") (1 / 2) [lit "a a\t"]) [])).any
      (fun r => decide (0 < r.1.k ∧ r.1.alphabet.isEmpty = false ∧ (row r.1 0x61).sum ≠ 1)) =
        true := by decide +kernel
  obtain ⟨⟨m, fp⟩, hload, htest⟩ := (Option.any_eq_true _ _).1 hload
  obtain ⟨hk, hne, hsum⟩ := of_decide_eq_true htest
  exact hsum (h _ _ _ _ _ _ hload hk hne 0x61).2.sum

end Wirewolf.L3.Smoothing
