import Mathlib.Data.List.DropRight
import Wirewolf.Core.Cursor
import Wirewolf.Core.Text

/-!
# Runs

A run of a test around a position is the longest stretch there whose elements
all pass: what stands in front of it ends, and what stands behind it begins,
with one that fails.

* `run_iff`: there is one around every position that passes, and no other.
* `mem_of_run`: it has what is at the position.
* `drop_start`, `stop_eq`: where it starts and stops, as a search backwards
  and a search forwards find it.
-/
namespace Wirewolf.Runs

variable {α : Type} {p : α → Bool} {s w : List α} {i : Nat}

/-- A text in three parts, the second of them the run. -/
structure Splits (p : α → Bool) (i : Nat) (before w behind : List α) : Prop where
  start : before.length ≤ i
  stop : i < before.length + w.length
  pass : ∀ c ∈ w, p c = true
  front : ∀ c, before.getLast? = some c → p c = false
  back : ∀ c, behind.head? = some c → p c = false

def Run (p : α → Bool) (s : List α) (i : Nat) (w : List α) : Prop :=
  ∃ before behind, s = before ++ w ++ behind ∧ Splits p i before w behind

def around (p : α → Bool) (s : List α) (i : Nat) : List α :=
  (s.take i).rtakeWhile p ++ (s.drop i).takeWhile p

theorem rtakeWhile_append {before w : List α} (hw : ∀ c ∈ w, p c = true)
    (hf : ∀ c, before.getLast? = some c → p c = false) : (before ++ w).rtakeWhile p = w := by
  have hspan := (Text.span_append (s := w.reverse) (t := before.reverse)
    (fun c hc => hw c (List.mem_reverse.1 hc))
    (fun c hc => hf c (by rwa [List.head?_reverse] at hc))).1
  rw [List.rtakeWhile, List.reverse_append, hspan, List.reverse_reverse]

theorem Splits.around_eq {before behind : List α} (h : Splits p i before w behind) :
    around p (before ++ w ++ behind) i = w := by
  have htake : (before ++ w ++ behind).take i = before ++ w.take (i - before.length) := by
    rw [List.append_assoc, List.take_append, List.take_of_length_le h.start,
      List.take_append_of_le_length]
    have := h.stop
    omega
  have hdrop : (before ++ w ++ behind).drop i = w.drop (i - before.length) ++ behind := by
    rw [List.append_assoc, List.drop_append, List.drop_eq_nil_of_le h.start, List.nil_append,
      List.drop_append_of_le_length]
    have := h.stop
    omega
  rw [around, htake, hdrop, rtakeWhile_append
    (fun c hc => h.pass c (List.mem_of_mem_take hc)) h.front,
    (Text.span_append (fun c hc => h.pass c (List.mem_of_mem_drop hc)) h.back).1,
    List.take_append_drop]

/-- The run holds what is at the position. -/
theorem mem_of_run (h : Run p s i w) : ∃ c ∈ w, s[i]? = some c ∧ p c = true := by
  obtain ⟨before, behind, rfl, hsplit⟩ := h
  have hlt : i - before.length < w.length := by
    have := hsplit.start
    have := hsplit.stop
    omega
  refine ⟨w[i - before.length], List.getElem_mem hlt, ?_, hsplit.pass _ (List.getElem_mem hlt)⟩
  rw [List.append_assoc, List.getElem?_append_right hsplit.start, List.getElem?_append_left hlt,
    List.getElem?_eq_getElem hlt]

/-- What is left begins with an element that fails. -/
theorem head?_dropWhile {c : α} (h : (s.dropWhile p).head? = some c) : p c = false := by
  rw [← List.find?_not_eq_head?_dropWhile] at h
  have hc := List.find?_some h
  rwa [Bool.not_eq_true'] at hc

theorem getLast?_rdropWhile {c : α} (h : (s.rdropWhile p).getLast? = some c) : p c = false := by
  rw [List.rdropWhile, List.getLast?_reverse] at h
  exact head?_dropWhile h

theorem run_around {c : α} (hi : s[i]? = some c) (hc : p c = true) : Run p s i (around p s i) := by
  obtain ⟨hlt, hget⟩ := List.getElem?_eq_some_iff.1 hi
  have hcons : s.drop i = c :: s.drop (i + 1) := by rw [List.drop_eq_getElem_cons hlt, hget]
  refine ⟨(s.take i).rdropWhile p, (s.drop i).dropWhile p, ?_, ?_⟩
  · rw [around, ← List.append_assoc, List.rdropWhile_append_rtakeWhile, List.append_assoc,
      List.takeWhile_append_dropWhile, List.take_append_drop]
  have hlen : ((s.take i).rdropWhile p).length + ((s.take i).rtakeWhile p).length = i := by
    rw [← List.length_append, List.rdropWhile_append_rtakeWhile, List.length_take_of_le hlt.le]
  exact {
    start := by omega
    stop := by
      rw [around, List.length_append, hcons, List.takeWhile_cons_of_pos hc, List.length_cons]
      omega
    pass := by
      intro d hd
      rcases List.mem_append.1 hd with hd | hd
      · exact List.mem_rtakeWhile_imp hd
      · exact List.mem_takeWhile_imp hd
    front := fun d hd => getLast?_rdropWhile hd
    back := fun d hd => head?_dropWhile hd }

theorem run_iff : Run p s i w ↔ (∃ c, s[i]? = some c ∧ p c = true) ∧ w = around p s i := by
  constructor
  · intro h
    obtain ⟨c, -, hc⟩ := mem_of_run h
    obtain ⟨before, behind, rfl, hsplit⟩ := h
    exact ⟨⟨c, hc⟩, hsplit.around_eq.symm⟩
  · intro h
    obtain ⟨⟨c, hi, hc⟩, rfl⟩ := h
    exact run_around hi hc

/-! ## Where it starts and stops -/

/-- The run at the end of a text does not reach an element that fails. -/
theorem length_rtakeWhile_le {before behind : List α} {c : α} (hs : before ++ c :: behind = s)
    (hc : p c = false) : (s.rtakeWhile p).length ≤ behind.length := by
  subst hs
  have hpass : ∀ d ∈ (before ++ c :: behind).rtakeWhile p, p d = true :=
    fun d hd => List.mem_rtakeWhile_imp hd
  have hfail : c ∉ (before ++ c :: behind).rtakeWhile p := by
    intro hmem
    rw [hpass c hmem] at hc
    cases hc
  rcases List.suffix_or_suffix_of_suffix (List.rtakeWhile_suffix p (before ++ c :: behind))
    (List.suffix_append before (c :: behind)) with h | h
  · rcases List.suffix_cons_iff.1 h with h | h
    · rw [h] at hfail
      exact absurd List.mem_cons_self hfail
    · exact h.length_le
  · exact absurd (h.subset List.mem_cons_self) hfail

/-- Behind the last element that fails among the first `n`. -/
theorem drop_start (n : Nat) :
    s.drop ((s.take n).length - ((s.take n).rtakeWhile p).length) =
      (s.take n).rtakeWhile p ++ s.drop n := by
  have hsplit : (s.take n).rdropWhile p ++ (s.take n).rtakeWhile p = s.take n :=
    List.rdropWhile_append_rtakeWhile
  have hlen : (s.take n).length - ((s.take n).rtakeWhile p).length =
      ((s.take n).rdropWhile p).length := by
    have := congrArg List.length hsplit
    rw [List.length_append] at this
    omega
  have hs : s = (s.take n).rdropWhile p ++ ((s.take n).rtakeWhile p ++ s.drop n) := by
    rw [← List.append_assoc, hsplit, List.take_append_drop]
  rw [hlen]
  exact (congrArg (List.drop _) hs).trans List.drop_left

/-- At the first element that fails from `k` on, or at the end. -/
theorem stop_eq (q : α → Bool) {k : Nat} (hk : k ≤ s.length) :
    ((s.drop k).findIdx? q).elim s.length (k + ·) = k + ((s.drop k).takeWhile (!q ·)).length := by
  rw [Search.takeWhile_not]
  cases h : (s.drop k).findIdx? q with
  | none =>
    simp only [Option.elim_none, List.length_drop]
    omega
  | some m =>
    have hm := (List.findIdx?_eq_some_iff_getElem.1 h).1
    simp only [Option.elim_some, List.length_take]
    omega

end Wirewolf.Runs
