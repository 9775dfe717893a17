import Mathlib.Data.List.Sort

/-!
# Ranked lists

A list in rank order: descending by `rank`, by `time` among equal ranks.
`enqueue` puts an item behind the items of its own rank, `stableSort` is the
stable sort by descending rank and `best k` its first `k` items.

* `Ranked.enqueue`: a later item keeps the order.
* `stableSort_concat`, `best_concat`: sorting one item more is one `enqueue`,
  also when only the best `k` are kept.
* `Ranked.spill`: the item that no longer fits is outranked by all that stay.
-/
namespace Wirewolf.Ranking

variable {α α' β : Type} [LinearOrder β] {rank : α → β} {time : α → Nat}

/-- `x` goes before `y`: a higher rank, or the same one and earlier. -/
def Outranks (rank : α → β) (time : α → Nat) (x y : α) : Prop :=
  rank y < rank x ∨ rank x = rank y ∧ time x < time y

def Ranked (rank : α → β) (time : α → Nat) (l : List α) : Prop := l.Pairwise (Outranks rank time)

def enqueue (rank : α → β) (a : α) (l : List α) : List α :=
  l.orderedInsert (fun x y => rank y < rank x) a

def stableSort (rank : α → β) (l : List α) : List α :=
  l.mergeSort fun x y => decide (rank y ≤ rank x)

def best (rank : α → β) (k : Nat) (l : List α) : List α := (stableSort rank l).take k

theorem enqueue_cons (a b : α) (l : List α) :
    enqueue rank a (b :: l) =
      if rank b < rank a then a :: b :: l else b :: enqueue rank a l :=
  List.orderedInsert_cons ..

theorem enqueue_perm (a : α) (l : List α) : (enqueue rank a l).Perm (a :: l) :=
  List.perm_orderedInsert ..

@[simp] theorem mem_enqueue {a b : α} {l : List α} : b ∈ enqueue rank a l ↔ b = a ∨ b ∈ l :=
  List.mem_orderedInsert _

@[simp] theorem length_enqueue (a : α) (l : List α) :
    (enqueue rank a l).length = l.length + 1 :=
  List.orderedInsert_length ..

theorem map_enqueue {rank' : α' → β} {f : α → α'} (hf : ∀ a, rank' (f a) = rank a) (a : α)
    (l : List α) : (enqueue rank a l).map f = enqueue rank' (f a) (l.map f) := by
  refine List.map_orderedInsert _ _ f l a (fun b _ => ?_) fun b _ => ?_
  · rw [hf, hf]
  · rw [hf, hf]

/-- Keeping the first `k` before and after an insertion is keeping them after it. -/
theorem take_enqueue (a : α) (l : List α) (k : Nat) :
    (enqueue rank a (l.take k)).take k = (enqueue rank a l).take k := by
  induction l generalizing k with
  | nil => simp
  | cons b l ih =>
    cases k with
    | zero => simp
    | succ k =>
      simp only [List.take_succ_cons, enqueue_cons]
      by_cases h : rank b < rank a
      · rw [if_pos h, if_pos h]
        cases k <;> simp [List.take_take]
      · rw [if_neg h, if_neg h, List.take_succ_cons, List.take_succ_cons, ih]

theorem enqueue_concat_of_lt {a z : α} (l : List α) (h : rank z < rank a) :
    enqueue rank a (l ++ [z]) = enqueue rank a l ++ [z] := by
  induction l with
  | nil => rw [List.nil_append, enqueue_cons, if_pos h]; rfl
  | cons b l ih =>
    rw [List.cons_append, enqueue_cons, enqueue_cons]
    split
    · rfl
    · rw [ih]; rfl

theorem enqueue_of_le {a : α} {l : List α} (h : ∀ b ∈ l, rank a ≤ rank b) :
    enqueue rank a l = l ++ [a] := by
  induction l with
  | nil => rfl
  | cons b l ih =>
    rw [enqueue_cons, if_neg (not_lt.2 (h b (.head _))), ih fun c hc => h c (.tail _ hc)]
    rfl

/-! ## The order -/

theorem outranks_asymm {x y : α} (hxy : Outranks rank time x y) : ¬ Outranks rank time y x := by
  intro hyx
  rcases hxy with h | h <;> rcases hyx with h' | h'
  · exact lt_asymm h h'
  · exact absurd h (h'.1 ▸ lt_irrefl _)
  · exact absurd h' (h.1 ▸ lt_irrefl _)
  · exact Nat.lt_asymm h.2 h'.2

theorem Outranks.rank_le {x y : α} (h : Outranks rank time x y) : rank y ≤ rank x :=
  h.elim le_of_lt fun h => le_of_eq h.1.symm

/-- One ranked list holds the items of a bag. -/
theorem Ranked.eq_of_perm {l l' : List α} (h : Ranked rank time l) (h' : Ranked rank time l')
    (hp : l.Perm l') : l = l' :=
  hp.eq_of_pairwise (fun _ _ _ _ hxy hyx => absurd hyx (outranks_asymm hxy)) h h'

theorem Ranked.enqueue {a : α} {l : List α} (h : Ranked rank time l)
    (ha : ∀ b ∈ l, time b < time a) : Ranked rank time (enqueue rank a l) := by
  induction l with
  | nil => exact List.pairwise_singleton ..
  | cons b l ih =>
    have hb := List.pairwise_cons.1 h
    rw [enqueue_cons]
    split
    · next hlt =>
      refine List.pairwise_cons.2 ⟨fun c hc => .inl ?_, h⟩
      rcases List.mem_cons.1 hc with hc | hc
      · rw [hc]; exact hlt
      · exact lt_of_le_of_lt (hb.1 c hc).rank_le hlt
    · next hle =>
      refine List.pairwise_cons.2 ⟨fun c hc => ?_, ih hb.2 fun c hc => ha c (.tail _ hc)⟩
      rcases mem_enqueue.1 hc with hc | hc
      · subst hc
        rcases lt_or_eq_of_le (not_lt.1 hle) with hlt | heq
        · exact .inl hlt
        · exact .inr ⟨heq.symm, ha b (.head _)⟩
      · exact hb.1 c hc

/-- What does not fit below `k + 1` is outranked by what stays. -/
theorem Ranked.spill {l : List α} {k : Nat} (h : Ranked rank time l) {z : α}
    (hz : l[k]? = some z) : ∀ y ∈ l.take k, Outranks rank time y z := by
  have hsplit : l.take k ++ l.drop k = l := List.take_append_drop k l
  rw [Ranked, ← hsplit, List.pairwise_append] at h
  intro y hy
  refine h.2.2 y hy z (List.mem_of_getElem? (i := 0) ?_)
  rw [List.getElem?_drop]
  exact hz

/-! ## Sorting -/

/-- The sort with the position of each item beside it. -/
def numberedSort (rank : α → β) (l : List α) : List (α × Nat) :=
  l.zipIdx.mergeSort (List.zipIdxLE fun x y => decide (rank y ≤ rank x))

theorem map_numberedSort (l : List α) : (numberedSort rank l).map Prod.fst = stableSort rank l :=
  List.mergeSort_zipIdx

theorem numberedSort_perm (l : List α) : (numberedSort rank l).Perm l.zipIdx :=
  List.mergeSort_perm ..

theorem ranked_numberedSort (l : List α) :
    Ranked (fun z => rank z.1) Prod.snd (numberedSort rank l) := by
  have hle : (numberedSort rank l).Pairwise fun x y =>
      List.zipIdxLE (fun x y => decide (rank y ≤ rank x)) x y = true := by
    refine List.pairwise_mergeSort (List.zipIdxLE_trans ?_) (List.zipIdxLE_total ?_) _
    · intro a b c hab hbc
      exact decide_eq_true (le_trans (of_decide_eq_true hbc) (of_decide_eq_true hab))
    · intro a b
      simpa using le_total (rank b) (rank a)
  have hne : (numberedSort rank l).Pairwise fun x y => x.2 ≠ y.2 := by
    have hnodup : (l.zipIdx.map Prod.snd).Nodup := by
      rw [List.zipIdx_map_snd]; exact List.nodup_range'
    exact List.pairwise_map.1 (((numberedSort_perm l).map Prod.snd).nodup_iff.2 hnodup)
  refine (hle.and hne).imp fun {x y} h => ?_
  simp only [List.zipIdxLE, decide_eq_true_eq] at h
  unfold Outranks
  by_cases hxy : rank y.1 = rank x.1
  · simp only [hxy, le_refl, if_true, decide_eq_true_eq] at h
    exact .inr ⟨hxy.symm, lt_of_le_of_ne h.1 h.2⟩
  · refine .inl (lt_of_le_of_ne ?_ hxy)
    by_contra hle
    simp [hle] at h

/-- Sorting one item more puts it behind its equals. -/
theorem stableSort_concat (l : List α) (a : α) :
    stableSort rank (l ++ [a]) = enqueue rank a (stableSort rank l) := by
  have hz : (l ++ [a]).zipIdx = l.zipIdx ++ [(a, l.length)] := by
    rw [List.zipIdx_append]; simp
  have hperm : (numberedSort rank (l ++ [a])).Perm
      (enqueue (fun z : α × Nat => rank z.1) (a, l.length) (numberedSort rank l)) := by
    refine (numberedSort_perm _).trans (hz ▸ (List.perm_append_comm.trans ?_))
    exact ((numberedSort_perm l).symm.cons _).trans (enqueue_perm _ _).symm
  have hlast : ∀ z ∈ numberedSort rank l, z.2 < l.length := by
    intro z hm
    have := List.snd_lt_add_of_mem_zipIdx ((numberedSort_perm l).mem_iff.1 hm)
    simpa using this
  rw [← map_numberedSort, ← map_numberedSort,
    (ranked_numberedSort _).eq_of_perm ((ranked_numberedSort l).enqueue hlast) hperm,
    map_enqueue fun _ => rfl]

theorem best_concat (l : List α) (a : α) (k : Nat) :
    best rank k (l ++ [a]) = (enqueue rank a (best rank k l)).take k := by
  rw [best, best, stableSort_concat, take_enqueue]

end Wirewolf.Ranking
