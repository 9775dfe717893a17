import Wirewolf.Core.Bytes

/-!
# Searching with a cursor

The loop `while ((pos = s.find(needle, pos)) != npos) { ..; pos += n; }` that
starts each search behind the last hit. `hits s needle pos` are the positions
it still visits with its cursor at `pos`.

* `find_bounds`: a hit lies behind the cursor and within the text.
* `hits_eq`: one round of the loop.
* `occurrences_char`, `hit_char_iff`: the search for one character stops at
  every position of it, that is in front of every suffix it begins.
* `find_char`: it stops at the first one from the cursor on.
-/
namespace Wirewolf.Search

variable {α : Type} [DecidableEq α] {s needle : List α}

/-- Where a search of the rest of the text stops. -/
def hits (s needle : List α) (pos : Nat) : List Nat := occurrencesFrom needle pos 0 (s.drop pos)

theorem hits_zero (s needle : List α) : hits s needle 0 = occurrences s needle := rfl

theorem indexOf_le {i : Nat} (h : indexOf needle s = some i) : i + needle.length ≤ s.length := by
  induction s generalizing i with
  | nil =>
    rw [indexOf] at h
    split at h
    · next hn =>
      obtain rfl : 0 = i := Option.some.inj h
      rw [hn]
      exact Nat.le_refl 0
    · cases h
  | cons b s ih =>
    rw [indexOf] at h
    split at h
    · next hp =>
      obtain rfl : 0 = i := Option.some.inj h
      rw [Nat.zero_add]
      exact (List.isPrefixOf_iff_prefix.1 hp).length_le
    · obtain ⟨k, hk, rfl⟩ := Option.map_eq_some_iff.1 h
      have := ih hk
      rw [List.length_cons]
      omega

theorem find_eq_some {pos i : Nat} (h : find s needle pos = some i) :
    ∃ k, indexOf needle (s.drop pos) = some k ∧ i = pos + k ∧ pos ≤ s.length := by
  unfold find at h
  split at h
  · next hpos =>
    obtain ⟨k, hk, rfl⟩ := Option.map_eq_some_iff.1 h
    exact ⟨k, hk, rfl, hpos⟩
  · cases h

theorem find_bounds {pos i : Nat} (h : find s needle pos = some i) :
    pos ≤ i ∧ i + needle.length ≤ s.length := by
  obtain ⟨k, hk, rfl, hpos⟩ := find_eq_some h
  have := indexOf_le hk
  rw [List.length_drop] at this
  omega

/-- Less is left behind a hit. -/
theorem rest_lt {x : α} {pos i : Nat} (h : find s [x] pos = some i) :
    s.length - (i + 1) < s.length - pos := by
  have := find_bounds h
  rw [List.length_singleton] at this
  omega

theorem occurrencesFrom_skip (needle : List α) : ∀ (i skip : Nat) (t : List α),
    occurrencesFrom needle i skip t = occurrencesFrom needle (i + skip) 0 (t.drop skip)
  | i, 0, t => by rw [Nat.add_zero, List.drop_zero]
  | i, skip + 1, [] => by simp [occurrencesFrom]
  | i, skip + 1, _ :: t => by
    rw [occurrencesFrom, occurrencesFrom_skip needle (i + 1) skip t, List.drop_succ_cons]
    congr 1
    omega

/-- The first hit, and those of the search behind it. -/
theorem occurrencesFrom_eq (hne : needle ≠ []) (i : Nat) (t : List α) :
    occurrencesFrom needle i 0 t =
      match indexOf needle t with
      | none => []
      | some k =>
        (i + k) :: occurrencesFrom needle (i + k + needle.length) 0
          (t.drop (k + needle.length)) := by
  have hpos : 0 < needle.length := List.length_pos_iff.2 hne
  induction t generalizing i with
  | nil => rw [occurrencesFrom, indexOf, if_neg hne]
  | cons b t ih =>
    rw [occurrencesFrom, indexOf]
    split
    · next hp =>
      obtain ⟨n, hn⟩ : ∃ n, needle.length = n + 1 := ⟨needle.length - 1, by omega⟩
      simp only [occurrencesFrom_skip needle (i + 1), hn, Nat.add_zero, Nat.zero_add,
        Nat.add_sub_cancel, List.drop_succ_cons, Nat.add_assoc, Nat.add_comm 1]
    · rw [ih (i + 1)]
      cases indexOf needle t with
      | none => rfl
      | some k =>
        simp only [Option.map_some, List.cons.injEq]
        refine ⟨by omega, ?_⟩
        rw [Nat.add_right_comm k 1, List.drop_succ_cons]
        congr 1
        omega

/-- One round: the search fails, or it is repeated behind the hit. -/
theorem hits_eq (hne : needle ≠ []) (pos : Nat) :
    hits s needle pos =
      match find s needle pos with
      | none => []
      | some i => i :: hits s needle (i + needle.length) := by
  rw [hits, occurrencesFrom_eq hne, find]
  by_cases hpos : pos ≤ s.length
  · rw [if_pos hpos]
    cases indexOf needle (s.drop pos) with
    | none => rfl
    | some k => simp only [Option.map_some, hits, List.drop_drop, Nat.add_assoc]
  · rw [if_neg hpos, List.drop_eq_nil_of_le (by omega), indexOf.eq_def]
    simp [hne]

theorem hits_of_none (hne : needle ≠ []) {pos : Nat} (h : find s needle pos = none) :
    hits s needle pos = [] := by
  rw [hits_eq hne, h]

theorem hits_of_some (hne : needle ≠ []) {pos i : Nat} (h : find s needle pos = some i) :
    hits s needle pos = i :: hits s needle (i + needle.length) := by
  rw [hits_eq hne, h]

/-- Every hit lies within the text. -/
theorem hits_le (hne : needle ≠ []) {pos i : Nat} (h : i ∈ hits s needle pos) :
    i + needle.length ≤ s.length := by
  cases hf : find s needle pos with
  | none =>
    rw [hits_of_none hne hf] at h
    cases h
  | some k =>
    have := find_bounds hf
    have := List.length_pos_iff.2 hne
    rw [hits_of_some hne hf, List.mem_cons] at h
    rcases h with rfl | h
    · exact this.2
    · exact hits_le hne h
termination_by s.length - pos

/-- What is in front of the first element that passes the test. -/
theorem takeWhile_not {β : Type} (q : β → Bool) (t : List β) :
    t.takeWhile (!q ·) = match t.findIdx? q with
      | some i => t.take i
      | none => t := by
  induction t with
  | nil => rfl
  | cons c t ih =>
    rw [List.takeWhile_cons, List.findIdx?_cons, ih]
    cases hc : q c with
    | true => rfl
    | false => cases t.findIdx? q <;> rfl

/-! ## One character -/

/-- Searching for one character stops at each position of it, in order. -/
theorem occurrencesFrom_char {x : α} (t : List α) (i : Nat) :
    occurrencesFrom [x] i 0 t = ((List.range t.length).filter fun j => t[j]? = some x).map
      (i + ·) := by
  induction t generalizing i with
  | nil => rfl
  | cons b t ih =>
    have hrest : ((List.range t.length).map Nat.succ).filter (fun j => (b :: t)[j]? = some x) =
        ((List.range t.length).filter fun j => t[j]? = some x).map Nat.succ := by
      rw [List.filter_map]
      rfl
    have hshift : ∀ l : List Nat, (l.map Nat.succ).map (i + ·) = l.map (i + 1 + ·) := by
      intro l
      rw [List.map_map]
      exact List.map_congr_left fun j _ => by simp only [Function.comp]; omega
    rw [occurrencesFrom, show (b :: t).length = t.length + 1 from rfl,
      List.range_succ_eq_map, ih (i + 1)]
    by_cases hb : b = x
    · have hp : [x].isPrefixOf (b :: t) = true := by simp [hb]
      rw [if_pos hp, List.filter_cons_of_pos (by simp [hb]), List.map_cons, hrest, hshift,
        List.length_singleton, Nat.sub_self, ih (i + 1)]
      rfl
    · have hp : ¬ [x].isPrefixOf (b :: t) = true := by simpa using Ne.symm hb
      rw [if_neg hp, List.filter_cons_of_neg (by simpa using hb), hrest, hshift]

theorem occurrences_char {x : α} :
    occurrences s [x] = (List.range s.length).filter fun j => s[j]? = some x := by
  rw [occurrences, occurrencesFrom_char]
  simp

theorem mem_occurrences_char {x : α} {j : Nat} : j ∈ occurrences s [x] ↔ s[j]? = some x := by
  rw [occurrences_char, List.mem_filter, List.mem_range, decide_eq_true_eq]
  exact and_iff_right_of_imp fun h => (List.getElem?_eq_some_iff.1 h).1

theorem find_char {x : α} {pos : Nat} (h : x ∈ s.drop pos) :
    find s [x] pos = some (pos + (s.drop pos).idxOf x) := by
  have hpos : pos ≤ s.length := by
    have := List.length_pos_of_mem h
    rw [List.length_drop] at this
    omega
  obtain ⟨c, t, ht, hc⟩ := List.eq_append_cons_of_mem h
  rw [find, if_pos hpos, ht, indexOf_char hc, Option.map_some, List.idxOf_append, if_neg hc,
    List.idxOf_cons_self, Nat.zero_add]

/-- What the searches for `x` leave behind them: the suffixes behind an `x`. -/
theorem hit_char_iff {x : α} {P : List α → Prop} :
    (∃ j ∈ occurrences s [x], P (s.drop (j + 1))) ↔ ∃ e, x :: e <:+ s ∧ P e := by
  constructor
  · intro h
    obtain ⟨j, hj, hp⟩ := h
    rw [mem_occurrences_char, List.getElem?_eq_some_iff] at hj
    obtain ⟨hlt, rfl⟩ := hj
    refine ⟨s.drop (j + 1), ?_, hp⟩
    rw [List.getElem_cons_drop]
    exact List.drop_suffix j s
  · intro h
    obtain ⟨e, ⟨a, rfl⟩, hp⟩ := h
    refine ⟨a.length, mem_occurrences_char.2 ?_, ?_⟩
    · rw [List.getElem?_append_right (Nat.le_refl _), Nat.sub_self]
      rfl
    · rw [List.drop_append, List.drop_eq_nil_of_le (Nat.le_succ _)]
      simpa using hp

end Wirewolf.Search
