import Mathlib.Algebra.GroupWithZero.Nat

/-!
# Placed segments

A placed segment `(a, d)` puts the elements of `d` at positions `a`, `a + 1`,
… of an unbounded stream. `cover l n` is the element that the first segment
of `l` covering `n` carries there: with `l` in order of arrival this is the
first-seen element.

`consume E out l` runs down a list of segments with a stream that already
extends to position `E`: a segment that reaches past `E` contributes what
lies past `E`, one that ends at or before `E` is dropped, and the run stops
at the first segment that starts after `E`. `consume_spec` is what every
such run guarantees, in terms of `cover`.

`Slice S x` says that `x` carries `S`'s own elements at its position;
`tile a ds` places the pieces `ds` one after the other from position `a`.
-/
namespace Wirewolf.Overlay

variable {α : Type}

/-! ## A list with one more element inside -/

theorem mem_middle {lo hi : List α} {x z : α} : z ∈ lo ++ x :: hi ↔ z = x ∨ z ∈ lo ++ hi := by
  rw [List.mem_append, List.mem_cons, List.mem_append]
  constructor
  · rintro (h | h | h)
    · exact .inr (.inl h)
    · exact .inl h
    · exact .inr (.inr h)
  · rintro (h | h | h)
    · exact .inr (.inl h)
    · exact .inl h
    · exact .inr (.inr h)

theorem forall_middle {P : α → Prop} {lo hi : List α} {x : α} (hx : P x)
    (h : ∀ z ∈ lo ++ hi, P z) : ∀ z ∈ lo ++ x :: hi, P z := by
  intro z hz
  cases mem_middle.1 hz with
  | inl he => exact he ▸ hx
  | inr hz => exact h z hz

/-! ## Covered positions -/

def Covers (x : Nat × List α) (n : Nat) : Prop := x.1 ≤ n ∧ n < x.1 + x.2.length

instance (x : Nat × List α) (n : Nat) : Decidable (Covers x n) :=
  inferInstanceAs (Decidable (_ ∧ _))

def cover : List (Nat × List α) → Nat → Option α
  | [], _ => none
  | x :: l, n => if Covers x n then x.2[n - x.1]? else cover l n

theorem cover_of_covers {x : Nat × List α} {n : Nat} (l : List (Nat × List α)) (h : Covers x n) :
    cover (x :: l) n = x.2[n - x.1]? := by simp [cover, h]

theorem cover_of_not {x : Nat × List α} {n : Nat} (l : List (Nat × List α)) (h : ¬ Covers x n) :
    cover (x :: l) n = cover l n := by simp [cover, h]

theorem covers_get {x : Nat × List α} {n : Nat} (h : Covers x n) : ∃ c, x.2[n - x.1]? = some c := by
  have : n - x.1 < x.2.length := by unfold Covers at h; omega
  exact ⟨_, List.getElem?_eq_getElem this⟩

theorem cover_eq_none {l : List (Nat × List α)} {n : Nat} :
    cover l n = none ↔ ∀ x ∈ l, ¬ Covers x n := by
  induction l with
  | nil => simp [cover]
  | cons x l ih =>
    by_cases h : Covers x n
    · obtain ⟨c, hc⟩ := covers_get h
      simp [cover, h, hc]
    · simp [cover, h, ih]

/-- A covered position is covered by some listed segment that carries the
element. -/
theorem cover_some {l : List (Nat × List α)} {n : Nat} {c : α} (h : cover l n = some c) :
    ∃ x ∈ l, Covers x n ∧ x.2[n - x.1]? = some c := by
  induction l with
  | nil => simp [cover] at h
  | cons x l ih =>
    by_cases hx : Covers x n
    · rw [cover_of_covers l hx] at h
      exact ⟨x, List.mem_cons_self .., hx, h⟩
    · rw [cover_of_not l hx] at h
      obtain ⟨y, hy, h'⟩ := ih h
      exact ⟨y, List.mem_cons_of_mem _ hy, h'⟩

theorem cover_append (l r : List (Nat × List α)) (n : Nat) :
    cover (l ++ r) n = (cover l n).or (cover r n) := by
  induction l with
  | nil => simp [cover]
  | cons x l ih =>
    by_cases h : Covers x n
    · obtain ⟨c, hc⟩ := covers_get h
      simp [cover, h, hc]
    · simp [cover, h, ih]

/-! ## Consuming segments in list order -/

def consume : Nat → List α → List (Nat × List α) → Nat × List α × List (Nat × List α)
  | E, out, [] => (E, out, [])
  | E, out, x :: l =>
    if E < x.1 then (E, out, x :: l)
    else if E < x.1 + x.2.length then
      consume (x.1 + x.2.length) (out ++ x.2.drop (E - x.1)) l
    else consume E out l

/-- Sum of the lengths of the segments. -/
def total (l : List (Nat × List α)) : Nat := (l.map fun x => x.2.length).sum

@[simp] theorem total_cons (x : Nat × List α) (l : List (Nat × List α)) :
    total (x :: l) = x.2.length + total l := by simp [total]

theorem consume_stop {E : Nat} {out : List α} {x : Nat × List α} (l : List (Nat × List α))
    (h : E < x.1) : consume E out (x :: l) = (E, out, x :: l) := by simp [consume, h]

theorem consume_extend {E : Nat} {out : List α} {x : Nat × List α} (l : List (Nat × List α))
    (h : Covers x E) :
    consume E out (x :: l) = consume (x.1 + x.2.length) (out ++ x.2.drop (E - x.1)) l := by
  have h₁ : ¬ E < x.1 := Nat.not_lt.2 h.1
  simp [consume, h₁, h.2]

theorem consume_skip {E : Nat} {out : List α} {x : Nat × List α} (l : List (Nat × List α))
    (h₁ : x.1 ≤ E) (h₂ : ¬ Covers x E) : consume E out (x :: l) = consume E out l := by
  have h₃ : ¬ E < x.1 := Nat.not_lt.2 h₁
  have h₄ : ¬ E < x.1 + x.2.length := fun h => h₂ ⟨h₁, h⟩
  simp [consume, h₃, h₄]

/-- The three ways one segment is treated. -/
theorem consume_cases (E : Nat) (x : Nat × List α) :
    E < x.1 ∨ Covers x E ∨ (x.1 ≤ E ∧ ¬ Covers x E) := by
  by_cases h : E < x.1
  · exact .inl h
  · by_cases h' : Covers x E
    · exact .inr (.inl h')
    · exact .inr (.inr ⟨Nat.not_lt.1 h, h'⟩)

theorem consume_le (l : List (Nat × List α)) (E : Nat) (out : List α) :
    E ≤ (consume E out l).1 := by
  induction l generalizing E out with
  | nil => exact Nat.le_refl _
  | cons x l ih =>
    rcases consume_cases E x with h | h | ⟨h₁, h₂⟩
    · simp only [consume_stop l h, Nat.le_refl]
    · rw [consume_extend l h]
      exact Nat.le_trans (Nat.le_of_lt h.2) (ih ..)
    · rw [consume_skip l h₁ h₂]; exact ih ..

theorem consume_le_total (l : List (Nat × List α)) (E : Nat) (out : List α) :
    (consume E out l).1 ≤ E + total l := by
  induction l generalizing E out with
  | nil => simp [consume]
  | cons x l ih =>
    rw [total_cons]
    rcases consume_cases E x with h | h | ⟨h₁, h₂⟩
    · rw [consume_stop l h]; simp
    · rw [consume_extend l h]
      have := ih (x.1 + x.2.length) (out ++ x.2.drop (E - x.1))
      have := h.1; omega
    · rw [consume_skip l h₁ h₂]
      have := ih E out; omega

theorem consume_bound {B : Nat} (l : List (Nat × List α)) (E : Nat) (out : List α) (hE : E ≤ B)
    (hl : ∀ x ∈ l, x.1 + x.2.length ≤ B) : (consume E out l).1 ≤ B := by
  induction l generalizing E out with
  | nil => exact hE
  | cons x l ih =>
    have hl' := fun y hy => hl y (List.mem_cons_of_mem _ hy)
    rcases consume_cases E x with h | h | ⟨h₁, h₂⟩
    · rw [consume_stop l h]; exact hE
    · rw [consume_extend l h]; exact ih _ _ (hl x (List.mem_cons_self ..)) hl'
    · rw [consume_skip l h₁ h₂]; exact ih _ _ hE hl'

/-- The result of consuming `l` from `E`: the segments `used` (a prefix of
`l`) now lie at or before the new end, what stays starts with a segment past
it, and the appended elements `add` are exactly the positions gained, each
covered by `used` and carrying its `cover`. -/
structure Consumed (E : Nat) (out : List α) (l used rest : List (Nat × List α)) (add : List α)
    (E' : Nat) (out' : List α) : Prop where
  split : l = used ++ rest
  le : E ≤ E'
  out_eq : out' = out ++ add
  add_len : add.length + E = E'
  used_le : ∀ x ∈ used, x.1 + x.2.length ≤ E'
  start_le : ∀ x ∈ used, x.1 ≤ E'
  end_eq : E' = E ∨ ∃ x ∈ used, E' = x.1 + x.2.length
  rest_lt : ∀ x ∈ rest.head?, E' < x.1
  cover_used : ∀ n, E ≤ n → n < E' → ∃ c, cover used n = some c ∧ add[n - E]? = some c

theorem consume_spec (l : List (Nat × List α)) (E : Nat) (out : List α) :
    ∃ used add, Consumed E out l used (consume E out l).2.2 add (consume E out l).1
      (consume E out l).2.1 := by
  induction l generalizing E out with
  | nil =>
    exact ⟨[], [], rfl, Nat.le_refl _, by simp [consume], by simp [consume], by simp, by simp,
      .inl rfl, by simp [consume], fun n h₁ h₂ => absurd h₂ (Nat.not_lt.2 h₁)⟩
  | cons x l ih =>
    rcases consume_cases E x with h | h | ⟨h₁, h₂⟩
    · rw [consume_stop l h]
      exact ⟨[], [], rfl, Nat.le_refl _, by simp, by simp, by simp, by simp, .inl rfl,
        by simpa using h, fun n h₁ h₂ => absurd h₂ (Nat.not_lt.2 h₁)⟩
    · rw [consume_extend l h]
      obtain ⟨used, add, hc⟩ := ih (x.1 + x.2.length) (out ++ x.2.drop (E - x.1))
      have hlen : (x.2.drop (E - x.1)).length + E = x.1 + x.2.length := by
        have := h.1; have := h.2; rw [List.length_drop]; omega
      refine ⟨x :: used, x.2.drop (E - x.1) ++ add, by rw [List.cons_append, ← hc.split],
        Nat.le_trans (Nat.le_of_lt h.2) hc.le, by rw [hc.out_eq, List.append_assoc], ?_, ?_, ?_,
        ?_, hc.rest_lt, ?_⟩
      · have := hc.add_len; rw [List.length_append]; omega
      · intro y hy
        rcases List.mem_cons.1 hy with rfl | hy
        · exact hc.le
        · exact hc.used_le y hy
      · intro y hy
        rcases List.mem_cons.1 hy with rfl | hy
        · have := hc.le; omega
        · exact hc.start_le y hy
      · rcases hc.end_eq with e | ⟨y, hy, e⟩
        · exact .inr ⟨x, List.mem_cons_self .., e⟩
        · exact .inr ⟨y, List.mem_cons_of_mem _ hy, e⟩
      · intro n hn hn'
        by_cases hx : n < x.1 + x.2.length
        · have hcov : Covers x n := ⟨Nat.le_trans h.1 hn, hx⟩
          obtain ⟨c, hget⟩ := covers_get hcov
          refine ⟨c, by rw [cover_of_covers used hcov, hget], ?_⟩
          rw [List.getElem?_append_left (by omega), List.getElem?_drop,
            show E - x.1 + (n - E) = n - x.1 by have := h.1; omega, hget]
        · obtain ⟨c, hc₁, hc₂⟩ := hc.cover_used n (Nat.not_lt.1 hx) hn'
          refine ⟨c, by rw [cover_of_not used (fun hcov => hx hcov.2), hc₁], ?_⟩
          rw [List.getElem?_append_right (by omega), ← hc₂]
          congr 1; omega
    · rw [consume_skip l h₁ h₂]
      obtain ⟨used, add, hc⟩ := ih E out
      have hend : x.1 + x.2.length ≤ E := Nat.not_lt.1 fun h => h₂ ⟨h₁, h⟩
      refine ⟨x :: used, add, by rw [List.cons_append, ← hc.split], hc.le, hc.out_eq, hc.add_len,
        ?_, ?_, hc.end_eq.imp_right fun ⟨y, hy, e⟩ => ⟨y, List.mem_cons_of_mem _ hy, e⟩,
        hc.rest_lt, ?_⟩
      · intro y hy
        rcases List.mem_cons.1 hy with rfl | hy
        · exact Nat.le_trans hend hc.le
        · exact hc.used_le y hy
      · intro y hy
        rcases List.mem_cons.1 hy with rfl | hy
        · exact Nat.le_trans h₁ hc.le
        · exact hc.start_le y hy
      · intro n hn hn'
        have hnc : ¬ Covers x n :=
          fun hcov => absurd (Nat.lt_of_lt_of_le hcov.2 hend) (Nat.not_lt.2 hn)
        rw [cover_of_not used hnc]; exact hc.cover_used n hn hn'

namespace Consumed

variable {E E' : Nat} {out add out' : List α} {l used rest : List (Nat × List α)}

theorem length (h : Consumed E out l used rest add E' out') :
    out'.length + E = out.length + E' := by
  have := h.add_len; rw [h.out_eq, List.length_append]; omega

/-- Each gained position carries its cover in the whole list. -/
theorem get (h : Consumed E out l used rest add E' out') {n : Nat} (h₁ : E ≤ n) (h₂ : n < E') :
    add[n - E]? = cover l n := by
  obtain ⟨c, hc₁, hc₂⟩ := h.cover_used n h₁ h₂
  rw [hc₂, h.split, cover_append, hc₁, Option.some_or]

/-- Past the new end only what stays covers anything. -/
theorem cover_rest (h : Consumed E out l used rest add E' out') {n : Nat} (hn : E' ≤ n) :
    cover rest n = cover l n := by
  have : cover used n = none := cover_eq_none.2 fun x hx hcov =>
    absurd (Nat.lt_of_lt_of_le hcov.2 (h.used_le x hx)) (Nat.not_lt.2 hn)
  rw [h.split, cover_append, this, Option.none_or]

theorem mem_rest (h : Consumed E out l used rest add E' out') {x : Nat × List α} (hx : x ∈ rest) :
    x ∈ l := by rw [h.split]; exact List.mem_append_right _ hx

/-- When the stream started at `off`, carried `f` so far, and every cover of
a later position is `f`'s element, it still carries `f`. -/
theorem get_out (h : Consumed E out l used rest add E' out') {o : Nat} {f : Nat → Option α}
    (hE : o + out.length = E) (hout : ∀ i, i < out.length → out[i]? = f (o + i))
    (hl : ∀ n c, E ≤ n → cover l n = some c → f n = some c) {i : Nat} (hi : i < out'.length) :
    out'[i]? = f (o + i) := by
  have hlen := h.length
  rw [h.out_eq]
  by_cases hlt : i < out.length
  · rw [List.getElem?_append_left hlt, hout i hlt]
  · obtain ⟨c, hc, hadd⟩ := h.cover_used (o + i) (by omega) (by omega)
    have hcov := h.get (n := o + i) (by omega) (by omega)
    rw [hadd] at hcov
    rw [List.getElem?_append_right (Nat.not_lt.1 hlt), hl _ c (by omega) hcov.symm, ← hadd]
    congr 1; omega

end Consumed

/-- A run does not get past a position that no earlier segment covers. -/
theorem consume_gap {lo t : List (Nat × List α)} {y : Nat × List α} {n : Nat} {E : Nat}
    {o : List α} (h₁ : E ≤ n) (h₂ : n < y.1) (h : ∀ x ∈ lo, ¬ Covers x n) :
    y :: t <:+ (consume E o (lo ++ y :: t)).2.2 := by
  induction lo generalizing E o with
  | nil =>
    have hstop : E < y.1 := by omega
    simp only [List.nil_append, consume_stop t hstop, List.suffix_rfl]
  | cons x lo ih =>
    have hx := h x (List.mem_cons_self ..)
    have hlo := fun z hz => h z (List.mem_cons_of_mem _ hz)
    rw [List.cons_append]
    rcases consume_cases E x with hc | hc | ⟨hc₁, hc₂⟩
    · rw [consume_stop _ hc]
      exact ⟨x :: lo, rfl⟩
    · have hend : x.1 + x.2.length ≤ n := Nat.not_lt.1 fun hlt => hx ⟨Nat.le_trans hc.1 h₁, hlt⟩
      rw [consume_extend _ hc]; exact ih hend hlo
    · rw [consume_skip _ hc₁ hc₂]; exact ih h₁ hlo

/-! ## Slices and tilings of a stream -/

def Slice (S : List α) (x : Nat × List α) : Prop := (S.drop x.1).take x.2.length = x.2

instance [DecidableEq α] (S : List α) (x : Nat × List α) : Decidable (Slice S x) :=
  inferInstanceAs (Decidable (_ = _))

namespace Slice

variable {S : List α} {x : Nat × List α}

theorem le (h : Slice S x) (hx : x.2 ≠ []) : x.1 + x.2.length ≤ S.length := by
  have hl := congrArg List.length h
  have hp := List.length_pos_iff.2 hx
  rw [List.length_take, List.length_drop] at hl
  omega

theorem get (h : Slice S x) {i : Nat} (hi : i < x.2.length) : x.2[i]? = S[x.1 + i]? := by
  have hg := congrArg (·[i]?) h
  rw [← hg]
  show (List.take x.2.length (List.drop x.1 S))[i]? = _
  rw [List.getElem?_take_of_lt hi, List.getElem?_drop]

end Slice

theorem cover_of_slices {S : List α} {l : List (Nat × List α)} (h : ∀ x ∈ l, Slice S x) {n : Nat}
    {c : α} (hc : cover l n = some c) : S[n]? = some c := by
  obtain ⟨x, hx, hcov, hget⟩ := cover_some hc
  have hlt : n - x.1 < x.2.length := by unfold Covers at hcov; omega
  rw [← hget, (h x hx).get hlt, Nat.add_sub_cancel' hcov.1]

def tile : Nat → List (List α) → List (Nat × List α)
  | _, [] => []
  | a, d :: ds => (a, d) :: tile (a + d.length) ds

theorem tile_ge (ds : List (List α)) (a : Nat) : ∀ x ∈ tile a ds, a ≤ x.1 ∧ x.2 ∈ ds := by
  induction ds generalizing a with
  | nil => simp [tile]
  | cons d ds ih =>
    intro x hx
    rcases List.mem_cons.1 hx with rfl | hx
    · exact ⟨Nat.le_refl _, List.mem_cons_self ..⟩
    · obtain ⟨h₁, h₂⟩ := ih _ x hx
      exact ⟨by omega, List.mem_cons_of_mem _ h₂⟩

/-- Two tiles are the same or do not overlap. -/
theorem tile_disjoint (ds : List (List α)) (a : Nat) : ∀ x ∈ tile a ds, ∀ y ∈ tile a ds,
    x = y ∨ x.1 + x.2.length ≤ y.1 ∨ y.1 + y.2.length ≤ x.1 := by
  induction ds generalizing a with
  | nil => simp [tile]
  | cons d ds ih =>
    intro x hx y hy
    rcases List.mem_cons.1 hx with rfl | hx <;> rcases List.mem_cons.1 hy with rfl | hy
    · exact .inl rfl
    · exact .inr (.inl (tile_ge ds _ y hy).1)
    · exact .inr (.inr (tile_ge ds _ x hx).1)
    · exact ih _ x hx y hy

/-- Every position of the whole is covered by a tile. -/
theorem tile_covers (ds : List (List α)) (a : Nat) {n : Nat} (h₁ : a ≤ n)
    (h₂ : n < a + ds.flatten.length) : ∃ x ∈ tile a ds, Covers x n := by
  induction ds generalizing a with
  | nil => simp at h₂; omega
  | cons d ds ih =>
    rw [List.flatten_cons, List.length_append] at h₂
    by_cases h : n < a + d.length
    · exact ⟨(a, d), List.mem_cons_self .., h₁, h⟩
    · obtain ⟨x, hx, hc⟩ := ih (a + d.length) (by omega) (by omega)
      exact ⟨x, List.mem_cons_of_mem _ hx, hc⟩

theorem tile_slice (ds : List (List α)) (pre : List α) :
    ∀ x ∈ tile pre.length ds, Slice (pre ++ ds.flatten) x := by
  induction ds generalizing pre with
  | nil => simp [tile]
  | cons d ds ih =>
    intro x hx
    rcases List.mem_cons.1 hx with rfl | hx
    · simp [Slice]
    · have := ih (pre ++ d) x (by rwa [List.length_append])
      rwa [List.append_assoc, ← List.flatten_cons] at this
end Wirewolf.Overlay
