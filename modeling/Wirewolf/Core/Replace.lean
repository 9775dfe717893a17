import Wirewolf.Core.Bytes

/-!
# Replacing a word

`replaceAll` is the loop `pos = s.find(needle, pos)`, replace, skip the
replacement. `StandsAt` says where a word stands in a text.

* `replaceAll_absent`: a replacement that breaks the needle open removes it.
* `infix_of_replaceAll`: and makes no word that it keeps apart.
* `standsAt_delim`: a text cut at a delimiter, for words without it.
-/
namespace Wirewolf.Search

variable {α : Type} [DecidableEq α]

def replaceLoop (needle repl : List α) : Nat → List α → List α
  | 0, s => s
  | fuel + 1, s =>
    match indexOf needle s with
    | none => s
    | some i => s.take i ++ repl ++ replaceLoop needle repl fuel (s.drop (i + needle.length))

/-- Every round uses up at least one element of `s`. -/
def replaceAll (s needle repl : List α) : List α := replaceLoop needle repl (s.length + 1) s

/-! ## Where a word can stand -/

omit [DecidableEq α] in
/-- A word without `x` stands before it or behind it. -/
theorem infix_delim {x : α} {tok : List α} (hx : x ∉ tok) (hne : tok ≠ []) (a b : List α) :
    tok <:+: a ++ x :: b ↔ tok <:+: a ∨ tok <:+: b := by
  constructor
  · intro hx
    obtain ⟨u, v, h⟩ := hx
    rw [List.append_assoc] at h
    rcases List.append_eq_append_iff.1 h with ⟨w, rfl, hw⟩ | ⟨w, rfl, hw⟩
    · -- the word starts in `a`
      rcases List.append_eq_append_iff.1 hw with ⟨z, rfl, -⟩ | ⟨z, rfl, hz⟩
      · exact .inl ⟨u, z, by simp⟩
      · cases z with
        | nil => rw [List.append_nil] at hx hne ⊢; exact .inl ⟨u, [], by simp⟩
        | cons y z =>
          rw [List.cons_append, List.cons.injEq] at hz
          exact absurd (hz.1 ▸ List.mem_append_right _ (List.mem_cons_self ..)) hx
    · cases w with
      | nil =>
        cases tok with
        | nil => exact absurd rfl hne
        | cons y tok =>
          rw [List.nil_append, List.cons_append, List.cons.injEq] at hw
          exact absurd (hw.1 ▸ List.mem_cons_self ..) hx
      | cons y w =>
        rw [List.cons_append, List.cons.injEq] at hw
        exact .inr ⟨w, v, by rw [hw.2, List.append_assoc]⟩
  · intro hx
    rcases hx with h | h
    · exact h.trans (List.prefix_append ..).isInfix
    · exact h.trans ((List.suffix_cons ..).trans (List.suffix_append ..)).isInfix

omit [DecidableEq α] in
/-- A word does not start where its first element does not occur. -/
theorem infix_of_head {h : α} {tok v x : List α} (hv : h ∉ v) :
    h :: tok <:+: v ++ x ↔ h :: tok <:+: x := by
  constructor
  · intro hin
    induction v with
    | nil => exact hin
    | cons y v ih =>
      rw [List.mem_cons, not_or] at hv
      rw [List.cons_append] at hin
      rcases List.infix_cons_iff.1 hin with hp | hi
      · exact absurd (List.cons_prefix_cons.1 hp).1 hv.1
      · exact ih hv.2 hi
  · exact fun hin => hin.trans (List.suffix_append ..).isInfix

/-- The first occurrence, and that there is none before it. -/
theorem indexOf_split {needle s : List α} {i : Nat} (h : indexOf needle s = some i) :
    s = s.take i ++ needle ++ s.drop (i + needle.length) ∧
      ∀ p, p <+: needle → p ≠ needle → ¬ needle <:+: s.take i ++ p := by
  induction s generalizing i with
  | nil =>
    by_cases hn : needle = []
    · subst hn
      refine ⟨by simp, fun p hp hne => absurd (List.prefix_nil.1 hp) hne⟩
    · rw [indexOf, if_neg hn] at h; cases h
  | cons b s ih =>
    rw [indexOf] at h
    split at h
    · next hp =>
      obtain rfl : 0 = i := Option.some.inj h
      obtain ⟨r, hr⟩ := List.isPrefixOf_iff_prefix.1 hp
      refine ⟨by rw [← hr]; simp, fun p hpre hne hin => hne ?_⟩
      have := hin.length_le
      rw [List.take_zero, List.nil_append] at this
      exact hpre.eq_of_length_le this
    · next hp =>
      cases hs : indexOf needle s with
      | none => rw [hs] at h; cases h
      | some j =>
        rw [hs] at h
        obtain rfl : j + 1 = i := Option.some.inj h
        obtain ⟨heq, hfirst⟩ := ih hs
        refine ⟨?_, fun p hpre hne hin => ?_⟩
        · rw [show j + 1 + needle.length = j + needle.length + 1 by omega, List.take_succ_cons,
            List.drop_succ_cons, List.cons_append, List.cons_append, ← heq]
        · rw [List.take_succ_cons, List.cons_append] at hin
          rcases List.infix_cons_iff.1 hin with hstart | hlater
          · -- it would be the first occurrence
            apply hp
            rw [List.isPrefixOf_iff_prefix]
            refine hstart.trans (List.cons_prefix_cons.2 ⟨rfl, ?_⟩)
            obtain ⟨z, hz⟩ := hpre
            refine ⟨z ++ s.drop (j + needle.length), ?_⟩
            rw [List.append_assoc, ← List.append_assoc p, hz, ← List.append_assoc]
            exact heq.symm
          · exact hfirst p hpre hne hlater

/-! ## What a replacement leaves -/

/-- A word never stands across the text `m`. -/
def Apart (m tok : List α) : Prop := ∀ a b, tok <:+: a ++ m ++ b → tok <:+: a ∨ tok <:+: b

omit [DecidableEq α] in
theorem apart_one {x : α} {tok : List α} (hx : x ∉ tok) (hne : tok ≠ []) : Apart [x] tok := by
  intro a b h
  rw [List.append_assoc] at h
  exact (infix_delim hx hne a b).1 h

omit [DecidableEq α] in
theorem apart_two {x y : α} {w tok : List α} (hx : x ∉ tok) (hy : y ∉ tok) (hne : tok ≠ [])
    (hw : ¬ tok <:+: w) : Apart (x :: w ++ [y]) tok := by
  intro a b h
  have hshape : a ++ (x :: w ++ [y]) ++ b = a ++ x :: (w ++ y :: b) := by simp
  rw [hshape] at h
  rcases (infix_delim hx hne a _).1 h with h | h
  · exact .inl h
  · rcases (infix_delim hy hne w b).1 h with h | h
    · exact absurd h hw
    · exact .inr h

section Loop

variable {p n q m : List α}

/-- No word appears by replacing `p ++ n ++ q` by `p ++ m ++ q`. -/
theorem infix_of_replaceLoop {tok : List α} (h : Apart m tok) (fuel : Nat) (v s : List α)
    (hin : tok <:+: v ++ replaceLoop (p ++ n ++ q) (p ++ m ++ q) fuel s) : tok <:+: v ++ s := by
  induction fuel generalizing v s with
  | zero => exact hin
  | succ fuel ih =>
    rw [replaceLoop] at hin
    cases hi : indexOf (p ++ n ++ q) s with
    | none => rw [hi] at hin; exact hin
    | some i =>
      rw [hi] at hin
      dsimp only at hin
      obtain ⟨heq, -⟩ := indexOf_split hi
      generalize s.take i = u at heq hin
      generalize s.drop (i + (p ++ n ++ q).length) = r at heq hin
      rw [heq]
      have hshape : v ++ (u ++ (p ++ m ++ q) ++ replaceLoop (p ++ n ++ q) (p ++ m ++ q) fuel r) =
          (v ++ u ++ p) ++ m ++ (q ++ replaceLoop (p ++ n ++ q) (p ++ m ++ q) fuel r) := by simp
      rw [hshape] at hin
      rcases h _ _ hin with hl | hr
      · exact hl.trans ⟨[], n ++ q ++ r, by simp⟩
      · exact (ih q r hr).trans ⟨v ++ u ++ p ++ n, [], by simp⟩

/-- With enough fuel nothing is left to replace. -/
theorem replaceLoop_absent {h : α} {t : List α} (hneedle : p ++ n ++ q = h :: t) (hq : h ∉ q)
    (hp : p ≠ p ++ n ++ q) (ha : Apart m (p ++ n ++ q)) (fuel : Nat) (s : List α)
    (hfuel : s.length < fuel) : ¬ p ++ n ++ q <:+: replaceLoop (p ++ n ++ q)
    (p ++ m ++ q) fuel s := by
  induction fuel generalizing s with
  | zero => omega
  | succ fuel ih =>
    rw [replaceLoop]
    cases hi : indexOf (p ++ n ++ q) s with
    | none =>
      intro hin
      rw [← containsSub_iff, containsSub, hi] at hin
      cases hin
    | some i =>
      obtain ⟨heq, hfirst⟩ := indexOf_split hi
      have hlen : (s.drop (i + (p ++ n ++ q).length)).length < fuel := by
        have := congrArg List.length heq
        rw [hneedle] at this ⊢
        simp only [List.length_append, List.length_cons] at this ⊢
        omega
      have hrest := ih _ hlen
      intro hin
      dsimp only at hin
      generalize replaceLoop (p ++ n ++ q) (p ++ m ++ q) fuel
        (s.drop (i + (p ++ n ++ q).length)) = r
        at hin hrest
      have hshape : s.take i ++ (p ++ m ++ q) ++ r = (s.take i ++ p) ++ m ++ (q ++ r) := by simp
      rw [hshape] at hin
      rcases ha _ _ hin with hl | hr
      · exact hfirst p ⟨n ++ q, by simp⟩ hp hl
      · rw [hneedle, infix_of_head hq, ← hneedle] at hr
        exact hrest hr

end Loop

theorem infix_of_replaceAll {p n q m tok : List α} (h : Apart m tok) {s : List α}
    (hin : tok <:+: replaceAll s (p ++ n ++ q) (p ++ m ++ q)) : tok <:+: s := by
  apply infix_of_replaceLoop h (s.length + 1) [] s
  exact hin

theorem replaceAll_absent {p n q m t : List α} {h : α} (hneedle : p ++ n ++ q = h :: t) (hq : h ∉ q)
    (hp : p ≠ p ++ n ++ q) (ha : Apart m (p ++ n ++ q)) (s : List α) :
    ¬ p ++ n ++ q <:+: replaceAll s (p ++ n ++ q) (p ++ m ++ q) :=
  replaceLoop_absent hneedle hq hp ha _ s (by omega)

/-! ## Where a word stands -/

/-- The word stands at position `k`. -/
def StandsAt (tok s : List α) (k : Nat) : Prop := tok <+: s.drop k

instance (tok s : List α) (k : Nat) : Decidable (StandsAt tok s k) :=
  inferInstanceAs (Decidable (tok <+: s.drop k))

omit [DecidableEq α] in
theorem StandsAt.within {tok s : List α} {k : Nat} (h : StandsAt tok s k) : tok <:+: s :=
  List.IsInfix.trans (List.IsPrefix.isInfix h) (List.drop_suffix k s).isInfix

omit [DecidableEq α] in
theorem exists_standsAt {tok s : List α} (h : tok <:+: s) : ∃ k, StandsAt tok s k := by
  obtain ⟨u, v, rfl⟩ := h
  refine ⟨u.length, ?_⟩
  rw [StandsAt, List.append_assoc, List.drop_left]
  exact List.prefix_append ..

omit [DecidableEq α] in
/-- A text cut at a delimiter, for words without it. -/
theorem standsAt_delim {x : α} {tok : List α} (hx : x ∉ tok) (hne : tok ≠ [])
    (a b : List α) (k : Nat) :
    StandsAt tok (a ++ x :: b) k ↔
      StandsAt tok a k ∨ ∃ j, k = a.length + 1 + j ∧ StandsAt tok b j := by
  unfold StandsAt
  constructor
  · intro h
    rcases Nat.lt_or_ge a.length k with hk | hk
    · refine .inr ⟨k - (a.length + 1), by omega, ?_⟩
      have hdrop : (a ++ x :: b).drop k = b.drop (k - (a.length + 1)) := by
        rw [show k = a.length + (k - (a.length + 1) + 1) by omega, List.drop_length_add_append,
          List.drop_succ_cons]
        congr 1; omega
      rwa [hdrop] at h
    · left
      rw [List.drop_append_of_le_length hk] at h
      generalize a.drop k = a' at h
      obtain ⟨v, hv⟩ := h
      rcases List.append_eq_append_iff.1 hv with ⟨z, rfl, -⟩ | ⟨z, rfl, hz⟩
      · exact ⟨z, rfl⟩
      · cases z with
        | nil => simp only [List.append_nil, List.prefix_rfl]
        | cons y z =>
          rw [List.cons_append, List.cons.injEq] at hz
          exact absurd (hz.1 ▸ List.mem_append_right _ (List.mem_cons_self ..)) hx
  · intro hx
    rcases hx with h | ⟨j, rfl, h⟩
    · have hk : k ≤ a.length := by
        apply Nat.le_of_not_lt
        intro hlt
        rw [List.drop_eq_nil_of_le (by omega)] at h
        exact hne (List.prefix_nil.1 h)
      rw [List.drop_append_of_le_length hk]
      exact h.trans (List.prefix_append ..)
    · rw [show a.length + 1 + j = a.length + (j + 1) by omega, List.drop_length_add_append,
        List.drop_succ_cons]
      exact h

end Wirewolf.Search
