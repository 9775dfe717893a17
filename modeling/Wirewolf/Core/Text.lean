/-!
# Separated text

`segments d s` is what a loop of `std::getline(s, segment, d)` delivers: the
pieces between the separators, without an empty one behind the last. The
same pieces come from a search for the next `d` as long as something is
left. `splitSub sep s` splits at every occurrence of a longer separator, each
search starting behind the last one. `word` and `words` are the extractions
of a stream that skips blanks.

* `segments_flatMap`, `words_flatMap`, `splitSub_intercalate`: lines, words and
  pieces come back as they were written.
-/
namespace Wirewolf.Text

variable {α : Type} [DecidableEq α]

def segments (d : α) : List α → List (List α)
  | [] => []
  | c :: s =>
    if c = d then [] :: segments d s
    else match segments d s with
      | [] => [[c]]
      | l :: ls => (c :: l) :: ls

/-- The pieces of a text that begins with a terminated piece. -/
theorem segments_cons {d : α} {l : List α} (h : d ∉ l) (s : List α) :
    segments d (l ++ d :: s) = l :: segments d s := by
  induction l with
  | nil => simp [segments]
  | cons c l ih =>
    rw [List.mem_cons, not_or] at h
    rw [List.cons_append, segments, if_neg (Ne.symm h.1), ih h.2]

theorem segments_self {d : α} {l : List α} (h : d ∉ l) (hne : l ≠ []) : segments d l = [l] := by
  induction l with
  | nil => exact absurd rfl hne
  | cons c l ih =>
    rw [List.mem_cons, not_or] at h
    rw [segments, if_neg (Ne.symm h.1)]
    by_cases hl : l = []
    · subst hl
      rfl
    · rw [ih h.2 hl]

/-- Lines come back as they were written. -/
theorem segments_flatMap {d : α} {ls : List (List α)} (h : ∀ l ∈ ls, d ∉ l) :
    segments d (ls.flatMap (· ++ [d])) = ls := by
  induction ls with
  | nil => rfl
  | cons l ls ih =>
    obtain ⟨hl, hls⟩ := List.forall_mem_cons.1 h
    rw [List.flatMap_cons, List.append_assoc, List.singleton_append, segments_cons hl, ih hls]

/-- So do pieces with a separator between each two, unless the last is empty. -/
theorem segments_intercalate {d : α} {ls : List (List α)} (h : ∀ l ∈ ls, d ∉ l ∧ l ≠ []) :
    segments d ([d].intercalate ls) = ls := by
  induction ls with
  | nil => rfl
  | cons l ls ih =>
    obtain ⟨⟨hl, hne⟩, hls⟩ := List.forall_mem_cons.1 h
    by_cases hlast : ls = []
    · subst hlast
      rw [List.intercalate_singleton]
      exact segments_self hl hne
    · rw [List.intercalate_cons_of_ne_nil hlast, List.append_assoc, List.singleton_append,
        segments_cons hl, ih hls]

/-! ## Words -/

section Words

variable {α : Type} (space : α → Bool)

/-- The next word, and what is left behind it. -/
def word (s : List α) : List α × List α :=
  let t := s.dropWhile space
  (t.takeWhile (!space ·), t.dropWhile (!space ·))

def words (s : List α) : List (List α) := (s.splitOnP space).filter (!·.isEmpty)

variable {space}

/-- What a predicate holds of, up to where it stops. -/
theorem span_append {p : α → Bool} {s t : List α} (hs : ∀ c ∈ s, p c = true)
    (ht : ∀ c, t.head? = some c → p c = false) :
    (s ++ t).takeWhile p = s ∧ (s ++ t).dropWhile p = t := by
  have hstop : t.takeWhile p = [] ∧ t.dropWhile p = t := by
    cases t with
    | nil => exact ⟨rfl, rfl⟩
    | cons c t =>
      have hc : ¬ p c = true := by rw [ht c rfl]; exact Bool.false_ne_true
      exact ⟨List.takeWhile_cons_of_neg hc, List.dropWhile_cons_of_neg hc⟩
  rw [List.takeWhile_append_of_pos hs, List.dropWhile_append_of_pos hs, hstop.1, hstop.2,
    List.append_nil]
  exact ⟨rfl, rfl⟩

theorem word_append {w : List α} (hw : ∀ c ∈ w, space c = false) (hne : w ≠ []) {s : List α}
    (hs : ∀ c, s.head? = some c → space c = true) : word space (w ++ s) = (w, s) := by
  obtain ⟨c, v, rfl⟩ := List.exists_cons_of_ne_nil hne
  have hstart : (c :: v ++ s).dropWhile space = c :: v ++ s :=
    List.dropWhile_cons_of_neg (by rw [hw c List.mem_cons_self]; exact Bool.false_ne_true)
  obtain ⟨htake, hdrop⟩ := span_append (p := (!space ·)) (fun d hd => by rw [hw d hd]; rfl)
    (fun d hd => by rw [hs d hd]; rfl)
  rw [word, hstart, htake, hdrop]

/-- A text without blanks is its first word. -/
theorem word_self {w : List α} (hw : ∀ c ∈ w, space c = false) : word space w = (w, []) := by
  by_cases hne : w = []
  · rw [hne]
    rfl
  · have h := word_append hw hne (s := []) nofun
    rwa [List.append_nil] at h

theorem word_blank {c : α} (hc : space c = true) (s : List α) :
    word space (c :: s) = word space s := by
  rw [word, List.dropWhile_cons_of_pos hc, word]

/-- Words behind one blank each. -/
theorem words_flatMap {c : α} (hc : space c = true) {ws : List (List α)}
    (h : ∀ w ∈ ws, w ≠ [] ∧ ∀ d ∈ w, space d = false) : words space (ws.flatMap (c :: ·)) = ws := by
  have key : ∀ w : List α, (∀ d ∈ w, space d = false) →
      (w ++ ws.flatMap (c :: ·)).splitOnP space = w :: ws := by
    induction ws with
    | nil =>
      intro w hw
      rw [List.flatMap_nil, List.append_nil, List.splitOnP_eq_singleton hw]
    | cons v ws ih =>
      intro w hw
      obtain ⟨hv, hws⟩ := List.forall_mem_cons.1 h
      rw [List.flatMap_cons, List.cons_append, List.splitOnP_append_cons_of_forall_mem hw c hc,
        ih hws v hv.2]
  have hall : ws.filter (!·.isEmpty) = ws := List.filter_eq_self.2 fun w hw => by
    rw [List.isEmpty_eq_false_iff.2 (h w hw).1]
    rfl
  have := key [] nofun
  rw [List.nil_append] at this
  rw [words, this, List.filter_cons_of_neg (by simp), hall]

end Words

/-! ## Longer separators -/

/-- The first `skip` elements belong to a separator. -/
def splitSubFrom (sep : List α) : Nat → List α → List (List α)
  | _, [] => [[]]
  | skip + 1, _ :: s => splitSubFrom sep skip s
  | 0, c :: s =>
    if sep.isPrefixOf (c :: s) then [] :: splitSubFrom sep (sep.length - 1) s
    else match splitSubFrom sep 0 s with
      | [] => [[c]]
      | l :: ls => (c :: l) :: ls

def splitSub (sep s : List α) : List (List α) := splitSubFrom sep 0 s

variable {sep a b : List α}

theorem splitSubFrom_skip (l s : List α) : splitSubFrom sep l.length (l ++ s) = splitSub sep s := by
  induction l with
  | nil => rfl
  | cons c l ih => exact ih

theorem splitSub_separator (hsep : sep ≠ []) (s : List α) :
    splitSub sep (sep ++ s) = [] :: splitSub sep s := by
  cases sep with
  | nil => exact absurd rfl hsep
  | cons c sep =>
    have hp : (c :: sep).isPrefixOf (c :: (sep ++ s)) = true :=
      List.isPrefixOf_iff_prefix.2 (List.prefix_append (c :: sep) s)
    rw [splitSub, List.cons_append, splitSubFrom, if_pos hp, List.length_cons, Nat.add_sub_cancel,
      splitSubFrom_skip]

/-- No occurrence of the separator begins in `a` when the separator follows. -/
def Clear (sep a : List α) : Prop := ∀ t, t ≠ [] → t <:+ a → ¬ sep <+: t ++ sep

omit [DecidableEq α] in
theorem Clear.of_cons {c : α} (h : Clear sep (c :: a)) : Clear sep a := fun t hne ht =>
  h t hne (ht.trans (List.suffix_cons c a))

theorem splitSub_append (hsep : sep ≠ []) (h : Clear sep a) (s : List α) :
    splitSub sep (a ++ (sep ++ s)) = a :: splitSub sep s := by
  induction a with
  | nil => exact splitSub_separator hsep s
  | cons c a ih =>
    have hnot : ¬ sep.isPrefixOf (c :: (a ++ (sep ++ s))) = true := by
      rw [List.isPrefixOf_iff_prefix]
      intro hp
      refine h (c :: a) (List.cons_ne_nil c a) (List.suffix_refl _) ?_
      refine List.prefix_of_prefix_length_le hp ⟨s, by simp⟩ ?_
      rw [List.length_append]
      omega
    have ih := ih h.of_cons
    rw [splitSub] at ih
    rw [splitSub, List.cons_append, splitSubFrom, if_neg hnot, ih]

theorem splitSub_of_not_infix (h : ¬ sep <:+: a) : splitSub sep a = [a] := by
  induction a with
  | nil => rfl
  | cons c a ih =>
    rw [List.infix_cons_iff, not_or] at h
    have ih := ih h.2
    rw [splitSub] at ih
    rw [splitSub, splitSubFrom, if_neg fun hp => h.1 (List.isPrefixOf_iff_prefix.1 hp), ih]

/-- Splitting undoes joining. -/
theorem splitSub_intercalate (hsep : sep ≠ []) {l : List (List α)} {last : List α}
    (h : ∀ a ∈ l, Clear sep a) (hlast : ¬ sep <:+: last) :
    splitSub sep (sep.intercalate (l ++ [last])) = l ++ [last] := by
  induction l with
  | nil =>
    rw [List.nil_append, List.intercalate_singleton]
    exact splitSub_of_not_infix hlast
  | cons a l ih =>
    obtain ⟨ha, hl⟩ := List.forall_mem_cons.1 h
    rw [List.cons_append, List.intercalate_cons_of_ne_nil (by simp), List.append_assoc,
      splitSub_append hsep ha, ih hl]

end Wirewolf.Text
