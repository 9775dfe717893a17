/-!
# Labelled transition systems

States, labels, a set of initial states and a step relation. `Reachable`
and `Inductive` package the induction over a run once: an invariant that
holds initially and is kept by every step holds in every reachable state.
`Along` is a condition on every step of a run, judged in the state before
the step, and `guard` the system of the steps that meet it; `ofFn` is the
system of a deterministic step function, whose runs are exactly its
executions (`run_iff_exec`).
-/
namespace Wirewolf

structure LTS (S L : Type) where
  init : S → Prop
  step : S → L → S → Prop

namespace LTS

variable {S L : Type} {M : LTS S L}

inductive Run (M : LTS S L) : S → List L → S → Prop
  | nil (s : S) : Run M s [] s
  | cons {s s' s'' : S} {l : L} {ls : List L} : M.step s l s' → Run M s' ls s'' →
      Run M s (l :: ls) s''

def Reachable (M : LTS S L) (s : S) : Prop := ∃ s₀ ls, M.init s₀ ∧ M.Run s₀ ls s

structure Inductive (M : LTS S L) (I : S → Prop) : Prop where
  init : ∀ s, M.init s → I s
  step : ∀ s l s', I s → M.step s l s' → I s'

theorem Inductive.run {I : S → Prop} (h : M.Inductive I) {s s' : S} {ls : List L}
    (hr : M.Run s ls s') (hs : I s) : I s' := by
  induction hr with
  | nil => exact hs
  | cons hst _ ih => exact ih (h.step _ _ _ hs hst)

theorem Inductive.reachable {I : S → Prop} (h : M.Inductive I) (s : S) (hr : M.Reachable s) :
    I s := by
  obtain ⟨s₀, ls, h₀, hrun⟩ := hr
  exact h.run hrun (h.init s₀ h₀)

theorem Run.history_from {I : List L → S → Prop}
    (hI : ∀ pre s l s', I pre s → M.step s l s' → I (pre ++ [l]) s') {s s' : S} {ls : List L}
    (hr : M.Run s ls s') (pre : List L) (hs : I pre s) : I (pre ++ ls) s' := by
  induction hr generalizing pre with
  | nil => rwa [List.append_nil]
  | @cons s s₁ s' l ls hst _ ih =>
    have h₁ : I (pre ++ [l] ++ ls) s' := ih _ (hI _ _ _ _ hs hst)
    rwa [List.append_assoc, List.singleton_append] at h₁

/-- An invariant that speaks of the labels so far. -/
theorem Run.history {I : List L → S → Prop}
    (hI : ∀ pre s l s', I pre s → M.step s l s' → I (pre ++ [l]) s') {s s' : S} {ls : List L}
    (hr : M.Run s ls s') (hs : I [] s) : I ls s' :=
  hr.history_from hI [] hs

theorem Run.snoc {s s' s'' : S} {ls : List L} {l : L} (hr : M.Run s ls s')
    (hst : M.step s' l s'') : M.Run s (ls ++ [l]) s'' := by
  induction hr with
  | nil => exact .cons hst (.nil _)
  | cons hst' _ ih => exact .cons hst' (ih hst)

/-- Where every state that is not at the goal has a step that lowers the
rank, every state has a run to the goal, no longer than its rank. -/
theorem exists_run_to {I goal : S → Prop} (rank : S → Nat)
    (hI : ∀ s l s', I s → M.step s l s' → I s')
    (hlower : ∀ s, I s → ¬ goal s → ∃ l s', M.step s l s' ∧ rank s' < rank s) {s : S} (hs : I s) :
    ∃ ls s', M.Run s ls s' ∧ goal s' ∧ ls.length ≤ rank s := by
  induction hn : rank s using Nat.strongRecOn generalizing s with
  | ind n ih =>
    subst hn
    by_cases hgoal : goal s
    · exact ⟨[], s, .nil s, hgoal, Nat.zero_le _⟩
    · obtain ⟨l, s₁, hst, hlt⟩ := hlower s hs hgoal
      obtain ⟨ls, s', hr, hg, hlen⟩ := ih _ hlt (hI _ _ _ hs hst) rfl
      exact ⟨l :: ls, s', .cons hst hr, hg, Nat.lt_of_le_of_lt hlen hlt⟩

/-- Where every label can happen in every state, every sequence of labels is
that of a run. -/
theorem exists_run (h : ∀ s l, ∃ s', M.step s l s') (ls : List L) (s : S) :
    ∃ s', M.Run s ls s' := by
  induction ls generalizing s with
  | nil => exact ⟨s, .nil s⟩
  | cons l ls ih =>
    obtain ⟨s₁, hst⟩ := h s l
    obtain ⟨s', hr⟩ := ih s₁
    exact ⟨s', .cons hst hr⟩

/-- Every step of the run from `s` with labels `ls` is taken in a state
where `P` allows its label. -/
def Along (M : LTS S L) (P : S → L → Prop) : S → List L → Prop
  | _, [] => True
  | s, l :: ls => P s l ∧ ∀ s', M.step s l s' → Along M P s' ls

/-- The steps of `M` that `P` allows. -/
def guard (M : LTS S L) (P : S → L → Prop) : LTS S L where
  init := M.init
  step s l s' := P s l ∧ M.step s l s'

theorem run_guard {P : S → L → Prop} {s s' : S} {ls : List L} (hr : M.Run s ls s')
    (ha : M.Along P s ls) : (M.guard P).Run s ls s' := by
  induction hr with
  | nil => exact .nil _
  | cons hst _ ih => exact .cons ⟨ha.1, hst⟩ (ih (ha.2 _ hst))

theorem Run.of_guard {P : S → L → Prop} {s s' : S} {ls : List L} (hr : (M.guard P).Run s ls s') :
    M.Run s ls s' := by
  induction hr with
  | nil => exact .nil _
  | cons hst _ ih => exact .cons hst.2 ih

/-- A fact `D` that a run starts without, that every disallowed step creates,
no allowed one creates and no step removes, is absent at the end of a run
exactly when its steps were allowed. -/
theorem run_guard_iff {P : S → L → Prop} {D : S → Prop}
    (hD : ∀ s l s', M.step s l s' → (D s' ↔ D s ∨ ¬ P s l)) {s s' : S} {ls : List L}
    (hs : ¬ D s) (hr : M.Run s ls s') : (M.guard P).Run s ls s' ↔ ¬ D s' := by
  have keep : ∀ {s s' ls}, M.Run s ls s' → D s → D s' := by
    intro s s' ls hr
    induction hr with
    | nil => exact id
    | cons hst _ ih => exact fun h => ih ((hD _ _ _ hst).2 (.inl h))
  constructor
  · intro hg
    clear hr
    induction hg with
    | nil => exact hs
    | cons hst _ ih => exact ih fun h => ((hD _ _ _ hst.2).1 h).elim hs fun h => h hst.1
  · intro hn
    induction hr with
    | nil => exact .nil _
    | @cons s s₁ s' l ls hst hrun ih =>
      have hd : ¬ D s₁ := fun h => hn (keep hrun h)
      have hP : P s l := Classical.byContradiction fun h => hd ((hD _ _ _ hst).2 (.inr h))
      exact .cons ⟨hP, hst⟩ (ih hd hn)

/-- The condition at one step of a run. -/
theorem Along.at_step {P : S → L → Prop} {s s' : S} {l : L} {pre ls : List L}
    (ha : M.Along P s ls) (hpre : pre ++ [l] <+: ls) (hr : M.Run s pre s') : P s' l := by
  induction hr generalizing ls with
  | nil s =>
    obtain ⟨rest, rfl⟩ := hpre
    exact ha.1
  | cons hst _ ih =>
    obtain ⟨rest, rfl⟩ := hpre
    exact ih (ha.2 _ hst) ⟨rest, rfl⟩

/-- The system of a partial step function. -/
def ofFn (init : S → Prop) (f : S → L → Option S) : LTS S L where
  init := init
  step s l s' := f s l = some s'

def exec (f : S → L → Option S) : S → List L → Option S
  | s, [] => some s
  | s, l :: ls => (f s l).bind fun s' => exec f s' ls

theorem run_iff_exec (init : S → Prop) (f : S → L → Option S) (s s' : S) (ls : List L) :
    (ofFn init f).Run s ls s' ↔ exec f s ls = some s' := by
  constructor
  · intro h
    induction h with
    | nil => rfl
    | cons hst _ ih =>
      have hst' : f _ _ = some _ := hst
      simp only [exec, hst', Option.bind_some, ih]
  · intro h
    induction ls generalizing s with
    | nil => cases h; exact .nil _
    | cons l ls ih =>
      obtain ⟨s₁, h₁, h₂⟩ := Option.bind_eq_some_iff.1 h
      exact .cons h₁ (ih s₁ h₂)

/-- An execution whose end passes a test is a run. -/
theorem run_of_exec_any (init : S → Prop) {f : S → L → Option S} {s : S} {ls : List L}
    {test : S → Bool} (h : (exec f s ls).any test = true) :
    ∃ s', (ofFn init f).Run s ls s' ∧ test s' = true := by
  obtain ⟨s', hs, ht⟩ := (Option.any_eq_true _ _).1 h
  exact ⟨s', (run_iff_exec init f s s' ls).2 hs, ht⟩

/-- `Along` for the system of a step function, by executing it. -/
def checks (f : S → L → Option S) (P : S → L → Prop) [∀ s l, Decidable (P s l)] :
    S → List L → Bool
  | _, [] => true
  | s, l :: ls => decide (P s l) && (f s l).all fun s' => checks f P s' ls

theorem along_of_checks (init : S → Prop) {f : S → L → Option S} {P : S → L → Prop}
    [∀ s l, Decidable (P s l)] {s : S} {ls : List L} (h : checks f P s ls = true) :
    (ofFn init f).Along P s ls := by
  induction ls generalizing s with
  | nil => trivial
  | cons l ls ih =>
    rw [checks, Bool.and_eq_true, Option.all_eq_true] at h
    exact ⟨of_decide_eq_true h.1, fun s' hst => ih (h.2 s' hst)⟩

/-- A fact `D` that a run starts without, that no allowed step creates, that
every disallowed step creates and that no step removes, holds at the end of
a run exactly when some step was disallowed. -/
theorem along_iff_not {I D : S → Prop} {P : S → L → Prop} (f : S → L → Option S)
    (init : S → Prop) (hI : ∀ s l s', I s → f s l = some s' → I s')
    (hD : ∀ s l s', I s → f s l = some s' → (D s' ↔ D s ∨ ¬ P s l)) {s s' : S} {ls : List L}
    (hs : I s) (hd : ¬ D s) (hr : (ofFn init f).Run s ls s') :
    (ofFn init f).Along P s ls ↔ ¬ D s' := by
  have keep : ∀ {s s' ls}, (ofFn init f).Run s ls s' → I s → D s → D s' := by
    intro s s' ls hr
    induction hr with
    | nil => exact fun _ h => h
    | cons hst _ ih => exact fun hi h => ih (hI _ _ _ hi hst) ((hD _ _ _ hi hst).2 (.inl h))
  induction hr with
  | nil => exact ⟨fun _ => hd, fun _ => trivial⟩
  | @cons s s₁ s₂ l ls hst hrun ih =>
    have h₁ := hI _ _ _ hs hst
    have hiff := hD _ _ _ hs hst
    by_cases hP : P s l
    · have hd₁ : ¬ D s₁ := fun h => (hiff.1 h).elim hd (fun h => h hP)
      refine Iff.trans ⟨fun h => h.2 _ hst, fun h => ⟨hP, fun s₁' hst' => ?_⟩⟩ (ih h₁ hd₁)
      cases Option.some.inj ((show f s l = some s₁ from hst).symm.trans hst'); exact h
    · exact ⟨fun h => absurd h.1 hP, fun h => absurd (keep hrun h₁ (hiff.2 (.inr hP))) h⟩

end LTS
end Wirewolf
