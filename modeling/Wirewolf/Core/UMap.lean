/-!
# Unordered maps

`UMap κ α` lists the entries of a hash map in its current iteration order;
the keys are unique, and nothing else is promised of the order (`reorder`
changes it to any other). `sweep` is the erasing loop over such a map: each
entry is visited once, in order, and either erased with an effect on the
accumulator or kept.
-/
namespace Wirewolf

structure UMap (κ α : Type) where
  entries : List (κ × α)
  nodup : (entries.map Prod.fst).Nodup

namespace UMap

variable {κ α σ : Type}

def empty : UMap κ α := ⟨[], List.nodup_nil⟩

def size (m : UMap κ α) : Nat := m.entries.length

def find? [DecidableEq κ] (m : UMap κ α) (k : κ) : Option α :=
  (m.entries.find? fun e => e.1 = k).map Prod.snd

def hasKey [DecidableEq κ] (m : UMap κ α) (k : κ) : Bool := m.entries.any fun e => e.1 = k

/-- The entries in another order. -/
def reorder (m : UMap κ α) (l : List (κ × α)) (h : l.Perm m.entries) : UMap κ α :=
  ⟨l, (h.map Prod.fst).nodup_iff.2 m.nodup⟩

theorem nodup_filter (m : UMap κ α) (f : κ × α → Bool) :
    ((m.entries.filter f).map Prod.fst).Nodup :=
  (List.filter_sublist.map Prod.fst).nodup m.nodup

/-- Bind `k` to `v`, whether or not it is there. -/
def put [DecidableEq κ] (m : UMap κ α) (k : κ) (v : α) : UMap κ α where
  entries := (k, v) :: m.entries.filter fun e => e.1 ≠ k
  nodup := by
    rw [List.map_cons, List.nodup_cons]
    refine ⟨fun h => ?_, m.nodup_filter _⟩
    obtain ⟨e, he, hk⟩ := List.mem_map.1 h
    simpa [hk] using (List.mem_filter.1 he).2

theorem mem_put [DecidableEq κ] {m : UMap κ α} {k : κ} {v : α} {e : κ × α} :
    e ∈ (m.put k v).entries ↔ e = (k, v) ∨ (e ∈ m.entries ∧ e.1 ≠ k) := by
  simp [put, List.mem_filter]

theorem eq_of_mem {m : UMap κ α} {k : κ} {v w : α} (h₁ : (k, v) ∈ m.entries)
    (h₂ : (k, w) ∈ m.entries) : v = w := by
  have key : ∀ l : List (κ × α), (l.map Prod.fst).Nodup → (k, v) ∈ l → (k, w) ∈ l → v = w := by
    intro l hl a b
    induction l with
    | nil => cases a
    | cons e l ih =>
      rw [List.map_cons, List.nodup_cons] at hl
      rcases List.mem_cons.1 a with rfl | a' <;> rcases List.mem_cons.1 b with hb | b'
      · exact (Prod.mk.inj hb).2.symm
      · exact absurd (List.mem_map_of_mem b') hl.1
      · subst hb; exact absurd (List.mem_map_of_mem a') hl.1
      · exact ih hl.2 a' b'
  exact key _ m.nodup h₁ h₂

theorem find?_eq_some [DecidableEq κ] {m : UMap κ α} {k : κ} {v : α} :
    m.find? k = some v ↔ (k, v) ∈ m.entries := by
  unfold find?
  constructor
  · intro h
    obtain ⟨e, he, rfl⟩ := Option.map_eq_some_iff.1 h
    have hk : e.1 = k := by simpa using List.find?_some he
    rw [← hk]; exact List.mem_of_find?_eq_some he
  · intro h
    cases hf : m.entries.find? fun e => e.1 = k with
    | none => simpa using List.find?_eq_none.1 hf _ h
    | some e =>
      have hk : e.1 = k := by simpa using List.find?_some hf
      have hm : (k, e.2) ∈ m.entries := by rw [← hk]; exact List.mem_of_find?_eq_some hf
      rw [eq_of_mem hm h |>.symm]; rfl

theorem find?_eq_none [DecidableEq κ] {m : UMap κ α} {k : κ} :
    m.find? k = none ↔ ∀ x ∈ m.entries, x.1 ≠ k := by
  rw [find?, Option.map_eq_none_iff, List.find?_eq_none]
  simp

theorem find?_put_self [DecidableEq κ] (m : UMap κ α) (k : κ) (v : α) :
    (m.put k v).find? k = some v := find?_eq_some.2 (mem_put.2 (.inl rfl))

/-- A new key. -/
theorem keys_put [DecidableEq κ] {m : UMap κ α} {k : κ} (v : α)
    (h : k ∉ m.entries.map Prod.fst) :
    (m.put k v).entries.map Prod.fst = k :: m.entries.map Prod.fst := by
  rw [put, List.map_cons, List.filter_eq_self.2 fun e he => ?_]
  have hne : e.1 ≠ k := fun hk => h (hk ▸ List.mem_map_of_mem he)
  simpa using hne

theorem size_put_le [DecidableEq κ] (m : UMap κ α) (k : κ) (v : α) :
    (m.put k v).size ≤ m.size + 1 := by
  rw [size, put, List.length_cons]
  exact Nat.succ_le_succ (List.length_filter_le ..)

/-- A bound key takes no more room. -/
theorem size_put_of_find? [DecidableEq κ] {m : UMap κ α} {k : κ} {v w : α}
    (h : m.find? k = some w) :
    (m.put k v).size ≤ m.size := by
  have hlt : (m.entries.filter fun e => e.1 ≠ k).length < m.entries.length :=
    List.length_filter_lt_length_iff_exists.2 ⟨(k, w), find?_eq_some.1 h, by simp⟩
  rw [size, put, List.length_cons]
  exact hlt

theorem size_put_new [DecidableEq κ] {m : UMap κ α} {k : κ} (v : α) (h : m.find? k = none) :
    (m.put k v).size = m.size + 1 := by
  have hself : (m.entries.filter fun e => e.1 ≠ k) = m.entries :=
    List.filter_eq_self.2 fun e he => by simpa using find?_eq_none.1 h e he
  rw [size, put, List.length_cons, hself]
  rfl

@[simp] theorem size_reorder (m : UMap κ α) (l : List (κ × α)) (h : l.Perm m.entries) :
    (m.reorder l h).size = m.size := h.length_eq

/-- Maps with the same entries look up alike, whatever their order. -/
theorem find?_congr [DecidableEq κ] {m n : UMap κ α} {k : κ}
    (h : ∀ v, (k, v) ∈ m.entries ↔ (k, v) ∈ n.entries) : m.find? k = n.find? k := by
  refine Option.ext fun v => ?_
  rw [find?_eq_some, find?_eq_some]
  exact h v

/-- Maps that look up alike have the same entries. -/
theorem perm_of_find? [DecidableEq κ] {m n : UMap κ α} (h : ∀ k, m.find? k = n.find? k) :
    m.entries.Perm n.entries := by
  have hnodup : ∀ m : UMap κ α, m.entries.Nodup := fun m =>
    List.Pairwise.of_map Prod.fst (fun _ _ hne he => hne (congrArg Prod.fst he)) m.nodup
  refine (List.perm_ext_iff_of_nodup (hnodup m) (hnodup n)).2 fun e => ?_
  rw [← Prod.eta e, ← find?_eq_some, ← find?_eq_some, h]

theorem find?_put_of_ne [DecidableEq κ] (m : UMap κ α) {k k' : κ} (v : α) (h : k' ≠ k) :
    (m.put k v).find? k' = m.find? k' := by
  refine find?_congr fun w => ?_
  rw [mem_put]
  constructor
  · rintro (he | ⟨hw, -⟩)
    · exact absurd (Prod.mk.inj he).1 h
    · exact hw
  · exact fun hw => .inr ⟨hw, h⟩

theorem find?_reorder [DecidableEq κ] (m : UMap κ α) (k : κ) (l : List (κ × α))
    (h : l.Perm m.entries) : (m.reorder l h).find? k = m.find? k :=
  find?_congr fun _ => h.mem_iff

/-- The values through `f`. -/
def map {β : Type} (f : α → β) (m : UMap κ α) : UMap κ β where
  entries := m.entries.map fun e => (e.1, f e.2)
  nodup := by rw [List.map_map]; exact m.nodup

@[simp] theorem size_map {β : Type} (f : α → β) (m : UMap κ α) : (m.map f).size = m.size :=
  List.length_map _

theorem find?_map {β : Type} [DecidableEq κ] (f : α → β) (m : UMap κ α) (k : κ) :
    (m.map f).find? k = (m.find? k).map f := by
  refine Option.ext fun w => ?_
  rw [find?_eq_some, Option.map_eq_some_iff, map, List.mem_map]
  constructor
  · rintro ⟨⟨k', v⟩, hmem, he⟩
    obtain ⟨rfl, rfl⟩ := Prod.mk.inj he
    exact ⟨v, find?_eq_some.2 hmem, rfl⟩
  · rintro ⟨v, hv, rfl⟩
    exact ⟨(k, v), find?_eq_some.1 hv, rfl⟩

theorem map_put {β : Type} [DecidableEq κ] (f : α → β) (m : UMap κ α) (k : κ) (v : α) :
    (m.put k v).map f = (m.map f).put k (f v) := by
  simp [map, put, List.filter_map, Function.comp_def]

/-! ## The erasing loop -/

def sweepLoop (cond : κ → α → Bool) (g : σ → κ → α → σ) : σ → List (κ × α) → σ × List (κ × α)
  | acc, [] => (acc, [])
  | acc, (k, v) :: l =>
    if cond k v then sweepLoop cond g (g acc k v) l
    else
      let r := sweepLoop cond g acc l
      (r.1, (k, v) :: r.2)

/-- The loop keeps what does not meet the condition and folds the effect over
what does. -/
theorem sweepLoop_eq (cond : κ → α → Bool) (g : σ → κ → α → σ) (l : List (κ × α)) (acc : σ) :
    sweepLoop cond g acc l =
      ((l.filter fun e => cond e.1 e.2).foldl (fun acc e => g acc e.1 e.2) acc,
        l.filter fun e => !cond e.1 e.2) := by
  induction l generalizing acc with
  | nil => rfl
  | cons e l ih =>
    obtain ⟨k, v⟩ := e
    unfold sweepLoop
    cases h : cond k v with
    | true => rw [if_pos rfl, ih]; simp [h]
    | false => simp [h, ih]

def sweep (cond : κ → α → Bool) (g : σ → κ → α → σ) (acc : σ) (m : UMap κ α) : σ × UMap κ α :=
  ((sweepLoop cond g acc m.entries).1,
    ⟨(sweepLoop cond g acc m.entries).2, by rw [sweepLoop_eq]; exact m.nodup_filter _⟩)

theorem sweep_acc (cond : κ → α → Bool) (g : σ → κ → α → σ) (acc : σ) (m : UMap κ α) :
    (sweep cond g acc m).1 =
      (m.entries.filter fun e => cond e.1 e.2).foldl (fun acc e => g acc e.1 e.2) acc := by
  simp only [sweep, sweepLoop_eq]

/-- Two sweeps of one map whose effects keep a relation. -/
theorem sweep_rel {τ : Type} {R : σ → τ → Prop} {g : σ → κ → α → σ} {f : τ → κ → α → τ}
    {m : UMap κ α}
    (cond : κ → α → Bool) (h : ∀ a b, ∀ x ∈ m.entries, R a b → R (g a x.1 x.2) (f b x.1 x.2))
    {a : σ} {b : τ} (hab : R a b) : R (sweep cond g a m).1 (sweep cond f b m).1 := by
  rw [sweep_acc, sweep_acc]
  have hl : ∀ x ∈ m.entries.filter (fun e => cond e.1 e.2), x ∈ m.entries := fun x hx =>
    (List.mem_filter.1 hx).1
  revert hl
  generalize m.entries.filter (fun e => cond e.1 e.2) = l
  intro hl
  induction l generalizing a b with
  | nil => exact hab
  | cons x l ih =>
    obtain ⟨hx, hl⟩ := List.forall_mem_cons.1 hl
    exact ih (h a b x hx hab) hl

/-- What every effect keeps. -/
theorem sweep_keeps {I : σ → Prop} {g : σ → κ → α → σ} {m : UMap κ α} (cond : κ → α → Bool)
    (h : ∀ a, ∀ x ∈ m.entries, I a → I (g a x.1 x.2)) {a : σ} (ha : I a) : I (sweep cond g a m).1 :=
  sweep_rel (R := fun a (_ : Unit) => I a) cond (f := fun u _ _ => u) (fun a _ => h a) (b := ()) ha

/-- What a sweep leaves does not depend on its effect. -/
theorem sweep_left {τ : Type} (cond : κ → α → Bool) (g : σ → κ → α → σ) (g' : τ → κ → α → τ) (a : σ)
    (b : τ) (m : UMap κ α) : (sweep cond g a m).2 = (sweep cond g' b m).2 := by
  simp only [sweep, sweepLoop_eq]

theorem mem_sweep {cond : κ → α → Bool} {g : σ → κ → α → σ} {acc : σ} {m : UMap κ α} {e : κ × α} :
    e ∈ (sweep cond g acc m).2.entries ↔ e ∈ m.entries ∧ cond e.1 e.2 = false := by
  simp [sweep, sweepLoop_eq, List.mem_filter]

theorem find?_filter [DecidableEq κ] (m : UMap κ α) (f : κ × α → Bool) (k : κ) :
    (⟨m.entries.filter f, m.nodup_filter f⟩ : UMap κ α).find? k = (m.find? k).filter fun v =>
      f (k, v) := by
  refine Option.ext fun v => ?_
  rw [find?_eq_some, Option.filter_eq_some_iff, find?_eq_some, List.mem_filter]

/-- What the loop leaves under a key. -/
theorem find?_sweep [DecidableEq κ] (cond : κ → α → Bool) (g : σ → κ → α → σ) (acc : σ)
    (m : UMap κ α)
    (k : κ) : (sweep cond g acc m).2.find? k = (m.find? k).filter fun v => !cond k v := by
  rw [← find?_filter m fun e => !cond e.1 e.2]
  refine find?_congr fun v => ?_
  rw [mem_sweep, List.mem_filter, Bool.not_eq_true']

/-- A view of the accumulator that only the entry of one key changes sees that
entry erased, or nothing. -/
theorem sweep_view {β : Type} [DecidableEq κ] (cond : κ → α → Bool) {g : σ → κ → α → σ}
    {view : σ → β}
    (step : β → α → β) {key : κ} (hother : ∀ acc k v, k ≠ key → view (g acc k v) = view acc)
    (hown : ∀ acc v, view (g acc key v) = step (view acc) v) (acc : σ) (m : UMap κ α) :
    view (sweep cond g acc m).1 =
      ((m.find? key).filter (cond key)).elim (view acc) (step (view acc)) := by
  have hfold : ∀ (l : List (κ × α)) (acc : σ), (l.map Prod.fst).Nodup →
      view (l.foldl (fun acc e => g acc e.1 e.2) acc) =
        ((l.find? fun e => e.1 = key).map Prod.snd).elim (view acc) (step (view acc)) := by
    intro l
    induction l with
    | nil => exact fun _ _ => rfl
    | cons e l ih =>
      intro acc hnodup
      rw [List.map_cons, List.nodup_cons] at hnodup
      rw [List.foldl_cons, ih _ hnodup.2]
      by_cases hk : e.1 = key
      · -- the key comes only once
        have hnone : l.find? (fun e => e.1 = key) = none :=
          List.find?_eq_none.2 fun x hx hxk => hnodup.1
            (List.mem_map.2 ⟨x, hx, (of_decide_eq_true hxk).trans hk.symm⟩)
        rw [hnone, List.find?_cons_of_pos (by simpa using hk), Option.map_none,
          Option.elim_none, hk, hown]
        rfl
      · rw [hother _ _ _ hk, List.find?_cons_of_neg (by simpa using hk)]
  rw [sweep_acc, hfold _ _ (m.nodup_filter _), ← find?_filter m fun e => cond e.1 e.2]
  rfl

theorem size_sweep_le (cond : κ → α → Bool) (g : σ → κ → α → σ) (acc : σ) (m : UMap κ α) :
    (sweep cond g acc m).2.size ≤ m.size := by
  simp only [size, sweep, sweepLoop_eq]
  exact List.length_filter_le ..

end UMap
end Wirewolf
