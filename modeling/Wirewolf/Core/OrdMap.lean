import Mathlib.Order.Lattice

/-!
# Ordered maps as sorted association lists

`OrdMap κ α` is a list of entries with strictly increasing keys; the order
is a field, so every value is a map with unique keys in iteration order.
`emplace` inserts only when the key is absent (`emplace_of_mem`), otherwise
the map splits around the new key (`emplace_split`). `ofSublist` keeps any
subsequence of the entries, e.g. what an erasing loop leaves. `alter` binds a
key to a function of what it was bound to.
-/
namespace Wirewolf

structure OrdMap (κ α : Type) [LinearOrder κ] where
  entries : List (κ × α)
  sorted : entries.Pairwise fun a b => a.1 < b.1

namespace OrdMap

variable {κ α : Type} [LinearOrder κ]

instance [DecidableEq α] : DecidableEq (OrdMap κ α) := fun a b =>
  decidable_of_iff (a.entries = b.entries)
    ⟨fun h => by cases a; cases b; cases h; rfl, fun h => h ▸ rfl⟩

def empty : OrdMap κ α := ⟨[], .nil⟩

def size (m : OrdMap κ α) : Nat := m.entries.length

def isEmpty (m : OrdMap κ α) : Bool := m.entries.isEmpty

def hasKey (m : OrdMap κ α) (k : κ) : Bool := m.entries.any fun e => e.1 = k

def insertNew (k : κ) (v : α) : List (κ × α) → List (κ × α)
  | [] => [(k, v)]
  | e :: r => if k < e.1 then (k, v) :: e :: r else if k = e.1 then e :: r else e :: insertNew k v r

@[simp] theorem entries_empty : (empty : OrdMap κ α).entries = [] := rfl

theorem eq_empty {m : OrdMap κ α} (h : m.entries = []) : m = .empty := by
  cases m with
  | mk l hl => cases h; rfl

theorem isEmpty_iff {m : OrdMap κ α} : m.isEmpty = true ↔ m.entries = [] := List.isEmpty_iff

theorem hasKey_iff {m : OrdMap κ α} {k : κ} : m.hasKey k = true ↔ ∃ v, (k, v) ∈ m.entries := by
  simp only [hasKey, List.any_eq_true, decide_eq_true_eq, Prod.exists]
  exact ⟨fun ⟨a, b, h, e⟩ => ⟨b, e ▸ h⟩, fun ⟨v, h⟩ => ⟨k, v, h, rfl⟩⟩

theorem insertNew_of_mem {k : κ} {v w : α} : ∀ {l : List (κ × α)},
    l.Pairwise (fun a b => a.1 < b.1) → (k, w) ∈ l → insertNew k v l = l
  | e :: r, hs, h => by
    obtain ⟨hlt, hr⟩ := List.pairwise_cons.1 hs
    rcases List.mem_cons.1 h with rfl | h'
    · simp [insertNew]
    · have hk := hlt _ h'
      simp only [insertNew]
      rw [if_neg (not_lt_of_gt hk), if_neg (ne_of_gt hk), insertNew_of_mem hr h']

theorem insertNew_split {k : κ} {v : α} : ∀ {l : List (κ × α)},
    l.Pairwise (fun a b => a.1 < b.1) → (∀ w, (k, w) ∉ l) →
    ∃ lo hi, l = lo ++ hi ∧ insertNew k v l = lo ++ (k, v) :: hi ∧ (∀ e ∈ lo, e.1 < k) ∧
      ∀ e ∈ hi, k < e.1
  | [], _, _ => ⟨[], [], rfl, rfl, by simp, by simp⟩
  | e :: r, hs, h => by
    obtain ⟨hlt, hr⟩ := List.pairwise_cons.1 hs
    by_cases hk : k < e.1
    · refine ⟨[], e :: r, rfl, by simp [insertNew, hk], by simp, ?_⟩
      intro x hx
      rcases List.mem_cons.1 hx with rfl | hx
      · exact hk
      · exact lt_trans hk (hlt x hx)
    · have hne : k ≠ e.1 := fun he => h e.2 (by rw [he]; exact List.mem_cons_self ..)
      obtain ⟨lo, hi, e₁, e₂, h₁, h₂⟩ := insertNew_split (v := v) hr
        (fun w hw => h w (List.mem_cons_of_mem _ hw))
      refine ⟨e :: lo, hi, by rw [e₁]; rfl, by simp [insertNew, hk, hne, e₂], ?_, h₂⟩
      intro x hx
      rcases List.mem_cons.1 hx with rfl | hx
      · exact lt_of_le_of_ne (not_lt.1 hk) (Ne.symm hne)
      · exact h₁ x hx

theorem insertNew_sorted (k : κ) (v : α) {l : List (κ × α)}
    (hs : l.Pairwise fun a b => a.1 < b.1) : (insertNew k v l).Pairwise fun a b => a.1 < b.1 := by
  by_cases h : ∃ w, (k, w) ∈ l
  · obtain ⟨w, hw⟩ := h
    rw [insertNew_of_mem hs hw]; exact hs
  · obtain ⟨lo, hi, rfl, e, h₁, h₂⟩ := insertNew_split (v := v) hs (fun w hw => h ⟨w, hw⟩)
    rw [e]
    obtain ⟨p₁, p₂, p₃⟩ := List.pairwise_append.1 hs
    refine List.pairwise_append.2 ⟨p₁, List.pairwise_cons.2 ⟨h₂, p₂⟩, ?_⟩
    intro a ha b hb
    rcases List.mem_cons.1 hb with rfl | hb
    · exact h₁ a ha
    · exact p₃ a ha b hb

/-- Insert `(k, v)` unless the key is already there. -/
def emplace (m : OrdMap κ α) (k : κ) (v : α) : OrdMap κ α :=
  ⟨insertNew k v m.entries, insertNew_sorted k v m.sorted⟩

theorem emplace_of_mem {m : OrdMap κ α} {k : κ} {v w : α} (h : (k, w) ∈ m.entries) :
    (m.emplace k v).entries = m.entries := insertNew_of_mem m.sorted h

theorem emplace_split {m : OrdMap κ α} {k : κ} (v : α) (h : m.hasKey k = false) :
    ∃ lo hi, m.entries = lo ++ hi ∧ (m.emplace k v).entries = lo ++ (k, v) :: hi ∧
      (∀ e ∈ lo, e.1 < k) ∧ ∀ e ∈ hi, k < e.1 :=
  insertNew_split m.sorted fun w hw => by
    rw [hasKey_iff.2 ⟨w, hw⟩] at h; cases h

theorem mem_emplace {m : OrdMap κ α} {k : κ} {v : α} {e : κ × α}
    (h : e ∈ (m.emplace k v).entries) : e ∈ m.entries ∨ e = (k, v) := by
  cases hk : m.hasKey k with
  | true =>
    obtain ⟨w, hw⟩ := hasKey_iff.1 hk
    rw [emplace_of_mem hw] at h; exact .inl h
  | false =>
    obtain ⟨lo, hi, e₁, e₂, -, -⟩ := emplace_split v hk
    rw [e₂, List.mem_append, List.mem_cons] at h
    rw [e₁, List.mem_append]
    rcases h with h | h | h
    · exact .inl (.inl h)
    · exact .inr h
    · exact .inl (.inr h)

theorem size_emplace_le (m : OrdMap κ α) (k : κ) (v : α) : (m.emplace k v).size ≤ m.size + 1 := by
  cases hk : m.hasKey k with
  | true =>
    obtain ⟨w, hw⟩ := hasKey_iff.1 hk
    simp [size, emplace_of_mem hw]
  | false =>
    obtain ⟨lo, hi, e₁, e₂, -, -⟩ := emplace_split v hk
    simp [size, e₁, e₂]; omega

/-- The map of a subsequence of the entries. -/
def ofSublist (m : OrdMap κ α) (l : List (κ × α)) (h : l.Sublist m.entries) : OrdMap κ α :=
  ⟨l, m.sorted.sublist h⟩

/-! ## Lookup and assignment -/

def find? (m : OrdMap κ α) (k : κ) : Option α := (m.entries.find? fun e => e.1 = k).map Prod.snd

def alterEntries (k : κ) (f : Option α → α) : List (κ × α) → List (κ × α)
  | [] => [(k, f none)]
  | e :: r =>
    if k < e.1 then (k, f none) :: e :: r
    else if k = e.1 then (k, f (some e.2)) :: r
    else e :: alterEntries k f r

theorem alterEntries_keys {k : κ} {f : Option α → α} {l : List (κ × α)} {e : κ × α}
    (h : e ∈ alterEntries k f l) : e.1 = k ∨ e ∈ l := by
  induction l with
  | nil => exact .inl (by rw [List.mem_singleton.1 h])
  | cons x r ih =>
    unfold alterEntries at h
    split at h
    · rcases List.mem_cons.1 h with rfl | h
      · exact .inl rfl
      · exact .inr h
    · split at h
      · rcases List.mem_cons.1 h with rfl | h
        · exact .inl rfl
        · exact .inr (List.mem_cons_of_mem _ h)
      · rcases List.mem_cons.1 h with rfl | h
        · exact .inr List.mem_cons_self
        · exact (ih h).imp_right (List.mem_cons_of_mem _)

theorem alterEntries_sorted (k : κ) (f : Option α → α) {l : List (κ × α)}
    (hs : l.Pairwise fun a b => a.1 < b.1) :
    (alterEntries k f l).Pairwise fun a b => a.1 < b.1 := by
  induction l with
  | nil => exact List.pairwise_singleton _ _
  | cons e r ih =>
    obtain ⟨hlt, hr⟩ := List.pairwise_cons.1 hs
    unfold alterEntries
    split
    · next hk =>
      refine List.pairwise_cons.2 ⟨fun x hx => ?_, hs⟩
      rcases List.mem_cons.1 hx with rfl | hx
      · exact hk
      · exact lt_trans hk (hlt x hx)
    · next hk =>
      split
      · next he => exact List.pairwise_cons.2 ⟨fun x hx => he ▸ hlt x hx, hr⟩
      · next hne =>
        refine List.pairwise_cons.2 ⟨fun x hx => ?_, ih hr⟩
        rcases alterEntries_keys hx with he | hx
        · rw [he]
          exact lt_of_le_of_ne (not_lt.1 hk) (Ne.symm hne)
        · exact hlt x hx

/-- `m[k]` becomes `f` of what it was. -/
def alter (m : OrdMap κ α) (k : κ) (f : Option α → α) : OrdMap κ α :=
  ⟨alterEntries k f m.entries, alterEntries_sorted k f m.sorted⟩

theorem ext_entries {m n : OrdMap κ α} (h : m.entries = n.entries) : m = n := by
  cases m
  cases n
  cases h
  rfl

theorem alterEntries_append {k : κ} {lo : List (κ × α)} (h : ∀ e ∈ lo, e.1 < k) (f : Option α → α)
    (hi : List (κ × α)) : alterEntries k f (lo ++ hi) = lo ++ alterEntries k f hi := by
  induction lo with
  | nil => rfl
  | cons e lo ih =>
    obtain ⟨he, hlo⟩ := List.forall_mem_cons.1 h
    rw [List.cons_append, alterEntries, if_neg (not_lt_of_gt he), if_neg (ne_of_gt he), ih hlo]
    rfl

/-- The entries around a key. -/
theorem exists_split (m : OrdMap κ α) (k : κ) :
    ∃ (lo : List (κ × α)) (v : Option α) (hi : List (κ × α)),
      m.entries = lo ++ (v.map (k, ·)).toList ++ hi ∧ (∀ e ∈ lo, e.1 < k) ∧ ∀ e ∈ hi, k < e.1 := by
  have key : ∀ l : List (κ × α), l.Pairwise (fun a b => a.1 < b.1) →
      ∃ (lo : List (κ × α)) (v : Option α) (hi : List (κ × α)),
        l = lo ++ (v.map (k, ·)).toList ++ hi ∧ (∀ e ∈ lo, e.1 < k) ∧ ∀ e ∈ hi, k < e.1 := by
    intro l
    induction l with
    | nil => exact fun _ => ⟨[], none, [], rfl, nofun, nofun⟩
    | cons e r ih =>
      intro hs
      obtain ⟨hlt, hr⟩ := List.pairwise_cons.1 hs
      rcases lt_trichotomy e.1 k with he | rfl | he
      · obtain ⟨lo, v, hi, rfl, hlo, hhi⟩ := ih hr
        exact ⟨e :: lo, v, hi, rfl, List.forall_mem_cons.2 ⟨he, hlo⟩, hhi⟩
      · exact ⟨[], some e.2, r, rfl, nofun, hlt⟩
      · exact ⟨[], none, e :: r, rfl, nofun,
          List.forall_mem_cons.2 ⟨he, fun x hx => lt_trans he (hlt x hx)⟩⟩
  exact key m.entries m.sorted

theorem find?_split {m : OrdMap κ α} {k : κ} {lo hi : List (κ × α)} {v : Option α}
    (h : m.entries = lo ++ (v.map (k, ·)).toList ++ hi) (hlo : ∀ e ∈ lo, e.1 < k)
    (hhi : ∀ e ∈ hi, k < e.1) : m.find? k = v := by
  have hnone : ∀ l : List (κ × α), (∀ e ∈ l, e.1 ≠ k) → l.find? (fun e => e.1 = k) = none :=
    fun l hl => List.find?_eq_none.2 fun e he => by simpa using hl e he
  rw [find?, h, List.find?_append, List.find?_append, hnone lo fun e he => ne_of_lt (hlo e he),
    hnone hi fun e he => ne_of_gt (hhi e he)]
  cases v <;> simp

theorem entries_alter {m : OrdMap κ α} {k : κ} {lo hi : List (κ × α)} {v : Option α}
    (h : m.entries = lo ++ (v.map (k, ·)).toList ++ hi) (hlo : ∀ e ∈ lo, e.1 < k)
    (hhi : ∀ e ∈ hi, k < e.1) (f : Option α → α) :
    (m.alter k f).entries = lo ++ (k, f v) :: hi := by
  show alterEntries k f m.entries = _
  rw [h, List.append_assoc, alterEntries_append hlo]
  cases v with
  | none =>
    cases hi with
    | nil => rfl
    | cons e r =>
      have he := hhi e List.mem_cons_self
      show lo ++ alterEntries k f (e :: r) = _
      rw [alterEntries, if_pos he]
  | some v =>
    show lo ++ alterEntries k f ((k, v) :: hi) = _
    rw [alterEntries, if_neg (lt_irrefl k), if_pos rfl]

theorem find?_alter_self (m : OrdMap κ α) (k : κ) (f : Option α → α) :
    (m.alter k f).find? k = some (f (m.find? k)) := by
  obtain ⟨lo, v, hi, he, hlo, hhi⟩ := m.exists_split k
  rw [find?_split he hlo hhi]
  have hsplit : (m.alter k f).entries = lo ++ ((some (f v)).map (k, ·)).toList ++ hi := by
    rw [entries_alter he hlo hhi]
    simp
  exact find?_split hsplit hlo hhi

theorem find?_alter_of_ne (m : OrdMap κ α) {k k' : κ} (f : Option α → α) (h : k' ≠ k) :
    (m.alter k f).find? k' = m.find? k' := by
  obtain ⟨lo, v, hi, he, hlo, hhi⟩ := m.exists_split k
  rw [find?, find?, entries_alter he hlo hhi, he]
  cases v <;> simp [List.find?_append, Ne.symm h]

theorem find?_new {m : OrdMap κ α} {k : κ} (h : ∀ e ∈ m.entries, e.1 < k) : m.find? k = none := by
  have hsplit : m.entries = m.entries ++ ((none : Option α).map (k, ·)).toList ++ [] := by simp
  exact find?_split hsplit h nofun

/-- A key behind all others. -/
theorem alter_new {m : OrdMap κ α} {k : κ} (f : Option α → α) (h : ∀ e ∈ m.entries, e.1 < k) :
    (m.alter k f).entries = m.entries ++ [(k, f none)] := by
  have hsplit : m.entries = m.entries ++ ((none : Option α).map (k, ·)).toList ++ [] := by simp
  exact entries_alter hsplit h nofun f

/-- The last key. -/
theorem alter_last {m : OrdMap κ α} {k : κ} (f : Option α → α) {l : List (κ × α)} {v : α}
    (h : m.entries = l ++ [(k, v)]) : (m.alter k f).entries = l ++ [(k, f (some v))] := by
  have hs := m.sorted
  rw [h, List.pairwise_append] at hs
  have hsplit : m.entries = l ++ ((some v).map (k, ·)).toList ++ [] := by simp [h]
  exact entries_alter hsplit (fun e he => hs.2.2 e he _ List.mem_cons_self) nofun f

/-- Rebinding a key to what it is bound to. -/
theorem alter_self {m : OrdMap κ α} {k : κ} {f : Option α → α} {v : α} (h : m.find? k = some v)
    (hf : f (some v) = v) : m.alter k f = m := by
  obtain ⟨lo, w, hi, he, hlo, hhi⟩ := m.exists_split k
  have hw : w = some v := (find?_split he hlo hhi).symm.trans h
  subst hw
  apply ext_entries
  rw [entries_alter he hlo hhi, he, hf]
  simp

theorem find?_of_mem {m : OrdMap κ α} {k : κ} {v : α} {lo hi : List (κ × α)}
    (h : m.entries = lo ++ (k, v) :: hi) : m.find? k = some v := by
  have hs := m.sorted
  rw [h, List.pairwise_append, List.pairwise_cons] at hs
  exact find?_split (v := some v) (by simp [h]) (fun e he => hs.2.2 e he _ List.mem_cons_self)
    hs.2.1.1

theorem mem_alter {m : OrdMap κ α} {k : κ} {f : Option α → α} {e : κ × α}
    (h : e ∈ (m.alter k f).entries) : e = (k, f (m.find? k)) ∨ e ∈ m.entries := by
  obtain ⟨lo, v, hi, he, hlo, hhi⟩ := m.exists_split k
  rw [entries_alter he hlo hhi, List.mem_append, List.mem_cons] at h
  rw [find?_split he hlo hhi, he, List.mem_append, List.mem_append]
  rcases h with h | h | h
  · exact .inr (.inl (.inl h))
  · exact .inl h
  · exact .inr (.inr h)

theorem mem_alter_self (m : OrdMap κ α) (k : κ) (f : Option α → α) :
    (k, f (m.find? k)) ∈ (m.alter k f).entries := by
  obtain ⟨lo, v, hi, he, hlo, hhi⟩ := m.exists_split k
  rw [entries_alter he hlo hhi, find?_split he hlo hhi]
  exact List.mem_append_right _ List.mem_cons_self

theorem mem_of_find? {m : OrdMap κ α} {k : κ} {v : α} (h : m.find? k = some v) :
    (k, v) ∈ m.entries := by
  obtain ⟨lo, w, hi, he, hlo, hhi⟩ := m.exists_split k
  have hw : w = some v := (find?_split he hlo hhi).symm.trans h
  rw [he, hw]
  simp

theorem mem_iff_find? {m : OrdMap κ α} {k : κ} {v : α} :
    (k, v) ∈ m.entries ↔ m.find? k = some v := by
  refine ⟨fun h => ?_, mem_of_find?⟩
  obtain ⟨lo, hi, he⟩ := List.append_of_mem h
  exact find?_of_mem he

/-- Maps that look up alike are equal. -/
theorem ext_find? {m n : OrdMap κ α} (h : ∀ k, m.find? k = n.find? k) : m = n := by
  have hmem : ∀ e, e ∈ m.entries ↔ e ∈ n.entries := fun e => by
    rw [← Prod.eta e, mem_iff_find?, mem_iff_find?, h]
  have hnodup : ∀ m : OrdMap κ α, m.entries.Nodup := fun m =>
    m.sorted.imp fun hlt he => absurd (he ▸ hlt) (lt_irrefl _)
  exact ext_entries <| List.Perm.eq_of_pairwise
    (fun a b _ _ hab hba => absurd hab (lt_asymm hba)) m.sorted n.sorted
    ((List.perm_ext_iff_of_nodup (hnodup m) (hnodup n)).2 hmem)

theorem find?_alter (m : OrdMap κ α) (k k' : κ) (f : Option α → α) :
    (m.alter k f).find? k' = if k' = k then some (f (m.find? k)) else m.find? k' := by
  split
  · next h => rw [h, find?_alter_self]
  · next h => rw [find?_alter_of_ne _ _ h]

/-- Two changes can change places, unless they compete for a key. -/
theorem alter_comm (m : OrdMap κ α) {k k' : κ} {f g : Option α → α}
    (h : k = k' → f (some (g (m.find? k))) = g (some (f (m.find? k)))) :
    (m.alter k' g).alter k f = (m.alter k f).alter k' g := by
  refine ext_find? fun x => ?_
  rw [find?_alter, find?_alter, find?_alter, find?_alter, find?_alter, find?_alter]
  by_cases hk : k = k'
  · subst hk
    by_cases hx : x = k <;> simp [hx, h rfl]
  · by_cases hx : x = k
    · subst hx
      simp [hk]
    · by_cases hx' : x = k'
      · subst hx'
        simp [hx]
      · simp [hx, hx']

/-! ## Values -/

def keys (m : OrdMap κ α) : List κ := m.entries.map Prod.fst

def map {β : Type} (g : α → β) (m : OrdMap κ α) : OrdMap κ β :=
  ⟨m.entries.map fun e => (e.1, g e.2), List.pairwise_map.2 m.sorted⟩

theorem map_alter {β : Type} {m : OrdMap κ α} {k : κ} {g : α → β} {f : Option α → α}
    {f' : Option β → β} (h : g (f (m.find? k)) = f' ((m.find? k).map g)) :
    (m.alter k f).map g = (m.map g).alter k f' := by
  obtain ⟨lo, v, hi, he, hlo, hhi⟩ := m.exists_split k
  rw [find?_split he hlo hhi] at h
  have hmap : (m.map g).entries =
      lo.map (fun e => (e.1, g e.2)) ++ ((v.map g).map (k, ·)).toList ++ hi.map fun e =>
        (e.1, g e.2) := by
    show m.entries.map _ = _
    rw [he, List.map_append, List.map_append]
    cases v <;> rfl
  apply ext_entries
  rw [entries_alter hmap (List.forall_mem_map.2 hlo) (List.forall_mem_map.2 hhi), ← h]
  show (m.alter k f).entries.map _ = _
  rw [entries_alter he hlo hhi, List.map_append, List.map_cons]

theorem find?_map {β : Type} (g : α → β) (m : OrdMap κ α) (k : κ) :
    (m.map g).find? k = (m.find? k).map g := by
  rw [find?, find?, map, List.find?_map, Option.map_map, Option.map_map]
  rfl

theorem keys_nodup (m : OrdMap κ α) : m.keys.Nodup :=
  List.pairwise_map.2 (m.sorted.imp ne_of_lt)

end OrdMap
end Wirewolf
