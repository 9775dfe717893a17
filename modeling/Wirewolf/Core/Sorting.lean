import Mathlib.Order.Lattice

/-!
# Sorting by a key

A stable sort by `key` leaves elements of equal keys in the order they came
in.

* `map_eq_of_sorted`: what a function says of a sorted list is determined by
  its elements, if the function does not tell elements of equal keys apart.
* `getElem?_mergeSort_cons`: the first element is sorted to the front of those
  with its key.
-/
namespace Wirewolf.Sorting

variable {α β γ : Type} [LinearOrder β] (key : α → β)

theorem key_trans (a b c : α) :
    decide (key a ≤ key b) = true → decide (key b ≤ key c) = true →
      decide (key a ≤ key c) = true := by
  simp only [decide_eq_true_eq]
  exact le_trans

theorem key_total (a b : α) : (decide (key a ≤ key b) || decide (key b ≤ key a)) = true := by
  simpa using le_total (key a) (key b)

theorem pairwise_mergeSort (l : List α) :
    (l.mergeSort fun a b => key a ≤ key b).Pairwise fun a b => key a ≤ key b :=
  (List.pairwise_mergeSort (key_trans key) (key_total key) l).imp of_decide_eq_true

variable {key}

theorem map_eq_of_sorted {f : α → γ} {l l' : List α} (hp : l.Perm l')
    (hl : l.Pairwise fun a b => key a ≤ key b) (hl' : l'.Pairwise fun a b => key a ≤ key b)
    (hf : ∀ a ∈ l, ∀ b ∈ l, key a = key b → f a = f b) :
    l.map (fun a => (key a, f a)) = l'.map fun a => (key a, f a) := by
  have hsorted : ∀ {m : List α}, m.Pairwise (fun a b => key a ≤ key b) →
      (m.map fun a => (key a, f a)).Pairwise fun p q => p.1 ≤ q.1 := fun h => List.pairwise_map.2 h
  refine List.Perm.eq_of_pairwise ?_ (hsorted hl) (hsorted hl') (hp.map _)
  intro p q hp' hq' hpq hqp
  obtain ⟨a, ha, rfl⟩ := List.mem_map.1 hp'
  obtain ⟨b, hb, rfl⟩ := List.mem_map.1 hq'
  have hkey : key a = key b := le_antisymm hpq hqp
  exact Prod.ext hkey (hf a ha b (hp.mem_iff.2 hb) hkey)

variable (key) in
theorem getElem?_mergeSort_cons (a : α) (l : List α) :
    ((a :: l).mergeSort fun a b => key a ≤ key b)[l.countP fun b => key b < key a]? = some a := by
  obtain ⟨l₁, l₂, hsort, hrest, hbefore⟩ := List.mergeSort_cons (key_trans key) (key_total key) a l
  have hsorted := pairwise_mergeSort key (a :: l)
  rw [hsort] at hsorted ⊢
  -- the smaller elements are those in front of `a`
  have hlow : l₁.countP (fun b => key b < key a) = l₁.length :=
    List.countP_eq_length.2 fun b hb => by simpa using hbefore b hb
  have hhigh : l₂.countP (fun b => key b < key a) = 0 := by
    refine List.countP_eq_zero.2 fun b hb => ?_
    have hle := (List.pairwise_cons.1 (List.pairwise_append.1 hsorted).2.1).1 b hb
    simpa using hle
  have hcount : l.countP (fun b => key b < key a) = l₁.length := by
    rw [← (List.mergeSort_perm l fun a b => key a ≤ key b).countP_eq, hrest, List.countP_append,
      hlow, hhigh, Nat.add_zero]
  rw [hcount, List.getElem?_append_right (Nat.le_refl _), Nat.sub_self]
  rfl

end Wirewolf.Sorting
