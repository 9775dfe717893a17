import Mathlib.Order.Lattice

/-!
# Binary search

`lastTrue p fuel lo hi ans` is the loop `while (lo <= hi)` that looks for the
last index where `p` holds, with `hi` the last index of the window. `p`
holds up to some point and not from there on.

* `search_eq`: the search stops right before that point.
* `search_ranges`: in a table of disjoint ranges, sorted by their first
  values, the only range that may contain a value is the one before it.
-/
namespace Wirewolf.BinarySearch

/-- `fuel` bounds the rounds. -/
def lastTrue (p : Nat → Bool) : Nat → Int → Int → Int → Int
  | 0, _, _, ans => ans
  | fuel + 1, lo, hi, ans =>
    if lo ≤ hi then
      let mid := (lo + hi) / 2
      if p mid.toNat then lastTrue p fuel (mid + 1) hi mid else lastTrue p fuel lo (mid - 1) ans
    else ans

/-- The search over the first `n` indices. -/
def search (p : Nat → Bool) (n : Nat) : Int := lastTrue p n 0 (n - 1) (-1)

variable {p : Nat → Bool} {n k : Nat}

/-- The point is inside the window or at its ends, and the answer is the
index before the window. -/
theorem lastTrue_eq (hbelow : ∀ i < k, p i = true) (habove : ∀ i, k ≤ i → i < n → p i = false) :
    ∀ (fuel : Nat) (lo hi : Int), 0 ≤ lo → hi < n → hi - lo < fuel → lo ≤ k → k ≤ hi + 1 →
      lastTrue p fuel lo hi (lo - 1) = k - 1 := by
  intro fuel
  induction fuel with
  | zero =>
    intro lo hi h₀ hn hfuel hlo hhi
    simp only [lastTrue]
    omega
  | succ fuel ih =>
    intro lo hi h₀ hn hfuel hlo hhi
    rw [lastTrue]
    split
    · next hle =>
      have hmid : 0 ≤ (lo + hi) / 2 ∧ lo ≤ (lo + hi) / 2 ∧ (lo + hi) / 2 ≤ hi := by omega
      dsimp only
      generalize (lo + hi) / 2 = mid at hmid ⊢
      split
      · next hp =>
        have hk : mid < k := by
          apply Classical.byContradiction
          intro hge
          have := habove mid.toNat (by omega) (by omega)
          rw [this] at hp
          cases hp
        have := ih (mid + 1) hi (by omega) hn (by omega) (by omega) hhi
        rwa [show mid + 1 - 1 = mid by omega] at this
      · next hp =>
        have hk : k ≤ mid := by
          apply Classical.byContradiction
          intro hlt
          exact hp (hbelow mid.toNat (by omega))
        exact ih lo (mid - 1) h₀ (by omega) (by omega) hlo (by omega)
    · omega

theorem search_eq (hk : k ≤ n) (hbelow : ∀ i < k, p i = true)
    (habove : ∀ i, k ≤ i → i < n → p i = false) : search p n = k - 1 :=
  lastTrue_eq hbelow habove n 0 (n - 1) (by omega) (by omega) (by omega) (by omega) (by omega)

/-! ## Disjoint ranges -/

section Ranges

variable {α : Type} [LinearOrder α] (first last : Nat → α)

/-- The number of ranges that begin at `x` or before. -/
theorem exists_point (hsorted : ∀ i j, i < j → j < n → first i ≤ first j) (x : α) :
    ∃ k ≤ n, (∀ i < k, first i ≤ x) ∧ ∀ i, k ≤ i → i < n → x < first i := by
  induction n with
  | zero => exact ⟨0, Nat.le_refl 0, nofun, nofun⟩
  | succ n ih =>
    obtain ⟨k, hk, hbelow, habove⟩ := ih fun i j hij hj => hsorted i j hij (by omega)
    by_cases hn : first n ≤ x
    · refine ⟨n + 1, Nat.le_refl _, fun i hi => ?_, fun i hi hin => by omega⟩
      rcases Nat.lt_succ_iff_lt_or_eq.1 hi with hlt | rfl
      · exact le_trans (hsorted i n hlt (by omega)) hn
      · exact hn
    · refine ⟨k, by omega, hbelow, fun i hi hin => ?_⟩
      rcases Nat.lt_succ_iff_lt_or_eq.1 hin with hlt | rfl
      · exact habove i hi hlt
      · exact not_le.1 hn

/-- The search by first values ends at the range that contains `x`, or at
none if the one it ends at does not. -/
theorem search_ranges (hrange : ∀ i < n, first i ≤ last i)
    (hdisjoint : ∀ i j, i < j → j < n → last i < first j) (x : α) :
    (search (fun i => first i ≤ x) n = -1 ∧ ∀ i < n, ¬ (first i ≤ x ∧ x ≤ last i)) ∨
    ∃ k < n, search (fun i => first i ≤ x) n = k ∧
      ∀ i < n, (first i ≤ x ∧ x ≤ last i ↔ i = k ∧ x ≤ last k) := by
  have hsorted : ∀ i j, i < j → j < n → first i ≤ first j := fun i j hij hj =>
    le_trans (hrange i (by omega)) (le_of_lt (hdisjoint i j hij hj))
  obtain ⟨m, hm, hbelow, habove⟩ := exists_point first hsorted x
  have hsearch : search (fun i => first i ≤ x) n = m - 1 :=
    search_eq hm (fun i hi => decide_eq_true (hbelow i hi))
      fun i hi hin => decide_eq_false (not_le.2 (habove i hi hin))
  cases m with
  | zero => exact .inl ⟨hsearch, fun i hi h => not_le.2 (habove i (Nat.zero_le i) hi) h.1⟩
  | succ k =>
    refine .inr ⟨k, hm, by rw [hsearch]; omega, fun i hi => ⟨fun h => ?_, fun h => ?_⟩⟩
    · rcases Nat.lt_trichotomy i k with hlt | rfl | hgt
      · exact absurd (lt_of_le_of_lt h.2 (hdisjoint i k hlt hm)) (not_lt.2 (hbelow k (by omega)))
      · exact ⟨rfl, h.2⟩
      · exact absurd h.1 (not_le.2 (habove i hgt hi))
    · obtain ⟨rfl, hlast⟩ := h
      exact ⟨hbelow i (by omega), hlast⟩

end Ranges

end Wirewolf.BinarySearch
