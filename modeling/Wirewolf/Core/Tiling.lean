import Mathlib.Data.List.Perm.Basic
import Wirewolf.Core.Overlay

/-!
# The pieces of a partition on their way

A partition `segs` of what is left of a stream, placed from position `E`
(`tile E segs`), is split into pieces that wait in a buffer `buf` and pieces
`rest` still to come. `consume_tiles` is what a run over the buffer does:
it takes the pieces that are next, whole and in order, and leaves a buffer
that lies past the new end.
-/
namespace Wirewolf.Overlay

variable {α : Type}

/-- The piece that starts where the partition does is its first one. -/
theorem tile_head {E : Nat} {segs : List (List α)} (hne : ∀ d ∈ segs, d ≠ []) {x : Nat × List α}
    (hx : x ∈ tile E segs) (hs : x.1 = E) : ∃ ds, segs = x.2 :: ds := by
  cases segs with
  | nil => cases hx
  | cons d ds =>
    rcases List.mem_cons.1 hx with rfl | hx
    · exact ⟨ds, rfl⟩
    · have := (tile_ge ds _ x hx).1
      have := List.length_pos_iff.2 (hne d (List.mem_cons_self ..))
      omega

/-- The pieces of a partition have different starts. -/
theorem tile_starts {E : Nat} {segs : List (List α)} (hne : ∀ d ∈ segs, d ≠ []) :
    ((tile E segs).map Prod.fst).Nodup := by
  induction segs generalizing E with
  | nil => exact .nil
  | cons d ds ih =>
    have hd := List.length_pos_iff.2 (hne d (List.mem_cons_self ..))
    refine List.nodup_cons.2 ⟨fun h => ?_, ih fun d hd => hne d (List.mem_cons_of_mem _ hd)⟩
    obtain ⟨x, hx, he⟩ := List.mem_map.1 h
    have := (tile_ge ds _ x hx).1
    simp only at he; omega

theorem tile_bound (segs : List (List α)) (E : Nat) :
    ∀ x ∈ tile E segs, x.1 + x.2.length ≤ E + segs.flatten.length := by
  induction segs generalizing E with
  | nil => simp [tile]
  | cons d ds ih =>
    intro x hx
    rw [List.flatten_cons, List.length_append]
    rcases List.mem_cons.1 hx with rfl | hx
    · simp only; omega
    · have := ih _ x hx; omega

/-- The next piece leaves. -/
theorem tile_cancel {E : Nat} {d : List α} {ds : List (List α)} {l : List (Nat × List α)}
    (h : ((E, d) :: l).Perm (tile E (d :: ds))) : l.Perm (tile (E + d.length) ds) :=
  (List.perm_cons (E, d)).1 h

theorem consume_tiles (E : Nat) (out : List α) {segs : List (List α)}
    {buf rest : List (Nat × List α)} (hne : ∀ d ∈ segs, d ≠ [])
    (hsort : buf.Pairwise fun x y => x.1 < y.1) (h : (buf ++ rest).Perm (tile E segs)) :
    ∃ segs₁ segs₂, segs = segs₁ ++ segs₂ ∧
      (consume E out buf).1 = E + segs₁.flatten.length ∧
      (consume E out buf).2.1 = out ++ segs₁.flatten ∧
      ((consume E out buf).2.2 ++ rest).Perm (tile (E + segs₁.flatten.length) segs₂) ∧
      (∀ x ∈ (consume E out buf).2.2, E + segs₁.flatten.length < x.1) := by
  induction buf generalizing E out segs with
  | nil =>
    exact ⟨[], segs, rfl, by simp [consume], by simp [consume], by simpa [consume] using h, by
      simp [consume]⟩
  | cons x buf ih =>
    have hx : x ∈ tile E segs := h.subset (List.mem_cons_self ..)
    obtain ⟨hlt, hsort'⟩ := List.pairwise_cons.1 hsort
    by_cases hs : x.1 = E
    · obtain ⟨ds, rfl⟩ := tile_head hne hx hs
      subst hs
      have hd := List.length_pos_iff.2 (hne x.2 (List.mem_cons_self ..))
      have hstep : consume x.1 out (x :: buf) = consume (x.1 + x.2.length) (out ++ x.2) buf := by
        have hcov : Covers x x.1 := ⟨Nat.le_refl _, by omega⟩
        rw [consume_extend buf hcov, Nat.sub_self, List.drop_zero]
      obtain ⟨s₁, s₂, rfl, h₁, h₂, h₃, h₄⟩ := ih _ (out ++ x.2)
        (fun c hc => hne c (List.mem_cons_of_mem _ hc)) hsort' (tile_cancel h)
      have hlen : x.1 + (x.2 :: s₁).flatten.length = x.1 + x.2.length + s₁.flatten.length := by
        rw [List.flatten_cons, List.length_append]; omega
      refine ⟨x.2 :: s₁, s₂, rfl, ?_⟩
      rw [hstep, hlen, List.flatten_cons, ← List.append_assoc]
      exact ⟨h₁, h₂, h₃, h₄⟩
    · have hge := (tile_ge segs E x hx).1
      rw [consume_stop buf (by omega)]
      refine ⟨[], segs, rfl, by simp, by simp, by simpa using h, ?_⟩
      intro y hy
      rcases List.mem_cons.1 hy with rfl | hy
      · simp; omega
      · have := hlt y hy
        simp; omega

end Wirewolf.Overlay
