import Mathlib.Data.List.Nodup
import Mathlib.Data.List.Sort
import Wirewolf.Core.Overlay

/-!
# Listing placed segments in stream order

`cells x` is what a placed segment carries, each element with its position.
`Lists l out`: the elements of `out` stand at strictly increasing positions,
each of them is carried there by a segment of `l`, and no covered position
is left out.

* `cells_sorted_iff`: writing the segments one after the other writes their
  positions in order exactly when the segments that are not empty ascend.
* `Lists.of_ascends`: this lists them.
* `lists_concat_iff`: it also does when an exchange of segments does not show
  in what is written.
* `Lists.eq_concat`: segments that follow one another are listed in one way.
-/
namespace Wirewolf.Overlay

variable {α : Type}

def cells (x : Nat × List α) : List (α × Nat) := x.2.zipIdx x.1

/-- The segments written one after the other. -/
def concat (l : List (Nat × List α)) : List α := (l.map Prod.snd).flatten

def Lists (l : List (Nat × List α)) (out : List α) : Prop :=
  ∃ q : List (α × Nat), q.Pairwise (fun y z => y.2 < z.2) ∧ q.map Prod.fst = out ∧
    (∀ z ∈ q, ∃ x ∈ l, z ∈ cells x) ∧ ∀ x ∈ l, ∀ n, Covers x n → ∃ z ∈ q, z.2 = n

def Shares (x y : Nat × List α) : Prop := ∃ n, Covers x n ∧ Covers y n

/-- Two segments that share a position share the later of their starts. -/
theorem shares_iff {x y : Nat × List α} :
    Covers x (max x.1 y.1) ∧ Covers y (max x.1 y.1) ↔ Shares x y := by
  refine ⟨fun h => ⟨_, h⟩, fun ⟨n, hx, hy⟩ => ?_⟩
  unfold Covers at *
  omega

instance (x y : Nat × List α) : Decidable (Shares x y) := decidable_of_iff _ shares_iff

/-- The segments in the order of their starts. -/
def byStart (l : List (Nat × List α)) : List (Nat × List α) :=
  l.mergeSort fun x y => decide (x.1 ≤ y.1)

/-! ## Cells -/

theorem covers_of_cell {x : Nat × List α} {z : α × Nat} (h : z ∈ cells x) : Covers x z.2 :=
  ⟨List.le_snd_of_mem_zipIdx h, List.snd_lt_add_of_mem_zipIdx h⟩

theorem cell_of_covers {x : Nat × List α} {n : Nat} (h : Covers x n) : ∃ a, (a, n) ∈ cells x := by
  obtain ⟨a, ha⟩ := covers_get h
  exact ⟨a, List.mk_mem_zipIdx_iff_le_and_getElem?_sub.2 ⟨h.1, ha⟩⟩

theorem cells_sorted (x : Nat × List α) : (cells x).Pairwise fun y z => y.2 < z.2 := by
  have h : ((cells x).map Prod.snd).Pairwise (· < ·) := by
    rw [cells, List.zipIdx_map_snd]
    exact List.pairwise_lt_range'
  exact List.pairwise_map.1 h

theorem cells_fst (l : List (Nat × List α)) : (l.flatMap cells).map Prod.fst = concat l := by
  rw [List.map_flatMap, concat, ← List.flatMap_def]
  simp only [cells, List.zipIdx_map_fst]

/-- Each segment that is not empty ends before the next one starts. -/
def Ascends (l : List (Nat × List α)) : Prop :=
  l.Pairwise fun x y => x.2 ≠ [] → y.2 ≠ [] → x.1 + x.2.length ≤ y.1

instance decidableAscends (l : List (Nat × List α)) : Decidable (Ascends l) :=
  inferInstanceAs (Decidable (l.Pairwise fun _ _ => _ → _ → _))

theorem covers_first {x : Nat × List α} (h : x.2 ≠ []) : Covers x x.1 :=
  ⟨Nat.le_refl _, Nat.lt_add_of_pos_right (List.length_pos_iff.2 h)⟩

theorem covers_last {x : Nat × List α} (h : x.2 ≠ []) : Covers x (x.1 + x.2.length - 1) := by
  have := List.length_pos_iff.2 h
  constructor <;> omega

theorem ne_nil_of_covers {x : Nat × List α} {n : Nat} (h : Covers x n) : x.2 ≠ [] := by
  intro hnil
  have := h.2
  rw [hnil, List.length_nil] at this
  exact absurd h.1 (by omega)

theorem cells_sorted_iff (l : List (Nat × List α)) :
    (l.flatMap cells).Pairwise (fun y z => y.2 < z.2) ↔ Ascends l := by
  rw [List.pairwise_flatMap]
  constructor
  · rintro ⟨-, h⟩
    refine h.imp fun {x y} hxy hx hy => ?_
    obtain ⟨a, ha⟩ := cell_of_covers (covers_last hx)
    obtain ⟨b, hb⟩ := cell_of_covers (covers_first hy)
    have hlt : x.1 + x.2.length - 1 < y.1 := hxy _ ha _ hb
    omega
  · intro h
    refine ⟨fun x _ => cells_sorted x, h.imp fun {x y} hxy a ha b hb => ?_⟩
    have ha := covers_of_cell ha
    have hb := covers_of_cell hb
    have hend := hxy (ne_nil_of_covers ha) (ne_nil_of_covers hb)
    exact Nat.lt_of_lt_of_le ha.2 (Nat.le_trans hend hb.1)

/-- Segments that share no position ascend when they come by their starts. -/
theorem ascends_of_ordered {l : List (Nat × List α)}
    (h : l.Pairwise fun x y => x.1 ≤ y.1 ∧ ¬ Shares x y) : Ascends l := by
  refine h.imp fun {x y} hxy _ hy => ?_
  -- else `x` covers the start of `y`
  by_contra hlt
  exact hxy.2 ⟨y.1, ⟨hxy.1, by omega⟩, covers_first hy⟩

theorem byStart_perm (l : List (Nat × List α)) : (byStart l).Perm l := List.mergeSort_perm ..

theorem byStart_ordered {l : List (Nat × List α)} (h : l.Pairwise fun x y => ¬ Shares x y) :
    (byStart l).Pairwise fun x y => x.1 ≤ y.1 ∧ ¬ Shares x y := by
  have hs : (byStart l).Pairwise fun x y => decide (x.1 ≤ y.1) = true :=
    List.pairwise_mergeSort (by simp only [decide_eq_true_eq]; omega)
      (by simp only [Bool.or_eq_true, decide_eq_true_eq]; omega) l
  have hd : (byStart l).Pairwise fun x y => ¬ Shares x y :=
    ((byStart_perm l).pairwise_iff fun hxy ⟨n, hy, hx⟩ => hxy ⟨n, hx, hy⟩).2 h
  exact (hs.imp of_decide_eq_true).and hd

/-! ## What a listing is -/

namespace Lists

variable {l l' : List (Nat × List α)} {out : List α}

/-- Segments that ascend are listed by writing them. -/
theorem of_ascends (hp : l'.Perm l) (h : Ascends l') : Lists l (concat l') := by
  refine ⟨l'.flatMap cells, (cells_sorted_iff l').2 h, cells_fst l', fun z hz => ?_,
    fun x hx n hn => ?_⟩
  · obtain ⟨x, hx, hz⟩ := List.mem_flatMap.1 hz
    exact ⟨x, hp.subset hx, hz⟩
  · obtain ⟨a, ha⟩ := cell_of_covers hn
    exact ⟨(a, n), List.mem_flatMap.2 ⟨x, hp.symm.subset hx, ha⟩, rfl⟩

/-- There is no other listing of them. -/
theorem eq_concat (h : Lists l out) (hp : l'.Perm l) (ho : Ascends l') : out = concat l' := by
  obtain ⟨q, hq, rfl, hcell, hall⟩ := h
  have hord := (cells_sorted_iff l').2 ho
  have hin : ∀ z ∈ q, z ∈ l'.flatMap cells := by
    intro z hz
    obtain ⟨x, hx, hz⟩ := hcell z hz
    exact List.mem_flatMap.2 ⟨x, hp.symm.subset hx, hz⟩
  have hpos : ((l'.flatMap cells).map Prod.snd).Nodup := List.pairwise_map.2 (hord.imp Nat.ne_of_lt)
  have heq : q = l'.flatMap cells := by
    have : Std.Asymm fun y z : α × Nat => y.2 < z.2 := ⟨fun _ _ h h' => Nat.lt_asymm h h'⟩
    refine hq.eq_of_mem_iff hord fun z => ⟨hin z, fun hz => ?_⟩
    obtain ⟨x, hx, hzx⟩ := List.mem_flatMap.1 hz
    obtain ⟨y, hy, he⟩ := hall x (hp.subset hx) z.2 (covers_of_cell hzx)
    -- two cells at one position are the same cell
    rw [← List.inj_on_of_nodup_map hpos (hin y hy) hz he]; exact hy
  rw [heq, cells_fst]

/-- Writing the segments one after the other writes every cell; when that is
a listing, no position is written twice. -/
theorem disjoint (h : Lists l (concat l)) : l.Pairwise fun x y => ¬ Shares x y := by
  obtain ⟨q, hq, hout, hcell, hall⟩ := h
  have hnodup : (q.map Prod.snd).Nodup := List.pairwise_map.2 (hq.imp Nat.ne_of_lt)
  have hsub : q.map Prod.snd ⊆ (l.flatMap cells).map Prod.snd := by
    intro n hn
    obtain ⟨z, hz, rfl⟩ := List.mem_map.1 hn
    obtain ⟨x, hx, hz⟩ := hcell z hz
    exact List.mem_map_of_mem (List.mem_flatMap.2 ⟨x, hx, hz⟩)
  have hlen : ((l.flatMap cells).map Prod.snd).length = (q.map Prod.snd).length := by
    have := congrArg List.length (hout.trans (cells_fst l).symm)
    simp only [List.length_map] at this ⊢
    exact this.symm
  have hperm := (List.subperm_of_subset hnodup hsub).perm_of_length_le (Nat.le_of_eq hlen)
  have hflat := hperm.nodup_iff.1 hnodup
  rw [List.map_flatMap, List.nodup_flatMap] at hflat
  refine hflat.2.imp fun {x y} hxy ⟨n, hx, hy⟩ => ?_
  obtain ⟨a, ha⟩ := cell_of_covers hx
  obtain ⟨b, hb⟩ := cell_of_covers hy
  exact hxy (List.mem_map_of_mem ha) (List.mem_map.2 ⟨(b, n), hb, rfl⟩)

end Lists

theorem lists_concat_iff (l : List (Nat × List α)) :
    Lists l (concat l) ↔
      (l.Pairwise fun x y => ¬ Shares x y) ∧ concat l = concat (byStart l) := by
  constructor
  · intro h
    exact ⟨h.disjoint, h.eq_concat (byStart_perm l)
      (ascends_of_ordered (byStart_ordered h.disjoint))⟩
  · intro hx
    obtain ⟨hd, he⟩ := hx
    rw [he]
    exact .of_ascends (byStart_perm l) (ascends_of_ordered (byStart_ordered hd))

end Wirewolf.Overlay
