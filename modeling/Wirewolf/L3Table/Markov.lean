import Mathlib.Algebra.BigOperators.Group.List.Basic
import Wirewolf.Core.OrdMap
import Wirewolf.L3Table.FlowRecord

/-!
# The Markov model (`behavioral_model.cpp`)

Transition counts of the state strings, with two derived fields that are
counted along: the totals of the rows and of all. The characters are ordered
as bytes. Numbers are rationals; the logarithm is a parameter of the score.

* `train_coherent`: after any strings, the derived fields are the sums they
  stand for, and the alphabet holds the characters of every transition.
* `train_perm`: the strings can come in any order.
-/
namespace Wirewolf.L3.Markov

instance linearOrderUInt8 : LinearOrder UInt8 where
  le_refl := UInt8.le_refl
  le_trans _ _ _ := UInt8.le_trans
  le_antisymm _ _ := UInt8.le_antisymm
  le_total := UInt8.le_total
  lt_iff_le_not_ge a b := by
    rw [UInt8.lt_iff_toNat_lt, UInt8.le_iff_toNat_le, UInt8.le_iff_toNat_le]
    omega
  toDecidableLE := inferInstance
  toDecidableLT := inferInstance
  toDecidableEq := inferInstance

abbrev Row := OrdMap UInt8 Int

/-- mirrors src/include/behavioral_model.hpp:90-94 -/
structure MarkovModel where
  label : Bytes := []
  k : Rat := 1 / 2
  counts : OrdMap UInt8 Row := .empty
  rowTotals : OrdMap UInt8 Int := .empty
  alphabet : OrdMap UInt8 Bool := .empty
  total : Int := 0

namespace MarkovModel

/-- `alphabet_[c] = true` -/
def mark (m : MarkovModel) (c : UInt8) : MarkovModel :=
  { m with alphabet := m.alphabet.alter c fun _ => true }

/-- mirrors src/src/behavioral_model.cpp:77-82 -/
def count (m : MarkovModel) (src dst : UInt8) : MarkovModel :=
  { m with
    counts := m.counts.alter src fun row => (row.getD .empty).alter dst fun c => c.getD 0 + 1
    rowTotals := m.rowTotals.alter src fun t => t.getD 0 + 1
    alphabet := m.alphabet.alter dst fun _ => true
    total := m.total + 1 }

def countFrom (m : MarkovModel) : UInt8 → Bytes → MarkovModel
  | _, [] => m
  | src, dst :: s => (m.count src dst).countFrom dst s

/-- mirrors src/src/behavioral_model.cpp:73-84 -/
def observe (m : MarkovModel) (s : Bytes) : MarkovModel :=
  match s with
  | c :: d :: s => (m.mark c).countFrom c (d :: s)
  | _ => m

/-- mirrors src/include/behavioral_model.hpp:70-72 -/
def train (m : MarkovModel) (stateStrings : List Bytes) : MarkovModel :=
  stateStrings.foldl observe m

/-- mirrors src/src/behavioral_model.cpp:86-100 -/
def logProb (log : Rat → Rat) (m : MarkovModel) (src dst : UInt8) : Rat :=
  let v : Rat := m.alphabet.size
  let c := ((m.counts.find? src).bind (·.find? dst)).getD 0
  let rt := (m.rowTotals.find? src).getD 0
  log ((c + m.k) / (rt + m.k * v))

def scoreFrom (log : Rat → Rat) (m : MarkovModel) : UInt8 → Bytes → Rat
  | _, [] => 0
  | src, dst :: s => m.logProb log src dst + m.scoreFrom log dst s

/-- mirrors src/src/behavioral_model.cpp:102-111 -/
def score (log : Rat → Rat) (m : MarkovModel) (s : Bytes) : Rat :=
  match s with
  | c :: d :: s => if m.alphabet.isEmpty then 0 else m.scoreFrom log c (d :: s) / (s.length + 1)
  | _ => 0

end MarkovModel

/-! ## What the derived fields stand for -/

def rowSum (r : Row) : Int := (r.entries.map Prod.snd).sum

/-- The model with these counts and the totals that belong to them. -/
def MarkovModel.withCounts (m : MarkovModel) (c : OrdMap UInt8 Row) : MarkovModel :=
  { m with counts := c, rowTotals := c.map rowSum, total := rowSum (c.map rowSum) }

def Marked (m : MarkovModel) (c : UInt8) : Prop := m.alphabet.find? c = some true

/-- The characters are among `p`. -/
structure Coherent (p : UInt8 → Prop) (m : MarkovModel) : Prop where
  derived : m = m.withCounts m.counts
  rows : ∀ e ∈ m.counts.entries, Marked m e.1 ∧ e.2.entries ≠ [] ∧ ∀ t ∈ e.2.entries, Marked m t.1
  alphabet : ∀ e ∈ m.alphabet.entries, p e.1 ∧ e.2 = true

theorem rowSum_alter (r : Row) (c : UInt8) (n : Int) :
    rowSum (r.alter c fun v => v.getD 0 + n) = rowSum r + n := by
  obtain ⟨lo, v, hi, he, hlo, hhi⟩ := r.exists_split c
  rw [rowSum, rowSum, OrdMap.entries_alter he hlo hhi, he]
  cases v with
  | none =>
    simp only [Option.map_none, Option.toList_none, List.append_nil, List.map_append, List.map_cons,
      List.sum_append, List.sum_cons, Option.getD_none]
    omega
  | some v =>
    simp only [Option.map_some, Option.toList_some, List.map_append, List.map_cons, List.map_nil,
      List.sum_append, List.sum_cons, List.sum_nil, Option.getD_some]
    omega

/-- A row that gains `n` adds `n` to its total and to that of all. -/
theorem withCounts_alter (m : MarkovModel) {c : OrdMap UInt8 Row} {src : UInt8}
    (f : Option Row → Row) {n : Int}
    (h : rowSum (f (c.find? src)) = rowSum ((c.find? src).getD .empty) + n) :
    m.withCounts (c.alter src f) =
      { m with
        counts := c.alter src f
        rowTotals := (m.withCounts c).rowTotals.alter src fun t => t.getD 0 + n
        total := (m.withCounts c).total + n } := by
  have hmap : (c.alter src f).map rowSum = (c.map rowSum).alter src fun t => t.getD 0 + n := by
    refine OrdMap.map_alter ?_
    rw [h]
    cases c.find? src <;> rfl
  rw [MarkovModel.withCounts, hmap, rowSum_alter]
  rfl

/-! ## Observing -/

theorem marked_alter {m m' : MarkovModel} {c d : UInt8}
    (h : m'.alphabet = m.alphabet.alter c fun _ => true) (hd : d = c ∨ Marked m d) :
      Marked m' d := by
  rw [Marked, h]
  by_cases hc : d = c
  · rw [hc, OrdMap.find?_alter_self]
  · rw [OrdMap.find?_alter_of_ne _ _ hc]
    exact hd.resolve_left hc

section Observing

variable {p : UInt8 → Prop} {m : MarkovModel}

theorem alphabet_alter (h : Coherent p m) {c : UInt8} (hc : p c) :
    ∀ e ∈ (m.alphabet.alter c fun _ => true).entries, p e.1 ∧ e.2 = true := by
  intro e he
  rcases OrdMap.mem_alter he with rfl | he
  · exact ⟨hc, rfl⟩
  · exact h.alphabet e he

theorem mark_coherent (h : Coherent p m) {c : UInt8} (hc : p c) : Coherent p (m.mark c) where
  derived := congrArg (MarkovModel.mark · c) h.derived
  rows := fun e he => by
    obtain ⟨hsrc, hne, hdst⟩ := h.rows e he
    exact ⟨marked_alter rfl (.inr hsrc), hne, fun t ht => marked_alter rfl (.inr (hdst t ht))⟩
  alphabet := alphabet_alter h hc

/-- One transition keeps the derived fields. -/
theorem count_coherent (h : Coherent p m) {src dst : UInt8} (hsrc : Marked m src) (hdst : p dst) :
    Coherent p (m.count src dst) where
  derived := by
    have hadd := withCounts_alter (m.mark dst)
      (fun row => (row.getD .empty).alter dst fun c => c.getD 0 + 1)
      (rowSum_alter ((m.counts.find? src).getD .empty) dst 1)
    have hm := h.derived
    rw [MarkovModel.mk.injEq] at hm
    obtain ⟨-, -, -, htotals, -, htotal⟩ := hm
    calc m.count src dst = (m.mark dst).withCounts (m.count src dst).counts := by
          show _ = (m.mark dst).withCounts (m.counts.alter src _)
          rw [hadd, MarkovModel.count, htotals, htotal]
          rfl
      _ = (m.count src dst).withCounts (m.count src dst).counts := rfl
  rows := fun e he => by
    have hmark : ∀ d, d = dst ∨ Marked m d → Marked (m.count src dst) d := fun d =>
      marked_alter rfl
    rcases OrdMap.mem_alter he with rfl | he
    · refine ⟨hmark src (.inr hsrc), List.ne_nil_of_mem (OrdMap.mem_alter_self _ dst _),
        fun t ht => ?_⟩
      rcases OrdMap.mem_alter ht with rfl | ht
      · exact hmark dst (.inl rfl)
      · cases hrow : m.counts.find? src with
        | none => rw [hrow] at ht; cases ht
        | some row =>
          rw [hrow] at ht
          exact hmark _ (.inr ((h.rows _ (OrdMap.mem_of_find? hrow)).2.2 t ht))
    · obtain ⟨hsrc, hne, hrow⟩ := h.rows e he
      exact ⟨hmark _ (.inr hsrc), hne, fun t ht => hmark _ (.inr (hrow t ht))⟩
  alphabet := alphabet_alter h hdst

theorem countFrom_coherent (h : Coherent p m) {src : UInt8} {s : Bytes} (hsrc : Marked m src)
    (hs : ∀ c ∈ s, p c) : Coherent p (m.countFrom src s) := by
  induction s generalizing m src with
  | nil => exact h
  | cons dst s ih =>
    obtain ⟨hdst, hs⟩ := List.forall_mem_cons.1 hs
    exact ih (count_coherent h hsrc hdst) (marked_alter rfl (.inl rfl)) hs

theorem observe_coherent (h : Coherent p m) {s : Bytes} (hs : ∀ c ∈ s, p c) :
    Coherent p (m.observe s) := by
  match s, hs with
  | [], _ => exact h
  | [_], _ => exact h
  | c :: d :: s, hs =>
    obtain ⟨hc, hs⟩ := List.forall_mem_cons.1 hs
    exact countFrom_coherent (mark_coherent h hc) (marked_alter rfl (.inl rfl)) hs

theorem fresh_coherent (label : Bytes) (k : Rat) :
    Coherent p ({ label := label, k := k } : MarkovModel) :=
  ⟨rfl, nofun, nofun⟩

/-- Whatever was observed, the derived fields are the sums they stand for. -/
theorem train_coherent (h : Coherent p m) {stateStrings : List Bytes}
    (hs : ∀ s ∈ stateStrings, ∀ c ∈ s, p c) : Coherent p (m.train stateStrings) := by
  induction stateStrings generalizing m with
  | nil => exact h
  | cons s l ih =>
    obtain ⟨hs, hl⟩ := List.forall_mem_cons.1 hs
    exact ih (observe_coherent h hs) hl

/-- Nothing but the observed characters changes label and smoothing. -/
theorem train_keeps (m : MarkovModel) (stateStrings : List Bytes) :
    (m.train stateStrings).label = m.label ∧ (m.train stateStrings).k = m.k := by
  have hcount : ∀ (s : Bytes) (m : MarkovModel) (src : UInt8),
      (m.countFrom src s).label = m.label ∧ (m.countFrom src s).k = m.k := by
    intro s
    induction s with
    | nil => exact fun _ _ => ⟨rfl, rfl⟩
    | cons dst s ih => exact fun m src => ih (m.count src dst) dst
  induction stateStrings generalizing m with
  | nil => exact ⟨rfl, rfl⟩
  | cons s l ih =>
    have hs : (m.observe s).label = m.label ∧ (m.observe s).k = m.k := by
      match s with
      | [] => exact ⟨rfl, rfl⟩
      | [_] => exact ⟨rfl, rfl⟩
      | c :: d :: s => exact hcount (d :: s) (m.mark c) c
    obtain ⟨hlabel, hk⟩ := ih (m.observe s)
    exact ⟨hlabel.trans hs.1, hk.trans hs.2⟩

end Observing

/-! ## In any order -/

theorem mark_comm (m : MarkovModel) (c d : UInt8) : (m.mark c).mark d = (m.mark d).mark c := by
  simp only [MarkovModel.mark, MarkovModel.mk.injEq, true_and, and_true]
  exact OrdMap.alter_comm _ fun _ => rfl

theorem count_mark (m : MarkovModel) (c src dst : UInt8) :
    (m.mark c).count src dst = (m.count src dst).mark c := by
  simp only [MarkovModel.mark, MarkovModel.count, MarkovModel.mk.injEq, true_and, and_true]
  exact OrdMap.alter_comm _ fun _ => rfl

theorem count_comm (m : MarkovModel) (src dst src' dst' : UInt8) :
    (m.count src dst).count src' dst' = (m.count src' dst').count src dst := by
  simp only [MarkovModel.count, MarkovModel.mk.injEq, true_and, and_true]
  refine ⟨OrdMap.alter_comm _ fun _ => ?_, OrdMap.alter_comm _ fun _ => rfl,
    OrdMap.alter_comm _ fun _ => rfl⟩
  exact OrdMap.alter_comm _ fun _ => rfl

theorem countFrom_mark (m : MarkovModel) (c src : UInt8) (s : Bytes) :
    (m.mark c).countFrom src s = (m.countFrom src s).mark c := by
  induction s generalizing m src with
  | nil => rfl
  | cons dst s ih => rw [MarkovModel.countFrom, count_mark, ih, MarkovModel.countFrom]

theorem countFrom_count (m : MarkovModel) (src dst src' : UInt8) (s : Bytes) :
    (m.count src dst).countFrom src' s = (m.countFrom src' s).count src dst := by
  induction s generalizing m src' with
  | nil => rfl
  | cons dst' s ih => rw [MarkovModel.countFrom, count_comm, ih, MarkovModel.countFrom]

theorem countFrom_comm (m : MarkovModel) (src src' : UInt8) (s t : Bytes) :
    (m.countFrom src s).countFrom src' t = (m.countFrom src' t).countFrom src s := by
  induction s generalizing m src with
  | nil => rfl
  | cons dst s ih => rw [MarkovModel.countFrom, ih, countFrom_count, MarkovModel.countFrom]

/-- Two strings count the same in either order. -/
theorem observe_comm (m : MarkovModel) (s t : Bytes) :
    (m.observe s).observe t = (m.observe t).observe s := by
  match s, t with
  | [], _ => rfl
  | [_], _ => rfl
  | _ :: _ :: _, [] => rfl
  | _ :: _ :: _, [_] => rfl
  | c :: d :: s, c' :: d' :: t =>
    simp only [MarkovModel.observe]
    rw [← countFrom_mark, ← countFrom_mark, countFrom_comm, mark_comm]

theorem train_perm (m : MarkovModel) {l l' : List Bytes} (h : l.Perm l') : m.train l = m.train l' :=
  h.foldl_eq' (fun s _ t _ m => observe_comm m s t) m

end Wirewolf.L3.Markov
