import Wirewolf.L1Encoding.Normalizer
import Wirewolf.L3Table.Behavior

/-!
# Labels of the training set (`train_behavioral/train.cpp`)

The trainer labels a connection from the labels of its flows, once with the
flows at hand (`conn_label`) and once with a map of counts (`key_label`). Both
have the rule of the majority, but the first takes the majority of all flows
and the second of those with a class.

* `accumulated`, `counted`: what the two accumulators hold.
* `labels_alike_iff`: the lists of labels on which the two modes agree.
* `unclassed_label_decides`: a list on which they do not.
-/
namespace Wirewolf.L3.TrainLabels

open Wirewolf.L1.Normalizer (toLower)
open Wirewolf.L3.Behavior (Flow)
open Wirewolf.Search (containsSub)

/-- mirrors src/tools/train_behavioral/train.cpp:39 -/
inductive Cls where
  | botnet
  | normal
  | background
  | other
  deriving DecidableEq

/-- mirrors src/tools/train_behavioral/train.cpp:86-92 -/
def classify (label : Bytes) : Cls :=
  let l := label.map toLower
  if containsSub l (lit "botnet") then .botnet
  else if containsSub l (lit "normal") then .normal
  else if containsSub l (lit "background") then .background
  else .other

/-! ## Flows at hand -/

/-- mirrors src/tools/train_behavioral/train.cpp:41-47 -/
structure ConnAcc where
  flows : List Flow := []
  botnet : Nat := 0
  normal : Nat := 0
  background : Nat := 0
  total : Nat := 0

/-- One row of the connection.
mirrors src/tools/train_behavioral/train.cpp:138-146 -/
def ConnAcc.add (a : ConnAcc) (row : Flow × Bytes) : ConnAcc :=
  let a := { a with flows := a.flows ++ [row.1], total := a.total + 1 }
  match classify row.2 with
  | .botnet => { a with botnet := a.botnet + 1 }
  | .normal => { a with normal := a.normal + 1 }
  | .background => { a with background := a.background + 1 }
  | .other => a

/-- mirrors src/tools/train_behavioral/train.cpp:154-163 -/
def connLabel (a : ConnAcc) (majority : Bool) : Cls :=
  if majority then
    if a.total < a.botnet * 2 then .botnet
    else if a.background ≤ a.normal then .normal
    else .background
  else if 0 < a.botnet then .botnet
  else if 0 < a.normal then .normal
  else .background

/-! ## Counts -/

/-- mirrors src/tools/train_behavioral/train.cpp:211-215 -/
structure LblCount where
  bot : Nat := 0
  norm : Nat := 0
  bg : Nat := 0

/-- One row with the key.
mirrors src/tools/train_behavioral/train.cpp:255-261 -/
def LblCount.add (c : LblCount) (label : Bytes) : LblCount :=
  match classify label with
  | .botnet => { c with bot := c.bot + 1 }
  | .normal => { c with norm := c.norm + 1 }
  | .background => { c with bg := c.bg + 1 }
  | .other => c

/-- mirrors src/tools/train_behavioral/train.cpp:266-276 -/
def keyLabel (c : LblCount) (majority : Bool) : Cls :=
  if majority then
    let tot := c.bot + c.norm + c.bg
    if tot < c.bot * 2 then .botnet
    else if c.bg ≤ c.norm then .normal
    else .background
  else if 0 < c.bot then .botnet
  else if 0 < c.norm then .normal
  else .background

/-! ## What is counted -/

/-- How many of the labels are of a class. -/
def count (cls : Cls) (labels : List Bytes) : Nat := labels.countP (classify · = cls)

theorem count_cons (cls : Cls) (label : Bytes) (labels : List Bytes) :
    count cls (label :: labels) = count cls labels + if classify label = cls then 1 else 0 := by
  simp only [count, List.countP_cons, decide_eq_true_eq]

/-- Every label is of one class. -/
theorem count_total (labels : List Bytes) :
    count .botnet labels + count .normal labels + count .background labels + count .other labels =
      labels.length := by
  induction labels with
  | nil => rfl
  | cons label labels ih =>
    simp only [count_cons, List.length_cons]
    cases classify label <;> simp only [reduceCtorEq, if_true, if_false] <;> omega

def accumulate (rows : List (Flow × Bytes)) : ConnAcc := rows.foldl ConnAcc.add {}

def tally (labels : List Bytes) : LblCount := labels.foldl LblCount.add {}

theorem foldl_add (rows : List (Flow × Bytes)) (a : ConnAcc) :
    (rows.foldl ConnAcc.add a).botnet = a.botnet + count .botnet (rows.map Prod.snd) ∧
    (rows.foldl ConnAcc.add a).normal = a.normal + count .normal (rows.map Prod.snd) ∧
    (rows.foldl ConnAcc.add a).background = a.background + count .background (rows.map Prod.snd) ∧
    (rows.foldl ConnAcc.add a).total = a.total + rows.length := by
  induction rows generalizing a with
  | nil => exact ⟨rfl, rfl, rfl, rfl⟩
  | cons row rows ih =>
    obtain ⟨hb, hn, hg, ht⟩ := ih (a.add row)
    simp only [List.foldl_cons, List.map_cons, count_cons, List.length_cons, hb, hn, hg, ht]
    unfold ConnAcc.add
    cases classify row.2 <;> simp only [reduceCtorEq, if_true, if_false] <;> omega

theorem foldl_count (labels : List Bytes) (c : LblCount) :
    (labels.foldl LblCount.add c).bot = c.bot + count .botnet labels ∧
    (labels.foldl LblCount.add c).norm = c.norm + count .normal labels ∧
    (labels.foldl LblCount.add c).bg = c.bg + count .background labels := by
  induction labels generalizing c with
  | nil => exact ⟨rfl, rfl, rfl⟩
  | cons label labels ih =>
    obtain ⟨hb, hn, hg⟩ := ih (c.add label)
    simp only [List.foldl_cons, count_cons, hb, hn, hg]
    unfold LblCount.add
    cases classify label <;> simp only [reduceCtorEq, if_true, if_false] <;> omega

/-- The flows of a connection by class, and all of them. -/
theorem accumulated (rows : List (Flow × Bytes)) :
    (accumulate rows).botnet = count .botnet (rows.map Prod.snd) ∧
    (accumulate rows).normal = count .normal (rows.map Prod.snd) ∧
    (accumulate rows).background = count .background (rows.map Prod.snd) ∧
    (accumulate rows).total = rows.length := by
  obtain ⟨hb, hn, hg, ht⟩ := foldl_add rows {}
  exact ⟨by rw [accumulate, hb, Nat.zero_add], by rw [accumulate, hn, Nat.zero_add],
    by rw [accumulate, hg, Nat.zero_add], by rw [accumulate, ht, Nat.zero_add]⟩

/-- The labels by class, without those of no class. -/
theorem counted (labels : List Bytes) :
    (tally labels).bot = count .botnet labels ∧ (tally labels).norm = count .normal labels ∧
      (tally labels).bg = count .background labels := by
  obtain ⟨hb, hn, hg⟩ := foldl_count labels {}
  exact ⟨by rw [tally, hb,
    Nat.zero_add], by rw [tally, hn, Nat.zero_add], by rw [tally, hg, Nat.zero_add]⟩

/-! ## The two modes -/

/-- A botnet majority among the labels with a class that is none among all. -/
def Contested (labels : List Bytes) : Prop :=
  count .normal labels + count .background labels < count .botnet labels ∧
    count .botnet labels ≤ count .normal labels + count .background labels + count .other labels

instance (labels : List Bytes) : Decidable (Contested labels) := inferInstanceAs (Decidable (_ ∧ _))

/-- Any botnet flow makes a connection one in both modes. -/
theorem any_alike (rows : List (Flow × Bytes)) :
    connLabel (accumulate rows) false = keyLabel (tally (rows.map Prod.snd)) false := by
  obtain ⟨hb, hn, -, -⟩ := accumulated rows
  obtain ⟨hb', hn', -⟩ := counted (rows.map Prod.snd)
  simp only [connLabel, keyLabel, hb, hn, hb', hn', Bool.false_eq_true, if_false]

theorem majority_alike (rows : List (Flow × Bytes)) :
    connLabel (accumulate rows) true = keyLabel (tally (rows.map Prod.snd)) true ↔
      ¬ Contested (rows.map Prod.snd) := by
  obtain ⟨hb, hn, hg, ht⟩ := accumulated rows
  obtain ⟨hb', hn', hg'⟩ := counted (rows.map Prod.snd)
  have htotal := count_total (rows.map Prod.snd)
  rw [List.length_map] at htotal
  have hbenign : (if count .background (rows.map Prod.snd) ≤ count .normal (rows.map Prod.snd) then
      Cls.normal else .background) ≠ .botnet := by
    split <;> decide
  simp only [connLabel, keyLabel, hb, hn, hg, ht, hb', hn', hg', if_true, Contested]
  by_cases hall : rows.length < count .botnet (rows.map Prod.snd) * 2
  · -- a majority of all flows is one of those with a class
    rw [if_pos hall, if_pos (by omega)]
    exact iff_of_true rfl (by omega)
  · rw [if_neg hall]
    by_cases hclassed : count .botnet (rows.map Prod.snd) + count .normal (rows.map Prod.snd) +
        count .background (rows.map Prod.snd) < count .botnet (rows.map Prod.snd) * 2
    · rw [if_pos hclassed]
      exact iff_of_false hbenign (by omega)
    · rw [if_neg hclassed]
      exact iff_of_true rfl (by omega)

/-- Under both rules the modes agree, exactly unless unclassed labels take the
majority from the botnet. -/
theorem labels_alike_iff (rows : List (Flow × Bytes)) :
    (∀ majority, connLabel (accumulate rows) majority =
      keyLabel (tally (rows.map Prod.snd)) majority) ↔
      ¬ Contested (rows.map Prod.snd) := by
  rw [← majority_alike]
  refine ⟨fun h => h true, fun h majority => ?_⟩
  cases majority with
  | true => exact h
  | false => exact any_alike rows

/-- One botnet flow next to one of no class. -/
def botnetAndOther : List (Flow × Bytes) :=
  [(⟨0, 0, 0⟩, lit "flow=From-Botnet-V42-TCP-HTTP"), (⟨1, 0, 0⟩, lit "flow=To-Proxy")]

theorem unclassed_label_decides :
    connLabel (accumulate botnetAndOther) true = .normal ∧
      keyLabel (tally (botnetAndOther.map Prod.snd)) true = .botnet ∧
      connLabel (accumulate botnetAndOther) true ≠
        keyLabel (tally (botnetAndOther.map Prod.snd)) true := by
  decide +kernel

end Wirewolf.L3.TrainLabels
