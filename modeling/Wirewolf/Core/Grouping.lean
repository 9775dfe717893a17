import Mathlib.Data.List.Induction
import Wirewolf.Core.UMap

/-!
# Grouping by a key

`bump` is `upd(m[key], x)`: the first access binds the key to a default. A
loop of these groups its items by their keys (`find?_bumps`), so looking a key
up sees the items with that key, in their order, and no others.
-/
namespace Wirewolf.UMap

variable {κ α β : Type} [DecidableEq κ]

/-- `upd(m[k], x)` -/
def bump (upd : α → β → α) (init : α) (m : UMap κ α) (k : κ) (x : β) : UMap κ α :=
  m.put k (upd ((m.find? k).getD init) x)

/-- The items one after the other, each under its key. -/
def bumps (key : β → κ) (upd : α → β → α) (init : α) (m : UMap κ α) (l : List β) : UMap κ α :=
  l.foldl (fun m x => m.bump upd init (key x) x) m

variable {key : β → κ} {upd : α → β → α} {init : α}

theorem find?_bump (m : UMap κ α) (k k' : κ) (x : β) : (m.bump upd init k x).find? k' =
    if k = k' then some (upd ((m.find? k).getD init) x) else m.find? k' := by
  unfold bump
  split
  · next h => rw [← h, find?_put_self]
  · next h => rw [find?_put_of_ne _ _ (Ne.symm h)]

/-- The items with the key, or nothing if there are none. -/
theorem find?_bumps (l : List β) (k : κ) : (bumps key upd init .empty l).find? k =
    if l.filter (fun x => key x = k) = [] then none
    else some ((l.filter fun x => key x = k).foldl upd init) := by
  induction l using List.reverseRecOn with
  | nil => rfl
  | append_singleton l x ih =>
    have hlast : bumps key upd init .empty (l ++ [x]) =
        (bumps key upd init .empty l).bump upd init (key x) x := List.foldl_append
    rw [hlast, find?_bump, List.filter_append]
    by_cases hk : key x = k
    · rw [if_pos hk, hk, ih, List.filter_cons_of_pos (by simpa using hk), List.filter_nil,
        if_neg (List.append_ne_nil_of_right_ne_nil _ (List.cons_ne_nil _ _)), List.foldl_append]
      split
      · next hnone => rw [hnone]; rfl
      · rfl
    · rw [if_neg hk, List.filter_cons_of_neg (by simpa using hk), List.filter_nil,
        List.append_nil, ih]

theorem bumps_append (m : UMap κ α) (l l' : List β) :
    bumps key upd init m (l ++ l') = bumps key upd init (bumps key upd init m l) l' :=
  List.foldl_append

end Wirewolf.UMap
