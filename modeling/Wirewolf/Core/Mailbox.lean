import Mathlib.Data.List.Induction

/-!
# Bounded mailboxes

A mailbox is filled by `post`, which drops the oldest item beyond a capacity,
and emptied in batches by `collect`. `Box` keeps what is pending and, as
history, the batches handed out so far; `number` tags every posted item with
its number, so that equal items stay apart.

* `held_sublist`: batches and pending items are the posted ones, in order.
* `lost`: an item that is no longer held was the oldest of more items than
  the capacity when some item was posted.
-/
namespace Wirewolf.Mailbox

open scoped List

variable {α β : Type}

inductive Op (α : Type) where
  | post (x : α)
  | collect (n : Nat)

def Op.map (f : α → β) : Op α → Op β
  | .post x => .post (f x)
  | .collect n => .collect n

/-- The items a sequence of operations posts. -/
def posted : List (Op α) → List α
  | [] => []
  | .post x :: ops => x :: posted ops
  | .collect _ :: ops => posted ops

/-- Pending items, and the batches with the limit each was asked for. -/
structure Box (α : Type) where
  pending : List α := []
  batches : List (Nat × List α) := []

def trim (cap : Nat) (q : List α) : List α := if cap < q.length then q.tail else q

namespace Box

def collected (b : Box α) : List α := (b.batches.map Prod.snd).flatten

def held (b : Box α) : List α := b.collected ++ b.pending

def map (f : α → β) (b : Box α) : Box β :=
  ⟨b.pending.map f, b.batches.map fun p => (p.1, p.2.map f)⟩

def step (cap : Nat) (b : Box α) : Op α → Box α
  | .post x => { b with pending := trim cap (b.pending ++ [x]) }
  | .collect n => ⟨b.pending.drop n, b.batches ++ [(n, b.pending.take n)]⟩

end Box

def run (cap : Nat) (ops : List (Op α)) : Box α := ops.foldl (Box.step cap) {}

@[simp] theorem run_concat (cap : Nat) (ops : List (Op α)) (op : Op α) :
    run cap (ops ++ [op]) = (run cap ops).step cap op := by
  rw [run, List.foldl_append]; rfl

theorem posted_append (ops ops' : List (Op α)) :
    posted (ops ++ ops') = posted ops ++ posted ops' := by
  induction ops with
  | nil => rfl
  | cons op ops ih => cases op <;> simp [posted, ih]

/-! ## What a batch and a drop take -/

theorem trim_sublist (cap : Nat) (q : List α) : trim cap q <+ q := by
  unfold trim
  split
  · exact List.tail_sublist q
  · exact List.Sublist.refl q

theorem trim_length (cap : Nat) (q : List α) (h : q.length ≤ cap + 1) :
    (trim cap q).length ≤ cap := by
  unfold trim
  split
  · rw [List.length_tail]; omega
  · omega

/-- Only the oldest item leaves, and only beyond the capacity. -/
theorem trim_loses {cap : Nat} {q : List α} {x : α} (hx : x ∈ q) (hn : x ∉ trim cap q) :
    cap < q.length ∧ q.head? = some x := by
  unfold trim at hn
  split at hn
  · rename_i hlt
    refine ⟨hlt, ?_⟩
    cases q with
    | nil => cases hx
    | cons y q => rw [(List.mem_cons.1 hx).resolve_right hn]; rfl
  · exact absurd hx hn

@[simp] theorem batches_post (cap : Nat) (b : Box α) (x : α) :
    (b.step cap (.post x)).batches = b.batches := rfl

@[simp] theorem held_collect (cap : Nat) (b : Box α) (n : Nat) :
    (b.step cap (.collect n)).held = b.held := by
  simp [Box.step, Box.held, Box.collected]

/-! ## Runs -/

theorem pending_length (cap : Nat) (ops : List (Op α)) : (run cap ops).pending.length ≤ cap := by
  induction ops using List.reverseRecOn with
  | nil => exact Nat.zero_le _
  | append_singleton ops op ih =>
    rw [run_concat]
    cases op with
    | post x =>
      refine trim_length cap _ ?_
      rw [List.length_append, List.length_singleton]; omega
    | collect n => exact Nat.le_trans (List.drop_sublist n _).length_le ih

theorem held_sublist (cap : Nat) (ops : List (Op α)) : (run cap ops).held <+ posted ops := by
  induction ops using List.reverseRecOn with
  | nil => exact List.Sublist.refl _
  | append_singleton ops op ih =>
    rw [run_concat, posted_append]
    cases op with
    | post x =>
      calc (run cap ops).collected ++ trim cap ((run cap ops).pending ++ [x])
        _ <+ (run cap ops).collected ++ ((run cap ops).pending ++ [x]) :=
          (List.Sublist.refl _).append (trim_sublist _ _)
        _ = (run cap ops).held ++ [x] := (List.append_assoc _ _ _).symm
        _ <+ posted ops ++ [x] := ih.append (List.Sublist.refl _)
    | collect n =>
      rw [held_collect]
      exact ih.trans (List.sublist_append_left _ _)

/-- Some post found `x` the oldest of more than `cap` items. -/
def DroppedAt (cap : Nat) (ops : List (Op α)) (x : α) : Prop :=
  ∃ pre y rest, ops = pre ++ .post y :: rest ∧
    cap < ((run cap pre).pending ++ [y]).length ∧
    ((run cap pre).pending ++ [y]).head? = some x

theorem DroppedAt.append {cap : Nat} {ops : List (Op α)} {x : α} (h : DroppedAt cap ops x)
    (ops' : List (Op α)) : DroppedAt cap (ops ++ ops') x := by
  obtain ⟨pre, y, rest, rfl, hx⟩ := h
  exact ⟨pre, y, rest ++ ops', by simp, hx⟩

theorem lost (cap : Nat) (ops : List (Op α)) {x : α} (hx : x ∈ posted ops)
    (hn : x ∉ (run cap ops).held) : DroppedAt cap ops x := by
  induction ops using List.reverseRecOn with
  | nil => cases hx
  | append_singleton ops op ih =>
    rw [posted_append] at hx
    rw [run_concat] at hn
    cases op with
    | collect n =>
      rw [held_collect] at hn
      exact (ih ((List.mem_append.1 hx).resolve_right (by simp [posted])) hn).append _
    | post y =>
      obtain ⟨hc, hp⟩ := not_or.1 (mt List.mem_append.2 hn)
      by_cases hq : x ∈ (run cap ops).pending ++ [y]
      -- dropped by this very post
      · exact ⟨ops, y, [], rfl, trim_loses hq hp⟩
      · obtain ⟨hq, hy⟩ := not_or.1 (mt List.mem_append.2 hq)
        have hold := (List.mem_append.1 hx).resolve_right hy
        exact (ih hold fun hh => (List.mem_append.1 hh).elim hc hq).append _

/-! ## Numbered items -/

/-- The same operations on items that carry the number of their post. -/
def number : Nat → List (Op α) → List (Op (α × Nat))
  | _, [] => []
  | k, .post x :: ops => .post (x, k) :: number (k + 1) ops
  | k, .collect n :: ops => .collect n :: number k ops

theorem posted_number (k : Nat) (ops : List (Op α)) :
    posted (number k ops) = (posted ops).zipIdx k := by
  induction ops generalizing k with
  | nil => rfl
  | cons op ops ih =>
    cases op with
    | post x => rw [number, posted, ih, posted, List.zipIdx_cons]
    | collect n => rw [number, posted, ih, posted]

/-- A post of the numbered operations is a post of the given ones. -/
theorem number_eq_append_post {k : Nat} {ops : List (Op α)} {pre rest : List (Op (α × Nat))}
    {y : α × Nat} (h : number k ops = pre ++ .post y :: rest) :
    ∃ ops₁ ops₂, ops = ops₁ ++ .post y.1 :: ops₂ ∧ pre = number k ops₁ ∧
      y.2 = k + (posted ops₁).length := by
  induction ops generalizing k pre with
  | nil => simp [number] at h
  | cons op ops ih =>
    cases op with
    | post x =>
      cases pre with
      | nil =>
        obtain ⟨hy, -⟩ := List.cons.inj h
        cases hy
        exact ⟨[], ops, rfl, rfl, rfl⟩
      | cons p pre =>
        obtain ⟨rfl, htl⟩ := List.cons.inj h
        obtain ⟨ops₁, ops₂, rfl, rfl, hk⟩ := ih htl
        refine ⟨.post x :: ops₁, ops₂, rfl, rfl, ?_⟩
        rw [hk, posted, List.length_cons]; omega
    | collect n =>
      cases pre with
      | nil => cases (List.cons.inj h).1
      | cons p pre =>
        obtain ⟨rfl, htl⟩ := List.cons.inj h
        obtain ⟨ops₁, ops₂, rfl, rfl, hk⟩ := ih htl
        exact ⟨.collect n :: ops₁, ops₂, rfl, rfl, hk⟩

theorem map_number (k : Nat) (ops : List (Op α)) : (number k ops).map (Op.map Prod.fst) = ops := by
  induction ops generalizing k with
  | nil => rfl
  | cons op ops ih => cases op <;> simp [number, Op.map, ih]

theorem trim_map (f : α → β) (cap : Nat) (q : List α) :
    trim cap (q.map f) = (trim cap q).map f := by
  unfold trim
  rw [List.length_map]
  split
  · exact List.map_tail.symm
  · rfl

theorem step_map (f : α → β) (cap : Nat) (b : Box α) (op : Op α) :
    (b.map f).step cap (op.map f) = (b.step cap op).map f := by
  cases op with
  | post x => simp [Box.step, Box.map, Op.map, ← trim_map]
  | collect n => simp [Box.step, Box.map, Op.map, List.map_take, List.map_drop]

/-- A mailbox does not look into its items. -/
theorem run_map (f : α → β) (cap : Nat) (ops : List (Op α)) :
    run cap (ops.map (Op.map f)) = (run cap ops).map f := by
  induction ops using List.reverseRecOn with
  | nil => rfl
  | append_singleton ops op ih =>
    rw [List.map_append, List.map_singleton, run_concat, run_concat, ih, step_map]

theorem run_number (cap k : Nat) (ops : List (Op α)) :
    (run cap (number k ops)).map Prod.fst = run cap ops := by
  rw [← run_map, map_number]

end Wirewolf.Mailbox
