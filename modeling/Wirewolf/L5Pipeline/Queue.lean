import Wirewolf.Core.Bytes

/-!
# The bounded queue (`thread_safe_queue.hpp`)

Every operation of `ThreadSafeQueue` holds the mutex but for the waits of
`push` and `pop`, so a call is one or two atomic sections: `pushEnter` runs
until the item is stored, dropped or has to wait, `pushWake` is a waiting
push that found its predicate true, and `pop` is the section after its own
wait (`none` while there is nothing to take and the queue is not finished).

* `pushEnter_spec`, `pushWake_spec`, `pop_spec`: what a section does with the
  items. An item leaves the queue by `pop`, or is the one reported as dropped.
-/
namespace Wirewolf.L5.Queue

variable {α : Type}

/-- The multimap in the order of `pop`: descending priorities, insertion
order among equal ones.
mirrors src/include/thread_safe_queue.hpp:27-38 -/
structure ThreadSafeQueue (α : Type) where
  q : List (Int × α) := []
  done : Bool := false
  blocking : Bool := false
  maxCapacity : Nat
  droppedCount : Nat := 0
  deriving DecidableEq

/-- How a section of `push` ends: the item is stored, it has to wait, or an
item (the incoming one or a queued one) is dropped. -/
inductive Pushed (α : Type) where
  | stored
  | waits
  | dropped (x : α)
  deriving DecidableEq

/-- `q.emplace` of the multimap: behind the items of the same priority. -/
def emplace (p : Int) (x : α) : List (Int × α) → List (Int × α)
  | [] => [(p, x)]
  | e :: q => if p ≤ e.1 then e :: emplace p x q else (p, x) :: e :: q

namespace ThreadSafeQueue

variable (s : ThreadSafeQueue α)

def size : Nat := s.q.length

/-- mirrors src/include/thread_safe_queue.hpp:45-50 -/
def setBlocking (enable : Bool) : ThreadSafeQueue α := { s with blocking := enable }

/-- mirrors src/include/thread_safe_queue.hpp:96-101 -/
def finish : ThreadSafeQueue α := { s with done := true }

def full : Bool := s.maxCapacity ≤ s.q.length

def store (p : Int) (x : α) : ThreadSafeQueue α := { s with q := emplace p x s.q }

def countDrop : ThreadSafeQueue α := { s with droppedCount := s.droppedCount + 1 }

/-- The emergency drop. With a capacity of zero the source reads before the
first element of an empty map.
mirrors src/include/thread_safe_queue.hpp:55-69 -/
def emergencyDrop (p : Int) (x : α) : ThreadSafeQueue α × Pushed α :=
  match s.q.getLast? with
  | some lowest =>
    if lowest.1 < p then ({ s.countDrop with q := emplace p x s.q.dropLast }, .dropped lowest.2)
    else (s.countDrop, .dropped x)
  | none => (s.countDrop, .dropped x)

/-- From the wait on; `none` while its predicate is false.
mirrors src/include/thread_safe_queue.hpp:70-82 -/
def pushWake (p : Int) (x : α) : Option (ThreadSafeQueue α × Pushed α) :=
  if !s.full then some (s.store p x, .stored)
  else if s.done || !s.blocking then some (s.countDrop, .dropped x)
  else none

/-- mirrors src/include/thread_safe_queue.hpp:52-82 -/
def pushEnter (p : Int) (x : α) : ThreadSafeQueue α × Pushed α :=
  if !s.full then (s.store p x, .stored)
  else if !s.blocking then s.emergencyDrop p x
  else (s.pushWake p x).getD (s, .waits)

/-- The popped item, if there is one.
mirrors src/include/thread_safe_queue.hpp:84-94 -/
def pop : Option (Option α × ThreadSafeQueue α) :=
  match s.q with
  | e :: rest => some (some e.2, { s with q := rest })
  | [] => if s.done then some (none, s) else none

def items : List α := s.q.map Prod.snd

/-! ## What a section does with the items -/

/-- The queue's mode is that of `t`. -/
structure SameMode (t : ThreadSafeQueue α) : Prop where
  done : t.done = s.done
  blocking : t.blocking = s.blocking
  maxCapacity : t.maxCapacity = s.maxCapacity

end ThreadSafeQueue

open ThreadSafeQueue

variable [DecidableEq α] {s : ThreadSafeQueue α}

theorem count_emplace (z : α) (p : Int) (x : α) (q : List (Int × α)) :
    ((emplace p x q).map Prod.snd).count z = (q.map Prod.snd).count z + [x].count z := by
  induction q with
  | nil => simp [emplace]
  | cons e q ih =>
    rw [emplace]
    split
    · simp only [List.map_cons, List.count_cons, ih]; omega
    · simp only [List.map_cons, List.count_cons, List.count_nil]; omega

theorem count_dropLast {q : List (Int × α)} {e : Int × α} (h : q.getLast? = some e) (z : α) :
    (q.dropLast.map Prod.snd).count z + [e.2].count z = (q.map Prod.snd).count z := by
  obtain ⟨q', rfl⟩ := List.getLast?_eq_some_iff.1 h
  rw [List.dropLast_concat, List.map_append, List.count_append]; rfl

/-- Items after a push that dropped `y`. -/
def Drops (s t : ThreadSafeQueue α) (x y : α) : Prop :=
  ∀ z, t.items.count z + [y].count z = s.items.count z + [x].count z

theorem emergencyDrop_spec (p : Int) (x : α) :
    ∃ y, (s.emergencyDrop p x).2 = .dropped y ∧ s.SameMode (s.emergencyDrop p x).1 ∧
      Drops s (s.emergencyDrop p x).1 x y := by
  unfold emergencyDrop
  split
  · next lowest hl =>
    split
    · refine ⟨lowest.2, rfl, ⟨rfl, rfl, rfl⟩, fun z => ?_⟩
      have hlast := count_dropLast hl z
      show ((emplace p x s.q.dropLast).map Prod.snd).count z + _ = (s.q.map Prod.snd).count z + _
      rw [count_emplace]; omega
    · exact ⟨x, rfl, ⟨rfl, rfl, rfl⟩, fun _ => rfl⟩
  · exact ⟨x, rfl, ⟨rfl, rfl, rfl⟩, fun _ => rfl⟩

/-- A waiting push goes on when there is room, and drops its item when the
queue was finished or unblocked instead. -/
theorem pushWake_spec {p : Int} {x : α} {r : ThreadSafeQueue α × Pushed α}
    (h : s.pushWake p x = some r) :
    s.SameMode r.1 ∧
      ((s.full = false ∧ r = (s.store p x, .stored)) ∨
        (s.full = true ∧ (s.done = true ∨ s.blocking = false) ∧ r.2 = .dropped x ∧
          Drops s r.1 x x)) := by
  unfold pushWake at h
  split at h
  · next hf =>
    cases h
    exact ⟨⟨rfl, rfl, rfl⟩, .inl ⟨by simpa using hf, rfl⟩⟩
  next hf =>
  split at h
  · next hd =>
    cases h
    exact ⟨⟨rfl, rfl, rfl⟩, .inr ⟨by simpa using hf, by simpa using hd, rfl, fun _ => rfl⟩⟩
  · cases h

/-- A push stores its item when there is room. Into a full queue it waits in
blocking mode, until the queue is finished, and drops an item otherwise. -/
theorem pushEnter_spec (s : ThreadSafeQueue α) (p : Int) (x : α) :
    s.SameMode (s.pushEnter p x).1 ∧
      ((s.full = false ∧ s.pushEnter p x = (s.store p x, .stored)) ∨
        (s.full = true ∧ s.done = false ∧ s.blocking = true ∧ s.pushEnter p x = (s, .waits)) ∨
        (s.full = true ∧ (s.done = true ∨ s.blocking = false) ∧
          ∃ y, (s.pushEnter p x).2 = .dropped y ∧ Drops s (s.pushEnter p x).1 x y)) := by
  unfold pushEnter
  split
  · next hf => exact ⟨⟨rfl, rfl, rfl⟩, .inl ⟨by simpa using hf, rfl⟩⟩
  next hf =>
  have hfull : s.full = true := by simpa using hf
  split
  · next hb =>
    obtain ⟨y, hy, hm, hd⟩ := emergencyDrop_spec (s := s) p x
    exact ⟨hm, .inr (.inr ⟨hfull, .inr (by simpa using hb), y, hy, hd⟩)⟩
  next hb =>
  cases hw : s.pushWake p x with
  | none =>
    have hdone : s.done = false := by
      rw [pushWake, if_neg hf] at hw
      split at hw
      · cases hw
      · next h => simp only [Bool.or_eq_true, not_or, Bool.not_eq_true] at h; exact h.1
    exact ⟨⟨rfl, rfl, rfl⟩, .inr (.inl ⟨hfull, hdone, by simpa using hb, rfl⟩)⟩
  | some r =>
    obtain ⟨hm, h⟩ := pushWake_spec hw
    refine ⟨hm, ?_⟩
    cases h with
    | inl h => exact absurd h.1 (by simp [hfull])
    | inr h => exact .inr (.inr ⟨hfull, h.2.1, x, h.2.2⟩)

theorem count_store (s : ThreadSafeQueue α) (p : Int) (x z : α) :
    (s.store p x).items.count z = s.items.count z + [x].count z := count_emplace z p x s.q

/-- `pop` takes the first item, or reports the end of a finished queue. -/
theorem pop_spec {r : Option α × ThreadSafeQueue α} (h : s.pop = some r) :
    (∃ x, r.1 = some x ∧ s.SameMode r.2 ∧
      ∀ z, s.items.count z = r.2.items.count z + [x].count z) ∨
    (r = (none, s) ∧ s.q = [] ∧ s.done = true) := by
  unfold pop at h
  split at h
  · next e rest hq =>
    cases h
    refine .inl ⟨e.2, rfl, ⟨rfl, rfl, rfl⟩, fun z => ?_⟩
    simp only [items, hq, List.map_cons, List.count_cons, List.count_nil]; omega
  · next hq =>
    split at h
    · next hd => cases h; exact .inr ⟨rfl, hq, hd⟩
    · cases h

end Wirewolf.L5.Queue
