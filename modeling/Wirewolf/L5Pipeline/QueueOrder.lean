import Mathlib.Data.List.Induction
import Wirewolf.Core.Ranking
import Wirewolf.L5Pipeline.Queue

/-!
# What the bounded queue keeps

The purpose of the queue is stated apart from its code: `Live` is the list of
the items that were pushed and neither popped nor given up, ranked by priority
and then by arrival, at most `capacity` of them. A push that does not fit
gives up the last one; a pop takes the first.

* `follows_call`: in live mode one call of the code is one call on `Live`.
* `queue_keeps_most_suspicious`: so after any calls the queue is the live
  items in their order, whatever a push gives up is outranked by all that
  stays, and after pushes alone the queue is the beginning of their stable
  sort.
-/
namespace Wirewolf.L5.QueueOrder

open Wirewolf.Ranking Wirewolf.L5.Queue

variable {α : Type}

/-- A queued item with the number of its push. -/
structure Item (α : Type) where
  priority : Int
  arrival : Nat
  val : α

def Item.entry (i : Item α) : Int × α := (i.priority, i.val)

/-- `i` is popped before `j`. -/
def Item.Before (i j : Item α) : Prop := Outranks Item.priority Item.arrival i j

/-- `clock` numbers the pushes. -/
structure Live (α : Type) (capacity : Nat) where
  items : List (Item α)
  clock : Nat
  ranked : items.Pairwise Item.Before
  past : ∀ i ∈ items, i.arrival < clock
  bounded : items.length ≤ capacity

inductive Call (α : Type) where
  | push (p : Int) (x : α)
  | pop

namespace Live

variable {capacity : Nat} (L : Live α capacity)

def empty : Live α capacity := ⟨[], 0, .nil, fun _ h => absurd h List.not_mem_nil, Nat.zero_le _⟩

/-- The item that a push of `x` brings. -/
def incoming (p : Int) (x : α) : Item α := ⟨p, L.clock, x⟩

/-- The live items with the incoming one among them. -/
def candidates (p : Int) (x : α) : List (Item α) :=
  enqueue Item.priority (L.incoming p x) L.items

theorem ranked_candidates (p : Int) (x : α) : (L.candidates p x).Pairwise Item.Before :=
  Ranked.enqueue L.ranked L.past

/-- A push keeps the first `capacity` candidates. -/
def push (p : Int) (x : α) : Live α capacity where
  items := (L.candidates p x).take capacity
  clock := L.clock + 1
  ranked := (L.ranked_candidates p x).sublist (List.take_sublist ..)
  past i hi := by
    rcases mem_enqueue.1 (List.mem_of_mem_take hi) with h | h
    · rw [h]; exact Nat.lt_succ_self _
    · exact Nat.lt_succ_of_lt (L.past i h)
  bounded := List.length_take_le ..

/-- The candidate that a push gives up. -/
def givenUp (p : Int) (x : α) : Option (Item α) := (L.candidates p x)[capacity]?

def pop : Live α capacity where
  items := L.items.tail
  clock := L.clock
  ranked := L.ranked.sublist (List.tail_sublist _)
  past i hi := L.past i (List.mem_of_mem_tail hi)
  bounded := Nat.le_trans (by simp) L.bounded

def call : Call α → Live α capacity
  | .push p x => L.push p x
  | .pop => L.pop

/-- What is given up is outranked by every item that stays. -/
theorem givenUp_last {p : Int} {x : α} {d : Item α} (h : L.givenUp p x = some d) :
    (L.incoming p x :: L.items).Perm (d :: (L.push p x).items) ∧
      ∀ i ∈ (L.push p x).items, i.Before d := by
  refine ⟨?_, Ranked.spill (L.ranked_candidates p x) h⟩
  have hlen : (L.candidates p x).length ≤ capacity + 1 := by
    have := L.bounded
    simp only [candidates, length_enqueue]; omega
  have hlast : (L.candidates p x).drop capacity = [d] := by
    obtain ⟨hlt, hd⟩ := List.getElem?_eq_some_iff.1 h
    rw [List.drop_eq_getElem_cons hlt, hd, List.drop_eq_nil_of_le hlen]
  have hsplit : L.candidates p x = (L.push p x).items ++ [d] :=
    hlast ▸ (List.take_append_drop capacity _).symm
  refine (enqueue_perm _ _).symm.trans (?_ : (L.candidates p x).Perm _)
  rw [hsplit]
  exact List.perm_append_comm

theorem push_of_none {p : Int} {x : α} (h : L.givenUp p x = none) :
    (L.push p x).items.Perm (L.incoming p x :: L.items) := by
  have hle : (L.candidates p x).length ≤ capacity := List.getElem?_eq_none_iff.1 h
  have hall : (L.push p x).items = L.candidates p x := List.take_of_length_le hle
  rw [hall]
  exact enqueue_perm _ _

theorem push_room (p : Int) (x : α) (h : L.items.length < capacity) :
    (L.push p x).items = L.candidates p x ∧ L.givenUp p x = none := by
  have hle : (L.candidates p x).length ≤ capacity := by
    simp only [candidates, length_enqueue]; omega
  exact ⟨List.take_of_length_le hle, List.getElem?_eq_none hle⟩

/-- A full queue gives up its last item for one of a higher priority. -/
theorem push_evicts {p : Int} (x : α) {init : List (Item α)} {lowest : Item α}
    (hcap : L.items.length = capacity) (hsplit : L.items = init ++ [lowest])
    (hp : lowest.priority < p) :
    (L.push p x).items = enqueue Item.priority (L.incoming p x) init ∧
      L.givenUp p x = some lowest := by
  have hsize : (enqueue Item.priority (L.incoming p x) init).length = capacity := by
    rw [length_enqueue, ← hcap, hsplit, List.length_append]; rfl
  have hcand : L.candidates p x = enqueue Item.priority (L.incoming p x) init ++ [lowest] := by
    rw [candidates, hsplit]
    exact enqueue_concat_of_lt init hp
  refine ⟨?_, ?_⟩
  · show (L.candidates p x).take capacity = _
    rw [hcand, List.take_left' hsize]
  · rw [givenUp, hcand, List.getElem?_append_right (Nat.le_of_eq hsize), hsize, Nat.sub_self]
    rfl

/-- It gives up the incoming one when that has no higher priority than its last. -/
theorem push_rejects {p : Int} (x : α) {init : List (Item α)} {lowest : Item α}
    (hcap : L.items.length = capacity) (hsplit : L.items = init ++ [lowest])
    (hp : p ≤ lowest.priority) :
    (L.push p x).items = L.items ∧ L.givenUp p x = some (L.incoming p x) := by
  have hmin : ∀ i ∈ L.items, p ≤ i.priority := by
    intro i hi
    have hranked := hsplit ▸ L.ranked
    rcases List.mem_append.1 (hsplit ▸ hi) with hi | hi
    · have hbefore : i.Before lowest := (List.pairwise_append.1 hranked).2.2 i hi _ (.head _)
      exact le_trans hp hbefore.rank_le
    · rw [List.mem_singleton.1 hi]; exact hp
  have hcand : L.candidates p x = L.items ++ [L.incoming p x] := enqueue_of_le hmin
  refine ⟨?_, ?_⟩
  · show (L.candidates p x).take capacity = _
    rw [hcand, List.take_left' hcap]
  · rw [givenUp, hcand, List.getElem?_append_right (Nat.le_of_eq hcap), hcap, Nat.sub_self]
    rfl

end Live

/-! ## The calls of the code -/

/-- A call in live mode: no push waits, and a `pop` of the empty queue has
nothing to do yet. -/
def call (s : ThreadSafeQueue α) : Call α → ThreadSafeQueue α
  | .push p x => (s.pushEnter p x).1
  | .pop => (s.pop.map Prod.snd).getD s

def run (capacity : Nat) (calls : List (Call α)) : ThreadSafeQueue α :=
  calls.foldl call { maxCapacity := capacity }

def live (capacity : Nat) (calls : List (Call α)) : Live α capacity :=
  calls.foldl Live.call .empty

def Call.pushed : Call α → Option (Int × α)
  | .push p x => some (p, x)
  | .pop => none

/-- The queue in live mode, holding the live items in their order. -/
structure Follows {capacity : Nat} (s : ThreadSafeQueue α) (L : Live α capacity) : Prop where
  q : s.q = L.items.map Item.entry
  blocking : s.blocking = false
  finished : s.done = false
  maxCapacity : s.maxCapacity = capacity

theorem emplace_eq_enqueue (p : Int) (x : α) (q : List (Int × α)) :
    emplace p x q = enqueue Prod.fst (p, x) q := by
  induction q with
  | nil => rfl
  | cons e q ih =>
    rw [emplace, enqueue_cons, ih]
    by_cases h : p ≤ e.1
    · rw [if_pos h, if_neg (not_lt.2 h)]
    · rw [if_neg h, if_pos (not_le.1 h)]

variable {capacity : Nat} {s : ThreadSafeQueue α} {L : Live α capacity}

theorem emergencyDrop_evicts {p : Int} (x : α) {lowest : Int × α}
    (hl : s.q.getLast? = some lowest) (hp : lowest.1 < p) :
    s.emergencyDrop p x =
      ({ s.countDrop with q := emplace p x s.q.dropLast }, .dropped lowest.2) := by
  simp only [ThreadSafeQueue.emergencyDrop, hl, if_pos hp]

theorem emergencyDrop_rejects {p : Int} (x : α) {lowest : Int × α}
    (hl : s.q.getLast? = some lowest) (hp : ¬ lowest.1 < p) :
    s.emergencyDrop p x = (s.countDrop, .dropped x) := by
  simp only [ThreadSafeQueue.emergencyDrop, hl, if_neg hp]

theorem map_entry_enqueue (i : Item α) (l : List (Item α)) :
    (enqueue Item.priority i l).map Item.entry = enqueue Prod.fst i.entry (l.map Item.entry) := by
  have hf : ∀ i : Item α, i.entry.1 = i.priority := fun _ => rfl
  exact map_enqueue hf i l

theorem emplace_entries (p : Int) (x : α) (n : Nat) (l : List (Item α)) :
    emplace p x (l.map Item.entry) = (enqueue Item.priority ⟨p, n, x⟩ l).map Item.entry := by
  rw [emplace_eq_enqueue]
  exact (map_entry_enqueue ⟨p, n, x⟩ l).symm

/-- The report of a push that gave up `d`, or nothing. -/
def report (d : Option (Item α)) : Pushed α :=
  match d with
  | some d => .dropped d.val
  | none => .stored

/-- In live mode a push is a push on the live items, and reports what they gave up. -/
theorem follows_push (hc : 1 ≤ capacity) (h : Follows s L) (p : Int) (x : α) :
    Follows (s.pushEnter p x).1 (L.push p x) ∧ (s.pushEnter p x).2 = report (L.givenUp p x) := by
  have hlen : s.q.length = L.items.length := by rw [h.q, List.length_map]
  by_cases hfull : s.full = true
  case neg =>
    have hlt : L.items.length < capacity := by
      simpa [ThreadSafeQueue.full, h.maxCapacity, hlen] using hfull
    obtain ⟨hkeep, hgive⟩ := L.push_room p x hlt
    have hstored : s.pushEnter p x = (s.store p x, .stored) := by
      rw [ThreadSafeQueue.pushEnter, if_pos (by simpa using hfull)]
    rw [hstored, hgive]
    refine ⟨⟨?_, h.blocking, h.finished, h.maxCapacity⟩, rfl⟩
    show emplace p x s.q = _
    rw [hkeep, h.q]
    exact emplace_entries ..
  have hcap : L.items.length = capacity := by
    have hle : capacity ≤ s.q.length := by simpa [ThreadSafeQueue.full, h.maxCapacity] using hfull
    exact Nat.le_antisymm L.bounded (hlen ▸ hle)
  have hdrop : s.pushEnter p x = s.emergencyDrop p x := by
    rw [ThreadSafeQueue.pushEnter, if_neg (by simpa using hfull), if_pos (by simp [h.blocking])]
  have hne : L.items ≠ [] := List.ne_nil_of_length_pos (by omega)
  obtain ⟨init, lowest, hsplit⟩ : ∃ init lowest, L.items = init ++ [lowest] :=
    ⟨_, _, (List.dropLast_concat_getLast hne).symm⟩
  have hq : s.q = init.map Item.entry ++ [lowest.entry] := by rw [h.q, hsplit, List.map_append]; rfl
  have hlast : s.q.getLast? = some lowest.entry := by rw [hq, List.getLast?_concat]
  rw [hdrop]
  by_cases hp : lowest.priority < p
  · obtain ⟨hkeep, hgive⟩ := L.push_evicts x hcap hsplit hp
    rw [emergencyDrop_evicts x hlast hp, hgive]
    refine ⟨⟨?_, h.blocking, h.finished, h.maxCapacity⟩, rfl⟩
    show emplace p x s.q.dropLast = _
    rw [hkeep, hq, List.dropLast_concat]
    exact emplace_entries ..
  · obtain ⟨hkeep, hgive⟩ := L.push_rejects x hcap hsplit (not_lt.1 hp)
    rw [emergencyDrop_rejects x hlast hp, hgive]
    refine ⟨⟨?_, h.blocking, h.finished, h.maxCapacity⟩, rfl⟩
    rw [hkeep]
    exact h.q

theorem follows_pop (h : Follows s L) :
    Follows (call s .pop) L.pop ∧
      s.pop = L.items.head?.map fun i => (some i.val, call s .pop) := by
  cases hitems : L.items with
  | nil =>
    have hq : s.q = [] := by rw [h.q, hitems]; rfl
    have hnone : s.pop = none := by simp [ThreadSafeQueue.pop, hq, h.finished]
    refine ⟨⟨?_, ?_, ?_, ?_⟩, ?_⟩ <;> simp only [call, hnone, Option.map_none, Option.getD_none]
    · simp [Live.pop, hitems, hq]
    · exact h.blocking
    · exact h.finished
    · exact h.maxCapacity
    · rfl
  | cons i rest =>
    have hq : s.q = i.entry :: rest.map Item.entry := by rw [h.q, hitems]; rfl
    have hsome : s.pop = some (some i.val, { s with q := rest.map Item.entry }) := by
      simp only [ThreadSafeQueue.pop, hq, Item.entry]
    refine ⟨⟨?_, ?_, ?_, ?_⟩, ?_⟩ <;> simp only [call, hsome, Option.map_some, Option.getD_some]
    · simp [Live.pop, hitems]
    · exact h.blocking
    · exact h.finished
    · exact h.maxCapacity
    · rfl

theorem follows_call (hc : 1 ≤ capacity) (h : Follows s L) (c : Call α) :
    Follows (call s c) (L.call c) :=
  match c with
  | .push p x => (follows_push hc h p x).1
  | .pop => (follows_pop h).1

theorem follows_calls (hc : 1 ≤ capacity) (h : Follows s L) (calls : List (Call α)) :
    Follows (calls.foldl call s) (calls.foldl Live.call L) := by
  induction calls generalizing s L with
  | nil => exact h
  | cons c calls ih => exact ih (follows_call hc h c)

theorem follows_run (hc : 1 ≤ capacity) (calls : List (Call α)) :
    Follows (run capacity calls) (live capacity calls) :=
  follows_calls hc ⟨rfl, rfl, rfl, rfl⟩ calls

/-! ## Any calls -/

def pushes (calls : List (Call α)) : List (Int × α) := calls.filterMap Call.pushed

theorem live_concat (calls : List (Call α)) (c : Call α) :
    live capacity (calls ++ [c]) = (live capacity calls).call c := by
  simp only [live, List.foldl_append, List.foldl_cons, List.foldl_nil]

theorem run_concat (calls : List (Call α)) (c : Call α) :
    run capacity (calls ++ [c]) = call (run capacity calls) c := by
  simp only [run, List.foldl_append, List.foldl_cons, List.foldl_nil]

theorem pushes_concat (calls : List (Call α)) (c : Call α) :
    pushes (calls ++ [c]) = pushes calls ++ c.pushed.toList := by
  rw [pushes, List.filterMap_append]
  cases c <;> rfl

theorem live_clock (calls : List (Call α)) :
    (live capacity calls).clock = (pushes calls).length := by
  induction calls using List.reverseRecOn with
  | nil => rfl
  | append_singleton calls c ih =>
    rw [live_concat, pushes_concat, List.length_append]
    cases c with
    | push p x => exact congrArg (· + 1) ih
    | pop => exact ih

/-- The number of a live item is that of its push. -/
theorem live_pushed (calls : List (Call α)) :
    ∀ i ∈ (live capacity calls).items, (pushes calls)[i.arrival]? = some i.entry := by
  induction calls using List.reverseRecOn with
  | nil => exact fun i hi => absurd hi List.not_mem_nil
  | append_singleton calls c ih =>
    rw [live_concat, pushes_concat]
    have keep : ∀ i ∈ (live capacity calls).items,
        (pushes calls ++ c.pushed.toList)[i.arrival]? = some i.entry := by
      intro i hi
      obtain ⟨hlt, _⟩ := List.getElem?_eq_some_iff.1 (ih i hi)
      rw [List.getElem?_append_left hlt]
      exact ih i hi
    cases c with
    | pop => exact fun i hi => keep i (List.mem_of_mem_tail hi)
    | push p x =>
      intro i hi
      rcases mem_enqueue.1 (List.mem_of_mem_take hi) with hi | hi
      · rw [hi]
        show (pushes calls ++ [(p, x)])[(live capacity calls).clock]? = some (p, x)
        rw [live_clock, List.getElem?_concat_length]
      · exact keep i hi

/-- After pushes alone the live items begin the stable sort of what was pushed. -/
theorem live_best (l : List (Int × α)) :
    (live capacity (l.map fun e => .push e.1 e.2)).items.map Item.entry =
      best Prod.fst capacity l := by
  induction l using List.reverseRecOn with
  | nil => simp [live, best, stableSort, Live.empty]
  | append_singleton l e ih =>
    rw [List.map_append, List.map_singleton, live_concat, best_concat, ← ih]
    show ((Live.candidates _ e.1 e.2).take capacity).map Item.entry = _
    rw [List.map_take, Live.candidates, map_entry_enqueue]
    rfl

/-- What a push of `i` does with the items `old`: it leaves all of them with
`i`, or drops one that is outranked by every item left. -/
inductive Keeps (old kept : List (Item α)) (i : Item α) : Pushed α → Prop
  | stored : kept.Perm (i :: old) → Keeps old kept i .stored
  | dropped (d : Item α) : (i :: old).Perm (d :: kept) → (∀ j ∈ kept, j.Before d) →
      Keeps old kept i (.dropped d.val)

theorem keeps_push (p : Int) (x : α) :
    Keeps L.items (L.push p x).items (L.incoming p x) (report (L.givenUp p x)) := by
  cases hd : L.givenUp p x with
  | none => exact .stored (L.push_of_none hd)
  | some d => exact .dropped d (L.givenUp_last hd).1 (L.givenUp_last hd).2

/-- The queue in live mode is the live items by priority and then arrival, for
any calls; and the best of all that was pushed when nothing was popped. -/
theorem queue_keeps_most_suspicious (capacity : Nat) (hc : 1 ≤ capacity) :
    (∀ calls : List (Call α),
      let s := run capacity calls
      let items := (live capacity calls).items
      s.q = items.map Item.entry ∧ items.Pairwise Item.Before ∧ s.size ≤ capacity ∧
      (∀ i ∈ items, (pushes calls)[i.arrival]? = some i.entry) ∧
      s.pop = items.head?.map (fun i => (some i.val, run capacity (calls ++ [.pop]))) ∧
      (live capacity (calls ++ [.pop])).items = items.tail ∧
      ∀ p x, Keeps items (live capacity (calls ++ [.push p x])).items
        ⟨p, (pushes calls).length, x⟩ (s.pushEnter p x).2) ∧
    ∀ l : List (Int × α), (run capacity (l.map fun e => .push e.1 e.2)).q =
      best Prod.fst capacity l := by
  refine ⟨fun calls => ?_, fun l => ?_⟩
  · have hf := follows_run hc calls
    refine ⟨hf.q, (live capacity calls).ranked, ?_, live_pushed calls, ?_, ?_, fun p x => ?_⟩
    · rw [ThreadSafeQueue.size, hf.q, List.length_map]
      exact (live capacity calls).bounded
    · rw [run_concat]; exact (follows_pop hf).2
    · rw [live_concat]; rfl
    · have hclock : (live capacity calls).clock = (pushes calls).length := live_clock calls
      rw [live_concat, ← hclock, (follows_push hc hf p x).2]
      exact keeps_push p x
  · rw [(follows_run hc _).q, live_best]

theorem queue_keeps_two_of_four :
    1 ≤ 2 ∧ (run 2 [.push 1 'a', .push 2 'b', .push 1 'c', .push 2 'd']).q =
      best Prod.fst 2 [(1, 'a'), (2, 'b'), (1, 'c'), (2, 'd')] :=
  ⟨by decide, (queue_keeps_most_suspicious 2 (by decide)).2
    [(1, 'a'), (2, 'b'), (1, 'c'), (2, 'd')]⟩

end Wirewolf.L5.QueueOrder
