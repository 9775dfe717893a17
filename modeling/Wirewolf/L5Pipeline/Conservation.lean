import Mathlib.Algebra.Order.Group.Multiset
import Mathlib.Tactic.Abel
import Wirewolf.Core.LTS
import Wirewolf.L5Pipeline.Queue

/-!
# Conservation in the bounded queue

Producers and consumers of one queue, any number of them. A step is one
section under the mutex: the entry of a `push`, the wake-up of a waiting one
(whose predicate may still be false), a `pop` past its wait, `set_blocking`
and `finish`. The state keeps, next to the queue and the waiting pushes, what
was handed to `push`, returned by `pop` and discarded.

* `push_section`, `wake_section`: what one section does with its item.
* `conserved_step`, `queue_conserves`: in every state of every run an item
  handed in is returned, queued, waiting or discarded, once; and none is
  discarded while the queue blocks and is finished after the last push.
-/
namespace Wirewolf.L5.Conservation

open Wirewolf.L5.Queue

variable {α : Type}

structure System (α : Type) where
  queue : ThreadSafeQueue α
  /-- The items of the producers in the wait of `push`. -/
  waiting : List (Int × α) := []
  handed : List α := []
  returned : List α := []
  discarded : List α := []
  deriving DecidableEq

inductive Label (α : Type) where
  | push (p : Int) (x : α)
  | wake (i : Nat)
  | pop
  | setBlocking (enable : Bool)
  | finish
  deriving DecidableEq

def Label.isPush : Label α → Bool
  | .push _ _ => true
  | _ => false

namespace System

/-- How a section of a `push` of `x` leaves the system. -/
def settle (s : System α) (p : Int) (x : α) : ThreadSafeQueue α × Pushed α → System α
  | (q, .stored) => { s with queue := q }
  | (q, .waits) => { s with queue := q, waiting := (p, x) :: s.waiting }
  | (q, .dropped y) => { s with queue := q, discarded := y :: s.discarded }

def step (s : System α) : Label α → Option (System α)
  | .push p x => some ({ s with handed := x :: s.handed }.settle p x (s.queue.pushEnter p x))
  | .wake i =>
    s.waiting[i]?.map fun e =>
      match s.queue.pushWake e.1 e.2 with
      | some r => { s with waiting := s.waiting.eraseIdx i }.settle e.1 e.2 r
      | none => s
  | .pop => s.queue.pop.map fun r =>
    { s with queue := r.2, returned := r.1.toList ++ s.returned }
  | .setBlocking enable => some { s with queue := s.queue.setBlocking enable }
  | .finish => some { s with queue := s.queue.finish }

end System

def system (α : Type) (capacity : Nat) : LTS (System α) (Label α) :=
  LTS.ofFn
    (fun s => 1 ≤ capacity ∧
      ∃ blocking, s = { queue := { maxCapacity := capacity, blocking := blocking } })
    System.step

/-- Each item handed in is accounted for once. -/
structure Conserved (capacity : Nat) (s : System α) : Prop where
  items : (s.handed : Multiset α) =
    s.returned + s.queue.items + (s.waiting.map Prod.snd : List α) + s.discarded
  counted : s.queue.droppedCount = s.discarded.length
  bounded : s.queue.size ≤ capacity
  maxCapacity : s.queue.maxCapacity = capacity

/-- The mode in which nothing is discarded: the queue blocks, is finished
when no push waits, and takes no push after that. -/
def Holding (s : System α) (l : Label α) : Prop :=
  (s.queue.blocking = true ∨ l = .setBlocking true) ∧ (l = .finish → s.waiting = []) ∧
    (s.queue.done = true → l.isPush = false)

instance [DecidableEq α] (s : System α) (l : Label α) : Decidable (Holding s l) :=
  inferInstanceAs (Decidable (_ ∧ _ ∧ _))

/-! ## One section of a push -/

/-- A section of a push of `x` into `s`: it stores the item, leaves the
producer waiting, or discards an item because the queue may not wait. -/
inductive Section (s : ThreadSafeQueue α) (x : α) : ThreadSafeQueue α × Pushed α → Prop
  | stored {t : ThreadSafeQueue α} : s.SameMode t → s.full = false →
      t.items.Perm (x :: s.items) → t.droppedCount = s.droppedCount → Section s x (t, .stored)
  | waits : s.full = true → s.blocking = true → s.done = false → Section s x (s, .waits)
  | dropped {t : ThreadSafeQueue α} (y : α) : s.SameMode t →
      (s.done = true ∨ s.blocking = false) → (y :: t.items).Perm (x :: s.items) →
      t.droppedCount = s.droppedCount + 1 → Section s x (t, .dropped y)

variable {s : ThreadSafeQueue α} {p : Int} {x y : α}

theorem perm_of_drops [DecidableEq α] {t : ThreadSafeQueue α} (h : Drops s t x y) :
    (y :: t.items).Perm (x :: s.items) := by
  refine List.perm_iff_count.2 fun z => ?_
  have hz := h z
  simp only [List.count_cons, List.count_nil] at hz ⊢
  omega

theorem store_perm [DecidableEq α] (s : ThreadSafeQueue α) (p : Int) (x : α) :
    (s.store p x).items.Perm (x :: s.items) := by
  refine List.perm_iff_count.2 fun z => ?_
  have hz := count_store s p x z
  simp only [List.count_cons, List.count_nil] at hz ⊢
  omega

theorem emergencyDrop_counted (s : ThreadSafeQueue α) (p : Int) (x : α) :
    (s.emergencyDrop p x).1.droppedCount = s.droppedCount + 1 := by
  unfold ThreadSafeQueue.emergencyDrop
  split
  · split <;> rfl
  · rfl

theorem wake_section {r : ThreadSafeQueue α × Pushed α} (h : s.pushWake p x = some r) :
    Section s x r := by
  classical
  obtain ⟨hm, ⟨hfull, hr⟩ | ⟨hfull, hmode, hr, hd⟩⟩ := pushWake_spec h
  · subst hr
    exact .stored hm hfull (store_perm s p x) rfl
  · have hcount : r.1.droppedCount = s.droppedCount + 1 := by
      unfold ThreadSafeQueue.pushWake at h
      rw [if_neg (by simp [hfull])] at h
      split at h
      · cases h; rfl
      · cases h
    obtain ⟨t, k⟩ := r
    cases hr
    exact .dropped x hm hmode (perm_of_drops hd) hcount

theorem push_section (s : ThreadSafeQueue α) (p : Int) (x : α) :
    Section s x (s.pushEnter p x) := by
  classical
  obtain ⟨hm, ⟨hfull, hr⟩ | ⟨hfull, hdone, hblock, hr⟩ | ⟨hfull, hmode, y, hr, hd⟩⟩ :=
    pushEnter_spec s p x
  · rw [hr] at hm ⊢
    exact .stored hm hfull (store_perm s p x) rfl
  · rw [hr]
    exact .waits hfull hblock hdone
  · have hcount : (s.pushEnter p x).1.droppedCount = s.droppedCount + 1 := by
      unfold ThreadSafeQueue.pushEnter at hr ⊢
      rw [if_neg (by simp [hfull])] at hr ⊢
      split
      · exact emergencyDrop_counted s p x
      · next hb =>
        rw [if_neg hb] at hr
        cases hw : s.pushWake p x with
        | none => rw [hw] at hr; cases hr
        | some r =>
          cases wake_section hw with
          | stored _ hroom => exact absurd hfull (by simp [hroom])
          | waits => exact absurd hw (by unfold ThreadSafeQueue.pushWake; simp [*])
          | dropped y _ _ _ hc => exact hc
    generalize s.pushEnter p x = r at *
    obtain ⟨t, k⟩ := r
    cases hr
    exact .dropped y hm hmode (perm_of_drops hd) hcount

theorem pop_section {r : Option α × ThreadSafeQueue α} (h : s.pop = some r) :
    s.SameMode r.2 ∧ s.items.Perm (r.1.toList ++ r.2.items) ∧
      r.2.droppedCount = s.droppedCount := by
  unfold ThreadSafeQueue.pop at h
  split at h
  · next e rest hq =>
    cases h
    refine ⟨⟨rfl, rfl, rfl⟩, ?_, rfl⟩
    rw [ThreadSafeQueue.items, hq]
    exact .refl _
  · split at h
    · cases h; exact ⟨⟨rfl, rfl, rfl⟩, .refl _, rfl⟩
    · cases h

/-! ## Conservation -/

variable {capacity : Nat}

theorem coe_cons (x : α) (l : List α) : ((x :: l : List α) : Multiset α) = {x} + l := by
  rw [Multiset.singleton_add, Multiset.cons_coe]

theorem size_eq (s : ThreadSafeQueue α) : s.size = s.items.length :=
  (List.length_map ..).symm

/-- A section that holds `x` in hand leaves it in its place. -/
theorem conserved_settle {s : System α} {r : ThreadSafeQueue α × Pushed α} (p : Int)
    (hsec : Section s.queue x r)
    (hitems : (s.handed : Multiset α) =
      s.returned + s.queue.items + (s.waiting.map Prod.snd : List α) + s.discarded + {x})
    (hcounted : s.queue.droppedCount = s.discarded.length) (hbounded : s.queue.size ≤ capacity)
    (hcap : s.queue.maxCapacity = capacity) : Conserved capacity (s.settle p x r) := by
  cases hsec with
  | @stored t hm hroom hp hc =>
    have hcoe : (t.items : Multiset α) = {x} + s.queue.items := by
      rw [← coe_cons]; exact Multiset.coe_eq_coe.2 hp
    refine ⟨?_, hc.trans hcounted, ?_, hm.maxCapacity.trans hcap⟩
    · show (s.handed : Multiset α) =
        s.returned + t.items + (s.waiting.map Prod.snd : List α) + s.discarded
      rw [hitems, hcoe]
      abel
    · have hlt : s.queue.size < capacity := by
        simpa [ThreadSafeQueue.full, ThreadSafeQueue.size, hcap] using hroom
      have hlen := hp.length_eq
      show t.size ≤ capacity
      rw [size_eq] at hlt ⊢
      rw [List.length_cons] at hlen
      omega
  | waits =>
    refine ⟨?_, hcounted, hbounded, hcap⟩
    show (s.handed : Multiset α) =
      s.returned + s.queue.items + (x :: s.waiting.map Prod.snd : List α) + s.discarded
    rw [hitems, coe_cons]
    abel
  | @dropped t y hm _ hp hc =>
    have hcoe : {y} + (t.items : Multiset α) = {x} + s.queue.items := by
      rw [← coe_cons, ← coe_cons]; exact Multiset.coe_eq_coe.2 hp
    refine ⟨?_, ?_, ?_, hm.maxCapacity.trans hcap⟩
    · show (s.handed : Multiset α) = s.returned + t.items + _ + (y :: s.discarded : List α)
      calc (s.handed : Multiset α)
          = s.returned + ({x} + s.queue.items) + (s.waiting.map Prod.snd : List α) +
              s.discarded := by rw [hitems]; abel
        _ = s.returned + t.items + (s.waiting.map Prod.snd : List α) +
              (y :: s.discarded : List α) := by rw [← hcoe, coe_cons]; abel
    · show t.droppedCount = (y :: s.discarded).length
      rw [hc, hcounted, List.length_cons]
    · have hlen := hp.length_eq
      show t.size ≤ capacity
      rw [size_eq] at hbounded ⊢
      simp only [List.length_cons] at hlen
      omega

theorem waiting_eraseIdx {l : List (Int × α)} {i : Nat} {e : Int × α} (h : l[i]? = some e) :
    ((l.map Prod.snd : List α) : Multiset α) =
      ((l.eraseIdx i).map Prod.snd : List α) + {e.2} := by
  obtain ⟨hlt, rfl⟩ := List.getElem?_eq_some_iff.1 h
  have hperm : l.Perm (l[i] :: l.eraseIdx i) := (List.getElem_cons_eraseIdx_perm hlt).symm
  rw [add_comm, ← coe_cons]
  exact Multiset.coe_eq_coe.2 (hperm.map Prod.snd)

theorem conserved_step {s s' : System α} {l : Label α} (h : Conserved capacity s)
    (hst : s.step l = some s') : Conserved capacity s' := by
  cases l with
  | push p x =>
    cases hst
    refine conserved_settle p (push_section s.queue p x) ?_ h.counted h.bounded h.maxCapacity
    show ((x :: s.handed : List α) : Multiset α) = _
    rw [coe_cons, h.items, add_comm]
  | wake i =>
    obtain ⟨e, he, hst⟩ := Option.map_eq_some_iff.1 hst
    cases hw : s.queue.pushWake e.1 e.2 with
    | none => rw [hw] at hst; cases hst; exact h
    | some r =>
      rw [hw] at hst
      cases hst
      refine conserved_settle e.1 (wake_section hw) ?_ h.counted h.bounded h.maxCapacity
      show (s.handed : Multiset α) = _
      rw [h.items, waiting_eraseIdx he]
      abel
  | pop =>
    obtain ⟨⟨o, q⟩, hr, hst⟩ := Option.map_eq_some_iff.1 hst
    cases hst
    obtain ⟨hm, hperm, hc⟩ := pop_section hr
    have hcoe : (s.queue.items : Multiset α) = o.toList + q.items := Multiset.coe_eq_coe.2 hperm
    refine ⟨?_, hc.trans h.counted, ?_, hm.maxCapacity.trans h.maxCapacity⟩
    · show (s.handed : Multiset α) = (o.toList ++ s.returned : List α) + q.items +
          (s.waiting.map Prod.snd : List α) + s.discarded
      rw [h.items, hcoe, ← Multiset.coe_add]
      abel
    · have hlen : s.queue.items.length = o.toList.length + q.items.length :=
        hperm.length_eq.trans List.length_append
      have hb := h.bounded
      show q.size ≤ capacity
      rw [size_eq] at hb ⊢
      omega
  | setBlocking enable =>
    cases hst
    exact ⟨h.items, h.counted, h.bounded, h.maxCapacity⟩
  | finish =>
    cases hst
    exact ⟨h.items, h.counted, h.bounded, h.maxCapacity⟩

theorem conserved_inductive : (system α capacity).Inductive (Conserved capacity) where
  init s hs := by
    obtain ⟨_, blocking, rfl⟩ := hs
    exact ⟨rfl, rfl, Nat.zero_le _, rfl⟩
  step _ _ _ h hst := conserved_step h hst

/-! ## Nothing is discarded while the queue holds -/

/-- A finished queue has no waiting push. -/
structure Held (s : System α) : Prop where
  discarded : s.discarded = []
  waiting : s.queue.done = true → s.waiting = []

theorem held_settle {s : System α} {r : ThreadSafeQueue α × Pushed α} (p : Int)
    (h : Held s) (hb : s.queue.blocking = true) (hd : s.queue.done = false)
    (hsec : Section s.queue x r) : Held (s.settle p x r) := by
  cases hsec with
  | stored hm _ _ _ => exact ⟨h.discarded, fun hdone => h.waiting (hm.done ▸ hdone)⟩
  | waits => exact ⟨h.discarded, fun hdone => absurd hdone (by simp [System.settle, hd])⟩
  | dropped y _ hmode _ _ => simp [hb, hd] at hmode

theorem held_step {s s' : System α} {l : Label α} (hl : Holding s l) (h : Held s)
    (hst : s.step l = some s') : Held s' := by
  obtain ⟨hblock, hfinish, hlate⟩ := hl
  cases l with
  | push p x =>
    cases hst
    have hb := hblock.resolve_right (by simp)
    have hd : s.queue.done = false := by
      cases hd : s.queue.done with
      | false => rfl
      | true => exact absurd (hlate hd) (by simp [Label.isPush])
    exact held_settle p ⟨h.discarded, h.waiting⟩ hb hd (push_section s.queue p x)
  | wake i =>
    have hb := hblock.resolve_right (by simp)
    obtain ⟨e, he, hst⟩ := Option.map_eq_some_iff.1 hst
    cases hd : s.queue.done with
    | true => simp [h.waiting hd] at he
    | false =>
      cases hw : s.queue.pushWake e.1 e.2 with
      | none => rw [hw] at hst; cases hst; exact h
      | some r =>
        rw [hw] at hst
        cases hst
        exact held_settle e.1 ⟨h.discarded, fun hdone => absurd hdone (by simp [hd])⟩ hb hd
          (wake_section hw)
  | pop =>
    obtain ⟨r, hr, hst⟩ := Option.map_eq_some_iff.1 hst
    cases hst
    exact ⟨h.discarded, fun hdone => h.waiting ((pop_section hr).1.done ▸ hdone)⟩
  | setBlocking enable =>
    cases hst
    exact ⟨h.discarded, h.waiting⟩
  | finish =>
    cases hst
    exact ⟨h.discarded, fun _ => hfinish rfl⟩

/-- In every state of every run, whatever the order of the sections: an item
handed to `push` is at one place, the drops are counted and the capacity is
kept. Nothing is dropped in a run that keeps the queue blocking and finishes
it after the last push. -/
theorem queue_conserves {capacity : Nat} {s₀ s : System α} {ls : List (Label α)}
    (h₀ : (system α capacity).init s₀) (hr : (system α capacity).Run s₀ ls s) :
    Conserved capacity s ∧ ((system α capacity).Along Holding s₀ ls → s.discarded = []) := by
  refine ⟨conserved_inductive.run hr (conserved_inductive.init s₀ h₀), fun ha => ?_⟩
  have hheld : ((system α capacity).guard Holding).Inductive Held := by
    refine ⟨fun s hs => ?_, fun s l s' h hst => held_step hst.1 h hst.2⟩
    obtain ⟨_, blocking, rfl⟩ := hs
    exact ⟨rfl, fun _ => rfl⟩
  exact (hheld.run (LTS.run_guard hr ha) (hheld.init s₀ h₀)).discarded

/-- A queue of one item, in which the second push waits for the `pop`. -/
def handover : List (Label Char) :=
  [.setBlocking true, .push 1 'a', .push 2 'b', .wake 0, .pop, .wake 0, .finish, .pop, .pop]

theorem queue_conserves_handover :
    ∃ s : System Char, Conserved 1 s ∧ s.returned = ['b', 'a'] ∧ s.discarded = [] := by
  have hinit : (system Char 1).init { queue := { maxCapacity := 1 } } := ⟨by decide, false, rfl⟩
  have hexec : (LTS.exec System.step { queue := { maxCapacity := 1 } } handover).any
      (fun s => s.returned = ['b', 'a']) = true := by decide
  obtain ⟨s, hrun, hs⟩ := LTS.run_of_exec_any (system Char 1).init hexec
  have hhold : (system Char 1).Along Holding { queue := { maxCapacity := 1 } } handover :=
    LTS.along_of_checks _ (by decide)
  have h := queue_conserves hinit hrun
  exact ⟨s, h.1, of_decide_eq_true hs, h.2 hhold⟩

end Wirewolf.L5.Conservation
