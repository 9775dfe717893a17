import Wirewolf.Core.LTS
import Wirewolf.L4Filter.Decision
import Wirewolf.L4Filter.Escalation
import Wirewolf.L5Pipeline.Queue

/-!
# Deduplication and the queue behind the filter

The filter takes flows one by one and pushes what it passes to its output
queue; others pop from that queue, switch its mode and finish it. A step is a
round of the filter up to the end of its push or the wait in it, the wake-up
of a waiting push, or one call of the others. `accepted` records the flows
that were in the queue at the end of their push, `delivered` those that were
popped.

The filter records a flow's key before it pushes the flow, and the push does
not report what becomes of it; nor does a later push that evicts the flow.

* `founded_step`: while no push discards a flow whose key is on record, each
  recorded key is that of a flow that waits, is queued or was popped.
* `dedup_founded`: in such a run a duplicate has an accepted twin, which is
  still queued or was popped.
* `dedup_unfounded`: without that, a repeat is dropped although its twin was
  never queued, or was evicted.
-/
namespace Wirewolf.L5.Dedup

open Wirewolf.L1.IpPacket Wirewolf.L4.Worker Wirewolf.L4.Decision Wirewolf.L5.Queue

/-- A flow on its way to the queue, as it came and as it was tagged. The
number is that of its round: equal flows are still different objects. -/
structure FlowPtr where
  number : Nat
  flow : FlowData
  tagged : FlowData
  deriving DecidableEq

structure Stage where
  filter : State := {}
  queue : ThreadSafeQueue FlowPtr
  waiting : Option FlowPtr := none
  rounds : Nat := 0
  accepted : List FlowPtr := []
  delivered : List FlowPtr := []

inductive Label where
  | flow (f : FlowData)
  | wake
  | pop
  | setBlocking (enable : Bool)
  | finish

namespace Stage

/-- How a section of the push of `x` leaves the stage. -/
def settle (s : Stage) (x : FlowPtr) (r : ThreadSafeQueue FlowPtr × Pushed FlowPtr) : Stage :=
  match r.2 with
  | .waits => { s with queue := r.1, waiting := some x }
  | _ =>
    { s with
      queue := r.1
      waiting := none
      accepted := if x ∈ r.1.items then x :: s.accepted else s.accepted }

/-- mirrors src/src/npu_filter.cpp:812-1123 -/
def round (e : Env) (s : Stage) (f : FlowData) : Stage :=
  let r := handle e s.filter f
  let x : FlowPtr := ⟨s.rounds, f, r.2.flow⟩
  let s := { s with filter := r.1, rounds := s.rounds + 1 }
  match r.2.pushed with
  | some priority => s.settle x (s.queue.pushEnter priority x)
  | none => s

def step (e : Env) (s : Stage) : Label → Option Stage
  | .flow f => if s.waiting = none then some (s.round e f) else none
  | .wake => s.waiting.map fun x =>
    match s.queue.pushWake (flowPriority x.tagged) x with
    | some r => s.settle x r
    | none => s
  | .pop => s.queue.pop.map fun r =>
    { s with queue := r.2, delivered := r.1.toList ++ s.delivered }
  | .setBlocking enable => some { s with queue := s.queue.setBlocking enable }
  | .finish => some { s with queue := s.queue.finish }

end Stage

/-- The filter starts without keys, on a queue in any state. -/
def filtering (e : Env) : LTS Stage Label :=
  LTS.ofFn (fun s => ∃ queue, s = { queue := queue }) (Stage.step e)

/-! ## Pushes that cost no recorded flow -/

/-- A later flow with the key of `x` counts as its duplicate. -/
def OnRecord (e : Env) (keys : List UInt64) (x : FlowPtr) : Prop :=
  ∃ k ∈ keys, dedupKey e x.flow = some k

/-- Which flow a full queue gives up for `x`, unless the push waits. -/
def givenUp (q : ThreadSafeQueue FlowPtr) (p : Int) (x : FlowPtr) : FlowPtr :=
  match q.q.getLast? with
  | some lowest => if q.blocking = false ∧ lowest.1 < p then lowest.2 else x
  | none => x

/-- There is room, or the push may wait, or `y`, which is given up, has no key
on record. -/
def Spares (e : Env) (keys : List UInt64) (q : ThreadSafeQueue FlowPtr) (y : FlowPtr) : Prop :=
  q.full = false ∨ (q.blocking = true ∧ q.done = false) ∨ ¬ OnRecord e keys y

/-- What a decision pushes; the key of its flow is recorded before. -/
def SparesNew (e : Env) (s : Stage) (f : FlowData) (keys : List UInt64) : Ruling → Prop
  | .once key _ tagged _ =>
    key ∈ keys ∨
      Spares e (key :: keys) s.queue (givenUp s.queue (flowPriority tagged) ⟨s.rounds, f, tagged⟩)
  | .pass flow _ => Spares e keys s.queue (givenUp s.queue (flowPriority flow) ⟨s.rounds, f, flow⟩)
  | .drop _ _ => True

/-- No push discards a flow whose key is on record. -/
def KeysSpared (e : Env) (s : Stage) : Label → Prop
  | .flow f => SparesNew e s f (ready s.filter f).seenPayloadHashes (decision e f)
  | .wake => ∀ x ∈ s.waiting, Spares e s.filter.seenPayloadHashes s.queue x
  | .pop => True
  | .setBlocking _ => True
  | .finish => True

instance (e : Env) (keys : List UInt64) (x : FlowPtr) : Decidable (OnRecord e keys x) :=
  inferInstanceAs (Decidable (∃ k ∈ keys, _))

instance (e : Env) (keys : List UInt64) (q : ThreadSafeQueue FlowPtr) (y : FlowPtr) :
    Decidable (Spares e keys q y) :=
  inferInstanceAs (Decidable (_ ∨ _ ∨ _))

instance (e : Env) (s : Stage) (f : FlowData) (keys : List UInt64) :
    (d : Ruling) → Decidable (SparesNew e s f keys d)
  | .once _ _ _ _ => inferInstanceAs (Decidable (_ ∨ _))
  | .pass _ _ => inferInstanceAs (Decidable (Spares _ _ _ _))
  | .drop _ _ => instDecidableTrue

instance (e : Env) (s : Stage) : (l : Label) → Decidable (KeysSpared e s l)
  | .flow _ => inferInstanceAs (Decidable (SparesNew _ _ _ _ _))
  | .wake => inferInstanceAs (Decidable (∀ x ∈ s.waiting, _))
  | .pop => instDecidableTrue
  | .setBlocking _ => instDecidableTrue
  | .finish => instDecidableTrue

variable {e : Env} {keys : List UInt64} {q : ThreadSafeQueue FlowPtr} {x y : FlowPtr} {p : Int}

/-- A section of the push of `x` keeps `y` in the queue; it may leave `x` to
wait. -/
def Keeps (q : ThreadSafeQueue FlowPtr) (x : FlowPtr) (r : ThreadSafeQueue FlowPtr × Pushed FlowPtr)
    (y : FlowPtr) : Prop :=
  (y ∈ q.items → y ∈ r.1.items) ∧ (y = x → r.2 = .waits ∨ y ∈ r.1.items)

theorem keeps_store : Keeps q x (q.store p x, .stored) y := by
  have hcount := count_store q p x y
  refine ⟨fun hmem => ?_, ?_⟩
  · have hpos := List.count_pos_iff.2 hmem
    exact List.count_pos_iff.1 (hcount ▸ Nat.add_pos_left hpos _)
  · rintro rfl
    rw [List.count_singleton_self] at hcount
    exact .inr (List.count_pos_iff.1 (hcount ▸ Nat.succ_pos _))

theorem keeps_drops {r : ThreadSafeQueue FlowPtr × Pushed FlowPtr} {z : FlowPtr}
    (h : Drops q r.1 x z) (hne : y ≠ z) : Keeps q x r y := by
  have hcount := h y
  rw [List.count_singleton, if_neg (by simpa using hne.symm)] at hcount
  refine ⟨fun hmem => ?_, ?_⟩
  · have := List.count_pos_iff.2 hmem
    exact List.count_pos_iff.1 (by omega)
  · rintro rfl
    rw [List.count_singleton_self] at hcount
    exact .inr (List.count_pos_iff.1 (by omega))

/-- The flow that is dropped is the one given up. -/
theorem eq_givenUp (hfull : q.full = true) (h : (q.pushEnter p x).2 = .dropped y) :
    y = givenUp q p x := by
  unfold ThreadSafeQueue.pushEnter at h
  rw [if_neg (by simp [hfull])] at h
  unfold givenUp
  by_cases hblock : q.blocking = true
  · rw [if_neg (by simp [hblock])] at h
    have hx : y = x := by
      cases hw : q.pushWake p x with
      | none => rw [hw] at h; cases h
      | some r =>
        rw [hw] at h
        obtain ⟨-, ⟨hroom, -⟩ | ⟨-, -, hdrop, -⟩⟩ := pushWake_spec hw
        · rw [hfull] at hroom; cases hroom
        · exact Pushed.dropped.inj (h.symm.trans hdrop)
    split
    · rw [if_neg (by simp [hblock])]; exact hx
    · exact hx
  · rw [if_pos (by simpa using hblock), ThreadSafeQueue.emergencyDrop] at h
    have hblock : q.blocking = false := by simpa using hblock
    cases hlast : q.q.getLast? with
    | none => rw [hlast] at h; exact (Pushed.dropped.inj h).symm
    | some lowest =>
      simp only [hlast] at h ⊢
      by_cases hlow : lowest.1 < p
      · rw [if_pos hlow] at h
        rw [if_pos ⟨hblock, hlow⟩]
        exact (Pushed.dropped.inj h).symm
      · rw [if_neg hlow] at h
        rw [if_neg fun h => hlow h.2]
        exact (Pushed.dropped.inj h).symm

theorem pushEnter_keeps (h : Spares e keys q (givenUp q p x)) (hy : OnRecord e keys y) :
    Keeps q x (q.pushEnter p x) y := by
  obtain ⟨-, ⟨-, hr⟩ | ⟨-, -, -, hr⟩ | ⟨hfull, hmode, z, hz, hdrops⟩⟩ := pushEnter_spec q p x
  · rw [hr]; exact keeps_store
  · rw [hr]; exact ⟨id, fun _ => .inl rfl⟩
  · have hgiven : ¬ OnRecord e keys (givenUp q p x) := by
      rcases h with hroom | ⟨hblock, hdone⟩ | h
      · rw [hfull] at hroom; cases hroom
      · simp [hblock, hdone] at hmode
      · exact h
    refine keeps_drops hdrops ?_
    rintro rfl
    exact hgiven (eq_givenUp hfull hz ▸ hy)

theorem pushWake_keeps {r : ThreadSafeQueue FlowPtr × Pushed FlowPtr} (h : Spares e keys q x)
    (hy : OnRecord e keys y) (hr : q.pushWake p x = some r) : Keeps q x r y := by
  obtain ⟨-, ⟨-, rfl⟩ | ⟨hfull, hmode, -, hdrops⟩⟩ := pushWake_spec hr
  · exact keeps_store
  · have hx : ¬ OnRecord e keys x := by
      rcases h with hroom | ⟨hblock, hdone⟩ | h
      · rw [hfull] at hroom; cases hroom
      · simp [hblock, hdone] at hmode
      · exact h
    refine keeps_drops hdrops ?_
    rintro rfl
    exact hx hy

/-! ## Recorded keys -/

/-- A flow that was accepted is queued, or was popped. -/
def Stage.Holds (s : Stage) (x : FlowPtr) : Prop :=
  x ∈ s.accepted ∧ (x ∈ s.queue.items ∨ x ∈ s.delivered)

/-- The twin that a recorded key stands for. -/
def Twin (e : Env) (s : Stage) (k : UInt64) : Prop :=
  ∃ x, dedupKey e x.flow = some k ∧ (s.Holds x ∨ s.waiting = some x)

def Founded (e : Env) (s : Stage) : Prop := ∀ k ∈ s.filter.seenPayloadHashes, Twin e s k

variable {s s' : Stage} {r : ThreadSafeQueue FlowPtr × Pushed FlowPtr}

theorem settle_filter : (s.settle x r).filter = s.filter := by
  unfold Stage.settle
  split <;> rfl

/-- The twins of the recorded keys, the pushed flow among them, stand for their
keys when the push keeps them. -/
theorem founded_settle {s : Stage}
    (hkeep : ∀ y, OnRecord e s.filter.seenPayloadHashes y → Keeps s.queue x r y)
    (hold : ∀ k ∈ s.filter.seenPayloadHashes,
      ∃ y, dedupKey e y.flow = some k ∧ (s.Holds y ∨ y = x)) :
    Founded e (s.settle x r) := by
  intro k hk
  rw [settle_filter] at hk
  obtain ⟨y, hkey, hy⟩ := hold k hk
  have hkeep := hkeep y ⟨k, hk, hkey⟩
  refine ⟨y, hkey, ?_⟩
  unfold Stage.settle
  split
  · rcases hy with ⟨hacc, hqueued | hpopped⟩ | rfl
    · exact .inl ⟨hacc, .inl (hkeep.1 hqueued)⟩
    · exact .inl ⟨hacc, .inr hpopped⟩
    · exact .inr rfl
  · next hwaits =>
    rcases hy with ⟨hacc, hy⟩ | rfl
    · have hacc : y ∈ if x ∈ r.1.items then x :: s.accepted else s.accepted := by
        split
        · exact .tail _ hacc
        · exact hacc
      exact .inl ⟨hacc, hy.imp_left hkeep.1⟩
    · have hqueued : y ∈ r.1.items := (hkeep.2 rfl).resolve_left hwaits
      exact .inl ⟨by rw [if_pos hqueued]; exact .head _, .inl hqueued⟩

theorem founded_round {f : FlowData} (h : Founded e s) (hidle : s.waiting = none)
    (hl : SparesNew e s f (ready s.filter f).seenPayloadHashes (decision e f)) :
    Founded e (s.round e f) := by
  -- no push waits, so the recorded keys are those of accepted flows
  have hold : ∀ k ∈ (ready s.filter f).seenPayloadHashes,
      ∃ x, dedupKey e x.flow = some k ∧ s.Holds x := by
    intro k hk
    obtain ⟨x, hkey, hx | hx⟩ := h k (ready_seen hk)
    · exact ⟨x, hkey, hx⟩
    · cases hidle.symm.trans hx
  have hquiet : ∀ k ∈ (ready s.filter f).seenPayloadHashes, Twin e s k := fun k hk =>
    (hold k hk).imp fun x hx => ⟨hx.1, .inl hx.2⟩
  unfold Stage.round
  rw [handle_eq]
  cases hd : decision e f with
  | drop flow reason => exact hquiet
  | pass flow reason =>
    rw [hd] at hl
    exact founded_settle (fun y hy => pushEnter_keeps hl hy) fun k hk =>
      (hold k hk).imp fun y hy => ⟨hy.1, .inl hy.2⟩
  | once key flow tagged reason =>
    rw [hd] at hl
    rw [show settle (ready s.filter f) (.once key flow tagged reason) =
      (ready s.filter f).passOnce key flow tagged reason from rfl, State.passOnce]
    by_cases hseen : key ∈ (ready s.filter f).seenPayloadHashes
    · rw [if_pos hseen]
      exact hquiet
    · rw [if_neg hseen]
      refine founded_settle (fun y hy => pushEnter_keeps (hl.resolve_left hseen) hy) fun k hk => ?_
      rcases List.mem_cons.1 hk with rfl | hrec
      · exact ⟨_, by rw [dedupKey, hd], .inr rfl⟩
      · exact (hold k hrec).imp fun y hy => ⟨hy.1, .inl hy.2⟩

theorem founded_step {l : Label} (hl : KeysSpared e s l) (h : Founded e s)
    (hst : s.step e l = some s') : Founded e s' := by
  cases l with
  | flow f =>
    obtain ⟨hidle, hst⟩ := Option.ite_none_right_eq_some.1 hst
    cases hst
    exact founded_round h hidle hl
  | wake =>
    obtain ⟨x, hx, hst⟩ := Option.map_eq_some_iff.1 hst
    cases hw : s.queue.pushWake (flowPriority x.tagged) x with
    | none => rw [hw] at hst; cases hst; exact h
    | some r =>
      rw [hw] at hst
      cases hst
      refine founded_settle (fun y hy => pushWake_keeps (hl x hx) hy hw) fun k hk => ?_
      obtain ⟨y, hkey, hy⟩ := h k hk
      exact ⟨y, hkey, hy.imp_right fun hy => Option.some.inj (hy.symm.trans hx)⟩
  | pop =>
    obtain ⟨r, hpop, hst⟩ := Option.map_eq_some_iff.1 hst
    cases hst
    intro k hk
    obtain ⟨y, hkey, hy⟩ := h k hk
    refine ⟨y, hkey, hy.imp_left fun ⟨hacc, hy⟩ => ⟨hacc, ?_⟩⟩
    obtain ⟨x, hx, -, hcount⟩ | ⟨rfl, -, -⟩ := pop_spec hpop
    · rcases hy with hqueued | hpopped
      · have hpos := List.count_pos_iff.2 hqueued
        rw [hcount y] at hpos
        by_cases hyx : y = x
        · exact .inr (by rw [hx, hyx]; exact .head _)
        · rw [List.count_singleton, if_neg (by simpa using Ne.symm hyx)] at hpos
          exact .inl (List.count_pos_iff.1 hpos)
      · exact .inr (List.mem_append_right _ hpopped)
    · exact hy
  | setBlocking enable => cases hst; exact h
  | finish => cases hst; exact h

/-- While no push discards a flow whose key is on record, a flow that is
filtered as a duplicate has an accepted twin that is queued or was popped. -/
theorem dedup_founded {e : Env} {s₀ s : Stage} {ls : List Label} (h₀ : (filtering e).init s₀)
    (hr : (filtering e).Run s₀ ls s) (ha : (filtering e).Along (KeysSpared e) s₀ ls)
    (hidle : s.waiting = none) (f : FlowData) (hdup : (handle e s.filter f).2.reason = .dedup) :
    ∃ x ∈ s.accepted, dedupKey e x.flow ≠ none ∧ dedupKey e x.flow = dedupKey e f ∧
      (x ∈ s.queue.items ∨ x ∈ s.delivered) := by
  have hinv : ((filtering e).guard (KeysSpared e)).Inductive (Founded e) := by
    refine ⟨fun s hs => ?_, fun s l s' h hst => founded_step hst.1 h hst.2⟩
    obtain ⟨queue, rfl⟩ := hs
    exact fun k hk => absurd hk List.not_mem_nil
  have hfounded := hinv.run (LTS.run_guard hr ha) (hinv.init s₀ h₀)
  obtain ⟨k, hkey, hk⟩ := (dedup_iff e s.filter f).1 hdup
  obtain ⟨x, hxk, ⟨hacc, hx⟩ | hx⟩ := hfounded k (ready_seen hk)
  · exact ⟨x, hacc, by rw [hxk]; exact Option.some_ne_none k, hxk.trans hkey.symm, hx⟩
  · cases hidle.symm.trans hx

/-! ## Inputs -/

open Wirewolf.L4.Escalation (plainEnv client)

def quotes : FlowData := { id := client, reassembledPayload := lit "'||'" }

def braces : FlowData := { id := client, reassembledPayload := lit "'\x7b\x7d'" }

/-- The same, marked by the behavioral models, so more urgent. -/
def urgent : FlowData := { braces with behavioralSuspect := true }

/-- Without a payload there is no key. -/
def keyless : FlowPtr := ⟨0, { id := client }, { id := client }⟩

/-- An urgent flow takes the place of a keyless one, and is popped. -/
theorem dedup_founded_keyless : ∃ s : Stage,
    (handle plainEnv s.filter urgent).2.reason = .dedup ∧
      ∃ x ∈ s.accepted, dedupKey plainEnv x.flow ≠ none ∧
        dedupKey plainEnv x.flow = dedupKey plainEnv urgent ∧
        (x ∈ s.queue.items ∨ x ∈ s.delivered) := by
  have hexec : (LTS.exec (Stage.step plainEnv)
      { queue := { maxCapacity := 1, q := [(1, keyless)] } } [.flow urgent, .pop]).any
      (fun s => s.waiting = none ∧ (handle plainEnv s.filter urgent).2.reason = .dedup) = true := by
    decide
  obtain ⟨s, hrun, hs⟩ := LTS.run_of_exec_any (filtering plainEnv).init hexec
  obtain ⟨hidle, hdup⟩ := of_decide_eq_true hs
  have hspared : (filtering plainEnv).Along (KeysSpared plainEnv)
      { queue := { maxCapacity := 1, q := [(1, keyless)] } } [.flow urgent, .pop] :=
    LTS.along_of_checks _ (by decide)
  exact ⟨s, hdup, dedup_founded ⟨_, rfl⟩ hrun hspared hidle urgent hdup⟩

/-- A queue of one: the second flow is discarded, yet its repeat is a
duplicate. And so is the repeat of a flow that an urgent one has evicted. -/
theorem dedup_unfounded :
    (∃ s : Stage, (filtering plainEnv).Run { queue := { maxCapacity := 1 } }
      [.flow quotes, .flow braces, .pop] s ∧
      s.waiting = none ∧ (handle plainEnv s.filter braces).2.reason = .dedup ∧
      ∀ x ∈ s.accepted, dedupKey plainEnv x.flow ≠ dedupKey plainEnv braces) ∧
    ∃ s : Stage, (filtering plainEnv).Run { queue := { maxCapacity := 1 } }
      [.flow quotes, .flow urgent, .pop] s ∧
      s.waiting = none ∧ (handle plainEnv s.filter quotes).2.reason = .dedup ∧
      ∀ x ∈ s.accepted, dedupKey plainEnv x.flow = dedupKey plainEnv quotes →
        x ∉ s.queue.items ∧ x ∉ s.delivered := by
  constructor
  · have hexec : (LTS.exec (Stage.step plainEnv) { queue := { maxCapacity := 1 } }
        [.flow quotes, .flow braces, .pop]).any
        (fun s => s.waiting = none ∧ (handle plainEnv s.filter braces).2.reason = .dedup ∧
          ∀ x ∈ s.accepted, dedupKey plainEnv x.flow ≠ dedupKey plainEnv braces) = true := by
      decide +kernel
    obtain ⟨s, hrun, hs⟩ := LTS.run_of_exec_any (filtering plainEnv).init hexec
    exact ⟨s, hrun, of_decide_eq_true hs⟩
  · have hexec : (LTS.exec (Stage.step plainEnv) { queue := { maxCapacity := 1 } }
        [.flow quotes, .flow urgent, .pop]).any
        (fun s => s.waiting = none ∧ (handle plainEnv s.filter quotes).2.reason = .dedup ∧
          ∀ x ∈ s.accepted, dedupKey plainEnv x.flow = dedupKey plainEnv quotes →
            x ∉ s.queue.items ∧ x ∉ s.delivered) = true := by
      decide +kernel
    obtain ⟨s, hrun, hs⟩ := LTS.run_of_exec_any (filtering plainEnv).init hexec
    exact ⟨s, hrun, of_decide_eq_true hs⟩

end Wirewolf.L5.Dedup
