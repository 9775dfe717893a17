import Wirewolf.L4Filter.Escalation
import Wirewolf.L5Pipeline.Offline

/-!
# Zero loss of the offline pipeline

`Inv` holds in every reachable state: what the threads may do at which point
of the teardown (`Ordered`), and where every flow is (`Counted`). A flow is
lost in one of three ways, `Scar`: dropped from the second queue, or left in
a queue whose worker has exited. No step heals a scar.

* `zero_loss_iff`: a run that reaches `stopped` lost nothing exactly when
  each of its steps was `Lossless`.
* `quiescent_zero_loss`: it is enough that the monitor leaves its loop only
  while both queues are empty and both workers idle.
-/
namespace Wirewolf.L5.ZeroLoss

open Wirewolf.L5.Queue Wirewolf.L5.Offline Wirewolf.L5.Offline.State

variable {α σ : Type} {stage : σ → α → σ × α × Option Nat} {s s' : State α σ}

/-! ## Flows in hand -/

def hand1 : ReassemblerThread α → List α
  | .pushing x => [x]
  | _ => []

def handF : FilterThread α → List α
  | .handling x => [x]
  | .pushing x _ _ => [x]
  | _ => []

/-- The flow that waits at the second queue. -/
def outF : FilterThread α → List α
  | .pushing _ y _ => [y]
  | _ => []

def handL : LlmThread α → List α
  | .handling x => [x]
  | _ => []

/-! ## Property and condition -/

structure AllAnalyzed (s : State α σ) : Prop where
  queue1 : s.q1.q = []
  queue2 : s.q2.q = []
  hands : hand1 s.reassembler = [] ∧ handF s.filter = [] ∧ handL s.llm = []
  lost : s.lost1 = [] ∧ s.lost2 = []
  filtered : s.handledF.Perm s.pushed
  analyzed : s.handledL.Perm s.passed

/-- A push to the second queue finds room, or backpressure to wait under. -/
def Room (s : State α σ) : Prop := s.q2.full = false ∨ s.q2.blocking = true

/-- A worker reads `running = false` only with its queue empty, and a push of
the filter finds room or waits. -/
def Lossless (stage : σ → α → σ × α × Option Nat) (s : State α σ) : Label α → Prop
  | .fTest => s.filterRunning = false → s.q1.q = []
  | .lTest => s.llmRunning = false → s.q2.q = []
  | .fHandle => ∀ x p, s.filter = .handling x → (stage s.filterState x).2.2 = some p → Room s
  | .fWake => Room s
  | _ => True

def Scar (s : State α σ) : Prop :=
  s.lost2 ≠ [] ∨ (s.filter = .exited ∧ s.q1.q ≠ []) ∨ (s.llm = .exited ∧ s.q2.q ≠ [])

/-! ## The invariant -/

/-- The order of the teardown. -/
structure Ordered (s : State α σ) : Prop where
  captured : s.captureFinished = true → s.reassembler = .exited
  left : 1 ≤ s.monitor.rank → s.reassembler = .exited
  blocking1 : s.monitor.rank ≤ 2 → s.q1.blocking = true
  blocking2 : s.monitor.rank ≤ 3 → s.q2.blocking = true
  done1 : s.monitor.rank ≤ 5 → s.q1.done = false
  runningF : s.monitor.rank ≤ 6 → s.filterRunning = true
  exitedF : s.filter = .exited → s.filterRunning = false
  joinedF : 8 ≤ s.monitor.rank → s.filter = .exited
  done2 : s.monitor.rank ≤ 8 → s.q2.done = false
  runningL : s.monitor.rank ≤ 9 → s.llmRunning = true
  exitedL : s.llm = .exited → s.llmRunning = false
  joinedL : 11 ≤ s.monitor.rank → s.llm = .exited

/-- Every flow is handled, in hand, queued or lost. -/
structure Counted [DecidableEq α] (s : State α σ) : Prop where
  lost1 : s.lost1 = []
  pushed : ∀ z, s.pushed.count z = s.handledF.count z + (handF s.filter).count z +
    s.q1.items.count z + (hand1 s.reassembler).count z
  passed : ∀ z, s.passed.count z = s.handledL.count z + (handL s.llm).count z +
    s.q2.items.count z + (outF s.filter).count z + s.lost2.count z

namespace Ordered

/-- While the reassembler runs, its queue blocks. -/
theorem open1 (h : Ordered s) (hr : s.reassembler ≠ .exited) :
    s.q1.blocking = true ∧ s.q1.done = false := by
  have hrank : ¬ 1 ≤ s.monitor.rank := fun hm => hr (h.left hm)
  exact ⟨h.blocking1 (by omega), h.done1 (by omega)⟩

theorem rank_of_exitedF (h : Ordered s) (hf : s.filter = .exited) : 7 ≤ s.monitor.rank := by
  have hr := h.exitedF hf
  have hrank : ¬ s.monitor.rank ≤ 6 := fun hm => by rw [h.runningF hm] at hr; cases hr
  omega

theorem exited_of_exitedF (h : Ordered s) (hf : s.filter = .exited) : s.reassembler = .exited :=
  h.left (by have := h.rank_of_exitedF hf; omega)

theorem rank_of_exitedL (h : Ordered s) (hl : s.llm = .exited) : 10 ≤ s.monitor.rank := by
  have hr := h.exitedL hl
  have hrank : ¬ s.monitor.rank ≤ 9 := fun hm => by rw [h.runningL hm] at hr; cases hr
  omega

theorem exitedF_of_exitedL (h : Ordered s) (hl : s.llm = .exited) : s.filter = .exited :=
  h.joinedF (by have := h.rank_of_exitedL hl; omega)

/-- While the filter runs, the second queue is not finished. -/
theorem open2 (h : Ordered s) (hf : s.filter ≠ .exited) : s.q2.done = false := by
  have hrank : ¬ 8 ≤ s.monitor.rank := fun hm => hf (h.joinedF hm)
  exact h.done2 (by omega)

end Ordered

/-! ## What a step does -/

section Steps

theorem rReturn_cases (hs : s.rReturn = some s') :
    s.reassembler = .running ∧ s' = { s with reassembler := .returned } := by
  unfold rReturn at hs
  split at hs
  · next hr => cases hs; exact ⟨hr, rfl⟩
  · cases hs

theorem rFlag_cases (hs : s.rFlag = some s') :
    s.reassembler = .returned ∧
      s' = { s with reassembler := .exited, captureFinished := true } := by
  unfold rFlag at hs
  split at hs
  · next hr => cases hs; exact ⟨hr, rfl⟩
  · cases hs

theorem fTest_cases (hs : s.fTest = some s') :
    s.filter = .top ∧ s' = { s with filter := if s.filterRunning then .popping else .exited } := by
  unfold fTest at hs
  split at hs
  · next hf => cases hs; exact ⟨hf, rfl⟩
  · cases hs

theorem lTest_cases (hs : s.lTest = some s') :
    s.llm = .top ∧ s' = { s with llm := if s.llmRunning then .popping else .exited } := by
  unfold lTest at hs
  split at hs
  · next hl => cases hs; exact ⟨hl, rfl⟩
  · cases hs

theorem lDone_cases (hs : s.lDone = some s') :
    ∃ x, s.llm = .handling x ∧ s' = { s with llm := .top, handledL := x :: s.handledL } := by
  unfold lDone at hs
  split at hs
  · next x hl => cases hs; exact ⟨x, hl, rfl⟩
  · cases hs

variable [DecidableEq α]

theorem rPush_cases {x : α} (ho : Ordered s) (hs : s.rPush x = some s') :
    s.reassembler = .running ∧
      (s' = { s with q1 := s.q1.store 0 x, pushed := x :: s.pushed } ∨
        s' = { s with pushed := x :: s.pushed, reassembler := .pushing x }) := by
  unfold rPush at hs
  split at hs
  · next hr =>
    obtain ⟨hb, hd⟩ := ho.open1 (by rw [hr]; intro h; cases h)
    refine ⟨hr, ?_⟩
    obtain ⟨-, ⟨-, he⟩ | ⟨-, -, -, he⟩ | ⟨-, hno, -⟩⟩ := pushEnter_spec s.q1 0 x
    · simp only [he, Option.some.injEq] at hs; exact .inl hs.symm
    · simp only [he, Option.some.injEq] at hs; exact .inr hs.symm
    · rw [hb, hd] at hno; simp at hno
  · cases hs

theorem rWake_cases (ho : Ordered s) (hs : s.rWake = some s') :
    ∃ x, s.reassembler = .pushing x ∧
      s' = { s with q1 := s.q1.store 0 x, reassembler := .running } := by
  unfold rWake at hs
  split at hs
  · next x hr =>
    obtain ⟨hb, hd⟩ := ho.open1 (by rw [hr]; intro h; cases h)
    obtain ⟨r, hw, rfl⟩ := Option.map_eq_some_iff.1 hs
    refine ⟨x, hr, ?_⟩
    obtain ⟨-, ⟨-, rfl⟩ | ⟨-, hno, -⟩⟩ := pushWake_spec hw
    · rfl
    · rw [hb, hd] at hno; simp at hno
  · cases hs

theorem fPop_cases (hs : s.fPop = some s') :
    s.filter = .popping ∧ ∃ t, s.q1.SameMode t ∧
      ((∃ x, s' = { s with q1 := t, filter := .handling x } ∧
          ∀ z, s.q1.items.count z = t.items.count z + [x].count z) ∨
        (t = s.q1 ∧ s' = { s with filter := .top })) := by
  unfold fPop at hs
  split at hs
  · next hf =>
    obtain ⟨r, hp, rfl⟩ := Option.map_eq_some_iff.1 hs
    refine ⟨hf, ?_⟩
    obtain ⟨x, hx, hm, hc⟩ | ⟨rfl, -, -⟩ := pop_spec hp
    · exact ⟨r.2, hm, .inl ⟨x, by rw [hx], hc⟩⟩
    · exact ⟨s.q1, ⟨rfl, rfl, rfl⟩, .inr ⟨rfl, rfl⟩⟩
  · cases hs

theorem lPop_cases (hs : s.lPop = some s') :
    s.llm = .popping ∧ ∃ t, s.q2.SameMode t ∧
      ((∃ x, s' = { s with q2 := t, llm := .handling x } ∧
          ∀ z, s.q2.items.count z = t.items.count z + [x].count z) ∨
        (t = s.q2 ∧ s' = { s with llm := .top })) := by
  unfold lPop at hs
  split at hs
  · next hl =>
    obtain ⟨r, hp, rfl⟩ := Option.map_eq_some_iff.1 hs
    refine ⟨hl, ?_⟩
    obtain ⟨x, hx, hm, hc⟩ | ⟨rfl, -, -⟩ := pop_spec hp
    · exact ⟨r.2, hm, .inl ⟨x, by rw [hx], hc⟩⟩
    · exact ⟨s.q2, ⟨rfl, rfl, rfl⟩, .inr ⟨rfl, rfl⟩⟩
  · cases hs

/-- How a push of the filter to the second queue ends: the flow `y` that it
passes for `x` is stored, waits, or a flow is dropped. -/
inductive Push2 (s : State α σ) (x y : α) (p : Nat) : State α σ → Prop
  | stored (hf : s.q2.full = false) : Push2 s x y p
      { s with q2 := s.q2.store p y, filter := .top, handledF := x :: s.handledF }
  | waits (hf : s.q2.full = true) (hb : s.q2.blocking = true) : Push2 s x y p
      { s with filter := .pushing x y p }
  | dropped (t : ThreadSafeQueue α) (z : α) (hf : s.q2.full = true) (hb : s.q2.blocking = false)
      (hm : s.q2.SameMode t) (hd : Drops s.q2 t y z) : Push2 s x y p
      { s with q2 := t, filter := .top, handledF := x :: s.handledF, lost2 := z :: s.lost2 }

/-- The filter drops its flow, or passes one on. -/
theorem fHandle_cases (ho : Ordered s) (hs : s.fHandle stage = some s') :
    ∃ x, s.filter = .handling x ∧
      (((stage s.filterState x).2.2 = none ∧ s' = { s with
          filterState := (stage s.filterState x).1, filter := .top, handledF := x :: s.handledF }) ∨
        ∃ p, (stage s.filterState x).2.2 = some p ∧
          Push2 { s with filterState := (stage s.filterState x).1
                         passed := (stage s.filterState x).2.1 :: s.passed }
            x (stage s.filterState x).2.1 p s') := by
  unfold fHandle at hs
  split at hs
  · next x hf =>
    have hdone := ho.open2 (by rw [hf]; intro h; cases h)
    refine ⟨x, hf, ?_⟩
    cases hp : (stage s.filterState x).2.2 with
    | none =>
      simp only [hp, Option.some.injEq] at hs
      exact .inl ⟨rfl, hs.symm⟩
    | some p =>
      refine .inr ⟨p, rfl, ?_⟩
      simp only [hp] at hs
      obtain ⟨hm, ⟨hfull, he⟩ | ⟨hfull, -, hb, he⟩ | ⟨hfull, hb, z, hz, hd⟩⟩ :=
        pushEnter_spec s.q2 p (stage s.filterState x).2.1
      · simp only [he, Option.some.injEq] at hs; subst hs; exact .stored hfull
      · simp only [he, Option.some.injEq] at hs; subst hs; exact .waits hfull hb
      · simp only [hz, Option.some.injEq] at hs; subst hs
        exact .dropped _ z hfull (hb.resolve_left (by rw [hdone]; exact Bool.false_ne_true)) hm hd
  · cases hs

/-- A push that waited stores its flow, or drops it. -/
theorem fWake_cases (ho : Ordered s) (hs : s.fWake = some s') :
    ∃ x y p, s.filter = .pushing x y p ∧ Push2 s x y p s' := by
  unfold fWake at hs
  split at hs
  · next x y p hf =>
    have hdone := ho.open2 (by rw [hf]; intro h; cases h)
    obtain ⟨r, hw, rfl⟩ := Option.map_eq_some_iff.1 hs
    refine ⟨x, y, p, hf, ?_⟩
    obtain ⟨hm, ⟨hfull, rfl⟩ | ⟨hfull, hb, hz, hd⟩⟩ := pushWake_spec hw
    · exact .stored hfull
    · simp only [hz]
      exact .dropped r.1 y hfull (hb.resolve_left (by rw [hdone]; exact Bool.false_ne_true)) hm hd
  · cases hs

end Steps

/-! ## The order of the teardown -/

/-- A step of a worker that exits nothing keeps the order. -/
theorem Ordered.of_same (h : Ordered s) (hm : s'.monitor = s.monitor)
    (hc : s'.captureFinished = s.captureFinished)
    (hr : s'.reassembler = .exited ↔ s.reassembler = .exited)
    (h₁ : s.q1.SameMode s'.q1) (h₂ : s.q2.SameMode s'.q2)
    (hfr : s'.filterRunning = s.filterRunning) (hf : s'.filter = .exited ↔ s.filter = .exited)
    (hlr : s'.llmRunning = s.llmRunning) (hl : s'.llm = .exited ↔ s.llm = .exited) :
    Ordered s' where
  captured hcap := hr.2 (h.captured (hc ▸ hcap))
  left hrank := hr.2 (h.left (hm ▸ hrank))
  blocking1 hrank := h₁.blocking.trans (h.blocking1 (hm ▸ hrank))
  blocking2 hrank := h₂.blocking.trans (h.blocking2 (hm ▸ hrank))
  done1 hrank := h₁.done.trans (h.done1 (hm ▸ hrank))
  runningF hrank := hfr.trans (h.runningF (hm ▸ hrank))
  exitedF hex := hfr.trans (h.exitedF (hf.1 hex))
  joinedF hrank := hf.2 (h.joinedF (hm ▸ hrank))
  done2 hrank := h₂.done.trans (h.done2 (hm ▸ hrank))
  runningL hrank := hlr.trans (h.runningL (hm ▸ hrank))
  exitedL hex := hlr.trans (h.exitedL (hl.1 hex))
  joinedL hrank := hl.2 (h.joinedL (hm ▸ hrank))

/-- The monitor is about to leave its loop. -/
def leaves (s : State α σ) : Bool :=
  match s.monitor with
  | .sampledBoth d₁ d₂ => s.autoStop d₁ d₂
  | _ => false

theorem captured_of_leaves (h : leaves s = true) : s.captureFinished = true := by
  unfold leaves at h
  split at h
  · simp only [autoStop, Bool.and_eq_true] at h; exact h.1.1
  · cases h

/-- What a section of the monitor leaves as it is, and when it may pass the
points that the order depends on. -/
structure MonitorMoves (s s' : State α σ) : Prop where
  queue1 : s'.q1.q = s.q1.q
  queue2 : s'.q2.q = s.q2.q
  threads : s'.reassembler = s.reassembler ∧ s'.filter = s.filter ∧ s'.llm = s.llm
  captured : s'.captureFinished = s.captureFinished
  pushed : s'.pushed = s.pushed ∧ s'.handledF = s.handledF ∧ s'.lost1 = s.lost1
  passed : s'.passed = s.passed ∧ s'.handledL = s.handledL ∧ s'.lost2 = s.lost2
  left : 1 ≤ s'.monitor.rank → 1 ≤ s.monitor.rank ∨ leaves s = true
  rank_le : s.monitor.rank ≤ s'.monitor.rank
  blocking1 : s'.monitor.rank ≤ 2 → s'.q1.blocking = s.q1.blocking
  blocking2 : s'.monitor.rank ≤ 3 → s'.q2.blocking = s.q2.blocking
  done1 : s'.monitor.rank ≤ 5 → s'.q1.done = s.q1.done
  runningF : s'.filterRunning = s.filterRunning ∨ (6 < s'.monitor.rank ∧ s'.filterRunning = false)
  joinedF : 8 ≤ s'.monitor.rank → 8 ≤ s.monitor.rank ∨ s.filter = .exited
  done2 : s'.monitor.rank ≤ 8 → s'.q2.done = s.q2.done
  runningL : s'.llmRunning = s.llmRunning ∨ (9 < s'.monitor.rank ∧ s'.llmRunning = false)
  joinedL : 11 ≤ s'.monitor.rank → 11 ≤ s.monitor.rank ∨ s.llm = .exited

theorem monitorStep_moves (hs : s.monitorStep = some s') : MonitorMoves s s' := by
  unfold State.monitorStep at hs
  cases hm : s.monitor with
  | sampledBoth d₁ d₂ =>
    simp only [hm, Option.some.injEq] at hs
    subst hs
    cases ha : s.autoStop d₁ d₂ <;> constructor <;> simp [hm, ha, leaves, Monitor.rank]
  | joiningCapture | joiningFilter | joiningLlm =>
    simp only [hm] at hs
    split at hs
    · next he => cases hs; constructor <;> simp [hm, he, Monitor.rank]
    · cases hs
  | stopped => simp [hm] at hs
  | _ =>
    simp only [hm, Option.some.injEq] at hs
    subst hs
    constructor <;> simp [hm, Monitor.rank, ThreadSafeQueue.setBlocking, ThreadSafeQueue.finish]

theorem Ordered.monitorStep (h : Ordered s) (hm : MonitorMoves s s') : Ordered s' where
  captured hc := hm.threads.1.trans (h.captured (hm.captured ▸ hc))
  left hr := by
    rw [hm.threads.1]
    cases hm.left hr with
    | inl hl => exact h.left hl
    | inr hl => exact h.captured (captured_of_leaves hl)
  blocking1 hr := (hm.blocking1 hr).trans (h.blocking1 (Nat.le_trans hm.rank_le hr))
  blocking2 hr := (hm.blocking2 hr).trans (h.blocking2 (Nat.le_trans hm.rank_le hr))
  done1 hr := (hm.done1 hr).trans (h.done1 (Nat.le_trans hm.rank_le hr))
  runningF hr := by
    obtain he | ⟨hlt, -⟩ := hm.runningF
    · exact he.trans (h.runningF (Nat.le_trans hm.rank_le hr))
    · omega
  exitedF he := by
    have hf := h.exitedF (hm.threads.2.1 ▸ he)
    obtain he | ⟨-, hno⟩ := hm.runningF
    · rw [he, hf]
    · exact hno
  joinedF hr := hm.threads.2.1.trans ((hm.joinedF hr).elim h.joinedF id)
  done2 hr := (hm.done2 hr).trans (h.done2 (Nat.le_trans hm.rank_le hr))
  runningL hr := by
    obtain he | ⟨hlt, -⟩ := hm.runningL
    · exact he.trans (h.runningL (Nat.le_trans hm.rank_le hr))
    · omega
  exitedL he := by
    have hl := h.exitedL (hm.threads.2.2 ▸ he)
    obtain he | ⟨-, hno⟩ := hm.runningL
    · rw [he, hl]
    · exact hno
  joinedL hr := hm.threads.2.2.trans ((hm.joinedL hr).elim h.joinedL id)

section Invariant

variable [DecidableEq α]

theorem Push2.ordered {x y : α} {p : Nat} (hp : Push2 s x y p s') (h : Ordered s)
    (hf : s.filter ≠ .exited) : Ordered s' := by
  cases hp with
  | stored =>
    exact h.of_same rfl rfl Iff.rfl ⟨rfl, rfl, rfl⟩ ⟨rfl, rfl, rfl⟩ rfl (by simp [hf]) rfl Iff.rfl
  | waits =>
    exact h.of_same rfl rfl Iff.rfl ⟨rfl, rfl, rfl⟩ ⟨rfl, rfl, rfl⟩ rfl (by simp [hf]) rfl Iff.rfl
  | dropped t z _ _ hm =>
    exact h.of_same rfl rfl Iff.rfl ⟨rfl, rfl, rfl⟩ hm rfl (by simp [hf]) rfl Iff.rfl

theorem ordered_step {l : Label α} (h : Ordered s) (hs : State.step stage s l = some s') :
    Ordered s' := by
  have hmode : ∀ q : ThreadSafeQueue α, q.SameMode q := fun _ => ⟨rfl, rfl, rfl⟩
  cases l with
  | rPush x =>
    obtain ⟨hr, rfl | rfl⟩ := rPush_cases h hs
    · exact h.of_same rfl rfl Iff.rfl ⟨rfl, rfl, rfl⟩ (hmode _) rfl Iff.rfl rfl Iff.rfl
    · exact h.of_same rfl rfl (by simp [hr]) (hmode _) (hmode _) rfl Iff.rfl rfl Iff.rfl
  | rWake =>
    obtain ⟨x, hr, rfl⟩ := rWake_cases h hs
    exact h.of_same rfl rfl (by simp [hr]) ⟨rfl, rfl, rfl⟩ (hmode _) rfl Iff.rfl rfl Iff.rfl
  | rReturn =>
    obtain ⟨hr, rfl⟩ := rReturn_cases hs
    exact h.of_same rfl rfl (by simp [hr]) (hmode _) (hmode _) rfl Iff.rfl rfl Iff.rfl
  | rFlag =>
    obtain ⟨-, rfl⟩ := rFlag_cases hs
    exact { h with captured := fun _ => rfl, left := fun _ => rfl }
  | fTest =>
    obtain ⟨hf, rfl⟩ := fTest_cases hs
    refine { h with exitedF := fun he => ?_, joinedF := fun hr => ?_ }
    · by_cases hrun : s.filterRunning = true
      · simp [hrun] at he
      · simpa using hrun
    · rw [h.joinedF hr] at hf; cases hf
  | fPop =>
    obtain ⟨hf, t, hm, ⟨x, rfl, -⟩ | ⟨rfl, rfl⟩⟩ := fPop_cases hs
    · exact h.of_same rfl rfl Iff.rfl hm (hmode _) rfl (by simp [hf]) rfl Iff.rfl
    · exact h.of_same rfl rfl Iff.rfl hm (hmode _) rfl (by simp [hf]) rfl Iff.rfl
  | fHandle =>
    obtain ⟨x, hf, ⟨-, rfl⟩ | ⟨p, -, hp⟩⟩ := fHandle_cases h hs
    · exact h.of_same rfl rfl Iff.rfl (hmode _) (hmode _) rfl (by simp [hf]) rfl Iff.rfl
    · exact hp.ordered { h with } (by simp [hf])
  | fWake =>
    obtain ⟨x, y, p, hf, hp⟩ := fWake_cases h hs
    exact hp.ordered h (by simp [hf])
  | lTest =>
    obtain ⟨hl, rfl⟩ := lTest_cases hs
    refine { h with exitedL := fun he => ?_, joinedL := fun hr => ?_ }
    · by_cases hrun : s.llmRunning = true
      · simp [hrun] at he
      · simpa using hrun
    · rw [h.joinedL hr] at hl; cases hl
  | lPop =>
    obtain ⟨hl, t, hm, ⟨x, rfl, -⟩ | ⟨rfl, rfl⟩⟩ := lPop_cases hs
    · exact h.of_same rfl rfl Iff.rfl (hmode _) hm rfl Iff.rfl rfl (by simp [hl])
    · exact h.of_same rfl rfl Iff.rfl (hmode _) hm rfl Iff.rfl rfl (by simp [hl])
  | lDone =>
    obtain ⟨x, hl, rfl⟩ := lDone_cases hs
    exact h.of_same rfl rfl Iff.rfl (hmode _) (hmode _) rfl Iff.rfl rfl (by simp [hl])
  | monitor => exact h.monitorStep (monitorStep_moves hs)

/-! ## Where the flows are -/

theorem Push2.counted {x y : α} {p : Nat} (hp : Push2 s x y p s') (h₁ : s.lost1 = [])
    (hpu : ∀ z, s.pushed.count z = s.handledF.count z + [x].count z + s.q1.items.count z +
      (hand1 s.reassembler).count z)
    (hpa : ∀ z, s.passed.count z = s.handledL.count z + (handL s.llm).count z +
      s.q2.items.count z + [y].count z + s.lost2.count z) : Counted s' := by
  cases hp with
  | stored =>
    refine ⟨h₁, fun z => ?_, fun z => ?_⟩
    · rw [hpu z]; simp only [handF, List.count_cons, List.count_nil]; omega
    · rw [hpa z]; simp only [outF, count_store, List.count_nil]; omega
  | waits => exact ⟨h₁, hpu, hpa⟩
  | dropped t w _ _ _ hd =>
    refine ⟨h₁, fun z => ?_, fun z => ?_⟩
    · rw [hpu z]; simp only [handF, List.count_cons, List.count_nil]; omega
    · have hz := hd z
      rw [hpa z]; simp only [outF, List.count_cons, List.count_nil] at hz ⊢; omega

theorem counted_step {l : Label α} (ho : Ordered s) (h : Counted s)
    (hs : State.step stage s l = some s') : Counted s' := by
  obtain ⟨h₁, hpu, hpa⟩ := h
  cases l with
  | rPush x =>
    obtain ⟨hr, rfl | rfl⟩ := rPush_cases ho hs
    · refine ⟨h₁, fun z => ?_, hpa⟩
      have hz := hpu z
      simp only [hr, hand1, count_store, List.count_cons, List.count_nil] at hz ⊢; omega
    · refine ⟨h₁, fun z => ?_, hpa⟩
      have hz := hpu z
      simp only [hr, hand1, List.count_cons, List.count_nil] at hz ⊢; omega
  | rWake =>
    obtain ⟨x, hr, rfl⟩ := rWake_cases ho hs
    refine ⟨h₁, fun z => ?_, hpa⟩
    have hz := hpu z
    simp only [hr, hand1, count_store, List.count_nil] at hz ⊢; omega
  | rReturn =>
    obtain ⟨hr, rfl⟩ := rReturn_cases hs
    rw [hr] at hpu
    exact ⟨h₁, hpu, hpa⟩
  | rFlag =>
    obtain ⟨hr, rfl⟩ := rFlag_cases hs
    rw [hr] at hpu
    exact ⟨h₁, hpu, hpa⟩
  | fTest =>
    obtain ⟨hf, rfl⟩ := fTest_cases hs
    rw [hf] at hpu hpa
    cases hrun : s.filterRunning <;> exact ⟨h₁, hpu, hpa⟩
  | fPop =>
    obtain ⟨hf, t, -, ⟨x, rfl, hc⟩ | ⟨rfl, rfl⟩⟩ := fPop_cases hs
    · rw [hf] at hpu hpa
      refine ⟨h₁, fun z => ?_, hpa⟩
      have hz := hpu z
      rw [hc z] at hz
      simp only [handF, List.count_nil] at hz ⊢; omega
    · rw [hf] at hpu hpa
      exact ⟨h₁, hpu, hpa⟩
  | fHandle =>
    obtain ⟨x, hf, ⟨-, rfl⟩ | ⟨p, -, hp⟩⟩ := fHandle_cases ho hs
    · rw [hf] at hpu hpa
      refine ⟨h₁, fun z => ?_, hpa⟩
      have hz := hpu z
      simp only [handF, List.count_cons, List.count_nil] at hz ⊢; omega
    · rw [hf] at hpu hpa
      refine hp.counted h₁ hpu fun z => ?_
      have hz := hpa z
      simp only [outF, List.count_cons, List.count_nil] at hz ⊢; omega
  | fWake =>
    obtain ⟨x, y, p, hf, hp⟩ := fWake_cases ho hs
    rw [hf] at hpu hpa
    exact hp.counted h₁ hpu hpa
  | lTest =>
    obtain ⟨hl, rfl⟩ := lTest_cases hs
    rw [hl] at hpa
    cases hrun : s.llmRunning <;> exact ⟨h₁, hpu, hpa⟩
  | lPop =>
    obtain ⟨hl, t, -, ⟨x, rfl, hc⟩ | ⟨rfl, rfl⟩⟩ := lPop_cases hs
    · rw [hl] at hpa
      refine ⟨h₁, hpu, fun z => ?_⟩
      have hz := hpa z
      rw [hc z] at hz
      simp only [handL, List.count_nil] at hz ⊢; omega
    · rw [hl] at hpa
      exact ⟨h₁, hpu, hpa⟩
  | lDone =>
    obtain ⟨x, hl, rfl⟩ := lDone_cases hs
    rw [hl] at hpa
    refine ⟨h₁, hpu, fun z => ?_⟩
    have hz := hpa z
    simp only [handL, List.count_cons, List.count_nil] at hz ⊢; omega
  | monitor =>
    have hm := monitorStep_moves hs
    obtain ⟨hr, hf, hl⟩ := hm.threads
    obtain ⟨hp, hh, hlost⟩ := hm.pushed
    obtain ⟨hq, hh', hlost'⟩ := hm.passed
    refine ⟨hlost.trans h₁, fun z => ?_, fun z => ?_⟩
    · rw [hp, hh, hr, hf, ThreadSafeQueue.items, hm.queue1]; exact hpu z
    · rw [hq, hh', hf, hl, hlost', ThreadSafeQueue.items, hm.queue2]; exact hpa z

/-! ## Scars -/

omit [DecidableEq α] in
theorem scar_congr (hl : s'.lost2 = s.lost2)
    (h₁ : s'.filter = .exited ∧ s'.q1.q ≠ [] ↔ s.filter = .exited ∧ s.q1.q ≠ [])
    (h₂ : s'.llm = .exited ∧ s'.q2.q ≠ [] ↔ s.llm = .exited ∧ s.q2.q ≠ []) :
    Scar s' ↔ Scar s ∨ ¬ True := by
  unfold Scar
  rw [hl, h₁, h₂, not_true, or_false]

/-- A push of the filter makes a scar exactly when it drops a flow. -/
theorem Push2.scar {x y : α} {p : Nat} (hp : Push2 s x y p s') (hf : s.filter ≠ .exited)
    (hl : s.llm ≠ .exited) :
    Scar s' ↔ Scar s ∨ ¬ Room s := by
  cases hp with
  | stored hfull => simp [Scar, Room, hf, hl, hfull]
  | waits hfull hb => simp [Scar, Room, hf, hl, hb]
  | dropped t z hfull hb => simp [Scar, Room, hfull, hb]

/-- No step heals a scar, and the steps that make one are those that are not lossless. -/
theorem scar_step {l : Label α} (ho : Ordered s) (hs : State.step stage s l = some s') :
    Scar s' ↔ Scar s ∨ ¬ Lossless stage s l := by
  have early : s.reassembler ≠ .exited → s.filter ≠ .exited ∧ s.llm ≠ .exited := fun hr =>
    ⟨fun hf => hr (ho.exited_of_exitedF hf),
      fun hl => hr (ho.exited_of_exitedF (ho.exitedF_of_exitedL hl))⟩
  have late : s.filter ≠ .exited → s.llm ≠ .exited := fun hf hl => hf (ho.exitedF_of_exitedL hl)
  cases l with
  | rPush x =>
    obtain ⟨hr, rfl | rfl⟩ := rPush_cases ho hs
    · exact scar_congr rfl (by simp [(early (by simp [hr])).1]) Iff.rfl
    · exact scar_congr rfl Iff.rfl Iff.rfl
  | rWake =>
    obtain ⟨x, hr, rfl⟩ := rWake_cases ho hs
    exact scar_congr rfl (by simp [(early (by simp [hr])).1]) Iff.rfl
  | rReturn =>
    obtain ⟨-, rfl⟩ := rReturn_cases hs
    exact scar_congr rfl Iff.rfl Iff.rfl
  | rFlag =>
    obtain ⟨-, rfl⟩ := rFlag_cases hs
    exact scar_congr rfl Iff.rfl Iff.rfl
  | fTest =>
    obtain ⟨hf, rfl⟩ := fTest_cases hs
    cases hrun : s.filterRunning
    · simp only [Scar, Lossless, hf, hrun, Bool.false_eq_true, if_false]
      simp [or_comm, or_left_comm]
    · simp [Scar, Lossless, hf, hrun]
  | fPop =>
    obtain ⟨hf, t, -, ⟨x, rfl, -⟩ | ⟨rfl, rfl⟩⟩ := fPop_cases hs
    · exact scar_congr rfl (by simp [hf]) Iff.rfl
    · exact scar_congr rfl (by simp [hf]) Iff.rfl
  | fHandle =>
    obtain ⟨x, hf, ⟨hnone, rfl⟩ | ⟨p, hp, hpush⟩⟩ := fHandle_cases ho hs
    · have hless : Lossless stage s .fHandle := by
        intro x' p' hf' hp'
        cases hf.symm.trans hf'
        cases hnone.symm.trans hp'
      simp [Scar, hf, hless]
    · have hne : s.filter ≠ .exited := by simp [hf]
      have hless : Lossless stage s .fHandle ↔ Room s :=
        ⟨fun h => h x p hf hp, fun h _ _ _ _ => h⟩
      rw [hless]
      exact hpush.scar hne (late hne)
  | fWake =>
    obtain ⟨x, y, p, hf, hpush⟩ := fWake_cases ho hs
    have hne : s.filter ≠ .exited := by simp [hf]
    exact hpush.scar hne (late hne)
  | lTest =>
    obtain ⟨hl, rfl⟩ := lTest_cases hs
    cases hrun : s.llmRunning
    · simp [Scar, Lossless, hl, hrun, or_assoc]
    · simp [Scar, Lossless, hl, hrun]
  | lPop =>
    obtain ⟨hl, t, -, ⟨x, rfl, -⟩ | ⟨rfl, rfl⟩⟩ := lPop_cases hs
    · exact scar_congr rfl Iff.rfl (by simp [hl])
    · exact scar_congr rfl Iff.rfl (by simp [hl])
  | lDone =>
    obtain ⟨x, hl, rfl⟩ := lDone_cases hs
    exact scar_congr rfl Iff.rfl (by simp [hl])
  | monitor =>
    have hm := monitorStep_moves hs
    refine scar_congr hm.passed.2.2 ?_ ?_
    · rw [hm.threads.2.1, hm.queue1]
    · rw [hm.threads.2.2, hm.queue2]

/-! ## Runs -/

def Inv (s : State α σ) : Prop := Ordered s ∧ Counted s

theorem start_inv (capacity : Nat) (w : σ) : Inv (start capacity w : State α σ) := by
  refine ⟨?_, ?_⟩
  · constructor <;> simp [start, Monitor.rank]
  · constructor <;> simp [start, handF, hand1, handL, outF, ThreadSafeQueue.items]

theorem inv_step {l : Label α} (h : Inv s) (hs : State.step stage s l = some s') : Inv s' :=
  ⟨ordered_step h.1 hs, counted_step h.1 h.2 hs⟩

theorem inv_inductive : (offline stage).Inductive (Inv : State α σ → Prop) where
  init := by
    intro s hs
    obtain ⟨capacity, w, rfl⟩ := hs
    exact start_inv capacity w
  step := fun _ _ _ h hs => inv_step h hs

/-- When the pipeline has stopped, all threads have left, and a state without
scars has lost nothing. -/
theorem zeroLoss_iff_scar (h : Inv s) (hstop : s.monitor = .stopped) :
    AllAnalyzed s ↔ ¬ Scar s := by
  obtain ⟨ho, hc⟩ := h
  have hr : s.reassembler = .exited := ho.left (by rw [hstop]; decide)
  have hf : s.filter = .exited := ho.joinedF (by rw [hstop]; decide)
  have hl : s.llm = .exited := ho.joinedL (by rw [hstop]; decide)
  constructor
  · intro hz hscar
    obtain h | h | h := hscar
    · exact h hz.lost.2
    · exact h.2 hz.queue1
    · exact h.2 hz.queue2
  · intro hno
    simp only [Scar, hf, hl, true_and, not_or, ne_eq, Classical.not_not] at hno
    obtain ⟨hlost, hq₁, hq₂⟩ := hno
    refine ⟨hq₁, hq₂, ?_, ⟨hc.lost1, hlost⟩, ?_, ?_⟩
    · rw [hr, hf, hl]; exact ⟨rfl, rfl, rfl⟩
    · refine List.perm_iff_count.2 fun z => ?_
      have hz := hc.pushed z
      simp only [hr, hf, hq₁, ThreadSafeQueue.items, handF, hand1, List.map_nil,
        List.count_nil] at hz
      omega
    · refine List.perm_iff_count.2 fun z => ?_
      have hz := hc.passed z
      simp only [hl, hf, hq₂, hlost, ThreadSafeQueue.items, handL, outF, List.map_nil,
        List.count_nil] at hz
      omega

/-- A run to the end loses nothing exactly when each of its steps is lossless. -/
theorem zero_loss_iff (stage : σ → α → σ × α × Option Nat) {s₀ s : State α σ} {ls : List (Label α)}
    (h₀ : (offline stage).init s₀) (hr : (offline stage).Run s₀ ls s)
    (hstop : s.monitor = .stopped) :
    (offline stage).Along (Lossless stage) s₀ ls ↔ AllAnalyzed s := by
  have hinv₀ := inv_inductive.init s₀ h₀
  rw [zeroLoss_iff_scar (inv_inductive.run hr hinv₀) hstop]
  refine LTS.along_iff_not (State.step stage) _ (fun _ _ _ h hs => inv_step h hs)
    (fun _ _ _ h hs => scar_step h.1 hs) hinv₀ ?_ hr
  obtain ⟨capacity, w, rfl⟩ := h₀
  simp [Scar, start]

/-! ## A condition on the monitor -/

/-- The monitor leaves its loop only while nothing is on its way. -/
def Quiescent (s : State α σ) : Label α → Prop
  | .monitor => leaves s = true →
      s.q1.q = [] ∧ s.q2.q = [] ∧ handF s.filter = [] ∧ handL s.llm = []
  | _ => True

/-- What such a monitor finds behind it. -/
def Quiet (s : State α σ) : Prop :=
  s.lost2 = [] ∧ (1 ≤ s.monitor.rank →
    s.q1.q = [] ∧ s.q2.q = [] ∧ handF s.filter = [] ∧ handL s.llm = [])

theorem Push2.quiet {x y : α} {p : Nat} (hp : Push2 s x y p s') (hrank : ¬ 1 ≤ s.monitor.rank)
    (hb : s.q2.blocking = true) (hlost : s.lost2 = []) : Quiet s' := by
  cases hp with
  | stored => exact ⟨hlost, fun hm => absurd hm hrank⟩
  | waits => exact ⟨hlost, fun hm => absurd hm hrank⟩
  | dropped _ _ _ hno => exact absurd (hno.symm.trans hb) Bool.false_ne_true

theorem quiet_step {l : Label α} (ho : Ordered s) (h : Quiet s) (hq : Quiescent s l)
    (hs : State.step stage s l = some s') : Quiet s' := by
  obtain ⟨hlost, hrest⟩ := h
  have early : s.reassembler ≠ .exited → ¬ 1 ≤ s.monitor.rank := fun hr hm => hr (ho.left hm)
  have busy : handF s.filter ≠ [] → ¬ 1 ≤ s.monitor.rank := fun hf hm => hf (hrest hm).2.2.1
  have none_left : ∀ {t q : ThreadSafeQueue α} {x : α}, q.q = [] →
      ¬ ∀ z, q.items.count z = t.items.count z + [x].count z := fun {t q x} hnil hc => by
    have hx := hc x
    simp [ThreadSafeQueue.items, hnil] at hx
  cases l with
  | rPush x =>
    obtain ⟨hr, rfl | rfl⟩ := rPush_cases ho hs
    · exact ⟨hlost, fun hm => absurd hm (early (by simp [hr]))⟩
    · exact ⟨hlost, fun hm => absurd hm (early (by simp [hr]))⟩
  | rWake =>
    obtain ⟨x, hr, rfl⟩ := rWake_cases ho hs
    exact ⟨hlost, fun hm => absurd hm (early (by simp [hr]))⟩
  | rReturn =>
    obtain ⟨-, rfl⟩ := rReturn_cases hs
    exact ⟨hlost, hrest⟩
  | rFlag =>
    obtain ⟨-, rfl⟩ := rFlag_cases hs
    exact ⟨hlost, hrest⟩
  | fTest =>
    obtain ⟨-, rfl⟩ := fTest_cases hs
    refine ⟨hlost, fun hm => ?_⟩
    obtain ⟨hq₁, hq₂, -, hl⟩ := hrest hm
    refine ⟨hq₁, hq₂, ?_, hl⟩
    cases s.filterRunning <;> rfl
  | fPop =>
    obtain ⟨-, t, -, ⟨x, rfl, hc⟩ | ⟨rfl, rfl⟩⟩ := fPop_cases hs
    · exact ⟨hlost, fun hm => absurd hc (none_left (hrest hm).1)⟩
    · exact ⟨hlost, fun hm => ⟨(hrest hm).1, (hrest hm).2.1, rfl, (hrest hm).2.2.2⟩⟩
  | fHandle =>
    obtain ⟨x, hf, ⟨-, rfl⟩ | ⟨p, -, hp⟩⟩ := fHandle_cases ho hs
    · exact ⟨hlost, fun hm => absurd hm (busy (by simp [hf, handF]))⟩
    · have hrank := busy (by simp [hf, handF])
      exact hp.quiet hrank (ho.blocking2 (by omega)) hlost
  | fWake =>
    obtain ⟨x, y, p, hf, hp⟩ := fWake_cases ho hs
    have hrank := busy (by simp [hf, handF])
    exact hp.quiet hrank (ho.blocking2 (by omega)) hlost
  | lTest =>
    obtain ⟨-, rfl⟩ := lTest_cases hs
    refine ⟨hlost, fun hm => ?_⟩
    obtain ⟨hq₁, hq₂, hf, -⟩ := hrest hm
    refine ⟨hq₁, hq₂, hf, ?_⟩
    cases s.llmRunning <;> rfl
  | lPop =>
    obtain ⟨-, t, -, ⟨x, rfl, hc⟩ | ⟨rfl, rfl⟩⟩ := lPop_cases hs
    · exact ⟨hlost, fun hm => absurd hc (none_left (hrest hm).2.1)⟩
    · exact ⟨hlost, fun hm => ⟨(hrest hm).1, (hrest hm).2.1, (hrest hm).2.2.1, rfl⟩⟩
  | lDone =>
    obtain ⟨x, -, rfl⟩ := lDone_cases hs
    exact ⟨hlost, fun hm => ⟨(hrest hm).1, (hrest hm).2.1, (hrest hm).2.2.1, rfl⟩⟩
  | monitor =>
    have hm := monitorStep_moves hs
    refine ⟨hm.passed.2.2.trans hlost, fun hrank => ?_⟩
    rw [hm.queue1, hm.queue2, hm.threads.2.1, hm.threads.2.2]
    exact (hm.left hrank).elim hrest hq

/-- Had the monitor looked at the workers too, and at all of it at once,
nothing would be lost. -/
theorem quiescent_zero_loss (stage : σ → α → σ × α × Option Nat) {s₀ s : State α σ}
    {ls : List (Label α)} (h₀ : (offline stage).init s₀) (hr : (offline stage).Run s₀ ls s)
    (hstop : s.monitor = .stopped) (hq : (offline stage).Along Quiescent s₀ ls) :
      AllAnalyzed s := by
  have hind : ((offline stage).guard Quiescent).Inductive fun s : State α σ => Inv s ∧ Quiet s :=
    { init := by
        intro t ht
        obtain ⟨capacity, w, rfl⟩ := ht
        exact ⟨start_inv capacity w, rfl, fun hm => absurd hm (by simp [start, Monitor.rank])⟩
      step := fun _ _ _ h hs => ⟨inv_step h.1 hs.2, quiet_step h.1.1 h.2 hs.1 hs.2⟩ }
  obtain ⟨hinv, hlost, hrest⟩ := hind.run (LTS.run_guard hr hq) (hind.init s₀ h₀)
  obtain ⟨hq₁, hq₂, -, -⟩ := hrest (by rw [hstop]; decide)
  rw [zeroLoss_iff_scar hinv hstop]
  simp [Scar, hlost, hq₁, hq₂]

end Invariant

/-! ## Two schedules that lose a flow, and one that does not -/

/-- The monitor samples two empty queues, the reassembler then pushes two
flows and ends the capture, and the filter leaves with the second one queued. -/
def staleSamples (x y : α) : List (Label α) :=
  [.fTest, .lTest, .monitor, .monitor, .rPush x, .rPush y, .rReturn, .rFlag, .monitor, .fPop,
    .monitor, .monitor, .monitor, .monitor, .monitor, .monitor, .fHandle, .fTest,
    .monitor, .monitor,
    .monitor, .lPop, .lDone, .lTest, .monitor]

/-- Both queues are empty when they are sampled, with one flow in the hand of
each worker; the filter's flow is left to an LLM stage that no longer runs. -/
def flowsInHand (x y : α) : List (Label α) :=
  [.fTest, .lTest, .rPush x, .rPush y, .rReturn, .rFlag, .fPop, .fHandle, .lPop, .fTest, .fPop,
    .monitor, .monitor, .monitor, .monitor, .monitor, .monitor, .monitor, .monitor, .monitor,
    .fHandle, .fTest, .monitor, .monitor, .monitor, .lDone, .lTest, .monitor]

/-- Both flows are through before the monitor samples. -/
def drained (x y : α) : List (Label α) :=
  [.fTest, .lTest, .rPush x, .rPush y, .rReturn, .rFlag, .fPop, .fHandle, .lPop, .fTest, .fPop,
    .fHandle, .lDone, .lTest, .lPop, .lDone, .lTest, .fTest,
    .monitor, .monitor, .monitor, .monitor, .monitor, .monitor, .monitor, .monitor, .monitor,
    .fPop, .fTest, .monitor, .monitor, .monitor, .lPop, .lTest, .monitor]

/-- Two flows that the filter passes. -/
def quoted (payload : String) : L1.IpPacket.FlowData :=
  { id := L4.Escalation.client, reassembledPayload := lit payload }

/-- The schedule ends in `stopped` with a flow left behind. -/
def Loses (ls : List (Label L1.IpPacket.FlowData)) : Prop :=
  ∃ s, (offline (npuFilter L4.Escalation.plainEnv)).Run (start 4 {}) ls s ∧
    s.monitor = .stopped ∧ ¬ AllAnalyzed s

theorem flows_left : Loses (staleSamples (quoted "'\x7b\x7d'") (quoted "'||'")) ∧
    Loses (flowsInHand (quoted "'\x7b\x7d'") (quoted "'||'")) := by
  have hrun : ∀ ls ∈ [staleSamples (quoted "'\x7b\x7d'") (quoted "'||'"),
        flowsInHand (quoted "'\x7b\x7d'") (quoted "'||'")],
      (LTS.exec (State.step (npuFilter L4.Escalation.plainEnv)) (start 4 {}) ls).any
        (fun s => s.monitor = .stopped && (s.q1.q ≠ [] || s.q2.q ≠ [])) = true := by
    decide +kernel
  have hloses : ∀ ls ∈ [staleSamples (quoted "'\x7b\x7d'") (quoted "'||'"),
      flowsInHand (quoted "'\x7b\x7d'") (quoted "'||'")], Loses ls := by
    intro ls hls
    obtain ⟨s, hs, htest⟩ := LTS.run_of_exec_any _ (hrun ls hls)
    simp only [Bool.and_eq_true, Bool.or_eq_true, decide_eq_true_eq] at htest
    refine ⟨s, hs, htest.1, fun hz => ?_⟩
    cases htest.2 with
    | inl h => exact h hz.queue1
    | inr h => exact h hz.queue2
  exact ⟨hloses _ (by simp), hloses _ (by simp)⟩

theorem drained_lossless :
    (offline (npuFilter L4.Escalation.plainEnv)).Along (Lossless (npuFilter L4.Escalation.plainEnv))
      (start 4 {}) (drained (quoted "'\x7b\x7d'") (quoted "'||'")) := by
  have hrun : (LTS.exec (State.step (npuFilter L4.Escalation.plainEnv)) (start 4 {})
      (drained (quoted "'\x7b\x7d'") (quoted "'||'"))).any (fun s => s.monitor = .stopped ∧
        s.q1.q = [] ∧ s.q2.q = [] ∧ (hand1 s.reassembler = [] ∧ handF s.filter = [] ∧
          handL s.llm = []) ∧ (s.lost1 = [] ∧ s.lost2 = []) ∧ s.handledF.Perm s.pushed ∧
        s.handledL.Perm s.passed) = true := by decide +kernel
  obtain ⟨s, hs, htest⟩ := LTS.run_of_exec_any _ hrun
  obtain ⟨hstop, h₁, h₂, h₃, h₄, h₅, h₆⟩ := of_decide_eq_true htest
  exact (zero_loss_iff (npuFilter L4.Escalation.plainEnv) ⟨4, {}, rfl⟩ hs hstop).2
    ⟨h₁, h₂, h₃, h₄, h₅, h₆⟩

end Wirewolf.L5.ZeroLoss
