import Wirewolf.L4Llm.NamedAlert
import Wirewolf.L5Pipeline.ZeroLoss

/-!
# What the schedule of the offline pipeline decides

Four threads and two queues, but only the LLM stage sees an order that
depends on the schedule. The reassembler pushes with one priority, so the
filter takes the flows in the order of their pushes (`InOrder`) and decides
what a single thread would (`sequential`), whatever the capacity and the
interleaving.

* `filter_sequential`: in every reachable state.
* `alerts_agree`: the alerts of two analyses of one capture are the same up
  to their order.
* `can_finish`: from every reachable state some schedule stops the pipeline,
  within `rank` steps.
-/
namespace Wirewolf.L5.Scheduling

open Wirewolf.L1.IpPacket
open Wirewolf.L4.Escalation (plainEnv)
open Wirewolf.L5.Queue Wirewolf.L5.Offline Wirewolf.L5.Offline.State Wirewolf.L5.ZeroLoss

variable {α σ : Type} {stage : σ → α → σ × α × Option Nat} {w : σ} {s s' : State α σ}

/-! ## One thread -/

/-- The flows through the filter, one after the other: its last state and the
flows that it passes. -/
def sequential (stage : σ → α → σ × α × Option Nat) : σ → List α → σ × List α
  | w, [] => (w, [])
  | w, x :: xs =>
    let o := stage w x
    let r := sequential stage o.1 xs
    (r.1, if o.2.2.isSome then o.2.1 :: r.2 else r.2)

theorem sequential_concat (w : σ) (xs : List α) (x : α) :
    sequential stage w (xs ++ [x]) =
      let r := sequential stage w xs
      let o := stage r.1 x
      (o.1, if o.2.2.isSome then r.2 ++ [o.2.1] else r.2) := by
  induction xs generalizing w with
  | nil => rfl
  | cons y ys ih =>
    rw [List.cons_append, sequential, ih]
    simp only [sequential]
    split <;> split <;> rfl

/-- A part of the flows that the stage leaves in this part. -/
theorem sequential_filter_nil {part : α → Bool} (hpart : ∀ w x, part (stage w x).2.1 = part x)
    {xs : List α} (h : xs.filter part = []) (w : σ) :
    (sequential stage w xs).2.filter part = [] := by
  induction xs generalizing w with
  | nil => rfl
  | cons y ys ih =>
    have hy : part y = false := by simpa using List.filter_eq_nil_iff.1 h y (by simp)
    rw [List.filter_cons_of_neg (by rw [hy]; nofun)] at h
    simp only [sequential]
    split
    · rw [List.filter_cons_of_neg (by rw [hpart, hy]; nofun), ih h]
    · exact ih h _

/-- The only flow of a part passes as it does in some state of the stage. -/
theorem sequential_filter {part : α → Bool} (hpart : ∀ w x, part (stage w x).2.1 = part x)
    {xs : List α} {x : α} (h : xs.filter part = [x]) (w : σ) :
    ∃ w', (sequential stage w xs).2.filter part =
      if (stage w' x).2.2.isSome then [(stage w' x).2.1] else [] := by
  induction xs generalizing w with
  | nil => cases h
  | cons y ys ih =>
    simp only [sequential]
    cases hy : part y with
    | true =>
      rw [List.filter_cons_of_pos hy, List.cons.injEq] at h
      obtain ⟨rfl, hrest⟩ := h
      refine ⟨w, ?_⟩
      split
      · rw [List.filter_cons_of_pos (by rw [hpart, hy]), sequential_filter_nil hpart hrest]
      · exact sequential_filter_nil hpart hrest _
    | false =>
      rw [List.filter_cons_of_neg (by rw [hy]; nofun)] at h
      obtain ⟨w', hw'⟩ := ih h (stage w y).1
      refine ⟨w', ?_⟩
      split
      · rw [List.filter_cons_of_neg (by rw [hpart, hy]; nofun), hw']
      · exact hw'

/-- Every flow that passes is one of the flows, as the stage leaves it in some
state. -/
theorem mem_sequential {xs : List α} {y : α} {w : σ} (h : y ∈ (sequential stage w xs).2) :
    ∃ w', ∃ x ∈ xs, (stage w' x).2.2.isSome = true ∧ y = (stage w' x).2.1 := by
  induction xs generalizing w with
  | nil => cases h
  | cons x xs ih =>
    have hrest : y ∈ (sequential stage (stage w x).1 xs).2 → ∃ w', ∃ x' ∈ x :: xs,
        (stage w' x').2.2.isSome = true ∧ y = (stage w' x').2.1 := fun h => by
      obtain ⟨w', x', hx', hpass⟩ := ih h
      exact ⟨w', x', List.mem_cons_of_mem _ hx', hpass⟩
    simp only [sequential] at h
    split at h
    · next hpass =>
      rcases List.mem_cons.1 h with rfl | h
      · exact ⟨w, x, List.mem_cons_self, hpass, rfl⟩
      · exact hrest h
    · exact hrest h

/-- What the stage leaves of a flow, for those that pass. -/
theorem sequential_sublist {β : Type} {view : α → β} (hview : ∀ w x, view (stage w x).2.1 = view x)
    (w : σ) (xs : List α) : ((sequential stage w xs).2.map view).Sublist (xs.map view) := by
  induction xs generalizing w with
  | nil => exact .slnil
  | cons x xs ih =>
    simp only [sequential]
    split
    · rw [List.map_cons, hview]
      exact (ih _).cons_cons _
    · exact (ih _).cons _

/-! ## The first queue -/

/-- The flow that the filter holds and has not looked at. -/
def taken : FilterThread α → List α
  | .handling x => [x]
  | _ => []

/-- The flow that the filter has decided on and still has to push. -/
def deciding : FilterThread α → List α
  | .pushing x _ _ => [x]
  | _ => []

/-- The flows that the filter has decided on, in the order it took them. -/
def decided (s : State α σ) : List α := s.handledF.reverse ++ deciding s.filter

/-- The first queue keeps the order of the pushes, and the filter decides
like a single thread. -/
structure InOrder (stage : σ → α → σ × α × Option Nat) (w : σ) (s : State α σ) : Prop where
  level : ∀ e ∈ s.q1.q, e.1 = 0
  order : s.pushed.reverse =
    decided s ++ (taken s.filter ++ (s.q1.items ++ hand1 s.reassembler))
  decisions : sequential stage w (decided s) = (s.filterState, s.passed.reverse)

/-- A priority that no item is below goes to the end. -/
theorem emplace_last {p : Int} {x : α} {q : List (Int × α)} (h : ∀ e ∈ q, p ≤ e.1) :
    emplace p x q = q ++ [(p, x)] := by
  induction q with
  | nil => rfl
  | cons e q ih =>
    rw [emplace, if_pos (h e (List.mem_cons_self ..)),
      ih fun e' he' => h e' (List.mem_cons_of_mem _ he')]
    rfl

theorem store_level {q : ThreadSafeQueue α} (h : ∀ e ∈ q.q, e.1 = 0) (x : α) :
    (∀ e ∈ (q.store 0 x).q, e.1 = 0) ∧ (q.store 0 x).items = q.items ++ [x] := by
  have hq : (q.store 0 x).q = q.q ++ [(0, x)] := emplace_last fun e he => Int.le_of_eq (h e he).symm
  rw [ThreadSafeQueue.items, hq, List.map_append]
  refine ⟨fun e he => ?_, rfl⟩
  rcases List.mem_append.1 he with he | he
  · exact h e he
  · cases List.mem_singleton.1 he
    rfl

/-- The filter takes the head of the queue, or finds it finished. -/
theorem fPop_head (hs : s.fPop = some s') :
    s.filter = .popping ∧
      ((∃ e rest, s.q1.q = e :: rest ∧
          s' = { s with q1 := { s.q1 with q := rest }, filter := .handling e.2 }) ∨
        (s.q1.q = [] ∧ s.q1.done = true ∧ s' = { s with filter := .top })) := by
  unfold fPop at hs
  split at hs
  · next hf =>
    refine ⟨hf, ?_⟩
    unfold ThreadSafeQueue.pop at hs
    split at hs
    · next e rest hq => cases hs; exact .inl ⟨e, rest, hq, rfl⟩
    · next hq =>
      split at hs
      · next hd => cases hs; exact .inr ⟨hq, hd, rfl⟩
      · cases hs
  · cases hs

theorem monitorStep_filterState (hs : s.monitorStep = some s') :
    s'.filterState = s.filterState := by
  unfold State.monitorStep at hs
  split at hs
  case h_7 | h_10 | h_13 =>
    split at hs
    · cases hs; rfl
    · cases hs
  case h_14 => cases hs
  all_goals cases hs; rfl

namespace InOrder

theorem start (stage : σ → α → σ × α × Option Nat) (capacity : Nat) (w : σ) :
    InOrder stage w (Offline.start capacity w : State α σ) where
  level := by intro e he; cases he
  order := rfl
  decisions := rfl

/-- A step that changes none of these keeps the order. -/
theorem of_same (h : InOrder stage w s) (hq : s'.q1.q = s.q1.q) (hp : s'.pushed = s.pushed)
    (hh : s'.handledF = s.handledF) (hd : deciding s'.filter = deciding s.filter)
    (ht : taken s'.filter = taken s.filter) (hr : hand1 s'.reassembler = hand1 s.reassembler)
    (hw : s'.filterState = s.filterState) (hpa : s'.passed = s.passed) : InOrder stage w s' where
  level e he := h.level e (hq ▸ he)
  order := by
    rw [decided, ThreadSafeQueue.items, hp, hh, hd, ht, hq, hr]
    exact h.order
  decisions := by
    rw [decided, hh, hd, hw, hpa]
    exact h.decisions

/-- The decision on the flow `x` that the filter has taken. -/
theorem decides (h : InOrder stage w s) {x : α} (hf : s.filter = .handling x) (handled : List α)
    (f : FilterThread α) (hd : handled.reverse ++ deciding f = s.handledF.reverse ++ [x])
    (ht : taken f = []) {passed : List α}
    (hpa : passed.reverse = if (stage s.filterState x).2.2.isSome then
      s.passed.reverse ++ [(stage s.filterState x).2.1] else s.passed.reverse)
    (hq : s'.q1 = s.q1) (hr : s'.reassembler = s.reassembler) (hp : s'.pushed = s.pushed)
    (hh : s'.handledF = handled) (hf' : s'.filter = f) (hpa' : s'.passed = passed)
    (hw : s'.filterState = (stage s.filterState x).1) : InOrder stage w s' := by
  have hbefore : decided s = s.handledF.reverse := by
    rw [decided, hf]
    exact List.append_nil _
  have hafter : decided s' = s.handledF.reverse ++ [x] := by rw [decided, hh, hf', hd]
  refine ⟨fun e he => h.level e (hq ▸ he), ?_, ?_⟩
  · rw [hafter, hf', ht, hq, hr, hp, h.order, hbefore, hf]
    simp [taken]
  · have hseq := h.decisions
    rw [hbefore] at hseq
    rw [hafter, sequential_concat, hseq, hw, hpa', hpa]

variable [DecidableEq α]

theorem step (ho : Ordered s) (h : InOrder stage w s) {l : Label α}
    (hs : State.step stage s l = some s') : InOrder stage w s' := by
  cases l with
  | rPush x =>
    obtain ⟨hr, rfl | rfl⟩ := rPush_cases ho hs
    · obtain ⟨hlevel, hitems⟩ := store_level h.level x
      refine ⟨hlevel, ?_, h.decisions⟩
      have horder := h.order
      rw [hr] at horder
      show (x :: s.pushed).reverse = decided s ++ (taken s.filter ++ ((s.q1.store 0 x).items ++ _))
      rw [List.reverse_cons, horder, hitems, hr]
      simp [hand1]
    · refine ⟨h.level, ?_, h.decisions⟩
      have horder := h.order
      rw [hr] at horder
      show (x :: s.pushed).reverse = decided s ++ (taken s.filter ++ (s.q1.items ++ [x]))
      rw [List.reverse_cons, horder]
      simp [hand1]
  | rWake =>
    obtain ⟨x, hr, rfl⟩ := rWake_cases ho hs
    obtain ⟨hlevel, hitems⟩ := store_level h.level x
    refine ⟨hlevel, ?_, h.decisions⟩
    have horder := h.order
    rw [hr] at horder
    show s.pushed.reverse = decided s ++ (taken s.filter ++ ((s.q1.store 0 x).items ++ []))
    rw [horder, hitems]
    simp [hand1]
  | rReturn =>
    obtain ⟨hr, rfl⟩ := rReturn_cases hs
    exact h.of_same rfl rfl rfl rfl rfl (by rw [hr]; rfl) rfl rfl
  | rFlag =>
    obtain ⟨hr, rfl⟩ := rFlag_cases hs
    exact h.of_same rfl rfl rfl rfl rfl (by rw [hr]; rfl) rfl rfl
  | fTest =>
    obtain ⟨hf, rfl⟩ := fTest_cases hs
    refine h.of_same rfl rfl rfl ?_ ?_ rfl rfl rfl
    · rw [hf]; dsimp only; split <;> rfl
    · rw [hf]; dsimp only; split <;> rfl
  | fPop =>
    obtain ⟨hf, ⟨e, rest, hq, rfl⟩ | ⟨-, -, rfl⟩⟩ := fPop_head hs
    · have hdec : decided { s with q1 := { s.q1 with q := rest }, filter := .handling e.2 } =
          decided s := by
        rw [decided, decided, hf]; rfl
      refine ⟨fun e' he' => h.level e' (by rw [hq]; exact List.mem_cons_of_mem _ he'), ?_, ?_⟩
      · have horder := h.order
        rw [hdec, horder, hf, ThreadSafeQueue.items, hq]
        rfl
      · rw [hdec]; exact h.decisions
    · exact h.of_same rfl rfl rfl (by rw [hf]; rfl) (by rw [hf]; rfl) rfl rfl rfl
  | fHandle =>
    obtain ⟨x, hf, ⟨hnone, rfl⟩ | ⟨p, hp, hpush⟩⟩ := fHandle_cases ho hs
    · exact h.decides hf (x :: s.handledF) .top (by simp [deciding]) rfl
        (by rw [hnone]; rfl) rfl rfl rfl rfl rfl rfl rfl
    · have hpa : ((stage s.filterState x).2.1 :: s.passed).reverse =
          if (stage s.filterState x).2.2.isSome then
            s.passed.reverse ++ [(stage s.filterState x).2.1] else s.passed.reverse := by
        rw [hp, Option.isSome_some, if_pos rfl, List.reverse_cons]
      cases hpush with
      | stored =>
        exact h.decides hf (x :: s.handledF) .top (by simp [deciding]) rfl hpa
          rfl rfl rfl rfl rfl rfl rfl
      | waits =>
        exact h.decides hf s.handledF
          (.pushing x (stage s.filterState x).2.1 p) rfl rfl hpa rfl rfl rfl rfl rfl rfl rfl
      | dropped =>
        exact h.decides hf (x :: s.handledF) .top (by simp [deciding]) rfl hpa
          rfl rfl rfl rfl rfl rfl rfl
  | fWake =>
    obtain ⟨x, y, p, hf, hpush⟩ := fWake_cases ho hs
    -- the decision was made when the push began
    have hdone : ∀ t : State α σ, t.q1 = s.q1 → t.pushed = s.pushed →
        t.reassembler = s.reassembler → t.handledF = x :: s.handledF → t.filter = .top →
        t.filterState = s.filterState → t.passed = s.passed → InOrder stage w t := by
      intro t hq hp hr hh hf' hw hpa
      have hdec : decided t = decided s := by
        rw [decided, decided, hh, hf', hf, List.reverse_cons]
        simp [deciding]
      refine ⟨fun e he => h.level e (hq ▸ he), ?_, ?_⟩
      · rw [hdec, hp, h.order, hf', hf, hq, hr]; rfl
      · rw [hdec, hw, hpa]; exact h.decisions
    cases hpush with
    | stored => exact hdone _ rfl rfl rfl rfl rfl rfl rfl
    | waits => exact h.of_same rfl rfl rfl (by rw [hf]) (by rw [hf]) rfl rfl rfl
    | dropped => exact hdone _ rfl rfl rfl rfl rfl rfl rfl
  | lTest =>
    obtain ⟨-, rfl⟩ := lTest_cases hs
    exact h.of_same rfl rfl rfl rfl rfl rfl rfl rfl
  | lPop =>
    obtain ⟨-, t, -, ⟨x, rfl, -⟩ | ⟨-, rfl⟩⟩ := lPop_cases hs
    · exact h.of_same rfl rfl rfl rfl rfl rfl rfl rfl
    · exact h.of_same rfl rfl rfl rfl rfl rfl rfl rfl
  | lDone =>
    obtain ⟨x, -, rfl⟩ := lDone_cases hs
    exact h.of_same rfl rfl rfl rfl rfl rfl rfl rfl
  | monitor =>
    have hm := monitorStep_moves hs
    exact h.of_same hm.queue1 hm.pushed.1 hm.pushed.2.1 (by rw [hm.threads.2.1])
      (by rw [hm.threads.2.1]) (by rw [hm.threads.1]) (monitorStep_filterState hs) hm.passed.1

end InOrder

/-! ## The filter's decisions -/

section Runs

variable [DecidableEq α] {ls : List (Label α)} {capacity : Nat}

/-- The flows that the reassembler pushes. -/
def pushes (ls : List (Label α)) : List α :=
  ls.filterMap fun
    | .rPush x => some x
    | _ => none

theorem pushed_step (ho : Ordered s) {l : Label α} (hs : State.step stage s l = some s') :
    s'.pushed.reverse = s.pushed.reverse ++ pushes [l] := by
  have hsame : s'.pushed = s.pushed → s'.pushed.reverse = s.pushed.reverse ++ [] :=
    fun h => by rw [h, List.append_nil]
  cases l with
  | rPush x =>
    obtain ⟨-, rfl | rfl⟩ := rPush_cases ho hs <;> exact List.reverse_cons
  | rWake =>
    obtain ⟨x, -, rfl⟩ := rWake_cases ho hs
    exact hsame rfl
  | rReturn =>
    obtain ⟨-, rfl⟩ := rReturn_cases hs
    exact hsame rfl
  | rFlag =>
    obtain ⟨-, rfl⟩ := rFlag_cases hs
    exact hsame rfl
  | fTest =>
    obtain ⟨-, rfl⟩ := fTest_cases hs
    exact hsame rfl
  | fPop =>
    obtain ⟨-, ⟨_, _, _, rfl⟩ | ⟨-, -, rfl⟩⟩ := fPop_head hs <;> exact hsame rfl
  | fHandle =>
    obtain ⟨x, -, ⟨-, rfl⟩ | ⟨p, -, hpush⟩⟩ := fHandle_cases ho hs
    · exact hsame rfl
    · cases hpush <;> exact hsame rfl
  | fWake =>
    obtain ⟨x, y, p, -, hpush⟩ := fWake_cases ho hs
    cases hpush <;> exact hsame rfl
  | lTest =>
    obtain ⟨-, rfl⟩ := lTest_cases hs
    exact hsame rfl
  | lPop =>
    obtain ⟨-, t, -, ⟨x, rfl, -⟩ | ⟨-, rfl⟩⟩ := lPop_cases hs <;> exact hsame rfl
  | lDone =>
    obtain ⟨x, -, rfl⟩ := lDone_cases hs
    exact hsame rfl
  | monitor => exact hsame (monitorStep_moves hs).pushed.1

/-- What holds after every run from a start. -/
theorem run_spec (hr : (offline stage).Run (start capacity w) ls s) :
    Inv s ∧ InOrder stage w s ∧ s.pushed.reverse = pushes ls := by
  have hstep : ∀ (pre : List (Label α)) (s : State α σ) (l : Label α) (s' : State α σ),
      Inv s ∧ InOrder stage w s ∧ s.pushed.reverse = pushes pre → (offline stage).step s l s' →
      Inv s' ∧ InOrder stage w s' ∧ s'.pushed.reverse = pushes (pre ++ [l]) := by
    intro pre s l s' ⟨hinv, horder, hpushed⟩ hst
    refine ⟨inv_step hinv hst, horder.step hinv.1 hst, ?_⟩
    rw [pushed_step hinv.1 hst, hpushed, pushes, pushes, pushes, List.filterMap_append]
  exact hr.history hstep ⟨start_inv capacity w, .start stage capacity w, rfl⟩

/-- Whatever the schedule and the capacity, the filter has decided on a
prefix of the pushed flows, in the order of the pushes, and has decided what
a single thread would. -/
theorem filter_sequential (stage : σ → α → σ × α × Option Nat) (capacity : Nat) (w : σ)
    (ls : List (Label α)) (s : State α σ) (hr : (offline stage).Run (start capacity w) ls s) :
    ∃ rest, pushes ls = decided s ++ rest ∧
      sequential stage w (decided s) = (s.filterState, s.passed.reverse) := by
  obtain ⟨-, horder, hpushed⟩ := run_spec hr
  exact ⟨_, hpushed ▸ horder.order, horder.decisions⟩

/-- The second flow is left behind, but it was decided on in its turn. -/
theorem filter_sequential_stale :
    ∃ s, (offline (npuFilter plainEnv)).Run (start 4 {})
        (staleSamples (quoted "'\x7b\x7d'") (quoted "'||'")) s ∧ s.monitor = .stopped ∧
      ∃ rest, pushes (staleSamples (quoted "'\x7b\x7d'") (quoted "'||'")) = decided s ++ rest ∧
        sequential (npuFilter plainEnv) {} (decided s) = (s.filterState, s.passed.reverse) := by
  have hexec : (LTS.exec (State.step (npuFilter plainEnv)) (start 4 {})
      (staleSamples (quoted "'\x7b\x7d'") (quoted "'||'"))).any
      (fun s => decide (s.monitor = .stopped)) = true := by decide +kernel
  obtain ⟨s, hr, hstop⟩ := LTS.run_of_exec_any _ hexec
  exact ⟨s, hr, of_decide_eq_true hstop, filter_sequential (npuFilter plainEnv) 4 {} _ s hr⟩

/-- A run is lossless as long as it has no scar. -/
theorem lossless_iff (hr : (offline stage).Run (start capacity w) ls s) :
    (offline stage).Along (Lossless stage) (start capacity w) ls ↔ ¬ Scar s :=
  LTS.along_iff_not (State.step stage) _ (fun _ _ _ h hs => inv_step h hs)
    (fun _ _ _ h hs => scar_step h.1 hs) (start_inv capacity w) (by simp [Scar, start]) hr

/-- A lossless run that has stopped has left nothing behind. -/
theorem zeroLoss_of_lossless (hr : (offline stage).Run (start capacity w) ls s)
    (hstop : s.monitor = .stopped)
    (hless : (offline stage).Along (Lossless stage) (start capacity w) ls) : AllAnalyzed s :=
  (zeroLoss_iff_scar (run_spec hr).1 hstop).2 ((lossless_iff hr).1 hless)

/-- An analysis that loses nothing shows the LLM stage what a single thread
would pass, in some order. -/
theorem analyzed_sequential (hr : (offline stage).Run (start capacity w) ls s)
    (hz : AllAnalyzed s) : s.handledL.Perm (sequential stage w (pushes ls)).2 := by
  obtain ⟨-, horder, hpushed⟩ := run_spec hr
  have hempty : deciding s.filter = [] ∧ taken s.filter = [] := by
    have hf := hz.hands.2.1
    cases hfilter : s.filter with
    | handling x => rw [hfilter] at hf; cases hf
    | pushing x y p => rw [hfilter] at hf; cases hf
    | _ => exact ⟨rfl, rfl⟩
  have hall : pushes ls = decided s := by
    rw [← hpushed, horder.order, hempty.2, ThreadSafeQueue.items, hz.queue1, hz.hands.1]
    simp
  rw [hall, horder.decisions]
  exact hz.analyzed.trans (List.reverse_perm _).symm

end Runs

/-! ## The alerts -/

section Alerts

open Wirewolf.L4.NamedAlert Wirewolf.L4.LlmWorker

/-- Without a limit the outcome of a flow does not depend on the flows before
it. -/
theorem handle_unlimited {e : Env} (h : e.maxLlmFlows = 0) (n m : Nat) (flow : FlowData) :
    (handle e n flow).2 = (handle e m flow).2 := by
  unfold handle
  split
  · rfl
  · split
    · rfl
    · split
      · rfl
      · simp [h]

theorem worker_unlimited {e : Env} (h : e.maxLlmFlows = 0) (flows : List FlowData) :
    (worker e flows).calls = flows.flatMap fun flow => callsOf flow (handle e 0 flow).2 := by
  induction flows using List.reverseRecOn with
  | nil => rfl
  | append_singleton flows flow ih =>
    rw [worker_concat, List.flatMap_append, ← ih]
    show (worker e flows).calls ++ callsOf flow (handle e _ flow).2 = _
    rw [handle_unlimited h _ 0, List.flatMap_singleton]

/-- Two analyses of one capture that lose nothing, under any schedules and
capacities: the LLM worker raises the same alerts for named flows, and
without a limit on the flows it is shown, the same alerts. -/
theorem alerts_agree (f : L4.Worker.Env) (e : Env) (w : L4.Worker.State) (n n' : Nat)
    (ls ls' : List (Label FlowData)) (s s' : State FlowData L4.Worker.State)
    (hr : (offline (npuFilter f)).Run (start n w) ls s)
    (hr' : (offline (npuFilter f)).Run (start n' w) ls' s')
    (hstop : s.monitor = .stopped) (hstop' : s'.monitor = .stopped)
    (hless : (offline (npuFilter f)).Along (Lossless (npuFilter f)) (start n w) ls)
    (hless' : (offline (npuFilter f)).Along (Lossless (npuFilter f)) (start n' w) ls')
    (hcapture : pushes ls = pushes ls') :
    (namedCalls (worker e s.handledL.reverse)).Perm (namedCalls (worker e s'.handledL.reverse)) ∧
      (e.maxLlmFlows = 0 →
        (worker e s.handledL.reverse).calls.Perm (worker e s'.handledL.reverse).calls) := by
  have hloss := zeroLoss_of_lossless hr hstop hless
  have hloss' := zeroLoss_of_lossless hr' hstop' hless'
  have hperm : s.handledL.reverse.Perm s'.handledL.reverse := by
    have h := analyzed_sequential hr hloss
    rw [hcapture] at h
    exact (List.reverse_perm _).trans
      ((h.trans (analyzed_sequential hr' hloss').symm).trans (List.reverse_perm _).symm)
  refine ⟨?_, fun h => ?_⟩
  · rw [worker_named, worker_named]
    exact (hperm.filter _).map _
  · rw [worker_unlimited h, worker_unlimited h]
    exact hperm.flatMap_right _

/-- Each flow is through before the next one comes. -/
def oneByOne {α : Type} (x y : α) : List (Label α) :=
  [.fTest, .lTest, .rPush x, .fPop, .fHandle, .lPop, .lDone, .rPush y, .fTest, .fPop, .fHandle,
    .lTest, .lPop, .lDone, .rReturn, .rFlag, .lTest, .fTest,
    .monitor, .monitor, .monitor, .monitor, .monitor, .monitor, .monitor, .monitor, .monitor,
    .fPop, .fTest, .monitor, .monitor, .monitor, .lPop, .lTest, .monitor]

/-- The threads have stopped, and nothing is left or lost. -/
def emptied (s : State FlowData L4.Worker.State) : Bool :=
  s.monitor = .stopped ∧ s.q1.q = [] ∧ s.q2.q = [] ∧
    (hand1 s.reassembler = [] ∧ handF s.filter = [] ∧ handL s.llm = []) ∧
    (s.lost1 = [] ∧ s.lost2 = []) ∧ s.handledF.Perm s.pushed ∧ s.handledL.Perm s.passed

/-- The schedule loses nothing when it ends so. -/
theorem lossless_of_exec (e : L4.Worker.Env) (n : Nat) (ls : List (Label FlowData))
    (h : (LTS.exec (State.step (npuFilter e)) (start n {}) ls).any emptied = true) :
    ∃ s, (offline (npuFilter e)).Run (start n {}) ls s ∧ s.monitor = .stopped ∧
      (offline (npuFilter e)).Along (Lossless (npuFilter e)) (start n {}) ls := by
  obtain ⟨s, hr, htest⟩ := LTS.run_of_exec_any _ h
  obtain ⟨hstop, h₁, h₂, h₃, h₄, h₅, h₆⟩ := of_decide_eq_true htest
  exact ⟨s, hr, hstop, (lossless_iff hr).2
    ((zeroLoss_iff_scar (run_spec hr).1 hstop).1 ⟨h₁, h₂, h₃, h₄, h₅, h₆⟩)⟩

/-- Room for four flows and for one. -/
theorem alerts_agree_two :
    ∃ s s', (offline (npuFilter plainEnv)).Run (start 4 {})
        (drained (quoted "'\x7b\x7d'") (quoted "'||'")) s ∧
      (offline (npuFilter plainEnv)).Run (start 1 {})
        (oneByOne (quoted "'\x7b\x7d'") (quoted "'||'")) s' ∧
      (worker { generate := id } s.handledL.reverse).calls.Perm
        (worker { generate := id } s'.handledL.reverse).calls := by
  obtain ⟨s, hr, hstop, hless⟩ := lossless_of_exec plainEnv 4
    (drained (quoted "'\x7b\x7d'") (quoted "'||'")) (by decide +kernel)
  obtain ⟨s', hr', hstop', hless'⟩ := lossless_of_exec plainEnv 1
    (oneByOne (quoted "'\x7b\x7d'") (quoted "'||'")) (by decide +kernel)
  exact ⟨s, s', hr, hr',
    (alerts_agree plainEnv { generate := id } {} 4 1 _ _ s s' hr hr' hstop hstop'
      hless hless' rfl).2 rfl⟩

end Alerts

/-! ## No deadlock -/

section Progress

/-- Steps until the monitor has stopped, a stale sample costing a round more. -/
def monitorRank : Monitor → Nat
  | .sampled d => if d = 0 then 13 else 16
  | .sampledBoth d₁ d₂ => if d₁ = 0 ∧ d₂ = 0 then 12 else 15
  | .sleeping => 14
  | m => 12 - m.rank

def reassemblerRank : ReassemblerThread α → Nat
  | .exited => 0
  | .returned => 1
  | .running => 2
  | .pushing _ => 10

/-- In `pop` a worker that has been stopped is two steps from its end. -/
def filterRank (running : Bool) : FilterThread α → Nat
  | .exited => 0
  | .top => 1
  | .popping => if running then 0 else 2
  | .pushing _ _ _ => 5
  | .handling _ => 6

def llmRank (running : Bool) : LlmThread α → Nat
  | .exited => 0
  | .top => 1
  | .popping => if running then 0 else 2
  | .handling _ => 2

/-- Every flow on its way counts the steps that it still takes. -/
def rank (s : State α σ) : Nat :=
  3 * monitorRank s.monitor + reassemblerRank s.reassembler + 7 * s.q1.q.length +
    filterRank s.filterRunning s.filter + 3 * s.q2.q.length + llmRank s.llmRunning s.llm

/-- Some thread has a step that brings the end nearer. -/
def Lowers (stage : σ → α → σ × α × Option Nat) (s : State α σ) : Prop :=
  ∃ l s', State.step stage s l = some s' ∧ rank s' < rank s

theorem lowers_lTest (h : s.llm = .top) : Lowers stage s := by
  refine ⟨.lTest, _, by rw [State.step, lTest, h], ?_⟩
  cases s.llmRunning <;> simp [rank, llmRank, h]

theorem lowers_lDone {x : α} (h : s.llm = .handling x) : Lowers stage s :=
  ⟨.lDone, _, by rw [State.step, lDone, h], by simp [rank, llmRank, h]⟩

theorem lowers_lPop {e : Int × α} {rest : List (Int × α)} (h : s.llm = .popping)
    (hq : s.q2.q = e :: rest) : Lowers stage s := by
  refine ⟨.lPop, _, by rw [State.step, lPop, h, ThreadSafeQueue.pop, hq]; rfl, ?_⟩
  simp only [rank, llmRank, h, hq, List.length_cons]
  omega

theorem lowers_lPop_finished (h : s.llm = .popping) (hq : s.q2.q = []) (hd : s.q2.done = true)
    (hrun : s.llmRunning = false) : Lowers stage s := by
  refine ⟨.lPop, _, by rw [State.step, lPop, h, ThreadSafeQueue.pop, hq, hd]; rfl, ?_⟩
  simp [rank, llmRank, h, hrun]

theorem lowers_fTest (h : s.filter = .top) : Lowers stage s := by
  refine ⟨.fTest, _, by rw [State.step, fTest, h], ?_⟩
  cases s.filterRunning <;> simp [rank, filterRank, h]

theorem lowers_fPop {e : Int × α} {rest : List (Int × α)} (h : s.filter = .popping)
    (hq : s.q1.q = e :: rest) : Lowers stage s := by
  refine ⟨.fPop, _, by rw [State.step, fPop, h, ThreadSafeQueue.pop, hq]; rfl, ?_⟩
  simp only [rank, filterRank, h, hq, List.length_cons]
  omega

theorem lowers_fPop_finished (h : s.filter = .popping) (hq : s.q1.q = []) (hd : s.q1.done = true)
    (hrun : s.filterRunning = false) : Lowers stage s := by
  refine ⟨.fPop, _, by rw [State.step, fPop, h, ThreadSafeQueue.pop, hq, hd]; rfl, ?_⟩
  simp [rank, filterRank, h, hrun]

theorem lowers_rReturn (h : s.reassembler = .running) : Lowers stage s :=
  ⟨.rReturn, _, by rw [State.step, rReturn, h], by simp [rank, reassemblerRank, h]⟩

theorem lowers_rFlag (h : s.reassembler = .returned) : Lowers stage s :=
  ⟨.rFlag, _, by rw [State.step, rFlag, h], by simp [rank, reassemblerRank, h]⟩

theorem length_emplace (p : Int) (x : α) (q : List (Int × α)) :
    (emplace p x q).length = q.length + 1 := by
  induction q with
  | nil => rfl
  | cons e q ih =>
    rw [emplace]
    split
    · rw [List.length_cons, ih, List.length_cons]
    · rfl

theorem lowers_rWake {x : α} (h : s.reassembler = .pushing x) (hroom : s.q1.full = false) :
    Lowers stage s := by
  refine ⟨.rWake, { s with q1 := s.q1.store 0 x, reassembler := .running }, ?_, ?_⟩
  · simp [State.step, rWake, h, ThreadSafeQueue.pushWake, hroom]
  · simp only [rank, reassemblerRank, h, ThreadSafeQueue.store, length_emplace]
    omega

theorem lowers_fWake {x y : α} {p : Nat} (h : s.filter = .pushing x y p)
    (hopen : s.q2.full = false ∨ s.q2.blocking = false) : Lowers stage s := by
  by_cases hfull : s.q2.full = true
  · have hb : s.q2.blocking = false := hopen.resolve_left (by rw [hfull]; nofun)
    refine ⟨.fWake, { s with
      q2 := s.q2.countDrop, filter := .top, handledF := x :: s.handledF, lost2 := y :: s.lost2 },
      ?_, ?_⟩
    · simp [State.step, fWake, h, ThreadSafeQueue.pushWake, hfull, hb]
    · simp only [rank, filterRank, h, ThreadSafeQueue.countDrop]
      omega
  · have hroom : s.q2.full = false := Bool.eq_false_iff.2 hfull
    refine ⟨.fWake, { s with q2 := s.q2.store p y, filter := .top, handledF := x :: s.handledF },
      ?_, ?_⟩
    · simp [State.step, fWake, h, ThreadSafeQueue.pushWake, hroom]
    · simp only [rank, filterRank, h, ThreadSafeQueue.store, length_emplace]
      omega

section Filter

variable [DecidableEq α]

theorem drops_length {q t : ThreadSafeQueue α} {x y : α} (h : Drops q t x y) :
    t.q.length = q.q.length := by
  have hperm : (t.items ++ [y]).Perm (q.items ++ [x]) :=
    List.perm_iff_count.2 fun z => by rw [List.count_append, List.count_append, h z]
  have hlen := hperm.length_eq
  simp only [ThreadSafeQueue.items, List.length_append, List.length_map, List.length_cons,
    List.length_nil] at hlen
  omega

theorem Push2.rank_le {x y : α} {p : Nat} (h : Push2 s x y p s') :
    rank s' + filterRank s.filterRunning s.filter ≤ rank s + 5 := by
  cases h with
  | stored =>
    simp only [rank, filterRank, ThreadSafeQueue.store, length_emplace]
    omega
  | waits =>
    simp only [rank, filterRank]
    omega
  | dropped t z _ _ _ hd =>
    simp only [rank, filterRank, drops_length hd]
    omega

omit [DecidableEq α] in
theorem fHandle_some (stage : σ → α → σ × α × Option Nat) {x : α} (h : s.filter = .handling x) :
    ∃ s', s.fHandle stage = some s' := by
  unfold fHandle
  rw [h]
  dsimp only
  split
  · exact ⟨_, rfl⟩
  · split <;> exact ⟨_, rfl⟩

theorem lowers_fHandle (ho : Ordered s) {x : α} (h : s.filter = .handling x) : Lowers stage s := by
  obtain ⟨s', hs⟩ := fHandle_some stage h
  refine ⟨.fHandle, s', hs, ?_⟩
  obtain ⟨x', hf, ⟨-, rfl⟩ | ⟨p, -, hpush⟩⟩ := fHandle_cases ho hs
  · simp only [rank, filterRank, h]
    omega
  · have hle := Push2.rank_le hpush
    simp only [rank, filterRank, h] at hle ⊢
    omega

end Filter

/-! ### What every run keeps -/

/-- The order of the teardown the other way round, and queues with room for a
flow. -/
structure Alive (s : State α σ) : Prop where
  ordered : Ordered s
  room1 : 0 < s.q1.maxCapacity
  room2 : 0 < s.q2.maxCapacity
  flagged : s.reassembler = .exited → s.captureFinished = true
  done1 : 6 ≤ s.monitor.rank → s.q1.done = true
  stoppedF : 7 ≤ s.monitor.rank → s.filterRunning = false
  unblocked2 : 4 ≤ s.monitor.rank → s.q2.blocking = false
  done2 : 9 ≤ s.monitor.rank → s.q2.done = true
  stoppedL : 10 ≤ s.monitor.rank → s.llmRunning = false

/-- A step of a worker. -/
theorem Alive.of_same (h : Alive s) (ho : Ordered s') (hm : s'.monitor = s.monitor)
    (hc : s'.captureFinished = s.captureFinished)
    (hr : s'.reassembler = .exited → s.reassembler = .exited) (h₁ : s.q1.SameMode s'.q1)
    (h₂ : s.q2.SameMode s'.q2) (hf : s'.filterRunning = s.filterRunning)
    (hl : s'.llmRunning = s.llmRunning) : Alive s' where
  ordered := ho
  room1 := h₁.maxCapacity ▸ h.room1
  room2 := h₂.maxCapacity ▸ h.room2
  flagged hex := hc.trans (h.flagged (hr hex))
  done1 hrank := h₁.done.trans (h.done1 (hm ▸ hrank))
  stoppedF hrank := hf.trans (h.stoppedF (hm ▸ hrank))
  unblocked2 hrank := h₂.blocking.trans (h.unblocked2 (hm ▸ hrank))
  done2 hrank := h₂.done.trans (h.done2 (hm ▸ hrank))
  stoppedL hrank := hl.trans (h.stoppedL (hm ▸ hrank))

theorem Alive.monitorStep (h : Alive s) (hs : s.monitorStep = some s') : Alive s' := by
  have hm := monitorStep_moves hs
  have ho := h.ordered.monitorStep hm
  have hflag : s'.reassembler = .exited → s'.captureFinished = true := fun hex =>
    hm.captured.trans (h.flagged (hm.threads.1 ▸ hex))
  unfold State.monitorStep at hs
  cases hmon : s.monitor with
  | sampledBoth d₁ d₂ =>
    simp only [hmon, Option.some.injEq] at hs
    subst hs
    refine ⟨ho, h.room1, h.room2, hflag, ?_, ?_, ?_, ?_, ?_⟩ <;>
      cases s.autoStop d₁ d₂ <;> simp [Monitor.rank]
  | joiningCapture | joiningFilter | joiningLlm =>
    have hrank := h.done1
    have hrank₂ := h.stoppedF
    have hrank₃ := h.unblocked2
    have hrank₄ := h.done2
    have hrank₅ := h.stoppedL
    simp only [hmon] at hs
    split at hs
    · cases hs
      simp only [hmon, Monitor.rank] at hrank hrank₂ hrank₃ hrank₄ hrank₅
      refine ⟨ho, h.room1, h.room2, hflag, ?_, ?_, ?_, ?_, ?_⟩ <;> simp [Monitor.rank, *]
    · cases hs
  | stopped => simp [hmon] at hs
  | _ =>
    have hrank := h.done1
    have hrank₂ := h.stoppedF
    have hrank₃ := h.unblocked2
    have hrank₄ := h.done2
    have hrank₅ := h.stoppedL
    simp only [hmon, Option.some.injEq] at hs
    subst hs
    simp only [hmon, Monitor.rank] at hrank hrank₂ hrank₃ hrank₄ hrank₅
    refine ⟨ho, h.room1, h.room2, hflag, ?_, ?_, ?_, ?_, ?_⟩ <;>
      simp [Monitor.rank, ThreadSafeQueue.setBlocking, ThreadSafeQueue.finish, *]

section Finish

variable [DecidableEq α]

theorem alive_step (h : Alive s) {l : Label α} (hs : State.step stage s l = some s') :
    Alive s' := by
  have ho := ordered_step h.ordered hs
  have hmode : ∀ q : ThreadSafeQueue α, q.SameMode q := fun _ => ⟨rfl, rfl, rfl⟩
  cases l with
  | rPush x =>
    obtain ⟨hr, rfl | rfl⟩ := rPush_cases h.ordered hs
    · exact h.of_same ho rfl rfl id ⟨rfl, rfl, rfl⟩ (hmode _) rfl rfl
    · exact h.of_same ho rfl rfl nofun (hmode _) (hmode _) rfl rfl
  | rWake =>
    obtain ⟨x, hr, rfl⟩ := rWake_cases h.ordered hs
    exact h.of_same ho rfl rfl nofun ⟨rfl, rfl, rfl⟩ (hmode _) rfl rfl
  | rReturn =>
    obtain ⟨hr, rfl⟩ := rReturn_cases hs
    exact h.of_same ho rfl rfl nofun (hmode _) (hmode _) rfl rfl
  | rFlag =>
    obtain ⟨-, rfl⟩ := rFlag_cases hs
    exact { h with ordered := ho, flagged := fun _ => rfl }
  | fTest =>
    obtain ⟨-, rfl⟩ := fTest_cases hs
    exact h.of_same ho rfl rfl id (hmode _) (hmode _) rfl rfl
  | fPop =>
    obtain ⟨-, t, hm, ⟨x, rfl, -⟩ | ⟨rfl, rfl⟩⟩ := fPop_cases hs
    · exact h.of_same ho rfl rfl id hm (hmode _) rfl rfl
    · exact h.of_same ho rfl rfl id hm (hmode _) rfl rfl
  | fHandle =>
    obtain ⟨x, -, ⟨-, rfl⟩ | ⟨p, -, hp⟩⟩ := fHandle_cases h.ordered hs
    · exact h.of_same ho rfl rfl id (hmode _) (hmode _) rfl rfl
    · cases hp with
      | stored => exact h.of_same ho rfl rfl id (hmode _) ⟨rfl, rfl, rfl⟩ rfl rfl
      | waits => exact h.of_same ho rfl rfl id (hmode _) (hmode _) rfl rfl
      | dropped t z _ _ hm => exact h.of_same ho rfl rfl id (hmode _) hm rfl rfl
  | fWake =>
    obtain ⟨x, y, p, -, hp⟩ := fWake_cases h.ordered hs
    cases hp with
    | stored => exact h.of_same ho rfl rfl id (hmode _) ⟨rfl, rfl, rfl⟩ rfl rfl
    | waits => exact h.of_same ho rfl rfl id (hmode _) (hmode _) rfl rfl
    | dropped t z _ _ hm => exact h.of_same ho rfl rfl id (hmode _) hm rfl rfl
  | lTest =>
    obtain ⟨-, rfl⟩ := lTest_cases hs
    exact h.of_same ho rfl rfl id (hmode _) (hmode _) rfl rfl
  | lPop =>
    obtain ⟨-, t, hm, ⟨x, rfl, -⟩ | ⟨rfl, rfl⟩⟩ := lPop_cases hs
    · exact h.of_same ho rfl rfl id (hmode _) hm rfl rfl
    · exact h.of_same ho rfl rfl id (hmode _) hm rfl rfl
  | lDone =>
    obtain ⟨x, -, rfl⟩ := lDone_cases hs
    exact h.of_same ho rfl rfl id (hmode _) (hmode _) rfl rfl
  | monitor => exact h.monitorStep hs

omit [DecidableEq α] in
/-- With nothing left on its way, the monitor has the next step. -/
theorem lowers_monitor (h : Alive s) (hstop : s.monitor ≠ .stopped) (hr : s.reassembler = .exited)
    (hloop : s.monitor.rank = 0 → s.q1.q = [] ∧ s.q2.q = [])
    (hjoinF : s.monitor = .joiningFilter → s.filter = .exited)
    (hjoinL : s.monitor = .joiningLlm → s.llm = .exited) : Lowers stage s := by
  have hflag := h.flagged hr
  cases hmon : s.monitor with
  | sleeping =>
    obtain ⟨hq, -⟩ := hloop (by rw [hmon]; rfl)
    refine ⟨.monitor, _, by rw [State.step, State.monitorStep, hmon], ?_⟩
    simp [rank, monitorRank, hmon, ThreadSafeQueue.size, hq]
  | sampled d =>
    obtain ⟨-, hq⟩ := hloop (by rw [hmon]; rfl)
    refine ⟨.monitor, _, by rw [State.step, State.monitorStep, hmon], ?_⟩
    by_cases hd : d = 0 <;> simp [rank, monitorRank, hmon, ThreadSafeQueue.size, hq, hd]
  | sampledBoth d₁ d₂ =>
    refine ⟨.monitor, _, by rw [State.step, State.monitorStep, hmon], ?_⟩
    by_cases hd : d₁ = 0 ∧ d₂ = 0
    · simp [rank, monitorRank, hmon, autoStop, hflag, hd, Monitor.rank]
    · have hstay : s.autoStop d₁ d₂ = false := by
        simpa [autoStop, hflag, and_assoc] using hd
      simp [rank, monitorRank, hmon, hstay, hd]
  | joiningCapture =>
    refine ⟨.monitor, _, by rw [State.step, State.monitorStep, hmon, hr], ?_⟩
    simp [rank, monitorRank, hmon, hr, Monitor.rank]
  | joiningFilter =>
    refine ⟨.monitor, _, by rw [State.step, State.monitorStep, hmon, hjoinF hmon], ?_⟩
    simp [rank, monitorRank, hmon, hjoinF hmon, Monitor.rank]
  | joiningLlm =>
    refine ⟨.monitor, _, by rw [State.step, State.monitorStep, hmon, hjoinL hmon], ?_⟩
    simp [rank, monitorRank, hmon, hjoinL hmon, Monitor.rank]
  | stopped => exact absurd hmon hstop
  | stoppingFilter =>
    refine ⟨.monitor, _, by rw [State.step, State.monitorStep, hmon], ?_⟩
    have hle : filterRank false s.filter ≤ filterRank s.filterRunning s.filter + 2 := by
      cases s.filter <;> simp [filterRank]
    simp only [rank, monitorRank, hmon, Monitor.rank]
    omega
  | stoppingLlm =>
    refine ⟨.monitor, _, by rw [State.step, State.monitorStep, hmon], ?_⟩
    have hle : llmRank false s.llm ≤ llmRank s.llmRunning s.llm + 2 := by
      cases s.llm <;> simp [llmRank]
    simp only [rank, monitorRank, hmon, Monitor.rank]
    omega
  | _ =>
    refine ⟨.monitor, _, by rw [State.step, State.monitorStep, hmon], ?_⟩
    simp [rank, monitorRank, hmon, Monitor.rank, ThreadSafeQueue.setBlocking,
      ThreadSafeQueue.finish]

omit [DecidableEq α] in
/-- A full queue with a capacity holds something. -/
theorem ne_nil_of_full {q : ThreadSafeQueue α} (hcap : 0 < q.maxCapacity) (h : q.full = true) :
    q.q ≠ [] := by
  intro hq
  have hle : q.maxCapacity ≤ q.q.length := of_decide_eq_true h
  rw [hq, List.length_nil] at hle
  omega

omit [DecidableEq α] in
/-- What the LLM stage waits for when it has no step. -/
theorem llm_waits (hno : ¬ Lowers stage s) :
    s.llm = .exited ∨ (s.llm = .popping ∧ s.q2.q = []) := by
  cases hl : s.llm with
  | top => exact absurd (lowers_lTest hl) hno
  | handling x => exact absurd (lowers_lDone hl) hno
  | exited => exact .inl rfl
  | popping =>
    cases hq : s.q2.q with
    | nil => exact .inr ⟨rfl, rfl⟩
    | cons e rest => exact absurd (lowers_lPop hl hq) hno

theorem filter_waits (ho : Ordered s) (hno : ¬ Lowers stage s) :
    s.filter = .exited ∨ (s.filter = .popping ∧ s.q1.q = []) ∨
      (s.filter ≠ .exited ∧ s.q2.full = true ∧ s.q2.blocking = true) := by
  cases hf : s.filter with
  | top => exact absurd (lowers_fTest hf) hno
  | handling x => exact absurd (lowers_fHandle ho hf) hno
  | exited => exact .inl rfl
  | popping =>
    cases hq : s.q1.q with
    | nil => exact .inr (.inl ⟨rfl, rfl⟩)
    | cons e rest => exact absurd (lowers_fPop hf hq) hno
  | pushing x y p =>
    refine .inr (.inr ⟨nofun, ?_, ?_⟩)
    · exact Bool.of_not_eq_false fun hfull => hno (lowers_fWake hf (.inl hfull))
    · exact Bool.of_not_eq_false fun hb => hno (lowers_fWake hf (.inr hb))

omit [DecidableEq α] in
theorem reassembler_waits (hno : ¬ Lowers stage s) :
    s.reassembler = .exited ∨ (s.reassembler ≠ .exited ∧ s.q1.full = true) := by
  cases hr : s.reassembler with
  | running => exact absurd (lowers_rReturn hr) hno
  | returned => exact absurd (lowers_rFlag hr) hno
  | exited => exact .inl rfl
  | pushing x =>
    refine .inr ⟨nofun, ?_⟩
    exact Bool.of_not_eq_false fun hfull => hno (lowers_rWake hr hfull)

/-- In every state but the last some thread has work that brings the end
nearer: a worker that waits at a full queue has a consumer that does not
wait. -/
theorem lowers (h : Alive s) (hstop : s.monitor ≠ .stopped) : Lowers stage s := by
  have ho := h.ordered
  refine Classical.byContradiction fun hno => hno ?_
  have hl := llm_waits hno
  have hf : s.filter = .exited ∨ (s.filter = .popping ∧ s.q1.q = []) := by
    rcases filter_waits ho hno with hf | hf | ⟨hne, hfull, -⟩
    · exact .inl hf
    · exact .inr hf
    · rcases hl with hl | ⟨-, hq⟩
      · exact .inl (ho.exitedF_of_exitedL hl)
      · exact absurd hq (ne_nil_of_full h.room2 hfull)
  have hr : s.reassembler = .exited := by
    rcases reassembler_waits hno with hr | ⟨-, hfull⟩
    · exact hr
    · rcases hf with hf | ⟨-, hq⟩
      · exact ho.exited_of_exitedF hf
      · exact absurd hq (ne_nil_of_full h.room1 hfull)
  refine lowers_monitor h hstop hr (fun hrank => ⟨?_, ?_⟩) (fun hmon => ?_) fun hmon => ?_
  · rcases hf with hf | ⟨-, hq⟩
    · have := ho.rank_of_exitedF hf
      omega
    · exact hq
  · rcases hl with hl | ⟨-, hq⟩
    · have := ho.rank_of_exitedL hl
      omega
    · exact hq
  · rcases hf with hf | ⟨hf, hq⟩
    · exact hf
    · have hdone := h.done1 (by rw [hmon]; decide)
      have hrun := h.stoppedF (by rw [hmon]; decide)
      exact absurd (lowers_fPop_finished hf hq hdone hrun) hno
  · rcases hl with hl | ⟨hl, hq⟩
    · exact hl
    · have hdone := h.done2 (by rw [hmon]; decide)
      have hrun := h.stoppedL (by rw [hmon]; decide)
      exact absurd (lowers_lPop_finished hl hq hdone hrun) hno

omit [DecidableEq α] in
theorem alive_start {capacity : Nat} (hcap : 0 < capacity) (w : σ) :
    Alive (start capacity w : State α σ) := by
  refine ⟨?_, hcap, hcap, nofun, ?_, ?_, ?_, ?_, ?_⟩
  · constructor <;> simp [start, Monitor.rank]
  all_goals simp [start, Monitor.rank]

/-- No schedule ends in a deadlock: from every state that a run reaches, with
any stage and any capacity from one up, some schedule stops the pipeline, in
no more steps than the flows and threads have left to take. -/
theorem can_finish (stage : σ → α → σ × α × Option Nat) (capacity : Nat) (hcap : 0 < capacity)
    (w : σ) (ls : List (Label α)) (s : State α σ)
    (hr : (offline stage).Run (start capacity w) ls s) :
    ∃ ls' s', (offline stage).Run s ls' s' ∧ s'.monitor = .stopped ∧ ls'.length ≤ rank s := by
  have hstep : ∀ (s : State α σ) (l : Label α) (s' : State α σ), Alive s →
      (offline stage).step s l s' → Alive s' := fun _ _ _ h hst => alive_step h hst
  have halive : Alive s := LTS.Run.history (I := fun _ s => Alive s)
    (fun _ _ _ _ => hstep _ _ _) hr (alive_start hcap w)
  exact LTS.exists_run_to rank hstep (fun _ h hstop => lowers h hstop) halive

/-- Both queues are full, and a flow waits before each. -/
theorem can_finish_full :
    ∃ s, (offline fun (w : Nat) (x : Nat) => (w, x, some 1)).Run (start 1 0)
        [.fTest, .rPush 1, .fPop, .fHandle, .rPush 2, .fTest, .fPop, .rPush 3, .fHandle,
          .rPush 4] s ∧
      hand1 s.reassembler = [4] ∧ outF s.filter = [2] ∧
      ∃ ls' s', (offline fun (w : Nat) (x : Nat) => (w, x, some 1)).Run s ls' s' ∧
        s'.monitor = .stopped ∧ ls'.length ≤ rank s := by
  have hexec : (LTS.exec (State.step fun (w : Nat) (x : Nat) => (w, x, some 1)) (start 1 0)
      [.fTest, .rPush 1, .fPop, .fHandle, .rPush 2, .fTest, .fPop, .rPush 3, .fHandle,
        .rPush 4]).any
      (fun s => decide (hand1 s.reassembler = [4] ∧ outF s.filter = [2])) = true := by
    decide
  obtain ⟨s, hr, htest⟩ := LTS.run_of_exec_any _ hexec
  obtain ⟨hpush, hwait⟩ := of_decide_eq_true htest
  exact ⟨s, hr, hpush, hwait, can_finish _ 1 (by decide) 0 _ s hr⟩

end Finish

end Progress

end Wirewolf.L5.Scheduling
