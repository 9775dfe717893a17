import Mathlib.Data.List.Induction
import Wirewolf.L4Filter.Decision

/-!
# What the filter counts, reports and pushes

`workerRound` is one round of the loop exit by exit, each with its own
counters, event and push in the order of the source; a callback for flow
events is set. `Books` is what the loop writes.

* `workerRound_eq`: a round enters the outcome that `handle` decides, once.
* `books_balance`: after any flows, counters, events and pushes agree.
-/
namespace Wirewolf.L4.Accounting

open Wirewolf.L1.IpPacket Wirewolf.L4.Detectors Wirewolf.L4.Worker
open Wirewolf.L4.Decision

/-- mirrors src/include/wirewolf_types.hpp:417 -/
inductive FlowAction where
  | filtered | passedToLLM | llmCleared
  deriving DecidableEq

/-- mirrors src/include/wirewolf_types.hpp:419-425 -/
structure FlowEvent where
  connection : ConnectionId
  action : FlowAction
  reason : Bytes
  payloadSize : Nat

/-- The members of the filter, the events it has emitted and what it has
pushed to the output queue, with the priority. -/
structure Books extends State where
  events : List FlowEvent := []
  outputQueue : List (FlowData × Nat) := []

abbrev Loop := StateM Books

namespace Loop

def countFiltered : Loop Unit := modify fun s => { s with filteredCount := s.filteredCount + 1 }

def countPassed : Loop Unit := modify fun s => { s with passedCount := s.passedCount + 1 }

def countDedup : Loop Unit := modify fun s => { s with dedupCount := s.dedupCount + 1 }

/-- mirrors src/src/npu_filter.cpp:82-93 -/
def emitFlowEvent (flow : FlowData) (action : FlowAction) (reason : Bytes) : Loop Unit :=
  modify fun s =>
    { s with events := s.events ++ [⟨flow.id, action, reason, flow.reassembledPayload.length⟩] }

/-- `output_queue.push(std::move(flow), flow_priority(raw))` -/
def push (flow : FlowData) : Loop Unit :=
  modify fun s => { s with outputQueue := s.outputQueue ++ [(flow, flowPriority flow)] }

/-- `seen_payload_hashes_.insert(hash).second` -/
def insertHash (hash : UInt64) : Loop Bool := do
  let s ← get
  if hash ∈ s.seenPayloadHashes then return false
  else
    set { s with seenPayloadHashes := hash :: s.seenPayloadHashes }
    return true

/-- mirrors src/src/npu_filter.cpp:827-828 -/
def clearHashes : Loop Unit := modify fun s => { s with toState := s.toState.clearFull }

end Loop

open Loop

/-! ## The loop body -/

/-- mirrors src/src/npu_filter.cpp:1026-1121 -/
def anomalyRound (e : Env) (flow : FlowData) : Loop Unit :=
  let suspicious := detectObfuscatedInjection flow || flow.behavioralSuspect ||
    modelSuspicious e (extractFeatures e flow) flow
  if suspicious && !flow.reassembledPayload.isEmpty && !isText flow.reassembledPayload then do
    countFiltered
    emitFlowEvent flow .filtered (lit "binary")
  else if suspicious then do
    if !(← insertHash (payloadKey e flow)) then
      countDedup
      countFiltered
      emitFlowEvent flow .filtered (lit "dedup")
    else
      countPassed
      emitFlowEvent flow .passedToLLM (lit "anomaly")
      push flow
  else do
    countFiltered
    emitFlowEvent flow .filtered (lit "statistical")

/-- mirrors src/src/npu_filter.cpp:900-1024 -/
def detectorRound (e : Env) (flow : FlowData) : Loop Unit :=
  if detectHeartbleed flow then do
    if !(← insertHash (heartbleedKey e flow.id)) then
      countDedup
      countFiltered
      emitFlowEvent flow .filtered (lit "dedup")
    else
      let flow := { flow with protocolTag := lit "Heartbleed" }
      countPassed
      emitFlowEvent flow .passedToLLM (lit "heartbleed")
      push flow
  else if detectSmbExploit flow then do
    if !(← insertHash (smbKey e flow.id)) then
      countDedup
      countFiltered
      emitFlowEvent flow .filtered (lit "dedup")
    else
      let flow := { flow with protocolTag := lit "SMB Exploit" }
      countPassed
      emitFlowEvent flow .passedToLLM (lit "smb-exploit")
      push flow
  else if detectSpnego flow then do
    countFiltered
    emitFlowEvent flow .filtered (lit "SPNEGO")
  else if detectHttpBruteforce flow then do
    let flow := { flow with protocolTag := lit "Brute Force" }
    countPassed
    emitFlowEvent flow .passedToLLM (lit "http-bruteforce")
    push flow
  else if detectBenignHttp e.before flow then do
    countFiltered
    emitFlowEvent flow .filtered (lit "benign HTTP")
  else if detectCredentialContent flow then do
    let flow := { flow with protocolTag := transferTag flow }
    countPassed
    emitFlowEvent flow .passedToLLM (lit "credential-content")
    push flow
  else if detectFtpActivity flow then do
    let flow := { flow with protocolTag := transferTag flow }
    countPassed
    emitFlowEvent flow .passedToLLM (lit "ftp-exfil")
    push flow
  else if detectRatProtocol flow then do
    if !(← insertHash (ratKey e flow.id)) then
      countDedup
      countFiltered
      emitFlowEvent flow .filtered (lit "dedup")
    else
      let flow := { flow with protocolTag := lit "RAT C2" }
      countPassed
      emitFlowEvent flow .passedToLLM (lit "rat-c2")
      push flow
  else anomalyRound e flow

/-- mirrors src/src/npu_filter.cpp:860-898 -/
def feedRound (e : Env) (flow : FlowData) : Loop Unit :=
  match feedHit e flow with
  | some flow => do
    countPassed
    emitFlowEvent flow .passedToLLM (lit "threat-intel")
    push flow
  | none => detectorRound e flow

/-- mirrors src/src/npu_filter.cpp:818-1121 -/
def workerRound (e : Env) (flow : FlowData) : Loop Unit :=
  if flow.reassembledPayload = [] then do
    countFiltered
    emitFlowEvent flow .filtered (lit "empty")
  else do
    clearHashes
    match tlsStage e.threatFeed (canonicalize flow) with
    | (.suspicious, flow) =>
      countPassed
      emitFlowEvent flow .passedToLLM (lit "tls-suspicious")
      push flow
    | (.benign, flow) =>
      countFiltered
      emitFlowEvent flow .filtered (lit "tls-benign")
    | (.notTls, flow) => feedRound e flow

/-! ## A round enters one outcome -/

/-- The event of an outcome. -/
def Books.event (o : Outcome) : FlowEvent where
  connection := o.flow.id
  action := if o.pushed.isSome then .passedToLLM else .filtered
  reason := o.reason.text
  payloadSize := o.flow.reassembledPayload.length

/-- The books with one outcome more. -/
def Books.enter (s : Books) (r : State × Outcome) : Books where
  toState := r.1
  events := s.events ++ [Books.event r.2]
  outputQueue := s.outputQueue ++ (r.2.pushed.map fun priority => (r.2.flow, priority)).toList

/-- The body does what is settled. -/
def Settles (x : Loop Unit) (d : Ruling) : Prop :=
  ∀ s : Books, (x.run s).2 = s.enter (settle s.toState d)

theorem settles_ite {c : Prop} [Decidable c] {x y : Loop Unit} {a b : Ruling} (hx : Settles x a)
    (hy : Settles y b) : Settles (if c then x else y) (if c then a else b) := by
  split
  · exact hx
  · exact hy

theorem settles_drop (flow : FlowData) (reason : Reason) :
    Settles (do countFiltered; emitFlowEvent flow .filtered reason.text) (.drop flow reason) := by
  intro s
  show Books.mk _ _ _ = Books.mk _ _ _
  simp [settle, State.drop, Books.event]

theorem settles_pass (flow : FlowData) (reason : Reason) :
    Settles (do countPassed; emitFlowEvent flow .passedToLLM reason.text; push flow)
      (.pass flow reason) := fun _ => rfl

theorem settles_once (key : UInt64) (flow tagged : FlowData) (reason : Reason) :
    Settles (do
      if !(← insertHash key) then
        countDedup
        countFiltered
        emitFlowEvent flow .filtered (lit "dedup")
      else
        countPassed
        emitFlowEvent tagged .passedToLLM reason.text
        push tagged) (.once key flow tagged reason) := by
  intro s
  have hinsert : (insertHash key).run s = if key ∈ s.seenPayloadHashes then (false, s)
      else (true, { s with seenPayloadHashes := key :: s.seenPayloadHashes }) := by
    show (if key ∈ s.seenPayloadHashes then _ else _ : Loop Bool).run s = _
    split <;> rfl
  rw [StateT.run_bind, hinsert, settle, State.passOnce]
  by_cases hkey : key ∈ s.seenPayloadHashes
  · rw [if_pos hkey, if_pos hkey]
    show Books.mk _ _ _ = Books.mk _ _ _
    simp [State.drop, Books.event, Reason.text]
  · rw [if_neg hkey, if_neg hkey]
    rfl

theorem anomalyRound_settles (e : Env) (flow : FlowData) :
    Settles (anomalyRound e flow) (anomalyDecision e flow) := by
  unfold anomalyRound anomalyDecision
  exact settles_ite (settles_drop flow .binary)
    (settles_ite (settles_once _ flow flow .anomaly) (settles_drop flow .statistical))

theorem detectorRound_settles (e : Env) (flow : FlowData) :
    Settles (detectorRound e flow) (detectorDecision e flow) := by
  unfold detectorRound detectorDecision
  refine settles_ite (settles_once _ flow _ .heartbleed) ?_
  refine settles_ite (settles_once _ flow _ .smbExploit) ?_
  refine settles_ite (settles_drop flow .spnego) ?_
  refine settles_ite (settles_pass _ .httpBruteforce) ?_
  refine settles_ite (settles_drop flow .benignHttp) ?_
  refine settles_ite (settles_pass _ .credentialContent) ?_
  refine settles_ite (settles_pass _ .ftpExfil) ?_
  refine settles_ite (settles_once _ flow _ .ratC2) ?_
  exact anomalyRound_settles e flow

theorem feedRound_settles (e : Env) (flow : FlowData) :
    Settles (feedRound e flow) (feedDecision e flow) := by
  unfold feedRound feedDecision
  cases feedHit e flow with
  | some flow' => exact settles_pass flow' .threatIntel
  | none => exact detectorRound_settles e flow

/-- What the loop writes in a round is one outcome of the filter. -/
theorem workerRound_eq (e : Env) (flow : FlowData) (s : Books) :
    ((workerRound e flow).run s).2 = s.enter (handle e s.toState flow) := by
  rw [handle_eq]
  unfold workerRound decision ready
  by_cases hempty : flow.reassembledPayload = []
  · rw [if_pos hempty, if_pos hempty, if_pos hempty]
    exact settles_drop flow .empty s
  · rw [if_neg hempty, if_neg hempty, if_neg hempty]
    show ((match tlsStage e.threatFeed (canonicalize flow) with
      | (.suspicious, flow) => _ | (.benign, flow) => _ | (.notTls, flow) => _ : Loop Unit).run
        { s with toState := s.toState.clearFull }).2 = _
    rcases tlsStage e.threatFeed (canonicalize flow) with ⟨verdict, flow'⟩
    cases verdict with
    | suspicious => exact settles_pass flow' .tlsSuspicious _
    | benign => exact settles_drop flow' .tlsBenign _
    | notTls => exact feedRound_settles e flow' _

/-! ## Runs -/

/-- The rounds of these flows, on a filter just started. -/
def worker (e : Env) (flows : List FlowData) : Books :=
  flows.foldl (fun s flow => ((workerRound e flow).run s).2) {}

/-- The books after `n` flows. -/
structure Balanced (s : Books) (n : Nat) : Prop where
  counted : s.passedCount + s.filteredCount = n
  reported : s.events.length = n
  pushed : s.outputQueue.length = s.passedCount
  passed : s.events.countP (fun ev => decide (ev.action = .passedToLLM)) = s.passedCount
  dedup : s.events.countP (fun ev => decide (ev.reason = lit "dedup")) = s.dedupCount
  filtered : s.dedupCount ≤ s.filteredCount
  priority : ∀ x ∈ s.outputQueue, x.2 = 2 ↔ x.1.protocolTag ≠ [] ∨ x.1.behavioralSuspect = true

theorem balanced_nil : Balanced {} 0 := ⟨rfl, rfl, rfl, rfl, rfl, Nat.le_refl 0, nofun⟩

theorem text_eq_dedup (reason : Reason) : reason.text = lit "dedup" ↔ reason = .dedup := by
  cases reason <;> decide

theorem flowPriority_eq_two (flow : FlowData) :
    flowPriority flow = 2 ↔ flow.protocolTag ≠ [] ∨ flow.behavioralSuspect = true := by
  unfold flowPriority
  cases flow.protocolTag <;> cases flow.behavioralSuspect <;> simp

theorem ready_counts (s : State) (flow : FlowData) :
    (ready s flow).passedCount = s.passedCount ∧ (ready s flow).filteredCount = s.filteredCount ∧
      (ready s flow).dedupCount = s.dedupCount := by
  unfold ready State.clearFull
  split
  · exact ⟨rfl, rfl, rfl⟩
  · split <;> exact ⟨rfl, rfl, rfl⟩

section

variable {s : Books} {n : Nat} {t : State}

/-- One more filtered flow, a duplicate or not. -/
theorem Balanced.drop (h : Balanced s n) (hp : t.passedCount = s.passedCount)
    (hf : t.filteredCount = s.filteredCount) {flow : FlowData} {reason : Reason}
    (hd : t.dedupCount = s.dedupCount + if reason = .dedup then 1 else 0) :
    Balanced (s.enter (t.drop flow reason)) (n + 1) where
  counted := by
    have := h.counted
    simp only [Books.enter, State.drop]
    omega
  reported := by simp [Books.enter, h.reported]
  pushed := by simp [Books.enter, State.drop, h.pushed, hp]
  passed := by simp [Books.enter, State.drop, Books.event, h.passed, hp]
  dedup := by
    simp only [Books.enter, State.drop, Books.event, List.countP_append, h.dedup, hd,
      List.countP_singleton, text_eq_dedup, decide_eq_true_eq]
  filtered := by
    have := h.filtered
    simp only [Books.enter, State.drop, hd, hf]
    split <;> omega
  priority := by simpa [Books.enter, State.drop] using h.priority

theorem Balanced.pass (h : Balanced s n) (hp : t.passedCount = s.passedCount)
    (hf : t.filteredCount = s.filteredCount) (hd : t.dedupCount = s.dedupCount) {flow : FlowData}
    {reason : Reason} (hr : reason ≠ .dedup) : Balanced (s.enter (t.pass flow reason)) (n + 1) where
  counted := by
    have := h.counted
    simp only [Books.enter, State.pass]
    omega
  reported := by simp [Books.enter, h.reported]
  pushed := by simp [Books.enter, State.pass, h.pushed, hp]
  passed := by simp [Books.enter, State.pass, Books.event, h.passed, hp]
  dedup := by simp [Books.enter, State.pass, Books.event, h.dedup, hd, text_eq_dedup, hr]
  filtered := by
    have := h.filtered
    simp only [Books.enter, State.pass]
    omega
  priority := by
    simp only [Books.enter, State.pass, Option.map_some, Option.toList_some, List.mem_append,
      List.mem_singleton]
    intro x hx
    rcases hx with hx | rfl
    · exact h.priority x hx
    · exact flowPriority_eq_two flow

end

/-- One round keeps the books balanced. -/
theorem Balanced.enter {s : Books} {n : Nat} (h : Balanced s n) (e : Env) (flow : FlowData) :
    Balanced (s.enter (handle e s.toState flow)) (n + 1) := by
  obtain ⟨hp, hf, hd⟩ := ready_counts s.toState flow
  have hreason := decision_reason e flow
  rw [handle_eq]
  cases hdec : decision e flow with
  | drop f reason =>
    rw [hdec] at hreason
    have hreason : reason ≠ .dedup := hreason
    exact h.drop hp hf (by rw [if_neg hreason]; exact hd)
  | pass f reason =>
    rw [hdec] at hreason
    exact h.pass hp hf hd hreason
  | once k f tagged reason =>
    rw [hdec] at hreason
    unfold settle State.passOnce
    dsimp only
    split
    · exact Balanced.drop (t := { ready s.toState flow with
        dedupCount := (ready s.toState flow).dedupCount + 1 }) h hp hf (congrArg (· + 1) hd)
    · exact Balanced.pass (t := { ready s.toState flow with
        seenPayloadHashes := k :: (ready s.toState flow).seenPayloadHashes }) h hp hf hd hreason

/-- After any flows, whatever the configuration and the feed. -/
theorem books_balance (e : Env) (flows : List FlowData) :
    Balanced (worker e flows) flows.length := by
  induction flows using List.reverseRecOn with
  | nil => exact balanced_nil
  | append_singleton flows flow ih =>
    rw [worker, List.foldl_append, List.length_append]
    show Balanced ((workerRound e flow).run (worker e flows)).2 (flows.length + 1)
    rw [workerRound_eq]
    exact ih.enter e flow

end Wirewolf.L4.Accounting
