import Mathlib.Data.List.Induction
import Wirewolf.L4Filter.Accounting
import Wirewolf.L4Filter.Escalation
import Wirewolf.L4Filter.Signatures
import Wirewolf.L4Llm.Worker

/-!
# Named detections and the budget

`workerRound` is one round of the LLM worker exit by exit; an alert callback
is set. `Log` is what the loop does: the flows it runs through the model and
the calls of the callback, in order.

* `workerRound_eq`: a round logs what `handle` decides.
* `named_alerted`: every tagged flow is one call with its tag, whatever was
  inferred before; at most `max_llm_flows` flows are inferred; and a live
  filter names what a content signature matches.
-/
namespace Wirewolf.L4.NamedAlert

open Wirewolf.L1.IpPacket Wirewolf.L1.AlertJson Wirewolf.L1.TlsHello Wirewolf.L1.Normalizer
open Wirewolf.L4.LlmWorker

/-- `alert_callback_(result, raw, payload_str)` -/
structure AlertCall where
  result : Bytes
  flow : FlowData
  payloadStr : Bytes

structure Log where
  llmRuns : Nat := 0
  /-- the flows passed to `generate_response` -/
  inferred : List FlowData := []
  calls : List AlertCall := []

abbrev Loop := StateM Log

namespace Loop

def alertCallback (result : Bytes) (flow : FlowData) (payloadStr : Bytes) : Loop Unit :=
  modify fun s => { s with calls := s.calls ++ [⟨result, flow, payloadStr⟩] }

def countRun : Loop Unit := modify fun s => { s with llmRuns := s.llmRuns + 1 }

/-- The flow is shown to the model.
mirrors src/src/llm_inference.cpp:1563-1703 -/
def generateResponse (e : Env) (flow : FlowData) : Loop Outcome := do
  modify fun s => { s with inferred := s.inferred ++ [flow] }
  return classify e flow

end Loop

open Loop

/-! ## The loop body -/

/-- mirrors src/src/llm_inference.cpp:1297-1494 -/
def taggedRound (e : Env) (flow : FlowData) : Loop Unit :=
  let t := tagged flow
  alertCallback (buildAlertJson flow.protocolTag t.1 t.2) flow (taggedPayload e flow)

/-- mirrors src/src/llm_inference.cpp:1530-1710 -/
def inferenceRound (e : Env) (flow : FlowData) : Loop Unit := do
  let s ← get
  if 0 < e.maxLlmFlows ∧ e.maxLlmFlows ≤ s.llmRuns then
    -- the counter passes the limit once, to log once
    if s.llmRuns = e.maxLlmFlows then countRun else return
  else
    countRun
    match ← generateResponse e flow with
    | .alert a => alertCallback a.json flow a.payloadText
    | _ => return

/-- mirrors src/src/llm_inference.cpp:1284-1710 -/
def workerRound (e : Env) (flow : FlowData) : Loop Unit :=
  if flow.reassembledPayload = [] then return
  else if flow.protocolTag ≠ [] then taggedRound e flow
  else if isBinary e flow then return
  else inferenceRound e flow

/-- The rounds of these flows, on a worker just started. -/
def worker (e : Env) (flows : List FlowData) : Log :=
  flows.foldl (fun s flow => ((workerRound e flow).run s).2) {}

/-! ## A round logs one outcome -/

/-- The call of an outcome. -/
def callsOf (flow : FlowData) : Outcome → List AlertCall
  | .alert a => [⟨a.json, flow, a.payloadText⟩]
  | _ => []

/-- The log with one outcome more; an untagged flow that was not skipped has
been shown to the model. -/
def Log.enter (s : Log) (flow : FlowData) (r : Nat × Outcome) : Log where
  llmRuns := r.1
  inferred := s.inferred ++ (if flow.protocolTag = [] ∧ r.2 ≠ .skipped then [flow] else [])
  calls := s.calls ++ callsOf flow r.2

theorem enter_skipped (s : Log) (flow : FlowData) : s.enter flow (s.llmRuns, .skipped) = s := by
  simp [Log.enter, callsOf]

theorem classify_ne_skipped (e : Env) (flow : FlowData) : classify e flow ≠ .skipped := by
  unfold classify
  dsimp only
  split
  · nofun
  · nofun
  · split
    · nofun
    · split <;> nofun

theorem inferenceRound_eq {e : Env} {flow : FlowData} (htag : flow.protocolTag = []) (s : Log) :
    ((inferenceRound e flow).run s).2 = s.enter flow
      (if 0 < e.maxLlmFlows ∧ e.maxLlmFlows ≤ s.llmRuns then
        (if s.llmRuns = e.maxLlmFlows then s.llmRuns + 1 else s.llmRuns, .skipped)
      else (s.llmRuns + 1, classify e flow)) := by
  show ((if 0 < e.maxLlmFlows ∧ e.maxLlmFlows ≤ s.llmRuns then _ else _ : Loop Unit).run s).2 = _
  split
  · split
    · show Log.mk _ _ _ = Log.mk _ _ _
      simp [callsOf]
    · exact (enter_skipped s flow).symm
  · have hne := classify_ne_skipped e flow
    show ((match classify e flow with
      | .alert a => alertCallback a.json flow a.payloadText | _ => return : Loop Unit).run
        { s with llmRuns := s.llmRuns + 1, inferred := s.inferred ++ [flow] }).2 = _
    rw [Log.enter, if_pos ⟨htag, hne⟩]
    cases hclass : classify e flow with
    | alert a => rfl
    | skipped => exact absurd hclass hne
    | cleared =>
      show Log.mk _ _ _ = Log.mk _ _ _
      simp [callsOf]
    | suppressed =>
      show Log.mk _ _ _ = Log.mk _ _ _
      simp [callsOf]

/-- What the loop does in a round is what `handle` decides. -/
theorem workerRound_eq (e : Env) (flow : FlowData) (s : Log) :
    ((workerRound e flow).run s).2 = s.enter flow (handle e s.llmRuns flow) := by
  unfold workerRound handle
  simp only [List.isEmpty_iff, Bool.not_eq_true', List.isEmpty_eq_false_iff, Bool.and_eq_true,
    decide_eq_true_eq]
  split
  · exact (enter_skipped s flow).symm
  · by_cases htag : flow.protocolTag = []
    · rw [if_neg (not_not_intro htag), if_neg (not_not_intro htag)]
      split
      · exact (enter_skipped s flow).symm
      · exact inferenceRound_eq htag s
    · rw [if_pos htag, if_pos htag]
      show Log.mk _ _ _ = Log.mk _ _ _
      simp only [htag, false_and, if_false, List.append_nil]
      rfl

/-! ## Runs -/

theorem worker_concat (e : Env) (flows : List FlowData) (flow : FlowData) :
    worker e (flows ++ [flow]) =
      (worker e flows).enter flow (handle e (worker e flows).llmRuns flow) := by
  rw [worker, List.foldl_append]
  exact workerRound_eq e flow (worker e flows)

/-- The flow has been named by an earlier stage. -/
def isNamed (flow : FlowData) : Bool :=
  !flow.reassembledPayload.isEmpty && !flow.protocolTag.isEmpty

/-- A named flow is one call with its tag, before every gate. -/
theorem handle_named {e : Env} {n : Nat} {flow : FlowData} (h : isNamed flow = true) :
    handle e n flow = (n, .alert (taggedAlert e flow)) := by
  rw [isNamed, Bool.and_eq_true, Bool.not_eq_true'] at h
  unfold handle
  rw [if_neg (by rw [h.1]; nofun), if_pos h.2]

/-- Any other call is for a flow without a tag. -/
theorem handle_untagged {e : Env} {n : Nat} {flow : FlowData} (h : isNamed flow = false) :
    (handle e n flow).2 = .skipped ∨ flow.protocolTag = [] := by
  unfold handle
  split
  · exact .inl rfl
  · next hne =>
    refine .inr (Decidable.byContradiction fun htag => ?_)
    rw [isNamed, Bool.and_eq_false_iff, Bool.not_eq_false', Bool.not_eq_false',
      List.isEmpty_iff] at h
    rcases h with h | h
    · exact hne (List.isEmpty_iff.2 h)
    · exact htag (List.isEmpty_iff.1 h)

/-- The calls for tagged flows, with the threat type that each carries. -/
def namedCalls (s : Log) : List (FlowData × Option Bytes) :=
  (s.calls.filter fun c => !c.flow.protocolTag.isEmpty).map fun c => (c.flow, threatTypeOf c.result)

theorem namedCalls_enter (s : Log) (flow : FlowData) (r : Nat × Outcome) :
    namedCalls (s.enter flow r) = namedCalls s ++ namedCalls { calls := callsOf flow r.2 } := by
  simp only [namedCalls, Log.enter, List.filter_append, List.map_append]

theorem worker_named (e : Env) (flows : List FlowData) : namedCalls (worker e flows) =
    (flows.filter isNamed).map fun flow => (flow, some flow.protocolTag) := by
  induction flows using List.reverseRecOn with
  | nil => rfl
  | append_singleton flows flow ih =>
    rw [worker_concat, namedCalls_enter, ih, List.filter_append, List.map_append]
    congr 1
    cases hnamed : isNamed flow with
    | true =>
      have htag : (!flow.protocolTag.isEmpty) = true := (Bool.and_eq_true _ _ ▸ hnamed).2
      have htype : threatTypeOf (taggedAlert e flow).json = some flow.protocolTag :=
        threatTypeOf_build _ _ _
      rw [handle_named hnamed, List.filter_cons_of_pos hnamed, namedCalls, callsOf,
        List.filter_cons_of_pos (by exact htag), List.map_cons, htype]
      rfl
    | false =>
      rw [List.filter_cons_of_neg (by rw [hnamed]; nofun), namedCalls]
      rcases handle_untagged (n := (worker e flows).llmRuns) (e := e) hnamed with h | h
      · rw [h]; rfl
      · cases (handle e (worker e flows).llmRuns flow).2 <;> simp [callsOf, h]

/-- The counter is never behind the flows inferred, and with a limit these
are within it. -/
def Metered (e : Env) (s : Log) : Prop :=
  s.inferred.length ≤ s.llmRuns ∧ (0 < e.maxLlmFlows → s.inferred.length ≤ e.maxLlmFlows)

theorem metered_mono {e : Env} {s t : Log} (h : Metered e s) (hi : t.inferred = s.inferred)
    (hr : s.llmRuns ≤ t.llmRuns) : Metered e t := by
  refine ⟨?_, ?_⟩
  · rw [hi]
    exact Nat.le_trans h.1 hr
  · rw [hi]
    exact h.2

theorem inferred_enter_le (s : Log) (flow : FlowData) (r : Nat × Outcome) :
    (s.enter flow r).inferred.length ≤ s.inferred.length + 1 := by
  rw [Log.enter, List.length_append]
  split <;> simp

theorem metered_inferenceRound {e : Env} {s : Log} (h : Metered e s) {flow : FlowData}
    (htag : flow.protocolTag = []) : Metered e ((inferenceRound e flow).run s).2 := by
  rw [inferenceRound_eq htag]
  split
  · split
    · exact metered_mono h (by simp [Log.enter]) (Nat.le_succ _)
    · exact metered_mono h (by simp [Log.enter]) (Nat.le_refl _)
  · next hbudget =>
    have hlen := inferred_enter_le s flow (s.llmRuns + 1, classify e flow)
    refine ⟨Nat.le_trans hlen (Nat.succ_le_succ h.1), fun hpos => ?_⟩
    have hrun : ¬ e.maxLlmFlows ≤ s.llmRuns := fun hle => hbudget ⟨hpos, hle⟩
    have := h.1
    omega

theorem metered_workerRound {e : Env} {s : Log} (h : Metered e s) (flow : FlowData) :
    Metered e ((workerRound e flow).run s).2 := by
  unfold workerRound
  split
  · exact h
  · split
    · exact metered_mono h rfl (Nat.le_refl _)
    · next htag =>
      split
      · exact h
      · exact metered_inferenceRound h (not_not.1 htag)

theorem worker_metered (e : Env) (flows : List FlowData) : Metered e (worker e flows) := by
  induction flows using List.reverseRecOn with
  | nil => exact ⟨Nat.le_refl _, fun _ => Nat.zero_le _⟩
  | append_singleton flows flow ih =>
    rw [worker, List.foldl_append]
    exact metered_workerRound ih flow

/-! ## The content signatures of a live filter -/

open Wirewolf.L4.Signatures
open Wirewolf.L4.Accounting (Books)

theorem loaded_named {content : Bytes} {sig : ContentSignature} (h : sig ∈ loadSignatures content) :
    sig.severity ≠ [] := by
  obtain ⟨line, -, hl⟩ := List.mem_filterMap.1 h
  unfold loadLine at hl
  dsimp only at hl
  split at hl
  · cases hl
  · split at hl
    · cases hl
    · cases hl
      dsimp only
      split
      · decide
      · next hne => exact fun he => hne (List.isEmpty_iff.2 he)

theorem match_loaded {f : ThreatFeed} {content text : Bytes} {sig : ContentSignature}
    (hload : f.signatures = loadSignatures content) (h : f.matchSignature text = some sig) :
    sig.severity ≠ [] ∧ f.empty = false := by
  have hmem : sig ∈ f.signatures := List.mem_of_find?_eq_some h
  refine ⟨loaded_named (hload ▸ hmem), ?_⟩
  have hsigs : f.signatures.isEmpty = false :=
    List.isEmpty_eq_false_iff.2 (List.ne_nil_of_mem hmem)
  rw [ThreatFeed.empty, hsigs, Bool.and_false]

/-- A live filter pushes what a signature matches, under the rule's threat type. -/
theorem live_pushed {e : Worker.Env} {content : Bytes} {flow : FlowData} {sig : ContentSignature}
    (hload : e.threatFeed.signatures = loadSignatures content) (hlive : e.cfg.forensic = false)
    (hne : flow.reassembledPayload ≠ [])
    (htls : parseTlsClientHello flow.reassembledPayload = none)
    (hsig : e.threatFeed.matchSignature (normalizePayload flow.reassembledPayload) = some sig)
    (s : Books) : ((Accounting.workerRound e flow).run s).2.outputQueue =
      s.outputQueue ++ [({ Worker.canonicalize flow with protocolTag := sig.severity }, 2)] := by
  obtain ⟨hnamed, hfeed⟩ := match_loaded hload hsig
  have hhit : Worker.feedHit e (Worker.canonicalize flow) =
      some { Worker.canonicalize flow with protocolTag := sig.severity } := by
    unfold Worker.feedHit
    rw [hfeed, if_neg Bool.false_ne_true, show (Worker.canonicalize flow).normalizedPayload =
      normalizePayload flow.reassembledPayload from rfl, hsig]
    simp only [hlive, Bool.false_eq_true, if_false]
    rfl
  rw [Accounting.workerRound_eq, Escalation.handle_notTls hne htls, Worker.feedStage, hhit]
  show s.outputQueue ++ [(_, Worker.flowPriority _)] = _
  rw [(Accounting.flowPriority_eq_two _).2 (.inl hnamed)]
  rfl

/-! ## Every name becomes one alert -/

/-- The calls of the LLM worker for tagged flows are these flows, one call
each with its tag, whatever the limits, the model and the other flows are; no
more flows are inferred than the budget allows; and what a live filter
matches with a loaded signature leaves it under the rule's threat type, in
whatever state the filter is. -/
theorem named_alerted (e : Env) (flows : List FlowData) :
    namedCalls (worker e flows) = (flows.filter isNamed).map
      (fun flow => (flow, some flow.protocolTag)) ∧
    (0 < e.maxLlmFlows → (worker e flows).inferred.length ≤ e.maxLlmFlows) ∧
    ∀ (f : Worker.Env) (content : Bytes) (flow : FlowData) (sig : ContentSignature) (s : Books),
      f.threatFeed.signatures = loadSignatures content → f.cfg.forensic = false →
      flow.reassembledPayload ≠ [] → parseTlsClientHello flow.reassembledPayload = none →
      f.threatFeed.matchSignature (normalizePayload flow.reassembledPayload) = some sig →
      sig.severity ≠ [] ∧ ((Accounting.workerRound f flow).run s).2.outputQueue =
        s.outputQueue ++ [({ Worker.canonicalize flow with protocolTag := sig.severity }, 2)] := by
  refine ⟨worker_named e flows, (worker_metered e flows).2, ?_⟩
  intro f content flow sig s hload hlive hne htls hsig
  exact ⟨(match_loaded hload hsig).1, live_pushed hload hlive hne htls hsig s⟩

/-- One flow of a miner, and a budget of one. -/
def miner : FlowData := { id := Escalation.client, reassembledPayload := lit "mining.subscribe" }

theorem named_alerted_miner :
    (worker { maxLlmFlows := 1, generate := id } [miner, miner]).inferred.length ≤ 1 ∧
    ((Accounting.workerRound { Escalation.plainEnv with
        threatFeed := { signatures := loadSignatures cryptominingRules } } miner).run
          {}).2.outputQueue =
      [({ Worker.canonicalize miner with protocolTag := lit "Cryptominer Traffic" }, 2)] := by
  have h := named_alerted { maxLlmFlows := 1, generate := id } [miner, miner]
  exact ⟨h.2.1 (by decide), (h.2.2 { Escalation.plainEnv with
    threatFeed := { signatures := loadSignatures cryptominingRules } } cryptominingRules miner
    ⟨lit "Stratum mining.subscribe", lit "Cryptominer Traffic", lit "mining.subscribe"⟩ {} rfl rfl
    (by decide) (by decide) (by decide)).2⟩

end Wirewolf.L4.NamedAlert
