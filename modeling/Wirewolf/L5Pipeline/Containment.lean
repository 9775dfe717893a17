import Wirewolf.L5Pipeline.Detection

/-!
# What the language model can bring about

The model answers to text that an attacker has written, so nothing is assumed
of its answers (`Env.generate`). The stage behind it decides what becomes of
them, and whatever the answers and the schedule are, an alert of that stage
quotes the traffic of its own flow.

* `calls_sublist`: no flow has more than one alert of this stage.
* `grounded_of_classify`: what an answer has to be to become an alert.
* `contained`: in every state of the pipeline.

Only the alerts of this stage are counted; the sensor of the same analysis may
raise others for the same connection.
-/
namespace Wirewolf.L5.Containment

open Wirewolf.L1.IpPacket Wirewolf.L1.AlertJson Wirewolf.L1.Verdict Wirewolf.L1.Severity
open Wirewolf.L1.Normalizer (toLower)
open Wirewolf.L4.Detectors (bswap16)
open Wirewolf.L4.LlmWorker Wirewolf.L4.NamedAlert
open Wirewolf.L4.Prompt (isServerPort payloadStr)
open Wirewolf.L4.Escalation (plainEnv)
open Wirewolf.L4.Worker (canonicalize)
open Wirewolf.L5.Detection Wirewolf.L5.Offline Wirewolf.L5.Scheduling Wirewolf.L5.ZeroLoss

/-- The alert is the model's verdict on the flow. It quotes the text, no benign
header begins the quotation, and to a flow from a server port only a
server-side threat is ascribed. -/
structure Grounded (e : Env) (text : Bytes) (call : AlertCall)
    (threatType severity snippet : Bytes) : Prop where
  answer : verdict (e.generate (prompt e call.flow)) = .fields threatType severity snippet
  result : call.result = buildAlertJson threatType (resolveSeverity threatType severity) snippet
  shown : call.payloadStr = text
  quoted : snippet ≠ [] ∧ (snippet <:+: text ∨ snippet.map toLower <:+: text.map toLower)
  noHeader : ∀ header ∈ benignHeaders, ¬ header <+: snippet
  fromServer : isServerPort (bswap16 call.flow.id.srcPort) = true → threatType ∈ serverThreats
  attack : threatType = lit "Data Exfiltration" ∨ threatType = lit "Credential Theft" ∨
    hasAttackSyntax snippet = true

theorem quoted_of_contains {payload snippet : Bytes}
    (h : payloadContainsSnippet payload snippet = true) :
    snippet ≠ [] ∧ (snippet <:+: payload ∨ snippet.map toLower <:+: payload.map toLower) := by
  unfold payloadContainsSnippet at h
  split at h
  · cases h
  · next hempty =>
    have hne : snippet ≠ [] := by
      intro hnil
      exact hempty (by simp [hnil])
    refine ⟨hne, ?_⟩
    rwa [Bool.or_eq_true, Search.containsSub_iff, Search.containsSub_iff] at h

/-- The checks of a verdict, one after the other. -/
theorem checked {threatType snippet payload : Bytes} {flow : FlowData}
    (h : isFalsePositive threatType snippet payload flow = false) :
    (∀ header ∈ benignHeaders, ¬ header <+: snippet) ∧
    (isServerPort (bswap16 flow.id.srcPort) = true → threatType ∈ serverThreats) ∧
    (threatType = lit "Data Exfiltration" ∨ threatType = lit "Credential Theft" ∨
      hasAttackSyntax snippet = true) := by
  unfold isFalsePositive at h
  split at h
  · cases h
  next hheader =>
  split at h
  · cases h
  split at h
  · cases h
  next hserver =>
  refine ⟨fun header hmem hpre => hheader ?_, fun hport => ?_, ?_⟩
  · exact List.any_eq_true.2 ⟨header, hmem, List.isPrefixOf_iff_prefix.2 hpre⟩
  · by_contra hother
    exact hserver (by simp [hport, hother])
  · split at h
    · next hexempt =>
      have hor : threatType = lit "Data Exfiltration" ∨ threatType = lit "Credential Theft" := by
        simpa using hexempt
      exact hor.imp_right .inl
    · exact .inr (.inr (by simpa using h))

theorem grounded_of_classify {e : Env} {flow : FlowData} {a : Alert}
    (h : classify e flow = .alert a) :
    ∃ threatType severity snippet, Grounded e (payloadStr e.payloadCharLimit flow)
      ⟨a.json, flow, a.payloadText⟩ threatType severity snippet := by
  unfold classify at h
  dsimp only at h
  split at h
  · cases h
  · cases h
  next threatType severity snippet hverdict =>
  split at h
  · cases h
  next hcontains =>
  split at h
  · cases h
  next hfalse =>
  cases h
  obtain ⟨hheader, hserver, hattack⟩ := checked (Bool.eq_false_iff.2 hfalse)
  exact ⟨threatType, severity, snippet, hverdict, rfl, rfl,
    quoted_of_contains (by simpa using hcontains),
    hheader, hserver, hattack⟩

/-- A flow that an earlier stage has named is not shown to the model. -/
theorem handle_cases (e : Env) (n : Nat) (flow : FlowData) :
    ∀ call ∈ callsOf flow (handle e n flow).2,
    flow.reassembledPayload ≠ [] ∧
      if flow.protocolTag = [] then
        ∃ threatType severity snippet,
          Grounded e (payloadStr e.payloadCharLimit flow) call threatType severity snippet
      else call = ⟨(taggedAlert e flow).json, flow, (taggedAlert e flow).payloadText⟩ := by
  intro call hcall
  unfold handle at hcall
  split at hcall
  · cases hcall
  next hempty =>
  refine ⟨fun hnil => hempty (by simp [hnil]), ?_⟩
  split at hcall
  · next htag =>
    rw [if_neg (by simpa using htag)]
    exact List.mem_singleton.1 hcall
  next htag =>
  rw [if_pos (by simpa using htag)]
  split at hcall
  · cases hcall
  split at hcall
  · split at hcall <;> cases hcall
  cases hout : classify e flow with
  | alert a =>
    rw [hout] at hcall
    rw [List.mem_singleton.1 hcall]
    exact grounded_of_classify hout
  | _ => rw [hout] at hcall; cases hcall

theorem mem_worker {e : Env} {flows : List FlowData} {call : AlertCall}
    (h : call ∈ (worker e flows).calls) :
    ∃ n, ∃ flow ∈ flows, call ∈ callsOf flow (handle e n flow).2 := by
  induction flows using List.reverseRecOn with
  | nil => cases h
  | append_singleton flows flow ih =>
    rw [worker_concat] at h
    rcases List.mem_append.1 h with h | h
    · obtain ⟨n, x, hx, hcall⟩ := ih h
      exact ⟨n, x, List.mem_append_left _ hx, hcall⟩
    · exact ⟨_, flow, by simp, h⟩

/-- No flow has more than one alert. -/
theorem calls_sublist (e : Env) (flows : List FlowData) :
    ((worker e flows).calls.map AlertCall.flow).Sublist flows := by
  induction flows using List.reverseRecOn with
  | nil => exact .slnil
  | append_singleton flows flow ih =>
    rw [worker_concat]
    show (((worker e flows).calls ++ callsOf flow _).map AlertCall.flow).Sublist _
    rw [List.map_append]
    refine ih.append ?_
    cases (handle e (worker e flows).llmRuns flow).2 <;> simp [callsOf]

/-- The calls that the model brought about. -/
def modelCalls (s : Log) : List AlertCall := s.calls.filter fun call => call.flow.protocolTag = []

/-- Each of them was inferred. -/
theorem modelCalls_length (e : Env) (flows : List FlowData) :
    (modelCalls (worker e flows)).length ≤ (worker e flows).inferred.length := by
  induction flows using List.reverseRecOn with
  | nil => exact Nat.le_refl 0
  | append_singleton flows flow ih =>
    rw [worker_concat, Log.enter, modelCalls, List.filter_append, List.length_append,
      List.length_append]
    refine Nat.add_le_add ih ?_
    cases (handle e (worker e flows).llmRuns flow).2 with
    | alert a => by_cases htag : flow.protocolTag = [] <;> simp [callsOf, htag]
    | _ => exact Nat.zero_le _

/-! ## The pipeline -/

/-- The flows that the LLM stage is through with have passed the filter. -/
theorem handledL_subperm {s : State FlowData L4.Worker.State} (h : Inv s) :
    s.handledL.Subperm s.passed := by
  refine List.subperm_ext_iff.2 fun flow _ => ?_
  have hcount := h.2.passed flow
  omega

/-- A flow without what the filter writes into it. -/
def bare (flow : FlowData) : FlowData :=
  { flow with normalizedPayload := [], tlsSni := [], tlsJa3 := [], protocolTag := [] }

theorem bare_looked (x : FlowData) : bare (looked x) = bare x := by
  unfold looked
  split <;> rfl

theorem bare_relabels {x flow : FlowData} (h : Relabels x flow) : bare flow = bare x := by
  obtain ⟨sni, ja3, tag, rfl⟩ := h
  rfl

theorem handle_bare (f : L4.Worker.Env) (w : L4.Worker.State) (flow : FlowData) :
    bare (L4.Worker.handle f w flow).2.flow = bare flow :=
  (bare_relabels (handle_relabels f w flow)).trans (bare_looked flow)

/-- A flow that passes is one that was pushed, looked at and perhaps named. -/
theorem passed_relabels {f : L4.Worker.Env} {w : L4.Worker.State} {xs : List FlowData}
    {flow : FlowData}
    (h : flow ∈ (sequential (npuFilter f) w xs).2) : ∃ x ∈ xs, Relabels (looked x) flow := by
  obtain ⟨w', x, hx, -, rfl⟩ := mem_sequential h
  exact ⟨x, hx, handle_relabels f w' x⟩

section Run

variable {f : L4.Worker.Env} {w : L4.Worker.State} {capacity : Nat} {ls : List (Label FlowData)}
  {s : State FlowData L4.Worker.State}

/-- What the filter has passed, of what it has decided on. -/
theorem passed_decided (hr : (offline (npuFilter f)).Run (start capacity w) ls s) :
    decided s <+: pushes ls ∧ s.passed.reverse = (sequential (npuFilter f) w (decided s)).2 := by
  obtain ⟨-, horder, hpushed⟩ := run_spec hr
  exact ⟨⟨_, hpushed ▸ horder.order.symm⟩, by rw [horder.decisions]⟩

theorem handled_passed (hr : (offline (npuFilter f)).Run (start capacity w) ls s) :
    s.handledL.reverse.Subperm s.passed.reverse :=
  ((List.reverse_perm _).subperm.trans (handledL_subperm (run_spec hr).1)).trans
    (List.reverse_perm _).symm.subperm

/-- The alerts are about different flows that were pushed. -/
theorem calls_pushed (hr : (offline (npuFilter f)).Run (start capacity w) ls s) (e : Env) :
    ((worker e s.handledL.reverse).calls.map fun call => bare call.flow).Subperm
    ((pushes ls).map bare) := by
  obtain ⟨hdecided, hpassed⟩ := passed_decided hr
  have hbare : ((sequential (npuFilter f) w (decided s)).2.map bare).Sublist
      ((decided s).map bare) :=
    sequential_sublist (handle_bare f) w (decided s)
  obtain ⟨l, hl, hsub⟩ := (calls_sublist e s.handledL.reverse).subperm.trans (handled_passed hr)
  have hmapped : (((worker e s.handledL.reverse).calls.map AlertCall.flow).map bare).Subperm
      (s.passed.reverse.map bare) :=
    ⟨l.map bare, hl.map _, hsub.map _⟩
  rw [List.map_map, hpassed] at hmapped
  exact (hmapped.trans hbare.subperm).trans (hdecided.sublist.map _).subperm

end Run

/-- Whatever the language model answers, and however the threads are scheduled:
no flow that the reassembler pushed has more than one alert of the LLM stage; the
alerts that the model brings about keep within its budget; and each of them is
its verdict on its own flow and quotes the text of it, while an alert with a
name says what the stage that named it found. -/
theorem contained (f : L4.Worker.Env) (e : Env) {w : L4.Worker.State} {capacity : Nat}
    {ls : List (Label FlowData)} {s : State FlowData L4.Worker.State}
    (hr : (offline (npuFilter f)).Run (start capacity w) ls s) :
    let log := worker e s.handledL.reverse
    (log.calls.map fun call => bare call.flow).Subperm ((pushes ls).map bare) ∧
    (0 < e.maxLlmFlows → (modelCalls log).length ≤ e.maxLlmFlows) ∧
    ∀ call ∈ log.calls, ∃ x ∈ pushes ls, bare call.flow = bare x ∧
      if call.flow.protocolTag = [] then
        ∃ threatType severity snippet,
          Grounded e (payloadStr e.payloadCharLimit (canonicalize x)) call threatType
            severity snippet
      else call.result = (taggedAlert e call.flow).json := by
  intro log
  obtain ⟨hdecided, hpassed⟩ := passed_decided hr
  refine ⟨calls_pushed hr e, fun hpos => ?_, fun call hcall => ?_⟩
  · exact (modelCalls_length e _).trans ((worker_metered e _).2 hpos)
  · obtain ⟨n, flow, hflow, hmem⟩ := mem_worker hcall
    have hpass := (handled_passed hr).subset hflow
    rw [hpassed] at hpass
    obtain ⟨x, hx, hrelabels⟩ := passed_relabels hpass
    obtain ⟨hne, hcase⟩ := handle_cases e n flow call hmem
    have hown : call.flow = flow := callsOf_flow call hmem
    have hbare : bare flow = bare x := (bare_relabels hrelabels).trans (bare_looked x)
    refine ⟨x, hdecided.subset hx, by rw [hown, hbare], ?_⟩
    rw [hown]
    split at hcase
    · next htag =>
      rw [if_pos htag]
      have hpayload : (bare flow).reassembledPayload = (bare x).reassembledPayload := by rw [hbare]
      have htext : payloadStr e.payloadCharLimit flow =
          payloadStr e.payloadCharLimit (canonicalize x) := by
        have hfull : x.reassembledPayload ≠ [] := fun hnil => hne (hpayload.trans hnil)
        obtain ⟨sni, ja3, tag, hlook⟩ := hrelabels
        rw [hlook, looked, if_neg hfull]
        rfl
      rwa [htext] at hcase
    · next htag => rw [if_neg htag, hcase]

/-- A model that says the same of every flow. -/
def insistent : Env where
  generate _ :=
    lit "\"threat_type\":\"SQL Injection\",\"severity\":\"High\",\"snippet\":\"'||'\"\x7d"
  maxLlmFlows := 2

/-- It is believed on the second flow only, where the snippet stands. -/
theorem contained_insistent :
    ∃ s, (offline (npuFilter plainEnv)).Run (start 4 {})
      (drained (quoted "'\x7b\x7d'") (quoted "'||'")) s ∧
      (worker insistent s.handledL.reverse).calls.length = 1 ∧
      ∀ call ∈ (worker insistent s.handledL.reverse).calls,
      ∃ x ∈ [quoted "'\x7b\x7d'", quoted "'||'"],
        bare call.flow = bare x := by
  have hexec : (LTS.exec (State.step (npuFilter plainEnv)) (start 4 {})
      (drained (quoted "'\x7b\x7d'") (quoted "'||'"))).any
      (fun s => decide ((worker insistent s.handledL.reverse).calls.length = 1)) = true := by
        decide +kernel
  obtain ⟨s, hr, hone⟩ := LTS.run_of_exec_any _ hexec
  refine ⟨s, hr, of_decide_eq_true hone, fun call hcall => ?_⟩
  obtain ⟨x, hx, hbare, -⟩ := (contained plainEnv insistent hr).2.2 call hcall
  exact ⟨x, hx, hbare⟩

end Wirewolf.L5.Containment
