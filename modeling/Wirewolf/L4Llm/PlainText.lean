import Wirewolf.L4Llm.NamedAlert

/-!
# Evidence in plain text

The last gate of `is_false_positive` asks a snippet for a character of an
injection syntax. It is applied to every threat type but two, although the
prompt lists many more whose indicators are words, and answers with words
in its own examples.

* `isFalsePositive_iff`: what a verdict on a client's flow must show.
* `reported_iff`: so the worker reports such a verdict exactly when its
  snippet has attack syntax, or its type is one of the two, and the snippet
  does not stand in response headers only.
* `miner_suppressed`: the prompt's own answer on a cryptominer.
-/
namespace Wirewolf.L4.PlainText

open Wirewolf.Search Wirewolf.L1.IpPacket Wirewolf.L1.Severity Wirewolf.L1.Verdict
open Wirewolf.L1.AlertJson Wirewolf.L4.Prompt Wirewolf.L4.LlmWorker Wirewolf.L4.NamedAlert
open Wirewolf.L4.Detectors (bswap16)

/-- The types below the headings of the prompt that follow the web attacks
and the known exploits: malware, data theft, authentication, denial of
service, reconnaissance, network.
mirrors src/src/llm_inference.cpp:624-764 -/
def nonInjection : List Bytes := threatTypes.drop 25

example : nonInjection.head? = some (lit "RAT C2") ∧ nonInjection.length = 34 := by decide

/-- The model's verdict on a client's flow, with a snippet that stands in the
text as it was shown and is no benign header. -/
structure Evidence (e : Env) (flow : FlowData) (threatType severity snippet : Bytes) : Prop where
  answer : verdict (e.generate (prompt e flow)) = .fields threatType severity snippet
  fromClient : isServerPort (bswap16 flow.id.srcPort) = false
  verbatim : containsSub (payloadStr e.payloadCharLimit flow) snippet = true
  noHeader : ∀ header ∈ benignHeaders, header.isPrefixOf snippet = false

/-- The flow is shown to the model.
mirrors src/src/llm_inference.cpp:1284-1562 -/
structure Shown (e : Env) (s : Log) (flow : FlowData) : Prop where
  payload : flow.reassembledPayload ≠ []
  untagged : flow.protocolTag = []
  text : isBinary e flow = false
  budget : ¬ (0 < e.maxLlmFlows ∧ e.maxLlmFlows ≤ s.llmRuns)

/-- What the gates ask for. -/
structure Passes (payload threatType snippet : Bytes) : Prop where
  outside : onlyInHeaders payload snippet = false
  syntactic : threatType = lit "Data Exfiltration" ∨ threatType = lit "Credential Theft" ∨
    hasAttackSyntax snippet = true

section

variable {e : Env} {flow : FlowData} {threatType severity snippet : Bytes}

theorem verdict_fields {answer : Bytes} (h : verdict answer = .fields threatType severity snippet) :
    snippet ≠ [] := by
  unfold verdict at h
  dsimp only at h
  split at h
  · cases h
  · split at h
    · cases h
    · next hfields =>
      cases h
      simp only [Bool.or_eq_true, not_or, List.isEmpty_iff] at hfields
      exact hfields.2

theorem isFalsePositive_iff (h : Evidence e flow threatType severity snippet) :
    isFalsePositive threatType snippet (payloadStr e.payloadCharLimit flow) flow = false ↔
      Passes (payloadStr e.payloadCharLimit flow) threatType snippet := by
  have hbenign : ¬ (benignHeaders.any fun header => header.isPrefixOf snippet) = true := by
    rw [List.any_eq_true]
    intro hany
    obtain ⟨header, hmem, hprefix⟩ := hany
    rw [h.noHeader header hmem] at hprefix
    cases hprefix
  unfold isFalsePositive
  rw [if_neg hbenign, h.fromClient, Bool.false_and, if_neg Bool.false_ne_true]
  constructor
  · intro hpass
    split at hpass
    · cases hpass
    · next hout =>
      refine ⟨by simpa using hout, ?_⟩
      split at hpass
      · next hexempt =>
        rw [Bool.or_eq_true, decide_eq_true_eq, decide_eq_true_eq] at hexempt
        exact hexempt.elim .inl fun h => .inr (.inl h)
      · exact .inr (.inr (by simpa using hpass))
  · intro hpass
    rw [hpass.outside, if_neg Bool.false_ne_true]
    split
    · rfl
    · next hexempt =>
      rw [Bool.or_eq_true, decide_eq_true_eq, decide_eq_true_eq, not_or] at hexempt
      have hmarks := (hpass.syntactic.resolve_left hexempt.1).resolve_left hexempt.2
      rw [hmarks]
      rfl

/-- A snippet that stands in the text passes the check against fabrication. -/
theorem containsSnippet (h : Evidence e flow threatType severity snippet) :
    payloadContainsSnippet (payloadStr e.payloadCharLimit flow) snippet = true := by
  have hsnippet : snippet.isEmpty = false := List.isEmpty_eq_false_iff.2 (verdict_fields h.answer)
  have hpayload : (payloadStr e.payloadCharLimit flow).isEmpty = false := by
    rw [List.isEmpty_eq_false_iff]
    intro hnil
    have hsub := h.verbatim
    rw [hnil, containsSub_iff] at hsub
    exact verdict_fields h.answer (List.infix_nil.1 hsub)
  rw [payloadContainsSnippet, hsnippet, hpayload, h.verbatim]
  rfl

/-- What the loop adds to the calls for a flow that is shown. -/
theorem shown_calls {s : Log} (h : Shown e s flow) :
    ((workerRound e flow).run s).2.calls = s.calls ++ callsOf flow (classify e flow) := by
  rw [workerRound_eq]
  unfold handle
  rw [if_neg (by simpa using h.payload), if_neg (by simp [h.untagged]),
    if_neg (by rw [h.text]; exact Bool.false_ne_true), if_neg (by simpa using h.budget)]
  rfl

theorem classify_evidence (h : Evidence e flow threatType severity snippet) :
    classify e flow =
      if isFalsePositive threatType snippet (payloadStr e.payloadCharLimit flow) flow then
        .suppressed
      else .alert ⟨threatType, resolveSeverity threatType severity, snippet,
        payloadStr e.payloadCharLimit flow⟩ := by
  unfold classify
  dsimp only
  rw [h.answer]
  dsimp only
  rw [containsSnippet h]
  rfl

/-- The call that reports the verdict. -/
def report (e : Env) (flow : FlowData) (threatType severity snippet : Bytes) : AlertCall :=
  ⟨buildAlertJson threatType (resolveSeverity threatType severity) snippet, flow,
    payloadStr e.payloadCharLimit flow⟩

/-- For every verdict on a client's flow, of whatever type, whose snippet
stands in the text and is no benign header, in every state of the worker: it
is no false positive and reported, exactly when it passes the gates. -/
theorem reported_iff (e : Env) (s : Log) (flow : FlowData) (threatType severity snippet : Bytes)
    (hshown : Shown e s flow) (h : Evidence e flow threatType severity snippet) :
    (isFalsePositive threatType snippet (payloadStr e.payloadCharLimit flow) flow = false ∧
      ((workerRound e flow).run s).2.calls =
        s.calls ++ [report e flow threatType severity snippet]) ↔
      Passes (payloadStr e.payloadCharLimit flow) threatType snippet := by
  rw [← isFalsePositive_iff h]
  refine ⟨fun hreported => hreported.1, fun hpass => ⟨hpass, ?_⟩⟩
  rw [shown_calls hshown, classify_evidence h, hpass]
  rfl

end

/-! ## Inputs -/

/-- A flow from port 49200 of 192.168.1.100. -/
def fromMiner (dstPort : UInt16) (payload : String) : FlowData where
  id := ⟨0x6401A8C0, 0x0A214C2D, bswap16 49200, bswap16 dstPort⟩
  reassembledPayload := lit payload
  packetCount := 3

/-- A model that gives this answer to every prompt. -/
def answering (threatType severity snippet : String) : Env where
  generate _ := render (lit threatType) (lit severity) (lit snippet)

theorem answering_verdict {T S N : String} (flow : FlowData) (hT : lit T ∈ threatTypes)
    (hS : lit S ∈ severities) (hN : lit N ≠ []) (hbrace : 0x7D ∉ lit N) :
    verdict ((answering T S N).generate (prompt (answering T S N) flow)) =
      .fields (lit T) (lit S) (lit N) := by
  have hrender := verdict_render hT hS hN []
  rwa [if_neg hbrace, List.append_nil] at hrender

def miner : FlowData := fromMiner 80
  "\x7b\"id\":1,\"method\":\"mining.subscribe\",\"params\":[\"xmrig/6.18.0\"]\x7d\n"

def minerEnv : Env := answering "Cryptominer Traffic" "High" "mining.subscribe"

/-- The answer that the prompt gives as its example for a cryptominer is a
client's evidence for a type that is no injection, and is suppressed. -/
theorem miner_suppressed :
    Evidence minerEnv miner (lit "Cryptominer Traffic") (lit "High") (lit "mining.subscribe") ∧
      direction (bswap16 miner.id.srcPort) (bswap16 miner.id.dstPort) =
        lit "client -> server (request)" ∧
      lit "Cryptominer Traffic" ∈ nonInjection ∧ Shown minerEnv {} miner ∧
      isFalsePositive (lit "Cryptominer Traffic") (lit "mining.subscribe")
        (payloadStr minerEnv.payloadCharLimit miner) miner = true ∧
      ((workerRound minerEnv miner).run {}).2.calls = [] := by
  have hevidence : Evidence minerEnv miner (lit "Cryptominer Traffic") (lit "High")
      (lit "mining.subscribe") :=
    ⟨answering_verdict miner (List.mem_map_of_mem (by simp)) (List.mem_map_of_mem (by simp))
        (by decide) (by decide),
      by decide, by decide, by decide⟩
  have hshown : Shown minerEnv {} miner :=
    ⟨by decide, rfl, by decide, by decide⟩
  have hfalse : isFalsePositive (lit "Cryptominer Traffic") (lit "mining.subscribe")
      (payloadStr minerEnv.payloadCharLimit miner) miner = true := by decide
  have htype : lit "Cryptominer Traffic" ∈ nonInjection := by
    unfold nonInjection threatTypes
    rw [← List.map_drop]
    exact List.mem_map_of_mem (by simp)
  refine ⟨hevidence, by decide, htype, hshown, hfalse, ?_⟩
  rw [shown_calls hshown, classify_evidence hevidence, hfalse]
  rfl

def bot : FlowData :=
  fromMiner 80 "GET /gate.php?id=7&cmd=poll HTTP/1.1\r\nHost: c2.example\r\n\r\n"

def botEnv : Env := answering "Botnet Communication" "Critical" "/gate.php?id=7&cmd=poll"

theorem reported_iff_bot :
    isFalsePositive (lit "Botnet Communication") (lit "/gate.php?id=7&cmd=poll")
        (payloadStr botEnv.payloadCharLimit bot) bot = false ∧
      ((workerRound botEnv bot).run {}).2.calls = [report botEnv bot (lit "Botnet Communication")
        (lit "Critical") (lit "/gate.php?id=7&cmd=poll")] :=
  (reported_iff botEnv {} bot _ _ _ ⟨by decide, rfl, by decide, by decide⟩
    ⟨answering_verdict bot (List.mem_map_of_mem (by simp)) (List.mem_map_of_mem (by simp))
        (by decide) (by decide),
      by decide, by decide, by decide⟩).2
    ⟨by decide, .inr (.inr (by decide))⟩

end Wirewolf.L4.PlainText
