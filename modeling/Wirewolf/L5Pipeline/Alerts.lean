import Wirewolf.L4Llm.Worker

/-!
# Alert callback (`PipelineController`)

The LLM stage hands an alert over as a text; the pipeline parses it back and
delivers a `ThreatAlert`. The severity is not parsed: it is looked up again
in the curated table, by the type.

* `severity_extracted`: the lookup is not disturbed by what a type's bytes
  become on the way.
* `delivered_iff`: the severities agree exactly where the LLM stage has not
  decided against the curated table.
-/
namespace Wirewolf.L5.Alerts

open Wirewolf.L1.IpPacket Wirewolf.L1.Severity Wirewolf.L1.Verdict Wirewolf.L1.AlertJson
open Wirewolf.L4.Prompt Wirewolf.L4.LlmWorker
open Wirewolf.L1.Normalizer (toLower)

/-- mirrors src/include/wirewolf_types.hpp:404-414 -/
structure ThreatAlert where
  connection : ConnectionId
  threatType : Bytes
  severity : Bytes
  severityInfo : SeverityInfo
  snippet : Bytes
  rawLlmOutput : Bytes
  payloadText : Bytes
  confidence : Float32

/-- What the callback delivers, and the source it blocks in inline mode.
mirrors src/src/pipeline_controller.cpp:172-231 -/
def onAlert (inlineBlock : Bool) (llmOutput : Bytes) (flow : FlowData) (payloadText : Bytes) :
    ThreatAlert × Option UInt32 :=
  let threatType := extract llmOutput (lit "threat_type")
  let severityInfo := severityForThreat threatType
  ({ connection := flow.id
     threatType := threatType
     severity := severityInfo.label
     severityInfo := severityInfo
     snippet := extract llmOutput (lit "snippet")
     rawLlmOutput := llmOutput
     payloadText := payloadText
     confidence := confidenceFor severityInfo false },
    if inlineBlock then some flow.id.srcIp else none)

/-! ## The lookup -/

/-- The types of the table are read back as they are, and none holds the
digit that every `\u` escape of a control byte has. -/
theorem table_keys : ∀ e ∈ severityTable, ∀ c ∈ e.1, 0x20 ≤ c ∧ c ≠ 0x30 := by
  have h : ((severityTable.map Prod.fst).all fun k => k.all fun c => decide (0x20 ≤ c ∧ c ≠ 0x30)) =
      true := by decide
  intro e he c hc
  exact of_decide_eq_true
    (List.all_eq_true.1 (List.all_eq_true.1 h e.1 (List.mem_map_of_mem he)) c hc)

theorem severityForThreat_unknown {t : Bytes} (h : ∀ e ∈ severityTable, e.1 ≠ t) :
    severityForThreat t = ⟨.medium, 5.0⟩ := by
  have hnone : severityTable.lookup t = none := by
    rw [List.lookup_eq_none_iff]
    intro e he
    simpa using (h e he).symm
  rw [severityForThreat, hnone]

theorem severity_extracted (t : Bytes) :
    severityForThreat (t.flatMap readBack) = severityForThreat t := by
  by_cases h : Readable t
  · rw [readBack_eq_iff.2 h]
  · have hzero : 0x30 ∈ t.flatMap readBack := by
      unfold Readable at h
      obtain ⟨c, hc⟩ := Classical.not_forall.1 h
      obtain ⟨hc, hctl⟩ := Classical.not_imp.1 hc
      refine List.mem_flatMap.2 ⟨c, hc, ?_⟩
      rw [readBack, if_neg hctl]
      simp
    rw [severityForThreat_unknown, severityForThreat_unknown]
    · rintro e he rfl
      exact h fun c hc => .inl (table_keys e he c hc).1
    · intro e he heq
      rw [← heq] at hzero
      exact (table_keys e he _ hzero).2 rfl

/-- The delivered severity is the curated one, whatever was decided before. -/
theorem delivered_severity (inlineBlock : Bool) (flow : FlowData) (a : Alert) :
    (onAlert inlineBlock a.json flow a.payloadText).1.severityInfo =
      severityForThreat a.threatType := by
  rw [onAlert, Alert.json, extract_threatType]
  exact severity_extracted a.threatType

/-! ## What the LLM stage decides -/

/-- The token asks for a level below the curated one. -/
def Downgraded (threatType token : Bytes) : Prop :=
  ∃ want, wanted (token.map toLower) = some want ∧
    want.toNat < (severityForThreat threatType).level.toNat

/-- An honoured token sets the level. -/
theorem wanted_level {s : Bytes} {want : L1.Severity} (h : wanted s = some want)
    (hne : want ≠ .info) :
    (severityFromString s).level = want := by
  unfold wanted at h
  split at h
  · next hs => cases h; rw [hs]; decide
  · split at h
    · next hs => cases h; rw [hs]; decide
    · split at h
      · next hs => cases h; rw [hs]; decide
      · split at h
        · next hs => cases h; rw [hs]; decide
        · split at h
          · cases h; exact absurd rfl hne
          · cases h

theorem resolveSeverity_eq_iff (threatType token : Bytes) :
    severityForThreat threatType = resolveSeverity threatType token ↔
    ¬ Downgraded threatType token := by
  unfold resolveSeverity Downgraded
  dsimp only
  cases hw : wanted (token.map toLower) with
  | none => simp
  | some want =>
    dsimp only
    by_cases hlt : want.toNat < (severityForThreat threatType).level.toNat
    · rw [if_pos hlt]
      refine iff_of_false (fun heq => ?_) fun hn => hn ⟨want, rfl, hlt⟩
      have hlevel : (severityForThreat threatType).level = want := by
        rw [heq]
        split
        · next hi => exact hi.symm
        · next hi => exact wanted_level hw hi
      rw [hlevel] at hlt
      exact Nat.lt_irrefl _ hlt
    · rw [if_neg hlt]
      refine iff_of_true rfl ?_
      intro hx
      obtain ⟨w, hs, hw'⟩ := hx
      cases hs
      exact hlt hw'

/-- A transfer whose payload is taken for a contact list. -/
def ContactList (flow : FlowData) : Prop :=
  isTransfer flow.protocolTag = true ∧ (transferSnippet flow.reassembledPayload).2 = true

instance (flow : FlowData) : Decidable (ContactList flow) := inferInstanceAs (Decidable (_ ∧ _))

theorem tagged_contactList {flow : FlowData} (h : ContactList flow) :
    (tagged flow).1 = ⟨.high, 8.7⟩ := by
  have hno : flow.protocolTag ≠ lit "Heartbleed" := by
    intro he
    have := h.1
    rw [he] at this
    exact absurd this (by decide)
  unfold tagged
  dsimp only
  rw [if_neg hno, if_pos h.1, h.2]
  rfl

theorem tagged_curated {flow : FlowData} (h : ¬ ContactList flow) :
    (tagged flow).1 = severityForThreat flow.protocolTag := by
  unfold tagged
  dsimp only
  split
  · rfl
  · split
    · next ht =>
      have hf : (transferSnippet flow.reassembledPayload).2 = false :=
        Bool.eq_false_iff.2 fun hf => h ⟨ht, hf⟩
      rw [hf]; rfl
    · split
      · rfl
      · split
        · rfl
        · split
          · rfl
          · split <;> rfl

theorem transfer_level {tag : Bytes} (h : isTransfer tag = true) :
    (severityForThreat tag).level ≠ .high := by
  unfold isTransfer at h
  rw [Bool.or_eq_true, decide_eq_true_eq, decide_eq_true_eq] at h
  rcases h with rfl | rfl
  · decide
  · decide

/-- The LLM stage stays with the curated table on this flow. -/
def Curated (e : Env) (flow : FlowData) : Prop :=
  if flow.protocolTag ≠ [] then ¬ ContactList flow
  else ∀ threatType token snippet,
    verdict (e.generate (prompt e flow)) = .fields threatType token snippet →
    ¬ Downgraded threatType token

/-- The delivered severity is the one in the alert's object exactly when the
LLM stage has not decided against the curated table. -/
theorem delivered_iff (e : Env) (llmRuns : Nat) (flow : FlowData) (inlineBlock : Bool) (a : Alert)
    (h : (handle e llmRuns flow).2 = .alert a) :
    (onAlert inlineBlock a.json flow a.payloadText).1.severityInfo = a.sev ↔ Curated e flow := by
  rw [delivered_severity]
  unfold handle at h
  split at h
  · cases h
  · split at h
    · next htag =>
      have hne : flow.protocolTag ≠ [] := by
        intro he
        rw [he] at htag
        cases htag
      cases h
      rw [Curated, if_pos hne, taggedAlert]
      dsimp only
      by_cases hc : ContactList flow
      · rw [tagged_contactList hc]
        refine iff_of_false (fun heq => ?_) (not_not_intro hc)
        exact transfer_level hc.1 (by rw [heq])
      · rw [tagged_curated hc]
        exact iff_of_true rfl hc
    · next htag =>
      have he : flow.protocolTag = [] := by
        simpa using htag
      split at h
      · cases h
      · split at h
        · cases h
        · rw [Curated, if_neg (not_not_intro he)]
          dsimp only at h
          unfold classify at h
          dsimp only at h
          cases hv : verdict (e.generate (prompt e flow)) with
          | benign => rw [hv] at h; cases h
          | missing => rw [hv] at h; cases h
          | fields threatType token snippet =>
            rw [hv] at h
            dsimp only at h
            split at h
            · cases h
            · split at h
              · cases h
              · cases h
                rw [resolveSeverity_eq_iff]
                constructor
                · rintro hn _ _ _ heq
                  cases heq
                  exact hn
                · exact fun hall => hall _ _ _ rfl

/-- A model that calls every flow an injection of the given severity. -/
def injectionModel (severity : Bytes) : Env where
  generate := fun _ => lit "\"threat_type\": \"SQLi\", \"severity\": \"" ++ severity ++
    lit "\", \"snippet\": \"1' or 1=1\"\x7d"

def loginFlow : FlowData :=
  { id := ⟨0, 0, 0x39C3, 0x5000⟩, reassembledPayload := lit "GET /?id=1' or 1=1 HTTP/1.0" }

/-- The alert of the injection with the given severity. -/
def loginAlert (sev : SeverityInfo) : Alert :=
  ⟨lit "SQLi", sev, lit "1' or 1=1", lit "GET /?id=1' or 1=1 HTTP/1.0"⟩

theorem injection_verdict {severity : Bytes} (h : severity ∈ severities) (text : Bytes) :
    verdict ((injectionModel severity).generate text) =
      .fields (lit "SQLi") severity (lit "1' or 1=1") := by
  have htype : lit "\"threat_type\": \"" ++ lit "SQLi" ++ lit "\", \"severity\": \"" =
      lit "\"threat_type\": \"SQLi\", \"severity\": \"" := by decide
  have hsnippet : lit "\", \"snippet\": \"" ++ (escape (lit "1' or 1=1") ++ lit "\"\x7d") =
      lit "\", \"snippet\": \"1' or 1=1\"\x7d" := by decide
  have htext : (injectionModel severity).generate text =
      render (lit "SQLi") severity (lit "1' or 1=1") ++ [] := by
    rw [List.append_nil, render, htype, List.append_assoc, List.append_assoc, hsnippet]
    rfl
  rw [htext, verdict_render (List.mem_map_of_mem (by simp)) h (by decide),
    if_neg (by decide)]

theorem login_alert {severity : Bytes} (h : severity ∈ severities) :
    (handle (injectionModel severity) 0 loginFlow).2 =
      .alert (loginAlert (resolveSeverity (lit "SQLi") severity)) := by
  have hbinary : isBinary (injectionModel []) loginFlow = false := by decide
  have hpayload : payloadStr 2048 loginFlow = lit "GET /?id=1' or 1=1 HTTP/1.0" := by decide
  have hshown : payloadContainsSnippet (lit "GET /?id=1' or 1=1 HTTP/1.0")
      (lit "1' or 1=1") = true ∧
        isFalsePositive (lit "SQLi") (lit "1' or 1=1")
          (lit "GET /?id=1' or 1=1 HTTP/1.0") loginFlow = false := by decide
  have hclassify : classify (injectionModel severity) loginFlow =
      .alert (loginAlert (resolveSeverity (lit "SQLi") severity)) := by
    rw [classify, injection_verdict h]
    simp only [show (injectionModel severity).payloadCharLimit = 2048 from rfl, hpayload, hshown]
    rfl
  rw [handle, if_neg (by decide +kernel), if_neg (by decide),
    show isBinary (injectionModel severity) loginFlow = false from hbinary]
  exact hclassify

def contactFlow : FlowData :=
  { id := ⟨0, 0, 0x39C3, 0x1500⟩, protocolTag := lit "Suspicious Transfer"
    reassembledPayload := lit "a@b.c d@e.f " }

/-- A downgrade to Low is delivered as Critical, and a contact list of level
High as Medium. -/
theorem downgrade_undone :
    (handle (injectionModel (lit "Low")) 0 loginFlow).2 = .alert (loginAlert ⟨.low, 2.0⟩) ∧
    (onAlert false (loginAlert ⟨.low, 2.0⟩).json loginFlow []).1.severityInfo = ⟨.critical, 9.3⟩ ∧
    (onAlert false (loginAlert ⟨.low, 2.0⟩).json loginFlow []).1.severityInfo ≠ ⟨.low, 2.0⟩ ∧
    (taggedAlert (injectionModel []) contactFlow).sev = ⟨.high, 8.7⟩ ∧
    (onAlert false (taggedAlert (injectionModel []) contactFlow).json contactFlow
      []).1.severityInfo =
      ⟨.medium, 5.3⟩ := by
  have hlow : resolveSeverity (lit "SQLi") (lit "Low") = ⟨.low, 2.0⟩ := by decide
  have hcritical : severityForThreat (lit "SQLi") = ⟨.critical, 9.3⟩ := by decide
  have hmedium : severityForThreat (lit "Suspicious Transfer") = ⟨.medium, 5.3⟩ := by decide
  have hdelivered : (onAlert false (loginAlert ⟨.low, 2.0⟩).json loginFlow []).1.severityInfo =
      ⟨.critical, 9.3⟩ := hcritical ▸ delivered_severity false loginFlow (loginAlert ⟨.low, 2.0⟩)
  refine ⟨hlow ▸ login_alert (List.mem_map_of_mem (by simp)), hdelivered, ?_, by decide, ?_⟩
  · rw [hdelivered]; decide
  · exact (delivered_severity false contactFlow (taggedAlert (injectionModel []) contactFlow)).trans
      hmedium

theorem delivered_critical :
    (onAlert false (loginAlert ⟨.critical, 9.3⟩).json loginFlow
      (loginAlert ⟨.critical, 9.3⟩).payloadText).1.severityInfo = ⟨.critical, 9.3⟩ := by
  have hrun : (handle (injectionModel (lit "Critical")) 0 loginFlow).2 =
      .alert (loginAlert ⟨.critical, 9.3⟩) :=
    have hkept : resolveSeverity (lit "SQLi") (lit "Critical") = ⟨.critical, 9.3⟩ := by
      decide
    hkept ▸ login_alert (List.mem_map_of_mem (by simp))
  apply (delivered_iff (injectionModel (lit "Critical")) 0 loginFlow false _ hrun).2
  rw [Curated, if_neg (by decide)]
  intro threatType token snippet h
  rw [injection_verdict (List.mem_map_of_mem (by simp))] at h
  cases h
  rw [← resolveSeverity_eq_iff]
  decide

end Wirewolf.L5.Alerts
