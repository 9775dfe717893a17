import Wirewolf.L4Filter.Worker

/-!
# Escalation of de-obfuscated injections

The last stage of the filter looks for injections in the normalized payload
and lets none of them be clobbered by the model's verdict. The stages before
it look at other projections of the flow, and the request-line check of
`detectBenignHttp` is one that drops.

* `escalated_iff`: a text flow with an injection in its normalized payload is
  passed on (or is a duplicate) exactly when the benign-HTTP stage does not
  stop it first.
* `benignHttp_of_line`: that stage looks at the request line alone. Behind a
  clean one, headers and body may hold anything.
-/
namespace Wirewolf.L4.Escalation

open Wirewolf.L1.IpPacket Wirewolf.L1.TlsHello Wirewolf.L4.Detectors
open Wirewolf.L4.Worker

/-- Pushed to the output queue or dropped as a duplicate, and not counted as
benign HTTP or as statistically inconspicuous. -/
structure Escalated (o : Outcome) : Prop where
  kept : o.pushed ≠ none ∨ o.reason = .dedup
  not_dropped : ¬ (o.pushed = none ∧ (o.reason = .benignHttp ∨ o.reason = .statistical))

section Stages

variable {e : Env} {s : State} {flow tagged : FlowData} {reason : Reason} {hash : UInt64}

theorem pass_escalated : Escalated (s.pass flow reason).2 :=
  ⟨.inl (Option.some_ne_none _), fun h => Option.some_ne_none _ h.1⟩

theorem passOnce_escalated : Escalated (s.passOnce hash flow tagged reason).2 := by
  unfold State.passOnce
  split
  · exact ⟨.inr rfl, fun h => by cases h.2 <;> contradiction⟩
  · exact pass_escalated

theorem drop_not_escalated (h : reason ≠ .dedup) : ¬ Escalated (s.drop flow reason).2 := by
  intro he
  cases he.kept with
  | inl hp => exact hp rfl
  | inr hr => exact h hr

/-- Behind all the other stages, an injection in a text payload is escalated. -/
theorem anomalyStage_escalated (htext : isText flow.reassembledPayload = true)
    (hobf : detectObfuscatedInjection flow = true) : Escalated (anomalyStage e s flow).2 := by
  unfold anomalyStage
  simp only [hobf, htext, Bool.true_or, Bool.not_true, Bool.and_false, Bool.false_eq_true, if_false,
    if_true]
  exact passOnce_escalated

variable (e s flow) in
theorem detectorStage_escalated_iff (htext : isText flow.reassembledPayload = true)
    (hspnego : detectSpnego flow = false) (hobf : detectObfuscatedInjection flow = true) :
    Escalated (detectorStage e s flow).2 ↔ ¬ (detectBenignHttp e.before flow = true ∧
      detectHeartbleed flow = false ∧ detectSmbExploit flow = false ∧
      detectHttpBruteforce flow = false) := by
  unfold detectorStage
  split
  · next h => simp [h, passOnce_escalated]
  next hheart =>
  split
  · next h => simp [h, passOnce_escalated]
  next hsmb =>
  rw [if_neg (by rw [hspnego]; exact Bool.false_ne_true)]
  split
  · next h => simp [h, pass_escalated]
  next hbrute =>
  split
  · next hbenign =>
    rw [Bool.not_eq_true] at hheart hsmb hbrute
    exact iff_of_false (drop_not_escalated (by decide)) fun hn => hn ⟨hbenign, hheart, hsmb, hbrute⟩
  · next hbenign =>
    refine iff_of_true ?_ fun h => hbenign h.1
    split
    · exact pass_escalated
    · split
      · exact pass_escalated
      · split
        · exact passOnce_escalated
        · exact anomalyStage_escalated htext hobf

/-- A payload that is no ClientHello reaches the feed, and then the detectors. -/
theorem handle_notTls (hne : flow.reassembledPayload ≠ [])
    (htls : parseTlsClientHello flow.reassembledPayload = none) :
    handle e s flow = feedStage e s.clearFull (canonicalize flow) := by
  have hstage : tlsStage e.threatFeed (canonicalize flow) = (.notTls, canonicalize flow) := by
    have hinsp : inspectTls e.threatFeed (canonicalize flow) = (.notTls, canonicalize flow) := by
      simp only [inspectTls, show (canonicalize flow).reassembledPayload =
        flow.reassembledPayload from rfl, htls]
    unfold tlsStage
    rw [hinsp]
    exact if_neg fun h => by cases h.1
  unfold handle
  rw [if_neg hne]
  simp only [hstage]

end Stages

/-- The benign-HTTP stage stops the flow: its check holds, and no stage
before it decides. -/
def StoppedAsHttp (e : Env) (flow : FlowData) : Prop :=
  detectBenignHttp e.before flow = true ∧ feedHit e (canonicalize flow) = none ∧
    detectHeartbleed flow = false ∧ detectSmbExploit flow = false ∧
    detectHttpBruteforce flow = false

instance (e : Env) (flow : FlowData) : Decidable (StoppedAsHttp e flow) :=
  inferInstanceAs (Decidable (_ ∧ _))

/-- A text flow outside TLS, without a SPNEGO marker, whose normalized payload
holds an injection. -/
structure HiddenInjection (flow : FlowData) : Prop where
  nonempty : flow.reassembledPayload ≠ []
  not_tls : parseTlsClientHello flow.reassembledPayload = none
  text : isText flow.reassembledPayload = true
  no_spnego : detectSpnego flow = false
  injection : detectObfuscatedInjection (canonicalize flow) = true

theorem escalated_iff (e : Env) (s : State) (flow : FlowData) (h : HiddenInjection flow) :
    Escalated (handle e s flow).2 ↔ ¬ StoppedAsHttp e flow := by
  rw [handle_notTls h.nonempty h.not_tls, feedStage]
  cases hf : feedHit e (canonicalize flow) with
  | some flow' => exact iff_of_true pass_escalated fun hm => by cases hf.symm.trans hm.2.1
  | none =>
    have hd := detectorStage_escalated_iff e s.clearFull (canonicalize flow) h.text h.no_spnego
      h.injection
    exact hd.trans (not_congr ⟨fun hm => ⟨hm.1, hf, hm.2⟩, fun hm => ⟨hm.1, hm.2.2⟩⟩)

/-! ## What the benign-HTTP stage looks at -/

theorem firstLine_isPrefix (before : UInt8) {line : Bytes} (h : 0x0D ∉ line) (rest : Bytes) :
    firstLine before (line ++ 0x0D :: rest) <+: line := by
  unfold firstLine
  generalize (Search.indexOf [before, 0x0D, 0x0A, 0x0D] (line ++ 0x0D :: rest)).getD
    (line ++ 0x0D :: rest).length = n
  by_cases hn : line.length < n
  · obtain ⟨k, rfl⟩ : ∃ k, n = line.length + (k + 1) := ⟨n - line.length - 1, by omega⟩
    have hreq : (line ++ 0x0D :: rest).take (line.length + (k + 1)) =
        line ++ 0x0D :: rest.take k := by
      rw [List.take_length_add_append, List.take_succ_cons]
    simp only [hreq, Search.indexOf_char h, List.take_left']
    exact List.prefix_refl _
  · have hreq : (line ++ 0x0D :: rest).take n = line.take n :=
      List.take_append_of_le_length (by omega)
    have hcr : 0x0D ∉ line.take n := fun hm => h (List.mem_of_mem_take hm)
    simp only [hreq, Search.indexOf_char_none hcr]
    split
    · exact (List.take_prefix _ _).trans (List.take_prefix _ _)
    · exact List.take_prefix _ _

/-- Behind a request line without a raw marker, anything passes as benign. -/
theorem benignHttp_of_line (before : UInt8) (id : ConnectionId) {line : Bytes}
    (hlen : 16 ≤ line.length) (hreq : isRequest line = true) (hcr : 0x0D ∉ line)
    (hclean : ∀ m ∈ injectionMarkers, ¬ m <:+: line) (rest : Bytes) :
    detectBenignHttp before { id := id, reassembledPayload := line ++ 0x0D :: rest } = true := by
  have hreq' : isRequest (line ++ 0x0D :: rest) = true := by
    unfold isRequest
    rwa [List.take_append_of_le_length (by omega), List.take_append_of_le_length (by omega)]
  have hmark : (injectionMarkers.any fun m =>
      Search.containsSub (firstLine before (line ++ 0x0D :: rest)) m) = false := by
    rw [List.any_eq_false]
    intro m hm hc
    exact hclean m hm
      ((Search.containsSub_iff.1 hc).trans (firstLine_isPrefix before hcr rest).isInfix)
  simp only [detectBenignHttp, hreq', hmark, List.length_append, Bool.not_true, Bool.not_false]
  rw [if_neg (by omega), if_neg Bool.false_ne_true]

/-! ## Inputs -/

/-- A filter without rules, models and special configuration. -/
def plainEnv : Env where
  cfg := ⟨false, 7, 1, 50000, 1 / 2000, 50, 512, 1 / 2⟩
  threatFeed := {}
  hash16 := UInt16.toUInt64
  hash32 := UInt32.toUInt64
  hash64 := id
  entropy := fun _ => 4
  toFloat := id
  infer := none
  before := 0

def client : ConnectionId := ⟨0x0100000A, 0x0200000A, 0x3930, 0x5000⟩

def inRequestLine : FlowData :=
  { id := client, reassembledPayload :=
      lit "GET /search?q=%75nion%20select HTTP/1.0\r\nHost: a\r\n\r\n" }

def inHeader : FlowData :=
  { id := client, reassembledPayload :=
      lit "GET /index.html HTTP/1.0\r\nCookie: id=1+union+select\r\n\r\n" }

def inBody : FlowData :=
  { id := client, reassembledPayload :=
      lit "POST /form HTTP/1.0\r\nHost: a\r\n\r\nq=union%20select" }

/-- A hidden injection that the benign-HTTP stage drops. -/
def Masked (flow : FlowData) : Prop :=
  HiddenInjection flow ∧ (handle plainEnv {} flow).2.reason = .benignHttp ∧
    ¬ Escalated (handle plainEnv {} flow).2

theorem injection_masked : Masked inRequestLine ∧ Masked inHeader ∧ Masked inBody := by
  have hrun : ∀ flow ∈ [inRequestLine, inHeader, inBody],
      (flow.reassembledPayload ≠ [] ∧ parseTlsClientHello flow.reassembledPayload = none ∧
        isText flow.reassembledPayload = true ∧ detectSpnego flow = false ∧
        detectObfuscatedInjection (canonicalize flow) = true) ∧
      (handle plainEnv {} flow).2.reason = .benignHttp ∧
      (handle plainEnv {} flow).2.pushed = none := by decide +kernel
  have hmasked : ∀ flow ∈ [inRequestLine, inHeader, inBody], Masked flow := by
    intro flow hmem
    obtain ⟨⟨h₁, h₂, h₃, h₄, h₅⟩, hreason, hpushed⟩ := hrun flow hmem
    exact ⟨⟨h₁, h₂, h₃, h₄, h₅⟩, hreason, fun he => he.not_dropped ⟨hpushed, .inl hreason⟩⟩
  exact ⟨hmasked _ (by simp), hmasked _ (by simp), hmasked _ (by simp)⟩

theorem escalated_path : Escalated (handle plainEnv {}
    { id := client,
      reassembledPayload := lit "GET /search?q=../../etc%2Fpasswd HTTP/1.0\r\n\r\n" }).2 :=
  (escalated_iff _ _ _ ⟨by decide, by decide, by decide, by decide,
    by decide⟩).2 (by decide)

end Wirewolf.L4.Escalation
