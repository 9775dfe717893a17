import Wirewolf.L4Filter.Decision
import Wirewolf.L4Filter.Escalation

/-!
# Behavioral escalations and the exits on content

`behavioral_suspect` marks a flow by the timing and size of its connection,
for the LLM to judge whatever the payload is. The loop reads the flag in its
last stage (and in the priority of a push); four exits before or behind it
look at the payload alone.

* `adjudicated_iff`: a marked flow is pushed with priority 2, or is a
  duplicate, exactly when none of the four exits takes it.
-/
namespace Wirewolf.L4.ContentExits

open Wirewolf.L1.IpPacket Wirewolf.L4.Detectors
open Wirewolf.L4.Worker Wirewolf.L4.Decision

/-- Pushed with the higher priority, or dropped as a duplicate. -/
def Adjudicated (o : Outcome) : Prop := o.pushed = some 2 ∨ o.reason = .dedup

instance (o : Outcome) : Decidable (Adjudicated o) := inferInstanceAs (Decidable (_ ∨ _))

/-- The flow meets an exit behind the stages on Heartbleed and SMB: for its
SPNEGO marker, as benign HTTP, or, no detector naming it, for its text ratio. -/
def DetectorExit (e : Env) (f : FlowData) : Prop :=
  detectHeartbleed f = false ∧ detectSmbExploit f = false ∧
    (detectSpnego f = true ∨ (detectHttpBruteforce f = false ∧
      (detectBenignHttp e.before f = true ∨ (detectCredentialContent f = false ∧
        detectFtpActivity f = false ∧ detectRatProtocol f = false ∧
          isText f.reassembledPayload = false))))

/-- The flow meets an exit on its content: as benign TLS, or behind the TLS
stage and the feed. -/
def ContentExit (e : Env) (flow : FlowData) : Prop :=
  let t := tlsStage e.threatFeed (canonicalize flow)
  t.1 = .benign ∨ (t.1 = .notTls ∧ feedHit e t.2 = none ∧ DetectorExit e t.2)

instance (e : Env) (f : FlowData) : Decidable (DetectorExit e f) :=
  inferInstanceAs (Decidable (_ ∧ _))

instance (e : Env) (flow : FlowData) : Decidable (ContentExit e flow) :=
  inferInstanceAs (Decidable (_ ∨ _))

/-! ## The mark along the stages -/

theorem flowPriority_suspect {f : FlowData} (h : f.behavioralSuspect = true) :
    flowPriority f = 2 := by
  rw [flowPriority, h, Bool.or_true, if_pos rfl]

/-- The TLS stage writes three fields. -/
theorem inspectTls_keeps (t : ThreatFeed) (f : FlowData) : ∃ sni ja3 tag,
    (inspectTls t f).2 = { f with tlsSni := sni, tlsJa3 := ja3, protocolTag := tag } := by
  unfold inspectTls
  split
  · exact ⟨_, _, _, rfl⟩
  · dsimp only
    split
    · exact ⟨_, _, _, rfl⟩
    · split
      · exact ⟨_, _, _, rfl⟩
      · split
        · exact ⟨_, _, _, rfl⟩
        · exact ⟨_, _, _, rfl⟩

theorem tlsStage_keeps {t : ThreatFeed} {f f' : FlowData} {v : TlsVerdict}
    (h : tlsStage t f = (v, f')) : ∃ sni ja3 tag,
    f' = { f with tlsSni := sni, tlsJa3 := ja3, protocolTag := tag } := by
  have hf : f' = (inspectTls t f).2 := by
    unfold tlsStage at h
    dsimp only at h
    split at h
    · exact (congrArg Prod.snd h).symm
    · exact (congrArg Prod.snd h).symm
  rw [hf]
  exact inspectTls_keeps t f

theorem feedHit_keeps {e : Env} {f f' : FlowData} (h : feedHit e f = some f') :
    f'.behavioralSuspect = f.behavioralSuspect := by
  unfold feedHit at h
  split at h
  · cases h
  · split at h
    · cases h
      split
      · rfl
      · rfl
    · split at h
      · cases h; rfl
      · cases h

/-! ## Decisions about a marked flow -/

variable {e : Env} {s : State} {flow f : FlowData} {k : UInt64} {reason : Reason}

theorem settle_pass (h : f.behavioralSuspect = true) :
    Adjudicated (settle s (.pass f reason)).2 :=
  .inl (congrArg some (flowPriority_suspect h))

theorem settle_once {tagged : FlowData} (h : tagged.behavioralSuspect = true) :
    Adjudicated (settle s (.once k f tagged reason)).2 := by
  show Adjudicated (s.passOnce k f tagged reason).2
  unfold State.passOnce
  split
  · exact .inr rfl
  · exact .inl (congrArg some (flowPriority_suspect h))

theorem settle_drop (h : reason ≠ .dedup) : ¬ Adjudicated (settle s (.drop f reason)).2 := by
  intro ha
  rcases ha with hp | hr
  · exact Option.some_ne_none _ hp.symm
  · exact h hr

/-- The last stage stops a marked flow for its text ratio alone. -/
theorem anomaly_adjudicated_iff (hb : f.behavioralSuspect = true)
    (hne : f.reassembledPayload ≠ []) :
    Adjudicated (settle s (anomalyDecision e f)).2 ↔ isText f.reassembledPayload = true := by
  have hfull : f.reassembledPayload.isEmpty = false := by simpa using hne
  unfold anomalyDecision
  simp only [hb, hfull, Bool.or_true, Bool.true_or, Bool.not_false, Bool.true_and, if_true]
  by_cases ht : isText f.reassembledPayload = true
  · rw [if_neg (by simp [ht])]
    exact iff_of_true (settle_once hb) ht
  · rw [if_pos (by simpa using ht)]
    exact iff_of_false (settle_drop Reason.noConfusion) ht

theorem detector_adjudicated_iff (hb : f.behavioralSuspect = true)
    (hne : f.reassembledPayload ≠ []) :
    Adjudicated (settle s (detectorDecision e f)).2 ↔ ¬ DetectorExit e f := by
  unfold detectorDecision DetectorExit
  by_cases hheart : detectHeartbleed f = true
  · rw [if_pos hheart]
    exact iff_of_true (settle_once hb) (by simp [hheart])
  by_cases hsmb : detectSmbExploit f = true
  · rw [if_neg hheart, if_pos hsmb]
    exact iff_of_true (settle_once hb) (by simp [hsmb])
  rw [if_neg hheart, if_neg hsmb]
  by_cases hspnego : detectSpnego f = true
  · rw [if_pos hspnego]
    exact iff_of_false (settle_drop Reason.noConfusion) (by simp [hheart, hsmb, hspnego])
  rw [if_neg hspnego]
  by_cases hbrute : detectHttpBruteforce f = true
  · rw [if_pos hbrute]
    exact iff_of_true (settle_pass hb) (by simp [hspnego, hbrute])
  rw [if_neg hbrute]
  by_cases hbenign : detectBenignHttp e.before f = true
  · rw [if_pos hbenign]
    exact iff_of_false (settle_drop Reason.noConfusion)
      (by simp [hheart, hsmb, hbrute, hbenign])
  rw [if_neg hbenign]
  by_cases hcred : detectCredentialContent f = true
  · rw [if_pos hcred]
    exact iff_of_true (settle_pass hb) (by simp [hspnego, hbenign, hcred])
  by_cases hftp : detectFtpActivity f = true
  · rw [if_neg hcred, if_pos hftp]
    exact iff_of_true (settle_pass hb) (by simp [hspnego, hbenign, hftp])
  by_cases hrat : detectRatProtocol f = true
  · rw [if_neg hcred, if_neg hftp, if_pos hrat]
    exact iff_of_true (settle_once hb) (by simp [hspnego, hbenign, hrat])
  -- no detector names the flow, and the last stage is left
  rw [if_neg hcred, if_neg hftp, if_neg hrat, anomaly_adjudicated_iff hb hne]
  simp [hheart, hsmb, hspnego, hbrute, hbenign, hcred, hftp, hrat]

/-- A marked flow reaches the LLM stage, or is a duplicate, exactly when no
exit on its content takes it. -/
theorem adjudicated_iff (e : Env) (s : State) (flow : FlowData)
    (hne : flow.reassembledPayload ≠ []) (hb : flow.behavioralSuspect = true) :
    Adjudicated (handle e s flow).2 ↔ ¬ ContentExit e flow := by
  rw [handle_eq, decision, if_neg hne]
  unfold ContentExit
  rcases htls : tlsStage e.threatFeed (canonicalize flow) with ⟨verdict, f⟩
  have ⟨sni, ja3, tag, hf⟩ := tlsStage_keeps htls
  have hmark : f.behavioralSuspect = true := by rw [hf]; exact hb
  have hpayload : f.reassembledPayload = flow.reassembledPayload := by rw [hf]; rfl
  cases verdict with
  | suspicious => exact iff_of_true (settle_pass hmark) (by simp)
  | benign => exact iff_of_false (settle_drop Reason.noConfusion) (by simp)
  | notTls =>
    show Adjudicated (settle _ (feedDecision e f)).2 ↔ _
    unfold feedDecision
    cases hfeed : feedHit e f with
    | some f' =>
      have hmark' : f'.behavioralSuspect = true := (feedHit_keeps hfeed).trans hmark
      exact iff_of_true (settle_pass hmark') (by simp [hfeed])
    | none =>
      have hne' : f.reassembledPayload ≠ [] := by rw [hpayload]; exact hne
      refine (detector_adjudicated_iff hmark hne').trans (not_congr ?_)
      simp [hfeed]

/-! ## Inputs -/

open Wirewolf.L4.Escalation (plainEnv client)

/-- A beacon over plain HTTP, marked for its timing. -/
def beacon : FlowData :=
  { id := client, reassembledPayload := lit "GET /ping HTTP/1.1\r\n\r\n",
    behavioralSuspect := true }

theorem beacon_dropped : beacon.reassembledPayload ≠ [] ∧ beacon.behavioralSuspect = true ∧
    (handle plainEnv {} beacon).2.reason = .benignHttp ∧
    ¬ Adjudicated (handle plainEnv {} beacon).2 := by
  decide

theorem adjudicated_text : Adjudicated (handle plainEnv {}
    { id := client, reassembledPayload := lit "ping 17", behavioralSuspect := true }).2 :=
  (adjudicated_iff _ _ _ (by decide) rfl).2 (by decide)

end Wirewolf.L4.ContentExits
