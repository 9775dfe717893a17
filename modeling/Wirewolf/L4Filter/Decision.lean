import Wirewolf.L4Filter.Worker

/-!
# What the filter decides about one flow

The stages look at the flow, the configuration and the threat feed; the only
state they read is the set of dedup keys. `decision` is what they decide
without it, and `settle` what that does to the state.

* `handle_eq`: one round of the loop settles the decision.
* `dedup_iff`: a flow is filtered as a duplicate exactly when its key is
  recorded.
-/
namespace Wirewolf.L4.Decision

open Wirewolf.L1.IpPacket Wirewolf.L4.Detectors Wirewolf.L4.Worker

/-- `drop`: filtered. `pass`: pushed. `once`: pushed as `tagged`, unless the
key was recorded before. -/
inductive Ruling where
  | drop (flow : FlowData) (reason : Reason)
  | pass (flow : FlowData) (reason : Reason)
  | once (key : UInt64) (flow tagged : FlowData) (reason : Reason)

def Ruling.reason : Ruling → Reason
  | .drop _ reason => reason
  | .pass _ reason => reason
  | .once _ _ _ reason => reason

def settle (s : State) : Ruling → State × Outcome
  | .drop flow reason => s.drop flow reason
  | .pass flow reason => s.pass flow reason
  | .once key flow tagged reason => s.passOnce key flow tagged reason

def anomalyDecision (e : Env) (flow : FlowData) : Ruling :=
  let suspicious := detectObfuscatedInjection flow || flow.behavioralSuspect ||
    modelSuspicious e (extractFeatures e flow) flow
  if suspicious && !flow.reassembledPayload.isEmpty && !isText flow.reassembledPayload then
    .drop flow .binary
  else if suspicious then .once (payloadKey e flow) flow flow .anomaly
  else .drop flow .statistical

def detectorDecision (e : Env) (flow : FlowData) : Ruling :=
  if detectHeartbleed flow then
    .once (heartbleedKey e flow.id) flow { flow with protocolTag := lit "Heartbleed" } .heartbleed
  else if detectSmbExploit flow then
    .once (smbKey e flow.id) flow { flow with protocolTag := lit "SMB Exploit" } .smbExploit
  else if detectSpnego flow then .drop flow .spnego
  else if detectHttpBruteforce flow then
    .pass { flow with protocolTag := lit "Brute Force" } .httpBruteforce
  else if detectBenignHttp e.before flow then .drop flow .benignHttp
  else if detectCredentialContent flow then
    .pass { flow with protocolTag := transferTag flow } .credentialContent
  else if detectFtpActivity flow then
    .pass { flow with protocolTag := transferTag flow } .ftpExfil
  else if detectRatProtocol flow then
    .once (ratKey e flow.id) flow { flow with protocolTag := lit "RAT C2" } .ratC2
  else anomalyDecision e flow

def feedDecision (e : Env) (flow : FlowData) : Ruling :=
  match feedHit e flow with
  | some flow => .pass flow .threatIntel
  | none => detectorDecision e flow

def decision (e : Env) (flow : FlowData) : Ruling :=
  if flow.reassembledPayload = [] then .drop flow .empty
  else
    match tlsStage e.threatFeed (canonicalize flow) with
    | (.suspicious, flow) => .pass flow .tlsSuspicious
    | (.benign, flow) => .drop flow .tlsBenign
    | (.notTls, flow) => feedDecision e flow

/-- The key under which a flow counts as seen. -/
def dedupKey (e : Env) (flow : FlowData) : Option UInt64 :=
  match decision e flow with
  | .once key _ _ _ => some key
  | _ => none

/-! ## One round of the loop -/

variable (e : Env) (s : State) (flow : FlowData)

theorem ite_settle {c : Prop} [Decidable c] {s : State} {x y : State × Outcome} {a b : Ruling}
    (hx : x = settle s a) (hy : y = settle s b) :
    (if c then x else y) = settle s (if c then a else b) := by
  rw [hx, hy, apply_ite (settle s)]

theorem anomalyStage_eq : anomalyStage e s flow = settle s (anomalyDecision e flow) := by
  unfold anomalyStage anomalyDecision
  exact ite_settle rfl (ite_settle rfl rfl)

theorem detectorStage_eq : detectorStage e s flow = settle s (detectorDecision e flow) := by
  unfold detectorStage detectorDecision
  iterate 8 refine ite_settle rfl ?_
  exact anomalyStage_eq e s flow

theorem feedStage_eq : feedStage e s flow = settle s (feedDecision e flow) := by
  unfold feedStage feedDecision
  cases feedHit e flow with
  | some flow' => rfl
  | none => exact detectorStage_eq e s flow

/-- The state in which the stages decide: without keys when there were too many. -/
def ready : State := if flow.reassembledPayload = [] then s else s.clearFull

/-- No key appears before the decision. -/
theorem ready_seen {s : State} {flow : FlowData} {k : UInt64}
    (h : k ∈ (ready s flow).seenPayloadHashes) : k ∈ s.seenPayloadHashes := by
  unfold ready State.clearFull at h
  split at h
  · exact h
  · split at h
    · exact absurd h List.not_mem_nil
    · exact h

theorem handle_eq : handle e s flow = settle (ready s flow) (decision e flow) := by
  unfold handle ready decision
  split
  · rfl
  · rcases tlsStage e.threatFeed (canonicalize flow) with ⟨verdict, flow'⟩
    cases verdict with
    | suspicious => rfl
    | benign => rfl
    | notTls => exact feedStage_eq e _ flow'

theorem ite_reason {c : Prop} [Decidable c] {a b : Ruling} {r : Reason}
    (ha : a.reason ≠ r) (hb : b.reason ≠ r) : (if c then a else b).reason ≠ r := by
  split
  · exact ha
  · exact hb

/-- No stage decides on a duplicate: that takes the lookup of a key. -/
theorem detectorDecision_reason : (detectorDecision e flow).reason ≠ .dedup := by
  unfold detectorDecision
  iterate 8 refine ite_reason Reason.noConfusion ?_
  unfold anomalyDecision
  exact ite_reason Reason.noConfusion (ite_reason Reason.noConfusion Reason.noConfusion)

theorem decision_reason : (decision e flow).reason ≠ .dedup := by
  unfold decision
  split
  · exact Reason.noConfusion
  · split
    · exact Reason.noConfusion
    · exact Reason.noConfusion
    · unfold feedDecision
      split
      · exact Reason.noConfusion
      · exact detectorDecision_reason e _

/-- What one round does with the keys: nothing when the flow has none, nothing
but reporting a recorded one, and otherwise it records the key and pushes. -/
inductive Round (e : Env) (s : State) (flow : FlowData) : State × Outcome → Prop
  | keyless {r : State × Outcome} : dedupKey e flow = none →
      r.1.seenPayloadHashes = (ready s flow).seenPayloadHashes → r.2.reason ≠ .dedup →
      Round e s flow r
  | duplicate {r : State × Outcome} {k : UInt64} : dedupKey e flow = some k →
      k ∈ (ready s flow).seenPayloadHashes →
      r.1.seenPayloadHashes = (ready s flow).seenPayloadHashes →
      r.2.reason = .dedup → r.2.pushed = none → Round e s flow r
  | recorded {r : State × Outcome} {k : UInt64} {f tagged : FlowData} {reason : Reason} :
      decision e flow = .once k f tagged reason → k ∉ (ready s flow).seenPayloadHashes →
      r.1.seenPayloadHashes = k :: (ready s flow).seenPayloadHashes →
      r.2 = ⟨tagged, reason, some (flowPriority tagged)⟩ → reason ≠ .dedup → Round e s flow r

theorem handle_round : Round e s flow (handle e s flow) := by
  have hreason := decision_reason e flow
  rw [handle_eq]
  cases hd : decision e flow with
  | drop f reason =>
    rw [hd] at hreason
    exact .keyless (by rw [dedupKey, hd]) rfl hreason
  | pass f reason =>
    rw [hd] at hreason
    exact .keyless (by rw [dedupKey, hd]) rfl hreason
  | once k f tagged reason =>
    rw [hd] at hreason
    have hkey : dedupKey e flow = some k := by rw [dedupKey, hd]
    show Round e s flow ((ready s flow).passOnce k f tagged reason)
    unfold State.passOnce
    split
    · next hk => exact .duplicate hkey hk rfl rfl rfl
    · next hk => exact .recorded hd hk rfl rfl hreason

/-- A flow is a duplicate exactly when its key is recorded. -/
theorem dedup_iff : (handle e s flow).2.reason = .dedup ↔
    ∃ k, dedupKey e flow = some k ∧ k ∈ (ready s flow).seenPayloadHashes := by
  cases handle_round e s flow with
  | keyless hkey _ hreason => simp [hkey, hreason]
  | duplicate hkey hk _ hreason _ => simp [hkey, hreason, hk]
  | recorded hd hk _ ho hreason => simp [dedupKey, hd, ho, hreason, hk]

end Wirewolf.L4.Decision
