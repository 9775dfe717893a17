import Wirewolf.L4Filter.Accounting
import Wirewolf.L4Filter.ContentExits

/-!
# Heartbleed behind the other stages

The TLS stage and the feed come before the Heartbleed detector, and the set
of dedup keys behind it. `KeySubject` is what a key stands for.

* `key_recorded`: a recorded key is that of an earlier flow, which was
  pushed.
* `heartbleed_unmasked`: a Heartbleed flow is pushed, or repeats one that
  was.
-/
namespace Wirewolf.L4.Heartbleed

open Wirewolf.L1.IpPacket Wirewolf.L4.Detectors Wirewolf.L4.Worker Wirewolf.L4.Decision
open Wirewolf.L4.Accounting Wirewolf.L4.ContentExits

/-! ## What a key stands for -/

inductive KeySubject where
  | heartbleed (dstIp : UInt32) (dstPort : UInt16)
  | smbExploit (low high : UInt32)
  | ratC2 (serverIp : UInt32) (serverPort : UInt16)
  | payload (dstIp : UInt32) (dstPort : UInt16) (bytes : Bytes)
  deriving DecidableEq

/-- mirrors src/src/npu_filter.cpp:903-906, 925-930, 997-1008, 1089-1096 -/
def KeySubject.key (e : Env) : KeySubject → UInt64
  | .heartbleed dstIp dstPort =>
    [e.hash32 dstIp, e.hash16 dstPort, e.hash64 0xDEADBEEF].foldl hashCombine 0
  | .smbExploit low high => [e.hash32 low, e.hash32 high, e.hash64 0xDEAD0017].foldl hashCombine 0
  | .ratC2 serverIp serverPort =>
    [e.hash32 serverIp, e.hash64 serverPort.toUInt64, e.hash64 0xDEADC2C2].foldl hashCombine 0
  | .payload dstIp dstPort bytes =>
    (bytes.map fun b => e.hash64 b.toUInt64).foldl hashCombine
      ([e.hash32 dstIp, e.hash16 dstPort].foldl hashCombine 0)

/-- The subject of the key that a stage looks up for the flow. -/
def subjectFor (f : FlowData) : Reason → KeySubject
  | .heartbleed => .heartbleed f.id.dstIp f.id.dstPort
  | .smbExploit => .smbExploit (min f.id.srcIp f.id.dstIp) (max f.id.srcIp f.id.dstIp)
  | .ratC2 =>
    let sp := bswap16 f.id.srcPort
    let dp := bswap16 f.id.dstPort
    .ratC2 (if sp < dp then f.id.srcIp else f.id.dstIp) (min sp dp)
  | _ => .payload f.id.dstIp f.id.dstPort (f.reassembledPayload.take 256)

/-- The subject under which the flow is recorded, if it comes to that. -/
def keySubject (e : Env) (flow : FlowData) : Option KeySubject :=
  match decision e flow with
  | .once _ f _ reason => some (subjectFor f reason)
  | _ => none

/-- Flows with different subjects have different keys. -/
def DistinctKeys (e : Env) (flows : List FlowData) : Prop :=
  ∀ g ∈ flows, ∀ h ∈ flows, ∀ σ ∈ keySubject e g, ∀ τ ∈ keySubject e h,
    σ.key e = τ.key e → σ = τ

section Decisions

variable {e : Env} {flow f f' tagged : FlowData} {k : UInt64} {reason : Reason}

/-- A stage that looks a key up, by its reason. -/
theorem detectorDecision_once (h : detectorDecision e f = .once k f' tagged reason) :
    f' = f ∧ k = (subjectFor f reason).key e ∧
      (reason = .heartbleed → detectHeartbleed f = true) := by
  unfold detectorDecision at h
  split at h
  · next hheart => cases h; exact ⟨rfl, rfl, fun _ => hheart⟩
  split at h
  · cases h; exact ⟨rfl, rfl, Reason.noConfusion⟩
  split at h
  · cases h
  split at h
  · cases h
  split at h
  · cases h
  split at h
  · cases h
  split at h
  · cases h
  split at h
  · cases h; exact ⟨rfl, rfl, Reason.noConfusion⟩
  unfold anomalyDecision at h
  dsimp only at h
  split at h
  · cases h
  split at h
  · cases h; exact ⟨rfl, rfl, Reason.noConfusion⟩
  · cases h

/-- The stages before the detectors leave connection and payload alone. -/
theorem decision_once (h : decision e flow = .once k f tagged reason) :
    f.id = flow.id ∧ f.reassembledPayload = flow.reassembledPayload ∧
      k = (subjectFor f reason).key e ∧ (reason = .heartbleed → detectHeartbleed f = true) := by
  unfold decision at h
  split at h
  · cases h
  split at h
  · cases h
  · cases h
  · next f₀ htls =>
    obtain ⟨sni, ja3, tag, rfl⟩ := tlsStage_keeps htls
    unfold feedDecision at h
    split at h
    · cases h
    · obtain ⟨rfl, hkey, hheart⟩ := detectorDecision_once h
      exact ⟨rfl, rfl, hkey, hheart⟩

theorem dedupKey_eq : dedupKey e flow = (keySubject e flow).map (KeySubject.key e) := by
  unfold dedupKey keySubject
  cases hd : decision e flow with
  | drop => rfl
  | pass => rfl
  | once k f tagged reason =>
    obtain ⟨-, -, hkey, -⟩ := decision_once hd
    rw [Option.map_some, hkey]

theorem detectHeartbleed_congr (h : f.reassembledPayload = flow.reassembledPayload) :
    detectHeartbleed f = detectHeartbleed flow := by
  rw [detectHeartbleed, h, detectHeartbleed]

/-- Only Heartbleed flows are recorded as such, under their server. -/
theorem keySubject_heartbleed {dstIp : UInt32} {dstPort : UInt16}
    (h : keySubject e flow = some (.heartbleed dstIp dstPort)) :
    detectHeartbleed flow = true ∧ flow.id.dstIp = dstIp ∧ flow.id.dstPort = dstPort := by
  unfold keySubject at h
  split at h
  · next k f tagged reason hd =>
    obtain ⟨hid, hpayload, -, hheart⟩ := decision_once hd
    have hsubject := Option.some.inj h
    cases reason with
    | heartbleed =>
      cases hsubject
      rw [← detectHeartbleed_congr hpayload, ← hid]
      exact ⟨hheart rfl, rfl, rfl⟩
    | _ => cases hsubject
  · cases h

/-- No exit before the detector filters a Heartbleed flow. -/
theorem decision_heartbleed (h : detectHeartbleed flow = true) :
    (∃ f reason, decision e flow = .pass f reason) ∨
      keySubject e flow = some (.heartbleed flow.id.dstIp flow.id.dstPort) := by
  have hne : flow.reassembledPayload ≠ [] := by
    intro he
    rw [detectHeartbleed, he] at h
    exact Bool.false_ne_true h
  unfold keySubject decision
  rw [if_neg hne]
  rcases htls : tlsStage e.threatFeed (canonicalize flow) with ⟨verdict, f⟩
  have ⟨sni, ja3, tag, hf⟩ := tlsStage_keeps htls
  have hheart : detectHeartbleed f = true := by
    have hpayload : f.reassembledPayload = flow.reassembledPayload := by rw [hf]; rfl
    rw [detectHeartbleed_congr hpayload, h]
  cases verdict with
  | suspicious => exact .inl ⟨_, _, rfl⟩
  | benign =>
    -- a benign hello with Heartbleed on it counts as no hello
    unfold tlsStage at htls
    dsimp only at htls
    split at htls
    · cases htls
    · next hmasked =>
      have hfst := congrArg Prod.fst htls
      have hsnd := congrArg Prod.snd htls
      exact absurd ⟨hfst, hsnd ▸ hheart⟩ hmasked
  | notTls =>
    dsimp only
    unfold feedDecision
    cases feedHit e f with
    | some f' => exact .inl ⟨_, _, rfl⟩
    | none =>
      right
      dsimp only
      unfold detectorDecision
      rw [if_pos hheart]
      dsimp only [subjectFor]
      rw [hf]
      rfl

end Decisions

/-! ## Recorded keys -/

section Runs

variable {e : Env}

theorem worker_append (flows : List FlowData) (flow : FlowData) :
    worker e (flows ++ [flow]) = (worker e flows).enter
      (handle e (worker e flows).toState flow) := by
  rw [worker, List.foldl_append]
  exact workerRound_eq e flow (worker e flows)

/-- Every recorded key is that of an earlier flow, which was pushed. -/
theorem key_recorded (flows : List FlowData) {k : UInt64}
    (hk : k ∈ (worker e flows).seenPayloadHashes) :
    ∃ before g, before ++ [g] <+: flows ∧ dedupKey e g = some k ∧
      (handle e (worker e before).toState g).2.pushed.isSome = true := by
  induction flows using List.reverseRecOn with
  | nil => cases hk
  | append_singleton flows flow ih =>
    have hearlier : k ∈ (ready (worker e flows).toState flow).seenPayloadHashes →
        ∃ before g, before ++ [g] <+: flows ++ [flow] ∧ dedupKey e g = some k ∧
          (handle e (worker e before).toState g).2.pushed.isSome = true := by
      intro hmem
      obtain ⟨before, g, hpre, hg⟩ := ih (ready_seen hmem)
      exact ⟨before, g, hpre.trans (List.prefix_append ..), hg⟩
    have hstate : (worker e (flows ++ [flow])).seenPayloadHashes =
        (handle e (worker e flows).toState flow).1.seenPayloadHashes := by
      rw [worker_append]
      rfl
    rw [hstate] at hk
    cases handle_round e (worker e flows).toState flow with
    | keyless _ hkeys _ => exact hearlier (hkeys ▸ hk)
    | duplicate _ _ hkeys _ _ => exact hearlier (hkeys ▸ hk)
    | recorded hd _ hkeys ho _ =>
      rw [hkeys, List.mem_cons] at hk
      rcases hk with rfl | hk
      · exact ⟨flows, flow, List.prefix_refl _, by rw [dedupKey, hd], by rw [ho]; rfl⟩
      · exact hearlier hk

/-- Whatever else the payload is, after whatever flows. -/
theorem heartbleed_unmasked (e : Env) (flows : List FlowData) (flow : FlowData)
    (hkeys : DistinctKeys e (flows ++ [flow])) (hheart : detectHeartbleed flow = true) :
    let outcome := (handle e (worker e flows).toState flow).2
    outcome.pushed.isSome = true ∨ (outcome.reason = .dedup ∧ ∃ before g,
      before ++ [g] <+: flows ∧ detectHeartbleed g = true ∧ g.id.dstIp = flow.id.dstIp ∧
        g.id.dstPort = flow.id.dstPort ∧
        (handle e (worker e before).toState g).2.pushed.isSome = true) := by
  intro outcome
  rcases decision_heartbleed (e := e) hheart with ⟨f, reason, hd⟩ | hsubject
  · left
    show (handle e (worker e flows).toState flow).2.pushed.isSome = true
    rw [handle_eq, hd]
    rfl
  · have hkey : dedupKey e flow =
        some ((KeySubject.heartbleed flow.id.dstIp flow.id.dstPort).key e) := by
      rw [dedupKey_eq, hsubject]
      rfl
    cases handle_round e (worker e flows).toState flow with
    | keyless hnone _ _ => rw [hkey] at hnone; cases hnone
    | recorded hd _ _ ho _ => exact .inl (congrArg (fun o : Outcome => o.pushed.isSome) ho)
    | duplicate hsome hmem _ hreason _ =>
      refine .inr ⟨hreason, ?_⟩
      obtain ⟨before, g, hpre, hg, hpushed⟩ := key_recorded flows (ready_seen hmem)
      rw [← hsome, hkey, dedupKey_eq] at hg
      obtain ⟨σ, hσ, hsame⟩ := Option.map_eq_some_iff.1 hg
      have hgmem : g ∈ flows ++ [flow] :=
        List.mem_append_left _ (hpre.subset (List.mem_append_right _ (List.mem_singleton_self g)))
      have heq := hkeys g hgmem flow (by simp) σ hσ _ hsubject hsame
      obtain ⟨hgheart, hip, hport⟩ := keySubject_heartbleed (heq ▸ hσ)
      exact ⟨before, g, hpre, hgheart, hip, hport, hpushed⟩

open Wirewolf.L4.Escalation (plainEnv client)

/-- A heartbeat request of three bytes that asks for 16 KiB, behind bytes
that are no TLS. -/
def heartbeat : FlowData :=
  { id := client, reassembledPayload := lit "GET /" ++
    [0x18, 0x03, 0x02, 0x00, 0x03, 0x01, 0x40, 0x00] }

theorem heartbleed_unmasked_twice :
    let outcome := (handle plainEnv (worker plainEnv [heartbeat]).toState heartbeat).2
    outcome.pushed.isSome = true ∨ (outcome.reason = .dedup ∧ ∃ before g,
      before ++ [g] <+: [heartbeat] ∧ detectHeartbleed g = true ∧
        g.id.dstIp = heartbeat.id.dstIp ∧ g.id.dstPort = heartbeat.id.dstPort ∧
        (handle plainEnv (worker plainEnv before).toState g).2.pushed.isSome = true) := by
  refine heartbleed_unmasked plainEnv [heartbeat] heartbeat (fun g hg h hh σ hσ τ hτ _ => ?_)
    (by decide)
  have heq : ∀ x ∈ [heartbeat] ++ [heartbeat], x = heartbeat := by simp
  rw [heq g hg] at hσ
  rw [heq h hh] at hτ
  exact Option.some.inj (hσ.symm.trans hτ)

end Runs

end Wirewolf.L4.Heartbleed
