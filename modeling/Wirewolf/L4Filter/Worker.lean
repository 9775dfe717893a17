import Wirewolf.L3Table.Behavior
import Wirewolf.L4Filter.Detectors

/-!
# The filter stage (`NpuFilter::worker_loop`)

`handle` takes one flow through the stages of the loop body in their order.
Every stage either decides (the flow is counted as filtered, or as passed
and pushed to the output queue) or leaves the flow to the next one. The
outcome keeps the flow as it was tagged, the reason of its event, and the
priority of the push.

Parameters of the environment: the standard library's hash functions, the
entropy of a payload and the conversion of a double to `float`, the OpenVINO
model, and one byte of memory (see `firstLine`).
-/
namespace Wirewolf.L4.Worker

open Wirewolf.L1.IpPacket Wirewolf.L1.Normalizer Wirewolf.L4.Detectors
open Wirewolf.L3.Behavior (octets isPrivate)

/-- What the stage reads of the configuration. -/
structure Config where
  forensic : Bool
  entropyHighThreshold : Rat
  entropyLowThreshold : Rat
  varianceThreshold : Rat
  interArrivalFloor : Rat
  minPacketCountForFlood : Nat
  minPayloadForLowEntropy : Nat
  npuThreshold : Rat

structure Env where
  cfg : Config
  threatFeed : ThreatFeed
  hash16 : UInt16 → UInt64
  hash32 : UInt32 → UInt64
  hash64 : UInt64 → UInt64
  entropy : Bytes → Rat
  toFloat : Rat → Rat
  /-- The compiled model, if there is one; `none` as its result is an exception. -/
  infer : Option (List Nat → Option Rat)
  before : UInt8

/-- The reason of a flow event. -/
inductive Reason where
  | empty | tlsSuspicious | tlsBenign | threatIntel | dedup | heartbleed | smbExploit | spnego
  | httpBruteforce | benignHttp | credentialContent | ftpExfil | ratC2 | binary | anomaly
  | statistical
  deriving DecidableEq, Repr

def Reason.text : Reason → Bytes
  | .empty => lit "empty"
  | .tlsSuspicious => lit "tls-suspicious"
  | .tlsBenign => lit "tls-benign"
  | .threatIntel => lit "threat-intel"
  | .dedup => lit "dedup"
  | .heartbleed => lit "heartbleed"
  | .smbExploit => lit "smb-exploit"
  | .spnego => lit "SPNEGO"
  | .httpBruteforce => lit "http-bruteforce"
  | .benignHttp => lit "benign HTTP"
  | .credentialContent => lit "credential-content"
  | .ftpExfil => lit "ftp-exfil"
  | .ratC2 => lit "rat-c2"
  | .binary => lit "binary"
  | .anomaly => lit "anomaly"
  | .statistical => lit "statistical"

/-- mirrors src/include/npu_filter.hpp:75-84 -/
structure State where
  seenPayloadHashes : List UInt64 := []
  passedCount : Nat := 0
  filteredCount : Nat := 0
  dedupCount : Nat := 0

/-- mirrors src/include/npu_filter.hpp:85 -/
def maxDedupHashes : Nat := 100000

/-- `pushed` is the priority under which the flow went to the output queue,
`none` when it was filtered. -/
structure Outcome where
  flow : FlowData
  reason : Reason
  pushed : Option Nat

/-- mirrors src/src/npu_filter.cpp:805-810 -/
def flowPriority (f : FlowData) : Nat :=
  if !f.protocolTag.isEmpty || f.behavioralSuspect then 2 else 1

namespace State

/-- mirrors src/src/npu_filter.cpp:827-828 -/
def clearFull (s : State) : State :=
  if maxDedupHashes < s.seenPayloadHashes.length then { s with seenPayloadHashes := [] } else s

def drop (s : State) (flow : FlowData) (reason : Reason) : State × Outcome :=
  ({ s with filteredCount := s.filteredCount + 1 }, ⟨flow, reason, none⟩)

def pass (s : State) (flow : FlowData) (reason : Reason) : State × Outcome :=
  ({ s with passedCount := s.passedCount + 1 }, ⟨flow, reason, some (flowPriority flow)⟩)

/-- Passes `tagged`, unless `hash` was inserted before: then `flow` is a duplicate.
mirrors src/src/npu_filter.cpp:903-922 -/
def passOnce (s : State) (hash : UInt64) (flow tagged : FlowData) (reason : Reason) :
    State × Outcome :=
  if hash ∈ s.seenPayloadHashes then
    { s with dedupCount := s.dedupCount + 1 }.drop flow .dedup
  else { s with seenPayloadHashes := hash :: s.seenPayloadHashes }.pass tagged reason

end State

/-! ## Deduplication keys -/

/-- `hash_combine`, with the hash of the value.
mirrors src/include/packet_types.hpp:21-24 -/
def hashCombine (seed h : UInt64) : UInt64 :=
  seed ^^^ (h + 0x9e3779b9 + (seed <<< (6 : UInt64)) + (seed >>> (2 : UInt64)))

/-- mirrors src/src/npu_filter.cpp:903-906 -/
def heartbleedKey (e : Env) (id : ConnectionId) : UInt64 :=
  [e.hash32 id.dstIp, e.hash16 id.dstPort, e.hash64 0xDEADBEEF].foldl hashCombine 0

/-- mirrors src/src/npu_filter.cpp:925-930 -/
def smbKey (e : Env) (id : ConnectionId) : UInt64 :=
  [e.hash32 (min id.srcIp id.dstIp), e.hash32 (max id.srcIp id.dstIp),
    e.hash64 0xDEAD0017].foldl hashCombine 0

/-- mirrors src/src/npu_filter.cpp:997-1008 -/
def ratKey (e : Env) (id : ConnectionId) : UInt64 :=
  let sp := bswap16 id.srcPort
  let dp := bswap16 id.dstPort
  let serverIp := if sp < dp then id.srcIp else id.dstIp
  [e.hash32 serverIp, e.hash64 (min sp dp).toUInt64, e.hash64 0xDEADC2C2].foldl hashCombine 0

/-- mirrors src/src/npu_filter.cpp:1089-1096 -/
def payloadKey (e : Env) (flow : FlowData) : UInt64 :=
  let key := [e.hash32 flow.id.dstIp, e.hash16 flow.id.dstPort].foldl hashCombine 0
  ((flow.reassembledPayload.take 256).map fun b => e.hash64 b.toUInt64).foldl hashCombine key

/-! ## The model and the statistical filter -/

/-- mirrors src/src/npu_filter.cpp:106-129 -/
structure Features where
  entropy : Rat
  variance : Rat
  interArrival : Rat

def extractFeatures (e : Env) (flow : FlowData) : Features where
  entropy := if flow.reassembledPayload = [] then 0 else e.entropy flow.reassembledPayload
  variance := e.toFloat flow.lengthVariance
  interArrival := e.toFloat flow.interArrivalTime

def isSuspiciousChar (b : UInt8) : Bool :=
  b = 0x27 || b = 0x22 || b = 0x7B || b = 0x7D || b = 0x7C || b = 0x60

/-- mirrors src/src/npu_filter.cpp:765-799 -/
def statisticalFilter (cfg : Config) (x : Features) (flow : FlowData) : Bool :=
  let p := flow.reassembledPayload
  if cfg.entropyHighThreshold < x.entropy then true
  else if x.entropy < cfg.entropyLowThreshold ∧ cfg.minPayloadForLowEntropy < p.length then true
  else if cfg.varianceThreshold < x.variance then true
  else if x.interArrival < cfg.interArrivalFloor ∧ 0 < x.interArrival ∧
      cfg.minPacketCountForFlood < flow.packetCount then true
  else p ≠ [] ∧ p.length < 4096 ∧ p.length < 20 * p.countP isSuspiciousChar

def cnnInputSeqLen : Nat := 512

def cnnPadToken : Nat := 256

/-- mirrors src/src/npu_filter.cpp:132-143 -/
def prepareByteTensor (flow : FlowData) : List Nat :=
  let data := (flow.reassembledPayload.take cnnInputSeqLen).map UInt8.toNat
  data ++ List.replicate (cnnInputSeqLen - data.length) cnnPadToken

/-- mirrors src/src/npu_filter.cpp:1042-1066 -/
def modelSuspicious (e : Env) (x : Features) (flow : FlowData) : Bool :=
  match e.infer.bind fun run => run (prepareByteTensor flow) with
  | some prediction => e.cfg.npuThreshold < prediction
  | none => statisticalFilter e.cfg x flow

/-! ## The stages -/

/-- The handshake, unless Heartbleed rides on a benign one.
mirrors src/src/npu_filter.cpp:843-845 -/
def tlsStage (f : ThreatFeed) (flow : FlowData) : TlsVerdict × FlowData :=
  let t := inspectTls f flow
  if t.1 = .benign ∧ detectHeartbleed t.2 then (.notTls, t.2) else t

/-- mirrors src/src/npu_filter.cpp:866-870 -/
def ipToStr (ip : UInt32) : Bytes :=
  let b := octets ip
  [0x2E].intercalate ([b.1, b.2.1, b.2.2.1, b.2.2.2].map fun o => lit (toString o.toNat))

/-- The flow that a hit in the feed passes on.
mirrors src/src/npu_filter.cpp:865-898 -/
def feedHit (e : Env) (flow : FlowData) : Option FlowData :=
  if e.threatFeed.empty then none
  else
    match e.threatFeed.matchSignature flow.normalizedPayload with
    | some sig =>
      some (if e.cfg.forensic then flow else { flow with protocolTag := sig.severity })
    | none =>
      if e.threatFeed.isBadIp (ipToStr flow.id.srcIp) || e.threatFeed.isBadIp
        (ipToStr flow.id.dstIp)
      then some flow
      else none

/-- mirrors src/src/npu_filter.cpp:15-22 -/
def dstIsExternal (ip : UInt32) : Bool := !isPrivate ip

def transferTag (flow : FlowData) : Bytes :=
  if dstIsExternal flow.id.dstIp then lit "Data Exfiltration" else lit "Suspicious Transfer"

/-- The last stage: escalation, model or statistics, then text and duplicate checks.
mirrors src/src/npu_filter.cpp:1026-1121 -/
def anomalyStage (e : Env) (s : State) (flow : FlowData) : State × Outcome :=
  let obfuscated := detectObfuscatedInjection flow
  let suspicious := obfuscated || flow.behavioralSuspect ||
    modelSuspicious e (extractFeatures e flow) flow
  if suspicious && !flow.reassembledPayload.isEmpty && !isText flow.reassembledPayload then
    s.drop flow .binary
  else if suspicious then s.passOnce (payloadKey e flow) flow flow .anomaly
  else s.drop flow .statistical

/-- mirrors src/src/npu_filter.cpp:900-1024 -/
def detectorStage (e : Env) (s : State) (flow : FlowData) : State × Outcome :=
  if detectHeartbleed flow then
    s.passOnce (heartbleedKey e flow.id) flow
      { flow with protocolTag := lit "Heartbleed" } .heartbleed
  else if detectSmbExploit flow then
    s.passOnce (smbKey e flow.id) flow { flow with protocolTag := lit "SMB Exploit" } .smbExploit
  else if detectSpnego flow then s.drop flow .spnego
  else if detectHttpBruteforce flow then
    s.pass { flow with protocolTag := lit "Brute Force" } .httpBruteforce
  else if detectBenignHttp e.before flow then s.drop flow .benignHttp
  else if detectCredentialContent flow then
    s.pass { flow with protocolTag := transferTag flow } .credentialContent
  else if detectFtpActivity flow then
    s.pass { flow with protocolTag := transferTag flow } .ftpExfil
  else if detectRatProtocol flow then
    s.passOnce (ratKey e flow.id) flow { flow with protocolTag := lit "RAT C2" } .ratC2
  else anomalyStage e s flow

/-- mirrors src/src/npu_filter.cpp:860-1024 -/
def feedStage (e : Env) (s : State) (flow : FlowData) : State × Outcome :=
  match feedHit e flow with
  | some flow => s.pass flow .threatIntel
  | none => detectorStage e s flow

/-- The flow with its normalized payload.
mirrors src/src/npu_filter.cpp:832-835 -/
def canonicalize (flow : FlowData) : FlowData :=
  { flow with normalizedPayload := normalizePayload flow.reassembledPayload }

/-- One round of the loop.
mirrors src/src/npu_filter.cpp:818-1121 -/
def handle (e : Env) (s : State) (flow : FlowData) : State × Outcome :=
  if flow.reassembledPayload = [] then s.drop flow .empty
  else
    let s := s.clearFull
    match tlsStage e.threatFeed (canonicalize flow) with
    | (.suspicious, flow) => s.pass flow .tlsSuspicious
    | (.benign, flow) => s.drop flow .tlsBenign
    | (.notTls, flow) => feedStage e s flow

end Wirewolf.L4.Worker
