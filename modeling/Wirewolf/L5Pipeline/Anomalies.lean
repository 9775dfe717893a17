import Mathlib.Data.Finset.Card
import Wirewolf.L3Table.Table
import Wirewolf.L4Filter.Worker
import Wirewolf.L5Pipeline.Alerts

/-!
# Connection-level anomalies (`check_connection_anomalies`)

Before a TCP packet reaches the connection table, its source's tracker is
updated and compared with fixed thresholds. Every detector ends in
`emitAlert`: a dedup key that is new calls the threat callback, and in
inline mode blocks the source. `processIpPacket` is the whole call, with the
anomalies in front of the table and the overlap alert behind it.

The hash functions of the standard library and the threat that the proxy
database lists for an address are parameters of the environment.
-/
namespace Wirewolf.L5.Anomalies

open Wirewolf.L1.IpPacket Wirewolf.L1.Severity Wirewolf.L1.AlertJson
open Wirewolf.L3 Wirewolf.L3.Table
open Wirewolf.L3.Behavior (octets isPrivate ntohs)
open Wirewolf.L4.Worker (hashCombine ipToStr)
open Wirewolf.L5.Alerts

structure Env extends Table.Env where
  inlineBlock : Bool
  allowlistIps : List UInt32
  hasCallback : Bool
  hash16 : UInt16 → UInt64
  hash32 : UInt32 → UInt64
  hash64 : UInt64 → UInt64
  /-- The listed threat of an address (network order); `none` also when no
  database is loaded. -/
  threatOf : UInt32 → Option Bytes

/-- mirrors src/include/tcp_reassembly.hpp:53-77 -/
structure SourceTracker where
  dstPorts : Finset UInt16 := ∅
  portSynCounts : UMap UInt16 Nat := .empty
  totalSyns : Nat := 0
  firstSynTime : Rat := 0
  portDstIps : UMap UInt16 (Finset UInt32) := .empty
  extDsts : Finset UInt32 := ∅
  initialTtl : UInt8 := 0

/-- mirrors src/include/tcp_reassembly.hpp:80-85 -/
structure BeaconTracker where
  synTimestamps : List Rat := []
  srcIp : UInt32 := 0
  dstIp : UInt32 := 0
  dstPort : UInt16 := 0

/-- The members the detectors use; `alerts` are the calls of the threat
callback, in order.
mirrors src/include/tcp_reassembly.hpp:163-178 -/
structure State where
  sourceTrackers : UMap UInt32 SourceTracker := .empty
  beaconTrackers : UMap UInt64 BeaconTracker := .empty
  alertedAnomalies : Finset UInt64 := ∅
  blockedIps : Finset UInt32 := ∅
  alerts : List ThreatAlert := []

def State.tracker (s : State) (src : UInt32) : SourceTracker := (s.sourceTrackers.find? src).getD {}

def State.setTracker (s : State) (src : UInt32) (t : SourceTracker) : State :=
  { s with sourceTrackers := s.sourceTrackers.put src t }

/-! ## Alerts -/

/-- mirrors src/src/tcp_reassembly.cpp:279-293 -/
def blockSource (e : Env) (s : State) (ip : UInt32) : State :=
  if ip ∈ e.allowlistIps then s else { s with blockedIps := insert ip s.blockedIps }

def threatAlert (conn : ConnectionId) (threatType snippet : Bytes) : ThreatAlert where
  connection := conn
  threatType := threatType
  severity := (severityForThreat threatType).label
  severityInfo := severityForThreat threatType
  snippet := snippet
  rawLlmOutput := buildAlertJson threatType (severityForThreat threatType) snippet
  payloadText := lit "[connection-anomaly: " ++ threatType ++ lit "]"
  confidence := confidenceFor (severityForThreat threatType) true

/-- mirrors src/src/tcp_reassembly.cpp:505-528, 746-779, 824-856 -/
def emitAlert (e : Env) (s : State) (conn : ConnectionId) (threatType snippet : Bytes)
    (key : UInt64) : State :=
  if key ∈ s.alertedAnomalies then s
  else
    let s := { s with alertedAnomalies := insert key s.alertedAnomalies }
    if !e.hasCallback then s
    else
      let s := if e.inlineBlock then blockSource e s conn.srcIp else s
      { s with alerts := s.alerts ++ [threatAlert conn threatType snippet] }

/-- The connection of an anomaly alert: no source port. -/
def anomalyConn (p : TcpPacket) : ConnectionId := { p.cid with srcPort := 0 }

/-! ## The stages -/

/-- mirrors src/src/tcp_reassembly.cpp:713-717 -/
def estimateInitialTtl (observed : UInt8) : UInt8 :=
  if observed ≤ 64 then 64 else if observed ≤ 128 then 128 else 255

/-- mirrors src/src/tcp_reassembly.cpp:384-387, 737-740 -/
def isLocal (ip : UInt32) : Bool :=
  let b := octets ip
  b.1 == 10 || b.1 == 127 || (b.1 == 172 && (b.2.1 &&& 0xF0) == 16) ||
    (b.1 == 192 && b.2.1 == 168) || (b.1 == 169 && b.2.1 == 254)

/-- mirrors src/src/tcp_reassembly.cpp:805-807 -/
def isLan (ip : UInt32) : Bool :=
  let b := octets ip
  b.1 == 10 || (b.1 == 172 && (b.2.1 &&& 0xF0) == 16) || (b.1 == 192 && b.2.1 == 168)

/-- mirrors src/src/tcp_reassembly.cpp:725-784 -/
def ttlStage (e : Env) (s : State) (p : TcpPacket) : State :=
  let src := p.cid.srcIp
  let t := s.tracker src
  let est := estimateInitialTtl p.ttl
  let s :=
    if 0 < p.ttl && isLocal src && t.initialTtl != 0 && est != t.initialTtl then
      emitAlert e s (anomalyConn p) (lit "IP Spoofing")
        (lit "Source " ++ ipToStr src ++ lit " changed initial-TTL " ++ digits t.initialTtl.toNat ++
          lit " -> " ++ digits est.toNat ++ lit " (observed TTL " ++ digits p.ttl.toNat ++
          lit ") — two distinct OS stacks on one source IP")
        ([e.hash32 src, e.hash64 0xAAAA0005].foldl hashCombine 0)
    else s
  s.setTracker src (if 0 < p.ttl && isLocal src then { t with initialTtl := est } else t)

/-- Only ports below 1024 are tracked by destination. -/
def WellKnown (port : UInt16) : Prop := ntohs port < 1024

instance : DecidablePred WellKnown := fun _ => inferInstanceAs (Decidable (_ < _))

/-- mirrors src/src/tcp_reassembly.cpp:787-809 -/
def SourceTracker.addSyn (t : SourceTracker) (dstIp : UInt32) (dstPort : UInt16)
    (timestamp : Rat) : SourceTracker where
  firstSynTime := if t.totalSyns = 0 then timestamp else t.firstSynTime
  totalSyns := t.totalSyns + 1
  dstPorts := if WellKnown dstPort then insert dstPort t.dstPorts else t.dstPorts
  portSynCounts := t.portSynCounts.put dstPort ((t.portSynCounts.find? dstPort).getD 0 + 1)
  portDstIps :=
    if WellKnown dstPort then
      t.portDstIps.put dstPort (insert dstIp ((t.portDstIps.find? dstPort).getD ∅))
    else t.portDstIps
  extDsts := if isLan dstIp then t.extDsts else insert dstIp t.extDsts
  initialTtl := t.initialTtl

/-- mirrors src/src/tcp_reassembly.cpp:810-820 -/
def addBeacon (e : Env) (m : UMap UInt64 BeaconTracker) (id : ConnectionId) (timestamp : Rat) :
    UMap UInt64 BeaconTracker :=
  let key :=
    [e.hash32 id.srcIp, e.hash32 id.dstIp, e.hash64 id.dstPort.toUInt64].foldl hashCombine 0
  let bt := (m.find? key).getD {}
  let bt :=
    if bt.synTimestamps.isEmpty then
      { bt with srcIp := id.srcIp, dstIp := id.dstIp, dstPort := id.dstPort }
    else bt
  m.put key { bt with synTimestamps := bt.synTimestamps ++ [timestamp] }

/-- mirrors src/src/tcp_reassembly.cpp:786-822 -/
def synStage (e : Env) (s : State) (p : TcpPacket) : State :=
  if !p.syn then s
  else
    let s := s.setTracker p.cid.srcIp
      ((s.tracker p.cid.srcIp).addSyn p.cid.dstIp p.cid.dstPort p.time)
    if isLan p.cid.dstIp then s
    else { s with beaconTrackers := addBeacon e s.beaconTrackers p.cid p.time }

/-- mirrors src/src/tcp_reassembly.cpp:873-878 -/
def mapType (threat : Bytes) : Bytes :=
  if threat = lit "BOTNET" then lit "Botnet Communication"
  else if threat = lit "SCANNER" then lit "Vulnerability Scanning"
  else if threat = lit "SPAM" then lit "Spam Bot"
  else lit "Malicious Source"

/-- The public endpoint, 0 when there is none.
mirrors src/src/tcp_reassembly.cpp:869 -/
def external (id : ConnectionId) : UInt32 :=
  if !isPrivate id.dstIp then id.dstIp else if !isPrivate id.srcIp then id.srcIp else 0

/-- mirrors src/src/tcp_reassembly.cpp:858-893 -/
def intelStage (e : Env) (s : State) (p : TcpPacket) : State :=
  let ext := external p.cid
  match e.threatOf ext with
  | none => s
  | some threat =>
    if ext = 0 ∨ threat = [] ∨ threat = lit "-" then s
    else
      emitAlert e s (anomalyConn p) (mapType threat)
        (ipToStr ext ++ lit " flagged " ++ threat ++ lit " by threat intel (IP2Location)")
        ([e.hash32 p.cid.srcIp, e.hash32 p.cid.dstIp, e.hash64 0xDDDD0001].foldl hashCombine 0)

/-- mirrors src/src/tcp_reassembly.cpp:895-905 -/
def portScanStage (e : Env) (t : SourceTracker) (s : State) (p : TcpPacket) : State :=
  if 50 ≤ t.dstPorts.card then
    emitAlert e s (anomalyConn p) (lit "Port Scan")
      (digits t.dstPorts.card ++ lit " unique ports scanned from single source")
      ([e.hash32 p.cid.srcIp, e.hash64 0xAAAA0001].foldl hashCombine 0)
  else s

/-- `htons(22)` -/
def sshPort : UInt16 := ntohs 22

/-- mirrors src/src/tcp_reassembly.cpp:907-922 -/
def sshStage (e : Env) (t : SourceTracker) (s : State) (p : TcpPacket) : State :=
  match t.portSynCounts.find? sshPort with
  | none => s
  | some n =>
    if 30 ≤ n then
      emitAlert e s (anomalyConn p) (lit "SSH Brute Force")
        (digits n ++ lit " SSH connection attempts from single source")
        ([e.hash32 p.cid.srcIp, e.hash64 0xAAAA0002].foldl hashCombine 0)
    else s

/-- mirrors src/src/tcp_reassembly.cpp:933 -/
def isWeb (port : UInt16) : Bool := ntohs port == 80 || ntohs port == 443 || ntohs port == 8080

/-- One port of the loop.
mirrors src/src/tcp_reassembly.cpp:928-946 -/
def wormPort (e : Env) (p : TcpPacket) (s : State) (x : UInt16 × Finset UInt32) : State :=
  if isWeb x.1 then s
  else if 100 ≤ x.2.card then
    emitAlert e s (anomalyConn p) (lit "Worm Propagation Scan")
      (digits x.2.card ++ lit " unique hosts scanned on port " ++ digits (ntohs x.1).toNat ++
        lit " from single source (worm behavior)")
      ([e.hash32 p.cid.srcIp, e.hash64 x.1.toUInt64, e.hash64 0xAAAA0004].foldl hashCombine 0)
  else s

/-- mirrors src/src/tcp_reassembly.cpp:924-947 -/
def wormStage (e : Env) (t : SourceTracker) (s : State) (p : TcpPacket) : State :=
  t.portDstIps.entries.foldl (wormPort e p) s

/-- `total` SYNs since `first`, a second; all of them when no time has passed.
mirrors src/src/tcp_reassembly.cpp:954-957 -/
def synRate (total : Nat) (first now : Rat) : Rat :=
  if 0 < now - first then total / (now - first) else total

/-- mirrors src/src/tcp_reassembly.cpp:949-969 -/
def ddosStage (e : Env) (t : SourceTracker) (s : State) (p : TcpPacket) : State :=
  if 5000 ≤ t.totalSyns then
    let rate := synRate t.totalSyns t.firstSynTime p.time
    if 10 < rate then
      emitAlert e s (anomalyConn p) (lit "DDoS")
        (digits t.totalSyns ++ lit " SYN packets from single source at " ++
          digits rate.floor.toNat ++ lit " SYN/sec (SYN flood)")
        ([e.hash32 p.cid.srcIp, e.hash64 0xAAAA0003].foldl hashCombine 0)
    else s
  else s

/-- mirrors src/src/tcp_reassembly.cpp:719-970 -/
def checkConnectionAnomalies (e : Env) (s : State) (p : TcpPacket) : State :=
  let s := ttlStage e s p
  let s := synStage e s p
  let s := intelStage e s p
  let t := s.tracker p.cid.srcIp
  let s := portScanStage e t s p
  let s := sshStage e t s p
  let s := wormStage e t s p
  ddosStage e t s p

/-! ## What an alert leaves alone -/

/-- No alert changes `f`. -/
def Untouched {β : Type} (e : Env) (f : State → β) : Prop :=
  ∀ s conn threatType snippet key, f (emitAlert e s conn threatType snippet key) = f s

section BlockSource

variable (e : Env) (s : State) (ip : UInt32)

theorem blockSource_eq :
    blockSource e s ip = { s with blockedIps := (blockSource e s ip).blockedIps } := by
  unfold blockSource
  split <;> rfl

@[simp] theorem blockSource_sourceTrackers :
    (blockSource e s ip).sourceTrackers = s.sourceTrackers := by rw [blockSource_eq]

@[simp] theorem blockSource_beaconTrackers :
    (blockSource e s ip).beaconTrackers = s.beaconTrackers := by rw [blockSource_eq]

@[simp] theorem blockSource_alertedAnomalies :
    (blockSource e s ip).alertedAnomalies = s.alertedAnomalies := by rw [blockSource_eq]

@[simp] theorem blockSource_alerts : (blockSource e s ip).alerts = s.alerts := by
  rw [blockSource_eq]

end BlockSource

theorem untouched_of_records {β : Type} {e : Env} {f : State → β}
    (hf : ∀ s keys ips alerts,
      f { s with alertedAnomalies := keys, blockedIps := ips, alerts := alerts } = f s) :
    Untouched e f := by
  intro s conn threatType snippet key
  unfold emitAlert
  split
  · rfl
  · dsimp only
    split
    · exact hf s _ s.blockedIps s.alerts
    · split
      · rw [blockSource_eq]
        exact hf s _ _ _
      · exact hf s _ s.blockedIps _

theorem sourceTrackers_untouched (e : Env) : Untouched e State.sourceTrackers :=
  untouched_of_records fun _ _ _ _ => rfl

theorem beaconTrackers_untouched (e : Env) : Untouched e State.beaconTrackers :=
  untouched_of_records fun _ _ _ _ => rfl

namespace Untouched

variable {β : Type} {e : Env} {f : State → β} {s : State} {p : TcpPacket} {t : SourceTracker}

theorem intelStage (hf : Untouched e f) : f (intelStage e s p) = f s := by
  unfold Anomalies.intelStage
  dsimp only
  split
  · rfl
  · split
    · rfl
    · exact hf ..

theorem portScanStage (hf : Untouched e f) : f (portScanStage e t s p) = f s := by
  unfold Anomalies.portScanStage
  split
  · exact hf ..
  · rfl

theorem sshStage (hf : Untouched e f) : f (sshStage e t s p) = f s := by
  unfold Anomalies.sshStage
  split
  · rfl
  · split
    · exact hf ..
    · rfl

theorem wormStage (hf : Untouched e f) : f (wormStage e t s p) = f s := by
  unfold Anomalies.wormStage
  generalize t.portDstIps.entries = l
  induction l generalizing s with
  | nil => rfl
  | cons x l ih =>
    rw [List.foldl_cons, ih]
    unfold wormPort
    split
    · rfl
    · split
      · exact hf ..
      · rfl

theorem ddosStage (hf : Untouched e f) : f (ddosStage e t s p) = f s := by
  unfold Anomalies.ddosStage
  dsimp only
  split
  · split
    · exact hf ..
    · rfl
  · rfl

/-- Only the first two stages do more than alert. -/
theorem check (hf : Untouched e f) :
    f (checkConnectionAnomalies e s p) = f (synStage e (ttlStage e s p) p) := by
  unfold checkConnectionAnomalies
  rw [hf.ddosStage, hf.wormStage, hf.sshStage, hf.portScanStage, hf.intelStage]

end Untouched

/-! ## The whole call -/

structure Sensor where
  table : Reassembler := {}
  anomalies : State := {}

/-- mirrors src/src/tcp_reassembly.cpp:505-528 -/
def evasionAlert (e : Env) (s : State) (cid : ConnectionId) : State :=
  emitAlert e s cid (lit "TCP Evasion")
    (lit "Overlapping TCP segment with conflicting data (reassembly-ambiguity evasion attempt)")
    ([e.hash32 cid.srcIp, e.hash32 cid.dstIp, e.hash16 cid.srcPort, e.hash16 cid.dstPort,
      e.hash64 0xEEEE0001].foldl hashCombine 0)

/-- mirrors src/src/tcp_reassembly.cpp:423-565 -/
def processTcpPacket (e : Env) (s : Sensor) (p : TcpPacket) : Sensor :=
  let a := checkConnectionAnomalies e s.anomalies p
  let r := processTcp s.table p
  { table := r.1, anomalies := if r.2 then evasionAlert e a p.cid else a }

/-- mirrors src/src/tcp_reassembly.cpp:379-390 -/
def processUdp (s : Sensor) (src dst : UInt32) : Sensor :=
  if isLocal dst then s
  else
    let t := s.anomalies.tracker src
    { s with anomalies := s.anomalies.setTracker src { t with extDsts := insert dst t.extDsts } }

/-- The new state and the source address for the caller; `none` is a read
past the capture.
mirrors src/src/tcp_reassembly.cpp:373-565 -/
def processIpPacket (e : Env) (s : Sensor) (packet : Bytes) (time : Rat) :
    Option (Sensor × UInt32) :=
  (parseIpPacket packet time).map fun
    | .short => (s, 0)
    | .udp src dst => (processUdp s src dst, src)
    | .other src => (s, src)
    | .tcp p => (processTcpPacket e s p, p.cid.srcIp)

/-! ## Eviction -/

/-- mirrors src/include/tcp_reassembly.hpp:208-210 -/
def maxSourceTrackers : Nat := 100000

def maxBeaconTrackers : Nat := 50000

def maxDedupHashes : Nat := 100000

/-- mirrors src/src/tcp_reassembly.cpp:634-651 -/
def pruneBeacons (m : UMap UInt64 BeaconTracker) : UMap UInt64 BeaconTracker :=
  if maxBeaconTrackers < m.size then
    let m := (m.sweep (fun _ bt => decide (bt.synTimestamps.length < 3)) (fun s _ _ => s) ()).2
    if maxBeaconTrackers < m.size then .empty else m
  else m

/-- mirrors src/src/tcp_reassembly.cpp:628-655 -/
def capTrackers (s : State) : State :=
  { s with
    sourceTrackers := if maxSourceTrackers < s.sourceTrackers.size then .empty else s.sourceTrackers
    beaconTrackers := pruneBeacons s.beaconTrackers
    alertedAnomalies := if maxDedupHashes < s.alertedAnomalies.card then ∅ else s.alertedAnomalies }

/-- mirrors src/src/tcp_reassembly.cpp:593-656 -/
def evictStale (e : Env) (now : Rat) (s : Sensor) : Sensor where
  table := evictStaleState e.toEnv now s.table
  anomalies :=
    if now - s.table.lastEvictionTime < evictionInterval then s.anomalies
    else capTrackers s.anomalies

end Wirewolf.L5.Anomalies
