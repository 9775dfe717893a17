import Mathlib.Data.Finset.Sort
import Wirewolf.Core.Numeral
import Wirewolf.Core.Sample
import Wirewolf.L5Pipeline.Responders

/-!
# The end of a capture (`flush_all_flows`)

Before the connections are flushed, two checks go over the trackers: every
beacon tracker with a regular train of SYNs is reported, and every source
that tried many mail servers is taken for a spam bot, with one alert for
each of its external destinations.

Times are exact and the square root is a parameter. The hash tables are
visited in the order of their entries, which `shuffle` may change at any
time; the destinations of a bot are reported in the order of their numbers.
-/
namespace Wirewolf.L5.Flush

open Wirewolf.L1.IpPacket Wirewolf.L1.Severity Wirewolf.L1.AlertJson
open Wirewolf.L3.Table (flushAllFlows)
open Wirewolf.L3.Behavior (ntohs)
open Wirewolf.L4.Worker (hashCombine ipToStr)
open Wirewolf.L5.Alerts Wirewolf.L5.Anomalies

structure Env extends toSensor : Anomalies.Env where
  /-- `std::sqrt` -/
  sqrt : Rat → Rat

/-- Inline mode and roots rounded down. -/
def wholeRoots : Env where
  toSensor := Responders.inlineEnv
  sqrt q := Nat.sqrt q.floor.toNat

/-! ## Beacons -/

/-- Ports of known C2 frameworks.
mirrors src/src/tcp_reassembly.cpp:985-997 -/
def isC2Port (hostPort : UInt16) : Bool :=
  [8043, 8443, 4443, 8080, 9090, 1443].contains hostPort

/-- mirrors src/src/tcp_reassembly.cpp:1052-1055 -/
def intervals (ts : List Rat) : List Rat := List.zipWith (· - ·) ts.tail ts

/-- mirrors src/src/tcp_reassembly.cpp:1058-1061 -/
def meanOf (ivs : List Rat) : Rat := ivs.sum / ivs.length

/-- The coefficient of variation.
mirrors src/src/tcp_reassembly.cpp:1071-1079 -/
def cvOf (e : Env) (ivs : List Rat) : Rat :=
  let mean := meanOf ivs
  let sqSum := (ivs.map fun iv => (iv - mean) * (iv - mean)).sum
  let stddev := e.sqrt (sqSum / ivs.length)
  if 0 < mean then stddev / mean else 999

/-- mirrors src/src/tcp_reassembly.cpp:1111-1114 -/
def flagged (e : Env) (ip : UInt32) : Bool :=
  match e.threatOf ip with
  | none => false
  | some threat => threat != [] && threat != lit "-"

/-- The gates before the dedup key.
mirrors src/src/tcp_reassembly.cpp:1044-1117 -/
def isBeacon (e : Env) (bt : BeaconTracker) : Bool :=
  let ivs := intervals bt.synTimestamps
  let mean := meanOf ivs
  let cv := cvOf e ivs
  let hostPort := ntohs bt.dstPort
  let cvThreshold : Rat := if isWeb bt.dstPort then 0.35 else 0.5
  let highVolume := !isWeb bt.dstPort && decide (50 ≤ bt.synTimestamps.length) && decide (cv < 1.5)
  if bt.synTimestamps.length < 8 then false
  else if mean < 15 ∨ 7200 < mean then false
  else if cvThreshold < cv && !highVolume then false
  else if hostPort = 80 ∨ hostPort = 443 then flagged e bt.dstIp
  else true

/-- `std::to_string` of a number from 0 up -/
def toString6 (q : Rat) : Bytes := point 6 (Double.roundEven (q * 10 ^ 6)).toNat

/-- mirrors src/src/tcp_reassembly.cpp:1119-1155 -/
def beaconAlert (e : Env) (bt : BeaconTracker) : ThreatAlert :=
  let hostPort := ntohs bt.dstPort
  let sev : SeverityInfo :=
    if isC2Port hostPort then severityForThreat (lit "C2 Beaconing") else ⟨.high, 8.7⟩
  let ivs := intervals bt.synTimestamps
  let hours := (bt.synTimestamps.getLastD 0 - bt.synTimestamps.headD 0) / 3600
  let snippet :=
    lit "C2 beaconing to " ++ ipToStr bt.dstIp ++ lit ":" ++ digits hostPort.toNat ++ lit " — " ++
      digits bt.synTimestamps.length ++ lit " connections at ~" ++
      digits (meanOf ivs).floor.toNat ++ lit "s intervals (CV=" ++
        (toString6 (cvOf e ivs)).take 4 ++
      lit ") over " ++ digits hours.floor.toNat ++ lit "h" ++
      (if isC2Port hostPort then
        lit " [port " ++ digits hostPort.toNat ++ lit " = known C2 framework]"
      else [])
  { threatAlert ⟨bt.srcIp, bt.dstIp, 0, bt.dstPort⟩ (lit "C2 Beaconing") snippet with
    severity := sev.label
    severityInfo := sev
    rawLlmOutput := buildAlertJson (lit "C2 Beaconing") sev snippet
    confidence := confidenceFor sev true }

/-- The dedup key of a tracker.
mirrors src/src/tcp_reassembly.cpp:1136-1137 -/
def beaconKey (e : Env) (key : UInt64) : UInt64 := hashCombine key (e.hash64 0xBBBB0001)

/-- One tracker; nothing is blocked.
mirrors src/src/tcp_reassembly.cpp:1043-1157 -/
def checkBeacon (e : Env) (s : State) (x : UInt64 × BeaconTracker) : State :=
  if !isBeacon e x.2 then s
  else if beaconKey e x.1 ∈ s.alertedAnomalies then s
  else
    let s := { s with alertedAnomalies := insert (beaconKey e x.1) s.alertedAnomalies }
    if !e.hasCallback then s else { s with alerts := s.alerts ++ [beaconAlert e x.2] }

/-- mirrors src/src/tcp_reassembly.cpp:979-1158 -/
def checkBeaconingAtFlush (e : Env) (s : State) : State :=
  s.beaconTrackers.entries.foldl (checkBeacon e) s

/-! ## Mass mailing -/

/-- mirrors src/src/tcp_reassembly.cpp:1168-1169 -/
def smtpPorts : List UInt16 := [ntohs 25, ntohs 465, ntohs 587]

/-- mirrors src/src/tcp_reassembly.cpp:1170 -/
def spamThreshold : Nat := 30

/-- mirrors src/src/tcp_reassembly.cpp:1175-1180 -/
def mailDsts (t : SourceTracker) : Finset UInt32 :=
  smtpPorts.foldl (fun dsts port => dsts ∪ (t.portDstIps.find? port).getD ∅) ∅

/-- mirrors src/src/tcp_reassembly.cpp:1189-1211 -/
def botnetAlert (src : UInt32) (t : SourceTracker) (dst : UInt32) : ThreatAlert :=
  threatAlert ⟨src, dst, 0, 0⟩ (lit "Botnet Host")
    (lit "Confirmed spam bot (" ++ digits (mailDsts t).card ++
      lit " distinct mail servers) — crediting full external footprint of " ++
      digits t.extDsts.card ++ lit " destinations")

/-- mirrors src/src/tcp_reassembly.cpp:1174-1212 -/
def checkSource (s : State) (x : UInt32 × SourceTracker) : State :=
  if (mailDsts x.2).card < spamThreshold then s
  else { s with alerts := s.alerts ++ (x.2.extDsts.sort).map (botnetAlert x.1 x.2) }

/-- mirrors src/src/tcp_reassembly.cpp:1160-1213 -/
def checkMassMailingAtFlush (e : Env) (s : State) : State :=
  if !e.hasCallback then s else s.sourceTrackers.entries.foldl checkSource s

/-- mirrors src/src/tcp_reassembly.cpp:1217-1278 -/
def flushSensor (e : Env) (s : Sensor) : Sensor where
  table := flushAllFlows e.toSensor.toEnv s.table
  anomalies := checkMassMailingAtFlush e (checkBeaconingAtFlush e s.anomalies)

/-! ## Runs -/

/-- What the sensor does during the capture, the flush at its end, and the
order in which the trackers come. -/
inductive Event where
  | sensor (l : Responders.Event)
  | flush
  | shuffle

def Step (e : Env) (s : Sensor) : Event → Sensor → Prop
  | .sensor l, s' => Responders.Step e.toSensor s l s'
  | .flush, s' => s' = flushSensor e s
  | .shuffle, s' => ∃ sources hs beacons hb, s' = { s with
      anomalies := { s.anomalies with
        sourceTrackers := s.anomalies.sourceTrackers.reorder sources hs
        beaconTrackers := s.anomalies.beaconTrackers.reorder beacons hb } }

def system (e : Env) : LTS Sensor Event := ⟨(· = {}), Step e⟩

theorem sensor_run {e : Env} {s s' : Sensor} {ls : List Responders.Event}
    (hr : (Responders.system e.toSensor).Run s ls s') : (system e).Run s (ls.map .sensor) s' := by
  induction hr with
  | nil => exact .nil _
  | cons hst _ ih => exact .cons hst ih

/-- The TCP packets of a run. -/
def tcpOf (ls : List Event) : List TcpPacket :=
  ls.filterMap fun
    | .sensor (.packet b time) =>
      match parseIpPacket b time with
      | some (.tcp p) => some p
      | _ => none
    | _ => none

/-! ## What the flush raises -/

section Alerts

variable {e : Env} {s : State}

/-- The trackers that a pass over them reports. -/
def reported (e : Env) : Finset UInt64 → List (UInt64 × BeaconTracker) → List BeaconTracker
  | _, [] => []
  | keys, x :: l =>
    if isBeacon e x.2 = true ∧ beaconKey e x.1 ∉ keys then
      x.2 :: reported e (insert (beaconKey e x.1) keys) l
    else reported e keys l

theorem fold_checkBeacon (hcb : e.hasCallback = true) (l : List (UInt64 × BeaconTracker))
    (s : State) :
    (l.foldl (checkBeacon e) s).alerts =
      s.alerts ++ (reported e s.alertedAnomalies l).map (beaconAlert e) := by
  induction l generalizing s with
  | nil => exact (List.append_nil _).symm
  | cons x l ih =>
    rw [List.foldl_cons, ih, reported]
    unfold checkBeacon
    by_cases hb : isBeacon e x.2 = true
    · by_cases hk : beaconKey e x.1 ∈ s.alertedAnomalies
      · simp [hb, hk]
      · simp [hb, hk, hcb]
    · simp [hb]

theorem checkBeacon_sources (x : UInt64 × BeaconTracker) :
    (checkBeacon e s x).sourceTrackers = s.sourceTrackers := by
  unfold checkBeacon
  split
  · rfl
  · split
    · rfl
    · dsimp only
      split <;> rfl

theorem checkBeaconing_sources :
    (checkBeaconingAtFlush e s).sourceTrackers = s.sourceTrackers := by
  unfold checkBeaconingAtFlush
  generalize s.beaconTrackers.entries = l
  induction l generalizing s with
  | nil => rfl
  | cons x l ih => rw [List.foldl_cons, ih, checkBeacon_sources]

/-- The alerts on the destinations of confirmed bots. -/
def botnetAlerts (l : List (UInt32 × SourceTracker)) : List ThreatAlert :=
  (l.filter fun x => decide (spamThreshold ≤ (mailDsts x.2).card)).flatMap fun x =>
    (x.2.extDsts.sort).map (botnetAlert x.1 x.2)

theorem fold_checkSource (l : List (UInt32 × SourceTracker)) (s : State) :
    l.foldl checkSource s = { s with alerts := s.alerts ++ botnetAlerts l } := by
  induction l generalizing s with
  | nil => simp [botnetAlerts]
  | cons x l ih =>
    rw [List.foldl_cons, ih]
    unfold checkSource botnetAlerts
    by_cases hm : (mailDsts x.2).card < spamThreshold
    · simp [hm, Nat.not_le.2 hm]
    · simp [hm, Nat.le_of_not_lt hm]

/-- The whole flush: the beacons first, then the bots. -/
theorem flush_alerts (hcb : e.hasCallback = true) (s : Sensor) :
    (flushSensor e s).anomalies.alerts = s.anomalies.alerts ++
      ((reported e s.anomalies.alertedAnomalies s.anomalies.beaconTrackers.entries).map
          (beaconAlert e) ++
        botnetAlerts s.anomalies.sourceTrackers.entries) := by
  show (checkMassMailingAtFlush e (checkBeaconingAtFlush e s.anomalies)).alerts = _
  rw [checkMassMailingAtFlush, hcb, Bool.not_true, if_neg Bool.false_ne_true, fold_checkSource]
  show (checkBeaconingAtFlush e s.anomalies).alerts ++ _ = _
  rw [checkBeaconing_sources, checkBeaconingAtFlush, fold_checkBeacon hcb, List.append_assoc]

theorem flush_silent (hcb : e.hasCallback = false) (s : Sensor) :
    (flushSensor e s).anomalies.alerts = s.anomalies.alerts := by
  have hfold : ∀ (l : List (UInt64 × BeaconTracker)) (s : State),
      (l.foldl (checkBeacon e) s).alerts = s.alerts := by
    intro l
    induction l with
    | nil => exact fun _ => rfl
    | cons x l ih =>
      intro s
      rw [List.foldl_cons, ih]
      unfold checkBeacon
      split
      · rfl
      · split
        · rfl
        · rw [hcb, Bool.not_false, if_pos rfl]
  show (checkMassMailingAtFlush e (checkBeaconingAtFlush e s.anomalies)).alerts = _
  rw [checkMassMailingAtFlush, hcb, Bool.not_false, if_pos rfl]
  exact hfold _ _

/-- The flush leaves the source trackers alone. -/
theorem flush_sources (e : Env) (s : Sensor) :
    (flushSensor e s).anomalies.sourceTrackers = s.anomalies.sourceTrackers := by
  show (checkMassMailingAtFlush e (checkBeaconingAtFlush e s.anomalies)).sourceTrackers = _
  unfold checkMassMailingAtFlush
  split
  · exact checkBeaconing_sources
  · rw [fold_checkSource]
    exact checkBeaconing_sources

end Alerts

end Wirewolf.L5.Flush
