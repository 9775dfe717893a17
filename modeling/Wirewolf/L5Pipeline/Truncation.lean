import Wirewolf.L1Encoding.IpReads
import Wirewolf.L5Pipeline.Responders

/-!
# Truncated captures

A capture with a snap length keeps the headers and loses payload. What the
sensor reassembles then differs: the payload, the position in the stream,
the buffered segments, the evasion verdict. The statistics of a flow and the
trackers are computed from the headers alone.

* `Cut`: a captured packet that lost bytes behind its headers.
* `Alike`: the same flows with the same statistics, the same trackers.
* `statistics_unaffected`: two captures that differ by cuts keep two sensors
  alike, as long as the table has room.
-/
namespace Wirewolf.L5.Truncation

open Wirewolf.L1.IpPacket Wirewolf.L1.IpReads
open Wirewolf.L2.Connection
open Wirewolf.L3.Table hiding Env system Step processIpPacket
open Wirewolf.L5.Alerts Wirewolf.L5.Anomalies
open Wirewolf.L5.Responders (feed)

/-- The fields of a connection that no payload byte enters.
mirrors src/include/tcp_reassembly.hpp:39-44 -/
structure Statistics where
  finReceived : Bool := false
  lastPacketTime : Rat := 0
  interArrivalSum : Rat := 0
  packetCount : Nat := 0
  lengthSum : Nat := 0
  lengthSqSum : Nat := 0
  deriving DecidableEq

def statistics (st : ConnectionState) : Statistics where
  finReceived := st.finReceived
  lastPacketTime := st.lastPacketTime
  interArrivalSum := st.interArrivalSum
  packetCount := st.packetCount
  lengthSum := st.lengthSum
  lengthSqSum := st.lengthSqSum

/-- The second packet is the first with bytes cut off behind its headers. -/
def Cut (x y : Bytes × Rat) : Prop := y.2 = x.2 ∧ ∃ n, headerEnd x.1 ≤ n ∧ y.1 = x.1.take n

/-- The sensors differ in reassembled data only. -/
structure Alike (s s' : Sensor) : Prop where
  flows : s.table.connections.map statistics = s'.table.connections.map statistics
  sources : s.anomalies.sourceTrackers = s'.anomalies.sourceTrackers
  beacons : s.anomalies.beaconTrackers = s'.anomalies.beaconTrackers

theorem Alike.refl (s : Sensor) : Alike s s := ⟨rfl, rfl, rfl⟩

theorem Alike.find? {s s' : Sensor} (h : Alike s s') (cid : ConnectionId) :
    (s.table.connections.find? cid).map statistics =
      (s'.table.connections.find? cid).map statistics := by
  rw [← UMap.find?_map, ← UMap.find?_map, h.flows]

theorem Alike.size {s s' : Sensor} (h : Alike s s') :
    s.table.connections.size = s'.table.connections.size := by
  rw [← UMap.size_map statistics, ← UMap.size_map statistics, h.flows]

/-! ## The table -/

/-- The statistics of one packet more. -/
def Statistics.receive (s : Statistics) (p : TcpPacket) : Statistics where
  finReceived := s.finReceived || (!p.syn && (p.rst || p.fin))
  lastPacketTime := p.time
  interArrivalSum :=
    if 0 < s.packetCount then s.interArrivalSum + (p.time - s.lastPacketTime) else s.interArrivalSum
  packetCount := s.packetCount + 1
  lengthSum := s.lengthSum + p.payloadLen
  lengthSqSum := s.lengthSqSum + p.payloadLen * p.payloadLen % 2 ^ 32

/-- Neither the stream nor the payload of the packet enters. -/
theorem statistics_receive (st : ConnectionState) (p : TcpPacket) :
    statistics (st.receive p).1 = (statistics st).receive p := rfl

theorem statistics_processTcp {r : Reassembler} (p : TcpPacket)
    (hroom : r.connections.size < maxConnections) :
    (processTcp r p).1.connections.map statistics =
      (r.connections.map statistics).put p.cid
        ((((r.connections.map statistics).find? p.cid).getD {}).receive p) := by
  rw [UMap.find?_map]
  unfold processTcp
  cases hf : r.connections.find? p.cid with
  | some st =>
    show (r.connections.put p.cid (st.receive p).1).map statistics = _
    rw [UMap.map_put, statistics_receive]
    rfl
  | none =>
    have hfull : ¬ maxConnections ≤ r.connections.size := Nat.not_le.2 hroom
    have hmake : makeRoom p.time r = r := by rw [makeRoom, if_neg hfull]
    dsimp only
    rw [hmake, if_neg hfull]
    show (r.connections.put p.cid (ConnectionState.receive {} p).1).map statistics = _
    rw [UMap.map_put, statistics_receive]
    rfl

/-! ## The trackers -/

section

variable {e : Env} {s s' : State} {p : TcpPacket}

theorem ttlStage_sources (e : Env) (s : State) (p : TcpPacket) :
    (ttlStage e s p).sourceTrackers = s.sourceTrackers.put p.cid.srcIp
      (if 0 < p.ttl && isLocal p.cid.srcIp then
        { s.tracker p.cid.srcIp with initialTtl := estimateInitialTtl p.ttl }
      else s.tracker p.cid.srcIp) := by
  unfold ttlStage
  dsimp only [State.setTracker]
  split
  · rw [sourceTrackers_untouched]
  · rfl

theorem ttlStage_beacons (e : Env) (s : State) (p : TcpPacket) :
    (ttlStage e s p).beaconTrackers = s.beaconTrackers := by
  unfold ttlStage
  dsimp only [State.setTracker]
  split
  · rw [beaconTrackers_untouched]
  · rfl

theorem check_trackers (hs : s.sourceTrackers = s'.sourceTrackers)
    (hb : s.beaconTrackers = s'.beaconTrackers) :
    (checkConnectionAnomalies e s p).sourceTrackers =
        (checkConnectionAnomalies e s' p).sourceTrackers ∧
      (checkConnectionAnomalies e s p).beaconTrackers =
        (checkConnectionAnomalies e s' p).beaconTrackers := by
  have hs₁ : (ttlStage e s p).sourceTrackers = (ttlStage e s' p).sourceTrackers := by
    rw [ttlStage_sources, ttlStage_sources, State.tracker, State.tracker, hs]
  have hb₁ : (ttlStage e s p).beaconTrackers = (ttlStage e s' p).beaconTrackers := by
    rw [ttlStage_beacons, ttlStage_beacons, hb]
  rw [(sourceTrackers_untouched e).check, (sourceTrackers_untouched e).check,
    (beaconTrackers_untouched e).check, (beaconTrackers_untouched e).check]
  unfold synStage
  cases p.syn with
  | false => exact ⟨hs₁, hb₁⟩
  | true =>
    cases isLan p.cid.dstIp <;>
      simp only [Bool.not_true, Bool.false_eq_true, if_false, if_true, State.setTracker,
        State.tracker, hs₁, hb₁, and_self]

end

/-! ## Runs -/

/-- The evasion verdict may differ; it raises an alert and no more. -/
theorem processTcpPacket_trackers (e : Env) (s : Sensor) (p : TcpPacket) :
    (processTcpPacket e s p).anomalies.sourceTrackers =
        (checkConnectionAnomalies e s.anomalies p).sourceTrackers ∧
      (processTcpPacket e s p).anomalies.beaconTrackers =
        (checkConnectionAnomalies e s.anomalies p).beaconTrackers := by
  unfold processTcpPacket
  dsimp only
  split
  · exact ⟨sourceTrackers_untouched .., beaconTrackers_untouched ..⟩
  · exact ⟨rfl, rfl⟩

theorem Alike.tcp {e : Env} {s s' : Sensor} (h : Alike s s')
    (hroom : s.table.connections.size < maxConnections) (p : TcpPacket) :
    Alike (processTcpPacket e s p) (processTcpPacket e s' p) where
  flows := by
    have hroom' : s'.table.connections.size < maxConnections := h.size ▸ hroom
    exact (statistics_processTcp p hroom).trans (h.flows ▸ (statistics_processTcp p hroom').symm)
  sources := by
    rw [(processTcpPacket_trackers e s p).1, (processTcpPacket_trackers e s' p).1]
    exact (check_trackers h.sources h.beacons).1
  beacons := by
    rw [(processTcpPacket_trackers e s p).2, (processTcpPacket_trackers e s' p).2]
    exact (check_trackers h.sources h.beacons).2

theorem Alike.tcp_lost {e : Env} {s s' : Sensor} (h : Alike s s')
    (hroom : s.table.connections.size < maxConnections) (p : TcpPacket) :
    Alike (processTcpPacket e s p) (processTcpPacket e s' (uncaptured p)) := by
  have hroom' : s'.table.connections.size < maxConnections := h.size ▸ hroom
  have hp := h.tcp (e := e) hroom p
  refine ⟨hp.flows.trans ?_, hp.sources.trans ?_, hp.beacons.trans ?_⟩
  · exact (statistics_processTcp p hroom').trans
      (statistics_processTcp (uncaptured p) hroom').symm
  · rw [(processTcpPacket_trackers e s' p).1, (processTcpPacket_trackers e s' (uncaptured p)).1]
    rfl
  · rw [(processTcpPacket_trackers e s' p).2, (processTcpPacket_trackers e s' (uncaptured p)).2]
    rfl

theorem Alike.udp {s s' : Sensor} (h : Alike s s') (src dst : UInt32) :
    Alike (processUdp s src dst) (processUdp s' src dst) := by
  unfold processUdp
  split
  · exact h
  · refine ⟨h.flows, ?_, h.beacons⟩
    simp only [State.setTracker, State.tracker, h.sources]

theorem Alike.packet {e : Env} {s s' : Sensor} (h : Alike s s')
    (hroom : s.table.connections.size < maxConnections) {x y : Bytes × Rat} (hcut : Cut x y) :
    ∃ r r', processIpPacket e s x.1 x.2 = some r ∧ processIpPacket e s' y.1 y.2 = some r' ∧
      Alike r.1 r'.1 := by
  obtain ⟨htime, n, hn, hbytes⟩ := hcut
  obtain ⟨q, hq⟩ := parseIpPacket_total x.1 x.2
  obtain ⟨q', hq', hshort⟩ := parse_take hn hq
  rw [processIpPacket, processIpPacket, htime, hbytes, hq, hq']
  refine ⟨_, _, rfl, rfl, ?_⟩
  cases hshort with
  | lost p => exact h.tcp_lost hroom p
  | same q =>
    cases q with
    | short => exact h
    | udp src dst => exact h.udp src dst
    | other src => exact h
    | tcp p => exact h.tcp hroom p

theorem alike_feed {e : Env} {xs ys : List (Bytes × Rat)} (hcut : List.Forall₂ Cut xs ys) :
    ∀ {s s' : Sensor}, Alike s s' →
      (∀ pre x t, pre ++ [x] <+: xs → feed e s pre = some t →
        t.table.connections.size < maxConnections) →
      ∃ t t', feed e s xs = some t ∧ feed e s' ys = some t' ∧ Alike t t' := by
  induction hcut with
  | nil => exact fun h _ => ⟨_, _, rfl, rfl, h⟩
  | @cons x y xs ys hxy _ ih =>
    intro s s' h hroom
    obtain ⟨r, r', hr, hr', hnext⟩ := h.packet (e := e) (hroom [] x s ⟨xs, rfl⟩ rfl) hxy
    have hrest : ∀ pre z t, pre ++ [z] <+: xs → feed e r.1 pre = some t →
        t.table.connections.size < maxConnections := by
      intro pre z t hpre ht
      refine hroom (x :: pre) z t ((List.prefix_cons_inj x).2 hpre) ?_
      rw [feed, hr, Option.bind_some]
      exact ht
    obtain ⟨t, t', ht, ht', halike⟩ := ih hnext hrest
    refine ⟨t, t', ?_, ?_, halike⟩
    · rw [feed, hr, Option.bind_some]
      exact ht
    · rw [feed, hr', Option.bind_some]
      exact ht'

/-- Over every capture and every state of the sensor; the initial TTL is part
of the source tracker. -/
theorem statistics_unaffected (e : Env) (s : Sensor) (xs ys : List (Bytes × Rat))
    (hcut : List.Forall₂ Cut xs ys)
    (hroom : ∀ pre x t, pre ++ [x] <+: xs → feed e s pre = some t →
      t.table.connections.size < maxConnections) :
    ∃ t t', feed e s xs = some t ∧ feed e s ys = some t' ∧
      (∀ cid, (t.table.connections.find? cid).map statistics =
        (t'.table.connections.find? cid).map statistics) ∧
      t.anomalies.sourceTrackers = t'.anomalies.sourceTrackers ∧
      t.anomalies.beaconTrackers = t'.anomalies.beaconTrackers := by
  obtain ⟨t, t', ht, ht', h⟩ := alike_feed (e := e) hcut (Alike.refl s) hroom
  exact ⟨t, t', ht, ht', h.find?, h.sources, h.beacons⟩

/-- Four bytes from 10.0.0.5 to port 22 of 192.0.2.1, with the last two bytes
of the sequence number. -/
def dataPacket (hi lo : UInt8) : Bytes :=
  [0x45, 0, 0, 44, 0, 0, 0, 0, 64, 6, 0, 0, 10, 0, 0, 5, 192, 0, 2, 1,
   0, 80, 0, 22, 0, 0, hi, lo, 0, 0, 0, 2, 0x50, 0x10, 0xFF, 0xFF, 0, 0, 0, 0,
   0x57, 0x4F, 0x4C, 0x46]

theorem statistics_unaffected_two :
    let xs := [(dataPacket 0 1, (0 : Rat)), (dataPacket 0 5, 1)]
    let ys := [((dataPacket 0 1).take 40, (0 : Rat)), ((dataPacket 0 5).take 42, 1)]
    ∃ t t', feed Responders.inlineEnv {} xs = some t ∧ feed Responders.inlineEnv {} ys = some t' ∧
      (∀ cid, (t.table.connections.find? cid).map statistics =
        (t'.table.connections.find? cid).map statistics) ∧
      t.anomalies.sourceTrackers = t'.anomalies.sourceTrackers ∧
      t.anomalies.beaconTrackers = t'.anomalies.beaconTrackers := by
  have hcut : List.Forall₂ Cut [(dataPacket 0 1, (0 : Rat)), (dataPacket 0 5, 1)]
      [((dataPacket 0 1).take 40, (0 : Rat)), ((dataPacket 0 5).take 42, 1)] :=
    .cons ⟨rfl, 40, by decide, rfl⟩ (.cons ⟨rfl, 42, by decide, rfl⟩ .nil)
  refine statistics_unaffected Responders.inlineEnv {} _ _ hcut fun pre x t hpre ht => ?_
  match pre, hpre with
  | [], _ => cases ht; decide
  | [_], hpre =>
    obtain ⟨rfl, -⟩ := List.cons_prefix_cons.1 hpre
    have hone : (feed Responders.inlineEnv {} [(dataPacket 0 1, 0)]).all
        (fun t => decide (t.table.connections.size < maxConnections)) = true := by decide
    rw [ht] at hone
    exact of_decide_eq_true hone
  | _ :: _ :: pre, hpre =>
    have := hpre.length_le
    simp at this

end Wirewolf.L5.Truncation
