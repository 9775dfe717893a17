import Wirewolf.L3Table.Removal
import Wirewolf.L5Pipeline.Containment
import Wirewolf.L5Pipeline.Footprint
import Wirewolf.L5Pipeline.Volumetric

/-!
# Whom an alert can name

Every stage that raises alerts builds the two addresses from what it keeps: a
packet at hand, the key of a connection, a tracker of SYNs, a footprint. Each of
these goes back to a packet that was seen between the two hosts, in the
direction that the alert gives.

* `attributed_step`: what the sensor keeps goes back to packets, in every step.
* `runPcap_attributed`: so does all that a capture file leaves.
* `alerts_between_hosts`: no alert of an analysis, whichever stage raises it,
  names two hosts without a packet from the one to the other.
-/
namespace Wirewolf.L5.Provenance

open Wirewolf.L1.IpPacket
open Wirewolf.L3.Table hiding Env system Step processIpPacket
open Wirewolf.L5.Alerts Wirewolf.L5.Anomalies Wirewolf.L5.Capture Wirewolf.L5.Detection
open Wirewolf.L5.Flush (Event Step flushSensor wholeRoots)
open Wirewolf.L5.Footprint (header records footprint step_footprint)
open Wirewolf.L5.Offline Wirewolf.L5.Scheduling
open Wirewolf.L5.Responders (Raises Rehash emitAlert_raises synStage_raises)
open Wirewolf.L5.Volumetric (Emits)

/-! ## What the sensor keeps -/

/-- Source and destination of a packet that the sensor takes in. -/
def endpoints (l : Event) : Option (UInt32 × UInt32) :=
  match header l with
  | some (.tcp p) => some (p.cid.srcIp, p.cid.dstIp)
  | some (.udp src dst) => some (src, dst)
  | _ => none

/-- All pairs of addresses that the sensor keeps are linked. -/
structure Attributed (L : UInt32 → UInt32 → Prop) (s : Sensor) : Prop where
  connections : ∀ x ∈ s.table.connections.entries, L x.1.srcIp x.1.dstIp
  flows : ∀ f ∈ s.table.outputQueue, L f.id.srcIp f.id.dstIp
  alerts : ∀ a ∈ s.anomalies.alerts, L a.connection.srcIp a.connection.dstIp
  footprints : ∀ src, ∀ dst ∈ footprint s.anomalies src, L src dst
  beacons : ∀ x ∈ s.anomalies.beaconTrackers.entries, L x.2.srcIp x.2.dstIp

/-- An event puts its own pair on record only. -/
def Admits (L : UInt32 → UInt32 → Prop) (l : Event) : Prop := ∀ x, endpoints l = some x → L x.1 x.2

section Sensor

variable {L : UInt32 → UInt32 → Prop} {e : Anomalies.Env} {a : ThreatAlert} {p : TcpPacket}
  {s s' : Anomalies.State}

theorem attributed_init : Attributed L {} :=
  ⟨nofun, nofun, nofun, fun _ _ hdst => absurd hdst (Finset.notMem_empty _), nofun⟩

theorem mem_emits {σ : List Volumetric.Subject} (h : Emits e p σ s s') (ha : a ∈ s'.alerts) :
    a ∈ s.alerts ∨ a.connection = anomalyConn p := by
  induction h with
  | nil => exact .inl ha
  | @cons s s' σ l threatType snippet _ _ ih =>
    have hraises : Raises (fun a => a.connection = anomalyConn p) s
        (emitAlert e s (anomalyConn p) threatType snippet (σ.key e)) := emitAlert_raises rfl
    obtain ⟨new, hnew, hown, -⟩ := hraises
    rcases ih ha with ha | ha
    · rw [hnew] at ha
      exact (List.mem_append.1 ha).imp_right (hown a)
    · exact .inr ha

/-- An alert on a packet names the hosts of this packet. -/
theorem mem_check (ha : a ∈ (checkConnectionAnomalies e s p).alerts) :
    a ∈ s.alerts ∨ a.connection = anomalyConn p := by
  unfold checkConnectionAnomalies at ha
  dsimp only at ha
  obtain ⟨_, -, hddos⟩ := Volumetric.ddosStage_emits (e := e) (p := p)
  obtain ⟨_, -, hintel⟩ := Volumetric.intelStage_emits (e := e) (p := p)
  obtain ⟨_, s₁, t, -, httl, heq⟩ := Volumetric.ttlStage_emits (e := e) (p := p) (s := s)
  refine (mem_emits hddos ha).elim (fun ha => ?_) .inr
  refine (mem_emits Volumetric.wormStage_emits ha).elim (fun ha => ?_) .inr
  refine (mem_emits Volumetric.sshStage_emits ha).elim (fun ha => ?_) .inr
  refine (mem_emits Volumetric.portScanStage_emits ha).elim (fun ha => ?_) .inr
  refine (mem_emits hintel ha).elim (fun ha => ?_) .inr
  obtain ⟨new, hnew, hnone, -⟩ := synStage_raises (P := fun _ => False) (e := e) (p := p)
    (s := ttlStage e s p)
  rw [hnew, List.eq_nil_iff_forall_not_mem.2 hnone, List.append_nil, heq] at ha
  exact mem_emits httl ha

end Sensor

/-! ## The table -/

section Table

open Wirewolf.L3.Removal (Pushes completeFlow_pushes flushFlow_pushes evictFlow_pushes)

variable {L : UInt32 → UInt32 → Prop} {e : L3.Table.Env} {r : Reassembler}

/-- A pass pushes flows of connections in the table. -/
theorem sweep_flows {g : Sinks → ConnectionId → L2.Connection.ConnectionState → Sinks}
    {pay : ConnectionId → L2.Connection.ConnectionState → List Bytes} (hg : Pushes g pay)
    (cond : ConnectionId → L2.Connection.ConnectionState → Bool)
    (hc : ∀ x ∈ r.connections.entries, L x.1.srcIp x.1.dstIp)
    (hf : ∀ f ∈ r.outputQueue, L f.id.srcIp f.id.dstIp) :
    ∀ f ∈ (r.connections.sweep cond g r.toSinks).1.outputQueue, L f.id.srcIp f.id.dstIp := by
  refine UMap.sweep_keeps (I := fun s : Sinks => ∀ f ∈ s.outputQueue, L f.id.srcIp f.id.dstIp) cond
    (fun s x hx hs f hmem => ?_) hf
  obtain ⟨new, hqueue, hlabels⟩ := hg s x.1 x.2
  rw [hqueue] at hmem
  rcases List.mem_append.1 hmem with hmem | hmem
  · exact hs f hmem
  · have hlabel : L3.Removal.label f ∈ (pay x.1 x.2).map fun b => (x.1, b) :=
      hlabels ▸ List.mem_map_of_mem hmem
    obtain ⟨b, -, hb⟩ := List.mem_map.1 hlabel
    have hid : x.1 = f.id := congrArg Prod.fst hb
    exact hid ▸ hc x hx

theorem removal_flows (hc : ∀ x ∈ r.connections.entries, L x.1.srcIp x.1.dstIp)
    (hf : ∀ f ∈ r.outputQueue, L f.id.srcIp f.id.dstIp) (m : Removal) :
    ∀ f ∈ (m.run e r).outputQueue, L f.id.srcIp f.id.dstIp := by
  have hcomplete : ∀ f ∈ (checkCompleteFlows e r).outputQueue, L f.id.srcIp f.id.dstIp :=
    sweep_flows (completeFlow_pushes e) _ hc hf
  cases m with
  | complete => exact hcomplete
  | flush =>
    exact sweep_flows (flushFlow_pushes e) (fun _ _ => true)
      (fun x hx => hc x (mem_of_removal (m := .complete) hx)) hcomplete
  | evict now =>
    rw [Removal.run, evictStaleState]
    split
    · exact hf
    · exact sweep_flows (evictFlow_pushes e) _ hc hf
  | forceEvict now =>
    rw [Removal.run, forceEvictOldest]
    split <;> exact hf

theorem processTcp_connections {p : TcpPacket} (hp : L p.cid.srcIp p.cid.dstIp)
    (hc : ∀ x ∈ r.connections.entries, L x.1.srcIp x.1.dstIp) :
    ∀ x ∈ (processTcp r p).1.connections.entries, L x.1.srcIp x.1.dstIp := by
  intro x hx
  have hput : ∀ m : UMap ConnectionId L2.Connection.ConnectionState, ∀ st,
      (∀ y ∈ m.entries, y ∈ r.connections.entries) → x ∈ (m.put p.cid st).entries →
      L x.1.srcIp x.1.dstIp := by
    intro m st hm hx
    rcases UMap.mem_put.1 hx with rfl | ⟨hx, -⟩
    · exact hp
    · exact hc x (hm x hx)
  rcases processTcp_cases r p with ⟨st, -, he⟩ | ⟨-, -, he⟩ | ⟨-, -, he⟩ <;> rw [he] at hx
  · exact hput _ _ (fun _ hy => hy) hx
  · exact hc x (mem_of_makeRoom hx)
  · exact hput _ _ (fun _ hy => mem_of_makeRoom hy) hx

end Table

/-! ## One step -/

section Steps

variable {L : UInt32 → UInt32 → Prop} {e : Flush.Env} {s s' : Sensor} {l : Event}

theorem addBeacon_linked {m : UMap UInt64 BeaconTracker} {id : ConnectionId}
    (hid : L id.srcIp id.dstIp)
    (hm : ∀ x ∈ m.entries, L x.2.srcIp x.2.dstIp) (time : Rat) :
    ∀ x ∈ (addBeacon e.toSensor m id time).entries, L x.2.srcIp x.2.dstIp := by
  intro x hx
  unfold addBeacon at hx
  rcases UMap.mem_put.1 hx with rfl | ⟨hx, -⟩
  · dsimp only
    split
    · exact hid
    · next hfull =>
      -- a tracker that was there keeps the addresses of its first SYN
      cases hfind : m.find? ([e.hash32 id.srcIp, e.hash32 id.dstIp,
          e.hash64 id.dstPort.toUInt64].foldl L4.Worker.hashCombine 0) with
      | none => rw [hfind] at hfull; exact absurd rfl hfull
      | some bt => exact hm _ (UMap.find?_eq_some.1 hfind)
  · exact hm x hx

theorem synStage_beacons {a : Anomalies.State} {p : TcpPacket} (hp : L p.cid.srcIp p.cid.dstIp)
    (h : ∀ x ∈ a.beaconTrackers.entries, L x.2.srcIp x.2.dstIp) :
    ∀ x ∈ (synStage e.toSensor a p).beaconTrackers.entries, L x.2.srcIp x.2.dstIp := by
  unfold synStage
  split
  · exact h
  · dsimp only
    split
    · exact h
    · exact addBeacon_linked hp h _

theorem mem_pruneBeacons {m : UMap UInt64 BeaconTracker} {x : UInt64 × BeaconTracker}
    (hx : x ∈ (pruneBeacons m).entries) : x ∈ m.entries := by
  unfold pruneBeacons at hx
  split at hx
  · dsimp only at hx
    split at hx
    · cases hx
    · exact (UMap.mem_sweep.1 hx).1
  · exact hx

theorem mem_reported {keys : Finset UInt64} {entries : List (UInt64 × BeaconTracker)}
    {bt : BeaconTracker}
    (h : bt ∈ Flush.reported e keys entries) : ∃ x ∈ entries, x.2 = bt := by
  induction entries generalizing keys with
  | nil => cases h
  | cons x entries ih =>
    rw [Flush.reported] at h
    split at h
    · rcases List.mem_cons.1 h with rfl | h
      · exact ⟨x, List.mem_cons_self, rfl⟩
      · obtain ⟨y, hy, hbt⟩ := ih h
        exact ⟨y, List.mem_cons_of_mem _ hy, hbt⟩
    · obtain ⟨y, hy, hbt⟩ := ih h
      exact ⟨y, List.mem_cons_of_mem _ hy, hbt⟩

theorem flush_beacons :
    (flushSensor e s).anomalies.beaconTrackers = s.anomalies.beaconTrackers := by
  have hcheck : ∀ (entries : List (UInt64 × BeaconTracker)) (a : Anomalies.State),
      (entries.foldl (Flush.checkBeacon e) a).beaconTrackers = a.beaconTrackers := by
    intro entries
    induction entries with
    | nil => exact fun _ => rfl
    | cons x entries ih =>
      intro a
      rw [List.foldl_cons, ih]
      unfold Flush.checkBeacon
      split
      · rfl
      · split
        · rfl
        · dsimp only
          split <;> rfl
  show (Flush.checkMassMailingAtFlush e
    (Flush.checkBeaconingAtFlush e s.anomalies)).beaconTrackers = _
  unfold Flush.checkMassMailingAtFlush
  split
  · exact hcheck _ _
  · rw [Flush.fold_checkSource]
    exact hcheck _ _

theorem packet_attributed {b : Bytes} {time : Rat}
    (hst : Step e s (.sensor (.packet b time)) s') (hl : Admits L (.sensor (.packet b time)))
    (h : Attributed L s) : Attributed L s' := by
  have hprints := (step_footprint hst).1
  obtain ⟨ret, hp⟩ := hst
  obtain ⟨q, hq, he⟩ := Option.map_eq_some_iff.1 hp
  have hl : ∀ x, endpoints (.sensor (.packet b time)) = some x → L x.1 x.2 := hl
  rw [endpoints, header, hq] at hl
  have hfoot : ∀ src, ∀ dst ∈ footprint s'.anomalies src, L src dst := by
    intro src dst hdst
    rcases hprints src dst hdst with hdst | hrec
    · exact h.footprints src dst hdst
    · rw [records, header, hq] at hrec
      cases q with
      | short => cases hrec
      | other src => cases hrec
      | udp src' dst' =>
        dsimp only at hrec
        split at hrec
        · cases hrec
        · cases List.mem_singleton.1 hrec
          exact hl _ rfl
      | tcp p =>
        dsimp only at hrec
        split at hrec
        · cases List.mem_singleton.1 hrec
          exact hl _ rfl
        · cases hrec
  cases q with
  | short => cases he; exact h
  | other src => cases he; exact h
  | udp src dst =>
    obtain ⟨rfl, -⟩ := Prod.mk.inj he
    have hsame : (processUdp s src dst).table = s.table ∧
        (processUdp s src dst).anomalies.alerts = s.anomalies.alerts ∧
        (processUdp s src dst).anomalies.beaconTrackers = s.anomalies.beaconTrackers := by
      unfold processUdp
      split
      · exact ⟨rfl, rfl, rfl⟩
      · exact ⟨rfl, rfl, rfl⟩
    obtain ⟨htable, halerts, hbeacons⟩ := hsame
    exact ⟨htable ▸ h.connections, htable ▸ h.flows, halerts ▸ h.alerts, hfoot,
      hbeacons ▸ h.beacons⟩
  | tcp p =>
    cases he
    have hpair : L p.cid.srcIp p.cid.dstIp := hl _ rfl
    have hchecked : ∀ a ∈ (checkConnectionAnomalies e.toSensor s.anomalies p).alerts,
        L a.connection.srcIp a.connection.dstIp := by
      intro a ha
      rcases mem_check ha with ha | hown
      · exact h.alerts a ha
      · rw [hown]
        exact hpair
    refine ⟨processTcp_connections hpair h.connections, ?_, ?_, hfoot, ?_⟩
    · show ∀ f ∈ (processTcp s.table p).1.outputQueue, _
      rw [processTcp_queue]
      exact h.flows
    · unfold processTcpPacket
      dsimp only
      split
      · have hraises : Raises (fun a => a.connection = p.cid)
            (checkConnectionAnomalies e.toSensor s.anomalies p)
            (evasionAlert e.toSensor (checkConnectionAnomalies e.toSensor s.anomalies p) p.cid) :=
          emitAlert_raises rfl
        obtain ⟨new, hnew, hown, -⟩ := hraises
        intro a ha
        rw [hnew] at ha
        rcases List.mem_append.1 ha with ha | ha
        · exact hchecked a ha
        · rw [hown a ha]
          exact hpair
      · exact hchecked
    · have hbeacons : (processTcpPacket e.toSensor s p).anomalies.beaconTrackers =
          (synStage e.toSensor (ttlStage e.toSensor s.anomalies p) p).beaconTrackers := by
        unfold processTcpPacket
        dsimp only
        split
        · rw [evasionAlert, beaconTrackers_untouched, (beaconTrackers_untouched e.toSensor).check]
        · rw [(beaconTrackers_untouched e.toSensor).check]
      show ∀ x ∈ (processTcpPacket e.toSensor s p).anomalies.beaconTrackers.entries, _
      rw [hbeacons]
      exact synStage_beacons hpair
        (Truncation.ttlStage_beacons e.toSensor s.anomalies p ▸ h.beacons)

/-- A beacon is reported for the addresses of its tracker, a bot for its
footprint. -/
theorem flush_linked (h : Attributed L s) :
    ∀ a ∈ (flushSensor e s).anomalies.alerts, L a.connection.srcIp a.connection.dstIp := by
  cases hcb : e.hasCallback with
  | false =>
    rw [Flush.flush_silent hcb]
    exact h.alerts
  | true =>
    rw [Flush.flush_alerts hcb]
    intro a ha
    rcases List.mem_append.1 ha with ha | ha
    · exact h.alerts a ha
    rcases List.mem_append.1 ha with ha | ha
    · obtain ⟨bt, hbt, rfl⟩ := List.mem_map.1 ha
      obtain ⟨x, hx, rfl⟩ := mem_reported hbt
      exact h.beacons x hx
    · obtain ⟨x, hx, ha⟩ := List.mem_flatMap.1 ha
      obtain ⟨dst, hdst, rfl⟩ := List.mem_map.1 ha
      have hfind : s.anomalies.tracker x.1 = x.2 := by
        rw [State.tracker, UMap.find?_eq_some.2 (List.mem_of_mem_filter hx)]
        rfl
      refine h.footprints x.1 dst ?_
      rw [footprint, hfind]
      exact (Finset.mem_sort _).1 hdst

/-- Only a packet puts a pair on record, its own. -/
theorem attributed_step (hst : Step e s l s') (hl : Admits L l) (h : Attributed L s) :
    Attributed L s' := by
  have hfoot : records l = [] → ∀ src, ∀ dst ∈ footprint s'.anomalies src, L src dst := by
    intro hnone src dst hdst
    rcases (step_footprint hst).1 src dst hdst with hdst | hrec
    · exact h.footprints src dst hdst
    · rw [hnone] at hrec
      cases hrec
  cases l with
  | flush =>
    obtain rfl : s' = flushSensor e s := hst
    exact ⟨fun x hx => h.connections x (mem_of_removal (m := .flush) hx),
      removal_flows h.connections h.flows .flush, flush_linked h, hfoot rfl, by
        rw [flush_beacons]
        exact h.beacons⟩
  | shuffle =>
    have hfoot := hfoot rfl
    obtain ⟨sources, hsources, beacons, hbeacons, rfl⟩ := hst
    exact ⟨h.connections, h.flows, h.alerts, hfoot, fun x hx => h.beacons x (hbeacons.subset hx)⟩
  | sensor l =>
    cases l with
    | packet b time => exact packet_attributed hst hl h
    | complete =>
      have hfoot := hfoot rfl
      cases hst
      exact ⟨fun x hx => h.connections x (mem_of_removal (m := .complete) hx),
        removal_flows h.connections h.flows .complete, h.alerts, hfoot, h.beacons⟩
    | evict now =>
      have hfoot := hfoot rfl
      cases hst
      refine ⟨fun x hx => h.connections x (mem_of_removal (m := .evict now) hx),
        removal_flows h.connections h.flows (.evict now), ?_, hfoot, ?_⟩
      · unfold evictStale
        dsimp only
        split <;> exact h.alerts
      · unfold evictStale
        dsimp only
        split
        · exact h.beacons
        · exact fun x hx => h.beacons x (mem_pruneBeacons hx)
    | block ip =>
      have hfoot := hfoot rfl
      cases hst
      refine ⟨h.connections, h.flows, ?_, hfoot, ?_⟩
      · rw [blockSource_alerts]
        exact h.alerts
      · rw [blockSource_beaconTrackers]
        exact h.beacons
    | unblock ip =>
      have hfoot := hfoot rfl
      cases hst
      exact ⟨h.connections, h.flows, h.alerts, hfoot, h.beacons⟩
    | rehash =>
      have hfoot := hfoot rfl
      cases hst with
      | table l hl =>
        exact ⟨fun x hx => h.connections x (hl.subset hx), h.flows, h.alerts, hfoot, h.beacons⟩
      | ports ip l hl => exact ⟨h.connections, h.flows, h.alerts, hfoot, h.beacons⟩

end Steps

/-! ## A capture file -/

/-- Source and destination of an IPv4 frame.
mirrors src/tool/ipscan.cpp:65-71 -/
def hostsOf (frame : Bytes × Rat) : Option (UInt32 × UInt32) :=
  if frame.1.length < 34 then none
  else if be16 frame.1 12 ≠ some 0x0800 then none
  else do
    let src ← le32 frame.1 26
    let dst ← le32 frame.1 30
    return (.ofNat src, .ofNat dst)

/-- Some frame of the file went from the one host to the other. -/
def Seen (bs : List Batch) (src dst : UInt32) : Prop :=
  ∃ b ∈ bs, ∃ frame ∈ b, hostsOf frame = some (src, dst)

theorem le32_drop (p : Bytes) (k i : Nat) : le32 (p.drop k) i = le32 p (k + i) := by
  simp only [le32, le16, List.getElem?_drop, Nat.add_assoc]

/-- The scan reads the addresses that the sensor reads. -/
theorem hostsOf_eq {frame : Bytes × Rat} {x : UInt32 × UInt32} (hip : be16 frame.1 12 = some 0x0800)
    (h : endpoints (.sensor (.packet (frame.1.drop 14) frame.2)) = some x) : hostsOf frame =
      some x := by
  rw [endpoints, header] at h
  have hread : ∀ saddr daddr : Nat, ¬ (frame.1.drop 14).length < 20 →
      le32 (frame.1.drop 14) 12 = some saddr → le32 (frame.1.drop 14) 16 = some daddr →
        hostsOf frame = some (.ofNat saddr, .ofNat daddr) := by
    intro saddr daddr hlen hs hd
    rw [List.length_drop] at hlen
    rw [le32_drop] at hs hd
    rw [hostsOf, if_neg (by omega), hip, if_neg (fun hne => hne rfl), hs, hd]
    rfl
  cases hparse : parseIpPacket (frame.1.drop 14) frame.2 with
  | none => rw [hparse] at h; cases h
  | some q =>
    rw [hparse] at h
    unfold parseIpPacket at hparse
    split at hparse
    · cases hparse; cases h
    next hlen =>
      obtain ⟨protocol, -, hparse⟩ := Option.bind_eq_some_iff.1 hparse
      obtain ⟨saddr, hs, hparse⟩ := Option.bind_eq_some_iff.1 hparse
      obtain ⟨daddr, hd, hparse⟩ := Option.bind_eq_some_iff.1 hparse
      split at hparse
      · cases hparse; cases h
        exact hread saddr daddr hlen hs hd
      split at hparse
      · cases hparse; cases h
      obtain ⟨b₀, -, hparse⟩ := Option.bind_eq_some_iff.1 hparse
      dsimp only at hparse
      generalize (b₀ &&& 0x0F).toNat * 4 = ihl at hparse
      split at hparse
      · cases hparse; cases h
      obtain ⟨offsetRes, -, hparse⟩ := Option.bind_eq_some_iff.1 hparse
      split at hparse
      · cases hparse; cases h
      split at hparse
      · cases hparse
      split at hparse
      · cases hparse; cases h
      obtain ⟨sport, -, hparse⟩ := Option.bind_eq_some_iff.1 hparse
      obtain ⟨dport, -, hparse⟩ := Option.bind_eq_some_iff.1 hparse
      obtain ⟨seq, -, hparse⟩ := Option.bind_eq_some_iff.1 hparse
      obtain ⟨flags, -, hparse⟩ := Option.bind_eq_some_iff.1 hparse
      obtain ⟨ttl, -, hparse⟩ := Option.bind_eq_some_iff.1 hparse
      cases hparse; cases h
      exact hread saddr daddr hlen hs hd

section Capture

variable {L : UInt32 → UInt32 → Prop} {e : Flush.Env} {s s' : Sensor}

theorem admits_quiet {l : Event} (h : endpoints l = none) : Admits L l := fun x hx => by
  rw [h] at hx
  cases hx

theorem processPacket_attributed {frame : Bytes × Rat}
    (hframe : ∀ x, hostsOf frame = some x → L x.1 x.2)
    (hp : processPacket e.toSensor s frame = some s') (h : Attributed L s) : Attributed L s' := by
  unfold processPacket at hp
  split at hp
  · cases hp; exact h
  · split at hp
    · cases hp; exact h
    · next hip =>
      obtain ⟨r, hr, rfl⟩ := Option.map_eq_some_iff.1 hp
      have hst : Step e s (.sensor (.packet (frame.1.drop 14) frame.2)) r.1 := ⟨r.2, hr⟩
      exact attributed_step hst (fun x hx => hframe x (hostsOf_eq (not_not.1 hip) hx)) h

theorem dispatch_attributed {b : Batch} (hb : ∀ frame ∈ b, ∀ x, hostsOf frame = some x → L x.1 x.2)
    (hd : dispatch e.toSensor s b = some s') (h : Attributed L s) : Attributed L s' := by
  induction b generalizing s with
  | nil => cases hd; exact h
  | cons frame b ih =>
    obtain ⟨s₁, h₁, h₂⟩ :=
      Option.bind_eq_some_iff.1 (show (processPacket e.toSensor s frame).bind _ = _ from hd)
    obtain ⟨hframe, hb⟩ := List.forall_mem_cons.1 hb
    exact ih hb h₂ (processPacket_attributed hframe h₁ h)

theorem order_attributed (ho : Order e s s') (h : Attributed L s) : Attributed L s' := by
  induction ho with
  | refl => exact h
  | tail _ hst ih =>
    rcases hst with hst | hst
    · exact attributed_step (e := e) (l := .sensor .rehash) hst (admits_quiet rfl) ih
    · exact attributed_step hst (admits_quiet rfl) ih

theorem maintain_attributed (h : Attributed L s) :
    Attributed L (Maintenance.maintain e.toSensor s) := by
  have hcomplete : Attributed L { s with table := checkCompleteFlows e.toSensor.toEnv s.table } :=
    attributed_step (e := e) (l := .sensor .complete) rfl (admits_quiet rfl) h
  unfold Maintenance.maintain
  dsimp only
  split
  · exact hcomplete
  · exact attributed_step (e := e) (l := .sensor (.evict _)) rfl (admits_quiet rfl) hcomplete

/-- All that the loop keeps and emits goes back to frames of the file. -/
theorem runPcap_attributed {bs : List Batch} {t : Sensor} (hr : RunPcap e s bs t)
    (hbs : ∀ b ∈ bs, ∀ frame ∈ b, ∀ x, hostsOf frame = some x → L x.1 x.2) (h : Attributed L s) :
    Attributed L t := by
  induction hr with
  | eof ho => exact attributed_step (l := .flush) rfl (admits_quiet rfl) (order_attributed ho h)
  | batch hd ho _ ih =>
    obtain ⟨hb, hbs⟩ := List.forall_mem_cons.1 hbs
    exact ih hbs (maintain_attributed (order_attributed ho (dispatch_attributed hb hd h)))

end Capture

/-- What the loop keeps and emits, by its own frames. -/
theorem runPcap_seen {e : Flush.Env} {bs : List Batch} {t : Sensor} (hr : RunPcap e {} bs t) :
    Attributed (Seen bs) t :=
  runPcap_attributed hr (fun b hb frame hframe _ hx => ⟨b, hb, frame, hframe, hx⟩) attributed_init

/-! ## The pipeline -/

/-- Whatever the schedule, the losses and the answers of the language model: an
alert of the sensor or of the LLM stage names two hosts of the capture, and a
frame that went from the first to the second. -/
theorem alerts_between_hosts (e : L4.LlmWorker.Env) {c : Flush.Env} {f : L4.Worker.Env}
    {bs : List Batch} {t : Sensor}
    (hrun : RunPcap c {} bs t) {capacity : Nat} {w : L4.Worker.State} {ls : List (Label FlowData)}
    {s : State FlowData L4.Worker.State} (hr : (offline (npuFilter f)).Run (start capacity w) ls s)
    (hpushed : pushes ls <+: t.table.outputQueue) :
    ∀ a ∈ t.anomalies.alerts ++ alerts e s, Seen bs a.connection.srcIp a.connection.dstIp := by
  have hseen := runPcap_seen hrun
  intro a ha
  rcases List.mem_append.1 ha with ha | ha
  · exact hseen.alerts a ha
  · obtain ⟨call, hcall, rfl⟩ := List.mem_map.1 ha
    obtain ⟨x, hx, hbare⟩ :=
      List.mem_map.1 ((Containment.calls_pushed hr e).subset (List.mem_map_of_mem hcall))
    have hown : (Containment.bare call.flow).id = (Containment.bare x).id := by rw [hbare]
    rw [show (deliver call).connection = x.id from hown]
    exact hseen.flows x (hpushed.subset hx)

theorem alerts_between_hosts_miner : ∃ t s, RunPcap wholeRoots {} (shared minerPacket) t ∧
    s.monitor = .stopped ∧ ∀ a ∈ t.anomalies.alerts ++ alerts { generate := id } s,
      Seen (shared minerPacket) a.connection.srcIp a.connection.dstIp := by
  obtain ⟨s, hanalyzed⟩ := analyzed_shared (f := minerEnv) (p := minerPacket)
    (x := ownFlow (abcAgain.delivered 1).cid againState false)
    (y := ownFlow (minerPacket.delivered 0).cid (ownState minerPacket) false)
    (by decide +kernel) (by decide +kernel)
  obtain ⟨hrun, hr, hpushes, hstop, -⟩ := hanalyzed
  exact ⟨_, s, hrun, hstop, alerts_between_hosts _ hrun hr (hpushes ▸ List.prefix_refl _)⟩

end Wirewolf.L5.Provenance
