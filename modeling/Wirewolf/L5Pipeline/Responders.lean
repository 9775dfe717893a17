import Wirewolf.L5Pipeline.Anomalies

/-!
# Who is reported as a scanner or flooder

The detectors count every packet with the SYN flag, whatever its ACK flag,
so a SYN-ACK counts as a connection attempt of the host that answers.

* `Raises`: what a stage may add to the alerts and to the block list.
* `Counts`: a tracker counts exactly the SYN-flagged packets of its source
  since the trackers were last cleared. `traced` carries these packets along
  a run.
* `answers_unreported`: as long as they stay below every threshold, the host
  is neither reported nor blocked.
* `answers_reported`: thirty SYN-ACKs to port 22.
-/
namespace Wirewolf.L5.Responders

open Wirewolf.L1.IpPacket
open Wirewolf.L3.Table hiding Env system Step
open Wirewolf.L5.Alerts Wirewolf.L5.Anomalies

def volumetric : List Bytes :=
  [lit "Port Scan", lit "SSH Brute Force", lit "Worm Propagation Scan", lit "DDoS"]

/-- No volumetric alert on `h` is added, and `h` is blocked only by another
one. -/
def Unreported (h : UInt32) (s s' : State) : Prop :=
  ∃ new, s'.alerts = s.alerts ++ new ∧
    (∀ a ∈ new, a.connection.srcIp = h → a.threatType ∉ volumetric) ∧
    (h ∈ s'.blockedIps → h ∈ s.blockedIps ∨
      ∃ a ∈ new, a.connection.srcIp = h ∧ a.threatType ∉ volumetric)

/-! ## What the stages raise -/

def Harmless (h : UInt32) (a : ThreatAlert) : Prop :=
  a.connection.srcIp = h → a.threatType ∉ volumetric

/-- Only alerts that meet `P` are added, and only their sources are blocked. -/
def Raises (P : ThreatAlert → Prop) (s s' : State) : Prop :=
  ∃ new, s'.alerts = s.alerts ++ new ∧ (∀ a ∈ new, P a) ∧
    ∀ ip ∈ s'.blockedIps, ip ∈ s.blockedIps ∨ ∃ a ∈ new, a.connection.srcIp = ip

section Raises

variable {P : ThreatAlert → Prop} {e : Env} {s s' s'' : State} {h : UInt32} {p : TcpPacket}
  {t : SourceTracker}

theorem Raises.of_eq (h₁ : s'.alerts = s.alerts) (h₂ : s'.blockedIps = s.blockedIps) :
    Raises P s s' :=
  ⟨[], by rw [h₁, List.append_nil], by simp, fun ip hip => .inl (h₂ ▸ hip)⟩

theorem Raises.refl : Raises P s s := .of_eq rfl rfl

theorem Raises.trans (h₁ : Raises P s s') (h₂ : Raises P s' s'') : Raises P s s'' := by
  obtain ⟨new₁, ha₁, hp₁, hb₁⟩ := h₁
  obtain ⟨new₂, ha₂, hp₂, hb₂⟩ := h₂
  refine ⟨new₁ ++ new₂, by rw [ha₂, ha₁, List.append_assoc], fun a ha => ?_, fun ip hip => ?_⟩
  · exact (List.mem_append.1 ha).elim (hp₁ a) (hp₂ a)
  · rcases hb₂ ip hip with hip | ⟨a, ha, he⟩
    · rcases hb₁ ip hip with hip | ⟨a, ha, he⟩
      · exact .inl hip
      · exact .inr ⟨a, List.mem_append_left _ ha, he⟩
    · exact .inr ⟨a, List.mem_append_right _ ha, he⟩

theorem Raises.unreported (hr : Raises (Harmless h) s s') : Unreported h s s' := by
  obtain ⟨new, ha, hp, hb⟩ := hr
  exact ⟨new, ha, hp, fun hin => (hb h hin).imp_right fun ⟨a, hmem, he⟩ =>
    ⟨a, hmem, he, hp a hmem he⟩⟩

theorem mem_blockSource {ip : UInt32} {x : UInt32} (hx : x ∈ (blockSource e s ip).blockedIps) :
    x ∈ s.blockedIps ∨ ip = x := by
  unfold blockSource at hx
  split at hx
  · exact .inl hx
  · exact (Finset.mem_insert.1 hx).elim (fun he => .inr he.symm) .inl

theorem emitAlert_raises {conn : ConnectionId} {threatType snippet : Bytes} {key : UInt64}
    (hP : P (threatAlert conn threatType snippet)) :
    Raises P s (emitAlert e s conn threatType snippet key) := by
  unfold emitAlert
  split
  · exact .refl
  · dsimp only
    split
    · exact .of_eq rfl rfl
    · refine ⟨[threatAlert conn threatType snippet], ?_, by simpa using hP, fun ip hip => ?_⟩
      · split
        · rw [blockSource_alerts]
        · rfl
      · split at hip
        · exact (mem_blockSource hip).imp_right fun he => ⟨_, List.mem_cons_self .., he⟩
        · exact .inl hip

theorem emitAlert_harmless {conn : ConnectionId} {threatType snippet : Bytes} {key : UInt64}
    (hP : conn.srcIp = h → threatType ∉ volumetric) :
    Raises (Harmless h) s (emitAlert e s conn threatType snippet key) := emitAlert_raises hP

theorem ttlStage_raises : Raises (Harmless h) s (ttlStage e s p) := by
  unfold ttlStage
  dsimp only
  split
  · exact (emitAlert_harmless fun _ => by decide).trans (.of_eq rfl rfl)
  · exact .of_eq rfl rfl

theorem synStage_raises : Raises P s (synStage e s p) := by
  unfold synStage
  split
  · exact .refl
  · dsimp only
    split
    · exact .of_eq rfl rfl
    · exact .of_eq rfl rfl

theorem mapType_harmless (threat : Bytes) : mapType threat ∉ volumetric := by
  unfold mapType
  split
  · decide
  · split
    · decide
    · split <;> decide

theorem intelStage_raises : Raises (Harmless h) s (intelStage e s p) := by
  unfold intelStage
  dsimp only
  split
  · exact .refl
  · split
    · exact .refl
    · exact emitAlert_harmless fun _ => mapType_harmless _

/-- No threshold is reached. -/
structure BelowAll (t : SourceTracker) (now : Rat) : Prop where
  ports : t.dstPorts.card < 50
  ssh : ∀ n, t.portSynCounts.find? sshPort = some n → n < 30
  hosts : ∀ x ∈ t.portDstIps.entries, isWeb x.1 = false → x.2.card < 100
  rate : t.totalSyns < 5000 ∨ synRate t.totalSyns t.firstSynTime now ≤ 10

theorem portScanStage_raises (hb : p.cid.srcIp = h → BelowAll t p.time) :
    Raises (Harmless h) s (portScanStage e t s p) := by
  unfold portScanStage
  split
  · rename_i hc
    exact emitAlert_harmless fun hs => absurd hc (Nat.not_le.2 (hb hs).ports)
  · exact .refl

theorem sshStage_raises (hb : p.cid.srcIp = h → BelowAll t p.time) :
    Raises (Harmless h) s (sshStage e t s p) := by
  unfold sshStage
  split
  · exact .refl
  · rename_i n hn
    split
    · rename_i hc
      exact emitAlert_harmless fun hs => absurd hc (Nat.not_le.2 ((hb hs).ssh n hn))
    · exact .refl

theorem wormStage_raises (hb : p.cid.srcIp = h → BelowAll t p.time) :
    Raises (Harmless h) s (wormStage e t s p) := by
  have hall : ∀ x ∈ t.portDstIps.entries, p.cid.srcIp = h → isWeb x.1 = false → x.2.card < 100 :=
    fun x hx hs => (hb hs).hosts x hx
  unfold wormStage
  generalize t.portDstIps.entries = l at hall
  induction l generalizing s with
  | nil => exact .refl
  | cons x l ih =>
    have hstep : Raises (Harmless h) s (wormPort e p s x) := by
      unfold wormPort
      split
      · exact .refl
      · rename_i hw
        split
        · rename_i hc
          refine emitAlert_harmless fun hs => absurd hc (Nat.not_le.2 ?_)
          exact hall x (List.mem_cons_self ..) hs (by simpa using hw)
        · exact .refl
    exact hstep.trans (ih fun y hy => hall y (List.mem_cons_of_mem _ hy))

theorem ddosStage_raises (hb : p.cid.srcIp = h → BelowAll t p.time) :
    Raises (Harmless h) s (ddosStage e t s p) := by
  unfold ddosStage
  dsimp only
  split
  · rename_i hc
    split
    · rename_i hr
      refine emitAlert_harmless fun hs => ?_
      rcases (hb hs).rate with hlt | hle
      · exact absurd hc (Nat.not_le.2 hlt)
      · exact absurd hr (Rat.not_lt.2 hle)
    · exact .refl
  · exact .refl

end Raises

/-! ## What a tracker counts -/

/-- The tracker counts the SYN-flagged packets `qs`. -/
structure Counts (t : SourceTracker) (qs : List TcpPacket) : Prop where
  total : t.totalSyns = qs.length
  first : t.firstSynTime = (qs.head?.map (·.time)).getD 0
  ports : t.dstPorts = ((qs.map (·.cid.dstPort)).filter fun d => decide (WellKnown d)).toFinset
  syns : ∀ d, (t.portSynCounts.find? d).getD 0 = qs.countP fun q => decide (q.cid.dstPort = d)
  known : ∀ x ∈ t.portDstIps.entries, WellKnown x.1
  hosts : ∀ d, WellKnown d → (t.portDstIps.find? d).getD ∅ =
    ((qs.filter fun q => decide (q.cid.dstPort = d)).map (·.cid.dstIp)).toFinset

theorem counts_nil : Counts {} [] where
  total := rfl
  first := rfl
  ports := rfl
  syns _ := rfl
  known := by intro x hx; cases hx
  hosts _ _ := rfl

/-- The fields that SYNs do not touch are free. -/
theorem Counts.with {t t' : SourceTracker} {qs : List TcpPacket} (h : Counts t qs)
    (h₁ : t'.totalSyns = t.totalSyns) (h₂ : t'.firstSynTime = t.firstSynTime)
    (h₃ : t'.dstPorts = t.dstPorts) (h₄ : t'.portSynCounts = t.portSynCounts)
    (h₅ : ∀ x, x ∈ t'.portDstIps.entries ↔ x ∈ t.portDstIps.entries) : Counts t' qs where
  total := h₁.trans h.total
  first := h₂.trans h.first
  ports := h₃.trans h.ports
  syns d := by rw [h₄]; exact h.syns d
  known x hx := h.known x ((h₅ x).1 hx)
  hosts d hd := by rw [UMap.find?_congr fun v => h₅ (d, v)]; exact h.hosts d hd

theorem Counts.addSyn {t : SourceTracker} {qs : List TcpPacket} (h : Counts t qs) (p : TcpPacket) :
    Counts (t.addSyn p.cid.dstIp p.cid.dstPort p.time) (qs ++ [p]) where
  total := by simp [SourceTracker.addSyn, h.total]
  first := by
    cases qs with
    | nil => simp [SourceTracker.addSyn, h.total]
    | cons q qs => simp [SourceTracker.addSyn, h.total, h.first]
  ports := by
    unfold SourceTracker.addSyn
    dsimp only
    by_cases hk : WellKnown p.cid.dstPort
    · rw [if_pos hk, h.ports]
      ext d; simp [hk]
    · rw [if_neg hk, h.ports]; simp [hk]
  syns d := by
    unfold SourceTracker.addSyn
    dsimp only
    by_cases hd : d = p.cid.dstPort
    · subst hd
      rw [UMap.find?_put_self, Option.getD_some, h.syns]; simp
    · rw [UMap.find?_put_of_ne _ _ hd, h.syns]
      simp [Ne.symm hd]
  known x hx := by
    unfold SourceTracker.addSyn at hx
    dsimp only at hx
    split at hx
    · rename_i hk
      rcases UMap.mem_put.1 hx with rfl | ⟨hx, -⟩
      · exact hk
      · exact h.known x hx
    · exact h.known x hx
  hosts d hd := by
    unfold SourceTracker.addSyn
    dsimp only
    by_cases he : d = p.cid.dstPort
    · subst he
      rw [if_pos hd, UMap.find?_put_self, Option.getD_some, h.hosts _ hd]
      ext ip; simp
    · have hf : (if WellKnown p.cid.dstPort then
          t.portDstIps.put p.cid.dstPort (insert p.cid.dstIp
            ((t.portDstIps.find? p.cid.dstPort).getD ∅))
          else t.portDstIps).find? d = t.portDstIps.find? d := by
        split
        · exact UMap.find?_put_of_ne _ _ he
        · rfl
      rw [hf, h.hosts d hd]; simp [Ne.symm he]

/-- The packets `qs` stay below every threshold at time `now`. -/
structure Quiet (qs : List TcpPacket) (now : Rat) : Prop where
  ports : ((qs.map (·.cid.dstPort)).filter fun d => decide (WellKnown d)).toFinset.card < 50
  ssh : (qs.countP fun q => decide (q.cid.dstPort = sshPort)) < 30
  hosts : ∀ d, WellKnown d → isWeb d = false →
    ((qs.filter fun q => decide (q.cid.dstPort = d)).map (·.cid.dstIp)).toFinset.card < 100
  rate : qs.length < 5000 ∨ synRate qs.length ((qs.head?.map (·.time)).getD 0) now ≤ 10

/-- Fewer than 30 packets are always below. -/
theorem quiet_of_few {qs : List TcpPacket} (h : qs.length < 30) (now : Rat) : Quiet qs now where
  ports := by
    refine Nat.lt_of_le_of_lt (List.toFinset_card_le _) ?_
    have := List.length_filter_le (fun d => decide (WellKnown d)) (qs.map (·.cid.dstPort))
    rw [List.length_map] at this; omega
  ssh := Nat.lt_of_le_of_lt List.countP_le_length h
  hosts d _ _ := by
    refine Nat.lt_of_le_of_lt (List.toFinset_card_le _) ?_
    have := List.length_filter_le (fun q : TcpPacket => decide (q.cid.dstPort = d)) qs
    rw [List.length_map]; omega
  rate := .inl (by omega)

theorem Counts.belowAll {t : SourceTracker} {qs : List TcpPacket} {now : Rat} (h : Counts t qs)
    (hq : Quiet qs now) : BelowAll t now where
  ports := by rw [h.ports]; exact hq.ports
  ssh n hn := by
    have := h.syns sshPort
    rw [hn, Option.getD_some] at this
    rw [this]; exact hq.ssh
  hosts x hx hw := by
    have hk := h.known x hx
    have := h.hosts x.1 hk
    rw [UMap.find?_eq_some.2 hx, Option.getD_some] at this
    rw [this]; exact hq.hosts x.1 hk hw
  rate := by rw [h.total, h.first]; exact hq.rate

/-! ## One packet -/

section Packet

variable {e : Env} {s s' : State} {h : UInt32} {p : TcpPacket} {t : SourceTracker}
  {qs : List TcpPacket}

theorem tracker_congr (hs : s'.sourceTrackers = s.sourceTrackers) (ip : UInt32) :
    s'.tracker ip = s.tracker ip := by rw [State.tracker, hs, State.tracker]

theorem tracker_setTracker_self (s : State) (ip : UInt32) (t : SourceTracker) :
    (s.setTracker ip t).tracker ip = t := by
  rw [State.tracker, State.setTracker, UMap.find?_put_self, Option.getD_some]

theorem tracker_setTracker_of_ne (s : State) {ip ip' : UInt32} (t : SourceTracker)
    (hne : ip' ≠ ip) :
    (s.setTracker ip t).tracker ip' = s.tracker ip' := by
  rw [State.tracker, State.setTracker, UMap.find?_put_of_ne _ _ hne, State.tracker]

/-- Another tracker for `ip`, on which `h` counts the same. -/
theorem Counts.setTracker (hc : Counts (s.tracker h) qs) {ip : UInt32}
    (ht : ip = h → Counts t qs) : Counts ((s.setTracker ip t).tracker h) qs := by
  by_cases he : h = ip
  · subst he
    rw [tracker_setTracker_self]; exact ht rfl
  · rwa [tracker_setTracker_of_ne s t he]

theorem Counts.ttlStage (hc : Counts (s.tracker h) qs) :
    Counts ((ttlStage e s p).tracker h) qs := by
  unfold Anomalies.ttlStage
  dsimp only
  refine Counts.setTracker ?_ fun he => ?_
  · rw [tracker_congr]
    · exact hc
    · split
      · exact sourceTrackers_untouched ..
      · rfl
  · subst he
    split
    · exact hc.with rfl rfl rfl rfl fun _ => .rfl
    · exact hc

/-- The SYN-flagged packets of `h`, with the packet `p`. -/
def answered (h : UInt32) (qs : List TcpPacket) (p : TcpPacket) : List TcpPacket :=
  if p.cid.srcIp = h ∧ p.syn = true then qs ++ [p] else qs

theorem synStage_sources (e : Env) (s : State) (p : TcpPacket) :
    (synStage e s p).sourceTrackers = (if p.syn then s.setTracker p.cid.srcIp
      ((s.tracker p.cid.srcIp).addSyn p.cid.dstIp p.cid.dstPort p.time) else s).sourceTrackers := by
  unfold synStage
  cases p.syn with
  | false => rfl
  | true => cases isLan p.cid.dstIp <;> rfl

theorem Counts.synStage (hc : Counts (s.tracker h) qs) :
    Counts ((synStage e s p).tracker h) (answered h qs p) := by
  rw [tracker_congr (synStage_sources e s p)]
  unfold answered
  cases p.syn with
  | false => simpa using hc
  | true =>
    by_cases he : p.cid.srcIp = h
    · subst he
      simpa [tracker_setTracker_self] using hc.addSyn p
    · simpa [he, tracker_setTracker_of_ne s _ (Ne.symm he)] using hc

theorem Counts.check (hc : Counts (s.tracker h) qs) :
    Counts ((checkConnectionAnomalies e s p).tracker h) (answered h qs p) := by
  rw [tracker_congr (sourceTrackers_untouched e).check]
  exact hc.ttlStage.synStage

theorem check_raises (hc : Counts (s.tracker h) qs)
    (hq : p.cid.srcIp = h → Quiet (answered h qs p) p.time) :
    Raises (Harmless h) s (checkConnectionAnomalies e s p) := by
  have hb : p.cid.srcIp = h →
      BelowAll ((intelStage e (synStage e (ttlStage e s p) p) p).tracker p.cid.srcIp) p.time := by
    intro he
    rw [tracker_congr (sourceTrackers_untouched e).intelStage, he]
    exact hc.ttlStage.synStage.belowAll (hq he)
  unfold checkConnectionAnomalies
  dsimp only
  exact ((((ttlStage_raises.trans synStage_raises).trans intelStage_raises).trans
    (portScanStage_raises hb)).trans (sshStage_raises hb)).trans (wormStage_raises hb) |>.trans
    (ddosStage_raises hb)

theorem Counts.packet {s : Sensor} (hc : Counts (s.anomalies.tracker h) qs) :
    Counts ((processTcpPacket e s p).anomalies.tracker h) (answered h qs p) := by
  have hk := hc.check (e := e) (p := p)
  unfold processTcpPacket
  dsimp only
  split
  · rw [evasionAlert, tracker_congr (sourceTrackers_untouched ..)]; exact hk
  · exact hk

theorem packet_raises {s : Sensor} (hc : Counts (s.anomalies.tracker h) qs)
    (hq : p.cid.srcIp = h → Quiet (answered h qs p) p.time) :
    Raises (Harmless h) s.anomalies (processTcpPacket e s p).anomalies := by
  have hk := check_raises (e := e) hc hq
  unfold processTcpPacket
  dsimp only
  split
  · exact hk.trans (emitAlert_harmless fun _ => by decide)
  · exact hk

theorem processUdp_counts {s : Sensor} (hc : Counts (s.anomalies.tracker h) qs) (src dst : UInt32) :
    Counts ((processUdp s src dst).anomalies.tracker h) qs := by
  unfold processUdp
  split
  · exact hc
  · refine hc.setTracker fun he => ?_
    subst he
    exact hc.with rfl rfl rfl rfl fun _ => .rfl

theorem processUdp_raises {P : ThreatAlert → Prop} (s : Sensor) (src dst : UInt32) :
    Raises P s.anomalies (processUdp s src dst).anomalies := by
  unfold processUdp
  split
  · exact .refl
  · exact .of_eq rfl rfl

/-- A packet is a TCP packet, or leaves all but external destinations alone. -/
theorem processIpPacket_cases {s s' : Sensor} {b : Bytes} {time : Rat} {src : UInt32}
    (hp : processIpPacket e s b time = some (s', src)) :
    (∃ p, parseIpPacket b time = some (.tcp p) ∧ s' = processTcpPacket e s p) ∨
    ((∀ p, parseIpPacket b time ≠ some (.tcp p)) ∧
      (s' = s ∨ ∃ src dst, s' = processUdp s src dst)) := by
  obtain ⟨q, hq, he⟩ := Option.map_eq_some_iff.1 hp
  rw [hq]
  have he := (Prod.mk.inj he).1.symm
  cases q with
  | short => exact .inr ⟨by simp, .inl (by simpa using he)⟩
  | other src => exact .inr ⟨by simp, .inl (by simpa using he)⟩
  | udp src dst => exact .inr ⟨by simp, .inr ⟨src, dst, by simpa using he⟩⟩
  | tcp p => exact .inl ⟨p, rfl, by simpa using he⟩

end Packet

/-! ## Runs -/

/-- Packets, the maintenance passes of the capture loop, the calls of
`block_source` and `unblock_source` from outside, and rehashes. -/
inductive Event where
  | packet (packet : Bytes) (time : Rat)
  | complete
  | evict (now : Rat)
  | block (ip : UInt32)
  | unblock (ip : UInt32)
  | rehash

/-- A rehash reorders the connection table, or the ports of one tracker. -/
inductive Rehash (s : Sensor) : Sensor → Prop
  | table (l : List (ConnectionId × L2.Connection.ConnectionState))
      (h : l.Perm s.table.connections.entries) :
      Rehash s { s with table := { s.table with connections := s.table.connections.reorder l h } }
  | ports (ip : UInt32) (l : List (UInt16 × Finset UInt32))
      (h : l.Perm (s.anomalies.tracker ip).portDstIps.entries) :
      Rehash s
        { s with
          anomalies := s.anomalies.setTracker ip
            { (s.anomalies.tracker ip) with
              portDstIps := (s.anomalies.tracker ip).portDstIps.reorder l h } }

def Step (e : Env) (s : Sensor) : Event → Sensor → Prop
  | .packet b time, s' => ∃ src, processIpPacket e s b time = some (s', src)
  | .complete, s' => s' = { s with table := checkCompleteFlows e.toEnv s.table }
  | .evict now, s' => s' = evictStale e now s
  | .block ip, s' => s' = { s with anomalies := blockSource e s.anomalies ip }
  | .unblock ip, s' =>
    s' = { s with anomalies := { s.anomalies with blockedIps := s.anomalies.blockedIps.erase ip } }
  | .rehash, s' => Rehash s s'

def system (e : Env) : LTS Sensor Event := ⟨(· = {}), Step e⟩

/-- The eviction pass finds too many sources and clears all trackers. -/
def Clears (now : Rat) (s : Sensor) : Prop :=
  ¬ now - s.table.lastEvictionTime < evictionInterval ∧
    maxSourceTrackers < s.anomalies.sourceTrackers.size

instance (now : Rat) (s : Sensor) : Decidable (Clears now s) := inferInstanceAs (Decidable (_ ∧ _))

/-- The SYN-flagged packets of `h` since the trackers were last cleared. -/
def since (h : UInt32) (s : Sensor) (qs : List TcpPacket) : Event → List TcpPacket
  | .packet b time =>
    match parseIpPacket b time with
    | some (.tcp p) => answered h qs p
    | _ => qs
  | .evict now => if Clears now s then [] else qs
  | _ => qs

/-- The runs of the sensor, with these packets. -/
def traced (e : Env) (h : UInt32) : LTS (Sensor × List TcpPacket) Event where
  init := (· = ({}, []))
  step x l x' := Step e x.1 l x'.1 ∧ x'.2 = since h x.1 x.2 l

/-- Every run of the sensor is traced. -/
theorem traced_run {e : Env} {h : UInt32} {s s' : Sensor} {ls : List Event}
    (hr : (system e).Run s ls s') (qs : List TcpPacket) :
    ∃ qs', (traced e h).Run (s, qs) ls (s', qs') := by
  induction hr generalizing qs with
  | nil s => exact ⟨qs, .nil _⟩
  | @cons s s₁ s₂ l ls hst _ ih =>
    obtain ⟨qs', hrun⟩ := ih (since h s qs l)
    have hstep : (traced e h).step (s, qs) l (s₁, since h s qs l) := ⟨hst, rfl⟩
    exact ⟨qs', .cons hstep hrun⟩

theorem counts_step {e : Env} {h : UInt32} {s s' : Sensor} {qs : List TcpPacket} {l : Event}
    (hc : Counts (s.anomalies.tracker h) qs) (hst : Step e s l s') :
    Counts (s'.anomalies.tracker h) (since h s qs l) := by
  cases l with
  | packet b time =>
    obtain ⟨src, hp⟩ := hst
    rcases processIpPacket_cases hp with ⟨p, hparse, rfl⟩ | ⟨hno, hs⟩
    · simp only [since, hparse]
      exact hc.packet
    · have hqs : since h s qs (.packet b time) = qs := by simp only [since]
      rw [hqs]
      rcases hs with rfl | ⟨src, dst, rfl⟩
      · exact hc
      · exact processUdp_counts hc src dst
  | complete => cases hst; exact hc
  | evict now =>
    cases hst
    simp only [since, evictStale]
    by_cases hi : now - s.table.lastEvictionTime < evictionInterval
    · rw [if_pos hi, if_neg fun hcl => hcl.1 hi]; exact hc
    · rw [if_neg hi]
      by_cases hm : maxSourceTrackers < s.anomalies.sourceTrackers.size
      · rw [if_pos ⟨hi, hm⟩, State.tracker, capTrackers, if_pos hm]; exact counts_nil
      · rw [if_neg fun hcl => hm hcl.2, State.tracker, capTrackers, if_neg hm]; exact hc
  | block ip =>
    cases hst
    simp only [since]
    rw [tracker_congr (blockSource_sourceTrackers e s.anomalies ip)]; exact hc
  | unblock ip => cases hst; exact hc
  | rehash =>
    cases hst with
    | table l hl => exact hc
    | ports ip l hl =>
      refine hc.setTracker fun he => ?_
      subst he
      exact hc.with rfl rfl rfl rfl fun x => hl.mem_iff

theorem counts_run {e : Env} {h : UInt32} {x : Sensor × List TcpPacket} {ls : List Event}
    (hr : (traced e h).Run ({}, []) ls x) : Counts (x.1.anomalies.tracker h) x.2 := by
  have hind : (traced e h).Inductive fun x => Counts (x.1.anomalies.tracker h) x.2 :=
    ⟨by rintro x rfl; exact counts_nil, fun x l x' hc hs => hs.2 ▸ counts_step hc hs.1⟩
  exact hind.run hr counts_nil

/-- A packet of `h` finds the host quiet, the packet counted. -/
def StaysQuiet (h : UInt32) (x : Sensor × List TcpPacket) : Event → Prop
  | .packet b time => ∀ p, parseIpPacket b time = some (.tcp p) → p.cid.srcIp = h →
      Quiet (answered h x.2 p) p.time
  | _ => True

/-- Over every run in which the SYN-flagged packets of `h` stay below the
thresholds, with or without ACK. -/
theorem answers_unreported (e : Env) (h : UInt32) (ls : List Event)
    (hq : (traced e h).Along (StaysQuiet h) ({}, []) ls) (pre : List Event) (b : Bytes) (time : Rat)
    (hpre : pre ++ [.packet b time] <+: ls) (x x' : Sensor × List TcpPacket)
    (hx : (traced e h).Run ({}, []) pre x) (hs : (traced e h).step x (.packet b time) x') :
    Unreported h x.1.anomalies x'.1.anomalies := by
  have hc := counts_run hx
  have hquiet := hq.at_step hpre hx
  obtain ⟨⟨src, hp⟩, -⟩ := hs
  rcases processIpPacket_cases hp with ⟨p, hparse, he⟩ | ⟨-, he | ⟨src, dst, he⟩⟩
  · rw [he]; exact (packet_raises hc (hquiet p hparse)).unreported
  · rw [he]; exact Raises.unreported .refl
  · rw [he]; exact (processUdp_raises ..).unreported

/-- Inline mode, no allowlist, a threat callback, no proxy database. -/
def inlineEnv : Env where
  beh := ⟨false, false, false, 4, id, fun _ => false, fun _ => false⟩
  maxFlowPayloadBytes := 1048576
  inlineBlock := true
  allowlistIps := []
  hasCallback := true
  hash16 := UInt16.toUInt64
  hash32 := UInt32.toUInt64
  hash64 := id
  threatOf := fun _ => none

/-- 10.0.0.5 (network order) -/
def server : UInt32 := 0x0500000A

/-- A SYN-ACK from port 80 of the server to port 22 of 192.0.2.1. -/
def synAck : Bytes :=
  [0x45, 0, 0, 40, 0, 0, 0, 0, 64, 6, 0, 0, 10, 0, 0, 5, 192, 0, 2, 1,
   0, 80, 0, 22, 0, 0, 0, 1, 0, 0, 0, 2, 0x50, 0x12, 0xFF, 0xFF, 0, 0, 0, 0]

/-- The ACK flag of a TCP packet.
mirrors src/src/tcp_reassembly.cpp:64 -/
def hasAck (packet : Bytes) : Bool :=
  match packet[0]? with
  | none => false
  | some b0 => packet[(b0 &&& 0x0F).toNat * 4 + 13]?.any fun flags => flags &&& 0x10 != 0

theorem length_since_le (h : UInt32) (s : Sensor) (qs : List TcpPacket) (l : Event) :
    (since h s qs l).length ≤ qs.length + 1 := by
  have hanswered : ∀ p, (answered h qs p).length ≤ qs.length + 1 := by
    intro p
    unfold answered
    split <;> simp
  unfold since
  split
  · split
    · exact hanswered _
    · exact Nat.le_succ _
  · split <;> simp
  · exact Nat.le_succ _

/-- Fewer than 30 packets keep every host quiet. -/
theorem staysQuiet_of_few {e : Env} {h : UInt32} {ls : List Event} {x : Sensor × List TcpPacket}
    (hn : x.2.length + ls.length < 30) : (traced e h).Along (StaysQuiet h) x ls := by
  induction ls generalizing x with
  | nil => trivial
  | cons l ls ih =>
    rw [List.length_cons] at hn
    refine ⟨?_, fun x' hst => ih ?_⟩
    · cases l with
      | packet b time =>
        intro p hp _
        have hle := length_since_le h x.1 x.2 (.packet b time)
        simp only [since, hp] at hle
        exact quiet_of_few (by omega) _
      | _ => trivial
    · have hle := length_since_le h x.1 x.2 l
      rw [hst.2]
      omega

theorem exists_answer (x : Sensor × List TcpPacket) :
    ∃ x', (traced inlineEnv server).step x (.packet synAck 0) x' := by
  have hsome : (parseIpPacket synAck 0).isSome = true := by decide
  obtain ⟨y, hy⟩ := Option.isSome_iff_exists.1 hsome
  exact ⟨(_, since server x.1 x.2 (.packet synAck 0)), ⟨_, congrArg (Option.map _) hy⟩, rfl⟩

/-- The server answers 29 times. -/
theorem answers_unreported_twentyNine :
    ∃ x x', (traced inlineEnv server).Run ({}, []) (List.replicate 28 (.packet synAck 0)) x ∧
      (traced inlineEnv server).step x (.packet synAck 0) x' ∧
      Unreported server x.1.anomalies x'.1.anomalies := by
  have hrun : ∀ n, ∃ x, (traced inlineEnv server).Run ({}, [])
      (List.replicate n (.packet synAck 0)) x := by
    intro n
    induction n with
    | zero => exact ⟨_, .nil _⟩
    | succ n ih =>
      obtain ⟨x, hx⟩ := ih
      obtain ⟨x', hst⟩ := exists_answer x
      rw [List.replicate_succ']
      exact ⟨x', hx.snoc hst⟩
  obtain ⟨x, hx⟩ := hrun 28
  obtain ⟨x', hst⟩ := exists_answer x
  exact ⟨x, x', hx, hst, answers_unreported inlineEnv server (List.replicate 29 (.packet synAck 0))
    (staysQuiet_of_few (by decide)) (List.replicate 28 (.packet synAck 0)) synAck 0
    (by rw [← List.replicate_succ']) x x' hx hst⟩

/-- The captured packets, one after the other. -/
def feed (e : Env) : Sensor → List (Bytes × Rat) → Option Sensor
  | s, [] => some s
  | s, (b, time) :: l => (processIpPacket e s b time).bind fun r => feed e r.1 l

theorem feed_run {e : Env} {s s' : Sensor} {l : List (Bytes × Rat)} (h : feed e s l = some s') :
    (system e).Run s (l.map fun x => .packet x.1 x.2) s' := by
  induction l generalizing s with
  | nil => cases h; exact .nil _
  | cons x l ih =>
    obtain ⟨r, hr, hl⟩ := Option.bind_eq_some_iff.1 h
    exact .cons ⟨r.2, hr⟩ (ih hl)

def thirty : List (Bytes × Rat) := List.replicate 30 (synAck, 0)

/-- Thirty answers: the server is reported and blocked. -/
theorem answers_reported :
    (∀ x ∈ thirty, ∀ p, parseIpPacket x.1 x.2 = some (.tcp p) → p.cid.srcIp = server →
        p.syn = true → hasAck x.1 = true) ∧
      ∃ s, (system inlineEnv).Run {} (thirty.map fun x => .packet x.1 x.2) s ∧
        server ∈ s.anomalies.blockedIps ∧ ∃ a ∈ s.anomalies.alerts,
          a.connection.srcIp = server ∧ a.threatType = lit "SSH Brute Force" := by
  have hfed : (feed inlineEnv {} thirty).any (fun s => decide (server ∈ s.anomalies.blockedIps ∧
      ∃ a ∈ s.anomalies.alerts, a.connection.srcIp = server ∧
        a.threatType = lit "SSH Brute Force")) = true := by decide +kernel
  obtain ⟨s, hs, htest⟩ := (Option.any_eq_true _ _).1 hfed
  refine ⟨fun x hx p _ _ _ => ?_, s, feed_run hs, of_decide_eq_true htest⟩
  rw [List.eq_of_mem_replicate hx]; decide

end Wirewolf.L5.Responders
