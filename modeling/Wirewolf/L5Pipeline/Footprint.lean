import Wirewolf.L5Pipeline.Flush
import Wirewolf.L5Pipeline.Truncation

/-!
# The external footprint of a host

`ext_dsts` is filled by SYN-flagged TCP packets and by UDP packets, and read
when a source is confirmed as a spam bot: every address in it is reported.
The two paths test the destination each in its own way. TCP excludes the
three private ranges; UDP also loopback and link-local; neither 0/8.

* `isPublic`: what an external destination is, `isReserved`: the addresses
  that are neither public nor private.
* `step_footprint`: what a step does to the footprints.
* `footprint_iff`: over every run, the footprints hold public addresses only
  and the paths agree, exactly when no reserved address is contacted.
-/
namespace Wirewolf.L5.Footprint

open Wirewolf.L1.IpPacket
open Wirewolf.L3.Behavior (octets)
open Wirewolf.L5.Alerts Wirewolf.L5.Flush
open Wirewolf.L5.Anomalies hiding Env
open Wirewolf.L5.Responders
  (tracker_congr tracker_setTracker_self tracker_setTracker_of_ne synStage_sources)
open Wirewolf.L5.Truncation (processTcpPacket_trackers ttlStage_sources)

/-! ## Addresses -/

/-- 0/8, 127/8 and 169.254/16 -/
def isReserved (ip : UInt32) : Bool :=
  let b := octets ip
  b.1 == 0 || b.1 == 127 || (b.1 == 169 && b.2.1 == 254)

/-- Neither private, nor loopback, link-local or 0/8. -/
def isPublic (ip : UInt32) : Bool := !isLan ip && !isReserved ip

theorem isLocal_eq (ip : UInt32) : isLocal ip =
    (isLan ip || ((octets ip).1 == 127 || ((octets ip).1 == 169 && (octets ip).2.1 == 254))) := by
  unfold isLocal isLan
  simp only
  generalize octets ip = b
  cases b.1 == 10 <;> cases b.1 == 127 <;> cases (b.1 == 172 && (b.2.1 &&& 0xF0) == 16) <;>
    cases (b.1 == 192 && b.2.1 == 168) <;> rfl

/-- Off the reserved addresses the two tests agree. -/
theorem isLocal_eq_isLan {ip : UInt32} (h : isReserved ip = false) : isLocal ip = isLan ip := by
  unfold isReserved at h
  simp only [Bool.or_eq_false_iff] at h
  rw [isLocal_eq, h.1.2, h.2, Bool.or_false, Bool.or_false]

/-- The reserved addresses are not among the private ranges. -/
theorem isLan_of_reserved {ip : UInt32} (h : isReserved ip = true) : isLan ip = false := by
  unfold isReserved at h
  unfold isLan
  dsimp only at h ⊢
  generalize octets ip = b at h ⊢
  simp only [Bool.or_eq_true, Bool.and_eq_true, beq_iff_eq] at h
  rcases h with (h | h) | ⟨h, -⟩
  · rw [h]; rfl
  · rw [h]; rfl
  · rw [h]; rfl

theorem isPublic_of_not_reserved {ip : UInt32} (hr : isReserved ip = false)
    (hl : isLan ip = false) : isPublic ip = true := by
  rw [isPublic, hr, hl]
  rfl

/-! ## What a packet contacts and what is recorded -/

def header : Event → Option Parsed
  | .sensor (.packet b time) => parseIpPacket b time
  | _ => none

/-- Source and destination of a packet that the footprint looks at. -/
def contacts (l : Event) : List (UInt32 × UInt32) :=
  match header l with
  | some (.tcp p) => if p.syn then [(p.cid.srcIp, p.cid.dstIp)] else []
  | some (.udp src dst) => [(src, dst)]
  | _ => []

/-- Those that are recorded, each path with its own test. -/
def records (l : Event) : List (UInt32 × UInt32) :=
  match header l with
  | some (.tcp p) => if p.syn && !isLan p.cid.dstIp then [(p.cid.srcIp, p.cid.dstIp)] else []
  | some (.udp src dst) => if isLocal dst then [] else [(src, dst)]
  | _ => []

/-- The destinations of a run. -/
def destinations (ls : List Event) : List UInt32 := (ls.flatMap contacts).map Prod.snd

/-- A record is a contact that its path does not exclude. -/
theorem records_sound {l : Event} {x : UInt32 × UInt32} (h : x ∈ records l) :
    x ∈ contacts l ∧ (isLan x.2 = false ∨ isLocal x.2 = false) := by
  unfold records at h
  unfold contacts
  cases hl : header l with
  | none => rw [hl] at h; cases h
  | some q =>
    rw [hl] at h
    cases q with
    | short => cases h
    | other src => cases h
    | udp src dst =>
      dsimp only at h ⊢
      split at h
      · cases h
      · next htest =>
        cases List.mem_singleton.1 h
        exact ⟨List.mem_singleton_self _, .inr (by simpa using htest)⟩
    | tcp p =>
      dsimp only at h ⊢
      split at h
      · next htest =>
        rw [Bool.and_eq_true, Bool.not_eq_true'] at htest
        cases List.mem_singleton.1 h
        exact ⟨by simp [htest.1], .inl htest.2⟩
      · cases h

/-- A contact that neither path excludes is recorded. -/
theorem records_complete {l : Event} {x : UInt32 × UInt32} (h : x ∈ contacts l)
    (hlan : isLan x.2 = false) (hlocal : isLocal x.2 = false) : x ∈ records l := by
  unfold contacts at h
  unfold records
  cases hl : header l with
  | none => rw [hl] at h; cases h
  | some q =>
    rw [hl] at h
    cases q with
    | short => cases h
    | other src => cases h
    | udp src dst =>
      cases List.mem_singleton.1 h
      simp [hlocal]
    | tcp p =>
      dsimp only at h ⊢
      split at h
      · next hsyn =>
        cases List.mem_singleton.1 h
        simp [hsyn, hlan]
      · cases h

/-! ## One step -/

/-- The footprint of a source. -/
def footprint (s : State) (src : UInt32) : Finset UInt32 := (s.tracker src).extDsts

section Steps

variable {e : Env} {s s' : Sensor} {src ip : UInt32}

theorem footprint_congr {a a' : State} (h : a'.sourceTrackers = a.sourceTrackers) (src : UInt32) :
    footprint a' src = footprint a src := by rw [footprint, tracker_congr h, footprint]

/-- A new tracker for `src'` that has `dsts` besides. -/
theorem footprint_set {a : State} {src' : UInt32} {t : SourceTracker} (dsts : Finset UInt32)
    (ht : t.extDsts = dsts ∪ footprint a src') (src : UInt32) :
    footprint (a.setTracker src' t) src =
      if src = src' then dsts ∪ footprint a src else footprint a src := by
  by_cases he : src = src'
  · subst he
    rw [if_pos rfl, footprint, tracker_setTracker_self, ht]
  · rw [if_neg he, footprint, tracker_setTracker_of_ne _ _ he, footprint]

theorem ttlStage_footprint (e : Anomalies.Env) (a : State) (p : TcpPacket) (src : UInt32) :
    footprint (ttlStage e a p) src = footprint a src := by
  have hset : (ttlStage e a p).sourceTrackers = (a.setTracker p.cid.srcIp
      (if 0 < p.ttl && isLocal p.cid.srcIp then
        { a.tracker p.cid.srcIp with initialTtl := estimateInitialTtl p.ttl }
      else a.tracker p.cid.srcIp)).sourceTrackers := ttlStage_sources e a p
  rw [footprint_congr hset, footprint_set ∅]
  · simp
  · rw [Finset.empty_union]
    split <;> rfl

theorem synStage_footprint (e : Anomalies.Env) (a : State) (p : TcpPacket) (src : UInt32) :
    footprint (synStage e a p) src =
      if src = p.cid.srcIp ∧ (p.syn && !isLan p.cid.dstIp) = true then
        insert p.cid.dstIp (footprint a src) else footprint a src := by
  rw [footprint_congr (synStage_sources e a p)]
  cases p.syn with
  | false => simp
  | true =>
    rw [if_pos rfl, footprint_set (if isLan p.cid.dstIp then ∅ else {p.cid.dstIp})]
    · cases isLan p.cid.dstIp <;> simp
    · rw [SourceTracker.addSyn, footprint]
      cases isLan p.cid.dstIp <;> simp

/-- TCP: a SYN-flagged packet to a destination outside the private ranges. -/
theorem tcp_footprint (e : Anomalies.Env) (s : Sensor) (p : TcpPacket) (src : UInt32) :
    footprint (processTcpPacket e s p).anomalies src =
      if src = p.cid.srcIp ∧ (p.syn && !isLan p.cid.dstIp) = true then
        insert p.cid.dstIp (footprint s.anomalies src) else footprint s.anomalies src := by
  rw [footprint_congr (processTcpPacket_trackers e s p).1,
    footprint_congr (sourceTrackers_untouched e).check, synStage_footprint, ttlStage_footprint]

/-- UDP: any packet to a destination that is not local. -/
theorem udp_footprint (s : Sensor) (src' dst src : UInt32) :
    footprint (processUdp s src' dst).anomalies src =
      if src = src' ∧ isLocal dst = false then insert dst (footprint s.anomalies src)
      else footprint s.anomalies src := by
  unfold processUdp
  cases isLocal dst with
  | true => simp
  | false =>
    rw [if_neg Bool.false_ne_true, footprint_set {dst}]
    · simp
    · rw [footprint, Finset.insert_eq]

theorem packet_footprint {b : Bytes} {time : Rat}
    (hs : Step e s (.sensor (.packet b time)) s') (src ip : UInt32) :
    ip ∈ footprint s'.anomalies src ↔ ip ∈ footprint s.anomalies src ∨
      (src, ip) ∈ records (.sensor (.packet b time)) := by
  obtain ⟨ret, hp⟩ := hs
  obtain ⟨q, hq, he⟩ := Option.map_eq_some_iff.1 hp
  rw [records, header, hq]
  cases q with
  | short => cases he; simp
  | other src => cases he; simp
  | udp src' dst =>
    obtain ⟨rfl, -⟩ := Prod.mk.inj he
    rw [udp_footprint]
    by_cases h : src = src' ∧ isLocal dst = false
    · rw [if_pos h, Finset.mem_insert]
      simp [h.1, h.2, or_comm]
    · rw [if_neg h]
      cases hl : isLocal dst <;> simp_all
  | tcp p =>
    cases he
    rw [tcp_footprint]
    by_cases h : src = p.cid.srcIp ∧ (p.syn && !isLan p.cid.dstIp) = true
    · rw [if_pos h, Finset.mem_insert]
      simp [h.1, h.2, or_comm]
    · rw [if_neg h]
      cases ht : p.syn && !isLan p.cid.dstIp <;> simp_all

/-- Only packets add to a footprint, and only an eviction takes from one. -/
theorem step_footprint {l : Event} (hs : Step e s l s') :
    (∀ src ip, ip ∈ footprint s'.anomalies src →
      ip ∈ footprint s.anomalies src ∨ (src, ip) ∈ records l) ∧
    ∀ src ip, (src, ip) ∈ records l → ip ∈ footprint s'.anomalies src := by
  have hquiet : records l = [] → (∀ src, footprint s'.anomalies src ⊆ footprint s.anomalies src) →
      (∀ src ip, ip ∈ footprint s'.anomalies src →
        ip ∈ footprint s.anomalies src ∨ (src, ip) ∈ records l) ∧
      ∀ src ip, (src, ip) ∈ records l → ip ∈ footprint s'.anomalies src := by
    intro hnone hsub
    rw [hnone]
    exact ⟨fun src ip hip => .inl (hsub src hip), fun src ip hip => by cases hip⟩
  cases l with
  | flush =>
    obtain rfl : s' = flushSensor e s := hs
    refine hquiet rfl fun src => ?_
    rw [footprint_congr (flush_sources e s)]
  | shuffle =>
    obtain ⟨sources, hsources, beacons, hbeacons, rfl⟩ := hs
    refine hquiet rfl fun src => ?_
    rw [footprint, footprint, State.tracker, UMap.find?_reorder, State.tracker]
  | sensor l =>
    cases l with
    | packet b time =>
      exact ⟨fun src ip => (packet_footprint hs src ip).1,
        fun src ip hip => (packet_footprint hs src ip).2 (.inr hip)⟩
    | complete => cases hs; exact hquiet rfl fun src => Finset.Subset.refl _
    | evict now =>
      cases hs
      refine hquiet rfl fun src => ?_
      unfold evictStale
      dsimp only
      split
      · exact Finset.Subset.refl _
      · rw [footprint, State.tracker, capTrackers]
        dsimp only
        split
        · exact Finset.empty_subset _
        · exact Finset.Subset.refl _
    | block ip =>
      cases hs
      refine hquiet rfl fun src => ?_
      rw [footprint_congr (blockSource_sourceTrackers ..)]
    | unblock ip => cases hs; exact hquiet rfl fun src => Finset.Subset.refl _
    | rehash =>
      refine hquiet rfl fun src => ?_
      cases hs with
      | table l hl => exact Finset.Subset.refl _
      | ports ip l hl =>
        rw [footprint_set ∅]
        · simp
        · rw [Finset.empty_union, footprint]

end Steps

/-! ## Runs -/

/-- No footprint holds an address that is not public. -/
def Confined (s : State) : Prop := ∀ src, ∀ ip ∈ footprint s src, isPublic ip = true

/-- What is promised of a run: in every state the footprints are confined and
a flush raises "Botnet Host" on public addresses only, and the two paths
classify the run's destinations alike. -/
structure Promised (e : Env) (ls : List Event) : Prop where
  confined : ∀ pre s, pre <+: ls → (system e).Run {} pre s → Confined s.anomalies
  credited : ∀ pre s new, pre <+: ls → (system e).Run {} pre s →
    (flushSensor e s).anomalies.alerts = s.anomalies.alerts ++ new →
    ∀ a ∈ new, a.threatType = lit "Botnet Host" → isPublic a.connection.dstIp = true
  alike : ∀ ip ∈ destinations ls, isLan ip = isLocal ip

section Runs

variable {e : Env}

theorem destinations_mono {pre ls : List Event} (h : pre ⊆ ls) :
    destinations pre ⊆ destinations ls := by
  intro ip hip
  obtain ⟨x, hx, rfl⟩ := List.mem_map.1 hip
  obtain ⟨l, hl, hx⟩ := List.mem_flatMap.1 hx
  exact List.mem_map_of_mem (List.mem_flatMap.2 ⟨l, h hl, hx⟩)

theorem mem_destinations {l : Event} {x : UInt32 × UInt32} (h : x ∈ contacts l)
    (ls : List Event) : x.2 ∈ destinations (ls ++ [l]) :=
  List.mem_map_of_mem (List.mem_flatMap.2 ⟨l, by simp, h⟩)

theorem confined_run {ls : List Event} {s : Sensor}
    (hls : ∀ ip ∈ destinations ls, isReserved ip = false) (hr : (system e).Run {} ls s) :
    Confined s.anomalies := by
  have hind := hr.history
    (I := fun pre s => (∀ ip ∈ destinations pre, isReserved ip = false) → Confined s.anomalies)
    ?_ fun _ src ip hip => by cases hip
  · exact hind hls
  · intro pre s l s' ih hs hpre src ip hip
    have hbefore := ih fun ip hip => hpre ip (destinations_mono (List.subset_append_left ..) hip)
    rcases (step_footprint hs).1 src ip hip with hip | hip
    · exact hbefore src ip hip
    · obtain ⟨hcontact, htest⟩ := records_sound hip
      have hres : isReserved ip = false := hpre ip (mem_destinations hcontact pre)
      refine isPublic_of_not_reserved hres (htest.elim id fun hlocal => ?_)
      rwa [isLocal_eq_isLan hres] at hlocal

/-- A bot is reported on the addresses of its footprint. -/
theorem botnet_credited {s : Sensor} {new : List ThreatAlert}
    (hnew : (flushSensor e s).anomalies.alerts = s.anomalies.alerts ++ new) {a : ThreatAlert}
    (ha : a ∈ new) (htype : a.threatType = lit "Botnet Host") :
    a.connection.dstIp ∈ footprint s.anomalies a.connection.srcIp := by
  by_cases hcb : e.hasCallback = true
  · rw [flush_alerts hcb, List.append_cancel_left_eq] at hnew
    rw [← hnew] at ha
    rcases List.mem_append.1 ha with ha | ha
    · obtain ⟨bt, -, rfl⟩ := List.mem_map.1 ha
      have hne : lit "C2 Beaconing" ≠ lit "Botnet Host" := by decide
      exact absurd htype hne
    · obtain ⟨x, hx, ha⟩ := List.mem_flatMap.1 ha
      obtain ⟨dst, hdst, rfl⟩ := List.mem_map.1 ha
      have htracker : s.anomalies.tracker x.1 = x.2 := by
        rw [State.tracker, UMap.find?_eq_some.2 (List.mem_filter.1 hx).1, Option.getD_some]
      show dst ∈ (s.anomalies.tracker x.1).extDsts
      rw [htracker]
      exact (Finset.mem_sort _).1 hdst
  · rw [Bool.not_eq_true] at hcb
    rw [flush_silent hcb] at hnew
    rw [List.self_eq_append_right.1 hnew] at ha
    cases ha

/-- Every event can happen. -/
theorem exists_step (e : Env) (s : Sensor) (l : Event) : ∃ s', (system e).step s l s' := by
  cases l with
  | flush => exact ⟨_, rfl⟩
  | shuffle => exact ⟨_, _, .refl _, _, .refl _, rfl⟩
  | sensor l =>
    cases l with
    | packet b time =>
      obtain ⟨q, hq⟩ := L1.IpReads.parseIpPacket_total b time
      obtain ⟨r, hr⟩ : ∃ r, processIpPacket e.toSensor s b time = some r :=
        ⟨_, by rw [processIpPacket, hq]; rfl⟩
      exact ⟨r.1, r.2, hr⟩
    | complete => exact ⟨_, rfl⟩
    | evict now => exact ⟨_, rfl⟩
    | block ip => exact ⟨_, rfl⟩
    | unblock ip => exact ⟨_, rfl⟩
    | rehash => exact ⟨_, .table _ (.refl _)⟩

/-- A contacted address that the paths classify alike is recorded. -/
theorem reserved_recorded (e : Env) {ls : List Event} {ip : UInt32} (hip : ip ∈ destinations ls)
    (hres : isReserved ip = true) (halike : isLan ip = isLocal ip) :
    ∃ pre s src, pre <+: ls ∧ (system e).Run {} pre s ∧ ip ∈ footprint s.anomalies src := by
  obtain ⟨⟨src, ip'⟩, hx, rfl⟩ := List.mem_map.1 hip
  obtain ⟨l, hl, hcontact⟩ := List.mem_flatMap.1 hx
  obtain ⟨pre, post, rfl⟩ := List.append_of_mem hl
  have hlan := isLan_of_reserved hres
  have hrec : (src, ip') ∈ records l := records_complete hcontact hlan (halike ▸ hlan)
  obtain ⟨s, hr⟩ := LTS.exists_run (exists_step e) pre {}
  obtain ⟨s', hs⟩ := exists_step e s l
  exact ⟨pre ++ [l], s', src, ⟨post, by simp⟩, hr.snoc hs, (step_footprint hs).2 src ip' hrec⟩

/-- Over every run, of captures, flushes and rehashes in any order: the
footprints are as promised exactly when no SYN-flagged packet and no UDP
packet goes to 0/8, 127/8 or 169.254/16. -/
theorem footprint_iff (e : Env) (ls : List Event) :
    Promised e ls ↔ ∀ ip ∈ destinations ls, isReserved ip = false := by
  constructor
  · intro h ip hip
    by_contra hres
    rw [Bool.not_eq_false] at hres
    obtain ⟨pre, s, src, hpre, hr, hmem⟩ := reserved_recorded e hip hres (h.alike ip hip)
    have hpublic := h.confined pre s hpre hr src ip hmem
    rw [isPublic, hres] at hpublic
    simp at hpublic
  · intro h
    have hrun : ∀ pre s, pre <+: ls → (system e).Run {} pre s → Confined s.anomalies :=
      fun pre s hpre hr =>
        confined_run (fun ip hip => h ip (destinations_mono hpre.subset hip)) hr
    exact ⟨hrun, fun pre s new hpre hr hnew a ha htype =>
        hrun pre s hpre hr _ _ (botnet_credited hnew ha htype),
      fun ip hip => (isLocal_eq_isLan (h ip hip)).symm⟩

end Runs

/-! ## Inputs -/

/-- A SYN from 10.0.0.5. -/
def synTo (a b c d : UInt8) (port : UInt8) : Bytes :=
  [0x45, 0, 0, 40, 0, 0, 0, 0, 64, 6, 0, 0, 10, 0, 0, 5, a, b, c, d,
   0x80, 0, 0, port, 0, 0, 0, 1, 0, 0, 0, 0, 0x50, 0x02, 0xFF, 0xFF, 0, 0, 0, 0]

/-- Thirty mail servers, and the address 169.254.169.254. -/
def campaign : List (Bytes × Rat) :=
  (synTo 169 254 169 254 80, 0) :: (List.range 30).map fun i => (synTo 192 0 2 (.ofNat i) 25, i)

def metadataIp : UInt32 := 0xFEA9FEA9

/-- The link-local address is in the footprint, the bot is reported on it,
and the UDP path would have left it out. -/
theorem linkLocal_credited :
    ∃ s, (system wholeRoots).Run {} ((campaign.map fun x => .packet x.1 x.2).map .sensor) s ∧
      metadataIp ∈ footprint s.anomalies 0x0500000A ∧
      (∃ a ∈ (flushSensor wholeRoots s).anomalies.alerts,
        a.threatType = lit "Botnet Host" ∧ a.connection.dstIp = metadataIp) ∧
      isPublic metadataIp = false ∧ isLan metadataIp = false ∧ isLocal metadataIp = true := by
  have hfed : (Responders.feed Responders.inlineEnv {} campaign).any (fun s =>
      s.anomalies.sourceTrackers.entries.any fun x => decide (x.1 = 0x0500000A ∧
        spamThreshold ≤ (mailDsts x.2).card ∧ metadataIp ∈ x.2.extDsts)) = true := by
    decide +kernel
  obtain ⟨s, hs, htest⟩ := (Option.any_eq_true _ _).1 hfed
  obtain ⟨⟨src, t⟩, hmem, htest⟩ := List.any_eq_true.1 htest
  obtain ⟨rfl, hmail, hext⟩ := of_decide_eq_true htest
  have htracker : s.anomalies.tracker 0x0500000A = t := by
    rw [State.tracker, UMap.find?_eq_some.2 hmem, Option.getD_some]
  refine ⟨s, sensor_run (e := wholeRoots) (Responders.feed_run hs), ?_, ?_, by decide, by decide,
    by decide⟩
  · rw [footprint, htracker]
    exact hext
  · refine ⟨botnetAlert 0x0500000A t metadataIp, ?_, rfl, rfl⟩
    rw [flush_alerts rfl]
    refine List.mem_append_right _ (List.mem_append_right _ (List.mem_flatMap.2 ⟨_,
      List.mem_filter.2 ⟨hmem, decide_eq_true hmail⟩, ?_⟩))
    exact List.mem_map_of_mem ((Finset.mem_sort _).2 hext)

end Wirewolf.L5.Footprint
