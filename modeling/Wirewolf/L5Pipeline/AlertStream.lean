import Wirewolf.L5Pipeline.Volumetric

/-!
# The alerts of the connection detectors as one stream

What a packet should report is a fact about the packets so far
(`triggered`): a local source whose initial TTL has changed, an endpoint that
the threat list names, the three volumetric detections of its source, a SYN
flood. The detectors instead read what the trackers have kept, and suppress
what has a dedup key.

* `Stream`: the subjects alerted so far, in order.
* `alerts_eq_stream`: over every sequence of calls the alerts are the
  triggered subjects in the order of their first trigger, one alert each, as
  long as distinct subjects have distinct keys.
-/
namespace Wirewolf.L5.AlertStream

open Wirewolf.L1.IpPacket
open Wirewolf.L5.Alerts Wirewolf.L5.Anomalies Wirewolf.L5.Volumetric
open Wirewolf.L5.Responders (Counts answered tracker_congr tracker_setTracker_self
  tracker_setTracker_of_ne)

/-! ## The reference -/

/-- What the TTLs of a local source say about its stack, in order. -/
def estimates (src : UInt32) (ps : List TcpPacket) : List UInt8 :=
  (ps.filter fun p => decide (0 < p.ttl) && isLocal src && decide (p.cid.srcIp = src)).map
    fun p => estimateInitialTtl p.ttl

/-- The source seemed to have another stack so far. -/
def spoofed (pre : List TcpPacket) (p : TcpPacket) : Bool :=
  decide (0 < p.ttl) && isLocal p.cid.srcIp &&
    (estimates p.cid.srcIp pre).getLast?.any fun est => estimateInitialTtl p.ttl != est

/-- The public endpoint is on the threat list. -/
def listed (e : Env) (p : TcpPacket) : Bool :=
  external p.cid != 0 &&
    (e.threatOf (external p.cid)).any fun threat => decide (threat ≠ [] ∧ threat ≠ lit "-")

/-- The SYNs `qs` of one source are a flood at time `now`. -/
def flooding (qs : List TcpPacket) (now : Rat) : Bool :=
  decide (5000 ≤ qs.length ∧ 10 < synRate qs.length ((qs.head?.map (·.time)).getD 0) now)

/-- The volumetric detections of the packet's source and port. -/
def detections (p : TcpPacket) : List Detection :=
  [.portScan p.cid.srcIp, .sshBruteForce p.cid.srcIp, .worm p.cid.srcIp p.cid.dstPort]

/-- Those that the SYNs `qs` are enough for. -/
def detected (p : TcpPacket) (qs : List TcpPacket) : List Subject :=
  ((detections p).filter fun d => decide (d.Over qs)).map .detection

/-- The subjects that the packet is to report, by the packets before it. -/
def triggered (e : Env) (pre : List TcpPacket) (p : TcpPacket) : List Subject :=
  let src := p.cid.srcIp
  let qs := synsOf src (pre ++ [p])
  (if spoofed pre p then [.ipSpoofing src] else []) ++
    ((if listed e p then [.threatIntel src p.cid.dstIp] else []) ++
      (detected p qs ++ if flooding qs p.time then [.ddos src] else []))

def streamFrom (e : Env) (pre : List TcpPacket) : List TcpPacket → List Subject
  | [] => []
  | p :: ps => triggered e pre p ++ streamFrom e (pre ++ [p]) ps

/-- The triggered subjects of the whole history. -/
def stream (e : Env) (ps : List TcpPacket) : List Subject := streamFrom e [] ps

/-- What an alert is about. -/
def subjectOf (a : ThreatAlert) : Subject :=
  let src := a.connection.srcIp
  if a.threatType = lit "Port Scan" then .detection (.portScan src)
  else if a.threatType = lit "SSH Brute Force" then .detection (.sshBruteForce src)
  else if a.threatType = lit "Worm Propagation Scan" then
    .detection (.worm src a.connection.dstPort)
  else if a.threatType = lit "IP Spoofing" then .ipSpoofing src
  else if a.threatType = lit "DDoS" then .ddos src
  else .threatIntel src a.connection.dstIp

theorem streamFrom_append (e : Env) (pre ps : List TcpPacket) (p : TcpPacket) :
    streamFrom e pre (ps ++ [p]) = streamFrom e pre ps ++ triggered e (pre ++ ps) p := by
  induction ps generalizing pre with
  | nil => simp [streamFrom]
  | cons q ps ih =>
    rw [List.cons_append, streamFrom, ih, streamFrom, List.append_assoc, List.append_assoc]
    rfl

theorem stream_append (e : Env) (ps : List TcpPacket) (p : TcpPacket) :
    stream e (ps ++ [p]) = stream e ps ++ triggered e ps p := streamFrom_append e [] ps p

/-! ## One subject more -/

theorem eraseDups_concat (l : List Subject) (σ : Subject) :
    (l ++ [σ]).eraseDups = if σ ∈ l then l.eraseDups else l.eraseDups ++ [σ] := by
  rw [List.eraseDups_append]
  by_cases h : σ ∈ l <;> simp [h, List.removeAll, List.eraseDups_cons]

/-- Known subjects in between make no difference. -/
theorem eraseDups_between {S l₁ l₂ l : List Subject} (h₁ : ∀ σ ∈ l₁, σ ∈ S) (h₂ : ∀ σ ∈ l₂, σ ∈ S) :
    (S ++ (l₁ ++ l ++ l₂)).eraseDups = (S ++ l).eraseDups := by
  have hnone : ∀ {l : List Subject}, (∀ σ ∈ l, σ ∈ S) → l.removeAll S = [] := fun h =>
    List.filter_eq_nil_iff.2 fun σ hσ => by simpa using h σ hσ
  have hsame : (l₁ ++ l ++ l₂).removeAll S = l.removeAll S := by
    rw [List.removeAll, List.filter_append, List.filter_append, ← List.removeAll, ← List.removeAll,
      ← List.removeAll, hnone h₁, hnone h₂, List.nil_append, List.append_nil]
  rw [List.eraseDups_append, hsame, ← List.eraseDups_append]

/-- The subjects of `S` have been alerted, each of them once and in order. -/
structure Stream (e : Env) (N S : List Subject) (s : State) : Prop where
  named : ∀ σ ∈ S, σ ∈ N
  keys : ∀ k, k ∈ s.alertedAnomalies ↔ ∃ σ ∈ S, σ.key e = k
  alerts : s.alerts.map subjectOf = S.eraseDups

section Stages

variable {e : Env} {N S : List Subject} {s s' : State} {p : TcpPacket} {t : SourceTracker}
  {σ : Subject} {l : List Subject} {threatType snippet : Bytes}

theorem Stream.nil : Stream e N [] {} := by
  refine ⟨fun σ hσ => absurd hσ List.not_mem_nil, fun k => ?_, rfl⟩
  simp

theorem Stream.of_eq (h : Stream e N S s) (hk : s'.alertedAnomalies = s.alertedAnomalies)
    (ha : s'.alerts = s.alerts) : Stream e N S s' :=
  ⟨h.named, hk ▸ h.keys, ha ▸ h.alerts⟩

/-- Only the first mention of a subject counts. -/
theorem Stream.congr {S' : List Subject} (h : Stream e N S s) (hS : S.eraseDups = S'.eraseDups) :
    Stream e N S' s := by
  have hmem : ∀ σ, σ ∈ S ↔ σ ∈ S' := fun σ => by
    rw [← List.mem_eraseDups, hS, List.mem_eraseDups]
  refine ⟨fun σ hσ => h.named σ ((hmem σ).2 hσ), fun k => ?_, hS ▸ h.alerts⟩
  rw [h.keys]
  simp only [hmem]

/-- One call of `emit_alert`, for a subject that is new only if the alert is
about it. -/
theorem Stream.emit (hcb : e.hasCallback = true) (hN : DistinctKeys e N) (h : Stream e N S s)
    (hσ : σ ∈ N)
    (hf : σ ∉ S → subjectOf (threatAlert (anomalyConn p) threatType snippet) = σ) :
    Stream e N (S ++ [σ]) (emitAlert e s (anomalyConn p) threatType snippet (σ.key e)) := by
  have hmem : σ.key e ∈ s.alertedAnomalies ↔ σ ∈ S := by
    rw [h.keys]
    constructor
    · rintro ⟨τ, hτ, hkey⟩
      rwa [← hN τ (h.named τ hτ) σ hσ hkey]
    · exact fun hin => ⟨σ, hin, rfl⟩
  have hnamed : ∀ τ ∈ S ++ [σ], τ ∈ N := fun τ hτ =>
    (List.mem_append.1 hτ).elim (h.named τ) fun hτ => List.mem_singleton.1 hτ ▸ hσ
  have hkeys : ∀ k, (∃ τ ∈ S ++ [σ], τ.key e = k) ↔ (∃ τ ∈ S, τ.key e = k) ∨ σ.key e = k := by
    intro k
    simp only [List.mem_append, List.mem_singleton, or_and_right, exists_or, exists_eq_left]
  by_cases hin : σ ∈ S
  · rw [emitAlert, if_pos (hmem.2 hin)]
    refine ⟨hnamed, fun k => ?_, ?_⟩
    · rw [h.keys, hkeys, or_iff_left_of_imp]
      exact fun hk => ⟨σ, hin, hk⟩
    · rw [h.alerts, eraseDups_concat, if_pos hin]
  · obtain ⟨halerted, halerts⟩ := emitAlert_new hcb fun hk => hin (hmem.1 hk)
    refine ⟨hnamed, fun k => ?_, ?_⟩
    · rw [halerted, Finset.mem_insert, h.keys, hkeys, or_comm, eq_comm]
    · rw [halerts, List.map_append, h.alerts, eraseDups_concat, if_neg hin, List.map_singleton,
        hf hin]

/-- A stage that emits under a condition. -/
theorem Stream.emit_if (hcb : e.hasCallback = true) (hN : DistinctKeys e N) (h : Stream e N S s)
    (hσ : σ ∈ N) (hf : subjectOf (threatAlert (anomalyConn p) threatType snippet) = σ) (c : Bool) :
    Stream e N (S ++ if c then [σ] else [])
      (if c then emitAlert e s (anomalyConn p) threatType snippet (σ.key e) else s) := by
  cases c with
  | true => exact h.emit hcb hN hσ fun _ => hf
  | false => simpa using h

/-! ## The stages -/

/-- `ttlStage` compares with the tracker. -/
def spoofedBy (t : SourceTracker) (p : TcpPacket) : Bool :=
  decide (0 < p.ttl) && isLocal p.cid.srcIp && t.initialTtl != 0 &&
    estimateInitialTtl p.ttl != t.initialTtl

theorem Stream.ttlStage (hcb : e.hasCallback = true) (hN : DistinctKeys e N) (h : Stream e N S s)
    (hσ : .ipSpoofing p.cid.srcIp ∈ N) :
    Stream e N (S ++ if spoofedBy (s.tracker p.cid.srcIp) p then [.ipSpoofing p.cid.srcIp] else [])
      (ttlStage e s p) := by
  have hsub : ∀ snippet, subjectOf (threatAlert (anomalyConn p) (lit "IP Spoofing") snippet) =
      .ipSpoofing p.cid.srcIp := fun _ => rfl
  exact (h.emit_if hcb hN hσ (hsub _) (spoofedBy (s.tracker p.cid.srcIp) p)).of_eq rfl rfl

/-- No type of the threat list is the title of another detector. -/
theorem subjectOf_mapType (threat snippet : Bytes) :
    subjectOf (threatAlert (anomalyConn p) (mapType threat) snippet) =
      .threatIntel p.cid.srcIp p.cid.dstIp := by
  unfold mapType
  split
  · rfl
  · split
    · rfl
    · split <;> rfl

theorem listed_iff : listed e p = true ↔ ∃ threat, e.threatOf (external p.cid) = some threat ∧
    ¬ (external p.cid = 0 ∨ threat = [] ∨ threat = lit "-") := by
  rw [listed, Bool.and_eq_true, bne_iff_ne, Option.any_eq_true]
  simp only [decide_eq_true_eq, not_or]
  exact ⟨fun ⟨hext, threat, hthreat, hno⟩ => ⟨threat, hthreat, hext, hno⟩,
    fun ⟨threat, hthreat, hext, hno⟩ => ⟨hext, threat, hthreat, hno⟩⟩

theorem Stream.intelStage (hcb : e.hasCallback = true) (hN : DistinctKeys e N) (h : Stream e N S s)
    (hσ : .threatIntel p.cid.srcIp p.cid.dstIp ∈ N) :
    Stream e N (S ++ if listed e p then [.threatIntel p.cid.srcIp p.cid.dstIp] else [])
      (intelStage e s p) := by
  unfold Anomalies.intelStage
  dsimp only
  cases hl : listed e p with
  | true =>
    obtain ⟨threat, hthreat, hno⟩ := listed_iff.1 hl
    rw [hthreat]
    dsimp only
    rw [if_neg hno]
    exact h.emit hcb hN hσ fun _ => subjectOf_mapType threat _
  | false =>
    have hsame : Stream e N (S ++ []) s := by simpa using h
    cases hthreat : e.threatOf (external p.cid) with
    | none => exact hsame
    | some threat =>
      dsimp only
      by_cases hno : external p.cid = 0 ∨ threat = [] ∨ threat = lit "-"
      · rw [if_pos hno]
        exact hsame
      · exact absurd (listed_iff.2 ⟨threat, hthreat, hno⟩) (by rw [hl]; exact Bool.false_ne_true)

theorem Stream.ddosStage (hcb : e.hasCallback = true) (hN : DistinctKeys e N) (h : Stream e N S s)
    (hσ : .ddos p.cid.srcIp ∈ N) {qs : List TcpPacket} (hc : Counts t qs) :
    Stream e N (S ++ if flooding qs p.time then [.ddos p.cid.srcIp] else [])
      (ddosStage e t s p) := by
  have hsub : ∀ snippet, subjectOf (threatAlert (anomalyConn p) (lit "DDoS") snippet) =
      .ddos p.cid.srcIp := fun _ => rfl
  unfold Anomalies.ddosStage flooding
  rw [← hc.first, ← hc.total]
  dsimp only
  by_cases htotal : 5000 ≤ t.totalSyns
  · by_cases hrate : 10 < synRate t.totalSyns t.firstSynTime p.time
    · rw [if_pos htotal, if_pos hrate, decide_eq_true ⟨htotal, hrate⟩]
      exact h.emit hcb hN hσ fun _ => hsub _
    · rw [if_pos htotal, if_neg hrate, decide_eq_false fun hboth => hrate hboth.2]
      simpa using h
  · rw [if_neg htotal, decide_eq_false fun hboth => htotal hboth.1]
    simpa using h

/-- The title of a detection says what the alert is about. -/
theorem subjectOf_detection {d : Detection} (hf : Subject.Fits p (.detection d)) :
    subjectOf (threatAlert (anomalyConn p) d.title snippet) = .detection d := by
  cases d with
  | portScan src => cases hf; rfl
  | sshBruteForce src => cases hf; rfl
  | worm src port =>
    obtain ⟨rfl, rfl⟩ := hf
    rfl

theorem Stream.emits (hcb : e.hasCallback = true) (hN : DistinctKeys e N) (he : Emits e p l s s') :
    ∀ {S}, Stream e N S s → (∀ σ ∈ l, σ ∈ N) →
      (∀ σ ∈ l, ∃ d, σ = .detection d) → (∀ σ ∈ l, σ ∈ S ∨ σ.Fits p) →
      Stream e N (S ++ l) s' := by
  induction he with
  | nil => exact fun h _ _ _ => by simpa using h
  | @cons s s' σ l threatType snippet ht _ ih =>
    intro S h hl hd hf
    obtain ⟨d, rfl⟩ := hd σ (List.mem_cons_self ..)
    have ht : threatType = d.title := ht
    subst ht
    have hone : Stream e N (S ++ [.detection d])
        (emitAlert e s (anomalyConn p) d.title snippet (Subject.key e (.detection d))) :=
      h.emit hcb hN (hl _ (List.mem_cons_self ..)) fun hnew =>
        subjectOf_detection ((hf _ (List.mem_cons_self ..)).resolve_left hnew)
    have hrest := ih hone (fun τ hτ => hl τ (List.mem_cons_of_mem _ hτ))
      (fun τ hτ => hd τ (List.mem_cons_of_mem _ hτ))
      fun τ hτ => (hf τ (List.mem_cons_of_mem _ hτ)).imp_left (List.mem_append_left _)
    rwa [List.append_assoc, List.singleton_append] at hrest

/-! ## One call -/

/-- Of the ports over the threshold only the packet's own can be new. -/
theorem worms_new {ports : List UInt16} (hnodup : ports.Nodup) (src : UInt32) (port : UInt16)
    (hold : ∀ x ∈ ports, x ≠ port → Subject.detection (.worm src x) ∈ S) :
    (S ++ ports.map fun x => Subject.detection (.worm src x)).eraseDups =
      (S ++ if port ∈ ports then [Subject.detection (.worm src port)] else []).eraseDups := by
  have hother : ∀ l : List UInt16, l ⊆ ports → port ∉ l →
      ∀ σ ∈ l.map fun x => Subject.detection (.worm src x), σ ∈ S := by
    intro l hl hport σ hσ
    obtain ⟨x, hx, rfl⟩ := List.mem_map.1 hσ
    exact hold x (hl hx) fun he => hport (he ▸ hx)
  by_cases hmem : port ∈ ports
  · rw [if_pos hmem]
    obtain ⟨l₁, l₂, rfl⟩ := List.append_of_mem hmem
    have hport : port ∉ l₁ ++ l₂ := (List.nodup_cons.1 (List.nodup_middle.1 hnodup)).1
    rw [List.mem_append, not_or] at hport
    simpa using eraseDups_between (l := [Subject.detection (.worm src port)])
      (hother l₁ (by simp) hport.1)
      (hother l₂ (fun x hx => List.mem_append_right _ (List.mem_cons_of_mem _ hx)) hport.2)
  · rw [if_neg hmem]
    simpa using eraseDups_between (l := []) (hother ports (List.Subset.refl _) hmem)
      fun σ hσ => absurd hσ List.not_mem_nil

/-- The scan emits worms of other ports too, all of them known. -/
theorem eraseDups_scanned {qs : List TcpPacket} (hc : Counts t qs)
    (hold : ∀ port, port ≠ p.cid.dstPort → (Detection.worm p.cid.srcIp port).Over qs →
      Subject.detection (.worm p.cid.srcIp port) ∈ S) :
    (S ++ scanned p t).eraseDups = (S ++ detected p qs).eraseDups := by
  have hnodup : (wormPorts t.portDstIps.entries).Nodup :=
    t.portDstIps.nodup.sublist (List.filter_sublist.map Prod.fst)
  have hports : t.dstPorts = knownPorts qs := hc.ports
  have hssh : (t.portSynCounts.find? sshPort).getD 0 = attemptsOn sshPort qs := hc.syns sshPort
  unfold scanned
  rw [hports, hssh, ← List.append_assoc, ← List.append_assoc, worms_new hnodup _ p.cid.dstPort
    fun x hx hne => List.mem_append_left _ (List.mem_append_left _
      (hold x hne ((mem_wormPorts hc _ x).1 hx))), List.append_assoc, List.append_assoc]
  congr 2
  have hscan : (Detection.portScan p.cid.srcIp).Over qs ↔ 50 ≤ (knownPorts qs).card := .rfl
  have hbrute : (Detection.sshBruteForce p.cid.srcIp).Over qs ↔ 30 ≤ attemptsOn sshPort qs := .rfl
  simp only [mem_wormPorts hc p.cid.srcIp, detected, detections, List.filter_cons, List.filter_nil,
    decide_eq_true_eq, hscan, hbrute]
  by_cases h₁ : 50 ≤ (knownPorts qs).card <;> by_cases h₂ : 30 ≤ attemptsOn sshPort qs <;>
    by_cases h₃ : (Detection.worm p.cid.srcIp p.cid.dstPort).Over qs <;> simp [h₁, h₂, h₃]

/-- A call alerts what its packet triggers, if the trackers keep what they
should and earlier calls have alerted the worms of other ports. -/
theorem Stream.check {ps : List TcpPacket} (hcb : e.hasCallback = true) (hN : DistinctKeys e N)
    (hp : ∀ σ ∈ subjects p, σ ∈ N) (h : Stream e N S s)
    (hc : Counts (s.tracker p.cid.srcIp) (synsOf p.cid.srcIp ps))
    (hbase : spoofedBy (s.tracker p.cid.srcIp) p = spoofed ps p)
    (hold : ∀ port, port ≠ p.cid.dstPort →
      (Detection.worm p.cid.srcIp port).Over (synsOf p.cid.srcIp (ps ++ [p])) →
      Subject.detection (.worm p.cid.srcIp port) ∈ S) :
    Stream e N (S ++ triggered e ps p) (checkConnectionAnomalies e s p) := by
  have hcounts :
      Counts ((Anomalies.intelStage e (synStage e (Anomalies.ttlStage e s p) p) p).tracker
        p.cid.srcIp) (synsOf p.cid.srcIp (ps ++ [p])) := by
    rw [tracker_congr (sourceTrackers_untouched e).intelStage, synsOf_append]
    exact hc.ttlStage.synStage
  have h₁ := h.ttlStage (p := p) hcb hN (hp _ (by simp [subjects]))
  have h₂ : Stream e N _ (synStage e (Anomalies.ttlStage e s p) p) :=
    h₁.of_eq synStage_alerted.1 synStage_alerted.2
  have h₃ := h₂.intelStage (p := p) hcb hN (hp _ (by simp [subjects]))
  rw [hbase] at h₃
  unfold checkConnectionAnomalies
  dsimp only
  generalize Anomalies.intelStage e (synStage e (Anomalies.ttlStage e s p) p) p = s₃ at hcounts h₃
  generalize s₃.tracker p.cid.srcIp = t at hcounts
  generalize hS : S ++ (if spoofed ps p then [Subject.ipSpoofing p.cid.srcIp] else []) ++
    (if listed e p then [Subject.threatIntel p.cid.srcIp p.cid.dstIp] else []) = S₃ at h₃
  have hknown : ∀ port, port ≠ p.cid.dstPort →
      (Detection.worm p.cid.srcIp port).Over (synsOf p.cid.srcIp (ps ++ [p])) →
      Subject.detection (.worm p.cid.srcIp port) ∈ S₃ := fun port hne hover =>
    hS ▸ List.mem_append_left _ (List.mem_append_left _ (hold port hne hover))
  have hfits : ∀ σ ∈ scanned p t, σ ∈ S₃ ∨ (σ ∈ subjects p ∧ σ.Fits p) := fun σ hσ =>
    (scanned_fits (R := S₃.toFinset) hcounts (fun port hne hover =>
      List.mem_toFinset.2 (hknown port hne hover)) σ hσ).imp_left List.mem_toFinset.1
  have h₄ := h₃.emits hcb hN (scan_emits (t := t))
    (fun σ hσ => (hfits σ hσ).elim (h₃.named σ) fun hs => hp σ hs.1)
    (fun σ hσ => scanned_detection hσ)
    (fun σ hσ => (hfits σ hσ).imp_right fun hs => hs.2)
  have h₅ := (h₄.congr (eraseDups_scanned hcounts hknown)).ddosStage (p := p) hcb hN
    (hp _ (by simp [subjects])) hcounts
  subst hS
  simpa only [triggered, List.append_assoc] using h₅

end Stages

/-! ## The TTL baseline -/

section Baseline

variable {e : Env} {s : State} {p : TcpPacket}

/-- What a packet says about the stack of a local source. -/
def estimateOf (src : UInt32) (p : TcpPacket) : Option UInt8 :=
  if 0 < p.ttl && isLocal src && decide (p.cid.srcIp = src) then some (estimateInitialTtl p.ttl)
  else none

theorem estimates_append (src : UInt32) (ps : List TcpPacket) (p : TcpPacket) :
    estimates src (ps ++ [p]) = estimates src ps ++ (estimateOf src p).toList := by
  unfold estimates estimateOf
  rw [List.filter_append, List.map_append, List.filter_singleton]
  congr 1
  cases decide (0 < p.ttl) && isLocal src && decide (p.cid.srcIp = src) <;> rfl

theorem synStage_initialTtl (src : UInt32) :
    ((synStage e s p).tracker src).initialTtl = (s.tracker src).initialTtl := by
  have hset : ((s.setTracker p.cid.srcIp ((s.tracker p.cid.srcIp).addSyn p.cid.dstIp p.cid.dstPort
      p.time)).tracker src).initialTtl = (s.tracker src).initialTtl := by
    by_cases hsrc : src = p.cid.srcIp
    · subst hsrc
      rw [tracker_setTracker_self]
      rfl
    · rw [tracker_setTracker_of_ne _ _ hsrc]
  unfold synStage
  split
  · rfl
  · dsimp only
    split
    · exact hset
    · exact hset

theorem ttlStage_initialTtl (src : UInt32) :
    ((ttlStage e s p).tracker src).initialTtl =
      (estimateOf src p).getD (s.tracker src).initialTtl := by
  have hemit : ∀ (c : Bool) snippet key, (if c then
      emitAlert e s (anomalyConn p) (lit "IP Spoofing") snippet key else s).tracker src =
        s.tracker src := by
    intro c snippet key
    cases c with
    | true => exact tracker_congr (sourceTrackers_untouched e s _ _ snippet key) src
    | false => rfl
  unfold ttlStage estimateOf
  dsimp only
  by_cases hsrc : src = p.cid.srcIp
  · subst hsrc
    rw [tracker_setTracker_self]
    cases decide (0 < p.ttl) && isLocal p.cid.srcIp <;> simp
  · rw [tracker_setTracker_of_ne _ _ hsrc, hemit]
    simp [Ne.symm hsrc]

/-- The baseline of a source is its last estimate. -/
theorem check_initialTtl (src : UInt32) :
    ((checkConnectionAnomalies e s p).tracker src).initialTtl =
      (estimateOf src p).getD (s.tracker src).initialTtl := by
  rw [tracker_congr (sourceTrackers_untouched e).check, synStage_initialTtl, ttlStage_initialTtl]

theorem calls_initialTtl (e : Env) (src : UInt32) (ps : List TcpPacket) :
    ((calls e ps).tracker src).initialTtl = (estimates src ps).getLast?.getD 0 := by
  induction ps using List.reverseRecOn with
  | nil => rfl
  | append_singleton ps p ih =>
    rw [calls_append, check_initialTtl, estimates_append, ih]
    cases estimateOf src p <;> simp

theorem estimate_ne_zero (ttl : UInt8) : estimateInitialTtl ttl ≠ 0 := by
  unfold estimateInitialTtl
  split
  · decide
  · split <;> decide

theorem spoofedBy_calls (e : Env) (ps : List TcpPacket) (p : TcpPacket) :
    spoofedBy ((calls e ps).tracker p.cid.srcIp) p = spoofed ps p := by
  unfold spoofedBy spoofed
  rw [calls_initialTtl, Bool.and_assoc]
  congr 1
  cases hlast : (estimates p.cid.srcIp ps).getLast? with
  | none => simp
  | some est =>
    obtain ⟨q, -, rfl⟩ := List.mem_map.1 (List.mem_of_getLast? hlast)
    simp [estimate_ne_zero]

end Baseline

/-! ## Runs -/

/-- A worm that the history has reached has been triggered. -/
theorem worm_triggered (e : Env) (src : UInt32) (port : UInt16) (ps : List TcpPacket)
    (h : (Detection.worm src port).Over (synsOf src ps)) :
    Subject.detection (.worm src port) ∈ stream e ps := by
  induction ps using List.reverseRecOn with
  | nil => exact absurd h.2.2.2 (by simp [synsOf, hostsOn])
  | append_singleton ps p ih =>
    rw [stream_append, List.mem_append]
    by_cases hnew : src = p.cid.srcIp ∧ port = p.cid.dstPort
    · obtain ⟨rfl, rfl⟩ := hnew
      exact .inr (by simp [triggered, detected, detections, h])
    · refine .inl (ih ?_)
      rw [synsOf_append] at h
      unfold answered at h
      split at h
      · next hsyn => exact over_of_other_port (fun hport => hnew ⟨hsyn.1.symm, hport⟩) h
      · exact h

theorem calls_stream (e : Env) (hcb : e.hasCallback = true) {N : List Subject}
    (hN : DistinctKeys e N) (ps : List TcpPacket) (hps : ∀ p ∈ ps, ∀ σ ∈ subjects p, σ ∈ N) :
    Stream e N (stream e ps) (calls e ps) := by
  induction ps using List.reverseRecOn with
  | nil => exact .nil
  | append_singleton ps p ih =>
    rw [calls_append, stream_append]
    refine (ih fun q hq => hps q (List.mem_append_left _ hq)).check hcb hN (hps p (by simp))
      (counts_calls e _ ps) (spoofedBy_calls e ps p) fun port hport hover => ?_
    refine worm_triggered e _ port ps ?_
    rw [synsOf_append] at hover
    unfold answered at hover
    split at hover
    · exact over_of_other_port hport hover
    · exact hover

/-- Over every sequence of calls, the alerts are the triggered subjects in the
order of their first trigger, one alert each. -/
theorem alerts_eq_stream (e : Env) (hcb : e.hasCallback = true) (ps : List TcpPacket)
    (hkeys : DistinctKeys e (ps.flatMap subjects)) :
    (calls e ps).alerts.map subjectOf = (stream e ps).eraseDups :=
  (calls_stream e hcb hkeys ps fun p hp _ hσ => List.mem_flatMap.2 ⟨p, hp, hσ⟩).alerts

/-- SYNs from 10.0.0.5 with the TTLs of two stacks, the second one twice. -/
def twoStacks : List TcpPacket := [sshSyn, { sshSyn with ttl := 127 }, { sshSyn with ttl := 126 }]

theorem alerts_eq_stream_twoStacks :
    (calls Responders.inlineEnv twoStacks).alerts.map subjectOf = [.ipSpoofing 0x0500000A] := by
  have hkeys : DistinctKeys Responders.inlineEnv (twoStacks.flatMap subjects) := by decide
  rw [alerts_eq_stream Responders.inlineEnv rfl twoStacks hkeys]
  decide

end Wirewolf.L5.AlertStream
