import Wirewolf.L5Pipeline.Responders

/-!
# The volumetric detectors against their reference counts

The port scan, SSH brute force and worm detectors read what a tracker has
accumulated and share one set of dedup keys with the other detectors. What
they should report is a fact about the history alone: the distinct ports,
the attempts on port 22, the distinct hosts of a port (`Detection.Reached`).

* `Emits`: the alerts that one call tries to raise, in order.
* `Raised`: the subjects with a dedup key so far; each detection among them
  has one alert, every other none.
* `alerts_eq_reference`: over every sequence of calls, as long as distinct
  subjects have distinct keys.
-/
namespace Wirewolf.L5.Volumetric

open Wirewolf.L1.IpPacket
open Wirewolf.L3.Behavior (ntohs)
open Wirewolf.L4.Worker (hashCombine)
open Wirewolf.L5.Alerts Wirewolf.L5.Anomalies
open Wirewolf.L5.Responders (Counts counts_nil answered tracker_congr)

inductive Detection where
  | portScan (src : UInt32)
  | sshBruteForce (src : UInt32)
  | worm (src : UInt32) (port : UInt16)
  deriving DecidableEq

/-! ## The reference counts -/

/-- The SYN-flagged packets of a source. -/
def synsOf (src : UInt32) (ps : List TcpPacket) : List TcpPacket :=
  ps.filter fun p => p.syn && decide (p.cid.srcIp = src)

/-- The distinct destination ports below 1024. -/
def knownPorts (ps : List TcpPacket) : Finset UInt16 :=
  ((ps.map (·.cid.dstPort)).filter fun d => decide (WellKnown d)).toFinset

def attemptsOn (port : UInt16) (ps : List TcpPacket) : Nat :=
  ps.countP fun p => decide (p.cid.dstPort = port)

/-- The distinct hosts that were tried on a port. -/
def hostsOn (port : UInt16) (ps : List TcpPacket) : Finset UInt32 :=
  ((ps.filter fun p => decide (p.cid.dstPort = port)).map (·.cid.dstIp)).toFinset

/-- The SYN-flagged packets of the source are enough for the detection. -/
def Detection.Over (qs : List TcpPacket) : Detection → Prop
  | .portScan _ => 50 ≤ (knownPorts qs).card
  | .sshBruteForce _ => 30 ≤ attemptsOn sshPort qs
  | .worm _ port => ntohs port < 1024 ∧ ntohs port ≠ 80 ∧ ntohs port ≠ 443 ∧
      100 ≤ (hostsOn port qs).card

instance (qs : List TcpPacket) : DecidablePred (Detection.Over qs)
  | .portScan _ => inferInstanceAs (Decidable (_ ≤ _))
  | .sshBruteForce _ => inferInstanceAs (Decidable (_ ≤ _))
  | .worm _ _ => inferInstanceAs (Decidable (_ ∧ _))

def Detection.src : Detection → UInt32
  | .portScan src => src
  | .sshBruteForce src => src
  | .worm src _ => src

def Detection.Reached (ps : List TcpPacket) (d : Detection) : Prop := d.Over (synsOf d.src ps)

instance (ps : List TcpPacket) : DecidablePred (Detection.Reached ps) :=
  fun d => inferInstanceAs (Decidable (d.Over _))

/-- The alert reports the detection. -/
def Detection.IsOf (a : ThreatAlert) : Detection → Prop
  | .portScan src => a.threatType = lit "Port Scan" ∧ a.connection.srcIp = src
  | .sshBruteForce src => a.threatType = lit "SSH Brute Force" ∧ a.connection.srcIp = src
  | .worm src port => a.threatType = lit "Worm Propagation Scan" ∧ a.connection.srcIp = src ∧
      a.connection.dstPort = port

instance (a : ThreatAlert) : DecidablePred (Detection.IsOf a)
  | .portScan _ => inferInstanceAs (Decidable (_ ∧ _))
  | .sshBruteForce _ => inferInstanceAs (Decidable (_ ∧ _))
  | .worm _ _ => inferInstanceAs (Decidable (_ ∧ _))

/-! ## Subjects and their keys -/

/-- What an alert is about. -/
inductive Subject where
  | detection (d : Detection)
  | ipSpoofing (src : UInt32)
  | threatIntel (src dst : UInt32)
  | ddos (src : UInt32)
  deriving DecidableEq

/-- The dedup key.
mirrors src/src/tcp_reassembly.cpp:746-748, 884-887, 898-900, 913-915, 936-939, 959-961 -/
def Subject.key (e : Env) : Subject → UInt64
  | .detection (.portScan src) => [e.hash32 src, e.hash64 0xAAAA0001].foldl hashCombine 0
  | .detection (.sshBruteForce src) => [e.hash32 src, e.hash64 0xAAAA0002].foldl hashCombine 0
  | .detection (.worm src port) =>
    [e.hash32 src, e.hash64 port.toUInt64, e.hash64 0xAAAA0004].foldl hashCombine 0
  | .ipSpoofing src => [e.hash32 src, e.hash64 0xAAAA0005].foldl hashCombine 0
  | .threatIntel src dst =>
    [e.hash32 src, e.hash32 dst, e.hash64 0xDDDD0001].foldl hashCombine 0
  | .ddos src => [e.hash32 src, e.hash64 0xAAAA0003].foldl hashCombine 0

/-- The subjects that a packet can raise first. -/
def subjects (p : TcpPacket) : List Subject :=
  [.detection (.portScan p.cid.srcIp), .detection (.sshBruteForce p.cid.srcIp),
    .detection (.worm p.cid.srcIp p.cid.dstPort), .ipSpoofing p.cid.srcIp,
    .threatIntel p.cid.srcIp p.cid.dstIp, .ddos p.cid.srcIp]

/-- No two of the subjects share a dedup key. -/
def DistinctKeys (e : Env) (l : List Subject) : Prop :=
  ∀ σ ∈ l, ∀ τ ∈ l, σ.key e = τ.key e → σ = τ

instance (e : Env) (l : List Subject) : Decidable (DistinctKeys e l) :=
  haveI (σ : Subject) : Decidable (∀ τ ∈ l, σ.key e = τ.key e → σ = τ) := List.decidableBAll _ _
  List.decidableBAll _ _

/-- The threat types of the detections. -/
def titles : List Bytes := [lit "Port Scan", lit "SSH Brute Force", lit "Worm Propagation Scan"]

def Detection.title : Detection → Bytes
  | .portScan _ => lit "Port Scan"
  | .sshBruteForce _ => lit "SSH Brute Force"
  | .worm _ _ => lit "Worm Propagation Scan"

/-- A threat type under which the subject is reported. -/
def Subject.Titled (threatType : Bytes) : Subject → Prop
  | .detection d => threatType = d.title
  | _ => threatType ∉ titles

/-! ## What a call emits -/

/-- Calls of `emit_alert` for these subjects, one after the other. -/
inductive Emits (e : Env) (p : TcpPacket) : List Subject → State → State → Prop
  | nil (s : State) : Emits e p [] s s
  | cons {s s' : State} {σ : Subject} {l : List Subject} {threatType snippet : Bytes} :
      σ.Titled threatType →
      Emits e p l (emitAlert e s (anomalyConn p) threatType snippet (σ.key e)) s' →
      Emits e p (σ :: l) s s'

section Stages

variable {e : Env} {p : TcpPacket} {s s' s'' : State} {t : SourceTracker} {l l' : List Subject}

theorem Emits.one {σ : Subject} {threatType snippet : Bytes} (h : σ.Titled threatType) :
    Emits e p [σ] s (emitAlert e s (anomalyConn p) threatType snippet (σ.key e)) := .cons h (.nil _)

theorem Emits.append (h : Emits e p l s s') (h' : Emits e p l' s' s'') :
    Emits e p (l ++ l') s s'' := by
  induction h with
  | nil => exact h'
  | cons ht _ ih => exact .cons ht (ih h')

theorem portScanStage_emits : Emits e p
    (if 50 ≤ t.dstPorts.card then [.detection (.portScan p.cid.srcIp)] else []) s
    (portScanStage e t s p) := by
  unfold portScanStage
  split
  · exact .one (σ := .detection (.portScan p.cid.srcIp)) rfl
  · exact .nil s

theorem sshStage_emits : Emits e p
    (if 30 ≤ (t.portSynCounts.find? sshPort).getD 0 then
      [.detection (.sshBruteForce p.cid.srcIp)] else []) s
    (sshStage e t s p) := by
  unfold sshStage
  cases t.portSynCounts.find? sshPort with
  | none => exact .nil s
  | some n =>
    dsimp only [Option.getD_some]
    split
    · exact .one (σ := .detection (.sshBruteForce p.cid.srcIp)) rfl
    · exact .nil s

/-- Alerts are only added. -/
theorem Emits.alerts (h : Emits e p l s s') : s.alerts <+: s'.alerts := by
  induction h with
  | nil => exact List.prefix_refl _
  | cons _ _ ih =>
    obtain ⟨new, hnew, -⟩ := Responders.emitAlert_raises (P := fun _ => True) trivial
    exact .trans ⟨new, hnew.symm⟩ ih

/-- The ports over the threshold, in iteration order. -/
def wormPorts (l : List (UInt16 × Finset UInt32)) : List UInt16 :=
  (l.filter fun x => !isWeb x.1 && decide (100 ≤ x.2.card)).map Prod.fst

theorem wormPort_emits {x : UInt16 × Finset UInt32} : Emits e p
    ((wormPorts [x]).map fun port => .detection (.worm p.cid.srcIp port)) s
    (wormPort e p s x) := by
  unfold wormPort wormPorts
  cases hw : isWeb x.1 with
  | true => simpa [hw] using Emits.nil s
  | false =>
    by_cases hc : 100 ≤ x.2.card
    · rw [if_neg Bool.false_ne_true, if_pos hc, List.filter_cons_of_pos (by simp [hw, hc])]
      exact .one (σ := .detection (.worm p.cid.srcIp x.1)) rfl
    · rw [if_neg Bool.false_ne_true, if_neg hc, List.filter_cons_of_neg (by simp [hc])]
      exact .nil s

theorem wormPorts_cons (x : UInt16 × Finset UInt32) (l : List (UInt16 × Finset UInt32)) :
    wormPorts (x :: l) = wormPorts [x] ++ wormPorts l := by
  rw [wormPorts, wormPorts, wormPorts, ← List.map_append, ← List.filter_append]
  rfl

theorem wormStage_emits : Emits e p
    ((wormPorts t.portDstIps.entries).map fun port => .detection (.worm p.cid.srcIp port)) s
    (wormStage e t s p) := by
  unfold wormStage
  generalize t.portDstIps.entries = l
  induction l generalizing s with
  | nil => exact .nil s
  | cons x l ih =>
    rw [List.foldl_cons, wormPorts_cons, List.map_append]
    exact wormPort_emits.append ih

/-- The stages that raise no volumetric alert. -/
def Aside (p : TcpPacket) (l : List Subject) : Prop :=
  ∀ σ ∈ l, σ ∈ subjects p ∧ ∀ d, σ ≠ .detection d

theorem aside_nil : Aside p [] := nofun

theorem aside_one {σ : Subject} (h : σ ∈ subjects p) (hd : ∀ d, σ ≠ .detection d) :
    Aside p [σ] := by
  intro τ hτ
  cases List.mem_singleton.1 hτ
  exact ⟨h, hd⟩

theorem intelStage_emits : ∃ l, Aside p l ∧ Emits e p l s (intelStage e s p) := by
  unfold intelStage
  dsimp only
  split
  · exact ⟨[], aside_nil, .nil s⟩
  · split
    · exact ⟨[], aside_nil, .nil s⟩
    · rename_i threat _ _
      have htitle : mapType threat ∉ titles := fun h =>
        Responders.mapType_harmless threat (List.mem_append_left [lit "DDoS"] h)
      exact ⟨[.threatIntel p.cid.srcIp p.cid.dstIp], aside_one (by simp [subjects]) nofun,
        .one (σ := .threatIntel p.cid.srcIp p.cid.dstIp) htitle⟩

theorem ddosStage_emits : ∃ l, Aside p l ∧ Emits e p l s (ddosStage e t s p) := by
  have htitle : lit "DDoS" ∉ titles := by decide
  unfold ddosStage
  dsimp only
  split
  · split
    · exact ⟨[.ddos p.cid.srcIp], aside_one (by simp [subjects]) nofun,
        .one (σ := .ddos p.cid.srcIp) htitle⟩
    · exact ⟨[], aside_nil, .nil s⟩
  · exact ⟨[], aside_nil, .nil s⟩

/-- The spoofing alert comes before the new TTL baseline. -/
theorem ttlStage_emits : ∃ l s₁ t, Aside p l ∧ Emits e p l s s₁ ∧
    ttlStage e s p = s₁.setTracker p.cid.srcIp t := by
  have htitle : lit "IP Spoofing" ∉ titles := by decide
  unfold ttlStage
  dsimp only
  split
  · exact ⟨[.ipSpoofing p.cid.srcIp], _, _, aside_one (by simp [subjects]) nofun,
      .one (σ := .ipSpoofing p.cid.srcIp) htitle, rfl⟩
  · exact ⟨[], s, _, aside_nil, .nil s, rfl⟩

end Stages

/-! ## What has been raised -/

/-- The subjects `R` have been raised, all of them from `N`; a detection is
reported once if it is among them. -/
structure Raised (e : Env) (N : List Subject) (R : Finset Subject) (s : State) : Prop where
  named : ∀ σ ∈ R, σ ∈ N
  keys : ∀ k, k ∈ s.alertedAnomalies ↔ ∃ σ ∈ R, σ.key e = k
  counts : ∀ d : Detection,
    s.alerts.countP (fun a => decide (d.IsOf a)) = if .detection d ∈ R then 1 else 0

/-- An alert of the packet's connection reports this subject and no other
detection. -/
def Subject.Fits (p : TcpPacket) : Subject → Prop
  | .detection (.portScan src) => src = p.cid.srcIp
  | .detection (.sshBruteForce src) => src = p.cid.srcIp
  | .detection (.worm src port) => src = p.cid.srcIp ∧ port = p.cid.dstPort
  | _ => True

section Raised

variable {e : Env} {N : List Subject} {R : Finset Subject} {s s' : State} {p : TcpPacket}
  {σ : Subject} {l : List Subject} {threatType snippet : Bytes}

theorem raised_nil : Raised e N ∅ {} := by
  refine ⟨fun σ hσ => absurd hσ (Finset.notMem_empty σ), fun k => ?_, fun d => ?_⟩
  · simp
  · simp

theorem Raised.of_eq (h : Raised e N R s) (hk : s'.alertedAnomalies = s.alertedAnomalies)
    (ha : s'.alerts = s.alerts) : Raised e N R s' :=
  ⟨h.named, hk ▸ h.keys, ha ▸ h.counts⟩

theorem isOf_title {d : Detection} {a : ThreatAlert} (h : d.IsOf a) : a.threatType = d.title := by
  cases d with
  | portScan => exact h.1
  | sshBruteForce => exact h.1
  | worm => exact h.1

theorem title_mem (d : Detection) : d.title ∈ titles := by
  cases d <;> simp [Detection.title, titles]

theorem not_isOf (ht : threatType ∉ titles) (d : Detection) :
    ¬ d.IsOf (threatAlert (anomalyConn p) threatType snippet) := by
  intro h
  have htype : threatType = d.title := isOf_title h
  exact ht (htype ▸ title_mem d)

theorem titles_ne : lit "Port Scan" ≠ lit "SSH Brute Force" ∧
    lit "Port Scan" ≠ lit "Worm Propagation Scan" ∧
    lit "SSH Brute Force" ≠ lit "Worm Propagation Scan" := by
  decide

theorem isOf_threatAlert (ht : σ.Titled threatType) (hf : σ.Fits p) (d : Detection) :
    d.IsOf (threatAlert (anomalyConn p) threatType snippet) ↔ .detection d = σ := by
  cases σ with
  | detection d' =>
    have ht : threatType = d'.title := ht
    subst ht
    rw [Subject.detection.injEq]
    constructor
    · intro h
      have htitle : d'.title = d.title := isOf_title h
      cases d' with
      | portScan => cases d with
        | portScan => exact congrArg _ (h.2.symm.trans (Eq.symm hf))
        | sshBruteForce => exact absurd htitle titles_ne.1
        | worm => exact absurd htitle titles_ne.2.1
      | sshBruteForce => cases d with
        | portScan => exact absurd htitle.symm titles_ne.1
        | sshBruteForce => exact congrArg _ (h.2.symm.trans (Eq.symm hf))
        | worm => exact absurd htitle titles_ne.2.2
      | worm => cases d with
        | portScan => exact absurd htitle.symm titles_ne.2.1
        | sshBruteForce => exact absurd htitle.symm titles_ne.2.2
        | worm => exact congrArg₂ _ (h.2.1.symm.trans hf.1.symm) (h.2.2.symm.trans hf.2.symm)
    · intro hd
      subst hd
      cases d with
      | portScan => exact ⟨rfl, Eq.symm hf⟩
      | sshBruteForce => exact ⟨rfl, Eq.symm hf⟩
      | worm => exact ⟨rfl, hf.1.symm, hf.2.symm⟩
  | ipSpoofing => exact iff_of_false (not_isOf ht d) nofun
  | threatIntel => exact iff_of_false (not_isOf ht d) nofun
  | ddos => exact iff_of_false (not_isOf ht d) nofun

theorem emitAlert_new {conn : ConnectionId} {key : UInt64} (hcb : e.hasCallback = true)
    (hk : key ∉ s.alertedAnomalies) :
    (emitAlert e s conn threatType snippet key).alertedAnomalies = insert key s.alertedAnomalies ∧
      (emitAlert e s conn threatType snippet key).alerts =
        s.alerts ++ [threatAlert conn threatType snippet] := by
  unfold emitAlert
  rw [if_neg hk]
  simp only [hcb, Bool.not_true, Bool.false_eq_true, if_false]
  split
  · rw [blockSource_alertedAnomalies, blockSource_alerts]
    exact ⟨rfl, rfl⟩
  · exact ⟨rfl, rfl⟩

theorem Raised.emit (hcb : e.hasCallback = true) (hN : DistinctKeys e N) (h : Raised e N R s)
    (hσ : σ ∈ N) (ht : σ.Titled threatType) (hf : σ ∈ R ∨ σ.Fits p) :
    Raised e N (insert σ R) (emitAlert e s (anomalyConn p) threatType snippet (σ.key e)) := by
  have hmem : σ.key e ∈ s.alertedAnomalies ↔ σ ∈ R := by
    rw [h.keys]
    constructor
    · rintro ⟨τ, hτ, hkey⟩
      rwa [← hN τ (h.named τ hτ) σ hσ hkey]
    · exact fun hin => ⟨σ, hin, rfl⟩
  by_cases hin : σ ∈ R
  · rw [emitAlert, if_pos (hmem.2 hin), Finset.insert_eq_of_mem hin]
    exact h
  · obtain ⟨hkeys, halerts⟩ := emitAlert_new hcb fun hk => hin (hmem.1 hk)
    refine ⟨fun τ hτ => ?_, fun k => ?_, fun d => ?_⟩
    · exact (Finset.mem_insert.1 hτ).elim (fun he => he ▸ hσ) (h.named τ)
    · rw [hkeys, Finset.mem_insert, h.keys, Finset.exists_mem_insert, eq_comm]
    · rw [halerts, List.countP_append, h.counts, List.countP_singleton]
      simp only [decide_eq_true_eq, isOf_threatAlert ht (hf.resolve_left hin) d,
        Finset.mem_insert]
      by_cases hd : Subject.detection d = σ
      · rw [if_neg (hd ▸ hin), if_pos hd, if_pos (.inl hd)]
      · rw [if_neg hd, Nat.add_zero]
        simp only [hd, false_or]

theorem Raised.emits (hcb : e.hasCallback = true) (hN : DistinctKeys e N)
    (he : Emits e p l s s') : ∀ {R}, Raised e N R s → (∀ σ ∈ l, σ ∈ N) →
      (∀ σ ∈ l, σ ∈ R ∨ σ.Fits p) → Raised e N (R ∪ l.toFinset) s' := by
  induction he with
  | nil => exact fun h _ _ => by simpa using h
  | @cons s s' σ l threatType snippet ht _ ih =>
    intro R h hl hf
    have hone : Raised e N (insert σ R)
        (emitAlert e s (anomalyConn p) threatType snippet (σ.key e)) :=
          h.emit hcb hN (hl σ (List.mem_cons_self ..)) ht (hf σ (List.mem_cons_self ..))
    have hrest := ih hone (fun τ hτ => hl τ (List.mem_cons_of_mem _ hτ)) fun τ hτ =>
      (hf τ (List.mem_cons_of_mem _ hτ)).imp_left Finset.mem_insert_of_mem
    rwa [List.toFinset_cons, Finset.union_insert, ← Finset.insert_union]

end Raised

/-! ## One call -/

section Call

variable {e : Env} {N : List Subject} {R : Finset Subject} {s : State} {p : TcpPacket}
  {t : SourceTracker} {qs : List TcpPacket}

theorem mem_wormPorts (hc : Counts t qs) (src : UInt32) (port : UInt16) :
    port ∈ wormPorts t.portDstIps.entries ↔ (Detection.worm src port).Over qs := by
  have hhosts : WellKnown port → (t.portDstIps.find? port).getD ∅ = hostsOn port qs :=
    hc.hosts port
  rw [wormPorts, List.mem_map]
  constructor
  · rintro ⟨⟨port', hosts⟩, hmem, rfl⟩
    obtain ⟨hentry, htest⟩ := List.mem_filter.1 hmem
    have hknown := hc.known _ hentry
    have heq := hhosts hknown
    rw [UMap.find?_eq_some.2 hentry, Option.getD_some] at heq
    simp only [isWeb, Bool.not_or, Bool.and_eq_true, Bool.not_eq_true', beq_eq_false_iff_ne,
      decide_eq_true_eq] at htest
    exact ⟨hknown, htest.1.1.1, htest.1.1.2, heq ▸ htest.2⟩
  · rintro ⟨hknown, h80, h443, hcard⟩
    have heq := hhosts hknown
    cases hf : t.portDstIps.find? port with
    | none =>
      rw [hf, Option.getD_none] at heq
      rw [← heq, Finset.card_empty] at hcard
      omega
    | some hosts =>
      rw [hf, Option.getD_some] at heq
      have h8080 : ntohs port ≠ 8080 := fun he => by
        rw [he] at hknown; exact absurd hknown (by decide)
      refine ⟨(port, hosts), List.mem_filter.2 ⟨UMap.find?_eq_some.1 hf, ?_⟩, rfl⟩
      simp [isWeb, h80, h443, h8080, heq, hcard]

/-- The detections among the emissions of the last four stages. -/
def scanned (p : TcpPacket) (t : SourceTracker) : List Subject :=
  (if 50 ≤ t.dstPorts.card then [.detection (.portScan p.cid.srcIp)] else []) ++
    ((if 30 ≤ (t.portSynCounts.find? sshPort).getD 0 then
        [.detection (.sshBruteForce p.cid.srcIp)] else []) ++
      (wormPorts t.portDstIps.entries).map fun port => .detection (.worm p.cid.srcIp port))

theorem mem_scanned (hc : Counts t qs) (d : Detection) :
    .detection d ∈ scanned p t ↔ d.src = p.cid.srcIp ∧ d.Over qs := by
  have hports : t.dstPorts = knownPorts qs := hc.ports
  have hssh : (t.portSynCounts.find? sshPort).getD 0 = attemptsOn sshPort qs := hc.syns sshPort
  unfold scanned
  rw [hports, hssh]
  cases d with
  | portScan src =>
    by_cases hover : 50 ≤ (knownPorts qs).card <;> simp [hover, Detection.Over, Detection.src]
  | sshBruteForce src =>
    by_cases hover : 30 ≤ attemptsOn sshPort qs <;> simp [hover, Detection.Over, Detection.src]
  | worm src port =>
    rw [← mem_wormPorts hc src port]
    simp [Detection.src, and_comm, eq_comm]

theorem scan_emits : Emits e p (scanned p t) s
    (wormStage e t (sshStage e t (portScanStage e t s p) p) p) :=
  portScanStage_emits.append (sshStage_emits.append wormStage_emits)

theorem scanned_detection {σ : Subject} (h : σ ∈ scanned p t) : ∃ d, σ = .detection d := by
  rcases List.mem_append.1 h with h | h
  · split at h
    · exact ⟨_, List.mem_singleton.1 h⟩
    · cases h
  · rcases List.mem_append.1 h with h | h
    · split at h
      · exact ⟨_, List.mem_singleton.1 h⟩
      · cases h
    · obtain ⟨port, -, rfl⟩ := List.mem_map.1 h
      exact ⟨_, rfl⟩

/-- The scan names detections of the packet, or worms on other ports. -/
theorem scanned_fits (hc : Counts t qs)
    (hold : ∀ port, port ≠ p.cid.dstPort → (Detection.worm p.cid.srcIp port).Over qs →
      .detection (.worm p.cid.srcIp port) ∈ R) :
    ∀ σ ∈ scanned p t, σ ∈ R ∨ (σ ∈ subjects p ∧ σ.Fits p) := by
  intro σ hσ
  obtain ⟨d, rfl⟩ := scanned_detection hσ
  obtain ⟨hsrc, hover⟩ := (mem_scanned hc d).1 hσ
  cases d with
  | portScan src => exact .inr ⟨by cases hsrc; simp [subjects], hsrc⟩
  | sshBruteForce src => exact .inr ⟨by cases hsrc; simp [subjects], hsrc⟩
  | worm src port =>
    have hsrc : src = p.cid.srcIp := hsrc
    subst hsrc
    by_cases hport : port = p.cid.dstPort
    · exact .inr ⟨by subst hport; simp [subjects], rfl, hport⟩
    · exact .inl (hold port hport hover)

/-- A stage that raises no detection. -/
theorem Raised.aside {s' : State} {l : List Subject} (hcb : e.hasCallback = true)
    (hN : DistinctKeys e N) (hp : ∀ σ ∈ subjects p, σ ∈ N) (h : Raised e N R s)
    (hl : Aside p l) (he : Emits e p l s s') :
    ∃ R', Raised e N R' s' ∧ ∀ d, Subject.detection d ∈ R' ↔ .detection d ∈ R := by
  have hfits : ∀ σ ∈ l, σ ∈ R ∨ σ.Fits p := by
    intro σ hσ
    cases σ with
    | detection d => exact absurd rfl ((hl _ hσ).2 d)
    | ipSpoofing => exact .inr trivial
    | threatIntel => exact .inr trivial
    | ddos => exact .inr trivial
  refine ⟨_, h.emits hcb hN he (fun σ hσ => hp σ (hl σ hσ).1) hfits, fun d => ?_⟩
  rw [Finset.mem_union, List.mem_toFinset, or_iff_left]
  exact fun hd => (hl _ hd).2 d rfl

theorem synStage_alerted : (synStage e s p).alertedAnomalies = s.alertedAnomalies ∧
    (synStage e s p).alerts = s.alerts := by
  unfold synStage
  split
  · exact ⟨rfl, rfl⟩
  · dsimp only
    split <;> exact ⟨rfl, rfl⟩

/-- A call raises the detections that its packet's source is over the
threshold for. An earlier call must have raised those of other ports. -/
theorem Raised.check (hcb : e.hasCallback = true) (hN : DistinctKeys e N)
    (hp : ∀ σ ∈ subjects p, σ ∈ N) (h : Raised e N R s)
    (hc : Counts (s.tracker p.cid.srcIp) qs)
    (hold : ∀ port, port ≠ p.cid.dstPort →
      (Detection.worm p.cid.srcIp port).Over (answered p.cid.srcIp qs p) →
      .detection (.worm p.cid.srcIp port) ∈ R) :
    ∃ R', Raised e N R' (checkConnectionAnomalies e s p) ∧ ∀ d, Subject.detection d ∈ R' ↔
      .detection d ∈ R ∨ (d.src = p.cid.srcIp ∧ d.Over (answered p.cid.srcIp qs p)) := by
  have hcounts : Counts ((intelStage e (synStage e (ttlStage e s p) p) p).tracker p.cid.srcIp)
      (answered p.cid.srcIp qs p) := by
    rw [tracker_congr (sourceTrackers_untouched e).intelStage]
    exact hc.ttlStage.synStage
  -- the stages before the scan
  obtain ⟨l₁, s₁, t₁, hl₁, he₁, httl⟩ := ttlStage_emits (e := e) (s := s) (p := p)
  obtain ⟨R₁, hr₁, hd₁⟩ := h.aside hcb hN hp hl₁ he₁
  have hr₂ : Raised e N R₁ (synStage e (ttlStage e s p) p) := by
    rw [httl]
    exact hr₁.of_eq synStage_alerted.1 synStage_alerted.2
  obtain ⟨l₂, hl₂, he₂⟩ := intelStage_emits (e := e) (s := synStage e (ttlStage e s p) p) (p := p)
  obtain ⟨R₂, hr₃, hd₂⟩ := hr₂.aside hcb hN hp hl₂ he₂
  unfold checkConnectionAnomalies
  dsimp only
  generalize intelStage e (synStage e (ttlStage e s p) p) p = s₃ at hcounts hr₃
  generalize s₃.tracker p.cid.srcIp = t at hcounts
  -- the scan
  have hfits : ∀ σ ∈ scanned p t, σ ∈ R₂ ∨ (σ ∈ subjects p ∧ σ.Fits p) :=
    scanned_fits hcounts fun port hport hover => (hd₂ _).2 ((hd₁ _).2 (hold port hport hover))
  have hr₄ := hr₃.emits hcb hN (scan_emits (t := t))
    (fun σ hσ => (hfits σ hσ).elim (hr₃.named σ) fun hs => hp σ hs.1)
    (fun σ hσ => (hfits σ hσ).imp_right fun hs => hs.2)
  obtain ⟨l₃, hl₃, he₃⟩ := ddosStage_emits (e := e) (t := t) (p := p)
    (s := wormStage e t (sshStage e t (portScanStage e t s₃ p) p) p)
  obtain ⟨R₃, hr₅, hd₃⟩ := hr₄.aside hcb hN hp hl₃ he₃
  refine ⟨R₃, hr₅, fun d => ?_⟩
  rw [hd₃, Finset.mem_union, List.mem_toFinset, hd₂, hd₁, mem_scanned hcounts]

theorem check_alerts (e : Env) (s : State) (p : TcpPacket) :
    s.alerts <+: (checkConnectionAnomalies e s p).alerts := by
  obtain ⟨l₁, s₁, t₁, -, he₁, httl⟩ := ttlStage_emits (e := e) (s := s) (p := p)
  obtain ⟨l₂, -, he₂⟩ := intelStage_emits (e := e) (s := synStage e (ttlStage e s p) p) (p := p)
  unfold checkConnectionAnomalies
  dsimp only
  generalize hs₃ : intelStage e (synStage e (ttlStage e s p) p) p = s₃ at he₂
  generalize s₃.tracker p.cid.srcIp = t
  obtain ⟨l₃, -, he₃⟩ := ddosStage_emits (e := e) (t := t) (p := p)
    (s := wormStage e t (sshStage e t (portScanStage e t s₃ p) p) p)
  have hsyn : s₁.alerts <+: (synStage e (ttlStage e s p) p).alerts := by
    rw [synStage_alerted.2, httl]
    exact List.prefix_refl _
  exact he₁.alerts.trans <| hsyn.trans <| he₂.alerts.trans <| scan_emits.alerts.trans he₃.alerts

end Call

/-! ## Runs -/

/-- Calls of `check_connection_anomalies` on fresh trackers. -/
def calls (e : Env) (ps : List TcpPacket) : State := ps.foldl (checkConnectionAnomalies e) {}

theorem calls_append (e : Env) (ps : List TcpPacket) (p : TcpPacket) :
    calls e (ps ++ [p]) = checkConnectionAnomalies e (calls e ps) p := List.foldl_append

theorem synsOf_append (src : UInt32) (ps : List TcpPacket) (p : TcpPacket) :
    synsOf src (ps ++ [p]) = answered src (synsOf src ps) p := by
  unfold synsOf answered
  rw [List.filter_append]
  by_cases h : p.cid.srcIp = src ∧ p.syn = true
  · rw [if_pos h, List.filter_cons_of_pos (by simp [h])]
    rfl
  · rw [if_neg h, List.filter_cons_of_neg (by simp; tauto), List.filter_nil, List.append_nil]

/-- One packet more keeps a detection. -/
theorem Detection.Over.append {qs : List TcpPacket} {d : Detection} (h : d.Over qs)
    (p : TcpPacket) : d.Over (qs ++ [p]) := by
  cases d with
  | portScan src =>
    refine Nat.le_trans h (Finset.card_le_card fun x hx => ?_)
    simp only [knownPorts, List.mem_toFinset, List.map_append, List.filter_append,
      List.mem_append] at hx ⊢
    exact .inl hx
  | sshBruteForce src =>
    refine Nat.le_trans h ?_
    rw [attemptsOn, attemptsOn, List.countP_append]
    exact Nat.le_add_right ..
  | worm src port =>
    refine ⟨h.1, h.2.1, h.2.2.1, Nat.le_trans h.2.2.2 (Finset.card_le_card fun x hx => ?_)⟩
    simp only [hostsOn, List.mem_toFinset, List.map_append, List.filter_append,
      List.mem_append] at hx ⊢
    exact .inl hx

/-- A packet to another port tries no host on this one. -/
theorem over_of_other_port {qs : List TcpPacket} {p : TcpPacket} {src : UInt32} {port : UInt16}
    (hport : port ≠ p.cid.dstPort) (h : (Detection.worm src port).Over (qs ++ [p])) :
    (Detection.worm src port).Over qs := by
  have hhosts : hostsOn port (qs ++ [p]) = hostsOn port qs := by
    rw [hostsOn, List.filter_append, List.filter_cons_of_neg (by simpa using hport.symm),
      List.filter_nil, List.append_nil, hostsOn]
  exact ⟨h.1, h.2.1, h.2.2.1, hhosts ▸ h.2.2.2⟩

theorem reached_append (ps : List TcpPacket) (p : TcpPacket) (d : Detection) :
    d.Reached (ps ++ [p]) ↔ d.Reached ps ∨
      (d.src = p.cid.srcIp ∧ d.Over (answered p.cid.srcIp (synsOf p.cid.srcIp ps) p)) := by
  unfold Detection.Reached
  rw [synsOf_append]
  by_cases hsrc : d.src = p.cid.srcIp
  · rw [hsrc, or_iff_right_of_imp]
    · simp
    · intro h
      refine ⟨rfl, ?_⟩
      unfold answered
      split
      · exact h.append p
      · exact h
  · rw [answered, if_neg fun h => hsrc h.1.symm]
    simp [hsrc]

section Runs

variable {e : Env}

theorem counts_calls (e : Env) (src : UInt32) (ps : List TcpPacket) :
    Counts ((calls e ps).tracker src) (synsOf src ps) := by
  induction ps using List.reverseRecOn with
  | nil => exact counts_nil
  | append_singleton ps p ih =>
    rw [calls_append, synsOf_append]
    exact ih.check

/-- After every call the detections raised are those that the history has
reached. -/
theorem raised_calls (hcb : e.hasCallback = true) {N : List Subject} (hN : DistinctKeys e N)
    (ps : List TcpPacket) (hps : ∀ p ∈ ps, ∀ σ ∈ subjects p, σ ∈ N) :
    ∃ R, Raised e N R (calls e ps) ∧ ∀ d, Subject.detection d ∈ R ↔ d.Reached ps := by
  induction ps using List.reverseRecOn with
  | nil =>
    refine ⟨∅, raised_nil, fun d => iff_of_false (Finset.notMem_empty _) ?_⟩
    cases d <;>
      simp [Detection.Reached, Detection.Over, synsOf, knownPorts, attemptsOn, hostsOn]
  | append_singleton ps p ih =>
    obtain ⟨R, hr, hd⟩ := ih fun q hq => hps q (List.mem_append_left _ hq)
    have hold : ∀ port, port ≠ p.cid.dstPort →
        (Detection.worm p.cid.srcIp port).Over
          (answered p.cid.srcIp (synsOf p.cid.srcIp ps) p) →
        .detection (.worm p.cid.srcIp port) ∈ R := by
      intro port hport hover
      refine (hd _).2 ?_
      unfold answered at hover
      split at hover
      · exact over_of_other_port hport hover
      · exact hover
    obtain ⟨R', hr', hd'⟩ := hr.check hcb hN (hps p (by simp)) (counts_calls e _ ps) hold
    rw [calls_append]
    exact ⟨R', hr', fun d => by rw [hd', hd, reached_append]⟩

theorem alerts_count (hcb : e.hasCallback = true) (ps : List TcpPacket)
    (hkeys : DistinctKeys e (ps.flatMap subjects)) (d : Detection) :
    (calls e ps).alerts.countP (fun a => decide (d.IsOf a)) = if d.Reached ps then 1 else 0 := by
  obtain ⟨R, hr, hd⟩ := raised_calls hcb hkeys ps
    fun p hp σ hσ => List.mem_flatMap.2 ⟨p, hp, hσ⟩
  rw [hr.counts]
  simp only [hd]

theorem DistinctKeys.sublist {l l' : List Subject} (h : DistinctKeys e l) (hs : l' ⊆ l) :
    DistinctKeys e l' := fun σ hσ τ hτ => h σ (hs hσ) τ (hs hτ)

theorem Detection.Reached.append {ps : List TcpPacket} {d : Detection} (h : d.Reached ps)
    (p : TcpPacket) : d.Reached (ps ++ [p]) := (reached_append ps p d).2 (.inl h)

/-- After every call each detection has one alert if the history has reached
it and none otherwise; the alert comes with the packet that reaches it. -/
theorem alerts_eq_reference (e : Env) (hcb : e.hasCallback = true) (ps : List TcpPacket)
    (hkeys : DistinctKeys e (ps.flatMap subjects)) :
    (∀ pre, pre <+: ps → ∀ d : Detection,
      (calls e pre).alerts.countP (fun a => decide (d.IsOf a)) = if d.Reached pre then 1 else 0) ∧
    ∀ pre p, pre ++ [p] <+: ps → ∃ new,
      (calls e (pre ++ [p])).alerts = (calls e pre).alerts ++ new ∧ ∀ d : Detection,
        new.countP (fun a => decide (d.IsOf a)) =
          if ¬ d.Reached pre ∧ d.Reached (pre ++ [p]) then 1 else 0 := by
  have hcount : ∀ pre, pre <+: ps → ∀ d : Detection,
      (calls e pre).alerts.countP (fun a => decide (d.IsOf a)) =
        if d.Reached pre then 1 else 0 := by
    intro pre hpre
    refine alerts_count hcb pre (hkeys.sublist fun σ hσ => ?_)
    obtain ⟨p, hp, hmem⟩ := List.mem_flatMap.1 hσ
    exact List.mem_flatMap.2 ⟨p, hpre.subset hp, hmem⟩
  refine ⟨hcount, fun pre p hpre => ?_⟩
  obtain ⟨new, hnew⟩ := check_alerts e (calls e pre) p
  rw [← calls_append] at hnew
  refine ⟨new, hnew.symm, fun d => ?_⟩
  have hbefore := hcount pre (.trans (List.prefix_append ..) hpre) d
  have hafter := hcount (pre ++ [p]) hpre d
  rw [← hnew, List.countP_append, hbefore] at hafter
  by_cases hr : d.Reached pre
  · rw [if_pos hr, if_pos (hr.append p)] at hafter
    rw [if_neg fun h => h.1 hr]
    omega
  · rw [if_neg hr, Nat.zero_add] at hafter
    rw [hafter]
    simp only [hr, not_false_iff, true_and]

/-- A SYN from 10.0.0.5 to port 22 of 192.0.2.1. -/
def sshSyn : TcpPacket := .synSegment ⟨0x0500000A, 0x010200C0, 0x5000, sshPort⟩ 1

theorem alerts_eq_reference_ssh :
    (calls Responders.inlineEnv (List.replicate 29 sshSyn)).alerts.countP
        (fun a => decide ((Detection.sshBruteForce 0x0500000A).IsOf a)) = 0 ∧
      (calls Responders.inlineEnv (List.replicate 30 sshSyn)).alerts.countP
        (fun a => decide ((Detection.sshBruteForce 0x0500000A).IsOf a)) = 1 := by
  have hone : DistinctKeys Responders.inlineEnv (subjects sshSyn) := by decide
  have hkeys : DistinctKeys Responders.inlineEnv ((List.replicate 30 sshSyn).flatMap subjects) := by
    refine hone.sublist fun σ hσ => ?_
    obtain ⟨p, hp, hmem⟩ := List.mem_flatMap.1 hσ
    rwa [List.eq_of_mem_replicate hp] at hmem
  have href := (alerts_eq_reference Responders.inlineEnv rfl _ hkeys).1
  refine ⟨?_, ?_⟩
  · rw [href (List.replicate 29 sshSyn) ⟨[sshSyn], rfl⟩]
    decide
  · rw [href _ (List.prefix_refl _)]
    decide

end Runs

end Wirewolf.L5.Volumetric
