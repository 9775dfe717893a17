import Wirewolf.L1Encoding.IpReads
import Wirewolf.L5Pipeline.Maintenance
import Wirewolf.L5Pipeline.Volumetric

/-!
# The inline loop (`run_windivert`)

A packet is inspected first and judged afterwards: it is dropped when its
source is blocked by then, and reinjected unchanged otherwise. Sources are
blocked by the alerts of the detectors, and from another thread by those of
the LLM stage; the owner may unblock them at any time.

`notes` is the history that an observer of the interface sees: the alerts, the
calls of `unblock_source` and the fate of every packet.

* `Reports`: a stage blocks the sources that it reports, up to the allowlist.
* `inline_exact`: over every run, a packet is dropped exactly when the last
  note that names its source is an alert and the source is not allowlisted.
  All other packets are sent, in the order of their arrival.
-/
namespace Wirewolf.L5.Inline

open Wirewolf.L1.IpPacket
open Wirewolf.L5.Alerts Wirewolf.L5.Anomalies
open Wirewolf.L5.Responders (Rehash)
open Wirewolf.L5.Volumetric (Emits)

/-! ## The source of a packet -/

/-- The source address of the header, 0 for a packet shorter than one. -/
def sourceOf (packet : Bytes) : UInt32 :=
  if packet.length < 20 then 0 else .ofNat ((le32 packet 12).getD 0)

/-- The address that `process_ip_packet` returns. -/
def reported : Parsed → UInt32
  | .short => 0
  | .udp saddr _ => saddr
  | .other saddr => saddr
  | .tcp p => p.cid.srcIp

theorem parse_source {packet : Bytes} {time : Rat} {x : Parsed}
    (h : parseIpPacket packet time = some x) : reported x = sourceOf packet := by
  unfold parseIpPacket at h
  unfold sourceOf
  split at h
  · next hlen => cases h; rw [if_pos hlen]; rfl
  next hlen =>
  rw [if_neg hlen]
  obtain ⟨protocol, -, h⟩ := Option.bind_eq_some_iff.1 h
  obtain ⟨saddr, hsrc, h⟩ := Option.bind_eq_some_iff.1 h
  obtain ⟨daddr, -, h⟩ := Option.bind_eq_some_iff.1 h
  rw [hsrc, Option.getD_some]
  split at h
  · cases h; rfl
  split at h
  · cases h; rfl
  obtain ⟨b₀, -, h⟩ := Option.bind_eq_some_iff.1 h
  dsimp only at h
  split at h
  · cases h; rfl
  obtain ⟨offsetRes, -, h⟩ := Option.bind_eq_some_iff.1 h
  split at h
  · cases h; rfl
  split at h
  · cases h
  split at h
  · cases h; rfl
  obtain ⟨sport, -, h⟩ := Option.bind_eq_some_iff.1 h
  obtain ⟨dport, -, h⟩ := Option.bind_eq_some_iff.1 h
  obtain ⟨seq, -, h⟩ := Option.bind_eq_some_iff.1 h
  obtain ⟨flags, -, h⟩ := Option.bind_eq_some_iff.1 h
  obtain ⟨ttl, -, h⟩ := Option.bind_eq_some_iff.1 h
  cases h
  rfl

theorem process_source {e : Env} {s : Sensor} {packet : Bytes} {time : Rat} {r : Sensor × UInt32}
    (h : processIpPacket e s packet time = some r) : r.2 = sourceOf packet := by
  obtain ⟨x, hx, rfl⟩ := Option.map_eq_some_iff.1 h
  rw [← parse_source hx]
  cases x <;> rfl

/-! ## What is reported is blocked -/

/-- The new alerts, and with them the addresses that are blocked. -/
def Reports (e : Env) (s s' : State) : Prop :=
  ∃ new, s'.alerts = s.alerts ++ new ∧ ∀ ip, ip ∈ s'.blockedIps ↔ ip ∈ s.blockedIps ∨
    (e.inlineBlock = true ∧ ip ∉ e.allowlistIps ∧ ∃ a ∈ new, a.connection.srcIp = ip)

section Reports

variable {e : Env} {s s' s'' : State} {p : TcpPacket}

theorem Reports.of_eq (ha : s'.alerts = s.alerts) (hb : s'.blockedIps = s.blockedIps) :
    Reports e s s' :=
  ⟨[], by rw [ha, List.append_nil], fun ip => by simp [hb]⟩

theorem Reports.trans (h : Reports e s s') (h' : Reports e s' s'') : Reports e s s'' := by
  obtain ⟨new, ha, hb⟩ := h
  obtain ⟨new', ha', hb'⟩ := h'
  refine ⟨new ++ new', by rw [ha', ha, List.append_assoc], fun ip => ?_⟩
  rw [hb', hb, or_assoc, ← and_or_left, ← and_or_left]
  simp only [List.mem_append, or_and_right, exists_or]

theorem mem_blockSource {ip x : UInt32} :
    x ∈ (blockSource e s ip).blockedIps ↔ x ∈ s.blockedIps ∨ (x ∉ e.allowlistIps ∧ ip = x) := by
  unfold blockSource
  split
  · next h =>
    refine (or_iff_left ?_).symm
    rintro ⟨hx, rfl⟩
    exact hx h
  · next h =>
    rw [Finset.mem_insert]
    constructor
    · rintro (rfl | hx)
      · exact .inr ⟨h, rfl⟩
      · exact .inl hx
    · rintro (hx | ⟨-, rfl⟩)
      · exact .inr hx
      · exact .inl rfl

theorem emitAlert_reports (conn : ConnectionId) (threatType snippet : Bytes) (key : UInt64) :
    Reports e s (emitAlert e s conn threatType snippet key) := by
  unfold emitAlert
  split
  · exact .of_eq rfl rfl
  · dsimp only
    split
    · exact .of_eq rfl rfl
    · refine ⟨[threatAlert conn threatType snippet], ?_, fun ip => ?_⟩
      · split
        · rw [blockSource_alerts]
        · rfl
      · split
        · next hin => simp [mem_blockSource, hin, threatAlert]
        · next hin => simp [hin]

theorem Emits.reports {l : List Volumetric.Subject} (h : Emits e p l s s') : Reports e s s' := by
  induction h with
  | nil => exact .of_eq rfl rfl
  | cons _ _ ih => exact (emitAlert_reports ..).trans ih

theorem synStage_blocked : (synStage e s p).blockedIps = s.blockedIps := by
  unfold synStage
  split
  · rfl
  · dsimp only
    split <;> rfl

theorem check_reports : Reports e s (checkConnectionAnomalies e s p) := by
  obtain ⟨l₁, s₁, t₁, -, he₁, httl⟩ := Volumetric.ttlStage_emits (e := e) (s := s) (p := p)
  have hsyn : Reports e s₁ (synStage e (ttlStage e s p) p) :=
    .of_eq (by rw [Volumetric.synStage_alerted.2, httl]; rfl) (by rw [synStage_blocked, httl]; rfl)
  obtain ⟨l₂, -, he₂⟩ :=
    Volumetric.intelStage_emits (e := e) (s := synStage e (ttlStage e s p) p) (p := p)
  unfold checkConnectionAnomalies
  dsimp only
  generalize intelStage e (synStage e (ttlStage e s p) p) p = s₃ at he₂
  generalize s₃.tracker p.cid.srcIp = t
  obtain ⟨l₃, -, he₃⟩ := Volumetric.ddosStage_emits (e := e) (t := t) (p := p)
    (s := wormStage e t (sshStage e t (portScanStage e t s₃ p) p) p)
  exact (Emits.reports he₁).trans <| hsyn.trans <| (Emits.reports he₂).trans <|
    (Emits.reports Volumetric.scan_emits).trans (Emits.reports he₃)

theorem process_reports {s : Sensor} {packet : Bytes} {time : Rat} {r : Sensor × UInt32}
    (h : processIpPacket e s packet time = some r) : Reports e s.anomalies r.1.anomalies := by
  obtain ⟨x, -, rfl⟩ := Option.map_eq_some_iff.1 h
  cases x with
  | short => exact .of_eq rfl rfl
  | other => exact .of_eq rfl rfl
  | udp src dst =>
    show Reports e s.anomalies (processUdp s src dst).anomalies
    unfold processUdp
    split <;> exact .of_eq rfl rfl
  | tcp p =>
    show Reports e s.anomalies (processTcpPacket e s p).anomalies
    unfold processTcpPacket
    dsimp only
    split
    · exact check_reports.trans (emitAlert_reports ..)
    · exact check_reports

end Reports

/-! ## The loop -/

/-- What is seen of the loop from outside. -/
inductive Note where
  | alert (a : ThreatAlert)
  | unblocked (ip : UInt32)
  | packet (packet : Bytes) (dropped : Bool)

structure Divert where
  sensor : Sensor := {}
  sinceMaintenance : Nat := 0
  blockedPacketCount : Nat := 0
  /-- the packets passed to `WinDivertSend`, in order -/
  sent : List Bytes := []
  notes : List Note := []

/-- mirrors src/src/tcp_reassembly.cpp:238-241 -/
def inspect (e : Env) (s : Sensor) (packet : Bytes) (now : Rat) : Option (Sensor × UInt32) :=
  if 20 ≤ packet.length then processIpPacket e s packet now else some (s, 0)

/-- mirrors src/src/tcp_reassembly.cpp:299-302 -/
def isBlocked (s : Sensor) (ip : UInt32) : Bool := decide (ip ∈ s.anomalies.blockedIps)

/-- The packet is sent on, or counted.
mirrors src/src/tcp_reassembly.cpp:245-250 -/
def settle (d : Divert) (packet : Bytes) (drop : Bool) : Divert :=
  let d := { d with notes := d.notes ++ [Note.packet packet drop] }
  if drop then { d with blockedPacketCount := d.blockedPacketCount + 1 }
  else { d with sent := d.sent ++ [packet] }

/-- mirrors src/src/tcp_reassembly.cpp:252-257 -/
def tick (e : Env) (d : Divert) : Divert :=
  let d := { d with sinceMaintenance := d.sinceMaintenance + 1 }
  if 256 ≤ d.sinceMaintenance then
    { d with sinceMaintenance := 0, sensor := Maintenance.maintain e d.sensor }
  else d

/-- One packet through the loop.
mirrors src/src/tcp_reassembly.cpp:224-258 -/
def receive (e : Env) (d : Divert) (packet : Bytes) (now : Rat) : Option Divert := do
  let (sensor, src) ← inspect e d.sensor packet now
  let raised := sensor.anomalies.alerts.drop d.sensor.anomalies.alerts.length
  let d := { d with sensor := sensor, notes := d.notes ++ raised.map .alert }
  return tick e (settle d packet (e.inlineBlock && src != 0 && isBlocked sensor src))

/-- An alert of the LLM stage.
mirrors src/src/pipeline_controller.cpp:172-231 -/
def llmAlert (e : Env) (d : Divert) (llmOutput : Bytes) (flow : FlowData) (payloadText : Bytes) :
    Divert :=
  if !e.hasCallback then d
  else
    let r := onAlert e.inlineBlock llmOutput flow payloadText
    let block := fun a => r.2.elim a (blockSource e a)
    { d with
      sensor := { d.sensor with anomalies := block d.sensor.anomalies }
      notes := d.notes ++ [.alert r.1] }

/-- mirrors src/src/tcp_reassembly.cpp:294-297 -/
def unblock (d : Divert) (ip : UInt32) : Divert :=
  let a := { d.sensor.anomalies with blockedIps := d.sensor.anomalies.blockedIps.erase ip }
  { d with sensor := { d.sensor with anomalies := a }, notes := d.notes ++ [.unblocked ip] }

inductive Event where
  | packet (packet : Bytes) (now : Rat)
  | llmAlert (llmOutput : Bytes) (flow : FlowData) (payloadText : Bytes)
  | unblock (ip : UInt32)
  | rehash

def Step (e : Env) (d : Divert) : Event → Divert → Prop
  | .packet packet now, d' => receive e d packet now = some d'
  | .llmAlert llmOutput flow payloadText, d' => d' = Inline.llmAlert e d llmOutput flow payloadText
  | .unblock ip, d' => d' = Inline.unblock d ip
  | .rehash, d' => ∃ sensor, Rehash d.sensor sensor ∧ d' = { d with sensor := sensor }

def system (e : Env) : LTS Divert Event := ⟨(· = {}), Step e⟩

/-! ## The reference -/

/-- The last note that names the address as a source is an alert. -/
def standing (ip : UInt32) (notes : List Note) : Bool :=
  notes.foldl (fun named n => match n with
    | .alert a => named || a.connection.srcIp == ip
    | .unblocked x => named && x != ip
    | .packet _ _ => named) false

/-- A packet is to be dropped, by the notes before it. -/
def Condemned (e : Env) (notes : List Note) (packet : Bytes) : Prop :=
  e.inlineBlock = true ∧ sourceOf packet ≠ 0 ∧ sourceOf packet ∉ e.allowlistIps ∧
    standing (sourceOf packet) notes = true

def Note.packet? : Note → Option (Bytes × Bool)
  | .packet b dropped => some (b, dropped)
  | _ => none

/-- The packets and whether they were dropped. -/
def fates (notes : List Note) : List (Bytes × Bool) := notes.filterMap Note.packet?

def received (ls : List Event) : List Bytes :=
  ls.filterMap fun
    | .packet packet _ => some packet
    | _ => none

section Standing

variable {ip : UInt32} {notes : List Note}

@[simp] theorem standing_alert (a : ThreatAlert) :
    standing ip (notes ++ [.alert a]) = (standing ip notes || a.connection.srcIp == ip) := by
  simp [standing]

@[simp] theorem standing_unblocked (x : UInt32) :
    standing ip (notes ++ [.unblocked x]) = (standing ip notes && x != ip) := by
  simp [standing]

@[simp] theorem standing_packet (packet : Bytes) (dropped : Bool) :
    standing ip (notes ++ [.packet packet dropped]) = standing ip notes := by
  simp [standing]

theorem standing_alerts (new : List ThreatAlert) : standing ip (notes ++ new.map .alert) = true ↔
    standing ip notes = true ∨ ∃ a ∈ new, a.connection.srcIp = ip := by
  induction new generalizing notes with
  | nil => simp
  | cons a new ih =>
    rw [List.map_cons, List.append_cons, ih]
    simp [or_assoc]

end Standing

/-! ## Runs -/

/-- What the fields and the block list hold after these notes. -/
structure Inv (e : Env) (d : Divert) : Prop where
  blocked : ∀ ip, ip ∈ d.sensor.anomalies.blockedIps ↔
    e.inlineBlock = true ∧ ip ∉ e.allowlistIps ∧ standing ip d.notes = true
  judged : ∀ pre packet dropped post, d.notes = pre ++ .packet packet dropped :: post →
    (dropped = true ↔ Condemned e pre packet)
  sent : d.sent = ((fates d.notes).filter fun x => !x.2).map Prod.fst
  count : d.blockedPacketCount = (fates d.notes).countP Prod.snd
  rounds : d.sinceMaintenance = (fates d.notes).length % 256

section Inv

variable {e : Env} {d d' : Divert}

theorem fates_append (notes new : List Note) : fates (notes ++ new) = fates notes ++ fates new :=
  List.filterMap_append ..

@[simp] theorem fates_packet (packet : Bytes) (dropped : Bool) :
    fates [.packet packet dropped] = [(packet, dropped)] := rfl

theorem fates_alerts (new : List ThreatAlert) : fates (new.map .alert) = [] :=
  List.filterMap_eq_nil_iff.2 fun n hn => by
    obtain ⟨a, -, rfl⟩ := List.mem_map.1 hn
    rfl

/-- Notes that are no packets change no fate. -/
theorem judged_append {notes new : List Note} (hnew : fates new = [])
    (h : ∀ pre packet dropped post, notes = pre ++ .packet packet dropped :: post →
      (dropped = true ↔ Condemned e pre packet)) :
    ∀ pre packet dropped post, notes ++ new = pre ++ .packet packet dropped :: post →
      (dropped = true ↔ Condemned e pre packet) := by
  intro pre packet dropped post heq
  rcases List.append_eq_append_iff.1 heq with ⟨l, hl, hrest⟩ | ⟨l, hl, hrest⟩
  · have hmem : (packet, dropped) ∈ fates new :=
      List.mem_filterMap.2 ⟨.packet packet dropped, by rw [hrest]; simp, rfl⟩
    rw [hnew] at hmem
    cases hmem
  · cases l with
    | nil =>
      have hmem : (packet, dropped) ∈ fates new :=
        List.mem_filterMap.2
          ⟨.packet packet dropped, by rw [← List.nil_append new, ← hrest]; simp, rfl⟩
      rw [hnew] at hmem
      cases hmem
    | cons n l =>
      obtain ⟨rfl, rfl⟩ := List.cons.inj hrest
      exact h pre packet dropped l hl

theorem Inv.start : Inv e {} where
  blocked ip := by simp [standing]
  judged pre packet dropped post heq := by simp at heq
  sent := rfl
  count := rfl
  rounds := rfl

/-- Notes that are no packets, with what they do to the block list. -/
theorem Inv.of_notes (h : Inv e d) {sensor : Sensor} {new : List Note} (hnew : fates new = [])
    (hblocked : ∀ ip, ip ∈ sensor.anomalies.blockedIps ↔
      e.inlineBlock = true ∧ ip ∉ e.allowlistIps ∧ standing ip (d.notes ++ new) = true) :
    Inv e { d with sensor := sensor, notes := d.notes ++ new } := by
  have hfates : fates (d.notes ++ new) = fates d.notes := by
    rw [fates_append, hnew, List.append_nil]
  refine ⟨hblocked, judged_append hnew h.judged, ?_, ?_, ?_⟩
  · exact hfates ▸ h.sent
  · exact hfates ▸ h.count
  · exact hfates ▸ h.rounds

/-- A stage of the sensor, with the alerts that it raises. -/
theorem Inv.of_reports (h : Inv e d) {sensor : Sensor}
    (hr : Reports e d.sensor.anomalies sensor.anomalies) :
    Inv e { d with
      sensor := sensor
      notes := d.notes ++
        (sensor.anomalies.alerts.drop d.sensor.anomalies.alerts.length).map .alert } := by
  obtain ⟨new, ha, hb⟩ := hr
  rw [ha, List.drop_left]
  refine h.of_notes (fates_alerts new) fun ip => ?_
  rw [hb, h.blocked, standing_alerts, ← and_or_left, ← and_or_left]

theorem maintain_blockedIps (e : Env) (s : Sensor) :
    (Maintenance.maintain e s).anomalies.blockedIps = s.anomalies.blockedIps := by
  rcases Maintenance.maintain_anomalies e s with ⟨-, h⟩ | ⟨-, h⟩
  · rw [h]; rfl
  · rw [h]

section Settle

variable (d : Divert) (packet : Bytes) (drop : Bool)

@[simp] theorem settle_sensor : (settle d packet drop).sensor = d.sensor := by cases drop <;> rfl

@[simp] theorem settle_notes :
    (settle d packet drop).notes = d.notes ++ [.packet packet drop] := by cases drop <;> rfl

@[simp] theorem settle_sent :
    (settle d packet drop).sent = d.sent ++ if drop then [] else [packet] := by
  cases drop <;> simp [settle]

@[simp] theorem settle_count : (settle d packet drop).blockedPacketCount =
    d.blockedPacketCount + if drop then 1 else 0 := by cases drop <;> rfl

@[simp] theorem settle_since :
    (settle d packet drop).sinceMaintenance = d.sinceMaintenance := by cases drop <;> rfl

end Settle

/-- What a maintenance round leaves as it is. -/
theorem tick_same (e : Env) (d : Divert) :
    (tick e d).sensor.anomalies.blockedIps = d.sensor.anomalies.blockedIps ∧
      (tick e d).notes = d.notes ∧ (tick e d).sent = d.sent ∧
      (tick e d).blockedPacketCount = d.blockedPacketCount := by
  unfold tick
  dsimp only
  split
  · exact ⟨maintain_blockedIps e d.sensor, rfl, rfl, rfl⟩
  · exact ⟨rfl, rfl, rfl, rfl⟩

theorem tick_rounds {n : Nat} (h : d.sinceMaintenance = n % 256) :
    (tick e d).sinceMaintenance = (n + 1) % 256 := by
  unfold tick
  dsimp only
  split
  · dsimp only
    omega
  · dsimp only
    omega

/-- A packet that is judged by the notes before it. -/
theorem Inv.settle (h : Inv e d) {packet : Bytes} {drop : Bool}
    (hdrop : drop = true ↔ Condemned e d.notes packet) :
    Inv e (tick e (Inline.settle d packet drop)) := by
  obtain ⟨hblocked, hnotes, hsent, hcount⟩ := tick_same e (Inline.settle d packet drop)
  simp only [settle_sensor, settle_notes, settle_sent, settle_count] at hblocked hnotes hsent hcount
  refine ⟨fun ip => ?_, ?_, ?_, ?_, ?_⟩
  · rw [hblocked, hnotes, standing_packet]
    exact h.blocked ip
  · rw [hnotes]
    intro pre packet' dropped post heq
    rcases List.eq_nil_or_concat post with rfl | ⟨post, n, rfl⟩
    · obtain ⟨rfl, hlast⟩ := List.append_inj' heq rfl
      cases hlast
      exact hdrop
    · have hsplit : d.notes ++ [.packet packet drop] =
          (pre ++ .packet packet' dropped :: post) ++ [n] := by simpa using heq
      exact h.judged pre packet' dropped post (List.append_inj' hsplit rfl).1
  · rw [hsent, hnotes, fates_append, h.sent]
    cases drop <;> simp
  · rw [hcount, hnotes, fates_append, h.count]
    cases drop <;> simp
  · rw [hnotes, fates_append, fates_packet, List.length_append, List.length_singleton]
    exact tick_rounds ((settle_since d packet drop).trans h.rounds)

theorem inspect_spec {s : Sensor} {packet : Bytes} {now : Rat} {r : Sensor × UInt32}
    (h : inspect e s packet now = some r) :
    Reports e s.anomalies r.1.anomalies ∧ r.2 = sourceOf packet := by
  unfold inspect at h
  split at h
  · exact ⟨process_reports h, process_source h⟩
  · next hlen =>
    cases h
    exact ⟨.of_eq rfl rfl, by rw [sourceOf, if_pos (Nat.lt_of_not_le hlen)]⟩

theorem Inv.receive (h : Inv e d) {packet : Bytes} {now : Rat}
    (hr : Inline.receive e d packet now = some d') :
    Inv e d' ∧ ∃ drop, fates d'.notes = fates d.notes ++ [(packet, drop)] := by
  obtain ⟨⟨sensor, src⟩, hinspect, hr⟩ := Option.bind_eq_some_iff.1 hr
  obtain ⟨hreports, hsrc⟩ := inspect_spec hinspect
  have hsrc : src = sourceOf packet := hsrc
  subst hsrc
  have hafter := h.of_reports hreports
  cases hr
  refine ⟨hafter.settle ?_, ?_⟩
  · rw [Bool.and_eq_true, Bool.and_eq_true, bne_iff_ne, isBlocked, decide_eq_true_eq]
    have hblocked := hafter.blocked (sourceOf packet)
    dsimp only at hblocked
    rw [hblocked, Condemned]
    tauto
  · rw [(tick_same e _).2.1, settle_notes, fates_append]
    dsimp only
    rw [fates_append d.notes, fates_alerts, List.append_nil]
    exact ⟨_, rfl⟩

theorem Inv.llmAlert (h : Inv e d) (llmOutput : Bytes) (flow : FlowData) (payloadText : Bytes) :
    Inv e (Inline.llmAlert e d llmOutput flow payloadText) := by
  unfold Inline.llmAlert
  split
  · exact h
  refine h.of_notes (show fates [.alert _] = [] from rfl) fun ip => ?_
  rw [standing_alert, Bool.or_eq_true, beq_iff_eq]
  have hblocked := h.blocked ip
  cases hin : e.inlineBlock with
  | false => simpa [onAlert, hin] using hblocked
  | true =>
    simp only [onAlert, if_true, Option.elim_some, mem_blockSource]
    rw [hblocked, hin]
    tauto

theorem Inv.unblock (h : Inv e d) (ip : UInt32) : Inv e (Inline.unblock d ip) := by
  refine h.of_notes (show fates [.unblocked ip] = [] from rfl) fun x => ?_
  rw [standing_unblocked, Bool.and_eq_true, bne_iff_ne, Finset.mem_erase, h.blocked]
  tauto

theorem Inv.rehash (h : Inv e d) {sensor : Sensor} (hr : Rehash d.sensor sensor) :
    Inv e { d with sensor := sensor } := by
  have hsame : sensor.anomalies.blockedIps = d.sensor.anomalies.blockedIps := by cases hr <;> rfl
  exact ⟨fun ip => hsame ▸ h.blocked ip, h.judged, h.sent, h.count, h.rounds⟩

/-- Every packet received has one fate. -/
theorem run_spec {ls : List Event} (hr : (system e).Run {} ls d) :
    Inv e d ∧ (fates d.notes).map Prod.fst = received ls := by
  have hstep : ∀ (pre : List Event) (s : Divert) (l : Event) (s' : Divert),
      Inv e s ∧ (fates s.notes).map Prod.fst = received pre → (system e).step s l s' →
      Inv e s' ∧ (fates s'.notes).map Prod.fst = received (pre ++ [l]) := by
    intro pre s l s' ⟨hinv, hrec⟩ hst
    have hreceived : received (pre ++ [l]) = received pre ++ received [l] :=
      List.filterMap_append ..
    rw [hreceived, ← hrec]
    cases l with
    | packet packet now =>
      obtain ⟨h', drop, hfate⟩ := hinv.receive hst
      refine ⟨h', ?_⟩
      rw [hfate, List.map_append]
      rfl
    | llmAlert llmOutput flow payloadText =>
      cases hst
      refine ⟨hinv.llmAlert llmOutput flow payloadText, ?_⟩
      unfold Inline.llmAlert
      split
      · exact (List.append_nil _).symm
      · dsimp only
        rw [fates_append, List.map_append]
        rfl
    | unblock ip =>
      cases hst
      refine ⟨hinv.unblock ip, ?_⟩
      show (fates (s.notes ++ [.unblocked ip])).map Prod.fst = _
      rw [fates_append, List.map_append]
      rfl
    | rehash =>
      obtain ⟨sensor, hre, rfl⟩ := hst
      exact ⟨hinv.rehash hre, (List.append_nil _).symm⟩
  exact hr.history hstep ⟨.start, rfl⟩

end Inv

/-- In every run, whatever packets, LLM alerts and `unblock_source` calls
come and in what order, each received packet is either sent unchanged, in the
order of arrival, or counted as blocked; and it is dropped exactly when inline
blocking is on, its source address is not zero and not allowlisted, and the
last note that names this address, the packet's own alerts included, is an
alert. -/
theorem inline_exact (e : Env) (ls : List Event) (d : Divert) (hr : (system e).Run {} ls d) :
    (fates d.notes).map Prod.fst = received ls ∧
      d.sent = ((fates d.notes).filter fun x => !x.2).map Prod.fst ∧
      d.blockedPacketCount = (fates d.notes).countP Prod.snd ∧
      ∀ pre packet dropped post, d.notes = pre ++ .packet packet dropped :: post →
        (dropped = true ↔ Condemned e pre packet) := by
  obtain ⟨hinv, hreceived⟩ := run_spec hr
  exact ⟨hreceived, hinv.sent, hinv.count, hinv.judged⟩

/-- 10.0.0.5 is reported by the LLM stage, and sends a packet. -/
def reportedHost : List Event :=
  [.llmAlert [] { id := ⟨Responders.server, 0x08080808, 0, 0⟩ } [],
    .packet (Maintenance.udpPacket Responders.server) 0]

theorem inline_exact_reported : ∃ d, (system Responders.inlineEnv).Run {} reportedHost d ∧
    d.sent = [] ∧ ∀ pre packet dropped post, d.notes = pre ++ .packet packet dropped :: post →
      (dropped = true ↔ Condemned Responders.inlineEnv pre packet) := by
  have hany : (receive Responders.inlineEnv (Inline.llmAlert Responders.inlineEnv {} []
      { id := ⟨Responders.server, 0x08080808, 0, 0⟩ } [])
      (Maintenance.udpPacket Responders.server) 0).any (fun d => decide (d.sent = [])) = true := by
    decide
  obtain ⟨d, hd, hsent⟩ := (Option.any_eq_true _ _).1 hany
  have hrun : (system Responders.inlineEnv).Run {} reportedHost d := .cons rfl (.cons hd (.nil d))
  exact ⟨d, hrun, of_decide_eq_true hsent, (inline_exact _ _ d hrun).2.2.2⟩

end Wirewolf.L5.Inline
