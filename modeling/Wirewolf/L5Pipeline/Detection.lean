import Wirewolf.L1Encoding.TlsWire
import Wirewolf.L4Filter.ContentExits
import Wirewolf.L5Pipeline.Alerts
import Wirewolf.L5Pipeline.Capture
import Wirewolf.L5Pipeline.Scheduling

/-!
# From the packets of a connection to its alert

The offline analysis as a whole: the loop over the file, the threads that its
flows go through, and the callback behind the LLM stage. What the other
connections of the file send decides neither whether an alert of this stage for
a connection is delivered nor what it says, unless a duplicate of its flow was
there before.

* `alertsOf_open`: the alerts for a connection come from its one flow, in some
  state of the filter.
* `client_hello_alerted`: a connection that opens with a ClientHello.
* `signature_alerted`: one that shows a content signature, percent-encoded or
  not, to a live filter.

Only the alerts of the LLM stage are counted (`alertsOf`); the sensor of the same
analysis may raise others for the same connection. The run loses no flow
(`Analyzed`), the file is short (`Capture.Short`), and the connection has data,
within the payload limit, and neither FIN nor RST (`StaysOpen`).
-/
namespace Wirewolf.L5.Detection

open Wirewolf.L1.IpPacket Wirewolf.L1.Severity Wirewolf.L1.AlertJson Wirewolf.L1.TlsHello
open Wirewolf.L2.Connection
open Wirewolf.L3.Table (makeFlow mergedPayload)
open Wirewolf.L3.Isolation (untagged)
open Wirewolf.L4.NamedAlert Wirewolf.L4.LlmWorker
open Wirewolf.L5.Alerts Wirewolf.L5.Capture Wirewolf.L5.Offline Wirewolf.L5.Scheduling
open Wirewolf.L5.Flush (wholeRoots)
open Wirewolf.L5.ZeroLoss (Lossless AllAnalyzed)

/-! ## The analysis -/

/-- The threads have stopped and lost nothing of what the loop over the file
has pushed. -/
inductive Analyzed (c : Flush.Env) (f : L4.Worker.Env) (bs : List Batch) :
    State FlowData L4.Worker.State → Prop
  | stopped {t : Anomalies.Sensor} {capacity : Nat} {ls : List (Label FlowData)}
      {s : State FlowData L4.Worker.State} :
      RunPcap c {} bs t → (offline (npuFilter f)).Run (start capacity {}) ls s →
      pushes ls = t.table.outputQueue → s.monitor = .stopped →
      (offline (npuFilter f)).Along (Lossless (npuFilter f)) (start capacity {}) ls →
      Analyzed c f bs s

/-- What the callback delivers. -/
def deliver (call : AlertCall) : ThreatAlert :=
  (onAlert false call.result call.flow call.payloadStr).1

def alerts (e : Env) (s : State FlowData L4.Worker.State) : List ThreatAlert :=
  (worker e s.handledL.reverse).calls.map deliver

def alertsOf (e : Env) (cid : ConnectionId) (s : State FlowData L4.Worker.State) :
    List ThreatAlert :=
  (alerts e s).filter fun a => a.connection = cid

/-! ## The stages keep connections apart -/

section Stages

open Wirewolf.L4.Worker Wirewolf.L4.Decision Wirewolf.L4.ContentExits

/-- The same flow under other names. -/
def Relabels (x flow : FlowData) : Prop :=
  ∃ sni ja3 tag, flow = { x with tlsSni := sni, tlsJa3 := ja3, protocolTag := tag }

theorem Relabels.refl (x : FlowData) : Relabels x x := ⟨_, _, _, rfl⟩

theorem Relabels.tagged (x : FlowData) (tag : Bytes) : Relabels x { x with protocolTag := tag } :=
  ⟨_, _, _, rfl⟩

theorem Relabels.trans {x y z : FlowData} (h : Relabels x y) (h' : Relabels y z) :
    Relabels x z := by
  obtain ⟨_, _, _, rfl⟩ := h
  obtain ⟨_, _, _, rfl⟩ := h'
  exact ⟨_, _, _, rfl⟩

/-- Whatever is decided, it is about this flow. -/
def Keeps (x : FlowData) : Ruling → Prop
  | .drop flow _ => Relabels x flow
  | .pass flow _ => Relabels x flow
  | .once _ flow tagged _ => Relabels x flow ∧ Relabels x tagged

theorem Keeps.trans {x y : FlowData} {d : Ruling} (h : Keeps y d) (hxy : Relabels x y) :
    Keeps x d := by
  cases d with
  | drop => exact Relabels.trans hxy h
  | pass => exact Relabels.trans hxy h
  | once => exact ⟨hxy.trans h.1, hxy.trans h.2⟩

theorem ite_keeps {x : FlowData} {p : Prop} [Decidable p] {a b : Ruling} (ha : Keeps x a)
    (hb : Keeps x b) : Keeps x (if p then a else b) := by
  split
  · exact ha
  · exact hb

theorem detectorDecision_keeps (f : L4.Worker.Env) (flow : FlowData) :
    Keeps flow (detectorDecision f flow) := by
  have hsame := Relabels.refl flow
  have hnamed := Relabels.tagged flow
  unfold detectorDecision anomalyDecision
  exact ite_keeps ⟨hsame, hnamed _⟩ (ite_keeps ⟨hsame, hnamed _⟩ (ite_keeps (hnamed _)
    (ite_keeps (hnamed _) (ite_keeps (hnamed _) (ite_keeps (hnamed _) (ite_keeps (hnamed _)
      (ite_keeps ⟨hsame, hnamed _⟩ (ite_keeps hsame (ite_keeps ⟨hsame, hsame⟩ hsame)))))))))

theorem feedHit_relabels {f : L4.Worker.Env} {flow hit : FlowData} (h : feedHit f flow = some hit) :
    Relabels flow hit := by
  unfold feedHit at h
  split at h
  · cases h
  · split at h
    · cases h
      split
      · exact Relabels.tagged flow _
      · exact Relabels.tagged flow _
    · split at h
      · cases h
        exact Relabels.tagged flow _
      · cases h

theorem feedDecision_keeps (f : L4.Worker.Env) (flow : FlowData) :
    Keeps flow (feedDecision f flow) := by
  unfold feedDecision
  split
  · next hit hfeed => exact feedHit_relabels hfeed
  · exact detectorDecision_keeps f flow

/-- The flow that the filter looks at. -/
def looked (flow : FlowData) : FlowData :=
  if flow.reassembledPayload = [] then flow else canonicalize flow

theorem decision_keeps (f : L4.Worker.Env) (flow : FlowData) :
    Keeps (looked flow) (decision f flow) := by
  unfold decision looked
  split
  · exact Relabels.refl flow
  · rcases htls : tlsStage f.threatFeed (canonicalize flow) with ⟨verdict, flow'⟩
    have hrelabels : Relabels (canonicalize flow) flow' := tlsStage_keeps htls
    cases verdict with
    | suspicious => exact hrelabels
    | benign => exact hrelabels
    | notTls => exact (feedDecision_keeps f flow').trans hrelabels

/-- The filter hands on the flow that it has looked at. -/
theorem handle_relabels (f : L4.Worker.Env) (w : L4.Worker.State) (flow : FlowData) :
    Relabels (looked flow) (L4.Worker.handle f w flow).2.flow := by
  have hkeeps := decision_keeps f flow
  rw [handle_eq]
  generalize decision f flow = d at hkeeps
  cases d with
  | drop flow' reason => exact hkeeps
  | pass flow' reason => exact hkeeps
  | once k flow' tagged reason =>
    show Relabels (looked flow) ((ready w flow).passOnce k flow' tagged reason).2.flow
    unfold State.passOnce
    split
    · exact hkeeps.1
    · exact hkeeps.2

theorem handle_id (f : L4.Worker.Env) (w : L4.Worker.State) (flow : FlowData) :
    (L4.Worker.handle f w flow).2.flow.id = flow.id := by
  obtain ⟨sni, ja3, tag, heq⟩ := handle_relabels f w flow
  rw [heq]
  show (looked flow).id = flow.id
  unfold looked
  split <;> rfl

end Stages

theorem callsOf_flow {flow : FlowData} {o : Outcome} :
    ∀ call ∈ callsOf flow o, call.flow = flow := by
  intro call hcall
  cases o with
  | alert a => rw [List.mem_singleton.1 hcall]
  | _ => cases hcall

theorem callsOf_filter (cid : ConnectionId) (flow : FlowData) (o : Outcome) :
    (callsOf flow o).filter (fun call => call.flow.id = cid) =
      if flow.id = cid then callsOf flow o else [] := by
  split
  · next h => exact List.filter_eq_self.2 fun call hcall => by simp [callsOf_flow call hcall, h]
  · next h => exact List.filter_eq_nil_iff.2 fun call hcall => by simp [callsOf_flow call hcall, h]

/-- The calls for a connection are those for its flows. -/
theorem worker_filter_nil (e : Env) (cid : ConnectionId) {flows : List FlowData}
    (h : flows.filter (fun flow => flow.id = cid) = []) :
    (worker e flows).calls.filter (fun call => call.flow.id = cid) = [] := by
  induction flows using List.reverseRecOn with
  | nil => rfl
  | append_singleton flows flow ih =>
    rw [List.filter_append, List.append_eq_nil_iff] at h
    have hflow : ¬ flow.id = cid := by simpa using h.2
    rw [worker_concat]
    show ((worker e flows).calls ++ _).filter _ = []
    rw [List.filter_append, ih h.1, callsOf_filter, if_neg hflow, List.nil_append]

theorem worker_filter (e : Env) (cid : ConnectionId) {flows : List FlowData} {g : FlowData}
    (h : flows.filter (fun flow => flow.id = cid) = [g]) :
    ∃ n, (worker e flows).calls.filter (fun call => call.flow.id = cid) =
      callsOf g (handle e n g).2 := by
  induction flows using List.reverseRecOn with
  | nil => cases h
  | append_singleton flows flow ih =>
    rw [worker_concat]
    show ∃ n, ((worker e flows).calls ++ _).filter _ = _
    rw [List.filter_append] at h
    simp only [List.filter_append, callsOf_filter]
    by_cases hflow : flow.id = cid
    · rw [List.filter_cons_of_pos (by simpa using hflow)] at h
      obtain ⟨hnil, hg⟩ | ⟨-, hg⟩ := List.append_eq_singleton_iff.1 h
      · cases hg
        exact ⟨_, by rw [worker_filter_nil e cid hnil, if_pos hflow, List.nil_append]⟩
      · cases hg
    · rw [List.filter_cons_of_neg (by simpa using hflow), List.filter_nil, List.append_nil] at h
      obtain ⟨n, hn⟩ := ih h
      exact ⟨n, by rw [hn, if_neg hflow, List.append_nil]⟩

/-! ## One connection of the file -/

/-- What the packets of the connection reassemble to: data that neither a FIN
nor a RST nor the size limit ends before the file does. -/
structure StaysOpen (c : Flush.Env) (bs : List Batch) (cid : ConnectionId)
    (st : ConnectionState) : Prop where
  run : ConnectionState.run {} (bs.flatMap (ownPackets cid)) = st
  unclosed : ∀ p ∈ bs.flatMap (ownPackets cid), p.fin = false ∧ p.rst = false
  data : st.payload ≠ []
  size : st.payload.length ≤ c.maxFlowPayloadBytes

theorem StaysOpen.payload_ne_nil {c : Flush.Env} {bs : List Batch} {cid : ConnectionId}
    {st : ConnectionState}
    (h : StaysOpen c bs cid st) : mergedPayload st ≠ [] :=
  fun hnil => h.data (List.append_eq_nil_iff.1 hnil).1

/-- The flow of the connection. -/
def ownFlow (cid : ConnectionId) (st : ConnectionState) (suspect : Bool) : FlowData :=
  { makeFlow cid st (mergedPayload st) with behavioralSuspect := suspect }

/-- The calls of the LLM stage for a flow that the filter has decided on. -/
def callsFor (e : Env) (n : Nat) (o : L4.Worker.Outcome) : List AlertCall :=
  if o.pushed.isSome then callsOf o.flow (handle e n o.flow).2 else []

theorem callsFor_pass (e : Env) (n : Nat) (w : L4.Worker.State) (flow : FlowData)
    (reason : L4.Worker.Reason) :
    callsFor e n (L4.Decision.settle w (.pass flow reason)).2 = callsOf flow (handle e n flow).2 :=
  if_pos rfl

section Connection

variable {c : Flush.Env} {f : L4.Worker.Env} {bs : List Batch} {s : State FlowData L4.Worker.State}
  {ids : List ConnectionId} {cid : ConnectionId} {st : ConnectionState}

theorem emitted_open (hshort : Short ids bs) (hst : StaysOpen c bs cid st) {t : Anomalies.Sensor}
    (hrun : RunPcap c {} bs t) :
    ∃ suspect, t.table.outputQueue.filter (fun flow => flow.id = cid) =
      [ownFlow cid st suspect] := by
  have hflat : (bs.map (ownPackets cid)).flatten = bs.flatMap (ownPackets cid) := by
    rw [List.flatMap_def]
  have hflows := hshort.flows hrun cid
  rw [ownCapture_open (hflat ▸ hst.unclosed) (hflat ▸ hst.run ▸ hst.data)
    (hflat ▸ hst.run ▸ hst.size),
    hflat, hst.run] at hflows
  obtain ⟨flow, hflow, heq⟩ := List.map_eq_singleton_iff.1 hflows
  refine ⟨flow.behavioralSuspect, ?_⟩
  rw [hflow, ownFlow, ← heq]
  rfl

/-- The alerts for the connection come from its one flow, in some state of the
filter and for some tag of the behavioral detector. -/
theorem alertsOf_open (e : Env) (h : Analyzed c f bs s) (hshort : Short ids bs)
    (hst : StaysOpen c bs cid st) :
    ∃ suspect w n, alertsOf e cid s =
      (callsFor e n (L4.Worker.handle f w (ownFlow cid st suspect)).2).map deliver := by
  obtain ⟨hcapture, hr, hpushes, hstop, hless⟩ := h
  obtain ⟨suspect, hown⟩ := emitted_open hshort hst hcapture
  have hpart : ∀ w (flow : FlowData), decide ((npuFilter f w flow).2.1.id = cid) =
      decide (flow.id = cid) :=
    fun w flow => by rw [show (npuFilter f w flow).2.1.id = flow.id from handle_id f w flow]
  obtain ⟨w, hpassed⟩ := sequential_filter hpart (hpushes ▸ hown) ({} : L4.Worker.State)
  have hseen : (s.handledL.reverse.filter fun flow => flow.id = cid).Perm
      ((sequential (npuFilter f) {} (pushes _)).2.filter fun flow => flow.id = cid) :=
    ((List.reverse_perm _).trans
      (analyzed_sequential hr (zeroLoss_of_lossless hr hstop hless))).filter _
  rw [hpassed] at hseen
  have hcalls : alertsOf e cid s = ((worker e s.handledL.reverse).calls.filter
      fun call => call.flow.id = cid).map deliver := by
    rw [alertsOf, alerts, List.filter_map]
    rfl
  rw [hcalls]
  cases hpush : (npuFilter f w (ownFlow cid st suspect)).2.2.isSome with
  | true =>
    rw [hpush, if_pos rfl] at hseen
    obtain ⟨n, hn⟩ := worker_filter e cid (List.perm_singleton.1 hseen)
    refine ⟨suspect, w, n, ?_⟩
    rw [hn, callsFor, if_pos (show (L4.Worker.handle f w _).2.pushed.isSome = true from hpush)]
    rfl
  | false =>
    rw [hpush, if_neg Bool.false_ne_true] at hseen
    refine ⟨suspect, w, 0, ?_⟩
    rw [worker_filter_nil e cid (List.perm_nil.1 hseen), callsFor,
      if_neg (show ¬ (L4.Worker.handle f w _).2.pushed.isSome = true from
        Bool.eq_false_iff.1 hpush)]

end Connection

/-! ## A connection that shares the file with another one -/

def shared (p : L1.IpWire.Packet) : List Batch := [[(frameOf p, 0), (frameOf abcAgain, 1)]]

theorem packets_shared (p : L1.IpWire.Packet) :
    (shared p).map packets = [[p.delivered 0, abcAgain.delivered 1]] := by
  simp only [shared, packets, List.map_cons, List.map_nil, List.filterMap_cons, List.filterMap_nil,
    tcpOf_frameOf]

theorem short_shared (p : L1.IpWire.Packet) :
    Short [(p.delivered 0).cid, (abcAgain.delivered 1).cid] (shared p) := by
  have hmem : ∀ b ∈ shared p, ∀ q ∈ packets b, q = p.delivered 0 ∨ q = abcAgain.delivered 1 := by
    intro b hb q hq
    have hflat : q ∈ ((shared p).map packets).flatten :=
      List.mem_flatten.2 ⟨packets b, List.mem_map_of_mem hb, hq⟩
    rw [packets_shared] at hflat
    simpa using hflat
  have htime : ∀ b ∈ shared p, ∀ q ∈ packets b, 0 ≤ q.time ∧ q.time ≤ 1 := by
    intro b hb q hq
    rcases hmem b hb q hq with rfl | rfl
    · exact ⟨le_rfl, zero_le_one⟩
    · exact ⟨zero_le_one, le_rfl⟩
  refine ⟨(by decide : 2 ≤ L3.Table.maxConnections), fun b hb q hq => ?_,
    fun b hb q hq b' hb' q' hq' => ?_⟩
  · rcases hmem b hb q hq with rfl | rfl <;> simp
  · have hlate := (htime b' hb' q' hq').2
    have hearly := (htime b hb q hq).1
    unfold L3.Table.connectionTimeout
    linarith

theorem own_shared {p : L1.IpWire.Packet} (h : (p.delivered 0).cid ≠ (abcAgain.delivered 1).cid) :
    (shared p).flatMap (ownPackets (p.delivered 0).cid) = [p.delivered 0] := by
  have hmap : (shared p).flatMap (ownPackets (p.delivered 0).cid) =
      ((shared p).map packets).flatMap fun l => l.filter fun q => q.cid = (p.delivered 0).cid := by
    rw [List.flatMap_map]
    rfl
  rw [hmap, packets_shared]
  simp [h.symm]

/-- What is left of the two connections at the end. -/
def ownState (p : L1.IpWire.Packet) : ConnectionState := ConnectionState.run {} [p.delivered 0]

def againState : ConnectionState := ConnectionState.run {} [abcAgain.delivered 1]

/-- The first flow is dropped, the second one passed. -/
def secondPassed (x y : FlowData) : List (Label FlowData) :=
  [.fTest, .lTest, .rPush x, .fPop, .fHandle, .rPush y, .fTest, .fPop, .fHandle, .lPop, .lDone,
    .rReturn, .rFlag, .lTest, .fTest,
    .monitor, .monitor, .monitor, .monitor, .monitor, .monitor, .monitor, .monitor, .monitor,
    .fPop, .fTest, .monitor, .monitor, .monitor, .lPop, .lTest, .monitor]

/-- The analysis under this schedule. -/
theorem analyzed_shared {f : L4.Worker.Env} {p : L1.IpWire.Packet} {x y : FlowData}
    (hplay : (runPcap wholeRoots {} (shared p)).any (fun t => t.table.outputQueue = [x, y]) = true)
    (hexec : (LTS.exec (State.step (npuFilter f)) (start 4 {}) (secondPassed x y)).any emptied =
      true) :
    ∃ s, Analyzed wholeRoots f (shared p) s := by
  obtain ⟨t, ht, hqueue⟩ := (Option.any_eq_true _ _).1 hplay
  obtain ⟨s, hr, hstop, hless⟩ := lossless_of_exec f 4 (secondPassed x y) hexec
  exact ⟨s, .stopped (runPcap_run ht) hr (of_decide_eq_true hqueue).symm hstop hless⟩

/-! ## A TLS client -/

section Tls

open Wirewolf.L4 Wirewolf.L4.Detectors Wirewolf.L4.Decision
open Wirewolf.L4.Worker (canonicalize tlsStage)

def tlsThreats : List Bytes :=
  List.map lit ["Malicious TLS Client", "C2 Beaconing", "Suspicious TLS"]

/-- The threat type of a hello. -/
def tlsThreat (feed : ThreatFeed) (tls : TlsInfo) : Option Bytes :=
  if tls.ja3Hash ∈ badJa3 ∨ feed.isBadJa3 tls.ja3Hash then some (lit "Malicious TLS Client")
  else if feed.isBadDomain tls.sni then some (lit "C2 Beaconing")
  else if sniSuspicious tls.sni then some (lit "Suspicious TLS")
  else none

/-- The flow with what the handshake tells about it. -/
def inspected (tls : TlsInfo) (threat : Bytes) (flow : FlowData) : FlowData :=
  { canonicalize flow with tlsSni := tls.sni, tlsJa3 := tls.ja3Hash, protocolTag := threat }

/-- What is said of the handshake. -/
def tlsText (tls : TlsInfo) (threat : Bytes) : Bytes :=
  if threat = lit "C2 Beaconing" then threat
  else lit "TLS SNI=" ++ (if tls.sni.isEmpty then lit "(none)" else tls.sni) ++
    lit " JA3=" ++ tls.ja3Hash

/-- The alert for a hello. -/
def tlsAlert (cid : ConnectionId) (tls : TlsInfo) (threat : Bytes) : ThreatAlert where
  connection := cid
  threatType := threat
  severity := (severityForThreat threat).label
  severityInfo := severityForThreat threat
  snippet := (tlsText tls threat).flatMap readBack
  rawLlmOutput := buildAlertJson threat (severityForThreat threat) (tlsText tls threat)
  payloadText := lit "[protocol-detected: " ++ threat ++ lit "]"
  confidence := confidenceFor (severityForThreat threat) false

theorem tlsThreat_mem {feed : ThreatFeed} {tls : TlsInfo} {threat : Bytes}
    (h : tlsThreat feed tls = some threat) : threat ∈ tlsThreats := by
  unfold tlsThreat at h
  split at h
  · exact Option.some.inj h ▸ .head _
  · split at h
    · exact Option.some.inj h ▸ .tail _ (.head _)
    · split at h
      · exact Option.some.inj h ▸ .tail _ (.tail _ (.head _))
      · cases h

theorem inspectTls_eq (feed : ThreatFeed) {flow : FlowData} {tls : TlsInfo}
    (h : parseTlsClientHello flow.reassembledPayload = some tls) :
    inspectTls feed (canonicalize flow) =
      match tlsThreat feed tls with
      | some threat => (.suspicious, inspected tls threat flow)
      | none => (.benign, inspected tls flow.protocolTag flow) := by
  unfold inspectTls tlsThreat
  rw [show (canonicalize flow).reassembledPayload = flow.reassembledPayload from rfl, h]
  dsimp only
  split
  · rfl
  · split
    · rfl
    · split <;> rfl

theorem decision_threat {f : Worker.Env} {flow : FlowData} {tls : TlsInfo} {threat : Bytes}
    (hne : flow.reassembledPayload ≠ [])
    (h : parseTlsClientHello flow.reassembledPayload = some tls)
    (hthreat : tlsThreat f.threatFeed tls = some threat) :
    decision f flow = .pass (inspected tls threat flow) .tlsSuspicious := by
  have hinspect := inspectTls_eq f.threatFeed h
  rw [hthreat] at hinspect
  unfold decision tlsStage
  rw [if_neg hne, hinspect]
  simp

theorem decision_benign {f : Worker.Env} {flow : FlowData} {tls : TlsInfo}
    (hne : flow.reassembledPayload ≠ [])
    (h : parseTlsClientHello flow.reassembledPayload = some tls)
    (hthreat : tlsThreat f.threatFeed tls = none) (hheart : detectHeartbleed flow = false) :
    decision f flow = .drop (inspected tls flow.protocolTag flow) .tlsBenign := by
  have hinspect := inspectTls_eq f.threatFeed h
  have hheart' : detectHeartbleed (inspected tls flow.protocolTag flow) = false := hheart
  rw [hthreat] at hinspect
  unfold decision tlsStage
  rw [if_neg hne, hinspect]
  simp [hheart']

/-- No stage treats such a type otherwise, and no reader takes it for something
else. -/
theorem threat_plain : ∀ threat ∈ tlsThreats, threat ≠ [] ∧ Readable threat ∧ 0x22 ∉ threat ∧
    threat ≠ lit "snippet" ∧ threat ≠ lit "Heartbleed" ∧ isTransfer threat = false ∧
    threat ≠ lit "SMB Exploit" ∧ threat ≠ lit "Brute Force" ∧ threat ≠ lit "RAT C2" := by
  decide

theorem threat_not_keyLike {threat : Bytes} (h : threat ∈ tlsThreats) : ¬ KeyLike threat := by
  obtain ⟨-, -, hquote, hkey, -⟩ := threat_plain threat h
  rintro (heq | hsuffix)
  · exact hkey heq
  · exact hquote (hsuffix.subset (by decide))

theorem tagged_inspected {tls : TlsInfo} {threat : Bytes} {flow : FlowData}
    (h : threat ∈ tlsThreats) :
    tagged (inspected tls threat flow) = (severityForThreat threat, tlsText tls threat) := by
  obtain ⟨-, -, -, -, hheart, htransfer, hsmb, hbrute, hrat⟩ := threat_plain threat h
  have htype : (threat = lit "Malicious TLS Client" ∨ threat = lit "Suspicious TLS") ↔
      ¬ threat = lit "C2 Beaconing" := by
    revert threat
    decide
  unfold tagged tlsText
  simp only [show (inspected tls threat flow).protocolTag = threat from rfl, hheart,
    htransfer, hsmb,
    hbrute, hrat, if_false, Bool.false_eq_true, Bool.or_eq_true, decide_eq_true_eq, htype, ite_not]
  split <;> rfl

theorem taggedPayload_inspected (e : LlmWorker.Env) {tls : TlsInfo} {threat : Bytes}
    {flow : FlowData}
    (h : threat ∈ tlsThreats) :
    taggedPayload e (inspected tls threat flow) = lit "[protocol-detected: " ++ threat ++
      lit "]" := by
  obtain ⟨-, -, -, -, -, htransfer, -, hbrute, hrat⟩ := threat_plain threat h
  unfold taggedPayload
  simp only [show (inspected tls threat flow).protocolTag = threat from rfl, htransfer,
    hbrute, hrat,
    decide_false, Bool.or_false, Bool.false_eq_true, if_false]

/-- What the LLM stage says of an inspected flow, as the callback delivers it. -/
theorem deliver_inspected (e : LlmWorker.Env) {tls : TlsInfo} {threat : Bytes} {flow : FlowData}
    (h : threat ∈ tlsThreats) (n : Nat) (hne : flow.reassembledPayload ≠ []) :
    (callsOf (inspected tls threat flow) (handle e n (inspected tls threat flow)).2).map deliver =
      [tlsAlert flow.id tls threat] := by
  obtain ⟨hnonempty, hread, -⟩ := threat_plain threat h
  have hnamed : isNamed (inspected tls threat flow) = true := by
    simp [isNamed, inspected, canonicalize, hne, hnonempty]
  rw [handle_named hnamed, callsOf, List.map_singleton, deliver, onAlert, taggedAlert,
    tagged_inspected h,
    taggedPayload_inspected e h, Alert.json]
  dsimp only
  rw [show (inspected tls threat flow).protocolTag = threat from rfl, extract_threatType,
    readBack_eq_iff.2 hread, extract_snippet _ _ _ (threat_not_keyLike h)]
  rfl

/-- A connection whose stream opens with a ClientHello, among any others: one
alert if the feed or the server's name gives it away, and none if not and no
heartbeat overruns its record. -/
theorem client_hello_alerted (e : LlmWorker.Env) {c : Flush.Env} {f : Worker.Env} {bs : List Batch}
    {s : State FlowData Worker.State} (h : Analyzed c f bs s) {ids : List ConnectionId}
    (hshort : Short ids bs) {cid : ConnectionId} {st : ConnectionState}
    (hst : StaysOpen c bs cid st)
    {tls : TlsInfo} (hhello : parseTlsClientHello (mergedPayload st) = some tls) :
    (∀ threat, tlsThreat f.threatFeed tls = some threat →
      alertsOf e cid s = [tlsAlert cid tls threat]) ∧
    (tlsThreat f.threatFeed tls = none →
      detectHeartbleed (makeFlow cid st (mergedPayload st)) = false → alertsOf e cid s = []) := by
  obtain ⟨suspect, w, n, halerts⟩ := alertsOf_open e h hshort hst
  have hne : (ownFlow cid st suspect).reassembledPayload ≠ [] := hst.payload_ne_nil
  refine ⟨fun threat hthreat => ?_, fun hthreat hheart => ?_⟩
  · rw [halerts, handle_eq, decision_threat hne hhello hthreat, callsFor_pass]
    exact deliver_inspected e (tlsThreat_mem hthreat) n hne
  · rw [halerts, handle_eq, decision_benign hne hhello hthreat hheart]
    rfl

/-- A hello that names an address. -/
def numericHello : L1.TlsWire.ClientHello :=
  { (default : L1.TlsWire.ClientHello) with
    suites := [0x1301]
    extensions := [.serverName (lit "192.0.2.7") (by decide) (by decide)]
    suites_fit := by decide
    extensions_fit := by decide
    record_fits := by decide
    once := fun _ _ => List.count_le_length }

def helloPacket : L1.IpWire.Packet :=
  { abc with
    payload := numericHello.serialize
    total_le := by decide }

/-- What the parser makes of the hello. -/
def numericTls : TlsInfo :=
  ⟨lit "192.0.2.7", lit "771,4865,0,,", lit "1e7c622032b0cb79401b0f7be3793a1a"⟩

theorem client_hello_alerted_numeric :
    ∃ s, Analyzed wholeRoots Escalation.plainEnv (shared helloPacket) s ∧
    alertsOf { generate := id } (helloPacket.delivered 0).cid s =
      [tlsAlert (helloPacket.delivered 0).cid numericTls (lit "Suspicious TLS")] := by
  obtain ⟨s, hanalyzed⟩ := analyzed_shared (f := Escalation.plainEnv) (p := helloPacket)
    (x := ownFlow (abcAgain.delivered 1).cid againState false)
    (y := ownFlow (helloPacket.delivered 0).cid (ownState helloPacket) false)
    (by decide +kernel) (by decide +kernel)
  have hown := own_shared (p := helloPacket) (by decide)
  have hst : StaysOpen wholeRoots (shared helloPacket) (helloPacket.delivered 0).cid
      (ownState helloPacket) :=
    ⟨by rw [hown]; rfl, by rw [hown]; decide, by decide, by decide⟩
  have hhello : parseTlsClientHello (mergedPayload (ownState helloPacket)) = some numericTls := by
    decide +kernel
  exact ⟨s, hanalyzed,
    (client_hello_alerted { generate := id } hanalyzed (short_shared helloPacket) hst
      hhello).1 _ (by decide)⟩

end Tls

/-! ## A content signature -/

section Signature

open Wirewolf.L1.Normalizer Wirewolf.L1.PercentCoding Wirewolf.L1.Canonical
open Wirewolf.L4 Wirewolf.L4.Signatures Wirewolf.L4.Decision

/-- A live filter passes the flow under the rule's threat type. -/
theorem decision_signature {f : Worker.Env} {content : Bytes} {flow : FlowData}
    {sig : ContentSignature}
    (hload : f.threatFeed.signatures = loadSignatures content) (hlive : f.cfg.forensic = false)
    (hne : flow.reassembledPayload ≠ []) (htls : parseTlsClientHello flow.reassembledPayload = none)
    (hsig : f.threatFeed.matchSignature (normalizePayload flow.reassembledPayload) = some sig) :
    decision f flow = .pass { Worker.canonicalize flow with protocolTag := sig.severity }
      .threatIntel := by
  have hstage : Worker.tlsStage f.threatFeed (Worker.canonicalize flow) =
      (.notTls, Worker.canonicalize flow) := by
    have hinspect : Detectors.inspectTls f.threatFeed (Worker.canonicalize flow) =
        (.notTls, Worker.canonicalize flow) := by
      unfold Detectors.inspectTls
      rw [show (Worker.canonicalize flow).reassembledPayload = flow.reassembledPayload from rfl,
        htls]
    unfold Worker.tlsStage
    rw [hinspect]
    exact if_neg fun hbenign => by cases hbenign.1
  have hhit : Worker.feedHit f (Worker.canonicalize flow) =
      some { Worker.canonicalize flow with protocolTag := sig.severity } := by
    unfold Worker.feedHit
    rw [(match_loaded hload hsig).2, if_neg Bool.false_ne_true, show
      (Worker.canonicalize flow).normalizedPayload =
        normalizePayload flow.reassembledPayload from rfl, hsig]
    simp only [hlive, Bool.false_eq_true, if_false]
    rfl
  unfold decision feedDecision
  rw [if_neg hne, hstage]
  simp only [hhit]

/-- What the callback delivers for a flow under a rule's threat type. -/
theorem deliver_named (e : LlmWorker.Env) {flow : FlowData} (h : isNamed flow = true) (n : Nat) :
    ∃ alert, (callsOf flow (handle e n flow).2).map deliver = [alert] ∧ alert.connection = flow.id ∧
      alert.threatType = flow.protocolTag.flatMap readBack ∧
      alert.severityInfo = severityForThreat flow.protocolTag := by
  rw [handle_named h]
  refine ⟨_, rfl, rfl, ?_, delivered_severity false flow (taggedAlert e flow)⟩
  show (onAlert false (taggedAlert e flow).json flow
    (taggedAlert e flow).payloadText).1.threatType = _
  rw [onAlert, Alert.json, extract_threatType]
  rfl

/-- A stream that shows a canonical signature behind at most three layers of
percent-encoding, among any other connections: one alert, under the threat
type of a loaded rule whose pattern the stream contains. -/
theorem signature_alerted (e : LlmWorker.Env) {c : Flush.Env} {f : Worker.Env} {bs : List Batch}
    {s : State FlowData Worker.State} (h : Analyzed c f bs s) {ids : List ConnectionId}
    (hshort : Short ids bs) {cid : ConnectionId} {st : ConnectionState}
    (hst : StaysOpen c bs cid st)
    (hlive : f.cfg.forensic = false) {content : Bytes}
    (hload : f.threatFeed.signatures = loadSignatures content)
    (htls : parseTlsClientHello (mergedPayload st) = none) {a q b : Bytes} {k : Nat} (hk : k ≤ 3)
    (hplain : Plain (a ++ q ++ b)) (hencoded : Encoded k (a ++ q ++ b) (mergedPayload st))
    (hlen : (mergedPayload st).length ≤ maxNorm) (hq : CanonicalText q) (hshown : Shown a q b)
    (hrule : ∃ sig ∈ f.threatFeed.signatures, sig.pattern = q) :
    ∃ alert, alertsOf e cid s = [alert] ∧ alert.connection = cid ∧
      ∃ sig ∈ f.threatFeed.signatures, sig.pattern <:+: normalizePayload (mergedPayload st) ∧
        alert.threatType = sig.severity.flatMap readBack ∧
        alert.severityInfo = severityForThreat sig.severity := by
  have hx : Plain a :=
    ⟨fun hm => hplain.noPercent (by simp [hm]), fun hm => hplain.noPlus (by simp [hm])⟩
  have hnormal : normalizePayload (mergedPayload st) = normalizePayload (a ++ q ++ b) := by
    rw [normalizePayload, normalizePayload, List.take_of_length_le hlen,
      List.take_of_length_le (Nat.le_trans hencoded.length_le hlen),
      hencoded.decodePasses hplain hk,
      decodePasses_plain hplain]
  have hin : q <:+: normalizePayload (mergedPayload st) :=
    hnormal ▸ shown_contained hq hx (Nat.le_trans hencoded.length_le hlen) hshown
  obtain ⟨rule, hrule, rfl⟩ := hrule
  have hmatch : (f.threatFeed.matchSignature (normalizePayload (mergedPayload st))).isSome :=
    (matchSignature_isSome _ _).2 ⟨rule, hrule, loaded_nonempty (hload ▸ hrule), hin⟩
  obtain ⟨sig, hsig⟩ := Option.isSome_iff_exists.1 hmatch
  obtain ⟨suspect, w, n, halerts⟩ := alertsOf_open e h hshort hst
  have hne : (ownFlow cid st suspect).reassembledPayload ≠ [] := hst.payload_ne_nil
  have hnamed : isNamed
      { Worker.canonicalize (ownFlow cid st suspect) with protocolTag := sig.severity } := by
    simp [isNamed, Worker.canonicalize, hne, (match_loaded hload hsig).1]
  obtain ⟨alert, hcalls, hconnection, htype, hseverity⟩ := deliver_named e hnamed n
  refine ⟨alert, ?_, hconnection, sig, List.mem_of_find?_eq_some hsig, ?_, htype, hseverity⟩
  · rw [halerts, handle_eq, decision_signature hload hlive hne htls hsig, callsFor_pass]
    exact hcalls
  · have hfound := List.find?_some hsig
    rw [Bool.and_eq_true, Search.containsSub_iff] at hfound
    exact hfound.2

/-- The `x` of a miner's name, encoded twice. -/
def minerPacket : L1.IpWire.Packet :=
  { abc with
    payload := lit "%2578mrig"
    total_le := by decide }

def minerRules : Bytes := lit "Miner | Cryptominer Traffic | xmrig\n"

def minerEnv : Worker.Env :=
  { Escalation.plainEnv with
    threatFeed := { signatures := loadSignatures minerRules } }

theorem signature_alerted_miner : ∃ s, Analyzed wholeRoots minerEnv (shared minerPacket) s ∧
    ∃ alert, alertsOf { generate := id } (minerPacket.delivered 0).cid s = [alert] ∧
      alert.connection = (minerPacket.delivered 0).cid := by
  obtain ⟨s, hanalyzed⟩ := analyzed_shared (f := minerEnv) (p := minerPacket)
    (x := ownFlow (abcAgain.delivered 1).cid againState false)
    (y := ownFlow (minerPacket.delivered 0).cid (ownState minerPacket) false)
    (by decide +kernel) (by decide +kernel)
  have hown := own_shared (p := minerPacket) (by decide)
  have hst : StaysOpen wholeRoots (shared minerPacket) (minerPacket.delivered 0).cid
      (ownState minerPacket) :=
    ⟨by rw [hown]; rfl, by rw [hown]; decide, by decide, by decide⟩
  have hmerged : mergedPayload (ownState minerPacket) = lit "%2578mrig" := by decide
  have h₁ : EncodedOnce (lit "xmrig") (lit "%78mrig") :=
    .escaped 0x78 rfl rfl (.literal _ (by decide) (.literal _ (by decide) (.literal _ (by decide)
      (.literal _ (by decide) .nil))))
  have h₂ : EncodedOnce (lit "%78mrig") (lit "%2578mrig") :=
    .escaped 0x25 rfl rfl (.literal _ (by decide) (.literal _ (by decide) (.literal _ (by decide)
      (.literal _ (by decide) (.literal _ (by decide) (.literal _ (by decide) .nil))))))
  have hencoded : Encoded 2 ([] ++ lit "xmrig" ++ []) (mergedPayload (ownState minerPacket)) :=
    hmerged ▸ .succ (.succ (.zero _) h₁) h₂
  obtain ⟨alert, hone, hconnection, -⟩ := signature_alerted { generate := id } hanalyzed
    (short_shared minerPacket) hst rfl rfl (by rw [hmerged]; decide) (by decide)
      ⟨by decide, by decide⟩ hencoded
    (by rw [hmerged]; decide) (canonical_iff.1 (by decide)) (by decide)
    ⟨⟨lit "Miner", lit "Cryptominer Traffic", lit "xmrig"⟩, by decide, rfl⟩
  exact ⟨s, hanalyzed, alert, hone, hconnection⟩

end Signature

end Wirewolf.L5.Detection
