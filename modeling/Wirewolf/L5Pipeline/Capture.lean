import Mathlib.Logic.Relation
import Wirewolf.L1Encoding.IpReads
import Wirewolf.L1Encoding.IpWire
import Wirewolf.L2Stream.Base
import Wirewolf.L3Table.Isolation
import Wirewolf.L5Pipeline.Flush
import Wirewolf.L5Pipeline.Maintenance

/-!
# A capture file from end to end (`run_pcap`)

Batches of frames, a maintenance round behind each, and the flush at the end
of the file. The hash tables can be iterated in any order at every round and
at the flush.

* `connection_alone`: at the end the table is empty, and a connection's flows
  are those of its own packets.
* `emitted_whole`: a connection that is neither closed nor too long is emitted
  as one flow, with all that its own packets reassemble to.

Both are about files whose packets lie within two minutes of each other and
belong to at most 50000 connections (`Short`), so that nothing is evicted. The
batches stay what they are: a maintenance round follows each, also where it has
no packet of the connection. The flows are compared without their behavioral
tag, which all connections of one source, destination and port share.
-/
namespace Wirewolf.L5.Capture

open Wirewolf.L1.IpPacket
open Wirewolf.L2.Connection
open Wirewolf.L3.Table hiding Env system Step processIpPacket
open Wirewolf.L3.Isolation
open Wirewolf.L5.Anomalies Wirewolf.L5.Maintenance
open Wirewolf.L5.Flush (flushSensor wholeRoots)
open Wirewolf.L5.Responders (Rehash)

/-- Frames with their times. -/
abbrev Batch := List (Bytes × Rat)

/-- Strips the link layer.
mirrors src/src/tcp_reassembly.cpp:356-371 -/
def processPacket (e : Env) (s : Sensor) (frame : Bytes × Rat) : Option Sensor :=
  if frame.1.length < 14 then some s
  else if be16 frame.1 12 ≠ some 0x0800 then some s
  else (processIpPacket e s (frame.1.drop 14) frame.2).map Prod.fst

/-- `pcap_dispatch` -/
def dispatch (e : Env) (s : Sensor) (b : Batch) : Option Sensor := b.foldlM (processPacket e) s

/-- The tables in other orders. -/
def Order (e : Flush.Env) : Sensor → Sensor → Prop :=
  Relation.ReflTransGen fun s s' => Rehash s s' ∨ Flush.Step e s .shuffle s'

/-- What the loop makes of a file.
mirrors src/src/tcp_reassembly.cpp:195-216 -/
inductive RunPcap (e : Flush.Env) : Sensor → List Batch → Sensor → Prop
  | eof {s s' : Sensor} : Order e s s' → RunPcap e s [] (flushSensor e s')
  | batch {s s₁ s₂ t : Sensor} {b : Batch} {bs : List Batch} : dispatch e.toSensor s b = some s₁ →
      Order e s₁ s₂ → RunPcap e (maintain e.toSensor s₂) bs t → RunPcap e s (b :: bs) t

/-! ## The packets of a file -/

def tcpOf (frame : Bytes × Rat) : Option TcpPacket :=
  if frame.1.length < 14 then none
  else if be16 frame.1 12 ≠ some 0x0800 then none
  else
    match parseIpPacket (frame.1.drop 14) frame.2 with
    | some (.tcp p) => some p
    | _ => none

def packets (b : Batch) : List TcpPacket := b.filterMap tcpOf

/-- Those of one connection. -/
def ownPackets (cid : ConnectionId) (b : Batch) : List TcpPacket :=
  (packets b).filter fun p => p.cid = cid

theorem processPacket_table {e : Env} {s s' : Sensor} {frame : Bytes × Rat}
    (h : processPacket e s frame = some s') :
    s'.table = (tcpOf frame).elim s.table fun p => (processTcp s.table p).1 := by
  unfold processPacket at h
  unfold tcpOf
  by_cases hshort : frame.1.length < 14
  · rw [if_pos hshort] at h ⊢
    cases h
    rfl
  rw [if_neg hshort] at h ⊢
  by_cases hip : be16 frame.1 12 ≠ some 0x0800
  · rw [if_pos hip] at h ⊢
    cases h
    rfl
  rw [if_neg hip] at h ⊢
  unfold processIpPacket at h
  cases hparse : parseIpPacket (frame.1.drop 14) frame.2 with
  | none => rw [hparse] at h; cases h
  | some q =>
    rw [hparse] at h
    cases h
    cases q with
    | udp src dst =>
      show (processUdp s src dst).table = s.table
      unfold processUdp
      split <;> rfl
    | _ => rfl

/-- The loop where no table is iterated in another order. -/
def runPcap (e : Flush.Env) : Sensor → List Batch → Option Sensor
  | s, [] => some (flushSensor e s)
  | s, b :: bs => (dispatch e.toSensor s b).bind fun s' => runPcap e (maintain e.toSensor s') bs

theorem runPcap_run {e : Flush.Env} {s t : Sensor} {bs : List Batch} (h : runPcap e s bs = some t) :
    RunPcap e s bs t := by
  induction bs generalizing s with
  | nil => cases h; exact .eof .refl
  | cons b bs ih =>
    obtain ⟨s', hs', h⟩ := Option.bind_eq_some_iff.1 h
    exact .batch hs' .refl (ih h)

/-- The loop comes to its end. -/
theorem exists_runPcap (e : Flush.Env) (s : Sensor) (bs : List Batch) : ∃ t, RunPcap e s bs t := by
  have hpacket : ∀ s frame, ∃ s', processPacket e.toSensor s frame = some s' := by
    intro s frame
    unfold processPacket processIpPacket
    obtain ⟨q, hq⟩ := L1.IpReads.parseIpPacket_total (frame.1.drop 14) frame.2
    rw [hq]
    split
    · exact ⟨s, rfl⟩
    · split
      · exact ⟨s, rfl⟩
      · exact ⟨_, rfl⟩
  have hdispatch : ∀ (b : Batch) s, ∃ s', dispatch e.toSensor s b = some s' := by
    intro b
    induction b with
    | nil => exact fun s => ⟨s, rfl⟩
    | cons frame b ih =>
      intro s
      obtain ⟨s₁, h₁⟩ := hpacket s frame
      obtain ⟨s₂, h₂⟩ := ih s₁
      exact ⟨s₂, Option.bind_eq_some_iff.2 ⟨s₁, h₁, h₂⟩⟩
  have hloop : ∀ (bs : List Batch) s, ∃ t, runPcap e s bs = some t := by
    intro bs
    induction bs with
    | nil => exact fun s => ⟨_, rfl⟩
    | cons b bs ih =>
      intro s
      obtain ⟨s₁, h₁⟩ := hdispatch b s
      obtain ⟨t, ht⟩ := ih (maintain e.toSensor s₁)
      exact ⟨t, Option.bind_eq_some_iff.2 ⟨s₁, h₁, ht⟩⟩
  obtain ⟨t, ht⟩ := hloop bs s
  exact ⟨t, runPcap_run ht⟩

/-- A packet in an Ethernet frame. -/
def frameOf (p : L1.IpWire.Packet) : Bytes :=
  List.replicate 12 0 ++ (Wire.be16 0x0800 ++ (p.render ++ []))

theorem tcpOf_frameOf (p : L1.IpWire.Packet) (time : Rat) :
    tcpOf (frameOf p, time) = some (p.delivered time) := by
  have htype : be16 (frameOf p) 12 = some (0x0800 : UInt16).toNat := L1.IpWire.be16_of_drop rfl
  have hdrop : (frameOf p).drop 14 = p.render ++ [] := rfl
  have hlen : ¬ (frameOf p).length < 14 := by
    rw [frameOf, List.length_append, List.length_append, List.length_replicate]
    exact Nat.not_lt.2 (Nat.add_le_add_left (Nat.le_add_right 2 _) 12)
  rw [tcpOf, if_neg hlen, htype, if_neg (fun hne => hne rfl), hdrop, L1.IpWire.parse_render]

/-! ## One connection -/

/-- The clocks apart. -/
structure Agrees (o o' : Own) : Prop where
  live : o.live = o'.live
  flows : o.flows = o'.flows

theorem Agrees.receive {o o' : Own} (h : Agrees o o') (p : TcpPacket) :
    Agrees (o.receive p) (o'.receive p) :=
  ⟨by rw [Own.receive, Own.receive, h.live], h.flows⟩

theorem Agrees.erase {o o' : Own} (h : Agrees o o') (cond : ConnectionState → Bool)
    (flow : ConnectionState → Option FlowData) : Agrees (o.erase cond flow)
    (o'.erase cond flow) := by
  unfold Own.erase
  rw [← h.live]
  split
  · exact h
  · exact ⟨rfl, by rw [h.flows]⟩

theorem Agrees.receives {o o' : Own} (h : Agrees o o') (ps : List TcpPacket) :
    Agrees (ps.foldl Own.receive o) (ps.foldl Own.receive o') := by
  induction ps generalizing o o' with
  | nil => exact h
  | cons p ps ih => exact ih (h.receive p)

/-- The packets of a batch and the round behind it. -/
def ownBatch (e : L3.Table.Env) (cid : ConnectionId) (o : Own) (ps : List TcpPacket) : Own :=
  (ps.foldl Own.receive o).complete e cid

/-- A whole file. -/
def ownCapture (e : L3.Table.Env) (cid : ConnectionId) (bs : List (List TcpPacket)) : Own :=
  (bs.foldl (ownBatch e cid) {}).flush e cid

/-- The table holds some of these connections, last seen at such times. -/
structure Within (ids : List ConnectionId) (T : Rat → Prop) (r : Reassembler) : Prop where
  keys : ∀ x ∈ r.connections.entries, x.1 ∈ ids
  times : ∀ x ∈ r.connections.entries, T x.2.lastPacketTime

section Steps

variable {e : Flush.Env} {ids : List ConnectionId} {T : Rat → Prop} {s s' : Sensor}
    {cid : ConnectionId}

theorem Within.mono {r r' : Reassembler} (h : Within ids T r)
    (hsub : ∀ x ∈ r'.connections.entries, x ∈ r.connections.entries) : Within ids T r' :=
  ⟨fun x hx => h.keys x (hsub x hx), fun x hx => h.times x (hsub x hx)⟩

theorem Within.processTcp {r : Reassembler} (h : Within ids T r) {p : TcpPacket} (hp : p.cid ∈ ids)
    (ht : T p.time) : Within ids T (processTcp r p).1 := by
  have hput : ∀ r' : Reassembler, Within ids T r' → ∀ st : ConnectionState,
      st.lastPacketTime = p.time →
        Within ids T { r' with connections := r'.connections.put p.cid st } := by
    intro r' h' st hst
    constructor
    · intro x hx
      rcases UMap.mem_put.1 hx with rfl | ⟨hx, -⟩
      · exact hp
      · exact h'.keys x hx
    · intro x hx
      rcases UMap.mem_put.1 hx with rfl | ⟨hx, -⟩
      · exact hst ▸ ht
      · exact h'.times x hx
  have hroom : Within ids T (makeRoom p.time r) := h.mono fun x hx => mem_of_makeRoom hx
  rcases processTcp_cases r p with ⟨st, -, he⟩ | ⟨-, -, he⟩ | ⟨-, -, he⟩
  · rw [he]; exact hput r h _ rfl
  · rw [he]; exact hroom.mono fun _ hx => hx
  · rw [he]; exact hput _ hroom _ rfl

theorem dispatch_own (hids : ids.length ≤ maxConnections) {b : Batch}
    (h : dispatch e.toSensor s b = some s')
    (hw : Within ids T s.table) (hb : ∀ p ∈ packets b, p.cid ∈ ids ∧ T p.time) :
    Within ids T s'.table ∧
      Own.of cid s'.table = (ownPackets cid b).foldl Own.receive (Own.of cid s.table) := by
  induction b generalizing s with
  | nil => cases h; exact ⟨hw, rfl⟩
  | cons frame b ih =>
    obtain ⟨s₁, h₁, h₂⟩ :=
      Option.bind_eq_some_iff.1 (show (processPacket e.toSensor s frame).bind _ = _ from h)
    have htable := processPacket_table h₁
    rw [packets, List.filterMap_cons] at hb
    rw [ownPackets, packets, List.filterMap_cons]
    cases hframe : tcpOf frame with
    | none =>
      rw [hframe] at htable hb
      have hsame : s₁.table = s.table := htable
      obtain ⟨hw', hown⟩ := ih h₂ (hsame ▸ hw) hb
      exact ⟨hw', by rw [hown, hsame]; rfl⟩
    | some p =>
      rw [hframe] at htable hb
      have hstep : s₁.table = (processTcp s.table p).1 := htable
      obtain ⟨hp, hb⟩ := List.forall_mem_cons.1 hb
      obtain ⟨hw', hown⟩ := ih h₂ (hstep ▸ hw.processTcp hp.1 hp.2) hb
      refine ⟨hw', ?_⟩
      rw [hown, hstep, packet_own fun hnew => room_of_among hids hw.keys hp.1 hnew]
      dsimp only
      by_cases hcid : p.cid = cid
      · rw [if_pos hcid, List.filter_cons_of_pos (by simpa using hcid)]
        rfl
      · rw [if_neg hcid, List.filter_cons_of_neg (by simpa using hcid)]
        rfl

theorem order_own (cid : ConnectionId) (h : Order e s s') (hw : Within ids T s.table) :
    Within ids T s'.table ∧ Own.of cid s'.table = Own.of cid s.table := by
  induction h with
  | refl => exact ⟨hw, rfl⟩
  | tail _ hst ih =>
    obtain ⟨hw₁, hown⟩ := ih
    rcases hst with hst | hst
    · cases hst with
      | table l h =>
        refine ⟨hw₁.mono fun x hx => h.subset hx, hown ▸ ?_⟩
        simp only [Own.of, UMap.find?_reorder]
      | ports ip l h => exact ⟨hw₁, hown⟩
    · obtain ⟨_, _, _, _, rfl⟩ := hst
      exact ⟨hw₁, hown⟩

/-- No eviction: the oldest connection is not idle even by the newest clock. -/
theorem evict_own_of_span {r : Reassembler} (hT : ∀ a b, T a → T b → b - a ≤ connectionTimeout)
    (hw : Within ids T r) {now : Rat} (hnow : T now) :
    Agrees ((Own.of cid r).evict cid now) (Own.of cid r) := by
  unfold Own.evict
  split
  · exact ⟨rfl, rfl⟩
  · unfold Own.erase
    cases hfind : (Own.of cid r).live.filter (isIdle now cid) with
    | none => exact ⟨rfl, rfl⟩
    | some st =>
      obtain ⟨hlive, hidle⟩ := Option.filter_eq_some_iff.1 hfind
      have hlast := hT _ _ (hw.times _ (UMap.find?_eq_some.1 hlive)) hnow
      exact absurd (of_decide_eq_true hidle) (not_lt.2 hlast)

theorem maintain_own (hT : ∀ a b, T a → T b → b - a ≤ connectionTimeout)
    (hw : Within ids T s.table) :
    Within ids T (maintain e.toSensor s).table ∧
      Agrees (Own.of cid (maintain e.toSensor s).table)
        ((Own.of cid s.table).complete e.toSensor.toEnv cid) := by
  have hcomplete : Within ids T (checkCompleteFlows e.toSensor.toEnv s.table) :=
    hw.mono fun x hx => (mem_checkCompleteFlows.1 hx).1
  cases hleft : left e.toSensor s with
  | nil =>
    rw [maintain_of_left_nil hleft]
    exact ⟨hcomplete, by rw [← complete_own]; exact ⟨rfl, rfl⟩⟩
  | cons first rest =>
    rw [(maintain_of_left_cons hleft).1]
    have hfirst : T first.2.lastPacketTime :=
      hcomplete.times first (show first ∈ left e.toSensor s from hleft ▸ List.mem_cons_self)
    refine ⟨hcomplete.mono fun x hx => mem_of_removal (m := .evict _) hx, ?_⟩
    rw [evict_own, ← complete_own]
    exact evict_own_of_span hT hcomplete hfirst

end Steps

theorem runPcap_own {e : Flush.Env} {ids : List ConnectionId} (hids : ids.length ≤ maxConnections)
    {T : Rat → Prop} (hT : ∀ a b, T a → T b → b - a ≤ connectionTimeout) {s t : Sensor}
    {bs : List Batch}
    (h : RunPcap e s bs t) (hw : Within ids T s.table)
    (hbs : ∀ b ∈ bs, ∀ p ∈ packets b, p.cid ∈ ids ∧ T p.time) {cid : ConnectionId} {o : Own}
    (ho : Agrees (Own.of cid s.table) o) :
    (Own.of cid t.table).flows =
      (((bs.map (ownPackets cid)).foldl (ownBatch e.toSensor.toEnv cid) o).flush e.toSensor.toEnv
        cid).flows := by
  induction h generalizing o with
  | eof horder =>
    obtain ⟨-, hown⟩ := order_own cid horder hw
    show (Own.of cid (flushAllFlows e.toSensor.toEnv _)).flows = _
    rw [flush_own, hown]
    exact ((ho.erase _ _).erase _ _).flows
  | @batch s s₁ s₂ t b bs hdispatch horder _ ih =>
    obtain ⟨hb, hbs⟩ := List.forall_mem_cons.1 hbs
    obtain ⟨hw₁, hown₁⟩ := dispatch_own hids hdispatch hw hb
    obtain ⟨hw₂, hown₂⟩ := order_own cid horder hw₁
    obtain ⟨hw₃, hown₃⟩ := maintain_own hT hw₂
    refine ih hw₃ hbs ?_
    rw [hown₂, hown₁] at hown₃
    have hbatch := (ho.receives (ownPackets cid b)).erase (isComplete e.toSensor.toEnv cid)
      fun st => some (makeFlow cid st (mergedPayload st))
    exact ⟨hown₃.live.trans hbatch.live, hown₃.flows.trans hbatch.flows⟩

theorem runPcap_empty {e : Flush.Env} {s t : Sensor} {bs : List Batch} (h : RunPcap e s bs t) :
    t.table.connections.entries = [] := by
  induction h with
  | eof => exact flushAllFlows_entries
  | batch _ _ _ ih => exact ih

/-- The packets of the file are of these connections, and none is more than two
minutes after another. -/
structure Short (ids : List ConnectionId) (bs : List Batch) : Prop where
  room : ids.length ≤ maxConnections
  ids : ∀ b ∈ bs, ∀ p ∈ packets b, p.cid ∈ ids
  span : ∀ b ∈ bs, ∀ p ∈ packets b, ∀ b' ∈ bs, ∀ q ∈ packets b', q.time - p.time ≤ connectionTimeout

theorem Short.flows {e : Flush.Env} {ids : List ConnectionId} {bs : List Batch} (h : Short ids bs)
    {t : Sensor}
    (hrun : RunPcap e {} bs t) (cid : ConnectionId) :
    (t.table.outputQueue.filter fun f => f.id = cid).map untagged =
      (ownCapture e.toSensor.toEnv cid (bs.map (ownPackets cid))).flows := by
  refine runPcap_own h.room (T := fun x => ∃ b ∈ bs, ∃ p ∈ packets b, p.time = x) ?_ hrun
    ⟨nofun, nofun⟩ (fun b hb p hp => ⟨h.ids b hb p hp, b, hb, p, hp, rfl⟩) ⟨rfl, rfl⟩
  rintro _ _ ⟨b, hb, p, hp, rfl⟩ ⟨b', hb', q, hq, rfl⟩
  exact h.span b hb p hp b' hb' q hq

/-- At the end of the file the table is empty, and each connection has emitted
what it would have by itself. -/
theorem connection_alone {e : Flush.Env} {ids : List ConnectionId} {bs : List Batch}
    (h : Short ids bs)
    {t : Sensor} (hrun : RunPcap e {} bs t) :
    t.table.connections.entries = [] ∧
      ∀ cid, (t.table.outputQueue.filter fun f => f.id = cid).map untagged =
        (ownCapture e.toSensor.toEnv cid (bs.map (ownPackets cid))).flows :=
  ⟨runPcap_empty hrun, h.flows hrun⟩

/-! The bounds of a packet with no options in either header. -/

theorem words_le : 5 ≤ 15 := by decide

theorem options_length : 20 + ([] : Bytes).length = 5 * 4 := rfl

theorem reserved_lt : 0 < 16 := by decide

theorem abc_le : 5 * 4 + 5 * 4 + (lit "abc").length ≤ 65535 := by decide

/-- Three bytes on a connection that was open before. -/
def abc : L1.IpWire.Packet where
  ihl := 5
  doff := 5
  saddr := 0x0100000A
  daddr := 0x0200000A
  source := 0x3930
  dest := 0x5000
  seq := 100
  res1 := ⟨0, reserved_lt⟩
  flags := 0x10
  payload := lit "abc"
  ihl_le := words_le
  doff_le := words_le
  ipOptions_length := options_length
  tcpOptions_length := options_length
  total_le := abc_le

/-- Another connection between the same hosts. -/
def abcAgain : L1.IpWire.Packet := { abc with source := 0x3931 }

/-- Two batches of interleaved packets. -/
def interleaved : List Batch :=
  [[(frameOf abc, 0), (frameOf abcAgain, 1)], [(frameOf { abc with seq := 103 }, 119)]]

theorem packets_interleaved : interleaved.map packets =
    [[abc.delivered 0, abcAgain.delivered 1],
      [({ abc with seq := 103 } : L1.IpWire.Packet).delivered 119]] := by
  simp only [interleaved, packets, List.map_cons, List.map_nil, List.filterMap_cons,
    List.filterMap_nil,
    tcpOf_frameOf]

theorem short_interleaved :
    Short [(abc.delivered 0).cid, (abcAgain.delivered 1).cid] interleaved := by
  have hmem : ∀ b ∈ interleaved, ∀ p ∈ packets b, p ∈ [abc.delivered 0, abcAgain.delivered 1,
      ({ abc with seq := 103 } : L1.IpWire.Packet).delivered 119] := by
    intro b hb p hp
    have hflat : p ∈ (interleaved.map packets).flatten :=
      List.mem_flatten.2 ⟨packets b, List.mem_map_of_mem hb, hp⟩
    rwa [packets_interleaved] at hflat
  refine ⟨by decide, fun b hb p hp => ?_, fun b hb p hp b' hb' q hq => ?_⟩
  · have hp := hmem b hb p hp
    simp only [List.mem_cons, List.not_mem_nil, or_false] at hp
    rcases hp with rfl | rfl | rfl <;> decide
  · have hp := hmem b hb p hp
    have hq := hmem b' hb' q hq
    simp only [List.mem_cons, List.not_mem_nil, or_false] at hp hq
    rcases hp with rfl | rfl | rfl <;> rcases hq with rfl | rfl | rfl <;> decide +kernel

theorem connection_alone_interleaved : ∃ t, RunPcap wholeRoots {} interleaved t ∧
    t.table.connections.entries = [] ∧
    ∀ cid, (t.table.outputQueue.filter fun f => f.id = cid).map untagged =
      (ownCapture wholeRoots.toSensor.toEnv cid (interleaved.map (ownPackets cid))).flows := by
  obtain ⟨t, ht⟩ := exists_runPcap wholeRoots {} interleaved
  exact ⟨t, ht, connection_alone short_interleaved ht⟩

/-! ## A connection that stays open -/

theorem run_finReceived (s : ConnectionState) {ps : List TcpPacket}
    (h : ∀ p ∈ ps, p.fin = false ∧ p.rst = false) :
    (s.run ps).finReceived = s.finReceived := by
  induction ps generalizing s with
  | nil => rfl
  | cons p ps ih =>
    obtain ⟨⟨hfin, hrst⟩, hps⟩ := List.forall_mem_cons.1 h
    have hp : (s.receive p).1.finReceived = s.finReceived := by
      simp [ConnectionState.receive, hfin, hrst]
    rw [ConnectionState.run_cons, ih _ hps, hp]

/-- No round completes it, whatever its packets so far. -/
def StaysOpen (e : L3.Table.Env) (cid : ConnectionId) (ps : List TcpPacket) : Prop :=
  ∀ pre, pre <+: ps → isComplete e cid (ConnectionState.run {} pre) = false

theorem staysOpen_of (e : L3.Table.Env) (cid : ConnectionId) {ps : List TcpPacket}
    (hopen : ∀ p ∈ ps, p.fin = false ∧ p.rst = false)
    (hsize : (ConnectionState.run {} ps).payload.length ≤ e.maxFlowPayloadBytes) :
      StaysOpen e cid ps := by
  rintro pre ⟨rest, rfl⟩
  rw [ConnectionState.run_append] at hsize
  have hle := (L2.Base.run_payload (ConnectionState.run {} pre) rest).length_le
  rw [isComplete, run_finReceived _ fun p hp => hopen p (List.mem_append_left _ hp)]
  exact decide_eq_false (Nat.not_lt.2 (hle.trans hsize))

/-- The table's own part for a connection with these packets so far. -/
def started (ps : List TcpPacket) : Own :=
  { live := if ps = [] then none else some (ConnectionState.run {} ps) }

theorem started_receives (pre ps : List TcpPacket) :
    ps.foldl Own.receive (started pre) = started (pre ++ ps) := by
  induction ps generalizing pre with
  | nil => rw [List.append_nil]; rfl
  | cons p ps ih =>
    have hone : (started pre).receive p = started (pre ++ [p]) := by
      have hlive : (started pre).live.getD {} = ConnectionState.run {} pre := by
        unfold started
        split
        · next hnil => rw [hnil]; rfl
        · rfl
      rw [Own.receive, hlive]
      simp [started, ConnectionState.run_append]
    rw [List.foldl_cons, hone, ih, List.append_assoc, List.singleton_append]

theorem started_complete {e : L3.Table.Env} {cid : ConnectionId} {ps : List TcpPacket}
    (h : isComplete e cid (ConnectionState.run {} ps) = false) : (started ps).complete e cid =
      started ps := by
  unfold Own.complete Own.erase started
  by_cases hnil : ps = []
  · simp [hnil]
  · simp [hnil, Option.filter, h]

theorem started_batches {e : L3.Table.Env} {cid : ConnectionId} {bs : List (List TcpPacket)}
    (h : StaysOpen e cid bs.flatten) : bs.foldl (ownBatch e cid) {} = started bs.flatten := by
  induction bs using List.reverseRecOn with
  | nil => rfl
  | append_singleton bs ps ih =>
    rw [List.flatten_append, List.flatten_singleton] at h ⊢
    rw [List.foldl_append, ih fun pre hpre => h pre (hpre.trans (List.prefix_append ..)),
      List.foldl_cons,
      List.foldl_nil, ownBatch, started_receives, started_complete (h _ (List.prefix_refl _))]

/-- Without FIN and RST and within the size limit, a connection with data is
left to the flush. -/
theorem ownCapture_open {e : L3.Table.Env} {cid : ConnectionId} {bs : List (List TcpPacket)}
    (hopen : ∀ p ∈ bs.flatten, p.fin = false ∧ p.rst = false)
    (hdata : (ConnectionState.run {} bs.flatten).payload ≠ [])
    (hsize : (ConnectionState.run {} bs.flatten).payload.length ≤ e.maxFlowPayloadBytes) :
    (ownCapture e cid bs).flows = [makeFlow cid (ConnectionState.run {} bs.flatten)
      (mergedPayload (ConnectionState.run {} bs.flatten))] := by
  have hstays := staysOpen_of e cid hopen hsize
  have hne : bs.flatten ≠ [] := by
    intro hnil
    rw [hnil] at hdata
    exact hdata rfl
  have hlive : (started bs.flatten).live.filter (fun _ => true) =
      some (ConnectionState.run {} bs.flatten) := by simp [started, hne, Option.filter]
  have hflow : Own.flushed cid (ConnectionState.run {} bs.flatten) = some (makeFlow cid
      (ConnectionState.run {} bs.flatten) (mergedPayload (ConnectionState.run {} bs.flatten))) := by
    simp [Own.flushed, hdata]
  rw [ownCapture, started_batches hstays, Own.flush,
    started_complete (hstays _ (List.prefix_refl _)),
    Own.erase, hlive]
  simp only [hflow]
  rfl

/-- Such a connection is emitted once, with what its own packets alone
reassemble to. -/
theorem emitted_whole {e : Flush.Env} {ids : List ConnectionId} {bs : List Batch} (h : Short ids bs)
    {t : Sensor} (hrun : RunPcap e {} bs t) {cid : ConnectionId} {ps : List TcpPacket}
    (hps : bs.flatMap (ownPackets cid) = ps) (hopen : ∀ p ∈ ps, p.fin = false ∧ p.rst = false)
    (hdata : (ConnectionState.run {} ps).payload ≠ [])
    (hsize : (ConnectionState.run {} ps).payload.length ≤ e.maxFlowPayloadBytes) :
    (t.table.outputQueue.filter fun f => f.id = cid).map untagged =
      [makeFlow cid (ConnectionState.run {} ps) (mergedPayload (ConnectionState.run {} ps))] := by
  have hflat : (bs.map (ownPackets cid)).flatten = ps := by rw [← List.flatMap_def, hps]
  subst hflat
  rw [h.flows hrun, ownCapture_open hopen hdata hsize]

theorem emitted_whole_interleaved : ∃ t, RunPcap wholeRoots {} interleaved t ∧
    ((t.table.outputQueue.filter fun f => f.id = (abc.delivered 0).cid).map untagged).map
      FlowData.reassembledPayload = [lit "abcabc"] := by
  obtain ⟨t, ht⟩ := exists_runPcap wholeRoots {} interleaved
  have hps : interleaved.flatMap (ownPackets (abc.delivered 0).cid) =
      [abc.delivered 0, ({ abc with seq := 103 } : L1.IpWire.Packet).delivered 119] := by
    have hown : interleaved.flatMap (ownPackets (abc.delivered 0).cid) =
        (interleaved.map packets).flatMap fun l => l.filter fun p => p.cid =
          (abc.delivered 0).cid := by
      rw [List.flatMap_map]
      rfl
    rw [hown, packets_interleaved]
    rfl
  have hpayload : (ConnectionState.run {} [abc.delivered 0,
      ({ abc with seq := 103 } : L1.IpWire.Packet).delivered 119]).payload =
        lit "abcabc" := by decide
  refine ⟨t, ht, ?_⟩
  rw [emitted_whole short_interleaved ht hps (by decide) (by rw [hpayload]; decide)
    (by rw [hpayload]; decide)]
  decide

end Wirewolf.L5.Capture
