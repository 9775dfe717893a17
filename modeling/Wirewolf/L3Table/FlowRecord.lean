import Mathlib.Algebra.Order.Ring.Rat
import Mathlib.Tactic.Ring
import Wirewolf.L3Table.Table

/-!
# What the behavioral record says of a connection

`check_complete_flows` and `flush_all_flows` hand a connection over as
`(length_sum, last_packet_time, inter_arrival_sum)`; the record takes them as
total bytes, start time and duration. The trainer reads the three from a
flow row, where the start is the start, and the encoder turns the gaps
between the starts of a 4-tuple's flows into symbols.

* `run_first`: the running sums of a connection telescope.
* `recorded`: one flow is appended to the 4-tuple's list.
* `record_row_iff`: it describes the connection exactly when the last
  packet came at the time of the first.
* `gap_of_ends`: the encoder sees gaps between ends.
-/
namespace Wirewolf.L3.FlowRecord

open Wirewolf.L1.IpPacket Wirewolf.L2.Connection Wirewolf.L3.Table
open Wirewolf.L3.Behavior (behKey recordAndScore recordPeers inScope maxBehConns BehConn)

/-! ## The encoder -/

/-- mirrors src/include/behavioral_model.hpp:42-51 -/
structure BehavioralConfig where
  byteBuckets : List Nat := [128, 1024, 8192, 65536]
  durBuckets : List Rat := [1, 10]
  gapBuckets : List Rat := [2, 60, 3600]

/-- mirrors src/src/behavioral_model.cpp:13-18 -/
def bucketOf {α : Type} [LT α] [DecidableLT α] (v : α) (bounds : List α) : Nat :=
  bounds.findIdx (v < ·)

def symbols : Bytes := lit ".-+*#%@"

/-- mirrors src/src/behavioral_model.cpp:48-52 -/
def letter (cfg : BehavioralConfig) (f : Behavior.Flow) : UInt8 :=
  .ofNat (0x61 + (bucketOf f.totBytes cfg.byteBuckets * (cfg.durBuckets.length + 1) +
    bucketOf f.duration cfg.durBuckets))

/-- The gap to the flow before it.
mirrors src/src/behavioral_model.cpp:59-60 -/
def gap (prevStart : Rat) (f : Behavior.Flow) : Rat := max 0 (f.startTime - prevStart)

/-- mirrors src/src/behavioral_model.cpp:54-64 -/
def symbol (cfg : BehavioralConfig) (prevStart : Option Rat) (f : Behavior.Flow) : UInt8 :=
  let symIdx :=
    match prevStart with
    | none => 0
    | some prev => 1 + bucketOf (gap prev f) cfg.gapBuckets
  symbols.getD (min symIdx (symbols.length - 1)) 0

/-- mirrors src/src/behavioral_model.cpp:46-69 -/
def encodeFlows (cfg : BehavioralConfig) : Option Rat → List Behavior.Flow → Bytes
  | _, [] => []
  | prevStart, f :: l =>
    letter cfg f :: symbol cfg prevStart f :: encodeFlows cfg (some f.startTime) l

/-- The sort leaves the order of equal starts open; here it is the order of
recording.
mirrors src/src/behavioral_model.cpp:33-71 -/
def encodeConnection (flows : List Behavior.Flow) (cfg : BehavioralConfig) : Bytes :=
  if flows.length < 2 then []
  else encodeFlows cfg none (flows.mergeSort fun a b => a.startTime ≤ b.startTime)

/-- Flows recorded in the order of their starts are encoded as they come. -/
theorem encodeConnection_sorted {flows : List Behavior.Flow} (cfg : BehavioralConfig)
    (hlen : 2 ≤ flows.length) (hs : flows.Pairwise fun a b => a.startTime ≤ b.startTime) :
    encodeConnection flows cfg = encodeFlows cfg none flows := by
  rw [encodeConnection, if_neg (Nat.not_lt.2 hlen), List.mergeSort_of_pairwise]
  exact hs.imp decide_eq_true

/-! ## What a connection's statistics are -/

def firstTime (ps : List TcpPacket) : Rat := (ps.head?.map TcpPacket.time).getD 0

def lastTime (ps : List TcpPacket) : Rat := (ps.getLast?.map TcpPacket.time).getD 0

def payloadBytes (ps : List TcpPacket) : Nat := (ps.map TcpPacket.payloadLen).sum

/-- The flow as the trainer reads it from a row: start, duration, bytes. -/
def row (ps : List TcpPacket) : Behavior.Flow :=
  ⟨firstTime ps, lastTime ps - firstTime ps, payloadBytes ps⟩

theorem run_sums {s : ConnectionState} (h : 0 < s.packetCount) (ps : List TcpPacket) :
    (s.run ps).lastPacketTime = ((ps.getLast?.map TcpPacket.time).getD s.lastPacketTime) ∧
      (s.run ps).interArrivalSum =
        s.interArrivalSum + ((s.run ps).lastPacketTime - s.lastPacketTime) ∧
      (s.run ps).lengthSum = s.lengthSum + payloadBytes ps := by
  induction ps generalizing s with
  | nil => exact ⟨rfl, by simp, rfl⟩
  | cons p ps ih =>
    obtain ⟨hlast, hsum, hlen⟩ := ih (s := (s.receive p).1) (Nat.succ_pos _)
    have harrive : (s.receive p).1.interArrivalSum =
        s.interArrivalSum + (p.time - s.lastPacketTime) := if_pos h
    rw [ConnectionState.run_cons]
    refine ⟨?_, ?_, ?_⟩
    · rw [hlast, List.getLast?_cons]
      cases ps.getLast? <;> rfl
    · have htime : (s.receive p).1.lastPacketTime = p.time := rfl
      rw [hsum, harrive, htime]
      ring
    · rw [hlen]
      exact Nat.add_assoc ..

/-- The inter-arrival times of a connection add up to the time from its first
packet to its last. -/
theorem run_first {ps : List TcpPacket} (hne : ps ≠ []) :
    (ConnectionState.run {} ps).lastPacketTime = lastTime ps ∧
      (ConnectionState.run {} ps).interArrivalSum = lastTime ps - firstTime ps ∧
      (ConnectionState.run {} ps).lengthSum = payloadBytes ps := by
  obtain ⟨p, rest, rfl⟩ := List.exists_cons_of_ne_nil hne
  obtain ⟨hlast, hsum, hlen⟩ :=
    run_sums (s := (({} : ConnectionState).receive p).1) (Nat.succ_pos _) rest
  have hend : (ConnectionState.run {} (p :: rest)).lastPacketTime = lastTime (p :: rest) := by
    rw [ConnectionState.run_cons, hlast, lastTime, List.getLast?_cons]
    cases rest.getLast? <;> rfl
  refine ⟨hend, ?_, ?_⟩
  · rw [← hend, ConnectionState.run_cons, hsum]
    show 0 + _ = _
    rw [zero_add]; rfl
  · rw [ConnectionState.run_cons, hlen]
    show 0 + p.payloadLen + payloadBytes rest = p.payloadLen + payloadBytes rest
    rw [Nat.zero_add]

/-! ## The record -/

/-- The two loops that score what they emit. -/
inductive Handover where
  | complete
  | flush

def Handover.effect (e : Env) : Handover → Sinks → ConnectionId → ConnectionState → Sinks
  | .complete => completeFlow e
  | .flush => flushFlow e

/-- The loop hands the connection over, and the recording takes it: flows are
scored or exported, and this one is in scope. -/
structure Taken (e : Env) (s : Sinks) (h : Handover) (id : ConnectionId) (st : ConnectionState) :
    Prop where
  on : e.beh.behavioralReady = true ∨ e.beh.behExport = true
  scope : inScope e.beh (recordPeers s.beh id (mergedPayload st)) id = true
  kept : h = .flush → (st.payload.isEmpty && decide (st.packetCount < 2)) = false

/-- The flows that the 4-tuple has before the recording. -/
def earlier (e : Env) (b : Behavior.State) (id : ConnectionId) : List Behavior.Flow :=
  (((if maxBehConns < b.behConns.size then .empty else b.behConns).find? (behKey e.beh id)).getD
    {}).flows

/-- A recording appends its flow to those of the 4-tuple. -/
theorem recorded (e : Env) (b : Behavior.State) (id : ConnectionId) (totBytes : Nat)
    (startTime duration : Rat) (hon : e.beh.behavioralReady = true ∨ e.beh.behExport = true)
    (hscope : inScope e.beh b id = true) :
    ((recordAndScore e.beh b id totBytes startTime duration).behConns.find? (behKey e.beh id)).map
      BehConn.flows = some (earlier e b id ++ [⟨startTime, duration, totBytes⟩]) := by
  have hoff : ¬ (!e.beh.behavioralReady && !e.beh.behExport) = true := by
    rcases hon with h | h <;> simp [h]
  have hconns : (recordAndScore e.beh b id totBytes startTime duration).behConns =
      (if maxBehConns < b.behConns.size then .empty else b.behConns).put (behKey e.beh id)
        ⟨id.srcIp, id.dstIp, id.dstPort, earlier e b id ++ [⟨startTime, duration, totBytes⟩]⟩ := by
    unfold recordAndScore
    rw [if_neg hoff, if_neg (by simp [hscope])]
    -- what comes after the recording leaves the connections alone
    simp only [apply_ite Behavior.State.behConns, ite_self]
    rfl
  rw [hconns, UMap.find?_put_self]
  rfl

theorem earlier_recordPeers (e : Env) (b : Behavior.State) (id : ConnectionId) (payload : Bytes) :
    earlier e (recordPeers b id payload) id = earlier e b id := by
  unfold recordPeers
  split <;> rfl

theorem handover_records {e : Env} {s : Sinks} {h : Handover} {id : ConnectionId}
    {st : ConnectionState} (ht : Taken e s h id st) :
    ((h.effect e s id st).beh.behConns.find? (behKey e.beh id)).map BehConn.flows =
      some (earlier e s.beh id ++ [⟨st.lastPacketTime, st.interArrivalSum, st.lengthSum⟩]) := by
  have hrec := recorded e (recordPeers s.beh id (mergedPayload st)) id st.lengthSum
    st.lastPacketTime st.interArrivalSum ht.on ht.scope
  rw [earlier_recordPeers] at hrec
  cases h with
  | complete => exact hrec
  | flush =>
    have hkept : ¬ (st.payload.isEmpty && decide (st.packetCount < 2)) = true := by
      rw [ht.kept rfl]; exact Bool.false_ne_true
    show (Option.map _ (UMap.find? (flushFlow e s id st).beh.behConns _)) = _
    rw [flushFlow, if_neg hkept]
    exact hrec

/-- Whatever the packets of the connection: the recorded flow is the one the
trainer reads exactly when the last packet came at the time of the first. -/
theorem record_row_iff (e : Env) (s : Sinks) (h : Handover) (id : ConnectionId)
    (ps : List TcpPacket) (hne : ps ≠ []) (ht : Taken e s h id (ConnectionState.run {} ps)) :
    ∃ f, ((h.effect e s id (ConnectionState.run {} ps)).beh.behConns.find? (behKey e.beh id)).map
        BehConn.flows = some (earlier e s.beh id ++ [f]) ∧
      (f = row ps ↔ firstTime ps = lastTime ps) := by
  obtain ⟨hlast, hsum, hlen⟩ := run_first hne
  refine ⟨_, handover_records ht, ?_⟩
  rw [hlast, hsum, hlen, row, Behavior.Flow.mk.injEq]
  constructor
  · exact fun heq => heq.1.symm
  · exact fun heq => ⟨heq.symm, rfl, rfl⟩

/-- Between the records of two connections the encoder sees the gap between
their ends. -/
theorem gap_of_ends {ps qs : List TcpPacket} (hp : ps ≠ []) (hq : qs ≠ []) (d : Rat) (n : Nat) :
    gap (ConnectionState.run {} ps).lastPacketTime
        ⟨(ConnectionState.run {} qs).lastPacketTime, d, n⟩ =
      max 0 (lastTime qs - lastTime ps) := by
  rw [gap, (run_first hp).1, (run_first hq).1]

/-! ## Inputs -/

deriving instance DecidableEq for Behavior.Flow

/-- A forensic capture with models. -/
def forensicEnv : Env := ⟨⟨true, false, true, 4, id, fun _ => false, fun _ => false⟩, 1048576⟩

def bytesAt (port : UInt16) (seq : UInt32) (time : Rat) : TcpPacket :=
  { TcpPacket.segment ⟨1, 2, port, 4⟩ seq [0x41] (by decide) with time := time }

/-- A connection of 100 seconds, and one a second after its end. -/
def long : List TcpPacket := [bytesAt 5 100 0, bytesAt 5 101 100]

def short : List TcpPacket := [bytesAt 6 100 101]

/-- The flows recorded of both. -/
def records : List Behavior.Flow :=
  let s := completeFlow forensicEnv {} ⟨1, 2, 5, 4⟩ (ConnectionState.run {} long)
  let s := completeFlow forensicEnv s ⟨1, 2, 6, 4⟩ (ConnectionState.run {} short)
  ((s.beh.behConns.find? (behKey forensicEnv.beh ⟨1, 2, 6, 4⟩)).map BehConn.flows).getD []

/-- The long connection is recorded as starting at its end, and the gap of
101 seconds between the two starts becomes one of a second. -/
theorem record_starts_at_end :
    records = [⟨100, 100, 2⟩, ⟨101, 0, 1⟩] ∧ [row long, row short] = [⟨0, 100, 2⟩, ⟨101, 0, 1⟩] ∧
      encodeConnection records {} ≠ encodeConnection [row long, row short] {} := by
  have hrecords : records = [⟨100, 100, 2⟩, ⟨101, 0, 1⟩] := by decide +kernel
  have hrows : [row long, row short] = [⟨0, 100, 2⟩, ⟨101, 0, 1⟩] := by decide +kernel
  refine ⟨hrecords, hrows, ?_⟩
  rw [hrecords, hrows, encodeConnection_sorted _ (by decide) (by decide),
    encodeConnection_sorted _ (by decide) (by decide)]
  decide +kernel

/-- A connection of two packets at one time. -/
def instant : List TcpPacket := [bytesAt 6 100 101, bytesAt 6 101 101]

theorem record_row_instant :
    ∃ f, (((Handover.complete).effect forensicEnv {} ⟨1, 2, 6, 4⟩
        (ConnectionState.run {} instant)).beh.behConns.find?
          (behKey forensicEnv.beh ⟨1, 2, 6, 4⟩)).map
        BehConn.flows = some (earlier forensicEnv {} ⟨1, 2, 6, 4⟩ ++ [f]) ∧
      (f = row instant ↔ firstTime instant = lastTime instant) :=
  record_row_iff forensicEnv {} .complete ⟨1, 2, 6, 4⟩ instant (by simp [instant])
    ⟨.inl rfl, by decide, fun h => by cases h⟩

end Wirewolf.L3.FlowRecord
