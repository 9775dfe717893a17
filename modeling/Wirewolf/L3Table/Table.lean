import Wirewolf.Core.LTS
import Wirewolf.L2Stream.Connection
import Wirewolf.L3Table.Behavior

/-!
# The connection table (`TcpReassembler`)

The table, the packets that fill it and the four loops that remove entries
from it. Every loop is a `UMap.sweep`: a condition on the entry and an
effect on what the loop writes besides the table (`Sinks`: the flows pushed
to the output queue and the behavioral records). Flows are listed in the
order of their `output_queue.push`.

`system` is the step relation: packets and maintenance passes in any order,
and between them any rehash of the table. `Entry` says that every entry of a
reachable table is a run of its connection's own packets, so whatever holds
of `ConnectionState.run` holds of every tracked connection.
-/
namespace Wirewolf.L3.Table

open Wirewolf.L1.IpPacket Wirewolf.L2.Connection Wirewolf.L3.Behavior

/-- mirrors src/include/tcp_reassembly.hpp:206-207,216 -/
def evictionInterval : Rat := 60

def connectionTimeout : Rat := 120

def maxConnections : Nat := 50000

structure Env where
  beh : Behavior.Env
  maxFlowPayloadBytes : Nat

structure Sinks where
  outputQueue : List FlowData := []
  beh : Behavior.State := {}

structure Reassembler extends Sinks where
  connections : UMap ConnectionId ConnectionState := .empty
  shedCount : Nat := 0
  lastEvictionTime : Rat := 0
  lastForceEvictTime : Rat := 0

/-! ## Removal -/

/-- The fields of a pushed flow that every path computes alike.
mirrors src/src/tcp_reassembly.cpp:670-683 -/
def makeFlow (id : ConnectionId) (st : ConnectionState) (payload : Bytes) : FlowData where
  id := id
  reassembledPayload := payload
  timestamp := st.lastPacketTime
  packetCount := st.packetCount
  interArrivalTime := if 1 < st.packetCount then st.interArrivalSum /
    (st.packetCount - 1 : Nat) else 0
  lengthVariance :=
    let meanLen : Rat := st.lengthSum / st.packetCount
    st.lengthSqSum / st.packetCount - meanLen * meanLen

/-- The payload with the remaining out-of-order segments appended in key
order.
mirrors src/src/tcp_reassembly.cpp:662-668 -/
def mergedPayload (st : ConnectionState) : Bytes :=
  st.payload ++ (st.outOfOrderSegments.entries.map Prod.snd).flatten

/-- mirrors src/src/tcp_reassembly.cpp:660-661 -/
def isComplete (e : Env) (_ : ConnectionId) (st : ConnectionState) : Bool :=
  st.finReceived || decide (e.maxFlowPayloadBytes < st.payload.length)

/-- mirrors src/src/tcp_reassembly.cpp:662-704 -/
def completeFlow (e : Env) (s : Sinks) (id : ConnectionId) (st : ConnectionState) : Sinks :=
  let payload := mergedPayload st
  let beh := recordPeers s.beh id payload
  let beh := recordAndScore e.beh beh id st.lengthSum st.lastPacketTime st.interArrivalSum
  let flow := { makeFlow id st payload with behavioralSuspect := isSuspect e.beh beh id }
  { outputQueue := s.outputQueue ++ [flow], beh := beh }

/-- mirrors src/src/tcp_reassembly.cpp:658-709 -/
def checkCompleteFlows (e : Env) (r : Reassembler) : Reassembler :=
  let s := r.connections.sweep (isComplete e) (completeFlow e) r.toSinks
  { r with toSinks := s.1, connections := s.2 }

/-- One connection at the end of the capture; those without payload and with
a single packet are erased without a flow.
mirrors src/src/tcp_reassembly.cpp:1233-1274 -/
def flushFlow (e : Env) (s : Sinks) (id : ConnectionId) (st : ConnectionState) : Sinks :=
  if st.payload.isEmpty && decide (st.packetCount < 2) then s
  else
    let payload := mergedPayload st
    let beh := recordPeers s.beh id payload
    let beh := recordAndScore e.beh beh id st.lengthSum st.lastPacketTime st.interArrivalSum
    { outputQueue := s.outputQueue ++ [makeFlow id st payload], beh := beh }

/-- The beaconing and mass-mailing checks that come first touch neither the
table nor the queue.
mirrors src/src/tcp_reassembly.cpp:1217-1278 -/
def flushAllFlows (e : Env) (r : Reassembler) : Reassembler :=
  let r := checkCompleteFlows e r
  let s := r.connections.sweep (fun _ _ => true) (flushFlow e) r.toSinks
  { r with toSinks := s.1, connections := s.2 }

/-- mirrors src/src/tcp_reassembly.cpp:600 -/
def isIdle (now : Rat) (_ : ConnectionId) (st : ConnectionState) : Bool :=
  decide (connectionTimeout < now - st.lastPacketTime)

/-- mirrors src/src/tcp_reassembly.cpp:601-622 -/
def evictFlow (e : Env) (s : Sinks) (id : ConnectionId) (st : ConnectionState) : Sinks :=
  if st.payload.isEmpty then s
  else
    let flow := { makeFlow id st st.payload with behavioralSuspect := isSuspect e.beh s.beh id }
    { s with outputQueue := s.outputQueue ++ [flow] }

/-- mirrors src/src/tcp_reassembly.cpp:593-626 -/
def evictStaleState (e : Env) (now : Rat) (r : Reassembler) : Reassembler :=
  if now - r.lastEvictionTime < evictionInterval then r
  else
    let s := r.connections.sweep (isIdle now) (evictFlow e) r.toSinks
    { r with toSinks := s.1, connections := s.2, lastEvictionTime := now }

/-- mirrors src/src/tcp_reassembly.cpp:578-581 -/
def isSilent (now : Rat) (_ : ConnectionId) (st : ConnectionState) : Bool :=
  st.payload.isEmpty && decide (5 < now - st.lastPacketTime)

/-- mirrors src/src/tcp_reassembly.cpp:567-591 -/
def forceEvictOldest (now : Rat) (r : Reassembler) : Reassembler :=
  if now - r.lastForceEvictTime < 1 then r
  else
    { r with
      connections := (r.connections.sweep (isSilent now) (fun s _ _ => s) ()).2
      lastForceEvictTime := now }

/-! ## Packets -/

/-- The state-exhaustion guard of a new connection.
mirrors src/src/tcp_reassembly.cpp:438-439 -/
def makeRoom (now : Rat) (r : Reassembler) : Reassembler :=
  if maxConnections ≤ r.connections.size then forceEvictOldest now r else r

/-- The table part of the call: the packet's entry is looked up or created;
with the table full and nothing to evict the packet is shed. The flag is the
"TCP Evasion" verdict.
mirrors src/src/tcp_reassembly.cpp:431-565 -/
def processTcp (r : Reassembler) (p : TcpPacket) : Reassembler × Bool :=
  match r.connections.find? p.cid with
  | some st =>
    let u := st.receive p
    ({ r with connections := r.connections.put p.cid u.1 }, u.2)
  | none =>
    let r := makeRoom p.time r
    if maxConnections ≤ r.connections.size then ({ r with shedCount := r.shedCount + 1 }, false)
    else
      let u := ({} : ConnectionState).receive p
      ({ r with connections := r.connections.put p.cid u.1 }, u.2)

/-- `process_ip_packet` without the anomaly trackers; `none` is a read past
the capture.
mirrors src/src/tcp_reassembly.cpp:373-565 -/
def processIpPacket (r : Reassembler) (packet : Bytes) (time : Rat) : Option (Reassembler × Bool) :=
  (parseIpPacket packet time).map fun
    | .tcp p => processTcp r p
    | _ => (r, false)

/-! ## Runs -/

/-- The removal loops. -/
inductive Removal where
  | complete
  | flush
  | evict (now : Rat)
  | forceEvict (now : Rat)

def Removal.run (e : Env) (r : Reassembler) : Removal → Reassembler
  | .complete => checkCompleteFlows e r
  | .flush => flushAllFlows e r
  | .evict now => evictStaleState e now r
  | .forceEvict now => forceEvictOldest now r

inductive Label where
  | packet (p : TcpPacket)
  | removal (m : Removal)
  | rehash

/-- Packets, removal passes and rehashes of the table, in any order. -/
def Step (e : Env) (r : Reassembler) : Label → Reassembler → Prop
  | .packet p, r' => r' = (processTcp r p).1
  | .removal m, r' => r' = m.run e r
  | .rehash, r' => ∃ l h, r' = { r with connections := r.connections.reorder l h }

def system (e : Env) : LTS Reassembler Label := ⟨(· = {}), Step e⟩

section Removals

variable {e : Env} {r : Reassembler} {x : ConnectionId × ConnectionState}

theorem mem_checkCompleteFlows : x ∈ (checkCompleteFlows e r).connections.entries ↔
    x ∈ r.connections.entries ∧ isComplete e x.1 x.2 = false := UMap.mem_sweep

theorem flushAllFlows_entries : (flushAllFlows e r).connections.entries = [] := by
  refine List.eq_nil_iff_forall_not_mem.2 fun x hx => ?_
  have := (UMap.mem_sweep.1 hx).2
  cases this

theorem mem_evictStaleState {now : Rat} (h : ¬ now - r.lastEvictionTime < evictionInterval) :
    x ∈ (evictStaleState e now r).connections.entries ↔
      x ∈ r.connections.entries ∧ isIdle now x.1 x.2 = false := by
  rw [evictStaleState, if_neg h]; exact UMap.mem_sweep

theorem mem_forceEvictOldest {now : Rat} (h : ¬ now - r.lastForceEvictTime < 1) :
    x ∈ (forceEvictOldest now r).connections.entries ↔
      x ∈ r.connections.entries ∧ isSilent now x.1 x.2 = false := by
  rw [forceEvictOldest, if_neg h]; exact UMap.mem_sweep

theorem mem_of_forceEvict {now : Rat} (h : x ∈ (forceEvictOldest now r).connections.entries) :
    x ∈ r.connections.entries := by
  by_cases hn : now - r.lastForceEvictTime < 1
  · rwa [forceEvictOldest, if_pos hn] at h
  · exact ((mem_forceEvictOldest hn).1 h).1

theorem mem_of_makeRoom {now : Rat} (h : x ∈ (makeRoom now r).connections.entries) :
    x ∈ r.connections.entries := by
  unfold makeRoom at h
  split at h
  · exact mem_of_forceEvict h
  · exact h

/-- A removal pass adds no entry and changes none. -/
theorem mem_of_removal {m : Removal} (h : x ∈ (m.run e r).connections.entries) :
    x ∈ r.connections.entries := by
  cases m with
  | complete => exact (mem_checkCompleteFlows.1 h).1
  | flush =>
    rw [Removal.run, flushAllFlows_entries] at h; cases h
  | evict now =>
    by_cases hn : now - r.lastEvictionTime < evictionInterval
    · rwa [Removal.run, evictStaleState, if_pos hn] at h
    · exact ((mem_evictStaleState hn).1 h).1
  | forceEvict now => exact mem_of_forceEvict h

end Removals

theorem makeRoom_queue (now : Rat) (r : Reassembler) :
    (makeRoom now r).outputQueue = r.outputQueue := by
  unfold makeRoom
  split
  · unfold forceEvictOldest
    split <;> rfl
  · rfl

/-- The packet reaches its entry, is shed, or starts an entry. -/
theorem processTcp_cases (r : Reassembler) (p : TcpPacket) :
    (∃ st, r.connections.find? p.cid = some st ∧
      (processTcp r p).1 = { r with connections := r.connections.put p.cid (st.receive p).1 }) ∨
    (r.connections.find? p.cid = none ∧ maxConnections ≤ (makeRoom p.time r).connections.size ∧
      (processTcp r p).1 =
        { makeRoom p.time r with shedCount := (makeRoom p.time r).shedCount + 1 }) ∨
    (r.connections.find? p.cid = none ∧ (makeRoom p.time r).connections.size < maxConnections ∧
      (processTcp r p).1 =
        { makeRoom p.time r with
          connections :=
            (makeRoom p.time r).connections.put p.cid (({} : ConnectionState).receive p).1 }) := by
  unfold processTcp
  cases hf : r.connections.find? p.cid with
  | some st => exact .inl ⟨st, rfl, rfl⟩
  | none =>
    right
    dsimp only
    by_cases hsize : maxConnections ≤ (makeRoom p.time r).connections.size
    · exact .inl ⟨rfl, hsize, by rw [if_pos hsize]⟩
    · exact .inr ⟨rfl, Nat.lt_of_not_le hsize, by rw [if_neg hsize]⟩

theorem processTcp_queue (r : Reassembler) (p : TcpPacket) :
    (processTcp r p).1.outputQueue = r.outputQueue := by
  rcases processTcp_cases r p with ⟨st, -, he⟩ | ⟨-, -, he⟩ | ⟨-, -, he⟩
  · rw [he]
  · rw [he]; exact makeRoom_queue ..
  · rw [he]; exact makeRoom_queue ..

/-- The entry is a run of its connection's own packets from a fresh state. -/
def Entry (x : ConnectionId × ConnectionState) : Prop :=
  ∃ ps, ps ≠ [] ∧ (∀ p ∈ ps, p.cid = x.1) ∧ x.2 = ConnectionState.run {} ps

theorem entry_first (p : TcpPacket) : Entry (p.cid, (({} : ConnectionState).receive p).1) :=
  ⟨[p], by simp, by simp, rfl⟩

theorem Entry.receive {cid : ConnectionId} {st : ConnectionState} (h : Entry (cid, st))
    {p : TcpPacket} (hp : p.cid = cid) : Entry (cid, (st.receive p).1) := by
  obtain ⟨ps, hne, hcid, rfl⟩ := h
  refine ⟨ps ++ [p], by simp, fun q hq => ?_, by rw [ConnectionState.run_append]; rfl⟩
  rcases List.mem_append.1 hq with hq | hq
  · exact hcid q hq
  · cases List.mem_singleton.1 hq; exact hp

theorem entry_processTcp {r : Reassembler} (h : ∀ x ∈ r.connections.entries, Entry x)
    (p : TcpPacket) : ∀ x ∈ (processTcp r p).1.connections.entries, Entry x := by
  intro x hx
  rcases processTcp_cases r p with ⟨st, hf, he⟩ | ⟨-, -, he⟩ | ⟨-, -, he⟩
  · rw [he] at hx
    rcases UMap.mem_put.1 hx with rfl | ⟨hx, -⟩
    · exact (h _ (UMap.find?_eq_some.1 hf)).receive rfl
    · exact h x hx
  · rw [he] at hx
    exact h x (mem_of_makeRoom hx)
  · rw [he] at hx
    rcases UMap.mem_put.1 hx with rfl | ⟨hx, -⟩
    · exact entry_first p
    · exact h x (mem_of_makeRoom hx)

theorem entry_inductive (e : Env) :
    (system e).Inductive fun r => ∀ x ∈ r.connections.entries, Entry x where
  init := by rintro r rfl x hx; cases hx
  step := by
    intro r l r' h hs
    cases l with
    | packet p => cases hs; exact entry_processTcp h p
    | removal m => cases hs; exact fun x hx => h x (mem_of_removal hx)
    | rehash =>
      obtain ⟨l, hl, rfl⟩ := hs
      exact fun x hx => h x (hl.subset hx)

/-- Every entry of a reachable table is a run of its own packets. -/
theorem entry_reachable {e : Env} {r : Reassembler} (h : (system e).Reachable r) :
    ∀ x ∈ r.connections.entries, Entry x := (entry_inductive e).reachable r h

end Wirewolf.L3.Table
