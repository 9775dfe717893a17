import Wirewolf.L1Encoding.IpReads
import Wirewolf.L1Encoding.IpWire
import Wirewolf.L3Table.Splitting

/-!
# From the captured bytes to the stream

What a packet on the wire does to the table: `reassemble` is what
`process_ip_packet` does with the bytes behind its payload gate, and
`NoNewBytes` says that a call has put no byte anywhere.

* `processIpPacket_render`: of a packet captured in full exactly the payload
  is reassembled, or nothing, of a SYN and of a packet that the full table
  sheds.
* `processIpPacket_cut`: a packet that was cut leaves no bytes.
* `payload_exact`: both, and that nothing is read behind the capture.
-/
namespace Wirewolf.L3.PayloadGate

open Wirewolf.L1.IpPacket Wirewolf.L1.IpReads Wirewolf.L1.IpWire
open Wirewolf.L2.Connection Wirewolf.L3.Table
open Wirewolf.L3.Splitting (current current_own Room)

/-- What the call does with the bytes behind the payload gate.
mirrors src/src/tcp_reassembly.cpp:466-559 -/
def reassemble (s : StreamState) (seq : UInt32) : Bytes → StreamState × Bool
  | [] => (s, false)
  | data =>
    let s := s.baseline seq
    if s.conflicts seq data then (s, true) else (s.place seq data, false)

/-- The packet starts a connection for which the table has no room.
mirrors src/src/tcp_reassembly.cpp:431-443 -/
def Shed (r : Reassembler) (p : TcpPacket) : Prop :=
  r.connections.find? p.cid = none ∧ maxConnections ≤ (makeRoom p.time r).connections.size

/-- Whatever an entry holds it held before. -/
def NoNewBytes (r r' : Reassembler) : Prop :=
  ∀ cid st', r'.connections.find? cid = some st' →
    (st'.payload = [] ∧ st'.outOfOrderSegments = .empty) ∨
      ∃ st, r.connections.find? cid = some st ∧ st'.payload = st.payload ∧
        st'.outOfOrderSegments = st.outOfOrderSegments

section

variable {r : Reassembler} {p : TcpPacket}

theorem receive_eq_reassemble (s : StreamState) (hs : p.syn = false) {data : Bytes}
    (hd : p.data = some data) : s.receive p = reassemble s p.seq data := by
  rw [StreamState.receive, hs, if_neg Bool.false_ne_true, hd]
  cases data <;> rfl

/-- A SYN and a packet without payload bytes leave the stream's bytes alone. -/
theorem receive_keeps (s : StreamState) (h : p.syn = true ∨ p.data = none) :
    (s.receive p).1.payload = s.payload ∧
      (s.receive p).1.outOfOrderSegments = s.outOfOrderSegments := by
  unfold StreamState.receive
  split
  · exact ⟨rfl, rfl⟩
  next hsyn =>
    rw [h.resolve_left hsyn]
    exact ⟨rfl, rfl⟩

theorem room_of_not_shed (h : ¬Shed r p) : Room p.cid r p := by
  intro hf
  refine ⟨?_, fun _ => Nat.lt_of_not_le fun hsize => h ⟨hf, hsize⟩⟩
  rw [hf, Option.eq_none_iff_forall_ne_some]
  intro st hst
  rw [UMap.find?_eq_some.2 (mem_of_makeRoom (UMap.find?_eq_some.1 hst))] at hf
  cases hf

theorem noNewBytes_refl (r : Reassembler) : NoNewBytes r r :=
  fun _ st' h => .inr ⟨st', h, rfl, rfl⟩

theorem noNewBytes_makeRoom (now : Rat) : NoNewBytes r (makeRoom now r) := by
  intro cid st' h
  exact .inr ⟨st', UMap.find?_eq_some.2 (mem_of_makeRoom (UMap.find?_eq_some.1 h)), rfl, rfl⟩

theorem noNewBytes_put {r' : Reassembler} (h : NoNewBytes r r') {cid : ConnectionId}
    {st : ConnectionState}
    (hput : (st.payload = [] ∧ st.outOfOrderSegments = .empty) ∨
      ∃ old, r.connections.find? cid = some old ∧ st.payload = old.payload ∧
        st.outOfOrderSegments = old.outOfOrderSegments) :
    NoNewBytes r { r' with connections := r'.connections.put cid st } := by
  intro c st' hst'
  by_cases hc : c = cid
  · subst hc
    obtain rfl : st = st' := by
      rw [UMap.find?_put_self] at hst'
      exact Option.some.inj hst'
    exact hput
  · rw [UMap.find?_put_of_ne _ _ hc] at hst'
    exact h c st' hst'

theorem noNewBytes_processTcp (h : p.syn = true ∨ p.data = none ∨ Shed r p) :
    NoNewBytes r (processTcp r p).1 := by
  rcases processTcp_cases r p with ⟨st, hf, he⟩ | ⟨-, -, he⟩ | ⟨-, hsize, he⟩
  · have hkeep := receive_keeps st.toStreamState (h.imp_right fun h => h.resolve_right fun hs => by
      rw [hs.1] at hf; cases hf)
    rw [he]
    exact noNewBytes_put (noNewBytes_refl r) (.inr ⟨st, hf, hkeep⟩)
  · rw [he]
    exact noNewBytes_makeRoom _
  · have hkeep := receive_keeps ({} : ConnectionState).toStreamState (h.imp_right fun h =>
      h.resolve_right fun hs => Nat.not_le.2 hsize hs.2)
    rw [he]
    exact noNewBytes_put (noNewBytes_makeRoom _) (.inl hkeep)

theorem reassembled_processTcp (hsyn : p.syn = false) (hroom : ¬Shed r p) {data : Bytes}
    (hd : p.data = some data) :
    ((current p.cid (processTcp r p).1).toStreamState, (processTcp r p).2) =
      reassemble (current p.cid r).toStreamState p.seq data := by
  rw [current_own rfl (room_of_not_shed hroom), ← receive_eq_reassemble _ hsyn hd]
  refine Prod.ext rfl ?_
  unfold processTcp current
  cases hf : r.connections.find? p.cid with
  | some st => rfl
  | none =>
    have hsize : ¬maxConnections ≤ (makeRoom p.time r).connections.size := fun h => hroom ⟨hf, h⟩
    simp only [if_neg hsize]
    rfl

end

/-! ## The wire -/

/-- Of a packet captured in full exactly the payload is reassembled; a SYN and
a shed packet leave nothing. -/
theorem processIpPacket_render (r : Reassembler) (p : Packet) (padding : Bytes) (time : Rat) :
    ∃ r' flag, processIpPacket r (p.render ++ padding) time = some (r', flag) ∧
      ((p.delivered time).syn = true ∨ Shed r (p.delivered time) → NoNewBytes r r') ∧
      ((p.delivered time).syn = false → ¬Shed r (p.delivered time) →
        ((current (p.delivered time).cid r').toStreamState, flag) =
          reassemble (current (p.delivered time).cid r).toStreamState p.seq p.payload) := by
  refine ⟨_, _, by rw [processIpPacket, parse_render]; rfl, fun h => ?_, fun hsyn hroom => ?_⟩
  · exact noNewBytes_processTcp (h.imp_right .inr)
  · exact reassembled_processTcp hsyn hroom rfl

/-- A packet that was cut puts no byte anywhere, whatever is left of it. -/
theorem processIpPacket_cut (r : Reassembler) (p : Packet) (n : Nat) (hn : n < p.render.length)
    (time : Rat) : ∃ r' flag, processIpPacket r (p.render.take n) time = some (r', flag) ∧
      NoNewBytes r r' := by
  obtain ⟨x, hx⟩ := parseIpPacket_total (p.render.take n) time
  cases x with
  | tcp t =>
    refine ⟨_, _, by rw [processIpPacket, hx]; rfl, ?_⟩
    exact noNewBytes_processTcp (.inr (.inl (parse_cut p n hn time t hx)))
  | short => exact ⟨r, false, by rw [processIpPacket, hx]; rfl, noNewBytes_refl r⟩
  | udp => exact ⟨r, false, by rw [processIpPacket, hx]; rfl, noNewBytes_refl r⟩
  | other => exact ⟨r, false, by rw [processIpPacket, hx]; rfl, noNewBytes_refl r⟩

/-- Nothing is read behind the capture; of a packet captured in full exactly
the payload is reassembled, unless it is a SYN or is shed; of a packet that
was cut, nothing. -/
theorem payload_exact (mem : Nat → UInt8) (len : Nat) (time : Rat) (r : Reassembler) (p : Packet)
    (padding macs : Bytes) (hmacs : macs.length = 12) (n : Nat) (hn : n < p.render.length) :
    (Reading.Within len (readIpPacket mem len time) ∧ Reading.Within len (readFrame mem len time) ∧
      parseIpPacket (captured mem len) time = some (readIpPacket mem len time).value) ∧
    (readFrame ((macs ++ 0x08 :: 0x00 :: (p.render ++ padding)).getD · 0)
      (14 + (p.render ++ padding).length) time).value = some (.tcp (p.delivered time)) ∧
    (∃ r' flag, processIpPacket r (p.render ++ padding) time = some (r', flag) ∧
      ((p.delivered time).syn = true ∨ Shed r (p.delivered time) → NoNewBytes r r') ∧
      ((p.delivered time).syn = false → ¬Shed r (p.delivered time) →
        ((current (p.delivered time).cid r').toStreamState, flag) =
          reassemble (current (p.delivered time).cid r).toStreamState p.seq p.payload)) ∧
    ∃ r' flag, processIpPacket r (p.render.take n) time = some (r', flag) ∧ NoNewBytes r r' := by
  refine ⟨⟨within_readIpPacket mem len time, within_readFrame mem len time,
    readIpPacket_value mem len time⟩, ?_, processIpPacket_render r p padding time,
    processIpPacket_cut r p n hn time⟩
  rw [readFrame_value macs _ hmacs, parse_render]

/-- Three bytes on a connection, behind a longest IP header. -/
def threeBytes : Packet where
  ihl := 15
  doff := 5
  saddr := 0x0100000A
  daddr := 0x0200000A
  ipOptions := List.replicate 40 1
  source := 0x3930
  dest := 0x5000
  seq := 100
  flags := 0x10
  payload := lit "abc"
  ihl_le := by decide
  doff_le := by decide
  ipOptions_length := by decide
  tcpOptions_length := by decide
  total_le := by decide

theorem payload_exact_three :
    (∃ r' flag, processIpPacket {} (threeBytes.render ++ [0, 0, 0]) 0 = some (r', flag) ∧
      ((current (threeBytes.delivered 0).cid r').toStreamState, flag) =
        reassemble {} 100 (lit "abc")) ∧
    ∃ r' flag, processIpPacket {} (threeBytes.render.take 82) 0 = some (r', flag) ∧
      NoNewBytes {} r' := by
  obtain ⟨-, -, ⟨r', flag, hrun, -, hexact⟩, hcut⟩ := payload_exact (fun _ => 0) 0 0 {} threeBytes
    [0, 0, 0] (List.replicate 12 0) rfl 82 (by decide)
  exact ⟨⟨r', flag, hrun, hexact rfl fun h => absurd h.2 (by decide)⟩, hcut⟩

/-- A SYN that carries a byte. -/
def synWithByte : Packet :=
  { threeBytes with flags := 0x02, payload := lit "a", total_le := by decide }

theorem syn_payload_dropped : (synWithByte.delivered 0).data = some (lit "a") ∧
    ∃ r', processIpPacket {} synWithByte.render 0 = some (r', false) ∧
      (current (synWithByte.delivered 0).cid r').payload = [] ∧
      (current (synWithByte.delivered 0).cid r').outOfOrderSegments.entries = [] ∧
      (reassemble {} synWithByte.seq synWithByte.payload).1.payload = lit "a" := by
  refine ⟨rfl, (processTcp {} (synWithByte.delivered 0)).1, ?_, ?_⟩
  · rw [processIpPacket, ← List.append_nil synWithByte.render, parse_render]
    rfl
  · decide +kernel

end Wirewolf.L3.PayloadGate
