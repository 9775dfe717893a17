import Wirewolf.Core.Bytes

/-!
# The header part of `process_ip_packet`

`parseIpPacket` reads a captured IPv4 packet up to the point where the
connection table is consulted (`src/src/tcp_reassembly.cpp:373-421`). Every
byte is read with a bounds check, and a read past the capture makes the
result `none`. A packet that reaches reassembly is a `TcpPacket`, whose
fields carry what the header arithmetic guarantees: the declared payload
length fits 16 bits, and a captured payload has exactly that length.

Addresses and ports are kept as the code keeps them, the network-order
bytes read as a little-endian integer; `seq` is in host order (`ntohl`).
-/
namespace Wirewolf.L1.IpPacket

/-- mirrors src/include/packet_types.hpp:9-19 -/
structure ConnectionId where
  srcIp : UInt32
  dstIp : UInt32
  srcPort : UInt16
  dstPort : UInt16
  deriving DecidableEq, Repr

/-- A reassembled flow, as it is pushed to the output queue.
mirrors src/include/packet_types.hpp:36-66 -/
structure FlowData where
  id : ConnectionId
  reassembledPayload : Bytes := []
  normalizedPayload : Bytes := []
  protocolTag : Bytes := []
  tlsSni : Bytes := []
  tlsJa3 : Bytes := []
  timestamp : Rat := 0
  interArrivalTime : Rat := 0
  lengthVariance : Rat := 0
  packetCount : Nat := 0
  behavioralSuspect : Bool := false
  deriving DecidableEq

/-- A TCP packet as reassembly sees it. `data` is the payload when it was
captured in full (`payload_captured`). -/
structure TcpPacket where
  cid : ConnectionId
  fin : Bool := false
  syn : Bool := false
  rst : Bool := false
  seq : UInt32
  ttl : UInt8 := 64
  time : Rat := 0
  payloadLen : Nat
  data : Option Bytes
  len_le : payloadLen ≤ 65535
  data_len : ∀ d, data = some d → d.length = payloadLen

namespace TcpPacket

/-- A segment captured in full, without flags. -/
def segment (cid : ConnectionId) (seq : UInt32) (data : Bytes) (h : data.length ≤ 65535) :
    TcpPacket where
  cid := cid
  seq := seq
  payloadLen := data.length
  data := some data
  len_le := h
  data_len := fun _ e => by cases e; rfl

/-- A SYN without payload. -/
def synSegment (cid : ConnectionId) (seq : UInt32) : TcpPacket :=
  { segment cid seq [] (Nat.zero_le _) with syn := true }

theorem fits_two (a b : UInt8) : ([a, b] : Bytes).length ≤ 65535 := by
  simp

/-- A segment of two bytes. -/
def twoBytes (cid : ConnectionId) (seq : UInt32) (a b : UInt8) : TcpPacket :=
  segment cid seq [a, b] (fits_two a b)

end TcpPacket

/-- Where `process_ip_packet` returns before the connection table (with the
source address it reports), or the packet it goes on with. -/
inductive Parsed where
  | short
  | udp (saddr daddr : UInt32)
  | other (saddr : UInt32)
  | tcp (p : TcpPacket)

def be16 (p : Bytes) (i : Nat) : Option Nat := do
  let a ← p[i]?
  let b ← p[i + 1]?
  return a.toNat * 256 + b.toNat

def be32 (p : Bytes) (i : Nat) : Option Nat := do
  let a ← be16 p i
  let b ← be16 p (i + 2)
  return a * 65536 + b

def le16 (p : Bytes) (i : Nat) : Option Nat := do
  let a ← p[i]?
  let b ← p[i + 1]?
  return b.toNat * 256 + a.toNat

def le32 (p : Bytes) (i : Nat) : Option Nat := do
  let a ← le16 p i
  let b ← le16 p (i + 2)
  return b * 65536 + a

theorem be16_lt {p : Bytes} {i n : Nat} (h : be16 p i = some n) : n < 65536 := by
  obtain ⟨a, -, h⟩ := Option.bind_eq_some_iff.1 h
  obtain ⟨b, -, h⟩ := Option.bind_eq_some_iff.1 h
  cases h
  have := a.toNat_lt; have := b.toNat_lt; omega

/-- The packet record, from the lengths the headers declare.
mirrors src/src/tcp_reassembly.cpp:403-421 -/
def tcpPacket (p : Bytes) (time : Rat) (saddr daddr sport dport seq : Nat) (flags ttl : UInt8)
    (totLen headerSizes : Nat) (ht : totLen < 65536) : TcpPacket where
  cid := ⟨.ofNat saddr, .ofNat daddr, .ofNat sport, .ofNat dport⟩
  fin := flags &&& 0x01 != 0
  syn := flags &&& 0x02 != 0
  rst := flags &&& 0x04 != 0
  seq := .ofNat seq
  ttl := ttl
  time := time
  payloadLen := totLen - headerSizes
  data :=
    if headerSizes + (totLen - headerSizes) ≤ p.length then
      some ((p.drop headerSizes).take (totLen - headerSizes))
    else none
  len_le := by omega
  data_len := by
    intro d h
    split at h
    · cases h; rw [List.length_take, List.length_drop]; omega
    · cases h

/-- mirrors src/src/tcp_reassembly.cpp:373-421; `p` is the captured packet
(`len = p.length`). -/
def parseIpPacket (p : Bytes) (time : Rat) : Option Parsed :=
  if p.length < 20 then some .short
  else do
    let protocol ← p[9]?
    let saddr ← le32 p 12
    let daddr ← le32 p 16
    if protocol = 17 then return .udp (.ofNat saddr) (.ofNat daddr)
    if protocol ≠ 6 then return .other (.ofNat saddr)
    let b0 ← p[0]?
    let ipHeaderLen := (b0 &&& 0x0F).toNat * 4
    if ipHeaderLen < 20 ∨ p.length < ipHeaderLen + 20 then return .other (.ofNat saddr)
    let offsetRes ← p[ipHeaderLen + 12]?
    let tcpHeaderLen := ((offsetRes >>> 4) &&& 0x0F).toNat * 4
    if tcpHeaderLen < 20 then return .other (.ofNat saddr)
    match h : be16 p 2 with
    | none => none
    | some totLen =>
      if totLen < ipHeaderLen + tcpHeaderLen then return .other (.ofNat saddr)
      let sport ← le16 p ipHeaderLen
      let dport ← le16 p (ipHeaderLen + 2)
      let seq ← be32 p (ipHeaderLen + 4)
      let flags ← p[ipHeaderLen + 13]?
      let ttl ← p[8]?
      return .tcp (tcpPacket p time saddr daddr sport dport seq flags ttl totLen
        (ipHeaderLen + tcpHeaderLen) (be16_lt h))

/-- What a TCP packet that reaches reassembly was parsed from. -/
theorem parse_eq_tcp {p : Bytes} {time : Rat} {t : TcpPacket}
    (h : parseIpPacket p time = some (.tcp t)) :
    ∃ saddr daddr sport dport seq flags ttl totLen headerSizes, ∃ ht : totLen < 65536,
      be16 p 2 = some totLen ∧ 40 ≤ headerSizes ∧ headerSizes ≤ totLen ∧
        t = tcpPacket p time saddr daddr sport dport seq flags ttl totLen headerSizes ht := by
  unfold parseIpPacket at h
  split at h
  · cases h
  obtain ⟨protocol, -, h⟩ := Option.bind_eq_some_iff.1 h
  obtain ⟨saddr, -, h⟩ := Option.bind_eq_some_iff.1 h
  obtain ⟨daddr, -, h⟩ := Option.bind_eq_some_iff.1 h
  split at h
  · cases h
  split at h
  · cases h
  obtain ⟨b₀, -, h⟩ := Option.bind_eq_some_iff.1 h
  dsimp only at h
  by_cases hihl : (b₀ &&& 0x0F).toNat * 4 < 20 ∨ p.length < (b₀ &&& 0x0F).toNat * 4 + 20
  · rw [if_pos hihl] at h; cases h
  rw [if_neg hihl] at h
  obtain ⟨offsetRes, -, h⟩ := Option.bind_eq_some_iff.1 h
  by_cases hdoff : ((offsetRes >>> 4) &&& 0x0F).toNat * 4 < 20
  · rw [if_pos hdoff] at h; cases h
  rw [if_neg hdoff] at h
  split at h
  case h_1 => cases h
  case h_2 totLen htot =>
    split at h
    · cases h
    next hsizes =>
      obtain ⟨sport, -, h⟩ := Option.bind_eq_some_iff.1 h
      obtain ⟨dport, -, h⟩ := Option.bind_eq_some_iff.1 h
      obtain ⟨seq, -, h⟩ := Option.bind_eq_some_iff.1 h
      obtain ⟨flags, -, h⟩ := Option.bind_eq_some_iff.1 h
      obtain ⟨ttl, -, h⟩ := Option.bind_eq_some_iff.1 h
      cases h
      exact ⟨saddr, daddr, sport, dport, seq, flags, ttl, totLen, _, be16_lt htot, htot,
        by omega, by omega, rfl⟩

end Wirewolf.L1.IpPacket
