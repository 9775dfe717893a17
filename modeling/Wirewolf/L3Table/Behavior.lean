import Wirewolf.Core.UMap
import Wirewolf.L1Encoding.IpPacket

/-!
# Behavioral records (`record_and_score_behavioral`)

Each completed connection is recorded as a flow under its 4-tuple
(`beh_key`); once the models clear the threshold the 4-tuple becomes
suspicious, and its flows are tagged. The Markov score itself is floating
point: whether a list of flows clears the threshold is the field `suspects`
of the environment, next to the proxy database lookup (`flagged`) and the
hash function of the standard library (`hash64`).
-/
namespace Wirewolf.L3.Behavior

open Wirewolf.L1.IpPacket

/-- mirrors src/include/behavioral_model.hpp:34-38 -/
structure Flow where
  startTime : Rat
  duration : Rat
  totBytes : Nat

/-- mirrors src/include/tcp_reassembly.hpp:187-192 -/
structure BehConn where
  src : UInt32 := 0
  dst : UInt32 := 0
  dport : UInt16 := 0
  flows : List Flow := []

/-- What the recording reads from the configuration, the models and the
proxy database. -/
structure Env where
  behavioralReady : Bool
  behExport : Bool
  forensic : Bool
  minFlows : Nat
  hash64 : UInt64 → UInt64
  flagged : UInt32 → Bool
  suspects : List Flow → Bool

/-- mirrors src/include/tcp_reassembly.hpp:193-201 -/
structure State where
  behConns : UMap UInt64 BehConn := .empty
  behAlerted : List UInt64 := []
  behSuspicious : List UInt64 := []
  p2pPeers : List UInt32 := []

/-- mirrors src/include/tcp_reassembly.hpp:202 -/
def maxBehConns : Nat := 100000

/-- mirrors src/src/tcp_reassembly.cpp:1391-1401 -/
def behKey (e : Env) (id : ConnectionId) : UInt64 :=
  let mix (key v : UInt64) : UInt64 :=
    key ^^^ (e.hash64 v + 0x9e3779b97f4a7c15 + (key <<< (6 : UInt64)) + (key >>> (2 : UInt64)))
  mix (mix (mix 0 id.srcIp.toUInt64) id.dstIp.toUInt64) id.dstPort.toUInt64

/-- The address as its four bytes in network order. -/
def octets (ip : UInt32) : UInt8 × UInt8 × UInt8 × UInt8 :=
  (ip.toUInt8, (ip >>> 8).toUInt8, (ip >>> 16).toUInt8, (ip >>> 24).toUInt8)

/-- mirrors src/src/tcp_reassembly.cpp:1319-1324 -/
def isPrivate (ip : UInt32) : Bool :=
  let b := octets ip
  b.1 == 10 || b.1 == 127 || b.1 == 0 || (b.1 == 172 && (b.2.1 &&& 0xF0) == 16) ||
    (b.1 == 192 && b.2.1 == 168) || (b.1 == 169 && b.2.1 == 254)

def ntohs (p : UInt16) : UInt16 := (p <<< 8) ||| (p >>> 8)

/-- Live scoring skips connections that are not LAN to external, BitTorrent
peers and unflagged web traffic.
mirrors src/src/tcp_reassembly.cpp:1318-1344 -/
def inScope (e : Env) (b : State) (id : ConnectionId) : Bool :=
  if !e.behExport && !e.forensic then
    if !(isPrivate id.srcIp && !isPrivate id.dstIp) then false
    else if b.p2pPeers.contains id.dstIp || b.p2pPeers.contains id.srcIp then false
    else
      let dport := ntohs id.dstPort
      if dport == 80 || dport == 443 || dport == 53 then e.flagged id.dstIp else true
  else true

/-- mirrors src/src/tcp_reassembly.cpp:1298-1389 -/
def recordAndScore (e : Env) (b : State) (id : ConnectionId) (totBytes : Nat)
    (startTime duration : Rat) : State :=
  if !e.behavioralReady && !e.behExport then b
  else if !inScope e b id then b
  else
    let key := behKey e id
    let conns := if maxBehConns < b.behConns.size then .empty else b.behConns
    let flows := ((conns.find? key).getD {}).flows ++ [⟨startTime, duration, totBytes⟩]
    let b := { b with behConns := conns.put key ⟨id.srcIp, id.dstIp, id.dstPort, flows⟩ }
    if e.behExport then b
    else if flows.length < e.minFlows then b
    else if b.behAlerted.contains key then b
    else if !e.suspects flows then b
    else { b with behAlerted := key :: b.behAlerted, behSuspicious := key :: b.behSuspicious }

/-- mirrors src/src/tcp_reassembly.cpp:1288-1296 -/
def looksLikeBittorrent (p : Bytes) : Bool :=
  let head := p.take 128
  !p.isEmpty && (Search.containsSub head (lit "BitTorrent protocol") ||
    Search.containsSub head (lit "info_hash=") || Search.containsSub head (lit "d1:ad2:id20:"))

/-- Endpoints of a BitTorrent flow are remembered.
mirrors src/src/tcp_reassembly.cpp:691-694 -/
def recordPeers (b : State) (id : ConnectionId) (payload : Bytes) : State :=
  if looksLikeBittorrent payload then
    { b with p2pPeers := id.dstIp :: id.srcIp :: b.p2pPeers }
  else b

/-- mirrors src/src/tcp_reassembly.cpp:700-701 -/
def isSuspect (e : Env) (b : State) (id : ConnectionId) : Bool :=
  e.behavioralReady && b.behSuspicious.contains (behKey e id)

end Wirewolf.L3.Behavior
