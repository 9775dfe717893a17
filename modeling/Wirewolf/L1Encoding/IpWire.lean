import Wirewolf.Core.Wire
import Wirewolf.L1Encoding.IpPacket

/-!
# An IPv4 packet with a TCP segment on the wire

`Packet` is a packet with headers of any admissible length, `render` its
bytes, and `delivered` what reassembly is to see of it.

* `parse_render`: the parser delivers exactly the payload, whatever padding
  the link layer leaves behind the packet.
* `parse_cut`: of a packet that was not captured to its end the parser
  delivers no payload.
-/
namespace Wirewolf.L1.IpWire

open Wirewolf.L1.IpPacket

/-! ## Writing -/

/-- Addresses and ports are numbers as the code keeps them, the bytes on the
wire read as a little-endian integer. -/
structure Packet where
  ihl : Nat
  doff : Nat
  tos : UInt8 := 0
  id : UInt16 := 0
  fragOff : UInt16 := 0
  ttl : UInt8 := 64
  check : UInt16 := 0
  saddr : UInt32
  daddr : UInt32
  ipOptions : Bytes := []
  source : UInt16
  dest : UInt16
  seq : UInt32
  ackSeq : UInt32 := 0
  res1 : Fin 16 := 0
  flags : UInt8 := 0
  window : UInt16 := 0
  tcpCheck : UInt16 := 0
  urgPtr : UInt16 := 0
  tcpOptions : Bytes := []
  payload : Bytes
  ihl_le : ihl ≤ 15
  doff_le : doff ≤ 15
  ipOptions_length : 20 + ipOptions.length = ihl * 4
  tcpOptions_length : 20 + tcpOptions.length = doff * 4
  total_le : ihl * 4 + doff * 4 + payload.length ≤ 65535

namespace Packet

variable (p : Packet)

def totLen : Nat := p.ihl * 4 + p.doff * 4 + p.payload.length

/-- Without the options. -/
def ipHeader : Bytes :=
  .ofNat (0x40 + p.ihl) :: p.tos :: Wire.be16 (.ofNat p.totLen) ++ Wire.be16 p.id ++
    Wire.be16 p.fragOff ++ p.ttl :: 6 :: Wire.be16 p.check ++ Wire.le32 p.saddr ++
    Wire.le32 p.daddr

/-- Without the options. -/
def tcpHeader : Bytes :=
  Wire.le16 p.source ++ Wire.le16 p.dest ++ Wire.be32 p.seq ++ Wire.be32 p.ackSeq ++
    .ofNat (p.doff * 16 + p.res1) :: p.flags :: Wire.be16 p.window ++ Wire.be16 p.tcpCheck ++
    Wire.be16 p.urgPtr

def render : Bytes := p.ipHeader ++ (p.ipOptions ++ (p.tcpHeader ++ (p.tcpOptions ++ p.payload)))

/-- The packet as reassembly is to see it. -/
def delivered (time : Rat) : TcpPacket where
  cid := ⟨p.saddr, p.daddr, p.source, p.dest⟩
  fin := p.flags &&& 0x01 != 0
  syn := p.flags &&& 0x02 != 0
  rst := p.flags &&& 0x04 != 0
  seq := p.seq
  ttl := p.ttl
  time := time
  payloadLen := p.payload.length
  data := some p.payload
  len_le := by have := p.total_le; omega
  data_len := fun d h => by cases h; rfl

theorem length_render : p.render.length = p.totLen := by
  have hip := p.ipOptions_length
  have htcp := p.tcpOptions_length
  have h₁ : p.ipHeader.length = 20 := rfl
  have h₂ : p.tcpHeader.length = 20 := rfl
  simp only [render, totLen, List.length_append, h₁, h₂]
  omega

end Packet

/-! ## Reading what was written -/

section

variable {b : Bytes} {k : Nat} {rest : Bytes}

theorem getElem?_of_drop {c : UInt8} (h : b.drop k = c :: rest) : b[k]? = some c := by
  have hget : (b.drop k)[0]? = b[k + 0]? := List.getElem?_drop
  rw [h] at hget
  exact hget.symm

theorem drop_add_of_drop {l : Bytes} (h : b.drop k = l ++ rest) : b.drop (k + l.length) = rest := by
  rw [← List.drop_drop, h, List.drop_left]

theorem be16_of_drop {v : UInt16} (h : b.drop k = Wire.be16 v ++ rest) :
    be16 b k = some v.toNat := by
  have hnext : b.drop (k + 1) = v.toUInt8 :: rest := drop_add_of_drop (l := [_]) h
  rw [be16, getElem?_of_drop h, getElem?_of_drop hnext]
  exact congrArg some (Wire.toNat_halves16 v)

theorem le16_of_drop {v : UInt16} (h : b.drop k = Wire.le16 v ++ rest) :
    le16 b k = some v.toNat := by
  have hnext : b.drop (k + 1) = (v >>> 8).toUInt8 :: rest := drop_add_of_drop (l := [_]) h
  rw [le16, getElem?_of_drop h, getElem?_of_drop hnext]
  exact congrArg some (Wire.toNat_halves16 v)

theorem be32_of_drop {v : UInt32} (h : b.drop k = Wire.be32 v ++ rest) :
    be32 b k = some v.toNat := by
  rw [Wire.be32, List.append_assoc] at h
  have hnext : b.drop (k + 2) = Wire.be16 v.toUInt16 ++ rest := drop_add_of_drop h
  rw [be32, be16_of_drop h, be16_of_drop hnext]
  exact congrArg some (Wire.toNat_halves32 v)

theorem le32_of_drop {v : UInt32} (h : b.drop k = Wire.le32 v ++ rest) :
    le32 b k = some v.toNat := by
  rw [Wire.le32, List.append_assoc] at h
  have hnext : b.drop (k + 2) = Wire.le16 (v >>> 16).toUInt16 ++ rest := drop_add_of_drop h
  rw [le32, le16_of_drop h, le16_of_drop hnext]
  exact congrArg some (Wire.toNat_halves32 v)

theorem ihl_nibble {n : Nat} (h : n ≤ 15) : (UInt8.ofNat (0x40 + n) &&& 0x0F).toNat = n := by
  have hall : ∀ n : Fin 16, (UInt8.ofNat (0x40 + n.val) &&& 0x0F).toNat = n.val := by decide
  exact hall ⟨n, by omega⟩

theorem doff_nibble {n : Nat} (h : n ≤ 15) (r : Fin 16) :
    ((UInt8.ofNat (n * 16 + r) >>> 4) &&& 0x0F).toNat = n := by
  have hall : ∀ n r : Fin 16, ((UInt8.ofNat (n.val * 16 + r.val) >>> 4) &&& 0x0F).toNat =
      n.val := by
    decide
  exact hall ⟨n, by omega⟩ r

end

/-- What stands at the positions of the TCP header. -/
theorem drop_ipHeader (p : Packet) (padding : Bytes) :
    (p.render ++ padding).drop (p.ihl * 4) =
      p.tcpHeader ++ (p.tcpOptions ++ (p.payload ++ padding)) := by
  have hlen : p.ihl * 4 = (p.ipHeader ++ p.ipOptions).length := by
    rw [← p.ipOptions_length, List.length_append]
    rfl
  have hsplit : p.render ++ padding = (p.ipHeader ++ p.ipOptions) ++
      (p.tcpHeader ++ (p.tcpOptions ++ (p.payload ++ padding))) := by
    simp only [Packet.render, List.append_assoc]
  rw [hsplit, hlen, List.drop_left]

theorem drop_tcpHeader (p : Packet) (padding : Bytes) :
    (p.render ++ padding).drop (p.ihl * 4 + p.doff * 4) = p.payload ++ padding := by
  have hlen : p.doff * 4 = (p.tcpHeader ++ p.tcpOptions).length := by
    rw [← p.tcpOptions_length, List.length_append]
    rfl
  rw [← List.drop_drop, drop_ipHeader, ← List.append_assoc, hlen, List.drop_left]

/-- The parser delivers exactly the payload, whatever follows the packet. -/
theorem parse_render (p : Packet) (padding : Bytes) (time : Rat) :
    parseIpPacket (p.render ++ padding) time = some (.tcp (p.delivered time)) := by
  have hip := p.ipOptions_length
  have htcp := p.tcpOptions_length
  have htotal := p.total_le
  have hlen : (p.render ++ padding).length = p.totLen + padding.length := by
    rw [List.length_append, p.length_render]
  have htot : p.totLen = p.ihl * 4 + p.doff * 4 + p.payload.length := rfl
  have hpay := drop_tcpHeader p padding
  have hdrop : ∀ j, (p.render ++ padding).drop (p.ihl * 4 + j) =
      (p.tcpHeader ++ (p.tcpOptions ++ (p.payload ++ padding))).drop j := fun j => by
    rw [← List.drop_drop, drop_ipHeader]
  have h₀ : (p.render ++ padding)[0]? = some (.ofNat (0x40 + p.ihl)) := rfl
  have h₈ : (p.render ++ padding)[8]? = some p.ttl := rfl
  have h₉ : (p.render ++ padding)[9]? = some 6 := rfl
  have hsaddr : le32 (p.render ++ padding) 12 = some p.saddr.toNat := le32_of_drop rfl
  have hdaddr : le32 (p.render ++ padding) 16 = some p.daddr.toNat := le32_of_drop rfl
  have htotLen : be16 (p.render ++ padding) 2 = some p.totLen := by
    rw [be16_of_drop (v := .ofNat p.totLen) rfl]
    exact congrArg some (UInt16.toNat_ofNat_of_lt' (by rw [UInt16.size]; omega))
  have hsource : le16 (p.render ++ padding) (p.ihl * 4) = some p.source.toNat :=
    le16_of_drop (hdrop 0)
  have hdest : le16 (p.render ++ padding) (p.ihl * 4 + 2) = some p.dest.toNat :=
    le16_of_drop (hdrop 2)
  have hseq : be32 (p.render ++ padding) (p.ihl * 4 + 4) = some p.seq.toNat :=
    be32_of_drop (hdrop 4)
  have hoff : (p.render ++ padding)[p.ihl * 4 + 12]? = some (.ofNat (p.doff * 16 + p.res1)) :=
    getElem?_of_drop (hdrop 12)
  have hflags : (p.render ++ padding)[p.ihl * 4 + 13]? = some p.flags :=
    getElem?_of_drop (hdrop 13)
  generalize p.render ++ padding = b at *
  unfold parseIpPacket
  rw [if_neg (by omega), h₉, hsaddr, hdaddr]
  simp only [Option.bind_eq_bind, Option.bind_some]
  rw [if_neg (by decide), if_neg (by decide), h₀]
  simp only [Option.bind_some, ihl_nibble p.ihl_le]
  rw [if_neg (by omega), hoff]
  simp only [Option.bind_some, doff_nibble p.doff_le]
  rw [if_neg (by omega)]
  split
  case h_1 hnone => rw [htotLen] at hnone; cases hnone
  case h_2 n hsome =>
    obtain rfl : p.totLen = n := Option.some.inj (htotLen.symm.trans hsome)
    rw [if_neg (by omega), hsource, hdest, hseq, hflags, h₈]
    have hsize : p.totLen - (p.ihl * 4 + p.doff * 4) = p.payload.length := by omega
    have hroom : p.ihl * 4 + p.doff * 4 + p.payload.length ≤ b.length := by omega
    refine congrArg (fun t => some (Parsed.tcp t)) ?_
    unfold tcpPacket Packet.delivered
    simp only [hsize, hpay, List.take_left, UInt32.ofNat_toNat, UInt16.ofNat_toNat, if_pos hroom]

/-- The gate on the payload compares the total length with the capture. -/
theorem data_eq_none {b : Bytes} {time : Rat} {t : TcpPacket}
    (h : parseIpPacket b time = some (.tcp t)) {totLen : Nat} (htot : be16 b 2 = some totLen)
    (hshort : b.length < totLen) : t.data = none := by
  obtain ⟨saddr, daddr, sport, dport, seq, flags, ttl, n, headerSizes, hn, htot', -, hle, rfl⟩ :=
    parse_eq_tcp h
  obtain rfl : totLen = n := Option.some.inj (htot.symm.trans htot')
  exact if_neg (by omega)

/-- Of a packet that was not captured to its end nothing is delivered. -/
theorem parse_cut (p : Packet) (n : Nat) (hn : n < p.render.length) (time : Rat) (t : TcpPacket)
    (h : parseIpPacket (p.render.take n) time = some (.tcp t)) : t.data = none := by
  have htotal := p.total_le
  have htot : p.totLen = p.ihl * 4 + p.doff * 4 + p.payload.length := rfl
  have hlen : (p.render.take n).length = n := List.length_take_of_le (Nat.le_of_lt hn)
  by_cases hshort : n < 20
  · rw [parseIpPacket, if_pos (by omega)] at h
    cases h
  · obtain ⟨m, rfl⟩ : ∃ m, n = m + 4 := ⟨n - 4, by omega⟩
    have htotLen : be16 (p.render.take (m + 4)) 2 = some p.totLen := by
      have hdrop : (p.render.take (m + 4)).drop 2 =
          Wire.be16 (.ofNat p.totLen) ++ (p.render.drop 4).take m := rfl
      rw [be16_of_drop hdrop]
      exact congrArg some (UInt16.toNat_ofNat_of_lt' (by rw [UInt16.size]; omega))
    refine data_eq_none h htotLen ?_
    rw [hlen, ← p.length_render]
    exact hn

end Wirewolf.L1.IpWire
