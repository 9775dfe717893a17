import Wirewolf.Core.Reading
import Wirewolf.L1Encoding.IpPacket

/-!
# What `process_ip_packet` reads

`readIpPacket` is the parser over an arbitrary buffer and an arbitrary
length, with the offsets it subscripts, and `readFrame` is `process_packet`
in front of it. A payload that was captured in full counts as read, although
a SYN, a shed packet or an old segment leaves it alone.

* `readIpPacket_value`: the parser is `parseIpPacket` on the captured bytes.
* `within_readIpPacket`, `within_readFrame`: no offset reaches the length.
* `parse_take`: a capture cut behind the headers loses the payload at most.
-/
namespace Wirewolf.L1.IpReads

open Wirewolf.L1.IpPacket

/-! ## The parser with its offsets -/

section

variable (mem : Nat → UInt8)

def readLe16 (k : Nat) : Reading Nat := do
  let a ← Reading.subscript mem k
  let b ← Reading.subscript mem (k + 1)
  return b.toNat * 256 + a.toNat

def readLe32 (k : Nat) : Reading Nat := do
  let a ← readLe16 mem k
  let b ← readLe16 mem (k + 2)
  return b * 65536 + a

/-- `ntohl` -/
def readBe32 (k : Nat) : Reading Nat := do
  let a ← Reading.be16 mem k
  let b ← Reading.be16 mem (k + 2)
  return a.toNat * 65536 + b.toNat

/-- `return ip_hdr->saddr` -/
def readOther : Reading Parsed := do
  let saddr ← readLe32 mem 12
  return .other (.ofNat saddr)

/-- The payload behind the gate `payload_captured`.
mirrors src/src/tcp_reassembly.cpp:418-421,466 -/
def readPayload (len headerSizes payloadLen : Nat) :
    Reading (Option {d : Bytes // d.length = payloadLen}) := do
  if headerSizes + payloadLen ≤ len then
    let data ← Reading.elements mem headerSizes payloadLen
    return some data
  else return none

/-- mirrors src/src/tcp_reassembly.cpp:412-429 -/
def readTcpPacket (len : Nat) (time : Rat) (ipHeaderLen headerSizes : Nat) (totLen : UInt16) :
    Reading Parsed := do
  let payload ← readPayload mem len headerSizes (totLen.toNat - headerSizes)
  let saddr ← readLe32 mem 12
  let daddr ← readLe32 mem 16
  let sport ← readLe16 mem ipHeaderLen
  let dport ← readLe16 mem (ipHeaderLen + 2)
  let flags ← Reading.subscript mem (ipHeaderLen + 13)
  let ttl ← Reading.subscript mem 8
  let seq ← readBe32 mem (ipHeaderLen + 4)
  return .tcp {
    cid := ⟨.ofNat saddr, .ofNat daddr, .ofNat sport, .ofNat dport⟩
    fin := flags &&& 0x01 != 0
    syn := flags &&& 0x02 != 0
    rst := flags &&& 0x04 != 0
    seq := .ofNat seq
    ttl := ttl
    time := time
    payloadLen := totLen.toNat - headerSizes
    data := payload.map Subtype.val
    len_le := by have := totLen.toNat_lt; omega
    data_len := fun d h => by
      obtain ⟨data, -, rfl⟩ := Option.map_eq_some_iff.1 h
      exact data.property }

/-- mirrors src/src/tcp_reassembly.cpp:373-421 -/
def readIpPacket (len : Nat) (time : Rat) : Reading Parsed := do
  if len < 20 then return .short
  else
    let protocol ← Reading.subscript mem 9
    if protocol = 17 then
      let daddr ← readLe32 mem 16
      let saddr ← readLe32 mem 12
      return .udp (.ofNat saddr) (.ofNat daddr)
    else if protocol ≠ 6 then readOther mem
    else
      let ihl ← Reading.subscript mem 0
      let ipHeaderLen := (ihl &&& 0x0F).toNat * 4
      if ipHeaderLen < 20 ∨ len < ipHeaderLen + 20 then readOther mem
      else
        let offsetRes ← Reading.subscript mem (ipHeaderLen + 12)
        let tcpHeaderLen := ((offsetRes >>> 4) &&& 0x0F).toNat * 4
        if tcpHeaderLen < 20 then readOther mem
        else
          let totLen ← Reading.be16 mem 2
          if totLen.toNat < ipHeaderLen + tcpHeaderLen then readOther mem
          else readTcpPacket mem len time ipHeaderLen (ipHeaderLen + tcpHeaderLen) totLen

/-- `ETHERTYPE_IP` -/
def etherTypeIp : UInt16 := 0x0800

/-- The frame's packet, if it is an IP frame.
mirrors src/src/tcp_reassembly.cpp:356-371 -/
def readFrame (caplen : Nat) (time : Rat) : Reading (Option Parsed) := do
  if caplen < 14 then return none
  else
    let etherType ← Reading.be16 mem 12
    if etherType ≠ etherTypeIp then return none
    else
      let packet ← (readIpPacket (fun k => mem (14 + k)) (caplen - 14) time).shift 14
      return some packet

end

/-! ## Its value -/

/-- The bytes of the capture. -/
def captured (mem : Nat → UInt8) (len : Nat) : Bytes := (List.range len).map mem

section

variable {mem : Nat → UInt8} {len : Nat} {time : Rat}

@[simp] theorem length_captured : (captured mem len).length = len := by simp [captured]

theorem captured_get {k : Nat} (h : k < len) : (captured mem len)[k]? = some (mem k) := by
  simp [captured, h]

theorem captured_le16 {k : Nat} (h : k + 1 < len) :
    le16 (captured mem len) k = some (readLe16 mem k).value := by
  rw [le16, captured_get (by omega), captured_get h]
  rfl

theorem captured_le32 {k : Nat} (h : k + 3 < len) :
    le32 (captured mem len) k = some (readLe32 mem k).value := by
  rw [le32, captured_le16 (by omega), captured_le16 (by omega)]
  rfl

theorem captured_be16 {k : Nat} (h : k + 1 < len) :
    be16 (captured mem len) k = some (Reading.be16 mem k).value.toNat := by
  rw [be16, captured_get (by omega), captured_get h, Reading.toNat_be16]
  rfl

theorem captured_be32 {k : Nat} (h : k + 3 < len) :
    be32 (captured mem len) k = some (readBe32 mem k).value := by
  rw [be32, captured_be16 (by omega), captured_be16 (by omega)]
  rfl

theorem captured_slice {start n : Nat} (h : start + n ≤ len) :
    ((captured mem len).drop start).take n = (List.range' start n).map mem := by
  refine List.ext_getElem (by simp; omega) fun i hi _ => ?_
  simp [captured]

theorem readOther_value : (readOther mem).value = .other (.ofNat (readLe32 mem 12).value) := rfl

theorem readPayload_value {headerSizes payloadLen : Nat} :
    (readPayload mem len headerSizes payloadLen).value.map Subtype.val =
      if headerSizes + payloadLen ≤ len then
        some (((captured mem len).drop headerSizes).take payloadLen)
      else none := by
  unfold readPayload
  split
  case isTrue h =>
    rw [captured_slice h]
    rfl
  case isFalse => rfl

theorem readTcpPacket_value {ipHeaderLen headerSizes : Nat} {totLen : UInt16}
    {n : Nat} (hn : n < 65536) (htot : totLen.toNat = n) :
    (readTcpPacket mem len time ipHeaderLen headerSizes totLen).value =
      .tcp (tcpPacket (captured mem len) time (readLe32 mem 12).value (readLe32 mem 16).value
        (readLe16 mem ipHeaderLen).value (readLe16 mem (ipHeaderLen + 2)).value
        (readBe32 mem (ipHeaderLen + 4)).value (mem (ipHeaderLen + 13))
          (mem 8) n headerSizes hn) := by
  subst htot
  simp only [readTcpPacket, Reading.value_bind, Reading.value_pure, Reading.value_subscript,
    readPayload_value, tcpPacket, length_captured]

/-- The parser on an arbitrary buffer is the parser on the captured bytes. -/
theorem readIpPacket_value (mem : Nat → UInt8) (len : Nat) (time : Rat) :
    parseIpPacket (captured mem len) time = some (readIpPacket mem len time).value := by
  unfold parseIpPacket readIpPacket
  rw [length_captured]
  by_cases hlen : len < 20
  · rw [if_pos hlen, if_pos hlen]
    rfl
  · rw [if_neg hlen, if_neg hlen, captured_get (by omega), captured_le32 (by omega),
      captured_le32 (by omega)]
    simp only [Option.bind_eq_bind, Option.bind_some, Reading.value_bind, Reading.value_subscript]
    by_cases hudp : mem 9 = 17
    · rw [if_pos hudp, if_pos hudp]
      rfl
    · rw [if_neg hudp, if_neg hudp]
      by_cases hother : mem 9 ≠ 6
      · rw [if_pos hother, if_pos hother]
        rfl
      · rw [if_neg hother, if_neg hother, captured_get (by omega)]
        simp only [Option.bind_some, Reading.value_bind, Reading.value_subscript]
        generalize hihl : (mem 0 &&& 0x0F).toNat * 4 = ipHeaderLen
        by_cases hihlen : ipHeaderLen < 20 ∨ len < ipHeaderLen + 20
        · rw [if_pos hihlen, if_pos hihlen]
          rfl
        · rw [if_neg hihlen, if_neg hihlen, captured_get (by omega)]
          simp only [Option.bind_some, Reading.value_bind, Reading.value_subscript]
          generalize hoff : ((mem (ipHeaderLen + 12) >>> 4) &&& 0x0F).toNat * 4 = tcpHeaderLen
          by_cases hdoff : tcpHeaderLen < 20
          · rw [if_pos hdoff, if_pos hdoff]
            rfl
          · rw [if_neg hdoff, if_neg hdoff]
            have htot : be16 (captured mem len) 2 = some (Reading.be16 mem 2).value.toNat :=
              captured_be16 (by omega)
            split
            case h_1 hnone => rw [htot] at hnone; cases hnone
            case h_2 totLen hsome =>
              have htotLen := Option.some.inj (htot.symm.trans hsome)
              simp only [Reading.value_bind, Reading.value_ite, readOther_value, htotLen]
              by_cases hsizes : totLen < ipHeaderLen + tcpHeaderLen
              · rw [if_pos hsizes, if_pos hsizes]
                rfl
              · rw [if_neg hsizes, if_neg hsizes, captured_le16 (by omega),
                  captured_le16 (by omega), captured_be32 (by omega), captured_get (by omega),
                  captured_get (by omega), readTcpPacket_value (be16_lt hsome) htotLen]
                rfl

theorem captured_self (b : Bytes) : captured (b.getD · 0) b.length = b := by
  refine List.ext_getElem (by simp) fun k _ hk => ?_
  simp [captured, List.getElem?_eq_getElem hk]

/-- No read of the parser misses the capture. -/
theorem parseIpPacket_total (b : Bytes) (time : Rat) : ∃ x, parseIpPacket b time = some x :=
  ⟨_, by rw [← readIpPacket_value, captured_self]⟩

/-- An Ethernet frame with an IP packet hands over the bytes behind its header. -/
theorem readFrame_value (macs b : Bytes) (h : macs.length = 12) (time : Rat) :
    (readFrame ((macs ++ 0x08 :: 0x00 :: b).getD · 0) (14 + b.length) time).value =
      parseIpPacket b time := by
  have htype : (Reading.be16 ((macs ++ 0x08 :: 0x00 :: b).getD · 0) 12).value = etherTypeIp := by
    rw [← UInt16.toNat_inj, Reading.toNat_be16, ← h]
    simp [etherTypeIp]
  have hmem : (fun k => (macs ++ 0x08 :: 0x00 :: b).getD (14 + k) 0) = (b.getD · 0) := by
    funext k
    have hpos : 14 + k = (macs ++ [0x08, 0x00]).length + k := by simp [h]
    have hsplit : macs ++ 0x08 :: 0x00 :: b = (macs ++ [0x08, 0x00]) ++ b := by simp
    rw [hsplit, hpos, List.getD, List.getD, List.getElem?_append_right (Nat.le_add_right ..),
      Nat.add_sub_cancel_left]
  unfold readFrame
  rw [if_neg (by omega), Reading.value_bind, htype, if_neg (fun he => he rfl), Reading.value_bind,
    Reading.value_shift, hmem, Nat.add_sub_cancel_left, Reading.value_pure, ← readIpPacket_value,
    captured_self]

/-! ## Its offsets -/

theorem within_readLe16 {k : Nat} : Reading.Within len (readLe16 mem k) ↔ k + 1 < len := by
  simp only [readLe16, Reading.within_bind, Reading.within_subscript, Reading.within_pure, and_true]
  omega

theorem within_readLe32 {k : Nat} : Reading.Within len (readLe32 mem k) ↔ k + 3 < len := by
  simp only [readLe32, Reading.within_bind, within_readLe16, Reading.within_pure, and_true]
  omega

theorem within_readBe32 {k : Nat} : Reading.Within len (readBe32 mem k) ↔ k + 3 < len := by
  simp only [readBe32, Reading.within_bind, Reading.within_be16, Reading.within_pure, and_true]
  omega

theorem within_readOther (h : 20 ≤ len) : Reading.Within len (readOther mem) := by
  simp only [readOther, Reading.within_bind, within_readLe32, Reading.within_pure, and_true]
  omega

/-- The gate compares with the end of the payload, so the payload is inside. -/
theorem within_readPayload {headerSizes payloadLen : Nat} :
    Reading.Within len (readPayload mem len headerSizes payloadLen) := by
  unfold readPayload
  split
  case isTrue h =>
    rw [Reading.within_bind]
    exact ⟨Reading.within_elements h, Reading.within_pure _ _⟩
  case isFalse => exact Reading.within_pure _ _

theorem within_readTcpPacket {ipHeaderLen headerSizes : Nat} {totLen : UInt16}
    (hip : 20 ≤ ipHeaderLen) (hlen : ipHeaderLen + 20 ≤ len) :
    Reading.Within len (readTcpPacket mem len time ipHeaderLen headerSizes totLen) := by
  simp only [readTcpPacket, Reading.within_bind, within_readPayload, within_readLe32,
    within_readLe16, within_readBe32, Reading.within_subscript, Reading.within_pure, true_and,
    and_true]
  omega

/-- Whatever the three lengths in the headers say, the parser stays inside
the capture. -/
theorem within_readIpPacket (mem : Nat → UInt8) (len : Nat) (time : Rat) :
    Reading.Within len (readIpPacket mem len time) := by
  unfold readIpPacket
  rw [Reading.within_guard]
  intro hlen
  have hother : Reading.Within len (readOther mem) := within_readOther (Nat.not_lt.1 hlen)
  simp only [Reading.within_bind, Reading.within_subscript, Reading.value_subscript]
  refine ⟨by omega, ?_⟩
  split
  · -- UDP
    simp only [Reading.within_bind, within_readLe32, Reading.within_pure, and_true]
    omega
  split
  · exact hother
  simp only [Reading.within_bind, Reading.within_subscript, Reading.value_subscript]
  refine ⟨by omega, ?_⟩
  split
  · exact hother
  next hihl =>
    simp only [Reading.within_bind, Reading.within_subscript, Reading.value_subscript]
    refine ⟨by omega, ?_⟩
    split
    · exact hother
    simp only [Reading.within_bind, Reading.within_be16]
    refine ⟨by omega, ?_⟩
    split
    · exact hother
    · exact within_readTcpPacket (by omega) (by omega)

theorem within_readFrame (mem : Nat → UInt8) (caplen : Nat) (time : Rat) :
    Reading.Within caplen (readFrame mem caplen time) := by
  unfold readFrame
  rw [Reading.within_guard]
  intro hlen
  rw [Reading.within_bind, Reading.within_be16, Reading.within_guard]
  refine ⟨by omega, fun _ => ?_⟩
  rw [Reading.within_bind]
  have hshift : Reading.Within (14 + (caplen - 14))
      ((readIpPacket (fun k => mem (14 + k)) (caplen - 14) time).shift 14) :=
    Reading.within_shift (within_readIpPacket _ _ _)
  rw [Nat.add_sub_cancel' (by omega)] at hshift
  exact ⟨hshift, Reading.within_pure _ _⟩

end

/-! ## A shorter capture -/

/-- Where the IP header and, in a TCP packet, the fixed TCP header end. -/
def headerEnd (b : Bytes) : Nat :=
  let ipHeaderLen := (b.getD 0 0 &&& 0x0F).toNat * 4
  if b.getD 9 0 = 6 then max 20 ipHeaderLen + 20 else max 20 ipHeaderLen

/-- The packet as captured without its payload. -/
def uncaptured (p : TcpPacket) : TcpPacket :=
  { p with
    data := none
    data_len := fun _ h => by cases h }

/-- The same packet, but for a payload that is captured no more. -/
inductive Shortened : Parsed → Parsed → Prop
  | same (q : Parsed) : Shortened q q
  | lost (p : TcpPacket) : Shortened (.tcp p) (.tcp (uncaptured p))

section

variable {mem : Nat → UInt8} {len : Nat} {time : Rat}

theorem captured_take (n : Nat) :
    (captured mem len).take n = captured mem (min n len) := by
  rw [captured, captured, ← List.map_take, List.take_range]

theorem readTcpPacket_shortened {len' ipHeaderLen headerSizes : Nat} {totLen : UInt16}
    (h : len' ≤ len) :
    Shortened (readTcpPacket mem len time ipHeaderLen headerSizes totLen).value
      (readTcpPacket mem len' time ipHeaderLen headerSizes totLen).value := by
  by_cases hfull : headerSizes + (totLen.toNat - headerSizes) ≤ len'
  · have hsame : readPayload mem len' headerSizes (totLen.toNat - headerSizes) =
        readPayload mem len headerSizes (totLen.toNat - headerSizes) := by
      rw [readPayload, if_pos hfull, readPayload, if_pos (Nat.le_trans hfull h)]
    rw [readTcpPacket, readTcpPacket, hsame]
    exact .same _
  · have hlost : readPayload mem len' headerSizes (totLen.toNat - headerSizes) = pure none := by
      rw [readPayload, if_neg hfull]
    rw [readTcpPacket, readTcpPacket, hlost]
    exact .lost _

theorem Shortened.ite {c c' : Prop} {_ : Decidable c} {_ : Decidable c'}
    {x y x' y' : Reading Parsed}
    (hc : c ↔ c') (hx : Shortened x.value x'.value) (hy : ¬ c → Shortened y.value y'.value) :
    Shortened (if c then x else y).value (if c' then x' else y').value := by
  by_cases h : c
  · rw [if_pos h, if_pos (hc.1 h)]
    exact hx
  · rw [if_neg h, if_neg (fun h' => h (hc.2 h'))]
    exact hy h

/-- The length decides whether there is a packet, a TCP header and a payload. -/
theorem readIpPacket_shortened {len' : Nat} (h : len' ≤ len)
    (hkeep : min (headerEnd (captured mem len)) len ≤ len') :
    Shortened (readIpPacket mem len time).value (readIpPacket mem len' time).value := by
  have hbyte : ∀ k < len, (captured mem len).getD k 0 = mem k := fun k hk => by
    rw [List.getD, captured_get hk, Option.getD_some]
  have hend : 20 ≤ headerEnd (captured mem len) := by
    unfold headerEnd
    dsimp only
    split <;> omega
  unfold readIpPacket
  refine .ite (by omega) (.same _) fun hlen => ?_
  rw [Reading.value_bind, Reading.value_bind, Reading.value_subscript]
  refine .ite Iff.rfl (.same _) fun _ => .ite Iff.rfl (.same _) fun htcp => ?_
  have htcp : mem 9 = 6 := Decidable.not_not.1 htcp
  rw [Reading.value_bind, Reading.value_bind, Reading.value_subscript]
  rw [headerEnd, hbyte 0 (by omega), hbyte 9 (by omega), if_pos htcp] at hkeep
  refine .ite ?_ (.same _) fun hihl => ?_
  · omega
  · rw [Reading.value_bind, Reading.value_bind, Reading.value_subscript]
    refine .ite Iff.rfl (.same _) fun _ => ?_
    rw [Reading.value_bind, Reading.value_bind]
    exact .ite Iff.rfl (.same _) fun _ => readTcpPacket_shortened h

end

/-- The packet of a capture that was cut, headers kept. -/
theorem parse_take {b : Bytes} {time : Rat} {q : Parsed} {n : Nat} (hn : headerEnd b ≤ n)
    (hq : parseIpPacket b time = some q) :
    ∃ q', parseIpPacket (b.take n) time = some q' ∧ Shortened q q' := by
  rw [← captured_self b, readIpPacket_value, Option.some.injEq] at hq
  subst hq
  have htake : (captured (b.getD · 0) b.length).take n = captured (b.getD · 0) (min n b.length) :=
    captured_take n
  rw [captured_self] at htake
  rw [htake, readIpPacket_value]
  refine ⟨_, rfl, readIpPacket_shortened (Nat.min_le_right ..) ?_⟩
  rw [captured_self]
  omega

end Wirewolf.L1.IpReads
