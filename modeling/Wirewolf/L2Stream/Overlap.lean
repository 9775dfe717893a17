import Wirewolf.L2Stream.Placement

/-!
# Retransmissions that carry new bytes

A retransmission may start before `expected_seq` and end after it, or start
at a buffered key and be longer than the segment buffered there. The drain
loop cuts buffered segments of the first kind; the packet path files a
segment by its first sequence number alone.

* `overlap_advances_iff`: in every reachable state, the new tail of the first
  kind is appended exactly when nothing overlaps, and the extra tail of the
  second kind is buffered exactly when it already was.
* `tail_lost`: both kinds, losing it.
-/
namespace Wirewolf.L2.Overlap

open Wirewolf.L1.IpPacket Wirewolf.L2.Connection Wirewolf.L2.Connection.StreamState
open Wirewolf.Overlay Wirewolf.Serial Wirewolf.L2.Placement

/-- The segment starts at or before `expected_seq` and ends after it. -/
def Straddles (s : StreamState) (seq : UInt32) (data : Bytes) : Prop :=
  seqAfter seq s.expectedSeq = false ∧
    seqAfter (seq + UInt32.ofNat data.length) s.expectedSeq = true

/-- `s'` has the segment's bytes from `expected_seq` on appended to the
payload of `s`, and `expected_seq` at or after the segment's end. -/
def Advanced (s s' : StreamState) (seq : UInt32) (data : Bytes) : Prop :=
  s.payload ++ data.drop (s.expectedSeq - seq).toNat <+: s'.payload ∧
    seqBefore s'.expectedSeq (seq + UInt32.ofNat data.length) = false

/-- Byte `b` is buffered for sequence number `q`. -/
def Buffered (s : StreamState) (q : UInt32) (b : UInt8) : Prop :=
  ∃ e ∈ s.outOfOrderSegments.entries, e.2[(q - e.1).toNat]? = some b

/-- The bytes of the segment from offset `n` on are buffered. -/
def TailBuffered (s : StreamState) (seq : UInt32) (data : Bytes) (n : Nat) : Prop :=
  ∀ i b, n ≤ i → data[i]? = some b → Buffered s (seq + UInt32.ofNat i) b

section

variable {s : StreamState} {seq : UInt32} {data : Bytes}

/-- A straddling segment overlaps by less than its length. -/
theorem Straddles.offset (h : Straddles s seq data) (hl : data.length ≤ 65535) :
    (s.expectedSeq - seq).toNat < data.length := by
  obtain ⟨h₁, h₂⟩ := h
  have hm : s.expectedSeq = pos seq (s.expectedSeq - seq).toNat := (pos_dist seq _).symm
  have hlen : data.length < 2 ^ 31 := Nat.lt_of_le_of_lt hl (by decide)
  have hlt : (s.expectedSeq - seq).toNat < 2 ^ 31 := by
    by_contra hge
    rw [seqAfter_eq, (before_iff _ _).2 (by omega)] at h₁; cases h₁
  rw [seqAfter_eq, hm] at h₂
  exact (before_pos seq (by omega) (by omega)).1 h₂

/-- In-order data always advances the stream. -/
theorem append_advanced (hb : Bounded s) :
    Advanced s (s.append data) s.expectedSeq data := by
  refine ⟨by simpa using s.append_payload data, ?_⟩
  obtain ⟨n, h₁, -, h₂⟩ := drainLoop_advance s.outOfOrderSegments.entries
    (s.expectedSeq + UInt32.ofNat data.length) (s.payload ++ data)
  have ht := hb.total
  rw [← Bool.not_eq_true, seqBefore_eq]
  simp only [StreamState.append, h₁]
  rw [before_iff, show s.expectedSeq + UInt32.ofNat data.length + UInt32.ofNat n =
    pos (pos s.expectedSeq data.length) n from rfl,
    show s.expectedSeq + UInt32.ofNat data.length = pos (pos s.expectedSeq data.length) 0 by
      rw [pos_zero]; rfl,
    pos_sub _ (Nat.zero_le n) (by omega)]
  omega

/-- Filing a straddling segment advances the stream exactly when it starts at
`expected_seq`. -/
theorem place_advanced_iff (hb : Bounded s) (hl : data.length ≤ 65535) (h : Straddles s seq data) :
    Advanced s (s.place seq data) seq data ↔ seq = s.expectedSeq := by
  constructor
  · intro hadv
    rcases place_cases s seq data with ⟨h₁, -⟩ | ⟨-, h₂, -⟩ | ⟨-, e, -⟩
    · exact h₁
    · rw [h.1] at h₂; cases h₂
    · have hle := hadv.1.length_le
      have hoff := h.offset hl
      rw [e, List.length_append, List.length_drop] at hle
      omega
  · intro he
    have hp : s.place seq data = s.append data := by rw [StreamState.place, if_pos he]
    rw [hp, he]; exact append_advanced hb

/-- Filing a segment at a buffered key changes nothing. -/
theorem place_of_hasKey (hk : s.outOfOrderSegments.hasKey seq = true) (hne : seq ≠ s.expectedSeq) :
    s.place seq data = s := by
  rcases place_cases s seq data with ⟨h₁, -⟩ | ⟨-, -, -, h₂, -⟩ | ⟨-, e, -⟩
  · exact absurd h₁ hne
  · rw [hk] at h₂; cases h₂
  · exact e

/-- The overlap check is skipped while anything is buffered. -/
theorem conflicts_of_hasKey (hk : s.outOfOrderSegments.hasKey seq = true) :
    s.conflicts seq data = false := by
  have : s.outOfOrderSegments.isEmpty = false := by
    rw [← Bool.not_eq_true, OrdMap.isEmpty_iff]
    intro he
    obtain ⟨v, hv⟩ := OrdMap.hasKey_iff.1 hk
    rw [he] at hv; cases hv
  simp [StreamState.conflicts, this]

end

/-- In every reachable state: a segment consistent with the consumed bytes
that straddles `expected_seq` advances the stream exactly when it starts at
`expected_seq`; the tail of a segment ahead of it that starts at a buffered
key and is longer is buffered afterwards exactly when it was before. -/
theorem overlap_advances_iff (ps : List TcpPacket) (p : TcpPacket) (data : Bytes)
    (hd : IsData p data) :
    (Straddles ((ConnectionState.run {} ps).toStreamState.baseline p.seq) p.seq data →
      Consistent ((ConnectionState.run {} ps).toStreamState.baseline p.seq) p.seq data →
      (Advanced ((ConnectionState.run {} ps).toStreamState.baseline p.seq)
          (ConnectionState.run {} (ps ++ [p])).toStreamState p.seq data ↔
        p.seq = ((ConnectionState.run {} ps).toStreamState.baseline p.seq).expectedSeq)) ∧
    ∀ d, (p.seq, d) ∈ (ConnectionState.run {} ps).outOfOrderSegments.entries →
      d.length < data.length →
      seqAfter p.seq (ConnectionState.run {} ps).expectedSeq = true →
      (TailBuffered (ConnectionState.run {} (ps ++ [p])).toStreamState p.seq data d.length ↔
        TailBuffered (ConnectionState.run {} ps).toStreamState p.seq data d.length) := by
  have hb := Bounded.run ps
  rw [ConnectionState.run_append]
  simp only [ConnectionState.run_cons, ConnectionState.run_nil, ConnectionState.receive_stream]
  generalize (ConnectionState.run {} ps).toStreamState = s at hb ⊢
  constructor
  · intro hs hc
    rw [receive_isData hd, conflicts_of_agree hc]
    exact place_advanced_iff (hb.baseline p.seq) hd.length_le hs
  · intro d hmem _ hafter
    have hk := OrdMap.hasKey_iff.2 ⟨d, hmem⟩
    have hbase : s.baseline p.seq = s := by
      rcases baseline_cases s p.seq with e | ⟨-, -, he, -⟩
      · exact e
      · rw [he] at hmem; cases hmem
    have hne : p.seq ≠ s.expectedSeq := by
      intro he
      rw [he, seqAfter_eq, before_iff] at hafter
      simp at hafter
    rw [receive_isData hd, hbase, conflicts_of_hasKey hk]
    simp only [Bool.false_eq_true, if_false]
    rw [place_of_hasKey hk hne]

/-- The stream is at 103, and `EF` waits at 110. -/
def gapped : List TcpPacket :=
  [.synSegment ⟨1, 2, 3, 4⟩ 100, .twoBytes ⟨1, 2, 3, 4⟩ 101 0x41 0x42,
    .twoBytes ⟨1, 2, 3, 4⟩ 110 0x45 0x46]

/-- `AB` comes again with the new `CD`, `EF` with the new `G`. -/
theorem overlap_advances_gapped :
    (Advanced (ConnectionState.run {} gapped).toStreamState
        (ConnectionState.run {} (gapped ++
          [.segment ⟨1, 2, 3, 4⟩ 101 [0x41, 0x42, 0x43, 0x44] (by decide)])).toStreamState
        101 [0x41, 0x42, 0x43, 0x44] ↔
      (101 : UInt32) = (ConnectionState.run {} gapped).expectedSeq) ∧
    (TailBuffered (ConnectionState.run {} (gapped ++
        [.segment ⟨1, 2, 3, 4⟩ 110 [0x45, 0x46, 0x47] (by decide)])).toStreamState
        110 [0x45, 0x46, 0x47] 2 ↔
      TailBuffered (ConnectionState.run {} gapped).toStreamState 110 [0x45, 0x46, 0x47] 2) :=
  ⟨(overlap_advances_iff gapped (.segment ⟨1, 2, 3, 4⟩ 101 [0x41, 0x42, 0x43, 0x44] (by decide))
      [0x41, 0x42, 0x43, 0x44] ⟨rfl, rfl, by decide⟩).1
      (by unfold Straddles; decide) (by unfold Consistent; decide),
    (overlap_advances_iff gapped (.segment ⟨1, 2, 3, 4⟩ 110 [0x45, 0x46, 0x47] (by decide))
      [0x45, 0x46, 0x47] ⟨rfl, rfl, by decide⟩).2 [0x45, 0x46] (by decide) (by decide) (by decide)⟩

/-- The tail `CD` of a retransmission that starts before `expected_seq` is
not appended; the tail `EF` of one that starts at a buffered key is not
buffered. -/
theorem tail_lost :
    (Straddles (ConnectionState.run {} [.synSegment ⟨1, 2, 3, 4⟩ 100,
          .segment ⟨1, 2, 3, 4⟩ 101 [0x41, 0x42] (by decide)]).toStreamState
        101 [0x41, 0x42, 0x43, 0x44] ∧
      Consistent (ConnectionState.run {} [.synSegment ⟨1, 2, 3, 4⟩ 100,
          .segment ⟨1, 2, 3, 4⟩ 101 [0x41, 0x42] (by decide)]).toStreamState
        101 [0x41, 0x42, 0x43, 0x44] ∧
      ¬ Advanced (ConnectionState.run {} [.synSegment ⟨1, 2, 3, 4⟩ 100,
          .segment ⟨1, 2, 3, 4⟩ 101 [0x41, 0x42] (by decide)]).toStreamState
        (ConnectionState.run {} [.synSegment ⟨1, 2, 3, 4⟩ 100,
          .segment ⟨1, 2, 3, 4⟩ 101 [0x41, 0x42] (by decide),
          .segment ⟨1, 2, 3, 4⟩ 101 [0x41, 0x42, 0x43, 0x44] (by decide)]).toStreamState
        101 [0x41, 0x42, 0x43, 0x44]) ∧
    (ConnectionState.run {} [.synSegment ⟨1, 2, 3, 4⟩ 100,
        .segment ⟨1, 2, 3, 4⟩ 103 [0x43, 0x44] (by decide),
        .segment ⟨1, 2, 3, 4⟩ 103 [0x43, 0x44, 0x45, 0x46] (by decide),
        .segment ⟨1, 2, 3, 4⟩ 101 [0x41, 0x42] (by decide)]).toStreamState =
      { expectedSeq := 105, payload := [0x41, 0x42, 0x43, 0x44], synReceived := true } := by
  unfold Straddles Consistent Advanced
  decide

end Wirewolf.L2.Overlap
