import Wirewolf.L2Stream.Connection

/-!
# The base of the stream

`streamBase` is the sequence number of the first payload byte, as the
overlap check reconstructs it (`stream_start`).

* `receive_base`: a packet with the SYN flag clear never moves the base of a
  non-empty payload; a SYN keeps it exactly when it announces
  `expected_seq`.
* `base_constant_iff`: the same over whole runs.
* `base_moved`: a retransmitted SYN, after which bytes already consumed are
  appended again.
-/
namespace Wirewolf.L2.Base

open Wirewolf.L1.IpPacket Wirewolf.L2.Connection Wirewolf.L2.Connection.StreamState

/-- mirrors src/src/tcp_reassembly.cpp:490-491 -/
def streamBase (s : StreamState) : UInt32 := s.expectedSeq - UInt32.ofNat s.payload.length

theorem advance_base (e : UInt32) (m n : Nat) :
    e + UInt32.ofNat n - UInt32.ofNat (m + n) = e - UInt32.ofNat m := by
  rw [UInt32.ofNat_add]; grind

theorem append_base (s : StreamState) (data : Bytes) :
    streamBase (s.append data) = streamBase s := by
  obtain ⟨n, h₁, h₂, -⟩ := drainLoop_advance s.outOfOrderSegments.entries
    (s.expectedSeq + UInt32.ofNat data.length) (s.payload ++ data)
  simp only [streamBase, StreamState.append, h₁, h₂, List.length_append]
  rw [advance_base, advance_base]

theorem place_base (s : StreamState) (seq : UInt32) (data : Bytes) :
    streamBase (s.place seq data) = streamBase s := by
  rcases place_cases s seq data with ⟨-, e⟩ | ⟨-, -, -, -, e⟩ | ⟨-, e, -⟩
  · rw [e]; exact append_base s data
  · rw [e]; rfl
  · rw [e]

/-- One packet, once there is payload. -/
theorem receive_base {s : StreamState} (h : s.payload ≠ []) (p : TcpPacket) :
    streamBase (s.receive p).1 = streamBase s ↔ (p.syn = true → p.seq + 1 = s.expectedSeq) := by
  rcases receive_cases s p with ⟨hs, e⟩ | ⟨hs, -, e⟩ | ⟨data, hd, ⟨-, e⟩ | ⟨-, e⟩⟩
  · rw [e]
    unfold streamBase
    constructor
    · intro he _; grind
    · intro he; rw [← he hs]
  · rw [e]; simp [hs]
  · rw [e, baseline_of_payload _ h]; simp [hd.1]
  · rw [e, baseline_of_payload _ h, place_base]; simp [hd.1]

theorem run_payload (s : ConnectionState) (ps : List TcpPacket) :
    s.payload <+: (s.run ps).payload := by
  induction ps generalizing s with
  | nil => exact List.prefix_refl _
  | cons p ps ih =>
    rw [ConnectionState.run_cons]
    exact (s.toStreamState.receive_payload p).trans (ih (s.receive p).1)

theorem run_base {s : ConnectionState} (h : s.payload ≠ []) (ps : List TcpPacket)
    (hs : ∀ pre p, pre ++ [p] <+: ps → p.syn = true → p.seq + 1 = (s.run pre).expectedSeq) :
    streamBase (s.run ps).toStreamState = streamBase s.toStreamState := by
  refine ConnectionState.run_induct (I := fun _ t => streamBase t = streamBase s.toStreamState) rfl
    fun pre p hpre ih => ?_
  rw [← ih]
  refine (receive_base ?_ p).2 (hs pre p hpre)
  intro hnil
  have := run_payload s pre
  rw [hnil] at this
  exact h (List.prefix_nil.1 this)

/-- Over a run, the base is constant once there is payload exactly when every
SYN that arrives from then on announces `expected_seq`. -/
theorem base_constant_iff (ps : List TcpPacket) :
    (∀ pre mid, pre ++ mid <+: ps → (ConnectionState.run {} pre).payload ≠ [] →
        streamBase (ConnectionState.run {} (pre ++ mid)).toStreamState =
          streamBase (ConnectionState.run {} pre).toStreamState) ↔
      ∀ pre p, pre ++ [p] <+: ps → (ConnectionState.run {} pre).payload ≠ [] → p.syn = true →
        p.seq + 1 = (ConnectionState.run {} pre).expectedSeq := by
  constructor
  · intro h pre p hpre hne
    have := h pre [p] hpre hne
    rw [ConnectionState.run_append] at this
    exact (receive_base hne p).1 this
  · intro h pre mid hmid hne
    rw [ConnectionState.run_append]
    refine run_base hne mid fun mid' p hp hsyn => ?_
    rw [← ConnectionState.run_append]
    refine h (pre ++ mid') p ?_ ?_ hsyn
    · rw [List.append_assoc]
      exact ((List.prefix_append_right_inj pre).2 hp).trans hmid
    · rw [ConnectionState.run_append]
      intro hnil
      have := run_payload (ConnectionState.run {} pre) mid'
      rw [hnil] at this
      exact hne (List.prefix_nil.1 this)

/-- `AB`, the SYN again, `AB` again. -/
theorem base_moved :
    streamBase (ConnectionState.run {} [.synSegment ⟨1, 2, 3, 4⟩ 100,
        .segment ⟨1, 2, 3, 4⟩ 101 [0x41, 0x42] (by decide)]).toStreamState = 101 ∧
      streamBase (ConnectionState.run {} [.synSegment ⟨1, 2, 3, 4⟩ 100,
        .segment ⟨1, 2, 3, 4⟩ 101 [0x41, 0x42] (by decide),
        .synSegment ⟨1, 2, 3, 4⟩ 100,
        .segment ⟨1, 2, 3, 4⟩ 101 [0x41, 0x42] (by decide)]).toStreamState = 99 ∧
      (ConnectionState.run {} [.synSegment ⟨1, 2, 3, 4⟩ 100,
        .segment ⟨1, 2, 3, 4⟩ 101 [0x41, 0x42] (by decide),
        .synSegment ⟨1, 2, 3, 4⟩ 100,
        .segment ⟨1, 2, 3, 4⟩ 101 [0x41, 0x42] (by decide)]).payload =
          [0x41, 0x42, 0x41, 0x42] := by
  decide

end Wirewolf.L2.Base
