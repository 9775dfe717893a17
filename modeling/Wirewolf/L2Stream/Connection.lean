import Mathlib.Algebra.GroupWithZero.Nat
import Mathlib.Data.List.Induction
import Wirewolf.Core.OrdMap
import Wirewolf.Core.Serial
import Wirewolf.L1Encoding.IpPacket

/-!
# One tracked connection (`ConnectionState`, `process_ip_packet`)

What `TcpReassembler::process_ip_packet` does to the table entry of a
packet's connection (`src/src/tcp_reassembly.cpp:449-565`). The four fields
that reassembly reads and writes form `StreamState`; the statistics and the
FIN flag depend on nothing in it and are added by `ConnectionState`.

A data packet is first given a baseline when the stream has none
(`baseline`), then compared with the consumed bytes (`conflicts`, the
overlap-evasion check; a conflict ends the call), then filed (`place`):
appended at `expected_seq` followed by the drain of the buffer
(`drainLoop`), buffered when it is ahead, ignored otherwise.

`receive_cases` says all a packet can do to the stream; later modules use it
and the lemmas of `drainLoop`, not the definitions.
-/
namespace Wirewolf.L2.Connection

open Wirewolf.L1.IpPacket

/-- mirrors src/src/tcp_reassembly.cpp:75-77 -/
def seqBefore (a b : UInt32) : Bool := decide ((a - b).toInt32 < 0)

/-- mirrors src/src/tcp_reassembly.cpp:79-81 -/
def seqAfter (a b : UInt32) : Bool := seqBefore b a

theorem seqBefore_eq (a b : UInt32) : seqBefore a b = Serial.before a b := rfl

theorem seqAfter_eq (a b : UInt32) : seqAfter a b = Serial.before b a := rfl

/-- The reassembly fields of `ConnectionState`.
mirrors src/include/tcp_reassembly.hpp:35-38 -/
structure StreamState where
  expectedSeq : UInt32 := 0
  outOfOrderSegments : OrdMap UInt32 Bytes := .empty
  payload : Bytes := []
  synReceived : Bool := false
  deriving DecidableEq

/-- mirrors src/include/tcp_reassembly.hpp:34-44; times are exact. -/
structure ConnectionState extends StreamState where
  finReceived : Bool := false
  lastPacketTime : Rat := 0
  interArrivalSum : Rat := 0
  packetCount : Nat := 0
  lengthSum : Nat := 0
  lengthSqSum : Nat := 0
  deriving DecidableEq

namespace StreamState

/-- Mid-stream capture: the first data packet is the baseline.
mirrors src/src/tcp_reassembly.cpp:472-475 -/
def baseline (s : StreamState) (seq : UInt32) : StreamState :=
  if !s.synReceived && s.payload.isEmpty && s.outOfOrderSegments.isEmpty then
    { s with expectedSeq := seq }
  else s

/-- The comparison loop of the overlap check, over the segment's bytes;
`rel` is the position of the first of them in the payload. Returns
`(overlap_cmp, conflict_bytes)`.
mirrors src/src/tcp_reassembly.cpp:494-503 -/
def overlapCounts (payload : Bytes) : Int → Bytes → Nat × Nat
  | _, [] => (0, 0)
  | rel, b :: data =>
    let r := overlapCounts payload (rel + 1) data
    if 0 ≤ rel ∧ rel < payload.length then
      (r.1 + 1, if payload[rel.toNat]? ≠ some b then r.2 + 1 else r.2)
    else r

/-- The overlap-evasion verdict.
mirrors src/src/tcp_reassembly.cpp:490-504 -/
def conflicts (s : StreamState) (seq : UInt32) (data : Bytes) : Bool :=
  if !s.payload.isEmpty && s.outOfOrderSegments.isEmpty then
    let streamStart := s.expectedSeq - UInt32.ofNat s.payload.length
    let counts := overlapCounts s.payload (seq - streamStart).toInt32.toInt data
    decide (8 ≤ counts.1 ∧ 4 ≤ counts.2)
  else false

/-- The loop that consumes buffered segments in key order, up to the first
one ahead of `e = expected_seq`. Returns `expected_seq`, the payload and the
segments that stay.
mirrors src/src/tcp_reassembly.cpp:541-553 -/
def drainLoop : UInt32 → Bytes → List (UInt32 × Bytes) → UInt32 × Bytes × List (UInt32 × Bytes)
  | e, payload, [] => (e, payload, [])
  | e, payload, (k, d) :: rest =>
    if seqAfter k e then (e, payload, (k, d) :: rest)
    else if seqAfter (k + UInt32.ofNat d.length) e then
      let offset := (e - k).toNat
      drainLoop (e + UInt32.ofNat (d.length - offset)) (payload ++ d.drop offset) rest
    else drainLoop e payload rest

theorem drainLoop_sublist : ∀ (l : List (UInt32 × Bytes)) (e : UInt32) (payload : Bytes),
    (drainLoop e payload l).2.2.Sublist l
  | [], _, _ => .refl _
  | (k, d) :: rest, e, payload => by
    unfold drainLoop
    split
    · exact .refl _
    · split
      · exact .cons _ (drainLoop_sublist rest _ _)
      · exact .cons _ (drainLoop_sublist rest _ _)

/-- In-order data: append, advance, drain.
mirrors src/src/tcp_reassembly.cpp:537-553 -/
def append (s : StreamState) (data : Bytes) : StreamState :=
  let r := drainLoop (s.expectedSeq + UInt32.ofNat data.length) (s.payload ++ data)
    s.outOfOrderSegments.entries
  { s with expectedSeq := r.1, payload := r.2.1,
           outOfOrderSegments := s.outOfOrderSegments.ofSublist r.2.2 (drainLoop_sublist _ _ _) }

/-- mirrors src/src/tcp_reassembly.cpp:537-558 -/
def place (s : StreamState) (seq : UInt32) (data : Bytes) : StreamState :=
  if seq = s.expectedSeq then s.append data
  else if seqAfter seq s.expectedSeq then
    if s.outOfOrderSegments.size < 256 then
      { s with outOfOrderSegments := s.outOfOrderSegments.emplace seq data }
    else s
  else s

/-- The stream part of the call; the flag says that the overlap check found
a conflict ("TCP Evasion").
mirrors src/src/tcp_reassembly.cpp:457-559 -/
def receive (s : StreamState) (p : TcpPacket) : StreamState × Bool :=
  if p.syn then ({ s with synReceived := true, expectedSeq := p.seq + 1 }, false)
  else
    match p.data with
    | none => (s, false)
    | some [] => (s, false)
    | some data =>
      let s := s.baseline p.seq
      if s.conflicts p.seq data then (s, true) else (s.place p.seq data, false)

end StreamState

namespace ConnectionState

/-- One packet of the connection; the flag is the "TCP Evasion" verdict. The
product `payload_len * payload_len` is computed in 32 bits.
mirrors src/src/tcp_reassembly.cpp:449-565 -/
def receive (s : ConnectionState) (p : TcpPacket) : ConnectionState × Bool :=
  let r := s.toStreamState.receive p
  ({ toStreamState := r.1
     finReceived := s.finReceived || (!p.syn && (p.rst || p.fin))
     lastPacketTime := p.time
     interArrivalSum :=
       if 0 < s.packetCount then s.interArrivalSum + (p.time - s.lastPacketTime)
       else s.interArrivalSum
     packetCount := s.packetCount + 1
     lengthSum := s.lengthSum + p.payloadLen
     lengthSqSum := s.lengthSqSum + p.payloadLen * p.payloadLen % 2 ^ 32 }, r.2)

/-- The packets of one connection, in order of arrival. -/
def run (s : ConnectionState) (ps : List TcpPacket) : ConnectionState :=
  ps.foldl (fun s p => (s.receive p).1) s

@[simp] theorem run_nil (s : ConnectionState) : s.run [] = s := rfl

@[simp] theorem run_cons (s : ConnectionState) (p : TcpPacket) (ps : List TcpPacket) :
    s.run (p :: ps) = (s.receive p).1.run ps := rfl

theorem run_append (s : ConnectionState) (ps qs : List TcpPacket) :
    s.run (ps ++ qs) = (s.run ps).run qs := List.foldl_append

@[simp] theorem receive_stream (s : ConnectionState) (p : TcpPacket) :
    (s.receive p).1.toStreamState = (s.toStreamState.receive p).1 := rfl

theorem run_packetCount (s : ConnectionState) (ps : List TcpPacket) :
    (s.run ps).packetCount = s.packetCount + ps.length := by
  induction ps generalizing s with
  | nil => rfl
  | cons p ps ih =>
    rw [run_cons, ih, show (s.receive p).1.packetCount = s.packetCount + 1 from rfl,
      List.length_cons]
    omega

/-- What holds at first and survives every packet of `ps` holds at the end;
`I` may speak of the packets so far. -/
theorem run_induct {I : List TcpPacket → StreamState → Prop} {s : ConnectionState}
    {ps : List TcpPacket} (h₀ : I [] s.toStreamState)
    (hs : ∀ pre p, pre ++ [p] <+: ps → I pre (s.run pre).toStreamState →
      I (pre ++ [p]) ((s.run pre).toStreamState.receive p).1) :
    I ps (s.run ps).toStreamState := by
  have key : ∀ pre, pre <+: ps → I pre (s.run pre).toStreamState := by
    intro pre
    induction pre using List.reverseRecOn with
    | nil => exact fun _ => h₀
    | append_singleton pre p ih =>
      intro h
      rw [run_append]
      exact hs pre p h (ih (.trans (List.prefix_append ..) h))
  exact key ps (List.prefix_refl ps)

/-- A condition on every step of a run, first step first. -/
theorem forall_steps_cons {P : ConnectionState → TcpPacket → Prop} {s : ConnectionState}
    {q : TcpPacket} {ps : List TcpPacket} (hq : P s q)
    (hps : ∀ pre p, pre ++ [p] <+: ps → P ((s.receive q).1.run pre) p) :
    ∀ pre p, pre ++ [p] <+: q :: ps → P (s.run pre) p
  | [], p, h => by
    cases (List.cons_prefix_cons.1 h).1
    exact hq
  | r :: pre, p, h => by
    obtain ⟨rfl, hpre⟩ := List.cons_prefix_cons.1 h
    exact hps pre p hpre

theorem forall_steps_nil {P : ConnectionState → TcpPacket → Prop} {s : ConnectionState} :
    ∀ pre p, pre ++ [p] <+: [] → P (s.run pre) p := by simp

end ConnectionState

namespace StreamState

/-! ## What a packet does to the stream -/

theorem baseline_cases (s : StreamState) (seq : UInt32) :
    s.baseline seq = s ∨ (s.synReceived = false ∧ s.payload = [] ∧
      s.outOfOrderSegments.entries = [] ∧ s.baseline seq = { s with expectedSeq := seq }) := by
  unfold baseline
  split
  · rename_i h
    simp only [Bool.and_eq_true, Bool.not_eq_true', List.isEmpty_iff, OrdMap.isEmpty_iff] at h
    exact .inr ⟨h.1.1, h.1.2, h.2, rfl⟩
  · exact .inl rfl

theorem baseline_baseline (s : StreamState) (seq : UInt32) :
    (s.baseline seq).baseline seq = s.baseline seq := by
  rcases baseline_cases s seq with e | ⟨h₁, h₂, h₃, e⟩
  · rw [e, e]
  · rw [e]; simp [baseline, h₁, h₂, OrdMap.isEmpty, h₃]

@[simp] theorem baseline_payload (s : StreamState) (seq : UInt32) :
    (s.baseline seq).payload = s.payload := by
  unfold baseline; split <;> rfl

@[simp] theorem baseline_segments (s : StreamState) (seq : UInt32) :
    (s.baseline seq).outOfOrderSegments = s.outOfOrderSegments := by
  unfold baseline; split <;> rfl

@[simp] theorem baseline_syn (s : StreamState) (seq : UInt32) :
    (s.baseline seq).synReceived = s.synReceived := by
  unfold baseline; split <;> rfl

theorem baseline_of_payload {s : StreamState} (seq : UInt32) (h : s.payload ≠ []) :
    s.baseline seq = s := by
  rcases baseline_cases s seq with e | ⟨-, e, -⟩
  · exact e
  · exact absurd e h

theorem baseline_of_syn {s : StreamState} (seq : UInt32) (h : s.synReceived = true) :
    s.baseline seq = s := by
  rcases baseline_cases s seq with e | ⟨e, -⟩
  · exact e
  · rw [h] at e; cases e

/-- The packet carries data that reassembly looks at. -/
def IsData (p : TcpPacket) (data : Bytes) : Prop :=
  p.syn = false ∧ p.data = some data ∧ data ≠ []

theorem IsData.length_le {p : TcpPacket} {data : Bytes} (h : IsData p data) :
    data.length ≤ 65535 := by
  rw [p.data_len data h.2.1]; exact p.len_le

/-- All a packet can do to the stream. -/
theorem receive_cases (s : StreamState) (p : TcpPacket) :
    (p.syn = true ∧ s.receive p =
      ({ s with synReceived := true, expectedSeq := p.seq + 1 }, false)) ∨
    (p.syn = false ∧ (∀ d, p.data = some d → d = []) ∧ s.receive p = (s, false)) ∨
    ∃ data, IsData p data ∧
      (((s.baseline p.seq).conflicts p.seq data = true ∧ s.receive p = (s.baseline p.seq, true)) ∨
        ((s.baseline p.seq).conflicts p.seq data = false ∧
          s.receive p = ((s.baseline p.seq).place p.seq data, false))) := by
  unfold receive IsData
  cases hsyn : p.syn with
  | true => exact .inl ⟨rfl, by simp⟩
  | false =>
    right
    cases hd : p.data with
    | none => exact .inl ⟨rfl, by simp, by simp⟩
    | some d =>
      cases d with
      | nil => exact .inl ⟨rfl, by simp, by simp⟩
      | cons b d =>
        refine .inr ⟨b :: d, ⟨rfl, rfl, by simp⟩, ?_⟩
        cases hc : (s.baseline p.seq).conflicts p.seq (b :: d) with
        | true => exact .inl ⟨rfl, by simp [hc]⟩
        | false => exact .inr ⟨rfl, by simp [hc]⟩

theorem receive_isData {s : StreamState} {p : TcpPacket} {data : Bytes} (h : IsData p data) :
    s.receive p =
      if (s.baseline p.seq).conflicts p.seq data then (s.baseline p.seq, true)
      else ((s.baseline p.seq).place p.seq data, false) := by
  obtain ⟨h₁, h₂, h₃⟩ := h
  rcases receive_cases s p with ⟨hs, -⟩ | ⟨-, hd, -⟩ | ⟨d, ⟨-, hd, -⟩, ⟨hc, e⟩ | ⟨hc, e⟩⟩
  · rw [h₁] at hs; cases hs
  · exact absurd (hd data h₂) h₃
  · cases h₂.symm.trans hd; rw [e, if_pos hc]
  · cases h₂.symm.trans hd; rw [e, if_neg (by simp [hc])]

/-- A packet without data, SYN apart, leaves the stream alone. -/
theorem receive_noData {s : StreamState} {p : TcpPacket} (hs : p.syn = false)
    (hd : ∀ d, p.data = some d → d = []) : s.receive p = (s, false) := by
  rcases receive_cases s p with ⟨h, -⟩ | ⟨-, -, e⟩ | ⟨d, ⟨-, h₁, h₂⟩, -⟩
  · rw [hs] at h; cases h
  · exact e
  · exact absurd (hd d h₁) h₂

/-- `place` appends, buffers under a new key, or leaves the stream alone. -/
theorem place_cases (s : StreamState) (seq : UInt32) (data : Bytes) :
    (seq = s.expectedSeq ∧ s.place seq data = s.append data) ∨
    (seq ≠ s.expectedSeq ∧ seqAfter seq s.expectedSeq = true ∧ s.outOfOrderSegments.size < 256 ∧
      s.outOfOrderSegments.hasKey seq = false ∧
      s.place seq data =
        { s with outOfOrderSegments := s.outOfOrderSegments.emplace seq data }) ∨
    (seq ≠ s.expectedSeq ∧ s.place seq data = s ∧
      (seqAfter seq s.expectedSeq = false ∨ 256 ≤ s.outOfOrderSegments.size ∨
        s.outOfOrderSegments.hasKey seq = true)) := by
  unfold place
  by_cases h₁ : seq = s.expectedSeq
  · exact .inl ⟨h₁, by rw [if_pos h₁]⟩
  refine .inr ?_
  rw [if_neg h₁]
  cases h₂ : seqAfter seq s.expectedSeq with
  | false => exact .inr ⟨h₁, by simp, .inl rfl⟩
  | true =>
    by_cases h₃ : s.outOfOrderSegments.size < 256
    · cases h₄ : s.outOfOrderSegments.hasKey seq with
      | false => exact .inl ⟨h₁, rfl, h₃, rfl, by simp [h₃]⟩
      | true =>
        obtain ⟨w, hw⟩ := OrdMap.hasKey_iff.1 h₄
        have hm : s.outOfOrderSegments.emplace seq data = s.outOfOrderSegments := by
          have := OrdMap.emplace_of_mem (v := data) hw
          cases hs : s.outOfOrderSegments with
          | mk l hl => rw [hs] at this; simp only [OrdMap.emplace] at this ⊢; congr
        refine .inr ⟨h₁, ?_, .inr (.inr rfl)⟩
        simp [h₃, hm]
    · exact .inr ⟨h₁, by simp [h₃], .inr (.inl (by omega))⟩

@[simp] theorem append_syn (s : StreamState) (data : Bytes) :
    (s.append data).synReceived = s.synReceived := rfl

@[simp] theorem append_entries (s : StreamState) (data : Bytes) :
    (s.append data).outOfOrderSegments.entries =
      (drainLoop (s.expectedSeq + UInt32.ofNat data.length) (s.payload ++ data)
        s.outOfOrderSegments.entries).2.2 := rfl

theorem place_syn (s : StreamState) (seq : UInt32) (data : Bytes) :
    (s.place seq data).synReceived = s.synReceived := by
  rcases place_cases s seq data with ⟨-, e⟩ | ⟨-, -, -, -, e⟩ | ⟨-, e, -⟩
  · rw [e, append_syn]
  · rw [e]
  · rw [e]

theorem drainLoop_extends : ∀ (l : List (UInt32 × Bytes)) (e : UInt32) (payload : Bytes),
    payload <+: (drainLoop e payload l).2.1
  | [], _, _ => List.prefix_refl _
  | (k, d) :: rest, e, payload => by
    unfold drainLoop
    split
    · exact List.prefix_refl _
    · split
      · exact .trans (List.prefix_append ..) (drainLoop_extends rest _ _)
      · exact drainLoop_extends rest _ _

theorem append_payload (s : StreamState) (data : Bytes) :
    s.payload ++ data <+: (s.append data).payload := drainLoop_extends ..

/-- Consumed bytes stay. -/
theorem place_payload (s : StreamState) (seq : UInt32) (data : Bytes) :
    s.payload <+: (s.place seq data).payload := by
  rcases place_cases s seq data with ⟨-, e⟩ | ⟨-, -, -, -, e⟩ | ⟨-, e, -⟩
  · rw [e]; exact .trans (List.prefix_append ..) (s.append_payload data)
  · simp only [e, List.prefix_rfl]
  · simp only [e, List.prefix_rfl]

theorem receive_payload (s : StreamState) (p : TcpPacket) :
    s.payload <+: (s.receive p).1.payload := by
  rcases receive_cases s p with ⟨-, e⟩ | ⟨-, -, e⟩ | ⟨d, -, ⟨-, e⟩ | ⟨-, e⟩⟩
  · simp only [e, List.prefix_rfl]
  · simp only [e, List.prefix_rfl]
  · simp only [e, baseline_payload, List.prefix_rfl]
  · rw [e]
    have := place_payload (s.baseline p.seq) p.seq d
    rwa [baseline_payload] at this

/-- The drain advances `expected_seq` by what it appends, which is no more than
was buffered. -/
theorem drainLoop_advance : ∀ (l : List (UInt32 × Bytes)) (e : UInt32) (payload : Bytes),
    ∃ n, (drainLoop e payload l).1 = e + UInt32.ofNat n ∧
      (drainLoop e payload l).2.1.length = payload.length + n ∧ n ≤ (l.map fun x => x.2.length).sum
  | [], e, _ => ⟨0, by simp [drainLoop]⟩
  | (k, d) :: rest, e, payload => by
    unfold drainLoop
    split
    · exact ⟨0, by simp⟩
    · split
      · obtain ⟨n, h₁, h₂, h₃⟩ := drainLoop_advance rest
          (e + UInt32.ofNat (d.length - (e - k).toNat)) (payload ++ d.drop (e - k).toNat)
        refine ⟨d.length - (e - k).toNat + n, ?_, ?_, ?_⟩
        · rw [h₁, UInt32.ofNat_add, UInt32.add_assoc]
        · rw [h₂, List.length_append, List.length_drop, Nat.add_assoc]
        · simp only [List.map_cons, List.sum_cons]; omega
      · obtain ⟨n, h₁, h₂, h₃⟩ := drainLoop_advance rest e payload
        exact ⟨n, h₁, h₂, by rw [List.map_cons, List.sum_cons]; omega⟩

/-- The limits on what is buffered. -/
structure Bounded (s : StreamState) : Prop where
  count : s.outOfOrderSegments.size ≤ 256
  length : ∀ e ∈ s.outOfOrderSegments.entries, e.2 ≠ [] ∧ e.2.length ≤ 65535

theorem Bounded.total {s : StreamState} (h : Bounded s) :
    (s.outOfOrderSegments.entries.map fun x => x.2.length).sum ≤ 256 * 65535 := by
  have key : ∀ l : List (UInt32 × Bytes), (∀ e ∈ l, e.2 ≠ [] ∧ e.2.length ≤ 65535) →
      (l.map fun x => x.2.length).sum ≤ l.length * 65535 := by
    intro l hl
    induction l with
    | nil => simp
    | cons e l ih =>
      have := (hl e (List.mem_cons_self ..)).2
      have := ih fun x hx => hl x (List.mem_cons_of_mem _ hx)
      rw [List.map_cons, List.sum_cons, List.length_cons]; omega
  exact Nat.le_trans (key _ h.length) (Nat.mul_le_mul_right _ h.count)

theorem Bounded.baseline {s : StreamState} (h : Bounded s) (seq : UInt32) :
    Bounded (s.baseline seq) :=
  ⟨by rw [baseline_segments]; exact h.count, by rw [baseline_segments]; exact h.length⟩

theorem Bounded.receive {s : StreamState} (h : Bounded s) (p : TcpPacket) :
    Bounded (s.receive p).1 := by
  have hbase := h.baseline p.seq
  rcases receive_cases s p with ⟨-, e⟩ | ⟨-, -, e⟩ | ⟨data, hd, ⟨-, e⟩ | ⟨-, e⟩⟩
  · rw [e]; exact ⟨h.count, h.length⟩
  · rw [e]; exact h
  · rw [e]; exact hbase
  · rw [e]
    rcases place_cases (s.baseline p.seq) p.seq data with ⟨-, e⟩ | ⟨-, -, hlt, -, e⟩ | ⟨-, e, -⟩
    · rw [e]
      have hsub := drainLoop_sublist (s.baseline p.seq).outOfOrderSegments.entries
        ((s.baseline p.seq).expectedSeq + UInt32.ofNat data.length)
          ((s.baseline p.seq).payload ++ data)
      exact ⟨Nat.le_trans hsub.length_le hbase.count, fun x hx => hbase.length x (hsub.subset hx)⟩
    · rw [e]
      refine ⟨Nat.le_trans (OrdMap.size_emplace_le ..) hlt, fun x hx => ?_⟩
      rcases OrdMap.mem_emplace hx with hx | rfl
      · exact hbase.length x hx
      · exact ⟨hd.2.2, hd.length_le⟩
    · rw [e]; exact hbase

theorem Bounded.run (ps : List TcpPacket) : Bounded (ConnectionState.run {} ps).toStreamState :=
  ConnectionState.run_induct (I := fun _ s => Bounded s) ⟨by decide, by simp⟩
    fun _ p _ h => h.receive p

/-- The stream has a baseline. -/
def Based (s : StreamState) : Prop := s.synReceived = true ∨ s.payload ≠ []

theorem Based.baseline {s : StreamState} (h : Based s) (seq : UInt32) : s.baseline seq = s :=
  h.elim (baseline_of_syn seq) (baseline_of_payload seq)

theorem Based.receive {s : StreamState} (h : Based s) (p : TcpPacket) : Based (s.receive p).1 := by
  rcases h with h | h
  · left
    rcases receive_cases s p with ⟨-, e⟩ | ⟨-, -, e⟩ | ⟨d, -, ⟨-, e⟩ | ⟨-, e⟩⟩
    · rw [e]
    · rw [e]; exact h
    · rw [e, baseline_syn]; exact h
    · rw [e, place_syn, baseline_syn]; exact h
  · right
    intro he
    have := s.receive_payload p
    rw [he, List.prefix_nil] at this
    exact h this

end StreamState
end Wirewolf.L2.Connection
