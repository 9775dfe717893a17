import Wirewolf.L2Stream.Placement

/-!
# The drain across the wrap of the sequence numbers

The buffer is a `std::map` ordered by the raw 32-bit key, the drain loop
compares circularly and stops at the first key ahead of `expected_seq`. The
packets lie in a window of less than 2^31 sequence numbers from `o`
(`InWindow`), of any content.

* `WrapGap`: a key ahead of the segment's end stands, in raw order, before a
  key that is not, and the gap in front of it is not filled by what precedes
  it.
* `drain_step`: an in-order segment leaves a key that is not ahead of
  `expected_seq` exactly when there is such a gap; `drain_complete_iff` is
  the same over whole runs.
* `drain_incomplete`: a capture in which it happens.
-/
namespace Wirewolf.L2.Wrap

open Wirewolf.L1.IpPacket Wirewolf.L2.Connection Wirewolf.L2.Connection.StreamState
open Wirewolf.Overlay Wirewolf.Serial Wirewolf.L2.Placement

/-- The packet lies in the window of `W` sequence numbers from `o`. -/
def InWindow (o : UInt32) (W : Nat) (p : TcpPacket) : Prop :=
  if p.syn then (p.seq + 1 - o).toNat ≤ W
  else ∀ d, p.data = some d → d ≠ [] → (p.seq - o).toNat + d.length ≤ W

/-- The packet is an in-order data segment that the call accepts. -/
def InOrder (s : StreamState) (p : TcpPacket) (data : Bytes) : Prop :=
  IsData p data ∧ p.seq = (s.baseline p.seq).expectedSeq ∧
    (s.baseline p.seq).conflicts p.seq data = false

/-- No buffered segment starts at or before `expected_seq`. -/
def Complete (s : StreamState) : Prop :=
  ∀ e ∈ s.outOfOrderSegments.entries, seqAfter e.1 s.expectedSeq = true

/-- Key `k₁` is ahead of `e`, a larger key `k₂` is not, and some sequence
number `q` from `e` up to `k₁` is in no segment with a smaller key. -/
def WrapGap (s : StreamState) (e : UInt32) : Prop :=
  ∃ x ∈ s.outOfOrderSegments.entries, ∃ y ∈ s.outOfOrderSegments.entries, x.1 < y.1 ∧
    seqAfter x.1 e = true ∧ seqAfter y.1 e = false ∧
    ∃ q, seqBefore q e = false ∧ seqBefore q x.1 = true ∧
      ∀ z ∈ s.outOfOrderSegments.entries, z.1 < x.1 → z.2.length ≤ (q - z.1).toNat

/-- The state after packets of the window: nothing yet, or based with
everything inside the window. -/
def Windowed (o : UInt32) (W : Nat) (s : StreamState) : Prop :=
  (¬ Based s ∧ s.outOfOrderSegments.entries = []) ∨
    (Based s ∧ ∃ E buf, At o s E buf ∧ E ≤ W ∧ ∀ x ∈ buf, x.1 + x.2.length ≤ W)

section Window

variable {o : UInt32} {W : Nat} {s : StreamState} {p : TcpPacket} {data : Bytes}

theorem Windowed.baseline (h : Windowed o W s) {a : Nat} (ha : a ≤ W) :
    ∃ E buf, At o (s.baseline (pos o a)) E buf ∧ E ≤ W ∧ (¬ Based s → E = a) ∧
      ∀ x ∈ buf, x.1 + x.2.length ≤ W := by
  rcases h with ⟨hb, he⟩ | ⟨hb, E, buf, hat, hE, hw⟩
  · refine ⟨a, [], At.of_empty o ?_ (by rw [baseline_segments]; exact he), ha,
      fun _ => rfl, by simp⟩
    simp only [Based, not_or, not_not, Bool.not_eq_true] at hb
    simp [StreamState.baseline, hb.1, hb.2, OrdMap.isEmpty, he]
  · rw [hb.baseline]; exact ⟨E, buf, hat, hE, fun h => absurd hb h, hw⟩

theorem InWindow.syn (h : InWindow o W p) (hs : p.syn = true) :
    ∃ a, a ≤ W ∧ p.seq + 1 = pos o a := by
  unfold InWindow at h
  rw [if_pos hs] at h
  exact ⟨_, h, (pos_dist o _).symm⟩

theorem InWindow.segment (h : InWindow o W p) (hd : IsData p data) :
    ∃ a, a + data.length ≤ W ∧ p.seq = pos o a := by
  unfold InWindow at h
  rw [if_neg (by simp [hd.1])] at h
  exact ⟨_, h data hd.2.1 hd.2.2, (pos_dist o _).symm⟩

/-- An in-order segment, in positions: it ends at `n`, and the drain runs
from there. -/
theorem InOrder.receive (h : Windowed o W s) (hW : W < 2 ^ 31) (hp : InWindow o W p)
    (hi : InOrder s p data) : ∃ n buf, p.seq + UInt32.ofNat data.length = pos o n ∧ n ≤ W ∧
      At o { s with expectedSeq := pos o n } n buf ∧ (∀ x ∈ buf, x.1 + x.2.length ≤ W) ∧
      At o (s.receive p).1 (consume n (s.payload ++ data) buf).1
        (consume n (s.payload ++ data) buf).2.2 := by
  obtain ⟨hd, hseq, hc⟩ := hi
  obtain ⟨a, ha, hpa⟩ := hp.segment hd
  obtain ⟨E, buf, hat, hE, -, hw⟩ := h.baseline (a := a) (by omega)
  have haE : E = a := by
    rw [hpa, hat.expected] at hseq
    exact ((pos_inj o (by omega) (by omega)).1 hseq).symm
  subst haE
  have hB := consume_bound (B := W) buf (E + data.length) (s.payload ++ data) ha hw
  have hr : (s.receive p).1 = (s.baseline p.seq).append data := by
    rw [receive_isData hd, hc]
    simp [StreamState.place, ← hseq]
  have happ := (hat.append data fun x hx => by rw [baseline_payload]; omega).1
  rw [baseline_payload] at happ
  refine ⟨E + data.length, buf, by rw [hpa, pos_add_ofNat], ha,
    hat.move rfl (by rw [baseline_segments]) fun x hx => ?_, hw, by rw [hr, hpa]; exact happ⟩
  have := hw x hx; omega

theorem Windowed.receive (h : Windowed o W s) (hW : W < 2 ^ 31) (hp : InWindow o W p) :
    Windowed o W (s.receive p).1 := by
  rcases receive_cases s p with ⟨hs, e⟩ | ⟨-, -, e⟩ | ⟨data, hd, hr⟩
  · obtain ⟨a, ha, hpa⟩ := hp.syn hs
    rw [e]
    refine .inr ⟨.inl rfl, ?_⟩
    rcases h with ⟨-, he⟩ | ⟨-, E, buf, hat, hE, hw⟩
    · exact ⟨a, [], At.of_empty o hpa he, ha, by simp⟩
    · refine ⟨a, buf, hat.move hpa rfl fun x hx => ?_, ha, hw⟩
      have := hw x hx; omega
  · rw [e]; exact h
  · obtain ⟨a, ha, hpa⟩ := hp.segment hd
    obtain ⟨E, buf, hat, hE, hfirst, hw⟩ := h.baseline (a := a) (by omega)
    rcases hr with ⟨hc, e⟩ | ⟨hc, e⟩
    · -- a conflict needs consumed bytes, so the stream is based
      have hb : Based s := by
        refine .inr fun hnil => ?_
        simp [StreamState.conflicts, hnil] at hc
      rw [e, hb.baseline]; exact h
    · by_cases hord : p.seq = (s.baseline p.seq).expectedSeq
      · have hi : InOrder s p data := ⟨hd, hord, hc⟩
        obtain ⟨n, buf', -, hn, -, hw', hat'⟩ := hi.receive h hW hp
        refine .inr ⟨?_, _, _, hat', consume_bound _ _ _ hn hw', fun x hx => ?_⟩
        · right
          rw [e]
          simp only [StreamState.place, ← hord, if_true]
          exact fun hnil => hd.2.2 (List.append_eq_nil_iff.1
            (List.prefix_nil.1 (hnil ▸ (s.baseline p.seq).append_payload data))).2
        · obtain ⟨used, add, hcons⟩ := consume_spec buf' n (s.payload ++ data)
          exact hw' x (hcons.mem_rest hx)
      · have hb : Based s := by
          by_contra hb
          exact hord (by rw [hpa, hat.expected, hfirst hb])
        rw [e, hb.baseline, hpa]
        rw [hb.baseline] at hat
        rcases hat.place (x := a) data (by omega) (by omega) hd.2.2 hd.length_le with
          ⟨rfl, -⟩ | ⟨-, -, lo, hi, rfl, -, -, hat', -⟩ | ⟨-, e', -⟩
        · rw [hb.baseline, hpa, hat.expected] at hord; exact absurd rfl hord
        · refine .inr ⟨?_, E, _, hat', hE, forall_middle ha hw⟩
          have := hb.receive p; rwa [e, hb.baseline, hpa] at this
        · rw [e']; exact .inr ⟨hb, E, buf, hat, hE, hw⟩

end Window

/-! ## Gaps -/

/-- `WrapGap` in positions: the buffer splits at a segment past `n` that no
earlier one leads up to, with a segment at or before `n` behind it. -/
def Gap (n : Nat) (buf : List (Nat × Bytes)) : Prop :=
  ∃ lo x hi, buf = lo ++ x :: hi ∧ n < x.1 ∧ (∃ y ∈ hi, y.1 ≤ n) ∧
    ∃ q, n ≤ q ∧ q < x.1 ∧ ∀ z ∈ lo, ¬ Covers z q

section Gaps

variable {o : UInt32} {W n : Nat} {s : StreamState} {buf : List (Nat × Bytes)}

theorem wrapGap_iff (h : At o s n buf) (hW : W < 2 ^ 31) (hn : n ≤ W)
    (hw : ∀ x ∈ buf, x.1 + x.2.length ≤ W) : WrapGap s (pos o n) ↔ Gap n buf := by
  have hafter : ∀ {x}, x ∈ buf → (seqAfter (pos o x.1) (pos o n) = true ↔ n < x.1) := by
    intro x hx
    have := hw x hx
    exact seqAfter_pos o (by omega) (by omega)
  unfold WrapGap
  rw [h.entries]
  constructor
  · rintro ⟨_, hx, _, hy, hlt, hxa, hya, q, hq₁, hq₂, hq₃⟩
    obtain ⟨x, hx', rfl⟩ := List.mem_map.1 hx
    obtain ⟨y, hy', rfl⟩ := List.mem_map.1 hy
    simp only [enc] at hlt hxa hya hq₂ hq₃
    have hnx := (hafter hx').1 hxa
    have hyn : y.1 ≤ n := Nat.not_lt.1 fun hlt => by rw [(hafter hy').2 hlt] at hya; cases hya
    have hxW := hw x hx'
    -- the position of `q` seen from `n`
    obtain ⟨m, hm, rfl⟩ : ∃ m, m < 2 ^ 31 ∧ q = pos o (n + m) := by
      refine ⟨(q - pos o n).toNat, ?_, by rw [← pos_pos, pos_dist]⟩
      by_contra hge
      rw [seqBefore_eq, (before_iff q (pos o n)).2 (by omega)] at hq₁; cases hq₁
    have hqx : n + m < x.1 := by
      rw [seqBefore_eq] at hq₂
      exact (before_pos o (by omega) (by omega)).1 hq₂
    obtain ⟨lo, hi, rfl⟩ := List.append_of_mem hx'
    have hs := h.sorted
    obtain ⟨-, hs₂, hs₃⟩ := List.pairwise_append.1 hs
    refine ⟨lo, x, hi, rfl, hnx, ⟨y, ?_, hyn⟩, n + m, by omega, hqx, fun z hz hcov => ?_⟩
    · rcases List.mem_append.1 hy' with hy' | hy'
      · exact absurd (hs₃ y hy' x (List.mem_cons_self ..)) (lt_asymm hlt)
      · rcases List.mem_cons.1 hy' with rfl | hy'
        · exact absurd hlt (lt_irrefl _)
        · exact hy'
    · have hzlt := hs₃ z hz x (List.mem_cons_self ..)
      have hcov₂ := hcov.2
      have := hq₃ (enc o z) (List.mem_map_of_mem (List.mem_append_left _ hz)) hzlt
      simp only [enc] at this
      rw [pos_sub o hcov.1 (by omega)] at this
      have := hcov.1; omega
  · rintro ⟨lo, x, hi, rfl, hnx, ⟨y, hy, hyn⟩, q, hq₁, hq₂, hq₃⟩
    have hx' : x ∈ lo ++ x :: hi := by simp
    have hy' : y ∈ lo ++ x :: hi := List.mem_append_right _ (List.mem_cons_of_mem _ hy)
    have hxW := hw x hx'
    obtain ⟨hs₁, hs₂, hs₃⟩ := List.pairwise_append.1 h.sorted
    obtain ⟨hxhi, -⟩ := List.pairwise_cons.1 hs₂
    refine ⟨enc o x, List.mem_map_of_mem hx', enc o y, List.mem_map_of_mem hy', hxhi y hy,
      (hafter hx').2 hnx, ?_, pos o q, ?_, ?_, ?_⟩
    · rw [← Bool.not_eq_true, enc, hafter hy']; omega
    · rw [← Bool.not_eq_true, seqBefore_eq, before_pos o (by omega) (by omega)]; omega
    · rw [seqBefore_eq, enc, before_pos o (by omega) (by omega)]; exact hq₂
    · intro z hz hzx
      obtain ⟨z, hz', rfl⟩ := List.mem_map.1 hz
      simp only [enc] at hzx ⊢
      have hzlo : z ∈ lo := by
        rcases List.mem_append.1 hz' with hz' | hz'
        · exact hz'
        · rcases List.mem_cons.1 hz' with rfl | hz'
          · exact absurd hzx (lt_irrefl _)
          · exact absurd (hxhi z hz') (lt_asymm hzx)
      have hnc := hq₃ z hzlo
      have hzW := hw z hz'
      have hsmall := (h.small z hz').2
      rcases Nat.lt_or_ge q z.1 with hlt | hge
      · rw [pos_sub_lt o hlt (by omega)]; omega
      · rw [pos_sub o hge (by omega)]
        have : ¬ q < z.1 + z.2.length := fun hlt => hnc ⟨hge, hlt⟩
        omega

/-- The drain from `n` leaves a segment at or before its end exactly when
there is a gap. -/
theorem consume_complete_iff (h : At o s n buf) (hW : W < 2 ^ 31)
    (hw : ∀ x ∈ buf, x.1 + x.2.length ≤ W) (out : Bytes) :
    (∀ x ∈ (consume n out buf).2.2, (consume n out buf).1 < x.1) ↔ ¬ Gap n buf := by
  obtain ⟨used, add, hc⟩ := consume_spec buf n out
  constructor
  · rintro hall ⟨lo, x, hi, rfl, hnx, ⟨y, hy, hyn⟩, q, hq₁, hq₂, hq₃⟩
    have hsuf := consume_gap (t := hi) (o := out) hq₁ hq₂ hq₃
    have hlt := hall y (hsuf.subset (List.mem_cons_of_mem _ hy))
    have hle := hc.le
    omega
  · intro hgap y hy
    by_contra hge
    generalize consume n out buf = r at hc hy hge
    -- the drain stopped at `x`, and `y` is behind it
    obtain ⟨x, rest, hrest⟩ := List.exists_cons_of_ne_nil (List.ne_nil_of_mem hy)
    rw [hrest] at hc hy
    have hx := hc.rest_lt x (by simp)
    have hle := hc.le
    have hy' : y ∈ rest := by
      rcases List.mem_cons.1 hy with rfl | hy
      · exact absurd hx hge
      · exact hy
    refine hgap ⟨used, x, rest, hc.split, by omega, ⟨y, hy', ?_⟩, r.1, hle, hx, fun z hz hcov =>
      absurd hcov.2 (Nat.not_lt.2 (hc.used_le z hz))⟩
    by_contra hny
    obtain ⟨c, hcov, -⟩ := hc.cover_used n (Nat.le_refl n) (by omega)
    obtain ⟨z, hz, hzn, -⟩ := cover_some hcov
    have hs := h.sorted
    rw [hc.split] at hs hw
    obtain ⟨-, hs₂, hs₃⟩ := List.pairwise_append.1 hs
    have hzx := hs₃ z hz x (List.mem_cons_self ..)
    have hxy := (List.pairwise_cons.1 hs₂).1 y hy'
    have hzW := hw z (List.mem_append_left _ hz)
    have hxW := hw x (by simp)
    have hyW := hw y (List.mem_append_right _ hy)
    have hz₁ := hzn.1
    rw [pos_lt_pos o (by omega) (by omega)] at hzx hxy
    omega

end Gaps

/-- One in-order segment. -/
theorem drain_step {o : UInt32} {W : Nat} {s : StreamState} {p : TcpPacket} {data : Bytes}
    (h : Windowed o W s) (hW : W < 2 ^ 31) (hp : InWindow o W p) (hi : InOrder s p data) :
    Complete (s.receive p).1 ↔ ¬ WrapGap s (p.seq + UInt32.ofNat data.length) := by
  obtain ⟨n, buf, hend, hn, hat, hw, hat'⟩ := hi.receive h hW hp
  have hgap : WrapGap s (p.seq + UInt32.ofNat data.length) ↔ Gap n buf := by
    rw [hend]; exact wrapGap_iff (s := { s with expectedSeq := pos o n }) hat hW hn hw
  rw [hgap, ← consume_complete_iff hat hW hw (s.payload ++ data)]
  have hB := consume_bound (B := W) buf n (s.payload ++ data) hn hw
  obtain ⟨used, add, hc⟩ := consume_spec buf n (s.payload ++ data)
  unfold Complete
  rw [hat'.entries, hat'.expected]
  simp only [List.forall_mem_map, enc]
  refine forall_congr' fun x => imp_congr_right fun hx => seqAfter_pos o (by omega) ?_
  have := hw x (hc.mem_rest hx); omega

theorem Windowed.run {o : UInt32} {W : Nat} {ps : List TcpPacket} (hW : W < 2 ^ 31)
    (hp : ∀ p ∈ ps, InWindow o W p) : Windowed o W (ConnectionState.run {} ps).toStreamState :=
  ConnectionState.run_induct (I := fun _ s => Windowed o W s)
    (.inl ⟨by simp [Based], rfl⟩) fun _ p hpre h => h.receive hW (hp p (hpre.subset (by simp)))

/-- Over a run in a window, every in-order segment leaves only segments ahead
of `expected_seq` exactly when none of them meets a wrap gap. -/
theorem drain_complete_iff (o : UInt32) (W : Nat) (hW : W < 2 ^ 31) (ps : List TcpPacket)
    (hp : ∀ p ∈ ps, InWindow o W p) :
    (∀ pre p data, pre ++ [p] <+: ps →
        InOrder (ConnectionState.run {} pre).toStreamState p data →
        Complete (ConnectionState.run {} (pre ++ [p])).toStreamState) ↔
      ∀ pre p data, pre ++ [p] <+: ps →
        InOrder (ConnectionState.run {} pre).toStreamState p data →
        ¬ WrapGap (ConnectionState.run {} pre).toStreamState
          (p.seq + UInt32.ofNat data.length) := by
  refine forall_congr' fun pre => forall_congr' fun p => forall_congr' fun data =>
    forall_congr' fun hpre => forall_congr' fun hi => ?_
  have hwin := Windowed.run hW fun q hq => hp q (hpre.subset (List.mem_append_left _ hq))
  rw [ConnectionState.run_append]
  exact drain_step hwin hW (hp p (hpre.subset (by simp))) hi

/-- The stream wraps 20 bytes past the SYN. Two segments wait, one on either
side of the wrap, when the first 10 bytes come in. -/
def wrapCapture : List TcpPacket :=
  [.synSegment ⟨1, 2, 3, 4⟩ 0xFFFFFFEB,
    .segment ⟨1, 2, 3, 4⟩ 0xFFFFFFF6 (List.replicate 10 0x42) (by decide),
    .segment ⟨1, 2, 3, 4⟩ 5 (List.replicate 3 0x43) (by decide)]

/-- The capture goes on with the first 10 bytes of the stream. -/
def closedCapture : List TcpPacket :=
  wrapCapture ++ [.segment ⟨1, 2, 3, 4⟩ 0xFFFFFFEC (List.replicate 10 0x41) (by decide)]

theorem drain_complete_closedCapture :
    (∀ pre p data, pre ++ [p] <+: closedCapture →
        InOrder (ConnectionState.run {} pre).toStreamState p data →
        Complete (ConnectionState.run {} (pre ++ [p])).toStreamState) ↔
      ∀ pre p data, pre ++ [p] <+: closedCapture →
        InOrder (ConnectionState.run {} pre).toStreamState p data →
        ¬ WrapGap (ConnectionState.run {} pre).toStreamState (p.seq + UInt32.ofNat data.length) :=
  drain_complete_iff 0xFFFFFFEC 100 (by decide) closedCapture (by
    simp only [closedCapture, wrapCapture, List.cons_append, List.nil_append, List.mem_cons,
      List.not_mem_nil, or_false, forall_eq_or_imp, forall_eq]
    simp [InWindow, TcpPacket.synSegment, TcpPacket.segment])

/-- The segment that ends exactly where a buffered one starts leaves it
behind: the drain stops at the smaller key past the wrap. -/
theorem drain_incomplete :
    (∀ p ∈ wrapCapture ++ [.segment ⟨1, 2, 3, 4⟩ 0xFFFFFFEC (List.replicate 10 0x41) (by decide)],
        InWindow 0xFFFFFFEC 100 p) ∧
      InOrder (ConnectionState.run {} wrapCapture).toStreamState
        (.segment ⟨1, 2, 3, 4⟩ 0xFFFFFFEC (List.replicate 10 0x41) (by decide))
        (List.replicate 10 0x41) ∧
      ¬ Complete (ConnectionState.run {} (wrapCapture ++
        [.segment ⟨1, 2, 3, 4⟩ 0xFFFFFFEC (List.replicate 10 0x41)
          (by decide)])).toStreamState := by
  refine ⟨?_, ⟨⟨rfl, rfl, by decide⟩, by decide, by decide⟩, by unfold Complete; decide⟩
  simp only [wrapCapture, List.cons_append, List.nil_append, List.mem_cons, List.not_mem_nil,
    or_false, forall_eq_or_imp, forall_eq]
  simp [InWindow, TcpPacket.synSegment, TcpPacket.segment]

end Wirewolf.L2.Wrap
