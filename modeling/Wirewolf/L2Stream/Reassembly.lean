import Wirewolf.L2Stream.Placement

/-!
# Reassembly of one stream

The packets of one connection carry slices of a byte stream `S`; `o` is the
sequence number of its first byte. `Sound` is the invariant: from the base
`off` on, the payload is `S`'s own bytes, `expected_seq` is the counter of
its end and every buffered segment is a slice of `S` in its place.

* `Sound.receive`: one data packet, in the three ways it can be filed; the
  overlap check never fires.
* `reassembly_sound`: over any order, loss, duplication and overlap, and
  wherever the sequence numbers wrap, the payload is a prefix of the stream.
* `reassembly_complete`: short of the wrap, once every piece of a partition
  has arrived the payload is the whole stream and the buffer is empty.
-/
namespace Wirewolf.L2.Reassembly

open Wirewolf.L1.IpPacket Wirewolf.L2.Connection Wirewolf.L2.Connection.StreamState
open Wirewolf.Overlay Wirewolf.Serial Wirewolf.L2.Placement

structure Sound (S : Bytes) (o : UInt32) (off : Nat) (s : StreamState) (buf : List (Nat × Bytes)) :
    Prop where
  at_end : At o s (off + s.payload.length) buf
  le : off + s.payload.length ≤ S.length
  get : ∀ i, i < s.payload.length → s.payload[i]? = S[off + i]?
  slices : ∀ x ∈ buf, Slice S x

namespace Sound

variable {S : Bytes} {o : UInt32} {off : Nat} {s : StreamState} {buf : List (Nat × Bytes)}

theorem bound (h : Sound S o off s buf) {x : Nat × Bytes} (hx : x ∈ buf) :
    x.1 + x.2.length ≤ S.length := (h.slices x hx).le (h.at_end.small x hx).1

theorem isPrefix (h : Sound S o off s buf) : s.payload <+: S.drop off := by
  refine List.prefix_iff_getElem?.2 fun i hi => ?_
  rw [List.getElem?_drop, ← h.get i hi, List.getElem?_eq_getElem hi]

theorem consistent (h : Sound S o off s buf) (hS : S.length < 2 ^ 31) {a : Nat} {d : Bytes}
    (hd : Slice S (a, d)) (hd' : d ≠ []) : Consistent s (pos o a) d := by
  intro i hi j hj he
  have hle := hd.le hd'
  have hl := h.le
  have hstart : s.expectedSeq - UInt32.ofNat s.payload.length = pos o off := by
    rw [h.at_end.expected, ← pos_add_ofNat]; exact UInt32.add_sub_cancel ..
  rw [hstart, pos_add_ofNat, pos_add_ofNat, pos_inj o (by omega) (by simp only at hle; omega)] at he
  rw [h.get j hj, he, ← hd.get hi]

/-- In-order data. -/
theorem append (h : Sound S o off s buf) (hS : S.length < 2 ^ 31) {d : Bytes}
    (hd : Slice S (off + s.payload.length, d)) (hd' : d ≠ []) :
    ∃ used add buf', Sound S o off (s.append d) buf' ∧
      Consumed (off + s.payload.length + d.length) (s.payload ++ d) buf used buf' add
        (off + (s.append d).payload.length) (s.append d).payload := by
  have hle := hd.le hd'
  obtain ⟨used, add, hc⟩ := consume_spec buf (off + s.payload.length + d.length) (s.payload ++ d)
  have hB := consume_bound (B := S.length) buf (off + s.payload.length + d.length) (s.payload ++ d)
    hle fun x hx => h.bound hx
  obtain ⟨hat, hp⟩ := h.at_end.append d fun x hx => by omega
  have hlen : off + (s.append d).payload.length =
      (consume (off + s.payload.length + d.length) (s.payload ++ d) buf).1 := by
    have := hc.length; rw [hp]; simp only [List.length_append] at this; omega
  rw [← hlen, ← hp] at hc
  refine ⟨used, add, _,
    ⟨by rw [hlen]; exact hat, by omega, ?_, fun x hx => h.slices x (hc.mem_rest hx)⟩,
    hc⟩
  refine fun i hi => hc.get_out (by rw [List.length_append]; omega) ?_
    (fun n c _ hcov => cover_of_slices h.slices hcov) hi
  intro i hi
  by_cases hlt : i < s.payload.length
  · rw [List.getElem?_append_left hlt, h.get i hlt]
  · rw [List.length_append] at hi
    rw [List.getElem?_append_right (Nat.not_lt.1 hlt), hd.get (by simp only; omega)]
    congr 1; simp only; omega

/-- What one data packet of the stream does. -/
theorem receive (h : Sound S o off s buf) (hS : S.length < 2 ^ 31) {p : TcpPacket} {a : Nat}
    {d : Bytes} (hbase : s.baseline p.seq = s) (hp : IsData p d) (hseq : p.seq = pos o a)
    (hd : Slice S (a, d)) :
    (s.receive p).2 = false ∧
      ((a = off + s.payload.length ∧ ∃ used add buf', Sound S o off (s.receive p).1 buf' ∧
          Consumed (a + d.length) (s.payload ++ d) buf used buf' add
            (off + (s.receive p).1.payload.length) (s.receive p).1.payload) ∨
        (off + s.payload.length < a ∧ ∃ lo hi, buf = lo ++ hi ∧
          Sound S o off (s.receive p).1 (lo ++ (a, d) :: hi) ∧
          (s.receive p).1.payload = s.payload) ∨
        ((s.receive p).1 = s ∧ (a < off + s.payload.length ∨ 256 ≤ buf.length ∨
          ∃ y ∈ buf, y.1 = a))) := by
  have hne := hp.2.2
  have hle : a + d.length ≤ S.length := hd.le hne
  have hl := h.le
  have hr : s.receive p = (s.place (pos o a) d, false) := by
    have hc := conflicts_of_agree (h.consistent hS hd hne)
    rw [receive_isData hp, hbase, hseq, hc]; rfl
  rw [hr]
  refine ⟨rfl, ?_⟩
  rcases h.at_end.place (x := a) d (by omega) (by omega) hne hp.length_le with
    ⟨rfl, e⟩ | ⟨hlt, -, lo, hi, rfl, -, -, hat, hpay⟩ | ⟨-, e, hwhy⟩
  · rw [e]; exact .inl ⟨rfl, h.append hS hd hne⟩
  · refine .inr (.inl ⟨hlt, lo, hi, rfl, ⟨by rw [hpay]; exact hat, by rw [hpay]; exact h.le,
      by rw [hpay]; exact h.get, ?_⟩, hpay⟩)
    exact forall_middle hd h.slices
  · refine .inr (.inr ⟨e, hwhy.imp_right (.imp_right fun ⟨y, hy, he⟩ => ⟨y, hy, ?_⟩)⟩)
    have := h.bound hy
    exact (pos_inj o (by omega) (by omega)).1 he

/-- The first data packet of a capture that missed the handshake. -/
theorem receive_first (hS : S.length < 2 ^ 31) {p : TcpPacket} {a : Nat} {d : Bytes}
    (hp : IsData p d) (hseq : p.seq = pos o a) (hd : Slice S (a, d)) :
    (({} : StreamState).receive p).2 = false ∧ Based (({} : StreamState).receive p).1 ∧
      ∃ buf, Sound S o a (({} : StreamState).receive p).1 buf := by
  have hle : a + d.length ≤ S.length := hd.le hp.2.2
  have h₁ : Sound S o a (({} : StreamState).baseline p.seq) [] :=
    ⟨At.of_empty o hseq rfl,
      show a + 0 ≤ S.length by omega, fun i hi => absurd hi (Nat.not_lt_zero i),
      by simp⟩
  have hr : (({} : StreamState).baseline p.seq).receive p = ({} : StreamState).receive p := by
    rw [receive_isData hp, receive_isData hp, baseline_baseline]
  rw [← hr]
  obtain ⟨hf, h⟩ := h₁.receive hS rfl hp hseq hd
  refine ⟨hf, ?_⟩
  rcases h with ⟨-, used, add, buf, hs, hc⟩ | ⟨hlt, -⟩ | ⟨-, hlt | hlt | ⟨y, hy, -⟩⟩
  · refine ⟨.inr ?_, buf, hs⟩
    rw [hc.out_eq]; simp [hp.2.2]
  · exact absurd hlt (Nat.lt_irrefl a)
  · exact absurd hlt (Nat.lt_irrefl a)
  · exact absurd hlt (by simp)
  · cases hy

end Sound

/-! ## Any order, loss, duplication and overlap -/

/-- The packet is no SYN and carries `S`'s own bytes at its offset, if any. -/
def Carries (S : Bytes) (o : UInt32) (p : TcpPacket) : Prop :=
  p.syn = false ∧ ∀ d, p.data = some d → d ≠ [] → ∃ a, p.seq = pos o a ∧ Slice S (a, d)

/-- Packets of the stream `S` whose first byte has sequence number `o`; a SYN
only as the first packet. -/
def FromStream (S : Bytes) (o : UInt32) (ps : List TcpPacket) : Prop :=
  (∀ p ∈ ps, Carries S o p) ∨
    ∃ p rest, ps = p :: rest ∧ p.syn = true ∧ p.seq + 1 = o ∧ ∀ q ∈ rest, Carries S o q

/-- The sequence number at which the reassembled stream begins: past the SYN,
or that of the first data packet. -/
def base : List TcpPacket → Option UInt32
  | [] => none
  | p :: ps =>
    if p.syn then some (p.seq + 1)
    else
      match p.data with
      | none => base ps
      | some [] => base ps
      | some _ => some p.seq

theorem base_append (ps qs : List TcpPacket) : base (ps ++ qs) = (base ps).or (base qs) := by
  induction ps with
  | nil => rfl
  | cons p ps ih =>
    simp only [List.cons_append, base]
    split
    · rfl
    · split
      · exact ih
      · exact ih
      · rfl

theorem base_data {p : TcpPacket} {d : Bytes} (h : IsData p d) : base [p] = some p.seq := by
  obtain ⟨h₁, h₂, h₃⟩ := h
  cases d with
  | nil => exact absurd rfl h₃
  | cons b d => simp [base, h₁, h₂]

theorem base_noData {p : TcpPacket} (hs : p.syn = false) (hd : ∀ d, p.data = some d → d = []) :
    base [p] = none := by
  unfold base
  rw [hs]
  cases h : p.data with
  | none => rfl
  | some d => cases hd d h; rfl

/-- The state of a stream of `S` after the packets `pre`. -/
def Follows (S : Bytes) (o : UInt32) (pre : List TcpPacket) (s : StreamState) : Prop :=
  match base pre with
  | none => s = {}
  | some b => ∃ off buf, b = pos o off ∧ Based s ∧ Sound S o off s buf

theorem Follows.receive {S : Bytes} {o : UInt32} {pre : List TcpPacket} {s : StreamState}
    (h : Follows S o pre s) (hS : S.length < 2 ^ 31) {p : TcpPacket} (hp : Carries S o p) :
    Follows S o (pre ++ [p]) (s.receive p).1 ∧ (s.receive p).2 = false := by
  by_cases hd : ∀ d, p.data = some d → d = []
  · rw [receive_noData hp.1 hd]
    unfold Follows
    rw [base_append, base_noData hp.1 hd, Option.or_none]
    exact ⟨h, rfl⟩
  · push Not at hd
    obtain ⟨d, hd₁, hd₂⟩ := hd
    obtain ⟨a, hseq, hsl⟩ := hp.2 d hd₁ hd₂
    have hdata : IsData p d := ⟨hp.1, hd₁, hd₂⟩
    unfold Follows at h ⊢
    rw [base_append, base_data hdata]
    cases hb : base pre with
    | none =>
      rw [hb] at h
      cases h
      obtain ⟨hf, hbased, buf, hs⟩ := Sound.receive_first hS hdata hseq hsl
      exact ⟨⟨a, buf, hseq, hbased, hs⟩, hf⟩
    | some b =>
      rw [hb] at h
      obtain ⟨off, buf, hoff, hbased, hs⟩ := h
      obtain ⟨hf, hr⟩ := hs.receive hS (hbased.baseline _) hdata hseq hsl
      refine ⟨?_, hf⟩
      rcases hr with ⟨-, used, add, buf', hs', -⟩ | ⟨-, lo, hi, -, hs', -⟩ | ⟨e, -⟩
      · exact ⟨off, buf', hoff, hbased.receive p, hs'⟩
      · exact ⟨off, _, hoff, hbased.receive p, hs'⟩
      · rw [e]; exact ⟨off, buf, hoff, hbased, hs⟩

theorem Follows.run {S : Bytes} {o : UInt32} {ps : List TcpPacket} (hS : S.length < 2 ^ 31)
    (h : FromStream S o ps) {pre : List TcpPacket} (hpre : pre <+: ps) :
    Follows S o pre (ConnectionState.run {} pre).toStreamState := by
  refine ConnectionState.run_induct (I := Follows S o) rfl fun pre' p hpre' hs => ?_
  generalize (ConnectionState.run {} pre').toStreamState = s at hs ⊢
  have hps := hpre'.trans hpre
  have hmem : p ∈ ps := hps.subset (by simp)
  rcases h with h | ⟨q, rest, rfl, hq, hseq, hrest⟩
  · exact (hs.receive hS (h p hmem)).1
  · cases pre' with
    | nil =>
      cases (List.cons_prefix_cons.1 hps).1
      cases hs
      have hr : ({} : StreamState).receive p =
          ({ synReceived := true, expectedSeq := p.seq + 1 }, false) := by
        simp [StreamState.receive, hq]
      rw [hr]
      unfold Follows
      rw [show base ([] ++ [p]) = some (p.seq + 1) by simp [base, hq]]
      exact ⟨0,
        [], by rw [hseq, pos_zero], .inl rfl, At.of_empty o (by simpa using hseq) rfl, by simp,
        by simp, by simp⟩
    | cons q' pre' =>
      have hp : p ∈ rest := (List.cons_prefix_cons.1 hps).2.subset (by simp)
      exact (hs.receive hS (hrest p hp)).1

/-- After every packet the payload is a prefix of the stream from the base,
`expected_seq` is the counter of its end, and no packet is taken for an
evasion. -/
theorem reassembly_sound (S : Bytes) (hS : S.length < 2 ^ 31) (o : UInt32) (ps : List TcpPacket)
    (h : FromStream S o ps) :
    (∀ pre, pre <+: ps → match base pre with
      | none => (ConnectionState.run {} pre).payload = []
      | some b => ∃ off, off ≤ S.length ∧ b = pos o off ∧
          (ConnectionState.run {} pre).payload <+: S.drop off ∧
          (ConnectionState.run {} pre).expectedSeq =
            b + UInt32.ofNat (ConnectionState.run {} pre).payload.length) ∧
      ∀ pre p, pre ++ [p] <+: ps → ((ConnectionState.run {} pre).receive p).2 = false := by
  constructor
  · intro pre hpre
    have hf := Follows.run hS h hpre
    unfold Follows at hf
    cases hb : base pre with
    | none => rw [hb] at hf; exact congrArg StreamState.payload hf
    | some b =>
      rw [hb] at hf
      obtain ⟨off, buf, hoff, -, hs⟩ := hf
      have := hs.le
      exact ⟨off, by omega, hoff, hs.isPrefix, by rw [hoff, pos_add_ofNat, ← hs.at_end.expected]⟩
  · intro pre p hpre
    have hf := Follows.run hS h ((List.prefix_append ..).trans hpre)
    have hmem : p ∈ ps := hpre.subset (by simp)
    rcases h with h | ⟨q, rest, rfl, hq, -, hrest⟩
    · exact (hf.receive hS (h p hmem)).2
    · cases pre with
      | nil =>
        cases (List.cons_prefix_cons.1 hpre).1
        simp [ConnectionState.receive, StreamState.receive, hq]
      | cons q' pre =>
        exact (hf.receive hS (hrest p ((List.cons_prefix_cons.1 hpre).2.subset (by simp)))).2

theorem carries_segment {S : Bytes} {o : UInt32} {a : Nat} {d : Bytes} (h : Slice S (a, d))
    (cid : ConnectionId) (hl : d.length ≤ 65535) : Carries S o (.segment cid (pos o a) d hl) :=
  ⟨rfl, fun _ hd _ => ⟨a, rfl, by cases hd; exact h⟩⟩

/-- A stream whose sequence numbers wrap after its second byte; the segments
arrive out of order and overlap. -/
theorem reassembly_sound_wrap :
    ∃ off, off ≤ 4 ∧ (0xFFFFFFFE : UInt32) = pos 0xFFFFFFFE off ∧
      (ConnectionState.run {} [.synSegment ⟨1, 2, 3, 4⟩ 0xFFFFFFFD,
        .segment ⟨1, 2, 3, 4⟩ (pos 0xFFFFFFFE 2) [0x43, 0x44] (by decide),
        .segment ⟨1, 2, 3, 4⟩ (pos 0xFFFFFFFE 0) [0x41, 0x42, 0x43] (by decide)]).payload <+:
          List.drop off [0x41, 0x42, 0x43, 0x44] := by
  obtain ⟨off, h₁, h₂, h₃, -⟩ := (reassembly_sound [0x41, 0x42, 0x43, 0x44] (by decide) 0xFFFFFFFE
    [.synSegment ⟨1, 2, 3, 4⟩ 0xFFFFFFFD,
      .segment ⟨1, 2, 3, 4⟩ (pos 0xFFFFFFFE 2) [0x43, 0x44] (by decide),
      .segment ⟨1, 2, 3, 4⟩ (pos 0xFFFFFFFE 0) [0x41, 0x42, 0x43] (by decide)]
    (.inr ⟨_, _, rfl, rfl, rfl, by
      simp only [List.mem_cons, List.not_mem_nil, or_false, forall_eq_or_imp, forall_eq]
      exact ⟨carries_segment (by decide) _ _, carries_segment (by decide) _ _⟩⟩)).1 _
    (List.prefix_refl _)
  exact ⟨off, h₁, h₂, h₃⟩

/-! ## Every piece delivered -/

/-- The packet delivers the placed piece `x`. -/
def Delivers (o : UInt32) (x : Nat × Bytes) (p : TcpPacket) : Prop :=
  p.syn = false ∧ p.seq = pos o x.1 ∧ p.data = some x.2

/-- The pieces of a partition are filed: consumed or buffered, the end of the
payload splits none of them, and the buffer lies past it. -/
structure Filed (T : List (Nat × Bytes)) (o : UInt32) (pre : List TcpPacket) (s : StreamState)
    (buf : List (Nat × Bytes)) : Prop where
  tiles : ∀ x ∈ buf, x ∈ T
  ahead : ∀ x ∈ buf, s.payload.length < x.1
  boundary : ∀ x ∈ T, x.1 + x.2.length ≤ s.payload.length ∨ s.payload.length ≤ x.1
  delivered : ∀ x ∈ T, (∃ p ∈ pre, Delivers o x p) → x.1 + x.2.length ≤ s.payload.length ∨ x ∈ buf

/-- Short of the wrap the buffer is in stream order. -/
theorem sorted_positions {S : Bytes} {o : UInt32} {off : Nat} {s : StreamState}
    {buf : List (Nat × Bytes)} (h : Sound S o off s buf) (hw : S.length < wrapAt o) :
    buf.Pairwise fun x y => x.1 < y.1 := by
  refine h.at_end.sorted.imp_of_mem fun {x y} hx hy hlt => ?_
  have hx' := h.bound hx
  have hy' := h.bound hy
  rw [UInt32.lt_iff_toNat_lt, toNat_pos_short o (by omega), toNat_pos_short o (by omega)] at hlt
  omega

section Complete

variable {segs : List Bytes} {o : UInt32} {pre : List TcpPacket} {s : StreamState}
  {buf : List (Nat × Bytes)}

/-- A packet that delivers nothing new keeps the pieces filed. -/
theorem Filed.same (h : Filed (tile 0 segs) o pre s buf) {p : TcpPacket}
    (hp : ∀ x ∈ tile 0 segs, Delivers o x p → x.1 + x.2.length ≤ s.payload.length ∨ x ∈ buf) :
    Filed (tile 0 segs) o (pre ++ [p]) s buf := by
  refine ⟨h.tiles, h.ahead, h.boundary, fun x hx ⟨q, hq, hd⟩ => ?_⟩
  rcases List.mem_append.1 hq with hq | hq
  · exact h.delivered x hx ⟨q, hq, hd⟩
  · cases List.mem_singleton.1 hq; exact hp x hx hd

/-- Two tiles with the same start are the same piece. -/
theorem tile_start (hne : ∀ d ∈ segs, d ≠ []) {x y : Nat × Bytes} (hx : x ∈ tile 0 segs)
    (hy : y ∈ tile 0 segs) (h : x.1 = y.1) : x = y := by
  have hx' := List.length_pos_iff.2 (hne _ (tile_ge segs 0 x hx).2)
  have hy' := List.length_pos_iff.2 (hne _ (tile_ge segs 0 y hy).2)
  rcases tile_disjoint segs 0 x hx y hy with e | hlt | hlt
  · exact e
  · omega
  · omega

theorem delivers_unique (hS : segs.flatten.length < 2 ^ 31) (hne : ∀ d ∈ segs, d ≠ [])
    {x y : Nat × Bytes} (hx : x ∈ tile 0 segs) (hy : y ∈ tile 0 segs) {p : TcpPacket}
    (h₁ : Delivers o x p) (h₂ : Delivers o y p) : x = y := by
  have hx' := (tile_slice segs [] x hx).le (hne _ (tile_ge segs 0 x hx).2)
  have hy' := (tile_slice segs [] y hy).le (hne _ (tile_ge segs 0 y hy).2)
  rw [List.nil_append] at hx' hy'
  exact tile_start hne hx hy ((pos_inj o (by omega) (by omega)).1 (h₁.2.1.symm.trans h₂.2.1))

/-- One delivery. -/
theorem Filed.receive (hs : Sound segs.flatten o 0 s buf) (h : Filed (tile 0 segs) o pre s buf)
    (hbased : Based s) (hS : segs.flatten.length < 2 ^ 31) (hw : segs.flatten.length < wrapAt o)
    (hne : ∀ d ∈ segs, d ≠ []) (hsize : s.outOfOrderSegments.size ≤ 255) {p : TcpPacket}
    {x : Nat × Bytes} (hx : x ∈ tile 0 segs) (hd : Delivers o x p) :
    ∃ buf', Sound segs.flatten o 0 (s.receive p).1 buf' ∧
      Filed (tile 0 segs) o (pre ++ [p]) (s.receive p).1 buf' := by
  have hxne := hne _ (tile_ge segs 0 x hx).2
  have hxpos := List.length_pos_iff.2 hxne
  have hnew : ∀ {y}, y ∈ tile 0 segs → (∃ q ∈ pre ++ [p], Delivers o y q) →
      y = x ∨ ∃ q ∈ pre, Delivers o y q := by
    rintro y hy ⟨q, hq, hdq⟩
    rcases List.mem_append.1 hq with hq | hq
    · exact .inr ⟨q, hq, hdq⟩
    · cases List.mem_singleton.1 hq
      exact .inl (delivers_unique hS hne hy hx hdq hd)
  obtain ⟨-, hr⟩ := hs.receive hS (hbased.baseline _) ⟨hd.1, hd.2.2, hxne⟩ hd.2.1
    (tile_slice segs [] x hx)
  simp only [Nat.zero_add] at hr
  rcases hr with ⟨ha, used, add, buf', hs', hc⟩ | ⟨hlt, lo, hi, rfl, hs', hpay⟩ | ⟨e, hwhy⟩
  · -- appended: the new end is the end of `x` or of a buffered tile
    have htile : ∃ y ∈ tile 0 segs, (s.receive p).1.payload.length = y.1 + y.2.length := by
      rcases hc.end_eq with e | ⟨y, hy, e⟩
      · exact ⟨x, hx, e⟩
      · exact ⟨y, h.tiles y (by rw [hc.split]; exact List.mem_append_left _ hy), e⟩
    obtain ⟨y, hy, hend⟩ := htile
    have hle := hc.le
    refine ⟨buf', hs', fun z hz => h.tiles z (hc.mem_rest hz), fun z hz => ?_, fun z hz => ?_,
      fun z hz hdz => ?_⟩
    · have hsort := sorted_positions hs' hw
      cases buf' with
      | nil => cases hz
      | cons w rest =>
        have hfirst := hc.rest_lt w (by simp)
        rcases List.mem_cons.1 hz with rfl | hz
        · exact hfirst
        · have := (List.pairwise_cons.1 hsort).1 z hz; omega
    · rcases tile_disjoint segs 0 y hy z hz with rfl | hlt | hlt
      · exact .inl (Nat.le_of_eq hend.symm)
      · exact .inr (by omega)
      · exact .inl (by omega)
    · rcases hnew hz hdz with rfl | hold
      · exact .inl (by omega)
      · rcases h.delivered z hz hold with hin | hin
        · exact .inl (by omega)
        · rw [hc.split] at hin
          rcases List.mem_append.1 hin with hin | hin
          · exact .inl (hc.used_le z hin)
          · exact .inr hin
  · -- buffered
    refine ⟨_, hs', ?_⟩
    refine ⟨fun z hz => ?_, fun z hz => ?_, by rw [hpay]; exact h.boundary, fun z hz hdz => ?_⟩
    · rcases mem_middle.1 hz with rfl | hz
      · exact hx
      · exact h.tiles z hz
    · rw [hpay]
      rcases mem_middle.1 hz with rfl | hz
      · exact hlt
      · exact h.ahead z hz
    · rw [hpay]
      rcases hnew hz hdz with rfl | hold
      · exact .inr (mem_middle.2 (.inl rfl))
      · exact (h.delivered z hz hold).imp_right fun hin => mem_middle.2 (.inr hin)
  · -- ignored: consumed before, or already buffered
    rw [e]
    refine ⟨buf, hs, h.same fun y hy hdy => ?_⟩
    cases delivers_unique hS hne hy hx hdy hd
    rcases hwhy with hlt | hfull | ⟨z, hz, he⟩
    · exact (h.boundary x hx).imp_right fun hge => absurd hge (Nat.not_le.2 hlt)
    · rw [hs.at_end.size] at hsize; omega
    · right
      rw [← tile_start hne (h.tiles z hz) hx he]; exact hz

end Complete

/-- A SYN, then every piece of a partition of `S` at least once, in any order
and with any duplicates, empty packets in between: the payload is `S`. -/
theorem reassembly_complete (S : Bytes) (hS : S.length < 2 ^ 31) (isn : UInt32)
    (hw : isn.toNat + 1 + S.length < 2 ^ 32) (segs : List Bytes) (hne : ∀ d ∈ segs, d ≠ [])
    (hpart : segs.flatten = S) (syn : TcpPacket) (hsyn : syn.syn = true) (hisn : syn.seq = isn)
    (ps : List TcpPacket)
    (hfrom : ∀ p ∈ ps, (p.syn = false ∧ ∀ d, p.data = some d → d = []) ∨
      ∃ x ∈ tile 0 segs, Delivers (isn + 1) x p)
    (hall : ∀ x ∈ tile 0 segs, ∃ p ∈ ps, Delivers (isn + 1) x p)
    (hbuf : ∀ pre, pre <+: syn :: ps → (ConnectionState.run {} pre).outOfOrderSegments.size ≤ 255) :
    (ConnectionState.run {} (syn :: ps)).payload = S ∧
      (ConnectionState.run {} (syn :: ps)).expectedSeq = isn + 1 + UInt32.ofNat S.length ∧
      (ConnectionState.run {} (syn :: ps)).outOfOrderSegments = .empty := by
  subst hpart hisn
  have hw' : segs.flatten.length < wrapAt (syn.seq + 1) := by
    unfold wrapAt
    rw [UInt32.toNat_add, show (1 : UInt32).toNat = 1 from rfl]; omega
  have hstart : (ConnectionState.run {} [syn]).toStreamState =
      { synReceived := true, expectedSeq := syn.seq + 1 } := by
    simp [StreamState.receive, hsyn]
  have hrun : ∃ buf, Sound segs.flatten (syn.seq + 1) 0
      (ConnectionState.run {} (syn :: ps)).toStreamState
        buf ∧ Based (ConnectionState.run {} (syn :: ps)).toStreamState ∧
        Filed (tile 0 segs) (syn.seq + 1) ps (ConnectionState.run {}
          (syn :: ps)).toStreamState buf := by
    refine ConnectionState.run_induct (s := ConnectionState.run {} [syn])
      (I := fun pre s => ∃ buf, Sound segs.flatten (syn.seq + 1) 0 s buf ∧ Based s ∧
        Filed (tile 0 segs) (syn.seq + 1) pre s buf) ?_ fun pre p hpre ⟨buf, hs, hb, hf⟩ => ?_
    · rw [hstart]
      exact ⟨[], ⟨At.of_empty _ (by simp) rfl, by simp, by simp, by simp⟩, .inl rfl,
        by simp, by simp, by simp, by simp⟩
    · have hsize := hbuf (syn :: pre) (List.cons_prefix_cons.2
        ⟨rfl, (List.prefix_append ..).trans hpre⟩)
      rcases hfrom p (hpre.subset (by simp)) with ⟨hsyn', hno⟩ | ⟨x, hx, hd⟩
      · rw [receive_noData hsyn' hno]
        refine ⟨buf, hs, hb, hf.same fun x hx hd => ?_⟩
        exact absurd (hno _ hd.2.2) (hne _ (tile_ge segs 0 x hx).2)
      · obtain ⟨buf', hs', hf'⟩ := hf.receive hs hb hS hw' hne hsize hx hd
        exact ⟨buf', hs', hb.receive p, hf'⟩
  obtain ⟨buf, hs, -, hf⟩ := hrun
  generalize (ConnectionState.run {} (syn :: ps)).toStreamState = s at hs hf ⊢
  have hle := hs.le
  have hend : s.payload.length = segs.flatten.length := by
    by_contra hlt
    obtain ⟨x, hx, hcov⟩ := tile_covers segs 0 (Nat.zero_le s.payload.length) (by omega)
    have h₁ := hcov.1; have h₂ := hcov.2
    rcases hf.delivered x hx (hall x hx) with h | h
    · omega
    · have := hf.ahead x h; omega
  have hnil : buf = [] := by
    refine List.eq_nil_iff_forall_not_mem.2 fun x hx => ?_
    have := hf.ahead x hx; have := hs.bound hx; omega
  refine ⟨?_, by rw [hs.at_end.expected, ← hend, Nat.zero_add]; rfl, ?_⟩
  · exact hs.isPrefix.eq_of_length (by rw [hend, List.drop_zero])
  · have := hs.at_end.entries
    rw [hnil, List.map_nil] at this
    exact OrdMap.eq_empty this

/-- Two pieces, the second delivered first and then again. -/
theorem reassembly_complete_swapped :
    (ConnectionState.run {} [.synSegment ⟨1, 2, 3, 4⟩ 100,
      .segment ⟨1, 2, 3, 4⟩ 102 [0x42, 0x43] (by decide),
      .segment ⟨1, 2, 3, 4⟩ 101 [0x41] (by decide),
      .segment ⟨1, 2, 3, 4⟩ 102 [0x42, 0x43] (by decide)]).payload = [0x41, 0x42, 0x43] := by
  refine (reassembly_complete [0x41, 0x42, 0x43] (by decide) 100 (by decide) [[0x41], [0x42, 0x43]]
    (by decide) rfl (.synSegment ⟨1, 2, 3, 4⟩ 100) rfl rfl _ ?_ ?_ ?_).1
  · simp only [List.mem_cons, List.not_mem_nil, or_false, forall_eq_or_imp, forall_eq]
    exact ⟨.inr ⟨(1, [0x42, 0x43]), by decide, rfl, by decide, rfl⟩,
      .inr ⟨(0, [0x41]), by decide, rfl, by decide, rfl⟩,
      .inr ⟨(1, [0x42, 0x43]), by decide, rfl, by decide, rfl⟩⟩
  · simp only [tile, List.mem_cons, List.not_mem_nil, or_false, forall_eq_or_imp, forall_eq]
    exact ⟨⟨_, .inr (.inl rfl), rfl, by decide, rfl⟩, ⟨_, .inl rfl, rfl, by decide, rfl⟩⟩
  · intro pre hpre
    simp only [List.prefix_cons_iff, List.prefix_nil] at hpre
    rcases hpre with rfl | ⟨_, rfl, rfl | ⟨_, rfl, rfl | ⟨_, rfl, rfl | ⟨_, rfl, rfl⟩⟩⟩⟩ <;> decide

end Wirewolf.L2.Reassembly
