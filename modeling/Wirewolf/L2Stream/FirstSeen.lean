import Wirewolf.L2Stream.Placement

/-!
# Whose bytes the payload carries

Segments may disagree on the bytes of a position. `history` lists the
accepted segments of a run in order of arrival, each at its position in the
payload; `cover (history _ _) n` is the byte of the earliest of them that
covers position `n`. The buffer is consumed in key order, so its first byte
for a sequence number (`bufferedByte`) need not be the earliest.

* `Respects`: an accepted segment carries the buffered byte wherever one is
  consumed after it, or would be consumed after it.
* `Earliest.receive`: such a segment keeps every payload byte, and every
  byte to come, the earliest one.
* `first_seen_wins`: the same over whole runs; `later_preempts` is a run
  without it.
-/
namespace Wirewolf.L2.FirstSeen

open Wirewolf.L1.IpPacket Wirewolf.L2.Connection Wirewolf.L2.Connection.StreamState
open Wirewolf.Overlay Wirewolf.Serial Wirewolf.L2.Placement

/-- The call files the segment: in order, or ahead of `expected_seq` under a
free key with room in the buffer. -/
def accepts (s : StreamState) (seq : UInt32) (data : Bytes) : Bool :=
  !s.conflicts seq data && (decide (seq = s.expectedSeq) ||
    (seqAfter seq s.expectedSeq && decide (s.outOfOrderSegments.size < 256) &&
      !s.outOfOrderSegments.hasKey seq))

/-- The segment that the packet adds to the history, at its payload position. -/
def arrival (s : StreamState) (p : TcpPacket) : List (Nat × Bytes) :=
  if p.syn then []
  else
    match p.data with
    | none => []
    | some [] => []
    | some data =>
      let s := s.baseline p.seq
      if accepts s p.seq data then [(s.payload.length + (p.seq - s.expectedSeq).toNat, data)]
      else []

/-- The accepted segments of a run, in order of arrival. -/
def history (s : ConnectionState) : List TcpPacket → List (Nat × Bytes)
  | [] => []
  | p :: ps => arrival s.toStreamState p ++ history (s.receive p).1 ps

theorem history_append (s : ConnectionState) (ps qs : List TcpPacket) :
    history s (ps ++ qs) = history s ps ++ history (s.run ps) qs := by
  induction ps generalizing s with
  | nil => rfl
  | cons p ps ih =>
    rw [List.cons_append, history, history, ih, List.append_assoc, ConnectionState.run_cons]

/-- The byte buffered for sequence number `q` that the drain would take. -/
def bufferedByte (s : StreamState) (q : UInt32) : Option UInt8 :=
  s.outOfOrderSegments.entries.findSome? fun e => e.2[(q - e.1).toNat]?

/-- No buffered key is 2^30 or more behind `expected_seq`. -/
def NoStale (s : StreamState) : Prop :=
  ∀ e ∈ s.outOfOrderSegments.entries, seqAfter e.1 s.expectedSeq = true ∨
    (s.expectedSeq - e.1).toNat < 2 ^ 30

/-- An accepted segment agrees with the buffered byte of every sequence
number it covers, except, when it is buffered itself, where a smaller key
covers that number. -/
def Respects (s : StreamState) (p : TcpPacket) : Prop :=
  ∀ data, IsData p data → accepts (s.baseline p.seq) p.seq data = true →
    NoStale (s.baseline p.seq) ∧
      ∀ i b c, data[i]? = some b →
        (p.seq = (s.baseline p.seq).expectedSeq ∨
          ∀ e ∈ s.outOfOrderSegments.entries, e.1 < p.seq →
            e.2.length ≤ (p.seq + UInt32.ofNat i - e.1).toNat) →
        bufferedByte s (p.seq + UInt32.ofNat i) = some c → b = c

/-- Every consumed byte, and every byte the buffer would yield, is the
earliest one. -/
def Earliest (hist : List (Nat × Bytes)) (s : StreamState) : Prop :=
  ∃ o buf, At o s s.payload.length buf ∧
    (∀ n, n < s.payload.length → s.payload[n]? = cover hist n) ∧
    ∀ n, s.payload.length ≤ n → cover hist n = cover buf n

section Step

variable {o : UInt32} {s : StreamState} {E : Nat} {buf : List (Nat × Bytes)}

/-- No stale key, in positions. -/
theorem NoStale.recent (h : NoStale s) (hat : At o s E buf) : ∀ x ∈ buf, E < x.1 + 2 ^ 30 := by
  intro x hx
  obtain ⟨hn₁, hn₂⟩ := hat.near x hx
  have := h (enc o x) (by rw [hat.entries]; exact List.mem_map_of_mem hx)
  rw [hat.expected] at this
  simp only [enc] at this
  rcases this with h | h
  · have := (seqAfter_pos o (by omega) hn₁).1 h; omega
  · rcases Nat.lt_or_ge E x.1 with hlt | hge
    · omega
    · rw [pos_sub o hge (by omega)] at h; omega

/-- A sequence number within reach is in a buffered segment exactly when its
position is covered. -/
theorem get_pos (hat : At o s E buf) (hs : NoStale s) {x : Nat × Bytes} (hx : x ∈ buf) {n : Nat}
    (h₁ : E ≤ n) (h₂ : n < E + 2 ^ 31 + 2 ^ 16) :
    x.2[(pos o n - pos o x.1).toNat]? = if Covers x n then x.2[n - x.1]? else none := by
  have hrec := hs.recent hat x hx
  have hnear := (hat.near x hx).1
  have hsmall := (hat.small x hx).2
  rcases Nat.lt_or_ge n x.1 with hlt | hge
  · rw [pos_sub_lt o hlt (by omega), if_neg (fun h => absurd h.1 (Nat.not_le.2 hlt))]
    exact List.getElem?_eq_none (by omega)
  · rw [pos_sub o hge (by omega)]
    split
    · rfl
    · rename_i hc
      exact List.getElem?_eq_none (Nat.not_lt.1 fun hlt => hc ⟨hge, by omega⟩)

theorem findSome_cover (hat : At o s E buf) (hs : NoStale s) {n : Nat} (h₁ : E ≤ n)
    (h₂ : n < E + 2 ^ 31 + 2 ^ 16) {l : List (Nat × Bytes)} (hl : ∀ x ∈ l, x ∈ buf) :
    (l.map (enc o)).findSome? (fun e => e.2[(pos o n - e.1).toNat]?) = cover l n := by
  induction l with
  | nil => rfl
  | cons x l ih =>
    have ih := ih fun y hy => hl y (List.mem_cons_of_mem _ hy)
    rw [List.map_cons, List.findSome?_cons, ih]
    simp only [enc]
    rw [get_pos hat hs (hl x (List.mem_cons_self ..)) h₁ h₂]
    by_cases hc : Covers x n
    · obtain ⟨c, hget⟩ := covers_get hc
      simp [cover, hc, hget]
    · simp [cover, hc]

theorem bufferedByte_pos (hat : At o s E buf) (hs : NoStale s) {n : Nat} (h₁ : E ≤ n)
    (h₂ : n < E + 2 ^ 31 + 2 ^ 16) : bufferedByte s (pos o n) = cover buf n := by
  unfold bufferedByte
  rw [hat.entries]
  exact findSome_cover hat hs h₁ h₂ fun _ h => h

theorem total_buf (hat : At o s E buf) (hb : Bounded s) : total buf ≤ 256 * 65535 := by
  have := hb.total
  rw [hat.entries, List.map_map] at this
  exact this

end Step

namespace Earliest

variable {hist : List (Nat × Bytes)} {s : StreamState} {data : Bytes}

/-- Elements already covered are not affected by a later segment. -/
theorem cover_later {hist : List (Nat × Bytes)} {n : Nat} {c : UInt8} (h : cover hist n = some c)
    (x : Nat × Bytes) : cover (hist ++ [x]) n = some c := by
  rw [cover_append, h, Option.some_or]

/-- In-order data that agrees with the buffer. -/
theorem append {o : UInt32} {buf : List (Nat × Bytes)} (hat : At o s s.payload.length buf)
    (hget : ∀ n, n < s.payload.length → s.payload[n]? = cover hist n)
    (hcov : ∀ n, s.payload.length ≤ n → cover hist n = cover buf n) (hs : NoStale s)
    (hb : Bounded s) (hl : data.length ≤ 65535)
    (hagree : ∀ i b c, data[i]? = some b → cover buf (s.payload.length + i) = some c → b = c) :
    Earliest (hist ++ [(s.payload.length, data)]) (s.append data) := by
  have htot := total_buf hat hb
  have hle := consume_le_total buf (s.payload.length + data.length) (s.payload ++ data)
  obtain ⟨used, add, hc⟩ := consume_spec buf (s.payload.length + data.length) (s.payload ++ data)
  obtain ⟨hat', hpay⟩ := hat.append data fun x hx => by
    have := hs.recent hat x hx; omega
  have hlen : (s.append data).payload.length =
      (consume (s.payload.length + data.length) (s.payload ++ data) buf).1 := by
    have := hc.length; rw [hpay]; rw [List.length_append] at this; omega
  rw [← hlen, ← hpay] at hc
  have hend := hc.le
  refine ⟨o, _, by rw [hlen]; exact hat', fun n hn => ?_, fun n hn => ?_⟩
  · have hfirst : ∀ i, i < (s.payload ++ data).length →
        (s.payload ++ data)[i]? = cover (hist ++ [(s.payload.length, data)]) (0 + i) := by
      intro i hi
      rw [Nat.zero_add]
      by_cases hlt : i < s.payload.length
      · have hsome := List.getElem?_eq_getElem hlt
        rw [List.getElem?_append_left hlt, hsome, cover_later ((hget i hlt).symm.trans hsome)]
      · have hge := Nat.not_lt.1 hlt
        rw [List.length_append] at hi
        have hX : Covers (s.payload.length, data) i := ⟨hge, by simp only; omega⟩
        obtain ⟨b, hb⟩ := covers_get hX
        simp only at hb
        rw [List.getElem?_append_right hge, hb]
        cases hbuf : cover buf i with
        | none =>
          rw [cover_append, hcov i hge, hbuf, Option.none_or, cover_of_covers _ hX, ← hb]
        | some c =>
          have := hagree (i - s.payload.length) b c hb (by rw [Nat.add_sub_cancel' hge]; exact hbuf)
          rw [cover_later ((hcov i hge).trans hbuf), this]
    have := hc.get_out (o := 0) (f := cover (hist ++ [(s.payload.length, data)]))
      (by rw [List.length_append]; omega) hfirst
      (fun m c hm hcm => cover_later ((hcov m (by omega)).trans hcm) _) hn
    rwa [Nat.zero_add] at this
  · have hX : ¬ Covers (s.payload.length, data) n := fun h => absurd h.2 (by simp only; omega)
    rw [cover_append, cover_of_not [] hX, hcov n (by omega), ← hc.cover_rest hn]
    simp [cover]

/-- A segment buffered between `lo` and `hi`, in key order, that agrees with
`hi` wherever `lo` covers nothing. -/
theorem buffer {o : UInt32} {lo hi : List (Nat × Bytes)} {x : Nat × Bytes} {s' : StreamState}
    (hget : ∀ n, n < s.payload.length → s.payload[n]? = cover hist n)
    (hcov : ∀ n, s.payload.length ≤ n → cover hist n = cover (lo ++ hi) n)
    (hat : At o s' s.payload.length (lo ++ x :: hi)) (hpay : s'.payload = s.payload)
    (hagree : ∀ n b c, s.payload.length ≤ n → Covers x n → x.2[n - x.1]? = some b →
      cover lo n = none → cover hi n = some c → b = c) :
    Earliest (hist ++ [x]) s' := by
  refine ⟨o, _, by rw [hpay]; exact hat, fun n hn => ?_, fun n hn => ?_⟩
  · rw [hpay] at hn ⊢
    have hsome := List.getElem?_eq_getElem hn
    rw [hsome, cover_later ((hget n hn).symm.trans hsome)]
  · rw [hpay] at hn
    rw [cover_append, hcov n hn, cover_append, cover_append]
    cases hlo : cover lo n with
    | some c => simp
    | none =>
      simp only [Option.none_or]
      by_cases hx : Covers x n
      · obtain ⟨b, hb⟩ := covers_get hx
        rw [cover_of_covers _ hx, cover_of_covers _ hx, hb]
        cases hhi : cover hi n with
        | none => rfl
        | some c => rw [hagree n b c hn hx hb hlo hhi]; rfl
      · rw [cover_of_not _ hx, cover_of_not _ hx]
        simp [cover]

end Earliest

section Receive

variable {s : StreamState} {p : TcpPacket} {data : Bytes}

theorem arrival_isData (h : IsData p data) :
    arrival s p =
      if accepts (s.baseline p.seq) p.seq data then
        [((s.baseline p.seq).payload.length + (p.seq - (s.baseline p.seq).expectedSeq).toNat, data)]
      else [] := by
  obtain ⟨h₁, h₂, h₃⟩ := h
  cases data with
  | nil => exact absurd rfl h₃
  | cons b d => simp [arrival, h₁, h₂]

theorem arrival_other (h : ∀ d, ¬ IsData p d) : arrival s p = [] := by
  unfold arrival
  cases hs : p.syn with
  | true => rfl
  | false =>
    cases hd : p.data with
    | none => rfl
    | some d =>
      cases d with
      | nil => rfl
      | cons b d => exact absurd ⟨hs, hd, by simp⟩ (h (b :: d))

theorem accepts_iff {seq : UInt32} : accepts s seq data = true ↔
    s.conflicts seq data = false ∧ (seq = s.expectedSeq ∨ (seqAfter seq s.expectedSeq = true ∧
      s.outOfOrderSegments.size < 256 ∧ s.outOfOrderSegments.hasKey seq = false)) := by
  simp [accepts, and_assoc]

/-- A segment that is not accepted leaves the stream alone. -/
theorem receive_rejected (h : IsData p data)
    (ha : accepts (s.baseline p.seq) p.seq data = false) : (s.receive p).1 = s.baseline p.seq := by
  rw [receive_isData h]
  rw [← Bool.not_eq_true, accepts_iff] at ha
  split
  · rfl
  · rename_i hc
    have hc := Bool.not_eq_true _ ▸ hc
    rcases place_cases (s.baseline p.seq) p.seq data with ⟨he, -⟩ | ⟨-, h₁, h₂, h₃, -⟩ | ⟨-, e, -⟩
    · exact absurd ⟨hc, .inl he⟩ ha
    · exact absurd ⟨hc, .inr ⟨h₁, h₂, h₃⟩⟩ ha
    · exact e

/-- A sequence number ahead of `expected_seq` is at most 2^31 ahead. -/
theorem ahead_le {seq e : UInt32} (h : seqAfter seq e = true) : (seq - e).toNat ≤ 2 ^ 31 := by
  rw [seqAfter_eq, before_iff] at h
  have hseq := pos_dist e seq
  rcases Nat.eq_zero_or_pos (seq - e).toNat with hz | hp
  · omega
  · have := pos_sub_lt e hp (by have := (seq - e).toNat_lt; omega)
    rw [pos_zero, hseq] at this
    have := (seq - e).toNat_lt
    omega

/-- One data packet. -/
theorem Earliest.receive {hist : List (Nat × Bytes)} (h : Earliest hist (s.baseline p.seq))
    (hb : Bounded (s.baseline p.seq)) (hd : IsData p data) (hr : Respects s p) :
    Earliest (hist ++ arrival s p) (s.receive p).1 := by
  rw [arrival_isData hd]
  cases hacc : accepts (s.baseline p.seq) p.seq data with
  | false => rw [receive_rejected hd hacc]; simpa using h
  | true =>
    obtain ⟨hstale, hagree⟩ := hr data hd hacc
    obtain ⟨hconf, hway⟩ := accepts_iff.1 hacc
    rw [receive_isData hd, hconf]
    simp only [if_true, Bool.false_eq_true, if_false]
    have hbuf : bufferedByte s = bufferedByte (s.baseline p.seq) := by
      funext q; unfold bufferedByte; rw [baseline_segments]
    rw [hbuf, ← baseline_segments s p.seq] at hagree
    generalize s.baseline p.seq = s at h hb hstale hagree hway ⊢
    obtain ⟨o, buf, hat, hget, hcov⟩ := h
    have hl := hd.length_le
    by_cases hseq : p.seq = s.expectedSeq
    · rw [StreamState.place, if_pos hseq, hseq, UInt32.sub_self]
      refine Earliest.append hat hget hcov hstale hb hl fun i b c hbi hci => ?_
      have hi : i < data.length := (List.getElem?_eq_some_iff.1 hbi).1
      refine hagree i b c hbi (.inl hseq) ?_
      rw [hseq, hat.expected, pos_add_ofNat, bufferedByte_pos hat hstale (by omega) (by omega)]
      exact hci
    · obtain ⟨hafter, hsize, hkey⟩ := hway.resolve_left hseq
      have hle := ahead_le hafter
      generalize ha : s.payload.length + (p.seq - s.expectedSeq).toNat = a
      have hpa : p.seq = pos o a := by
        rw [← ha, ← pos_pos, ← hat.expected, pos_dist]
      rw [hpa] at hkey ⊢
      rcases hat.place (x := a) data (by omega) (by omega) hd.2.2 hl with
        ⟨he, -⟩ | ⟨-, -, lo, hi, rfl, hlo, hhi, hat', hpay⟩ | ⟨hne, -, hlt | hfull | hdup⟩
      · exact absurd (by rw [hpa, he, ← hat.expected]) hseq
      · refine Earliest.buffer hget hcov hat' hpay fun n b c hn hx hb' hnone hsome => ?_
        have hx₁ := hx.1; have hx₂ := hx.2
        have hq : p.seq + UInt32.ofNat (n - a) = pos o n := by
          rw [hpa, pos_add_ofNat, Nat.add_sub_cancel' hx₁]
        have hbound : n < s.payload.length + 2 ^ 31 + 2 ^ 16 := by simp only at hx₂; omega
        refine hagree (n - a) b c hb' (.inr fun e he hek => ?_) ?_
        · rw [hat.entries] at he
          obtain ⟨z, hz, rfl⟩ := List.mem_map.1 he
          have hzlo : z ∈ lo := by
            rcases List.mem_append.1 hz with hz | hz
            · exact hz
            · rw [hpa] at hek; exact absurd (hhi z hz) (lt_asymm hek)
          have hnc := cover_eq_none.1 hnone z hzlo
          have hg := get_pos hat hstale hz hn hbound
          rw [if_neg hnc, List.getElem?_eq_none_iff] at hg
          rw [hq]; exact hg
        · rw [hq, bufferedByte_pos hat hstale hn hbound, cover_append, hnone, Option.none_or]
          exact hsome
      · exact absurd hlt (by omega)
      · rw [hat.size] at hsize; omega
      · rw [(hat.hasKey a).2 hdup] at hkey; cases hkey

end Receive

/-- The state of a run: nothing yet, or based with every byte the earliest. -/
def Kept (hist : List (Nat × Bytes)) (s : StreamState) : Prop :=
  (s = {} ∧ hist = []) ∨ (Based s ∧ Earliest hist s)

theorem earliest_start {s : StreamState} (hp : s.payload = [])
    (he : s.outOfOrderSegments.entries = []) : Earliest [] s :=
  ⟨s.expectedSeq, [], At.of_empty _ (by rw [hp]; simp) he, by simp [hp], fun _ _ => rfl⟩

theorem Kept.receive {hist : List (Nat × Bytes)} {s : StreamState} {p : TcpPacket}
    (h : Kept hist s) (hb : Bounded s) (hr : Respects s p)
    (hsyn : p.syn = true → s = {} ∧ hist = []) :
    Kept (hist ++ arrival s p) (s.receive p).1 := by
  rcases receive_cases s p with ⟨hs, e⟩ | ⟨hs, hnone, e⟩ | ⟨data, hd, -⟩
  · obtain ⟨rfl, rfl⟩ := hsyn hs
    rw [arrival_other (fun d hd => by rw [hd.1] at hs; cases hs), e]
    exact .inr ⟨.inl rfl, earliest_start rfl rfl⟩
  · rw [arrival_other (fun d hd => hd.2.2 (hnone d hd.2.1)), e, List.append_nil]
    exact h
  · have hearly : Earliest hist (s.baseline p.seq) := by
      rcases h with ⟨rfl, rfl⟩ | ⟨hbased, he⟩
      · exact earliest_start (by simp) (by simp)
      · rw [hbased.baseline]; exact he
    have hstep := hearly.receive (hb.baseline p.seq) hd hr
    refine .inr ⟨?_, hstep⟩
    rcases h with ⟨rfl, rfl⟩ | ⟨hbased, -⟩
    · -- the first data packet is in order and consumed
      right
      have hacc : (({} : StreamState).receive p).1 =
          ({ expectedSeq := p.seq } : StreamState).append data := by
        rw [receive_isData hd]
        simp [StreamState.baseline, OrdMap.isEmpty, StreamState.conflicts, StreamState.place]
      rw [hacc]
      intro hnil
      have := ({ expectedSeq := p.seq } : StreamState).append_payload data
      rw [hnil] at this
      exact hd.2.2 (by simpa using List.prefix_nil.1 this)
    · exact hbased.receive p

/-- Every byte of the payload is the one carried by the earliest accepted
segment that covers its position, as long as every accepted segment agrees
with the buffered bytes it would pre-empt. -/
theorem first_seen_wins (ps : List TcpPacket) (hsyn : ∀ p ∈ ps.tail, p.syn = false)
    (hr : ∀ pre p, pre ++ [p] <+: ps → Respects (ConnectionState.run {} pre).toStreamState p) :
    ∀ pre, pre <+: ps → ∀ n, n < (ConnectionState.run {} pre).payload.length →
      (ConnectionState.run {} pre).payload[n]? = cover (history {} pre) n := by
  intro pre hpre n hn
  have hkept : Kept (history {} pre) (ConnectionState.run {} pre).toStreamState := by
    refine ConnectionState.run_induct (I := fun pre s => Kept (history {} pre) s) (.inl ⟨rfl, rfl⟩)
      fun pre' p hpre' h => ?_
    have hps := hpre'.trans hpre
    rw [history_append, history, history, List.append_nil]
    refine h.receive (Bounded.run pre') (hr pre' p hps) fun hs => ?_
    cases pre' with
    | nil => exact ⟨rfl, rfl⟩
    | cons q pre' =>
      obtain ⟨t, rfl⟩ := hps
      have := hsyn p (by simp)
      rw [hs] at this; cases this
  rcases hkept with ⟨he, -⟩ | ⟨-, o, buf, -, hget, -⟩
  · rw [he] at hn; exact absurd hn (Nat.not_lt_zero n)
  · exact hget n hn

/-- `CD` ahead of a gap, then `AB` in order. -/
def gapCapture : List TcpPacket :=
  [.synSegment ⟨1, 2, 3, 4⟩ 100, .segment ⟨1, 2, 3, 4⟩ 103 [0x43, 0x44] (by decide),
    .segment ⟨1, 2, 3, 4⟩ 101 [0x41, 0x42] (by decide)]

theorem first_seen_gap : (ConnectionState.run {} gapCapture).payload = [0x41, 0x42, 0x43, 0x44] ∧
    (ConnectionState.run {} gapCapture).payload[2]? = cover (history {} gapCapture) 2 := by
  refine ⟨by decide, ?_⟩
  have step := @ConnectionState.forall_steps_cons fun s p => Respects s.toStreamState p
  have done := @ConnectionState.forall_steps_nil fun s p => Respects s.toStreamState p
  refine first_seen_wins gapCapture (by simp [gapCapture, TcpPacket.segment])
    (step ?_ (step ?_ (step ?_ done))) _ (List.prefix_refl _) 2 (by decide)
  · rintro data ⟨h, -⟩; cases h
  · rintro data ⟨-, h, -⟩ -
    cases h
    exact ⟨by unfold NoStale; decide, fun i b c _ _ h => by cases h⟩
  · rintro data ⟨-, h, -⟩ -
    cases h
    refine ⟨by unfold NoStale; decide, fun i b c hb _ hc => ?_⟩
    match i with
    | 0 => exact absurd hc (by rw [show bufferedByte _ _ = none by decide]; simp)
    | 1 => exact absurd hc (by rw [show bufferedByte _ _ = none by decide]; simp)
    | i + 2 => cases hb

/-- `A`s at 10..19, then `B`s at 5..14, then `C`s at 0..4: the `B`s have the
smaller key and are consumed first, so positions 10..14 carry the later
segment's bytes. -/
theorem later_preempts :
    ¬ ∀ n, n < (ConnectionState.run {} [.synSegment ⟨1, 2, 3, 4⟩ 100,
        .segment ⟨1, 2, 3, 4⟩ 111 (List.replicate 10 0x41) (by decide),
        .segment ⟨1, 2, 3, 4⟩ 106 (List.replicate 10 0x42) (by decide),
        .segment ⟨1, 2, 3, 4⟩ 101 (List.replicate 5 0x43) (by decide)]).payload.length →
      (ConnectionState.run {} [.synSegment ⟨1, 2, 3, 4⟩ 100,
        .segment ⟨1, 2, 3, 4⟩ 111 (List.replicate 10 0x41) (by decide),
        .segment ⟨1, 2, 3, 4⟩ 106 (List.replicate 10 0x42) (by decide),
        .segment ⟨1, 2, 3, 4⟩ 101 (List.replicate 5 0x43) (by decide)]).payload[n]? =
        cover (history {} [.synSegment ⟨1, 2, 3, 4⟩ 100,
          .segment ⟨1, 2, 3, 4⟩ 111 (List.replicate 10 0x41) (by decide),
          .segment ⟨1, 2, 3, 4⟩ 106 (List.replicate 10 0x42) (by decide),
          .segment ⟨1, 2, 3, 4⟩ 101 (List.replicate 5 0x43) (by decide)]) n := by
  intro h
  exact absurd (h 10 (by decide)) (by decide)

end Wirewolf.L2.FirstSeen
