import Wirewolf.Core.Overlay
import Wirewolf.L2Stream.Connection

/-!
# The connection in stream positions

The code compares 32-bit sequence numbers. Here the same state is read on
the unbounded stream: `At o s E buf` says that `expected_seq` is the counter
of position `E` (counted from the sequence number `o`) and that the buffer
holds exactly the placed segments `buf`, in key order, all within 2^31 of
`E`.

* `drainLoop_pos`: on such a state the drain loop is `Overlay.consume`, so
  circular comparison and modular offsets never misplace a byte.
* `At.append`, `At.place`: what filing a segment does, in positions.
* `conflicts_of_agree`: the overlap check cannot fire on a segment that
  agrees with the payload at every sequence number they share.
-/
namespace Wirewolf.L2.Placement

open Wirewolf.L1.IpPacket Wirewolf.L2.Connection Wirewolf.L2.Connection.StreamState
open Wirewolf.Overlay Wirewolf.Serial

/-- The buffer entry of a placed segment. -/
def enc (o : UInt32) (x : Nat × Bytes) : UInt32 × Bytes := (pos o x.1, x.2)

theorem seqAfter_pos (o : UInt32) {m n : Nat} (h₁ : n < m + 2 ^ 31) (h₂ : m ≤ n + 2 ^ 31) :
    seqAfter (pos o m) (pos o n) = true ↔ n < m := by
  rw [seqAfter_eq]; exact before_pos o h₁ h₂

theorem drainLoop_pos (o : UInt32) (l : List (Nat × Bytes)) (E : Nat) (out : Bytes)
    (h : ∀ x ∈ l, x.1 ≤ E + 2 ^ 31 ∧ (consume E out l).1 < x.1 + 2 ^ 31 ∧ x.2.length ≤ 65535) :
    drainLoop (pos o E) out (l.map (enc o)) =
      (pos o (consume E out l).1, (consume E out l).2.1, (consume E out l).2.2.map (enc o)) := by
  induction l generalizing E out with
  | nil => rfl
  | cons x l ih =>
    obtain ⟨h₁, h₂, h₃⟩ := h x (List.mem_cons_self ..)
    have hE := consume_le (x :: l) E out
    have hk := seqAfter_pos o (m := x.1) (n := E) (by omega) h₁
    have hl := fun y hy => h y (List.mem_cons_of_mem _ hy)
    rw [List.map_cons]
    unfold drainLoop enc
    simp only [pos_add_ofNat]
    rcases consume_cases E x with hc | hc | ⟨hc₁, hc₂⟩
    · rw [if_pos (hk.2 hc), consume_stop l hc]; rfl
    · have hend := (seqAfter_pos o (m := x.1 + x.2.length) (n := E) (by omega)
        (by have := hc.1; omega)).2 hc.2
      have hoff : (pos o E - pos o x.1).toNat = E - x.1 := pos_sub o hc.1 (by omega)
      rw [consume_extend l hc] at hl ⊢
      rw [if_neg (by rw [hk]; exact Nat.not_lt.2 hc.1), if_pos hend, hoff,
        show E + (x.2.length - (E - x.1)) = x.1 + x.2.length by have := hc.1; have := hc.2; omega]
      refine ih _ _ fun y hy => ⟨?_, (hl y hy).2⟩
      have := (hl y hy).1; have := hc.2; omega
    · have hend : ¬ seqAfter (pos o (x.1 + x.2.length)) (pos o E) = true := by
        rw [seqAfter_pos o (by omega) (by omega)]
        exact fun hlt => hc₂ ⟨hc₁, hlt⟩
      rw [consume_skip l hc₁ hc₂] at hl ⊢
      rw [if_neg (by rw [hk]; exact Nat.not_lt.2 hc₁), if_neg hend]
      exact ih _ _ hl

/-- `s` read in positions from sequence number `o`. -/
structure At (o : UInt32) (s : StreamState) (E : Nat) (buf : List (Nat × Bytes)) : Prop where
  expected : s.expectedSeq = pos o E
  entries : s.outOfOrderSegments.entries = buf.map (enc o)
  near : ∀ x ∈ buf, x.1 ≤ E + 2 ^ 31 ∧ E < x.1 + 2 ^ 31
  small : ∀ x ∈ buf, x.2 ≠ [] ∧ x.2.length ≤ 65535

namespace At

variable {o : UInt32} {s : StreamState} {E : Nat} {buf : List (Nat × Bytes)}

/-- A stream with an empty buffer, read from any `o`. -/
theorem of_empty (o : UInt32) {s : StreamState} {E : Nat} (he : s.expectedSeq = pos o E)
    (hb : s.outOfOrderSegments.entries = []) : At o s E [] := ⟨he, by simp [hb], by simp, by simp⟩

/-- The expected position is moved, as a SYN does. -/
theorem move (h : At o s E buf) {s' : StreamState} {E' : Nat} (h₁ : s'.expectedSeq = pos o E')
    (h₂ : s'.outOfOrderSegments = s.outOfOrderSegments)
    (h₃ : ∀ x ∈ buf, x.1 ≤ E' + 2 ^ 31 ∧ E' < x.1 + 2 ^ 31) : At o s' E' buf :=
  ⟨h₁, by rw [h₂]; exact h.entries, h₃, h.small⟩

theorem size (h : At o s E buf) : s.outOfOrderSegments.size = buf.length := by
  rw [OrdMap.size, h.entries, List.length_map]

theorem hasKey (h : At o s E buf) (x : Nat) :
    s.outOfOrderSegments.hasKey (pos o x) = true ↔ ∃ y ∈ buf, pos o y.1 = pos o x := by
  rw [OrdMap.hasKey_iff, h.entries]
  constructor
  · rintro ⟨v, hv⟩
    obtain ⟨y, hy, he⟩ := List.mem_map.1 hv
    exact ⟨y, hy, (Prod.mk.inj he).1⟩
  · rintro ⟨y, hy, he⟩
    exact ⟨y.2, List.mem_map.2 ⟨y, hy, by rw [enc, he]⟩⟩

theorem sorted (h : At o s E buf) : buf.Pairwise fun x y => pos o x.1 < pos o y.1 := by
  have hs := s.outOfOrderSegments.sorted
  rw [h.entries, List.pairwise_map] at hs
  exact hs

/-- In-order data: the drain is `consume` from the end of the data. -/
theorem append (h : At o s E buf) (data : Bytes)
    (hfar : ∀ x ∈ buf, (consume (E + data.length) (s.payload ++ data) buf).1 < x.1 + 2 ^ 31) :
    At o (s.append data) (consume (E + data.length) (s.payload ++ data) buf).1
        (consume (E + data.length) (s.payload ++ data) buf).2.2 ∧
      (s.append data).payload = (consume (E + data.length) (s.payload ++ data) buf).2.1 := by
  have hd := drainLoop_pos o buf (E + data.length) (s.payload ++ data) fun x hx =>
    ⟨by have := h.near x hx; omega, hfar x hx, (h.small x hx).2⟩
  rw [← h.entries, ← pos_add_ofNat, ← h.expected] at hd
  obtain ⟨used, add, hc⟩ := consume_spec buf (E + data.length) (s.payload ++ data)
  refine ⟨⟨?_, ?_, ?_, fun x hx => h.small x (hc.mem_rest hx)⟩, ?_⟩
  · simp only [StreamState.append, hd]
  · rw [append_entries, hd]
  · intro x hx
    have := h.near x (hc.mem_rest hx); have := hfar x (hc.mem_rest hx); have := hc.le
    omega
  · simp only [StreamState.append, hd]

/-- Filing a segment at position `x`: appended when `x` is the expected
position; ahead of it, inserted into the buffer at its place in the raw key
order; otherwise, or when the key is taken or the buffer full, ignored. -/
theorem place (h : At o s E buf) {x : Nat} (data : Bytes) (hx : x ≤ E + 2 ^ 31)
    (hx' : E < x + 2 ^ 31) (hd : data ≠ []) (hl : data.length ≤ 65535) :
    (x = E ∧ s.place (pos o x) data = s.append data) ∨
    (E < x ∧ buf.length < 256 ∧ ∃ lo hi, buf = lo ++ hi ∧ (∀ y ∈ lo, pos o y.1 < pos o x) ∧
      (∀ y ∈ hi, pos o x < pos o y.1) ∧ At o (s.place (pos o x) data) E (lo ++ (x, data) :: hi) ∧
      (s.place (pos o x) data).payload = s.payload) ∨
    (x ≠ E ∧ s.place (pos o x) data = s ∧
      (x < E ∨ 256 ≤ buf.length ∨ ∃ y ∈ buf, pos o y.1 = pos o x)) := by
  have hxE : pos o x = s.expectedSeq ↔ x = E := by
    rw [h.expected]; exact pos_inj o (by omega) (by omega)
  rcases place_cases s (pos o x) data with ⟨h₁, e⟩ | ⟨h₁, h₂, h₃, h₄, e⟩ | ⟨h₁, e, h₂⟩
  · exact .inl ⟨hxE.1 h₁, e⟩
  · have hne : x ≠ E := fun he => h₁ (hxE.2 he)
    have hlt : E < x := by
      rw [h.expected] at h₂
      exact (seqAfter_pos o (by omega) (by omega)).1 h₂
    obtain ⟨lo', hi', e₁, e₂, hlo, hhi⟩ := OrdMap.emplace_split data h₄
    rw [h.entries] at e₁
    obtain ⟨lo, hi, rfl, rfl, rfl⟩ := List.map_eq_append_iff.1 e₁
    refine .inr (.inl ⟨hlt, by rw [← h.size]; exact h₃, lo, hi, rfl, ?_, ?_, ?_, by rw [e]⟩)
    · exact fun y hy => hlo _ (List.mem_map_of_mem hy)
    · exact fun y hy => hhi _ (List.mem_map_of_mem hy)
    · rw [e]
      exact ⟨h.expected, by rw [e₂]; simp [enc], forall_middle ⟨hx, hx'⟩ h.near,
        forall_middle ⟨hd, hl⟩ h.small⟩
  · refine .inr (.inr ⟨fun he => h₁ (hxE.2 he), e, ?_⟩)
    rcases h₂ with h₂ | h₂ | h₂
    · refine .inl ?_
      rw [h.expected] at h₂
      have hne : x ≠ E := fun he => h₁ (hxE.2 he)
      rcases Nat.lt_or_ge x E with hlt | hge
      · exact hlt
      · rw [(seqAfter_pos o (by omega) (by omega)).2 (by omega)] at h₂; cases h₂
    · exact .inr (.inl (by rw [← h.size]; exact h₂))
    · exact .inr (.inr ((h.hasKey x).1 h₂))

end At

/-! ## The overlap check -/

theorem overlapCounts_agree (payload : Bytes) : ∀ (data : Bytes) (rel : Int),
    (∀ i, i < data.length → 0 ≤ rel + i → rel + i < payload.length →
      payload[(rel + i).toNat]? = data[i]?) → (overlapCounts payload rel data).2 = 0
  | [], _, _ => rfl
  | b :: data, rel, h => by
    have ih := overlapCounts_agree payload data (rel + 1) fun i hi h₁ h₂ => by
      have := h (i + 1) (by simpa using hi) (by push_cast; omega) (by push_cast; omega)
      rw [List.getElem?_cons_succ] at this
      rw [← this]; congr 2; push_cast; omega
    simp only [overlapCounts]
    by_cases hr : 0 ≤ rel ∧ rel < payload.length
    · have h₀ := h 0 (by simp) (by simpa using hr.1) (by simpa using hr.2)
      rw [Int.natCast_zero, Int.add_zero, List.getElem?_cons_zero] at h₀
      rw [if_pos hr, if_neg (fun hne => hne h₀), ih]
    · rw [if_neg hr]; exact ih

/-- The sequence number of payload byte `rel + i`, when `rel` is the signed
difference the check computes. -/
theorem ofNat_rel (seq start : UInt32) (i : Nat) (h : 0 ≤ (seq - start).toInt32.toInt + i) :
    start + UInt32.ofNat ((seq - start).toInt32.toInt + i).toNat = seq + UInt32.ofNat i := by
  have hc := (seq - start).toBitVec.toInt_eq_toNat_cond
  have hlt := (seq - start).toNat_lt
  have hsub : (seq - start).toNat = (2 ^ 32 - start.toNat + seq.toNat) % 2 ^ 32 :=
    UInt32.toNat_sub ..
  have := start.toNat_lt; have := seq.toNat_lt
  simp only [UInt32.toNat_toBitVec] at hc
  rw [← Int32.toInt_toBitVec, UInt32.toBitVec_toInt32, hc] at h ⊢
  apply UInt32.toNat_inj.1
  rw [UInt32.toNat_add, UInt32.toNat_add, UInt32.toNat_ofNat', UInt32.toNat_ofNat']
  by_cases hlow : 2 * (seq - start).toNat < 2 ^ 32
  · simp only [hlow, if_true] at h ⊢; omega
  · simp only [hlow, if_false] at h ⊢; omega

/-- The segment agrees with the consumed bytes at every sequence number they
share. -/
def Consistent (s : StreamState) (seq : UInt32) (data : Bytes) : Prop :=
  ∀ i, i < data.length → ∀ j, j < s.payload.length →
    s.expectedSeq - UInt32.ofNat s.payload.length + UInt32.ofNat j = seq + UInt32.ofNat i →
      s.payload[j]? = data[i]?

theorem conflicts_of_agree {s : StreamState} {seq : UInt32} {data : Bytes}
    (h : Consistent s seq data) : s.conflicts seq data = false := by
  have hz := overlapCounts_agree s.payload data
    (seq - (s.expectedSeq - UInt32.ofNat s.payload.length)).toInt32.toInt fun i hi h₁ h₂ =>
      h i hi _ (by omega) (ofNat_rel _ _ i h₁)
  unfold conflicts
  split
  · simp only [hz]; simp
  · rfl

end Wirewolf.L2.Placement
