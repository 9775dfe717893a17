import Wirewolf.Core.Tiling
import Wirewolf.L2Stream.Reassembly
import Wirewolf.L3Table.Removal

/-!
# A stream that is emitted in parts

A connection whose payload exceeds the size limit is emitted and erased in
mid-stream; its next packet starts a new entry, whose first data segment is
the new baseline. `Live` is the stream between two packets of a delivery:
what is left of the partition is split into the buffered segments and those
still to come.

* `Live.deliver`: one segment, consumed with what it releases from the
  buffer, or buffered.
* `split_continuous`: as long as no emission closes a gap and no new entry
  starts past one, the parts are the stream.
* `split_reorders`: the pass comes while a segment waits behind a missing
  one.
-/
namespace Wirewolf.L3.Splitting

open Wirewolf.L1.IpPacket Wirewolf.L2.Connection Wirewolf.L2.Connection.StreamState
open Wirewolf.Overlay Wirewolf.Serial Wirewolf.L2.Placement Wirewolf.L2.Reassembly
open Wirewolf.L3.Table Wirewolf.L3.Removal

/-! ## The stream -/

/-- The stream stands at position `E`; the pieces `segs` of the rest are
buffered (`buf`) or still to come (`rest`). -/
structure Live (o : UInt32) (s : StreamState) (E : Nat) (segs : List Bytes)
    (buf rest : List (Nat × Bytes)) : Prop where
  at_end : At o s E buf
  short : s.payload.length ≤ E
  pieces : (buf ++ rest).Perm (tile E segs)
  ahead : ∀ x ∈ buf, E < x.1

theorem total_le {B : Nat} {l : List (Nat × Bytes)} (h : ∀ x ∈ l, x.2.length ≤ B) :
    total l ≤ l.length * B := by
  induction l with
  | nil => simp [total]
  | cons x l ih =>
    have := h x (List.mem_cons_self ..)
    have := ih fun y hy => h y (List.mem_cons_of_mem _ hy)
    rw [total_cons, List.length_cons, Nat.succ_mul]; omega

/-- A position that `seq_after` accepts is at most 2^31 ahead. -/
theorem near_of_after {o : UInt32} {E n : Nat} (hE : E ≤ n) (hn : n < wrapAt o)
    (h : pos o n = pos o E ∨ seqAfter (pos o n) (pos o E) = true) : n ≤ E + 2 ^ 31 := by
  unfold wrapAt at hn
  rcases h with h | h
  · have := (pos_inj o (by omega) (by omega)).1 h
    omega
  · rw [seqAfter_eq, before_iff] at h
    rcases Nat.eq_or_lt_of_le hE with rfl | hlt
    · omega
    · rw [pos_sub_lt o hlt (by omega)] at h; omega

namespace Live

variable {o : UInt32} {s : StreamState} {E : Nat} {segs : List Bytes}
    {buf rest : List (Nat × Bytes)}

/-- What is buffered starts short of the stream's end. -/
theorem start_lt (h : Live o s E segs buf rest) (hne : ∀ d ∈ segs, d ≠ []) {x : Nat × Bytes}
    (hx : x ∈ buf) : x.1 < E + segs.flatten.length := by
  have hmem := h.pieces.subset (List.mem_append_left _ hx)
  have hpos := List.length_pos_iff.2 (hne _ (tile_ge segs E x hmem).2)
  have := tile_bound segs E x hmem
  omega

/-- Short of the wrap the buffer is in stream order. -/
theorem sorted (h : Live o s E segs buf rest) (hw : E + segs.flatten.length ≤ wrapAt o)
    (hne : ∀ d ∈ segs, d ≠ []) : buf.Pairwise fun x y => x.1 < y.1 := by
  refine h.at_end.sorted.imp_of_mem fun {x y} hx hy hlt => ?_
  have hx' := h.start_lt hne hx
  have hy' := h.start_lt hne hy
  rw [UInt32.lt_iff_toNat_lt, toNat_pos_short o (by omega), toNat_pos_short o (by omega)] at hlt
  omega

/-- Nothing ahead of the payload overlaps it. -/
theorem consistent (h : Live o s E segs buf rest) {a : Nat} {d : Bytes} (ha : E ≤ a)
    (hw : a + d.length ≤ wrapAt o) : Consistent s (pos o a) d := by
  intro i hi j hj he
  have hshort := h.short
  have hstart : s.expectedSeq - UInt32.ofNat s.payload.length = pos o (E - s.payload.length) := by
    rw [h.at_end.expected, show pos o E = pos o (E - s.payload.length + s.payload.length) by
      rw [Nat.sub_add_cancel hshort], ← pos_add_ofNat]
    exact UInt32.add_sub_cancel ..
  unfold wrapAt at hw
  rw [hstart, pos_add_ofNat, pos_add_ofNat, pos_inj o (by omega) (by omega)] at he
  omega

/-- One segment of the delivery. -/
theorem deliver {x : Nat × Bytes} (h : Live o s E segs buf (x :: rest))
    (hw : E + segs.flatten.length ≤ wrapAt o) (hne : ∀ d ∈ segs, d ≠ [])
    (hsize : s.outOfOrderSegments.size < 256) {p : TcpPacket} (hp : Delivers o x p)
    (hbase : s.baseline p.seq = s)
    (hnear : p.seq = s.expectedSeq ∨ seqAfter p.seq s.expectedSeq = true) :
    ∃ segs₁ segs₂ buf', segs = segs₁ ++ segs₂ ∧
      (s.receive p).1.payload = s.payload ++ segs₁.flatten ∧
      Live o (s.receive p).1 (E + segs₁.flatten.length) segs₂ buf' rest ∧
      (x.1 = E → (s.receive p).1.payload ≠ []) := by
  have hx : x ∈ tile E segs := h.pieces.subset (by simp)
  obtain ⟨hge, hmem⟩ := tile_ge segs E x hx
  have hbound := tile_bound segs E x hx
  have hdata : IsData p x.2 := ⟨hp.1, hp.2.2, hne _ hmem⟩
  have hpos := List.length_pos_iff.2 hdata.2.2
  have hr : s.receive p = (s.place (pos o x.1) x.2, false) := by
    have hc := conflicts_of_agree (h.consistent hge (Nat.le_trans hbound hw))
    rw [receive_isData hdata, hbase, hp.2.1, hc]; rfl
  rw [hp.2.1, h.at_end.expected] at hnear
  have hfar := near_of_after hge (by omega) hnear
  rw [hr]
  rcases h.at_end.place x.2 hfar (by omega) hdata.2.2 hdata.length_le with
    ⟨hxE, e⟩ | ⟨hlt, -, lo, hi, rfl, -, -, hat, hpay⟩ | ⟨hneE, -, hwhy⟩
  · -- the next piece, with what it releases
    obtain ⟨ds, rfl⟩ := tile_head hne hx hxE
    have hpieces : (buf ++ rest).Perm (tile (E + x.2.length) ds) := by
      refine tile_cancel (List.perm_middle.symm.trans ?_)
      rw [← hxE]; rw [← hxE] at h; exact h.pieces
    have htotal := total_le fun y hy => (h.at_end.small y hy).2
    rw [h.at_end.size] at hsize
    obtain ⟨hat, hpay⟩ := h.at_end.append x.2 fun y hy => by
      have := consume_le_total buf (E + x.2.length) (s.payload ++ x.2)
      have := h.ahead y hy
      have := hdata.length_le
      omega
    obtain ⟨s₁, s₂, rfl, h₁, h₂, h₃, h₄⟩ := consume_tiles (E + x.2.length) (s.payload ++ x.2)
      (fun d hd => hne d (List.mem_cons_of_mem _ hd)) (h.sorted hw hne) hpieces
    have hlen : E + (x.2 :: s₁).flatten.length = E + x.2.length + s₁.flatten.length := by
      rw [List.flatten_cons, List.length_append]; omega
    have hlive : Live o (s.append x.2) (E + (x.2 :: s₁).flatten.length) s₂
        (consume (E + x.2.length) (s.payload ++ x.2) buf).2.2 rest := by
      rw [hlen]
      refine ⟨by rw [← h₁]; exact hat, ?_, h₃, h₄⟩
      have := h.short
      rw [hpay, h₂]; simp only [List.length_append]; omega
    rw [e]
    refine ⟨x.2 :: s₁, s₂, _, rfl, ?_, hlive, fun _ => ?_⟩
    · rw [hpay, h₂, List.flatten_cons, List.append_assoc]
    · rw [hpay, h₂]; simp [hdata.2.2]
  · -- ahead of a missing one
    refine ⟨[], segs, lo ++ x :: hi,
      rfl, by simp [hpay], ⟨hat, by rw [hpay]; exact h.short, ?_, ?_⟩, ?_⟩
    · exact ((List.perm_middle.append_right rest).trans List.perm_middle.symm).trans h.pieces
    · exact forall_middle (by simpa using hlt) (by simpa using h.ahead)
    · intro he; omega
  · -- every piece comes once
    exfalso
    rcases hwhy with hlt | hfull | ⟨y, hy, he⟩
    · omega
    · rw [h.at_end.size] at hsize; omega
    · have hy' := h.start_lt hne hy
      unfold wrapAt at hw
      have heq := (pos_inj o (by omega) (by omega)).1 he
      have hnodup := ((h.pieces.map Prod.fst).nodup_iff).2 (tile_starts hne)
      rw [List.map_append, List.nodup_append] at hnodup
      exact hnodup.2.2 _ (List.mem_map_of_mem hy) _
        (List.mem_map_of_mem (List.mem_cons_self ..)) heq

end Live

/-! ## The table -/

section Table

variable {e : Env} {cid : ConnectionId} {n : Nat} {r r' : Reassembler} {p : TcpPacket}

/-- The connection's entry; a fresh one when it has none. -/
def current (cid : ConnectionId) (r : Reassembler) : ConnectionState :=
  (r.connections.find? cid).getD {}

/-- The payloads of the connection's flows, from the `n`-th flow of the queue
on, one after the other. -/
def emitted (cid : ConnectionId) (n : Nat) (r : Reassembler) : Bytes :=
  (((r.outputQueue.drop n).map label).filter fun x => x.1 = cid).flatMap Prod.snd

theorem emitted_append {new : List FlowData} {pay : List Bytes} (hn : n ≤ r.outputQueue.length)
    (hq : r'.outputQueue = r.outputQueue ++ new)
    (hl : (new.map label).filter (fun x => x.1 = cid) = pay.map fun b => (cid, b)) :
    emitted cid n r' = emitted cid n r ++ pay.flatten := by
  rw [emitted, emitted, hq, List.drop_append_of_le_length hn, List.map_append, List.filter_append,
    hl, List.flatMap_append]
  congr 1
  simp [List.flatMap_def, Function.comp_def]

theorem emitted_congr (hq : r'.outputQueue = r.outputQueue) :
    emitted cid n r' = emitted cid n r := by
  rw [emitted, hq, emitted]

/-- The packet of a connection without an entry is not shed, and the forced
eviction it may cause spares `cid`. -/
def Room (cid : ConnectionId) (r : Reassembler) (p : TcpPacket) : Prop :=
  r.connections.find? p.cid = none →
    (makeRoom p.time r).connections.find? cid = r.connections.find? cid ∧
      (p.cid = cid → (makeRoom p.time r).connections.size < maxConnections)

theorem current_own (hp : p.cid = cid) (hroom : Room cid r p) :
    current cid (processTcp r p).1 = ((current cid r).receive p).1 := by
  subst hp
  unfold processTcp current
  cases hf : r.connections.find? p.cid with
  | some st => simp only [UMap.find?_put_self, Option.getD_some]
  | none =>
    have hsize := Nat.not_le.2 ((hroom hf).2 rfl)
    simp only [if_neg hsize, UMap.find?_put_self, Option.getD_some, Option.getD_none]

theorem current_other (hp : p.cid ≠ cid) (hroom : Room cid r p) :
    current cid (processTcp r p).1 = current cid r := by
  unfold processTcp current
  cases hf : r.connections.find? p.cid with
  | some st => simp only [UMap.find?_put_of_ne _ _ (Ne.symm hp)]
  | none =>
    dsimp only
    split
    · exact congrArg (·.getD {}) (hroom hf).1
    · simp only [UMap.find?_put_of_ne _ _ (Ne.symm hp), (hroom hf).1]

theorem not_mem_of_find? (h : r.connections.find? cid = none) (st : ConnectionState) :
    (cid, st) ∉ r.connections.entries :=
  fun hmem => UMap.find?_eq_none.1 h _ hmem rfl

/-- A pass emits the connection, with what is buffered, or leaves it. -/
theorem complete_cases (e : Env) (hn : n ≤ r.outputQueue.length) :
    (current cid (checkCompleteFlows e r) = current cid r ∧
      emitted cid n (checkCompleteFlows e r) = emitted cid n r) ∨
    ∃ st, r.connections.find? cid = some st ∧ isComplete e cid st = true ∧
      current cid (checkCompleteFlows e r) = {} ∧
      emitted cid n (checkCompleteFlows e r) = emitted cid n r ++ mergedPayload st := by
  cases hf : r.connections.find? cid with
  | none =>
    have habs := not_mem_of_find? hf
    obtain ⟨new, hq, hl⟩ := sweep_labels_kept (completeFlow_pushes e) (isComplete e) r.toSinks
      (fun st hst => absurd hst (habs st))
    have hf' : (checkCompleteFlows e r).connections.find? cid = none := by
      refine Option.eq_none_iff_forall_ne_some.2 fun st hst => ?_
      exact habs st (mem_checkCompleteFlows.1 (UMap.find?_eq_some.1 hst)).1
    have hem : emitted cid n (checkCompleteFlows e r) = emitted cid n r ++
        ([] : List Bytes).flatten :=
      emitted_append hn hq hl
    exact .inl ⟨by rw [current, hf', current, hf], by simpa using hem⟩
  | some st =>
    have hmem := UMap.find?_eq_some.1 hf
    obtain ⟨new, hq, hl⟩ := complete_labels e hmem
    have hem := emitted_append hn hq hl
    cases hc : isComplete e cid st with
    | true =>
      have hf' : (checkCompleteFlows e r).connections.find? cid = none := by
        refine Option.eq_none_iff_forall_ne_some.2 fun st' hst => ?_
        obtain ⟨hm, hc'⟩ := mem_checkCompleteFlows.1 (UMap.find?_eq_some.1 hst)
        cases UMap.eq_of_mem hmem hm
        rw [hc] at hc'; cases hc'
      rw [hc] at hem
      exact .inr ⟨st, rfl, hc, by rw [current, hf', Option.getD_none], by simpa using hem⟩
    | false =>
      have hf' : (checkCompleteFlows e r).connections.find? cid = some st :=
        UMap.find?_eq_some.2 (mem_checkCompleteFlows.2 ⟨hmem, hc⟩)
      rw [hc] at hem
      exact .inl ⟨by rw [current, hf', current, hf], by simpa using hem⟩

/-- The end of the capture emits what is left; with an empty buffer that is
the payload. -/
theorem flush_emitted (e : Env) (hn : n ≤ r.outputQueue.length)
    (hbuf : (current cid r).outOfOrderSegments.entries = []) :
    emitted cid n (flushAllFlows e r) = emitted cid n r ++ (current cid r).payload := by
  cases hf : r.connections.find? cid with
  | none =>
    have habs := not_mem_of_find? hf
    obtain ⟨new₁, hq₁, hl₁⟩ := sweep_labels_kept (completeFlow_pushes e) (isComplete e) r.toSinks
      (fun st hst => absurd hst (habs st))
    obtain ⟨new₂, hq₂, hl₂⟩ := sweep_labels_kept (flushFlow_pushes e) (fun _ _ => true)
      (checkCompleteFlows e r).toSinks
      (fun st hst => absurd (mem_checkCompleteFlows.1 hst).1 (habs st))
    have hq : (flushAllFlows e r).outputQueue = r.outputQueue ++ (new₁ ++ new₂) := by
      rw [← List.append_assoc, ← show (checkCompleteFlows e r).outputQueue = _ from hq₁]
      exact hq₂
    have hl : ((new₁ ++ new₂).map label).filter (fun x => x.1 = cid) =
        ([] : List Bytes).map fun b => (cid, b) := by
      rw [List.map_append, List.filter_append, hl₁, hl₂]; rfl
    rw [emitted_append hn hq hl, current, hf]; rfl
  | some st =>
    obtain ⟨new, hq, hl⟩ := flush_labels e (UMap.find?_eq_some.1 hf)
    rw [current, hf, Option.getD_some] at hbuf
    rw [emitted_append hn hq hl, current, hf, Option.getD_some]
    congr 1
    split
    · rename_i hd
      simp only [dropped, Bool.and_eq_true, List.isEmpty_iff] at hd
      rw [hd.2.1]; rfl
    · simp [mergedPayload, hbuf]

end Table

/-! ## A delivery -/

/-- The labels deliver the pieces `xs` on the connection, each once and in
this order; between them packets without data, packets of other
connections, passes and rehashes. -/
inductive Delivery (cid : ConnectionId) (o : UInt32) : List (Nat × Bytes) → List Label → Prop
  | nil : Delivery cid o [] []
  | data {x : Nat × Bytes} {xs : List (Nat × Bytes)} {p : TcpPacket} {ls : List Label} :
      p.cid = cid → Delivers o x p → Delivery cid o xs ls →
      Delivery cid o (x :: xs) (.packet p :: ls)
  | empty {xs : List (Nat × Bytes)} {p : TcpPacket} {ls : List Label} :
      p.cid = cid → p.syn = false → (∀ d, p.data = some d → d = []) → Delivery cid o xs ls →
      Delivery cid o xs (.packet p :: ls)
  | other {xs : List (Nat × Bytes)} {p : TcpPacket} {ls : List Label} :
      p.cid ≠ cid → Delivery cid o xs ls → Delivery cid o xs (.packet p :: ls)
  | pass {xs : List (Nat × Bytes)} {ls : List Label} :
      Delivery cid o xs ls → Delivery cid o xs (.removal .complete :: ls)
  | rehash {xs : List (Nat × Bytes)} {ls : List Label} :
      Delivery cid o xs ls → Delivery cid o xs (.rehash :: ls)

def FewBuffered (cid : ConnectionId) (r : Reassembler) (_ : Label) : Prop :=
  (current cid r).outOfOrderSegments.size < 256

/-- A segment is not so far ahead that it is taken for an old one; the first
one of an entry without a baseline continues what was `sent`. -/
def InPlace (o : UInt32) (sent : Nat) (s : StreamState) (p : TcpPacket) : Prop :=
  (Based s → p.seq = s.expectedSeq ∨ seqAfter p.seq s.expectedSeq = true) ∧
    (¬ Based s → p.seq = pos o sent)

/-- A pass that emits the connection finds nothing buffered. -/
def Smooth (e : Env) (cid : ConnectionId) (o : UInt32) (n : Nat) (r : Reassembler) : Label → Prop
  | .packet p => Room cid r p ∧ (p.cid = cid → ∀ d, IsData p d →
      InPlace o (emitted cid n r).length (current cid r).toStreamState p)
  | .removal .complete => ∀ st, r.connections.find? cid = some st → isComplete e cid st = true →
      st.outOfOrderSegments.entries = []
  | _ => True

/-- No baseline yet. -/
def Blank (s : StreamState) : Prop :=
  s.synReceived = false ∧ s.payload = [] ∧ s.outOfOrderSegments.entries = []

theorem Blank.not_based {s : StreamState} (h : Blank s) : ¬ Based s := by
  intro hx
  rcases hx with hs | hp
  · rw [h.1] at hs; cases hs
  · exact hp h.2.1

/-- Between two labels: the pieces `done` are emitted or in the payload, in
order. -/
structure Going (cid : ConnectionId) (o : UInt32) (n : Nat) (segs : List Bytes) (r : Reassembler)
    (rest : List (Nat × Bytes)) : Prop where
  queue : n ≤ r.outputQueue.length
  parts : ∃ done left, segs = done ++ left ∧
    emitted cid n r ++ (current cid r).payload = done.flatten ∧
    ((Based (current cid r).toStreamState ∧
        ∃ buf, Live o (current cid r).toStreamState done.flatten.length left buf rest) ∨
      (Blank (current cid r).toStreamState ∧ rest.Perm (tile done.flatten.length left)))

namespace Going

variable {e : Env} {cid : ConnectionId} {o : UInt32} {n : Nat} {segs : List Bytes}
  {r r' : Reassembler} {rest : List (Nat × Bytes)} {x : Nat × Bytes} {p : TcpPacket}

theorem congr (h : Going cid o n segs r rest) (hq : r'.outputQueue = r.outputQueue)
    (hs : (current cid r').toStreamState = (current cid r).toStreamState) :
    Going cid o n segs r' rest where
  queue := by rw [hq]; exact h.queue
  parts := by rw [emitted_congr hq, hs]; exact h.parts

/-- A segment of the connection. -/
theorem data (h : Going cid o n segs r (x :: rest)) (hne : ∀ d ∈ segs, d ≠ [])
    (hw : segs.flatten.length ≤ wrapAt o) (hp : p.cid = cid) (hd : Delivers o x p)
    (hroom : Room cid r p) (hsize : (current cid r).outOfOrderSegments.size < 256)
    (hplace : ∀ d, IsData p d →
      InPlace o (emitted cid n r).length (current cid r).toStreamState p) :
    Going cid o n segs (processTcp r p).1 rest := by
  have hq := processTcp_queue r p
  obtain ⟨done, left, rfl, hsent, hstate⟩ := h.parts
  have hne' : ∀ d ∈ left, d ≠ [] := fun d hd => hne d (List.mem_append_right _ hd)
  rw [List.flatten_append, List.length_append] at hw
  -- the stream before the packet, with its baseline
  have hlive : ∃ s buf, (current cid r).toStreamState.receive p = s.receive p ∧
      s.payload = (current cid r).payload ∧ s.outOfOrderSegments.size < 256 ∧
      s.baseline p.seq = s ∧ (p.seq = s.expectedSeq ∨ seqAfter p.seq s.expectedSeq = true) ∧
      Live o s done.flatten.length left buf (x :: rest) ∧
      (Based s ∨ x.1 = done.flatten.length) := by
    rcases hstate with ⟨hb, buf, hl⟩ | ⟨hblank, hperm⟩
    · have hx := (tile_ge left _ x (hl.pieces.subset (by simp))).2
      have hin := hplace x.2 ⟨hd.1, hd.2.2, hne' _ hx⟩
      exact ⟨_, buf, rfl, rfl, hsize, hb.baseline _, hin.1 hb, hl, .inl hb⟩
    · have hmem := hperm.subset (List.mem_cons_self ..)
      have hx := tile_ge left _ x hmem
      have hbound := tile_bound left _ x hmem
      have hdata : IsData p x.2 := ⟨hd.1, hd.2.2, hne' _ hx.2⟩
      have hpos := List.length_pos_iff.2 hdata.2.2
      have hseq := (hplace x.2 hdata).2 hblank.not_based
      have hsent' : emitted cid n r = done.flatten := by
        rw [← hsent, hblank.2.1, List.append_nil]
      have hxE : x.1 = done.flatten.length := by
        rw [hd.2.1, hsent'] at hseq
        unfold wrapAt at hw
        exact (pos_inj o (by omega) (by omega)).1 hseq
      have hbase : (current cid r).toStreamState.baseline p.seq =
          { (current cid r).toStreamState with expectedSeq := p.seq } := by
        simp [baseline, hblank.1, hblank.2.1, OrdMap.isEmpty, hblank.2.2]
      refine ⟨(current cid r).toStreamState.baseline p.seq, [], ?_, by rw [baseline_payload],
        by rw [baseline_segments]; exact hsize, baseline_baseline .., .inl ?_, ?_, .inr hxE⟩
      · rw [receive_isData hdata, receive_isData hdata, baseline_baseline]
      · rw [hbase]
      · rw [hbase]
        refine ⟨At.of_empty o ?_ hblank.2.2, ?_, hperm, by simp⟩
        · exact hseq.trans (by rw [hsent'])
        · simp only [hblank.2.1, List.length_nil]; omega
  obtain ⟨s, buf, hr, hpay, hsize', hbase, hnear, hl, hfirst⟩ := hlive
  obtain ⟨s₁, s₂, buf', rfl, hpay', hl', hnew⟩ :=
    hl.deliver hw hne' hsize' hd hbase hnear
  have hcur : (current cid (processTcp r p).1).toStreamState = (s.receive p).1 := by
    rw [current_own hp hroom, ConnectionState.receive_stream, hr]
  refine ⟨by rw [hq]; exact h.queue, done ++ s₁,
    s₂, by rw [List.append_assoc], ?_, .inl ⟨?_, buf', ?_⟩⟩
  · rw [emitted_congr hq, hcur, hpay', hpay, ← List.append_assoc, hsent, List.flatten_append]
  · rw [hcur]
    rcases hfirst with hb | hxE
    · exact hb.receive p
    · exact .inr (hnew hxE)
  · rw [hcur, List.flatten_append, List.length_append]; exact hl'

/-- A packet without data. -/
theorem empty (h : Going cid o n segs r rest) (hp : p.cid = cid) (hs : p.syn = false)
    (hno : ∀ d, p.data = some d → d = []) (hroom : Room cid r p) :
    Going cid o n segs (processTcp r p).1 rest := by
  refine h.congr (processTcp_queue r p) ?_
  rw [current_own hp hroom, ConnectionState.receive_stream, receive_noData hs hno]

theorem other (h : Going cid o n segs r rest) (hp : p.cid ≠ cid) (hroom : Room cid r p) :
    Going cid o n segs (processTcp r p).1 rest :=
  h.congr (processTcp_queue r p) (by rw [current_other hp hroom])

/-- A pass: the connection stays, or all of its payload is emitted. -/
theorem pass (h : Going cid o n segs r rest)
    (hempty : ∀ st, r.connections.find? cid = some st → isComplete e cid st = true →
      st.outOfOrderSegments.entries = []) : Going cid o n segs (checkCompleteFlows e r) rest := by
  have hqueue : n ≤ (checkCompleteFlows e r).outputQueue.length := by
    obtain ⟨new, hq, -⟩ := sweep_pushes (completeFlow_pushes e)
      (isComplete e) r.toSinks r.connections
    have hq' : (checkCompleteFlows e r).outputQueue = r.outputQueue ++ new := hq
    have := h.queue
    rw [hq', List.length_append]; omega
  obtain ⟨done, left, hsegs, hsent, hstate⟩ := h.parts
  rcases complete_cases e h.queue with ⟨hcur, hem⟩ | ⟨st, hf, hc, hcur, hem⟩
  · exact ⟨hqueue, done, left, hsegs, by rw [hcur, hem]; exact hsent, by rw [hcur]; exact hstate⟩
  · have hst : current cid r = st := by rw [current, hf, Option.getD_some]
    have hnil := hempty st hf hc
    rw [hst] at hsent hstate
    refine ⟨hqueue, done, left, hsegs, ?_, .inr ⟨by rw [hcur]; exact ⟨rfl, rfl, rfl⟩, ?_⟩⟩
    · rw [hem, hcur, ← hsent]
      simp [mergedPayload, hnil]
    · rcases hstate with ⟨-, buf, hl⟩ | ⟨-, hperm⟩
      · have hbuf : buf = [] := by
          have := hl.at_end.entries
          rw [hnil] at this
          exact List.map_eq_nil_iff.1 this.symm
        have := hl.pieces
        rwa [hbuf, List.nil_append] at this
      · exact hperm

theorem rehash (h : Going cid o n segs r rest) (l : List (ConnectionId × ConnectionState))
    (hl : l.Perm r.connections.entries) :
    Going cid o n segs { r with connections := r.connections.reorder l hl } rest :=
  h.congr rfl (by rw [current, current, UMap.find?_reorder])

/-- The whole delivery. -/
theorem run {xs : List (Nat × Bytes)} {ls : List Label} (hdel : Delivery cid o xs ls)
    (hne : ∀ d ∈ segs, d ≠ []) (hw : segs.flatten.length ≤ wrapAt o)
    (h : Going cid o n segs r xs) (hrun : (system e).Run r ls r')
    (hfew : (system e).Along (FewBuffered cid) r ls)
    (hsmooth : (system e).Along (Smooth e cid o n) r ls) : Going cid o n segs r' [] := by
  induction hdel generalizing r with
  | nil => cases hrun; exact h
  | data hp hd _ ih =>
    cases hrun with
    | cons hst hrun =>
      refine ih ?_ hrun (hfew.2 _ hst) (hsmooth.2 _ hst)
      cases hst
      exact h.data hne hw hp hd hsmooth.1.1 hfew.1 (hsmooth.1.2 hp)
  | empty hp hs hno _ ih =>
    cases hrun with
    | cons hst hrun =>
      refine ih ?_ hrun (hfew.2 _ hst) (hsmooth.2 _ hst)
      cases hst
      exact h.empty hp hs hno hsmooth.1.1
  | other hp _ ih =>
    cases hrun with
    | cons hst hrun =>
      refine ih ?_ hrun (hfew.2 _ hst) (hsmooth.2 _ hst)
      cases hst
      exact h.other hp hsmooth.1.1
  | pass _ ih =>
    cases hrun with
    | cons hst hrun =>
      refine ih ?_ hrun (hfew.2 _ hst) (hsmooth.2 _ hst)
      cases hst
      exact h.pass hsmooth.1
  | rehash _ ih =>
    cases hrun with
    | cons hst hrun =>
      refine ih ?_ hrun (hfew.2 _ hst) (hsmooth.2 _ hst)
      obtain ⟨l, hl, rfl⟩ := hst
      exact h.rehash l hl

/-- With every piece delivered nothing is buffered. -/
theorem flush (h : Going cid o n segs r []) (e : Env) :
    emitted cid n (flushAllFlows e r) = segs.flatten := by
  obtain ⟨done, left, rfl, hsent, hstate⟩ := h.parts
  have hend : left = [] ∧ (current cid r).outOfOrderSegments.entries = [] := by
    rcases hstate with ⟨-, buf, hl⟩ | ⟨hblank, hperm⟩
    · have hleft : left = [] := by
        cases left with
        | nil => rfl
        | cons d ds =>
          have hmem := hl.pieces.symm.subset (List.mem_cons_self ..)
          rw [List.append_nil] at hmem
          exact absurd (hl.ahead _ hmem) (Nat.lt_irrefl _)
      subst hleft
      have hbuf := List.perm_nil.1 hl.pieces
      rw [List.append_nil] at hbuf
      refine ⟨rfl, ?_⟩
      rw [hl.at_end.entries, hbuf, List.map_nil]
    · refine ⟨?_, hblank.2.2⟩
      cases left with
      | nil => rfl
      | cons d ds => cases List.nil_perm.1 hperm
  obtain ⟨rfl, hbuf⟩ := hend
  rw [flush_emitted e h.queue hbuf, hsent, List.append_nil]

end Going

/-- A SYN, then every piece of a partition once, in any order, and the end of
the capture; passes, other connections and rehashes at any point. -/
theorem split_continuous (e : Env) (cid : ConnectionId) (isn : UInt32) (segs : List Bytes)
    (hne : ∀ d ∈ segs, d ≠ []) (hw : (isn + 1).toNat + segs.flatten.length ≤ 2 ^ 32)
    (syn : TcpPacket) (hcid : syn.cid = cid) (hsyn : syn.syn = true) (hisn : syn.seq = isn)
    (xs : List (Nat × Bytes)) (hxs : xs.Perm (tile 0 segs)) (ls : List Label)
    (hdel : Delivery cid (isn + 1) xs ls) (r₀ r : Reassembler)
    (habsent : r₀.connections.find? cid = none) (hrun : (system e).Run r₀ (.packet syn :: ls) r)
    (hfew : (system e).Along (FewBuffered cid) r₀ (.packet syn :: ls))
    (hsmooth : (system e).Along (Smooth e cid (isn + 1) r₀.outputQueue.length) r₀
      (.packet syn :: ls)) :
    emitted cid r₀.outputQueue.length (flushAllFlows e r) = segs.flatten := by
  have hw' : segs.flatten.length ≤ wrapAt (isn + 1) := by
    unfold wrapAt; omega
  cases hrun with
  | cons hst hrun =>
    have hfew := hfew.2 _ hst
    have hrest := hsmooth.2 _ hst
    cases hst
    have hcur : (current cid (processTcp r₀ syn).1).toStreamState =
        { synReceived := true, expectedSeq := isn + 1 } := by
      rw [current_own hcid hsmooth.1.1, ConnectionState.receive_stream, current, habsent,
        Option.getD_none]
      simp [StreamState.receive, hsyn, hisn]
    have hnone : emitted cid r₀.outputQueue.length (processTcp r₀ syn).1 = [] := by
      rw [emitted, processTcp_queue, List.drop_length]; rfl
    have hstart : Going cid (isn + 1) r₀.outputQueue.length segs (processTcp r₀ syn).1 xs := by
      refine ⟨Nat.le_of_eq (congrArg List.length (processTcp_queue ..).symm), [], segs,
        rfl, by rw [hnone, hcur]; rfl, .inl ?_⟩
      rw [hcur]
      exact ⟨.inl rfl, [], At.of_empty _ (by simp) rfl, by simp, hxs, by simp⟩
    exact (hstart.run hdel hne hw' hrun hfew hrest).flush e

/-! ## Fixed runs -/

instance (cid : ConnectionId) (r : Reassembler) (l : Label) : Decidable (FewBuffered cid r l) :=
  inferInstanceAs (Decidable (_ < _))

instance (cid : ConnectionId) (r : Reassembler) (p : TcpPacket) : Decidable (Room cid r p) :=
  inferInstanceAs (Decidable (_ → _))

instance (o : UInt32) (sent : Nat) (s : StreamState) (p : TcpPacket) :
    Decidable (InPlace o sent s p) :=
  have : Decidable (Based s) := inferInstanceAs (Decidable (_ ∨ _))
  inferInstanceAs (Decidable (_ ∧ _))

section Steps

variable {e : Env} {P : Reassembler → Label → Prop} {r : Reassembler} {ls : List Label}

theorem along_packet {p : TcpPacket} (h : P r (.packet p))
    (ht : (system e).Along P (processTcp r p).1 ls) : (system e).Along P r (.packet p :: ls) :=
  ⟨h, fun _ hs => by cases hs; exact ht⟩

theorem along_removal {m : Removal} (h : P r (.removal m))
    (ht : (system e).Along P (m.run e r) ls) : (system e).Along P r (.removal m :: ls) :=
  ⟨h, fun _ hs => by cases hs; exact ht⟩

end Steps

/-- Every payload is above the limit. -/
def tinyEnv : Env := { plainEnv with maxFlowPayloadBytes := 1 }

/-- `AB`, a pass that emits it, `CD`. -/
def inOrder : List Label :=
  [.packet (.twoBytes ⟨1, 2, 3, 4⟩ 101 0x41 0x42), .removal .complete,
    .packet (.twoBytes ⟨1, 2, 3, 4⟩ 103 0x43 0x44)]

/-- `AB` and `EF`, a pass that emits both, `CD`. -/
def swapped : List Label :=
  [.packet (.twoBytes ⟨1, 2, 3, 4⟩ 101 0x41 0x42),
    .packet (.twoBytes ⟨1, 2, 3, 4⟩ 105 0x45 0x46), .removal .complete,
    .packet (.twoBytes ⟨1, 2, 3, 4⟩ 103 0x43 0x44)]

theorem split_continuous_parts :
    ∃ r, (system tinyEnv).Run {} (.packet (.synSegment ⟨1, 2, 3, 4⟩ 100) :: inOrder) r ∧
      emitted ⟨1, 2, 3, 4⟩ 0 (flushAllFlows tinyEnv r) = [0x41, 0x42, 0x43, 0x44] := by
  have hdel : Delivery ⟨1, 2, 3, 4⟩ (100 + 1) (tile 0 [[0x41, 0x42], [0x43, 0x44]]) inOrder :=
    .data rfl ⟨rfl, rfl, rfl⟩ (.pass (.data rfl ⟨rfl, rfl, rfl⟩ .nil))
  have hfew : (system tinyEnv).Along (FewBuffered ⟨1, 2, 3, 4⟩) {}
      (.packet (.synSegment ⟨1, 2, 3, 4⟩ 100) :: inOrder) := by
    apply along_packet (by decide)
    apply along_packet (by decide)
    apply along_removal (by decide)
    exact along_packet (by decide) trivial
  have hsmooth : (system tinyEnv).Along (Smooth tinyEnv ⟨1, 2, 3, 4⟩ (100 + 1) 0) {}
      (.packet (.synSegment ⟨1, 2, 3, 4⟩ 100) :: inOrder) := by
    apply along_packet
    · exact ⟨by decide, fun _ d h => by cases h.1⟩
    apply along_packet
    · exact ⟨by decide, fun _ d _ => by decide⟩
    apply along_removal
    · intro st hst _
      cases hst; decide
    apply along_packet
    · exact ⟨by decide, fun _ d _ => by decide⟩
    trivial
  have hrun : ∃ r, (system tinyEnv).Run {} (.packet (.synSegment ⟨1, 2, 3, 4⟩ 100) :: inOrder) r :=
    ⟨_, .cons rfl (.cons rfl (.cons rfl (.cons rfl (.nil _))))⟩
  obtain ⟨r, hr⟩ := hrun
  exact ⟨r, hr, split_continuous tinyEnv _ 100 [[0x41, 0x42], [0x43, 0x44]] (by decide) (by decide)
    _ rfl rfl rfl _ (List.Perm.refl _) _ hdel {} r rfl hr hfew hsmooth⟩

/-- The pass comes while `EF` waits for `CD`: `ABEF` is emitted, then `CD`. -/
theorem split_reorders :
    Delivery ⟨1, 2, 3, 4⟩ (100 + 1) [(0, [0x41, 0x42]), (4, [0x45, 0x46]),
      (2, [0x43, 0x44])] swapped ∧
      [(0, [0x41, 0x42]), (4, [0x45, 0x46]), (2, [0x43, 0x44])].Perm
        (tile 0 [[0x41, 0x42], [0x43, 0x44], [0x45, (0x46 : UInt8)]]) ∧
      (system tinyEnv).Along (FewBuffered ⟨1, 2, 3, 4⟩) {}
        (.packet (.synSegment ⟨1, 2, 3, 4⟩ 100) :: swapped) ∧
      ∃ r, (system tinyEnv).Run {} (.packet (.synSegment ⟨1, 2, 3, 4⟩ 100) :: swapped) r ∧
        emitted ⟨1, 2, 3, 4⟩ 0 (flushAllFlows tinyEnv r) =
          [0x41, 0x42, 0x45, 0x46, 0x43, 0x44] := by
  refine ⟨?_, by decide, ?_, _, .cons rfl (.cons rfl (.cons rfl (.cons rfl (.cons rfl (.nil _))))),
    ?_⟩
  · exact .data rfl ⟨rfl, rfl, rfl⟩ (.data rfl ⟨rfl, rfl, rfl⟩
      (.pass (.data rfl ⟨rfl, rfl, rfl⟩ .nil)))
  · apply along_packet (by decide)
    apply along_packet (by decide)
    apply along_packet (by decide)
    apply along_removal (by decide)
    exact along_packet (by decide) trivial
  · decide

end Wirewolf.L3.Splitting
