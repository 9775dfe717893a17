import Mathlib.Data.List.Perm.Subperm
import Wirewolf.L3Table.Table

/-!
# Bytes of a connection that leaves the table

Four loops erase entries. `check_complete_flows` and `flush_all_flows` append
the out-of-order segments to the payload before they push the flow;
`evict_stale_state` pushes the payload alone, and only a non-empty one;
`force_evict_oldest` pushes nothing.

* `pushed`: what each loop pushes for an entry it erases.
* `removal_conserves_iff`: an erased connection that held bytes leaves them
  all in its one flow exactly when the loop merges the buffer or the buffer
  is empty.
* `eviction_loses_bytes`: a connection that timed out behind a lost segment.
-/
namespace Wirewolf.L3.Removal

open Wirewolf.L1.IpPacket Wirewolf.L2.Connection Wirewolf.L2.Connection.StreamState
open Wirewolf.L3.Table

def HoldsByte (st : ConnectionState) : Prop :=
  st.payload ≠ [] ∨ ∃ x ∈ st.outOfOrderSegments.entries, x.2 ≠ []

/-- Exactly one flow with the connection's id was pushed, and it contains
every byte that the payload and the buffered segments held. -/
def Conserved (r r' : Reassembler) (id : ConnectionId) (st : ConnectionState) : Prop :=
  ∃ new flow, r'.outputQueue = r.outputQueue ++ new ∧ (new.filter fun f => f.id = id) = [flow] ∧
    (st.payload ++ (st.outOfOrderSegments.entries.map Prod.snd).flatten).Subperm
      flow.reassembledPayload

/-! ## What the loops push -/

def label (f : FlowData) : ConnectionId × Bytes := (f.id, f.reassembledPayload)

/-- `pay id st` lists the payloads of the flows that the effect `g` pushes. -/
def Pushes (g : Sinks → ConnectionId → ConnectionState → Sinks)
    (pay : ConnectionId → ConnectionState → List Bytes) : Prop :=
  ∀ s id st, ∃ new, (g s id st).outputQueue = s.outputQueue ++ new ∧
    new.map label = (pay id st).map fun b => (id, b)

theorem completeFlow_pushes (e : Env) : Pushes (completeFlow e) fun _ st => [mergedPayload st] :=
  fun _ _ _ => ⟨_, rfl, rfl⟩

theorem flushFlow_pushes (e : Env) : Pushes (flushFlow e) fun _ st =>
    if st.payload.isEmpty && decide (st.packetCount < 2) then [] else [mergedPayload st] := by
  intro s id st
  unfold flushFlow
  split
  · rename_i h; exact ⟨[], by simp, by simp only [h]; rfl⟩
  · rename_i h; exact ⟨_, rfl, by simp only [h]; rfl⟩

theorem evictFlow_pushes (e : Env) : Pushes (evictFlow e) fun _ st =>
    if st.payload.isEmpty then [] else [st.payload] := by
  intro s id st
  unfold evictFlow
  split
  · rename_i h; exact ⟨[], by simp, by simp only [h]; rfl⟩
  · rename_i h; exact ⟨_, rfl, by simp only [h]; rfl⟩

/-- The labels of the flows that a loop pushes for the entries `l`. -/
def labels (pay : ConnectionId → ConnectionState → List Bytes)
    (l : List (ConnectionId × ConnectionState)) : List (ConnectionId × Bytes) :=
  l.flatMap fun x => (pay x.1 x.2).map fun b => (x.1, b)

theorem sweep_pushes {g : Sinks → ConnectionId → ConnectionState → Sinks}
    {pay : ConnectionId → ConnectionState → List Bytes} (h : Pushes g pay)
    (cond : ConnectionId → ConnectionState → Bool) (s : Sinks)
    (m : UMap ConnectionId ConnectionState) :
    ∃ new, (m.sweep cond g s).1.outputQueue = s.outputQueue ++ new ∧
      new.map label = labels pay (m.entries.filter fun x => cond x.1 x.2) := by
  rw [UMap.sweep_acc]
  generalize (m.entries.filter fun x => cond x.1 x.2) = l
  induction l generalizing s with
  | nil => exact ⟨[], by simp, rfl⟩
  | cons x l ih =>
    obtain ⟨new₁, h₁, h₂⟩ := h s x.1 x.2
    obtain ⟨new₂, h₃, h₄⟩ := ih (g s x.1 x.2)
    refine ⟨new₁ ++ new₂, by rw [List.foldl_cons, h₃, h₁, List.append_assoc], ?_⟩
    rw [List.map_append, h₂, h₄]; rfl

/-- An id that is not listed has no flow. -/
theorem labels_absent {pay : ConnectionId → ConnectionState → List Bytes}
    {l : List (ConnectionId × ConnectionState)} {id : ConnectionId} (h : ∀ x ∈ l, x.1 ≠ id) :
    (labels pay l).filter (fun x => x.1 = id) = [] := by
  refine List.filter_eq_nil_iff.2 fun y hy => ?_
  obtain ⟨x, hx, hy⟩ := List.mem_flatMap.1 hy
  obtain ⟨b, -, rfl⟩ := List.mem_map.1 hy
  simpa using h x hx

/-- With unique ids, an entry's flows are its own. -/
theorem labels_own {pay : ConnectionId → ConnectionState → List Bytes}
    {l : List (ConnectionId × ConnectionState)} (hl : (l.map Prod.fst).Nodup) {id : ConnectionId}
    {st : ConnectionState} (h : (id, st) ∈ l) :
    (labels pay l).filter (fun x => x.1 = id) = (pay id st).map fun b => (id, b) := by
  induction l with
  | nil => cases h
  | cons x l ih =>
    rw [List.map_cons, List.nodup_cons] at hl
    have hsplit : labels pay (x :: l) = ((pay x.1 x.2).map fun b => (x.1, b)) ++ labels pay l := rfl
    rw [hsplit, List.filter_append]
    rcases List.mem_cons.1 h with rfl | h
    · rw [labels_absent fun y hy he => hl.1 (List.mem_map.2 ⟨y, hy, he⟩), List.append_nil]
      exact List.filter_eq_self.2 fun y hy => by
        obtain ⟨b, -, rfl⟩ := List.mem_map.1 hy; simp
    · have hne : x.1 ≠ id := fun he => hl.1 (he ▸ List.mem_map_of_mem h)
      rw [ih hl.2 h, List.filter_eq_nil_iff.2, List.nil_append]
      intro y hy
      obtain ⟨b, -, rfl⟩ := List.mem_map.1 hy
      simpa using hne

/-- Conservation, from the labels of the pushed flows. -/
theorem conserved_iff {r r' : Reassembler} {id : ConnectionId} {st : ConnectionState}
    (new : List FlowData) (pay : List Bytes) (hq : r'.outputQueue = r.outputQueue ++ new)
    (hp : (new.map label).filter (fun x => x.1 = id) = pay.map fun b => (id, b)) :
    Conserved r r' id st ↔ ∃ b, pay = [b] ∧
      (st.payload ++ (st.outOfOrderSegments.entries.map Prod.snd).flatten).Subperm b := by
  have hmap : (new.filter fun f => f.id = id).map label = pay.map fun b => (id, b) := by
    rw [← hp, List.filter_map]; rfl
  constructor
  · intro hx
    obtain ⟨new', flow, hq', hf, hsub⟩ := hx
    rw [hq, List.append_cancel_left_eq] at hq'
    rw [← hq'] at hf
    rw [hf, List.map_singleton] at hmap
    obtain ⟨b, rfl, hb⟩ := List.map_eq_singleton_iff.1 hmap.symm
    refine ⟨b, rfl, ?_⟩
    rwa [(Prod.mk.inj hb).2]
  · intro hx
    obtain ⟨b, rfl, hsub⟩ := hx
    obtain ⟨flow, hf, hb⟩ := List.map_eq_singleton_iff.1 hmap
    refine ⟨new, flow, hq, hf, ?_⟩
    rwa [show flow.reassembledPayload = b from (Prod.mk.inj hb).2]

/-! ## The four paths -/

section Paths

variable {e : Env} {r : Reassembler} {id : ConnectionId} {st : ConnectionState}

/-- What a loop pushes for an entry it erases. -/
theorem sweep_labels {g : Sinks → ConnectionId → ConnectionState → Sinks}
    {pay : ConnectionId → ConnectionState → List Bytes} (h : Pushes g pay)
    (cond : ConnectionId → ConnectionState → Bool) (s : Sinks)
    {m : UMap ConnectionId ConnectionState} (hmem : (id, st) ∈ m.entries) (hc : cond id st = true) :
    ∃ new, (m.sweep cond g s).1.outputQueue = s.outputQueue ++ new ∧
      (new.map label).filter (fun x => x.1 = id) = (pay id st).map fun b => (id, b) := by
  obtain ⟨new, hq, hl⟩ := sweep_pushes h cond s m
  refine ⟨new, hq, ?_⟩
  rw [hl]
  exact labels_own (m.nodup_filter _) (List.mem_filter.2 ⟨hmem, hc⟩)

theorem sweep_labels_kept {g : Sinks → ConnectionId → ConnectionState → Sinks}
    {pay : ConnectionId → ConnectionState → List Bytes} (h : Pushes g pay)
    (cond : ConnectionId → ConnectionState → Bool) (s : Sinks)
    {m : UMap ConnectionId ConnectionState} (hk : ∀ st, (id, st) ∈ m.entries → cond id st = false) :
    ∃ new, (m.sweep cond g s).1.outputQueue = s.outputQueue ++ new ∧
      (new.map label).filter (fun x => x.1 = id) = [] := by
  obtain ⟨new, hq, hl⟩ := sweep_pushes h cond s m
  refine ⟨new, hq, ?_⟩
  rw [hl]
  refine labels_absent fun x hx he => ?_
  obtain ⟨hx, hc⟩ := List.mem_filter.1 hx
  subst he
  rw [hk x.2 hx] at hc; cases hc

theorem subperm_merged (st : ConnectionState) :
    (st.payload ++ (st.outOfOrderSegments.entries.map Prod.snd).flatten).Subperm
    (mergedPayload st) :=
  List.Subperm.refl _

theorem complete_labels (e : Env) (hmem : (id, st) ∈ r.connections.entries) :
    ∃ new, (checkCompleteFlows e r).outputQueue = r.outputQueue ++ new ∧
      (new.map label).filter (fun x => x.1 = id) =
        (if isComplete e id st then [mergedPayload st] else []).map fun b => (id, b) := by
  cases hc : isComplete e id st with
  | true => exact sweep_labels (completeFlow_pushes e) (isComplete e) r.toSinks hmem hc
  | false =>
    refine sweep_labels_kept (completeFlow_pushes e) (isComplete e) r.toSinks fun st' hst' => ?_
    cases UMap.eq_of_mem hmem hst'; exact hc

/-- What the end of the capture drops without a flow. -/
def dropped (e : Env) (id : ConnectionId) (st : ConnectionState) : Bool :=
  !isComplete e id st && (st.payload.isEmpty && decide (st.packetCount < 2))

theorem flush_labels (e : Env) (hmem : (id, st) ∈ r.connections.entries) :
    ∃ new, (flushAllFlows e r).outputQueue = r.outputQueue ++ new ∧
      (new.map label).filter (fun x => x.1 = id) =
        (if dropped e id st then [] else [mergedPayload st]).map fun b => (id, b) := by
  obtain ⟨new₁, hq₁, hl₁⟩ := complete_labels e hmem
  have hrest : ∃ new, (flushAllFlows e r).outputQueue =
      (checkCompleteFlows e r).outputQueue ++ new ∧
        (new.map label).filter (fun x => x.1 = id) =
          (if isComplete e id st || st.payload.isEmpty && decide (st.packetCount < 2) then []
            else [mergedPayload st]).map fun b => (id, b) := by
    cases hc : isComplete e id st with
    | true =>
      refine sweep_labels_kept (flushFlow_pushes e) (fun _ _ => true)
        (checkCompleteFlows e r).toSinks
        fun st' hst' => ?_
      obtain ⟨hm, hc'⟩ := mem_checkCompleteFlows.1 hst'
      cases UMap.eq_of_mem hmem hm
      rw [hc] at hc'; cases hc'
    | false =>
      exact sweep_labels (flushFlow_pushes e) (fun _ _ => true) (checkCompleteFlows e r).toSinks
        (mem_checkCompleteFlows.2 ⟨hmem, hc⟩) rfl
  obtain ⟨new₂, hq₂, hl₂⟩ := hrest
  refine ⟨new₁ ++ new₂, by rw [hq₂, hq₁, List.append_assoc], ?_⟩
  rw [List.map_append, List.filter_append, hl₁, hl₂, dropped]
  cases isComplete e id st <;> simp

theorem complete_conserves (hmem : (id, st) ∈ r.connections.entries)
    (hgone : (id, st) ∉ (checkCompleteFlows e r).connections.entries) :
    Conserved r (checkCompleteFlows e r) id st := by
  have hc : isComplete e id st = true := by
    rw [← Bool.not_eq_false]
    exact fun h => hgone (mem_checkCompleteFlows.2 ⟨hmem, h⟩)
  obtain ⟨new, hq, hl⟩ := complete_labels e hmem
  rw [if_pos hc] at hl
  exact (conserved_iff _ _ hq hl).2 ⟨_, rfl, subperm_merged st⟩

theorem flush_conserves (hmem : (id, st) ∈ r.connections.entries)
    (hguard : st.payload = [] → st.packetCount < 2 → False) :
    Conserved r (flushAllFlows e r) id st := by
  have hkept : ¬ dropped e id st = true := by
    intro h
    simp only [dropped, Bool.and_eq_true, List.isEmpty_iff, decide_eq_true_eq] at h
    exact hguard h.2.1 h.2.2
  obtain ⟨new, hq, hl⟩ := flush_labels e hmem
  rw [if_neg hkept] at hl
  exact (conserved_iff _ _ hq hl).2 ⟨_, rfl, subperm_merged st⟩

/-- A held byte outside the payload is in a buffered segment. -/
theorem merged_longer {st : ConnectionState} (hb : Bounded st.toStreamState)
    (h : st.outOfOrderSegments.entries ≠ []) :
    st.payload.length < (mergedPayload st).length := by
  obtain ⟨x, l, hx⟩ := List.exists_cons_of_ne_nil h
  have := List.length_pos_iff.2 (hb.length x (by rw [hx]; exact List.mem_cons_self ..)).1
  simp [mergedPayload, hx]; omega

theorem evict_conserves_iff {now : Rat} (hb : Bounded st.toStreamState)
    (hmem : (id, st) ∈ r.connections.entries)
    (hgone : (id, st) ∉ (evictStaleState e now r).connections.entries) (hbyte : HoldsByte st) :
    Conserved r (evictStaleState e now r) id st ↔ st.outOfOrderSegments.entries = [] := by
  have hn : ¬ now - r.lastEvictionTime < evictionInterval := by
    intro h
    rw [evictStaleState, if_pos h] at hgone
    exact hgone hmem
  have hc : isIdle now id st = true := by
    rw [← Bool.not_eq_false]
    exact fun h => hgone ((mem_evictStaleState hn).2 ⟨hmem, h⟩)
  obtain ⟨new, hq, hl⟩ := sweep_labels (evictFlow_pushes e) _ r.toSinks hmem hc
  have hq' : (evictStaleState e now r).outputQueue = r.outputQueue ++ new := by
    rw [evictStaleState, if_neg hn]; exact hq
  rw [conserved_iff _ _ hq' hl]
  constructor
  · intro hx
    obtain ⟨b, hpay, hsub⟩ := hx
    by_contra hne
    have hlong := merged_longer hb hne
    have hle := hsub.length_le
    split at hpay
    · cases hpay
    · cases hpay
      exact absurd hle (Nat.not_le.2 hlong)
  · intro hempty
    have hp : st.payload ≠ [] := by
      rcases hbyte with h | ⟨x, hx, -⟩
      · exact h
      · rw [hempty] at hx; cases hx
    exact ⟨st.payload, by simp [hp], by simp [hempty, List.Subperm.refl]⟩

theorem forceEvict_loses {now : Rat} (hmem : (id, st) ∈ r.connections.entries)
    (hgone : (id, st) ∉ (forceEvictOldest now r).connections.entries) :
    st.payload = [] ∧ ¬ Conserved r (forceEvictOldest now r) id st := by
  have hn : ¬ now - r.lastForceEvictTime < 1 := by
    intro h
    rw [forceEvictOldest, if_pos h] at hgone
    exact hgone hmem
  have hc : isSilent now id st = true := by
    rw [← Bool.not_eq_false]
    exact fun h => hgone ((mem_forceEvictOldest hn).2 ⟨hmem, h⟩)
  simp only [isSilent, Bool.and_eq_true, List.isEmpty_iff] at hc
  have hq : (forceEvictOldest now r).outputQueue = r.outputQueue ++ [] := by
    rw [forceEvictOldest, if_neg hn, List.append_nil]
  refine ⟨hc.1, fun hcons => ?_⟩
  obtain ⟨b, hb, -⟩ := (conserved_iff _ [] hq rfl).1 hcons
  cases hb

end Paths

/-- The first packet of a connection buffers nothing. -/
theorem first_buffers_nothing (p : TcpPacket) :
    (({} : StreamState).receive p).1.outOfOrderSegments.entries = [] := by
  rcases receive_cases {} p with ⟨-, e⟩ | ⟨-, -, e⟩ | ⟨data, -, ⟨-, e⟩ | ⟨-, e⟩⟩
  · rw [e]; rfl
  · rw [e]; rfl
  · rw [e]; rfl
  · have hseq : p.seq = (({} : StreamState).baseline p.seq).expectedSeq := rfl
    rw [e, StreamState.place, if_pos hseq]
    exact List.sublist_nil.1 (drainLoop_sublist _ _ _)

/-- A connection of a single packet has an empty buffer: the guard of
`flush_all_flows` drops no byte. -/
theorem entry_guard {id : ConnectionId} {st : ConnectionState} (h : Entry (id, st))
    (hc : st.packetCount < 2) : st.outOfOrderSegments.entries = [] := by
  obtain ⟨ps, hne, -, rfl⟩ := h
  rw [ConnectionState.run_packetCount] at hc
  match ps, hne, hc with
  | [p], _, _ => exact first_buffers_nothing p
  | p :: q :: ps, _, hc => simp only [List.length_cons] at hc; omega

/-- In every reachable state and on each path: a connection that held a byte
leaves all its bytes in its one flow exactly when the path merges the buffer,
or there is nothing in the buffer. -/
theorem removal_conserves_iff (e : Env) (r : Reassembler) (h : (system e).Reachable r)
    (m : Removal) (id : ConnectionId) (st : ConnectionState)
    (hmem : (id, st) ∈ r.connections.entries)
    (hgone : (id, st) ∉ (m.run e r).connections.entries) (hbyte : HoldsByte st) :
    Conserved r (m.run e r) id st ↔
      (m = .complete ∨ m = .flush) ∨ st.outOfOrderSegments.entries = [] := by
  have hentry := entry_reachable h _ hmem
  have hb : Bounded st.toStreamState := by
    obtain ⟨ps, -, -, rfl⟩ := hentry
    exact Bounded.run ps
  have hin : ∀ {st : ConnectionState}, HoldsByte st → st.payload = [] →
      st.outOfOrderSegments.entries ≠ [] := by
    rintro st (h | ⟨x, hx, -⟩) hp
    · exact absurd hp h
    · exact List.ne_nil_of_mem hx
  cases m with
  | complete => exact iff_of_true (complete_conserves hmem hgone) (.inl (.inl rfl))
  | flush =>
    refine iff_of_true (flush_conserves hmem fun hp hc => ?_) (.inl (.inr rfl))
    exact hin hbyte hp (entry_guard hentry hc)
  | evict now =>
    refine (evict_conserves_iff hb hmem hgone hbyte).trans ⟨.inr, ?_⟩
    intro hx
    rcases hx with (h | h) | h
    · cases h
    · cases h
    · exact h
  | forceEvict now =>
    obtain ⟨hp, hlost⟩ := forceEvict_loses hmem hgone
    refine iff_of_false hlost ?_
    intro hx
    rcases hx with (h | h) | h
    · cases h
    · cases h
    · exact hin hbyte hp h

/-- No behavioral models, flows of up to 1 MB. -/
def plainEnv : Env := ⟨⟨false, false, false, 4, id, fun _ => false, fun _ => false⟩, 1048576⟩

/-- One connection waits for its first segment; a second one starts 200 s
later. -/
def waitingTable : Reassembler :=
  (processTcp (processTcp (processTcp {} (.synSegment ⟨1, 2, 3, 4⟩ 100)).1
    (.twoBytes ⟨1, 2, 3, 4⟩ 103 0x43 0x44)).1
    { TcpPacket.synSegment ⟨1, 2, 9, 4⟩ 500 with time := 200 }).1

def waiting : ConnectionState :=
  .run {} [.synSegment ⟨1, 2, 3, 4⟩ 100, .twoBytes ⟨1, 2, 3, 4⟩ 103 0x43 0x44]

theorem waitingTable_reachable : (system plainEnv).Reachable waitingTable :=
  ⟨{}, [.packet _, .packet _, .packet _], rfl, .cons rfl (.cons rfl (.cons rfl (.nil _)))⟩

theorem mem_waitingTable : (⟨1, 2, 3, 4⟩, waiting) ∈ waitingTable.connections.entries :=
  .tail _ (.head _)

theorem removal_conserves_flush :
    Conserved waitingTable (Removal.flush.run plainEnv waitingTable) ⟨1, 2, 3, 4⟩ waiting ↔
      (Removal.flush = .complete ∨ Removal.flush = .flush) ∨
        waiting.outOfOrderSegments.entries = [] :=
  removal_conserves_iff plainEnv waitingTable waitingTable_reachable .flush _ _ mem_waitingTable
    (by rw [Removal.run, flushAllFlows_entries]; simp)
    (.inr ⟨(103, [0x43, 0x44]), .head _, by simp⟩)

/-- The SYN, a lost segment, a buffered one, 200 s of silence: the connection
is evicted with its two bytes, and no flow is pushed. -/
theorem eviction_loses_bytes :
    (system plainEnv).Reachable waitingTable ∧
      (⟨1, 2, 3, 4⟩, waiting) ∈ waitingTable.connections.entries ∧
      (⟨1, 2, 3, 4⟩, waiting) ∉
        ((Removal.evict 200).run plainEnv waitingTable).connections.entries ∧
      HoldsByte waiting ∧
      ¬ Conserved waitingTable ((Removal.evict 200).run plainEnv waitingTable)
        ⟨1, 2, 3, 4⟩ waiting := by
  refine ⟨waitingTable_reachable, mem_waitingTable, ?_,
    .inr ⟨(103, [0x43, 0x44]), .head _, by simp⟩, ?_⟩
  · decide +kernel
  · intro hx
    obtain ⟨new, flow, hq, hf, -⟩ := hx
    have hnone : ((Removal.evict 200).run plainEnv waitingTable).outputQueue = [] := by
      decide +kernel
    rw [hnone, show waitingTable.outputQueue = [] from rfl, List.nil_append] at hq
    rw [← hq] at hf; cases hf

end Wirewolf.L3.Removal
