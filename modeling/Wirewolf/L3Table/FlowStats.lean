import Mathlib.Algebra.BigOperators.Ring.Finset
import Wirewolf.Core.Sample
import Wirewolf.L3Table.FlowRecord

/-!
# The statistics of an emitted flow

A connection keeps the number of its packets, the sums of their payload
lengths and of the squares, and the sum of the inter-arrival times; three
loops divide these sums by the packet count when they emit the flow.

* `parse_square`: the 32-bit product of a payload length with itself does
  not wrap.
* `Recent`: an entry counts the last packets of its connection, at least one
  of them.
* `Describes`: the statistics of a flow are those of its packets, with the
  variance in the sense of `Sample`.
* `flow_statistics`: so it is for every flow of every run.
-/
namespace Wirewolf.L3.FlowStats

open Wirewolf.L1.IpPacket Wirewolf.L2.Connection Wirewolf.L3.Table
open Wirewolf.L3.FlowRecord (firstTime lastTime payloadBytes run_first)

/-! ## One packet -/

theorem square_lt {n : Nat} (h : n ≤ 65535) : n * n < 2 ^ 32 := by
  have hsq : n * n ≤ 65535 * 65535 := Nat.mul_le_mul h h
  omega

/-- The two minimal headers are taken off the total length. -/
theorem parse_square {packet : Bytes} {time : Rat} {p : TcpPacket}
    (h : parseIpPacket packet time = some (.tcp p)) :
    p.payloadLen + 40 ≤ 65535 ∧ p.payloadLen * p.payloadLen < 2 ^ 32 := by
  obtain ⟨saddr, daddr, sport, dport, seq, flags, ttl, totLen, headerSizes, ht, -, hsize,
    hle, rfl⟩ :=
    parse_eq_tcp h
  have hlen : (tcpPacket packet time saddr daddr sport dport seq flags ttl totLen headerSizes
      ht).payloadLen = totLen - headerSizes := rfl
  rw [hlen]
  exact ⟨by omega, square_lt (by omega)⟩

/-! ## The packets of a connection -/

/-- The packets with the connection's id. -/
def packetsOf (id : ConnectionId) (ls : List Label) : List TcpPacket :=
  ls.filterMap fun
    | .packet p => if p.cid = id then some p else none
    | _ => none

theorem packetsOf_own {id : ConnectionId} {ls : List Label} {p : TcpPacket}
    (h : p ∈ packetsOf id ls) : p.cid = id := by
  obtain ⟨l, -, hl⟩ := List.mem_filterMap.1 h
  split at hl
  · split at hl
    · next hcid => cases hl; exact hcid
    · cases hl
  · cases hl

theorem packetsOf_packet (ls : List Label) (p : TcpPacket) :
    packetsOf p.cid (ls ++ [.packet p]) = packetsOf p.cid ls ++ [p] := by
  simp [packetsOf]

theorem packetsOf_other {id : ConnectionId} (ls : List Label) {p : TcpPacket} (h : p.cid ≠ id) :
    packetsOf id (ls ++ [.packet p]) = packetsOf id ls := by
  simp [packetsOf, h]

/-- The entry is the run of the last packets of its connection, those since
it was created. -/
def Recent (ls : List Label) (x : ConnectionId × ConnectionState) : Prop :=
  ∃ ps, ps ≠ [] ∧ ps <:+ packetsOf x.1 ls ∧ x.2 = ConnectionState.run {} ps

section Recent

variable {ls : List Label} {x : ConnectionId × ConnectionState} {p : TcpPacket}

theorem recent_first (ls : List Label) (p : TcpPacket) :
    Recent (ls ++ [.packet p]) (p.cid, (({} : ConnectionState).receive p).1) :=
  ⟨[p], by simp, by rw [packetsOf_packet]; exact List.suffix_append _ _, rfl⟩

theorem Recent.receive {st : ConnectionState} (h : Recent ls (p.cid, st)) :
    Recent (ls ++ [.packet p]) (p.cid, (st.receive p).1) := by
  obtain ⟨ps, -, ⟨earlier, hsuf⟩, rfl⟩ := h
  refine ⟨ps ++ [p], by simp, ⟨earlier, ?_⟩, by rw [ConnectionState.run_append]; rfl⟩
  rw [packetsOf_packet, ← List.append_assoc, hsuf]

theorem Recent.other (h : Recent ls x) (hne : p.cid ≠ x.1) : Recent (ls ++ [.packet p]) x := by
  rwa [Recent, packetsOf_other ls hne]

theorem recent_processTcp {r : Reassembler} (h : ∀ x ∈ r.connections.entries, Recent ls x) :
    ∀ x ∈ (processTcp r p).1.connections.entries, Recent (ls ++ [.packet p]) x := by
  have hr : r.connections.find? p.cid = none →
      ∀ x ∈ (makeRoom p.time r).connections.entries, Recent (ls ++ [.packet p]) x := by
    intro hf x hx
    have hmem := mem_of_makeRoom hx
    exact (h x hmem).other fun he => UMap.find?_eq_none.1 hf x hmem he.symm
  intro x hx
  rcases processTcp_cases r p with ⟨st, hf, he⟩ | ⟨hf, -, he⟩ | ⟨hf, -, he⟩
  · rw [he] at hx
    rcases UMap.mem_put.1 hx with rfl | ⟨hx, hne⟩
    · exact (h _ (UMap.find?_eq_some.1 hf)).receive
    · exact (h x hx).other (Ne.symm hne)
  · rw [he] at hx
    exact hr hf x hx
  · rw [he] at hx
    rcases UMap.mem_put.1 hx with rfl | ⟨hx, -⟩
    · exact recent_first ls p
    · exact hr hf x hx

/-- Shed packets are those of connections without an entry. -/
theorem recent_step {e : Env} {r r' : Reassembler} {l : Label}
    (h : ∀ x ∈ r.connections.entries, Recent ls x) (hs : Step e r l r') :
    ∀ x ∈ r'.connections.entries, Recent (ls ++ [l]) x := by
  cases l with
  | packet p => cases hs; exact recent_processTcp h
  | removal m =>
    cases hs
    intro x hx
    have hsame : packetsOf x.1 (ls ++ [.removal m]) = packetsOf x.1 ls := by simp [packetsOf]
    rw [Recent, hsame]
    exact h x (mem_of_removal hx)
  | rehash =>
    obtain ⟨entries, hperm, rfl⟩ := hs
    intro x hx
    have hsame : packetsOf x.1 (ls ++ [.rehash]) = packetsOf x.1 ls := by simp [packetsOf]
    rw [Recent, hsame]
    exact h x (hperm.subset hx)

theorem recent_run {e : Env} {r : Reassembler} (hr : (system e).Run {} ls r) :
    ∀ x ∈ r.connections.entries, Recent ls x := by
  have hfresh : ∀ x ∈ ({} : Reassembler).connections.entries, Recent [] x := by
    intro x hx
    cases hx
  exact hr.history (I := fun ls r => ∀ x ∈ r.connections.entries, Recent ls x)
    (fun _ _ _ _ h hs => recent_step h hs) hfresh

end Recent

/-! ## Their sums -/

def lengths (ps : List TcpPacket) : List Nat := ps.map TcpPacket.payloadLen

def squares (ps : List TcpPacket) : List Nat := ps.map fun p => p.payloadLen * p.payloadLen

theorem run_squares (s : ConnectionState) (ps : List TcpPacket) :
    (s.run ps).lengthSqSum = s.lengthSqSum + (squares ps).sum := by
  induction ps generalizing s with
  | nil => rfl
  | cons p ps ih =>
    have hexact : (s.receive p).1.lengthSqSum = s.lengthSqSum + p.payloadLen * p.payloadLen := by
      show _ + _ % _ = _
      rw [Nat.mod_eq_of_lt (square_lt p.len_le)]
    rw [ConnectionState.run_cons, ih, hexact, squares, squares, List.map_cons, List.sum_cons,
      Nat.add_assoc]

/-- The entry's sums are those of `ps`, and below 2^32 packets they fit
`size_t`. -/
structure Sums (st : ConnectionState) (ps : List TcpPacket) : Prop where
  count : st.packetCount = ps.length
  lengthSum : st.lengthSum = (lengths ps).sum
  lengthSqSum : st.lengthSqSum = (squares ps).sum
  fit : ps.length < 2 ^ 32 → st.lengthSum < 2 ^ 64 ∧ st.lengthSqSum < 2 ^ 64

theorem sum_le_of_le {l : List Nat} {n : Nat} (h : ∀ x ∈ l, x ≤ n) : l.sum ≤ l.length * n :=
  List.sum_le_card_nsmul l n h

theorem run_sumsOf {ps : List TcpPacket} (hne : ps ≠ []) : Sums (ConnectionState.run {} ps) ps := by
  have hlength : (ConnectionState.run {} ps).lengthSum = (lengths ps).sum := (run_first hne).2.2
  have hsquares : (ConnectionState.run {} ps).lengthSqSum = (squares ps).sum := by
    rw [run_squares]
    exact Nat.zero_add _
  refine ⟨by rw [ConnectionState.run_packetCount]; exact Nat.zero_add _, hlength, hsquares,
    fun hfew => ?_⟩
  have hl : (lengths ps).sum ≤ (lengths ps).length * 65535 := by
    refine sum_le_of_le fun n hn => ?_
    obtain ⟨p, -, rfl⟩ := List.mem_map.1 hn
    exact p.len_le
  have hs : (squares ps).sum ≤ (squares ps).length * (2 ^ 32 - 1) := by
    refine sum_le_of_le fun n hn => ?_
    obtain ⟨p, -, rfl⟩ := List.mem_map.1 hn
    exact Nat.le_sub_one_of_lt (square_lt p.len_le)
  rw [lengths, List.length_map] at hl
  rw [squares, List.length_map] at hs
  rw [hlength, hsquares]
  exact ⟨by unfold lengths; omega, by unfold squares; omega⟩

/-! ## The flow -/

/-- What the flow's statistics say of its packets: their number, the time of
the last one, the time from the first to the last, and the variance of their
lengths. -/
structure Describes (f : FlowData) (ps : List TcpPacket) : Prop where
  own : ∀ p ∈ ps, p.cid = f.id
  some : ps ≠ []
  count : f.packetCount = ps.length
  last : f.timestamp = lastTime ps
  gaps : f.interArrivalTime * ((f.packetCount : Rat) - 1) = lastTime ps - firstTime ps
  variance : f.lengthVariance = Sample.variance ((lengths ps).map ((↑) : Nat → Rat))

theorem Describes.nonneg {f : FlowData} {ps : List TcpPacket} (h : Describes f ps) :
    0 ≤ f.lengthVariance := by
  rw [h.variance]
  exact Sample.variance_nonneg _

/-- The flow is emitted for the entry. -/
def FlowOf (x : ConnectionId × ConnectionState) (f : FlowData) : Prop :=
  ∃ payload suspect, f = { makeFlow x.1 x.2 payload with behavioralSuspect := suspect }

theorem makeFlow_gaps {ps : List TcpPacket} (hne : ps ≠ []) (id : ConnectionId) (payload : Bytes) :
    (makeFlow id (ConnectionState.run {} ps) payload).interArrivalTime *
      (((ConnectionState.run {} ps).packetCount : Rat) - 1) = lastTime ps - firstTime ps := by
  have hcount := (run_sumsOf hne).count
  show (if _ then _ else _) * _ = _
  rw [(run_first hne).2.1, hcount]
  obtain ⟨p, rest, rfl⟩ := List.exists_cons_of_ne_nil hne
  cases rest with
  | nil => simp [lastTime, firstTime]
  | cons q rest =>
    have hpos : 1 < (p :: q :: rest).length := by simp
    have hone : (((p :: q :: rest).length - 1 : Nat) : Rat) =
        ((p :: q :: rest).length : Rat) - 1 := by
      rw [Nat.cast_sub (Nat.le_of_lt hpos), Nat.cast_one]
    have hne' : (((p :: q :: rest).length - 1 : Nat) : Rat) ≠ 0 :=
      Nat.cast_ne_zero.2 (Nat.succ_ne_zero _)
    rw [if_pos hpos, ← hone]
    exact div_mul_cancel₀ _ hne'

theorem makeFlow_variance {ps : List TcpPacket} (hne : ps ≠ []) (id : ConnectionId)
    (payload : Bytes) :
    (makeFlow id (ConnectionState.run {} ps) payload).lengthVariance =
      Sample.variance ((lengths ps).map ((↑) : Nat → Rat)) := by
  obtain ⟨hcount, hlength, hsquares, -⟩ := run_sumsOf hne
  have hsum : (((lengths ps).sum : Nat) : Rat) = ((lengths ps).map ((↑) : Nat → Rat)).sum :=
    Nat.cast_list_sum _
  have hsq : (((squares ps).sum : Nat) : Rat) =
      (((lengths ps).map ((↑) : Nat → Rat)).map fun x => x * x).sum := by
    rw [Nat.cast_list_sum, squares, lengths, List.map_map, List.map_map, List.map_map]
    exact congrArg List.sum (List.map_congr_left fun p _ => Nat.cast_mul _ _)
  show _ / _ - _ / _ * (_ / _) = _
  rw [Sample.variance_eq, Sample.mean, Sample.mean, hcount, hlength, hsquares, hsum, hsq]
  simp only [List.length_map, lengths]

theorem FlowOf.describes {ls : List Label} {x : ConnectionId × ConnectionState} {f : FlowData}
    (hx : Recent ls x) (hf : FlowOf x f) : ∃ ps, ps <:+ packetsOf f.id ls ∧ Describes f ps := by
  obtain ⟨id, st⟩ := x
  obtain ⟨ps, hne, hsuf, rfl⟩ := hx
  obtain ⟨payload, suspect, rfl⟩ := hf
  exact ⟨ps, hsuf,
    { own := fun p hp => packetsOf_own (hsuf.subset hp)
      some := hne
      count := (run_sumsOf hne).count
      last := (run_first hne).1
      gaps := makeFlow_gaps hne id payload
      variance := makeFlow_variance hne id payload }⟩

/-! ## The three loops -/

/-- The effect of a loop pushes flows of its entry. -/
def PushesOwn (g : Sinks → ConnectionId → ConnectionState → Sinks) : Prop :=
  ∀ s id st, ∃ new, (g s id st).outputQueue = s.outputQueue ++ new ∧ ∀ f ∈ new, FlowOf (id, st) f

theorem completeFlow_own (e : Env) : PushesOwn (completeFlow e) := by
  intro s id st
  exact ⟨_, rfl, fun f hf => ⟨_, _, List.mem_singleton.1 hf⟩⟩

theorem flushFlow_own (e : Env) : PushesOwn (flushFlow e) := by
  intro s id st
  unfold flushFlow
  split
  · exact ⟨[], by simp, by simp⟩
  · exact ⟨_, rfl, fun f hf => ⟨_, _, List.mem_singleton.1 hf⟩⟩

theorem evictFlow_own (e : Env) : PushesOwn (evictFlow e) := by
  intro s id st
  unfold evictFlow
  split
  · exact ⟨[], by simp, by simp⟩
  · exact ⟨_, rfl, fun f hf => ⟨_, _, List.mem_singleton.1 hf⟩⟩

/-- What a step adds to the queue are flows of entries. -/
def Adds (r : Reassembler) (q : List FlowData) : Prop :=
  ∃ new, q = r.outputQueue ++ new ∧ ∀ f ∈ new, ∃ x ∈ r.connections.entries, FlowOf x f

theorem Adds.of_eq {r : Reassembler} {q : List FlowData} (h : q = r.outputQueue) : Adds r q :=
  ⟨[], by rw [h, List.append_nil], fun f hf => absurd hf List.not_mem_nil⟩

theorem sweep_adds {g : Sinks → ConnectionId → ConnectionState → Sinks} (hg : PushesOwn g)
    (cond : ConnectionId → ConnectionState → Bool) (r : Reassembler) :
    Adds r (r.connections.sweep cond g r.toSinks).1.outputQueue := by
  rw [UMap.sweep_acc]
  suffices h : ∀ l : List (ConnectionId × ConnectionState), (∀ x ∈ l, x ∈ r.connections.entries) →
    ∀ s : Sinks,
      Adds r s.outputQueue → Adds r (l.foldl (fun s x => g s x.1 x.2) s).outputQueue from
    h _ (fun x hx => (List.mem_filter.1 hx).1) r.toSinks (.of_eq rfl)
  intro l
  induction l with
  | nil => exact fun _ _ h => h
  | cons x l ih =>
    intro hl s hs
    obtain ⟨old, hq, hold⟩ := hs
    obtain ⟨new, hpush, hnew⟩ := hg s x.1 x.2
    refine ih (fun y hy => hl y (List.mem_cons_of_mem _ hy)) _ ⟨old ++ new, ?_, fun f hf => ?_⟩
    · rw [hpush, hq, List.append_assoc]
    · rcases List.mem_append.1 hf with hf | hf
      · exact hold f hf
      · exact ⟨x, hl x (List.mem_cons_self ..), hnew f hf⟩

theorem removal_adds (e : Env) (r : Reassembler) (m : Removal) :
    Adds r (m.run e r).outputQueue := by
  have hcomplete : Adds r (checkCompleteFlows e r).outputQueue :=
    sweep_adds (completeFlow_own e) (isComplete e) r
  cases m with
  | complete => exact hcomplete
  | flush =>
    obtain ⟨old, hq, hold⟩ := hcomplete
    obtain ⟨new, hq', hnew⟩ :=
      sweep_adds (flushFlow_own e) (fun _ _ => true) (checkCompleteFlows e r)
    refine ⟨old ++ new, ?_, fun f hf => ?_⟩
    · rw [← List.append_assoc, ← hq]; exact hq'
    · rcases List.mem_append.1 hf with hf | hf
      · exact hold f hf
      · obtain ⟨x, hx, hf⟩ := hnew f hf
        exact ⟨x, (mem_checkCompleteFlows.1 hx).1, hf⟩
  | evict now =>
    show Adds r (evictStaleState e now r).outputQueue
    unfold evictStaleState
    split
    · exact .of_eq rfl
    · exact sweep_adds (evictFlow_own e) (isIdle now) r
  | forceEvict now =>
    show Adds r (forceEvictOldest now r).outputQueue
    unfold forceEvictOldest
    split
    · exact .of_eq rfl
    · exact .of_eq rfl

theorem step_adds {e : Env} {r r' : Reassembler} {l : Label} (hs : Step e r l r') :
    Adds r r'.outputQueue := by
  cases l with
  | packet p =>
    cases hs
    exact .of_eq (processTcp_queue r p)
  | removal m => cases hs; exact removal_adds e r m
  | rehash =>
    obtain ⟨entries, hperm, rfl⟩ := hs
    exact .of_eq rfl

/-- Over every run: no product wraps, every entry counts at least one packet
with exact sums, and every flow that a further step emits has the statistics
of the last packets of its connection. -/
theorem flow_statistics (e : Env) (ls : List Label) (r : Reassembler)
    (hr : (system e).Run {} ls r) :
    (∀ b time p, parseIpPacket b time = some (.tcp p) → p.payloadLen * p.payloadLen < 2 ^ 32) ∧
      (∀ x ∈ r.connections.entries, 1 ≤ x.2.packetCount ∧
        ∃ ps, ps <:+ packetsOf x.1 ls ∧ Sums x.2 ps) ∧
      ∀ l r', (system e).step r l r' → ∃ new, r'.outputQueue = r.outputQueue ++ new ∧
        ∀ f ∈ new, 0 ≤ f.lengthVariance ∧ ∃ ps, ps <:+ packetsOf f.id ls ∧ Describes f ps := by
  have hrecent := recent_run hr
  refine ⟨fun b time p hp => (parse_square hp).2, fun x hx => ?_, fun l r' hs => ?_⟩
  · obtain ⟨ps, hne, hsuf, hx⟩ := hrecent x hx
    have hsums : Sums x.2 ps := hx ▸ run_sumsOf hne
    refine ⟨?_, ps, hsuf, hsums⟩
    rw [hsums.count]
    exact List.length_pos_iff.2 hne
  · obtain ⟨new, hq, hnew⟩ := step_adds hs
    refine ⟨new, hq, fun f hf => ?_⟩
    obtain ⟨x, hx, hflow⟩ := hnew f hf
    obtain ⟨ps, hsuf, hdesc⟩ := hflow.describes (hrecent x hx)
    exact ⟨hdesc.nonneg, ps, hsuf, hdesc⟩

/-! ## Inputs -/

/-- The table after two packets of a connection. -/
def pair : Reassembler :=
  (processTcp (processTcp {} (FlowRecord.bytesAt 5 100 0)).1 (FlowRecord.bytesAt 5 101 100)).1

def pairLabels : List Label :=
  [.packet (FlowRecord.bytesAt 5 100 0), .packet (FlowRecord.bytesAt 5 101 100)]

theorem flow_statistics_pair :
    ∃ f ∈ (flushAllFlows FlowRecord.forensicEnv pair).outputQueue, 0 ≤ f.lengthVariance ∧
      ∃ ps, ps <:+ packetsOf f.id pairLabels ∧ Describes f ps := by
  have hrun : (system FlowRecord.forensicEnv).Run {} pairLabels pair :=
    .cons rfl (.cons rfl (.nil _))
  have hstep : (system FlowRecord.forensicEnv).step pair (.removal .flush)
      (flushAllFlows FlowRecord.forensicEnv pair) := rfl
  obtain ⟨-, -, hflows⟩ := flow_statistics FlowRecord.forensicEnv pairLabels pair hrun
  obtain ⟨new, hq, hnew⟩ := hflows _ _ hstep
  have hempty : pair.outputQueue = [] := by decide
  have hone : (flushAllFlows FlowRecord.forensicEnv pair).outputQueue.length = 1 := by
    decide
  rw [hempty, List.nil_append] at hq
  rw [hq] at hone ⊢
  obtain ⟨f, rfl⟩ := List.length_eq_one_iff.1 hone
  exact ⟨f, List.mem_cons_self .., hnew f (List.mem_cons_self ..)⟩

end Wirewolf.L3.FlowStats
