import Wirewolf.L3Table.Tagging

/-!
# What makes a 4-tuple suspicious (`record_and_score_behavioral`)

Each time a flow is recorded, the models are asked about all flows that its
4-tuple has by then, and the answer is never taken back. So what counts is not
the flows that a 4-tuple has in the end, but whether there was a moment when
they cleared the threshold.

* `recorded_cases`: what recording one flow does to the records.
* `suspicious_iff`: in every run of the table, a 4-tuple is suspicious exactly
  if some of its first flows cleared.

The records are dropped as a whole when there are too many 4-tuples
(`maxBehConns`), and a mark stays; the runs here have no more than that.
-/
namespace Wirewolf.L3.Suspicion

open Wirewolf.L1.IpPacket Wirewolf.L2.Connection Wirewolf.L3.Table
open Wirewolf.L3.Behavior (Flow BehConn State behKey inScope maxBehConns recordAndScore recordPeers)

/-- At some moment the flows were enough, and cleared. -/
def Flagged (e : Behavior.Env) (flows : List Flow) : Prop :=
  ∃ pre, pre <+: flows ∧ pre ≠ [] ∧ e.minFlows ≤ pre.length ∧ e.suspects pre = true

/-- The flows recorded for a 4-tuple. -/
def recordedFlows (b : State) (key : UInt64) : List Flow := ((b.behConns.find? key).getD {}).flows

theorem not_flagged_nil (e : Behavior.Env) : ¬ Flagged e [] := fun ⟨_, hpre, hne, _⟩ =>
  hne (List.prefix_nil.1 hpre)

theorem flagged_concat {e : Behavior.Env} {flows : List Flow} {f : Flow} :
    Flagged e (flows ++ [f]) ↔
      Flagged e flows ∨ (e.minFlows ≤ (flows ++ [f]).length ∧
        e.suspects (flows ++ [f]) = true) := by
  constructor
  · rintro ⟨pre, hpre, hne, hmin, hclear⟩
    rcases List.prefix_concat_iff.1 hpre with rfl | hpre
    · exact .inr ⟨hmin, hclear⟩
    · exact .inl ⟨pre, hpre, hne, hmin, hclear⟩
  · rintro (⟨pre, hpre, hne, hmin, hclear⟩ | ⟨hmin, hclear⟩)
    · exact ⟨pre, hpre.trans (List.prefix_append ..), hne, hmin, hclear⟩
    · exact ⟨flows ++ [f], List.prefix_rfl, by simp, hmin, hclear⟩

/-! ## One flow -/

section Record

variable {e : Behavior.Env} {keys : List UInt64} {b : State}

/-- The records with one more flow. -/
def extended (b : State) (key : UInt64) (id : ConnectionId) (f : Flow) : State :=
  { b with behConns := b.behConns.put key ⟨id.srcIp, id.dstIp, id.dstPort,
    recordedFlows b key ++ [f]⟩ }

/-- Nothing is recorded, or the flow is; and then its 4-tuple is marked if it
is asked for the first time and clears. -/
theorem recorded_cases (hroom : b.behConns.size ≤ maxBehConns) (id : ConnectionId) (totBytes : Nat)
    (startTime duration : Rat) :
    let b' := recordAndScore e b id totBytes startTime duration
    let key := behKey e id
    let flows := recordedFlows b key ++ [⟨startTime, duration, totBytes⟩]
    let asked := e.behExport = false ∧ e.minFlows ≤ flows.length ∧ key ∉ b.behAlerted
    b' = b ∨
    (b' = extended b (behKey e id) id ⟨startTime, duration, totBytes⟩ ∧
      ¬ (asked ∧ e.suspects flows = true)) ∨
    (b' = { extended b (behKey e id) id ⟨startTime, duration, totBytes⟩ with
        behAlerted := key :: b.behAlerted, behSuspicious := key :: b.behSuspicious } ∧
      asked ∧ e.suspects flows = true) := by
  intro b' key flows asked
  by_cases hoff : (!e.behavioralReady && !e.behExport) = true
  · exact .inl (if_pos hoff)
  by_cases hscope : (!inScope e b id) = true
  · exact .inl (by simp only [b', recordAndScore, if_neg hoff, if_pos hscope])
  right
  have hfull : ¬ maxBehConns < b.behConns.size := Nat.not_lt.2 hroom
  have hrec : b' = if e.behExport then extended b (behKey e id) id ⟨startTime, duration, totBytes⟩
      else if flows.length < e.minFlows then extended b (behKey e id) id
        ⟨startTime, duration, totBytes⟩
      else if b.behAlerted.contains key then extended b (behKey e id) id
        ⟨startTime, duration, totBytes⟩
      else if !e.suspects flows then extended b (behKey e id) id ⟨startTime, duration, totBytes⟩
      else { extended b (behKey e id) id ⟨startTime, duration, totBytes⟩ with
        behAlerted := key :: b.behAlerted, behSuspicious := key :: b.behSuspicious } := by
    simp only [b', recordAndScore, if_neg hoff, if_neg hscope, if_neg hfull]
    rfl
  rw [hrec]
  by_cases hexport : e.behExport = true
  · exact .inl ⟨if_pos hexport, fun h => Bool.false_ne_true (h.1.1.symm.trans hexport)⟩
  rw [if_neg hexport]
  by_cases hfew : flows.length < e.minFlows
  · exact .inl ⟨if_pos hfew, fun h => absurd hfew (Nat.not_lt.2 h.1.2.1)⟩
  rw [if_neg hfew]
  by_cases hold : b.behAlerted.contains key = true
  · exact .inl ⟨if_pos hold, fun h => h.1.2.2 (List.contains_iff_mem.1 hold)⟩
  rw [if_neg hold]
  by_cases hclear : e.suspects flows = true
  · refine .inr ⟨if_neg (by simp [hclear]), ⟨?_, Nat.le_of_not_lt hfew, ?_⟩, hclear⟩
    · exact Bool.eq_false_iff.2 hexport
    · exact fun hmem => hold (List.contains_iff_mem.2 hmem)
  · exact .inl ⟨if_pos (by simp [hclear]), fun h => hclear h.2⟩

theorem recordedFlows_extended (own : UInt64) (id : ConnectionId) (f : Flow) (key : UInt64) :
    recordedFlows (extended b own id f) key =
      if key = own then recordedFlows b key ++ [f] else recordedFlows b key := by
  unfold recordedFlows extended
  by_cases hkey : key = own
  · rw [if_pos hkey, hkey, UMap.find?_put_self]
    rfl
  · rw [if_neg hkey, UMap.find?_put_of_ne _ _ hkey]

/-- The 4-tuples are among `keys`, and the marked ones are those that cleared. -/
structure Settled (e : Behavior.Env) (keys : List UInt64) (b : State) : Prop where
  among : ∀ x ∈ b.behConns.entries, x.1 ∈ keys
  alerted : b.behAlerted = b.behSuspicious
  marked : ∀ key, key ∈ b.behSuspicious ↔ Flagged e (recordedFlows b key)

theorem settled_init : Settled e keys {} :=
  ⟨nofun, rfl, fun _ => iff_of_false nofun (not_flagged_nil e)⟩

theorem settled_peers (h : Settled e keys b) (id : ConnectionId) (payload : Bytes) :
    Settled e keys (recordPeers b id payload) := by
  unfold recordPeers
  split
  · exact ⟨h.among, h.alerted, h.marked⟩
  · exact h

theorem Settled.room (h : Settled e keys b) (hkeys : keys.length ≤ maxBehConns) :
    b.behConns.size ≤ maxBehConns := by
  have hsub : ∀ key ∈ b.behConns.entries.map Prod.fst, key ∈ keys := List.forall_mem_map.2 h.among
  have hle := b.behConns.nodup.length_le_of_subset hsub
  rw [List.length_map] at hle
  exact hle.trans hkeys

theorem settled_record (h : Settled e keys b) (hkeys : keys.length ≤ maxBehConns)
    (hexport : e.behExport = false) {id : ConnectionId} (hid : behKey e id ∈ keys) (totBytes : Nat)
    (startTime duration : Rat) : Settled e keys
    (recordAndScore e b id totBytes startTime duration) := by
  have hamong : ∀ x ∈ (extended b (behKey e id) id ⟨startTime, duration,
      totBytes⟩).behConns.entries, x.1 ∈ keys := by
    intro x hx
    unfold extended at hx
    rcases UMap.mem_put.1 hx with rfl | ⟨hx, -⟩
    · exact hid
    · exact h.among x hx
  rcases recorded_cases (h.room hkeys) id totBytes startTime duration with heq | ⟨heq, hnot⟩ | ⟨heq,
    hasked, hclear⟩
  · rw [heq]
    exact h
  · rw [heq]
    refine ⟨hamong, h.alerted, fun key => ?_⟩
    rw [recordedFlows_extended]
    by_cases hkey : key = behKey e id
    · -- flows that clear and mark nothing were marked before
      subst hkey
      rw [if_pos rfl, flagged_concat, ← h.marked]
      refine ⟨.inl, fun hor => hor.elim (fun hmem => hmem) fun hclear => ?_⟩
      by_contra hmem
      exact hnot ⟨⟨hexport, hclear.1, h.alerted ▸ hmem⟩, hclear.2⟩
    · rw [if_neg hkey, ← h.marked]
      exact Iff.rfl
  · rw [heq]
    refine ⟨hamong, congrArg _ h.alerted, fun key => ?_⟩
    show key ∈ behKey e id :: b.behSuspicious ↔ Flagged e (recordedFlows (extended b _ id _) key)
    rw [recordedFlows_extended, List.mem_cons]
    by_cases hkey : key = behKey e id
    · subst hkey
      rw [if_pos rfl]
      exact iff_of_true (.inl rfl) (flagged_concat.2 (.inr ⟨hasked.2.1, hclear⟩))
    · rw [if_neg hkey, ← h.marked]
      exact or_iff_right hkey

end Record

/-! ## Runs -/

section Runs

variable {e : Env} {keys : List UInt64}

/-- The packets are of these 4-tuples. -/
def Among (e : Env) (keys : List UInt64) (ls : List Label) : Prop :=
  ∀ p, .packet p ∈ ls → behKey e.beh p.cid ∈ keys

structure Tracked (e : Env) (keys : List UInt64) (r : Reassembler) : Prop where
  among : ∀ x ∈ r.connections.entries, behKey e.beh x.1 ∈ keys
  settled : Settled e.beh keys r.beh

/-- The effects of the sweeps. -/
structure Keeps (e : Env) (I : State → Prop) (id : ConnectionId) : Prop where
  peers : ∀ b payload, I b → I (recordPeers b id payload)
  record : ∀ b totBytes startTime duration, I b →
    I (recordAndScore e.beh b id totBytes startTime duration)

theorem completeFlow_keeps {I : State → Prop} {s : Sinks} {id : ConnectionId} {st : ConnectionState}
    (h : Keeps e I id) (hs : I s.beh) : I (completeFlow e s id st).beh :=
  h.record _ _ _ _ (h.peers _ _ hs)

theorem flushFlow_keeps {I : State → Prop} {s : Sinks} {id : ConnectionId} {st : ConnectionState}
    (h : Keeps e I id) (hs : I s.beh) : I (flushFlow e s id st).beh := by
  unfold flushFlow
  split
  · exact hs
  · exact h.record _ _ _ _ (h.peers _ _ hs)

theorem evictFlow_beh (s : Sinks) (id : ConnectionId) (st : ConnectionState) :
    (evictFlow e s id st).beh = s.beh := by
  unfold evictFlow
  split <;> rfl

/-- What every record keeps, a pass keeps. -/
theorem removal_keeps {I : State → Prop} {r : Reassembler}
    (h : ∀ x ∈ r.connections.entries, Keeps e I x.1) (hr : I r.beh) (m : Removal) :
      I (m.run e r).beh := by
  have hcomplete : I (checkCompleteFlows e r).beh :=
    UMap.sweep_keeps (I := fun s : Sinks => I s.beh) (isComplete e)
      (fun _ x hx hs => completeFlow_keeps (h x hx) hs) hr
  cases m with
  | complete => exact hcomplete
  | flush =>
    refine UMap.sweep_keeps (I := fun s : Sinks => I s.beh) (fun _ _ => true)
      (fun _ x hx hs => flushFlow_keeps (h x ?_) hs) hcomplete
    exact mem_of_removal (m := .complete) hx
  | evict now =>
    rw [Removal.run, evictStaleState]
    split
    · exact hr
    · refine UMap.sweep_keeps (I := fun s : Sinks => I s.beh) (isIdle now) (fun _ x _ hs => ?_) hr
      rwa [evictFlow_beh]
  | forceEvict now =>
    rw [Removal.run, forceEvictOldest]
    split <;> exact hr

theorem processTcp_beh (r : Reassembler) (p : TcpPacket) : (processTcp r p).1.beh = r.beh := by
  have hroom : (makeRoom p.time r).beh = r.beh := by
    unfold makeRoom forceEvictOldest
    split
    · split <;> rfl
    · rfl
  rcases processTcp_cases r p with ⟨st, -, he⟩ | ⟨-, -, he⟩ | ⟨-, -, he⟩ <;> rw [he]
  · exact hroom
  · exact hroom

theorem tracked_step (hexport : e.beh.behExport = false) (hkeys : keys.length ≤ maxBehConns)
    {r r' : Reassembler} {l : Label} (hl : ∀ p, l = .packet p → behKey e.beh p.cid ∈ keys)
    (h : Tracked e keys r) (hst : (system e).step r l r') : Tracked e keys r' := by
  cases l with
  | packet p =>
    cases hst
    refine ⟨fun x hx => ?_, by rw [processTcp_beh]; exact h.settled⟩
    rcases processTcp_cases r p with ⟨st, -, he⟩ | ⟨-, -, he⟩ | ⟨-, -, he⟩ <;> rw [he] at hx
    · rcases UMap.mem_put.1 hx with rfl | ⟨hx, -⟩
      · exact hl p rfl
      · exact h.among x hx
    · exact h.among x (mem_of_makeRoom hx)
    · rcases UMap.mem_put.1 hx with rfl | ⟨hx, -⟩
      · exact hl p rfl
      · exact h.among x (mem_of_makeRoom hx)
  | removal m =>
    cases hst
    refine ⟨fun x hx => h.among x (mem_of_removal hx), removal_keeps (fun x hx => ?_) h.settled m⟩
    exact ⟨fun _ payload hb => settled_peers hb x.1 payload,
      fun _ n t d hb => settled_record hb hkeys hexport (h.among x hx) n t d⟩
  | rehash =>
    obtain ⟨l, hperm, rfl⟩ := hst
    exact ⟨fun x hx => h.among x (hperm.subset hx), h.settled⟩

theorem tracked_run (hexport : e.beh.behExport = false) (hkeys : keys.length ≤ maxBehConns)
    {r r' : Reassembler} {ls : List Label} (hls : Among e keys ls) (hrun : (system e).Run r ls r')
    (h : Tracked e keys r) : Tracked e keys r' := by
  induction hrun with
  | nil => exact h
  | cons hst _ ih =>
    exact ih (fun p hp => hls p (List.mem_cons_of_mem _ hp))
      (tracked_step hexport hkeys (fun p hp => hls p (hp ▸ List.mem_cons_self)) h hst)

theorem settled_run (hexport : e.beh.behExport = false) (hkeys : keys.length ≤ maxBehConns)
    {r : Reassembler} {ls : List Label} (hls : Among e keys ls) (hrun : (system e).Run {} ls r) :
    Settled e.beh keys r.beh :=
  (tracked_run hexport hkeys hls hrun ⟨nofun, settled_init⟩).settled

/-- A 4-tuple is suspicious exactly if at some moment its flows were enough and
cleared the threshold. -/
theorem suspicious_iff (hexport : e.beh.behExport = false) (hkeys : keys.length ≤ maxBehConns)
    {r : Reassembler} {ls : List Label} (hls : Among e keys ls) (hrun : (system e).Run {} ls r)
    (key : UInt64) : key ∈ r.beh.behSuspicious ↔ Flagged e.beh (recordedFlows r.beh key) :=
  (settled_run hexport hkeys hls hrun).marked key

end Runs

/-- Models that four flows clear, and five no longer. -/
def fourFlows : Env :=
  ⟨{ Tagging.scoringEnv.beh with suspects := fun flows => flows.length == 4 }, 1048576⟩

/-- Five connections to one service. -/
def fiveBeacons : List TcpPacket := [1, 2, 3, 4, 5].map (Tagging.beacon true)

theorem run_packets {e : Env} (ps : List TcpPacket) (ls : List Label) {r r' : Reassembler}
    (hrun : (system e).Run (ps.foldl (fun r p => (processTcp r p).1) r) ls r') :
    (system e).Run r (ps.map Label.packet ++ ls) r' := by
  induction ps generalizing r with
  | nil => exact hrun
  | cons p ps ih => exact .cons rfl (ih hrun)

theorem suspicious_fifth :
    let key := behKey fourFlows.beh ⟨1, 2, 1, 4⟩
    ∃ r, (system fourFlows).Run {} (fiveBeacons.map Label.packet ++ [.removal .complete]) r ∧
      (recordedFlows r.beh key).length = 5 ∧ key ∈ r.beh.behSuspicious := by
  intro key
  have hrun := run_packets fiveBeacons [.removal .complete] (r := {})
    (.cons (M := system fourFlows) rfl (.nil _))
  have hkey : ∀ p ∈ fiveBeacons, behKey fourFlows.beh p.cid = key := by decide
  have hls : Among fourFlows [key] (fiveBeacons.map Label.packet ++ [.removal .complete]) := by
    intro p hp
    have hmem : p ∈ fiveBeacons := by simpa using hp
    exact List.mem_singleton.2 (hkey p hmem)
  refine ⟨_, hrun, by decide, ?_⟩
  refine (suspicious_iff rfl (by decide) hls hrun key).2 ⟨_, List.take_prefix 4 _, ?_, ?_, ?_⟩
  · exact List.ne_nil_of_length_pos (by decide)
  · decide
  · decide

end Wirewolf.L3.Suspicion
