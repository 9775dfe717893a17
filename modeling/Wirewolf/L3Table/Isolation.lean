import Wirewolf.L3Table.Removal

/-!
# Connections do not disturb one another

The table is one map, swept as a whole, and its removal passes are triggered
by packets of any connection. `Own` is the part of it that belongs to one
connection, with the clocks of the passes, and `Own.step` runs that part by
itself.

* `own_run`: a table with room for all connections of the run is, seen from
  one of them, that machine on its own packets and the passes.
* `undisturbed`: two runs that agree on these give the connection the same
  state and the same flows, whatever else they carry and however the table is
  iterated.

A flow's tag is left out: it belongs to all connections with its 3-tuple.
-/
namespace Wirewolf.L3.Isolation

open Wirewolf.L1.IpPacket Wirewolf.L2.Connection Wirewolf.L3.Table
open Wirewolf.L3.Removal (plainEnv)

/-- The flow but for the behavioral tag. -/
def untagged (f : FlowData) : FlowData := { f with behavioralSuspect := false }

/-! ## One connection by itself -/

structure Own where
  live : Option ConnectionState := none
  flows : List FlowData := []
  lastEvictionTime : Rat := 0
  lastForceEvictTime : Rat := 0

namespace Own

/-- What the table holds and has emitted for the connection. -/
def of (cid : ConnectionId) (r : Reassembler) : Own where
  live := r.connections.find? cid
  flows := (r.outputQueue.filter fun f => f.id = cid).map untagged
  lastEvictionTime := r.lastEvictionTime
  lastForceEvictTime := r.lastForceEvictTime

/-- One pass. -/
def erase (o : Own) (cond : ConnectionState → Bool)
    (flow : ConnectionState → Option FlowData) : Own :=
  match o.live.filter cond with
  | none => o
  | some st => { o with live := none, flows := o.flows ++ (flow st).toList }

def complete (e : Env) (cid : ConnectionId) (o : Own) : Own :=
  o.erase (isComplete e cid) fun st => some (makeFlow cid st (mergedPayload st))

def flushed (cid : ConnectionId) (st : ConnectionState) : Option FlowData :=
  if st.payload.isEmpty && decide (st.packetCount < 2) then none
  else some (makeFlow cid st (mergedPayload st))

def evicted (cid : ConnectionId) (st : ConnectionState) : Option FlowData :=
  if st.payload.isEmpty then none else some (makeFlow cid st st.payload)

def flush (e : Env) (cid : ConnectionId) (o : Own) : Own :=
  (o.complete e cid).erase (fun _ => true) (flushed cid)

def evict (cid : ConnectionId) (now : Rat) (o : Own) : Own :=
  if now - o.lastEvictionTime < evictionInterval then o
  else { o.erase (isIdle now cid) (evicted cid) with lastEvictionTime := now }

def forceEvict (cid : ConnectionId) (now : Rat) (o : Own) : Own :=
  if now - o.lastForceEvictTime < 1 then o
  else { o.erase (isSilent now cid) fun _ => none with lastForceEvictTime := now }

def remove (e : Env) (cid : ConnectionId) (o : Own) : Removal → Own
  | .complete => o.complete e cid
  | .flush => o.flush e cid
  | .evict now => o.evict cid now
  | .forceEvict now => o.forceEvict cid now

def receive (o : Own) (p : TcpPacket) : Own :=
  { o with live := some ((o.live.getD {}).receive p).1 }

def step (e : Env) (cid : ConnectionId) (o : Own) : Label → Own
  | .packet p => if p.cid = cid then o.receive p else o
  | .removal m => o.remove e cid m
  | .rehash => o

end Own

/-- The labels that the connection's own part depends on. -/
def concerns (cid : ConnectionId) : Label → Bool
  | .packet p => decide (p.cid = cid)
  | .removal _ => true
  | .rehash => false

theorem foldl_concerns (e : Env) (cid : ConnectionId) (ls : List Label) (o : Own) :
    (ls.filter (concerns cid)).foldl (Own.step e cid) o = ls.foldl (Own.step e cid) o := by
  induction ls generalizing o with
  | nil => rfl
  | cons l ls ih =>
    rw [List.foldl_cons]
    cases hl : concerns cid l with
    | true => rw [List.filter_cons_of_pos hl, List.foldl_cons, ih]
    | false =>
      rw [List.filter_cons_of_neg (by rw [hl]; exact Bool.false_ne_true), ih]
      cases l with
      | packet p => rw [Own.step, if_neg (of_decide_eq_false hl)]
      | removal m => cases hl
      | rehash => rfl

/-! ## The passes -/

section Passes

variable {e : Env} {cid : ConnectionId}

/-- The flows of the connection among those pushed. -/
def flowsOf (cid : ConnectionId) (s : Sinks) : List FlowData :=
  (s.outputQueue.filter fun f => f.id = cid).map untagged

theorem flowsOf_push_of_ne {s s' : Sinks} {f : FlowData} (h : s'.outputQueue = s.outputQueue ++ [f])
    (hf : f.id ≠ cid) : flowsOf cid s' = flowsOf cid s := by
  simp [flowsOf, h, hf]

theorem flowsOf_push {s s' : Sinks} {f f' : FlowData} (h : s'.outputQueue = s.outputQueue ++ [f])
    (hf : f.id = cid) (htag : untagged f = f') : flowsOf cid s' =
      flowsOf cid s ++ (some f').toList := by
  simp [flowsOf, h, hf, htag]

/-- A sweep that emits at most one flow for each entry it erases. -/
theorem sweep_own (cond : ConnectionId → ConnectionState → Bool)
    (g : Sinks → ConnectionId → ConnectionState → Sinks) (flow : ConnectionState → Option FlowData)
    (hother : ∀ s id st, id ≠ cid → flowsOf cid (g s id st) = flowsOf cid s)
    (hown : ∀ s st, flowsOf cid (g s cid st) = flowsOf cid s ++ (flow st).toList)
    (r : Reassembler) :
    Own.of cid { r with
      toSinks := (r.connections.sweep cond g r.toSinks).1
      connections := (r.connections.sweep cond g r.toSinks).2 } =
        (Own.of cid r).erase (cond cid) flow := by
  have hflows :=
    UMap.sweep_view cond (fun l st => l ++ (flow st).toList) hother hown r.toSinks r.connections
  have hlive := UMap.find?_sweep cond g r.toSinks r.connections cid
  simp only [Own.of, Own.erase]
  rw [hlive]
  unfold flowsOf at hflows
  rw [hflows]
  cases hfind : r.connections.find? cid with
  | none => rfl
  | some st => cases hc : cond cid st <;> simp [Option.filter, hc]

theorem complete_own (r : Reassembler) :
    Own.of cid (checkCompleteFlows e r) = (Own.of cid r).complete e cid := by
  refine sweep_own (isComplete e) (completeFlow e) _ (fun s id st h => ?_) (fun s st => ?_) r
  · exact flowsOf_push_of_ne rfl h
  · exact flowsOf_push rfl rfl rfl

theorem flush_own (r : Reassembler) :
    Own.of cid (flushAllFlows e r) = (Own.of cid r).flush e cid := by
  unfold flushAllFlows
  rw [Own.flush, ← complete_own]
  refine sweep_own (fun _ _ => true) (flushFlow e) (Own.flushed cid) (fun s id st h => ?_)
    (fun s st => ?_) _
  · unfold flushFlow
    split
    · rfl
    · exact flowsOf_push_of_ne rfl h
  · unfold flushFlow Own.flushed
    split
    · exact (List.append_nil _).symm
    · exact flowsOf_push rfl rfl rfl

theorem evict_own (now : Rat) (r : Reassembler) :
    Own.of cid (evictStaleState e now r) = (Own.of cid r).evict cid now := by
  unfold evictStaleState Own.evict
  by_cases hlate : now - r.lastEvictionTime < evictionInterval
  · rw [if_pos hlate, if_pos (show now - (Own.of cid r).lastEvictionTime < _ from hlate)]
  · rw [if_neg hlate, if_neg (show ¬ now - (Own.of cid r).lastEvictionTime < _ from hlate)]
    have hsweep : Own.of cid { r with
        toSinks := (r.connections.sweep (isIdle now) (evictFlow e) r.toSinks).1
        connections := (r.connections.sweep (isIdle now) (evictFlow e) r.toSinks).2 } =
          (Own.of cid r).erase (isIdle now cid) (Own.evicted cid) := by
      refine sweep_own (isIdle now) (evictFlow e) (Own.evicted cid) (fun s id st h => ?_)
        (fun s st => ?_) r
      · unfold evictFlow
        split
        · rfl
        · exact flowsOf_push_of_ne rfl h
      · unfold evictFlow Own.evicted
        split
        · exact (List.append_nil _).symm
        · exact flowsOf_push rfl rfl rfl
    rw [← hsweep]
    rfl

theorem forceEvict_own (now : Rat) (r : Reassembler) :
    Own.of cid (forceEvictOldest now r) = (Own.of cid r).forceEvict cid now := by
  unfold forceEvictOldest Own.forceEvict
  by_cases hlate : now - r.lastForceEvictTime < 1
  · rw [if_pos hlate, if_pos (show now - (Own.of cid r).lastForceEvictTime < _ from hlate)]
  · rw [if_neg hlate, if_neg (show ¬ now - (Own.of cid r).lastForceEvictTime < _ from hlate)]
    have hlive := UMap.find?_sweep (isSilent now) (fun s _ _ => s) () r.connections cid
    simp only [Own.of, Own.erase]
    rw [hlive]
    cases hfind : r.connections.find? cid with
    | none => rfl
    | some st => cases hc : isSilent now cid st <;> simp [Option.filter, hc]

theorem removal_own (m : Removal) (r : Reassembler) :
    Own.of cid (m.run e r) = (Own.of cid r).remove e cid m := by
  cases m with
  | complete => exact complete_own r
  | flush => exact flush_own r
  | evict now => exact evict_own now r
  | forceEvict now => exact forceEvict_own now r

/-- A packet that finds its entry, or room for one. -/
theorem packet_own {r : Reassembler} {p : TcpPacket}
    (hroom : r.connections.find? p.cid = none → r.connections.size < maxConnections) :
    Own.of cid (processTcp r p).1 = if p.cid = cid then (Own.of cid r).receive p
      else Own.of cid r := by
  have hput : ∃ st, r.connections.find? p.cid = st ∧ (processTcp r p).1 =
      { r with connections := r.connections.put p.cid ((st.getD {}).receive p).1 } := by
    unfold processTcp
    cases hfind : r.connections.find? p.cid with
    | some st => exact ⟨some st, rfl, rfl⟩
    | none =>
      have hfull : ¬ maxConnections ≤ r.connections.size := Nat.not_le.2 (hroom hfind)
      have hmake : makeRoom p.time r = r := by rw [makeRoom, if_neg hfull]
      refine ⟨none, rfl, ?_⟩
      dsimp only
      rw [hmake, if_neg hfull]
      rfl
  obtain ⟨st, hfind, heq⟩ := hput
  rw [heq]
  by_cases hcid : p.cid = cid
  · subst hcid
    rw [if_pos rfl]
    simp only [Own.of, Own.receive, hfind, UMap.find?_put_self]
  · rw [if_neg hcid]
    simp only [Own.of, UMap.find?_put_of_ne _ _ (Ne.symm hcid)]

end Passes

/-! ## Runs -/

/-- Every packet is of one of these connections. -/
def Among (ids : List ConnectionId) (ls : List Label) : Prop := ∀ p, .packet p ∈ ls → p.cid ∈ ids

/-- A table of some of these connections has room for another one. -/
theorem room_of_among {ids : List ConnectionId} (hids : ids.length ≤ maxConnections)
    {r : Reassembler}
    (hr : ∀ x ∈ r.connections.entries, x.1 ∈ ids) {cid : ConnectionId} (hcid : cid ∈ ids)
    (hnew : r.connections.find? cid = none) : r.connections.size < maxConnections := by
  have hnodup : (cid :: r.connections.entries.map Prod.fst).Nodup := by
    refine List.nodup_cons.2 ⟨fun hmem => ?_, r.connections.nodup⟩
    obtain ⟨x, hx, he⟩ := List.mem_map.1 hmem
    exact UMap.find?_eq_none.1 hnew x hx he
  have hsub : ∀ id ∈ cid :: r.connections.entries.map Prod.fst, id ∈ ids := by
    refine List.forall_mem_cons.2 ⟨hcid, fun id hid => ?_⟩
    obtain ⟨x, hx, rfl⟩ := List.mem_map.1 hid
    exact hr x hx
  have hle := hnodup.length_le_of_subset hsub
  rw [List.length_cons, List.length_map] at hle
  exact Nat.lt_of_lt_of_le (Nat.lt_succ_self _) (hle.trans hids)

theorem keys_step {e : Env} {ids : List ConnectionId} {r r' : Reassembler} {l : Label}
    (hl : ∀ p, l = .packet p → p.cid ∈ ids) (hst : (system e).step r l r')
    (hr : ∀ x ∈ r.connections.entries, x.1 ∈ ids) : ∀ x ∈ r'.connections.entries, x.1 ∈ ids := by
  intro x hx
  cases l with
  | packet p =>
    cases hst
    rcases processTcp_cases r p with ⟨st, -, he⟩ | ⟨-, -, he⟩ | ⟨-, -, he⟩
    · rw [he] at hx
      rcases UMap.mem_put.1 hx with rfl | ⟨hx, -⟩
      · exact hl p rfl
      · exact hr x hx
    · rw [he] at hx
      exact hr x (mem_of_makeRoom hx)
    · rw [he] at hx
      rcases UMap.mem_put.1 hx with rfl | ⟨hx, -⟩
      · exact hl p rfl
      · exact hr x (mem_of_makeRoom hx)
  | removal m => cases hst; exact hr x (mem_of_removal hx)
  | rehash =>
    obtain ⟨l, hperm, rfl⟩ := hst
    exact hr x (hperm.subset hx)

theorem own_step {e : Env} {cid : ConnectionId} {ids : List ConnectionId}
    (hids : ids.length ≤ maxConnections)
    {r r' : Reassembler} {l : Label} (hl : ∀ p, l = .packet p → p.cid ∈ ids)
    (hst : (system e).step r l r')
    (hr : ∀ x ∈ r.connections.entries, x.1 ∈ ids) : Own.of cid r' =
    (Own.of cid r).step e cid l := by
  cases l with
  | packet p =>
    cases hst
    exact packet_own fun hnew => room_of_among hids hr (hl p rfl) hnew
  | removal m => cases hst; exact removal_own m r
  | rehash =>
    obtain ⟨l, hperm, rfl⟩ := hst
    simp only [Own.of, Own.step, UMap.find?_reorder]

/-- The table, seen from one connection. -/
theorem own_run {e : Env} (cid : ConnectionId) {ids : List ConnectionId}
    (hids : ids.length ≤ maxConnections) {r r' : Reassembler} {ls : List Label} (hls : Among ids ls)
    (hrun : (system e).Run r ls r') (hr : ∀ x ∈ r.connections.entries, x.1 ∈ ids) :
    Own.of cid r' = ls.foldl (Own.step e cid) (Own.of cid r) := by
  induction hrun with
  | nil => rfl
  | @cons r r₁ r' l ls hst _ ih =>
    have hl : ∀ p, l = .packet p → p.cid ∈ ids := fun p hp => hls p (hp ▸ List.mem_cons_self)
    rw [ih (fun p hp => hls p (List.mem_cons_of_mem _ hp)) (keys_step hl hst hr), List.foldl_cons,
      own_step hids hl hst hr]

/-- Two runs with the same packets of a connection among the same passes: the
connection has the same state and the same flows in both. -/
theorem undisturbed {e : Env} (cid : ConnectionId) {ids ids' : List ConnectionId}
    (hids : ids.length ≤ maxConnections) (hids' : ids'.length ≤ maxConnections) {r r' : Reassembler}
    {ls ls' : List Label} (hls : Among ids ls) (hls' : Among ids' ls')
    (hrun : (system e).Run {} ls r)
    (hrun' : (system e).Run {} ls' r') (hsame : ls.filter (concerns cid) =
      ls'.filter (concerns cid)) :
    Own.of cid r = Own.of cid r' := by
  rw [own_run cid hids hls hrun nofun, own_run cid hids' hls' hrun' nofun, ← foldl_concerns, hsame,
    foldl_concerns]

theorem exists_step (e : Env) (r : Reassembler) (l : Label) : ∃ r', (system e).step r l r' := by
  cases l with
  | packet p => exact ⟨_, rfl⟩
  | removal m => exact ⟨_, rfl⟩
  | rehash => exact ⟨_, r.connections.entries, .refl _, rfl⟩

/-- One byte of a connection, and of another one before it. -/
theorem undisturbed_twoBytes :
    let own := TcpPacket.segment ⟨1, 2, 3, 4⟩ 100 [0x41] (by decide)
    let other := TcpPacket.segment ⟨9, 2, 3, 4⟩ 7 [0x42] (by decide)
    ∃ r r', (system plainEnv).Run {} [.packet own, .removal .flush] r ∧
      (system plainEnv).Run {} [.packet other, .packet own, .rehash, .removal .flush] r' ∧
      Own.of ⟨1, 2, 3, 4⟩ r = Own.of ⟨1, 2, 3, 4⟩ r' := by
  intro own other
  obtain ⟨r, hr⟩ := LTS.exists_run (exists_step plainEnv) [.packet own, .removal .flush] {}
  obtain ⟨r', hr'⟩ :=
    LTS.exists_run (exists_step plainEnv) [.packet other, .packet own, .rehash, .removal .flush] {}
  have hone : Among [own.cid] [.packet own, .removal .flush] := by
    intro p hp
    simp only [List.mem_cons, Label.packet.injEq, reduceCtorEq, List.not_mem_nil, or_false] at hp
    rw [hp]
    exact List.mem_cons_self
  have htwo : Among [own.cid, other.cid] [.packet other, .packet own, .rehash,
      .removal .flush] := by
    intro p hp
    simp only [List.mem_cons, Label.packet.injEq, reduceCtorEq, List.not_mem_nil, or_false] at hp
    rcases hp with rfl | rfl
    · exact List.mem_cons_of_mem _ List.mem_cons_self
    · exact List.mem_cons_self
  exact ⟨r, r', hr, hr', undisturbed _ (by decide) (by decide) hone htwo hr hr' rfl⟩

end Wirewolf.L3.Isolation
