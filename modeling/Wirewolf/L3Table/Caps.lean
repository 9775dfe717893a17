import Wirewolf.L3Table.PayloadGate

/-!
# Limits of the connection table

The table stays within `MAX_CONNECTIONS` entries and each entry within 256
buffered segments, whatever packets come and whichever removal passes run
between them. A packet that finds no room changes what the forced eviction
changes and the counter of shed flows, and nothing else.

* `full_inductive`: no step takes the table over its limit.
* `processTcp_shed`: the state a shed packet leaves.
* `caps_hold`: both limits and the shed packet, in every reachable state.
* `caps_flood`: a table filled by 50000 SYNs, and the packet it sheds.
-/
namespace Wirewolf.L3.Caps

open Wirewolf.L1.IpPacket Wirewolf.L2.Connection Wirewolf.L3.Table
open Wirewolf.L3.PayloadGate (Shed)

section

variable {e : Env} {r : Reassembler} {p : TcpPacket}

/-! ## Sizes -/

theorem size_forceEvict_le (now : Rat) (r : Reassembler) :
    (forceEvictOldest now r).connections.size ≤ r.connections.size := by
  unfold forceEvictOldest
  split
  · exact Nat.le_refl _
  · exact UMap.size_sweep_le ..

theorem size_makeRoom_le (now : Rat) (r : Reassembler) :
    (makeRoom now r).connections.size ≤ r.connections.size := by
  unfold makeRoom
  split
  · exact size_forceEvict_le now r
  · exact Nat.le_refl _

theorem size_removal_le (e : Env) (r : Reassembler) (m : Removal) :
    (m.run e r).connections.size ≤ r.connections.size := by
  cases m with
  | complete => exact UMap.size_sweep_le ..
  | flush => rw [Removal.run, UMap.size, flushAllFlows_entries]; exact Nat.zero_le _
  | evict now =>
    rw [Removal.run, evictStaleState]
    split
    · exact Nat.le_refl _
    · exact UMap.size_sweep_le ..
  | forceEvict now => exact size_forceEvict_le now r

/-- Only a packet that found room starts an entry. -/
theorem size_processTcp_le (h : r.connections.size ≤ maxConnections) (p : TcpPacket) :
    (processTcp r p).1.connections.size ≤ maxConnections := by
  have hroom := Nat.le_trans (size_makeRoom_le p.time r) h
  rcases processTcp_cases r p with ⟨st, hf, he⟩ | ⟨-, -, he⟩ | ⟨-, hlt, he⟩
  · rw [he]
    exact Nat.le_trans (UMap.size_put_of_find? hf) h
  · rw [he]
    exact hroom
  · rw [he]
    exact Nat.le_trans (UMap.size_put_le ..) hlt

theorem full_inductive (e : Env) :
    (system e).Inductive fun r => r.connections.size ≤ maxConnections where
  init := by
    intro r hr
    cases hr
    exact Nat.zero_le _
  step := by
    intro r l r' h hs
    cases l with
    | packet p =>
      cases hs
      exact size_processTcp_le h p
    | removal m =>
      cases hs
      exact Nat.le_trans (size_removal_le e r m) h
    | rehash =>
      obtain ⟨l, hl, rfl⟩ := hs
      rw [UMap.size_reorder]
      exact h

/-- Every entry is a run of its own packets, and a run stays bounded. -/
theorem buffered_le (h : (system e).Reachable r) :
    ∀ x ∈ r.connections.entries, x.2.outOfOrderSegments.size ≤ 256 := by
  intro x hx
  obtain ⟨ps, -, -, hrun⟩ := entry_reachable h x hx
  rw [hrun]
  exact (StreamState.Bounded.run ps).count

/-! ## Shed packets -/

/-- The guard tried to make room only if the table was full. -/
theorem makeRoom_of_full {now : Rat} (h : maxConnections ≤ (makeRoom now r).connections.size) :
    makeRoom now r = forceEvictOldest now r :=
  if_pos (Nat.le_trans h (size_makeRoom_le now r))

theorem forceEvict_shedCount (now : Rat) (r : Reassembler) :
    (forceEvictOldest now r).shedCount = r.shedCount := by
  unfold forceEvictOldest
  split <;> rfl

theorem processTcp_shed (h : Shed r p) :
    (processTcp r p).1 = { forceEvictOldest p.time r with shedCount := r.shedCount + 1 } := by
  obtain ⟨hf, hfull⟩ := h
  rcases processTcp_cases r p with ⟨st, hst, -⟩ | ⟨-, -, he⟩ | ⟨-, hlt, -⟩
  · rw [hf] at hst
    cases hst
  · rw [he, makeRoom_of_full hfull, forceEvict_shedCount]
  · exact absurd hfull (Nat.not_le.2 hlt)

/-- In every reachable state both limits hold; a packet that is shed leaves
what the forced eviction left, without an entry of its own. -/
theorem caps_hold (e : Env) (r : Reassembler) (h : (system e).Reachable r) :
    r.connections.size ≤ maxConnections ∧
      (∀ x ∈ r.connections.entries, x.2.outOfOrderSegments.size ≤ 256) ∧
      ∀ p, Shed r p →
        (processTcp r p).1 = { forceEvictOldest p.time r with shedCount := r.shedCount + 1 } ∧
        (processTcp r p).1.connections.find? p.cid = none ∧
        ∀ x ∈ (processTcp r p).1.connections.entries, x ∈ r.connections.entries := by
  refine ⟨(full_inductive e).reachable r h, buffered_le h, fun p hp => ?_⟩
  have hsub : ∀ x ∈ (processTcp r p).1.connections.entries, x ∈ r.connections.entries := by
    rw [processTcp_shed hp]
    exact fun x hx => mem_of_forceEvict hx
  refine ⟨processTcp_shed hp, ?_, hsub⟩
  exact UMap.find?_eq_none.2 fun x hx => UMap.find?_eq_none.1 hp.1 x (hsub x hx)

end

/-! ## A flood -/

/-- The SYN of source port `i`. -/
def synOf (i : Nat) : TcpPacket := .synSegment ⟨1, 2, UInt16.ofNat i, 4⟩ 100

/-- The table after the first `n` SYNs. -/
def flooded : Nat → Reassembler
  | 0 => {}
  | n + 1 => (processTcp (flooded n) (synOf n)).1

/-- One entry a port, and no time has passed. -/
structure Flooded (n : Nat) (r : Reassembler) : Prop where
  size : r.connections.size = n
  ports : ∀ x ∈ r.connections.entries, ∃ i < n, x.1 = (synOf i).cid
  time : r.lastForceEvictTime = 0

theorem Flooded.fresh {n : Nat} {r : Reassembler} (h : Flooded n r) (hn : n < 65536) :
    r.connections.find? (synOf n).cid = none := by
  refine UMap.find?_eq_none.2 fun x hx hk => ?_
  obtain ⟨i, hi, he⟩ := h.ports x hx
  have hport : UInt16.ofNat i = UInt16.ofNat n := congrArg ConnectionId.srcPort (he.symm.trans hk)
  have hmod : i % 65536 = n % 65536 := by simpa using congrArg UInt16.toNat hport
  omega

/-- The forced eviction is throttled: the flood takes no time. -/
theorem Flooded.room {n : Nat} {r : Reassembler} (h : Flooded n r) :
    makeRoom (synOf n).time r = r := by
  have hthrottle : (synOf n).time - r.lastForceEvictTime < 1 := by
    rw [h.time]
    exact (by decide +kernel : (0 : Rat) - 0 < 1)
  unfold makeRoom forceEvictOldest
  rw [if_pos hthrottle, ite_self]

theorem Flooded.next {n : Nat} {r : Reassembler} (h : Flooded n r) (hn : n < maxConnections) :
    Flooded (n + 1) (processTcp r (synOf n)).1 := by
  have hfresh := h.fresh (Nat.lt_trans hn (by decide))
  rcases processTcp_cases r (synOf n) with ⟨st, hst, -⟩ | ⟨-, hfull, -⟩ | ⟨-, -, he⟩
  · rw [hfresh] at hst
    cases hst
  · rw [h.room, h.size] at hfull
    exact absurd hfull (Nat.not_le.2 hn)
  · rw [h.room] at he
    rw [he]
    refine ⟨by rw [UMap.size_put_new _ hfresh, h.size], fun x hx => ?_, h.time⟩
    rcases UMap.mem_put.1 hx with rfl | ⟨hx, -⟩
    · exact ⟨n, Nat.lt_succ_self n, rfl⟩
    · obtain ⟨i, hi, hk⟩ := h.ports x hx
      exact ⟨i, Nat.lt_succ_of_lt hi, hk⟩

theorem flooded_spec {n : Nat} (hn : n ≤ maxConnections) : Flooded n (flooded n) := by
  induction n with
  | zero => exact ⟨rfl, fun x hx => (List.not_mem_nil hx).elim, rfl⟩
  | succ n ih => exact (ih (Nat.le_of_succ_le hn)).next hn

theorem flooded_reachable (e : Env) (n : Nat) : (system e).Reachable (flooded n) := by
  induction n with
  | zero => exact ⟨{}, [], rfl, .nil _⟩
  | succ n ih =>
    obtain ⟨r₀, ls, hinit, hrun⟩ := ih
    have hstep : (system e).step (flooded n) (.packet (synOf n)) (flooded (n + 1)) := rfl
    exact ⟨r₀, ls ++ [.packet (synOf n)], hinit, hrun.snoc hstep⟩

theorem flooded_sheds : Shed (flooded maxConnections) (synOf maxConnections) := by
  have h := flooded_spec (Nat.le_refl maxConnections)
  have hfull : (makeRoom (synOf maxConnections).time (flooded maxConnections)).connections.size =
      maxConnections := by
    rw [h.room, h.size]
  exact ⟨h.fresh (by decide), Nat.le_of_eq hfull.symm⟩

/-- The table is full, and the next SYN finds no room. -/
theorem caps_flood :
    (flooded maxConnections).connections.size ≤ maxConnections ∧
      Shed (flooded maxConnections) (synOf maxConnections) ∧
      (processTcp (flooded maxConnections) (synOf maxConnections)).1.connections.find?
        (synOf maxConnections).cid = none := by
  have h := caps_hold ⟨⟨false, false, false, 4, id, fun _ => false, fun _ => false⟩, 1048576⟩
    (flooded maxConnections) (flooded_reachable _ _)
  exact ⟨h.1, flooded_sheds, (h.2.2 _ flooded_sheds).2.1⟩

end Wirewolf.L3.Caps
