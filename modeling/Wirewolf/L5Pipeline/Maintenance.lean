import Mathlib.Tactic.Linarith
import Wirewolf.L1Encoding.IpWire
import Wirewolf.L5Pipeline.Responders

/-!
# The maintenance round (`run_pcap`, `run_windivert`)

Between batches of packets both capture loops erase the complete flows and
then call `evict_stale_state` with the last packet time of the connection
that the table iterates first. With an empty table they do not call it, and
an idle first connection holds the clock back.

* `bounded_after_rounds`: the trackers are within their limits after every
  round that is due, exactly when every such round reaches the caps or has
  nothing to cap. `flood_unbounded`: UDP from many sources never does.
* `idle_evicted`: a round evicts every idle connection exactly when the
  first connection shows it to be idle.
-/
namespace Wirewolf.L5.Maintenance

open Wirewolf.L1.IpPacket Wirewolf.L1.IpWire
open Wirewolf.L2.Connection
open Wirewolf.L3.Table hiding Env system Step processIpPacket
open Wirewolf.L5.Anomalies
open Wirewolf.L5.Responders (Rehash)

/-- The connections that `check_complete_flows` leaves, in iteration order. -/
def left (e : Env) (s : Sensor) : List (ConnectionId × ConnectionState) :=
  (checkCompleteFlows e.toEnv s.table).connections.entries

/-- mirrors src/src/tcp_reassembly.cpp:213-215, 257-259 -/
def maintain (e : Env) (s : Sensor) : Sensor :=
  let s := { s with table := checkCompleteFlows e.toEnv s.table }
  match s.table.connections.entries with
  | [] => s
  | first :: _ => evictStale e first.2.lastPacketTime s

/-! ## Idle connections -/

/-- No connection is older than the newest by more than the timeout. -/
def NoneIdle (l : List (ConnectionId × ConnectionState)) : Prop :=
  ∀ x ∈ l, ∀ y ∈ l, y.2.lastPacketTime - x.2.lastPacketTime ≤ connectionTimeout

/-- The connection iterated first is late enough for a pass, and for every
idle connection to count as idle. -/
def FirstShowsIdle (e : Env) (s : Sensor) : Prop :=
  ∀ first rest, left e s = first :: rest → ∀ x ∈ left e s,
    (∃ y ∈ left e s, connectionTimeout < y.2.lastPacketTime - x.2.lastPacketTime) →
    evictionInterval ≤ first.2.lastPacketTime - s.table.lastEvictionTime ∧
      connectionTimeout < first.2.lastPacketTime - x.2.lastPacketTime

theorem maintain_of_left_nil {e : Env} {s : Sensor} (h : left e s = []) :
    maintain e s = { s with table := checkCompleteFlows e.toEnv s.table } := by
  unfold left at h
  simp only [maintain, h]

theorem maintain_of_left_cons {e : Env} {s : Sensor} {first : ConnectionId × ConnectionState}
    {rest : List (ConnectionId × ConnectionState)} (h : left e s = first :: rest) :
    (maintain e s).table = evictStaleState e.toEnv first.2.lastPacketTime
        (checkCompleteFlows e.toEnv s.table) ∧
      (maintain e s).anomalies =
        if first.2.lastPacketTime - s.table.lastEvictionTime < evictionInterval then s.anomalies
        else capTrackers s.anomalies := by
  unfold left at h
  simp only [maintain, h]
  exact ⟨rfl, rfl⟩

/-- The pass of a round that finds a connection. -/
theorem mem_maintain {e : Env} {s : Sensor} {first : ConnectionId × ConnectionState}
    {rest : List (ConnectionId × ConnectionState)} (h : left e s = first :: rest)
    (x : ConnectionId × ConnectionState) :
    x ∈ (maintain e s).table.connections.entries ↔ x ∈ left e s ∧
      (first.2.lastPacketTime - s.table.lastEvictionTime < evictionInterval ∨
        first.2.lastPacketTime - x.2.lastPacketTime ≤ connectionTimeout) := by
  rw [(maintain_of_left_cons h).1]
  have hlast : (checkCompleteFlows e.toEnv s.table).lastEvictionTime = s.table.lastEvictionTime :=
    rfl
  by_cases hlate : first.2.lastPacketTime - s.table.lastEvictionTime < evictionInterval
  · rw [evictStaleState, if_pos (hlast ▸ hlate)]
    exact (and_iff_left (.inl hlate)).symm
  · rw [mem_evictStaleState (hlast ▸ hlate), isIdle, decide_eq_false_iff_not, not_lt]
    exact and_congr_right fun _ => (or_iff_right hlate).symm

/-- Over every table, in whatever order it iterates, and every packet time. -/
theorem idle_evicted (e : Env) (s : Sensor) (now : Rat) :
    (evictionInterval < now - s.table.lastEvictionTime →
      NoneIdle (maintain e s).table.connections.entries) ↔
    (evictionInterval < now - s.table.lastEvictionTime → FirstShowsIdle e s) := by
  refine imp_congr_right fun _ => ?_
  cases hleft : left e s with
  | nil =>
    have hempty : (maintain e s).table.connections.entries = [] := by
      rw [maintain_of_left_nil hleft]
      exact hleft
    refine iff_of_true ?_ fun first rest hcons => ?_
    · rw [hempty]
      exact fun x hx => absurd hx List.not_mem_nil
    · rw [hleft] at hcons
      cases hcons
  | cons first rest =>
    have hmem := mem_maintain hleft
    constructor
    · intro hnone first' rest' hcons x hx ⟨y, hy, hidle⟩
      rw [hleft] at hcons
      obtain ⟨rfl, rfl⟩ := List.cons.inj hcons
      -- if `x` stays, so does the newer `y`
      refine ⟨not_lt.1 fun hlate => ?_, not_le.1 fun hkeep => ?_⟩
      · have hle := hnone x ((hmem x).2 ⟨hx, .inl hlate⟩) y ((hmem y).2 ⟨hy, .inl hlate⟩)
        linarith
      · have htimeout : 0 < connectionTimeout := by decide
        have hle := hnone x ((hmem x).2 ⟨hx, .inr hkeep⟩) y
          ((hmem y).2 ⟨hy, .inr (by linarith)⟩)
        linarith
    · intro hfirst x hx y hy
      obtain ⟨hxl, hkeep⟩ := (hmem x).1 hx
      refine not_lt.1 fun hidle => ?_
      obtain ⟨hlate, hold⟩ := hfirst first rest hleft x hxl ⟨y, ((hmem y).1 hy).1, hidle⟩
      rcases hkeep with hkeep | hkeep
      · exact absurd hkeep (not_lt.2 hlate)
      · exact absurd hold (not_lt.2 hkeep)

/-- Two connections with data, the silent one first in the table. -/
def silentFirst : Sensor where
  table :=
    { connections :=
        { entries :=
            [(⟨0x0500000A, 0x010200C0, 0x5000, 0xBB01⟩,
              { payload := [0x57], lastPacketTime := 1010, packetCount := 1, lengthSum := 1 }),
             (⟨0x0600000A, 0x010200C0, 0x5000, 0xBB01⟩,
              { payload := [0x57], lastPacketTime := 1300, packetCount := 1, lengthSum := 1 })]
          nodup := by decide }
      lastEvictionTime := 1000 }

/-- 300 s after the last pass, with a connection that is silent for 290 s. -/
theorem idle_kept : evictionInterval < 1300 - silentFirst.table.lastEvictionTime ∧
    ¬ NoneIdle (maintain Responders.inlineEnv silentFirst).table.connections.entries := by
  refine ⟨by decide +kernel, fun hnone => ?_⟩
  have hkept : (maintain Responders.inlineEnv silentFirst).table.connections.entries =
      silentFirst.table.connections.entries := by decide +kernel
  rw [hkept] at hnone
  have hle := hnone _ (List.mem_cons_self ..) _ (List.mem_cons_of_mem _ (List.mem_cons_self ..))
  exact absurd hle (by decide +kernel)

/-! ## Bounded trackers -/

/-- mirrors src/include/tcp_reassembly.hpp:208-210 -/
structure Bounded (a : State) : Prop where
  sources : a.sourceTrackers.size ≤ maxSourceTrackers
  beacons : a.beaconTrackers.size ≤ maxBeaconTrackers
  keys : a.alertedAnomalies.card ≤ maxDedupHashes

/-- The round reaches the caps of `evict_stale_state`. -/
def ReachesCaps (e : Env) (s : Sensor) : Prop :=
  ∃ first ∈ (left e s).head?,
    evictionInterval ≤ first.2.lastPacketTime - s.table.lastEvictionTime

theorem bounded_capTrackers (a : State) : Bounded (capTrackers a) where
  sources := by
    unfold capTrackers
    dsimp only
    split
    · exact Nat.zero_le _
    · omega
  beacons := by
    unfold capTrackers pruneBeacons
    dsimp only
    split
    · split
      · exact Nat.zero_le _
      · omega
    · omega
  keys := by
    unfold capTrackers
    dsimp only
    split
    · exact Nat.zero_le _
    · omega

/-- A round caps the trackers or leaves them alone. -/
theorem maintain_anomalies (e : Env) (s : Sensor) :
    (ReachesCaps e s ∧ (maintain e s).anomalies = capTrackers s.anomalies) ∨
      (¬ ReachesCaps e s ∧ (maintain e s).anomalies = s.anomalies) := by
  cases hleft : left e s with
  | nil =>
    refine .inr ⟨fun ⟨first, hfirst, _⟩ => ?_, by rw [maintain_of_left_nil hleft]⟩
    rw [hleft] at hfirst
    cases hfirst
  | cons first rest =>
    have hcaps : ReachesCaps e s ↔
        evictionInterval ≤ first.2.lastPacketTime - s.table.lastEvictionTime := by
      unfold ReachesCaps
      rw [hleft]
      simp
    rw [hcaps, (maintain_of_left_cons hleft).2]
    by_cases hlate : first.2.lastPacketTime - s.table.lastEvictionTime < evictionInterval
    · exact .inr ⟨not_le.2 hlate, if_pos hlate⟩
    · exact .inl ⟨not_lt.1 hlate, if_neg hlate⟩

theorem bounded_maintain (e : Env) (s : Sensor) :
    Bounded (maintain e s).anomalies ↔ ReachesCaps e s ∨ Bounded s.anomalies := by
  rcases maintain_anomalies e s with ⟨hcaps, heq⟩ | ⟨hcaps, heq⟩
  · exact iff_of_true (heq ▸ bounded_capTrackers _) (.inl hcaps)
  · rw [heq, or_iff_right hcaps]

/-! ## Runs of the capture loop -/

/-- The sensor and the time of its last packet. -/
structure Capture where
  sensor : Sensor := {}
  clock : Rat := 0

inductive Event where
  | packet (packet : Bytes) (time : Rat)
  | maintain
  | rehash

def Step (e : Env) (c : Capture) : Event → Capture → Prop
  | .packet b time, c' => ∃ src, processIpPacket e c.sensor b time = some (c'.sensor, src) ∧
      c'.clock = time
  | .maintain, c' => c' = { c with sensor := Maintenance.maintain e c.sensor }
  | .rehash, c' => Rehash c.sensor c'.sensor ∧ c'.clock = c.clock

/-- The loop, with a maintenance round after any packet. -/
def system (e : Env) : LTS Capture Event := ⟨(· = {}), Step e⟩

/-- More than the interval has passed since the last pass. -/
def Due (c : Capture) : Prop := evictionInterval < c.clock - c.sensor.table.lastEvictionTime

/-- In every run, the trackers are within their limits after the rounds that
are due if and only if each of these reaches the caps or has nothing to cap. -/
theorem bounded_after_rounds (e : Env) (ls : List Event) :
    (∀ pre c, pre ++ [.maintain] <+: ls → (system e).Run {} pre c → Due c →
      Bounded (maintain e c.sensor).anomalies) ↔
    ∀ pre c, pre ++ [.maintain] <+: ls → (system e).Run {} pre c → Due c →
      ReachesCaps e c.sensor ∨ Bounded c.sensor.anomalies := by
  simp only [bounded_maintain]

/-! ## A flood without connections -/

/-- UDP to 8.8.8.8. -/
def udpPacket (src : UInt32) : Bytes :=
  [0x45, 0, 0, 20, 0, 0, 0, 0, 64, 17, 0, 0] ++ (Wire.le32 src ++ [8, 8, 8, 8])

theorem parse_udpPacket (src : UInt32) (time : Rat) :
    parseIpPacket (udpPacket src) time = some (.udp src 0x08080808) := by
  have hsrc : le32 (udpPacket src) 12 = some src.toNat := le32_of_drop rfl
  have hrest : (udpPacket src).drop 16 = Wire.le32 0x08080808 ++ [] := rfl
  have hdst : le32 (udpPacket src) 16 = some (0x08080808 : UInt32).toNat := le32_of_drop hrest
  have hproto : (udpPacket src)[9]? = some 17 := rfl
  have hlen : (udpPacket src).length = 20 := rfl
  unfold parseIpPacket
  rw [hlen, if_neg (show ¬ (20 : Nat) < 20 by decide), hproto, hsrc, hdst]
  simp

/-- The packets of the sources, all at one time. -/
def flood (srcs : List UInt32) : List Event := srcs.map fun src => .packet (udpPacket src) 100

theorem flood_step (e : Env) (c : Capture) (src : UInt32) :
    (system e).step c (.packet (udpPacket src) 100)
      ⟨processUdp c.sensor src 0x08080808, 100⟩ := by
  refine ⟨src, ?_, rfl⟩
  rw [processIpPacket, parse_udpPacket]
  rfl

/-- Every new source is one more tracker, and no connection. -/
theorem flood_run (e : Env) (srcs : List UInt32) (c : Capture)
    (hnew : (srcs.reverse ++ c.sensor.anomalies.sourceTrackers.entries.map Prod.fst).Nodup) :
    ∃ c', (system e).Run c (flood srcs) c' ∧ c'.sensor.table = c.sensor.table ∧
      (srcs ≠ [] → c'.clock = 100) ∧ c'.sensor.anomalies.sourceTrackers.entries.map Prod.fst =
        srcs.reverse ++ c.sensor.anomalies.sourceTrackers.entries.map Prod.fst := by
  induction srcs generalizing c with
  | nil => exact ⟨c, .nil c, rfl, fun h => absurd rfl h, rfl⟩
  | cons src srcs ih =>
    rw [List.reverse_cons, List.append_assoc, List.singleton_append] at hnew
    have hfresh : src ∉ c.sensor.anomalies.sourceTrackers.entries.map Prod.fst :=
      (List.nodup_cons.1 (List.nodup_append.1 hnew).2.1).1
    have hkeys : (processUdp c.sensor src 0x08080808).anomalies.sourceTrackers.entries.map
        Prod.fst = src :: c.sensor.anomalies.sourceTrackers.entries.map Prod.fst := by
      rw [processUdp, if_neg (by decide)]
      exact UMap.keys_put _ hfresh
    have htable : (processUdp c.sensor src 0x08080808).table = c.sensor.table := by
      rw [processUdp, if_neg (by decide)]
    obtain ⟨c', hrun, ht, hclock, hkeys'⟩ :=
      ih ⟨processUdp c.sensor src 0x08080808, 100⟩ (by rwa [hkeys])
    refine ⟨c', .cons (flood_step e c src) hrun, ht.trans htable, fun _ => ?_, ?_⟩
    · cases srcs with
      | nil => cases hrun; rfl
      | cons => exact hclock (List.cons_ne_nil _ _)
    · rw [hkeys', hkeys, List.reverse_cons, List.append_assoc, List.singleton_append]

/-- One source more than the limit. -/
def tooMany : List UInt32 := (List.range (maxSourceTrackers + 1)).map UInt32.ofNat

theorem nodup_tooMany : tooMany.Nodup := by
  refine List.Nodup.map_on (fun i hi j hj h => ?_) List.nodup_range
  have hmax : maxSourceTrackers = 100000 := rfl
  have hnat := congrArg UInt32.toNat h
  rw [List.mem_range] at hi hj
  rw [UInt32.toNat_ofNat', UInt32.toNat_ofNat', Nat.mod_eq_of_lt (by omega),
    Nat.mod_eq_of_lt (by omega)] at hnat
  exact hnat

/-- A flood of UDP is never trimmed: the round is due and finds no
connection. -/
theorem flood_unbounded : ∃ c, (system Responders.inlineEnv).Run {} (flood tooMany) c ∧ Due c ∧
    ¬ Bounded (maintain Responders.inlineEnv c.sensor).anomalies := by
  obtain ⟨c, hrun, htable, hclock, hkeys⟩ := flood_run Responders.inlineEnv tooMany {} (by
    show (tooMany.reverse ++ []).Nodup
    rw [List.append_nil]
    exact List.nodup_reverse.2 nodup_tooMany)
  have hleft : left Responders.inlineEnv c.sensor = [] := by rw [left, htable]; rfl
  have hsize : c.sensor.anomalies.sourceTrackers.size = maxSourceTrackers + 1 := by
    rw [UMap.size, ← List.length_map Prod.fst, hkeys]
    show (tooMany.reverse ++ []).length = _
    rw [List.append_nil, List.length_reverse, tooMany, List.length_map, List.length_range]
  refine ⟨c, hrun, ?_, fun hb => ?_⟩
  · rw [Due, htable, hclock (by rw [tooMany, List.range_succ]; simp)]
    decide +kernel
  · have hsources := hb.sources
    rw [maintain_of_left_nil hleft, hsize] at hsources
    omega

end Wirewolf.L5.Maintenance
