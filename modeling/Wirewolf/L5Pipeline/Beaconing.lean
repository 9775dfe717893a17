import Wirewolf.L5Pipeline.Flush
import Wirewolf.L5Pipeline.Truncation
import Wirewolf.L5Pipeline.Volumetric

/-!
# A periodic beacon is reported

A tracker collects the SYNs of a source, a destination and a port; the flush
reports the trackers that pass its gates and whose dedup key is new.

* `Claim`: everything that has a dedup key; `CollisionFree`: on the packets
  of a run, neither the trackers' keys nor the dedup keys collide.
* `History`: each tracker is the train of its tuple, nothing else in the run
  touches it, and no dedup key but those of the detectors is taken.
* `isBeacon_of_regular`: no gate rejects a regular train.
* `beacon_reported`: the flush reports such a tuple once.
-/
namespace Wirewolf.L5.Beaconing

open Wirewolf.L1.IpPacket
open Wirewolf.L3.Behavior (ntohs)
open Wirewolf.L4.Worker (hashCombine)
open Wirewolf.L5.Alerts Wirewolf.L5.Flush
open Wirewolf.L5.Anomalies hiding Env
open Wirewolf.L5.Responders (Counts counts_nil counts_step since tracker_congr)
open Wirewolf.L5.Truncation (processTcpPacket_trackers ttlStage_beacons)
open Wirewolf.L5.Volumetric (Subject subjects Emits Aside synsOf synsOf_append)

/-! ## Trains -/

/-- The SYN-flagged packets of a source to a destination and port (`t`, with
no source port). -/
def synsTo (t : ConnectionId) (ps : List TcpPacket) : List TcpPacket :=
  ps.filter fun p => p.syn && decide (anomalyConn p = t)

/-- Constant spacing. -/
def Spaced (period : Rat) (ts : List Rat) : Prop := ts.IsChain fun a b => b - a = period

instance (period : Rat) (ts : List Rat) : Decidable (Spaced period ts) :=
  inferInstanceAs (Decidable (List.IsChain _ _))

theorem intervals_spaced {period : Rat} {ts : List Rat} (h : Spaced period ts) :
    ∀ iv ∈ intervals ts, iv = period := by
  induction ts with
  | nil => intro iv hiv; cases hiv
  | cons a ts ih =>
    cases ts with
    | nil => intro iv hiv; cases hiv
    | cons b ts =>
      obtain ⟨hab, hrest⟩ := List.isChain_cons_cons.1 h
      intro iv hiv
      rcases List.mem_cons.1 hiv with rfl | hiv
      · exact hab
      · exact ih hrest iv hiv

theorem length_intervals (ts : List Rat) : (intervals ts).length = ts.length - 1 := by
  rw [intervals, List.length_zipWith, List.length_tail]
  omega

/-- The coefficient of variation is read off mean and variance. -/
theorem cvOf_eq (e : Env) (ivs : List Rat) : cvOf e ivs =
    if 0 < Sample.mean ivs then e.sqrt (Sample.variance ivs) / Sample.mean ivs else 999 := by
  have hvar : (ivs.map fun iv => (iv - Sample.mean ivs) * (iv - Sample.mean ivs)).sum / ivs.length =
      Sample.variance ivs := by
    rw [Sample.variance, Sample.mean.eq_1 (ivs.map _), List.length_map]
  rw [← hvar]
  rfl

/-- A regular train to a port other than 80 and 443 passes every gate. -/
theorem isBeacon_of_regular {e : Env} (hsqrt : e.sqrt 0 = 0) {bt : BeaconTracker} {period : Rat}
    (hlen : 8 ≤ bt.synTimestamps.length) (hsp : Spaced period bt.synTimestamps)
    (hlow : 15 ≤ period) (hhigh : period ≤ 7200)
    (hport : ntohs bt.dstPort ≠ 80 ∧ ntohs bt.dstPort ≠ 443) : isBeacon e bt = true := by
  have hne : intervals bt.synTimestamps ≠ [] := by
    intro hnil
    have hlength := length_intervals bt.synTimestamps
    rw [hnil, List.length_nil] at hlength
    omega
  have hmean : meanOf (intervals bt.synTimestamps) = period :=
    Sample.mean_of_const hne (intervals_spaced hsp)
  have hcv : cvOf e (intervals bt.synTimestamps) = 0 := by
    rw [cvOf_eq, Sample.variance_of_const (intervals_spaced hsp), hsqrt, zero_div]
    have hpos : 0 < Sample.mean (intervals bt.synTimestamps) := by
      rw [Sample.mean_of_const hne (intervals_spaced hsp)]
      linarith
    rw [if_pos hpos]
  have hrange : ¬ (period < 15 ∨ 7200 < period) := by
    intro hout
    rcases hout with hout | hout <;> linarith
  have hthreshold : ¬ (if isWeb bt.dstPort then (0.35 : Rat) else 0.5) < 0 := by
    split <;> norm_num
  unfold isBeacon
  simp only [hmean, hcv, Nat.not_lt.2 hlen, hrange, hthreshold, hport.1, hport.2, decide_false,
    Bool.false_and, Bool.false_eq_true, if_false, or_self]

/-! ## Keys -/

/-- The tuple's key.
mirrors src/src/tcp_reassembly.cpp:811-814 -/
def tupleKey (e : Env) (t : ConnectionId) : UInt64 :=
  [e.hash32 t.srcIp, e.hash32 t.dstIp, e.hash64 t.dstPort.toUInt64].foldl hashCombine 0

/-- What has a dedup key. -/
inductive Claim where
  | anomaly (σ : Subject)
  | evasion (cid : ConnectionId)
  | beacon (t : ConnectionId)
  deriving DecidableEq

def Claim.key (e : Env) : Claim → UInt64
  | .anomaly σ => σ.key e.toSensor
  | .evasion cid =>
    [e.hash32 cid.srcIp, e.hash32 cid.dstIp, e.hash16 cid.srcPort, e.hash16 cid.dstPort,
      e.hash64 0xEEEE0001].foldl hashCombine 0
  | .beacon t => beaconKey e (tupleKey e t)

/-- The packet goes into a beacon tracker. -/
def isTracked (p : TcpPacket) : Bool := p.syn && !isLan p.cid.dstIp

/-- What an alert of the packet can claim. -/
def alarms (p : TcpPacket) : List Claim := .evasion p.cid :: (subjects p).map .anomaly

/-- The trackers of the run's packets. -/
def tuples (ps : List TcpPacket) : List ConnectionId := (ps.filter isTracked).map anomalyConn

def claims (ps : List TcpPacket) : List Claim := ps.flatMap alarms ++ (tuples ps).map .beacon

/-- On these packets no two trackers share a key, and no two claims. -/
structure CollisionFree (e : Env) (ps : List TcpPacket) : Prop where
  tuples : ∀ t ∈ tuples ps, ∀ u ∈ tuples ps, tupleKey e t = tupleKey e u → t = u
  claims : ∀ c ∈ claims ps, ∀ d ∈ claims ps, c.key e = d.key e → c = d

theorem tuples_mono {ps qs : List TcpPacket} (h : ps ⊆ qs) : tuples ps ⊆ tuples qs := by
  intro t ht
  obtain ⟨p, hp, rfl⟩ := List.mem_map.1 ht
  obtain ⟨hp, htracked⟩ := List.mem_filter.1 hp
  exact List.mem_map_of_mem (List.mem_filter.2 ⟨h hp, htracked⟩)

theorem claims_mono {ps qs : List TcpPacket} (h : ps ⊆ qs) : claims ps ⊆ claims qs := by
  intro c hc
  rcases List.mem_append.1 hc with hc | hc
  · obtain ⟨p, hp, hc⟩ := List.mem_flatMap.1 hc
    exact List.mem_append_left _ (List.mem_flatMap.2 ⟨p, h hp, hc⟩)
  · obtain ⟨t, ht, rfl⟩ := List.mem_map.1 hc
    exact List.mem_append_right _ (List.mem_map_of_mem (tuples_mono h ht))

theorem CollisionFree.mono {e : Env} {ps qs : List TcpPacket} (hfree : CollisionFree e qs)
    (h : ps ⊆ qs) : CollisionFree e ps where
  tuples t ht u hu := hfree.tuples t (tuples_mono h ht) u (tuples_mono h hu)
  claims c hc d hd := hfree.claims c (claims_mono h hc) d (claims_mono h hd)

/-! ## The trackers of a run -/

/-- The tuple's entry after the packets `ps`. -/
def entryOf (e : Env) (ps : List TcpPacket) (t : ConnectionId) : UInt64 × BeaconTracker :=
  (tupleKey e t, ⟨(synsTo t ps).map TcpPacket.time, t.srcIp, t.dstIp, t.dstPort⟩)

/-- The trackers are those of the packets' tuples. -/
def Recorded (e : Env) (ps : List TcpPacket) (m : UMap UInt64 BeaconTracker) : Prop :=
  ∀ x, x ∈ m.entries ↔ ∃ t ∈ tuples ps, x = entryOf e ps t

section Recorded

variable {e : Env} {ps : List TcpPacket} {m : UMap UInt64 BeaconTracker} {p : TcpPacket}

theorem dst_of_tuple {q : TcpPacket} (h : anomalyConn p = anomalyConn q) :
    p.cid.dstIp = q.cid.dstIp := by
  have hdst : (anomalyConn p).dstIp = (anomalyConn q).dstIp := by rw [h]
  exact hdst

theorem synsTo_append (t : ConnectionId) (ps : List TcpPacket) (p : TcpPacket) :
    synsTo t (ps ++ [p]) =
      if p.syn = true ∧ anomalyConn p = t then synsTo t ps ++ [p] else synsTo t ps := by
  unfold synsTo
  rw [List.filter_append]
  by_cases h : p.syn = true ∧ anomalyConn p = t
  · rw [if_pos h, List.filter_cons_of_pos (by simp [h])]
    rfl
  · rw [if_neg h, List.filter_cons_of_neg (by simpa using h), List.filter_nil, List.append_nil]

theorem tuples_append (ps : List TcpPacket) (p : TcpPacket) :
    tuples (ps ++ [p]) = if isTracked p then tuples ps ++ [anomalyConn p] else tuples ps := by
  unfold tuples
  rw [List.filter_append, List.map_append]
  cases h : isTracked p with
  | true => rw [List.filter_cons_of_pos h]; rfl
  | false => rw [List.filter_cons_of_neg (by simp [h]), List.filter_nil]; simp

theorem mem_tuples_new (ps : List TcpPacket) (hp : isTracked p = true) :
    anomalyConn p ∈ tuples (ps ++ [p]) := by
  rw [tuples_append, if_pos hp]
  exact List.mem_append_right _ (List.mem_singleton_self _)

/-- A tuple with a SYN in the packets and a tracked destination has a
tracker. -/
theorem mem_tuples_of_syns {q : TcpPacket} (hq : q ∈ synsTo (anomalyConn p) ps)
    (hp : isTracked p = true) : anomalyConn p ∈ tuples ps := by
  obtain ⟨hmem, htest⟩ := List.mem_filter.1 hq
  rw [Bool.and_eq_true, decide_eq_true_eq] at htest
  have hdst : q.cid.dstIp = p.cid.dstIp := dst_of_tuple htest.2
  have htracked : isTracked q = true := by
    rw [isTracked, Bool.and_eq_true] at hp ⊢
    exact ⟨htest.1, hdst ▸ hp.2⟩
  exact htest.2 ▸ List.mem_map_of_mem (List.mem_filter.2 ⟨hmem, htracked⟩)

theorem syns_of_mem_tuples {t : ConnectionId} (ht : t ∈ tuples ps) : synsTo t ps ≠ [] := by
  obtain ⟨q, hq, rfl⟩ := List.mem_map.1 ht
  obtain ⟨hq, htracked⟩ := List.mem_filter.1 hq
  refine List.ne_nil_of_mem (a := q) (List.mem_filter.2 ⟨hq, ?_⟩)
  rw [isTracked, Bool.and_eq_true] at htracked
  rw [htracked.1, decide_eq_true rfl]
  rfl

theorem entryOf_same (hp : p.syn = true) : entryOf e (ps ++ [p]) (anomalyConn p) =
    (tupleKey e (anomalyConn p), ⟨(synsTo (anomalyConn p) ps).map TcpPacket.time ++ [p.time],
      p.cid.srcIp, p.cid.dstIp, p.cid.dstPort⟩) := by
  rw [entryOf, synsTo_append, if_pos ⟨hp, rfl⟩, List.map_append]
  rfl

theorem entryOf_other {t : ConnectionId} (h : ¬ (p.syn = true ∧ anomalyConn p = t)) :
    entryOf e (ps ++ [p]) t = entryOf e ps t := by
  rw [entryOf, entryOf, synsTo_append, if_neg h]

/-- A SYN to a tracked destination extends the train of its tuple. -/
theorem addBeacon_eq (h : Recorded e ps m) (hfree : CollisionFree e (ps ++ [p]))
    (hp : isTracked p = true) :
    addBeacon e.toSensor m p.cid p.time =
      m.put (tupleKey e (anomalyConn p)) (entryOf e (ps ++ [p]) (anomalyConn p)).2 := by
  have hsyn : p.syn = true := (Bool.and_eq_true_iff.1 hp).1
  have hkey : [e.hash32 p.cid.srcIp, e.hash32 p.cid.dstIp, e.hash64 p.cid.dstPort.toUInt64].foldl
      hashCombine 0 = tupleKey e (anomalyConn p) := rfl
  rw [entryOf_same hsyn, addBeacon, hkey]
  cases hf : m.find? (tupleKey e (anomalyConn p)) with
  | none =>
    have hfirst : synsTo (anomalyConn p) ps = [] := by
      refine List.eq_nil_iff_forall_not_mem.2 fun q hq => ?_
      have hmem := (h _).2 ⟨_, mem_tuples_of_syns hq hp, rfl⟩
      exact UMap.find?_eq_none.1 hf _ hmem rfl
    rw [hfirst]
    rfl
  | some bt =>
    obtain ⟨t, ht, hentry⟩ := (h _).1 (UMap.find?_eq_some.1 hf)
    obtain rfl : anomalyConn p = t := hfree.tuples _ (mem_tuples_new ps hp) _
      (tuples_mono (List.subset_append_left ..) ht) (Prod.mk.inj hentry).1
    have hbt : bt = (entryOf e ps (anomalyConn p)).2 := (Prod.mk.inj hentry).2
    have hne : ((synsTo (anomalyConn p) ps).map TcpPacket.time).isEmpty = false := by
      rw [List.isEmpty_eq_false_iff, Ne, List.map_eq_nil_iff]
      exact syns_of_mem_tuples ht
    subst hbt
    simp only [Option.getD_some, entryOf, hne, Bool.false_eq_true, if_false]
    rfl

theorem Recorded.add (h : Recorded e ps m) (hfree : CollisionFree e (ps ++ [p]))
    (hp : isTracked p = true) : Recorded e (ps ++ [p]) (addBeacon e.toSensor m p.cid p.time) := by
  have hnew := mem_tuples_new ps hp
  have hold : ∀ t ∈ tuples ps, t ∈ tuples (ps ++ [p]) :=
    tuples_mono (List.subset_append_left ..)
  intro x
  rw [addBeacon_eq h hfree hp, UMap.mem_put, h]
  constructor
  · intro hx
    rcases hx with rfl | ⟨⟨t, ht, rfl⟩, hkey⟩
    · exact ⟨anomalyConn p, hnew, rfl⟩
    · refine ⟨t, hold t ht, (entryOf_other fun hsame => hkey ?_).symm⟩
      rw [entryOf, hsame.2]
  · intro hx
    obtain ⟨t, ht, rfl⟩ := hx
    by_cases hsame : anomalyConn p = t
    · subst hsame
      exact .inl rfl
    · rw [entryOf_other fun hs => hsame hs.2]
      rw [tuples_append, if_pos hp, List.mem_append, List.mem_singleton] at ht
      have htold : t ∈ tuples ps := ht.resolve_right (Ne.symm hsame)
      refine .inr ⟨⟨t, htold, rfl⟩, fun hkey => hsame ?_⟩
      exact (hfree.tuples t (hold t htold) _ hnew hkey).symm

/-- Other packets touch no train. -/
theorem Recorded.skip (h : Recorded e ps m) (hp : isTracked p = false) :
    Recorded e (ps ++ [p]) m := by
  intro x
  rw [h, tuples_append, hp, if_neg Bool.false_ne_true]
  have hsame : ∀ t ∈ tuples ps, entryOf e (ps ++ [p]) t = entryOf e ps t := by
    intro t ht
    refine entryOf_other fun hs => ?_
    obtain ⟨q, hq, rfl⟩ := List.mem_map.1 ht
    have hq := (Bool.and_eq_true_iff.1 (List.mem_filter.1 hq).2).2
    have hdst : p.cid.dstIp = q.cid.dstIp := dst_of_tuple hs.2
    rw [isTracked, hs.1, hdst, hq] at hp
    cases hp
  constructor
  · intro hx
    obtain ⟨t, ht, rfl⟩ := hx
    exact ⟨t, ht, (hsame t ht).symm⟩
  · intro hx
    obtain ⟨t, ht, rfl⟩ := hx
    exact ⟨t, ht, hsame t ht⟩

theorem check_beacons (s : State) (hb : Recorded e ps s.beaconTrackers)
    (hfree : CollisionFree e (ps ++ [p])) :
    Recorded e (ps ++ [p]) (checkConnectionAnomalies e.toSensor s p).beaconTrackers := by
  rw [(beaconTrackers_untouched e.toSensor).check, synStage]
  have httl := ttlStage_beacons e.toSensor s p
  cases hp : isTracked p with
  | true =>
    obtain ⟨hsyn, hlan⟩ := Bool.and_eq_true_iff.1 hp
    rw [hsyn, if_neg (by simp), if_neg (by simpa using hlan)]
    show Recorded e _ (addBeacon e.toSensor (ttlStage e.toSensor s p).beaconTrackers _ _)
    rw [httl]
    exact hb.add hfree hp
  | false =>
    have hskip := hb.skip hp
    unfold isTracked at hp
    cases hsyn : p.syn with
    | false =>
      rw [Bool.not_false, if_pos rfl, httl]
      exact hskip
    | true =>
      rw [hsyn, Bool.true_and, Bool.not_eq_false'] at hp
      rw [hp, Bool.not_true, if_neg Bool.false_ne_true, if_pos rfl]
      show Recorded e _ (ttlStage e.toSensor s p).beaconTrackers
      rw [httl]
      exact hskip

end Recorded

/-! ## The dedup keys of a run -/

section Claimed

variable {e : Env} {ps : List TcpPacket} {p : TcpPacket} {s s' : State}

/-- The dedup keys taken are those of alarms. -/
def Claimed (e : Env) (ps : List TcpPacket) (s : State) : Prop :=
  ∀ k ∈ s.alertedAnomalies, ∃ c ∈ ps.flatMap alarms, c.key e = k

theorem Claimed.mono {qs : List TcpPacket} (h : Claimed e ps s) (hsub : ps ⊆ qs) :
    Claimed e qs s := by
  intro k hk
  obtain ⟨c, hc, hkey⟩ := h k hk
  obtain ⟨q, hq, hc⟩ := List.mem_flatMap.1 hc
  exact ⟨c, List.mem_flatMap.2 ⟨q, hsub hq, hc⟩, hkey⟩

theorem Claimed.emit {conn : ConnectionId} {threatType snippet : Bytes} {key : UInt64}
    (h : Claimed e ps s) (hkey : ∃ c ∈ ps.flatMap alarms, c.key e = key) :
    Claimed e ps (emitAlert e.toSensor s conn threatType snippet key) := by
  have hins : ∀ k ∈ insert key s.alertedAnomalies, ∃ c ∈ ps.flatMap alarms, c.key e = k := by
    intro k hk
    rcases Finset.mem_insert.1 hk with rfl | hk
    · exact hkey
    · exact h k hk
  unfold emitAlert
  split
  · exact h
  · dsimp only
    split
    · exact hins
    · split
      · rw [blockSource_eq]
        exact hins
      · exact hins

theorem Claimed.emits {l : List Subject} (h : Claimed e ps s)
    (hemits : Emits e.toSensor p l s s') (hl : ∀ σ ∈ l, .anomaly σ ∈ ps.flatMap alarms) :
    Claimed e ps s' := by
  induction hemits with
  | nil => exact h
  | cons _ _ ih =>
    refine ih (h.emit ⟨_, hl _ (List.mem_cons_self ..), rfl⟩) fun σ hσ => ?_
    exact hl σ (List.mem_cons_of_mem _ hσ)

theorem alarm_of_packet {σ : Subject} (hp : p ∈ ps) (h : σ ∈ subjects p) :
    .anomaly σ ∈ ps.flatMap alarms :=
  List.mem_flatMap.2 ⟨p, hp, List.mem_cons_of_mem _ (List.mem_map_of_mem h)⟩

/-- A worm port is one that a packet of the source went to. -/
theorem alarm_of_scanned {t : SourceTracker} {σ : Subject} (hp : p ∈ ps)
    (hc : Counts t (synsOf p.cid.srcIp ps)) (h : σ ∈ Volumetric.scanned p t) :
    .anomaly σ ∈ ps.flatMap alarms := by
  obtain ⟨d, rfl⟩ := Volumetric.scanned_detection h
  obtain ⟨hsrc, hover⟩ := (Volumetric.mem_scanned hc d).1 h
  cases d with
  | portScan src => cases hsrc; exact alarm_of_packet hp (by simp [subjects])
  | sshBruteForce src => cases hsrc; exact alarm_of_packet hp (by simp [subjects])
  | worm src port =>
    have hsrc : src = p.cid.srcIp := hsrc
    subst hsrc
    have hcard : 0 < (Volumetric.hostsOn port (synsOf p.cid.srcIp ps)).card :=
      Nat.lt_of_lt_of_le (by decide) hover.2.2.2
    obtain ⟨ip, hip⟩ := Finset.card_pos.1 hcard
    rw [Volumetric.hostsOn, List.mem_toFinset, List.mem_map] at hip
    obtain ⟨q, hq, -⟩ := hip
    obtain ⟨hsyn, hport⟩ := List.mem_filter.1 hq
    obtain ⟨hmem, htest⟩ := List.mem_filter.1 hsyn
    rw [Bool.and_eq_true, decide_eq_true_eq] at htest
    have hport : port = q.cid.dstPort := (of_decide_eq_true hport).symm
    exact alarm_of_packet hmem (by simp [subjects, hport, htest.2])

theorem check_claimed (h : Claimed e ps s) (hc : ∀ src, Counts (s.tracker src) (synsOf src ps)) :
    Claimed e (ps ++ [p]) (checkConnectionAnomalies e.toSensor s p) := by
  have hp : p ∈ ps ++ [p] := List.mem_append_right _ (List.mem_singleton_self _)
  have haside : ∀ {l : List Subject}, Aside p l → ∀ σ ∈ l, .anomaly σ ∈
      (ps ++ [p]).flatMap alarms :=
    fun hl σ hσ => alarm_of_packet hp (hl σ hσ).1
  obtain ⟨l₁, s₁, t₁, hl₁, he₁, httl⟩ :=
    Volumetric.ttlStage_emits (e := e.toSensor) (s := s) (p := p)
  have h₁ : Claimed e (ps ++ [p]) s₁ :=
    (h.mono (List.subset_append_left ..)).emits he₁ (haside hl₁)
  have h₂ : Claimed e (ps ++ [p]) (synStage e.toSensor (ttlStage e.toSensor s p) p) := by
    intro k hk
    rw [Volumetric.synStage_alerted.1, httl] at hk
    exact h₁ k hk
  obtain ⟨l₂, hl₂, he₂⟩ := Volumetric.intelStage_emits (e := e.toSensor)
    (s := synStage e.toSensor (ttlStage e.toSensor s p) p) (p := p)
  have hcounts : Counts ((intelStage e.toSensor
      (synStage e.toSensor (ttlStage e.toSensor s p) p) p).tracker p.cid.srcIp)
      (synsOf p.cid.srcIp (ps ++ [p])) := by
    rw [synsOf_append, tracker_congr (sourceTrackers_untouched e.toSensor).intelStage]
    exact (hc p.cid.srcIp).ttlStage.synStage
  unfold checkConnectionAnomalies
  dsimp only
  have h₃ := h₂.emits he₂ (haside hl₂)
  generalize intelStage e.toSensor (synStage e.toSensor (ttlStage e.toSensor s p) p) p = s₃
    at hcounts h₃
  generalize s₃.tracker p.cid.srcIp = t at hcounts
  have h₄ := h₃.emits (Volumetric.scan_emits (t := t)) fun σ hσ => alarm_of_scanned hp hcounts hσ
  obtain ⟨l₃, hl₃, he₃⟩ := Volumetric.ddosStage_emits (e := e.toSensor) (t := t) (p := p)
    (s := wormStage e.toSensor t (sshStage e.toSensor t (portScanStage e.toSensor t s₃ p) p) p)
  exact h₄.emits he₃ (haside hl₃)

end Claimed

/-! ## Runs -/

/-- An event of the capture other than an eviction pass. -/
def Capture : Event → Prop
  | .sensor (.evict _) => False
  | .flush => False
  | _ => True

/-- What the anomaly state remembers of the packets `ps`. -/
structure History (e : Env) (ps : List TcpPacket) (s : State) : Prop where
  counts : ∀ src, Counts (s.tracker src) (synsOf src ps)
  claimed : Claimed e ps s
  recorded : Recorded e ps s.beaconTrackers

section Runs

variable {e : Env} {ps : List TcpPacket} {s s' : Sensor}

theorem history_nil : History e [] {} where
  counts _ := counts_nil
  claimed k hk := absurd hk (Finset.notMem_empty k)
  recorded x := by simp [tuples, UMap.empty]

theorem History.tcp (h : History e ps s.anomalies) {p : TcpPacket}
    (hfree : CollisionFree e (ps ++ [p])) :
    History e (ps ++ [p]) (processTcpPacket e.toSensor s p).anomalies := by
  obtain ⟨hsources, hbeacons⟩ := processTcpPacket_trackers e.toSensor s p
  refine ⟨fun src => ?_, ?_, ?_⟩
  · rw [tracker_congr hsources, synsOf_append]
    exact (h.counts src).check
  · have hcheck := check_claimed (p := p) h.claimed h.counts
    unfold processTcpPacket
    dsimp only
    split
    · refine hcheck.emit ⟨.evasion p.cid, List.mem_flatMap.2 ⟨p, ?_, List.mem_cons_self ..⟩, rfl⟩
      exact List.mem_append_right _ (List.mem_singleton_self _)
    · exact hcheck
  · rw [hbeacons]
    exact check_beacons s.anomalies h.recorded hfree

/-- Only the counts see the other events. -/
theorem History.of_counts (h : History e ps s.anomalies)
    (hc : ∀ src, Counts (s'.anomalies.tracker src) (synsOf src ps))
    (hk : s'.anomalies.alertedAnomalies = s.anomalies.alertedAnomalies)
    (hb : s'.anomalies.beaconTrackers = s.anomalies.beaconTrackers) :
    History e ps s'.anomalies where
  counts := hc
  claimed k hmem := h.claimed k (hk ▸ hmem)
  recorded := hb ▸ h.recorded

theorem tcpOf_append (ls : List Event) (l : Event) : tcpOf (ls ++ [l]) = tcpOf ls ++ tcpOf [l] :=
  List.filterMap_append

theorem history_step {l : Event} (hl : Capture l) (h : History e ps s.anomalies)
    (hfree : CollisionFree e (ps ++ tcpOf [l])) (hs : Step e s l s') :
    History e (ps ++ tcpOf [l]) s'.anomalies := by
  cases l with
  | flush => exact hl.elim
  | shuffle =>
    obtain ⟨sources, hsources, beacons, hbeacons, rfl⟩ := hs
    rw [show tcpOf [.shuffle] = [] from rfl, List.append_nil]
    refine ⟨fun src => ?_, h.claimed, fun x => ?_⟩
    · rw [State.tracker, UMap.find?_reorder]
      exact h.counts src
    · rw [← h.recorded]
      exact hbeacons.mem_iff
  | sensor l =>
    have hcounts : ∀ src, Counts (s'.anomalies.tracker src) (since src s (synsOf src ps) l) :=
      fun src => counts_step (h.counts src) hs
    cases l with
    | packet b time =>
      obtain ⟨src, hp⟩ := hs
      rcases Responders.processIpPacket_cases hp with ⟨p, hparse, rfl⟩ | ⟨hno, hs⟩
      · have htcp : tcpOf [.sensor (.packet b time)] = [p] := by simp [tcpOf, hparse]
        rw [htcp] at hfree ⊢
        exact h.tcp hfree
      · have htcp : tcpOf [.sensor (.packet b time)] = [] := by simp [tcpOf]
        have hsame : ∀ src, since src s (synsOf src ps) (.packet b time) = synsOf src ps :=
          fun src => by simp only [since]
        simp only [hsame] at hcounts
        rw [htcp, List.append_nil]
        rcases hs with rfl | ⟨src, dst, rfl⟩
        · exact h
        · refine h.of_counts hcounts ?_ ?_
          · unfold processUdp; split <;> rfl
          · unfold processUdp; split <;> rfl
    | complete => cases hs; simpa [tcpOf] using h
    | evict now => exact hl.elim
    | block ip =>
      cases hs
      rw [show tcpOf [.sensor (.block ip)] = [] from rfl, List.append_nil]
      exact h.of_counts hcounts (blockSource_alertedAnomalies ..) (blockSource_beaconTrackers ..)
    | unblock ip =>
      cases hs
      rw [show tcpOf [.sensor (.unblock ip)] = [] from rfl, List.append_nil]
      exact h.of_counts hcounts rfl rfl
    | rehash =>
      rw [show tcpOf [.sensor .rehash] = [] from rfl, List.append_nil]
      cases hs with
      | table l hl => exact h
      | ports ip l hl => exact h.of_counts hcounts rfl rfl

theorem history_run {ls : List Event} (hls : ∀ l ∈ ls, Capture l)
    (hfree : CollisionFree e (tcpOf ls)) (hr : (system e).Run {} ls s) :
    History e (tcpOf ls) s.anomalies := by
  have hind := hr.history
    (I := fun pre s => (∀ l ∈ pre, Capture l) → CollisionFree e (tcpOf pre) →
      History e (tcpOf pre) s.anomalies) ?_ fun _ _ => history_nil
  · exact hind hls hfree
  · intro pre s l s' ih hs hpre hfree
    rw [tcpOf_append] at hfree ⊢
    refine history_step (hpre l (by simp)) (ih (fun l hl => hpre l (by simp [hl])) ?_) hfree hs
    exact hfree.mono (List.subset_append_left ..)

end Runs

/-! ## The flush -/

section Flush

variable {e : Env}

/-- The connection that an alert on the tracker names. -/
def connOf (bt : BeaconTracker) : ConnectionId := ⟨bt.srcIp, bt.dstIp, 0, bt.dstPort⟩

theorem reported_subset (keys : Finset UInt64) (l : List (UInt64 × BeaconTracker)) :
    reported e keys l ⊆ l.map Prod.snd := by
  induction l generalizing keys with
  | nil => exact fun _ h => h
  | cons x l ih =>
    rw [reported, List.map_cons]
    split
    · exact List.cons_subset_cons _ (ih _)
    · exact List.subset_cons_of_subset _ (ih _)

/-- A tracker that passes the gates and shares neither dedup key nor
connection with another is reported once. -/
theorem reported_once {x : UInt64 × BeaconTracker} {l : List (UInt64 × BeaconTracker)}
    (hl : l.Nodup) (hx : x ∈ l) (hbeacon : isBeacon e x.2 = true)
    (hsep : ∀ y ∈ l, y ≠ x → beaconKey e y.1 ≠ beaconKey e x.1 ∧ connOf y.2 ≠ connOf x.2)
    {keys : Finset UInt64} (hkeys : beaconKey e x.1 ∉ keys) :
    (reported e keys l).countP (fun bt => decide (connOf bt = connOf x.2)) = 1 := by
  induction l generalizing keys with
  | nil => cases hx
  | cons y l ih =>
    obtain ⟨hy, hl⟩ := List.nodup_cons.1 hl
    by_cases he : y = x
    · subst he
      have hrest : (reported e (insert (beaconKey e y.1) keys) l).countP
          (fun bt => decide (connOf bt = connOf y.2)) = 0 := by
        rw [List.countP_eq_zero]
        intro bt hbt
        obtain ⟨z, hz, rfl⟩ := List.mem_map.1 (reported_subset _ _ hbt)
        have hne : z ≠ y := fun h => hy (h ▸ hz)
        simpa using (hsep z (List.mem_cons_of_mem _ hz) hne).2
      rw [reported, if_pos ⟨hbeacon, hkeys⟩, List.countP_cons_of_pos (by simp), hrest]
    · have hxl : x ∈ l := (List.mem_cons.1 hx).resolve_left (Ne.symm he)
      obtain ⟨hkey, hconn⟩ := hsep y (List.mem_cons_self ..) he
      have hih := @ih hl hxl fun z hz => hsep z (List.mem_cons_of_mem _ hz)
      rw [reported]
      split
      · rw [List.countP_cons_of_neg (by simpa using hconn)]
        refine hih ?_
        rw [Finset.mem_insert, not_or]
        exact ⟨hkey.symm, hkeys⟩
      · exact hih hkeys

/-- The alert reports a beacon of the tuple. -/
def Reports (t : ConnectionId) (a : ThreatAlert) : Prop :=
  a.threatType = lit "C2 Beaconing" ∧ a.connection = t

instance (t : ConnectionId) : DecidablePred (Reports t) :=
  fun _ => inferInstanceAs (Decidable (_ ∧ _))

theorem reports_beaconAlert (t : ConnectionId) (bt : BeaconTracker) :
    Reports t (beaconAlert e bt) ↔ connOf bt = t :=
  ⟨fun h => h.2, fun h => ⟨rfl, h⟩⟩

theorem not_reports_botnet (t : ConnectionId) (l : List (UInt32 × SourceTracker)) :
    (botnetAlerts l).countP (fun a => decide (Reports t a)) = 0 := by
  rw [List.countP_eq_zero]
  intro a ha
  obtain ⟨x, -, ha⟩ := List.mem_flatMap.1 ha
  obtain ⟨dst, -, rfl⟩ := List.mem_map.1 ha
  have htype : lit "Botnet Host" ≠ lit "C2 Beaconing" := by decide
  simpa using fun h : Reports t _ => htype h.1

section Tuple

variable {ps : List TcpPacket} {t u : ConnectionId}

theorem connOf_entryOf (ht : t ∈ tuples ps) : connOf (entryOf e ps t).2 = t := by
  obtain ⟨q, -, rfl⟩ := List.mem_map.1 ht
  rfl

theorem mem_claims (ht : t ∈ tuples ps) : .beacon t ∈ claims ps :=
  List.mem_append_right _ (List.mem_map_of_mem ht)

/-- No detector takes the dedup key of a tracker. -/
theorem key_new {s : State} (h : Claimed e ps s) (hfree : CollisionFree e ps)
    (ht : t ∈ tuples ps) : beaconKey e (tupleKey e t) ∉ s.alertedAnomalies := by
  intro hk
  obtain ⟨c, hc, hkey⟩ := h _ hk
  have hsame : c = .beacon t :=
    hfree.claims c (List.mem_append_left _ hc) _ (mem_claims ht) hkey
  obtain ⟨q, -, hc⟩ := List.mem_flatMap.1 hc
  subst hsame
  simp [alarms] at hc

theorem separate (hfree : CollisionFree e ps) (ht : t ∈ tuples ps) (hu : u ∈ tuples ps)
    (hne : u ≠ t) : beaconKey e (tupleKey e u) ≠ beaconKey e (tupleKey e t) ∧
      connOf (entryOf e ps u).2 ≠ connOf (entryOf e ps t).2 := by
  refine ⟨fun hkey => hne ?_, fun hconn => hne ?_⟩
  · exact Claim.beacon.inj (hfree.claims (.beacon u) (mem_claims hu) _ (mem_claims ht) hkey)
  · rwa [connOf_entryOf ht, connOf_entryOf hu] at hconn

/-- A tracked tuple that passes the gates is reported once. -/
theorem tuple_reported {s : State} (hfree : CollisionFree e ps) (h : History e ps s)
    (ht : t ∈ tuples ps) (hbeacon : isBeacon e (entryOf e ps t).2 = true) :
    (reported e s.alertedAnomalies s.beaconTrackers.entries).countP
      (fun bt => decide (connOf bt = t)) = 1 := by
  have hsep : ∀ y ∈ s.beaconTrackers.entries, y ≠ entryOf e ps t →
      beaconKey e y.1 ≠ beaconKey e (entryOf e ps t).1 ∧
        connOf y.2 ≠ connOf (entryOf e ps t).2 := by
    intro y hy hne
    obtain ⟨u, hu, rfl⟩ := (h.recorded y).1 hy
    exact separate hfree ht hu fun he => hne (by rw [he])
  have honce := reported_once s.beaconTrackers.nodup.of_map ((h.recorded _).2 ⟨t, ht, rfl⟩)
    hbeacon hsep (key_new h.claimed hfree ht)
  simpa only [connOf_entryOf ht] using honce

end Tuple

/-- A regular train of at least eight SYNs of a source to a destination and
port, in any capture without eviction: the flush reports it once. -/
theorem beacon_reported (e : Env) (hsqrt : e.sqrt 0 = 0) (hcb : e.hasCallback = true)
    (src dst : UInt32) (port : UInt16) (period : Rat) (ls : List Event) (s s' : Sensor)
    (hdst : isLan dst = false) (hport : ntohs port ≠ 80 ∧ ntohs port ≠ 443)
    (hperiod : 15 ≤ period ∧ period ≤ 7200) (hls : ∀ l ∈ ls, Capture l)
    (hfree : CollisionFree e (tcpOf ls))
    (hlen : 8 ≤ (synsTo ⟨src, dst, 0, port⟩ (tcpOf ls)).length)
    (htrain : Spaced period ((synsTo ⟨src, dst, 0, port⟩ (tcpOf ls)).map TcpPacket.time))
    (hr : (system e).Run {} ls s) (hs : (system e).step s .flush s') :
    ∃ new, s'.anomalies.alerts = s.anomalies.alerts ++ new ∧
      new.countP (fun a => decide (Reports ⟨src, dst, 0, port⟩ a)) = 1 := by
  have hhistory := history_run hls hfree hr
  have htuple : (⟨src, dst, 0, port⟩ : ConnectionId) ∈ tuples (tcpOf ls) := by
    obtain ⟨q, hq⟩ := List.exists_mem_of_length_pos (Nat.lt_of_lt_of_le (by decide) hlen)
    obtain ⟨hmem, htest⟩ := List.mem_filter.1 hq
    rw [Bool.and_eq_true, decide_eq_true_eq] at htest
    have hqdst : (anomalyConn q).dstIp = dst := by rw [htest.2]
    have htracked : isTracked q = true := by
      rw [isTracked, htest.1, show q.cid.dstIp = dst from hqdst, hdst]
      rfl
    exact List.mem_map.2 ⟨q, List.mem_filter.2 ⟨hmem, htracked⟩, htest.2⟩
  have hbeacon : isBeacon e (entryOf e (tcpOf ls) ⟨src, dst, 0, port⟩).2 = true :=
    isBeacon_of_regular hsqrt (by rw [entryOf, List.length_map]; exact hlen) htrain hperiod.1
      hperiod.2 hport
  obtain rfl : s' = flushSensor e s := hs
  refine ⟨_, flush_alerts hcb s, ?_⟩
  rw [List.countP_append, not_reports_botnet, Nat.add_zero, List.countP_map]
  simp only [Function.comp_def, reports_beaconAlert]
  exact tuple_reported hfree hhistory htuple hbeacon

end Flush

/-! ## Inputs -/

/-- A SYN from 10.0.0.5 to port 4444 of 192.0.2.1. -/
def poll : Bytes :=
  [0x45, 0, 0, 40, 0, 0, 0, 0, 64, 6, 0, 0, 10, 0, 0, 5, 192, 0, 2, 1,
   0x80, 0, 0x11, 0x5C, 0, 0, 0, 1, 0, 0, 0, 0, 0x50, 0x02, 0xFF, 0xFF, 0, 0, 0, 0]

/-- One a minute. -/
def polls : List (Bytes × Rat) := (List.range 8).map fun i => (poll, 60 * i)

def pollEvents : List Event := (polls.map fun x => .packet x.1 x.2).map .sensor

theorem beacon_reported_polls :
    ∃ s, (system wholeRoots).Run {} pollEvents s ∧
      ∃ new, (flushSensor wholeRoots s).anomalies.alerts = s.anomalies.alerts ++ new ∧
        new.countP (fun a => decide (Reports ⟨0x0500000A, 0x010200C0, 0, 0x5C11⟩ a)) = 1 := by
  have hsome : (Responders.feed Responders.inlineEnv {} polls).isSome = true := by decide
  obtain ⟨s, hs⟩ := Option.isSome_iff_exists.1 hsome
  have hrun : (system wholeRoots).Run {} pollEvents s :=
    sensor_run (e := wholeRoots) (Responders.feed_run hs)
  have hcapture : ∀ l ∈ pollEvents, Capture l := by
    intro l hl
    obtain ⟨event, hevent, rfl⟩ := List.mem_map.1 hl
    obtain ⟨x, -, rfl⟩ := List.mem_map.1 hevent
    trivial
  have hfree : CollisionFree wholeRoots (tcpOf pollEvents) := ⟨by decide, by decide +kernel⟩
  exact ⟨s, hrun, beacon_reported wholeRoots rfl rfl 0x0500000A 0x010200C0 0x5C11 60 pollEvents s _
    (by decide) (by decide) (by norm_num) hcapture hfree (by decide) (by decide +kernel)
    hrun rfl⟩

end Wirewolf.L5.Beaconing
