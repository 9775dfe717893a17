import Wirewolf.L3Table.Removal

/-!
# The behavioral tag of an emitted flow

Three of the removal loops push flows, and each has its own copy of the code
that scores a connection, looks its 4-tuple up in `beh_suspicious_` and tags
the flow. `pushLog` lists what a pass pushes, each flow with the behavioral
records at the moment of its push, and `traced` keeps that list along a run.

* `pushLog_queue`: the list is what reaches the output queue.
* `complete_carries`, `evict_carries`: two of the loops tag.
* `flush_carries_iff`: `flush_all_flows` does not; what its own loop pushes
  carries the tag only where there is nothing to carry.
* `tagged_iff`: so it is for every run.
-/
namespace Wirewolf.L3.Tagging

open Wirewolf.L1.IpPacket Wirewolf.L2.Connection Wirewolf.L3.Table Wirewolf.L3.Removal
open Wirewolf.L3.Behavior (behKey isSuspect recordAndScore recordPeers)

/-- A push, with the behavioral records at that moment. -/
structure Push where
  beh : Behavior.State
  flow : FlowData

/-- A suspicious 4-tuple shows in the tag. -/
def Carries (e : Env) (x : Push) : Prop :=
  behKey e.beh x.flow.id ∈ x.beh.behSuspicious → x.flow.behavioralSuspect = true

abbrev Effect := Sinks → ConnectionId → ConnectionState → Sinks

/-- The effect of a loop together with its pushes. Every effect pushes last,
so the records at the push are those it leaves. -/
def logged (g : Effect) (a : Sinks × List Push) (id : ConnectionId) (st : ConnectionState) :
    Sinks × List Push :=
  let s := g a.1 id st
  (s, a.2 ++ (s.outputQueue.drop a.1.outputQueue.length).map fun f => ⟨s.beh, f⟩)

def sweepLog (cond : ConnectionId → ConnectionState → Bool) (g : Effect) (r : Reassembler) :
    List Push :=
  (r.connections.sweep cond (logged g) (r.toSinks, [])).1.2

/-- What a removal pass pushes. -/
def pushLog (e : Env) (r : Reassembler) : Removal → List Push
  | .complete => sweepLog (isComplete e) (completeFlow e) r
  | .flush => sweepLog (isComplete e) (completeFlow e) r ++
      sweepLog (fun _ _ => true) (flushFlow e) (checkCompleteFlows e r)
  | .evict now =>
    if now - r.lastEvictionTime < evictionInterval then []
    else sweepLog (isIdle now) (evictFlow e) r
  | .forceEvict _ => []

/-- The records after the flush of one connection.
mirrors src/src/tcp_reassembly.cpp:1263-1268 -/
def scored (e : Env) (b : Behavior.State) (x : ConnectionId × ConnectionState) : Behavior.State :=
  recordAndScore e.beh (recordPeers b x.1 (mergedPayload x.2)) x.1 x.2.lengthSum
    x.2.lastPacketTime x.2.interArrivalSum

/-- Flushing the connections in turn comes to one whose 4-tuple is suspicious
by then. -/
def MeetsSuspect (e : Env) : Behavior.State → List (ConnectionId × ConnectionState) → Prop
  | _, [] => False
  | b, x :: l =>
    if x.2.payload.isEmpty && decide (x.2.packetCount < 2) then MeetsSuspect e b l
    else behKey e.beh x.1 ∈ (scored e b x).behSuspicious ∨ MeetsSuspect e (scored e b x) l

instance decidableMeetsSuspect (e : Env) (b : Behavior.State) :
    (l : List (ConnectionId × ConnectionState)) → Decidable (MeetsSuspect e b l)
  | [] => inferInstanceAs (Decidable False)
  | x :: l =>
    have : Decidable (MeetsSuspect e b l) := decidableMeetsSuspect e b l
    have : Decidable (MeetsSuspect e (scored e b x) l) := decidableMeetsSuspect e (scored e b x) l
    inferInstanceAs (Decidable (if x.2.payload.isEmpty && decide (x.2.packetCount < 2)
      then MeetsSuspect e b l
      else behKey e.beh x.1 ∈ (scored e b x).behSuspicious ∨ MeetsSuspect e (scored e b x) l))

def labelLog (e : Env) (r : Reassembler) : Label → List Push
  | .removal m => pushLog e r m
  | .packet _ => []
  | .rehash => []

/-- The table, with everything pushed since the start of the run. -/
def traced (e : Env) : LTS (Reassembler × List Push) Label where
  init s := s = ({}, [])
  step s l s' := Step e s.1 l s'.1 ∧ s'.2 = s.2 ++ labelLog e s.1 l

/-! ## Logs of the loops -/

variable {e : Env} {g : Effect} {pay : ConnectionId → ConnectionState → List Bytes}

theorem logged_of_append {s : Sinks} {id : ConnectionId} {st : ConnectionState}
    {new : List FlowData} (h : (g s id st).outputQueue = s.outputQueue ++ new) (log : List Push) :
    logged g (s, log) id st = (g s id st, log ++ new.map fun f => ⟨(g s id st).beh, f⟩) := by
  unfold logged
  simp only [h, List.drop_left]

theorem fold_logged_queue (hg : Pushes g pay) (l : List (ConnectionId × ConnectionState))
    (s : Sinks) (log : List Push) {q : List FlowData}
    (hq : s.outputQueue = q ++ log.map Push.flow) :
    (l.foldl (fun s x => g s x.1 x.2) s).outputQueue =
      q ++ (l.foldl (fun a x => logged g a x.1 x.2) (s, log)).2.map Push.flow := by
  induction l generalizing s log with
  | nil => exact hq
  | cons x l ih =>
    obtain ⟨new, hnew, _⟩ := hg s x.1 x.2
    rw [List.foldl_cons, List.foldl_cons, logged_of_append hnew]
    refine ih _ _ ?_
    rw [hnew, hq, List.map_append, List.append_assoc, List.map_map]
    simp [Function.comp_def]

theorem sweepLog_queue (hg : Pushes g pay) (cond : ConnectionId → ConnectionState → Bool)
    (r : Reassembler) : (r.connections.sweep cond g r.toSinks).1.outputQueue =
      r.outputQueue ++ (sweepLog cond g r).map Push.flow := by
  rw [sweepLog, UMap.sweep_acc, UMap.sweep_acc]
  exact fold_logged_queue hg _ _ _ (by simp)

/-- The log of a pass is what it adds to the output queue. -/
theorem pushLog_queue (e : Env) (r : Reassembler) (m : Removal) :
    (m.run e r).outputQueue = r.outputQueue ++ (pushLog e r m).map Push.flow := by
  have hcomplete := sweepLog_queue (completeFlow_pushes e) (isComplete e) r
  cases m with
  | complete => exact hcomplete
  | flush =>
    have hflush := sweepLog_queue (flushFlow_pushes e) (fun _ _ => true) (checkCompleteFlows e r)
    rw [pushLog, List.map_append, ← List.append_assoc]
    exact hflush.trans (congrArg (· ++ _) hcomplete)
  | evict now =>
    by_cases hn : now - r.lastEvictionTime < evictionInterval
    · rw [Removal.run, pushLog, evictStaleState, if_pos hn, if_pos hn, List.map_nil,
        List.append_nil]
    · rw [Removal.run, pushLog, evictStaleState, if_neg hn, if_neg hn]
      exact sweepLog_queue (evictFlow_pushes e) (isIdle now) r
  | forceEvict now =>
    rw [pushLog, List.map_nil, List.append_nil]
    show (forceEvictOldest now r).outputQueue = _
    unfold forceEvictOldest
    split
    · rfl
    · rfl

/-! ## Tags -/

theorem fold_logged_all {C : Push → Prop} (h : ∀ s id st, ∀ x ∈ (logged g (s, []) id st).2, C x)
    (l : List (ConnectionId × ConnectionState)) (a : Sinks × List Push) (ha : ∀ x ∈ a.2, C x) :
    ∀ x ∈ (l.foldl (fun a x => logged g a x.1 x.2) a).2, C x := by
  induction l generalizing a with
  | nil => exact ha
  | cons y l ih =>
    refine ih _ fun x hx => ?_
    rcases List.mem_append.1 hx with hx | hx
    · exact ha x hx
    · exact h a.1 y.1 y.2 x hx

theorem sweepLog_all {C : Push → Prop} (h : ∀ s id st, ∀ x ∈ (logged g (s, []) id st).2, C x)
    (cond : ConnectionId → ConnectionState → Bool) (r : Reassembler) :
    ∀ x ∈ sweepLog cond g r, C x := by
  rw [sweepLog, UMap.sweep_acc]
  exact fold_logged_all h _ _ fun x hx => absurd hx List.not_mem_nil

theorem isSuspect_of_mem {e : Env} (hready : e.beh.behavioralReady = true) {b : Behavior.State}
    {id : ConnectionId} (h : behKey e.beh id ∈ b.behSuspicious) : isSuspect e.beh b id = true := by
  rw [isSuspect, hready, Bool.true_and]
  exact List.contains_iff_mem.2 h

theorem complete_carries (hready : e.beh.behavioralReady = true) (r : Reassembler) :
    ∀ x ∈ sweepLog (isComplete e) (completeFlow e) r, Carries e x := by
  refine sweepLog_all (fun s id st x hx => ?_) _ r
  have hpush : (completeFlow e s id st).outputQueue = s.outputQueue ++ [_] := rfl
  rw [logged_of_append hpush] at hx
  cases List.mem_singleton.1 hx
  exact isSuspect_of_mem hready

theorem evict_carries (hready : e.beh.behavioralReady = true) (now : Rat) (r : Reassembler) :
    ∀ x ∈ sweepLog (isIdle now) (evictFlow e) r, Carries e x := by
  refine sweepLog_all (fun s id st x hx => ?_) _ r
  by_cases hp : st.payload.isEmpty = true
  · have hsame : evictFlow e s id st = s := by rw [evictFlow, if_pos hp]
    simp [logged, hsame] at hx
  · have hpush : evictFlow e s id st = { s with outputQueue := s.outputQueue ++
        [{ makeFlow id st st.payload with behavioralSuspect := isSuspect e.beh s.beh id }] } := by
      rw [evictFlow, if_neg hp]
    simp only [logged, hpush, List.drop_left, List.map_cons, List.map_nil, List.nil_append,
      List.mem_singleton] at hx
    rw [hx]
    exact isSuspect_of_mem hready

theorem fold_flush_carries_iff (l : List (ConnectionId × ConnectionState)) (s : Sinks)
    (log : List Push) :
    (∀ x ∈ (l.foldl (fun a x => logged (flushFlow e) a x.1 x.2) (s, log)).2, Carries e x) ↔
      (∀ x ∈ log, Carries e x) ∧ ¬ MeetsSuspect e s.beh l := by
  induction l generalizing s log with
  | nil => simp [MeetsSuspect]
  | cons y l ih =>
    rw [List.foldl_cons, MeetsSuspect]
    by_cases hskip : (y.2.payload.isEmpty && decide (y.2.packetCount < 2)) = true
    · have hsame : flushFlow e s y.1 y.2 = s := by rw [flushFlow, if_pos hskip]
      have hlog : logged (flushFlow e) (s, log) y.1 y.2 = (s, log) := by simp [logged, hsame]
      rw [hlog, ih, if_pos hskip]
    · have hpush : flushFlow e s y.1 y.2 =
          ⟨s.outputQueue ++ [makeFlow y.1 y.2 (mergedPayload y.2)], scored e s.beh y⟩ := by
        rw [flushFlow, if_neg hskip]; rfl
      have hlog : logged (flushFlow e) (s, log) y.1 y.2 =
          (flushFlow e s y.1 y.2,
            log ++ [⟨scored e s.beh y, makeFlow y.1 y.2 (mergedPayload y.2)⟩]) := by
        simp [logged, hpush]
      have hself : Carries e ⟨scored e s.beh y, makeFlow y.1 y.2 (mergedPayload y.2)⟩ ↔
          behKey e.beh y.1 ∉ (scored e s.beh y).behSuspicious :=
        ⟨fun h hk => Bool.false_ne_true (h hk), fun h hk => absurd hk h⟩
      rw [hlog, ih, if_neg hskip, hpush]
      simp only [List.forall_mem_append, List.forall_mem_singleton, hself, not_or]
      exact and_assoc

/-- The loop of `flush_all_flows` tags nothing. -/
theorem flush_carries_iff (r : Reassembler) :
    (∀ x ∈ sweepLog (fun _ _ => true) (flushFlow e) r, Carries e x) ↔
      ¬ MeetsSuspect e r.beh r.connections.entries := by
  rw [sweepLog, UMap.sweep_acc, List.filter_true, fold_flush_carries_iff]
  simp

/-- At a flush, no connection that is left for its own loop is suspicious. -/
def FlushClear (e : Env) (s : Reassembler × List Push) (l : Label) : Prop :=
  l = .removal .flush →
    ¬ MeetsSuspect e (checkCompleteFlows e s.1).beh (checkCompleteFlows e s.1).connections.entries

theorem labelLog_carries_iff (hready : e.beh.behavioralReady = true) (s : Reassembler × List Push)
    (l : Label) : (∀ x ∈ labelLog e s.1 l, Carries e x) ↔ FlushClear e s l := by
  have hnone : (∀ x ∈ ([] : List Push), Carries e x) := fun x hx => absurd hx List.not_mem_nil
  cases l with
  | packet p => exact iff_of_true hnone fun h => by cases h
  | rehash => exact iff_of_true hnone fun h => by cases h
  | removal m =>
    cases m with
    | complete => exact iff_of_true (complete_carries hready s.1) fun h => by cases h
    | evict now =>
      refine iff_of_true ?_ fun h => by cases h
      unfold labelLog pushLog
      dsimp only
      split
      · exact hnone
      · exact evict_carries hready now s.1
    | forceEvict now => exact iff_of_true hnone fun h => by cases h
    | flush =>
      show (∀ x ∈ _ ++ _, _) ↔ _
      rw [List.forall_mem_append, flush_carries_iff]
      exact ⟨fun h _ => h.2, fun h => ⟨complete_carries hready s.1, h rfl⟩⟩

/-- Along a run the log is the output queue. -/
theorem log_inductive (e : Env) :
    (traced e).Inductive fun s => s.1.outputQueue = s.2.map Push.flow where
  init s hs := by rw [hs]; rfl
  step s l s' h hst := by
    obtain ⟨hstep, hlog⟩ := hst
    rw [hlog, List.map_append, ← h]
    cases l with
    | packet p =>
      have hstep : s'.1 = (processTcp s.1 p).1 := hstep
      rw [hstep, processTcp_queue]
      exact (List.append_nil _).symm
    | removal m =>
      have hstep : s'.1 = m.run e s.1 := hstep
      rw [hstep]
      exact pushLog_queue e s.1 m
    | rehash =>
      obtain ⟨l, hl, hstep⟩ := hstep
      rw [hstep]
      exact (List.append_nil _).symm

/-- In every run with models: the pushed flows all carry the tag of their
4-tuple exactly when no flush came to a suspicious connection in its own loop. -/
theorem tagged_iff (e : Env) (hready : e.beh.behavioralReady = true) {ls : List Label}
    {r : Reassembler} {log : List Push} (hr : (traced e).Run ({}, []) ls (r, log)) :
    r.outputQueue = log.map Push.flow ∧
      ((∀ x ∈ log, Carries e x) ↔ ((traced e).guard (FlushClear e)).Run ({}, []) ls (r, log)) := by
  refine ⟨(log_inductive e).run hr rfl, ?_⟩
  have hD : ∀ s l s', (traced e).step s l s' → ((¬ ∀ x ∈ s'.2, Carries e x) ↔
      (¬ ∀ x ∈ s.2, Carries e x) ∨ ¬ FlushClear e s l) := by
    intro s l s' hst
    rw [hst.2, List.forall_mem_append, labelLog_carries_iff hready]
    exact not_and_or
  have hiff := LTS.run_guard_iff hD (fun h => h fun x hx => absurd hx List.not_mem_nil) hr
  rw [hiff, not_not]

/-! ## Inputs -/

/-- Models that find four flows of a 4-tuple suspicious, on a forensic capture. -/
def scoringEnv : Env := ⟨⟨true, false, true, 4, id, fun _ => false, fun _ => true⟩, 1048576⟩

instance (e : Env) (x : Push) : Decidable (Carries e x) := inferInstanceAs (Decidable (_ → _))

theorem fits_a : ([0x41] : Bytes).length ≤ 65535 := by decide

/-- One segment of the connection from source port `port`. -/
def beacon (fin : Bool) (port : UInt16) : TcpPacket :=
  { TcpPacket.segment ⟨1, 2, port, 4⟩ 100 [0x41] fits_a with fin := fin }

/-- The table after four connections to one service. -/
def beacons (fin : Bool) : Reassembler :=
  [1, 2, 3, 4].foldl (fun r port => (processTcp r (beacon fin port)).1) {}

theorem traced_packet (s : Reassembler × List Push) (p : TcpPacket) :
    (traced e).step s (.packet p) ((processTcp s.1 p).1, s.2) :=
  ⟨rfl, (List.append_nil _).symm⟩

theorem traced_removal (s : Reassembler × List Push) (m : Removal) :
    (traced e).step s (.removal m) (m.run e s.1, s.2 ++ pushLog e s.1 m) :=
  ⟨rfl, rfl⟩

/-- The beacons, and then the pass `m`. -/
def capture (fin : Bool) (m : Removal) : List Label :=
  [.packet (beacon fin 1), .packet (beacon fin 2), .packet (beacon fin 3), .packet (beacon fin 4),
    .removal m]

/-- Packets, and behind them one pass, where `P` allows them. -/
theorem guarded_packets {P : Reassembler × List Push → Label → Prop} (hp : ∀ s p, P s (.packet p))
    (ps : List TcpPacket) (m : Removal) (s : Reassembler × List Push) {r : Reassembler}
    (hr : ps.foldl (fun r p => (processTcp r p).1) s.1 = r) (hm : P (r, s.2) (.removal m)) :
    ((traced e).guard P).Run s (ps.map Label.packet ++ [.removal m])
      (m.run e r, s.2 ++ pushLog e r m) := by
  induction ps generalizing s with
  | nil =>
    subst hr
    exact .cons ⟨hm, traced_removal s m⟩ (.nil _)
  | cons p ps ih =>
    exact .cons ⟨hp s p, traced_packet s p⟩ (ih ((processTcp s.1 p).1, s.2) hr hm)

theorem capture_run (fin : Bool) (m : Removal) : (traced scoringEnv).Run ({}, []) (capture fin m)
    (m.run scoringEnv (beacons fin), pushLog scoringEnv (beacons fin) m) :=
  (guarded_packets (fun _ _ => trivial) [beacon fin 1, beacon fin 2, beacon fin 3, beacon fin 4] m
    ({}, []) rfl trivial).of_guard (P := fun _ _ => True)

/-- At the end of a capture the fourth flow is scored suspicious and pushed
without the tag. -/
theorem flush_untagged :
    (traced scoringEnv).Run ({}, []) (capture false .flush)
      (Removal.flush.run scoringEnv (beacons false), pushLog scoringEnv (beacons false) .flush) ∧
    ¬ ∀ x ∈ pushLog scoringEnv (beacons false) .flush, Carries scoringEnv x := by
  refine ⟨capture_run false .flush, fun hall => ?_⟩
  have hany : ((pushLog scoringEnv (beacons false) .flush).all fun x => Carries scoringEnv x) =
      false := by
    decide
  refine Bool.false_ne_true (hany.symm.trans (List.all_eq_true.2 fun x hx => ?_))
  exact decide_eq_true (hall x hx)

/-- The same connections, closed, and an open one to another service. -/
def mixed : List TcpPacket :=
  [beacon true 1, beacon true 2, beacon true 3, beacon true 4,
    { beacon false 5 with cid := ⟨1, 2, 5, 9⟩ }]

/-- The table that the flush finds. -/
def mixedTable : Reassembler := mixed.foldl (fun r p => (processTcp r p).1) {}

theorem tagged_mixed :
    ((pushLog scoringEnv mixedTable .flush).map fun x => x.flow.behavioralSuspect) =
        [false, false, false, true, false] ∧
      ∀ x ∈ pushLog scoringEnv mixedTable .flush, Carries scoringEnv x := by
  have hclear : FlushClear scoringEnv (mixedTable, []) (.removal .flush) := fun _ => by
    decide
  have hrun := guarded_packets (e := scoringEnv) (fun _ _ => nofun) mixed .flush ({}, []) rfl hclear
  exact ⟨by decide, ((tagged_iff scoringEnv rfl hrun.of_guard).2).2 hrun⟩

end Wirewolf.L3.Tagging
