import Wirewolf.L3Table.Suspicion
import Wirewolf.L5Pipeline.Training

/-!
# From the export to the sensor

A capture is exported (`export_states`), models are trained and evaluated on
exports (`train_behavioral`), and the sensor loads the two files and scores the
connections it sees. On the capture that the models were evaluated on, what the
report counts and what the sensor marks can be compared.

* `alike_run`: export and sensor record the same flows.
* `deployed`: the models that the sensor loads are those that were evaluated.
* `reported_flagged`: every 4-tuple that the report counts as positive is one
  that the sensor marks. The converse fails, as the sensor asks after each flow
  and the report once (`Suspicion.suspicious_iff`).

The model files print the smoothing constant `k` with six digits: both results
ask for a `k` that these give back, and for training on state files as the
exporter writes them. `reported_flagged` also asks for at most 100000 4-tuples,
beyond which the table is cleared, and for an export with `min_flows` 4.
-/
namespace Wirewolf.L5.Deployment

open Wirewolf.L1.IpPacket Wirewolf.L2.Connection Wirewolf.L3.Table
open Wirewolf.L3.Behavior (BehConn Flow State behKey inScope maxBehConns recordAndScore recordPeers)
open Wirewolf.L3.FlowRecord (encodeConnection)
open Wirewolf.L3.Markov Wirewolf.L3.Suspicion
open Wirewolf.L5.Training

/-! ## The sensor's models -/

/-- The models, and whether their configuration is another one. -/
structure Models where
  bot : MarkovModel
  norm : MarkovModel
  mismatch : Bool

/-- `none` is an exception. The warning looks at the botnet model's fingerprint
only.
mirrors src/src/tcp_reassembly.cpp:95-117 -/
def loadModels (botnetFile normalFile : Bytes) : Option Models := do
  let (bot, fpB) ← L3.MarkovFile.load botnetFile
  let (norm, _) ← L3.MarkovFile.load normalFile
  return ⟨bot, norm, decide (fpB ≠ L3.MarkovFile.fingerprint {} (1 / 2) 4)⟩

/-- mirrors src/src/tcp_reassembly.cpp:1367-1372 -/
def clears (log : Rat → Rat) (threshold : Rat) (m : Models) (flows : List Flow) : Bool :=
  let s := encodeConnection flows {}
  if s.length < 2 then false else decide (threshold < m.bot.score log s - m.norm.score log s)

/-- mirrors src/tools/export_states/export_states.cpp:41-57 -/
def exporting (e : Env) : Env :=
  { e with beh := { e.beh with behavioralReady := false, behExport := true, minFlows := 4 } }

/-- The forensic mode, with models. -/
def scoring (log : Rat → Rat) (threshold : Rat) (m : Models) (e : Env) : Env :=
  { e with beh := { e.beh with
      behavioralReady := true, behExport := false, forensic := true, minFlows := 4,
      suspects := clears log threshold m } }

/-! ## One capture, twice -/

/-- Both tables see the same packets and passes, and are iterated alike. -/
def sideBySide (e e' : Env) : LTS (Reassembler × Reassembler) Label where
  init s := s = ({}, {})
  step s l s' := (system e).step s.1 l s'.1 ∧ (system e').step s.2 l s'.2 ∧
    (l = .rehash → s'.1.connections.entries = s'.2.connections.entries)

/-- But for what is pushed and marked. -/
structure Alike (r r' : Reassembler) : Prop where
  connections : r.connections = r'.connections
  evicted : r.lastEvictionTime = r'.lastEvictionTime
  forced : r.lastForceEvictTime = r'.lastForceEvictTime
  recorded : r.beh.behConns = r'.beh.behConns

/-- Whatever is completed is recorded. -/
structure Recording (e : L3.Behavior.Env) : Prop where
  on : e.behavioralReady = true ∨ e.behExport = true
  scope : e.behExport = true ∨ e.forensic = true

/-- mirrors src/src/tcp_reassembly.cpp:1350-1357 -/
def joined (conns : UMap UInt64 BehConn) (key : UInt64) (id : ConnectionId) (f : Flow) :
    UMap UInt64 BehConn :=
  let conns := if maxBehConns < conns.size then .empty else conns
  conns.put key ⟨id.srcIp, id.dstIp, id.dstPort, ((conns.find? key).getD {}).flows ++ [f]⟩

theorem behConns_record {e : L3.Behavior.Env} (h : Recording e) (b : State) (id : ConnectionId)
    (totBytes : Nat) (startTime duration : Rat) :
    (recordAndScore e b id totBytes startTime duration).behConns =
      joined b.behConns (behKey e id) id ⟨startTime, duration, totBytes⟩ := by
  have hon : ¬ (!e.behavioralReady && !e.behExport) = true := by
    rcases h.on with h | h <;> simp [h]
  have hscope : ¬ (!inScope e b id) = true := by
    rcases h.scope with h | h <;> simp [inScope, h]
  unfold recordAndScore
  rw [if_neg hon, if_neg hscope]
  -- what comes after the recording leaves the connections alone
  simp only [apply_ite State.behConns, ite_self]
  rfl

theorem behConns_peers (b : State) (id : ConnectionId) (payload : Bytes) :
    (recordPeers b id payload).behConns = b.behConns := by
  unfold recordPeers
  split <;> rfl

section Passes

variable {e e' : Env} {r r' : Reassembler}

/-- The environments record alike. -/
structure Twins (e e' : Env) : Prop where
  left : Recording e.beh
  right : Recording e'.beh
  hash : e.beh.hash64 = e'.beh.hash64
  cap : e.maxFlowPayloadBytes = e'.maxFlowPayloadBytes

theorem Twins.key (h : Twins e e') (id : ConnectionId) : behKey e.beh id = behKey e'.beh id := by
  unfold behKey
  rw [h.hash]

theorem record_alike (h : Twins e e') {b b' : State} (hb : b.behConns = b'.behConns)
    (id : ConnectionId)
    (payload : Bytes) (n : Nat) (t d : Rat) :
    (recordAndScore e.beh (recordPeers b id payload) id n t d).behConns =
      (recordAndScore e'.beh (recordPeers b' id payload) id n t d).behConns := by
  rw [behConns_record h.left, behConns_record h.right, behConns_peers, behConns_peers, hb, h.key]

theorem flushFlow_alike (h : Twins e e') {s s' : Sinks} (hs : s.beh.behConns = s'.beh.behConns)
    (id : ConnectionId) (st : ConnectionState) :
    (flushFlow e s id st).beh.behConns = (flushFlow e' s' id st).beh.behConns := by
  unfold flushFlow
  split
  · exact hs
  · exact record_alike h hs id _ _ _ _

/-- A sweep whose effects record alike. -/
theorem sweep_alike {g f : Sinks → ConnectionId → ConnectionState → Sinks}
    (cond : ConnectionId → ConnectionState → Bool)
    (hg : ∀ s s' id st, s.beh.behConns = s'.beh.behConns → (g s id st).beh.behConns =
      (f s' id st).beh.behConns)
    (h : Alike r r') :
    Alike { r with toSinks := (r.connections.sweep cond g r.toSinks).1,
                   connections := (r.connections.sweep cond g r.toSinks).2 }
      { r' with toSinks := (r'.connections.sweep cond f r'.toSinks).1,
                connections := (r'.connections.sweep cond f r'.toSinks).2 } := by
  refine ⟨?_, h.evicted, h.forced, ?_⟩
  · dsimp only
    rw [h.connections]
    exact UMap.sweep_left cond g f r.toSinks r'.toSinks _
  · dsimp only
    rw [h.connections]
    exact UMap.sweep_rel (R := fun s s' : Sinks => s.beh.behConns = s'.beh.behConns) cond
      (fun s s' x _ hs => hg s s' x.1 x.2 hs) h.recorded

theorem complete_alike (h : Twins e e') (hr : Alike r r') :
    Alike (checkCompleteFlows e r) (checkCompleteFlows e' r') := by
  have hcond : isComplete e = isComplete e' := by
    unfold isComplete
    rw [h.cap]
  unfold checkCompleteFlows
  rw [hcond]
  exact sweep_alike _ (fun s s' id st hs => record_alike h hs id _ _ _ _) hr

theorem forceEvict_alike (now : Rat) (hr : Alike r r') :
    Alike (forceEvictOldest now r) (forceEvictOldest now r') := by
  unfold forceEvictOldest
  rw [hr.forced]
  split
  · exact hr
  · exact ⟨by dsimp only; rw [hr.connections], hr.evicted, rfl, hr.recorded⟩

theorem removal_alike (h : Twins e e') (hr : Alike r r') (m : Removal) :
    Alike (m.run e r) (m.run e' r') := by
  cases m with
  | complete => exact complete_alike h hr
  | flush =>
    exact sweep_alike _ (fun s s' id st hs => flushFlow_alike h hs id st) (complete_alike h hr)
  | evict now =>
    unfold Removal.run evictStaleState
    dsimp only
    rw [hr.evicted]
    split
    · exact hr
    · have hswept := sweep_alike (isIdle now) (g := evictFlow e) (f := evictFlow e')
        (fun s s' id st hs => by rw [evictFlow_beh, evictFlow_beh, hs]) hr
      exact ⟨hswept.connections, rfl, hswept.forced, hswept.recorded⟩
  | forceEvict now => exact forceEvict_alike now hr

theorem makeRoom_alike (now : Rat) (hr : Alike r r') :
    Alike (makeRoom now r) (makeRoom now r') := by
  unfold makeRoom
  rw [hr.connections]
  split
  · exact forceEvict_alike now hr
  · exact hr

theorem packet_alike (hr : Alike r r') (p : TcpPacket) :
    Alike (processTcp r p).1 (processTcp r' p).1 := by
  unfold processTcp
  rw [hr.connections]
  cases r'.connections.find? p.cid with
  | some st => exact ⟨rfl, hr.evicted, hr.forced, hr.recorded⟩
  | none =>
    have hroom := makeRoom_alike p.time hr
    dsimp only
    rw [hroom.connections]
    split
    · exact ⟨rfl, hroom.evicted, hroom.forced, hroom.recorded⟩
    · exact ⟨rfl, hroom.evicted, hroom.forced, hroom.recorded⟩

/-- Side by side, both record the same flows. -/
theorem alike_run (h : Twins e e') {s s' : Reassembler × Reassembler} {ls : List Label}
    (hrun : (sideBySide e e').Run s ls s') (hs : Alike s.1 s.2) : Alike s'.1 s'.2 := by
  induction hrun with
  | nil => exact hs
  | @cons s s₁ s' l ls hst _ ih =>
    refine ih ?_
    obtain ⟨r, r'⟩ := s
    obtain ⟨r₁, r₁'⟩ := s₁
    obtain ⟨hleft, hright, horder⟩ := hst
    cases l with
    | packet p => cases hleft; cases hright; exact packet_alike hs p
    | removal m => cases hleft; cases hright; exact removal_alike h hs m
    | rehash =>
      have hentries := horder rfl
      obtain ⟨l, hl, rfl⟩ := hleft
      obtain ⟨l', hl', rfl⟩ := hright
      refine ⟨?_, hs.evicted, hs.forced, hs.recorded⟩
      cases hentries
      rfl

theorem run_right {s s' : Reassembler × Reassembler} {ls : List Label}
    (hrun : (sideBySide e e').Run s ls s') : (system e').Run s.2 ls s'.2 := by
  induction hrun with
  | nil => exact .nil _
  | cons hst _ ih => exact .cons hst.2.1 ih

/-- Without a rehash any two runs are side by side. -/
theorem run_beside {r₁ r₁' r₂' : Reassembler} {ls : List Label} (hleft : (system e).Run r₁ ls r₁')
    (hls : .rehash ∉ ls) (r₂ : Reassembler) (hright : (system e').Run r₂ ls r₂') :
    (sideBySide e e').Run (r₁, r₂) ls (r₁', r₂') := by
  induction hleft generalizing r₂ with
  | nil => cases hright; exact .nil _
  | cons hst _ ih =>
    obtain ⟨hl, hls⟩ := List.ne_and_not_mem_of_not_mem_cons hls
    cases hright with
    | cons hst' hright =>
      refine .cons ?_ (ih hls _ hright)
      exact ⟨hst, hst', fun h => absurd h.symm hl⟩

end Passes

theorem twins (log : Rat → Rat) (threshold : Rat) (m : Models) (e : Env) :
    Twins (exporting e) (scoring log threshold m e) :=
  ⟨⟨.inr rfl, .inl rfl⟩, ⟨.inl rfl, .inr rfl⟩, rfl, rfl⟩

/-! ## The trainer's side -/

/-- The class that the flow lists give a 4-tuple. -/
def labelled (A : Args) (longMax : Nat) (bc : BehConn) : Option Bool :=
  (known (A.testBf.flatMap (rowsOf longMax)) bc).bind (isBot A.majority A.includeBg)

/-- The 4-tuple's whole list of flows is long enough and clears. -/
def positive (log : Rat → Rat) (threshold : Rat) (m : Models) (bc : BehConn) : Bool :=
  decide (4 ≤ bc.flows.length) && clears log threshold m bc.flows

/-- It is positive if it is exported, and its state string clears. -/
theorem positive_row (log : Rat → Rat) (threshold : Rat) (m : Models) (bc : BehConn) :
    positive log threshold m bc = (stateRow 4 bc).any fun _ =>
      decide (threshold < m.bot.score log (encodeConnection bc.flows {}) -
        m.norm.score log (encodeConnection bc.flows {})) := by
  unfold positive clears stateRow
  by_cases hfew : bc.flows.length < 4
  · simp [hfew]
  · by_cases hshort : (encodeConnection bc.flows {}).length < 2
    · simp [hshort]
    · simp [hfew, hshort, Nat.le_of_not_lt hfew]

/-- The true positives or the false ones. -/
def positives (c : Confusion) (bot : Bool) : Nat := if bot then c.tp else c.fp

theorem positives_confusion (llr : Bytes → Rat) (samples : List (Bytes × Bool)) (thr : Rat)
    (bot : Bool) :
    positives (confusion llr samples thr) bot = samples.countP fun s =>
      s.2 == bot && decide (thr < llr s.1) := by
  induction samples using List.reverseRecOn with
  | nil => cases bot <;> rfl
  | append_singleton samples s ih =>
    have hlast : confusion llr (samples ++ [s]) thr =
        (confusion llr samples thr).add (decide (thr < llr s.1)) s.2 := by
      rw [confusion, List.foldl_append]
      rfl
    rw [hlast, List.countP_append, ← ih, List.countP_singleton]
    cases hclass : s.2 <;> cases hpred : decide (thr < llr s.1) <;> cases bot <;>
      simp [Confusion.add, positives]

theorem stateLines_dump (minFlows : Nat) (conns : UMap UInt64 BehConn) :
    stateLines [dumpBehavioralStates minFlows conns] =
      (conns.entries.filterMap fun x => stateRow minFlows x.2).map fun row =>
        [0x2C].intercalate row := by
  rw [stateLines, List.flatMap_singleton, segments_dump, List.tail_cons]

/-- The lines of an export are looked up as its 4-tuples. -/
theorem looked_up_dump (longMax minFlows : Nat) (conns : UMap UInt64 BehConn) (files : List Bytes) :
    (stateLines [dumpBehavioralStates minFlows conns]).filterMap
        (lookup longMax (files.foldl (loadBfLabels longMax) .empty)) =
      conns.entries.filterMap fun x => (stateRow minFlows x.2).map fun _ =>
        (encodeConnection x.2.flows {}, known (files.flatMap (rowsOf longMax)) x.2) := by
  rw [stateLines_dump, List.filterMap_map, List.filterMap_filterMap]
  refine List.filterMap_congr fun x _ => ?_
  cases hrow : stateRow minFlows x.2 with
  | none => rfl
  | some row => exact lookup_row longMax files hrow

/-- Whatever is looked up in exports, no state string has a blank or a colon. -/
theorem looked_up_plain (longMax : Nat) (labels : Labels) {states : List Bytes}
    (hexported : ∀ file ∈ states, ∃ minFlows conns, file = dumpBehavioralStates minFlows conns) :
    ∀ x ∈ (stateLines states).filterMap (lookup longMax labels), ∀ c ∈ x.1,
    L3.MarkovFile.Plain c := by
  intro x hx
  obtain ⟨line, hline, hlook⟩ := List.mem_filterMap.1 hx
  obtain ⟨file, hfile, hline⟩ := List.mem_flatMap.1 hline
  obtain ⟨minFlows, conns, rfl⟩ := hexported file hfile
  rw [segments_dump, List.tail_cons] at hline
  obtain ⟨row, hrow, rfl⟩ := List.mem_map.1 hline
  obtain ⟨y, -, hy⟩ := List.mem_filterMap.1 hrow
  have hread := row_read hy
  obtain ⟨rfl, -⟩ := stateRow_eq_some hy
  unfold lookup at hlook
  rw [hread] at hlook
  dsimp only at hlook
  split at hlook
  · cases hlook
  · cases hlook
    exact L3.MarkovFile.encodeConnection_plain y.2.flows

/-- A model trained on plain strings comes back from its file. -/
theorem load_trained {label : Bytes} {k : Rat} {strings : List Bytes} (fp : Bytes)
    (hlabel : ∀ c ∈ label, isSpace c = false) (hk : Numeral.PrintsExactly k)
    (hfp : (0x0A : UInt8) ∉ fp) (hs : ∀ s ∈ strings, ∀ c ∈ s, L3.MarkovFile.Plain c) :
    L3.MarkovFile.load (L3.MarkovFile.serialize
      (({ label := label, k := k } : MarkovModel).train strings) fp) =
        some (({ label := label, k := k } : MarkovModel).train strings, fp) := by
  obtain ⟨hl, hkeep⟩ := train_keeps ({ label := label, k := k } : MarkovModel) strings
  exact L3.MarkovFile.load_of_coherent (train_coherent (fresh_coherent label k) hs) (by rwa [hl])
    (by rwa [hkeep]) hfp

/-- The state strings that a class is trained on. -/
def stringsOf (longMax : Nat) (A : Args) (bot : Bool) : List Bytes :=
  let lines := (stateLines A.trainStates).filterMap
    (lookup longMax (A.trainBf.foldl (loadBfLabels longMax) .empty))
  (lines.filterMap (entryOf A.majority A.includeBg)).filterMap fun e => if e.2 = bot
    then some e.1 else none

def trainedModel (longMax : Nat) (A : Args) (bot : Bool) : MarkovModel :=
  ({ label := if bot then lit "Botnet" else lit "Normal", k := A.k } : MarkovModel).train
    (stringsOf longMax A bot)

theorem stringsOf_plain (longMax : Nat) {A : Args}
    (hexported : ∀ file ∈ A.trainStates, ∃ minFlows conns, file =
      dumpBehavioralStates minFlows conns)
    (bot : Bool) : ∀ s ∈ stringsOf longMax A bot, ∀ c ∈ s, L3.MarkovFile.Plain c := by
  intro s hs
  obtain ⟨entry, hentry, he⟩ := List.mem_filterMap.1 hs
  obtain ⟨x, hx, hxe⟩ := List.mem_filterMap.1 hentry
  obtain ⟨b, -, rfl⟩ := Option.map_eq_some_iff.1 hxe
  split at he
  · cases he
    exact looked_up_plain longMax _ hexported x hx
  · cases he

/-- What the tool writes and reports, in terms of the two models. -/
theorem outcome_models (log : Rat → Rat) (longMax : Nat) (A : Args) :
    let out := runStatesMode log longMax A
    let fp := L3.MarkovFile.fingerprint {} A.k A.minFlows
    out.botnetModel = L3.MarkovFile.serialize (trainedModel longMax A true) fp ∧
    out.normalModel = L3.MarkovFile.serialize (trainedModel longMax A false) fp ∧
    out.evaluation = if A.testStates = [] then none
      else some (testStates log longMax A (trainedModel longMax A true)
        (trainedModel longMax A false)) := by
  unfold runStatesMode
  simp only [processStates_eq]
  exact ⟨rfl, rfl, rfl⟩

/-- The sensor scores with the models that were evaluated. -/
theorem deployed (log : Rat → Rat) (longMax : Nat) {A : Args} (hk : Numeral.PrintsExactly A.k)
    (hexported : ∀ file ∈ A.trainStates, ∃ minFlows conns, file =
      dumpBehavioralStates minFlows conns) :
    let out := runStatesMode log longMax A
    ∃ m, loadModels out.botnetModel out.normalModel = some m ∧
      out.evaluation = if A.testStates = []
        then none else some (testStates log longMax A m.bot m.norm) := by
  obtain ⟨hbot, hnorm, heval⟩ := outcome_models log longMax A
  have hload : ∀ bot, L3.MarkovFile.load (L3.MarkovFile.serialize (trainedModel longMax A bot)
      (L3.MarkovFile.fingerprint {} A.k A.minFlows)) = some (trainedModel longMax A bot, _) :=
        fun bot =>
    load_trained _ (L3.MarkovFile.not_space_of_all (by cases bot <;> decide)) hk
      (L3.MarkovFile.fingerprint_single {} A.k A.minFlows) (stringsOf_plain longMax hexported bot)
  refine ⟨⟨trainedModel longMax A true, trainedModel longMax A false,
    decide (L3.MarkovFile.fingerprint {} A.k A.minFlows ≠ L3.MarkovFile.fingerprint {} (1 / 2) 4)⟩,
      ?_, heval⟩
  rw [hbot, hnorm, loadModels, hload, hload]
  rfl

/-! ## The report and the sensor -/

/-- The reported positives of a class are its 4-tuples whose whole list of flows
clears. -/
theorem positives_reported (log : Rat → Rat) (longMax : Nat) {A : Args} (m : Models)
    {conns : UMap UInt64 BehConn} (htest : A.testStates = [dumpBehavioralStates 4 conns])
    (bot : Bool) :
    positives (testStates log longMax A m.bot m.norm).1.chosen.1 bot =
      conns.entries.countP fun x =>
        decide (labelled A longMax x.2 = some bot) && positive log A.threshold m x.2 := by
  have hchosen : (testStates log longMax A m.bot m.norm).1.chosen.1 =
      confusion (fun s => m.bot.score log s - m.norm.score log s)
        (((stateLines A.testStates).filterMap
          (lookup longMax (A.testBf.foldl (loadBfLabels longMax) .empty))).filterMap
            (entryOf A.majority A.includeBg)) A.threshold := by
    unfold testStates
    simp only [processStates_eq]
    rfl
  rw [hchosen, positives_confusion, htest, looked_up_dump, List.filterMap_filterMap,
    List.countP_filterMap]
  refine List.countP_congr fun x _ => ?_
  have hentry : entryOf A.majority A.includeBg (encodeConnection x.2.flows {},
      known (A.testBf.flatMap (rowsOf longMax)) x.2) =
        (labelled A longMax x.2).map (encodeConnection x.2.flows {}, ·) := rfl
  rw [positive_row]
  cases stateRow 4 x.2 with
  | none => simp
  | some row =>
    rw [Option.map_some, Option.bind_some, hentry]
    cases labelled A longMax x.2 <;> simp

/-- Every 4-tuple that the report counts as positive is one that the sensor
marks on the same capture. -/
theorem reported_flagged (log : Rat → Rat) (longMax : Nat) {A : Args}
    (hk : Numeral.PrintsExactly A.k)
    (hexported : ∀ file ∈ A.trainStates, ∃ minFlows conns, file =
      dumpBehavioralStates minFlows conns)
    {e : Env} {keys : List UInt64} (hkeys : keys.length ≤ maxBehConns) {ls : List Label}
    (hls : Among e keys ls) {r : Reassembler}
    (htest : A.testStates = [dumpBehavioralStates 4 r.beh.behConns]) :
    let out := runStatesMode log longMax A
    ∃ m report, loadModels out.botnetModel out.normalModel = some m ∧ out.evaluation = some report ∧
      ∀ r', (sideBySide (exporting e) (scoring log A.threshold m e)).Run ({}, {}) ls
        (r, r') → ∀ bot,
        positives report.1.chosen.1 bot =
          r'.beh.behConns.entries.countP (fun x =>
            decide (labelled A longMax x.2 = some bot) && positive log A.threshold m x.2) ∧
        ∀ x ∈ r'.beh.behConns.entries, positive log A.threshold m x.2 = true →
        x.1 ∈ r'.beh.behSuspicious := by
  intro out
  obtain ⟨m, hload, heval⟩ := deployed log longMax hk hexported
  rw [htest, if_neg (List.cons_ne_nil _ _)] at heval
  refine ⟨m, _, hload, heval, fun r' hrun bot => ?_⟩
  have halike := alike_run (twins log A.threshold m e) hrun ⟨rfl, rfl, rfl, rfl⟩
  refine ⟨?_, fun x hx hpos => ?_⟩
  · have hcount := positives_reported log longMax m htest bot
    rw [halike.recorded] at hcount
    exact hcount
  · have hmarked :=
      (settled_run (e := scoring log A.threshold m e) rfl hkeys hls (run_right hrun)).marked x.1
    have hfind : r'.beh.behConns.find? x.1 = some x.2 := UMap.find?_eq_some.2 hx
    have hflows : recordedFlows r'.beh x.1 = x.2.flows := by rw [recordedFlows, hfind]; rfl
    obtain ⟨hmin, hclear⟩ := Bool.and_eq_true_iff.1 hpos
    rw [hmarked, hflows]
    refine ⟨x.2.flows, List.prefix_rfl, ?_, of_decide_eq_true hmin, hclear⟩
    rintro hnil
    rw [hnil] at hmin
    cases hmin

/-! ## A capture -/

/-- Five connections to one service, exported. -/
def exportedBeacons : Reassembler :=
  Removal.complete.run (exporting fourFlows) (fiveBeacons.foldl (fun r p => (processTcp r p).1) {})

/-- Trained and tested on that capture. -/
def beaconArgs : Args where
  trainStates := [dumpBehavioralStates 4 exportedBeacons.beh.behConns]
  trainBf := [lit "SrcAddr,DstAddr,Dport,Label\n1.0.0.0,2.0.0.0,1024,From-Botnet\n"]
  testStates := [dumpBehavioralStates 4 exportedBeacons.beh.behConns]
  testBf := [lit "SrcAddr,DstAddr,Dport,Label\n1.0.0.0,2.0.0.0,1024,From-Botnet\n"]
  threshold := -3

theorem reported_flagged_beacons :
    let log := fun x : Rat => x - 1
    let ls := fiveBeacons.map Label.packet ++ [.removal .complete]
    ∃ m report r', (runStatesMode log (2 ^ 63 - 1) beaconArgs).evaluation = some report ∧
      (system (scoring log (-3) m fourFlows)).Run {} ls r' ∧
      positives report.1.chosen.1 true = r'.beh.behConns.entries.countP (fun x =>
        decide (labelled beaconArgs (2 ^ 63 - 1) x.2 = some true) && positive log (-3) m x.2) ∧
      ∀ x ∈ r'.beh.behConns.entries, positive log (-3) m x.2 = true →
      x.1 ∈ r'.beh.behSuspicious := by
  intro log ls
  have hk : Numeral.PrintsExactly beaconArgs.k :=
    ⟨1 / 2, ⟨5, -1, by decide, by decide +kernel⟩, by decide +kernel, by decide +kernel⟩
  have hkey : ∀ p ∈ fiveBeacons, behKey fourFlows.beh p.cid =
      behKey fourFlows.beh ⟨1, 2, 1, 4⟩ := by
    decide
  have hls : Among fourFlows [behKey fourFlows.beh ⟨1, 2, 1, 4⟩] ls := by
    intro p hp
    have hmem : p ∈ fiveBeacons := by simpa [ls] using hp
    exact List.mem_singleton.2 (hkey p hmem)
  obtain ⟨m, report, -, heval, hrun⟩ := reported_flagged log (2 ^ 63 - 1) (A := beaconArgs) hk
    (by simp [beaconArgs]) (e := fourFlows) (by decide) hls (r := exportedBeacons) rfl
  have hexport := run_packets fiveBeacons [.removal .complete] (e := exporting fourFlows) (r := {})
    (.cons (M := system (exporting fourFlows)) rfl (.nil _))
  have hscore := run_packets fiveBeacons [.removal .complete]
    (e := scoring log (-3) m fourFlows) (r := {})
    (.cons (M := system (scoring log (-3) m fourFlows)) rfl (.nil _))
  have hrehash : Label.rehash ∉ ls := by simp [ls]
  obtain ⟨hcount, hmark⟩ := hrun _ (run_beside hexport hrehash {} hscore) true
  exact ⟨m, report, _, heval, hscore, hcount, hmark⟩

end Wirewolf.L5.Deployment
