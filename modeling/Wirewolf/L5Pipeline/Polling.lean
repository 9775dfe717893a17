import Wirewolf.Core.Mailbox
import Wirewolf.L4Filter.Accounting
import Wirewolf.L5Pipeline.Alerts

/-!
# Event polling (`wirewolf_capi.cpp`)

The callbacks that `wirewolf_start` installs fill three bounded queues from
the worker threads, and the `wirewolf_poll_*` functions drain them. Every
access holds `queue_mutex`, so an interleaving is a list of calls. A time
point is its count of milliseconds; the two push callbacks of the caller
are not called into.

* `poll_eq`: the drain loop takes a prefix.
* `View.Lawful.refines`: each queue is a bounded mailbox for its own calls.
* `polling_accounts`: what each queue hands out, keeps and loses.
-/
namespace Wirewolf.L5.Polling

open scoped List
open Wirewolf.L1.IpPacket Wirewolf.L1.Severity Wirewolf.L4.Accounting Wirewolf.L5.Alerts
open Wirewolf.Mailbox (Op Box posted)

/-- A `char[size]` field: the copied bytes leave room for the terminator. -/
structure CString (size : Nat) where
  bytes : Bytes
  fits : bytes.length < size

/-- mirrors src/src/wirewolf_capi.cpp:36-40 -/
def safeCopy (size : Nat) [NeZero size] (src : Bytes) : CString size where
  bytes := src.take (min src.length (size - 1))
  fits := by
    have := Nat.pos_of_neZero size
    rw [List.length_take]; omega

/-- mirrors src/include/wirewolf_capi.h:66-80 -/
structure WirewolfAlert where
  srcIp : UInt32
  dstIp : UInt32
  srcPort : UInt16
  dstPort : UInt16
  threatType : CString 64
  severity : CString 64
  cvss : Float32
  severityLevel : Nat
  snippet : CString 512
  rawLlmOutput : CString 1024
  payloadText : CString 4096
  timestampMs : Int
  confidence : Float32

/-- mirrors src/src/wirewolf_capi.cpp:43-74 -/
def convertAlert (alert : ThreatAlert) (timestampMs : Int) : WirewolfAlert where
  srcIp := alert.connection.srcIp
  dstIp := alert.connection.dstIp
  srcPort := alert.connection.srcPort
  dstPort := alert.connection.dstPort
  threatType := safeCopy 64 alert.threatType
  severity := safeCopy 64 alert.severity
  cvss := alert.severityInfo.cvss
  severityLevel := alert.severityInfo.level.toNat
  snippet := safeCopy 512 alert.snippet
  rawLlmOutput := safeCopy 1024 alert.rawLlmOutput
  payloadText := safeCopy 4096 alert.payloadText
  timestampMs := timestampMs
  confidence :=
    if alert.confidence > 0 then alert.confidence else confidenceFor alert.severityInfo false

/-- mirrors src/include/wirewolf_capi.h:89-98 -/
structure WirewolfFlowEvent where
  srcIp : UInt32
  dstIp : UInt32
  srcPort : UInt16
  dstPort : UInt16
  action : Nat
  reason : CString 64
  payloadSize : Nat
  timestampMs : Int

/-- The number of the enumerator. -/
def FlowAction.toNat : FlowAction → Nat
  | .filtered => 0
  | .passedToLLM => 1
  | .llmCleared => 2

/-- mirrors src/src/wirewolf_capi.cpp:293-305 -/
def convertFlowEvent (ev : FlowEvent) (timestampMs : Int) : WirewolfFlowEvent where
  srcIp := ev.connection.srcIp
  dstIp := ev.connection.dstIp
  srcPort := ev.connection.srcPort
  dstPort := ev.connection.dstPort
  action := FlowAction.toNat ev.action
  reason := safeCopy 64 ev.reason
  payloadSize := ev.payloadSize
  timestampMs := timestampMs

/-- mirrors src/include/logger.hpp:17 -/
inductive LogLevel where
  | debug | info | warn | error
  deriving DecidableEq

/-- The number of the enumerator. -/
def LogLevel.toNat : LogLevel → Nat
  | .debug => 0
  | .info => 1
  | .warn => 2
  | .error => 3

/-- mirrors src/include/wirewolf_capi.h:101-105 -/
structure WirewolfLogEntry where
  level : Nat
  component : CString 32
  message : CString 512

/-- mirrors src/src/wirewolf_capi.cpp:315-319 -/
def convertLog (level : LogLevel) (component message : Bytes) : WirewolfLogEntry where
  level := level.toNat
  component := safeCopy 32 component
  message := safeCopy 512 message

/-- `WirewolfInstance::MAX_QUEUE` -/
def maxQueue : Nat := 10000

/-- mirrors src/src/wirewolf_capi.cpp:17-33 -/
structure WirewolfInstance where
  pendingAlerts : List WirewolfAlert := []
  pendingFlows : List WirewolfFlowEvent := []
  pendingLogs : List WirewolfLogEntry := []

section

variable {α : Type}

/-- `push_back`, then `pop_front` beyond the bound. -/
def pushBounded (q : List α) (x : α) : List α :=
  let q := q ++ [x]
  if maxQueue < q.length then q.tail else q

/-- The drain loop, `n` more items at most. -/
def drain : Nat → List α → List α × List α
  | 0, q => ([], q)
  | _ + 1, [] => ([], [])
  | n + 1, x :: q => ((x :: (drain n q).1), (drain n q).2)

/-- What is written to `out`, and what stays.
mirrors src/src/wirewolf_capi.cpp:410-451 -/
def poll (out : Bool) (max : Int) (q : List α) : List α × List α :=
  if !out || max ≤ 0 then ([], q) else drain max.toNat q

theorem drain_eq (n : Nat) (q : List α) : drain n q = (q.take n, q.drop n) := by
  induction n generalizing q with
  | zero => rfl
  | succ n ih =>
    cases q with
    | nil => rfl
    | cons x q => rw [drain, ih]; rfl

/-- The number of items a call asks for: none without a buffer. -/
def limit (out : Bool) (max : Int) : Nat := if out then max.toNat else 0

theorem poll_eq (out : Bool) (max : Int) (q : List α) :
    poll out max q = (q.take (limit out max), q.drop (limit out max)) := by
  unfold poll limit
  cases out with
  | false => rfl
  | true =>
    split
    · rename_i h
      have hmax : max.toNat = 0 := by simp at h; omega
      simp [hmax]
    · exact drain_eq _ _

end

/-- A call that touches a queue; `out` tells that the caller passed a buffer. -/
inductive Call where
  | alert (alert : ThreatAlert) (timestampMs : Int)
  | flowEvent (ev : FlowEvent) (timestampMs : Int)
  | log (level : LogLevel) (component message : Bytes)
  | pollAlerts (out : Bool) (max : Int)
  | pollFlowEvents (out : Bool) (max : Int)
  | pollLogs (out : Bool) (max : Int)

/-- What a call hands to the application. -/
inductive Output where
  | none
  | alerts (batch : List WirewolfAlert)
  | flows (batch : List WirewolfFlowEvent)
  | logs (batch : List WirewolfLogEntry)

/-- mirrors src/src/wirewolf_capi.cpp:271-320 and 410-451 -/
def WirewolfInstance.step (inst : WirewolfInstance) : Call → WirewolfInstance × Output
  | .alert a ms =>
    ({ inst with pendingAlerts := pushBounded inst.pendingAlerts (convertAlert a ms) }, .none)
  | .flowEvent ev ms =>
    ({ inst with pendingFlows := pushBounded inst.pendingFlows (convertFlowEvent ev ms) }, .none)
  | .log level component message =>
    ({ inst with pendingLogs := pushBounded inst.pendingLogs (convertLog level component message) },
      .none)
  | .pollAlerts out max =>
    let (batch, rest) := poll out max inst.pendingAlerts
    ({ inst with pendingAlerts := rest }, .alerts batch)
  | .pollFlowEvents out max =>
    let (batch, rest) := poll out max inst.pendingFlows
    ({ inst with pendingFlows := rest }, .flows batch)
  | .pollLogs out max =>
    let (batch, rest) := poll out max inst.pendingLogs
    ({ inst with pendingLogs := rest }, .logs batch)

/-- The instance after the calls, with what each of them handed out. -/
def run : WirewolfInstance → List Call → WirewolfInstance × List Output
  | inst, [] => (inst, [])
  | inst, c :: cs =>
    let (inst', o) := inst.step c
    let (last, os) := run inst' cs
    (last, o :: os)

/-! ## A queue and its own calls -/

/-- One of the queues: its content, what a call does to it, and what an
output carries from it. -/
structure View (α : Type) where
  pending : WirewolfInstance → List α
  op : Call → Option (Op α)
  batch : Output → Option (List α)

def alertView : View WirewolfAlert where
  pending := WirewolfInstance.pendingAlerts
  op
    | .alert a ms => some (.post (convertAlert a ms))
    | .pollAlerts out max => some (.collect (limit out max))
    | _ => none
  batch
    | .alerts b => some b
    | _ => none

def flowView : View WirewolfFlowEvent where
  pending := WirewolfInstance.pendingFlows
  op
    | .flowEvent ev ms => some (.post (convertFlowEvent ev ms))
    | .pollFlowEvents out max => some (.collect (limit out max))
    | _ => none
  batch
    | .flows b => some b
    | _ => none

def logView : View WirewolfLogEntry where
  pending := WirewolfInstance.pendingLogs
  op
    | .log level component message => some (.post (convertLog level component message))
    | .pollLogs out max => some (.collect (limit out max))
    | _ => none
  batch
    | .logs b => some b
    | _ => none

namespace View

variable {α : Type} (V : View α)

/-- The calls on the queue, in order. -/
def ops (cs : List Call) : List (Op α) := cs.filterMap V.op

/-- The delivered items, in order. -/
def delivered (cs : List Call) : List α := posted (V.ops cs)

/-- The batches handed out by a run on a new instance. -/
def batches (cs : List Call) : List (List α) := (run {} cs).2.filterMap V.batch

/-- What the queue still holds then. -/
def left (cs : List Call) : List α := V.pending (run {} cs).1

/-- The queue when every delivered item carries its number. -/
def numbered (cs : List Call) : Box (α × Nat) := Mailbox.run maxQueue (Mailbox.number 0 (V.ops cs))

/-- A call is an operation of a bounded mailbox, or does not touch the queue. -/
structure Lawful : Prop where
  init : V.pending {} = []
  other : ∀ inst c, V.op c = none →
    V.pending (inst.step c).1 = V.pending inst ∧ V.batch (inst.step c).2 = none
  post : ∀ inst c x, V.op c = some (.post x) →
    V.pending (inst.step c).1 = pushBounded (V.pending inst) x ∧ V.batch (inst.step c).2 = none
  collect : ∀ inst c n, V.op c = some (.collect n) →
    V.pending (inst.step c).1 = (V.pending inst).drop n ∧
      V.batch (inst.step c).2 = some ((V.pending inst).take n)

variable {V}

theorem Lawful.refines_from (hV : V.Lawful) (cs : List Call) (inst : WirewolfInstance) (b : Box α)
    (hb : b.pending = V.pending inst) :
    let b' := (V.ops cs).foldl (Box.step maxQueue) b
    b'.pending = V.pending (run inst cs).1 ∧
      b'.batches.map Prod.snd = b.batches.map Prod.snd ++ (run inst cs).2.filterMap V.batch := by
  induction cs generalizing inst b with
  | nil => exact ⟨hb, (List.append_nil _).symm⟩
  | cons c cs ih =>
    cases hop : V.op c with
    | none =>
      obtain ⟨hp, ho⟩ := hV.other inst c hop
      have h := ih (inst.step c).1 b (hb.trans hp.symm)
      simpa only [ops, run, List.filterMap_cons, hop, ho] using h
    | some op =>
      cases op with
      | post x =>
        obtain ⟨hp, ho⟩ := hV.post inst c x hop
        have h := ih (inst.step c).1 (b.step maxQueue (.post x)) (by rw [hp, ← hb]; rfl)
        simpa only [ops, run, List.filterMap_cons, List.foldl_cons, hop, ho, Mailbox.batches_post]
          using h
      | collect n =>
        obtain ⟨hp, ho⟩ := hV.collect inst c n hop
        have h := ih (inst.step c).1 (b.step maxQueue (.collect n)) (by rw [hp, ← hb]; rfl)
        refine ⟨by simpa only [ops, run, List.filterMap_cons, List.foldl_cons, hop] using h.1, ?_⟩
        simp only [ops, run, List.filterMap_cons, List.foldl_cons, hop, ho]
        refine h.2.trans ?_
        rw [Box.step, List.map_append, List.append_assoc, hb]
        rfl

/-- A run on a new instance does to the queue what the mailbox does. -/
theorem Lawful.refines (hV : V.Lawful) (cs : List Call) :
    (Mailbox.run maxQueue (V.ops cs)).pending = V.left cs ∧
      (Mailbox.run maxQueue (V.ops cs)).batches.map Prod.snd = V.batches cs :=
  hV.refines_from cs {} {} hV.init.symm

theorem Lawful.numbered_fst (hV : V.Lawful) (cs : List Call) :
    (V.numbered cs).pending.map Prod.fst = V.left cs ∧
      ((V.numbered cs).batches.map fun p => p.2.map Prod.fst) = V.batches cs := by
  obtain ⟨hp, hb⟩ := hV.refines cs
  have h := Mailbox.run_number maxQueue 0 (V.ops cs)
  constructor
  · rw [← hp, ← h]; rfl
  · rw [← hb, ← h, Box.map, List.map_map]; rfl

/-- What a queue owes to the application after the calls. Deliveries are
numbered, so equal items count apart: `order` lets each be handed out or
pending once at most. -/
structure Accounts (V : View α) (cs : List Call) : Prop where
  bounded : (V.left cs).length ≤ maxQueue
  batch : ∀ (inst : WirewolfInstance) c n, V.op c = some (.collect n) →
    ∃ b, V.batch (inst.step c).2 = some b ∧ b.length ≤ n
  order : (V.batches cs).flatten ++ V.left cs <+ V.delivered cs
  numbered : (V.numbered cs).pending.map Prod.fst = V.left cs ∧
    ((V.numbered cs).batches.map fun p => p.2.map Prod.fst) = V.batches cs
  numbers : (V.numbered cs).held <+ (V.delivered cs).zipIdx
  missing : ∀ e ∈ (V.delivered cs).zipIdx, e ∉ (V.numbered cs).held →
    ∃ pre c rest x, cs = pre ++ c :: rest ∧ V.op c = some (.post x) ∧
      maxQueue < (V.left pre ++ [x]).length ∧
      ((V.numbered pre).pending ++ [(x, (V.delivered pre).length)]).head? = some e

/-- A delivery of the queue's operations is one of the calls. -/
theorem ops_eq_append_post {cs : List Call} {ops₁ ops₂ : List (Op α)} {x : α}
    (h : V.ops cs = ops₁ ++ .post x :: ops₂) :
    ∃ pre c rest, cs = pre ++ c :: rest ∧ V.op c = some (.post x) ∧ V.ops pre = ops₁ := by
  obtain ⟨pre, suf, rfl, hpre, hsuf⟩ := List.filterMap_eq_append_iff.1 h
  obtain ⟨skip, c, rest, rfl, hskip, hc, -⟩ := List.filterMap_eq_cons_iff.1 hsuf
  refine ⟨pre ++ skip, c, rest, by simp, hc, ?_⟩
  rw [ops, List.filterMap_append, hpre, List.filterMap_eq_nil_iff.2 hskip, List.append_nil]

theorem Lawful.accounts (hV : V.Lawful) (cs : List Call) : Accounts V cs where
  bounded := by
    rw [← (hV.refines cs).1]
    exact Mailbox.pending_length _ _
  batch inst c n h := ⟨_, (hV.collect inst c n h).2, List.length_take_le _ _⟩
  order := by
    have h := Mailbox.held_sublist maxQueue (V.ops cs)
    rwa [Box.held, Box.collected, (hV.refines cs).2, (hV.refines cs).1] at h
  numbered := hV.numbered_fst cs
  numbers := by
    have h := Mailbox.held_sublist maxQueue (Mailbox.number 0 (V.ops cs))
    rwa [Mailbox.posted_number] at h
  missing e he hn := by
    rw [delivered, ← Mailbox.posted_number] at he
    obtain ⟨pre', y, rest', hsplit, hlt, hhead⟩ := Mailbox.lost maxQueue _ he hn
    obtain ⟨ops₁, ops₂, hops, rfl, hnum⟩ := Mailbox.number_eq_append_post hsplit
    obtain ⟨pre, c, rest, rfl, hc, rfl⟩ := ops_eq_append_post hops
    have hy : y = (y.1, (V.delivered pre).length) := Prod.ext rfl (hnum.trans (Nat.zero_add _))
    refine ⟨pre, c, rest, y.1, rfl, hc, ?_, ?_⟩
    · rw [← (hV.numbered_fst pre).1]
      simpa [numbered] using hlt
    · rw [← hy]; exact hhead

end View

theorem alertView_lawful : alertView.Lawful where
  init := rfl
  other inst c h := by cases c <;> first | exact ⟨rfl, rfl⟩ | cases h
  post inst c x h := by cases c <;> cases h; exact ⟨rfl, rfl⟩
  collect inst c n h := by
    cases c <;> cases h
    simp only [WirewolfInstance.step, poll_eq]
    exact ⟨rfl, rfl⟩

theorem flowView_lawful : flowView.Lawful where
  init := rfl
  other inst c h := by cases c <;> first | exact ⟨rfl, rfl⟩ | cases h
  post inst c x h := by cases c <;> cases h; exact ⟨rfl, rfl⟩
  collect inst c n h := by
    cases c <;> cases h
    simp only [WirewolfInstance.step, poll_eq]
    exact ⟨rfl, rfl⟩

theorem logView_lawful : logView.Lawful where
  init := rfl
  other inst c h := by cases c <;> first | exact ⟨rfl, rfl⟩ | cases h
  post inst c x h := by cases c <;> cases h; exact ⟨rfl, rfl⟩
  collect inst c n h := by
    cases c <;> cases h
    simp only [WirewolfInstance.step, poll_eq]
    exact ⟨rfl, rfl⟩

theorem limit_le (out : Bool) (m : Int) : (limit out m : Int) ≤ max 0 m := by
  unfold limit
  split <;> omega

/-- In any interleaving of deliveries and polls, each of the three queues
hands out and keeps its deliveries in order, each at most once and no more
than asked for, and loses one only as the oldest beyond the bound. -/
theorem polling_accounts (cs : List Call) :
    alertView.Accounts cs ∧ flowView.Accounts cs ∧ logView.Accounts cs ∧
      ∀ out m, (limit out m : Int) ≤ max 0 m :=
  ⟨alertView_lawful.accounts cs, flowView_lawful.accounts cs, logView_lawful.accounts cs, limit_le⟩

end Wirewolf.L5.Polling
