import Wirewolf.Core.LTS
import Wirewolf.L4Filter.Worker
import Wirewolf.L5Pipeline.Queue

/-!
# The offline pipeline (`PipelineController::pipeline_thread_func`)

Four threads over two queues: the reassembler pushes to `q1` and, when the
capture ends, sets `captureFinished`; the filter takes from `q1`, decides
with `stage` and pushes to `q2`; the LLM stage takes from `q2`; the monitor
samples the depths one after the other, reads `captureFinished`, and after
its loop tears the pipeline down. A step is one atomic section of one of
them, so a label says which thread moves. `stop()` is never called and
nothing throws.

The lists at the end of `State` are a record of what happened: flows pushed
by the reassembler, flows the filter and the LLM stage are done with, flows
the filter passed, flows that left a queue by being dropped.
-/
namespace Wirewolf.L5.Offline

open Wirewolf.L5.Queue

/-- The reassembler thread; `exited` once `capture_finished_` is set.
mirrors src/src/pipeline_controller.cpp:236-240 -/
inductive ReassemblerThread (α : Type) where
  | running
  | pushing (x : α)
  | returned
  | exited

/-- The filter's loop: before its test of `running`, in `pop`, with a flow in
hand, waiting in the push of `y` (the tagged flow of `x`), or left.
mirrors src/src/npu_filter.cpp:812-818 -/
inductive FilterThread (α : Type) where
  | top
  | popping
  | handling (x : α)
  | pushing (x y : α) (priority : Nat)
  | exited

/-- mirrors src/src/llm_inference.cpp:1284-1289 -/
inductive LlmThread (α : Type) where
  | top
  | popping
  | handling (x : α)
  | exited

/-- The monitor: the loop with the depths sampled so far, the two seconds'
grace, and the teardown, each named after what comes next.
mirrors src/src/pipeline_controller.cpp:245-342 -/
inductive Monitor where
  | sleeping
  | sampled (depth1 : Nat)
  | sampledBoth (depth1 depth2 : Nat)
  | grace
  | unblocking1
  | unblocking2
  | joiningCapture
  | finishing1
  | stoppingFilter
  | joiningFilter
  | finishing2
  | stoppingLlm
  | joiningLlm
  | stopped
  deriving DecidableEq

/-- How far the monitor is past its loop. -/
def Monitor.rank : Monitor → Nat
  | .sleeping | .sampled _ | .sampledBoth _ _ => 0
  | .grace => 1
  | .unblocking1 => 2
  | .unblocking2 => 3
  | .joiningCapture => 4
  | .finishing1 => 5
  | .stoppingFilter => 6
  | .joiningFilter => 7
  | .finishing2 => 8
  | .stoppingLlm => 9
  | .joiningLlm => 10
  | .stopped => 11

structure State (α σ : Type) where
  q1 : ThreadSafeQueue α
  q2 : ThreadSafeQueue α
  reassembler : ReassemblerThread α := .running
  captureFinished : Bool := false
  filter : FilterThread α := .top
  filterRunning : Bool := true
  filterState : σ
  llm : LlmThread α := .top
  llmRunning : Bool := true
  monitor : Monitor := .sleeping
  pushed : List α := []
  handledF : List α := []
  passed : List α := []
  handledL : List α := []
  lost1 : List α := []
  lost2 : List α := []

/-- Whose section is next; `rPush` brings the flow that the reassembler pushes. -/
inductive Label (α : Type) where
  | rPush (x : α)
  | rWake
  | rReturn
  | rFlag
  | fTest
  | fPop
  | fHandle
  | fWake
  | lTest
  | lPop
  | lDone
  | monitor

variable {α σ : Type}

/-- Both queues are set to block before the threads start.
mirrors src/src/pipeline_controller.cpp:130-153,233-236 -/
def start (capacity : Nat) (w : σ) : State α σ where
  q1 := { maxCapacity := capacity, blocking := true }
  q2 := { maxCapacity := capacity, blocking := true }
  filterState := w

namespace State

variable (s : State α σ)

/-! ## The reassembler -/

/-- `output_queue.push(flow)`, with priority 0. -/
def rPush (x : α) : Option (State α σ) :=
  match s.reassembler with
  | .running =>
    let r := s.q1.pushEnter 0 x
    let s := { s with q1 := r.1, pushed := x :: s.pushed }
    match r.2 with
    | .stored => some s
    | .waits => some { s with reassembler := .pushing x }
    | .dropped z => some { s with lost1 := z :: s.lost1 }
  | _ => none

def rWake : Option (State α σ) :=
  match s.reassembler with
  | .pushing x => (s.q1.pushWake 0 x).map fun r =>
    let s := { s with q1 := r.1, reassembler := .running }
    match r.2 with
    | .dropped z => { s with lost1 := z :: s.lost1 }
    | _ => s
  | _ => none

def rReturn : Option (State α σ) :=
  match s.reassembler with
  | .running => some { s with reassembler := .returned }
  | _ => none

def rFlag : Option (State α σ) :=
  match s.reassembler with
  | .returned => some { s with reassembler := .exited, captureFinished := true }
  | _ => none

/-! ## The filter -/

def fTest : Option (State α σ) :=
  match s.filter with
  | .top => some { s with filter := if s.filterRunning then .popping else .exited }
  | _ => none

def fPop : Option (State α σ) :=
  match s.filter with
  | .popping => s.q1.pop.map fun r =>
    { s with q1 := r.2, filter := match r.1 with | some x => .handling x | none => .top }
  | _ => none

/-- The rest of the loop body, up to the end of the push or to its wait. -/
def fHandle (stage : σ → α → σ × α × Option Nat) : Option (State α σ) :=
  match s.filter with
  | .handling x =>
    let o := stage s.filterState x
    let s := { s with filterState := o.1 }
    match o.2.2 with
    | none => some { s with filter := .top, handledF := x :: s.handledF }
    | some p =>
      let r := s.q2.pushEnter p o.2.1
      let s := { s with q2 := r.1, passed := o.2.1 :: s.passed }
      match r.2 with
      | .stored => some { s with filter := .top, handledF := x :: s.handledF }
      | .waits => some { s with filter := .pushing x o.2.1 p }
      | .dropped z =>
        some { s with filter := .top, handledF := x :: s.handledF, lost2 := z :: s.lost2 }
  | _ => none

def fWake : Option (State α σ) :=
  match s.filter with
  | .pushing x y p => (s.q2.pushWake p y).map fun r =>
    let s := { s with q2 := r.1, filter := .top, handledF := x :: s.handledF }
    match r.2 with
    | .dropped z => { s with lost2 := z :: s.lost2 }
    | _ => s
  | _ => none

/-! ## The LLM stage -/

def lTest : Option (State α σ) :=
  match s.llm with
  | .top => some { s with llm := if s.llmRunning then .popping else .exited }
  | _ => none

def lPop : Option (State α σ) :=
  match s.llm with
  | .popping => s.q2.pop.map fun r =>
    { s with q2 := r.2, llm := match r.1 with | some x => .handling x | none => .top }
  | _ => none

def lDone : Option (State α σ) :=
  match s.llm with
  | .handling x => some { s with llm := .top, handledL := x :: s.handledL }
  | _ => none

/-! ## The monitor -/

/-- The decision at the end of a round of the loop.
mirrors src/src/pipeline_controller.cpp:290-300 -/
def autoStop (depth1 depth2 : Nat) : Bool := s.captureFinished && depth1 = 0 && depth2 = 0

/-- The monitor's next section; a join is possible once its thread has left.
`reassembler_->stop()`, the first call of the teardown, changes nothing: its
thread has returned.
mirrors src/src/pipeline_controller.cpp:245-342 -/
def monitorStep : Option (State α σ) :=
  match s.monitor with
  | .sleeping => some { s with monitor := .sampled s.q1.size }
  | .sampled d₁ => some { s with monitor := .sampledBoth d₁ s.q2.size }
  | .sampledBoth d₁ d₂ =>
    some { s with monitor := if s.autoStop d₁ d₂ then .grace else .sleeping }
  | .grace => some { s with monitor := .unblocking1 }
  | .unblocking1 => some { s with monitor := .unblocking2, q1 := s.q1.setBlocking false }
  | .unblocking2 => some { s with monitor := .joiningCapture, q2 := s.q2.setBlocking false }
  | .joiningCapture =>
    match s.reassembler with
    | .exited => some { s with monitor := .finishing1 }
    | _ => none
  | .finishing1 => some { s with monitor := .stoppingFilter, q1 := s.q1.finish }
  | .stoppingFilter => some { s with monitor := .joiningFilter, filterRunning := false }
  | .joiningFilter =>
    match s.filter with
    | .exited => some { s with monitor := .finishing2 }
    | _ => none
  | .finishing2 => some { s with monitor := .stoppingLlm, q2 := s.q2.finish }
  | .stoppingLlm => some { s with monitor := .joiningLlm, llmRunning := false }
  | .joiningLlm =>
    match s.llm with
    | .exited => some { s with monitor := .stopped }
    | _ => none
  | .stopped => none

def step (stage : σ → α → σ × α × Option Nat) (s : State α σ) : Label α → Option (State α σ)
  | .rPush x => s.rPush x
  | .rWake => s.rWake
  | .rReturn => s.rReturn
  | .rFlag => s.rFlag
  | .fTest => s.fTest
  | .fPop => s.fPop
  | .fHandle => s.fHandle stage
  | .fWake => s.fWake
  | .lTest => s.lTest
  | .lPop => s.lPop
  | .lDone => s.lDone
  | .monitor => s.monitorStep

end State

/-- The pipeline, for any filter stage and any queue capacity. -/
def offline (stage : σ → α → σ × α × Option Nat) : LTS (State α σ) (Label α) :=
  .ofFn (fun s => ∃ capacity w, s = start capacity w) (State.step stage)

/-- The filter stage of the program: the flow as it is pushed, and its
priority if it is. -/
def npuFilter (e : L4.Worker.Env) (w : L4.Worker.State) (flow : L1.IpPacket.FlowData) :
    L4.Worker.State × L1.IpPacket.FlowData × Option Nat :=
  let r := L4.Worker.handle e w flow
  (r.1, r.2.flow, r.2.pushed)

end Wirewolf.L5.Offline
