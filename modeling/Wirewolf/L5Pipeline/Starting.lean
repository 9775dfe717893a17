import Mathlib.Logic.Function.Basic
import Wirewolf.Core.LTS
import Wirewolf.L1Encoding.Config

/-!
# Starting a pipeline (`pipeline_controller.cpp`)

Any number of callers in `PipelineController::start` on one controller, each
call in four atomic steps: `check` is the locked look at the state, `enter`
the resets and `set_state(Starting)`, `join` the blocking join of the
previous thread, `launch` the new thread and its move into
`pipeline_thread_`. The pipelines' own threads step in between. A thread
always gets created; `std::thread` calls `std::terminate` when a thread is
moved over a joinable one, by then the new thread runs.

* `step_held`: the pipelines that are not in `pipeline_thread_` have ended,
  as long as the process lives.
* `exclusive_iff`: one pipeline at a time, exactly in the schedules in which
  a join stands between any two launches.
-/
namespace Wirewolf.L5.Starting

open Wirewolf.L1.Config

/-- mirrors src/include/wirewolf_types.hpp:373 -/
inductive PipelineState where
  | stopped | starting | running | stopping | error
  deriving DecidableEq

/-- The last state a pipeline's thread has set, and whether it has returned. -/
inductive Phase where
  | starting | running | stopping | stopped | error | exited
  deriving DecidableEq

structure Pipeline where
  config : WirewolfConfig
  phase : Phase := .starting

/-- It has not reached `Stopped` or `Error`. -/
def Pipeline.live (pl : Pipeline) : Bool :=
  match pl.phase with
  | .starting | .running | .stopping => true
  | .stopped | .error | .exited => false

/-- Where a caller stands; a returned call keeps the pipeline it launched. -/
inductive Pc where
  | idle
  | checked (config : WirewolfConfig)
  | entered (config : WirewolfConfig)
  | joined (config : WirewolfConfig)
  | returned (result : Bool) (launched : Option Nat)

/-- The controller, the pipelines launched on it and its callers; a pipeline
is named by its number.
mirrors src/include/pipeline_controller.hpp:17-84 -/
structure World where
  state : PipelineState := .stopped
  shutdownRequested : Bool := false
  alertsFired : Nat := 0
  pipelineThread : Option Nat := none
  pipelines : List Pipeline := []
  callers : Nat → Pc := fun _ => .idle
  terminated : Bool := false

/-- What the thread of a pipeline does that others see. -/
inductive PipelineStep where
  | run | fire | stopping | stopped | fail | exit
  deriving DecidableEq

inductive Label where
  | check (i : Nat) (config : WirewolfConfig)
  | enter (i : Nat)
  | join (i : Nat)
  | launch (i : Nat)
  | pipeline (p : Nat) (e : PipelineStep)
  | stop

namespace World

variable (s : World)

def goto (i : Nat) (pc : Pc) : World := { s with callers := Function.update s.callers i pc }

/-- mirrors src/src/pipeline_controller.cpp:38-42 -/
def check (i : Nat) (config : WirewolfConfig) : Option World :=
  match s.callers i with
  | .idle | .returned _ _ =>
    if s.state ≠ .stopped ∧ s.state ≠ .error then some (s.goto i (.returned false none))
    else some (s.goto i (.checked config))
  | _ => none

/-- mirrors src/src/pipeline_controller.cpp:44-49 -/
def enter (i : Nat) : Option World :=
  match s.callers i with
  | .checked config =>
    if !config.valid then some (s.goto i (.returned false none))
    else
      some { s.goto i (.entered config) with
             shutdownRequested := false, alertsFired := 0, state := .starting }
  | _ => none

/-- Blocks until the thread has returned.
mirrors src/src/pipeline_controller.cpp:52-53 -/
def join (i : Nat) : Option World :=
  match s.callers i with
  | .entered config =>
    match s.pipelineThread with
    | none => some (s.goto i (.joined config))
    | some p =>
      if (s.pipelines[p]?).any (·.phase = .exited) then
        some { s.goto i (.joined config) with pipelineThread := none }
      else none
  | _ => none

/-- mirrors src/src/pipeline_controller.cpp:55-57 -/
def launch (i : Nat) : Option World :=
  match s.callers i with
  | .joined config =>
    let t : World := { s with pipelines := s.pipelines ++ [{ config := config }] }
    if s.pipelineThread.isSome then some { t with terminated := true }
    else
      some { t.goto i (.returned true (some s.pipelines.length)) with
             pipelineThread := some s.pipelines.length }
  | _ => none

/-- The thread function, from one `set_state` to the next. The monitor loop
ends on a shutdown request, or by itself for a capture file.
mirrors src/src/pipeline_controller.cpp:126-361 -/
def pipelineStep (p : Nat) (e : PipelineStep) : Option World :=
  match s.pipelines[p]? with
  | none => none
  | some pl =>
    let moved (phase : Phase) : World :=
      { s with pipelines := s.pipelines.set p { pl with phase := phase } }
    match e, pl.phase with
    | .run, .starting => some { moved .running with state := .running }
    | .fire, .running => some { s with alertsFired := s.alertsFired + 1 }
    | .stopping, .running =>
      if s.shutdownRequested || pl.config.isOfflineCapture then
        some { moved .stopping with state := .stopping }
      else none
    | .stopped, .stopping => some { moved .stopped with state := .stopped }
    | .fail, .starting | .fail, .running | .fail, .stopping =>
      some { moved .error with state := .error }
    | .exit, .stopped | .exit, .error => some (moved .exited)
    | _, _ => none

def act : Label → Option World
  | .check i config => s.check i config
  | .enter i => s.enter i
  | .join i => s.join i
  | .launch i => s.launch i
  | .pipeline p e => s.pipelineStep p e
  | .stop => some { s with shutdownRequested := true }

/-- Nothing acts in a process that is gone. -/
def step (l : Label) : Option World := if s.terminated then none else s.act l

/-- Pipeline `p` has been launched and runs. -/
def Live (p : Nat) : Prop := ∃ pl, s.pipelines[p]? = some pl ∧ pl.live = true

/-- The thread of every pipeline has returned, but for the one that
`pipeline_thread_` holds. -/
def Held : Prop :=
  ∀ p pl, s.pipelines[p]? = some pl → pl.phase = .exited ∨ s.pipelineThread = some p

/-- A controller in the state `Stopped` that nobody is starting: what it ran
before has ended, and all but the last of it has been joined. -/
structure Stopped : Prop where
  state : s.state = .stopped
  alive : s.terminated = false
  idle : ∀ i, s.callers i = .idle
  ended : ∀ p, ¬ s.Live p
  held : s.Held

/-- One pipeline at a time: at most one is live, at most one call that has
returned true owns a live one, a call that returns false has launched
nothing, and no call ends otherwise than by returning. -/
structure Exclusive : Prop where
  single : ∀ p q, s.Live p → s.Live q → p = q
  owner : ∀ i j p q, s.callers i = .returned true (some p) → s.callers j = .returned true (some q) →
    s.Live p → s.Live q → i = j
  refused : ∀ i launched, s.callers i = .returned false launched → launched = none
  alive : s.terminated = false

end World

def system : LTS World Label := .ofFn World.Stopped World.step

/-- A join stands between any two launches; `armed` tells that a launch is
waiting for its join. -/
def separated : Bool → List Label → Bool
  | _, [] => true
  | armed, .launch _ :: ls => !armed && separated true ls
  | _, .join _ :: ls => separated false ls
  | armed, _ :: ls => separated armed ls

/-! ## What a step changes -/

namespace World

variable {s s' : World}

/-- What the calls own: a launched pipeline belongs to one call, which has
returned true. -/
structure Owned (s : World) : Prop where
  owns : ∀ i b p, s.callers i = .returned b (some p) → b = true ∧ p < s.pipelines.length
  distinct : ∀ i j p b b', s.callers i = .returned b (some p) → s.callers j =
    .returned b' (some p) →
    i = j

theorem goto_self (s : World) (i : Nat) (pc : Pc) : (s.goto i pc).callers i = pc :=
  Function.update_self ..

theorem goto_other (s : World) {i j : Nat} (pc : Pc) (h : j ≠ i) :
    (s.goto i pc).callers j = s.callers j := Function.update_of_ne h ..

/-- A caller that moves on without a pipeline owns none. -/
theorem Owned.goto (h : s.Owned) (i : Nat) {pc : Pc} (hpc : ∀ b p, pc ≠ .returned b (some p)) :
    (s.goto i pc).Owned := by
  have hold : ∀ j b p, (s.goto i pc).callers j = .returned b (some p) →
      s.callers j = .returned b (some p) := by
    intro j b p hj
    by_cases hji : j = i
    · subst hji
      rw [goto_self] at hj
      exact absurd hj (hpc b p)
    · rwa [goto_other _ _ hji] at hj
  exact ⟨fun j b p hj => h.owns j b p (hold j b p hj),
    fun j k p b b' hj hk => h.distinct j k p b b' (hold j b p hj) (hold k b' p hk)⟩

theorem check_cases {i : Nat} {config : WirewolfConfig} (h : s.check i config = some s') :
    s' = s.goto i (.returned false none) ∨ s' = s.goto i (.checked config) := by
  unfold check at h
  split at h
  · split at h
    · exact .inl (Option.some.inj h).symm
    · exact .inr (Option.some.inj h).symm
  · split at h
    · exact .inl (Option.some.inj h).symm
    · exact .inr (Option.some.inj h).symm
  · cases h

theorem enter_cases {i : Nat} (h : s.enter i = some s') :
    s' = s.goto i (.returned false none) ∨
      ∃ config, s' = { s.goto i (.entered config) with
        shutdownRequested := false, alertsFired := 0, state := .starting } := by
  unfold enter at h
  split at h
  · split at h
    · exact .inl (Option.some.inj h).symm
    · exact .inr ⟨_, (Option.some.inj h).symm⟩
  · cases h

theorem join_cases {i : Nat} (h : s.join i = some s') :
    (∀ p, s.pipelineThread = some p → ∃ pl, s.pipelines[p]? = some pl ∧ pl.phase = .exited) ∧
      ∃ config, s' = { s.goto i (.joined config) with pipelineThread := none } := by
  unfold join at h
  split at h
  · next config _ =>
    split at h
    · next hnone =>
      refine ⟨fun p hp => absurd (hnone.symm.trans hp) (Option.some_ne_none p).symm, config, ?_⟩
      rw [← hnone]
      exact (Option.some.inj h).symm
    · next p hp =>
      split at h
      · next hex =>
        refine ⟨fun q hq => ?_, config, (Option.some.inj h).symm⟩
        cases hp.symm.trans hq
        obtain ⟨pl, hpl, hphase⟩ := (Option.any_eq_true _ _).1 hex
        exact ⟨pl, hpl, of_decide_eq_true hphase⟩
      · cases h
  · cases h

/-- A launched thread runs; over a joinable one the process ends. -/
theorem launch_cases {i : Nat} (h : s.launch i = some s') :
    (∃ config, s'.pipelines = s.pipelines ++ [{ config := config }]) ∧
      ((s.pipelineThread.isSome = true ∧ s'.terminated = true ∧ s'.callers = s.callers) ∨
        (s.pipelineThread = none ∧ s'.terminated = s.terminated ∧
          s'.pipelineThread = some s.pipelines.length ∧
          s'.callers = Function.update s.callers i
            (.returned true (some s.pipelines.length)))) := by
  unfold launch at h
  split at h
  · next config _ =>
    dsimp only at h
    split at h
    · next hsome =>
      obtain rfl := Option.some.inj h
      exact ⟨⟨config, rfl⟩, .inl ⟨hsome, rfl, rfl⟩⟩
    · next hnone =>
      obtain rfl := Option.some.inj h
      exact ⟨⟨config, rfl⟩, .inr ⟨by simpa using hnone, rfl, rfl, rfl⟩⟩
  · cases h

/-- A pipeline's thread changes its own phase, and only while it has not
returned. -/
theorem pipelineStep_cases {p : Nat} {e : PipelineStep} (h : s.pipelineStep p e = some s') :
    s'.callers = s.callers ∧ s'.pipelineThread = s.pipelineThread ∧
      s'.terminated = s.terminated ∧ ∃ pl phase, s.pipelines[p]? = some pl ∧ pl.phase ≠ .exited ∧
        s'.pipelines = s.pipelines.set p { pl with phase := phase } := by
  unfold pipelineStep at h
  split at h
  · cases h
  next pl hpl =>
  have hmoved : ∀ (phase : Phase) (state : PipelineState), pl.phase ≠ .exited →
      { s with pipelines := s.pipelines.set p { pl with phase := phase }, state := state } = s' →
      s'.callers = s.callers ∧ s'.pipelineThread = s.pipelineThread ∧
        s'.terminated = s.terminated ∧ ∃ pl phase, s.pipelines[p]? = some pl ∧ pl.phase ≠ .exited ∧
          s'.pipelines = s.pipelines.set p { pl with phase := phase } := by
    intro phase state hne hs
    subst hs
    exact ⟨rfl, rfl, rfl, pl, phase, hpl, hne, rfl⟩
  have hne : ∀ {phase : Phase}, pl.phase = phase → phase ≠ .exited → pl.phase ≠ .exited :=
    fun hp hn => hp ▸ hn
  dsimp only at h
  split at h
  · next hp => exact hmoved _ _ (hne hp (by decide)) (Option.some.inj h)
  · next hp =>
    -- the counter alone: the phase is set to what it is
    obtain rfl := Option.some.inj h
    refine ⟨rfl, rfl, rfl, pl, pl.phase, hpl, hne hp (by decide), ?_⟩
    obtain ⟨hlt, rfl⟩ := List.getElem?_eq_some_iff.1 hpl
    exact (List.set_getElem_self hlt).symm
  · next hp =>
    split at h
    · exact hmoved _ _ (hne hp (by decide)) (Option.some.inj h)
    · cases h
  · next hp => exact hmoved _ _ (hne hp (by decide)) (Option.some.inj h)
  · next hp => exact hmoved _ _ (hne hp (by decide)) (Option.some.inj h)
  · next hp => exact hmoved _ _ (hne hp (by decide)) (Option.some.inj h)
  · next hp => exact hmoved _ _ (hne hp (by decide)) (Option.some.inj h)
  · next hp => exact hmoved _ _ (hne hp (by decide)) (Option.some.inj h)
  · next hp => exact hmoved _ _ (hne hp (by decide)) (Option.some.inj h)
  · cases h

/-! ## Invariants -/

theorem step_act {l : Label} (h : s.step l = some s') :
    s.terminated = false ∧ s.act l = some s' := by
  unfold step at h
  split at h
  · cases h
  · next ht => exact ⟨by simpa using ht, h⟩

/-- While the process lives, every thread but the held one has returned. -/
theorem step_held {l : Label} (hs : s.Held) (h : s.step l = some s') (ht : s'.terminated = false) :
    s'.Held := by
  replace h := (step_act h).2
  cases l with
  | check i config =>
    rcases check_cases h with rfl | rfl
    · exact hs
    · exact hs
  | enter i =>
    rcases enter_cases h with rfl | ⟨config, rfl⟩
    · exact hs
    · exact hs
  | join i =>
    obtain ⟨hex, config, rfl⟩ := join_cases h
    intro p pl hpl
    rcases hs p pl hpl with hp | hp
    · exact .inl hp
    · obtain ⟨pl', hpl', hphase⟩ := hex p hp
      cases hpl.symm.trans hpl'
      exact .inl hphase
  | launch i =>
    obtain ⟨⟨config, hpls⟩, ⟨-, hterm, -⟩ | ⟨hnone, -, hthread, -⟩⟩ := launch_cases h
    · rw [hterm] at ht; cases ht
    · intro p pl hpl
      rw [hpls] at hpl
      rw [hthread]
      rcases Nat.lt_or_ge p s.pipelines.length with hlt | hge
      · rw [List.getElem?_append_left hlt] at hpl
        rcases hs p pl hpl with hp | hp
        · exact .inl hp
        · rw [hnone] at hp; cases hp
      · obtain ⟨hlt, -⟩ := List.getElem?_eq_some_iff.1 hpl
        rw [List.length_append, List.length_singleton] at hlt
        exact .inr (congrArg some (by omega))
  | pipeline p e =>
    obtain ⟨-, hthread, -, pl, phase, hpl, hne, hpls⟩ := pipelineStep_cases h
    intro q pl' hpl'
    rw [hthread]
    rw [hpls, List.getElem?_set] at hpl'
    split at hpl'
    · next hpq =>
      subst hpq
      exact .inr ((hs p pl hpl).resolve_left hne)
    · exact hs q pl' hpl'
  | stop =>
    obtain rfl := Option.some.inj h
    exact hs

theorem step_owned {l : Label} (hs : s.Owned) (h : s.step l = some s') : s'.Owned := by
  replace h := (step_act h).2
  cases l with
  | check i config =>
    rcases check_cases h with rfl | rfl
    · exact hs.goto i fun b p hp => by cases hp
    · exact hs.goto i fun b p hp => by cases hp
  | enter i =>
    rcases enter_cases h with rfl | ⟨config, rfl⟩
    · exact hs.goto i fun b p hp => by cases hp
    · have hgoto : (s.goto i (.entered config)).Owned := hs.goto i fun b p hp => by cases hp
      exact ⟨hgoto.owns, hgoto.distinct⟩
  | join i =>
    obtain ⟨-, config, rfl⟩ := join_cases h
    have hgoto : (s.goto i (.joined config)).Owned := hs.goto i fun b p hp => by cases hp
    exact ⟨hgoto.owns, hgoto.distinct⟩
  | launch i =>
    obtain ⟨⟨config, hpls⟩, ⟨-, -, hcallers⟩ | ⟨-, -, -, hcallers⟩⟩ := launch_cases h
    · refine ⟨fun j b p hj => ?_, fun j k p b b' hj hk => ?_⟩
      · rw [hcallers] at hj
        rw [hpls, List.length_append]
        exact ⟨(hs.owns j b p hj).1, Nat.lt_add_right _ (hs.owns j b p hj).2⟩
      · rw [hcallers] at hj hk
        exact hs.distinct j k p b b' hj hk
    -- the new pipeline belongs to `i` and has a new number
    · have hnew : ∀ j b p, s'.callers j = .returned b (some p) →
          (j = i ∧ b = true ∧ p = s.pipelines.length) ∨ s.callers j = .returned b (some p) := by
        intro j b p hj
        rw [hcallers] at hj
        by_cases hji : j = i
        · subst hji
          rw [Function.update_self] at hj
          cases hj
          exact .inl ⟨rfl, rfl, rfl⟩
        · rw [Function.update_of_ne hji] at hj
          exact .inr hj
      refine ⟨fun j b p hj => ?_, fun j k p b b' hj hk => ?_⟩
      · rw [hpls, List.length_append, List.length_singleton]
        rcases hnew j b p hj with ⟨-, hb, rfl⟩ | hold
        · exact ⟨hb, Nat.lt_succ_self _⟩
        · exact ⟨(hs.owns j b p hold).1, Nat.lt_add_right _ (hs.owns j b p hold).2⟩
      · rcases hnew j b p hj with ⟨rfl, -, rfl⟩ | hold
        · rcases hnew k b' _ hk with ⟨rfl, -, -⟩ | hold'
          · rfl
          · exact absurd (hs.owns k b' _ hold').2 (Nat.lt_irrefl _)
        · rcases hnew k b' p hk with ⟨-, -, rfl⟩ | hold'
          · exact absurd (hs.owns j b _ hold).2 (Nat.lt_irrefl _)
          · exact hs.distinct j k p b b' hold hold'
  | pipeline p e =>
    obtain ⟨hcallers, -, -, pl, phase, -, -, hpls⟩ := pipelineStep_cases h
    refine ⟨fun i b q hq => ?_, fun i j q b b' hi hj => ?_⟩
    · rw [hcallers] at hq
      rw [hpls, List.length_set]
      exact hs.owns i b q hq
    · rw [hcallers] at hi hj
      exact hs.distinct i j q b b' hi hj
  | stop =>
    obtain rfl := Option.some.inj h
    exact ⟨hs.owns, hs.distinct⟩

/-- The process ends at a launch that finds a thread waiting for its join. -/
theorem step_separated {l : Label} (h : s.step l = some s') (ls : List Label) :
    separated s.pipelineThread.isSome (l :: ls) =
      (!s'.terminated && separated s'.pipelineThread.isSome ls) := by
  obtain ⟨ht, h⟩ := step_act h
  cases l with
  | check i config =>
    rcases check_cases h with rfl | rfl
    · simp [separated, goto, ht]
    · simp [separated, goto, ht]
  | enter i =>
    rcases enter_cases h with rfl | ⟨config, rfl⟩
    · simp [separated, goto, ht]
    · simp [separated, goto, ht]
  | join i =>
    obtain ⟨-, config, rfl⟩ := join_cases h
    simp [separated, goto, ht]
  | launch i =>
    obtain ⟨-, ⟨hsome, hterm, -⟩ | ⟨hnone, hterm, hthread, -⟩⟩ := launch_cases h
    · rw [separated, hsome, hterm]; rfl
    · rw [separated, hnone, hterm, ht, hthread]; rfl
  | pipeline p e =>
    obtain ⟨-, hthread, hterm, -⟩ := pipelineStep_cases h
    simp [separated, hthread, hterm, ht]
  | stop =>
    obtain rfl := Option.some.inj h
    simp [separated, ht]

theorem Stopped.owned (hs : s.Stopped) : s.Owned where
  owns i b p h := by rw [hs.idle i] at h; cases h
  distinct i j p b b' h := by rw [hs.idle i] at h; cases h

end World

open World

variable {s s' : World} {ls : List Label}

theorem run_separated (hs : s.terminated = false) (hr : system.Run s ls s') :
    separated s.pipelineThread.isSome ls = !s'.terminated := by
  induction hr with
  | nil s => rw [separated, hs]; rfl
  | @cons s s₁ s₂ l ls hst hrun ih =>
    rw [step_separated hst]
    cases ht : s₁.terminated with
    | false => exact ih ht
    | true =>
      -- no step is left
      cases hrun with
      | nil => rw [ht]; rfl
      | cons hst' _ =>
        have hfalse := (step_act hst').1
        rw [ht] at hfalse; cases hfalse

/-- The invariant of a run: what the calls own, and what the threads do while
the process lives. -/
theorem run_inv (hs : s.Stopped) (hr : system.Run s ls s') :
    s'.Owned ∧ (s'.terminated = false → s'.Held) := by
  have hind : (LTS.ofFn World.Stopped World.step).Inductive
      fun s => s.Owned ∧ (s.terminated = false → s.Held) :=
    { init := fun s hs => ⟨hs.owned, fun _ => hs.held⟩
      step := fun s l s' hi hst =>
        ⟨step_owned hi.1 hst, step_held (hi.2 (step_act hst).1) hst⟩ }
  exact hind.run hr ⟨hs.owned, fun _ => hs.held⟩

theorem exclusive_of_held (ho : s.Owned) (hh : s.Held) (ht : s.terminated = false) :
    s.Exclusive := by
  have hheld : ∀ p, s.Live p → s.pipelineThread = some p := by
    intro p ⟨pl, hpl, hlive⟩
    refine (hh p pl hpl).resolve_left fun hex => ?_
    rw [Pipeline.live, hex] at hlive; cases hlive
  have hsingle : ∀ p q, s.Live p → s.Live q → p = q := fun p q hp hq =>
    Option.some.inj ((hheld p hp).symm.trans (hheld q hq))
  refine ⟨hsingle, fun i j p q hi hj hp hq => ?_, fun i launched hi => ?_, ht⟩
  · cases hsingle p q hp hq
    exact ho.distinct i j p _ _ hi hj
  · cases launched with
    | none => rfl
    | some p => cases (ho.owns i false p hi).1

theorem separated_append {armed : Bool} {ls ls' : List Label}
    (h : separated armed (ls ++ ls') = true) : separated armed ls = true := by
  induction ls generalizing armed with
  | nil => rfl
  | cons l ls ih =>
    cases l with
    | launch i =>
      rw [List.cons_append, separated, Bool.and_eq_true] at h
      rw [separated, Bool.and_eq_true]
      exact ⟨h.1, ih h.2⟩
    | join i =>
      rw [List.cons_append, separated] at h
      exact ih h
    | check i config => exact ih h
    | enter i => exact ih h
    | pipeline p e => exact ih h
    | stop => exact ih h

/-- In every state of a run from a stopped controller at most one pipeline is
live and its call alone has returned true for it, exactly if in its schedule
a join stands between any two launches. -/
theorem exclusive_iff (hs : s.Stopped) (hr : system.Run s ls s') :
    (∀ pre s₁, pre <+: ls → system.Run s pre s₁ → s₁.Exclusive) ↔
      separated s.pipelineThread.isSome ls = true := by
  constructor
  · intro h
    rw [run_separated hs.alive hr, (h ls s' (List.prefix_refl ls) hr).alive]; rfl
  · intro h pre s₁ hpre hrun
    obtain ⟨rest, rfl⟩ := hpre
    have hsep := run_separated hs.alive hrun
    rw [separated_append h] at hsep
    have ht : s₁.terminated = false := by simpa using hsep.symm
    obtain ⟨ho, hh⟩ := run_inv hs hrun
    exact exclusive_of_held ho (hh ht) ht

def liveConfig : WirewolfConfig := { interface := lit "eth0", llamaModelPath := lit "model.gguf" }

theorem stopped_create : World.Stopped {} := by
  refine ⟨rfl, rfl, fun _ => rfl, fun p hp => ?_, fun p pl hpl => ?_⟩
  · obtain ⟨pl, hpl, -⟩ := hp; cases hpl
  · cases hpl

/-- A second start is refused while the first pipeline runs, and a third one
waits for its thread. -/
def inTurn : List Label :=
  [.check 0 liveConfig, .enter 0, .join 0, .launch 0, .pipeline 0 .run, .check 1 liveConfig,
    .pipeline 0 .fail, .check 2 liveConfig, .enter 2, .pipeline 0 .exit, .join 2, .launch 2]

theorem exclusive_iff_inTurn : ∃ s', system.Run {} inTurn s' ∧
    ((∀ pre s₁, pre <+: inTurn → system.Run {} pre s₁ → s₁.Exclusive) ↔
      separated false inTurn = true) := by
  have hend : ((LTS.exec World.step {} inTurn).any fun s => !s.terminated) = true := by decide
  obtain ⟨s', hrun, -⟩ := LTS.run_of_exec_any World.Stopped hend
  exact ⟨s', hrun, exclusive_iff stopped_create hrun⟩

/-- Two callers that both pass the check before either sets the state. -/
def race : List Label :=
  [.check 0 liveConfig, .check 1 liveConfig, .enter 0, .enter 1, .join 0, .join 1,
    .launch 0, .launch 1]

/-- Both launch, and both pipelines are live. -/
theorem two_launches : ¬ ∀ s s' ls, s.Stopped →
    (∀ i config, .check i config ∈ ls → config.valid = true) → system.Run s ls s' →
    s'.Exclusive := by
  intro h
  have hend : ((LTS.exec World.step {} race).any fun s =>
      s.pipelines[0]?.any Pipeline.live && s.pipelines[1]?.any Pipeline.live) = true := by decide
  obtain ⟨s', hrun, htest⟩ := LTS.run_of_exec_any World.Stopped hend
  obtain ⟨h0, h1⟩ := Bool.and_eq_true_iff.1 htest
  have hvalid : ∀ i config, .check i config ∈ race → config.valid = true := by
    intro i config hi
    have hc : i = 0 ∧ config = liveConfig ∨ i = 1 ∧ config = liveConfig := by simpa [race] using hi
    rcases hc with ⟨-, rfl⟩ | ⟨-, rfl⟩
    · decide
    · decide
  have hne := (h _ s' race stopped_create hvalid hrun).single 0 1 ((Option.any_eq_true _ _).1 h0)
    ((Option.any_eq_true _ _).1 h1)
  cases hne

end Wirewolf.L5.Starting
