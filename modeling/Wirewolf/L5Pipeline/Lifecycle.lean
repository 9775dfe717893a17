import Wirewolf.L5Pipeline.Starting

/-!
# The state of the controller (`pipeline_controller.cpp`)

`state()` is what the application shows and what the next `start` looks at. It
is set by the callers of `start` and by the threads of the pipelines, each on
its own. When the calls of `start` do not overlap, as with one thread that
makes them all, it tells what runs.

* `tracks_step`: what every step keeps.
* `state_truthful`: `Stopped` and `Error` mean that nothing runs and nothing is
  being started, and the other states are those of the one pipeline that runs.
-/
namespace Wirewolf.L5.Lifecycle

open Wirewolf.L1.Config Wirewolf.L5.Starting Wirewolf.L5.Starting.World

/-- Between the entry of `start` and its return. -/
def inCall : Pc → Bool
  | .checked _ | .entered _ | .joined _ => true
  | .idle | .returned _ _ => false

/-- Behind `set_state(Starting)`. -/
def busy : Pc → Bool
  | .entered _ | .joined _ => true
  | .idle | .checked _ | .returned _ _ => false

/-- A call begins when no other one is under way. -/
def Serial (s : World) : Label → Prop
  | .check _ _ => ∀ j, inCall (s.callers j) = false
  | _ => True

/-- The state that the thread has set. -/
def published : Phase → PipelineState
  | .starting => .starting
  | .running => .running
  | .stopping => .stopping
  | .stopped | .exited => .stopped
  | .error => .error

structure Tracks (s : World) : Prop where
  alive : s.terminated = false
  held : s.Held
  owned : s.Owned
  single : ∀ i j, inCall (s.callers i) = true → inCall (s.callers j) = true → i = j
  quiet : ∀ i, inCall (s.callers i) = true → ∀ p, ¬ s.Live p
  joined : ∀ i config, s.callers i = .joined config → s.pipelineThread = none
  starting : ∀ i, busy (s.callers i) = true → s.state = .starting
  shown : (∀ i, busy (s.callers i) = false) → ∀ (p : Nat) (pl : Pipeline),
  s.pipelines[p]? = some pl →
    pl.live = true → s.state = published pl.phase
  settled : (∀ i, busy (s.callers i) = false) → (∀ p, ¬ s.Live p) → s.state = .stopped ∨
    s.state = .error

theorem inCall_of_busy {pc : Pc} (h : busy pc = true) : inCall pc = true := by
  cases pc <;> first | rfl | cases h

theorem published_live {pl : Pipeline} (h : pl.live = true) :
    published pl.phase ≠ .stopped ∧ published pl.phase ≠ .error := by
  unfold Pipeline.live at h
  cases hp : pl.phase <;> rw [hp] at h <;> first | exact ⟨by decide, by decide⟩ | cases h

section Steps

variable {s s' : World}

theorem tracks_init (hs : s.Stopped) : Tracks s where
  alive := hs.alive
  held := hs.held
  owned := hs.owned
  single i _ hi := by rw [hs.idle i] at hi; cases hi
  quiet _ _ := hs.ended
  joined i _ hi := by rw [hs.idle i] at hi; cases hi
  starting i hi := by rw [hs.idle i] at hi; cases hi
  shown _ p pl hp hlive := absurd ⟨pl, hp, hlive⟩ (hs.ended p)
  settled _ _ := .inl hs.state

/-- What a pipeline's thread does to the state. -/
theorem pipelineStep_shows {p : Nat} {e : PipelineStep} (h : s.pipelineStep p e = some s') :
    ∃ pl, s.pipelines[p]? = some pl ∧
      ((pl.live = false ∧
          s' = { s with pipelines := s.pipelines.set p { pl with phase := .exited } }) ∨
        (pl.live = true ∧ s' = { s with alertsFired := s.alertsFired + 1 }) ∨
        (pl.live = true ∧ ∃ phase, s' = { s with
          pipelines := s.pipelines.set p { pl with phase := phase }
          state := published phase })) := by
  unfold pipelineStep at h
  split at h
  · cases h
  next pl hpl =>
  refine ⟨pl, hpl, ?_⟩
  have hlive : pl.phase = .starting ∨ pl.phase = .running ∨ pl.phase = .stopping →
      pl.live = true := by
    rintro (hp | hp | hp) <;> rw [Pipeline.live, hp]
  have hdead : pl.phase = .stopped ∨ pl.phase = .error → pl.live = false := by
    rintro (hp | hp) <;> rw [Pipeline.live, hp]
  dsimp only at h
  split at h
  · next hp => exact .inr (.inr ⟨hlive (.inl hp), .running, (Option.some.inj h).symm⟩)
  · next hp => exact .inr (.inl ⟨hlive (.inr (.inl hp)), (Option.some.inj h).symm⟩)
  · next hp =>
    split at h
    · exact .inr (.inr ⟨hlive (.inr (.inl hp)), .stopping, (Option.some.inj h).symm⟩)
    · cases h
  · next hp => exact .inr (.inr ⟨hlive (.inr (.inr hp)), .stopped, (Option.some.inj h).symm⟩)
  · next hp => exact .inr (.inr ⟨hlive (.inl hp), .error, (Option.some.inj h).symm⟩)
  · next hp => exact .inr (.inr ⟨hlive (.inr (.inl hp)), .error, (Option.some.inj h).symm⟩)
  · next hp => exact .inr (.inr ⟨hlive (.inr (.inr hp)), .error, (Option.some.inj h).symm⟩)
  · next hp => exact .inl ⟨hdead (.inl hp), (Option.some.inj h).symm⟩
  · next hp => exact .inl ⟨hdead (.inr hp), (Option.some.inj h).symm⟩
  · cases h

theorem check_ready {i : Nat} {config : WirewolfConfig} (h : s.check i config = some s') :
    s' = s.goto i (.returned false none) ∨
      (s' = s.goto i (.checked config) ∧ (s.state = .stopped ∨ s.state = .error)) := by
  have hcase : (if s.state ≠ .stopped ∧ s.state ≠ .error then some (s.goto i (.returned false none))
      else some (s.goto i (.checked config))) = some s' := by
    unfold check at h
    split at h
    · exact h
    · exact h
    · cases h
  split at hcase
  · exact .inl (Option.some.inj hcase).symm
  · next hstate => exact .inr ⟨(Option.some.inj hcase).symm, by tauto⟩

theorem enter_ready {i : Nat} (h : s.enter i = some s') : ∃ config, s.callers i = .checked config ∧
    (s' = s.goto i (.returned false none) ∨ s' = { s.goto i (.entered config) with
      shutdownRequested := false, alertsFired := 0, state := .starting }) := by
  unfold enter at h
  split at h
  · next config hpc =>
    split at h
    · exact ⟨config, hpc, .inl (Option.some.inj h).symm⟩
    · exact ⟨config, hpc, .inr (Option.some.inj h).symm⟩
  · cases h

theorem join_ready {i : Nat} (h : s.join i = some s') : ∃ config, s.callers i = .entered config ∧
    s' = { s.goto i (.joined config) with pipelineThread := none } := by
  obtain ⟨-, config', hs'⟩ := join_cases h
  unfold join at h
  split at h
  · next config hpc =>
    refine ⟨config, hpc, ?_⟩
    split at h
    · next hnone =>
      rw [← hnone]
      exact (Option.some.inj h).symm
    · split at h
      · exact (Option.some.inj h).symm
      · cases h
  · cases h

theorem callers_goto (s : World) (i j : Nat) (pc : Pc) :
    (s.goto i pc).callers j = if j = i then pc else s.callers j := Function.update_apply ..

/-- While `i` is in its call, the others are not. -/
theorem Tracks.others (h : Tracks s) {i : Nat} (hi : inCall (s.callers i) = true) {j : Nat}
    (hj : j ≠ i) :
    inCall (s.callers j) = false :=
  Bool.eq_false_iff.2 fun hin => hj (h.single j i hin hi)

theorem not_busy {pc : Pc} (h : inCall pc = false) : busy pc = false :=
  Bool.eq_false_iff.2 fun hb => Bool.false_ne_true (h.symm.trans (inCall_of_busy hb))

theorem tracks_check (h : Tracks s) {i : Nat} {config : WirewolfConfig}
    (hserial : ∀ j, inCall (s.callers j) = false) (hst : s.check i config = some s')
    (hown : s'.Owned) : Tracks s' := by
  have hidle : ∀ j, busy (s.callers j) = false := fun j => not_busy (hserial j)
  rcases check_ready hst with rfl | ⟨rfl, hstate⟩
  · have hnone : ∀ j, inCall ((s.goto i (.returned false none)).callers j) = false := by
      intro j
      rw [callers_goto]
      split
      · rfl
      · exact hserial j
    refine ⟨h.alive, h.held, hown, fun j k hj => ?_, fun j hj => ?_, fun j config hj => ?_,
      fun j hj => ?_,
      fun _ => h.shown hidle, fun _ => h.settled hidle⟩
    · rw [hnone j] at hj; cases hj
    · rw [hnone j] at hj; cases hj
    · have hin := hnone j
      rw [hj] at hin; cases hin
    · have hin := inCall_of_busy hj
      rw [hnone j] at hin; cases hin
  · have honly : ∀ j, inCall ((s.goto i (.checked config)).callers j) = true → j = i := by
      intro j hj
      rw [callers_goto] at hj
      split at hj
      · assumption
      · rw [hserial j] at hj; cases hj
    have hquiet : ∀ j, busy ((s.goto i (.checked config)).callers j) = false := by
      intro j
      rw [callers_goto]
      split
      · rfl
      · exact hidle j
    refine ⟨h.alive, h.held, hown, fun j k hj hk => (honly j hj).trans (honly k hk).symm,
      fun j _ p hp => ?_,
      fun j config' hj => ?_, fun j hj => ?_, fun _ => h.shown hidle, fun _ => h.settled hidle⟩
    · -- the state that was looked at is that of no live pipeline
      obtain ⟨pl, hpl, hlive⟩ := hp
      have hshown := h.shown hidle p pl hpl hlive
      obtain ⟨hstop, herr⟩ := published_live hlive
      rcases hstate with hs | hs
      · exact hstop (hshown.symm.trans hs)
      · exact herr (hshown.symm.trans hs)
    · rw [callers_goto] at hj
      split at hj
      · cases hj
      · exact h.joined j config' hj
    · rw [hquiet j] at hj; cases hj

/-- The caller `i` of a call moves on, to `pc`; the others are in no call. -/
theorem callers_moved (h : Tracks s) {i : Nat} (hi : inCall (s.callers i) = true)
    (pc : Pc) (j : Nat) :
    inCall ((s.goto i pc).callers j) = (decide (j = i) && inCall pc) ∧
      busy ((s.goto i pc).callers j) = (decide (j = i) && busy pc) := by
  rw [callers_goto]
  by_cases hj : j = i
  · simp [hj]
  · have hout := h.others hi hj
    simp [hj, hout, not_busy hout]

theorem tracks_enter (h : Tracks s) {i : Nat} (hst : s.enter i = some s') (hown : s'.Owned) :
    Tracks s' := by
  obtain ⟨config, hpc, rfl | rfl⟩ := enter_ready hst
  · have hi : inCall (s.callers i) = true := by rw [hpc]; rfl
    have hmoved := callers_moved h hi (.returned false none)
    have hidle : ∀ j, busy (s.callers j) = false := by
      intro j
      by_cases hj : j = i
      · rw [hj, hpc]; rfl
      · exact not_busy (h.others hi hj)
    refine ⟨h.alive, h.held, hown, fun j k hj => ?_, fun j hj => ?_, fun j config' hj => ?_,
      fun j hj => ?_,
      fun _ => h.shown hidle, fun _ => h.settled hidle⟩
    · rw [(hmoved j).1] at hj; simp [inCall] at hj
    · rw [(hmoved j).1] at hj; simp [inCall] at hj
    · have hin := (hmoved j).1
      rw [hj] at hin
      simp [inCall] at hin
    · rw [(hmoved j).2] at hj; simp [busy] at hj
  · have hi : inCall (s.callers i) = true := by rw [hpc]; rfl
    have hmoved := callers_moved h hi (.entered config)
    have hquiet : ∀ p, ¬ s.Live p := h.quiet i hi
    have hbusy : busy ((s.goto i (.entered config)).callers i) = true := by
      rw [callers_goto, if_pos rfl]; rfl
    refine ⟨h.alive, h.held, hown, fun j k hj hk => ?_, fun j _ => hquiet, fun j config' hj => ?_,
      fun _ _ => rfl, fun hnone => absurd (hnone i) ?_, fun hnone => absurd (hnone i) ?_⟩
    · rw [(hmoved j).1] at hj
      rw [(hmoved k).1] at hk
      simp only [inCall, Bool.and_true, decide_eq_true_eq] at hj hk
      rw [hj, hk]
    · have hcall : (s.goto i (.entered config)).callers j = .joined config' := hj
      rw [callers_goto] at hcall
      split at hcall
      · cases hcall
      · exact h.joined j config' hcall
    · exact fun hfree => Bool.false_ne_true (hfree.symm.trans hbusy)
    · exact fun hfree => Bool.false_ne_true (hfree.symm.trans hbusy)

theorem tracks_join (h : Tracks s) {i : Nat} (hst : s.join i = some s') (hown : s'.Owned)
    (hheld : s'.Held) : Tracks s' := by
  obtain ⟨config, hpc, rfl⟩ := join_ready hst
  have hi : inCall (s.callers i) = true := by rw [hpc]; rfl
  have hmoved := callers_moved h hi (.joined config)
  have hquiet : ∀ p, ¬ s.Live p := h.quiet i hi
  have hstate : s.state = .starting := h.starting i (by rw [hpc]; rfl)
  have hbusy : busy ((s.goto i (.joined config)).callers i) = true := by
    rw [callers_goto, if_pos rfl]; rfl
  refine ⟨h.alive, hheld, hown, fun j k hj hk => ?_, fun j _ => hquiet, fun j config' _ => rfl,
    fun _ _ => hstate, fun hnone => absurd (hnone i) ?_, fun hnone => absurd (hnone i) ?_⟩
  · have hj' := (hmoved j).1.symm.trans hj
    have hk' := (hmoved k).1.symm.trans hk
    simp only [inCall, Bool.and_true, decide_eq_true_eq] at hj' hk'
    rw [hj', hk']
  · exact fun hfree => Bool.false_ne_true (hfree.symm.trans hbusy)
  · exact fun hfree => Bool.false_ne_true (hfree.symm.trans hbusy)

theorem launch_ready {i : Nat} (h : s.launch i = some s') (hnone : s.pipelineThread = none) :
    ∃ config, s.callers i = .joined config ∧
      s' = { ({ s with pipelines := s.pipelines ++ [{ config := config }] } : World).goto i
          (.returned true (some s.pipelines.length)) with
        pipelineThread := some s.pipelines.length } := by
  unfold launch at h
  split at h
  · next config hpc =>
    dsimp only at h
    rw [hnone] at h
    exact ⟨config, hpc, (Option.some.inj h).symm⟩
  · cases h

theorem tracks_launch (h : Tracks s) {i : Nat} (hst : s.launch i = some s') (hown : s'.Owned)
    (hheld : s'.terminated = false → s'.Held) : Tracks s' := by
  have hthread : s.pipelineThread = none := by
    unfold launch at hst
    split at hst
    · next config hpc => exact h.joined i config hpc
    · cases hst
  obtain ⟨config, hpc, rfl⟩ := launch_ready hst hthread
  have hi : inCall (s.callers i) = true := by rw [hpc]; rfl
  have hmoved := callers_moved h hi (.returned true (some s.pipelines.length))
  have hfree : ∀ j, inCall ((s.goto i (.returned true (some s.pipelines.length))).callers j) =
      false := by
    intro j
    rw [(hmoved j).1]
    simp [inCall]
  have hstate : s.state = .starting := h.starting i (by rw [hpc]; rfl)
  refine ⟨h.alive, hheld h.alive, hown, fun j k hj => ?_, fun j hj => ?_, fun j config' hj => ?_,
    fun j hj => ?_, fun _ p pl hpl hlive => ?_, fun _ hdead => ?_⟩
  · exact absurd ((hfree j).symm.trans hj) Bool.false_ne_true
  · exact absurd ((hfree j).symm.trans hj) Bool.false_ne_true
  · have hcall : (s.goto i (.returned true (some s.pipelines.length))).callers j =
        .joined config' := hj
    have hin := hfree j
    rw [hcall] at hin
    cases hin
  · exact absurd ((not_busy (hfree j)).symm.trans hj) Bool.false_ne_true
  · have hpl : (s.pipelines ++ [{ config := config }])[p]? = some pl := hpl
    rcases Nat.lt_or_ge p s.pipelines.length with hlt | hge
    · rw [List.getElem?_append_left hlt] at hpl
      exact absurd ⟨pl, hpl, hlive⟩ (h.quiet i hi p)
    · rw [List.getElem?_append_right hge] at hpl
      have hmem := List.mem_of_getElem? hpl
      rw [List.mem_singleton] at hmem
      rw [hmem]
      exact hstate
  · refine absurd ⟨{ config := config }, ?_, rfl⟩ (hdead s.pipelines.length)
    exact List.getElem?_concat_length

/-- Only the thread that is held can be live. -/
theorem held_of_live (h : s.Held) {p : Nat} {pl : Pipeline} (hpl : s.pipelines[p]? = some pl)
    (hlive : pl.live = true) : s.pipelineThread = some p := by
  refine (h p pl hpl).resolve_left fun hex => ?_
  rw [Pipeline.live, hex] at hlive
  cases hlive

theorem tracks_pipeline (h : Tracks s) {p : Nat} {e : PipelineStep}
    (hst : s.pipelineStep p e = some s')
    (hown : s'.Owned) (hheld : s'.Held) : Tracks s' := by
  obtain ⟨pl, hpl, ⟨hdead, rfl⟩ | ⟨-, rfl⟩ | ⟨hlive, phase, rfl⟩⟩ := pipelineStep_shows hst
  · -- the thread of a pipeline that has ended returns
    have hsame : ∀ (q : Nat) (pl' : Pipeline), pl'.live = true →
        ((s.pipelines.set p { pl with phase := .exited })[q]? = some pl' ↔ s.pipelines[q]? =
          some pl') := by
      intro q pl' hlive
      rw [List.getElem?_set]
      split
      · next hq =>
        subst hq
        rw [hpl]
        refine iff_of_false (fun he => ?_) fun he => ?_
        · split at he
          · cases he; cases hlive
          · cases he
        · cases he
          exact Bool.false_ne_true (hdead.symm.trans hlive)
      · exact Iff.rfl
    refine ⟨h.alive, hheld, hown, h.single, fun i hi q ⟨pl', he, hl⟩ =>
      h.quiet i hi q ⟨pl', (hsame q pl' hl).1 he, hl⟩, h.joined, h.starting,
      fun hb q pl' he hl => h.shown hb q pl' ((hsame q pl' hl).1 he) hl, fun hb hdead' =>
        h.settled hb ?_⟩
    exact fun q ⟨pl', he, hl⟩ => hdead' q ⟨pl', (hsame q pl' hl).2 he, hl⟩
  · exact ⟨h.alive, hheld, hown, h.single, h.quiet, h.joined, h.starting, h.shown, h.settled⟩
  · have hfree : ∀ i, inCall (s.callers i) = false := fun i =>
      Bool.eq_false_iff.2 fun hi => h.quiet i hi p ⟨pl, hpl, hlive⟩
    have hself : (s.pipelines.set p { pl with phase := phase })[p]? =
        some { pl with phase := phase } := by
      rw [List.getElem?_set_self (List.getElem?_eq_some_iff.1 hpl).1]
    refine ⟨h.alive, hheld, hown, fun i j hi => ?_, fun i hi => ?_, h.joined, fun i hi => ?_,
      fun _ q pl' he hl => ?_, fun _ hdead => ?_⟩
    · exact absurd ((hfree i).symm.trans hi) Bool.false_ne_true
    · exact absurd ((hfree i).symm.trans hi) Bool.false_ne_true
    · exact absurd ((not_busy (hfree i)).symm.trans hi) Bool.false_ne_true
    · -- no other one is live
      have hq : q = p := Option.some.inj ((held_of_live hheld he hl).symm.trans
        (held_of_live h.held hpl hlive))
      subst hq
      cases he.symm.trans hself
      rfl
    · have hover : ({ pl with phase := phase } : Pipeline).live = false :=
        Bool.eq_false_iff.2 fun hl => hdead p ⟨_, hself, hl⟩
      show published phase = .stopped ∨ published phase = .error
      cases phase <;> first | exact .inl rfl | exact .inr rfl | cases hover

/-- What every step keeps, when the calls do not overlap. -/
theorem tracks_step (h : Tracks s) {l : Label} (hserial : Serial s l) (hst : s.step l = some s') :
    Tracks s' := by
  have hown := step_owned h.owned hst
  have hheld := step_held h.held hst
  obtain ⟨-, hact⟩ := step_act hst
  cases l with
  | check i config => exact tracks_check h hserial hact hown
  | enter i => exact tracks_enter h hact hown
  | join i =>
    refine tracks_join h hact hown (hheld ?_)
    obtain ⟨-, config, rfl⟩ := join_cases hact
    exact h.alive
  | launch i => exact tracks_launch h hact hown hheld
  | pipeline p e =>
    refine tracks_pipeline h hact hown (hheld ?_)
    rw [(pipelineStep_cases hact).2.2.1]
    exact h.alive
  | stop =>
    obtain rfl := Option.some.inj hact
    exact ⟨h.alive, h.held, hown, h.single, h.quiet, h.joined, h.starting, h.shown, h.settled⟩

end Steps

/-! ## Runs -/

variable {s s' : World} {ls : List Label}

theorem tracks_inductive : (system.guard Serial).Inductive Tracks where
  init _ hs := tracks_init hs
  step _ _ _ h hst := tracks_step h hst.1 hst.2

/-- The state tells what runs: in `Stopped` and `Error` no pipeline is live and
none is being started, and any other state is that of the one live pipeline, or
that of a call that has yet to launch it. -/
theorem state_truthful (hs : s.Stopped) (hr : (system.guard Serial).Run s ls s') :
    s'.Exclusive ∧
    (s'.state = .stopped ∨ s'.state = .error ↔
      (∀ p, ¬ s'.Live p) ∧ ∀ i, busy (s'.callers i) = false) ∧
    ∀ (p : Nat) (pl : Pipeline), s'.pipelines[p]? = some pl → pl.live = true →
      s'.state = published pl.phase ∧ ∀ i, inCall (s'.callers i) = false := by
  have h := tracks_inductive.run hr (tracks_init hs)
  have hfree : ∀ (p : Nat) (pl : Pipeline), s'.pipelines[p]? = some pl → pl.live = true →
      ∀ i, inCall (s'.callers i) = false := fun p pl hpl hlive i =>
    Bool.eq_false_iff.2 fun hi => h.quiet i hi p ⟨pl, hpl, hlive⟩
  refine ⟨exclusive_of_held h.owned h.held h.alive,
    ⟨fun hstate => ?_, fun hquiet => h.settled hquiet.2 hquiet.1⟩,
    fun p pl hpl hlive => ⟨h.shown (fun i => not_busy (hfree p pl hpl hlive i)) p pl hpl hlive,
      hfree p pl hpl hlive⟩⟩
  have hnotbusy : ∀ i, busy (s'.callers i) = false := by
    intro i
    refine Bool.eq_false_iff.2 fun hb => ?_
    have hstart := h.starting i hb
    rcases hstate with hs | hs
    · cases hstart.symm.trans hs
    · cases hstart.symm.trans hs
  refine ⟨fun p ⟨pl, hpl, hlive⟩ => ?_, hnotbusy⟩
  have hshown := h.shown hnotbusy p pl hpl hlive
  obtain ⟨hstop, herr⟩ := published_live hlive
  rcases hstate with hs | hs
  · exact hstop (hshown.symm.trans hs)
  · exact herr (hshown.symm.trans hs)

/-- A pipeline is started, and a second start is refused. -/
def secondRefused : List Label :=
  [.check 0 liveConfig, .enter 0, .join 0, .launch 0, .pipeline 0 .run, .check 1 liveConfig]

theorem state_truthful_second : ∃ s', (system.guard Serial).Run {} secondRefused s' ∧ s'.Exclusive ∧
    ¬ (s'.state = .stopped ∨ s'.state = .error) := by
  have hrun : ∃ s', (system.guard Serial).Run {} secondRefused s' ∧ s'.Live 0 := by
    refine ⟨_,
      .cons ⟨fun _ => rfl, rfl⟩ (.cons ⟨trivial, rfl⟩ (.cons ⟨trivial, rfl⟩ (.cons ⟨trivial, rfl⟩
      (.cons ⟨trivial, rfl⟩ (.cons ⟨fun j => ?_, rfl⟩ (.nil _)))))), ?_⟩
    · by_cases hj : j = 0 <;> simp [hj, goto, inCall]
    · exact ⟨_, rfl, rfl⟩
  obtain ⟨s', hrun, hlive⟩ := hrun
  obtain ⟨hexclusive, hstate, -⟩ := state_truthful stopped_create hrun
  exact ⟨s', hrun, hexclusive, fun h => (hstate.1 h).1 0 hlive⟩

end Wirewolf.L5.Lifecycle
