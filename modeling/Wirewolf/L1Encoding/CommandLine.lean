import Wirewolf.L1Encoding.Config

/-!
# The limits on the command line (`WirewolfConfig::parse`)

The arguments behind the three paths are cut into options with their values
and switches, whatever the values are (`tokens`); the loop of `parse` goes
through them until a value is rejected. A value is rejected by what the reader
of the standard library makes of it: the readers skip blanks, stop at the first
character that is no digit, and read a negative size as a huge one.

* `parseArgs_eq_run`: the loop, token by token.
* `parse_valid_iff`: which command lines are valid.
* `run_field`: a limit has the last value given for it.
* `limits_enforced_iff`: the command lines on which the limits are enforced.
* `negative_capacity`: one on which they are not.
-/
namespace Wirewolf.L1.CommandLine

open Wirewolf.L1.Config Wirewolf.L1.Config.WirewolfConfig
open Wirewolf.Numeral (readInt)

/-! ## Options and switches -/

inductive Token where
  | option (f : Flag) (value : Bytes)
  | switch (arg : Bytes)
  deriving DecidableEq

/-- The arguments behind the paths. An option in the last place has no value
and is a switch like any other. -/
def tokens : List Bytes → List Token
  | [] => []
  | [arg] => [.switch arg]
  | arg :: value :: rest =>
    match flagOf arg with
    | some f => .option f value :: tokens rest
    | none => .switch arg :: tokens (value :: rest)

/-- The loop over the tokens. -/
def run (R : Readers) : WirewolfConfig → List Token → WirewolfConfig
  | cfg, [] => cfg
  | cfg, .switch arg :: ts => run R (cfg.withoutValue arg) ts
  | cfg, .option f value :: ts =>
    match f.apply R cfg value with
    | .ok cfg' => run R cfg' ts
    | .error cfg' => cfg'

theorem parseArgs_eq_run (R : Readers) (cfg : WirewolfConfig) (args : List Bytes) :
    cfg.parseArgs R args = run R cfg (tokens args) := by
  induction cfg, args using WirewolfConfig.parseArgs.induct R with
  | case1 cfg => rfl
  | case2 cfg arg => rfl
  | case3 cfg arg value rest cfg' hval ih =>
    rw [parseArgs, hval]
    obtain ⟨f, hf, happly⟩ := Option.map_eq_some_iff.1 hval
    simp only [tokens, hf, run, happly, ih]
  | case4 cfg arg value rest cfg' hval =>
    rw [parseArgs, hval]
    obtain ⟨f, hf, happly⟩ := Option.map_eq_some_iff.1 hval
    simp only [tokens, hf, run, happly]
  | case5 cfg arg value rest hval ih =>
    rw [parseArgs, hval]
    simp only [tokens, Option.map_eq_none_iff.1 hval, run, ih]

/-! ## What a value does -/

/-- The values that the option takes, by what the readers make of them. -/
def Takes (R : Readers) (value : Bytes) : Flag → Prop
  | .logLevel => ∃ n, stoi value = .ok n ∧ 0 ≤ n ∧ n ≤ 3
  | .queueCapacity | .payloadLimit | .maxFlowSize => ∃ n, stoull value = .ok n ∧ n ≠ 0
  | .maxTokens => ∃ n, stoi value = .ok n ∧ 0 < n
  | .maxLlmFlows => ∃ n, stoull value = .ok n
  | .entropyHigh | .entropyLow => ∃ x, R.stof value = .ok x
  | .behavioralModels => True
  | .behavioralThreshold => ∃ x, R.stod value = .ok x
  | .mode => value = lit "live" ∨ value = lit "forensic" ∨ value = lit "auto"

def Token.Accepts (R : Readers) : Token → Prop
  | .option f value => Takes R value f
  | .switch _ => True

/-- The limits that must be positive. -/
inductive Limit where
  | queueCapacity | payloadLimit | maxFlowSize | maxTokens
  deriving DecidableEq

def Limit.flag : Limit → Flag
  | .queueCapacity => .queueCapacity
  | .payloadLimit => .payloadLimit
  | .maxFlowSize => .maxFlowSize
  | .maxTokens => .maxTokens

def Limit.field (cfg : WirewolfConfig) : Limit → Int
  | .queueCapacity => cfg.queueCapacity
  | .payloadLimit => cfg.payloadCharLimit
  | .maxFlowSize => cfg.maxFlowPayloadBytes
  | .maxTokens => cfg.maxTokens

/-- What the reader of the limit makes of a value. -/
def Limit.reader (value : Bytes) : Limit → Except Bytes Int
  | .queueCapacity | .payloadLimit | .maxFlowSize => (stoull value).map Int.ofNat
  | .maxTokens => stoi value

/-- What no value changes. -/
structure Frame (cfg cfg' : WirewolfConfig) : Prop where
  parseError : cfg'.parseError = cfg.parseError
  interface : cfg'.interface = cfg.interface
  llamaModelPath : cfg'.llamaModelPath = cfg.llamaModelPath
  openvinoModelPath : cfg'.openvinoModelPath = cfg.openvinoModelPath
  useWindivert : cfg'.useWindivert = cfg.useWindivert

/-- An accepted value sets the limit of its option, if it has one. -/
structure Took (f : Flag) (value : Bytes) (cfg cfg' : WirewolfConfig) : Prop where
  frame : Frame cfg cfg'
  openvinoEnabled : cfg'.openvinoEnabled = cfg.openvinoEnabled
  sets : ∀ l : Limit, l.flag = f → l.reader value = .ok (l.field cfg')
  keeps : ∀ l : Limit, l.flag ≠ f → l.field cfg' = l.field cfg

section Apply

variable {R : Readers} {f : Flag} {value : Bytes} {cfg cfg' : WirewolfConfig} {α : Type}

theorem reading_ok {r : Except Bytes α} {k : α → Except WirewolfConfig WirewolfConfig} :
    cfg.reading r k = .ok cfg' ↔ ∃ n, r = .ok n ∧ k n = .ok cfg' := by
  cases r with
  | ok n => simp [reading]
  | error e => simp [reading]

theorem checked_ok {ok : Bool} {message : String} :
    cfg.checked ok message = .ok cfg' ↔ ok = true ∧ cfg = cfg' := by
  unfold checked
  split
  · next h => simp [h]
  · next h => simp [h]

/-- Only a reader or the test behind it ends the loop, and either says so. -/
theorem reading_error {r : Except Bytes α} {k : α → Except WirewolfConfig WirewolfConfig}
    (h : cfg.reading r k = .error cfg') (hk : ∀ n, k n = .error cfg' → cfg'.parseError ≠ []) :
    cfg'.parseError ≠ [] := by
  cases r with
  | ok n => exact hk n h
  | error e =>
    cases h
    exact List.append_ne_nil_of_left_ne_nil (by decide) _

theorem checked_error {ok : Bool} {message : String} (hm : lit message ≠ [])
    (h : cfg.checked ok message = .error cfg') : cfg'.parseError ≠ [] := by
  unfold checked at h
  split at h
  · cases h
  · cases h
    exact hm

theorem apply_error (h : f.apply R cfg value = .error cfg') : cfg'.parseError ≠ [] := by
  cases f with
  | logLevel => exact reading_error h fun _ => checked_error (by decide)
  | queueCapacity => exact reading_error h fun _ => checked_error (by decide)
  | payloadLimit => exact reading_error h fun _ => checked_error (by decide)
  | maxTokens => exact reading_error h fun _ => checked_error (by decide)
  | maxFlowSize => exact reading_error h fun _ => checked_error (by decide)
  | maxLlmFlows => exact reading_error h fun _ hk => nomatch hk
  | entropyHigh => exact reading_error h fun _ hk => nomatch hk
  | entropyLow => exact reading_error h fun _ hk => nomatch hk
  | behavioralThreshold => exact reading_error h fun _ hk => nomatch hk
  | behavioralModels => cases h
  | mode =>
    rw [Flag.apply] at h
    have hm : lit "mode must be live|forensic|auto" ≠ [] := by decide
    split at h
    · cases h
    · split at h
      · cases h
      · split at h <;> cases h
        exact hm

theorem reading_goesOn {r : Except Bytes α} {k : α → Except WirewolfConfig WirewolfConfig} :
    (∃ cfg', cfg.reading r k = .ok cfg') ↔ ∃ n, r = .ok n ∧ ∃ cfg', k n = .ok cfg' := by
  simp only [reading_ok]
  exact ⟨fun ⟨c, n, hn, hc⟩ => ⟨n, hn, c, hc⟩, fun ⟨n, hn, c, hc⟩ => ⟨c, n, hn, hc⟩⟩

theorem checked_goesOn {ok : Bool} {message : String} :
    (∃ cfg', cfg.checked ok message = .ok cfg') ↔ ok = true := by
  simp only [checked_ok, exists_eq_right']

/-- The loop goes on behind a value exactly if the option takes it. -/
theorem apply_ok_iff : (∃ cfg', f.apply R cfg value = .ok cfg') ↔ Takes R value f := by
  cases f with
  | mode =>
    rw [Flag.apply, Takes]
    split
    · next h => exact ⟨fun _ => .inl h, fun _ => ⟨_, rfl⟩⟩
    · next h₁ =>
      split
      · next h => exact ⟨fun _ => .inr (.inl h), fun _ => ⟨_, rfl⟩⟩
      · next h₂ =>
        split
        · next h => exact ⟨fun _ => .inr (.inr h), fun _ => ⟨_, rfl⟩⟩
        · next h₃ => simp [h₁, h₂, h₃]
  | behavioralModels => exact ⟨fun _ => trivial, fun _ => ⟨_, rfl⟩⟩
  | logLevel =>
    simp only [Flag.apply, Takes, reading_goesOn, checked_goesOn]
    refine exists_congr fun n => and_congr_right fun _ => ?_
    simp only [Bool.not_eq_true', Bool.or_eq_false_iff, decide_eq_false_iff_not, Int.not_lt]
  | maxTokens =>
    simp only [Flag.apply, Takes, reading_goesOn, checked_goesOn]
    refine exists_congr fun n => and_congr_right fun _ => ?_
    simp only [Bool.not_eq_true', decide_eq_false_iff_not, Int.not_le]
  | queueCapacity | payloadLimit | maxFlowSize =>
    simp only [Flag.apply, Takes, reading_goesOn, checked_goesOn, bne_iff_ne]
  | maxLlmFlows | entropyHigh | entropyLow | behavioralThreshold =>
    simp only [Flag.apply, Takes, reading_goesOn, Except.ok.injEq, exists_eq', and_true]

/-- A value that is no limit's leaves them all. -/
theorem Took.other (hf : ∀ l : Limit, l.flag ≠ f) (hframe : Frame cfg cfg')
    (hon : cfg'.openvinoEnabled = cfg.openvinoEnabled) (hl : ∀ l : Limit, l.field cfg' =
      l.field cfg) :
    Took f value cfg cfg' :=
  ⟨hframe, hon, fun l he => absurd he (hf l), fun l _ => hl l⟩

theorem took (h : f.apply R cfg value = .ok cfg') : Took f value cfg cfg' := by
  cases f with
  | queueCapacity | payloadLimit | maxFlowSize | maxTokens =>
    simp only [Flag.apply, reading_ok, checked_ok] at h
    obtain ⟨n, hn, -, rfl⟩ := h
    refine ⟨⟨rfl, rfl, rfl, rfl, rfl⟩, rfl, fun l hl => ?_, fun l hl => ?_⟩
    · cases l <;> cases hl
      rw [Limit.reader, hn]
      rfl
    · cases l <;> first | rfl | exact absurd rfl hl
  | logLevel =>
    simp only [Flag.apply, reading_ok, checked_ok] at h
    obtain ⟨n, -, -, rfl⟩ := h
    exact .other (by intro l; cases l <;> decide) ⟨rfl, rfl, rfl, rfl, rfl⟩ rfl
      (by intro l; cases l <;> rfl)
  | maxLlmFlows | entropyHigh | entropyLow | behavioralThreshold =>
    simp only [Flag.apply, reading_ok, Except.ok.injEq] at h
    obtain ⟨n, -, rfl⟩ := h
    exact .other (by intro l; cases l <;> decide) ⟨rfl, rfl, rfl, rfl, rfl⟩ rfl
      (by intro l; cases l <;> rfl)
  | behavioralModels =>
    cases h
    exact .other (by intro l; cases l <;> decide) ⟨rfl, rfl, rfl, rfl, rfl⟩ rfl
      (by intro l; cases l <;> rfl)
  | mode =>
    have hmode : ∃ m, cfg' = { cfg with analysisMode := m } := by
      rw [Flag.apply] at h
      split at h
      · exact ⟨_, (Except.ok.inj h).symm⟩
      · split at h
        · exact ⟨_, (Except.ok.inj h).symm⟩
        · split at h
          · exact ⟨_, (Except.ok.inj h).symm⟩
          · cases h
    obtain ⟨m, rfl⟩ := hmode
    exact .other (by intro l; cases l <;> decide) ⟨rfl, rfl, rfl, rfl, rfl⟩ rfl
      (by intro l; cases l <;> rfl)

end Apply

/-! ## Whole command lines -/

/-- The values given for an option, in order. -/
def values (f : Flag) (ts : List Token) : List Bytes :=
  ts.filterMap fun
    | .option g value => if g = f then some value else none
    | .switch _ => none

theorem values_option (f g : Flag) (value : Bytes) (ts : List Token) :
    values f (.option g value :: ts) = if g = f then value :: values f ts else values f ts := by
  unfold values
  rw [List.filterMap_cons]
  by_cases h : g = f <;> simp [h]

/-- Whether OpenVINO is switched on. -/
def openvino (ts : List Token) : Prop := .switch (lit "--openvino") ∈ ts

theorem withoutValue_frame (cfg : WirewolfConfig) (arg : Bytes) :
    Frame cfg (cfg.withoutValue arg) ∧ (∀ l : Limit, l.field (cfg.withoutValue arg) = l.field cfg) ∧
      ((cfg.withoutValue arg).openvinoEnabled = true ↔
        cfg.openvinoEnabled = true ∨ arg = lit "--openvino") := by
  unfold withoutValue
  split
  · next h =>
    refine ⟨⟨rfl, rfl, rfl, rfl, rfl⟩, ?_, by simp [h]⟩
    intro l
    cases l <;> rfl
  · next h =>
    split
    · refine ⟨⟨rfl, rfl, rfl, rfl, rfl⟩, ?_, by simp [h]⟩
      intro l
      cases l <;> rfl
    · exact ⟨⟨rfl, rfl, rfl, rfl, rfl⟩, fun _ => rfl, by simp [h]⟩

theorem Frame.trans {a b c : WirewolfConfig} (h : Frame a b) (h' : Frame b c) : Frame a c :=
  ⟨h'.1.trans h.1, h'.2.trans h.2, h'.3.trans h.3, h'.4.trans h.4, h'.5.trans h.5⟩

variable (R : Readers)

/-- Where a value is not taken the loop ends, and says why. -/
theorem run_rejected (cfg : WirewolfConfig) {ts : List Token} (h : ¬ ∀ t ∈ ts, t.Accepts R) :
    (run R cfg ts).parseError ≠ [] := by
  induction ts generalizing cfg with
  | nil => exact absurd nofun h
  | cons t ts ih =>
    rw [List.forall_mem_cons, not_and] at h
    cases t with
    | switch arg => exact ih (cfg.withoutValue arg) (h trivial)
    | option f value =>
      rw [run]
      cases hf : f.apply R cfg value with
      | error cfg' => exact apply_error hf
      | ok cfg' => exact ih cfg' (h (apply_ok_iff.1 ⟨cfg', hf⟩))

/-- Where every value is taken the loop goes through to the end. -/
theorem run_accepted (cfg : WirewolfConfig) {ts : List Token} (h : ∀ t ∈ ts, t.Accepts R) :
    Frame cfg (run R cfg ts) ∧
      ((run R cfg ts).openvinoEnabled = true ↔ cfg.openvinoEnabled = true ∨ openvino ts) := by
  induction ts generalizing cfg with
  | nil => exact ⟨⟨rfl, rfl, rfl, rfl, rfl⟩, by simp [run, openvino]⟩
  | cons t ts ih =>
    obtain ⟨ht, hts⟩ := List.forall_mem_cons.1 h
    cases t with
    | switch arg =>
      obtain ⟨hframe, -, hon⟩ := withoutValue_frame cfg arg
      obtain ⟨ihframe, ihon⟩ := ih (cfg.withoutValue arg) hts
      refine ⟨hframe.trans ihframe, ?_⟩
      rw [run, ihon, hon, openvino, openvino, List.mem_cons, Token.switch.injEq, or_assoc,
        eq_comm (a := arg)]
    | option f value =>
      obtain ⟨cfg', hf⟩ := apply_ok_iff.2 ht
      have htook := took hf
      obtain ⟨ihframe, ihon⟩ := ih cfg' hts
      rw [run, hf]
      refine ⟨htook.frame.trans ihframe, ?_⟩
      rw [ihon, htook.openvinoEnabled, openvino, openvino, List.mem_cons]
      simp

/-- A limit has the last value given for it. -/
theorem run_field (cfg : WirewolfConfig) {ts : List Token} (h : ∀ t ∈ ts, t.Accepts R) (l : Limit) :
    match (values l.flag ts).getLast? with
    | some value => l.reader value = .ok (l.field (run R cfg ts))
    | none => l.field (run R cfg ts) = l.field cfg := by
  induction ts generalizing cfg with
  | nil => rfl
  | cons t ts ih =>
    obtain ⟨ht, hts⟩ := List.forall_mem_cons.1 h
    cases t with
    | switch arg =>
      have ih := ih (cfg.withoutValue arg) hts
      have hskip : values l.flag (.switch arg :: ts) = values l.flag ts := rfl
      rw [hskip, run]
      rwa [(withoutValue_frame cfg arg).2.1] at ih
    | option f value =>
      obtain ⟨cfg', hf⟩ := apply_ok_iff.2 ht
      have htook := took hf
      have ih := ih cfg' hts
      rw [run, hf]
      by_cases hl : l.flag = f
      · have hcons : values l.flag (.option f value :: ts) = value :: values l.flag ts := by
          rw [values_option, if_pos hl.symm]
        rw [hcons, List.getLast?_cons]
        cases hlast : (values l.flag ts).getLast? with
        | none =>
          rw [hlast] at ih
          rw [Option.getD_none, ih]
          exact htook.sets l hl
        | some last =>
          rw [hlast] at ih
          exact ih
      · have hskip : values l.flag (.option f value :: ts) = values l.flag ts := by
          rw [values_option, if_neg (Ne.symm hl)]
        rw [htook.keeps l hl] at ih
        rw [hskip]
        exact ih

/-- The paths that are needed are there and every value is taken. -/
def Usable : List Bytes → Prop
  | _ :: iface :: openvinoModel :: llama :: args =>
    iface ≠ [] ∧ llama ≠ [] ∧ (openvino (tokens args) → openvinoModel ≠ []) ∧
      ∀ t ∈ tokens args, t.Accepts R
  | _ => False

theorem parse_valid_iff (argv : List Bytes) : (parse R argv).valid = true ↔ Usable R argv := by
  unfold parse Usable
  split
  · next iface openvinoModel llama args =>
    rw [parseArgs_eq_run, valid]
    by_cases h : ∀ t ∈ tokens args, t.Accepts R
    · obtain ⟨hframe, hon⟩ := run_accepted R
        { interface := iface, openvinoModelPath := openvinoModel, llamaModelPath := llama } h
      simp only [hframe.parseError, hframe.interface, hframe.llamaModelPath,
        hframe.openvinoModelPath,
        hframe.useWindivert, Bool.and_eq_true, Bool.not_eq_true', Bool.or_eq_false_iff,
        Bool.and_eq_false_iff, List.isEmpty_eq_false_iff]
      simp only [← Bool.not_eq_true, hon]
      simp only [List.isEmpty_nil, Bool.not_true, Bool.not_false, Bool.false_eq_true,
        not_false_eq_true,
        not_true, true_and, false_or, ← imp_iff_not_or]
      exact ⟨fun hx => ⟨hx.1.2, hx.1.1, hx.2, h⟩, fun hx => ⟨⟨hx.2.1, hx.1⟩, hx.2.2.1⟩⟩
    · have := run_rejected R
        { interface := iface, openvinoModelPath := openvinoModel, llamaModelPath := llama } h
      simp [this, h]
  · simp [valid]

/-! ## Numbers as texts -/

/-- The text of an integer: a sign or none, and digits. -/
def Denotes (value : Bytes) (n : Int) : Prop :=
  ∃ sign digits : Bytes, value = sign ++ digits ∧ (sign = [] ∨ sign = [0x2B] ∨ sign = [0x2D]) ∧
    digits ≠ [] ∧ (∀ c ∈ digits, isDigit c = true) ∧
    n = if sign = [0x2D] then -(Numeral.value digits : Int) else Numeral.value digits

/-- The reader finds neither blanks in front nor anything behind. -/
theorem readInt_of_denotes {value : Bytes} {n : Int} (h : Denotes value n) :
    readInt (value.dropWhile isSpace) = some n := by
  obtain ⟨sign, digits, rfl, hsign, hne, hdigits, rfl⟩ := h
  obtain ⟨d, ds, rfl⟩ := List.exists_cons_of_ne_nil hne
  have hall : (d :: ds).takeWhile isDigit = d :: ds := List.takeWhile_eq_self_iff.2 hdigits
  rcases hsign with rfl | rfl | rfl
  · have hstart : ([] ++ d :: ds : Bytes).dropWhile isSpace = d :: ds :=
      List.dropWhile_cons_of_neg (by rw [isSpace_of_isDigit (hdigits d List.mem_cons_self)]; decide)
    have hsplit := Numeral.splitSign_digit hdigits hne []
    rw [List.append_nil] at hsplit
    rw [hstart, readInt, hsplit]
    dsimp only
    rw [hall, if_neg hne]
    rfl
  · have hsplit : Numeral.splitSign (0x2B :: d :: ds) = (false, d :: ds) := rfl
    have hstart : ([0x2B] ++ d :: ds : Bytes).dropWhile isSpace = 0x2B :: d :: ds := rfl
    rw [hstart, readInt, hsplit]
    dsimp only
    rw [hall, if_neg hne]
    rfl
  · have hsplit : Numeral.splitSign (0x2D :: d :: ds) = (true, d :: ds) := rfl
    have hstart : ([0x2D] ++ d :: ds : Bytes).dropWhile isSpace = 0x2D :: d :: ds := rfl
    rw [hstart, readInt, hsplit]
    dsimp only
    rw [hall, if_neg hne]
    rfl

/-- A minus sign is in front of what is not positive, and of nothing else
but a zero. -/
theorem Denotes.sign {value : Bytes} {n : Int} (h : Denotes value n) :
    (0 < n → value.head? ≠ some 0x2D) ∧ (value.head? ≠ some 0x2D → 0 ≤ n) := by
  obtain ⟨sign, digits, rfl, hsign, hne, hdigits, rfl⟩ := h
  obtain ⟨d, ds, rfl⟩ := List.exists_cons_of_ne_nil hne
  have hd : d ≠ 0x2D := ne_of_isDigit (hdigits d List.mem_cons_self) rfl
  rcases hsign with rfl | rfl | rfl
  · rw [if_neg (by decide)]
    exact ⟨fun _ hx => hd (Option.some.inj hx), fun _ => Int.natCast_nonneg _⟩
  · rw [if_neg (by decide)]
    exact ⟨fun _ => by simp, fun _ => Int.natCast_nonneg _⟩
  · rw [if_pos rfl]
    exact ⟨fun hpos => by omega, fun hx => absurd rfl hx⟩

theorem stoi_of_denotes {value : Bytes} {n m : Int} (h : Denotes value n)
    (hm : stoi value = .ok m) :
    m = n := by
  rw [stoi, readInt_of_denotes h] at hm
  dsimp only at hm
  split at hm
  · exact (Except.ok.inj hm).symm
  · cases hm

/-- A size is read as it is written if it has no minus sign. -/
theorem stoull_of_denotes {value : Bytes} {n : Int} {m : Nat} (h : Denotes value n) (hn : 0 ≤ n)
    (hm : stoull value = .ok m) : (m : Int) = n := by
  rw [stoull, readInt_of_denotes h] at hm
  dsimp only at hm
  split at hm
  · have := Except.ok.inj hm
    omega
  · cases hm

/-! ## The limits -/

/-- The tokens behind the paths. -/
def given (argv : List Bytes) : List Token := tokens (argv.drop 4)

/-- A valid configuration has the limits it was given: each value is the text
of a positive integer, the last one counts, and the log level is 0 to 3. -/
structure Enforced (argv : List Bytes) : Prop where
  positive : (parse R argv).valid = true → ∀ l : Limit, ∀ value ∈ values l.flag (given argv),
    ∃ n, Denotes value n ∧ 0 < n
  last : (parse R argv).valid = true → ∀ l : Limit, ∀ value,
    (values l.flag (given argv)).getLast? = some value → Denotes value (l.field (parse R argv))
  logLevel : (parse R argv).valid = true → ∀ value ∈ values .logLevel (given argv),
    ∃ n, Denotes value n ∧ 0 ≤ n ∧ n ≤ 3

/-- A text of digits with a sign or none in front; for a size the sign is no
minus. -/
def Written (l : Limit) (value : Bytes) : Prop :=
  ∃ n, Denotes value n ∧ (l ≠ .maxTokens → value.head? ≠ some 0x2D)

theorem mem_values {f : Flag} {value : Bytes} {ts : List Token} (h : value ∈ values f ts) :
    .option f value ∈ ts := by
  obtain ⟨t, ht, hv⟩ := List.mem_filterMap.1 h
  cases t with
  | switch arg => cases hv
  | option g v =>
    dsimp only at hv
    split at hv
    · next hg =>
      cases hv
      exact hg ▸ ht
    · cases hv

variable {R}

/-- An accepted value that is written as a number has been read as it. -/
theorem accepted_positive {l : Limit} {value : Bytes} (hacc : Takes R value l.flag)
    (hwritten : Written l value) : ∃ n, Denotes value n ∧ 0 < n := by
  obtain ⟨n, hn, hsign⟩ := hwritten
  refine ⟨n, hn, ?_⟩
  cases l with
  | maxTokens =>
    obtain ⟨m, hm, hpos⟩ := hacc
    exact stoi_of_denotes hn hm ▸ hpos
  | queueCapacity | payloadLimit | maxFlowSize =>
    obtain ⟨m, hm, hpos⟩ := hacc
    have := stoull_of_denotes hn (hn.sign.2 (hsign (by decide))) hm
    omega

theorem reader_of_denotes {l : Limit} {value : Bytes} {n m : Int} (hn : Denotes value n)
    (hpos : 0 < n)
    (hm : l.reader value = .ok m) : m = n := by
  cases l with
  | maxTokens => exact stoi_of_denotes hn hm
  | queueCapacity | payloadLimit | maxFlowSize =>
    rw [Limit.reader] at hm
    cases hs : stoull value with
    | error e => rw [hs] at hm; cases hm
    | ok k =>
      rw [hs] at hm
      have hk := stoull_of_denotes hn (by omega) hs
      exact (Except.ok.inj hm).symm.trans hk

theorem usable_given {argv : List Bytes} (h : Usable R argv) :
    (∀ t ∈ given argv, t.Accepts R) ∧ ∀ l : Limit,
      match (values l.flag (given argv)).getLast? with
      | some value => l.reader value = .ok (l.field (parse R argv))
      | none => True := by
  unfold Usable at h
  split at h
  · next iface openvinoModel llama args =>
    refine ⟨h.2.2.2, fun l => ?_⟩
    have hfield := run_field R
      { interface := iface, openvinoModelPath := openvinoModel, llamaModelPath := llama } h.2.2.2 l
    rw [parse, parseArgs_eq_run]
    change match (values l.flag (tokens args)).getLast? with | some value => _ | none => True
    split
    · next value hlast =>
      rw [hlast] at hfield
      exact hfield
    · trivial
  · exact h.elim

variable (R)

/-- The limits are enforced on every command line that is not refused anyway,
exactly if the values it gives for them are written as numbers. -/
theorem limits_enforced_iff (argv : List Bytes) : Enforced R argv ↔
    (Usable R argv → (∀ l : Limit, ∀ value ∈ values l.flag (given argv), Written l value) ∧
      ∀ value ∈ values .logLevel (given argv), ∃ n, Denotes value n) := by
  constructor
  · intro h husable
    have hvalid := (parse_valid_iff R argv).2 husable
    refine ⟨fun l value hvalue => ?_, fun value hvalue => ?_⟩
    · obtain ⟨n, hn, hpos⟩ := h.positive hvalid l value hvalue
      exact ⟨n, hn, fun _ => hn.sign.1 hpos⟩
    · obtain ⟨n, hn, -⟩ := h.logLevel hvalid value hvalue
      exact ⟨n, hn⟩
  · intro h
    have hpositive : (parse R argv).valid = true → ∀ l : Limit,
        ∀ value ∈ values l.flag (given argv),
          ∃ n, Denotes value n ∧ 0 < n := by
      intro hvalid l value hvalue
      have husable := (parse_valid_iff R argv).1 hvalid
      exact accepted_positive ((usable_given husable).1 _ (mem_values hvalue))
        ((h husable).1 l value hvalue)
    refine ⟨hpositive, fun hvalid l value hlast => ?_, fun hvalid value hvalue => ?_⟩
    · have husable := (parse_valid_iff R argv).1 hvalid
      have hfield := (usable_given husable).2 l
      rw [hlast] at hfield
      obtain ⟨n, hn, hpos⟩ := hpositive hvalid l value (List.mem_of_getLast? hlast)
      rw [reader_of_denotes hn hpos hfield]
      exact hn
    · have husable := (parse_valid_iff R argv).1 hvalid
      obtain ⟨n, hn⟩ := (h husable).2 value hvalue
      obtain ⟨m, hm, hrange⟩ := (usable_given husable).1 _ (mem_values hvalue)
      exact ⟨n, hn, stoi_of_denotes hn hm ▸ hrange⟩

/-- Readers that take no number. -/
def noReaders : Readers := ⟨fun _ => .error [], fun _ => .error []⟩

/-- A capacity of -1 makes the queue 2^64 - 1 flows long. -/
theorem negative_capacity :
    (parse noReaders [lit "wirewolf", lit "eth0", lit "model.xml", lit "llama.gguf",
      lit "--queue-capacity", lit "-1"]).valid = true ∧
    (parse noReaders [lit "wirewolf", lit "eth0", lit "model.xml", lit "llama.gguf",
      lit "--queue-capacity", lit "-1"]).queueCapacity = 18446744073709551615 ∧
    ¬ Enforced noReaders [lit "wirewolf", lit "eth0", lit "model.xml", lit "llama.gguf",
      lit "--queue-capacity", lit "-1"] := by
  have hvalid : (parse noReaders [lit "wirewolf", lit "eth0", lit "model.xml", lit "llama.gguf",
      lit "--queue-capacity", lit "-1"]).valid = true := by decide
  refine ⟨hvalid, by decide, fun h => ?_⟩
  obtain ⟨n, hn, hpos⟩ := h.positive hvalid .queueCapacity (lit "-1") (by decide)
  exact hn.sign.1 hpos (by decide)

end Wirewolf.L1.CommandLine
