import Wirewolf.Core.Numeral
import Wirewolf.L1Encoding.Normalizer

/-!
# Configuration (`config.hpp`, `wirewolf_capi.cpp`)

`parse` reads the command line, the setters of the C API change one field
each, `valid` is what `PipelineController::start` asks for. The floating-point
readers of the standard library are parameters. A setter that returns for a
null handle or a null string changes nothing and is not a step.

* `Configured`: what the two ways can produce.
* `configured_limits`: the range of every limit the LLM stage reads.
-/
namespace Wirewolf.L1.Config

open Wirewolf.Numeral (readInt)

/-- mirrors src/include/config.hpp:14 -/
inductive AnalysisMode where
  | auto | live | forensic
  deriving DecidableEq

/-- The fields that `parse`, a setter or a modelled stage uses.
mirrors src/include/config.hpp:16-91 -/
structure WirewolfConfig where
  queueCapacity : Nat := 1024
  maxFlowPayloadBytes : Nat := 1048576
  entropyHighThreshold : Float32 := 7.0
  entropyLowThreshold : Float32 := 1.0
  openvinoEnabled : Bool := false
  payloadCharLimit : Nat := 2048
  maxTokens : Int := 512
  maxLlmFlows : Nat := 0
  maxPromptTokens : Int := 7000
  nGpuLayers : Int := 99
  contextSize : Nat := 8192
  threatProxyDb : Bytes := []
  promiscuous : Bool := true
  analysisMode : AnalysisMode := .auto
  useWindivert : Bool := false
  inlineBlock : Bool := false
  windivertFilter : Bytes := lit "tcp"
  blockAllowlist : Bytes := []
  rulesDir : Bytes := []
  behavioralModelsDir : Bytes := []
  behavioralThreshold : Float := 0.0
  logLevel : Int := 1
  interface : Bytes := []
  openvinoModelPath : Bytes := []
  llamaModelPath : Bytes := []
  parseError : Bytes := []

/-! ## The command line -/

/-- `std::stof` and `std::stod`: the number, or the text of the exception. -/
structure Readers where
  stof : Bytes → Except Bytes Float32
  stod : Bytes → Except Bytes Float

/-- `std::stoi` -/
def stoi (s : Bytes) : Except Bytes Int :=
  match readInt (s.dropWhile isSpace) with
  | some n => if -2 ^ 31 ≤ n ∧ n < 2 ^ 31 then .ok n else .error (lit "stoi")
  | none => .error (lit "stoi")

/-- `std::stoull`: a minus sign negates modulo 2^64. -/
def stoull (s : Bytes) : Except Bytes Nat :=
  match readInt (s.dropWhile isSpace) with
  | some n => if n.natAbs < 2 ^ 64 then .ok (n % 2 ^ 64).toNat else .error (lit "stoull")
  | none => .error (lit "stoull")

namespace WirewolfConfig

variable (cfg : WirewolfConfig)

/-- The end of the loop by an exception of a reader, or its next round. -/
def reading {α : Type} (r : Except Bytes α) (k : α → Except WirewolfConfig WirewolfConfig) :
    Except WirewolfConfig WirewolfConfig :=
  match r with
  | .ok n => k n
  | .error what => .error { cfg with parseError := lit "Invalid argument: " ++ what }

/-- The end of the loop by a rejected value. -/
def checked (ok : Bool) (message : String) : Except WirewolfConfig WirewolfConfig :=
  if ok then .ok cfg else .error { cfg with parseError := lit message }

/-- The options that take a value. -/
inductive Flag where
  | logLevel | queueCapacity | payloadLimit | maxTokens | maxLlmFlows | maxFlowSize
  | entropyHigh | entropyLow | behavioralModels | behavioralThreshold | mode
  deriving DecidableEq

/-- mirrors src/include/config.hpp:107-163 -/
def flagOf (arg : Bytes) : Option Flag :=
  if arg = lit "--log-level" then some .logLevel
  else if arg = lit "--queue-capacity" then some .queueCapacity
  else if arg = lit "--payload-limit" then some .payloadLimit
  else if arg = lit "--max-tokens" then some .maxTokens
  else if arg = lit "--max-llm-flows" then some .maxLlmFlows
  else if arg = lit "--max-flow-size" then some .maxFlowSize
  else if arg = lit "--entropy-high" then some .entropyHigh
  else if arg = lit "--entropy-low" then some .entropyLow
  else if arg = lit "--behavioral-models" then some .behavioralModels
  else if arg = lit "--behavioral-threshold" then some .behavioralThreshold
  else if arg = lit "--mode" then some .mode
  else none

/-- What the option `f` does with its value.
mirrors src/include/config.hpp:107-163 -/
def Flag.apply (R : Readers) (cfg : WirewolfConfig) (value : Bytes) :
    Flag → Except WirewolfConfig WirewolfConfig
  | .logLevel => cfg.reading (stoi value) fun n =>
      checked { cfg with logLevel := n } (!(n < 0 || 3 < n)) "log-level must be 0-3"
  | .queueCapacity => cfg.reading (stoull value) fun n =>
      checked { cfg with queueCapacity := n } (n != 0) "queue-capacity must be > 0"
  | .payloadLimit => cfg.reading (stoull value) fun n =>
      checked { cfg with payloadCharLimit := n } (n != 0) "payload-limit must be > 0"
  | .maxTokens => cfg.reading (stoi value) fun n =>
      checked { cfg with maxTokens := n } (!(n ≤ 0)) "max-tokens must be > 0"
  | .maxLlmFlows => cfg.reading (stoull value) fun n => .ok { cfg with maxLlmFlows := n }
  | .maxFlowSize => cfg.reading (stoull value) fun n =>
      checked { cfg with maxFlowPayloadBytes := n } (n != 0) "max-flow-size must be > 0"
  | .entropyHigh => cfg.reading (R.stof value) fun x => .ok { cfg with entropyHighThreshold := x }
  | .entropyLow => cfg.reading (R.stof value) fun x => .ok { cfg with entropyLowThreshold := x }
  | .behavioralModels => .ok { cfg with behavioralModelsDir := value }
  | .behavioralThreshold =>
    cfg.reading (R.stod value) fun x => .ok { cfg with behavioralThreshold := x }
  | .mode =>
    if value = lit "live" then .ok { cfg with analysisMode := .live }
    else if value = lit "forensic" then .ok { cfg with analysisMode := .forensic }
    else if value = lit "auto" then .ok { cfg with analysisMode := .auto }
    else .error { cfg with parseError := lit "mode must be live|forensic|auto" }

/-- An option that takes a value; `none` if `arg` is no such option. -/
def withValue (R : Readers) (arg value : Bytes) : Option (Except WirewolfConfig WirewolfConfig) :=
  (flagOf arg).map (Flag.apply R cfg value)

/-- An option without a value; every other argument is skipped. -/
def withoutValue (arg : Bytes) : WirewolfConfig :=
  if arg = lit "--openvino" then { cfg with openvinoEnabled := true }
  else if arg = lit "--no-promisc" then { cfg with promiscuous := false }
  else cfg

/-- The loop over `argv[4..]`. -/
def parseArgs (R : Readers) : WirewolfConfig → List Bytes → WirewolfConfig
  | cfg, [] => cfg
  | cfg, [arg] => cfg.withoutValue arg
  | cfg, arg :: value :: rest =>
    match cfg.withValue R arg value with
    | some (.ok cfg') => parseArgs R cfg' rest
    | some (.error cfg') => cfg'
    | none => parseArgs R (cfg.withoutValue arg) (value :: rest)

/-- mirrors src/include/config.hpp:93-170 -/
def parse (R : Readers) : List Bytes → WirewolfConfig
  | _ :: iface :: openvino :: llama :: args =>
    parseArgs R { interface := iface, openvinoModelPath := openvino, llamaModelPath := llama } args
  | _ => {}

/-- mirrors src/include/config.hpp:172-183 -/
def valid : Bool :=
  !(!cfg.parseError.isEmpty || cfg.llamaModelPath.isEmpty) &&
    !(!cfg.useWindivert && cfg.interface.isEmpty) &&
    !(cfg.openvinoEnabled && cfg.openvinoModelPath.isEmpty)

/-- mirrors src/include/config.hpp:185-191 -/
def isOfflineCapture : Bool :=
  (lit ".pcap").isSuffixOf cfg.interface || (lit ".pcapng").isSuffixOf cfg.interface

end WirewolfConfig

/-! ## The setters -/

/-- The setters of the C API, with the `int`, `uint32_t` and `size_t` they take.
mirrors src/src/wirewolf_capi.cpp:90-228 -/
inductive Setter where
  | interface (iface : Bytes)
  | llamaModel (path : Bytes)
  | openvinoModel (path : Bytes)
  | openvinoEnabled (enabled : Int32)
  | logLevel (level : Int32)
  | queueCapacity (capacity : UInt64)
  | payloadLimit (limit : UInt64)
  | maxTokens (maxTokens : Int32)
  | gpuLayers (layers : Int32)
  | contextSize (size : UInt32)
  | windivert (enabled : Int32)
  | inlineBlock (enabled : Int32)
  | windivertFilter (filter : Bytes)
  | rulesDir (dir : Bytes)
  | behavioral (dir : Option Bytes) (threshold : Float)
  | mode (mode : Int32)
  | threatDb (path : Bytes)
  | blockAllowlist (csv : Bytes)

/-- mirrors src/src/wirewolf_capi.cpp:90-228 -/
def WirewolfConfig.set (cfg : WirewolfConfig) : Setter → WirewolfConfig
  | .interface iface => { cfg with interface := iface }
  | .llamaModel path => { cfg with llamaModelPath := path }
  | .openvinoModel path => { cfg with openvinoModelPath := path }
  | .openvinoEnabled enabled => { cfg with openvinoEnabled := enabled != 0 }
  | .logLevel level => { cfg with logLevel := level.toInt }
  | .queueCapacity capacity =>
    if capacity = 0 then cfg else { cfg with queueCapacity := capacity.toNat }
  | .payloadLimit limit => if limit = 0 then cfg else { cfg with payloadCharLimit := limit.toNat }
  | .maxTokens maxTokens =>
    if maxTokens.toInt ≤ 0 then cfg else { cfg with maxTokens := maxTokens.toInt }
  | .gpuLayers layers => { cfg with nGpuLayers := layers.toInt }
  | .contextSize size => if size = 0 then cfg else { cfg with contextSize := size.toNat }
  | .windivert enabled => { cfg with useWindivert := enabled != 0 }
  | .inlineBlock enabled => { cfg with inlineBlock := enabled != 0 }
  | .windivertFilter filter => { cfg with windivertFilter := filter }
  | .rulesDir dir => { cfg with rulesDir := dir }
  | .behavioral dir threshold =>
    { cfg with behavioralModelsDir := dir.getD [], behavioralThreshold := threshold }
  | .mode mode =>
    { cfg with
      analysisMode := if mode = 1 then .live else if mode = 2 then .forensic else .auto }
  | .threatDb path => { cfg with threatProxyDb := path }
  | .blockAllowlist csv => { cfg with blockAllowlist := csv }

/-- What the command line and any sequence of setter calls can produce. -/
inductive Configured (R : Readers) : WirewolfConfig → Prop
  | create : Configured R {}
  | parse (argv : List Bytes) : Configured R (.parse R argv)
  | set {cfg : WirewolfConfig} (s : Setter) : Configured R cfg → Configured R (cfg.set s)

/-! ## The limits of the LLM stage -/

/-- The limits the LLM stage reads; only a rejected configuration may have a
`maxTokens` out of range. -/
structure Limits (cfg : WirewolfConfig) : Prop where
  maxPromptTokens : cfg.maxPromptTokens = 7000
  maxTokens : cfg.parseError = [] → 0 < cfg.maxTokens ∧ cfg.maxTokens < 2 ^ 31
  contextSize : 0 < cfg.contextSize ∧ cfg.contextSize < 2 ^ 32

/-- `cfg'` has the limits of `cfg`. -/
theorem Limits.same {cfg cfg' : WirewolfConfig} (h : Limits cfg)
    (hprompt : cfg'.maxPromptTokens = cfg.maxPromptTokens)
    (htokens : cfg'.parseError = [] → cfg.parseError = [] ∧ cfg'.maxTokens = cfg.maxTokens)
    (hctx : cfg'.contextSize = cfg.contextSize) : Limits cfg' where
  maxPromptTokens := hprompt.trans h.maxPromptTokens
  maxTokens he := by
    obtain ⟨he, ht⟩ := htokens he
    rw [ht]; exact h.maxTokens he
  contextSize := by rw [hctx]; exact h.contextSize

/-- The configuration that a round of the loop leaves, whether it goes on. -/
def outcome : Except WirewolfConfig WirewolfConfig → WirewolfConfig
  | .ok cfg => cfg
  | .error cfg => cfg

theorem Limits.reading {cfg : WirewolfConfig} (h : Limits cfg) {α : Type} {r : Except Bytes α}
    {k : α → Except WirewolfConfig WirewolfConfig}
    (hk : ∀ n, r = .ok n → Limits (outcome (k n))) : Limits (outcome (cfg.reading r k)) := by
  unfold WirewolfConfig.reading
  split
  · exact hk _ rfl
  · refine h.same rfl (fun he => ?_) rfl
    exact absurd (List.append_eq_nil_iff.1 he).1 (by decide)

/-- A rejected value may be anything, an accepted one has passed the test. -/
theorem Limits.checked {cfg : WirewolfConfig} {ok : Bool} {message : String}
    (hm : lit message ≠ []) (hprompt : cfg.maxPromptTokens = 7000)
    (hctx : 0 < cfg.contextSize ∧ cfg.contextSize < 2 ^ 32)
    (htokens : ok = true → cfg.parseError = [] → 0 < cfg.maxTokens ∧ cfg.maxTokens < 2 ^ 31) :
    Limits (outcome (cfg.checked ok message)) := by
  unfold WirewolfConfig.checked
  split
  · next hok => exact ⟨hprompt, htokens hok, hctx⟩
  · exact ⟨hprompt, fun he => absurd he hm, hctx⟩

theorem stoi_range {s : Bytes} {n : Int} (h : stoi s = .ok n) : -2 ^ 31 ≤ n ∧ n < 2 ^ 31 := by
  unfold stoi at h
  split at h
  · split at h
    · next hn => cases h; exact hn
    · cases h
  · cases h

/-- Whatever an option leaves has the limits. -/
theorem apply_limits (R : Readers) {cfg : WirewolfConfig} (value : Bytes) (h : Limits cfg)
    (f : WirewolfConfig.Flag) : Limits (outcome (f.apply R cfg value)) := by
  have other : ∀ {ok message} {c : WirewolfConfig}, lit message ≠ [] →
      c.maxPromptTokens = cfg.maxPromptTokens → c.contextSize = cfg.contextSize →
      c.maxTokens = cfg.maxTokens → c.parseError = cfg.parseError →
      Limits (outcome (c.checked ok message)) := by
    intro ok message c hm hprompt hctx htokens herr
    refine .checked hm (hprompt.trans h.maxPromptTokens) (hctx ▸ h.contextSize) fun _ he => ?_
    rw [htokens]; exact h.maxTokens (herr ▸ he)
  cases f with
  | logLevel | queueCapacity | payloadLimit | maxFlowSize =>
    exact h.reading fun n _ => other (by decide) rfl rfl rfl rfl
  | maxTokens =>
    -- the one option that sets a limit of the LLM stage
    refine h.reading fun n hn => .checked (by decide) h.maxPromptTokens h.contextSize fun hok _ =>
      ?_
    have hrange := stoi_range hn
    simp only [Bool.not_eq_true', decide_eq_false_iff_not] at hok
    exact ⟨Int.not_le.1 hok, hrange.2⟩
  | maxLlmFlows | entropyHigh | entropyLow | behavioralThreshold =>
    exact h.reading fun x _ => h.same rfl (fun he => ⟨he, rfl⟩) rfl
  | behavioralModels => exact h.same rfl (fun he => ⟨he, rfl⟩) rfl
  | mode =>
    have hmode : lit "mode must be live|forensic|auto" ≠ [] := by decide
    have hset : ∀ m, Limits { cfg with analysisMode := m } :=
      fun m => h.same rfl (fun he => ⟨he, rfl⟩) rfl
    rw [WirewolfConfig.Flag.apply]
    split
    · exact hset .live
    · split
      · exact hset .forensic
      · split
        · exact hset .auto
        · exact h.same rfl (fun he => absurd he hmode) rfl

theorem withValue_limits {R : Readers} {cfg : WirewolfConfig} {arg value : Bytes} (h : Limits cfg)
    {r : Except WirewolfConfig WirewolfConfig} (hr : cfg.withValue R arg value = some r) :
    Limits (outcome r) := by
  obtain ⟨f, -, rfl⟩ := Option.map_eq_some_iff.1 hr
  exact apply_limits R value h f

theorem withoutValue_limits {cfg : WirewolfConfig} (h : Limits cfg) (arg : Bytes) :
    Limits (cfg.withoutValue arg) := by
  unfold WirewolfConfig.withoutValue
  split
  · exact h.same rfl (fun he => ⟨he, rfl⟩) rfl
  · split
    · exact h.same rfl (fun he => ⟨he, rfl⟩) rfl
    · exact h

theorem parseArgs_limits (R : Readers) {cfg : WirewolfConfig} (h : Limits cfg) (args : List Bytes) :
    Limits (cfg.parseArgs R args) := by
  induction cfg, args using WirewolfConfig.parseArgs.induct R with
  | case1 cfg => exact h
  | case2 cfg arg => exact withoutValue_limits h arg
  | case3 cfg arg value rest cfg' hval ih =>
    rw [WirewolfConfig.parseArgs, hval]
    exact ih (withValue_limits h hval)
  | case4 cfg arg value rest cfg' hval =>
    rw [WirewolfConfig.parseArgs, hval]
    exact withValue_limits h hval
  | case5 cfg arg value rest hval ih =>
    rw [WirewolfConfig.parseArgs, hval]
    exact ih (withoutValue_limits h arg)

theorem defaults : Limits {} := ⟨rfl, fun _ => by decide, by decide⟩

/-- Neither the command line nor a setter relates the limits to each other. -/
theorem configured_limits {R : Readers} {cfg : WirewolfConfig} (h : Configured R cfg) :
    Limits cfg := by
  induction h with
  | create => exact defaults
  | parse argv =>
    unfold WirewolfConfig.parse
    split
    · refine parseArgs_limits R ?_ _
      exact defaults.same rfl (fun he => ⟨he, rfl⟩) rfl
    · exact defaults
  | set s _ ih =>
    cases s with
    | maxTokens n =>
      rw [WirewolfConfig.set]
      split
      · exact ih
      · exact ⟨ih.maxPromptTokens, fun _ => ⟨by dsimp only; omega, n.toInt_lt⟩, ih.contextSize⟩
    | contextSize n =>
      rw [WirewolfConfig.set]
      split
      · exact ih
      · next hn =>
        have hpos : 0 < n.toNat := Nat.pos_of_ne_zero fun h0 => hn (UInt32.toNat_inj.1 h0)
        exact ⟨ih.maxPromptTokens, ih.maxTokens, hpos, n.toNat_lt⟩
    | queueCapacity n =>
      rw [WirewolfConfig.set]
      split
      · exact ih
      · exact ih.same rfl (fun he => ⟨he, rfl⟩) rfl
    | payloadLimit n =>
      rw [WirewolfConfig.set]
      split
      · exact ih
      · exact ih.same rfl (fun he => ⟨he, rfl⟩) rfl
    | _ => exact ih.same rfl (fun he => ⟨he, rfl⟩) rfl

end Wirewolf.L1.Config
