import Wirewolf.L1Encoding.Config

/-!
# Prompt and model context (`LlmInference::generate_response`)

The tokenizer, the decoder and the sampler of the inference library are
parameters; what is modelled is what the function hands to `llama_decode`.
The library asserts that a batch holds at most `n_batch` tokens, and needs a
cell of the context for every token of the prompt and of the answer.

* `trim_headTail`: a long prompt keeps a head and a disjoint tail.
* `decodes_of_reaches`: the batches, the prompt's and one for each token of
  the answer.
* `fits_iff`: the prompt fits exactly if the limits, which nothing relates to
  each other, happen to.
-/
namespace Wirewolf.L4.Context

open Wirewolf.L1.Config

abbrev Token := Int32

/-- One entry of a `llama_batch`. -/
structure Slot where
  token : Token
  pos : Nat
  logits : Bool
  deriving DecidableEq

abbrev Batch := List Slot

/-- What the library answers; `decode` and `sample` may depend on the batches
decoded before. -/
structure Llama where
  /-- `none` when `llama_tokenize` returns a negative count -/
  tokenize : Bytes → Option (List Token)
  /-- whether the batch of that capacity can be allocated -/
  batchInit : Int → Bool
  /-- whether `llama_decode` returns 0 -/
  decode : List Batch → Batch → Bool
  sample : List Batch → Token
  isEog : Token → Bool
  /-- the bytes that `llama_token_to_piece` writes, if any -/
  toPiece : Token → Bytes

structure ContextParams where
  nCtx : Nat
  nBatch : Nat

/-- mirrors src/src/llm_inference.cpp:65-70 -/
def contextParams (cfg : WirewolfConfig) : ContextParams where
  nCtx := cfg.contextSize
  nBatch := cfg.contextSize

/-- The head with the instructions and the tail with the flow.
mirrors src/src/llm_inference.cpp:116-132 -/
def trim (cfg : WirewolfConfig) (tokens : List Token) : List Token :=
  if cfg.maxPromptTokens < tokens.length then
    let keepTail := min 1024 (cfg.maxPromptTokens.tdiv 2)
    let keepHead := cfg.maxPromptTokens - keepTail
    tokens.take keepHead.toNat ++ tokens.drop (tokens.length - keepTail.toNat)
  else tokens

/-- mirrors src/src/llm_inference.cpp:142-149 -/
def promptBatch (tokens : List Token) : Batch :=
  tokens.mapIdx fun i token => ⟨token, i, i + 1 = tokens.length⟩

/-- The sampling loop with the number of rounds left; the response so far
and the batches decoded so far.
mirrors src/src/llm_inference.cpp:165-191 -/
def sampling (L : Llama) : Nat → Nat → Bytes → List Batch → Bytes × List Batch
  | 0, _, response, decoded => (response, decoded)
  | left + 1, nCur, response, decoded =>
    let id := L.sample decoded
    if L.isEog id then (response, decoded)
    else
      let batch := [⟨id, nCur, true⟩]
      if L.decode decoded batch then
        sampling L left (nCur + 1) (response ++ L.toPiece id) (decoded ++ [batch])
      else (response ++ L.toPiece id, decoded ++ [batch])

/-- The response, and the batches passed to `llama_decode`.
mirrors src/src/llm_inference.cpp:94-198 -/
def generateResponse (L : Llama) (cfg : WirewolfConfig) (prompt : Bytes) : Bytes × List Batch :=
  if prompt.isEmpty then (lit "\x7b\x7d", [])
  else match L.tokenize prompt with
    | none => (lit "\x7b\x7d", [])
    | some tokens =>
      let tokens := trim cfg tokens
      if !L.batchInit (tokens.length + cfg.maxTokens) then (lit "\x7b\x7d", [])
      else
        let batch := promptBatch tokens
        if L.decode [] batch then sampling L cfg.maxTokens.toNat tokens.length [] [batch]
        else (lit "\x7b\x7d", [batch])

/-- The batches of a call, in order; the first is the prompt's. -/
def decodes (L : Llama) (cfg : WirewolfConfig) (prompt : Bytes) : List Batch :=
  (generateResponse L cfg prompt).2

/-- A prefix and a suffix of `tokens` that do not overlap, `n` tokens in all. -/
def HeadTail (n : Int) (tokens kept : List Token) : Prop :=
  ∃ head tail, kept = head ++ tail ∧ head <+: tokens ∧ tail <:+ tokens ∧
    head.length + tail.length ≤ tokens.length ∧ (kept.length : Int) = n

/-- The call fits the context: no batch is larger than `n_batch`, prompt and
answer have room together, and a truncated prompt is a head and a tail. -/
structure Fits (L : Llama) (cfg : WirewolfConfig) (prompt : Bytes) : Prop where
  batch : ∀ b ∈ decodes L cfg prompt, b.length ≤ (contextParams cfg).nBatch
  room : ∀ b, (decodes L cfg prompt).head? = some b →
    (b.length : Int) + cfg.maxTokens ≤ (contextParams cfg).nCtx
  truncated : ∀ b tokens, (decodes L cfg prompt).head? = some b → L.tokenize prompt = some tokens →
    cfg.maxPromptTokens < tokens.length → HeadTail cfg.maxPromptTokens tokens (b.map Slot.token)

/-- The prompt of a call that reaches the decoder. -/
def Reaches (L : Llama) (cfg : WirewolfConfig) (prompt : Bytes) (tokens : List Token) : Prop :=
  prompt ≠ [] ∧ L.tokenize prompt = some tokens ∧
    L.batchInit ((trim cfg tokens).length + cfg.maxTokens) = true

/-! ## What reaches the decoder -/

section

variable {L : Llama} {cfg : WirewolfConfig} {prompt : Bytes}

theorem trim_length (h : cfg.maxPromptTokens = 7000) (tokens : List Token) :
    (trim cfg tokens).length = min tokens.length 7000 := by
  unfold trim
  rw [h]
  split
  · have htail : (min 1024 ((7000 : Int).tdiv 2)).toNat = 1024 := by decide
    have hhead : ((7000 : Int) - min 1024 ((7000 : Int).tdiv 2)).toNat = 5976 := by decide
    simp only [htail, hhead, List.length_append, List.length_take, List.length_drop]
    omega
  · omega

theorem trim_headTail (h : cfg.maxPromptTokens = 7000) {tokens : List Token}
    (hlong : cfg.maxPromptTokens < tokens.length) :
    HeadTail cfg.maxPromptTokens tokens (trim cfg tokens) := by
  have hlen := trim_length h tokens
  refine ⟨tokens.take 5976, tokens.drop (tokens.length - 1024), ?_, List.take_prefix ..,
    List.drop_suffix ..,
    ?_, ?_⟩
  · unfold trim
    rw [if_pos hlong, h]; rfl
  · rw [List.length_take, List.length_drop]; omega
  · rw [hlen, h]; omega

theorem promptBatch_length (tokens : List Token) : (promptBatch tokens).length = tokens.length := by
  rw [promptBatch, List.length_mapIdx]

theorem promptBatch_tokens (tokens : List Token) :
    (promptBatch tokens).map Slot.token = tokens := by
  refine List.ext_getElem ?_ fun i h₁ h₂ => ?_
  · rw [List.length_map, promptBatch_length]
  · simp [promptBatch]

/-- The loop decodes one token at a time. -/
theorem sampling_batches (left nCur : Nat) (response : Bytes) (decoded : List Batch) :
    ∃ more, (sampling L left nCur response decoded).2 = decoded ++ more ∧ ∀ b ∈ more,
    b.length = 1 := by
  induction left generalizing nCur response decoded with
  | zero => exact ⟨[], (List.append_nil _).symm, fun b hb => by cases hb⟩
  | succ left ih =>
    rw [sampling]
    dsimp only
    split
    · exact ⟨[], (List.append_nil _).symm, fun b hb => by cases hb⟩
    · split
      · obtain ⟨more, hmore, hone⟩ := ih (nCur + 1) (response ++ L.toPiece (L.sample decoded))
          (decoded ++ [[⟨L.sample decoded, nCur, true⟩]])
        refine ⟨[⟨L.sample decoded, nCur, true⟩] :: more, by rw [hmore, List.append_assoc]; rfl, ?_⟩
        intro b hb
        rcases List.mem_cons.1 hb with rfl | hb
        · rfl
        · exact hone b hb
      · refine ⟨[[⟨L.sample decoded, nCur, true⟩]], rfl, fun b hb => ?_⟩
        rw [List.mem_singleton.1 hb]; rfl

/-- The prompt in one batch, then single tokens. -/
theorem decodes_of_reaches {tokens : List Token} (h : Reaches L cfg prompt tokens) :
    ∃ more, decodes L cfg prompt = promptBatch (trim cfg tokens) :: more ∧ ∀ b ∈ more,
    b.length = 1 := by
  obtain ⟨hne, htok, hinit⟩ := h
  have hempty : prompt.isEmpty = false := by simpa using hne
  unfold decodes generateResponse
  rw [hempty, htok]
  simp only [hinit, Bool.not_true, Bool.false_eq_true, if_false]
  split
  · obtain ⟨more, hmore, hone⟩ := sampling_batches (L := L) cfg.maxTokens.toNat
      (trim cfg tokens).length [] [promptBatch (trim cfg tokens)]
    exact ⟨more, hmore, hone⟩
  · exact ⟨[], rfl, fun b hb => by cases hb⟩

theorem reaches_of_decodes {b : Batch} (h : (decodes L cfg prompt).head? = some b) :
    ∃ tokens, Reaches L cfg prompt tokens := by
  unfold decodes generateResponse at h
  split at h
  · cases h
  · next hne =>
    split at h
    · cases h
    · next tokens htok =>
      dsimp only at h
      split at h
      · cases h
      · next hinit => exact ⟨tokens, by simpa using hne, htok, by simpa using hinit⟩

end

/-- With every limit in its own range, the call fits exactly if the tokens it
keeps and those of the answer do. -/
theorem fits_iff_of_limits {L : Llama} {cfg : WirewolfConfig} {prompt : Bytes} (h : Limits cfg)
    (hok : cfg.parseError = []) :
    Fits L cfg prompt ↔ ∀ tokens, Reaches L cfg prompt tokens →
      ((min tokens.length 7000 : Nat) : Int) + cfg.maxTokens ≤ cfg.contextSize := by
  have hmax := (h.maxTokens hok).1
  have hlen : ∀ tokens, (promptBatch (trim cfg tokens)).length = min tokens.length 7000 :=
    fun tokens => (promptBatch_length _).trans (trim_length h.maxPromptTokens tokens)
  constructor
  · intro hfits tokens hreach
    obtain ⟨more, hdec, -⟩ := decodes_of_reaches hreach
    have hroom := hfits.room _ (congrArg List.head? hdec)
    rwa [hlen] at hroom
  · intro hcond
    refine ⟨fun b hb => ?_, fun b hb => ?_, fun b tokens hb htok hlong => ?_⟩
    · have hctx := h.contextSize.1
      cases hd : (decodes L cfg prompt).head? with
      | none => rw [List.head?_eq_none_iff.1 hd] at hb; cases hb
      | some b' =>
        obtain ⟨tokens, hreach⟩ := reaches_of_decodes hd
        obtain ⟨more, hdec, hone⟩ := decodes_of_reaches hreach
        have hroom := hcond tokens hreach
        rw [hdec] at hb
        rcases List.mem_cons.1 hb with rfl | hb
        · rw [hlen]; simp only [contextParams]; omega
        · rw [hone b hb]; exact hctx
    · obtain ⟨tokens, hreach⟩ := reaches_of_decodes hb
      obtain ⟨more, hdec, -⟩ := decodes_of_reaches hreach
      rw [hdec] at hb
      cases hb
      rw [hlen]
      exact hcond tokens hreach
    · obtain ⟨tokens', hreach⟩ := reaches_of_decodes hb
      cases htok.symm.trans hreach.2.1
      obtain ⟨more, hdec, -⟩ := decodes_of_reaches hreach
      rw [hdec] at hb
      cases hb
      rw [promptBatch_tokens]
      exact trim_headTail h.maxPromptTokens hlong

theorem parseError_of_valid {cfg : WirewolfConfig} (h : cfg.valid = true) :
    cfg.parseError = [] := by
  simp only [WirewolfConfig.valid, Bool.and_eq_true, Bool.not_eq_true', Bool.or_eq_false_iff,
    Bool.not_eq_false'] at h
  exact List.isEmpty_iff.1 h.1.1.1

/-- For every configuration that is accepted: a call fits the context exactly
if the tokens of its prompt, cut at 7000, and of the answer do. -/
theorem fits_iff {R : Readers} {L : Llama} {cfg : WirewolfConfig} {prompt : Bytes}
    (h : Configured R cfg) (hv : cfg.valid = true) :
    Fits L cfg prompt ↔ ∀ tokens, Reaches L cfg prompt tokens →
      ((min tokens.length 7000 : Nat) : Int) + cfg.maxTokens ≤ cfg.contextSize :=
  fits_iff_of_limits (configured_limits h) (parseError_of_valid hv)

/-- Readers that know no number, and a library that makes a token of every
byte, never fails and answers nothing. -/
def noReaders : Readers := ⟨fun _ => .error (lit "stof"), fun _ => .error (lit "stod")⟩

def byteLlama : Llama where
  tokenize s := some (s.map fun c => c.toInt8.toInt32)
  batchInit _ := true
  decode _ _ := true
  sample _ := 0
  isEog _ := true
  toPiece _ := []

theorem reaches_byteLlama (cfg : WirewolfConfig) {s : Bytes} (h : s ≠ []) :
    Reaches byteLlama cfg s (s.map fun c => c.toInt8.toInt32) := ⟨h, rfl, rfl⟩

theorem fits_iff_defaults :
    Fits byteLlama (.parse noReaders [lit "wirewolf", lit "eth0", lit "m.xml", lit "m.gguf"])
      (lit "hi") ↔
      ∀ tokens,
      Reaches byteLlama (.parse noReaders [lit "wirewolf", lit "eth0", lit "m.xml", lit "m.gguf"])
        (lit "hi") tokens → ((min tokens.length 7000 : Nat) : Int) + 512 ≤ 8192 :=
  fits_iff (.parse _) (by decide)

/-- A smaller context, as the setter takes it. -/
def smallContext : WirewolfConfig :=
  ((WirewolfConfig.set {} (.interface (lit "eth0"))).set (.llamaModel (lit "m.gguf"))).set
    (.contextSize 4096)

/-- A prompt of 6000 tokens is decoded in one batch, whatever `n_batch` is. -/
theorem prompt_exceeds_batch :
    ¬ ∀ (R : Readers) (L : Llama) (cfg : WirewolfConfig) (prompt : Bytes),
    Configured R cfg → cfg.valid = true → Fits L cfg prompt := by
  intro h
  have hcfg : Configured noReaders smallContext := .set _ (.set _ (.set _ .create))
  have hfits := h noReaders byteLlama smallContext (List.replicate 6000 0x61) hcfg (by decide)
  have hlimits := configured_limits hcfg
  have hreach := reaches_byteLlama smallContext (s := List.replicate 6000 0x61)
    (by rw [Ne, List.replicate_eq_nil_iff]; decide)
  have hroom := (fits_iff_of_limits hlimits rfl).1 hfits _ hreach
  rw [List.length_map, List.length_replicate] at hroom
  exact absurd hroom (by decide)

end Wirewolf.L4.Context
