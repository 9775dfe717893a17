import Wirewolf.L1Encoding.Normalizer

/-!
# Percent-encoding and its decoder

An encoding level replaces every `%` by `%25` and any other bytes by `%XX`,
with hex digits of either case (`EncodedOnce`); `Encoded k` is `k` levels on
top of each other.

* `decodeLoop_encoded`: one pass of the decoder undoes one level, and reports
  no change only when there was nothing to undo.
* `decodePasses_append`: a text without `%` and `+` in front of another is
  left alone.
* `normalize_encoded`: up to three levels are invisible in the normalized
  payload.
-/
namespace Wirewolf.L1.PercentCoding

open Wirewolf.L1.Normalizer

/-- Nothing in the text is touched by the decoder. -/
structure Plain (s : Bytes) : Prop where
  noPercent : 0x25 ∉ s
  noPlus : 0x2B ∉ s

theorem Plain.of_cons {c : UInt8} {s : Bytes} (h : Plain (c :: s)) :
    c ≠ 0x25 ∧ c ≠ 0x2B ∧ Plain s :=
  ⟨fun he => h.noPercent (he ▸ List.mem_cons_self ..),
    fun he => h.noPlus (he ▸ List.mem_cons_self ..),
    fun hm => h.noPercent (List.mem_cons_of_mem _ hm), fun hm =>
      h.noPlus (List.mem_cons_of_mem _ hm)⟩

theorem decodeAt_literal {c : UInt8} (h₁ : c ≠ 0x25) (h₂ : c ≠ 0x2B) (rest : Bytes) :
    decodeAt c rest = (c, 0, false) := by
  simp only [decodeAt, h₁, h₂, false_and, if_false]

theorem decodeLoop_literal {c : UInt8} (h₁ : c ≠ 0x25) (h₂ : c ≠ 0x2B) (rest : Bytes) :
    decodeLoop 0 (c :: rest) = (c :: (decodeLoop 0 rest).1, (decodeLoop 0 rest).2) := by
  rw [decodeLoop, decodeAt_literal h₁ h₂]
  simp only [Bool.false_or]

/-! ## Plain text -/

theorem decodeLoop_append : ∀ {a : Bytes}, Plain a → ∀ x : Bytes,
    decodeLoop 0 (a ++ x) = (a ++ (decodeLoop 0 x).1, (decodeLoop 0 x).2)
  | [], _, _ => rfl
  | c :: a, h, x => by
    obtain ⟨h₁, h₂, ha⟩ := h.of_cons
    rw [List.cons_append, decodeLoop_literal h₁ h₂, decodeLoop_append ha x]
    rfl

theorem decodePasses_succ (pass : Nat) (s : Bytes) :
    decodePasses (pass + 1) s =
      if (decodeLoop 0 s).2 then decodePasses pass (decodeLoop 0 s).1 else (decodeLoop 0 s).1 := rfl

theorem decodePasses_append {a : Bytes} (h : Plain a) (pass : Nat) (x : Bytes) :
    decodePasses pass (a ++ x) = a ++ decodePasses pass x := by
  induction pass generalizing x with
  | zero => rfl
  | succ pass ih =>
    rw [decodePasses_succ, decodePasses_succ, decodeLoop_append h]
    by_cases hf : (decodeLoop 0 x).2 = true
    · rw [if_pos hf, if_pos hf, ih]
    · rw [if_neg hf, if_neg hf]

theorem decodeLoop_plain {a : Bytes} (h : Plain a) : decodeLoop 0 a = (a, false) := by
  have ha := decodeLoop_append h []
  rw [List.append_nil] at ha
  rw [ha]
  simp only [decodeLoop, List.append_nil]

theorem decodePasses_plain {a : Bytes} (h : Plain a) (pass : Nat) : decodePasses pass a = a := by
  cases pass with
  | zero => rfl
  | succ pass =>
    rw [decodePasses_succ, decodeLoop_plain h]
    rfl

/-! ## Encoding levels -/

inductive EncodedOnce : Bytes → Bytes → Prop
  | nil : EncodedOnce [] []
  | literal {x e : Bytes} (c : UInt8) : c ≠ 0x25 → EncodedOnce x e → EncodedOnce (c :: x) (c :: e)
  | escaped {x e : Bytes} (c : UInt8) {h₁ h₂ : UInt8} : hexVal h₁ = some (c >>> 4) →
      hexVal h₂ = some (c &&& 0x0F) → EncodedOnce x e → EncodedOnce (c :: x) (0x25 :: h₁ :: h₂ :: e)

inductive Encoded : Nat → Bytes → Bytes → Prop
  | zero (x : Bytes) : Encoded 0 x x
  | succ {k : Nat} {x y e : Bytes} : Encoded k x y → EncodedOnce y e → Encoded (k + 1) x e

namespace EncodedOnce

variable {x e : Bytes}

theorem length_le (h : EncodedOnce x e) : x.length ≤ e.length := by
  induction h with
  | nil => exact Nat.le_refl 0
  | literal c hc _ ih => simpa using ih
  | escaped c _ _ _ ih => simp only [List.length_cons]; omega

/-- Hex digits are no plus signs. -/
theorem noPlus (h : EncodedOnce x e) (hx : 0x2B ∉ x) : 0x2B ∉ e := by
  have hex : ∀ {d v : UInt8}, hexVal d = some v → d ≠ 0x2B := by
    rintro d v hd rfl; cases hd
  induction h with
  | nil => exact hx
  | literal c hc _ ih =>
    rw [List.mem_cons, not_or] at hx ⊢
    exact ⟨hx.1, ih hx.2⟩
  | escaped c hd₁ hd₂ _ ih =>
    rw [List.mem_cons, not_or] at hx
    simp only [List.mem_cons, not_or]
    exact ⟨by decide, (hex hd₁).symm, (hex hd₂).symm, ih hx.2⟩

theorem eq_of_noPercent (h : EncodedOnce x e) (he : 0x25 ∉ e) : e = x := by
  induction h with
  | nil => rfl
  | literal c hc _ ih => rw [ih fun hm => he (List.mem_cons_of_mem _ hm)]
  | escaped c _ _ _ ih => exact absurd (List.mem_cons_self ..) he

end EncodedOnce

/-- The two digits of a byte give the byte. -/
theorem nibbles (c : UInt8) : ((c >>> 4) <<< 4) ||| (c &&& 0x0F) = c := by
  revert c
  decide +kernel

theorem decodeAt_escaped {c h₁ h₂ : UInt8} (hd₁ : hexVal h₁ = some (c >>> 4))
    (hd₂ : hexVal h₂ = some (c &&& 0x0F)) (rest : Bytes) :
    decodeAt 0x25 (h₁ :: h₂ :: rest) = (c, 2, true) := by
  have hu : ¬ (h₁ = 0x75 ∨ h₁ = 0x55) := by
    rintro (rfl | rfl) <;> cases hd₁
  have hpair : hexPair (some h₁) (some h₂) = some c := by
    simp [hexPair, hd₁, hd₂, nibbles]
  simp [decodeAt, hu, hpair]

/-- One pass undoes one level. -/
theorem decodeLoop_encoded {x e : Bytes} (h : EncodedOnce x e) (hx : 0x2B ∉ x) :
    (decodeLoop 0 e).1 = x ∧ ((decodeLoop 0 e).2 = false → 0x25 ∉ e) := by
  induction h with
  | nil => exact ⟨rfl, fun _ => List.not_mem_nil⟩
  | literal c hc _ ih =>
    rw [List.mem_cons, not_or] at hx
    obtain ⟨h₁, h₂⟩ := ih hx.2
    rw [decodeLoop_literal hc (Ne.symm hx.1)]
    refine ⟨by rw [h₁], fun hf => ?_⟩
    rw [List.mem_cons, not_or]
    exact ⟨Ne.symm hc, h₂ hf⟩
  | escaped c hd₁ hd₂ _ ih =>
    rw [List.mem_cons, not_or] at hx
    rw [decodeLoop, decodeAt_escaped hd₁ hd₂]
    simp only [decodeLoop, Bool.true_or, Bool.true_eq_false, false_implies, and_true]
    rw [(ih hx.2).1]

namespace Encoded

variable {k : Nat} {x e : Bytes}

theorem length_le (h : Encoded k x e) : x.length ≤ e.length := by
  induction h with
  | zero => exact Nat.le_refl _
  | succ _ ho ih => exact Nat.le_trans ih ho.length_le

theorem noPlus (h : Encoded k x e) (hx : 0x2B ∉ x) : 0x2B ∉ e := by
  induction h with
  | zero => exact hx
  | succ _ ho ih => exact ho.noPlus (ih hx)

theorem eq_of_noPercent (h : Encoded k x e) (he : 0x25 ∉ e) : e = x := by
  induction h with
  | zero => rfl
  | succ _ ho ih =>
    have heq := ho.eq_of_noPercent he
    rw [heq]
    exact ih (heq ▸ he)

/-- Enough passes undo all levels: a pass without a change has found a text
without `%`, which no level has touched. -/
theorem decodePasses (h : Encoded k x e) (hx : Plain x) {pass : Nat} (hk : k ≤ pass) :
    Normalizer.decodePasses pass e = x := by
  induction h generalizing pass with
  | zero => exact decodePasses_plain hx pass
  | @succ k x y e hy ho ih =>
    obtain ⟨pass, rfl⟩ : ∃ n, pass = n + 1 := ⟨pass - 1, by omega⟩
    obtain ⟨hout, hflag⟩ := decodeLoop_encoded ho (hy.noPlus hx.noPlus)
    rw [decodePasses_succ, hout]
    cases hf : (decodeLoop 0 e).2 with
    | true => exact ih hx (by omega)
    | false =>
      have heq := ho.eq_of_noPercent (hflag hf)
      exact hy.eq_of_noPercent (heq ▸ hflag hf)

end Encoded

/-- Up to three levels of encoding of a text without `%` and `+` leave no
trace in the normalized payload. -/
theorem normalize_encoded (x e : Bytes) (k : Nat) (hk : k ≤ 3) (hpercent : 0x25 ∉ x)
    (hplus : 0x2B ∉ x) (h : Encoded k x e) (hlen : e.length ≤ maxNorm) :
    normalizePayload e = normalizePayload x := by
  have hx : Plain x := ⟨hpercent, hplus⟩
  rw [normalizePayload, normalizePayload, List.take_of_length_le hlen,
    List.take_of_length_le (Nat.le_trans h.length_le hlen), h.decodePasses hx hk,
    decodePasses_plain hx]

/-- `'` as `%27`, then `%2527` with a letter encoded as well. -/
theorem normalize_encoded_quote :
    normalizePayload (lit "%2527 %4Fr") = normalizePayload (lit "' Or") := by
  have h₁ : EncodedOnce (lit "' Or") (lit "%27 Or") :=
    .escaped 0x27 rfl rfl
      (.literal _ (by decide) (.literal _ (by decide) (.literal _ (by decide) .nil)))
  have h₂ : EncodedOnce (lit "%27 Or") (lit "%2527 %4Fr") :=
    .escaped 0x25 rfl rfl (.literal _ (by decide) (.literal _ (by decide) (.literal _ (by decide)
      (.escaped 0x4F rfl rfl (.literal _ (by decide) .nil)))))
  exact normalize_encoded (lit "' Or") (lit "%2527 %4Fr") 2 (by decide) (by decide) (by decide)
    (.succ (.succ (.zero _) h₁) h₂) (by decide)

end Wirewolf.L1.PercentCoding
