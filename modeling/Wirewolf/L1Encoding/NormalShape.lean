import Wirewolf.L1Encoding.Canonical

/-!
# The shape of a normalized text

Whatever the payload, the pass writes a text of lower-case bytes whose only
blank is the space, and it never writes two spaces in a row. A comment writes
nothing and leaves the `prevSpace` flag as it is, so the flag keeps telling
whether the last byte written, however far back in the input, was a space.

* `foldText_rule`: what holds of every text the pass can write.
* `normalizePayload_shape`: length, bytes and spacing of a normalized text.
* `normalizePayload_settled_iff`: when a second normalization changes nothing.
-/
namespace Wirewolf.L1.NormalShape

open Wirewolf.L1.Normalizer Wirewolf.L1.Folding Wirewolf.L1.Canonical

/-! ## What one byte writes -/

/-- A property of what is written behind a blank or not, kept by the bytes
that are written; the two comment branches write none. -/
theorem foldText_rule {P : Bool → Bytes → Prop} (hnil : ∀ p, P p [])
    (hemit : ∀ p c out, P (isSpace c) out → P p (emit p c ++ out)) :
    ∀ (skip : Nat) (prevSpace : Bool) (s : Bytes), P prevSpace (foldText skip prevSpace s)
  | _, _, [] => by rw [foldText]; exact hnil _
  | skip + 1, prevSpace, _ :: rest => by
    rw [foldText]
    exact foldText_rule hnil hemit skip prevSpace rest
  | 0, prevSpace, c :: rest => by
    cases hc : commentAt c rest with
    | none =>
      rw [foldText_cons prevSpace hc]
      exact hemit prevSpace c _ (foldText_rule hnil hemit 0 (isSpace c) rest)
    | some skip =>
      rw [foldText, hc]
      cases skip with
      | none => exact hnil prevSpace
      | some skip => exact foldText_rule hnil hemit skip prevSpace rest

/-- A byte the pass may write. -/
structure Folded (b : UInt8) : Prop where
  lower : ¬ (0x41 ≤ b ∧ b ≤ 0x5A)
  blank : isSpace b = true → b = 0x20

theorem folded_space : Folded 0x20 := ⟨by decide, fun _ => rfl⟩

theorem folded_toLower {c : UInt8} (hc : isSpace c = false) : Folded (toLower c) := by
  have hall : ∀ c, isSpace c = false →
      ¬ (0x41 ≤ toLower c ∧ toLower c ≤ 0x5A) ∧ isSpace (toLower c) = false := by
    decide +kernel
  obtain ⟨hlower, hblank⟩ := hall c hc
  exact ⟨hlower, fun hs => absurd (hblank.symm.trans hs) (by decide)⟩

theorem folded_of_mem_emit {p : Bool} {b c : UInt8} (h : b ∈ emit p c) : Folded b := by
  unfold emit at h
  split at h
  · split at h
    · cases h
    · rw [List.mem_singleton.1 h]; exact folded_space
  · next hc =>
    rw [List.mem_singleton.1 h]
    exact folded_toLower (Bool.eq_false_iff.2 hc)

/-- No two spaces meet in the text, and none stands first in it where a blank
has just been written. -/
structure Spaced (prevSpace : Bool) (out : Bytes) : Prop where
  head : prevSpace = true → out.head? ≠ some 0x20
  single : ¬ [0x20, 0x20] <:+: out

theorem spaced_nil (prevSpace : Bool) : Spaced prevSpace [] := ⟨fun _ => nofun, by simp⟩

/-- One byte keeps the spacing: a blank is written only behind a non-blank,
and behind it the flag is set. -/
theorem Spaced.emit {c : UInt8} {out : Bytes} (h : Spaced (isSpace c) out) (prevSpace : Bool) :
    Spaced prevSpace (emit prevSpace c ++ out) := by
  unfold Folding.emit
  cases hc : isSpace c with
  | true =>
    rw [hc] at h
    cases prevSpace with
    | true => exact h
    | false =>
      refine ⟨nofun, ?_⟩
      rw [if_pos rfl, if_neg (by decide), List.singleton_append, two_infix_cons, not_or]
      exact ⟨fun hx => h.head rfl hx.2, h.single⟩
  | false =>
    have hne : toLower c ≠ 0x20 := by
      intro he
      have hall : ∀ c, toLower c = 0x20 → isSpace c = true := by decide +kernel
      exact absurd (hc.symm.trans (hall c he)) (by decide)
    rw [if_neg (by decide), List.singleton_append]
    refine ⟨fun _ hx => hne (Option.some.inj hx), ?_⟩
    rw [two_infix_cons, not_or]
    exact ⟨fun hx => hne hx.1, h.single⟩

/-! ## What the pass writes -/

theorem foldText_folded (skip : Nat) (prevSpace : Bool) (s : Bytes) :
    ∀ b ∈ foldText skip prevSpace s, Folded b := by
  refine foldText_rule (P := fun _ out => ∀ b ∈ out, Folded b)
    (fun _ => by simp) ?_ skip prevSpace s
  intro p c out hout b hb
  rcases List.mem_append.1 hb with hb | hb
  · exact folded_of_mem_emit hb
  · exact hout b hb

theorem foldText_spaced (skip : Nat) (prevSpace : Bool) (s : Bytes) :
    Spaced prevSpace (foldText skip prevSpace s) :=
  foldText_rule (P := Spaced) spaced_nil (fun p _ _ h => h.emit p) skip prevSpace s

/-- The canonical shape: short, no capital, no blank but the space, and no
space next to another. -/
structure Shape (out : Bytes) : Prop where
  short : out.length ≤ 65536
  noCapital : ∀ b ∈ out, ¬ (0x41 ≤ b ∧ b ≤ 0x5A)
  /-- tab, newline, carriage return, vertical tab, form feed -/
  noControl : ∀ b ∈ out, b ∉ [0x09, 0x0A, 0x0D, 0x0B, 0x0C]
  single : ¬ [0x20, 0x20] <:+: out

theorem Folded.noControl {b : UInt8} (h : Folded b) : b ∉ [0x09, 0x0A, 0x0D, 0x0B, 0x0C] := by
  intro hb
  have hspace : isSpace b = true := by
    simp only [List.mem_cons, List.not_mem_nil, or_false] at hb
    rcases hb with rfl | rfl | rfl | rfl | rfl <;> rfl
  rw [h.blank hspace] at hb
  revert hb
  decide

theorem normalizePayload_shape (raw : Bytes) : Shape (normalizePayload raw) := by
  have hlen := normalize_length_le raw
  have hfold := foldText_folded 0 false (decodePasses 3 (raw.take maxNorm))
  exact ⟨by unfold maxNorm at hlen; omega, fun b hb => (hfold b hb).lower,
    fun b hb => (hfold b hb).noControl, (foldText_spaced 0 false _).single⟩

/-- A normalized text is normalized again to itself exactly when the first
round has not assembled an escape or a comment opener. -/
theorem normalizePayload_settled_iff (raw : Bytes) :
    normalizePayload (normalizePayload raw) = normalizePayload raw ↔
      NoEscape (normalizePayload raw) ∧ Clear (normalizePayload raw) := by
  rw [canonical_iff]
  refine ⟨fun h => ⟨h.noEscape, h.clear⟩, fun hx => ?_⟩
  have hfold := foldText_folded 0 false (decodePasses 3 (raw.take maxNorm))
  have hlen := normalize_length_le raw
  have hlit : lit "  " = [0x20, 0x20] := by decide
  refine ⟨Nat.le_trans hlen (Nat.min_le_left _ _), hx.1, hx.2, fun c hc => ?_,
    fun c hc => (hfold c hc).blank, ?_⟩
  · exact if_neg (hfold c hc).lower
  · rw [hlit]; exact (foldText_spaced 0 false _).single

end Wirewolf.L1.NormalShape
