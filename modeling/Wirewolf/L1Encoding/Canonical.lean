import Wirewolf.L1Encoding.Folding

/-!
# Canonical texts

The texts that the normalizer leaves alone, and what a context does to one.
Everything the normalizer does to a text makes it shorter, except replacing
`+`, a blank or a capital by another byte; a text of unchanged length is
therefore one in which nothing was decoded and no comment opened.

* `canonical_iff`: the fixed points of `normalizePayload`, read off the text.
* `fold_behind`: the pass behind a context whose comments are all closed.
* `hidden_behind`: the pass behind a context whose comment reaches further.
-/
namespace Wirewolf.L1.Canonical

open Wirewolf.L1.Normalizer Wirewolf.L1.PercentCoding Wirewolf.L1.Folding

/-! ## Lengths -/

theorem decodeLoop_length_le : ∀ (skip : Nat) (s : Bytes),
    (decodeLoop skip s).1.length ≤ s.length - skip
  | _, [] => by simp [decodeLoop]
  | skip + 1, _ :: rest => by
    have := decodeLoop_length_le skip rest
    rw [decodeLoop, List.length_cons]; omega
  | 0, c :: rest => by
    have := decodeLoop_length_le (decodeAt c rest).2.1 rest
    simp only [decodeLoop, List.length_cons]; omega

theorem decodePasses_length_le (pass : Nat) (s : Bytes) :
    (decodePasses pass s).length ≤ s.length := by
  induction pass generalizing s with
  | zero => exact Nat.le_refl _
  | succ pass ih =>
    have h₁ := decodeLoop_length_le 0 s
    rw [decodePasses_succ]
    split
    · have := ih (decodeLoop 0 s).1; omega
    · omega

theorem foldText_length_le : ∀ (skip : Nat) (prevSpace : Bool) (s : Bytes),
    (foldText skip prevSpace s).length ≤ s.length - skip
  | _, _, [] => by simp [foldText]
  | skip + 1, prevSpace, _ :: rest => by
    have := foldText_length_le skip prevSpace rest
    rw [foldText, List.length_cons]; omega
  | 0, prevSpace, c :: rest => by
    cases hc : commentAt c rest with
    | none =>
      have hone := emit_length_le prevSpace c
      have := foldText_length_le 0 (isSpace c) rest
      rw [foldText_cons prevSpace hc, List.length_append, List.length_cons]; omega
    | some skip =>
      rw [foldText, hc]
      cases skip with
      | none => exact Nat.zero_le _
      | some skip =>
        have := foldText_length_le skip prevSpace rest
        simp only [List.length_cons]; omega

theorem normalize_length_le (s : Bytes) : (normalizePayload s).length ≤ min maxNorm s.length := by
  have h₁ := foldText_length_le 0 false (decodePasses 3 (s.take maxNorm))
  have h₂ := decodePasses_length_le 3 (s.take maxNorm)
  rw [List.length_take] at h₂
  rw [normalizePayload]; omega

/-! ## What an unchanged length excludes -/

/-- The decoder finds nothing to decode. -/
def NoEscape (s : Bytes) : Prop := (decodeLoop 0 s).2 = false

instance (s : Bytes) : Decidable (NoEscape s) := inferInstanceAs (Decidable (_ = _))

theorem hexPair_length {rest : Bytes} {i : Nat} {b : UInt8}
    (h : hexPair rest[i]? rest[i + 1]? = some b) : i + 2 ≤ rest.length := by
  apply Nat.not_lt.1
  intro hlt
  rw [List.getElem?_eq_none (i := i + 1) (by omega)] at h
  simp [hexPair] at h

/-- What a round does: nothing, a plus sign made a blank, or an escape that
takes bytes behind it. -/
theorem decodeAt_cases (c : UInt8) (rest : Bytes) :
    (decodeAt c rest = (c, 0, false) ∧ c ≠ 0x2B) ∨ (decodeAt c rest = (0x20, 0, true) ∧ c = 0x2B) ∨
      ∃ b k, decodeAt c rest = (b, k + 1, true) ∧ k + 1 ≤ rest.length := by
  have hplus : (0x25 : UInt8) ≠ 0x2B := by decide
  unfold decodeAt
  split
  · next hc =>
    split
    · next b hb => exact .inr (.inr ⟨b, 4, rfl, by have := hexPair_length hb; omega⟩)
    · exact .inl ⟨rfl, hc.1 ▸ hplus⟩
  · split
    · next hc =>
      split
      · next b hb => exact .inr (.inr ⟨b, 1, rfl, by have := hexPair_length hb; omega⟩)
      · exact .inl ⟨rfl, hc ▸ hplus⟩
    · split
      · next hc => exact .inr (.inl ⟨rfl, hc⟩)
      · next hc => exact .inl ⟨rfl, hc⟩

theorem decodeLoop_noEscape : ∀ {s : Bytes}, NoEscape s → decodeLoop 0 s = (s, false)
  | [], _ => rfl
  | c :: s, h => by
    unfold NoEscape at h
    rw [decodeLoop] at h ⊢
    simp only [Bool.or_eq_false_iff] at h
    obtain ⟨hd, -⟩ | ⟨hd, -⟩ | ⟨b, k, hd, -⟩ := decodeAt_cases c s
    · rw [hd] at h ⊢
      rw [decodeLoop_noEscape h.2]
      rfl
    · rw [hd] at h; cases h.1
    · rw [hd] at h; cases h.1

theorem decodePasses_noEscape {s : Bytes} (h : NoEscape s) (pass : Nat) :
    decodePasses pass s = s := by
  cases pass with
  | zero => rfl
  | succ pass => rw [decodePasses_succ, decodeLoop_noEscape h]; rfl

/-- A pass that keeps the length has replaced plus signs and nothing else. -/
theorem decodeLoop_same_length {s : Bytes} (h : (decodeLoop 0 s).1.length = s.length) :
    0x2B ∉ (decodeLoop 0 s).1 ∧ ((decodeLoop 0 s).2 = true → 0x2B ∈ s) := by
  induction s with
  | nil => exact ⟨List.not_mem_nil, nofun⟩
  | cons c s ih =>
    have hle := decodeLoop_length_le (decodeAt c s).2.1 s
    have hlen : (decodeLoop (decodeAt c s).2.1 s).1.length = s.length := by
      simpa [decodeLoop] using h
    rw [decodeLoop]
    obtain ⟨hd, hc⟩ | ⟨hd, rfl⟩ | ⟨b, k, hd, hk⟩ := decodeAt_cases c s
    · rw [hd] at hlen ⊢
      obtain ⟨h₁, h₂⟩ := ih hlen
      simp only [List.mem_cons, not_or, Bool.false_or]
      exact ⟨⟨hc.symm, h₁⟩, fun hf => .inr (h₂ hf)⟩
    · rw [hd] at hlen ⊢
      simp only [List.mem_cons, not_or]
      exact ⟨⟨by decide, (ih hlen).1⟩, fun _ => .inl trivial⟩
    · rw [hd] at hlen hle
      simp only [] at hlen hle
      omega

theorem noPlus_decodePasses {s : Bytes} (pass : Nat) (h : (decodePasses pass s).length = s.length)
    (hs : 0x2B ∉ s) : 0x2B ∉ decodePasses pass s := by
  induction pass generalizing s with
  | zero => exact hs
  | succ pass ih =>
    have h₁ := decodeLoop_length_le 0 s
    rw [decodePasses_succ] at h ⊢
    split at h
    · next hf =>
      have h₂ := decodePasses_length_le pass (decodeLoop 0 s).1
      rw [if_pos hf]
      exact ih (by omega) (decodeLoop_same_length (by omega)).1
    · next hf => rw [if_neg hf]; exact (decodeLoop_same_length h).1

/-- Folding makes no plus sign, nor anything else that is no letter and no
blank. -/
theorem mem_of_mem_foldText {b : UInt8} (hb : b < 0x41) (hblank : b ≠ 0x20) :
    ∀ (skip : Nat) (prevSpace : Bool) (s : Bytes), b ∈ foldText skip prevSpace s → b ∈ s
  | _, _, [], h => by simp [foldText] at h
  | skip + 1, prevSpace, _ :: rest, h => by
    rw [foldText] at h
    exact List.mem_cons_of_mem _ (mem_of_mem_foldText hb hblank skip prevSpace rest h)
  | 0, prevSpace, c :: rest, h => by
    cases hc : commentAt c rest with
    | none =>
      rw [foldText_cons prevSpace hc, List.mem_append] at h
      rcases h with h | h
      · rw [eq_of_mem_emit hb hblank h]; exact List.mem_cons_self ..
      · exact List.mem_cons_of_mem _ (mem_of_mem_foldText hb hblank 0 (isSpace c) rest h)
    | some skip =>
      rw [foldText, hc] at h
      cases skip with
      | none => cases h
      | some skip =>
        exact List.mem_cons_of_mem _ (mem_of_mem_foldText hb hblank skip prevSpace rest h)

/-- A comment costs bytes. -/
theorem foldText_shorter {s : Bytes} (h : ¬ Clear s) (prevSpace : Bool) :
    (foldText 0 prevSpace s).length < s.length := by
  induction s generalizing prevSpace with
  | nil => exact absurd clear_nil h
  | cons c s ih =>
    cases hc : commentAt c s with
    | none =>
      have hone := emit_length_le prevSpace c
      have hs : ¬ Clear s := by
        intro hs
        apply h
        apply clear_cons.2
        refine ⟨fun hb => ?_, fun hl => ?_, hs⟩
        · rw [List.head?_eq_getElem?] at hb
          rw [commentAt, if_pos hb] at hc; cases hc
        · rw [List.head?_eq_getElem?] at hl
          rw [commentAt, if_neg (by rw [hl.1]; simp), if_pos hl] at hc; cases hc
      have := ih hs (isSpace c)
      rw [foldText_cons prevSpace hc, List.length_append, List.length_cons]; omega
    | some skip =>
      rw [foldText, hc]
      cases skip with
      | none => simp
      | some skip =>
        have := foldText_length_le skip prevSpace s
        simp only [List.length_cons]; omega

/-! ## Fixed points -/

/-- A text in canonical form. -/
structure CanonicalText (q : Bytes) : Prop where
  short : q.length ≤ maxNorm
  noEscape : NoEscape q
  clear : Clear q
  lower : ∀ c ∈ q, toLower c = c
  /-- the only blank is the space -/
  blank : ∀ c ∈ q, isSpace c = true → c = 0x20
  single : ¬ lit "  " <:+: q

theorem emitAll_eq_self {q : Bytes} (prevSpace : Bool) :
    emitAll prevSpace q = q ↔ (prevSpace = true → startsSpace q = false) ∧
      (∀ c ∈ q, toLower c = c) ∧ (∀ c ∈ q, isSpace c = true → c = 0x20) ∧ ¬ lit "  " <:+: q := by
  have hlit : lit "  " = [0x20, 0x20] := by decide
  rw [hlit]
  induction q generalizing prevSpace with
  | nil => simp [emitAll, startsSpace]
  | cons c s ih =>
    rw [two_infix_cons, not_or, List.forall_mem_cons, List.forall_mem_cons]
    have hstart : startsSpace (c :: s) = isSpace c := rfl
    rw [emitAll, hstart]
    cases hc : isSpace c with
    | false =>
      have hne : c ≠ 0x20 := by rintro rfl; cases hc
      rw [emit, hc]
      simp only [Bool.false_eq_true, if_false, List.singleton_append, List.cons.injEq, ih false,
        false_implies, hne, false_and, not_false_eq_true, true_and, imp_true_iff, and_assoc]
    | true =>
      cases prevSpace with
      | true =>
        refine iff_of_false (fun he => ?_) (by simp)
        have := congrArg List.length he
        have := emitAll_length_le true s
        simp only [emit, hc, if_true, List.nil_append, List.length_cons] at *
        omega
      | false =>
        have hlower : c = 0x20 → toLower c = c := by rintro rfl; rfl
        have hhead : (∀ d ∈ s, isSpace d = true → d = 0x20) →
            (startsSpace s = false ↔ s.head? ≠ some 0x20) := by
          intro hs
          cases s with
          | nil => simp [startsSpace]
          | cons d s =>
            cases hd : isSpace d with
            | true =>
              have hd' := hs d (List.mem_cons_self ..) hd
              subst hd'
              simp [startsSpace, hd]
            | false =>
              have hne : d ≠ 0x20 := by rintro rfl; cases hd
              simp [startsSpace, hd, hne]
        simp only [emit, hc, if_true, Bool.false_eq_true, if_false, List.singleton_append,
          List.cons.injEq, ih true, true_implies, false_implies, true_and]
        constructor
        · intro hx
          obtain ⟨rfl, h₁, h₂, h₃, h₄⟩ := hx
          exact ⟨⟨rfl, h₂⟩, ⟨rfl, h₃⟩, fun he => (hhead h₃).1 h₁ he.2, h₄⟩
        · intro hx
          obtain ⟨⟨-, h₂⟩, ⟨rfl, h₃⟩, h₁, h₄⟩ := hx
          exact ⟨rfl, (hhead h₃).2 fun he => h₁ ⟨rfl, he⟩, h₂, h₃, h₄⟩

/-- The texts that the normalizer leaves alone. -/
theorem canonical_iff {q : Bytes} : normalizePayload q = q ↔ CanonicalText q := by
  constructor
  · intro h
    have hle := normalize_length_le q
    rw [h] at hle
    have hshort : q.length ≤ maxNorm := by omega
    rw [normalizePayload, List.take_of_length_le hshort] at h
    have hescape : NoEscape q := by
      -- otherwise plus signs were replaced, and none is left to be `q`'s
      apply Bool.eq_false_iff.2
      intro hf
      rw [decodePasses_succ, if_pos hf] at h
      have hlen := congrArg List.length h
      have h₁ := decodeLoop_length_le 0 q
      have h₂ := decodePasses_length_le 2 (decodeLoop 0 q).1
      have h₃ := foldText_length_le 0 false (decodePasses 2 (decodeLoop 0 q).1)
      obtain ⟨hnone, hsome⟩ := decodeLoop_same_length (s := q) (by omega)
      have hpass := noPlus_decodePasses 2 (by omega) hnone
      have hplus : 0x2B ∈ q := hsome hf
      rw [← h] at hplus
      exact hpass (mem_of_mem_foldText (by decide) (by decide) 0 false _ hplus)
    rw [decodePasses_noEscape hescape] at h
    have hclear : Clear q := by
      apply Decidable.byContradiction
      intro hc
      have := foldText_shorter hc false
      rw [h] at this; omega
    rw [foldText_all hclear] at h
    obtain ⟨-, hlower, hblank, hsingle⟩ := (emitAll_eq_self false).1 h
    exact ⟨hshort, hescape, hclear, hlower, hblank, hsingle⟩
  · intro h
    rw [normalizePayload, List.take_of_length_le h.short, decodePasses_noEscape h.noEscape,
      foldText_all h.clear]
    exact (emitAll_eq_self false).2
      ⟨fun hspace => absurd hspace Bool.false_ne_true, h.lower, h.blank, h.single⟩

/-! ## Behind a context -/

/-- Scanning `a` with the bytes `x` behind it, `skip` bytes of a comment
still to pass: whether every comment that opens in `a` ends in `a`. -/
def closes (x : Bytes) : Nat → Bytes → Bool
  | skip, [] => skip == 0
  | skip + 1, _ :: rest => closes x skip rest
  | 0, c :: rest =>
    match commentAt c (rest ++ x) with
    | some none => false
    | some (some skip) => closes x skip rest
    | none => closes x 0 rest

/-- Behind a context whose comments are closed the pass goes on as usual; if
it takes itself to be behind a blank, the last byte it wrote is one. -/
theorem fold_behind (x : Bytes) : ∀ (skip : Nat) (prevSpace : Bool) (a : Bytes),
    closes x skip a = true →
    ∃ w prevSpace', foldText skip prevSpace (a ++ x) = w ++ foldText 0 prevSpace' x ∧
      (prevSpace' = true → w.getLast? = some 0x20 ∨ w = [] ∧ prevSpace = true)
  | skip, prevSpace, [], h => by
    have h₀ : skip = 0 := by cases skip <;> simp_all [closes]
    subst h₀
    exact ⟨[], prevSpace, rfl, fun hp => .inr ⟨rfl, hp⟩⟩
  | skip + 1, prevSpace, _ :: rest, h => by
    rw [List.cons_append, foldText]
    exact fold_behind x skip prevSpace rest h
  | 0, prevSpace, c :: rest, h => by
    rw [closes] at h
    rw [List.cons_append]
    cases hc : commentAt c (rest ++ x) with
    | some k =>
      rw [hc] at h
      cases k with
      | none => cases h
      | some k =>
        rw [foldText, hc]
        exact fold_behind x k prevSpace rest h
    | none =>
      rw [hc] at h
      obtain ⟨w, p, hw, hp⟩ := fold_behind x 0 (isSpace c) rest h
      rw [foldText_cons prevSpace hc, hw]
      refine ⟨emit prevSpace c ++ w, p, (List.append_assoc ..).symm, fun hpt => ?_⟩
      rcases hp hpt with hlast | ⟨rfl, hs⟩
      · left; rw [List.getLast?_append, hlast]; rfl
      · cases prevSpace <;> simp [emit, hs]

/-- What a comment of the context reaches is not written: here a percent
sign, the only one of the text. -/
theorem hidden_behind {b : Bytes} (hb : 0x25 ∉ b) : ∀ (skip : Nat) (prevSpace : Bool) (a : Bytes),
    closes (0x25 :: b) skip a = false → 0x25 ∉ a → 0x25 ∉ foldText skip prevSpace (a ++ 0x25 :: b)
  | skip, prevSpace, [], h, _ => by
    cases skip with
    | zero => cases h
    | succ skip =>
      rw [List.nil_append, foldText]
      exact fun hm => hb (mem_of_mem_foldText (by decide) (by decide) skip prevSpace b hm)
  | skip + 1, prevSpace, _ :: rest, h, ha => by
    rw [List.cons_append, foldText]
    exact hidden_behind hb skip prevSpace rest h fun hm => ha (List.mem_cons_of_mem _ hm)
  | 0, prevSpace, c :: rest, h, ha => by
    have hrest : 0x25 ∉ rest := fun hm => ha (List.mem_cons_of_mem _ hm)
    rw [closes] at h
    rw [List.cons_append]
    cases hc : commentAt c (rest ++ 0x25 :: b) with
    | some k =>
      rw [hc] at h
      rw [foldText, hc]
      cases k with
      | none => exact List.not_mem_nil
      | some k => exact hidden_behind hb k prevSpace rest h hrest
    | none =>
      rw [hc] at h
      have hemit : 0x25 ∉ emit prevSpace c := by
        intro hm
        rw [eq_of_mem_emit (by decide) (by decide) hm] at ha
        exact ha (List.mem_cons_self ..)
      rw [foldText_cons prevSpace hc, List.mem_append, not_or]
      exact ⟨hemit, hidden_behind hb 0 (isSpace c) rest h hrest⟩

/-! ## A signature in a context -/

/-- Nothing of `q` is swallowed: no comment of `a` reaches into it, and no
comment opener or escape ends in the byte behind it. -/
structure Shown (a q b : Bytes) : Prop where
  before : closes (q ++ b) 0 a = true
  opener : Clear (q ++ b.take 1)
  escape : NoEscape (q ++ b)

instance (a q b : Bytes) : Decidable (Shown a q b) :=
  decidable_of_iff (closes (q ++ b) 0 a = true ∧ Clear (q ++ b.take 1) ∧ NoEscape (q ++ b))
    ⟨fun h => ⟨h.1, h.2.1, h.2.2⟩, fun h => ⟨h.1, h.2, h.3⟩⟩

/-- Behind a blank, the first blank of a text is the one already written. -/
theorem infix_emitAll {q w : Bytes} (h : CanonicalText q) {prevSpace : Bool}
    (hw : prevSpace = true → w.getLast? = some 0x20) (v : Bytes) :
    q <:+: w ++ (emitAll prevSpace q ++ v) := by
  cases hs : startsSpace q with
  | false =>
    have heq := (emitAll_eq_self prevSpace).2 ⟨fun _ => hs, h.lower, h.blank, h.single⟩
    rw [heq]
    exact ⟨w, v, List.append_assoc ..⟩
  | true =>
    have heq := (emitAll_eq_self false).2 ⟨nofun, h.lower, h.blank, h.single⟩
    cases prevSpace with
    | false => rw [heq]; exact ⟨w, v, List.append_assoc ..⟩
    | true =>
      obtain ⟨w, rfl⟩ := List.getLast?_eq_some_iff.1 (hw rfl)
      cases q with
      | nil => cases hs
      | cons c q =>
        have hc : c = 0x20 := h.blank c (List.mem_cons_self ..) hs
        subst hc
        have htail : emitAll true (0x20 :: q) = q := (List.cons.inj heq).2
        rw [htail]
        exact ⟨w, v, by simp⟩

theorem shown_contained {a q b : Bytes} (hq : CanonicalText q) (ha : Plain a)
    (hlen : (a ++ q ++ b).length ≤ maxNorm) (h : Shown a q b) :
    q <:+: normalizePayload (a ++ q ++ b) := by
  obtain ⟨w, p, hw, hp⟩ := fold_behind (q ++ b) 0 false a h.before
  have hlast : p = true → w.getLast? = some 0x20 := by
    intro hpt
    rcases hp hpt with hl | ⟨-, hf⟩
    · exact hl
    · cases hf
  rw [normalizePayload, List.take_of_length_le hlen, List.append_assoc, decodePasses_append ha,
    decodePasses_noEscape h.escape, hw, foldText_clear q p b h.opener]
  exact infix_emitAll hq hlast _

/-- The percent sign is found exactly where it is shown. -/
theorem percent_shown_iff {a b : Bytes} (ha : Plain a) (hb : Plain b)
    (hlen : (a ++ lit "%" ++ b).length ≤ maxNorm) (hescape : NoEscape (lit "%" ++ b)) :
    lit "%" <:+: normalizePayload (a ++ lit "%" ++ b) ↔ Shown a (lit "%") b := by
  have hlit : lit "%" = [0x25] := by decide
  constructor
  · intro hin
    have hclear : Clear (lit "%" ++ b.take 1) := by
      have hlast : Clear (b.take 1) := by
        cases b with
        | nil => exact clear_nil
        | cons c b => exact clear_cons.2 ⟨fun h => (nomatch h.2), fun h => (nomatch h.2), clear_nil⟩
      rw [hlit]
      exact clear_cons.2 ⟨fun h => absurd h.1 (by decide), fun h => absurd h.1 (by decide), hlast⟩
    refine ⟨?_, hclear, hescape⟩
    apply Decidable.byContradiction
    intro hc
    rw [normalizePayload, List.take_of_length_le hlen, List.append_assoc, decodePasses_append ha,
      decodePasses_noEscape hescape] at hin
    have hmem := hin.subset (show 0x25 ∈ lit "%" by decide)
    rw [hlit] at hc hmem
    exact hidden_behind hb.noPercent 0 false a (Bool.eq_false_iff.2 hc) ha.noPercent hmem
  · exact shown_contained (canonical_iff.1 (by decide)) ha hlen

end Wirewolf.L1.Canonical
