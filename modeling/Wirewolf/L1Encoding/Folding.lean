import Wirewolf.L1Encoding.PercentCoding

/-!
# The strip-and-fold pass of the normalizer

Away from comments the pass works byte by byte: `emit` is what one byte
contributes behind a blank or not, `emitAll` what a text does. A text without
comment openers (`Clear`) is folded so (`foldText_clear`); a comment
contributes nothing, not even a blank (`foldText_block`, `foldText_line`).

* `normalize_block`, `normalize_line`, `normalize_blank`: the normalized text
  around a comment and around a blank.
* `comment_law_iff`: a comment is folded like a blank exactly when there is a
  blank next to it.
-/
namespace Wirewolf.L1.Folding

open Wirewolf.L1.Normalizer Wirewolf.L1.PercentCoding

/-! ## Byte by byte -/

def emit (prevSpace : Bool) (c : UInt8) : Bytes :=
  if isSpace c then if prevSpace then [] else [0x20] else [toLower c]

def emitAll : Bool → Bytes → Bytes
  | _, [] => []
  | prevSpace, c :: s => emit prevSpace c ++ emitAll (isSpace c) s

/-- Whether a blank stands in front of what follows `s`. -/
def endsSpace (prevSpace : Bool) : Bytes → Bool
  | [] => prevSpace
  | c :: s => endsSpace (isSpace c) s

/-- No comment opens in the text. -/
structure Clear (s : Bytes) : Prop where
  noBlock : ¬ lit "/*" <:+: s
  noLine : ¬ lit "--" <:+: s

instance (s : Bytes) : Decidable (Clear s) :=
  decidable_of_iff (¬ Search.containsSub s (lit "/*") = true ∧
    ¬ Search.containsSub s (lit "--") = true)
    (by rw [Search.containsSub_iff, Search.containsSub_iff]; exact ⟨fun h => ⟨h.1, h.2⟩,
      fun h => ⟨h.1, h.2⟩⟩)

def startsSpace (s : Bytes) : Bool := s.head?.any isSpace

theorem emitAll_append (prevSpace : Bool) (s t : Bytes) :
    emitAll prevSpace (s ++ t) = emitAll prevSpace s ++ emitAll (endsSpace prevSpace s) t := by
  induction s generalizing prevSpace with
  | nil => rfl
  | cons c s ih => rw [List.cons_append, emitAll, ih, emitAll, endsSpace, List.append_assoc]

theorem emit_length_le (prevSpace : Bool) (c : UInt8) : (emit prevSpace c).length ≤ 1 := by
  unfold emit
  split
  · split <;> simp
  · simp

/-- What is no letter and no blank is written only where it stands. -/
theorem eq_of_mem_emit {prevSpace : Bool} {b c : UInt8} (hb : b < 0x41) (hblank : b ≠ 0x20)
    (h : b ∈ emit prevSpace c) : c = b := by
  have hlower : ∀ c, toLower c < 0x41 → c = toLower c := by decide +kernel
  unfold emit at h
  split at h
  · split at h
    · cases h
    · exact absurd (List.mem_singleton.1 h) hblank
  · rw [List.mem_singleton.1 h] at hb ⊢
    exact hlower c hb

theorem emitAll_length_le (prevSpace : Bool) (s : Bytes) :
    (emitAll prevSpace s).length ≤ s.length := by
  induction s generalizing prevSpace with
  | nil => exact Nat.le_refl 0
  | cons c s ih =>
    have hone := emit_length_le prevSpace c
    have := ih (isSpace c)
    rw [emitAll, List.length_append, List.length_cons]; omega

/-- Behind a blank, a text that starts with none is folded as anywhere. -/
theorem emitAll_of_startsSpace {s : Bytes} (h : startsSpace s = false) (p q : Bool) :
    emitAll p s = emitAll q s := by
  cases s with
  | nil => rfl
  | cons c s =>
    have hc : isSpace c = false := h
    rw [emitAll, emitAll, emit, emit, hc]
    rfl

theorem two_infix_cons {x y c : UInt8} {s : Bytes} :
    [x, y] <:+: c :: s ↔ (c = x ∧ s.head? = some y) ∨ [x, y] <:+: s := by
  rw [List.infix_cons_iff, List.cons_prefix_cons]
  have : [y] <+: s ↔ s.head? = some y := by
    cases s with
    | nil => simp
    | cons d s => rw [List.cons_prefix_cons]; simp [eq_comm]
  rw [this, eq_comm (a := x)]

theorem clear_nil : Clear [] := by decide

theorem clear_cons {c : UInt8} {s : Bytes} : Clear (c :: s) ↔
    ¬ (c = 0x2F ∧ s.head? = some 0x2A) ∧ ¬ (c = 0x2D ∧ s.head? = some 0x2D) ∧ Clear s := by
  have hb : lit "/*" = [0x2F, 0x2A] := by decide
  have hl : lit "--" = [0x2D, 0x2D] := by decide
  constructor
  · intro hx
    obtain ⟨h₁, h₂⟩ := hx
    rw [hb, two_infix_cons, not_or] at h₁
    rw [hl, two_infix_cons, not_or] at h₂
    exact ⟨h₁.1, h₂.1, by rw [hb]; exact h₁.2, by rw [hl]; exact h₂.2⟩
  · intro hx
    obtain ⟨h₁, h₂, h₃, h₄⟩ := hx
    refine ⟨?_, ?_⟩
    · rw [hb] at h₃ ⊢
      rw [two_infix_cons, not_or]
      exact ⟨h₁, h₃⟩
    · rw [hl] at h₄ ⊢
      rw [two_infix_cons, not_or]
      exact ⟨h₂, h₄⟩

theorem Clear.within {s t : Bytes} (h : Clear t) (hs : s <:+: t) : Clear s :=
  ⟨fun hb => h.noBlock (hb.trans hs), fun hl => h.noLine (hl.trans hs)⟩

theorem commentAt_none {c : UInt8} {s : Bytes} (h₁ : ¬ (c = 0x2F ∧ s.head? = some 0x2A))
    (h₂ : ¬ (c = 0x2D ∧ s.head? = some 0x2D)) : commentAt c s = none := by
  rw [List.head?_eq_getElem?] at h₁ h₂
  rw [commentAt, if_neg h₁, if_neg h₂]

theorem foldText_cons {c : UInt8} {s : Bytes} (prevSpace : Bool) (h : commentAt c s = none) :
    foldText 0 prevSpace (c :: s) = emit prevSpace c ++ foldText 0 (isSpace c) s := by
  rw [foldText, h]
  unfold emit
  cases hs : isSpace c with
  | true => cases prevSpace <;> rfl
  | false => rfl

/-- The pass over a text in which no comment opens, with `x` behind it. -/
theorem foldText_clear : ∀ (s : Bytes) (prevSpace : Bool) (x : Bytes), Clear (s ++ x.take 1) →
    foldText 0 prevSpace (s ++ x) = emitAll prevSpace s ++ foldText 0 (endsSpace prevSpace s) x
  | [], _, _, _ => rfl
  | c :: s, prevSpace, x, h => by
    rw [List.cons_append] at h
    obtain ⟨h₁, h₂, hs⟩ := clear_cons.1 h
    have hhead : (s ++ x.take 1).head? = (s ++ x).head? := by
      cases s with
      | nil => cases x <;> rfl
      | cons d s => rfl
    rw [hhead] at h₁ h₂
    rw [List.cons_append, foldText_cons prevSpace (commentAt_none h₁ h₂),
      foldText_clear s (isSpace c) x hs, emitAll, endsSpace, List.append_assoc]

theorem foldText_all {s : Bytes} (h : Clear s) (prevSpace : Bool) :
    foldText 0 prevSpace s = emitAll prevSpace s := by
  have := foldText_clear s prevSpace [] (by simpa using h)
  rw [List.append_nil] at this
  rw [this, foldText, List.append_nil]

theorem foldText_skip (prevSpace : Bool) : ∀ (skip : Nat) (s : Bytes),
    foldText skip prevSpace s = foldText 0 prevSpace (s.drop skip)
  | 0, _ => rfl
  | _ + 1, [] => rfl
  | skip + 1, _ :: s => by rw [foldText, foldText_skip prevSpace skip s]; rfl

/-! ## Comments -/

theorem clear_concat {s : Bytes} {z : UInt8} (h : Clear s)
    (hz : ∀ d, s.getLast? = some d → ¬ (d = 0x2F ∧ z = 0x2A) ∧ ¬ (d = 0x2D ∧ z = 0x2D)) :
    Clear (s ++ [z]) := by
  induction s with
  | nil => exact clear_cons.2 ⟨by simp, by simp, clear_nil⟩
  | cons c s ih =>
    obtain ⟨hb, hl, hs⟩ := clear_cons.1 h
    rw [List.cons_append]
    cases s with
    | nil =>
      obtain ⟨h₁, h₂⟩ := hz c rfl
      exact clear_cons.2 ⟨fun he => h₁ ⟨he.1, Option.some.inj he.2⟩,
        fun he => h₂ ⟨he.1, Option.some.inj he.2⟩, ih hs (by simp)⟩
    | cons d s => exact clear_cons.2 ⟨hb, hl, ih hs fun x hx => hz x (by simpa using hx)⟩

theorem clear_slash {s : Bytes} (h : Clear s) : Clear (s ++ [0x2F]) :=
  clear_concat h fun _ _ => ⟨fun he => absurd he.2 (by decide), fun he => absurd he.2 (by decide)⟩

theorem two_infix_concat {x y z : UInt8} {s : Bytes} (hy : z ≠ y) (h : ¬ [x, y] <:+: s) :
    ¬ [x, y] <:+: s ++ [z] := by
  induction s with
  | nil =>
    rw [List.nil_append, two_infix_cons]
    simp
  | cons c s ih =>
    rw [two_infix_cons, not_or] at h
    rw [List.cons_append, two_infix_cons, not_or]
    refine ⟨?_, ih h.2⟩
    cases s with
    | nil => rintro ⟨-, he⟩; exact hy (Option.some.inj he)
    | cons d s => exact h.1

/-- The close of a comment whose body holds none. -/
theorem indexOf_close {c : Bytes} (h : ¬ lit "*/" <:+: c) (r : Bytes) :
    Search.indexOf (lit "*/") (c ++ 0x2A :: 0x2F :: r) = some c.length := by
  have hlit : lit "*/" = [0x2A, 0x2F] := by decide
  rw [hlit] at h ⊢
  induction c with
  | nil => exact Search.indexOf_of_isPrefix ⟨r, rfl⟩
  | cons x c ih =>
    rw [two_infix_cons, not_or] at h
    have hno : ¬ ([0x2A, 0x2F] : Bytes).isPrefixOf (x :: (c ++ 0x2A :: 0x2F :: r)) = true := by
      rw [List.isPrefixOf_iff_prefix, List.cons_prefix_cons]
      intro hx
      obtain ⟨hx, hp⟩ := hx
      cases c with
      | nil => cases (List.cons_prefix_cons.1 hp).1
      | cons d c => exact h.1 ⟨hx.symm, by rw [(List.cons_prefix_cons.1 hp).1]; rfl⟩
    rw [List.cons_append, Search.indexOf, if_neg hno, ih h.2]
    rfl

theorem indexOf_none {needle s : Bytes} (h : ¬ needle <:+: s) : Search.indexOf needle s = none := by
  rw [← Search.containsSub_iff, Search.containsSub, Bool.not_eq_true, Option.isSome_eq_false_iff,
    Option.isNone_iff_eq_none] at h
  exact h

/-- A block comment takes everything up to its close, and the rest of the text
if it has none in the first `m` bytes. -/
theorem foldText_block (prevSpace : Bool) {c : Bytes} (hc : ¬ lit "*/" <:+: c)
    (b : Bytes) (m : Nat) :
    foldText 0 prevSpace (lit "/*" ++ (c ++ lit "*/" ++ b).take m) =
      foldText 0 prevSpace (b.take (m - (c.length + 2))) := by
  have hlit : lit "*/" = [0x2A, 0x2F] := by decide
  have hopen : lit "/*" = [0x2F, 0x2A] := by decide
  have hstep : ∀ w : Bytes, foldText 0 prevSpace (lit "/*" ++ w) =
      (Search.indexOf (lit "*/") w).elim [] fun j => foldText 0 prevSpace (w.drop (j + 2)) := by
    intro w
    rw [hopen, List.cons_append, List.cons_append, List.nil_append, foldText]
    have hat : commentAt 0x2F (0x2A :: w) = some ((Search.indexOf (lit "*/") w).map (· + 3)) := rfl
    rw [hat]
    cases Search.indexOf (lit "*/") w with
    | none => rfl
    | some j => simp only [Option.map_some, foldText_skip prevSpace (j + 3)]; rfl
  rw [hstep]
  by_cases hm : c.length + 2 ≤ m
  · obtain ⟨k, rfl⟩ : ∃ k, m = c.length + (k + 2) := ⟨m - (c.length + 2), by omega⟩
    have hw : (c ++ lit "*/" ++ b).take (c.length + (k + 2)) = c ++ 0x2A :: 0x2F :: b.take k := by
      rw [hlit, List.append_assoc, List.take_length_add_append]; rfl
    rw [hw, indexOf_close hc]
    have hdrop : (c ++ 0x2A :: 0x2F :: b.take k).drop (c.length + 2) = b.take k := by
      rw [← List.drop_drop, List.drop_left]; rfl
    simp only [Option.elim_some, hdrop]
    rw [show c.length + (k + 2) - (c.length + 2) = k by omega]
  · have hw : (c ++ lit "*/" ++ b).take m <+: c ++ [0x2A] := by
      rw [hlit, List.append_assoc]
      refine List.prefix_of_prefix_length_le (List.take_prefix _ _)
        ⟨0x2F :: b, by simp⟩ ?_
      have hl : (c ++ [0x2A]).length = c.length + 1 := List.length_append
      rw [List.length_take]; omega
    have hno : ¬ lit "*/" <:+: (c ++ lit "*/" ++ b).take m := fun hi => by
      rw [hlit] at hc hi
      exact two_infix_concat (by decide) hc (hi.trans hw.isInfix)
    rw [indexOf_none hno, show m - (c.length + 2) = 0 by omega]
    rfl

/-- A line comment takes everything up to and with the line break. -/
theorem foldText_line (prevSpace : Bool) {c : Bytes} (hc : 0x0A ∉ c) (b : Bytes) (m : Nat) :
    foldText 0 prevSpace (lit "--" ++ (c ++ lit "\n" ++ b).take m) =
      foldText 0 prevSpace (b.take (m - (c.length + 1))) := by
  have hlit : lit "\n" = [0x0A] := by decide
  have hopen : lit "--" = [0x2D, 0x2D] := by decide
  have hstep : ∀ w : Bytes, foldText 0 prevSpace (lit "--" ++ w) =
      (Search.indexOf [0x0A] w).elim [] fun j => foldText 0 prevSpace (w.drop (j + 1)) := by
    intro w
    rw [hopen, List.cons_append, List.cons_append, List.nil_append, foldText]
    have hat : commentAt 0x2D (0x2D :: w) = some (Search.indexOf [0x0A] ([0x2D, 0x2D] ++ w)) := rfl
    rw [hat, Search.indexOf_skip (by decide)]
    cases Search.indexOf [0x0A] w with
    | none => rfl
    | some j =>
      simp only [Option.map_some, foldText_skip prevSpace (_ + j)]
      rw [List.length_cons, List.length_singleton, Nat.add_comm (1 + 1) j, ← Nat.add_assoc,
        List.drop_succ_cons, Option.elim_some]
  rw [hstep]
  by_cases hm : c.length + 1 ≤ m
  · obtain ⟨k, rfl⟩ : ∃ k, m = c.length + (k + 1) := ⟨m - (c.length + 1), by omega⟩
    have hw : (c ++ lit "\n" ++ b).take (c.length + (k + 1)) = c ++ 0x0A :: b.take k := by
      rw [hlit, List.append_assoc, List.take_length_add_append]; rfl
    have hdrop : (c ++ 0x0A :: b.take k).drop (c.length + 1) = b.take k := by
      rw [← List.drop_drop, List.drop_left]; rfl
    rw [hw, Search.indexOf_char hc]
    simp only [Option.elim_some, hdrop]
    rw [show c.length + (k + 1) - (c.length + 1) = k by omega]
  · have hw : (c ++ lit "\n" ++ b).take m <+: c := by
      rw [List.append_assoc]
      refine List.prefix_of_prefix_length_le (List.take_prefix _ _) (List.prefix_append ..) ?_
      rw [List.length_take]; omega
    rw [Search.indexOf_char_none fun hm => hc (hw.subset hm), show m - (c.length + 1) = 0 by omega]
    rfl

/-! ## The normalized text around a comment -/

theorem normalize_plain {s : Bytes} (h : Plain s) :
    normalizePayload s = foldText 0 false (s.take maxNorm) := by
  have htake : Plain (s.take maxNorm) :=
    ⟨fun hm => h.noPercent (List.mem_of_mem_take hm), fun hm => h.noPlus (List.mem_of_mem_take hm)⟩
  rw [normalizePayload, decodePasses_plain htake]

/-- Two texts between which a comment or a blank is written. -/
structure Around (a b : Bytes) : Prop where
  before : Plain a
  behind : Plain b
  clear_before : Clear a
  clear_behind : Clear b

section Around

variable {a b c : Bytes}

theorem Around.plain (h : Around a b) (hc : Plain c) (o d : Bytes) (ho : Plain o) (hd : Plain d) :
    Plain (a ++ o ++ c ++ d ++ b) :=
  ⟨by simp [h.before.noPercent, h.behind.noPercent, hc.noPercent, ho.noPercent, hd.noPercent],
    by simp [h.before.noPlus, h.behind.noPlus, hc.noPlus, ho.noPlus, hd.noPlus]⟩

theorem normalize_block (h : Around a b) (hp : Plain c) (hc : ¬ lit "*/" <:+: c)
    (hlen : a.length + 2 ≤ maxNorm) :
    normalizePayload (a ++ lit "/*" ++ c ++ lit "*/" ++ b) =
      emitAll false a ++
        emitAll (endsSpace false a) (b.take (maxNorm - (a.length + c.length + 4))) := by
  rw [normalize_plain (h.plain hp _ _ ⟨by decide, by decide⟩ ⟨by decide, by decide⟩)]
  obtain ⟨m, hm⟩ : ∃ m, maxNorm = a.length + ((lit "/*").length + m) :=
    ⟨maxNorm - a.length - 2, by rw [show (lit "/*").length = 2 by decide]; omega⟩
  have htake : (a ++ lit "/*" ++ c ++ lit "*/" ++ b).take maxNorm =
      a ++ (lit "/*" ++ (c ++ lit "*/" ++ b).take m) := by
    rw [hm, List.append_assoc, List.append_assoc, List.append_assoc, List.take_length_add_append,
      List.take_length_add_append, List.append_assoc]
  have hfirst : (lit "/*" ++ (c ++ lit "*/" ++ b).take m).take 1 = [0x2F] := rfl
  have hclear := clear_slash h.clear_before
  rw [htake, foldText_clear a false _ (hfirst ▸ hclear),
    foldText_block _ hc, foldText_all (h.clear_behind.within (List.take_prefix ..).isInfix)]
  rw [show (lit "/*").length = 2 by decide] at hm
  rw [show m - (c.length + 2) = maxNorm - (a.length + c.length + 4) by omega]

theorem normalize_line (h : Around a b) (ha : Clear (a ++ lit "-")) (hp : Plain c) (hc : 0x0A ∉ c)
    (hlen : a.length + 2 ≤ maxNorm) :
    normalizePayload (a ++ lit "--" ++ c ++ lit "\n" ++ b) =
      emitAll false a ++
        emitAll (endsSpace false a) (b.take (maxNorm - (a.length + c.length + 3))) := by
  rw [normalize_plain (h.plain hp _ _ ⟨by decide, by decide⟩ ⟨by decide, by decide⟩)]
  obtain ⟨m, hm⟩ : ∃ m, maxNorm = a.length + ((lit "--").length + m) :=
    ⟨maxNorm - a.length - 2, by rw [show (lit "--").length = 2 by decide]; omega⟩
  have htake : (a ++ lit "--" ++ c ++ lit "\n" ++ b).take maxNorm =
      a ++ (lit "--" ++ (c ++ lit "\n" ++ b).take m) := by
    rw [hm, List.append_assoc, List.append_assoc, List.append_assoc, List.take_length_add_append,
      List.take_length_add_append, List.append_assoc]
  have hfirst : (lit "--" ++ (c ++ lit "\n" ++ b).take m).take 1 = lit "-" := rfl
  rw [htake, foldText_clear a false _ (hfirst ▸ ha),
    foldText_line _ hc, foldText_all (h.clear_behind.within (List.take_prefix ..).isInfix)]
  rw [show (lit "--").length = 2 by decide] at hm
  rw [show m - (c.length + 1) = maxNorm - (a.length + c.length + 3) by omega]

theorem normalize_blank (h : Around a b) {sp : UInt8} (hs : isSpace sp = true)
    (hlen : a.length + 1 ≤ maxNorm) :
    normalizePayload (a ++ sp :: b) =
      emitAll false a ++
        (emit (endsSpace false a) sp ++ emitAll true (b.take (maxNorm - (a.length + 1)))) := by
  have hne : ∀ d : UInt8, isSpace d = false → sp ≠ d := by
    rintro d hd rfl; rw [hs] at hd; cases hd
  have hplain : Plain (a ++ sp :: b) :=
    ⟨by simp [h.before.noPercent, h.behind.noPercent, (hne 0x25 (by decide)).symm],
      by simp [h.before.noPlus, h.behind.noPlus, (hne 0x2B (by decide)).symm]⟩
  rw [normalize_plain hplain]
  obtain ⟨m, hm⟩ : ∃ m, maxNorm = a.length + (m + 1) := ⟨maxNorm - a.length - 1, by omega⟩
  have htake : (a ++ sp :: b).take maxNorm = a ++ sp :: b.take m := by
    rw [hm, List.take_length_add_append, List.take_succ_cons]
  have hat : commentAt sp (b.take m) = none :=
    commentAt_none (fun he => hne 0x2F (by decide) he.1) (fun he => hne 0x2D (by decide) he.1)
  have hclear : Clear (a ++ (sp :: b.take m).take 1) :=
    clear_concat h.clear_before fun _ _ =>
      ⟨fun he => hne 0x2A (by decide) he.2, fun he => hne 0x2D (by decide) he.2⟩
  rw [htake, foldText_clear a false _ hclear,
    foldText_cons _ hat, hs, foldText_all (h.clear_behind.within (List.take_prefix ..).isInfix)]
  rw [show m = maxNorm - (a.length + 1) by omega]

/-- Past the cap nothing counts. -/
theorem normalize_capped (hlen : maxNorm ≤ a.length) (w : Bytes) :
    normalizePayload (a ++ w) = normalizePayload a := by
  rw [normalizePayload, normalizePayload, List.take_append_of_le_length hlen]

theorem emitAll_take_le (hb : startsSpace b = false) (p q : Bool) {m n : Nat} (h : m ≤ n) :
    (emitAll p (b.take m)).length ≤ (emitAll q (b.take n)).length := by
  have hstart : startsSpace (b.take m) = false := by
    cases b with
    | nil => simp [startsSpace]
    | cons c b => cases m <;> simp_all [startsSpace]
  have hsplit : b.take n = b.take m ++ (b.drop m).take (n - m) := by
    rw [← List.take_add, Nat.add_sub_cancel' h]
  rw [emitAll_of_startsSpace hstart p q, hsplit, emitAll_append, List.length_append]
  exact Nat.le_add_right ..

end Around

/-! ## Comments and blanks -/

/-- The block comment reads like a blank. -/
def BlockLaw (a b c : Bytes) : Prop :=
  normalizePayload (a ++ lit "/*" ++ c ++ lit "*/" ++ b) = normalizePayload (a ++ lit " " ++ b)

/-- The line comment reads like the line break that ends it. -/
def LineLaw (a b c : Bytes) : Prop :=
  normalizePayload (a ++ lit "--" ++ c ++ lit "\n" ++ b) = normalizePayload (a ++ lit "\n" ++ b)

section Laws

variable {a b c : Bytes}

/-- Without a blank next to it, a blank adds a byte. -/
theorem blank_longer (h : Around a b) (he : endsSpace false a = false) {sp : UInt8}
    (hs : isSpace sp = true) (hlen : a.length + 1 ≤ maxNorm) :
    (normalizePayload (a ++ sp :: b)).length =
      (emitAll false a).length + 1 + (emitAll true (b.take (maxNorm - (a.length + 1)))).length := by
  have hone : (emit false sp).length = 1 := by simp [emit, hs]
  rw [normalize_blank h hs hlen, he, List.length_append, List.length_append, hone, Nat.add_assoc]

theorem not_blockLaw (h : Around a b) (he : endsSpace false a = false) (hb : startsSpace b = false)
    (hp : Plain c) (hc : ¬ lit "*/" <:+: c) (hlen : a.length < maxNorm) : ¬ BlockLaw a b c := by
  intro hlaw
  have hsp : a ++ lit " " ++ b = a ++ 0x20 :: b := by rw [List.append_assoc]; rfl
  rw [BlockLaw, hsp] at hlaw
  by_cases hroom : a.length + 2 ≤ maxNorm
  · have hl := congrArg List.length hlaw
    rw [normalize_block h hp hc hroom, blank_longer h he rfl hlen, List.length_append] at hl
    have := emitAll_take_le hb (endsSpace false a) true
      (show maxNorm - (a.length + c.length + 4) ≤ maxNorm - (a.length + 1) by omega)
    omega
  · -- the cap falls inside the opener
    have hcap : maxNorm = a.length + 1 := by omega
    have hopen : lit "/*" = [0x2F, 0x2A] := by decide
    have hcut : (a ++ lit "/*" ++ c ++ lit "*/" ++ b).take maxNorm = a ++ [0x2F] := by
      rw [hcap, List.append_assoc, List.append_assoc, List.append_assoc,
        List.take_length_add_append,
        hopen]
      rfl
    have hclear := clear_slash h.clear_before
    rw [normalize_plain (h.plain hp _ _ ⟨by decide, by decide⟩ ⟨by decide, by decide⟩), hcut,
      foldText_all hclear, emitAll_append, normalize_blank h
        (show isSpace 0x20 = true from rfl) hlen, he,
      List.append_cancel_left_eq] at hlaw
    cases (List.cons.inj hlaw).1

theorem not_lineLaw (h : Around a b) (he : endsSpace false a = false) (hb : startsSpace b = false)
    (hp : Plain c) (hc : 0x0A ∉ c) (hlen : a.length < maxNorm) : ¬ LineLaw a b c := by
  intro hlaw
  have hsp : a ++ lit "\n" ++ b = a ++ 0x0A :: b := by rw [List.append_assoc]; rfl
  rw [LineLaw, hsp] at hlaw
  have hopen : lit "--" = [0x2D, 0x2D] := by decide
  have hdash : lit "-" = [0x2D] := by decide
  by_cases hlast : a.getLast? = some 0x2D
  · -- the comment opens a byte earlier, at the dash that ends `a`
    obtain ⟨s, rfl⟩ := List.getLast?_eq_some_iff.1 hlast
    have hs : Around s b := ⟨⟨fun hm => h.before.noPercent (List.mem_append_left _ hm),
      fun hm => h.before.noPlus (List.mem_append_left _ hm)⟩, h.behind,
      h.clear_before.within (List.prefix_append ..).isInfix, h.clear_behind⟩
    have hp' : Plain (0x2D :: c) := ⟨by simp [hp.noPercent], by simp [hp.noPlus]⟩
    have htext : s ++ [0x2D] ++ lit "--" ++ c ++ lit "\n" ++ b =
        s ++ lit "--" ++ (0x2D :: c) ++ lit "\n" ++ b := by rw [hopen]; simp
    have hsl : (s ++ [0x2D]).length = s.length + 1 := List.length_append
    have hl := congrArg List.length hlaw
    rw [htext, normalize_line hs (hdash ▸ h.clear_before) hp' (by simpa using hc) (by omega),
      blank_longer h he rfl hlen, List.length_append, List.length_cons, emitAll_append,
      List.length_append] at hl
    have := emitAll_take_le hb (endsSpace false s) true
      (show maxNorm - (s.length + (c.length + 1) + 3) ≤ maxNorm -
        ((s ++ [0x2D]).length + 1) by omega)
    omega
  · have hclear : Clear (a ++ [0x2D]) := clear_concat h.clear_before fun d hd =>
      ⟨fun he => absurd he.2 (by decide), fun he => hlast (by rw [hd, he.1])⟩
    by_cases hroom : a.length + 2 ≤ maxNorm
    · have hl := congrArg List.length hlaw
      rw [normalize_line h (hdash ▸ hclear) hp hc hroom, blank_longer h he rfl hlen,
        List.length_append] at hl
      have := emitAll_take_le hb (endsSpace false a) true
        (show maxNorm - (a.length + c.length + 3) ≤ maxNorm - (a.length + 1) by omega)
      omega
    · have hcap : maxNorm = a.length + 1 := by omega
      have hcut : (a ++ lit "--" ++ c ++ lit "\n" ++ b).take maxNorm = a ++ [0x2D] := by
        rw [hcap, List.append_assoc, List.append_assoc, List.append_assoc,
          List.take_length_add_append, hopen]
        rfl
      rw [normalize_plain (h.plain hp _ _ ⟨by decide, by decide⟩ ⟨by decide, by decide⟩), hcut,
        foldText_all hclear, emitAll_append, normalize_blank h
          (show isSpace 0x0A = true from rfl) hlen, he,
        List.append_cancel_left_eq] at hlaw
      cases (List.cons.inj hlaw).1

/-- A blank contributes nothing exactly when there is one next to it. -/
theorem blank_absorbed_iff {sp : UInt8} (hs : isSpace sp = true) (prevSpace : Bool) (b : Bytes) :
    emitAll prevSpace b = emit prevSpace sp ++ emitAll true b ↔
      prevSpace = true ∨ startsSpace b = true := by
  cases prevSpace with
  | true => simp [emit, hs]
  | false =>
    have hblank : emit false sp = [0x20] := by simp [emit, hs]
    rw [hblank]
    cases hb : startsSpace b with
    | false =>
      refine iff_of_false (fun heq => ?_) (by simp)
      rw [emitAll_of_startsSpace hb false true] at heq
      have := congrArg List.length heq
      simp at this
    | true =>
      refine iff_of_true ?_ (.inr rfl)
      cases b with
      | nil => cases hb
      | cons c b =>
        have hc : isSpace c = true := hb
        rw [emitAll, emitAll, emit, emit, hc]
        rfl

end Laws

/-- Between texts that end and begin with no blank, the laws hold for every
comment body only where the first text alone fills the cap; for a body
without encodings, and everything within the cap, a comment reads like a
blank exactly when there is a blank next to it. -/
theorem comment_law_iff (a b : Bytes) (h : Around a b) :
    (endsSpace false a = false → startsSpace b = false →
      ((∀ c, ¬ lit "*/" <:+: c → BlockLaw a b c) ↔ maxNorm ≤ a.length) ∧
      ((∀ c, 0x0A ∉ c → LineLaw a b c) ↔ maxNorm ≤ a.length)) ∧
    ∀ c, Plain c → a.length + c.length + b.length + 4 ≤ maxNorm →
      (¬ lit "*/" <:+: c → (BlockLaw a b c ↔ endsSpace false a = true ∨ startsSpace b = true)) ∧
      (0x0A ∉ c → Clear (a ++ lit "-") →
        (LineLaw a b c ↔ endsSpace false a = true ∨ startsSpace b = true)) := by
  refine ⟨fun he hb => ⟨⟨fun hlaw => ?_, fun hlen c _ => ?_⟩, ⟨fun hlaw => ?_, fun hlen c _ => ?_⟩⟩,
    fun c hp hlen => ⟨fun hc => ?_, fun hc hd => ?_⟩⟩
  · refine Nat.not_lt.1 fun hlt => ?_
    exact not_blockLaw h he hb ⟨by simp, by simp⟩ (by decide) hlt (hlaw [] (by decide))
  · simp only [BlockLaw, List.append_assoc, normalize_capped hlen]
  · refine Nat.not_lt.1 fun hlt => ?_
    exact not_lineLaw h he hb ⟨by simp, by simp⟩ (by simp) hlt (hlaw [] (by simp))
  · simp only [LineLaw, List.append_assoc, normalize_capped hlen]
  · have hsp : a ++ lit " " ++ b = a ++ 0x20 :: b := by rw [List.append_assoc]; rfl
    rw [BlockLaw, hsp, normalize_block h hp hc (by omega),
      normalize_blank h (show isSpace 0x20 = true from rfl) (by omega),
      List.append_cancel_left_eq, List.take_of_length_le (by omega),
      List.take_of_length_le (by omega)]
    exact blank_absorbed_iff rfl _ b
  · have hsp : a ++ lit "\n" ++ b = a ++ 0x0A :: b := by rw [List.append_assoc]; rfl
    rw [LineLaw, hsp, normalize_line h hd hp hc (by omega),
      normalize_blank h (show isSpace 0x0A = true from rfl) (by omega),
      List.append_cancel_left_eq, List.take_of_length_le (by omega),
      List.take_of_length_le (by omega)]
    exact blank_absorbed_iff rfl _ b

theorem around_words : Around (lit "UNION") (lit "SELECT") :=
  ⟨⟨by decide, by decide⟩, ⟨by decide, by decide⟩, by decide, by decide⟩

/-- `UNION/**/SELECT` becomes one word, and so do two lines. -/
theorem comment_joins_words : Around (lit "UNION") (lit "SELECT") ∧
    normalizePayload (lit "UNION/**/SELECT") = lit "unionselect" ∧
    normalizePayload (lit "UNION SELECT") = lit "union select" ∧
    ¬ BlockLaw (lit "UNION") (lit "SELECT") [] ∧
    ¬ LineLaw (lit "UNION") (lit "SELECT") (lit "x") := by
  refine ⟨around_words, ?_⟩
  unfold BlockLaw LineLaw
  decide +kernel

theorem comment_law_blank : LineLaw (lit "UNION ") (lit "SELECT") (lit "x") := by
  have h : Around (lit "UNION ") (lit "SELECT") :=
    ⟨⟨by decide, by decide⟩, ⟨by decide, by decide⟩, by decide, by decide⟩
  have hlaw := (comment_law_iff (lit "UNION ") (lit "SELECT") h).2 (lit "x") ⟨by decide, by decide⟩
    (by decide)
  exact (hlaw.2 (by decide) (by decide)).2 (.inl (by decide))

end Wirewolf.L1.Folding
