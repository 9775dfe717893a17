import Wirewolf.Core.Json
import Wirewolf.L1Encoding.Severity
import Wirewolf.L1Encoding.Verdict

/-!
# Alert objects (`alert_json.cpp`)

The object every alert is handed over in, and the fields the pipeline reads
back from it. The values are escaped as JSON strings; the reader searches for
a key in quotes and unescapes what follows.

* `walk_jsonEscape`: what the reader makes of an escaped value. A control
  byte is written as a `\u` escape and read back as five characters.
* `alert_roundtrip_iff`: which values survive.
-/
namespace Wirewolf.L1.AlertJson

open Wirewolf.L1.Severity
open Wirewolf.L1.Verdict (unescape walk extractJsonField walk_quote walk_plain walk_backslash
  extractJsonField_at extractJsonField_via)

def hexDigit (n : UInt8) : UInt8 := if n < 10 then 0x30 + n else 0x57 + n

def jsonEscapeChar (c : UInt8) : Bytes :=
  if c = 0x22 then [0x5C, 0x22]
  else if c = 0x5C then [0x5C, 0x5C]
  else if c = 0x0A then [0x5C, 0x6E]
  else if c = 0x0D then [0x5C, 0x72]
  else if c = 0x09 then [0x5C, 0x74]
  else if c < 0x20 then [0x5C, 0x75, 0x30, 0x30, hexDigit (c >>> 4), hexDigit (c &&& 0x0F)]
  else [c]

/-- mirrors src/src/alert_json.cpp:4-22 -/
def jsonEscape (s : Bytes) : Bytes := s.flatMap jsonEscapeChar

/-- mirrors src/src/alert_json.cpp:24-32 -/
def buildAlertJson (threatType : Bytes) (sev : SeverityInfo) (snippet : Bytes) : Bytes :=
  lit "\x7b\"threat_type\": \"" ++ jsonEscape threatType ++ lit "\", \"severity\": \"" ++
    jsonEscape sev.format ++ lit "\", \"cvss\": " ++ fixed 6 sev.cvss ++ lit ", \"snippet\": \"" ++
    jsonEscape snippet ++ lit "\"\x7d"

/-- The pipeline's reader is the same walk as the worker's.
mirrors src/src/pipeline_controller.cpp:184-215 -/
def extract (llmOutput key : Bytes) : Bytes := extractJsonField llmOutput key

/-! ## Reading an escaped value -/

/-- The bytes that are written in a way the reader knows. -/
def Readable (s : Bytes) : Prop := ∀ c ∈ s, 0x20 ≤ c ∨ c = 0x0A ∨ c = 0x0D ∨ c = 0x09

instance (s : Bytes) : Decidable (Readable s) := List.decidableBAll _ _

/-- What the reader makes of one escaped byte. -/
def readBack (c : UInt8) : Bytes :=
  if 0x20 ≤ c ∨ c = 0x0A ∨ c = 0x0D ∨ c = 0x09 then [c]
  else [0x75, 0x30, 0x30, hexDigit (c >>> 4), hexDigit (c &&& 0x0F)]

theorem hexDigit_plain (c : UInt8) : hexDigit (c &&& 0x0F) ≠ 0x22 ∧ hexDigit (c &&& 0x0F) ≠ 0x5C ∧
    hexDigit (c >>> 4) ≠ 0x22 ∧ hexDigit (c >>> 4) ≠ 0x5C := by
  revert c
  decide +kernel

theorem walk_jsonEscapeChar (c : UInt8) (r : Bytes) :
    walk (jsonEscapeChar c ++ r) = (walk r).map (readBack c ++ ·) := by
  unfold jsonEscapeChar
  split
  · next h => subst h; exact walk_backslash _ r
  · next h₁ =>
    split
    · next h => subst h; exact walk_backslash _ r
    · next h₂ =>
      split
      · next h => subst h; exact walk_backslash _ r
      · next h₃ =>
        split
        · next h => subst h; exact walk_backslash _ r
        · next h₄ =>
          split
          · next h => subst h; exact walk_backslash _ r
          · next h₅ =>
            split
            · next hlow =>
              have hhigh : ¬ 0x20 ≤ c := UInt8.not_le.2 hlow
              obtain ⟨d₁, d₂, d₃, d₄⟩ := hexDigit_plain c
              have hr : readBack c = [0x75, 0x30, 0x30, hexDigit (c >>> 4),
                  hexDigit (c &&& 0x0F)] := by
                simp only [readBack, hhigh, h₃, h₄, h₅, or_self, if_false]
              rw [hr]
              simp only [List.cons_append, List.nil_append]
              rw [walk_backslash, walk_plain (by decide) (by decide),
                walk_plain (by decide) (by decide),
                walk_plain d₃ d₄, walk_plain d₁ d₂]
              simp only [Option.map_map]
              rfl
            · next hhigh =>
              have hr : readBack c = [c] := by
                simp only [readBack, UInt8.not_lt.1 hhigh, true_or, if_true]
              rw [hr]
              exact walk_plain h₁ h₂ r

theorem walk_jsonEscape (s r : Bytes) :
    walk (jsonEscape s ++ r) = (walk r).map (s.flatMap readBack ++ ·) := by
  induction s with
  | nil => cases h : walk r <;> simp [jsonEscape, h]
  | cons c s ih =>
    have hsplit : jsonEscape (c :: s) ++ r = jsonEscapeChar c ++ (jsonEscape s ++ r) := by
      simp [jsonEscape]
    rw [hsplit, walk_jsonEscapeChar, ih, Option.map_map]
    congr 1
    funext x
    simp

/-- A value up to its closing quote. -/
theorem walk_value (s r : Bytes) :
    walk (jsonEscape s ++ 0x22 :: r) = some (s.flatMap readBack) := by
  rw [walk_jsonEscape, walk_quote, Option.map_some, List.append_nil]

theorem readBack_length (c : UInt8) : 1 ≤ (readBack c).length := by
  unfold readBack
  split <;> simp

theorem readable_cons {c : UInt8} {s : Bytes} :
    Readable (c :: s) ↔ (0x20 ≤ c ∨ c = 0x0A ∨ c = 0x0D ∨ c = 0x09) ∧ Readable s :=
  List.forall_mem_cons

theorem readBack_eq_iff {s : Bytes} : s.flatMap readBack = s ↔ Readable s := by
  have hlen : ∀ t : Bytes, t.length ≤ (t.flatMap readBack).length := by
    intro t
    induction t with
    | nil => exact Nat.le_refl _
    | cons c t ih =>
      have := readBack_length c
      rw [List.flatMap_cons, List.length_append, List.length_cons]; omega
  induction s with
  | nil => simp [Readable]
  | cons c s ih =>
    rw [List.flatMap_cons, readable_cons]
    by_cases hc : 0x20 ≤ c ∨ c = 0x0A ∨ c = 0x0D ∨ c = 0x09
    · rw [readBack, if_pos hc, List.singleton_append, List.cons.injEq]
      exact ⟨fun h => ⟨hc, ih.1 h.2⟩, fun h => ⟨rfl, ih.2 h.2⟩⟩
    · refine iff_of_false (fun he => ?_) fun h => hc h.1
      have h₁ := congrArg List.length he
      have h₂ := hlen s
      rw [readBack, if_neg hc, List.length_append] at h₁
      simp only [List.length_cons, List.length_nil] at h₁
      omega

/-- Nothing is escaped without a backslash. -/
theorem jsonEscape_of_quiet {s : Bytes} (h : Quiet s) : jsonEscape s = s := by
  induction s with
  | nil => rfl
  | cons c s ih =>
    obtain ⟨⟨h₁, h₂, h₃⟩, hs⟩ := List.forall_mem_cons.1 h
    have hctl : ∀ d : UInt8, ¬ 0x20 ≤ d → c ≠ d := by
      rintro d hd rfl; exact hd h₁
    have hc : jsonEscapeChar c = [c] := by
      simp only [jsonEscapeChar, h₂, h₃, hctl 0x0A (by decide), hctl 0x0D (by decide),
        hctl 0x09 (by decide), UInt8.not_lt.2 h₁, if_false]
    have := ih hs
    rw [jsonEscape, List.flatMap_cons, hc, ← jsonEscape, this]; rfl

/-! ## The words between the quotes -/

/-- The byte that starts an escape is a backslash, and only escaped quotes
are quotes. -/
theorem jsonEscapeChar_cases (c : UInt8) : (c = 0x22 ∧ jsonEscapeChar c = [0x5C, 0x22]) ∨
    (c ≠ 0x22 ∧ 0x22 ∉ jsonEscapeChar c ∧ (jsonEscapeChar c = [c] ∨ 0x5C ∈ jsonEscapeChar c)) := by
  obtain ⟨h₁, -, h₃, -⟩ := hexDigit_plain c
  by_cases hc : c = 0x22
  · exact .inl ⟨hc, by rw [hc]; rfl⟩
  · refine .inr ⟨hc, ?_⟩
    unfold jsonEscapeChar
    rw [if_neg hc]
    split
    · simp
    · split
      · simp
      · split
        · simp
        · split
          · simp
          · split
            · simp [h₁.symm, h₃.symm]
            · simp [Ne.symm hc]

theorem noQuote_jsonEscape {v : Bytes} (h : 0x22 ∉ v) : 0x22 ∉ jsonEscape v := by
  intro hm
  obtain ⟨c, hc, hq⟩ := List.mem_flatMap.1 hm
  rcases jsonEscapeChar_cases c with ⟨rfl, -⟩ | ⟨-, hn, -⟩
  · exact h hc
  · exact hn hq

theorem jsonEscape_eq_iff {v w : Bytes} (hw : Quiet w) : jsonEscape v = w ↔ v = w := by
  constructor
  · intro h
    have hself : ∀ u : Bytes, 0x5C ∉ jsonEscape u → jsonEscape u = u := by
      intro u hu
      induction u with
      | nil => rfl
      | cons c u ih =>
        rw [jsonEscape, List.flatMap_cons, List.mem_append, not_or] at hu
        rcases jsonEscapeChar_cases c with ⟨-, he⟩ | ⟨-, -, he | he⟩
        · exact absurd (he ▸ List.mem_cons_self ..) hu.1
        · rw [jsonEscape, List.flatMap_cons, he]
          exact congrArg (c :: ·) (ih hu.2)
        · exact absurd he hu.1
    rw [← hself v (by rw [h]; exact fun hm => (hw _ hm).2.2 rfl), h]
  · intro he
    subst he
    exact jsonEscape_of_quiet hw

/-- Escaped text in front of an escaped quote: every word ends in the
backslash of the next quote. -/
theorem escape_words (u : Bytes) : ∃ ws : List Bytes,
    0x22 :: (jsonEscape u ++ [0x5C]) = ws.flatMap (0x22 :: ·) ∧
      ∀ w ∈ ws, 0x22 ∉ w ∧ w.getLast? = some 0x5C := by
  induction u with
  | nil => exact ⟨[[0x5C]], rfl, by simp⟩
  | cons c u ih =>
    obtain ⟨ws, hws, hall⟩ := ih
    rw [jsonEscape, List.flatMap_cons, ← jsonEscape]
    rcases jsonEscapeChar_cases c with ⟨-, he⟩ | ⟨-, hn, -⟩
    · refine ⟨[0x5C] :: ws, ?_, List.forall_mem_cons.2 ⟨by simp, hall⟩⟩
      rw [he, List.flatMap_cons, ← hws]; rfl
    · cases ws with
      | nil => cases hws
      | cons w ws =>
        obtain ⟨⟨hq, hl⟩, hrest⟩ := List.forall_mem_cons.1 hall
        rw [List.flatMap_cons, List.cons_append, List.cons.injEq] at hws
        refine ⟨(jsonEscapeChar c ++ w) :: ws, ?_, List.forall_mem_cons.2 ⟨⟨?_, ?_⟩, hrest⟩⟩
        · rw [List.flatMap_cons, List.cons_append, List.append_assoc, List.append_assoc, hws.2]
        · rw [List.mem_append, not_or]; exact ⟨hn, hq⟩
        · rw [List.getLast?_append, hl]; rfl

/-- The value ends like a key, at a quote of its own or at the opening one. -/
def KeyLike (t : Bytes) : Prop := t = lit "snippet" ∨ lit "\"snippet" <:+ t

/-- An escaped value behind its opening quote: words that end in a backslash,
and a last word that is `snippet` only for a key-like value. -/
theorem value_words (t : Bytes) : ∃ (ws : List Bytes) (v : Bytes),
    0x22 :: jsonEscape t = ws.flatMap (0x22 :: ·) ++ 0x22 :: jsonEscape v ∧
      (∀ w ∈ ws, 0x22 ∉ w ∧ w.getLast? = some 0x5C) ∧ 0x22 ∉ v ∧
      (KeyLike t ↔ v = lit "snippet") := by
  have hlit : lit "\"snippet" = 0x22 :: lit "snippet" := by decide
  have hsplit : ∀ t : Bytes, 0x22 ∉ t ∨ ∃ u v, t = u ++ 0x22 :: v ∧ 0x22 ∉ v := by
    intro t
    induction t with
    | nil => exact .inl List.not_mem_nil
    | cons c t ih =>
      rcases ih with h | ⟨u, v, rfl, hv⟩
      · by_cases hc : c = 0x22
        · exact .inr ⟨[], t, by rw [hc]; rfl, h⟩
        · exact .inl (by rw [List.mem_cons, not_or]; exact ⟨Ne.symm hc, h⟩)
      · exact .inr ⟨c :: u, v, rfl, hv⟩
  rcases hsplit t with ht | ⟨u, v, rfl, hv⟩
  · refine ⟨[], t, rfl, by simp, ht, ?_⟩
    rw [KeyLike, hlit]
    exact or_iff_left fun hs => ht (hs.subset (List.mem_cons_self ..))
  · obtain ⟨ws, hws, hall⟩ := escape_words u
    refine ⟨ws, v, ?_, hall, hv, ?_⟩
    · rw [← hws]
      simp [jsonEscape, jsonEscapeChar]
    · rw [KeyLike, hlit]
      constructor
      · intro hx
        rcases hx with h | h
        · have hq : (0x22 : UInt8) ∈ lit "snippet" := h ▸ by simp
          exact absurd hq (by decide)
        · have hv' : 0x22 :: v <:+ u ++ 0x22 :: v := List.suffix_append ..
          rcases Nat.le_total (0x22 :: lit "snippet").length (0x22 :: v).length with hle | hle
          · rcases List.suffix_cons_iff.1 (List.suffix_of_suffix_length_le h hv' hle) with he | he
            · exact (List.cons.inj he).2.symm
            · exact absurd (he.subset (List.mem_cons_self ..)) hv
          · rcases List.suffix_cons_iff.1 (List.suffix_of_suffix_length_le hv' h hle) with he | he
            · exact (List.cons.inj he).2
            · exact absurd (he.subset (List.mem_cons_self ..)) (by decide)
      · intro he
        subst he
        exact .inr (List.suffix_append ..)

/-! ## The fields of an object -/

section Fields

variable (t s : Bytes) (sev : SeverityInfo)

/-- The words behind the first value, up to the key of the snippet. -/
def middle : List Bytes :=
  [lit ", ", lit "severity", lit ": ", sev.format, lit ", ", lit "cvss",
    lit ": " ++ fixed 6 sev.cvss ++ lit ", "]

theorem build_eq {ws : List Bytes} {v : Bytes}
    (h : 0x22 :: jsonEscape t = ws.flatMap (0x22 :: ·) ++ 0x22 :: jsonEscape v) :
    buildAlertJson t sev s = [0x7B] ++
      (lit "threat_type" :: lit ": " :: ws ++ jsonEscape v :: middle sev).flatMap (0x22 :: ·) ++
      (0x22 :: lit "snippet" ++ 0x22 :: 0x3A :: 0x20 :: 0x22 ::
        (jsonEscape s ++ lit "\"\x7d")) := by
  have h₁ : lit "\x7b\"threat_type\": \"" =
      0x7B :: 0x22 :: lit "threat_type" ++ 0x22 :: lit ": " ++ [0x22] := by decide
  have h₂ : lit "\", \"severity\": \"" =
      0x22 :: lit ", " ++ 0x22 :: lit "severity" ++ 0x22 :: lit ": " ++ [0x22] := by decide
  have h₃ : lit "\", \"cvss\": " =
      0x22 :: lit ", " ++ 0x22 :: lit "cvss" ++ 0x22 :: lit ": " := by decide
  have h₄ : lit ", \"snippet\": \"" =
      lit ", " ++ 0x22 :: lit "snippet" ++ [0x22, 0x3A, 0x20, 0x22] := by decide
  have hopen : ∀ x : Bytes, [0x22] ++ (jsonEscape t ++ x) =
      ws.flatMap (0x22 :: ·) ++ 0x22 :: (jsonEscape v ++ x) := by
    intro x
    rw [← List.append_assoc, List.singleton_append, h, List.append_assoc]; rfl
  rw [buildAlertJson, h₁, h₂, h₃, h₄, jsonEscape_of_quiet (format_quiet sev)]
  simp only [List.append_assoc, List.cons_append, List.nil_append] at hopen ⊢
  rw [hopen]
  simp [middle]

theorem extract_threatType :
    extract (buildAlertJson t sev s) (lit "threat_type") = t.flatMap readBack := by
  have h₁ : lit "\x7b\"threat_type\": \"" =
      [0x7B] ++ (0x22 :: lit "threat_type" ++ [0x22, 0x3A, 0x20, 0x22]) := by decide
  have h₂ : lit "\", \"severity\": \"" = 0x22 :: lit ", \"severity\": \"" := by decide
  have hkey :=
    extractJsonField_at (Search.indexOf_word (show (0x22 : UInt8) ∉ lit "threat_type" by decide)
    (0x3A :: 0x20 :: 0x22 :: (jsonEscape t ++ 0x22 :: (lit ", \"severity\": \"" ++
      jsonEscape sev.format ++ lit "\", \"cvss\": " ++ fixed 6 sev.cvss ++
        lit ", \"snippet\": \"" ++
      jsonEscape s ++ lit "\"\x7d"))) [] [0x7B] (by decide) (by simp))
  rw [walk_value, Option.getD_some] at hkey
  rw [extract, buildAlertJson, h₁, h₂]
  simpa using hkey

theorem quiet_noQuote {w : Bytes} (h : Quiet w) : 0x22 ∉ w := fun hm => (h _ hm).2.1 rfl

/-- The words behind the first value are no keys. -/
theorem middle_words : ∀ w ∈ middle sev, 0x22 ∉ w ∧ w ≠ lit "snippet" := by
  have hkey : lit "snippet" = 0x73 :: lit "nippet" := by decide
  have hformat : sev.format ≠ lit "snippet" := by
    have hlabel : ∃ c w, sev.label = c :: w ∧ c ≠ 0x73 := by
      unfold SeverityInfo.label
      split <;> exact ⟨_, _, rfl, by decide⟩
    obtain ⟨c, w, hc, hne⟩ := hlabel
    rw [SeverityInfo.format, hc, hkey]
    intro he
    exact hne (List.cons.inj he).1
  have hcvss : lit ": " ++ fixed 6 sev.cvss ++ lit ", " ≠ lit "snippet" := by
    rw [show lit ": " = [0x3A, 0x20] by decide, hkey]
    intro he
    exact absurd (List.cons.inj he).1 (by decide)
  have hquiet : Quiet (lit ": " ++ fixed 6 sev.cvss ++ lit ", ") :=
    ((show Quiet (lit ": ") by decide).append (fixed_quiet 6 sev.cvss)).append (by decide)
  simp only [middle, List.mem_cons, List.not_mem_nil, or_false, forall_eq_or_imp, forall_eq]
  exact ⟨by decide, by decide, by decide, ⟨quiet_noQuote (format_quiet sev), hformat⟩, by decide,
    by decide, quiet_noQuote hquiet, hcvss⟩

/-- The words of a value that end in a backslash are no keys. -/
theorem escaped_words {ws : List Bytes} (h : ∀ w ∈ ws, 0x22 ∉ w ∧ w.getLast? = some 0x5C) :
    ∀ w ∈ lit "threat_type" :: lit ": " :: ws, 0x22 ∉ w ∧ w ≠ lit "snippet" := by
  refine List.forall_mem_cons.2 ⟨by decide, List.forall_mem_cons.2 ⟨by decide, fun w hw => ?_⟩⟩
  refine ⟨(h w hw).1, ?_⟩
  intro he
  subst he
  exact absurd (h _ hw).2 (by decide)

/-- Behind a value that is not key-like the snippet's key is the first one. -/
theorem extract_snippet (h : ¬ KeyLike t) :
    extract (buildAlertJson t sev s) (lit "snippet") = s.flatMap readBack := by
  have hsnippet : Quiet (lit "snippet") := by decide
  obtain ⟨ws, v, hws, hall, hv, hiff⟩ := value_words t
  have hwords : ∀ w ∈ lit "threat_type" :: lit ": " :: ws ++ jsonEscape v :: middle sev,
      0x22 ∉ w ∧ w ≠ lit "snippet" := by
    intro w hw
    rcases List.mem_append.1 hw with hw | hw
    · exact escaped_words hall w hw
    · rcases List.mem_cons.1 hw with rfl | hw
      · exact ⟨noQuote_jsonEscape hv, fun he => h (hiff.2 ((jsonEscape_eq_iff hsnippet).1 he))⟩
      · exact middle_words sev w hw
  have hend : jsonEscape s ++ lit "\"\x7d" = jsonEscape s ++ 0x22 :: [0x7D] := rfl
  rw [extract, build_eq t s sev hws, extractJsonField_at (Search.indexOf_word (by decide) _ _ [0x7B]
    (by decide) hwords), hend, walk_value, Option.getD_some]

/-- The end of a key-like value is taken for the key, and the severity for
the value behind it. -/
theorem extract_snippet_keyLike (h : KeyLike t) :
    extract (buildAlertJson t sev s) (lit "snippet") = sev.format := by
  obtain ⟨ws, v, hws, hall, -, hiff⟩ := value_words t
  have hv : jsonEscape v = lit "snippet" := (jsonEscape_eq_iff (by decide)).2 (hiff.1 h)
  have hcolon : lit ": " = [0x3A, 0x20] := by decide
  have hmid : (0x3A : UInt8) ∉ lit ", " ++ 0x22 :: lit "severity" ++ [0x22] := by decide
  rw [hv] at hws
  have htext := build_eq t s sev (v := v) (by rw [hv]; exact hws)
  rw [hv] at htext
  have hkey :=
    extractJsonField_via hmid (Search.indexOf_word (show (0x22 : UInt8) ∉ lit "snippet" by decide)
    ((lit ", " ++ 0x22 :: lit "severity" ++ [0x22]) ++ 0x3A :: 0x20 :: 0x22 ::
      (jsonEscape sev.format ++ 0x22 :: (lit ", " ++ 0x22 :: lit "cvss" ++ 0x22 ::
        (lit ": " ++ fixed 6 sev.cvss ++ lit ", ") ++
          (0x22 :: lit "snippet" ++ 0x22 :: 0x3A :: 0x20 ::
          0x22 :: (jsonEscape s ++ lit "\"\x7d"))))) (lit "threat_type" :: lit ": " :: ws) [0x7B]
      (by decide) (escaped_words hall))
  have hformat : sev.format.flatMap readBack = sev.format :=
    readBack_eq_iff.2 fun c hc => .inl (format_quiet sev c hc).1
  rw [walk_value, Option.getD_some, hformat] at hkey
  rw [extract, htext]
  rw [jsonEscape_of_quiet (format_quiet sev)] at hkey
  simpa [middle, hcolon] using hkey

/-- Type and snippet survive exactly when neither has a control byte other
than the three that have escapes of their own, and the type does not end like
the key of the snippet (or the snippet happens to be the severity's text). -/
theorem alert_roundtrip_iff :
    (extract (buildAlertJson t sev s) (lit "threat_type") = t ∧
      extract (buildAlertJson t sev s) (lit "snippet") = s) ↔
    Readable t ∧ ((¬ KeyLike t ∧ Readable s) ∨ (KeyLike t ∧ s = sev.format)) := by
  rw [extract_threatType, readBack_eq_iff]
  apply and_congr_right
  intro _
  by_cases h : KeyLike t
  · rw [extract_snippet_keyLike t s sev h]
    simp only [h, not_true, false_and, false_or, true_and]
    exact eq_comm
  · rw [extract_snippet t s sev h, readBack_eq_iff]
    simp only [h, not_false_eq_true, true_and, false_and, or_false]

end Fields

/-! ## The object as JSON -/

/-- A JSON parser undoes the escaping, control bytes included. -/
theorem literal_jsonEscapeChar (c : UInt8) (r : Bytes) :
    Json.literal (jsonEscapeChar c ++ r) = (Json.literal r).map fun p => (c :: p.1, p.2) := by
  unfold jsonEscapeChar
  split
  · next h => subst h; exact Json.literal_escaped rfl r
  · next h₁ =>
    split
    · next h => subst h; exact Json.literal_escaped rfl r
    · next h₂ =>
      split
      · next h => subst h; exact Json.literal_escaped rfl r
      · split
        · next h => subst h; exact Json.literal_escaped rfl r
        · split
          · next h => subst h; exact Json.literal_escaped rfl r
          · split
            · next hlow =>
              have hcontrol : ∀ c : UInt8, c < 0x20 →
                  Json.unicode 0x30 0x30 (hexDigit (c >>> 4)) (hexDigit (c &&& 0x0F)) =
                    some [c] := by
                decide +kernel
              exact Json.literal_unicode (hcontrol c hlow) r
            · next hhigh => exact Json.literal_plain (UInt8.not_lt.1 hhigh) h₁ h₂ r

theorem literal_jsonEscape (s r : Bytes) :
    Json.literal (jsonEscape s ++ 0x22 :: r) = some (s, r) := by
  induction s with
  | nil => exact Json.literal_quote r
  | cons c s ih =>
    have hsplit : jsonEscape (c :: s) ++ 0x22 :: r = jsonEscapeChar c ++
        (jsonEscape s ++ 0x22 :: r) := by
      simp [jsonEscape]
    rw [hsplit, literal_jsonEscapeChar, ih]; rfl

theorem string_jsonEscape (s r : Bytes) : Json.string (jsonEscape s ++ 0x22 :: r) = some s := by
  rw [Json.string_eq, literal_jsonEscape]; rfl

/-- The `"threat_type"` of an object that starts with it. -/
def threatTypeOf (json : Bytes) : Option Bytes :=
  let opening := lit "\x7b\"threat_type\": \""
  if opening.isPrefixOf json then Json.string (json.drop opening.length) else none

theorem threatTypeOf_build (t s : Bytes) (sev : SeverityInfo) :
    threatTypeOf (buildAlertJson t sev s) = some t := by
  have hquote : lit "\", \"severity\": \"" = 0x22 :: lit ", \"severity\": \"" := by decide
  have hbuild : ∃ r, buildAlertJson t sev s =
      lit "\x7b\"threat_type\": \"" ++ (jsonEscape t ++ 0x22 :: r) := by
    refine ⟨lit ", \"severity\": \"" ++ jsonEscape sev.format ++ lit "\", \"cvss\": " ++
      fixed 6 sev.cvss ++ lit ", \"snippet\": \"" ++ jsonEscape s ++ lit "\"\x7d", ?_⟩
    rw [buildAlertJson, hquote]
    simp only [List.append_assoc, List.cons_append]
  obtain ⟨r, hr⟩ := hbuild
  rw [hr, threatTypeOf, if_pos (List.isPrefixOf_iff_prefix.2 (List.prefix_append _ _)),
    List.drop_left]
  exact string_jsonEscape t r

/-- A control byte in the snippet is read back as `u0001`, and the type
`snippet` hides the snippet behind the severity. -/
theorem snippet_garbled :
    extract (buildAlertJson (lit "SQLi") ⟨.critical, 9.3⟩ [0x01]) (lit "snippet") = lit "u0001" ∧
    extract (buildAlertJson (lit "SQLi") ⟨.critical, 9.3⟩ [0x01]) (lit "snippet") ≠ [0x01] ∧
    extract (buildAlertJson (lit "snippet") ⟨.critical, 9.3⟩ (lit "x")) (lit "snippet") =
      lit "Critical (CVSS 4.0: 9.3/Critical)" := by
  decide +kernel

end Wirewolf.L1.AlertJson
