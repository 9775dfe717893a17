import Wirewolf.L1Encoding.Canonical
import Wirewolf.L4Filter.Detectors

/-!
# Content signatures (`threat_feed.hpp`)

Loading of the rule file, and the rules against the normalizer. A pattern is
trimmed and lowercased when it is loaded; a payload is percent-decoded,
stripped of comments and folded before it is searched. The two agree on the
patterns in canonical form.

* `signature_shown`: which contexts leave a canonical signature visible.
* `loaded_matchable_iff`: which loaded rules match their own pattern text.
-/
namespace Wirewolf.L4.Signatures

open Wirewolf.L1.Normalizer Wirewolf.L1.PercentCoding Wirewolf.L1.Canonical
open Wirewolf.L1.IpPacket Wirewolf.L4.Detectors

/-! ## Loading -/

/-- mirrors src/include/threat_feed.hpp:113-119 -/
def trim (s : Bytes) : Bytes := ((s.dropWhile isWhite).reverse.dropWhile isWhite).reverse

/-- `std::getline` with a delimiter: the field, and what is left. -/
def getline (delim : UInt8) (s : Bytes) : Bytes × Bytes :=
  (s.takeWhile (· ≠ delim), (s.dropWhile (· ≠ delim)).drop 1)

/-- The lines of a file. -/
def lines : Bytes → List Bytes
  | [] => []
  | c :: s =>
    if c = 0x0A then [] :: lines s
    else match lines s with
      | [] => [[c]]
      | l :: ls => (c :: l) :: ls

/-- One line of the rule file; `none` when it loads nothing.
mirrors src/include/threat_feed.hpp:139-156 -/
def loadLine (line : Bytes) : Option ContentSignature :=
  let v := trim line
  if v.isEmpty || v[0]? == some 0x23 then none
  else
    let name := getline 0x7C v
    let severity := getline 0x7C name.2
    let pattern := (trim (getline 0x0A severity.2).1).map toLower
    if pattern.isEmpty then none
    else
      let tag := trim severity.1
      some ⟨trim name.1, if tag.isEmpty then lit "Malware Payload" else tag, pattern⟩

/-- mirrors src/include/threat_feed.hpp:134-158 -/
def loadSignatures (content : Bytes) : List ContentSignature := (lines content).filterMap loadLine

theorem loaded_nonempty {content : Bytes} {sig : ContentSignature}
    (h : sig ∈ loadSignatures content) :
    sig.pattern ≠ [] := by
  obtain ⟨line, -, hl⟩ := List.mem_filterMap.1 h
  unfold loadLine at hl
  dsimp only at hl
  split at hl
  · cases hl
  · split at hl
    · cases hl
    · next hp =>
      cases hl
      exact fun he => hp (List.isEmpty_iff.2 he)

/-! ## Matching -/

theorem matchSignature_isSome (f : ThreatFeed) (text : Bytes) :
    (f.matchSignature text).isSome ↔ ∃ sig ∈ f.signatures, sig.pattern ≠ [] ∧
    sig.pattern <:+: text := by
  rw [ThreatFeed.matchSignature, List.find?_isSome]
  simp only [Bool.and_eq_true, Bool.not_eq_true', List.isEmpty_eq_false_iff, Search.containsSub_iff]

/-- What is at most as long as the pattern and contains it, is the pattern. -/
theorem infix_normalize_iff {p : Bytes} : p <:+: normalizePayload p ↔ CanonicalText p := by
  rw [← canonical_iff]
  constructor
  · intro h
    have := normalize_length_le p
    exact (h.eq_of_length_le (by omega)).symm
  · intro h
    simp only [h, List.infix_rfl]

/-- A loaded rule matches its own pattern text exactly when the pattern is in
canonical form, or another rule comes to its help. -/
theorem loaded_matchable_iff (f : ThreatFeed) (content : Bytes)
    (hf : f.signatures = loadSignatures content) (sig : ContentSignature)
    (h : sig ∈ loadSignatures content) :
    (f.matchSignature (normalizePayload sig.pattern)).isSome ↔ CanonicalText sig.pattern ∨
      ∃ other ∈ loadSignatures content, other.pattern ≠ sig.pattern ∧
        other.pattern <:+: normalizePayload sig.pattern := by
  rw [matchSignature_isSome, hf]
  constructor
  · intro hx
    obtain ⟨other, hmem, -, hin⟩ := hx
    by_cases heq : other.pattern = sig.pattern
    · rw [heq] at hin
      exact .inl (infix_normalize_iff.1 hin)
    · exact .inr ⟨other, hmem, heq, hin⟩
  · intro hx
    rcases hx with hc | ⟨other, hmem, -, hin⟩
    · exact ⟨sig, h, loaded_nonempty h, infix_normalize_iff.2 hc⟩
    · exact ⟨other, hmem, loaded_nonempty hmem, hin⟩

/-- Three lines of the rule file. -/
def cryptominingRules : Bytes :=
  lit "# ── Cryptomining ──\nStratum mining.subscribe | Cryptominer Traffic | mining.subscribe\n" ++
    lit "Stratum+TCP Pool | Cryptominer Traffic | stratum+tcp://\n"

/-- The plus sign of the mining-pool rule is a blank in every payload. -/
theorem stratum_rule_dead :
    ⟨lit "Stratum+TCP Pool", lit "Cryptominer Traffic", lit "stratum+tcp://"⟩ ∈
        loadSignatures cryptominingRules ∧
      normalizePayload (lit "stratum+tcp://") = lit "stratum tcp://" ∧
      ThreatFeed.matchSignature { signatures := loadSignatures cryptominingRules }
        (normalizePayload (lit "stratum+tcp://")) = none := by
  decide

theorem loaded_matchable_subscribe :
    (ThreatFeed.matchSignature { signatures := loadSignatures cryptominingRules }
      (normalizePayload (lit "mining.subscribe"))).isSome := by
  have hcanonical : CanonicalText (lit "mining.subscribe") := canonical_iff.1 (by decide)
  exact (loaded_matchable_iff { signatures := loadSignatures cryptominingRules }
    cryptominingRules rfl
    ⟨lit "Stratum mining.subscribe", lit "Cryptominer Traffic", lit "mining.subscribe"⟩
    (by decide)).2 (.inl hcanonical)

/-! ## A signature in a context -/

/-- A canonical signature is found in every context that shows it; of the
percent sign this is the exact condition. -/
theorem signature_shown (a b : Bytes) (ha : Plain a) (hb : Plain b) :
    (∀ (f : ThreatFeed) (flow : FlowData) (q : Bytes), normalizePayload q = q →
      (a ++ q ++ b).length ≤ maxNorm → Shown a q b →
      q <:+: normalizePayload (a ++ q ++ b) ∧
      (∀ sig ∈ f.signatures, sig.pattern = q → q ≠ [] →
        (f.matchSignature (normalizePayload (a ++ q ++ b))).isSome) ∧
      (flow.normalizedPayload = normalizePayload (a ++ q ++ b) → q ∈ obfuscationMarkers →
        6 ≤ flow.normalizedPayload.length → detectObfuscatedInjection flow = true)) ∧
    ((a ++ lit "%" ++ b).length ≤ maxNorm → NoEscape (lit "%" ++ b) →
      (lit "%" <:+: normalizePayload (a ++ lit "%" ++ b) ↔ Shown a (lit "%") b)) := by
  refine ⟨fun f flow q hq hlen hs => ?_, percent_shown_iff ha hb⟩
  have hin := shown_contained (canonical_iff.1 hq) ha hlen hs
  refine ⟨hin, ?_, ?_⟩
  · rintro sig hmem rfl hne
    exact (matchSignature_isSome f _).2 ⟨sig, hmem, hne, hin⟩
  · intro hflow hm hsix
    rw [detectObfuscatedInjection, if_neg (by omega), List.any_eq_true]
    exact ⟨q, hm, by rw [hflow, Search.containsSub_iff]; exact hin⟩

/-- `/*` in front of an attack hides it. -/
theorem signature_hidden : normalizePayload (lit "union select") = lit "union select" ∧
    Plain (lit "/*") ∧ (lit "/*" ++ lit "union select" ++ []).length ≤ maxNorm ∧
    normalizePayload (lit "/*" ++ lit "union select" ++ []) = [] ∧
    ¬ lit "union select" <:+: normalizePayload (lit "/*" ++ lit "union select" ++ []) := by
  refine ⟨by decide, ⟨by decide, by decide⟩, by decide, by decide, ?_⟩
  rw [← Search.containsSub_iff]
  decide

theorem signature_shown_query : lit "union select" <:+: normalizePayload (lit "/*x*/ID=1 " ++
    lit "union select" ++ lit " 2 --") := by
  exact ((signature_shown (lit "/*x*/ID=1 ") (lit " 2 --") ⟨by decide, by decide⟩
    ⟨by decide, by decide⟩).1 {} { id := ⟨0, 0, 0, 0⟩ } (lit "union select") (by decide) (by decide)
    (by decide)).1

end Wirewolf.L4.Signatures
