import Wirewolf.L1Encoding.Severity
import Wirewolf.L4Filter.Detectors

/-!
# The fingerprint of a recognised ClientHello

`Fingerprinted` says what a recognised hello should carry: a JA3 string of
five fields and its MD5 as 32 hexadecimal digits. The parser has two
successful exits, and the one for a hello that ends behind its compression
methods leaves both strings empty.

* `fields_ja3String`: the string that the other exit builds splits into its
  five fields.
* `fingerprinted_iff`: a recognised hello is fingerprinted exactly when an
  extensions block can start in it, and exactly then `inspect_tls` looks no
  empty hash up.
-/
namespace Wirewolf.L4.Fingerprint

open Wirewolf.L1 Wirewolf.L1.IpPacket Wirewolf.L1.TlsHello
open Wirewolf.L4.Detectors
open Wirewolf.L1.Normalizer (toLower)

/-! ## What a recognised hello should carry -/

/-- The cipher suites that are no GREASE values, in order. -/
def offered (p : Bytes) : List Nat := cipherSuites p (suitesPos p + 2) (be16At p (suitesPos p))

structure Fingerprinted (p : Bytes) (out : TlsInfo) : Prop where
  fields : ∃ extensions curves formats : Bytes, out.ja3.splitOn 0x2C =
    [lit (toString (be16At p 9)), joinDec (offered p), extensions, curves, formats]
  hash_eq : out.ja3Hash = Md5.hash out.ja3
  hash_length : out.ja3Hash.length = 32
  hash_digits : ∀ c ∈ out.ja3Hash, c ∈ Md5.hexDigits

/-- The answer of `inspect_tls` on the flow depends on whether the empty hash
stands on the list of bad fingerprints. -/
def ComparesEmpty (flow : FlowData) : Prop :=
  ∃ t : ThreatFeed, inspectTls { t with badJa3 := [] :: t.badJa3 } flow ≠ inspectTls t flow

/-! ## The hash -/

theorem hexDigits_getD {i : Nat} (h : i < 16) : Md5.hexDigits.getD i 0 ∈ Md5.hexDigits := by
  have hlen : i < Md5.hexDigits.length := h
  rw [List.getD, List.getElem?_eq_getElem hlen]
  exact List.getElem_mem hlen

theorem hexDigest_length (ctx : Md5.Ctx) : (Md5.hexDigest ctx).length = 32 := rfl

theorem hexDigest_digits (ctx : Md5.Ctx) : ∀ c ∈ Md5.hexDigest ctx, c ∈ Md5.hexDigits := by
  intro c hc
  obtain ⟨v, -, hc⟩ := List.mem_flatMap.1 hc
  obtain ⟨j, -, hc⟩ := List.mem_flatMap.1 hc
  have hout := (v >>> UInt32.ofNat (8 * j)).toUInt8.toNat_lt
  simp only [List.mem_cons, List.not_mem_nil, or_false] at hc
  rcases hc with rfl | rfl
  · exact hexDigits_getD (by omega)
  · exact hexDigits_getD (Nat.mod_lt _ (by decide))

theorem hash_ne_nil (input : Bytes) : Md5.hash input ≠ [] :=
  List.ne_nil_of_length_eq_add_one (hexDigest_length _)

/-! ## The fields -/

theorem utf8EncodeChar_digit {d : Char} (h : d.isDigit = true) :
    String.utf8EncodeChar d = [UInt8.ofNat d.toNat] := by
  rw [Char.isDigit, Bool.and_eq_true, decide_eq_true_eq, decide_eq_true_eq] at h
  have hhigh : d.toNat ≤ 57 := h.2
  have hsize : d.utf8Size = 1 := if_pos (Nat.le_trans hhigh (by decide))
  exact String.utf8EncodeChar_eq_singleton hsize

/-- A printed number consists of digits. -/
theorem lit_toString (n : Nat) : lit (toString n) = digits n := by
  have hrepr : (toString n).toList = Nat.toDigits 10 n := Nat.toList_repr
  have hdigits : ∀ d ∈ Nat.toDigits 10 n, d.isDigit = true := fun d hd =>
    Nat.isDigit_of_mem_toDigits (by decide) (by decide) hd
  rw [lit_eq_flatMap, hrepr, digits]
  generalize Nat.toDigits 10 n = l at hdigits
  induction l with
  | nil => rfl
  | cons d l ih =>
    rw [List.flatMap_cons, utf8EncodeChar_digit (hdigits d List.mem_cons_self), List.map_cons,
      ih fun d hd => hdigits d (List.mem_cons_of_mem _ hd)]
    rfl

theorem comma_not_mem_lit (n : Nat) : 0x2C ∉ lit (toString n) := by
  intro hc
  rw [lit_toString] at hc
  exact absurd (digits_range n _ hc).1 (by decide)

theorem comma_not_mem_joinDec (v : List Nat) : 0x2C ∉ joinDec v := by
  unfold joinDec
  induction v with
  | nil => exact List.not_mem_nil
  | cons n v ih =>
    cases v with
    | nil =>
      rw [List.map_cons, List.map_nil, List.intercalate_singleton]
      exact comma_not_mem_lit n
    | cons m v =>
      rw [List.map_cons, List.map_cons, List.intercalate_cons_cons]
      simp only [List.mem_append, not_or]
      exact ⟨⟨comma_not_mem_lit n, by decide⟩, ih⟩

theorem fields_ja3String (version : Nat) (ciphers : List Nat) (x : Extensions) :
    (ja3String version ciphers x).splitOn 0x2C = [lit (toString version), joinDec ciphers,
      joinDec x.extensions, joinDec x.curves, joinDec x.formats] := by
  rw [ja3String, List.splitOn_intercalate _ _ (List.cons_ne_nil _ _)]
  intro l hl
  simp only [List.mem_cons, List.not_mem_nil, or_false] at hl
  rcases hl with rfl | rfl | rfl | rfl | rfl
  · exact comma_not_mem_lit _
  all_goals exact comma_not_mem_joinDec _

/-! ## The two exits -/

/-- What the parser answers, with the positions written out. -/
theorem parse_some {p : Bytes} {out : TlsInfo} (h : parseTlsClientHello p = some out) :
    out = if HasExtensions p then
      let x := parseExtensions p (extensionsPos p + 2)
        (min (extensionsPos p + 2 + be16At p (extensionsPos p)) p.length) {}
      let ja3 := ja3String (be16At p 9) (offered p) x
      { sni := x.sni, ja3 := ja3, ja3Hash := Md5.hash ja3 }
    else {} := by
  unfold parseTlsClientHello at h
  simp only [Option.ite_none_left_eq_some] at h
  obtain ⟨-, -, -, -, -, -, h⟩ := h
  unfold parseSuites at h
  simp only [Option.ite_none_left_eq_some] at h
  obtain ⟨-, -, h⟩ := h
  change (if p.length < extensionsPos p + 2 then _ else _) = _ at h
  by_cases hext : HasExtensions p
  · rw [if_neg (Nat.not_lt.2 hext)] at h
    rw [if_pos hext]
    exact (Option.some.inj h).symm
  · rw [if_pos (Nat.lt_of_not_le hext)] at h
    rw [if_neg hext]
    exact (Option.some.inj h).symm

theorem fingerprinted_of_extensions {p : Bytes} {out : TlsInfo}
    (h : parseTlsClientHello p = some out) (hext : HasExtensions p) : Fingerprinted p out := by
  rw [parse_some h, if_pos hext]
  exact {
    fields := ⟨_, _, _, fields_ja3String _ _ _⟩
    hash_eq := rfl
    hash_length := hexDigest_length _
    hash_digits := hexDigest_digits _ }

theorem fingerprint_empty {p : Bytes} {out : TlsInfo}
    (h : parseTlsClientHello p = some out) (hext : ¬HasExtensions p) : out = {} := by
  rw [parse_some h, if_neg hext]

/-! ## The lookup -/

/-- A hash with digits is never mistaken for the empty one. -/
theorem not_comparesEmpty {flow : FlowData} {out : TlsInfo}
    (h : parseTlsClientHello flow.reassembledPayload = some out) (hne : out.ja3Hash ≠ []) :
    ¬ComparesEmpty flow := by
  intro hc
  obtain ⟨t, ht⟩ := hc
  have hlower : out.ja3Hash.map toLower ≠ [] := fun he => hne (List.map_eq_nil_iff.1 he)
  have hbad : ThreatFeed.isBadJa3 { t with badJa3 := [] :: t.badJa3 } out.ja3Hash =
      t.isBadJa3 out.ja3Hash := by
    simp only [ThreatFeed.isBadJa3, List.mem_cons, hlower, false_or]
  refine ht ?_
  simp only [inspectTls, h, hbad, ThreatFeed.isBadDomain]

/-- The empty hash of a hello without a name matches an empty entry, and
nothing else makes it suspicious. -/
theorem comparesEmpty_of_empty {flow : FlowData}
    (h : parseTlsClientHello flow.reassembledPayload = some {}) : ComparesEmpty flow := by
  refine ⟨{}, fun he => ?_⟩
  have hbad : (inspectTls { badJa3 := [[]] } flow).1 = .suspicious := by
    simp only [inspectTls, h]
    rw [if_pos (Or.inr (by decide))]
  have hgood : (inspectTls {} flow).1 = .benign := by
    simp only [inspectTls, h]
    rw [if_neg (by decide), if_neg (by decide), if_neg (by decide)]
  rw [he, hgood] at hbad
  cases hbad

/-- A recognised hello is fingerprinted exactly when an extensions block can
start behind its compression methods; otherwise `inspect_tls` looks the empty
hash up. -/
theorem fingerprinted_iff (p : Bytes) (out : TlsInfo) (h : parseTlsClientHello p = some out) :
    (Fingerprinted p out ↔ HasExtensions p) ∧
      ∀ flow : FlowData, flow.reassembledPayload = p → (¬ComparesEmpty flow ↔ HasExtensions p) := by
  refine ⟨⟨fun hf => ?_, fingerprinted_of_extensions h⟩,
    fun flow hflow => ⟨fun hc => ?_, fun hext => ?_⟩⟩
  · refine Decidable.byContradiction fun hext => ?_
    have hlen := hf.hash_length
    rw [fingerprint_empty h hext] at hlen
    cases hlen
  · refine Decidable.byContradiction fun hext => hc (comparesEmpty_of_empty ?_)
    rw [hflow, h, fingerprint_empty h hext]
  · have hhash := (fingerprinted_of_extensions h hext).hash_eq
    refine not_comparesEmpty (by rw [hflow, h]) ?_
    rw [hhash]
    exact hash_ne_nil _

/-- Version 0x0303, one cipher suite, no compression, nothing behind it. -/
def bareHello : Bytes :=
  [0x16, 0x03, 0x01, 0x00, 0x2D, 0x01, 0x00, 0x00, 0x29, 0x03, 0x03] ++ List.replicate 32 0 ++
    [0x00, 0x00, 0x02, 0x00, 0x2F, 0x01, 0x00]

def bareFlow : FlowData :=
  { id := ⟨0x0100000A, 0x0200000A, 0x3930, 0xBB01⟩, reassembledPayload := bareHello }

theorem fingerprint_missing :
    parseTlsClientHello bareHello = some {} ∧ ¬Fingerprinted bareHello {} ∧
      ComparesEmpty bareFlow := by
  have hparse : parseTlsClientHello bareHello = some {} := by decide
  refine ⟨hparse, fun hf => ?_, comparesEmpty_of_empty hparse⟩
  have hlen := hf.hash_length
  cases hlen

/-- The same hello with an empty extensions block. -/
theorem fingerprinted_empty_block :
    Fingerprinted (bareHello ++ [0, 0])
      { ja3 := lit "771,47,,,", ja3Hash := Md5.hash (lit "771,47,,,") } :=
  (fingerprinted_iff _ _ (by decide +kernel)).1.2 (by decide)

end Wirewolf.L4.Fingerprint
