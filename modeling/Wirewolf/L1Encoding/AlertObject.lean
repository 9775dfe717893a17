import Wirewolf.L1Encoding.AlertJson

/-!
# The alert object as a JSON text

The object is put together by pasting escaped values into a template. For a
JSON parser it has the four members of the template, whatever was pasted: an
escaped value ends at the quote that the template puts behind it, and the score
is a number as long as it is finite.

* `fixed_number`: a finite score is printed as a JSON number.
* `buildAlertJson_parse`: what a parser makes of the object.
-/
namespace Wirewolf.L1.AlertObject

open Wirewolf.L1.Severity Wirewolf.L1.AlertJson
open Wirewolf.Json (Reads Value member value reads_string reads_number reads_member reads_object)

/-! ## The score -/

/-- Six places: digits without a leading zero, a point and more digits. -/
theorem point_number (n : Nat) : ∃ w f : Bytes, point 6 n = w ++ 0x2E :: f ∧
    (∀ c ∈ w, isDigit c = true) ∧ w ≠ [] ∧ (w = [0x30] ∨ w.head? ≠ some 0x30) ∧
    (∀ c ∈ f, isDigit c = true) ∧ f ≠ [] := by
  refine ⟨digits (n / 10 ^ 6), _, rfl, Numeral.digits_isDigit, Numeral.digits_ne_nil _,
    Numeral.digits_lead _, fun c hc => ?_, ?_⟩
  · rcases List.mem_append.1 hc with hz | hd
    · rw [List.eq_of_mem_replicate hz]; rfl
    · exact Numeral.digits_isDigit c hd
  · exact List.append_ne_nil_of_right_ne_nil _ (Numeral.digits_ne_nil _)

theorem fixed_number {f : Float32} (h : f.isFinite = true) (n : Nat) :
    Reads (value (n + 1)) (fixed 6 f) (.number (fixed 6 f)) := by
  have hpoint : ∀ (sign : Float.Model.UnpackedFloat.Sign) (k : Nat),
      Reads (value (n + 1)) (signed sign (point 6 k)) (.number (signed sign (point 6 k))) := by
    intro sign k
    obtain ⟨w, r, hw, hdigits, hne, hlead, hfrac, hfne⟩ := point_number k
    rw [hw]
    cases sign with
    | negative => exact reads_number (.inr rfl) hdigits hne hlead hfrac hfne n
    | positive => exact reads_number (.inl rfl) hdigits hne hlead hfrac hfne n
  change f.toModel.unpack.isFinite = true at h
  unfold fixed
  revert h
  cases f.toModel.unpack with
  | infinity sign => intro h; cases h
  | notANumber => intro h; cases h
  | zero sign => exact fun _ => hpoint sign 0
  | finite sign m e hm => exact fun _ => hpoint sign _

/-- Infinity and not-a-number are printed as words that JSON does not know. -/
theorem fixed_word {f : Float32} (h : f.isFinite = false) (n : Nat) (rest : Bytes) :
    value n (fixed 6 f ++ rest) = none := by
  have hinf : lit "inf" = [0x69, 0x6E, 0x66] := by decide
  have hnan : lit "nan" = [0x6E, 0x61, 0x6E] := by decide
  change f.toModel.unpack.isFinite = false at h
  unfold fixed
  revert h
  cases n with
  | zero => exact fun _ => rfl
  | succ n =>
    cases f.toModel.unpack with
    | infinity sign =>
      intro _
      rw [hinf]
      cases sign <;> rfl
    | notANumber =>
      intro _
      rw [hnan]
      rfl
    | zero sign => intro h; cases h
    | finite sign m e hm => intro h; cases h

/-! ## The object -/

section Object

variable (t s : Bytes) (sev : SeverityInfo)

/-- The first two members of the template. -/
def opening : List (Bytes × Bytes × Value) := [
  (0x22 :: lit "threat_type" ++ 0x22 :: 0x3A :: 0x20 :: (0x22 :: jsonEscape t ++ [0x22]),
    lit "threat_type", .string t),
  (0x22 :: lit "severity" ++ 0x22 :: 0x3A :: 0x20 :: (0x22 :: jsonEscape sev.format ++ [0x22]),
    lit "severity", .string sev.format)]

/-- The text of each member of the template, and what it is. -/
def members : List (Bytes × Bytes × Value) := opening t sev ++ [
  (0x22 :: lit "cvss" ++ 0x22 :: 0x3A :: 0x20 :: fixed 6 sev.cvss,
    lit "cvss", .number (fixed 6 sev.cvss)),
  (0x22 :: lit "snippet" ++ 0x22 :: 0x3A :: 0x20 :: (0x22 :: jsonEscape s ++ [0x22]),
    lit "snippet", .string s)]

theorem build_members : buildAlertJson t sev s =
    0x7B :: (lit ", ").intercalate ((members t s sev).map Prod.fst) ++ [0x7D] := by
  have h₁ : lit "\x7b\"threat_type\": \"" = 0x7B :: 0x22 :: lit "threat_type" ++
      [0x22, 0x3A, 0x20, 0x22] := by
    decide
  have h₂ : lit "\", \"severity\": \"" =
      0x22 :: lit ", " ++ 0x22 :: lit "severity" ++ [0x22, 0x3A, 0x20, 0x22] := by decide
  have h₃ : lit "\", \"cvss\": " = 0x22 :: lit ", " ++ 0x22 :: lit "cvss" ++
      [0x22, 0x3A, 0x20] := by decide
  have h₄ : lit ", \"snippet\": \"" = lit ", " ++ 0x22 :: lit "snippet" ++
      [0x22, 0x3A, 0x20, 0x22] := by
    decide
  have h₅ : lit "\"\x7d" = [0x22, 0x7D] := by decide
  rw [buildAlertJson, h₁, h₂, h₃, h₄, h₅]
  simp [members, opening, List.intercalate]

theorem key_literal {k : Bytes} (hk : Quiet k) (r : Bytes) :
    Json.literal (k ++ 0x22 :: r) = some (k, r) := by
  have := literal_jsonEscape k r
  rwa [jsonEscape_of_quiet hk] at this

/-- A member with an escaped string. -/
theorem string_member {k : Bytes} (hk : Quiet k) (v : Bytes) (n : Nat) :
    Reads (member fun s => value (n + 1) s)
      (0x22 :: k ++ 0x22 :: 0x3A :: 0x20 :: (0x22 :: jsonEscape v ++ [0x22])) (k, .string v) :=
  reads_member (key_literal hk) (Json.value_blank _) (reads_string (literal_jsonEscape v) n)

theorem opening_reads (n : Nat) :
    ∀ p ∈ opening t sev, Reads (member fun s => value (n + 1) s) p.1 p.2 := by
  simp only [opening, List.mem_cons, List.not_mem_nil, or_false, forall_eq_or_imp, forall_eq]
  exact ⟨string_member (by decide) t n, string_member (by decide) sev.format n⟩

theorem members_read (h : sev.cvss.isFinite = true) (n : Nat) :
    ∀ p ∈ members t s sev, Reads (member fun s => value (n + 1) s) p.1 p.2 := by
  rw [members, List.forall_mem_append]
  refine ⟨opening_reads t sev n, ?_⟩
  simp only [List.mem_cons, List.not_mem_nil, or_false, forall_eq_or_imp, forall_eq]
  exact ⟨reads_member (key_literal (by decide)) (Json.value_blank _) (fixed_number h n),
    string_member (by decide) s n⟩

/-- A score that is no number leaves the text without a third member. -/
theorem listed_none (h : sev.cvss.isFinite = false) (n : Nat) (rest : Bytes) :
    Json.listed (member fun s => value n s) 0x7D n
      ((opening t sev).flatMap (fun p => p.1 ++ lit ", ") ++
        (0x22 :: lit "cvss" ++ 0x22 :: 0x3A :: 0x20 :: (fixed 6 sev.cvss ++ rest))) = none := by
  have hbad : member (fun s => value n s)
      (0x22 :: lit "cvss" ++ 0x22 :: 0x3A :: 0x20 :: (fixed 6 sev.cvss ++ rest)) = none := by
    rw [member, List.cons_append, Json.skip_cons rfl]
    simp only [if_true, key_literal (show Quiet (lit "cvss") by decide), Option.bind_eq_bind,
      Option.bind_some]
    rw [Json.skip_cons rfl]
    simp only [if_true, Json.value_blank, fixed_word h, Option.bind_none]
  cases n with
  | zero => rfl
  | succ n =>
    have hcomma : (0x7D : UInt8) ≠ 0x2C := by decide
    have hnone := Json.separated_none (Json.member_blank _) hcomma
      (opening_reads t sev n) hbad (n + 1)
    rw [Json.listed, hnone]
    exact if_neg (by simp [opening, Json.skip_cons (show isWhite 0x22 = false by decide)])

/-- The object is an object of the four members, in order and of the right
kinds, whatever the strings are; without a finite score it is no JSON text. -/
theorem buildAlertJson_parse :
    Json.parse (buildAlertJson t sev s) =
      if sev.cvss.isFinite then
        some (.object [(lit "threat_type", .string t), (lit "severity", .string sev.format),
          (lit "cvss", .number (fixed 6 sev.cvss)), (lit "snippet", .string s)])
      else none := by
  split
  · next hfinite =>
    have hlong : 4 ≤ (buildAlertJson t sev s).length := by
      have hopen : (lit "\x7b\"threat_type\": \"").length = 17 := by decide
      simp only [buildAlertJson, List.length_append, hopen]
      omega
    obtain ⟨n, hn⟩ : ∃ n, (buildAlertJson t sev s).length = n + 1 :=
      ⟨_, (Nat.sub_add_cancel (by omega)).symm⟩
    have hobject := reads_object (by simp [members, opening]) (members_read t s sev hfinite n)
      (show 4 ≤ n + 1 by omega)
    rw [← build_members, ← hn] at hobject
    exact Json.parse_of_reads hobject
  · next hinfinite =>
    have hsplit : ∃ rest, buildAlertJson t sev s =
        0x7B :: ((opening t sev).flatMap (fun p => p.1 ++ lit ", ") ++
          (0x22 :: lit "cvss" ++ 0x22 :: 0x3A :: 0x20 :: (fixed 6 sev.cvss ++ rest))) := by
      refine ⟨lit ", " ++ (0x22 :: lit "snippet" ++ 0x22 :: 0x3A :: 0x20 ::
        (0x22 :: jsonEscape s ++ [0x22])) ++
        [0x7D], ?_⟩
      rw [build_members]
      simp [members, opening, List.intercalate]
    obtain ⟨rest, hrest⟩ := hsplit
    rw [hrest]
    exact Json.parse_object_none fun n => listed_none t sev (Bool.eq_false_iff.2 hinfinite) n rest

end Object

end Wirewolf.L1.AlertObject
