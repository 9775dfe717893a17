import Wirewolf.Core.Numeral
import Wirewolf.L5Pipeline.Allowlist

/-!
# What the allowlist takes for an address

`sscanf` reads `%u.%u.%u.%u` from the front of a token: each number may have
blanks and a sign in front of it and is reduced to 32 bits, and what follows
the fourth is not looked at. So a network, a fifth octet or any other text
behind an address is taken for the address.

* `parseIp_eq_some`: the tokens that give an address, as texts (`Loose`).
* `parseIp_quad`: a dotted quad gives its address.
* `allowlist_exact_iff`: the allowlists whose tokens give an address only if
  they are dotted quads.
* `network_taken`: one of the others.
-/
namespace Wirewolf.L5.DottedQuad

open Wirewolf.L5.Allowlist

/-! ## Dotted quads -/

/-- A decimal number from 0 to 255. -/
structure Octet (s : Bytes) (n : Nat) : Prop where
  nonempty : s ≠ []
  digits : ∀ c ∈ s, isDigit c = true
  value : Numeral.value s = n
  bound : n ≤ 255

def dotted (s₀ s₁ s₂ s₃ : Bytes) : Bytes := s₀ ++ 0x2E :: (s₁ ++ 0x2E :: (s₂ ++ 0x2E :: s₃))

/-- The address whose bytes in memory are the four numbers. -/
def networkOrder (n₀ n₁ n₂ n₃ : Nat) : UInt32 :=
  .ofNat (n₀ + 2 ^ 8 * n₁ + 2 ^ 16 * n₂ + 2 ^ 24 * n₃)

/-- Exactly four decimal numbers joined by dots, and their address. -/
def Quad (tok : Bytes) (ip : UInt32) : Prop :=
  ∃ s₀ s₁ s₂ s₃ n₀ n₁ n₂ n₃, tok = dotted s₀ s₁ s₂ s₃ ∧
    Octet s₀ n₀ ∧ Octet s₁ n₁ ∧ Octet s₂ n₂ ∧ Octet s₃ n₃ ∧ ip = networkOrder n₀ n₁ n₂ n₃

/-! ## What is read -/

/-- The value of a number that has `sign` in front of its digits. -/
def unsignedOf (sign digits : Bytes) : UInt32 :=
  if 2 ^ 64 ≤ Numeral.value digits then 0xFFFFFFFF
  else if sign = [0x2D] then - .ofNat (Numeral.value digits)
  else .ofNat (Numeral.value digits)

/-- Blanks, a sign or none, and digits. -/
def Unsigned (text : Bytes) (v : UInt32) : Prop :=
  ∃ blanks sign digits : Bytes, text = blanks ++ (sign ++ digits) ∧
    (∀ c ∈ blanks, isSpace c = true) ∧
    (sign = [] ∨ sign = [0x2B] ∨ sign = [0x2D]) ∧ digits ≠ [] ∧ (∀ c ∈ digits, isDigit c = true) ∧
    v = unsignedOf sign digits

/-- Four such numbers below 256 with single dots between them, and any text
behind them that does not go on with a digit; nothing counts from a NUL on. -/
def Loose (tok : Bytes) (ip : UInt32) : Prop :=
  ∃ t₀ t₁ t₂ t₃ rest o₀ o₁ o₂ o₃,
    tok.takeWhile (· ≠ 0) = t₀ ++ 0x2E :: (t₁ ++ 0x2E :: (t₂ ++ 0x2E :: (t₃ ++ rest))) ∧
    (∀ c, rest.head? = some c → isDigit c = false) ∧
    Unsigned t₀ o₀ ∧ Unsigned t₁ o₁ ∧ Unsigned t₂ o₂ ∧ Unsigned t₃ o₃ ∧
    (o₀ < 256 ∧ o₁ < 256 ∧ o₂ < 256 ∧ o₃ < 256) ∧
    ip = o₀ ||| (o₁ <<< 8) ||| (o₂ <<< 16) ||| (o₃ <<< 24)

theorem isDigit_not {c : UInt8} (h : isDigit c = true) :
    c ≠ 0x2D ∧ c ≠ 0x2B ∧ c ≠ 0 ∧ c ≠ 0x2C ∧ isBlank c = false := by
  refine ⟨ne_of_isDigit h rfl, ne_of_isDigit h rfl, ne_of_isDigit h rfl, ne_of_isDigit h rfl, ?_⟩
  rw [isBlank, decide_eq_false (ne_of_isDigit h rfl), decide_eq_false (ne_of_isDigit h rfl)]
  rfl

/-- The sign at the front of a text. -/
def signOf (s : Bytes) : Bytes :=
  if s.head? = some 0x2D then [0x2D] else if s.head? = some 0x2B then [0x2B] else []

theorem signOf_cases (s : Bytes) :
    (signOf s = [] ∨ signOf s = [0x2B] ∨ signOf s = [0x2D]) ∧ s =
      signOf s ++ s.drop (signOf s).length := by
  cases s with
  | nil => exact ⟨.inl rfl, rfl⟩
  | cons c s =>
    unfold signOf
    rw [List.head?_cons]
    by_cases hminus : c = 0x2D
    · subst hminus
      exact ⟨.inr (.inr rfl), rfl⟩
    · rw [if_neg (by simpa using hminus)]
      by_cases hplus : c = 0x2B
      · subst hplus
        exact ⟨.inr (.inl rfl), rfl⟩
      · rw [if_neg (by simpa using hplus)]
        exact ⟨.inl rfl, rfl⟩

/-- The scan by its parts: blanks, sign, digits. -/
theorem scanUnsigned_eq (s : Bytes) :
    scanUnsigned s =
      let sign := signOf (s.dropWhile isSpace)
      let u := (s.dropWhile isSpace).drop sign.length
      if u.takeWhile isDigit = [] then none
      else some (unsignedOf sign (u.takeWhile isDigit), u.dropWhile isDigit) := by
  rw [scanUnsigned]
  generalize s.dropWhile isSpace = t
  cases t with
  | nil => rfl
  | cons c t =>
    rw [signOf]
    simp only [List.head?_cons, Option.some.injEq, Option.some_beq_some,
      Bool.or_eq_true, beq_iff_eq,
      List.isEmpty_iff]
    by_cases hminus : c = 0x2D
    · subst hminus
      rfl
    · by_cases hplus : c = 0x2B
      · subst hplus
        rfl
      · simp only [hminus, hplus, or_self, if_false, List.length_nil, List.drop_zero]
        rfl

theorem scanUnsigned_append {text rest : Bytes} {v : UInt32} (h : Unsigned text v)
    (hrest : ∀ c, rest.head? = some c → isDigit c = false) :
    scanUnsigned (text ++ rest) = some (v, rest) := by
  obtain ⟨blanks, sign, digits, rfl, hblanks, hsign, hne, hdigits, rfl⟩ := h
  obtain ⟨htake, hdrop⟩ := Text.span_append hdigits hrest
  obtain ⟨d, ds, rfl⟩ := List.exists_cons_of_ne_nil hne
  obtain ⟨hminus, hplus, -⟩ := isDigit_not (hdigits d List.mem_cons_self)
  have hspace := isSpace_of_isDigit (hdigits d List.mem_cons_self)
  have hstart : (blanks ++ (sign ++ d :: ds) ++ rest).dropWhile isSpace =
      sign ++ (d :: ds ++ rest) := by
    rw [List.append_assoc, List.append_assoc]
    refine (Text.span_append hblanks fun c hc => ?_).2
    rcases hsign with rfl | rfl | rfl <;> cases hc
    · exact hspace
    · rfl
    · rfl
  have hof : signOf (sign ++ (d :: ds ++ rest)) = sign := by
    rcases hsign with rfl | rfl | rfl
    · simp [signOf, hminus, hplus]
    · rfl
    · rfl
  rw [scanUnsigned_eq, hstart]
  dsimp only
  rw [hof, List.drop_left, htake, hdrop, if_neg hne]

/-- What the scan takes from the front of a text. -/
theorem scanUnsigned_eq_some {s rest : Bytes} {v : UInt32} : scanUnsigned s = some (v, rest) ↔
    ∃ text, s = text ++ rest ∧ Unsigned text v ∧ ∀ c, rest.head? = some c → isDigit c = false := by
  constructor
  · intro h
    rw [scanUnsigned_eq] at h
    dsimp only at h
    obtain ⟨hsign, hsplit⟩ := signOf_cases (s.dropWhile isSpace)
    split at h
    · cases h
    · next hne =>
      cases h
      refine ⟨_, ?_,
        ⟨s.takeWhile isSpace, _, _, rfl, fun c hc => List.mem_takeWhile_imp hc, hsign, hne,
        fun c hc => List.mem_takeWhile_imp hc, rfl⟩, fun c hc => ?_⟩
      · rw [List.append_assoc, List.append_assoc, List.takeWhile_append_dropWhile, ← hsplit,
          List.takeWhile_append_dropWhile]
      · have hstop := List.head?_dropWhile_not isDigit
          ((s.dropWhile isSpace).drop (signOf (s.dropWhile isSpace)).length)
        rw [hc] at hstop
        exact hstop
  · intro h
    obtain ⟨text, rfl, htext, hrest⟩ := h
    exact scanUnsigned_append htext hrest

theorem scanChar_eq_some {c : UInt8} {s r : Bytes} : scanChar c s = some r ↔ s = c :: r := by
  cases s with
  | nil => simp [scanChar]
  | cons b s =>
    rw [scanChar]
    split
    · next h => simp [h]
    · next h => simp [h]

theorem noDigit_dot (s : Bytes) (c : UInt8) (hc : (0x2E :: s).head? = some c) :
    isDigit c = false := by
  cases hc
  rfl

/-- The tokens that give an address. -/
theorem parseIp_eq_some {tok : Bytes} {ip : UInt32} :
    parseIp tok = some ip ↔ Loose (trim tok) ip := by
  constructor
  · intro h
    unfold parseIp at h
    split at h
    · cases h
    · next o₀ o₁ o₂ o₃ hscan =>
      split at h
      · next hbound =>
        cases h
        simp only [scanDotted, Option.bind_eq_bind, Option.bind_eq_some_iff, Prod.exists,
          Option.pure_def,
          Option.some.injEq, Prod.mk.injEq] at hscan
        obtain ⟨_, s₀, h₀, s₁, hd₁, _, r₁, h₁, s₂, hd₂, _, r₂, h₂, s₃, hd₃, _, r₃, h₃, rfl, rfl,
          rfl, rfl⟩ := hscan
        rw [scanChar_eq_some] at hd₁ hd₂ hd₃
        obtain ⟨t₀, ht₀, hu₀, -⟩ := scanUnsigned_eq_some.1 h₀
        obtain ⟨t₁, rfl, hu₁, -⟩ := scanUnsigned_eq_some.1 h₁
        obtain ⟨t₂, rfl, hu₂, -⟩ := scanUnsigned_eq_some.1 h₂
        obtain ⟨t₃, rfl, hu₃, hrest⟩ := scanUnsigned_eq_some.1 h₃
        subst hd₁ hd₂ hd₃
        exact ⟨t₀, t₁, t₂, t₃, r₃, _, _, _, _, ht₀, hrest, hu₀, hu₁, hu₂, hu₃, hbound, rfl⟩
      · cases h
  · intro h
    obtain ⟨t₀, t₁, t₂, t₃, rest, o₀, o₁, o₂, o₃, htok, hrest, h₀, h₁, h₂, h₃, hbound, rfl⟩ := h
    have hscan : scanDotted (trim tok) = some (o₀, o₁, o₂, o₃) := by
      rw [scanDotted, htok, scanUnsigned_append h₀ (noDigit_dot _)]
      simp only [Option.bind_eq_bind, Option.bind_some, scanChar_eq_some.2 rfl,
        scanUnsigned_append h₁ (noDigit_dot _), scanUnsigned_append h₂ (noDigit_dot _),
        scanUnsigned_append h₃ hrest, Option.pure_def]
    rw [parseIp, hscan]
    exact if_pos hbound

/-! ## Quads are read -/

theorem Octet.unsigned {s : Bytes} {n : Nat} (h : Octet s n) : Unsigned s (.ofNat n) := by
  have hbound := h.bound
  refine ⟨[], [], s, rfl, nofun, .inl rfl, h.nonempty, h.digits, ?_⟩
  rw [unsignedOf, h.value, if_neg (by omega), if_neg (by decide)]

/-- A byte above `k` bits that are known. -/
theorem or_shift {a b k : Nat} (ha : a < 2 ^ k) : a ||| b <<< k = a + 2 ^ k * b := by
  rw [Nat.shiftLeft_eq, Nat.or_comm, Nat.mul_comm, ← Nat.two_pow_add_eq_or_of_lt ha, Nat.add_comm]

/-- The bytes put together by shifts, as the number they are. -/
theorem networkOrder_eq {n₀ n₁ n₂ n₃ : Nat} (h₀ : n₀ ≤ 255) (h₁ : n₁ ≤ 255) (h₂ : n₂ ≤ 255)
    (h₃ : n₃ ≤ 255) :
    UInt32.ofNat n₀ ||| (UInt32.ofNat n₁ <<< 8) ||| (UInt32.ofNat n₂ <<< 16) |||
      (UInt32.ofNat n₃ <<< 24) =
      networkOrder n₀ n₁ n₂ n₃ := by
  have hval : ∀ {n : Nat}, n ≤ 255 → (UInt32.ofNat n).toNat = n := by
    intro n hn
    rw [UInt32.toNat_ofNat']
    omega
  have hshift : ∀ {n k : Nat}, n ≤ 255 → k ≤ 24 → n <<< k % 2 ^ 32 = n <<< k := by
    intro n k hn hk
    apply Nat.mod_eq_of_lt
    have hpow : 2 ^ k ≤ 2 ^ 24 := Nat.pow_le_pow_right (by decide) hk
    have hmul : n * 2 ^ k ≤ 255 * 2 ^ 24 := Nat.mul_le_mul hn hpow
    rw [Nat.shiftLeft_eq]
    omega
  apply UInt32.toNat_inj.1
  simp only [UInt32.toNat_or, UInt32.toNat_shiftLeft, hval h₀, hval h₁, hval h₂, hval h₃,
    networkOrder,
    UInt32.toNat_ofNat', show (8 : UInt32).toNat % 32 = 8 from rfl,
    show (16 : UInt32).toNat % 32 = 16 from rfl, show (24 : UInt32).toNat % 32 = 24 from rfl]
  rw [hshift h₁ (by decide), hshift h₂ (by decide), hshift h₃ (by decide),
    or_shift (show n₀ < 2 ^ 8 by omega), or_shift (show n₀ + 2 ^ 8 * n₁ < 2 ^ 16 by omega),
    or_shift (show n₀ + 2 ^ 8 * n₁ + 2 ^ 16 * n₂ < 2 ^ 24 by omega)]
  omega

theorem octet_lt {n : Nat} (h : n ≤ 255) : (.ofNat n : UInt32) < 256 := by
  rw [UInt32.lt_iff_toNat_lt, UInt32.toNat_ofNat']
  have : (256 : UInt32).toNat = 256 := rfl
  omega

theorem quad_bytes {tok : Bytes} {ip : UInt32} (h : Quad tok ip) :
    ∀ c ∈ tok, isDigit c = true ∨ c = 0x2E := by
  obtain ⟨s₀, s₁, s₂, s₃, n₀, n₁, n₂, n₃, rfl, h₀, h₁, h₂, h₃, -⟩ := h
  intro c hc
  simp only [dotted, List.mem_append, List.mem_cons] at hc
  rcases hc with hc | rfl | hc | rfl | hc | rfl | hc
  · exact .inl (h₀.digits c hc)
  · exact .inr rfl
  · exact .inl (h₁.digits c hc)
  · exact .inr rfl
  · exact .inl (h₂.digits c hc)
  · exact .inr rfl
  · exact .inl (h₃.digits c hc)

theorem Quad.loose {tok : Bytes} {ip : UInt32} (h : Quad tok ip) : Loose tok ip := by
  have hnul : tok.takeWhile (· ≠ 0) = tok := by
    refine List.takeWhile_eq_self_iff.2 fun c hc => ?_
    rcases quad_bytes h c hc with hd | rfl
    · exact decide_eq_true (isDigit_not hd).2.2.1
    · rfl
  obtain ⟨s₀, s₁, s₂, s₃, n₀, n₁, n₂, n₃, rfl, h₀, h₁, h₂, h₃, rfl⟩ := h
  refine ⟨s₀, s₁, s₂, s₃, [], .ofNat n₀, .ofNat n₁, .ofNat n₂, .ofNat n₃, ?_, nofun, h₀.unsigned,
    h₁.unsigned, h₂.unsigned, h₃.unsigned,
    ⟨octet_lt h₀.bound, octet_lt h₁.bound, octet_lt h₂.bound, octet_lt h₃.bound⟩,
    (networkOrder_eq h₀.bound h₁.bound h₂.bound h₃.bound).symm⟩
  rw [hnul, List.append_nil, dotted]

theorem parseIp_quad {tok : Bytes} {ip : UInt32} (h : Quad (trim tok) ip) : parseIp tok = some ip :=
  parseIp_eq_some.2 h.loose

/-! ## Rendered allowlists -/

/-- The decimal text of an address, its first byte first. -/
def render (ip : UInt32) : Bytes :=
  dotted (digits (ip.toNat % 2 ^ 8)) (digits (ip.toNat / 2 ^ 8 % 2 ^ 8))
    (digits (ip.toNat / 2 ^ 16 % 2 ^ 8)) (digits (ip.toNat / 2 ^ 24 % 2 ^ 8))

theorem octet_digits {n : Nat} (h : n < 2 ^ 8) : Octet (digits n) n :=
  ⟨Numeral.digits_ne_nil n, Numeral.digits_isDigit, Numeral.value_digits n, by omega⟩

theorem quad_render (ip : UInt32) : Quad (render ip) ip := by
  have hmod : ∀ n : Nat, n % 2 ^ 8 < 2 ^ 8 := fun n => Nat.mod_lt n (by decide)
  refine ⟨_, _, _, _, _, _, _, _, rfl, octet_digits (hmod _), octet_digits (hmod _),
    octet_digits (hmod _), octet_digits (hmod _), ?_⟩
  have hip := ip.toNat_lt
  apply UInt32.toNat_inj.1
  rw [networkOrder, UInt32.toNat_ofNat']
  omega

/-- An address with blanks around it. -/
structure Padded where
  before : Bytes
  ip : UInt32
  behind : Bytes
  before_blank : ∀ c ∈ before, isBlank c = true
  behind_blank : ∀ c ∈ behind, isBlank c = true

def Padded.text (p : Padded) : Bytes := p.before ++ render p.ip ++ p.behind

/-- Blanks around a text that has none are trimmed. -/
theorem trim_padded {before s behind : Bytes} (hbefore : ∀ c ∈ before, isBlank c = true)
    (hs : ∀ c ∈ s, isBlank c = false) (hne : s ≠ []) (hbehind : ∀ c ∈ behind, isBlank c = true) :
    trim (before ++ s ++ behind) = s := by
  obtain ⟨c, r, rfl⟩ := List.exists_cons_of_ne_nil hne
  have hfront : (before ++ (c :: r) ++ behind).dropWhile isBlank = c :: r ++ behind := by
    rw [List.append_assoc]
    refine (Text.span_append hbefore fun d hd => ?_).2
    cases hd
    exact hs c List.mem_cons_self
  have hback : (behind.reverse ++ (c :: r).reverse).dropWhile isBlank = (c :: r).reverse := by
    refine (Text.span_append (fun d hd => hbehind d (List.mem_reverse.1 hd)) fun d hd => ?_).2
    exact hs d (List.mem_reverse.1 (List.mem_of_head? hd))
  rw [trim, hfront, List.reverse_append, hback, List.reverse_reverse]

theorem render_bytes (ip : UInt32) : render ip ≠ [] ∧
    ∀ c ∈ render ip, isBlank c = false ∧ c ≠ 0x2C := by
  refine ⟨?_, fun c hc => ?_⟩
  · rw [render, dotted]
    exact List.append_ne_nil_of_left_ne_nil (Numeral.digits_ne_nil _) _
  · rcases quad_bytes (quad_render ip) c hc with hd | rfl
    · exact ⟨(isDigit_not hd).2.2.2.2, (isDigit_not hd).2.2.2.1⟩
    · exact ⟨rfl, by decide⟩

theorem parseIp_padded (p : Padded) : parseIp p.text = some p.ip := by
  obtain ⟨hne, hbytes⟩ := render_bytes p.ip
  apply parseIp_quad
  rw [Padded.text, trim_padded p.before_blank (fun c hc => (hbytes c hc).1) hne p.behind_blank]
  exact quad_render p.ip

theorem padded_noComma (p : Padded) : 0x2C ∉ p.text ∧ p.text ≠ [] := by
  obtain ⟨hne, hbytes⟩ := render_bytes p.ip
  refine ⟨fun hc => ?_, ?_⟩
  · rcases List.mem_append.1 hc with hc | hc
    · rcases List.mem_append.1 hc with hc | hc
      · exact absurd (p.before_blank _ hc) (by decide)
      · exact (hbytes _ hc).2 rfl
    · exact absurd (p.behind_blank _ hc) (by decide)
  · rw [Padded.text]
    exact List.append_ne_nil_of_left_ne_nil (List.append_ne_nil_of_right_ne_nil _ hne) _

/-- Addresses rendered with any padding come back as the set of them. -/
theorem parseAllowlist_rendered (l : List Padded) :
    parseAllowlist ([0x2C].intercalate (l.map Padded.text)) = (l.map Padded.ip).toFinset := by
  have hsegments : Text.segments 0x2C ([0x2C].intercalate (l.map Padded.text)) =
      l.map Padded.text := by
    refine Text.segments_intercalate fun s hs => ?_
    obtain ⟨p, -, rfl⟩ := List.mem_map.1 hs
    exact padded_noComma p
  have hparse : parseIp ∘ Padded.text = some ∘ Padded.ip := funext parseIp_padded
  rw [parseAllowlist, hsegments, List.filterMap_map, hparse, List.filterMap_eq_map]

/-! ## The allowlist -/

/-- The allowlist is made of the dotted quads of the text, and nothing else of
it contributes; exactly when no token is loosely one without being one. -/
theorem allowlist_exact_iff (s : Lists) (csv : Bytes) :
    (((∀ tok ∈ Text.segments 0x2C csv, (¬ ∃ ip, Quad (trim tok) ip) → parseIp tok = none) ∧
      (∀ ip, ip ∈ (setBlockAllowlist s csv).allowlistIps ↔
        ∃ tok ∈ Text.segments 0x2C csv, Quad (trim tok) ip)) ↔
      ∀ tok ∈ Text.segments 0x2C csv, (∃ ip, Loose (trim tok) ip) → ∃ ip, Quad (trim tok) ip) ∧
    ∀ l : List Padded, (setBlockAllowlist s ([0x2C].intercalate (l.map Padded.text))).allowlistIps =
      (l.map Padded.ip).toFinset := by
  refine ⟨⟨fun h tok htok hloose => ?_, fun h => ⟨fun tok htok hquad => ?_, fun ip => ?_⟩⟩,
    parseAllowlist_rendered⟩
  · obtain ⟨ip, hip⟩ := hloose
    apply Classical.byContradiction
    intro hquad
    have hnone := h.1 tok htok hquad
    rw [parseIp_eq_some.2 hip] at hnone
    cases hnone
  · apply Option.eq_none_iff_forall_not_mem.2
    exact fun ip hip => hquad (h tok htok ⟨ip, parseIp_eq_some.1 hip⟩)
  · rw [setBlockAllowlist, parseAllowlist, List.mem_toFinset, List.mem_filterMap]
    refine exists_congr fun tok => and_congr_right fun htok => ?_
    constructor
    · intro hip
      obtain ⟨ip', hquad⟩ := h tok htok ⟨ip, parseIp_eq_some.1 hip⟩
      rw [parseIp_quad hquad] at hip
      cases hip
      exact hquad
    · exact parseIp_quad

/-- A network is taken for the one address it is written with. -/
theorem network_taken :
    lit "10.0.0.0/8" ∈ Text.segments 0x2C (lit "10.0.0.0/8") ∧
      (¬ ∃ ip, Quad (trim (lit "10.0.0.0/8")) ip) ∧ parseIp (lit "10.0.0.0/8") = some 0x0000000A ∧
      (setBlockAllowlist {} (lit "10.0.0.0/8")).allowlistIps = {0x0000000A} := by
  refine ⟨by decide, fun h => ?_, by decide, by decide⟩
  obtain ⟨ip, hquad⟩ := h
  have hslash : (0x2F : UInt8) ∈ trim (lit "10.0.0.0/8") := by decide
  rcases quad_bytes hquad _ hslash with h | h
  · exact absurd h (by decide)
  · exact absurd h (by decide)

end Wirewolf.L5.DottedQuad
