import Wirewolf.Core.Numeral

/-!
# JSON texts

What a JSON parser makes of a text. `string` and `literal` read a string from
behind the opening quote to the closing one; code points outside the first
plane, which JSON writes as two escapes, are left out, and bytes from 0x80 on
stand for themselves. `value` reads any value, `parse` a text that is one
value and nothing else. A number keeps its text.

`Reads item text x`: in front of any delimiter, `item` takes exactly `text`
and delivers `x`.

* `reads_string`, `reads_number`, `reads_member`, `reads_object`: how texts of
  values are put together.
* `parse_of_reads`: what is read so as a whole is parsed.
-/
namespace Wirewolf.Json

/-- The character of a `\u` escape, in UTF-8. -/
def unicode (a b c d : UInt8) : Option Bytes := do
  let n := 4096 * (← hexDigit? a) + 256 * (← hexDigit? b) + 16 * (← hexDigit? c) + (← hexDigit? d)
  if n.isValidChar then return String.utf8EncodeChar (Char.ofNat n) else none

/-- The character of any other escape. -/
def escaped (c : UInt8) : Option UInt8 :=
  if c = 0x22 ∨ c = 0x5C ∨ c = 0x2F then some c
  else if c = 0x62 then some 0x08
  else if c = 0x66 then some 0x0C
  else if c = 0x6E then some 0x0A
  else if c = 0x72 then some 0x0D
  else if c = 0x74 then some 0x09
  else none

def string : Bytes → Option Bytes
  | [] => none
  | c :: rest =>
    if c = 0x22 then some []
    else if c = 0x5C then
      match rest with
      | [] => none
      | e :: rest =>
        if e = 0x75 then
          match rest with
          | a :: b :: c :: d :: rest =>
            (unicode a b c d).bind fun x => (string rest).map (x ++ ·)
          | _ => none
        else (escaped e).bind fun x => (string rest).map (x :: ·)
    else if c < 0x20 then none
    else (string rest).map (c :: ·)

/-- A string literal from behind its opening quote, and what is left behind
the closing one. -/
def literal : Bytes → Option (Bytes × Bytes)
  | [] => none
  | c :: rest =>
    if c = 0x22 then some ([], rest)
    else if c = 0x5C then
      match rest with
      | [] => none
      | e :: rest =>
        if e = 0x75 then
          match rest with
          | a :: b :: c :: d :: rest =>
            (unicode a b c d).bind fun x => (literal rest).map fun p => (x ++ p.1, p.2)
          | _ => none
        else (escaped e).bind fun x => (literal rest).map fun p => (x :: p.1, p.2)
    else if c < 0x20 then none
    else (literal rest).map fun p => (c :: p.1, p.2)

theorem literal_quote (r : Bytes) : literal (0x22 :: r) = some ([], r) := by
  rw [literal.eq_def]
  exact if_pos rfl

theorem literal_plain {c : UInt8} (h : 0x20 ≤ c) (hq : c ≠ 0x22) (hb : c ≠ 0x5C) (r : Bytes) :
    literal (c :: r) = (literal r).map fun p => (c :: p.1, p.2) := by
  rw [literal.eq_def]
  simp only [if_neg hq, if_neg hb, if_neg (UInt8.not_lt.2 h)]

theorem literal_escaped {e x : UInt8} (h : escaped e = some x) (r : Bytes) :
    literal (0x5C :: e :: r) = (literal r).map fun p => (x :: p.1, p.2) := by
  have hu : e ≠ 0x75 := by
    intro he
    subst he
    cases h
  have hq : ¬ (0x5C : UInt8) = 0x22 := by decide
  rw [literal.eq_def]
  simp only [if_neg hq, if_true, if_neg hu, h, Option.bind_some]

theorem literal_unicode {a b c d : UInt8} {x : Bytes} (h : unicode a b c d = some x) (r : Bytes) :
    literal (0x5C :: 0x75 :: a :: b :: c :: d :: r) = (literal r).map fun p => (x ++ p.1, p.2) := by
  have hq : ¬ (0x5C : UInt8) = 0x22 := by decide
  rw [literal.eq_def]
  simp only [if_neg hq, if_true, h, Option.bind_some]

/-- The string is the first half of what the literal reads. -/
theorem string_eq (s : Bytes) : string s = (literal s).map Prod.fst := by
  fun_induction string s with
  | case1 => rw [literal]; rfl
  | case2 rest => rw [literal_quote]; rfl
  | case3 => rw [literal.eq_def]; rfl
  | case4 a b c d rest hq ih =>
    rw [literal.eq_def]
    simp only [if_neg hq, if_true, ih]
    cases unicode a b c d <;> cases literal rest <;> rfl
  | case5 rest hshort hq =>
    rw [literal.eq_def]
    simp only [if_neg hq, if_true]
    rfl
  | case6 e rest hu hq ih =>
    rw [literal.eq_def]
    simp only [if_neg hq, if_neg hu, if_true, ih]
    cases escaped e <;> cases literal rest <;> rfl
  | case7 c rest hq hb hlow =>
    rw [literal.eq_def]
    simp only [if_neg hq, if_neg hb, if_pos hlow]
    rfl
  | case8 c rest hq hb hlow ih =>
    rw [literal.eq_def]
    simp only [if_neg hq, if_neg hb, if_neg hlow, ih]
    cases literal rest <;> rfl

/-! ## Values -/

inductive Value where
  | null
  | bool (b : Bool)
  | number (text : Bytes)
  | string (s : Bytes)
  | array (items : List Value)
  | object (members : List (Bytes × Value))

def skip (s : Bytes) : Bytes := s.dropWhile isWhite

/-- A word that stands for a value. -/
def keyword (word : Bytes) (v : Value) (s : Bytes) : Option (Value × Bytes) :=
  if word.isPrefixOf s then some (v, s.drop word.length) else none

/-- The digits before the point: no zero in front of another digit. -/
def whole (s : Bytes) : Option (Bytes × Bytes) :=
  let d := s.takeWhile isDigit
  if d = [] ∨ (d.head? = some 0x30 ∧ d ≠ [0x30]) then none else some (d, s.dropWhile isDigit)

/-- The point and the digits behind it, if there is a point. -/
def fraction : Bytes → Option (Bytes × Bytes)
  | [] => some ([], [])
  | c :: s =>
    if c = 0x2E then
      let d := s.takeWhile isDigit
      if d = [] then none else some (c :: d, s.dropWhile isDigit)
    else some ([], c :: s)

/-- The exponent, if there is one. -/
def exponent : Bytes → Option (Bytes × Bytes)
  | [] => some ([], [])
  | c :: s =>
    if c = 0x65 ∨ c = 0x45 then
      let sign := s.takeWhile fun x => x = 0x2B || x = 0x2D
      let s := s.drop sign.length
      let d := s.takeWhile isDigit
      if 1 < sign.length ∨ d = [] then none else some (c :: sign ++ d, s.dropWhile isDigit)
    else some ([], c :: s)

def number (s : Bytes) : Option (Bytes × Bytes) := do
  let sign : Bytes := if s.head? = some 0x2D then [0x2D] else []
  let (w, s) ← whole (s.drop sign.length)
  let (f, s) ← fraction s
  let (e, s) ← exponent s
  return (sign ++ w ++ f ++ e, s)

/-- A key, a colon and a value. -/
def member (value : Bytes → Option (Value × Bytes)) (s : Bytes) :
    Option ((Bytes × Value) × Bytes) :=
  match skip s with
  | [] => none
  | c :: s =>
    if c = 0x22 then do
      let (key, s) ← literal s
      match skip s with
      | [] => none
      | c :: s =>
        if c = 0x3A then do
          let (v, s) ← value s
          return ((key, v), s)
        else none
    else none

section Lists

variable {β : Type} (item : Bytes → Option (β × Bytes)) (close : UInt8)

/-- Items with commas between them, up to the closing bracket. -/
def separated : Nat → Bytes → Option (List β × Bytes)
  | 0, _ => none
  | n + 1, s => do
    let (x, s) ← item s
    match skip s with
    | [] => none
    | c :: s =>
      if c = close then return ([x], s)
      else if c = 0x2C then do
        let (xs, s) ← separated n s
        return (x :: xs, s)
      else none

/-- The items behind an opening bracket. -/
def listed (n : Nat) (s : Bytes) : Option (List β × Bytes) :=
  if (skip s).head? = some close then some ([], (skip s).drop 1) else separated item close n s

end Lists

/-- A value, with `n` bounding the depth of it and the length of its lists. -/
def value : Nat → Bytes → Option (Value × Bytes)
  | 0, _ => none
  | n + 1, s =>
    match skip s with
    | [] => none
    | c :: s =>
      if c = 0x22 then (literal s).map fun p => (.string p.1, p.2)
      else if c = 0x7B then (listed (member fun s => value n s) 0x7D n s).map fun p =>
        (.object p.1, p.2)
      else if c = 0x5B then (listed (fun s => value n s) 0x5D n s).map fun p => (.array p.1, p.2)
      else if c = 0x74 then keyword (lit "true") (.bool true) (c :: s)
      else if c = 0x66 then keyword (lit "false") (.bool false) (c :: s)
      else if c = 0x6E then keyword (lit "null") .null (c :: s)
      else (number (c :: s)).map fun p => (.number p.1, p.2)

/-- A text that is one value; its length bounds the depth of it. -/
def parse (s : Bytes) : Option Value := do
  let (v, rest) ← value (s.length + 1) s
  if skip rest = [] then return v else none

/-! ## Putting texts together -/

def isDelim (c : UInt8) : Bool := isWhite c || c = 0x2C || c = 0x5D || c = 0x7D

/-- What may stand behind a value. -/
def Ends (rest : Bytes) : Prop := ∀ c, rest.head? = some c → isDelim c = true

section Reads

variable {β : Type}

/-- In front of a delimiter, `item` takes `text` and delivers `x`. -/
def Reads (item : Bytes → Option (β × Bytes)) (text : Bytes) (x : β) : Prop :=
  ∀ rest, Ends rest → item (text ++ rest) = some (x, rest)

theorem ends_cons {c : UInt8} (h : isDelim c = true) (rest : Bytes) : Ends (c :: rest) := by
  intro d hd
  cases hd
  exact h

theorem ends_noDigit {rest : Bytes} (h : Ends rest) (c : UInt8) (hc : rest.head? = some c) :
    isDigit c = false := by
  have hall : ∀ c, isDelim c = true → isDigit c = false := by decide +kernel
  exact hall c (h c hc)

theorem skip_blank {c : UInt8} (h : isWhite c = true) (s : Bytes) : skip (c :: s) = skip s :=
  List.dropWhile_cons_of_pos h

theorem skip_cons {c : UInt8} (h : isWhite c = false) (s : Bytes) : skip (c :: s) = c :: s :=
  List.dropWhile_cons_of_neg (by rw [h]; exact Bool.false_ne_true)

theorem member_blank (v : Bytes → Option (Value × Bytes)) (s : Bytes) :
    member v (0x20 :: s) = member v s := by
  rw [member, skip_blank rfl, member]

theorem value_blank (n : Nat) (s : Bytes) : value n (0x20 :: s) = value n s := by
  cases n with
  | zero => rfl
  | succ n => rw [value, skip_blank rfl, value]

theorem reads_string {text t : Bytes} (h : ∀ r, literal (text ++ 0x22 :: r) = some (t, r))
    (n : Nat) :
    Reads (value (n + 1)) (0x22 :: text ++ [0x22]) (.string t) := by
  intro rest _
  rw [value, List.append_assoc, List.cons_append, List.singleton_append, skip_cons rfl]
  simp only [if_true, h, Option.map_some]

theorem whole_append {w : Bytes} (hw : ∀ c ∈ w, isDigit c = true) (hne : w ≠ [])
    (hlead : w = [0x30] ∨ w.head? ≠ some 0x30) {t : Bytes}
    (ht : ∀ c, t.head? = some c → isDigit c = false) : whole (w ++ t) = some (w, t) := by
  obtain ⟨htake, hdrop⟩ := Text.span_append hw ht
  rw [whole, htake, hdrop]
  refine if_neg fun h => ?_
  rcases h with h | ⟨hzero, hlong⟩
  · exact hne h
  · exact hlead.elim hlong fun h => h hzero

theorem fraction_append {f : Bytes} (hf : ∀ c ∈ f, isDigit c = true) (hne : f ≠ []) {t : Bytes}
    (ht : ∀ c, t.head? = some c → isDigit c = false) :
    fraction (0x2E :: (f ++ t)) = some (0x2E :: f, t) := by
  obtain ⟨htake, hdrop⟩ := Text.span_append hf ht
  rw [fraction, if_pos rfl, htake, hdrop]
  exact if_neg hne

theorem exponent_ends {t : Bytes} (h : Ends t) : exponent t = some ([], t) := by
  cases t with
  | nil => rfl
  | cons c t =>
    have hall : ∀ c, isDelim c = true → ¬ (c = 0x65 ∨ c = 0x45) := by decide +kernel
    exact if_neg (hall c (h c rfl))

/-- A minus sign and digits with a point are a number. -/
theorem number_append {sign w f : Bytes} (hsign : sign = [] ∨ sign = [0x2D])
    (hw : ∀ c ∈ w, isDigit c = true) (hne : w ≠ []) (hlead : w = [0x30] ∨ w.head? ≠ some 0x30)
    (hf : ∀ c ∈ f, isDigit c = true) (hfne : f ≠ []) {rest : Bytes} (hrest : Ends rest) :
    number (sign ++ (w ++ 0x2E :: f) ++ rest) = some (sign ++ (w ++ 0x2E :: f), rest) := by
  have hwhole := whole_append hw hne hlead (t := 0x2E :: (f ++ rest)) (by
    intro c hc
    cases hc
    rfl)
  have hfraction := fraction_append hf hfne (ends_noDigit hrest)
  have hbody : (w ++ 0x2E :: f) ++ rest = w ++ 0x2E :: (f ++ rest) := by simp
  obtain ⟨c, w', rfl⟩ := List.exists_cons_of_ne_nil hne
  have hc : c ≠ 0x2D := by
    rintro rfl
    exact absurd (hw _ List.mem_cons_self) (by decide)
  rcases hsign with rfl | rfl
  · rw [List.nil_append, number, hbody, List.cons_append, List.head?_cons,
      if_neg (by simpa using hc)]
    rw [List.cons_append] at hwhole
    simp only [List.length_nil, List.drop_zero, hwhole, hfraction, exponent_ends hrest,
      Option.bind_eq_bind, Option.bind_some, Option.pure_def, List.nil_append, List.append_nil]
  · rw [List.append_assoc, hbody, number]
    simp only [List.cons_append, List.nil_append, List.head?_cons, if_true, List.length_singleton,
      List.drop_succ_cons, List.drop_zero]
    rw [List.cons_append] at hwhole
    simp only [hwhole, hfraction, exponent_ends hrest, Option.bind_eq_bind, Option.bind_some,
      Option.pure_def, List.append_nil, List.cons_append]

theorem value_number {c : UInt8} (h : isDigit c = true ∨ c = 0x2D) (n : Nat) (s : Bytes) :
    value (n + 1) (c :: s) = (number (c :: s)).map fun p => (.number p.1, p.2) := by
  have hall : ∀ c, isDigit c = true ∨ c = 0x2D →
      isWhite c = false ∧ c ∉ [0x22, 0x7B, 0x5B, 0x74, 0x66, 0x6E] := by
    decide +kernel
  obtain ⟨hblank, hc⟩ := hall c h
  simp only [List.mem_cons, List.not_mem_nil, or_false, not_or] at hc
  rw [value, skip_cons hblank]
  simp only [hc, if_false]

/-- Digits with a fraction are a number, with a minus sign in front or not. -/
theorem reads_number {sign w f : Bytes} (hsign : sign = [] ∨ sign = [0x2D])
    (hw : ∀ c ∈ w, isDigit c = true) (hne : w ≠ []) (hlead : w = [0x30] ∨ w.head? ≠ some 0x30)
    (hf : ∀ c ∈ f, isDigit c = true) (hfne : f ≠ []) (n : Nat) :
    Reads (value (n + 1)) (sign ++ (w ++ 0x2E :: f)) (.number (sign ++ (w ++ 0x2E :: f))) := by
  intro rest hrest
  have hnumber := number_append hsign hw hne hlead hf hfne hrest
  obtain ⟨c, w', rfl⟩ := List.exists_cons_of_ne_nil hne
  have hfirst : ∃ d s, sign ++ (c :: w' ++ 0x2E :: f) ++ rest = d :: s ∧
      (isDigit d = true ∨ d = 0x2D) := by
    rcases hsign with rfl | rfl
    · exact ⟨c, _, rfl, .inl (hw c List.mem_cons_self)⟩
    · exact ⟨0x2D, _, rfl, .inr rfl⟩
  obtain ⟨d, s, hs, hd⟩ := hfirst
  rw [hs] at hnumber ⊢
  rw [value_number hd, hnumber]
  rfl

/-- A key and its value, as they are usually spaced. -/
theorem reads_member {v : Bytes → Option (Value × Bytes)} {key k text : Bytes} {x : Value}
    (hkey : ∀ r, literal (key ++ 0x22 :: r) = some (k, r)) (hblank : ∀ s, v (0x20 :: s) = v s)
    (h : Reads v text x) :
    Reads (member v) (0x22 :: key ++ 0x22 :: 0x3A :: 0x20 :: text) (k, x) := by
  intro rest hrest
  rw [member, List.append_assoc, List.cons_append, skip_cons rfl]
  simp only [if_true, List.cons_append, hkey, Option.bind_eq_bind, Option.bind_some]
  rw [skip_cons rfl]
  simp only [if_true, hblank, h rest hrest, Option.bind_some, Option.pure_def]

/-- Where the list ends, no key begins. -/
theorem member_close (v : Bytes → Option (Value × Bytes)) {s : Bytes}
    (h : (skip s).head? = some 0x7D) :
    member v s = none := by
  unfold member
  cases hs : skip s with
  | nil => rfl
  | cons c r =>
    rw [hs] at h
    cases h
    rfl

variable {item : Bytes → Option (β × Bytes)} {close : UInt8}

theorem separated_blank (hblank : ∀ s, item (0x20 :: s) = item s) (n : Nat) (s : Bytes) :
    separated item close n (0x20 :: s) = separated item close n s := by
  cases n with
  | zero => rfl
  | succ n => rw [separated, hblank, separated]

/-- Items joined by commas, by induction on the items. -/
theorem separated_joined (hblank : ∀ s, item (0x20 :: s) = item s)
    (hclose : close = 0x5D ∨ close = 0x7D) {l : List (Bytes × β)} (hne : l ≠ [])
    (h : ∀ p ∈ l, Reads item p.1 p.2) {n : Nat} (hn : l.length ≤ n) (rest : Bytes) :
    separated item close n ((lit ", ").intercalate (l.map Prod.fst) ++ close :: rest) =
      some (l.map Prod.snd, rest) := by
  have hdelim : isDelim close = true ∧ isWhite close = false ∧ (0x2C : UInt8) ≠ close := by
    rcases hclose with rfl | rfl <;> decide
  obtain ⟨hend, hskip, hcomma⟩ := hdelim
  have hlit : lit ", " = [0x2C, 0x20] := by decide
  induction l generalizing n with
  | nil => exact absurd rfl hne
  | cons p l ih =>
    obtain ⟨hp, hl⟩ := List.forall_mem_cons.1 h
    obtain ⟨n, rfl⟩ : ∃ m, n = m + 1 := ⟨n - 1, by rw [List.length_cons] at hn; omega⟩
    by_cases hlast : l = []
    · subst hlast
      rw [List.map_singleton, List.intercalate_singleton, separated, hp _ (ends_cons hend rest)]
      simp only [Option.bind_eq_bind, Option.bind_some, skip_cons hskip, if_true]
      rfl
    · have hjoin : (lit ", ").intercalate ((p :: l).map Prod.fst) ++ close :: rest =
          p.1 ++ 0x2C :: 0x20 :: ((lit ", ").intercalate (l.map Prod.fst) ++ close :: rest) := by
        rw [List.map_cons, List.intercalate_cons_of_ne_nil (by simpa using hlast), hlit]
        simp
      rw [hjoin, separated, hp _ (ends_cons (by decide) _)]
      simp only [Option.bind_eq_bind, Option.bind_some]
      rw [skip_cons (by decide)]
      simp only [if_neg hcomma, if_true, separated_blank hblank]
      rw [ih hlast hl (Nat.le_of_succ_le_succ hn)]
      rfl

/-- Behind items that are read, one that is not spoils the list. -/
theorem separated_none (hblank : ∀ s, item (0x20 :: s) = item s) (hclose : close ≠ 0x2C)
    {l : List (Bytes × β)} (h : ∀ p ∈ l, Reads item p.1 p.2) {bad : Bytes} (hbad : item bad = none)
    (n : Nat) : separated item close n (l.flatMap (fun p => p.1 ++ lit ", ") ++ bad) = none := by
  have hlit : lit ", " = [0x2C, 0x20] := by decide
  induction l generalizing n with
  | nil =>
    cases n with
    | zero => rfl
    | succ n => rw [List.flatMap_nil, List.nil_append, separated, hbad]; rfl
  | cons p l ih =>
    obtain ⟨hp, hl⟩ := List.forall_mem_cons.1 h
    cases n with
    | zero => rfl
    | succ n =>
      have hjoin : (p :: l).flatMap (fun p => p.1 ++ lit ", ") ++ bad =
          p.1 ++ 0x2C :: 0x20 :: (l.flatMap (fun p => p.1 ++ lit ", ") ++ bad) := by
        rw [List.flatMap_cons, hlit]
        simp
      rw [hjoin, separated, hp _ (ends_cons (by decide) _)]
      simp only [Option.bind_eq_bind, Option.bind_some]
      rw [skip_cons (by decide)]
      simp only [if_neg hclose.symm, if_true, separated_blank hblank]
      rw [ih hl n]
      rfl

/-- An object whose list of members is not one. -/
theorem parse_object_none {s : Bytes}
    (h : ∀ n, listed (member fun s => value n s) 0x7D n s = none) :
    parse (0x7B :: s) = none := by
  rw [parse, value, skip_cons rfl]
  simp only [if_true]
  rw [if_neg (by decide), h]
  rfl

theorem reads_object {n : Nat} {l : List (Bytes × Bytes × Value)} (hne : l ≠ [])
    (h : ∀ p ∈ l, Reads (member fun s => value n s) p.1 p.2) (hn : l.length ≤ n) :
    Reads (value (n + 1)) (0x7B :: (lit ", ").intercalate (l.map Prod.fst) ++ [0x7D])
      (.object (l.map Prod.snd)) := by
  intro rest hrest
  have hblank : ∀ s, member (fun s => value n s) (0x20 :: s) = member (fun s => value n s) s :=
    member_blank _
  have hjoined := separated_joined hblank (.inr rfl) hne h hn rest
  have hopen : ¬ (skip ((lit ", ").intercalate (l.map Prod.fst) ++ 0x7D :: rest)).head? =
      some 0x7D := by
    intro hhead
    have hnone := member_close (fun s => value n s) hhead
    obtain ⟨m, rfl⟩ : ∃ m, n = m + 1 := ⟨n - 1, by have := List.length_pos_iff.2 hne; omega⟩
    rw [separated, hnone] at hjoined
    cases hjoined
  rw [List.cons_append, List.cons_append, List.append_assoc, List.singleton_append, value,
    skip_cons rfl]
  simp only [if_true, listed, if_neg hopen, hjoined, Option.map_some]
  rfl

theorem parse_of_reads {text : Bytes} {v : Value} (h : Reads (value (text.length + 1)) text v) :
    parse text = some v := by
  have hv := h [] nofun
  rw [List.append_nil] at hv
  rw [parse, hv]
  rfl

end Reads

end Wirewolf.Json
