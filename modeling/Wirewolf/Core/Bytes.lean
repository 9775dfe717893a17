/-!
# Byte strings

`std::string` and `std::vector<uint8_t>` are lists of bytes. `lit` is a
string literal as the compiler stores it (UTF-8, no terminator). The classes
of bytes are those of the "C" locale. The searching members of `std::string`
(`find`, `contains`, `substr`) are `find`, `containsSub` and `substr`; they
are stated over any element type.
-/
namespace Wirewolf

abbrev Bytes := List UInt8

def lit (s : String) : Bytes := s.toByteArray.data.toList

/-- The encoded characters. The kernel reads the stored bytes faster than it
decodes them. -/
theorem lit_eq_flatMap (s : String) : lit s = s.toList.flatMap String.utf8EncodeChar := by
  have h : (String.ofList s.toList).toByteArray =
      (s.toList.flatMap String.utf8EncodeChar).toByteArray := String.toByteArray_ofList
  rw [String.ofList_toList] at h
  rw [lit, h, List.data_toByteArray, List.toList_toArray]

/-- What is said of a byte is decided by trying all of them. -/
instance decidableForallByte (p : UInt8 → Prop) [DecidablePred p] : Decidable (∀ c, p c) :=
  decidable_of_iff (∀ n : Fin 256, p (.ofFin n)) ⟨fun h c => h c.toFin, fun h n => h (.ofFin n)⟩

-- found before those that the orders on bytes bring along
instance lawfulBEqByte : LawfulBEq UInt8 := inferInstance

instance lawfulBEqBytes : LawfulBEq Bytes := inferInstance

/-! ## Digits and blanks -/

def isDigit (c : UInt8) : Bool := 0x30 ≤ c && c ≤ 0x39

/-- The value of a hex digit. -/
def hexDigit? (c : UInt8) : Option Nat :=
  if 0x30 ≤ c ∧ c ≤ 0x39 then some (c.toNat - 0x30)
  else if 0x61 ≤ c ∧ c ≤ 0x66 then some (c.toNat - 0x57)
  else if 0x41 ≤ c ∧ c ≤ 0x46 then some (c.toNat - 0x37)
  else none

/-- A number in decimal. -/
def digits (n : Nat) : Bytes := (Nat.toDigits 10 n).map fun d => UInt8.ofNat d.toNat

theorem digits_range (n : Nat) : ∀ c ∈ digits n, 0x30 ≤ c ∧ c ≤ 0x39 := by
  intro c hc
  obtain ⟨d, hd, rfl⟩ := List.mem_map.1 hc
  have hdigit : d.isDigit = true := Nat.isDigit_of_mem_toDigits (by decide) (by decide) hd
  rw [Char.isDigit, Bool.and_eq_true, decide_eq_true_eq, decide_eq_true_eq] at hdigit
  have hlow : 48 ≤ d.toNat := hdigit.1
  have hhigh : d.toNat ≤ 57 := hdigit.2
  generalize d.toNat = k at hlow hhigh
  have hall : ∀ k : Fin 58, 48 ≤ k.val → 0x30 ≤ UInt8.ofNat k.val ∧ UInt8.ofNat k.val ≤ 0x39 := by
    decide
  exact hall ⟨k, by omega⟩ hlow

/-- `isspace` -/
def isSpace (c : UInt8) : Bool :=
  c = 0x20 || c = 0x09 || c = 0x0A || c = 0x0D || c = 0x0B || c = 0x0C

/-- `" \t\n\r"` -/
def isWhite (c : UInt8) : Bool := c = 0x20 || c = 0x09 || c = 0x0A || c = 0x0D

theorem ne_of_isDigit {c d : UInt8} (h : isDigit c = true) (hd : isDigit d = false) : c ≠ d := by
  rintro rfl
  rw [h] at hd
  cases hd

theorem isSpace_of_isDigit {c : UInt8} (h : isDigit c = true) : isSpace c = false := by
  cases hspace : isSpace c with
  | false => rfl
  | true =>
    simp only [isSpace, Bool.or_eq_true, decide_eq_true_eq] at hspace
    rcases hspace with ((((rfl | rfl) | rfl) | rfl) | rfl) | rfl <;> cases h

namespace Search

variable {α : Type} [DecidableEq α]

/-- Index of the first occurrence of `needle`. -/
def indexOf (needle : List α) : List α → Option Nat
  | [] => if needle = [] then some 0 else none
  | b :: s => if needle.isPrefixOf (b :: s) then some 0 else (indexOf needle s).map (· + 1)

/-- `s.find(needle, from)`; `none` is `npos`. -/
def find (s needle : List α) (start : Nat) : Option Nat :=
  if start ≤ s.length then (indexOf needle (s.drop start)).map (start + ·) else none

/-- `s.contains(needle)`. -/
def containsSub (s needle : List α) : Bool := (indexOf needle s).isSome

/-- `s.substr(start, count)`. -/
def substr (s : List α) (start count : Nat) : List α := (s.drop start).take count

/-- The positions a loop `pos = s.find(needle, pos)`, `pos += needle.size()`
visits, counted from `i`, with `skip` elements before its next search. -/
def occurrencesFrom (needle : List α) : Nat → Nat → List α → List Nat
  | _, _, [] => []
  | i, skip + 1, _ :: s => occurrencesFrom needle (i + 1) skip s
  | i, 0, b :: s =>
    if needle.isPrefixOf (b :: s) then i :: occurrencesFrom needle (i + 1) (needle.length - 1) s
    else occurrencesFrom needle (i + 1) 0 s

def occurrences (s needle : List α) : List Nat := occurrencesFrom needle 0 0 s

theorem find_zero (s needle : List α) : find s needle 0 = indexOf needle s := by
  simp [find]

/-- Searching from the end of a known part. -/
theorem find_append (pre s needle : List α) :
    find (pre ++ s) needle pre.length = (indexOf needle s).map (pre.length + ·) := by
  simp [find]

theorem indexOf_of_isPrefix {needle s : List α} (h : needle <+: s) : indexOf needle s = some 0 := by
  cases s with
  | nil => simp [indexOf, List.prefix_nil.1 h]
  | cons b s => simp [indexOf, List.isPrefixOf_iff_prefix.2 h]

/-- No match starts where the needle's first element does not occur. -/
theorem indexOf_skip {x : α} {c : List α} (h : x ∉ c) (n l : List α) :
    indexOf (x :: n) (c ++ l) = (indexOf (x :: n) l).map (c.length + ·) := by
  induction c with
  | nil => cases h' : indexOf (x :: n) l <;> simp [h']
  | cons b c ih =>
    have hb : x ≠ b := fun he => h (he ▸ List.mem_cons_self ..)
    have hc : x ∉ c := fun hm => h (List.mem_cons_of_mem _ hm)
    have hp : ¬ (x :: n).isPrefixOf (b :: (c ++ l)) = true := by
      simp [List.isPrefixOf, hb]
    rw [List.cons_append, indexOf, if_neg hp, ih hc, Option.map_map]
    congr 1
    funext i
    simp only [Function.comp, List.length_cons]; omega

theorem indexOf_char {x : α} {c : List α} (h : x ∉ c) (l : List α) :
    indexOf [x] (c ++ x :: l) = some c.length := by
  have h₀ : indexOf [x] (x :: l) = some 0 := indexOf_of_isPrefix ⟨l, rfl⟩
  rw [indexOf_skip h, h₀]; rfl

theorem indexOf_char_none {x : α} {c : List α} (h : x ∉ c) : indexOf [x] c = none := by
  have hs := indexOf_skip h [] []
  rw [List.append_nil] at hs
  rw [hs]; rfl

theorem containsSub_iff {needle s : List α} : containsSub s needle = true ↔ needle <:+: s := by
  unfold containsSub
  induction s with
  | nil => by_cases h : needle = [] <;> simp [indexOf, h]
  | cons b s ih =>
    rw [List.infix_cons_iff, ← List.isPrefixOf_iff_prefix, ← ih, indexOf]
    split
    · next h => simp [h]
    · next h => simp [h]

omit [DecidableEq α] in
/-- Two delimiter-free words before a delimiter are the same word. -/
theorem word_eq {x : α} : ∀ {k c : List α} {r : List α}, x ∉ k → x ∉ c → k ++ [x] <+: c ++ x :: r →
    k = c
  | [], [], _, _, _, _ => rfl
  | [], b :: c, r, _, hc, h => by
    obtain ⟨he, -⟩ := List.cons_prefix_cons.1 h
    exact absurd (he ▸ List.mem_cons_self ..) hc
  | a :: k, [], r, hk, _, h => by
    obtain ⟨he, -⟩ := List.cons_prefix_cons.1 h
    exact absurd (he ▸ List.mem_cons_self ..) hk
  | a :: k, b :: c, r, hk, hc, h => by
    obtain ⟨he, h⟩ := List.cons_prefix_cons.1 h
    have hk' : x ∉ k := fun hm => hk (List.mem_cons_of_mem _ hm)
    have hc' : x ∉ c := fun hm => hc (List.mem_cons_of_mem _ hm)
    rw [he, word_eq hk' hc' h]

/-- In a text of delimiter-free words, the first occurrence of the delimited
word `k` is at the first word equal to `k`. -/
theorem indexOf_word {x : α} {k : List α} (hk : x ∉ k) (r : List α) :
    ∀ (cs : List (List α)) (c : List α), x ∉ c → (∀ d ∈ cs, x ∉ d ∧ d ≠ k) →
      indexOf (x :: k ++ [x]) (c ++ cs.flatMap (x :: ·) ++ (x :: k ++ x :: r)) =
        some (c ++ cs.flatMap (x :: ·)).length
  | [], c, hc, _ => by
    rw [List.flatMap_nil, List.append_nil, List.cons_append, indexOf_skip hc]
    rw [indexOf_of_isPrefix ⟨r, by simp⟩]; rfl
  | d :: cs, c, hc, h => by
    obtain ⟨hd, hdk⟩ := h d (List.mem_cons_self ..)
    have ih := indexOf_word hk r cs d hd fun e he => h e (List.mem_cons_of_mem _ he)
    have hnot : ¬ (x :: (k ++ [x])).isPrefixOf
        (x :: (d ++ cs.flatMap (x :: ·) ++ (x :: k ++ x :: r))) = true := by
      rw [List.isPrefixOf_iff_prefix, List.cons_prefix_cons]
      rintro ⟨-, hp⟩
      refine hdk (Eq.symm ?_)
      cases cs with
      | nil => exact word_eq hk hd (r := k ++ x :: r) (by simpa using hp)
      | cons e cs =>
        exact word_eq hk hd (r := e ++ cs.flatMap (x :: ·) ++ (x :: k ++ x :: r))
          (by simpa using hp)
    have hsplit : c ++ (d :: cs).flatMap (x :: ·) ++ (x :: k ++ x :: r) =
        c ++ x :: (d ++ cs.flatMap (x :: ·) ++ (x :: k ++ x :: r)) := by simp
    rw [hsplit, List.cons_append, indexOf_skip hc, indexOf, if_neg hnot, ← List.cons_append, ih]
    simp only [Option.map_some, List.flatMap_cons, List.length_append, List.length_cons]
    congr 1; omega

end Search
end Wirewolf
