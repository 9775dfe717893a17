import Mathlib.Data.List.DropRight
import Mathlib.Tactic.Ring
import Wirewolf.Core.Bytes
import Wirewolf.Core.Double
import Wirewolf.Core.Text

/-!
# Numbers as text

Naturals and integers in decimal, and rationals the way a stream prints a
floating-point number by default: six significant digits, trailing zeros
dropped, an exponent where the number is below `10^-4` or has more than six
digits before the point. The readers take the longest number at the start
of a text.

* `readInt_printInt`: integers come back.
* `readRat_printRat`: so does a rational of at most six significant digits.
-/
namespace Wirewolf.Numeral

open Wirewolf.Double (roundEven nearest roundEven_intCast)

/-- The number a digit string denotes. -/
def value (s : Bytes) : Nat := s.foldl (fun n c => 10 * n + (c.toNat - 48)) 0

/-! ## Digits -/

theorem toNat_ofNat_digit {d : Char} (h : d.isDigit = true) :
    48 ≤ d.toNat ∧ d.toNat ≤ 57 ∧ (UInt8.ofNat d.toNat).toNat = d.toNat := by
  rw [Char.isDigit, Bool.and_eq_true, decide_eq_true_eq, decide_eq_true_eq] at h
  have hlow : 48 ≤ d.toNat := h.1
  have hhigh : d.toNat ≤ 57 := h.2
  refine ⟨hlow, hhigh, ?_⟩
  rw [UInt8.toNat_ofNat']
  omega

theorem isDigit_toDigits {n : Nat} : ∀ d ∈ Nat.toDigits 10 n, d.isDigit = true := fun _ hd =>
  Nat.isDigit_of_mem_toDigits (by decide) (by decide) hd

theorem digits_isDigit {n : Nat} : ∀ c ∈ digits n, isDigit c = true := by
  intro c hc
  rw [isDigit, Bool.and_eq_true, decide_eq_true_eq, decide_eq_true_eq]
  exact digits_range n c hc

theorem digits_ne_nil (n : Nat) : digits n ≠ [] := by
  rw [digits, ne_eq, List.map_eq_nil_iff]
  exact Nat.toDigits_ne_nil

theorem foldl_value (s : Bytes) (n : Nat) :
    s.foldl (fun n c => 10 * n + (c.toNat - 48)) n = n * 10 ^ s.length + value s := by
  induction s generalizing n with
  | nil => simp [value]
  | cons c s ih =>
    rw [value, List.foldl_cons, List.foldl_cons, ih, ih, List.length_cons, Nat.pow_succ]
    ring

theorem value_append (s t : Bytes) : value (s ++ t) = value s * 10 ^ t.length + value t := by
  rw [value, List.foldl_append, foldl_value]
  rfl

theorem value_zeros (n : Nat) : value (List.replicate n 0x30) = 0 := by
  induction n with
  | zero => rfl
  | succ n ih => rw [List.replicate_succ', value_append, ih]; rfl

theorem value_digits (n : Nat) : value (digits n) = n := by
  have hfold : ∀ (l : List Char) (k : Nat), (∀ d ∈ l, d.isDigit = true) →
      (l.map fun d => UInt8.ofNat d.toNat).foldl (fun n c => 10 * n + (c.toNat - 48)) k =
        Nat.ofDigitChars 10 l k := by
    intro l
    induction l with
    | nil => exact fun _ _ => rfl
    | cons d l ih =>
      intro k h
      obtain ⟨hd, hl⟩ := List.forall_mem_cons.1 h
      rw [List.map_cons, List.foldl_cons, (toNat_ofNat_digit hd).2.2, ih _ hl,
        Nat.ofDigitChars_cons]
      rfl
  rw [value, digits, hfold _ _ isDigit_toDigits, Nat.ofDigitChars_ten_toDigits]

/-- A numeral starts with a zero only if it is one. -/
theorem digits_lead (n : Nat) : digits n = [0x30] ∨ (digits n).head? ≠ some 0x30 := by
  induction n using Nat.strongRecOn with
  | ind n ih =>
    by_cases hn : n < 10
    · have hall : ∀ k : Fin 10, digits k.val = [0x30] ∨ (digits k.val).head? ≠ some 0x30 := by
        decide
      exact hall ⟨n, hn⟩
    · right
      have hsplit : digits n = digits (n / 10) ++ [UInt8.ofNat (n % 10).digitChar.toNat] := by
        rw [digits, Nat.toDigits_of_base_le (by decide) (by omega), List.map_append]
        rfl
      obtain ⟨c, l, hc⟩ := List.exists_cons_of_ne_nil (digits_ne_nil (n / 10))
      rw [hsplit, hc, List.cons_append, List.head?_cons]
      rcases ih (n / 10) (by omega) with hzero | hne
      · have hval := congrArg value hzero
        rw [value_digits, show value [0x30] = 0 from rfl] at hval
        omega
      · rwa [hc, List.head?_cons] at hne

/-! ## Integers -/

def printInt (n : Int) : Bytes := if n < 0 then 0x2D :: digits n.natAbs else digits n.natAbs

/-- Whether there is a minus sign, and what stands behind the sign. -/
def splitSign : Bytes → Bool × Bytes
  | [] => (false, [])
  | c :: s => if c = 0x2D then (true, s) else if c = 0x2B then (false, s) else (false, c :: s)

def readInt (s : Bytes) : Option Int :=
  let t := splitSign s
  let d := t.2.takeWhile isDigit
  if d = [] then none else some (if t.1 then -value d else value d)

theorem splitSign_digit {s : Bytes} (h : ∀ c ∈ s, isDigit c = true) (hne : s ≠ []) (t : Bytes) :
    splitSign (s ++ t) = (false, s ++ t) := by
  obtain ⟨c, s, rfl⟩ := List.exists_cons_of_ne_nil hne
  have hc := h c List.mem_cons_self
  have hminus : c ≠ 0x2D := by rintro rfl; exact absurd hc (by decide)
  have hplus : c ≠ 0x2B := by rintro rfl; exact absurd hc (by decide)
  rw [List.cons_append, splitSign, if_neg hminus, if_neg hplus]

theorem readInt_printInt (n : Int) {t : Bytes} (ht : ∀ c, t.head? = some c → isDigit c = false) :
    readInt (printInt n ++ t) = some n := by
  have htake := (Text.span_append (digits_isDigit (n := n.natAbs)) ht).1
  have hne := digits_ne_nil n.natAbs
  unfold readInt printInt
  split
  · next hneg =>
    have hsign : splitSign (0x2D :: (digits n.natAbs ++ t)) = (true, digits n.natAbs ++ t) := by
      rw [splitSign, if_pos rfl]
    rw [List.cons_append, hsign]
    dsimp only
    rw [htake, if_neg hne, value_digits, if_pos rfl]
    congr 1
    omega
  · rw [splitSign_digit digits_isDigit hne]
    dsimp only
    rw [htake, if_neg hne, value_digits, if_neg Bool.false_ne_true]
    congr 1
    omega

/-! ## Six significant digits -/

/-- Mantissa and exponent of a positive number: `m * 10 ^ (x - 5)` with six
digits in `m`. -/
def sixDigits (q : Rat) : Nat × Int :=
  let x := Int.log 10 q
  let m := (roundEven (q * 10 ^ (5 - x))).toNat
  if m = 1000000 then (100000, x + 1) else (m, x)

def stripZeros (s : Bytes) : Bytes := s.rdropWhile (· = 0x30)

/-- The point stands only where a digit follows. -/
def pointed (whole frac : Bytes) : Bytes :=
  if stripZeros frac = [] then whole else whole ++ 0x2E :: stripZeros frac

/-- At least two digits. -/
def printExp (x : Int) : Bytes :=
  0x65 :: (if x < 0 then 0x2D else 0x2B) ::
    (if x.natAbs < 10 then 0x30 :: digits x.natAbs else digits x.natAbs)

def printPos (q : Rat) : Bytes :=
  let m := sixDigits q
  let d := digits m.1
  if m.2 < -4 ∨ 6 ≤ m.2 then pointed (d.take 1) (d.drop 1) ++ printExp m.2
  else if m.2 < 0 then pointed [0x30] (List.replicate (-m.2 - 1).toNat 0x30 ++ d)
  else pointed (d.take (m.2 + 1).toNat) (d.drop (m.2 + 1).toNat)

def printRat (q : Rat) : Bytes :=
  if q = 0 then [0x30] else if q < 0 then 0x2D :: printPos (-q) else printPos q

def readExp : Bytes → Option Int
  | [] => some 0
  | c :: s => if c = 0x65 ∨ c = 0x45 then readInt s else some 0

/-- The digits as a multiple of `10 ^ e`. -/
def scaled (s : Bytes) (e : Int) : Rat := value s * 10 ^ e

/-- A number without a sign. -/
def readPos (s : Bytes) : Option Rat :=
  let whole := s.takeWhile isDigit
  let rest := s.dropWhile isDigit
  let point := rest.head? = some 0x2E
  let frac := if point then (rest.drop 1).takeWhile isDigit else []
  let rest := if point then (rest.drop 1).dropWhile isDigit else rest
  if whole = [] ∧ frac = [] then none
  else (readExp rest).map fun e => scaled (whole ++ frac) (e - frac.length)

def readRat (s : Bytes) : Option Rat :=
  let t := splitSign s
  (readPos t.2).map fun q => if t.1 then -q else q

/-- At most six significant digits. -/
def SixDigits (q : Rat) : Prop := ∃ (m : Nat) (e : Int), m < 10 ^ 6 ∧ |q| = m * 10 ^ e

/-- The floating-point number `k` is printed as a number of six digits that
it is nearest to. -/
def PrintsExactly (k : Rat) : Prop := ∃ q, SixDigits q ∧ printRat k = printRat q ∧ nearest q = k

/-! ### Reading what stands on both sides of the point -/

theorem stripZeros_append (s : Bytes) : ∃ n, s = stripZeros s ++ List.replicate n 0x30 := by
  refine ⟨(s.rtakeWhile (· = 0x30)).length, ?_⟩
  have hzeros : s.rtakeWhile (· = 0x30) = List.replicate (s.rtakeWhile (· = 0x30)).length 0x30 :=
    List.eq_replicate_of_mem fun c hc => by simpa using List.mem_rtakeWhile_imp hc
  rw [← hzeros]
  exact List.rdropWhile_append_rtakeWhile.symm

theorem stripZeros_isDigit {s : Bytes} (h : ∀ c ∈ s, isDigit c = true) :
    ∀ c ∈ stripZeros s, isDigit c = true := fun c hc => h c ((List.rdropWhile_prefix ..).subset hc)

/-- Dropped zeros do not change what the digits denote. -/
theorem scaled_stripZeros (whole frac : Bytes) (e : Int) :
    scaled (whole ++ stripZeros frac) (e - (stripZeros frac).length) =
      scaled (whole ++ frac) (e - frac.length) := by
  obtain ⟨n, hn⟩ := stripZeros_append frac
  have hlen : (frac.length : Int) = (stripZeros frac).length + n := by
    have := congrArg List.length hn
    rw [List.length_append, List.length_replicate] at this
    omega
  have hval : value (whole ++ frac) = value (whole ++ stripZeros frac) * 10 ^ n := by
    have := congrArg (fun f => value (whole ++ f)) hn
    rw [this, ← List.append_assoc, value_append _ (List.replicate n 0x30), value_zeros,
      List.length_replicate, Nat.add_zero]
  have hexp : e - (stripZeros frac).length = n + (e - frac.length) := by omega
  rw [scaled, scaled, hval, hexp, zpow_add₀ (by decide), zpow_natCast, Nat.cast_mul, Nat.cast_pow]
  push_cast
  ring

theorem readPos_pointed {whole frac tail : Bytes} {e : Int} (hwhole : ∀ c ∈ whole, isDigit c = true)
    (hne : whole ≠ []) (hfrac : ∀ c ∈ frac, isDigit c = true)
    (htail : ∀ c, tail.head? = some c → isDigit c = false ∧ c ≠ 0x2E)
    (hexp : readExp tail = some e) :
    readPos (pointed whole frac ++ tail) = some (scaled (whole ++ frac) (e - frac.length)) := by
  have hdigits : ∀ c, tail.head? = some c → isDigit c = false := fun c hc => (htail c hc).1
  rw [← scaled_stripZeros, pointed]
  unfold readPos
  split
  · next hstrip =>
    obtain ⟨htake, hdrop⟩ := Text.span_append hwhole hdigits
    have hpoint : tail.head? ≠ some 0x2E := fun h => (htail _ h).2 rfl
    simp only [htake, hdrop, if_neg hpoint, hne, false_and, if_false, hexp, Option.map_some, hstrip]
  · have hstop : ∀ c, (0x2E :: (stripZeros frac ++ tail)).head? = some c → isDigit c = false := by
      intro c hc
      cases hc
      decide
    obtain ⟨htake, hdrop⟩ := Text.span_append hwhole hstop
    obtain ⟨htake', hdrop'⟩ := Text.span_append (stripZeros_isDigit hfrac) hdigits
    rw [List.append_assoc, List.cons_append]
    simp only [htake, hdrop, List.head?_cons, if_true, List.drop_succ_cons,
      List.drop_zero, htake', hdrop', hne, false_and, if_false, hexp, Option.map_some]

theorem readExp_printExp (x : Int) : readExp (printExp x) = some x := by
  have hpad : ∃ d, (if x.natAbs < 10 then 0x30 :: digits x.natAbs else digits x.natAbs) = d ∧
      (∀ c ∈ d, isDigit c = true) ∧ d ≠ [] ∧ value d = x.natAbs := by
    refine ⟨_, rfl, ?_⟩
    split
    · refine ⟨List.forall_mem_cons.2 ⟨by decide, digits_isDigit⟩, List.cons_ne_nil _ _, ?_⟩
      have := value_append [0x30] (digits x.natAbs)
      rwa [show value [0x30] = 0 from rfl, Nat.zero_mul, Nat.zero_add, value_digits] at this
    · exact ⟨digits_isDigit, digits_ne_nil _, value_digits _⟩
  obtain ⟨d, hd, hdigit, hne, hval⟩ := hpad
  have htake : d.takeWhile isDigit = d := by
    have := (Text.span_append hdigit (t := []) nofun).1
    rwa [List.append_nil] at this
  rw [printExp, hd, readExp, if_pos (.inl rfl), readInt]
  by_cases hneg : x < 0
  · have hsign : splitSign (0x2D :: d) = (true, d) := by rw [splitSign, if_pos rfl]
    rw [if_pos hneg, hsign]
    dsimp only
    rw [htake, if_neg hne, hval, if_pos rfl]
    congr 1
    omega
  · have hsign : splitSign (0x2B :: d) = (false, d) := by
      rw [splitSign, if_neg (by decide), if_pos rfl]
    rw [if_neg hneg, hsign]
    dsimp only
    rw [htake, if_neg hne, hval, if_neg Bool.false_ne_true]
    congr 1
    omega

/-! ### Numbers of six digits -/

/-- Six digits are enough for the mantissa. -/
theorem sixDigits_eq {q : Rat} (hq : 0 < q) (h : SixDigits q) : ∃ (m : Nat) (x : Int),
    sixDigits q = (m, x) ∧ 10 ^ 5 ≤ m ∧ m < 10 ^ 6 ∧ q = m * 10 ^ (x - 5) := by
  obtain ⟨n, e, hn, hqe⟩ := h
  rw [abs_of_pos hq] at hqe
  have hlow : (10 : Rat) ^ Int.log 10 q ≤ q := Int.zpow_log_le_self (by decide) hq
  have hhigh : q < (10 : Rat) ^ (Int.log 10 q + 1) := Int.lt_zpow_succ_log_self (by decide) q
  generalize hx : Int.log 10 q = x at hlow hhigh
  have hten : ∀ k : Int, (0 : Rat) < 10 ^ k := fun k => zpow_pos (by decide) k
  -- the last digit is not below the sixth place
  have he : 0 ≤ e + (5 - x) := by
    by_contra hneg
    have hle : (10 : Rat) ^ (6 + e) ≤ 10 ^ x := zpow_le_zpow_right₀ (by decide) (by omega)
    have hlt : q < 10 ^ (6 + e) := by
      rw [hqe, zpow_add₀ (by decide)]
      have hcast : (n : Rat) < 10 ^ (6 : Int) := by exact_mod_cast hn
      exact mul_lt_mul_of_pos_right hcast (hten e)
    exact absurd (lt_of_lt_of_le hlt hle) (not_lt.2 hlow)
  obtain ⟨k, hk⟩ := Int.eq_ofNat_of_zero_le he
  have hm : q * 10 ^ (5 - x) = ((n * 10 ^ k : Nat) : Rat) := by
    rw [hqe, mul_assoc, ← zpow_add₀ (by decide), hk]
    push_cast
    rw [zpow_natCast]
  have hbounds : (10 : Rat) ^ (5 : Int) ≤ q * 10 ^ (5 - x) ∧
      q * 10 ^ (5 - x) < (10 : Rat) ^ (6 : Int) := by
    constructor
    · calc (10 : Rat) ^ (5 : Int) = 10 ^ x * 10 ^ (5 - x) := by
            rw [← zpow_add₀ (by decide)]; congr 1; omega
        _ ≤ q * 10 ^ (5 - x) := mul_le_mul_of_nonneg_right hlow (le_of_lt (hten _))
    · calc q * 10 ^ (5 - x) < 10 ^ (x + 1) * 10 ^ (5 - x) := mul_lt_mul_of_pos_right hhigh (hten _)
        _ = (10 : Rat) ^ (6 : Int) := by rw [← zpow_add₀ (by decide)]; congr 1; omega
  rw [hm] at hbounds
  have hsix : 10 ^ 5 ≤ n * 10 ^ k ∧ n * 10 ^ k < 10 ^ 6 := by
    exact ⟨by exact_mod_cast hbounds.1, by exact_mod_cast hbounds.2⟩
  refine ⟨n * 10 ^ k, x, ?_, hsix.1, hsix.2, ?_⟩
  · have hround := roundEven_intCast (n * 10 ^ k : Nat)
    rw [Int.cast_natCast] at hround
    rw [sixDigits, hx, hm, hround, Int.toNat_natCast]
    exact if_neg (by omega)
  · rw [← hm, mul_assoc, ← zpow_add₀ (by decide), show 5 - x + (x - 5) = 0 by omega,
      zpow_zero, mul_one]

theorem digits_length_six {m : Nat} (hlow : 10 ^ 5 ≤ m) (hhigh : m < 10 ^ 6) :
    (digits m).length = 6 := by
  have hle := (Nat.length_toDigits_le_iff (k := 6) (show 1 < 10 by decide) (by decide)).2 hhigh
  have hgt := mt (Nat.length_toDigits_le_iff (k := 5) (show 1 < 10 by decide) (by decide)).1
    (Nat.not_lt.2 hlow)
  rw [digits, List.length_map]
  omega

/-- The point between the digits of a mantissa. -/
theorem split_digits {d : Bytes} (hd : ∀ c ∈ d, isDigit c = true) (hlen : d.length = 6) {n : Nat}
    (hn : 0 < n) : (∀ c ∈ d.take n, isDigit c = true) ∧ d.take n ≠ [] ∧
      (∀ c ∈ d.drop n, isDigit c = true) ∧
      ∀ e, scaled (d.take n ++ d.drop n) (e - (d.drop n).length) =
        scaled d (e - (6 - n : Nat)) := by
  refine ⟨fun c hc => hd c (List.mem_of_mem_take hc), ?_,
    fun c hc => hd c (List.mem_of_mem_drop hc),
    fun e => ?_⟩
  · rw [← List.length_pos_iff, List.length_take]
    omega
  · rw [List.take_append_drop, List.length_drop, hlen]

/-- Zeros in front of the digits. -/
theorem scaled_zeros (n : Nat) (d : Bytes) (e : Int) :
    scaled ([0x30] ++ (List.replicate n 0x30 ++ d)) e = scaled d e := by
  have hzero : value ([0x30] ++ List.replicate n 0x30) = 0 := by
    rw [List.singleton_append, ← List.replicate_succ, value_zeros]
  rw [scaled, ← List.append_assoc, value_append, hzero, Nat.zero_mul, Nat.zero_add, scaled]

/-- What is printed of a positive number of six digits. -/
theorem printPos_shape {q : Rat} (hq : 0 < q) (h : SixDigits q) :
    ∃ (whole frac tail : Bytes) (e : Int), printPos q = pointed whole frac ++ tail ∧
      (∀ c ∈ whole, isDigit c = true) ∧ whole ≠ [] ∧ (∀ c ∈ frac, isDigit c = true) ∧
      (∀ c, tail.head? = some c → isDigit c = false ∧ c ≠ 0x2E) ∧ readExp tail = some e ∧
      scaled (whole ++ frac) (e - frac.length) = q := by
  obtain ⟨m, x, hsix, hlow, hhigh, hval⟩ := sixDigits_eq hq h
  have hlen := digits_length_six hlow hhigh
  have hdigit : ∀ c ∈ digits m, isDigit c = true := digits_isDigit
  have hempty : ∀ c, ([] : Bytes).head? = some c → isDigit c = false ∧ c ≠ 0x2E := nofun
  have hscaled : scaled (digits m) (x - 5) = q := by rw [scaled, value_digits, ← hval]
  unfold printPos
  rw [hsix]
  dsimp only
  split
  · -- one digit before the point, and an exponent
    obtain ⟨htake, hne, hdrop, happ⟩ := split_digits hdigit hlen Nat.one_pos
    refine ⟨_, _, printExp x, x, rfl, htake, hne, hdrop, ?_, readExp_printExp x, ?_⟩
    · intro c hc
      cases hc
      decide
    · rw [happ]
      exact hscaled
  · split
    · -- a zero before the point
      next hx hneg =>
      refine ⟨_, _, [], 0, (List.append_nil _).symm, List.all_eq_true.1 (by decide),
        List.cons_ne_nil _ _, ?_, hempty, rfl, ?_⟩
      · intro c hc
        rcases List.mem_append.1 hc with hc | hc
        · rw [List.eq_of_mem_replicate hc]
          decide
        · exact hdigit c hc
      · rw [scaled_zeros, List.length_append, List.length_replicate, hlen, ← hscaled]
        congr 1
        omega
    · next hx hneg =>
      obtain ⟨htake, hne, hdrop, happ⟩ :=
        split_digits (n := (x + 1).toNat) hdigit hlen (by omega)
      refine ⟨_, _, [], 0, (List.append_nil _).symm, htake, hne, hdrop, hempty, rfl, ?_⟩
      rw [happ, ← hscaled]
      congr 1
      omega

theorem readPos_printPos {q : Rat} (hq : 0 < q) (h : SixDigits q) :
    readPos (printPos q) = some q := by
  obtain ⟨whole, frac, tail, e, hprint, hwhole, hne, hfrac, htail, hexp, hval⟩ :=
    printPos_shape hq h
  rw [hprint, readPos_pointed hwhole hne hfrac htail hexp, hval]

theorem splitSign_printPos {q : Rat} (hq : 0 < q) (h : SixDigits q) :
    splitSign (printPos q) = (false, printPos q) := by
  obtain ⟨whole, frac, tail, e, hprint, hwhole, hne, -, -, -, -⟩ := printPos_shape hq h
  rw [hprint, pointed]
  split
  · exact splitSign_digit hwhole hne tail
  · rw [List.append_assoc]
    exact splitSign_digit hwhole hne _

/-- A number of at most six significant digits is read back. -/
theorem readRat_printRat {q : Rat} (h : SixDigits q) : readRat (printRat q) = some q := by
  unfold printRat
  split
  · next hzero =>
    rw [hzero]
    decide +kernel
  · next hne =>
    split
    · next hneg =>
      have hsix : SixDigits (-q) := by rwa [SixDigits, abs_neg]
      have hsign : splitSign (0x2D :: printPos (-q)) = (true, printPos (-q)) := by
        rw [splitSign, if_pos rfl]
      rw [readRat, hsign]
      dsimp only
      rw [readPos_printPos (neg_pos.2 hneg) hsix, Option.map_some, if_pos rfl, neg_neg]
    · next hpos =>
      have hpos : 0 < q := lt_of_le_of_ne (not_lt.1 hpos) (Ne.symm hne)
      rw [readRat, splitSign_printPos hpos h]
      dsimp only
      rw [readPos_printPos hpos h, Option.map_some, if_neg Bool.false_ne_true]

/-! ### The characters of a number -/

/-- The characters that a printed number is made of. -/
def isGlyph (c : UInt8) : Bool := isDigit c || c = 0x2E || c = 0x65 || c = 0x2B || c = 0x2D

theorem isGlyph_of_digit {c : UInt8} (h : isDigit c = true) : isGlyph c = true := by
  simp only [isGlyph, h, Bool.true_or]

theorem printInt_glyph (n : Int) : ∀ c ∈ printInt n, isGlyph c = true := by
  have hdigits : ∀ c ∈ digits n.natAbs, isGlyph c = true := fun c hc =>
    isGlyph_of_digit (digits_isDigit c hc)
  unfold printInt
  split
  · exact List.forall_mem_cons.2 ⟨by decide, hdigits⟩
  · exact hdigits

theorem mem_pointed {whole frac : Bytes} {c : UInt8} (hc : c ∈ pointed whole frac) :
    c ∈ whole ∨ c = 0x2E ∨ c ∈ frac := by
  unfold pointed at hc
  split at hc
  · exact .inl hc
  · rw [List.mem_append, List.mem_cons] at hc
    rcases hc with hc | hc | hc
    · exact .inl hc
    · exact .inr (.inl hc)
    · exact .inr (.inr ((List.rdropWhile_prefix ..).subset hc))

theorem pointed_glyph {whole frac : Bytes} (hw : ∀ c ∈ whole, isDigit c = true)
    (hf : ∀ c ∈ frac, isDigit c = true) : ∀ c ∈ pointed whole frac, isGlyph c = true := by
  intro c hc
  rcases mem_pointed hc with hc | rfl | hc
  · exact isGlyph_of_digit (hw c hc)
  · decide
  · exact isGlyph_of_digit (hf c hc)

theorem printExp_glyph (x : Int) : ∀ c ∈ printExp x, isGlyph c = true := by
  have hdigits : ∀ c ∈ digits x.natAbs, isGlyph c = true := fun c hc =>
    isGlyph_of_digit (digits_isDigit c hc)
  refine List.forall_mem_cons.2 ⟨by decide, List.forall_mem_cons.2 ⟨?_, ?_⟩⟩
  · split <;> decide
  · split
    · exact List.forall_mem_cons.2 ⟨by decide, hdigits⟩
    · exact hdigits

theorem printPos_glyph (q : Rat) : ∀ c ∈ printPos q, isGlyph c = true := by
  have hdigit : ∀ c ∈ digits (sixDigits q).1, isDigit c = true := digits_isDigit
  have hsplit : ∀ n,
      ∀ c ∈ pointed ((digits (sixDigits q).1).take n) ((digits (sixDigits q).1).drop n),
        isGlyph c = true := fun n => pointed_glyph (fun c hc => hdigit c (List.mem_of_mem_take hc))
    (fun c hc => hdigit c (List.mem_of_mem_drop hc))
  intro c hc
  unfold printPos at hc
  dsimp only at hc
  split at hc
  · rcases List.mem_append.1 hc with hc | hc
    · exact hsplit 1 c hc
    · exact printExp_glyph _ c hc
  · split at hc
    · refine pointed_glyph (List.all_eq_true.1 (by decide)) (fun d hd => ?_) c hc
      rcases List.mem_append.1 hd with hd | hd
      · rw [List.eq_of_mem_replicate hd]
        decide
      · exact hdigit d hd
    · exact hsplit _ c hc

theorem printRat_glyph (q : Rat) : ∀ c ∈ printRat q, isGlyph c = true := by
  unfold printRat
  split
  · exact List.all_eq_true.1 (by decide)
  · split
    · exact List.forall_mem_cons.2 ⟨by decide, printPos_glyph _⟩
    · exact printPos_glyph q

end Wirewolf.Numeral
