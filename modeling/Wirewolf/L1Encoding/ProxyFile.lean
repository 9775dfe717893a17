import Wirewolf.Core.Latin1
import Wirewolf.Core.Numeral
import Wirewolf.Core.Text
import Wirewolf.Core.UMap
import Wirewolf.Core.Wire
import Wirewolf.L1Encoding.Severity

/-!
# The proxy table and its converter (`convert_ip2location.dart`)

The converter turns the CSV of address ranges into fixed-size rows and a
table of strings. Its strings are made of the bytes of the CSV, one
character a byte, and are kept here as these bytes.

* `splitCsv_line`: the columns come back from a line as long as none ends
  like the beginning of the separator.
* `convert_csv`: a record for every row, and the table of their texts.
-/
namespace Wirewolf.L1.ProxyFile


/-! ## Reading the CSV -/

/-- mirrors src/flutter_app/tool/convert_ip2location.dart:57-85 -/
def linesFrom (buf : Bytes) : Bytes → List Bytes
  | [] => if buf = [] then [] else [buf]
  | c :: s =>
    if c = 0x0A then
      (if buf.getLast? = some 0x0D then buf.dropLast else buf) :: linesFrom [] s
    else linesFrom (buf ++ [c]) s

def lines (s : Bytes) : List Bytes := linesFrom [] s

/-- `'","'` -/
def separator : Bytes := [0x22, 0x2C, 0x22]

/-- mirrors src/flutter_app/tool/convert_ip2location.dart:17-21 -/
def splitCsv (line : Bytes) : List Bytes :=
  if line.length < 2 then []
  else Text.splitSub separator ((line.take (line.length - 1)).drop 1)

/-- `int.parse` of decimal digits. The signs, blanks and hexadecimals that it
takes as well are left out. -/
def parseInt (s : Bytes) : Option Nat :=
  if s ≠ [] ∧ s.all isDigit = true then some (Numeral.value s) else none

/-! ## Writing the table -/

/-- Every string of the list once, with its position.
mirrors src/flutter_app/tool/convert_ip2location.dart:23-32 -/
structure StrTable where
  index : UMap Bytes Nat
  list : List Bytes
  agree : ∀ s i, index.find? s = some i ↔ list[i]? = some s

namespace StrTable

def empty : StrTable := ⟨.empty, [], fun _ _ => ⟨nofun, nofun⟩⟩

def append (t : StrTable) (s : Bytes) (h : t.index.find? s = none) : StrTable where
  index := t.index.put s t.list.length
  list := t.list ++ [s]
  agree := by
    intro s' i
    by_cases hs : s' = s
    · subst hs
      rw [UMap.find?_put_self, Option.some.injEq]
      constructor
      · intro hi
        rw [← hi, List.getElem?_concat_length]
      · intro hi
        rcases Nat.lt_or_ge i t.list.length with hlt | hge
        · rw [List.getElem?_append_left hlt, ← t.agree, h] at hi
          cases hi
        · have := (List.getElem?_eq_some_iff.1 hi).1
          rw [List.length_append, List.length_singleton] at this
          omega
    · rw [UMap.find?_put_of_ne _ _ hs, t.agree]
      rcases Nat.lt_trichotomy i t.list.length with hlt | rfl | hgt
      · rw [List.getElem?_append_left hlt]
      · rw [List.getElem?_concat_length, List.getElem?_eq_none (Nat.le_refl _)]
        exact iff_of_false nofun fun he => hs (Option.some.inj he).symm
      · rw [List.getElem?_eq_none (Nat.le_of_lt hgt), List.getElem?_eq_none (by
          rw [List.length_append]; exact hgt)]

/-- `_index.putIfAbsent` -/
def intern (t : StrTable) (s : Bytes) : StrTable × Nat :=
  match h : t.index.find? s with
  | some i => (t, i)
  | none => (t.append s h, t.list.length)

/-- mirrors src/flutter_app/tool/convert_ip2location.dart:30-31 -/
def file (t : StrTable) : Bytes := Latin1.utf8 ([0x0A].intercalate t.list)

end StrTable

/-- mirrors src/flutter_app/tool/convert_ip2location.dart:34-54 -/
def convert (emit : List Bytes → StrTable → Option (Bytes × StrTable)) (csv : Bytes) :
    Option (Bytes × StrTable) :=
  (lines csv).foldlM (fun out line =>
    let f := splitCsv line
    if f.length < 2 then some out
    else (emit f out.2).map fun row => (out.1 ++ row.1, row.2)) ([], .empty)

/-- `f.length > i ? f[i] : '-'` -/
def column (f : List Bytes) (i : Nat) : Bytes := f.getD i (lit "-")

/-- The text of a row.
mirrors src/flutter_app/tool/convert_ip2location.dart:117-121 -/
def entry (f : List Bytes) : Bytes :=
  column f 2 ++ 0x09 :: column f 9 ++ 0x09 :: column f 13 ++ 0x09 :: column f 15

def record (first last : UInt32) (i : Nat) : Bytes :=
  Wire.le32 first ++ Wire.le32 last ++ Wire.le32 (.ofNat i)

/-- mirrors src/flutter_app/tool/convert_ip2location.dart:114-122 -/
def emitProxy (f : List Bytes) (str : StrTable) : Option (Bytes × StrTable) := do
  let first ← parseInt (f.getD 0 [])
  let last ← parseInt (f.getD 1 [])
  let (str, i) := str.intern (entry f)
  return (record (.ofNat first) (.ofNat last) i, str)

/-! ## The rows of the CSV -/

/-- An address range and the columns behind its ends. -/
structure Row where
  first : UInt32
  last : UInt32
  columns : List Bytes
  le : first ≤ last

namespace Row

def Contains (r : Row) (ip : UInt32) : Prop := r.first ≤ ip ∧ ip ≤ r.last

instance (r : Row) (ip : UInt32) : Decidable (r.Contains ip) := inferInstanceAs (Decidable (_ ∧ _))

def fields (r : Row) : List Bytes := digits r.first.toNat :: digits r.last.toNat :: r.columns

def type (r : Row) : Bytes := column r.fields 2

def usage (r : Row) : Bytes := column r.fields 9

def threat (r : Row) : Bytes := column r.fields 13

/-- The fully quoted line. -/
def line (r : Row) : Bytes := 0x22 :: separator.intercalate r.fields ++ [0x22]

/-- Fields without tab, newline and separator. -/
def Plain (r : Row) : Prop := ∀ f ∈ r.columns, 0x09 ∉ f ∧ 0x0A ∉ f ∧ ¬ separator <:+: f

/-- No field but the last one ends in quote and comma. -/
def Apart (r : Row) : Prop := ∀ f ∈ r.columns.dropLast, ¬ [0x22, 0x2C] <:+ f

instance (r : Row) : Decidable r.Plain := List.decidableBAll _ _

instance (r : Row) : Decidable r.Apart := List.decidableBAll _ _

end Row

/-- A line a row, ended by `\n` or `\r\n`. -/
def csv (crlf : Bool) (rows : List Row) : Bytes :=
  rows.flatMap fun r => r.line ++ if crlf then [0x0D, 0x0A] else [0x0A]

/-! ## Lines -/

theorem linesFrom_append {l : Bytes} (h : 0x0A ∉ l) (buf s : Bytes) :
    linesFrom buf (l ++ s) = linesFrom (buf ++ l) s := by
  induction l generalizing buf with
  | nil => rw [List.append_nil]; rfl
  | cons c l ih =>
    rw [List.mem_cons, not_or] at h
    rw [List.cons_append, linesFrom, if_neg (Ne.symm h.1), ih h.2, List.append_assoc]
    rfl

/-- A line that ends in a quote. -/
theorem lines_line {l : Bytes} (h : 0x0A ∉ l) (crlf : Bool) (s : Bytes) :
    lines (l ++ [0x22] ++ (if crlf then [0x0D, 0x0A] else [0x0A]) ++ s) =
      (l ++ [0x22]) :: lines s := by
  have hquote : 0x0A ∉ l ++ [0x22] := by
    rw [List.mem_append, not_or]
    exact ⟨h, by decide⟩
  rw [List.append_assoc, lines, linesFrom_append hquote, List.nil_append]
  cases crlf with
  | false =>
    have hlast : (l ++ [0x22]).getLast? = some (0x22 : UInt8) := List.getLast?_concat ..
    rw [if_neg Bool.false_ne_true, List.singleton_append, linesFrom, if_pos rfl, hlast,
      if_neg (by decide)]
    rfl
  | true =>
    have hcr : (l ++ [0x22] ++ [0x0D]).getLast? = some (0x0D : UInt8) := List.getLast?_concat ..
    rw [if_pos rfl, List.cons_append, linesFrom, if_neg (by decide),
      List.singleton_append, linesFrom,
      if_pos rfl, if_pos hcr, List.dropLast_concat]
    rfl

theorem digits_not_mem {c : UInt8} (h : ¬ (0x30 ≤ c ∧ c ≤ 0x39)) (n : Nat) : c ∉ digits n :=
  fun hc => h (digits_range n c hc)

theorem not_mem_intercalate {c : UInt8} {sep : Bytes} {l : List Bytes} (hsep : c ∉ sep)
    (h : ∀ f ∈ l, c ∉ f) : c ∉ sep.intercalate l := by
  induction l with
  | nil => exact List.not_mem_nil
  | cons f l ih =>
    obtain ⟨hf, hl⟩ := List.forall_mem_cons.1 h
    cases l with
    | nil => rwa [List.intercalate_singleton]
    | cons g l =>
      rw [List.intercalate_cons_cons, List.mem_append, List.mem_append, not_or, not_or]
      exact ⟨⟨hf, hsep⟩, ih hl⟩

theorem fields_not_mem {c : UInt8} (hc : ¬ (0x30 ≤ c ∧ c ≤ 0x39)) {r : Row}
    (h : ∀ f ∈ r.columns, c ∉ f) : ∀ f ∈ r.fields, c ∉ f := by
  intro f hf
  simp only [Row.fields, List.mem_cons] at hf
  rcases hf with rfl | rfl | hf
  · exact digits_not_mem hc _
  · exact digits_not_mem hc _
  · exact h f hf

theorem lines_csv (crlf : Bool) {rows : List Row} (h : ∀ r ∈ rows, r.Plain) :
    lines (csv crlf rows) = rows.map Row.line := by
  induction rows with
  | nil => rfl
  | cons r rows ih =>
    obtain ⟨hr, hrows⟩ := List.forall_mem_cons.1 h
    have hline : 0x0A ∉ 0x22 :: separator.intercalate r.fields := by
      rw [List.mem_cons, not_or]
      exact ⟨by decide, not_mem_intercalate (by decide)
        (fields_not_mem (by decide) fun f hf => (hr f hf).2.1)⟩
    have hsplit := lines_line hline crlf (csv crlf rows)
    rw [ih hrows] at hsplit
    exact hsplit

/-! ## Columns -/

/-- A field that does not end in quote and comma is found up to its end. -/
theorem clear_of_plain {f : Bytes} (h : ¬ separator <:+: f) (hend : ¬ [0x22, 0x2C] <:+ f) :
    Text.Clear separator f := by
  intro t hne ht hp
  unfold separator at hp
  match t, hne with
  | [a], _ =>
    obtain ⟨-, hp₁⟩ := List.cons_prefix_cons.1 hp
    exact absurd (List.cons_prefix_cons.1 hp₁).1 (by decide)
  | [a, b], _ =>
    obtain ⟨rfl, hp₁⟩ := List.cons_prefix_cons.1 hp
    obtain ⟨rfl, -⟩ := List.cons_prefix_cons.1 hp₁
    exact hend ht
  | a :: b :: c :: t, _ =>
    obtain ⟨rfl, hp₁⟩ := List.cons_prefix_cons.1 hp
    obtain ⟨rfl, hp₂⟩ := List.cons_prefix_cons.1 hp₁
    obtain ⟨rfl, -⟩ := List.cons_prefix_cons.1 hp₂
    have hpre : separator <+: 0x22 :: 0x2C :: 0x22 :: t := ⟨t, rfl⟩
    exact h (hpre.isInfix.trans ht.isInfix)

theorem not_infix_of_not_mem {f : Bytes} (h : 0x22 ∉ f) : ¬ separator <:+: f := fun hf =>
  h (hf.subset (List.mem_cons_self ..))

theorem clear_of_not_mem {f : Bytes} (h : 0x22 ∉ f) : Text.Clear separator f :=
  clear_of_plain (not_infix_of_not_mem h) fun hf => h (hf.subset (List.mem_cons_self ..))

theorem splitCsv_line {r : Row} (hplain : r.Plain) (hapart : r.Apart) :
    splitCsv r.line = r.fields := by
  have hlen : ¬ r.line.length < 2 := by
    rw [Row.line, List.length_append, List.length_cons, List.length_singleton]
    omega
  have hinner : (r.line.take (r.line.length - 1)).drop 1 = separator.intercalate r.fields := by
    have htake : r.line.take (r.line.length - 1) = 0x22 :: separator.intercalate r.fields := by
      rw [Row.line, List.length_append, List.length_singleton, Nat.add_sub_cancel, List.take_left]
    rw [htake]
    rfl
  have hdigits : ∀ n, 0x22 ∉ digits n := fun n => digits_not_mem (by decide) n
  rw [splitCsv, if_neg hlen, hinner]
  rcases List.eq_nil_or_concat r.columns with hnil | ⟨init, last, hcols⟩
  · have hfields : r.fields = [digits r.first.toNat] ++ [digits r.last.toNat] := by
      rw [Row.fields, hnil]
      rfl
    rw [hfields]
    refine Text.splitSub_intercalate (List.cons_ne_nil _ _) (fun f hf => ?_)
      (not_infix_of_not_mem (hdigits _))
    rw [List.mem_singleton.1 hf]
    exact clear_of_not_mem (hdigits _)
  · have hfields : r.fields = (digits r.first.toNat :: digits r.last.toNat :: init) ++ [last] := by
      rw [Row.fields, hcols]
      simp
    rw [Row.Apart, hcols, List.concat_eq_append, List.dropLast_concat] at hapart
    rw [Row.Plain, hcols, List.concat_eq_append] at hplain
    rw [hfields]
    refine Text.splitSub_intercalate (List.cons_ne_nil _ _) (fun f hf => ?_)
      (hplain last (by simp)).2.2
    rw [List.mem_cons, List.mem_cons] at hf
    rcases hf with rfl | rfl | hf
    · exact clear_of_not_mem (hdigits _)
    · exact clear_of_not_mem (hdigits _)
    · exact clear_of_plain (hplain f (List.mem_append_left _ hf)).2.2 (hapart f hf)

theorem parseInt_digits (n : Nat) : parseInt (digits n) = some n := by
  rw [parseInt, if_pos ⟨Numeral.digits_ne_nil n, List.all_eq_true.2 Numeral.digits_isDigit⟩,
    Numeral.value_digits]

/-! ## The table of strings -/

namespace StrTable

variable (t : StrTable) (s : Bytes)

theorem intern_self : (t.intern s).1.index.find? s = some (t.intern s).2 := by
  unfold intern
  split
  · next i h => exact h
  · exact UMap.find?_put_self _ _ _

variable {t} in
theorem intern_keeps {u : Bytes} {i : Nat} (h : t.index.find? u = some i) :
    (t.intern s).1.index.find? u = some i := by
  unfold intern
  split
  · exact h
  · next hs =>
    have hne : u ≠ s := by
      intro he
      rw [he, hs] at h
      cases h
    exact (UMap.find?_put_of_ne _ _ hne).trans h

theorem intern_list : (t.intern s).1.list = t.list ∨ (t.intern s).1.list = t.list ++ [s] := by
  unfold intern
  split
  · exact .inl rfl
  · exact .inr rfl

/-- The strings in turn. -/
def internAll (l : List Bytes) : StrTable := l.foldl (fun t s => (t.intern s).1) t

variable {t} in
theorem internAll_keeps {l : List Bytes} {u : Bytes} {i : Nat} (h : t.index.find? u = some i) :
    (t.internAll l).index.find? u = some i := by
  induction l generalizing t with
  | nil => exact h
  | cons s l ih => exact ih (intern_keeps s h)

theorem internAll_mem {l : List Bytes} (h : s ∈ l) :
    ∃ i, (t.internAll l).index.find? s = some i := by
  induction l generalizing t with
  | nil => cases h
  | cons u l ih =>
    rcases List.mem_cons.1 h with rfl | h
    · exact ⟨_, internAll_keeps (l := l) (intern_self t s)⟩
    · exact ih _ h

theorem internAll_list (l : List Bytes) : (t.internAll l).list.length ≤ t.list.length + l.length ∧
    ∀ u ∈ (t.internAll l).list, u ∈ t.list ∨ u ∈ l := by
  induction l generalizing t with
  | nil => exact ⟨Nat.le_refl _, fun u hu => .inl hu⟩
  | cons s l ih =>
    obtain ⟨hlen, hmem⟩ := ih (t.intern s).1
    have hlist := intern_list t s
    have hstep : (t.intern s).1.list.length ≤ t.list.length + 1 ∧
        ∀ u ∈ (t.intern s).1.list, u ∈ t.list ∨ u = s := by
      rcases hlist with he | he
      · rw [he]
        exact ⟨Nat.le_succ _, fun u hu => .inl hu⟩
      · rw [he, List.length_append]
        exact ⟨Nat.le_refl _, fun u hu => by simpa using hu⟩
    refine ⟨?_, fun u hu => ?_⟩
    · have : (t.internAll (s :: l)).list.length ≤ (t.intern s).1.list.length + l.length := hlen
      rw [List.length_cons]
      omega
    · rcases hmem u hu with h | h
      · rcases hstep.2 u h with h | rfl
        · exact .inl h
        · exact .inr List.mem_cons_self
      · exact .inr (List.mem_cons_of_mem _ h)

/-- The position of a string. -/
def indexOf : Nat := (t.index.find? s).getD 0

variable {t s} in
theorem indexOf_eq {i : Nat} (h : t.index.find? s = some i) : t.indexOf s = i := by
  rw [indexOf, h]
  rfl

end StrTable

/-! ## The converted table -/

/-- The strings of all rows. -/
def table (rows : List Row) : StrTable :=
  StrTable.empty.internAll (rows.map fun r => entry r.fields)

/-- The records of all rows, with positions in `t`. -/
def records (t : StrTable) (rows : List Row) : Bytes :=
  rows.flatMap fun r => record r.first r.last (t.indexOf (entry r.fields))

theorem emitProxy_fields (r : Row) (t : StrTable) : emitProxy r.fields t =
    some (record r.first r.last (t.intern (entry r.fields)).2, (t.intern (entry r.fields)).1) := by
  have h₀ : r.fields.getD 0 [] = digits r.first.toNat := rfl
  have h₁ : r.fields.getD 1 [] = digits r.last.toNat := rfl
  rw [emitProxy, h₀, h₁, parseInt_digits, parseInt_digits]
  show some (record (.ofNat r.first.toNat) (.ofNat r.last.toNat) _, _) = _
  rw [UInt32.ofNat_toNat, UInt32.ofNat_toNat]
  rfl

theorem convert_lines {rows : List Row} (h : ∀ r ∈ rows, r.Plain ∧ r.Apart) (bb : Bytes)
    (t : StrTable) : (rows.map Row.line).foldlM (fun out line =>
      let f := splitCsv line
      if f.length < 2 then some out
      else (emitProxy f out.2).map fun row => (out.1 ++ row.1, row.2)) (bb, t) =
    some (bb ++ records (t.internAll (rows.map fun r => entry r.fields)) rows,
      t.internAll (rows.map fun r => entry r.fields)) := by
  induction rows generalizing bb t with
  | nil => rw [records, List.flatMap_nil, List.append_nil]; rfl
  | cons r rows ih =>
    obtain ⟨⟨hplain, hapart⟩, hrows⟩ := List.forall_mem_cons.1 h
    have hlen : ¬ r.fields.length < 2 := by
      rw [Row.fields, List.length_cons, List.length_cons]
      omega
    have hindex := StrTable.indexOf_eq (StrTable.internAll_keeps
      (l := rows.map fun r => entry r.fields) (StrTable.intern_self t (entry r.fields)))
    rw [List.map_cons, List.foldlM_cons]
    simp only [splitCsv_line hplain hapart, if_neg hlen, emitProxy_fields, Option.map_some,
      Option.bind_eq_bind, Option.bind_some]
    rw [ih hrows, List.append_assoc]
    have hrecords : ∀ u : StrTable, records u (r :: rows) =
        record r.first r.last (u.indexOf (entry r.fields)) ++ records u rows := fun u =>
      List.flatMap_cons
    rw [List.map_cons, hrecords]
    show _ = some (bb ++ (record r.first r.last (StrTable.indexOf (StrTable.internAll
      (t.intern (entry r.fields)).1 (rows.map fun r => entry r.fields)) (entry r.fields)) ++ _), _)
    rw [hindex]
    rfl

/-- A record for every row, and the table of their texts. -/
theorem convert_csv (crlf : Bool) {rows : List Row} (h : ∀ r ∈ rows, r.Plain ∧ r.Apart) :
    convert emitProxy (csv crlf rows) = some (records (table rows) rows, table rows) := by
  rw [convert, lines_csv crlf fun r hr => (h r hr).1]
  exact convert_lines h [] .empty

end Wirewolf.L1.ProxyFile
