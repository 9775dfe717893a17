import Mathlib.Data.List.Perm.Subperm
import Wirewolf.Core.Numeral
import Wirewolf.Core.Text
import Wirewolf.L1Encoding.Normalizer
import Wirewolf.L3Table.Markov

/-!
# The file of a Markov model (`behavioral_model.cpp`)

`serialize` writes a line for each field and one for each row of transitions;
`load` reads lines, and inside a line it extracts from a stream, which skips
blanks. The totals are not in the file: `load` counts them along. Its result
is `none` when `std::stol` throws.

* `load_of_coherent`: a model whose derived fields are right comes back, with
  its fingerprint, if its characters are neither blanks nor colons.
* `encodeConnection_plain`: the encoder writes such characters.
* `load_serialize`: so a trained model comes back.
-/
namespace Wirewolf.L3.MarkovFile

open Wirewolf.Double (nearest)
open Wirewolf.Numeral (value printInt readInt splitSign printRat readRat)
open Wirewolf.L3.Markov Wirewolf.L3.FlowRecord
open Wirewolf.Text (word words)

/-! ## The writer -/

def cell (e : UInt8 × Int) : Bytes := e.1 :: 0x3A :: printInt e.2

/-- mirrors src/src/behavioral_model.cpp:122-126 -/
def rowLine (row : UInt8 × Row) : Bytes :=
  row.1 :: 0x20 :: (digits row.2.size ++ (row.2.entries.map cell).flatMap (0x20 :: ·))

def fileLines (m : MarkovModel) (cfgFp : Bytes) : List Bytes :=
  [lit "WIREWOLF-BEHAVIORAL-MODEL v1",
   lit "label " ++ m.label,
   lit "k " ++ printRat m.k,
   lit "config " ++ cfgFp,
   lit "alphabet " ++ m.alphabet.keys,
   lit "transitions " ++ digits m.counts.size] ++ m.counts.entries.map rowLine

/-- mirrors src/src/behavioral_model.cpp:113-127 -/
def serialize (m : MarkovModel) (cfgFp : Bytes) : Bytes := (fileLines m cfgFp).flatMap (· ++ [0x0A])

/-- The configuration's `markov_k` and `min_flows` are arguments.
mirrors src/src/behavioral_model.cpp:20-30 -/
def fingerprint (cfg : BehavioralConfig) (markovK : Rat) (minFlows : Nat) : Bytes :=
  lit "bytes:" ++ cfg.byteBuckets.flatMap (digits · ++ lit ",") ++
    (lit "|dur:" ++ cfg.durBuckets.flatMap (printRat · ++ lit ",") ++
    (lit "|gap:" ++ cfg.gapBuckets.flatMap (printRat · ++ lit ",") ++
    (lit "|k:" ++ printRat markovK ++ (lit "|min:" ++ digits minFlows))))

/-! ## The reader -/

/-- `>>` to a `size_t`: its new value, and what is left in the stream unless
the extraction failed. -/
def extractSize (s : Bytes) : Nat × Option Bytes :=
  let t := splitSign (s.dropWhile isSpace)
  let d := t.2.takeWhile isDigit
  if d = [] then (0, none)
  else if 2 ^ 64 ≤ value d then (2 ^ 64 - 1, none)
  else (if t.1 then (2 ^ 64 - value d) % 2 ^ 64 else value d, some (t.2.dropWhile isDigit))

/-- mirrors src/src/behavioral_model.cpp:166-170 -/
def assign (m : MarkovModel) (src dst : UInt8) (c : Int) : MarkovModel :=
  { m with
    counts := m.counts.alter src fun row => (row.getD .empty).alter dst fun _ => c
    rowTotals := m.rowTotals.alter src fun t => t.getD 0 + c
    total := m.total + c
    alphabet := (m.alphabet.alter src fun _ => true).alter dst fun _ => true }

/-- mirrors src/src/behavioral_model.cpp:162-170 -/
def readCell (src : UInt8) (m : MarkovModel) (tok : Bytes) : Option MarkovModel :=
  match tok, tok.dropWhile (· ≠ 0x3A) with
  | dst :: _, _ :: s => (readInt s).map (assign m src dst)
  | _, _ => some m

/-- mirrors src/src/behavioral_model.cpp:156-171 -/
def readRow (m : MarkovModel) (line : Bytes) : Option MarkovModel :=
  match line.dropWhile isSpace with
  | [] => some m
  | src :: s =>
    match (extractSize s).2 with
    | none => some m
    | some s => (words isSpace s).foldlM (readCell src) m

/-- `rows` lines of the transitions are still to come. -/
structure Loader where
  model : MarkovModel := {}
  cfgFp : Bytes := []
  rows : Nat := 0

/-- mirrors src/src/behavioral_model.cpp:138-153 -/
def readField (l : Loader) (key s : Bytes) : Loader :=
  let w := (word isSpace s).1
  if key = lit "label" then
    if w = [] then l else { l with model := { l.model with label := w } }
  else if key = lit "k" then
    if w = [] then l else { l with model := { l.model with k := nearest ((readRat w).getD 0) } }
  else if key = lit "config" then
    { l with cfgFp := if s.head? = some 0x20 then s.drop 1 else s }
  else if key = lit "alphabet" then { l with model := w.foldl MarkovModel.mark l.model }
  else if key = lit "transitions" then { l with rows := (extractSize s).1 }
  else l

/-- mirrors src/src/behavioral_model.cpp:133-174 -/
def readLine (l : Loader) (line : Bytes) : Option Loader :=
  if 0 < l.rows then (readRow l.model line).map fun m => { l with model := m, rows := l.rows - 1 }
  else if line = [] then some l
  else some (readField l (word isSpace line).1 (word isSpace line).2)

/-- mirrors src/src/behavioral_model.cpp:129-176 -/
def load (file : Bytes) : Option (MarkovModel × Bytes) :=
  (((Text.segments 0x0A file).drop 1).foldlM readLine {}).map fun l => (l.model, l.cfgFp)

/-! ## Characters -/

/-- Neither a blank nor a colon. -/
def Plain (c : UInt8) : Prop := isSpace c = false ∧ c ≠ 0x3A

/-- No blank. -/
def Visible (c : UInt8) : Prop := isSpace c = false

/-- No colon as the target of a transition. -/
def NoColon (m : MarkovModel) : Prop := ∀ row ∈ m.counts.entries, ∀ e ∈ row.2.entries, e.1 ≠ 0x3A

instance : DecidablePred Plain := fun _ => inferInstanceAs (Decidable (_ ∧ _))

theorem isSpace_of_glyph {c : UInt8} (h : Numeral.isGlyph c = true) : isSpace c = false := by
  cases hspace : isSpace c with
  | false => rfl
  | true =>
    simp only [isSpace, Bool.or_eq_true, decide_eq_true_eq] at hspace
    rcases hspace with ((((rfl | rfl) | rfl) | rfl) | rfl) | rfl <;> exact absurd h (by decide)

theorem not_space_of_all {s : Bytes} (h : s.all (!isSpace ·) = true) : ∀ c ∈ s, isSpace c = false :=
  fun c hc => by simpa using List.all_eq_true.1 h c hc

theorem not_digit_of_space {c : UInt8} (h : isSpace c = true) : isDigit c = false :=
  Bool.eq_false_iff.2 fun hdigit => Bool.false_ne_true ((isSpace_of_isDigit hdigit).symm.trans h)

theorem mem_symbol (cfg : BehavioralConfig) (prevStart : Option Rat) (f : Behavior.Flow) :
    symbol cfg prevStart f ∈ symbols := by
  have hlt : ∀ n, min n (symbols.length - 1) < symbols.length := fun n =>
    lt_of_le_of_lt (Nat.min_le_right ..) (by decide)
  unfold symbol
  dsimp only
  rw [List.getD_eq_getElem?_getD, List.getElem?_eq_getElem (hlt _), Option.getD_some]
  exact List.getElem_mem _

/-- The encoder writes letters up to `o` and the seven symbols. -/
theorem encodeConnection_plain (flows : List Behavior.Flow) :
    ∀ c ∈ encodeConnection flows {}, Plain c := by
  have hletter : ∀ f, Plain (letter {} f) := by
    intro f
    have hbytes : bucketOf f.totBytes ({} : BehavioralConfig).byteBuckets ≤ 4 :=
      List.findIdx_le_length
    have hdur : bucketOf f.duration ({} : BehavioralConfig).durBuckets ≤ 2 := List.findIdx_le_length
    have hall : ∀ b ≤ 4, ∀ d ≤ 2, Plain (UInt8.ofNat (0x61 + (b * (2 + 1) + d))) := by decide
    exact hall _ hbytes _ hdur
  have hsymbol : ∀ c ∈ symbols, Plain c := by
    have hall : symbols.all (fun c => decide (Plain c)) = true := by decide
    exact fun c hc => of_decide_eq_true (List.all_eq_true.1 hall c hc)
  have hrun : ∀ (l : List Behavior.Flow) (prev : Option Rat), ∀ c ∈ encodeFlows {} prev l,
      Plain c := by
    intro l
    induction l with
    | nil => exact nofun
    | cons f l ih =>
      intro prev
      exact List.forall_mem_cons.2 ⟨hletter f,
        List.forall_mem_cons.2 ⟨hsymbol _ (mem_symbol {} prev f), ih _⟩⟩
  unfold encodeConnection
  split
  · exact nofun
  · exact hrun _ none

/-! ## Reading a row -/

theorem extractSize_digits {n : Nat} (hn : n < 2 ^ 64) {s : Bytes}
    (hs : ∀ c, s.head? = some c → isSpace c = true) :
    extractSize (0x20 :: (digits n ++ s)) = (n, some s) := by
  have hdigit : ∀ c ∈ digits n, isDigit c = true := Numeral.digits_isDigit
  have hne := Numeral.digits_ne_nil n
  obtain ⟨htake, hdrop⟩ := Text.span_append hdigit fun c hc => not_digit_of_space (hs c hc)
  have hstart : (0x20 :: (digits n ++ s)).dropWhile isSpace = digits n ++ s := by
    rw [List.dropWhile_cons_of_pos (by decide)]
    obtain ⟨c, d, hcd⟩ := List.exists_cons_of_ne_nil hne
    have hc := isSpace_of_glyph (Numeral.isGlyph_of_digit (hdigit c (hcd ▸ List.mem_cons_self)))
    rw [hcd, List.cons_append, List.dropWhile_cons_of_neg (by rw [hc]; exact Bool.false_ne_true)]
  rw [extractSize, hstart, Numeral.splitSign_digit hdigit hne]
  dsimp only
  rw [htake, hdrop, if_neg hne, Numeral.value_digits, if_neg (Nat.not_le.2 hn),
    if_neg Bool.false_ne_true]

theorem readCell_cell {e : UInt8 × Int} (he : Plain e.1) (src : UInt8) (m : MarkovModel) :
    readCell src m (cell e) = some (assign m src e.1 e.2) := by
  have hdrop : (cell e).dropWhile (· ≠ 0x3A) = 0x3A :: printInt e.2 := by
    rw [cell, List.dropWhile_cons_of_pos (by simpa using he.2),
      List.dropWhile_cons_of_neg (by decide)]
  have hread := Numeral.readInt_printInt e.2 (t := []) nofun
  rw [List.append_nil] at hread
  unfold readCell
  rw [hdrop, cell]
  dsimp only
  rw [hread, Option.map_some]

/-- The assignments of a row, from left to right. -/
def assignRow (m : MarkovModel) (src : UInt8) (cells : List (UInt8 × Int)) : MarkovModel :=
  cells.foldl (fun m e => assign m src e.1 e.2) m

/-- A row is read cell by cell. -/
theorem readRow_cells {row : UInt8 × Row} (hsrc : isSpace row.1 = false)
    (hsize : row.2.size < 2 ^ 64)
    (hcells : ∀ e ∈ row.2.entries, isSpace e.1 = false) (m : MarkovModel) :
    readRow m (rowLine row) = (row.2.entries.map cell).foldlM (readCell row.1) m := by
  have hblank : isSpace 0x20 = true := by decide
  have hstart : (rowLine row).dropWhile isSpace = rowLine row :=
    List.dropWhile_cons_of_neg (by rw [hsrc]; exact Bool.false_ne_true)
  have hsize := extractSize_digits hsize (s := (row.2.entries.map cell).flatMap (0x20 :: ·)) (by
    cases row.2.entries with
    | nil => exact nofun
    | cons e l => exact fun c hc => by cases hc; exact hblank)
  have hwords : words isSpace ((row.2.entries.map cell).flatMap (0x20 :: ·)) =
      row.2.entries.map cell := by
    refine Text.words_flatMap hblank (List.forall_mem_map.2 fun e he => ⟨List.cons_ne_nil _ _, ?_⟩)
    exact List.forall_mem_cons.2 ⟨hcells e he, List.forall_mem_cons.2 ⟨by decide,
      fun c hc => isSpace_of_glyph (Numeral.printInt_glyph e.2 c hc)⟩⟩
  rw [readRow, hstart, rowLine]
  dsimp only
  rw [hsize]
  dsimp only
  rw [hwords]

theorem readRow_rowLine {row : UInt8 × Row} (hsrc : isSpace row.1 = false)
    (hsize : row.2.size < 2 ^ 64)
    (hcells : ∀ e ∈ row.2.entries, Plain e.1) (m : MarkovModel) :
    readRow m (rowLine row) = some (assignRow m row.1 row.2.entries) := by
  have hfold : ∀ (l : List (UInt8 × Int)), (∀ e ∈ l, Plain e.1) → ∀ m : MarkovModel,
      (l.map cell).foldlM (readCell row.1) m = some (assignRow m row.1 l) := by
    intro l
    induction l with
    | nil => exact fun _ _ => rfl
    | cons e l ih =>
      intro h m
      obtain ⟨he, hl⟩ := List.forall_mem_cons.1 h
      rw [List.map_cons, List.foldlM_cons, readCell_cell he]
      exact ih hl _
  rw [readRow_cells hsrc hsize (fun e he => (hcells e he).1), hfold _ hcells]

/-- A colon as the target makes `std::stol` throw. -/
theorem readCell_colon {e : UInt8 × Int} (he : e.1 = 0x3A) (src : UInt8) (m : MarkovModel) :
    readCell src m (cell e) = none := by
  have hdrop : (cell e).dropWhile (· ≠ 0x3A) = 0x3A :: 0x3A :: printInt e.2 := by
    rw [cell, he, List.dropWhile_cons_of_neg (by decide)]
  have hread : readInt (0x3A :: printInt e.2) = none := by
    have hsign : splitSign (0x3A :: printInt e.2) = (false, 0x3A :: printInt e.2) := rfl
    rw [readInt, hsign]
    dsimp only
    rw [List.takeWhile_cons_of_neg (by decide), if_pos rfl]
  unfold readCell
  rw [hdrop, cell]
  dsimp only
  rw [hread, Option.map_none]

theorem foldlM_none {α β : Type} {f : β → α → Option β} {l : List α} {a : α} (ha : a ∈ l)
    (hf : ∀ b, f b a = none) (b : β) : l.foldlM f b = none := by
  induction l generalizing b with
  | nil => cases ha
  | cons x l ih =>
    rw [List.foldlM_cons]
    rcases List.mem_cons.1 ha with rfl | ha
    · rw [hf]; rfl
    · cases f b x with
      | none => rfl
      | some b' => exact ih ha b'

/-! ## Rebuilding the counts -/

/-- There are only 256 keys. -/
theorem size_le {α : Type} (m : OrdMap UInt8 α) : m.size ≤ 256 := by
  have hnodup : (m.entries.map fun e => e.1.toNat).Nodup := by
    rw [List.Nodup, List.pairwise_map]
    exact m.sorted.imp fun h => Nat.ne_of_lt (UInt8.lt_iff_toNat_lt.1 h)
  have hsub : (m.entries.map fun e => e.1.toNat) ⊆ List.range 256 := fun n hn => by
    obtain ⟨e, -, rfl⟩ := List.mem_map.1 hn
    exact List.mem_range.2 (UInt8.toNat_lt e.1)
  have hle := (List.subperm_of_subset hnodup hsub).length_le
  rwa [List.length_map, List.length_range] at hle

theorem rowSum_push {r r' : Row} {e : UInt8 × Int} (h : r'.entries = r.entries ++ [e]) :
    rowSum r' = rowSum r + e.2 := by
  rw [rowSum, rowSum, h]
  simp

section Rebuilding

variable {m : MarkovModel}

theorem assign_withCounts {c : OrdMap UInt8 Row} {src : UInt8} {e : UInt8 × Int}
    (hsrc : Marked m src) (hdst : Marked m e.1)
    (hnew : (((c.find? src).getD .empty).alter e.1 fun _ => e.2).entries =
      ((c.find? src).getD .empty).entries ++ [e]) :
    assign (m.withCounts c) src e.1 e.2 =
      m.withCounts (c.alter src fun row => (row.getD .empty).alter e.1 fun _ => e.2) := by
  have hmark : (m.alphabet.alter src fun _ => true).alter e.1 (fun _ => true) = m.alphabet := by
    rw [OrdMap.alter_self hsrc rfl, OrdMap.alter_self hdst rfl]
  have hadd := withCounts_alter m (fun row => (row.getD .empty).alter e.1 fun _ => e.2)
    (rowSum_push hnew)
  calc assign (m.withCounts c) src e.1 e.2
      = { m with
          counts := c.alter src fun row => (row.getD .empty).alter e.1 fun _ => e.2
          rowTotals := (m.withCounts c).rowTotals.alter src fun t => t.getD 0 + e.2
          total := (m.withCounts c).total + e.2
          alphabet := (m.alphabet.alter src fun _ => true).alter e.1 fun _ => true } := rfl
    _ = _ := by rw [hadd, hmark]

/-- The cells of the last row. -/
theorem assignRow_last {base : List (UInt8 × Row)} {src : UInt8} (hsrc : Marked m src)
    (cells : List (UInt8 × Int)) : ∀ {c : OrdMap UInt8 Row} {r : Row},
      c.entries = base ++ [(src, r)] → (r.entries ++ cells).Pairwise (fun a b => a.1 < b.1) →
      (∀ e ∈ cells, Marked m e.1) →
      ∃ (c' : OrdMap UInt8 Row) (r' : Row), assignRow (m.withCounts c) src cells = m.withCounts c' ∧
        c'.entries = base ++ [(src, r')] ∧ r'.entries = r.entries ++ cells := by
  induction cells with
  | nil => exact fun {c r} hc _ _ => ⟨c, r, rfl, hc, (List.append_nil _).symm⟩
  | cons e cells ih =>
    intro c r hc hsorted hmarks
    obtain ⟨hdst, hmarks⟩ := List.forall_mem_cons.1 hmarks
    have hfind : c.find? src = some r := OrdMap.find?_of_mem hc
    have hbehind : ∀ x ∈ r.entries, x.1 < e.1 := fun x hx =>
      (List.pairwise_append.1 hsorted).2.2 x hx e List.mem_cons_self
    have hnew : (r.alter e.1 fun _ => e.2).entries = r.entries ++ [e] :=
      OrdMap.alter_new (fun _ => e.2) hbehind
    have hstep := assign_withCounts (c := c) hsrc hdst (by rw [hfind]; exact hnew)
    have hc' := OrdMap.alter_last (fun row => (row.getD .empty).alter e.1 fun _ => e.2) hc
    obtain ⟨c', r', hrun, hentries, hrow⟩ := ih hc'
      (by rw [Option.getD_some, hnew, List.append_assoc]; exact hsorted) hmarks
    refine ⟨c', r', ?_, hentries, ?_⟩
    · rw [← hrun, ← hstep]
      rfl
    · rw [hrow, Option.getD_some, hnew, List.append_assoc]
      rfl

/-- What one line of the table must be for its row to come back. -/
structure Readable (m : MarkovModel) (row : UInt8 × Row) : Prop where
  source : isSpace row.1 = false ∧ Marked m row.1
  nonempty : row.2.entries ≠ []
  cells : ∀ e ∈ row.2.entries, Plain e.1 ∧ Marked m e.1

theorem assignRow_new {c : OrdMap UInt8 Row} {row : UInt8 × Row} (hrow : Readable m row)
    (hbehind : ∀ e ∈ c.entries, e.1 < row.1) :
    ∃ c' : OrdMap UInt8 Row, assignRow (m.withCounts c) row.1 row.2.entries = m.withCounts c' ∧
      c'.entries = c.entries ++ [row] := by
  obtain ⟨e, cells, hcells⟩ := List.exists_cons_of_ne_nil hrow.nonempty
  obtain ⟨he, hmarks⟩ := List.forall_mem_cons.1 (hcells ▸ fun x hx => (hrow.cells x hx).2 :
    ∀ x ∈ e :: cells, Marked m x.1)
  have hfind := OrdMap.find?_new hbehind
  have hnew : ((OrdMap.empty : Row).alter e.1 fun _ => e.2).entries = [e] := rfl
  have hstep := assign_withCounts (c := c) hrow.source.2 he (by rw [hfind]; exact hnew)
  have hc' := OrdMap.alter_new (fun row => (row.getD .empty).alter e.1 fun _ => e.2) hbehind
  have hsorted := row.2.sorted
  rw [hcells] at hsorted
  obtain ⟨c', r', hrun, hentries, hr'⟩ := assignRow_last hrow.source.2 cells hc' hsorted hmarks
  have hsame : r' = row.2 := OrdMap.ext_entries (by rw [hr', hcells]; rfl)
  refine ⟨c', ?_, by rw [hentries, hsame]⟩
  rw [← hrun, ← hstep, hcells]
  rfl

/-- The table of transitions, line by line. -/
theorem foldlM_rows (fp : Bytes) (rows : List (UInt8 × Row)) : ∀ {c : OrdMap UInt8 Row},
    (c.entries ++ rows).Pairwise (fun a b => a.1 < b.1) → (∀ row ∈ rows, Readable m row) →
    ∃ c' : OrdMap UInt8 Row,
      (rows.map rowLine).foldlM readLine ⟨m.withCounts c, fp, rows.length⟩ =
        some ⟨m.withCounts c', fp, 0⟩ ∧ c'.entries = c.entries ++ rows := by
  induction rows with
  | nil => exact fun {c} _ _ => ⟨c, rfl, (List.append_nil _).symm⟩
  | cons row rows ih =>
    intro c hsorted hrows
    obtain ⟨hrow, hrows⟩ := List.forall_mem_cons.1 hrows
    have hbehind : ∀ e ∈ c.entries, e.1 < row.1 := fun e he =>
      (List.pairwise_append.1 hsorted).2.2 e he row List.mem_cons_self
    obtain ⟨c₁, hassign, hentries⟩ := assignRow_new hrow hbehind
    have hline : readLine ⟨m.withCounts c, fp, (row :: rows).length⟩ (rowLine row) =
        some ⟨m.withCounts c₁, fp, rows.length⟩ := by
      have hsize := size_le row.2
      have hread := readRow_rowLine hrow.source.1 (by omega) (fun e he => (hrow.cells e he).1)
        (m.withCounts c)
      have hpos : 0 < (row :: rows).length := Nat.succ_pos _
      unfold readLine
      dsimp only
      rw [if_pos hpos, hread, hassign]
      rfl
    obtain ⟨c', hrest, hentries'⟩ := ih (by rw [hentries, List.append_assoc]; exact hsorted) hrows
    refine ⟨c', ?_, by rw [hentries', hentries, List.append_assoc]; rfl⟩
    rw [List.map_cons, List.foldlM_cons, hline]
    exact hrest

end Rebuilding

/-! ## The fields before the table -/

theorem foldl_mark (l : List (UInt8 × Bool)) : ∀ {m : MarkovModel},
    (m.alphabet.entries ++ l).Pairwise (fun a b => a.1 < b.1) → (∀ e ∈ l, e.2 = true) →
    ∃ a : OrdMap UInt8 Bool, (l.map Prod.fst).foldl MarkovModel.mark m = { m with alphabet := a } ∧
      a.entries = m.alphabet.entries ++ l := by
  induction l with
  | nil => exact fun {m} _ _ => ⟨m.alphabet, rfl, (List.append_nil _).symm⟩
  | cons e l ih =>
    intro m hsorted htrue
    obtain ⟨he, htrue⟩ := List.forall_mem_cons.1 htrue
    have hbehind : ∀ x ∈ m.alphabet.entries, x.1 < e.1 := fun x hx =>
      (List.pairwise_append.1 hsorted).2.2 x hx e List.mem_cons_self
    have hmark : (m.mark e.1).alphabet.entries = m.alphabet.entries ++ [e] := by
      have hpair : e = (e.1, true) := by rw [← he]
      rw [hpair]
      exact OrdMap.alter_new (fun _ => true) hbehind
    obtain ⟨a, hrun, ha⟩ := ih (by rw [hmark, List.append_assoc]; exact hsorted) htrue
    refine ⟨a, hrun, ?_⟩
    rw [ha, hmark, List.append_assoc]
    rfl

theorem readLine_field {l l' : Loader} {name s : Bytes} (key : Bytes) (hrows : l.rows = 0)
    (hname : name = key ++ [0x20]) (hkey : key ≠ [] ∧ key.all (!isSpace ·) = true)
    (h : readField l key (0x20 :: s) = l') : readLine l (name ++ s) = some l' := by
  have hword : word isSpace (name ++ s) = (key, 0x20 :: s) := by
    rw [hname, List.append_assoc]
    exact Text.word_append (not_space_of_all hkey.2) hkey.1 fun c hc => by cases hc; decide
  have hne : name ++ s ≠ [] := by
    rw [hname]
    simp
  rw [readLine, if_neg (by omega), if_neg hne, hword, h]

theorem readField_word {w : Bytes} (hw : ∀ c ∈ w, isSpace c = false) :
    (word isSpace (0x20 :: w)).1 = w := by
  rw [Text.word_blank (by decide), Text.word_self hw]

section Fields

variable {l : Loader} {w : Bytes}

theorem readField_label (hl : l.model.label = []) :
    readField l (lit "label") (0x20 :: w) =
      { l with model := { l.model with label := (word isSpace (0x20 :: w)).1 } } := by
  unfold readField
  rw [if_pos rfl]
  split
  · next hnil => rw [hnil, ← hl]
  · rfl

/-- What `k` becomes when it is read from `w`. -/
def readK (k : Rat) (w : Bytes) : Rat := if w = [] then k else nearest ((readRat w).getD 0)

theorem readField_k (hw : ∀ c ∈ w, isSpace c = false) :
    readField l (lit "k") (0x20 :: w) =
      { l with model := { l.model with k := readK l.model.k w } } := by
  unfold readField readK
  rw [readField_word hw, if_neg (by decide), if_pos rfl]
  split
  · rfl
  · rfl

theorem readField_config : readField l (lit "config") (0x20 :: w) = { l with cfgFp := w } := by
  unfold readField
  dsimp only
  rw [if_neg (by decide), if_neg (by decide), if_pos rfl, if_pos List.head?_cons]
  rfl

theorem readField_alphabet (hw : ∀ c ∈ w, isSpace c = false) :
    readField l (lit "alphabet") (0x20 :: w) =
      { l with model := w.foldl MarkovModel.mark l.model } := by
  unfold readField
  rw [readField_word hw, if_neg (by decide), if_neg (by decide), if_neg (by decide), if_pos rfl]

theorem readField_transitions {n : Nat} (hn : n < 2 ^ 64) :
    readField l (lit "transitions") (0x20 :: digits n) = { l with rows := n } := by
  have hsize := extractSize_digits hn (s := []) nofun
  rw [List.append_nil] at hsize
  unfold readField
  dsimp only
  rw [if_neg (by decide), if_neg (by decide), if_neg (by decide), if_neg (by decide),
    if_pos rfl, hsize]

end Fields

/-! ## The file -/

theorem ne_newline {c : UInt8} (h : isSpace c = false) : (0x0A : UInt8) ≠ c := fun hc => by
  rw [← hc] at h
  exact absurd h (by decide)

theorem single_append {s t : Bytes} (hs : (0x0A : UInt8) ∉ s) (ht : (0x0A : UInt8) ∉ t) :
    (0x0A : UInt8) ∉ s ++ t := fun hc => (List.mem_append.1 hc).elim hs ht

theorem single_of_visible {s : Bytes} (hs : ∀ c ∈ s, isSpace c = false) : (0x0A : UInt8) ∉ s :=
  fun hc => ne_newline (hs _ hc) rfl

theorem single_of_glyphs {s : Bytes} (hs : ∀ c ∈ s, Numeral.isGlyph c = true) :
    (0x0A : UInt8) ∉ s :=
  fun hc => ne_newline (isSpace_of_glyph (hs _ hc)) rfl

theorem digits_single (n : Nat) : (0x0A : UInt8) ∉ digits n := single_of_glyphs fun c hc =>
  Numeral.isGlyph_of_digit (Numeral.digits_isDigit c hc)

/-- A fingerprint is a single line. -/
theorem fingerprint_single (cfg : BehavioralConfig) (markovK : Rat) (minFlows : Nat) :
    (0x0A : UInt8) ∉ fingerprint cfg markovK minFlows := by
  have hlist : ∀ {α : Type} {print : α → Bytes} (l : List α), (∀ a, (0x0A : UInt8) ∉ print a) →
      (0x0A : UInt8) ∉ l.flatMap (print · ++ lit ",") := by
    intro α print l h hc
    obtain ⟨a, -, hc⟩ := List.mem_flatMap.1 hc
    exact single_append (h a) (by decide) hc
  have hrat : ∀ q, (0x0A : UInt8) ∉ printRat q :=
    fun q => single_of_glyphs (Numeral.printRat_glyph q)
  refine single_append (single_append (by decide) (hlist _ digits_single)) (single_append
    (single_append (by decide) (hlist _ hrat))
    (single_append (single_append (by decide) (hlist _ hrat))
    (single_append (single_append (by decide) (hrat _))
    (single_append (by decide) (digits_single _)))))

section File

variable {m : MarkovModel} {fp : Bytes}

theorem visible_of_marked (h : Coherent Visible m) {c : UInt8} (hc : Marked m c) : Visible c :=
  (h.alphabet _ (OrdMap.mem_of_find? hc)).1

theorem readable_of_coherent (h : Coherent Visible m) (hcolon : NoColon m) :
    ∀ row ∈ m.counts.entries, Readable m row := by
  intro row hrow
  obtain ⟨hsrc, hne, hcells⟩ := h.rows row hrow
  exact ⟨⟨visible_of_marked h hsrc, hsrc⟩, hne, fun e he =>
    ⟨⟨visible_of_marked h (hcells e he), hcolon row hrow e he⟩, hcells e he⟩⟩

theorem keys_visible (h : Coherent Visible m) : ∀ c ∈ m.alphabet.keys, isSpace c = false :=
  List.forall_mem_map.2 fun e he => (h.alphabet e he).1

/-- Every field is on one line. -/
theorem fileLines_single (h : Coherent Visible m) (hlabel : (0x0A : UInt8) ∉ m.label)
    (hfp : (0x0A : UInt8) ∉ fp) : ∀ line ∈ fileLines m fp, (0x0A : UInt8) ∉ line := by
  have hrow : ∀ row ∈ m.counts.entries, (0x0A : UInt8) ∉ rowLine row := by
    intro row hrow hc
    obtain ⟨hsrc, -, hcells⟩ := h.rows row hrow
    rcases List.mem_cons.1 hc with hc | hc
    · exact ne_newline (visible_of_marked h hsrc) hc
    rcases List.mem_cons.1 hc with hc | hc
    · exact absurd hc (by decide)
    rcases List.mem_append.1 hc with hc | hc
    · exact digits_single _ hc
    obtain ⟨w, hw, hc⟩ := List.mem_flatMap.1 hc
    obtain ⟨e, he, rfl⟩ := List.mem_map.1 hw
    rcases List.mem_cons.1 hc with hc | hc
    · exact absurd hc (by decide)
    rcases List.mem_cons.1 hc with hc | hc
    · exact ne_newline (visible_of_marked h (hcells e he)) hc
    rcases List.mem_cons.1 hc with hc | hc
    · exact absurd hc (by decide)
    · exact single_of_glyphs (Numeral.printInt_glyph e.2) hc
  refine List.forall_mem_append.2 ⟨?_, List.forall_mem_map.2 hrow⟩
  simp only [List.forall_mem_cons]
  exact ⟨by decide, single_append (by decide) hlabel,
    single_append (by decide) (single_of_glyphs (Numeral.printRat_glyph m.k)),
    single_append (by decide) hfp, single_append (by decide) (single_of_visible (keys_visible h)),
    single_append (by decide) (digits_single _), nofun⟩

theorem readK_exact {k : Rat} (hk : Numeral.PrintsExactly k) (old : Rat) :
    readK old (printRat k) = k := by
  obtain ⟨q, hsix, hprint, hdouble⟩ := hk
  have hread : readRat (printRat k) = some q := by rw [hprint, Numeral.readRat_printRat hsix]
  have hne : printRat k ≠ [] := fun hnil => by
    have hnone : readRat [] = none := by decide
    rw [hnil, hnone] at hread
    cases hread
  rw [readK, if_neg hne, hread]
  exact hdouble

/-- The label up to a blank, and what is read of the printed `k`. -/
def reloaded (m : MarkovModel) : MarkovModel :=
  { m with label := (word isSpace (0x20 :: m.label)).1, k := readK (1 / 2) (printRat m.k) }

theorem reloaded_coherent {p : UInt8 → Prop} (h : Coherent p m) : Coherent p (reloaded m) where
  derived := by
    have hderived := h.derived
    rw [MarkovModel.mk.injEq] at hderived
    obtain ⟨-, -, -, htotals, -, htotal⟩ := hderived
    rw [MarkovModel.withCounts, MarkovModel.mk.injEq]
    exact ⟨rfl, rfl, rfl, htotals, rfl, htotal⟩
  rows := h.rows
  alphabet := h.alphabet

/-- The lines before the table give everything but the counts. -/
theorem foldlM_fields (h : Coherent Visible m) (lines : List Bytes) :
    ([lit "label " ++ m.label, lit "k " ++ printRat m.k, lit "config " ++ fp,
      lit "alphabet " ++ m.alphabet.keys, lit "transitions " ++ digits m.counts.size] ++
        lines).foldlM readLine {} =
      lines.foldlM readLine ⟨(reloaded m).withCounts .empty, fp, m.counts.size⟩ := by
  have hglyph : ∀ c ∈ printRat m.k, isSpace c = false := fun c hc =>
    isSpace_of_glyph (Numeral.printRat_glyph m.k c hc)
  have hsize := size_le m.counts
  obtain ⟨a, hmarks, ha⟩ := foldl_mark m.alphabet.entries
    (m := { label := (reloaded m).label, k := (reloaded m).k }) m.alphabet.sorted
    fun e he => (h.alphabet e he).2
  have halphabet : a = m.alphabet := OrdMap.ext_entries ha
  rw [halphabet] at hmarks
  have hlabelLine : readLine {} (lit "label " ++ m.label) =
      some ⟨{ label := (reloaded m).label }, [], 0⟩ :=
    readLine_field (lit "label") rfl (by decide) (by decide) (readField_label rfl)
  have hkLine : readLine ⟨{ label := (reloaded m).label }, [], 0⟩ (lit "k " ++ printRat m.k) =
      some ⟨{ label := (reloaded m).label, k := (reloaded m).k }, [], 0⟩ :=
    readLine_field (lit "k") rfl (by decide) (by decide) (readField_k hglyph)
  have hconfigLine : readLine ⟨{ label := (reloaded m).label, k := (reloaded m).k }, [], 0⟩
      (lit "config " ++ fp) = some ⟨{ label := (reloaded m).label, k := (reloaded m).k }, fp, 0⟩ :=
    readLine_field (lit "config") rfl (by decide) (by decide) readField_config
  have halphabetLine : readLine ⟨{ label := (reloaded m).label, k := (reloaded m).k }, fp, 0⟩
      (lit "alphabet " ++ m.alphabet.keys) = some ⟨(reloaded m).withCounts .empty, fp, 0⟩ := by
    refine readLine_field (lit "alphabet") rfl (by decide) (by decide) ?_
    rw [readField_alphabet (keys_visible h)]
    show Loader.mk ((m.alphabet.entries.map Prod.fst).foldl MarkovModel.mark _) fp 0 = _
    rw [hmarks]
    rfl
  have htransitionsLine : readLine ⟨(reloaded m).withCounts .empty, fp, 0⟩
      (lit "transitions " ++ digits m.counts.size) =
        some ⟨(reloaded m).withCounts .empty, fp, m.counts.size⟩ :=
    readLine_field (lit "transitions") rfl (by decide) (by decide)
      (readField_transitions (by omega))
  simp only [List.cons_append, List.nil_append, List.foldlM_cons, hlabelLine, hkLine, hconfigLine,
    halphabetLine, htransitionsLine, Option.bind_eq_bind, Option.bind_some]

/-- A file of single lines is read line by line. -/
theorem load_lines (h : Coherent Visible m) (hlabel : (0x0A : UInt8) ∉ m.label)
    (hfp : (0x0A : UInt8) ∉ fp) :
    load (serialize m fp) = ((m.counts.entries.map rowLine).foldlM readLine
      ⟨(reloaded m).withCounts .empty, fp, m.counts.size⟩).map fun l => (l.model, l.cfgFp) := by
  have hlines : (Text.segments 0x0A (serialize m fp)).drop 1 = _ :=
    congrArg (List.drop 1) (Text.segments_flatMap (fileLines_single h hlabel hfp))
  rw [load, hlines, ← foldlM_fields h]
  rfl

/-- Without blanks and colons everything derived comes back. -/
theorem load_of_visible (h : Coherent Visible m) (hcolon : NoColon m)
    (hlabel : (0x0A : UInt8) ∉ m.label) (hfp : (0x0A : UInt8) ∉ fp) :
    load (serialize m fp) = some (reloaded m, fp) := by
  have hread : ∀ row ∈ m.counts.entries, Readable (reloaded m) row := fun row hrow => by
    have hr := readable_of_coherent h hcolon row hrow
    exact ⟨hr.source, hr.nonempty, hr.cells⟩
  obtain ⟨c, hrun, hc⟩ := foldlM_rows (c := .empty) fp m.counts.entries m.counts.sorted hread
  have hcounts : c = m.counts := OrdMap.ext_entries hc
  have hsame : (reloaded m).withCounts c = reloaded m := by
    rw [hcounts]
    exact (reloaded_coherent h).derived.symm
  rw [load_lines h hlabel hfp]
  show Option.map _ ((m.counts.entries.map rowLine).foldlM readLine
    ⟨(reloaded m).withCounts .empty, fp, m.counts.entries.length⟩) = _
  rw [hrun, hsame]
  rfl

/-- One row that cannot be read ends the load. -/
theorem foldlM_rows_none {rows : List (UInt8 × Row)} {row : UInt8 × Row} (hrow : row ∈ rows)
    (hnone : ∀ m, readRow m (rowLine row) = none) (l : Loader) (hl : l.rows = rows.length) :
    (rows.map rowLine).foldlM readLine l = none := by
  induction rows generalizing l with
  | nil => cases hrow
  | cons r rows ih =>
    have hpos : 0 < l.rows := by rw [hl]; exact Nat.succ_pos _
    rw [List.map_cons, List.foldlM_cons, readLine, if_pos hpos]
    rcases List.mem_cons.1 hrow with rfl | hrow
    · rw [hnone]; rfl
    · cases readRow l.model (rowLine r) with
      | none => rfl
      | some m =>
        refine ih hrow _ ?_
        dsimp only
        rw [hl, List.length_cons]
        rfl

/-- With a colon as a target the file is not read at all. -/
theorem load_of_colon (h : Coherent Visible m) (hcolon : ¬ NoColon m)
    (hlabel : (0x0A : UInt8) ∉ m.label) (hfp : (0x0A : UInt8) ∉ fp) :
    load (serialize m fp) = none := by
  obtain ⟨row, hrow, e, he, hdst⟩ : ∃ row ∈ m.counts.entries, ∃ e ∈ row.2.entries, e.1 = 0x3A := by
    simpa [NoColon] using hcolon
  obtain ⟨hsrc, -, hcells⟩ := h.rows row hrow
  have hnone : ∀ m, readRow m (rowLine row) = none := fun m' => by
    have hsize := size_le row.2
    rw [readRow_cells (visible_of_marked h hsrc) (by omega)
      (fun e he => visible_of_marked h (hcells e he))]
    exact foldlM_none (List.mem_map_of_mem he) (fun b => readCell_colon hdst _ b) _
  rw [load_lines h hlabel hfp, foldlM_rows_none hrow hnone _ rfl]
  rfl

theorem noColon_of_plain (h : Coherent Plain m) : NoColon m := fun row hrow e he =>
  (h.alphabet _ (OrdMap.mem_of_find? ((h.rows row hrow).2.2 e he))).1.2

/-- A coherent model comes back. -/
theorem load_of_coherent (h : Coherent Plain m) (hlabel : ∀ c ∈ m.label, isSpace c = false)
    (hk : Numeral.PrintsExactly m.k) (hfp : (0x0A : UInt8) ∉ fp) :
    load (serialize m fp) = some (m, fp) := by
  have hvisible : Coherent Visible m :=
    ⟨h.derived, h.rows, fun e he => ⟨(h.alphabet e he).1.1, (h.alphabet e he).2⟩⟩
  rw [load_of_visible hvisible (noColon_of_plain h) (single_of_visible hlabel) hfp, reloaded,
    readField_word hlabel, readK_exact hk]

/-- A model trained on connections that were encoded under the default
configuration. -/
def trained (label : Bytes) (k : Rat) (conns : List (List Behavior.Flow)) : MarkovModel :=
  ({ label := label, k := k } : MarkovModel).train
    (conns.map fun flows => encodeConnection flows {})

theorem trained_coherent (label : Bytes) (k : Rat) (conns : List (List Behavior.Flow)) :
    Coherent Plain (trained label k conns) :=
  train_coherent (fresh_coherent label k) (List.forall_mem_map.2 fun flows _ =>
    encodeConnection_plain flows)

/-- A trained model and its fingerprint come back from the file, and the
model that comes back gives every string the same score. -/
theorem load_serialize {label fp : Bytes} {k : Rat} (conns : List (List Behavior.Flow))
    (hlabel : ∀ c ∈ label, isSpace c = false) (hk : Numeral.PrintsExactly k)
    (hfp : (0x0A : UInt8) ∉ fp) :
    ∃ m, load (serialize (trained label k conns) fp) = some (m, fp) ∧
      m.label = label ∧ m.k = k ∧
      m.alphabet = (trained label k conns).alphabet ∧
      m.counts = (trained label k conns).counts ∧
      m.rowTotals = (trained label k conns).rowTotals ∧
      m.total = (trained label k conns).total ∧
      ∀ (log : Rat → Rat) (s : Bytes), m.score log s = (trained label k conns).score log s := by
  obtain ⟨hl, hkeep⟩ : (trained label k conns).label = label ∧ (trained label k conns).k = k :=
    train_keeps _ _
  refine ⟨trained label k conns, ?_, hl, hkeep, rfl, rfl, rfl, rfl, fun _ _ => rfl⟩
  exact load_of_coherent (trained_coherent label k conns) (by rwa [hl]) (by rwa [hkeep]) hfp

theorem load_serialize_botnet :
    ∃ m, load (serialize (trained (lit "Botnet") (nearest (1 / 10))
        [[⟨0, 1 / 2, 100⟩, ⟨70, 20, 9000⟩, ⟨71, 1, 70000⟩], []]) (fingerprint {} (1 / 2) 4)) =
        some (m, fingerprint {} (1 / 2) 4) ∧
      m.total = 5 ∧ m.counts.size = 5 := by
  have hk : Numeral.PrintsExactly (nearest (1 / 10)) :=
    ⟨1 / 10, ⟨1, -1, by decide, by decide +kernel⟩, by decide +kernel, rfl⟩
  have hencode : encodeConnection [⟨0, 1 / 2, 100⟩, ⟨70, 20, 9000⟩, ⟨71, 1, 70000⟩] {} =
      lit "a.l*n-" := by
    rw [encodeConnection_sorted _ (by decide) (by decide)]
    decide +kernel
  have hmodel : trained (lit "Botnet") (nearest (1 / 10))
      [[⟨0, 1 / 2, 100⟩, ⟨70, 20, 9000⟩, ⟨71, 1, 70000⟩], []] =
      MarkovModel.train ⟨lit "Botnet", nearest (1 / 10), .empty, .empty, .empty, 0⟩
        [lit "a.l*n-", encodeConnection [] {}] := by
    rw [← hencode]
    rfl
  obtain ⟨m, hload, -, -, -, hcounts, -, htotal, -⟩ := load_serialize
    [[⟨0, 1 / 2, 100⟩, ⟨70, 20, 9000⟩, ⟨71, 1, 70000⟩], []]
    (not_space_of_all (show (lit "Botnet").all (!isSpace ·) = true by decide)) hk
    (fingerprint_single {} (1 / 2) 4)
  refine ⟨m, hload, ?_, ?_⟩
  · rw [htotal, hmodel]
    decide
  · rw [hcounts, hmodel]
    decide

end File

end Wirewolf.L3.MarkovFile
