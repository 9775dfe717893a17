import Wirewolf.Core.Grouping
import Wirewolf.L1Encoding.Config
import Wirewolf.L1Encoding.ProxyFile
import Wirewolf.L3Table.MarkovFile
import Wirewolf.L3Table.TrainLabels
import Wirewolf.L5Pipeline.DottedQuad

/-!
# Training on a capture (`export_states`, `train_behavioral`)

One program writes the state strings of a capture as text, a row for each
4-tuple (`dump_behavioral_states`). The other reads them back, joins them to the
labels of a flow list by a key of the two addresses and the port, and trains
one model on each class.

* `tupleKey_eq_iff`: the key is one of the unordered pair and the port.
* `row_read`: a row comes back as it was written.
* `exported_joined`: each exported 4-tuple is trained under the labels of
  exactly the flows between its two addresses on its port.
* `training_order_free`: neither the order of the table nor that of the flow
  lists changes what is trained.
-/
namespace Wirewolf.L5.Training

open Wirewolf.Numeral (printInt)
open Wirewolf.L1.Config (stoi)
open Wirewolf.L1.IpPacket
open Wirewolf.L3.Behavior (BehConn Flow octets ntohs)
open Wirewolf.L3.FlowRecord
open Wirewolf.L3.Markov Wirewolf.L3.TrainLabels
open Wirewolf.L5.Allowlist (scanDotted)
open Wirewolf.L5.DottedQuad

/-! ## The export -/

/-- The fields of a row.
mirrors src/src/tcp_reassembly.cpp:1421-1428 -/
def stateRow (minFlows : Nat) (bc : BehConn) : Option (List Bytes) :=
  if bc.flows.length < minFlows then none
  else
    let s := encodeConnection bc.flows {}
    if s.length < 2 then none
    else some [render bc.src, render bc.dst, digits (ntohs bc.dport).toNat, s]

/-- mirrors src/src/tcp_reassembly.cpp:1403-1432 -/
def dumpBehavioralStates (minFlows : Nat) (conns : UMap UInt64 BehConn) : Bytes :=
  (lit "src,dst,dport,state" ::
    (conns.entries.filterMap fun x => stateRow minFlows x.2).map fun row =>
    [0x2C].intercalate row).flatMap
      (· ++ [0x0A])

/-! ## The key -/

/-- An address that is none gives 0.
mirrors src/tools/train_behavioral/train.cpp:182-190 -/
def parseIp4 (s : Bytes) : UInt32 :=
  match scanDotted s with
  | none => 0
  | some (a, b, c, d) => (a <<< 24) ||| (b <<< 16) ||| (c <<< 8) ||| d

/-- `std::stol(s, nullptr, 16)` of a text that begins with `0x`; a `long` goes
up to `longMax`. -/
def stolHex (longMax : Nat) (s : Bytes) : Option Nat :=
  let digits := ((s.drop 2).takeWhile fun c => (hexDigit? c).isSome).filterMap hexDigit?
  let value := digits.foldl (fun n d => 16 * n + d) 0
  if longMax < value then none else some value

/-- mirrors src/tools/train_behavioral/train.cpp:191-199 -/
def parsePort (longMax : Nat) (s : Bytes) : Int :=
  if 2 < s.length ∧ s[0]? = some 0x30 ∧ (s[1]? = some 0x78 ∨ s[1]? = some 0x58) then
    match stolHex longMax s with
    | some n => Int.bmod n (2 ^ 32)
    | none => -1
  else
    match stoi s with
    | .ok n => n
    | .error _ => -1

/-- mirrors src/tools/train_behavioral/train.cpp:201-209 -/
def tupleKey (a b : Bytes) (dport : Int) : Bytes :=
  let ia := parseIp4 a
  let ib := parseIp4 b
  digits (min ia ib).toNat ++ 0x2D :: (digits (max ia ib).toNat ++ 0x2D :: printInt dport)

theorem digits_append_inj {m n : Nat} {s t : Bytes}
    (h : digits m ++ 0x2D :: s = digits n ++ 0x2D :: t) : m = n ∧ s = t := by
  have hclear : ∀ n : Nat, (0x2D : UInt8) ∉ digits n := fun n hc =>
    absurd (Numeral.digits_isDigit _ hc) (by decide)
  have hseg := congrArg (Text.segments 0x2D) h
  rw [Text.segments_cons (hclear m), Text.segments_cons (hclear n)] at hseg
  have hdigits := (List.cons.inj hseg).1
  rw [hdigits] at h
  refine ⟨?_, List.cons_injective (List.append_cancel_left h)⟩
  rw [← Numeral.value_digits m, hdigits, Numeral.value_digits]

theorem printInt_inj {m n : Int} (h : printInt m = printInt n) : m = n := by
  have hread := congrArg Numeral.readInt h
  have hm := Numeral.readInt_printInt m (t := []) nofun
  have hn := Numeral.readInt_printInt n (t := []) nofun
  rw [List.append_nil] at hm hn
  exact Option.some.inj (hm.symm.trans (hread.trans hn))

theorem toNat_min (x y : UInt32) : (min x y).toNat = min x.toNat y.toNat := by
  show (if x ≤ y then x else y).toNat = _
  split
  · next h => rw [UInt32.le_iff_toNat_le] at h; omega
  · next h => rw [UInt32.le_iff_toNat_le] at h; omega

theorem toNat_max (x y : UInt32) : (max x y).toNat = max x.toNat y.toNat := by
  show (if x ≤ y then y else x).toNat = _
  split
  · next h => rw [UInt32.le_iff_toNat_le] at h; omega
  · next h => rw [UInt32.le_iff_toNat_le] at h; omega

theorem minmax_eq_iff {x y x' y' : UInt32} :
    (min x y).toNat = (min x' y').toNat ∧ (max x y).toNat = (max x' y').toNat ↔
      (x = x' ∧ y = y') ∨ (x = y' ∧ y = x') := by
  simp only [toNat_min, toNat_max, ← UInt32.toNat_inj]
  omega

/-- The keys are of the same pair of addresses and the same port. -/
theorem tupleKey_eq_iff {a b a' b' : Bytes} {p p' : Int} : tupleKey a b p = tupleKey a' b' p' ↔
    ((parseIp4 a = parseIp4 a' ∧ parseIp4 b = parseIp4 b') ∨
      (parseIp4 a = parseIp4 b' ∧ parseIp4 b = parseIp4 a')) ∧ p = p' := by
  rw [← minmax_eq_iff]
  constructor
  · intro h
    obtain ⟨hlo, hrest⟩ := digits_append_inj h
    obtain ⟨hhi, hport⟩ := digits_append_inj hrest
    exact ⟨⟨hlo, hhi⟩, printInt_inj hport⟩
  · rintro ⟨⟨hlo, hhi⟩, rfl⟩
    rw [tupleKey, tupleKey, hlo, hhi]

/-! ## A row is read back -/

/-- `ntohl` -/
def ntohl (ip : UInt32) : UInt32 :=
  let b := octets ip
  (b.1.toUInt32 <<< 24) ||| (b.2.1.toUInt32 <<< 16) ||| (b.2.2.1.toUInt32 <<< 8) |||
    b.2.2.2.toUInt32

/-- The bytes of an address that was put together from four. -/
theorem octets_join {a b c d : UInt32} (ha : a < 256) (hb : b < 256) (hc : c < 256) (hd : d < 256) :
    ntohl (a ||| (b <<< 8) ||| (c <<< 16) ||| (d <<< 24)) =
      (a <<< 24) ||| (b <<< 16) ||| (c <<< 8) ||| d := by
  have ha : a.toNat < 256 := ha
  have hb : b.toNat < 256 := hb
  have hc : c.toNat < 256 := hc
  have hd : d.toNat < 256 := hd
  have hjoin : a ||| (b <<< 8) ||| (c <<< 16) ||| (d <<< 24) =
      networkOrder a.toNat b.toNat c.toNat d.toNat := by
    rw [← networkOrder_eq (Nat.le_of_lt_succ ha) (Nat.le_of_lt_succ hb) (Nat.le_of_lt_succ hc)
      (Nat.le_of_lt_succ hd)]
    simp only [UInt32.ofNat_toNat]
  have hnat : (networkOrder a.toNat b.toNat c.toNat d.toNat).toNat =
      a.toNat + 2 ^ 8 * b.toNat + 2 ^ 16 * c.toNat + 2 ^ 24 * d.toNat := by
    rw [networkOrder, UInt32.toNat_ofNat']
    omega
  rw [hjoin]
  generalize networkOrder a.toNat b.toNat c.toNat d.toNat = x at hnat
  have hbyte : ∀ y z : UInt32, y.toNat % 256 = z.toNat → y.toUInt8.toUInt32 = z := by
    intro y z h
    apply UInt32.toNat_inj.1
    rw [UInt8.toNat_toUInt32, UInt32.toNat_toUInt8]
    exact h
  have h₁ : (x >>> 8).toNat = x.toNat / 2 ^ 8 := Nat.shiftRight_eq_div_pow ..
  have h₂ : (x >>> 16).toNat = x.toNat / 2 ^ 16 := Nat.shiftRight_eq_div_pow ..
  have h₃ : (x >>> 24).toNat = x.toNat / 2 ^ 24 := Nat.shiftRight_eq_div_pow ..
  rw [ntohl, octets]
  dsimp only
  rw [hbyte x a (by omega), hbyte (x >>> 8) b (by omega), hbyte (x >>> 16) c (by omega),
    hbyte (x >>> 24) d (by omega)]

theorem parseIp4_render (ip : UInt32) : parseIp4 (render ip) = ntohl ip := by
  obtain ⟨hne, hbytes⟩ := render_bytes ip
  have htrim : Allowlist.trim (render ip) = render ip := by
    have hblank : ∀ c ∈ ([] : Bytes), Allowlist.isBlank c = true := nofun
    simpa using trim_padded hblank (fun c hc => (hbytes c hc).1) hne hblank
  have hparse : Allowlist.parseIp (render ip) = some ip :=
    parseIp_quad (by rw [htrim]; exact quad_render ip)
  unfold Allowlist.parseIp at hparse
  rw [htrim] at hparse
  unfold parseIp4
  cases hscan : scanDotted (render ip) with
  | none => rw [hscan] at hparse; cases hparse
  | some octets =>
    obtain ⟨a, b, c, d⟩ := octets
    rw [hscan] at hparse
    dsimp only at hparse ⊢
    split at hparse
    · next hlt =>
      cases hparse
      rw [octets_join hlt.1 hlt.2.1 hlt.2.2.1 hlt.2.2.2]
    · cases hparse

theorem parsePort_digits (longMax : Nat) {n : Nat} (hn : n < 65536) :
    parsePort longMax (digits n) = n := by
  have hdigit : ∀ c ∈ digits n, isDigit c = true := Numeral.digits_isDigit
  have hhex : ¬ (2 < (digits n).length ∧ (digits n)[0]? = some 0x30 ∧
      ((digits n)[1]? = some 0x78 ∨ (digits n)[1]? = some 0x58)) := by
    rintro ⟨-, -, h | h⟩
    · exact absurd (hdigit _ (List.mem_of_getElem? h)) (by decide)
    · exact absurd (hdigit _ (List.mem_of_getElem? h)) (by decide)
  have hspace : (digits n).dropWhile isSpace = digits n := by
    obtain ⟨c, s, hs⟩ := List.exists_cons_of_ne_nil (Numeral.digits_ne_nil n)
    rw [hs] at hdigit ⊢
    have hc : isSpace c = false :=
      L3.MarkovFile.isSpace_of_glyph (Numeral.isGlyph_of_digit (hdigit c List.mem_cons_self))
    rw [List.dropWhile_cons_of_neg (by rw [hc]; exact Bool.false_ne_true)]
  have hread : Numeral.readInt (digits n) = some (n : Int) := by
    have h := Numeral.readInt_printInt n (t := []) nofun
    rwa [List.append_nil, printInt, if_neg (by omega), Int.natAbs_natCast] at h
  have hstoi : stoi (digits n) = .ok (n : Int) := by
    rw [stoi, hspace, hread]
    exact if_pos (by omega)
  rw [parsePort, if_neg hhex, hstoi]

/-! ## The state string in a row -/

/-- The encoder writes letters and symbols. -/
theorem mem_encodeFlows (cfg : BehavioralConfig) (prev : Option Rat) (l : List Flow) :
    ∀ c ∈ encodeFlows cfg prev l, (∃ f, c = letter cfg f) ∨ c ∈ symbols := by
  induction l generalizing prev with
  | nil => exact nofun
  | cons f l ih =>
    exact List.forall_mem_cons.2 ⟨.inl ⟨f, rfl⟩,
      List.forall_mem_cons.2 ⟨.inr (L3.MarkovFile.mem_symbol cfg prev f), ih _⟩⟩

/-- Nothing in a state string ends a field or a row. -/
theorem encode_clear (flows : List Flow) :
    (0x2C : UInt8) ∉ encodeConnection flows {} ∧ (0x0A : UInt8) ∉ encodeConnection flows {} := by
  have hletter : ∀ f, letter {} f ≠ 0x2C ∧ letter {} f ≠ 0x0A := by
    intro f
    have hbytes : bucketOf f.totBytes ({} : BehavioralConfig).byteBuckets ≤ 4 :=
      List.findIdx_le_length
    have hdur : bucketOf f.duration ({} : BehavioralConfig).durBuckets ≤ 2 := List.findIdx_le_length
    have hall : ∀ b ≤ 4, ∀ d ≤ 2, UInt8.ofNat (0x61 + (b * (2 + 1) + d)) ≠ 0x2C ∧
        UInt8.ofNat (0x61 + (b * (2 + 1) + d)) ≠ 0x0A := by decide
    exact hall _ hbytes _ hdur
  have hsymbol : (0x2C : UInt8) ∉ symbols ∧ (0x0A : UInt8) ∉ symbols := by decide
  unfold encodeConnection
  split
  · exact ⟨nofun, nofun⟩
  · refine ⟨fun hc => ?_, fun hc => ?_⟩
    · rcases mem_encodeFlows _ _ _ _ hc with ⟨f, hf⟩ | hs
      · exact (hletter f).1 hf.symm
      · exact hsymbol.1 hs
    · rcases mem_encodeFlows _ _ _ _ hc with ⟨f, hf⟩ | hs
      · exact (hletter f).2 hf.symm
      · exact hsymbol.2 hs

/-- What a row holds, and that no field has a separator in it. -/
theorem stateRow_eq_some {minFlows : Nat} {bc : BehConn} {row : List Bytes}
    (h : stateRow minFlows bc = some row) :
    row = [render bc.src, render bc.dst, digits (ntohs bc.dport).toNat,
        encodeConnection bc.flows {}] ∧ ∀ f ∈ row, (0x2C : UInt8) ∉ f ∧ (0x0A : UInt8) ∉ f ∧
        f ≠ [] := by
  unfold stateRow at h
  split at h
  · cases h
  dsimp only at h
  split at h
  · cases h
  next hlen =>
  cases h
  have hrender : ∀ ip, (0x2C : UInt8) ∉ render ip ∧ (0x0A : UInt8) ∉ render ip ∧
      render ip ≠ [] := by
    intro ip
    refine ⟨fun hc => ((render_bytes ip).2 _ hc).2 rfl, fun hc => ?_, (render_bytes ip).1⟩
    rcases quad_bytes (quad_render ip) _ hc with hd | hd
    · exact absurd hd (by decide)
    · exact absurd hd (by decide)
  have hport : ∀ n, (0x2C : UInt8) ∉ digits n ∧ (0x0A : UInt8) ∉ digits n ∧
      digits n ≠ [] := fun n =>
    ⟨fun hc => absurd (Numeral.digits_isDigit _ hc) (by decide),
      fun hc => absurd (Numeral.digits_isDigit _ hc) (by decide), Numeral.digits_ne_nil n⟩
  have hstate : encodeConnection bc.flows {} ≠ [] := by
    intro hnil
    rw [hnil] at hlen
    exact hlen (by decide)
  refine ⟨rfl, ?_⟩
  simp only [List.forall_mem_cons, List.not_mem_nil, false_imp_iff, implies_true, and_true]
  exact ⟨hrender _, hrender _, hport _, (encode_clear _).1, (encode_clear _).2, hstate⟩

/-- The lines of the file. -/
theorem segments_dump (minFlows : Nat) (conns : UMap UInt64 BehConn) :
    Text.segments 0x0A (dumpBehavioralStates minFlows conns) = lit "src,dst,dport,state" ::
      (conns.entries.filterMap fun x => stateRow minFlows x.2).map fun row =>
        [0x2C].intercalate row := by
  refine Text.segments_flatMap (List.forall_mem_cons.2 ⟨by decide, fun l hl => ?_⟩)
  obtain ⟨row, hrow, rfl⟩ := List.mem_map.1 hl
  obtain ⟨x, -, hx⟩ := List.mem_filterMap.1 hrow
  exact L1.ProxyFile.not_mem_intercalate (by decide) fun f hf => ((stateRow_eq_some hx).2 f hf).2.1

theorem row_read {minFlows : Nat} {bc : BehConn} {row : List Bytes}
    (h : stateRow minFlows bc = some row) : Text.segments 0x2C ([0x2C].intercalate row) = row :=
  Text.segments_intercalate fun f hf => ⟨((stateRow_eq_some h).2 f hf).1,
    ((stateRow_eq_some h).2 f hf).2.2⟩

/-! ## The labels -/

/-- `need(name)`: a name that occurs twice stands for its last column.
mirrors src/tools/train_behavioral/train.cpp:107-112, 229-234 -/
def columnOf (header : Bytes) (name : String) : Option Nat :=
  let h := Text.segments 0x2C header
  (List.range h.length).reverse.find? fun i => decide (h[i]? = some (lit name))

/-- The columns that `load_bf_labels` needs. -/
structure Columns where
  src : Nat
  dst : Nat
  dport : Nat
  label : Nat

/-- mirrors src/tools/train_behavioral/train.cpp:229-240 -/
def columns (header : Bytes) : Option Columns := do
  let need := columnOf header
  return ⟨← need "SrcAddr", ← need "DstAddr", ← need "Dport", ← need "Label"⟩

structure LabelRow where
  src : Bytes
  dst : Bytes
  dport : Int
  label : Bytes

/-- The row of a line, unless it is skipped.
mirrors src/tools/train_behavioral/train.cpp:247-254 -/
def labelRow (longMax : Nat) (c : Columns) (line : Bytes) : Option LabelRow :=
  if line = [] then none
  else
    let f := Text.segments 0x2C line
    if f.length ≤ max (max c.src c.dst) (max c.dport c.label) then none
    else
      let dport := parsePort longMax (f.getD c.dport [])
      if dport < 0 then none
      else some ⟨f.getD c.src [], f.getD c.dst [], dport, f.getD c.label []⟩

abbrev Labels := UMap Bytes LblCount

/-- mirrors src/tools/train_behavioral/train.cpp:255-262 -/
def countRow (m : Labels) (r : LabelRow) : Labels :=
  m.bump (fun lc r => lc.add r.label) {} (tupleKey r.src r.dst r.dport) r

/-- mirrors src/tools/train_behavioral/train.cpp:218-264 -/
def loadBfLabels (longMax : Nat) (m : Labels) (file : Bytes) : Labels :=
  match Text.segments 0x0A file with
  | [] => m
  | header :: lines =>
    match columns header with
    | none => m
    | some c => lines.foldl (fun m line => (labelRow longMax c line).elim m (countRow m)) m

/-! ## The join -/

/-- The models are given while training, the samples while testing. -/
structure Join where
  bot : Option MarkovModel := none
  norm : Option MarkovModel := none
  samples : Option (List (Bytes × Bool)) := none
  kept : Nat := 0
  unlabeled : Nat := 0

/-- `none` is skipped.
mirrors src/tools/train_behavioral/train.cpp:302-306, 379-386, 431-436 -/
def sideOf (includeBg : Bool) : Cls → Option Bool
  | .botnet => some true
  | .normal => some false
  | .background => if includeBg then some false else none
  | .other => none

def isBot (majority includeBg : Bool) (c : LblCount) : Option Bool :=
  sideOf includeBg (keyLabel c majority)

/-- mirrors src/tools/train_behavioral/train.cpp:307-309 -/
def Join.enter (j : Join) (state : Bytes) (bot : Bool) : Join :=
  let both := j.bot.isSome && j.norm.isSome
  { j with
    bot := if both && bot then j.bot.map (·.observe state) else j.bot
    norm := if both && !bot then j.norm.map (·.observe state) else j.norm
    samples := j.samples.map (· ++ [(state, bot)])
    kept := j.kept + 1 }

/-- What is known of a 4-tuple decides what becomes of its state string.
mirrors src/tools/train_behavioral/train.cpp:300-309 -/
def Join.add (majority includeBg : Bool) (j : Join) (state : Bytes) : Option LblCount → Join
  | none => { j with unlabeled := j.unlabeled + 1 }
  | some c => (isBot majority includeBg c).elim j (j.enter state)

/-- mirrors src/tools/train_behavioral/train.cpp:294-309 -/
def stateLine (longMax : Nat) (labels : Labels) (majority includeBg : Bool) (j : Join)
    (line : Bytes) : Join :=
  if line = [] then j
  else
    let c := Text.segments 0x2C line
    if c.length < 4 then j
    else
      let dport := parsePort longMax (c.getD 2 [])
      let state := c.getD 3 []
      if state.length < 2 then j
      else j.add majority includeBg state
        (labels.find? (tupleKey (c.getD 0 []) (c.getD 1 []) dport))

/-- The first line of each file is its header.
mirrors src/tools/train_behavioral/train.cpp:281-312 -/
def processStates (longMax : Nat) (files : List Bytes) (labels : Labels) (majority includeBg : Bool)
    (j : Join) : Join :=
  files.foldl (fun j file =>
    (Text.segments 0x0A file).tail.foldl (stateLine longMax labels majority includeBg) j) j

/-! ## What is joined -/

/-- The rows of a flow list. -/
def rowsOf (longMax : Nat) (file : Bytes) : List LabelRow :=
  match Text.segments 0x0A file with
  | [] => []
  | header :: lines => (columns header).elim [] fun c => lines.filterMap (labelRow longMax c)

/-- The flow is between the two addresses of the 4-tuple, in either direction,
and on its port. -/
def Matches (bc : BehConn) (r : LabelRow) : Prop :=
  ((parseIp4 r.src = ntohl bc.src ∧ parseIp4 r.dst = ntohl bc.dst) ∨
    (parseIp4 r.src = ntohl bc.dst ∧ parseIp4 r.dst = ntohl bc.src)) ∧
    r.dport = ((ntohs bc.dport).toNat : Int)

instance (bc : BehConn) : DecidablePred (Matches bc) := fun _ => inferInstanceAs (Decidable (_ ∧ _))

/-- What the trainer should know of the 4-tuple. -/
def known (rows : List LabelRow) (bc : BehConn) : Option LblCount :=
  let own := rows.filter fun r => decide (Matches bc r)
  if own = [] then none else some (tally (own.map (·.label)))

/-- One 4-tuple of the table, without the detour by the files. -/
def Join.connection (rows : List LabelRow) (minFlows : Nat) (majority includeBg : Bool) (j : Join)
    (bc : BehConn) : Join :=
  let s := encodeConnection bc.flows {}
  if bc.flows.length < minFlows ∨ s.length < 2 then j
  else j.add majority includeBg s (known rows bc)

theorem loadBfLabels_eq (longMax : Nat) (m : Labels) (file : Bytes) :
    loadBfLabels longMax m file = (rowsOf longMax file).foldl countRow m := by
  unfold loadBfLabels rowsOf
  cases Text.segments 0x0A file with
  | nil => rfl
  | cons header lines =>
    dsimp only
    cases columns header with
    | none => rfl
    | some c =>
      dsimp only [Option.elim_some]
      induction lines generalizing m with
      | nil => rfl
      | cons line lines ih =>
        rw [List.foldl_cons, ih, List.filterMap_cons]
        cases labelRow longMax c line <;> rfl

theorem loaded_eq (longMax : Nat) (files : List Bytes) :
    files.foldl (loadBfLabels longMax) .empty =
      UMap.bumps (fun r : LabelRow => tupleKey r.src r.dst r.dport) (fun lc r => lc.add r.label) {}
        .empty (files.flatMap (rowsOf longMax)) := by
  induction files using List.reverseRecOn with
  | nil => rfl
  | append_singleton files file ih =>
    rw [List.foldl_append, List.foldl_cons, List.foldl_nil, loadBfLabels_eq, ih,
      List.flatMap_append,
      UMap.bumps_append, List.flatMap_singleton]
    rfl

theorem tally_map (rows : List LabelRow) :
    rows.foldl (fun lc r => lc.add r.label) {} = tally (rows.map (·.label)) := by
  rw [tally, List.foldl_map]

/-- The key of a row of the table finds the labels of the flows that match. -/
theorem find?_loaded (longMax : Nat) (files : List Bytes) (bc : BehConn) :
    (files.foldl (loadBfLabels longMax) .empty).find?
      (tupleKey (render bc.src) (render bc.dst) (ntohs bc.dport).toNat) =
        known (files.flatMap (rowsOf longMax)) bc := by
  have hmatch : ∀ r : LabelRow, tupleKey r.src r.dst r.dport =
      tupleKey (render bc.src) (render bc.dst) (ntohs bc.dport).toNat ↔ Matches bc r := fun r => by
    rw [tupleKey_eq_iff, parseIp4_render, parseIp4_render]
    rfl
  rw [loaded_eq, UMap.find?_bumps]
  simp only [hmatch, tally_map]
  rfl

/-- The state string of a line that is not skipped, and what is known of its
key. -/
def lookup (longMax : Nat) (labels : Labels) (line : Bytes) : Option (Bytes × Option LblCount) :=
  let c := Text.segments 0x2C line
  if line = [] ∨ c.length < 4 ∨ (c.getD 3 []).length < 2 then none
  else some (c.getD 3 [],
    labels.find? (tupleKey (c.getD 0 []) (c.getD 1 []) (parsePort longMax (c.getD 2 []))))

theorem stateLine_eq (longMax : Nat) (labels : Labels) (majority includeBg : Bool) (j : Join)
    (line : Bytes) : stateLine longMax labels majority includeBg j line =
      (lookup longMax labels line).elim j fun x => j.add majority includeBg x.1 x.2 := by
  unfold stateLine lookup
  dsimp only
  by_cases hne : line = []
  · simp [hne]
  by_cases hfew : (Text.segments 0x2C line).length < 4
  · simp [hne, hfew]
  by_cases hshort : ((Text.segments 0x2C line).getD 3 []).length < 2
  · simp only [hne, hfew, hshort, if_false, if_true, false_or, Option.elim_none]
  · simp only [hne, hfew, hshort, if_false, or_self, Option.elim_some]

/-- The row of a 4-tuple is looked up as its state string and what is known of
the 4-tuple. -/
theorem lookup_row (longMax : Nat) (files : List Bytes) {minFlows : Nat} {bc : BehConn}
    {row : List Bytes}
    (h : stateRow minFlows bc = some row) :
    lookup longMax (files.foldl (loadBfLabels longMax) .empty) ([0x2C].intercalate row) =
      some (encodeConnection bc.flows {}, known (files.flatMap (rowsOf longMax)) bc) := by
  have hread := row_read h
  have hlong : ¬ (encodeConnection bc.flows {}).length < 2 := by
    unfold stateRow at h
    split at h
    · cases h
    dsimp only at h
    split at h
    · cases h
    · assumption
  obtain ⟨rfl, -⟩ := stateRow_eq_some h
  have hne : [0x2C].intercalate [render bc.src, render bc.dst, digits (ntohs bc.dport).toNat,
      encodeConnection bc.flows {}] ≠ [] := by
    intro hnil
    rw [hnil] at hread
    cases hread
  have hport : parsePort longMax (digits (ntohs bc.dport).toNat) = (ntohs bc.dport).toNat :=
    parsePort_digits longMax (ntohs bc.dport).toNat_lt
  rw [lookup, hread]
  simp only [hne, List.length_cons, List.length_nil, List.getD_cons_zero, List.getD_cons_succ,
    hlong, hport,
    find?_loaded, or_self, if_false, Nat.reduceAdd, Nat.lt_irrefl]

/-- The row of a 4-tuple does to the trainer what the 4-tuple itself does. -/
theorem stateLine_row (longMax : Nat) (files : List Bytes) {minFlows : Nat}
    (majority includeBg : Bool)
    (j : Join) {bc : BehConn} {row : List Bytes} (h : stateRow minFlows bc = some row) :
    stateLine longMax (files.foldl (loadBfLabels longMax) .empty) majority includeBg j
        ([0x2C].intercalate row) =
      j.add majority includeBg (encodeConnection bc.flows {})
        (known (files.flatMap (rowsOf longMax)) bc) := by
  rw [stateLine_eq, lookup_row longMax files h, Option.elim_some]

theorem stateRow_eq_none_iff {minFlows : Nat} {bc : BehConn} : stateRow minFlows bc = none ↔
    bc.flows.length < minFlows ∨ (encodeConnection bc.flows {}).length < 2 := by
  unfold stateRow
  dsimp only
  split <;> rename_i hfew
  · simp [hfew]
  · split <;> rename_i hshort <;> simp [hfew, hshort]

/-- Exporting a table and training on the files trains on the table, each
4-tuple under the labels of the flows that match it. -/
theorem exported_joined (longMax : Nat) (files : List Bytes) (minFlows : Nat)
    (conns : UMap UInt64 BehConn) (majority includeBg : Bool) (j : Join) :
    processStates longMax [dumpBehavioralStates minFlows conns]
        (files.foldl (loadBfLabels longMax) .empty) majority includeBg j =
      (conns.entries.map Prod.snd).foldl
        (Join.connection (files.flatMap (rowsOf longMax)) minFlows majority includeBg) j := by
  rw [processStates, List.foldl_cons, List.foldl_nil, segments_dump, List.tail_cons]
  generalize conns.entries = entries
  induction entries generalizing j with
  | nil => rfl
  | cons x entries ih =>
    rw [List.map_cons, List.foldl_cons, ← ih, List.filterMap_cons]
    cases hrow : stateRow minFlows x.2 with
    | none => rw [Join.connection, if_pos (stateRow_eq_none_iff.1 hrow)]
    | some row =>
      have hlong :
          ¬ (x.2.flows.length < minFlows ∨ (encodeConnection x.2.flows {}).length < 2) := by
        rw [← stateRow_eq_none_iff, hrow]
        exact nofun
      dsimp only
      rw [List.map_cons, List.foldl_cons, stateLine_row longMax files majority includeBg j hrow,
        Join.connection, if_neg hlong]

/-! ## The tool -/

/-- Files are given by their contents. -/
structure Args where
  trainStates : List Bytes
  trainBf : List Bytes
  testStates : List Bytes
  testBf : List Bytes
  majority : Bool := false
  includeBg : Bool := false
  minFlows : Nat := 4
  k : Rat := 1 / 2
  threshold : Rat := 0

structure Confusion where
  tp : Nat := 0
  fp : Nat := 0
  fn : Nat := 0
  tn : Nat := 0

def Confusion.add (c : Confusion) (pred bot : Bool) : Confusion :=
  if bot then if pred then { c with tp := c.tp + 1 } else { c with fn := c.fn + 1 }
  else if pred then { c with fp := c.fp + 1 } else { c with tn := c.tn + 1 }

/-- mirrors src/tools/train_behavioral/train.cpp:440-447, 559-566 -/
def confusion (llr : Bytes → Rat) (samples : List (Bytes × Bool)) (thr : Rat) : Confusion :=
  samples.foldl (fun c s => c.add (decide (thr < llr s.1)) s.2) {}

/-- Precision, recall and their mean.
mirrors src/tools/train_behavioral/train.cpp:448-453, 567-572 -/
def prf (c : Confusion) : Rat × Rat × Rat :=
  let p : Rat := if c.tp + c.fp = 0 then 0 else c.tp / (c.tp + c.fp : Nat)
  let r : Rat := if c.tp + c.fn = 0 then 0 else c.tp / (c.tp + c.fn : Nat)
  (p, r, if p + r = 0 then 0 else 2 * p * r / (p + r))

structure Evaluation where
  labeled : Nat
  sweep : List (Rat × Confusion × Rat × Rat × Rat)
  chosen : Confusion × Rat × Rat × Rat

/-- The sweep of the thresholds, and the chosen one.
mirrors src/tools/train_behavioral/train.cpp:455-478, 573-593 -/
def evaluate (llr : Bytes → Rat) (samples : List (Bytes × Bool)) (threshold : Rat) : Evaluation :=
  let row := fun t => (confusion llr samples t, prf (confusion llr samples t))
  { labeled := samples.length
    sweep := (List.range 25).map fun sweep : Nat =>
      let t : Rat := -3 + 1 / 4 * sweep
      (t, row t)
    chosen := row threshold }

/-- The two model files, and what is reported. -/
structure Outcome where
  botnetModel : Bytes
  normalModel : Bytes
  kept : Nat
  unlabeled : Nat
  /-- With the number of the unlabeled. -/
  evaluation : Option (Evaluation × Nat)

/-- mirrors src/tools/train_behavioral/train.cpp:548-557 -/
def testStates (log : Rat → Rat) (longMax : Nat) (A : Args) (bot norm : MarkovModel) :
    Evaluation × Nat :=
  let testLbl := A.testBf.foldl (loadBfLabels longMax) .empty
  let j := processStates longMax A.testStates testLbl A.majority A.includeBg { samples := some [] }
  (evaluate (fun s => bot.score log s - norm.score log s) (j.samples.getD []) A.threshold,
    j.unlabeled)

/-- mirrors src/tools/train_behavioral/train.cpp:503-604 -/
def runStatesMode (log : Rat → Rat) (longMax : Nat) (A : Args) : Outcome :=
  let cfgFp := L3.MarkovFile.fingerprint {} A.k A.minFlows
  let trainLbl := A.trainBf.foldl (loadBfLabels longMax) .empty
  let j := processStates longMax A.trainStates trainLbl A.majority A.includeBg
    { bot := some { label := lit "Botnet", k := A.k },
      norm := some { label := lit "Normal", k := A.k } }
  let bot := j.bot.getD {}
  let norm := j.norm.getD {}
  { botnetModel := L3.MarkovFile.serialize bot cfgFp
    normalModel := L3.MarkovFile.serialize norm cfgFp
    kept := j.kept
    unlabeled := j.unlabeled
    evaluation := if A.testStates = [] then none else some (testStates log longMax A bot norm) }

/-! ## What the order of the rows decides -/

/-- The lines behind the headers. -/
def stateLines (files : List Bytes) : List Bytes :=
  files.flatMap fun file => (Text.segments 0x0A file).tail

/-- What is entered. -/
def entryOf (majority includeBg : Bool) (x : Bytes × Option LblCount) : Option (Bytes × Bool) :=
  (x.2.bind (isBot majority includeBg)).map (x.1, ·)

/-- What a list of such lines adds. -/
def Join.extend (majority includeBg : Bool) (j : Join)
    (l : List (Bytes × Option LblCount)) : Join :=
  let entries := l.filterMap (entryOf majority includeBg)
  let ofClass := fun bot : Bool => entries.filterMap fun e => if e.2 = bot then some e.1 else none
  let both := j.bot.isSome && j.norm.isSome
  { bot := if both then j.bot.map (·.train (ofClass true)) else j.bot
    norm := if both then j.norm.map (·.train (ofClass false)) else j.norm
    samples := j.samples.map (· ++ entries)
    kept := j.kept + entries.length
    unlabeled := j.unlabeled + l.countP fun x => x.2.isNone }

theorem extend_nil (majority includeBg : Bool) (j : Join) : j.extend majority includeBg [] = j := by
  obtain ⟨bot, norm, samples, kept, unlabeled⟩ := j
  cases bot <;> cases norm <;> cases samples <;> simp [Join.extend, MarkovModel.train]

theorem extend_cons (majority includeBg : Bool) (j : Join) (x : Bytes × Option LblCount)
    (l : List (Bytes × Option LblCount)) :
    (j.add majority includeBg x.1 x.2).extend majority includeBg l =
      j.extend majority includeBg (x :: l) := by
  obtain ⟨bot, norm, samples, kept, unlabeled⟩ := j
  obtain ⟨state, known⟩ := x
  cases known with
  | none =>
    have hnone : ((state, none) :: l).filterMap (entryOf majority includeBg) =
        l.filterMap (entryOf majority includeBg) := rfl
    simp [Join.add, Join.extend, hnone, Nat.add_assoc, Nat.add_comm 1]
  | some c =>
    cases hbot : isBot majority includeBg c with
    | none =>
      simp [Join.add, Join.extend, entryOf, hbot]
    | some b =>
      cases bot <;> cases norm <;> cases samples <;> cases b <;>
        simp [Join.add, Join.extend, Join.enter, entryOf, hbot, MarkovModel.train, Nat.add_assoc,
          Nat.add_comm 1]

theorem processStates_eq (longMax : Nat) (files : List Bytes) (labels : Labels)
    (majority includeBg : Bool)
    (j : Join) : processStates longMax files labels majority includeBg j =
      j.extend majority includeBg ((stateLines files).filterMap (lookup longMax labels)) := by
  have hfiles : processStates longMax files labels majority includeBg j =
      (stateLines files).foldl (stateLine longMax labels majority includeBg) j := by
    rw [processStates, stateLines, List.flatMap, List.foldl_flatten, List.foldl_map]
  rw [hfiles]
  clear hfiles
  induction stateLines files generalizing j with
  | nil => rw [List.foldl_nil, List.filterMap_nil, extend_nil]
  | cons line lines ih =>
    rw [List.foldl_cons, ih, stateLine_eq, List.filterMap_cons]
    cases lookup longMax labels line with
    | none => rfl
    | some x => exact extend_cons majority includeBg j x _

theorem tally_perm {l l' : List Bytes} (h : l.Perm l') : tally l = tally l' := by
  have hcount : ∀ cls, count cls l = count cls l' := fun cls => h.countP_eq _
  obtain ⟨hbot, hnorm, hbg⟩ := counted l
  obtain ⟨hbot', hnorm', hbg'⟩ := counted l'
  rw [LblCount.mk.injEq, hbot, hnorm, hbg, hbot', hnorm', hbg', hcount, hcount, hcount]
  exact ⟨rfl, rfl, rfl⟩

/-- What is known of a key. -/
theorem find?_loaded_perm (longMax : Nat) {files files' : List Bytes}
    (h : (files.flatMap (rowsOf longMax)).Perm (files'.flatMap (rowsOf longMax))) (key : Bytes) :
    (files.foldl (loadBfLabels longMax) .empty).find? key =
      (files'.foldl (loadBfLabels longMax) .empty).find? key := by
  have hown := h.filter fun r => decide (tupleKey r.src r.dst r.dport = key)
  rw [loaded_eq, loaded_eq, UMap.find?_bumps, UMap.find?_bumps, tally_map, tally_map,
    tally_perm (hown.map _)]
  exact if_congr ⟨fun he => List.nil_perm.1 (he ▸ hown),
    fun he => List.perm_nil.1 (he ▸ hown)⟩ rfl rfl

/-- What the order of the lines leaves alone: all but the order of the samples. -/
theorem extend_perm (majority includeBg : Bool) (j : Join) {l l' : List (Bytes × Option LblCount)}
    (h : l.Perm l') :
    (j.extend majority includeBg l).bot = (j.extend majority includeBg l').bot ∧
    (j.extend majority includeBg l).norm = (j.extend majority includeBg l').norm ∧
    (j.extend majority includeBg l).kept = (j.extend majority includeBg l').kept ∧
    (j.extend majority includeBg l).unlabeled = (j.extend majority includeBg l').unlabeled ∧
    ((j.extend majority includeBg l).samples.getD []).Perm
      ((j.extend majority includeBg l').samples.getD []) := by
  have hentries := h.filterMap (entryOf majority includeBg)
  have htrain : ∀ (m : MarkovModel) (bot : Bool),
      m.train ((l.filterMap (entryOf majority includeBg)).filterMap fun e => if e.2 = bot
        then some e.1 else none) =
        m.train ((l'.filterMap (entryOf majority includeBg)).filterMap fun e =>
          if e.2 = bot then some e.1 else none) := fun m bot => train_perm m (hentries.filterMap _)
  refine ⟨?_, ?_, ?_, ?_, ?_⟩
  · simp only [Join.extend, htrain]
  · simp only [Join.extend, htrain]
  · simp only [Join.extend, hentries.length_eq]
  · simp only [Join.extend, h.countP_eq]
  · cases hs : j.samples with
    | none => simp [Join.extend, hs]
    | some old => simpa [Join.extend, hs] using hentries.append_left old

theorem confusion_perm (llr : Bytes → Rat) {l l' : List (Bytes × Bool)} (h : l.Perm l')
    (thr : Rat) :
    confusion llr l thr = confusion llr l' thr := by
  refine h.foldl_eq' (fun x _ y _ c => ?_) _
  obtain ⟨tp, fp, fn, tn⟩ := c
  cases x.2 <;> cases y.2 <;> cases decide (thr < llr x.1) <;> cases decide (thr < llr y.1) <;> rfl

theorem evaluate_perm (llr : Bytes → Rat) {l l' : List (Bytes × Bool)} (h : l.Perm l')
    (threshold : Rat) :
    evaluate llr l threshold = evaluate llr l' threshold := by
  unfold evaluate
  simp only [confusion_perm llr h, h.length_eq]

/-- The same state strings and the same flows under the same options, in other
orders and in other files. -/
structure Reordered (longMax : Nat) (A A' : Args) : Prop where
  trainStates : (stateLines A.trainStates).Perm (stateLines A'.trainStates)
  trainBf : (A.trainBf.flatMap (rowsOf longMax)).Perm (A'.trainBf.flatMap (rowsOf longMax))
  testStates : (stateLines A.testStates).Perm (stateLines A'.testStates)
  testBf : (A.testBf.flatMap (rowsOf longMax)).Perm (A'.testBf.flatMap (rowsOf longMax))
  tests : A.testStates = [] ↔ A'.testStates = []
  majority : A.majority = A'.majority
  includeBg : A.includeBg = A'.includeBg
  minFlows : A.minFlows = A'.minFlows
  k : A.k = A'.k
  threshold : A.threshold = A'.threshold

/-- What the lines of the state files are looked up as. -/
theorem looked_up_perm (longMax : Nat) {states states' files files' : List Bytes}
    (hs : (stateLines states).Perm (stateLines states'))
    (hf : (files.flatMap (rowsOf longMax)).Perm (files'.flatMap (rowsOf longMax))) :
    ((stateLines states).filterMap
      (lookup longMax (files.foldl (loadBfLabels longMax) .empty))).Perm
      ((stateLines states').filterMap
        (lookup longMax (files'.foldl (loadBfLabels longMax) .empty))) := by
  have hlookup : lookup longMax (files.foldl (loadBfLabels longMax) .empty) =
      lookup longMax (files'.foldl (loadBfLabels longMax) .empty) := by
    funext line
    unfold lookup
    simp only [find?_loaded_perm longMax hf]
  rw [hlookup]
  exact hs.filterMap _

theorem testStates_perm (log : Rat → Rat) {longMax : Nat} {A A' : Args} (h : Reordered longMax A A')
    (bot norm : MarkovModel) : testStates log longMax A bot norm =
      testStates log longMax A' bot norm := by
  obtain ⟨-, -, -, hunlabeled, hsamples⟩ :=
    extend_perm A.majority A.includeBg { samples := some [] }
    (looked_up_perm longMax h.testStates h.testBf)
  unfold testStates
  simp only [processStates_eq, ← h.majority, ← h.includeBg, ← h.threshold, hunlabeled,
    evaluate_perm _ hsamples]

/-- Neither the order of the 4-tuples in the export nor that of the flows in the
lists changes a model file or a number of the report. -/
theorem training_order_free (log : Rat → Rat) {longMax : Nat} {A A' : Args}
    (h : Reordered longMax A A') :
    runStatesMode log longMax A = runStatesMode log longMax A' := by
  obtain ⟨hbot, hnorm, hkept, hunlabeled, -⟩ := extend_perm A.majority A.includeBg
    { bot := some { label := lit "Botnet", k := A.k },
      norm := some { label := lit "Normal", k := A.k } }
    (looked_up_perm longMax h.trainStates h.trainBf)
  unfold runStatesMode
  simp only [processStates_eq, testStates_perm log h, h.tests, ← h.majority, ← h.includeBg,
    ← h.minFlows,
    ← h.k, hbot, hnorm, hkept, hunlabeled]

/-- Two 4-tuples of a botnet flow and a normal one, exported in either order. -/
def twoTuples (first second : String) : Args where
  trainStates := [lit "src,dst,dport,state\n" ++ lit first ++ lit second]
  trainBf := [lit "SrcAddr,DstAddr,Dport,Label\n10.0.0.5,10.9.9.9,443,From-Botnet\n" ++
    lit "10.9.9.9,10.0.0.6,443,To-Normal\n"]
  testStates := []
  testBf := []

theorem training_order_free_twoTuples :
    runStatesMode id (2 ^ 31 - 1)
      (twoTuples "10.0.0.5,10.9.9.9,443,a.a.\n" "10.0.0.6,10.9.9.9,443,b.b.\n") =
      runStatesMode id (2 ^ 31 - 1)
        (twoTuples "10.0.0.6,10.9.9.9,443,b.b.\n" "10.0.0.5,10.9.9.9,443,a.a.\n") := by
  refine training_order_free id ⟨?_, .refl _, .refl _, .refl _, .rfl, rfl, rfl, rfl, rfl, rfl⟩
  have hleft : stateLines (twoTuples "10.0.0.5,10.9.9.9,443,a.a.\n"
      "10.0.0.6,10.9.9.9,443,b.b.\n").trainStates =
        [lit "10.0.0.5,10.9.9.9,443,a.a.", lit "10.0.0.6,10.9.9.9,443,b.b."] := by decide
  have hright : stateLines (twoTuples "10.0.0.6,10.9.9.9,443,b.b.\n"
      "10.0.0.5,10.9.9.9,443,a.a.\n").trainStates =
        [lit "10.0.0.6,10.9.9.9,443,b.b.", lit "10.0.0.5,10.9.9.9,443,a.a."] := by decide
  rw [hleft, hright]
  exact .swap _ _ _

/-- A table is exported in the order of its iteration. -/
theorem stateLines_reorder (minFlows : Nat) (conns : UMap UInt64 BehConn)
    {l : List (UInt64 × BehConn)}
    (h : l.Perm conns.entries) :
    (stateLines [dumpBehavioralStates minFlows (conns.reorder l h)]).Perm
      (stateLines [dumpBehavioralStates minFlows conns]) := by
  simp only [stateLines, List.flatMap_cons, List.flatMap_nil, List.append_nil, segments_dump,
    List.tail_cons]
  exact (h.filterMap _).map _

end Wirewolf.L5.Training
