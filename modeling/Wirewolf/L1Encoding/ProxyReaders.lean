import Mathlib.Data.Fintype.Card
import Wirewolf.Core.BinarySearch
import Wirewolf.L1Encoding.ProxyFile

/-!
# The readers of the proxy table (`proxy_db.hpp`, `ip2location.dart`)

Two programs read what the converter writes: the sensor (`ProxyDb`), which
works on the bytes, and the app (`RangeDb`, `Ip2Loc.proxy`), which decodes
the strings. Both search the records for the last one that begins at the
address or before.

* `sensor_lookup`, `app_lookup`: either finds the row that contains the
  address, and nothing if there is none.
* `lookup_eq_row`: writer and readers composed, and `fields_garbled` the
  fields that do not survive.
-/
namespace Wirewolf.L1.ProxyReaders

open Wirewolf.L1.ProxyFile

/-! ## The sensor -/

structure Info where
  type : Bytes
  usage : Bytes
  threat : Bytes
  deriving DecidableEq

structure ProxyDb where
  data : Bytes := []
  strs : List Bytes := []
  rows : Nat := 0
  ready : Bool := false

/-- The path up to its last dot, with `.str` behind.
mirrors src/include/proxy_db.hpp:39-41 -/
def strPath (binPath : Bytes) : Bytes :=
  (match binPath.reverse.dropWhile (· ≠ 0x2E) with
    | [] => binPath
    | _ :: stem => stem.reverse) ++ lit ".str"

namespace ProxyDb

/-- mirrors src/include/proxy_db.hpp:25-60 -/
def load (db : ProxyDb) (files : Bytes → Option Bytes) (binPath : Bytes) : ProxyDb × Bool :=
  match files binPath with
  | none => (db, false)
  | some data =>
    if data.length < 12 then (db, false)
    else
      let strs := match files (strPath binPath) with
        | none => db.strs
        | some all => db.strs ++ all.splitOn 0x0A
      let rows := data.length / 12
      let ready := 0 < rows && !strs.isEmpty
      (⟨data, strs, rows, ready⟩, ready)

/-- The fields of a text, up to its tabs.
mirrors src/include/proxy_db.hpp:86-96 -/
def info (s : Bytes) : Info :=
  let t₁ := Search.find s [0x09] 0
  let t₂ := t₁.bind fun t => Search.find s [0x09] (t + 1)
  let t₃ := t₂.bind fun t => Search.find s [0x09] (t + 1)
  { type := match t₁ with
      | none => s
      | some t₁ => Search.substr s 0 t₁
    usage := match t₁, t₂ with
      | some t₁, some t₂ => Search.substr s (t₁ + 1) (t₂ - t₁ - 1)
      | _, _ => []
    threat := match t₂, t₃ with
      | some t₂, some t₃ => Search.substr s (t₂ + 1) (t₃ - t₂ - 1)
      | _, _ => [] }

/-- mirrors src/include/proxy_db.hpp:65-105 -/
def lookup (db : ProxyDb) (ip : UInt32) : Option Info :=
  if !db.ready then none
  else
    let ans := BinarySearch.search (fun mid => Wire.u32At db.data (12 * mid) ≤ ip) db.rows
    if ans < 0 then none
    else
      let off := 12 * ans.toNat
      -- past range end
      if Wire.u32At db.data (off + 4) < ip then none
      else (db.strs[(Wire.u32At db.data (off + 8)).toNat]?).map info

end ProxyDb

/-! ## The app -/

/-- mirrors src/flutter_app/lib/ffi/ip2location.dart:9-22 -/
structure RangeDb where
  bytes : Bytes
  rowBytes : Nat
  rows : Nat
  str : List (List Char)

structure IpProxy where
  type : List Char
  usage : List Char
  threat : List Char
  fraud : List Char
  deriving DecidableEq

namespace RangeDb

/-- A malformed table of strings is not set.
mirrors src/flutter_app/lib/ffi/ip2location.dart:16-20 -/
def load (rowBytes : Nat) (bin str : Bytes) : RangeDb :=
  ⟨bin, rowBytes, bin.length / rowBytes, ((Latin1.decode str).map (List.splitOn '\n')).getD []⟩

def ready (db : RangeDb) : Bool := 0 < db.rows

/-- The offset of the row, `none` for `-1`.
mirrors src/flutter_app/lib/ffi/ip2location.dart:25-44 -/
def find (db : RangeDb) (ip : Nat) : Option Nat :=
  let ans := BinarySearch.search
    (fun mid => (Wire.u32At db.bytes (db.rowBytes * mid)).toNat ≤ ip) db.rows
  if ans < 0 then none
  else
    let off := db.rowBytes * ans.toNat
    if (Wire.u32At db.bytes (off + 4)).toNat < ip then none else some off

/-- mirrors src/flutter_app/lib/ffi/ip2location.dart:48 -/
def strAt (db : RangeDb) (i : Nat) : List Char := (db.str[i]?).getD []

end RangeDb

/-- mirrors src/flutter_app/lib/ffi/ip2location.dart:80-81 -/
def ipNum (o : List Nat) : Nat :=
  o.getD 0 0 * 16777216 + o.getD 1 0 * 65536 + o.getD 2 0 * 256 + o.getD 3 0

/-- mirrors src/flutter_app/lib/ffi/ip2location.dart:116-127 -/
def proxy (db : RangeDb) (o : List Nat) : Option IpProxy :=
  if !db.ready then none
  else (db.find (ipNum o)).map fun off =>
    let p := (db.strAt (Wire.u32At db.bytes (off + 8)).toNat).splitOn '\t'
    ⟨p.getD 0 ['-'], p.getD 1 ['-'], p.getD 2 ['-'], p.getD 3 ['-']⟩

/-- The octets of an address. -/
def octets (ip : UInt32) : List Nat :=
  [ip.toNat / 16777216, ip.toNat / 65536 % 256, ip.toNat / 256 % 256, ip.toNat % 256]

theorem ipNum_octets (ip : UInt32) : ipNum (octets ip) = ip.toNat := by
  show ip.toNat / 16777216 * 16777216 + ip.toNat / 65536 % 256 * 65536 +
    ip.toNat / 256 % 256 * 256 + ip.toNat % 256 = ip.toNat
  omega

/-! ## The fields of a text -/

theorem find_tab {f : Bytes} (h : 0x09 ∉ f) (pre rest : Bytes) :
    Search.find (pre ++ (f ++ 0x09 :: rest)) [0x09] pre.length = some (pre.length + f.length) := by
  rw [Search.find_append, Search.indexOf_char h]
  rfl

theorem substr_middle (pre f rest : Bytes) :
    Search.substr (pre ++ (f ++ rest)) pre.length f.length = f := by
  rw [Search.substr, List.drop_left, List.take_left]

theorem info_tabs {a b c : Bytes} (ha : 0x09 ∉ a) (hb : 0x09 ∉ b) (hc : 0x09 ∉ c) (d : Bytes) :
    ProxyDb.info (a ++ 0x09 :: b ++ 0x09 :: c ++ 0x09 :: d) = ⟨a, b, c⟩ := by
  generalize hs : a ++ 0x09 :: b ++ 0x09 :: c ++ 0x09 :: d = s
  have e₁ : s = [] ++ (a ++ 0x09 :: (b ++ 0x09 :: c ++ 0x09 :: d)) := by simp [← hs]
  have e₂ : s = (a ++ [0x09]) ++ (b ++ 0x09 :: (c ++ 0x09 :: d)) := by simp [← hs]
  have e₃ : s = (a ++ [0x09] ++ b ++ [0x09]) ++ (c ++ 0x09 :: d) := by simp [← hs]
  have l₂ : (a ++ [0x09]).length = a.length + 1 := by simp
  have l₃ : (a ++ [0x09] ++ b ++ [0x09]).length = a.length + 1 + b.length + 1 := by
    simp only [List.length_append, List.length_singleton]
  have t₁ := find_tab ha [] (b ++ 0x09 :: c ++ 0x09 :: d)
  have t₂ := find_tab hb (a ++ [0x09]) (c ++ 0x09 :: d)
  have t₃ := find_tab hc (a ++ [0x09] ++ b ++ [0x09]) d
  rw [← e₁, List.length_nil, Nat.zero_add] at t₁
  rw [← e₂, l₂] at t₂
  rw [← e₃, l₃] at t₃
  have s₁ := substr_middle [] a (0x09 :: (b ++ 0x09 :: c ++ 0x09 :: d))
  have s₂ := substr_middle (a ++ [0x09]) b (0x09 :: (c ++ 0x09 :: d))
  have s₃ := substr_middle (a ++ [0x09] ++ b ++ [0x09]) c (0x09 :: d)
  rw [← e₁, List.length_nil] at s₁
  rw [← e₂, l₂] at s₂
  rw [← e₃, l₃] at s₃
  have n₂ : a.length + 1 + b.length - a.length - 1 = b.length := by omega
  have n₃ : a.length + 1 + b.length + 1 + c.length - (a.length + 1 + b.length) - 1 =
      c.length := by omega
  unfold ProxyDb.info
  simp only [t₁, Option.bind_some, t₂, t₃, s₁, n₂, s₂, n₃, s₃]

/-! ## The strings of the table -/

theorem column_not_mem {c : UInt8} (hdash : c ≠ 0x2D) {f : List Bytes}
    (h : ∀ s ∈ f, c ∉ s) (i : Nat) :
    c ∉ column f i := by
  rw [column, List.getD_eq_getElem?_getD]
  cases hget : f[i]? with
  | none => exact fun hc => hdash (List.mem_singleton.1 hc)
  | some s => exact h s (List.mem_of_getElem? hget)

section Fields

variable {r : Row} (h : r.Plain)

include h

theorem tab_not_mem_column (i : Nat) : 0x09 ∉ column r.fields i :=
  column_not_mem (by decide) (fields_not_mem (by decide) fun f hf => (h f hf).1) i

theorem newline_not_mem_entry : 0x0A ∉ entry r.fields := by
  have hcol : ∀ i, 0x0A ∉ column r.fields i := fun i =>
    column_not_mem (by decide) (fields_not_mem (by decide) fun f hf => (h f hf).2.1) i
  have htab : (0x0A : UInt8) ≠ 0x09 := by decide
  simp only [entry, List.mem_append, List.mem_cons, hcol, htab, or_self, not_false_eq_true]

theorem info_entry (hascii : Latin1.Ascii r.type ∧ Latin1.Ascii r.usage ∧ Latin1.Ascii r.threat) :
    ProxyDb.info (Latin1.utf8 (entry r.fields)) = ⟨r.type, r.usage, r.threat⟩ := by
  obtain ⟨htype, husage, hthreat⟩ := hascii
  have htab : Latin1.utf8Byte 0x09 = [0x09] := by decide
  have hentry : Latin1.utf8 (entry r.fields) =
      r.type ++ 0x09 :: r.usage ++ 0x09 :: r.threat ++ 0x09 ::
        Latin1.utf8 (column r.fields 15) := by
    show Latin1.utf8 (r.type ++ 0x09 :: r.usage ++ 0x09 :: r.threat ++ 0x09 :: column r.fields 15) =
      _
    simp only [Latin1.utf8_append, Latin1.utf8_cons, htab, Latin1.utf8_eq_self htype,
      Latin1.utf8_eq_self husage, Latin1.utf8_eq_self hthreat]
    rfl
  rw [hentry]
  exact info_tabs (tab_not_mem_column h 2) (tab_not_mem_column h 9) (tab_not_mem_column h 13) _

theorem splitOn_entry : (Latin1.text (entry r.fields)).splitOn '\t' =
    [Latin1.text r.type, Latin1.text r.usage, Latin1.text r.threat,
      Latin1.text (column r.fields 15)] := by
  have hentry : entry r.fields =
      [0x09].intercalate [r.type, r.usage, r.threat, column r.fields 15] := by
    show r.type ++ 0x09 :: r.usage ++ 0x09 :: r.threat ++ 0x09 :: column r.fields 15 = _
    simp [List.intercalate_cons_cons]
  rw [hentry, Latin1.text_intercalate]
  refine List.splitOn_intercalate '\t' (fun l hl => ?_) (List.cons_ne_nil _ _)
  have htab : ∀ i, '\t' ∉ Latin1.text (column r.fields i) := fun i hm =>
    tab_not_mem_column h i (Latin1.mem_text_iff (c := 0x09).1 hm)
  simp only [List.map_cons, List.map_nil, List.mem_cons, List.not_mem_nil, or_false] at hl
  rcases hl with rfl | rfl | rfl | rfl
  · exact htab 2
  · exact htab 9
  · exact htab 13
  · exact htab 15

end Fields

section Table

variable {rows : List Row} (hne : rows ≠ []) (h : ∀ r ∈ rows, r.Plain)

theorem table_find {r : Row} (hr : r ∈ rows) :
    (table rows).list[(table rows).indexOf (entry r.fields)]? = some (entry r.fields) := by
  obtain ⟨i, hi⟩ := StrTable.internAll_mem .empty (entry r.fields)
    (List.mem_map_of_mem (f := fun r => entry r.fields) hr)
  rw [table, StrTable.indexOf_eq hi]
  exact (StrTable.agree _ _ _).1 hi

theorem table_mem {s : Bytes} (hs : s ∈ (table rows).list) : ∃ r ∈ rows, s = entry r.fields := by
  rcases (StrTable.internAll_list .empty _).2 s hs with he | hm
  · cases he
  · obtain ⟨r, hr, rfl⟩ := List.mem_map.1 hm
    exact ⟨r, hr, rfl⟩

theorem table_length : (table rows).list.length ≤ rows.length := by
  have := (StrTable.internAll_list .empty (rows.map fun r => entry r.fields)).1
  rwa [List.length_map, show StrTable.empty.list.length = 0 from rfl, Nat.zero_add] at this

include hne in
theorem table_ne_nil : (table rows).list ≠ [] := by
  obtain ⟨r, hr⟩ := List.exists_mem_of_ne_nil rows hne
  intro he
  have := table_find hr
  rw [he] at this
  cases this

include hne h

theorem splitOn_file : (table rows).file.splitOn 0x0A = (table rows).list.map Latin1.utf8 := by
  rw [StrTable.file, Latin1.utf8_intercalate (by decide)]
  refine List.splitOn_intercalate _ (fun l hl => ?_) (by simpa using table_ne_nil hne)
  obtain ⟨s, hs, rfl⟩ := List.mem_map.1 hl
  obtain ⟨r, hr, rfl⟩ := table_mem hs
  rw [Latin1.mem_utf8_iff (by decide)]
  exact newline_not_mem_entry (h r hr)

theorem splitOn_decode : (Latin1.decode (table rows).file).map (List.splitOn '\n') =
    some ((table rows).list.map Latin1.text) := by
  rw [StrTable.file, Latin1.decode_utf8, Option.map_some, Latin1.text_intercalate]
  refine congrArg some (List.splitOn_intercalate '\n' (fun l hl => ?_)
    (by simpa using table_ne_nil hne))
  obtain ⟨s, hs, rfl⟩ := List.mem_map.1 hl
  obtain ⟨r, hr, rfl⟩ := table_mem hs
  intro hm
  exact newline_not_mem_entry (h r hr) (Latin1.mem_text_iff (c := 0x0A).1 hm)

end Table

/-! ## The records -/

/-- Sorted by first address, and no address in two rows. -/
structure Ordered (rows : List Row) : Prop where
  sorted : rows.Pairwise fun r s => r.first ≤ s.first
  disjoint : rows.Pairwise fun r s => ∀ ip, ¬ (r.Contains ip ∧ s.Contains ip)

/-- The row that contains the address. -/
def rowOf (rows : List Row) (ip : UInt32) : Option Row := rows.find? fun r => r.Contains ip

section Records

variable {rows : List Row} (t : StrTable)

theorem Ordered.lt (h : Ordered rows) : rows.Pairwise fun r s => r.last.toNat < s.first.toNat := by
  refine (h.sorted.and h.disjoint).imp ?_
  intro r s hrs
  refine Nat.lt_of_not_le fun hle => hrs.2 s.first ⟨⟨hrs.1, ?_⟩, UInt32.le_refl _, s.le⟩
  exact UInt32.le_iff_toNat_le.2 hle

theorem record_length (r : Row) :
    (record r.first r.last (t.indexOf (entry r.fields))).length = 12 := rfl

theorem records_length : (records t rows).length = 12 * rows.length :=
  Wire.length_records (record_length t) rows

theorem u32At_records {i : Nat} (hi : i < rows.length) :
    Wire.u32At (records t rows) (12 * i) = rows[i].first ∧
    Wire.u32At (records t rows) (12 * i + 4) = rows[i].last ∧
    Wire.u32At (records t rows) (12 * i + 8) = .ofNat (t.indexOf (entry rows[i].fields)) := by
  have h₀ : (records t rows).drop (12 * i) = Wire.le32 rows[i].first ++ (Wire.le32 rows[i].last ++
      (Wire.le32 (.ofNat (t.indexOf (entry rows[i].fields))) ++
        records t (rows.drop (i + 1)))) := by
    rw [records, Wire.drop_records (record_length t), List.drop_eq_getElem_cons hi,
      List.flatMap_cons,
      record, List.append_assoc, List.append_assoc]
    rfl
  have h₄ := congrArg (List.drop 4) h₀
  have h₈ := congrArg (List.drop 4) h₄
  rw [List.drop_drop] at h₄ h₈
  rw [List.drop_drop] at h₈
  exact ⟨Wire.u32At_of_drop h₀, Wire.u32At_of_drop h₄, Wire.u32At_of_drop h₈⟩

/-- The search ends at the row that contains the address, or at one that does
not when no row does. -/
theorem search_records (h : Ordered rows) (ip : UInt32) :
    (BinarySearch.search (fun mid => (Wire.u32At (records t rows) (12 * mid)).toNat ≤ ip.toNat)
        rows.length = -1 ∧ rowOf rows ip = none) ∨
    ∃ (k : Nat) (hk : k < rows.length),
      BinarySearch.search (fun mid => (Wire.u32At (records t rows) (12 * mid)).toNat ≤ ip.toNat)
        rows.length = k ∧
      rowOf rows ip = if ip.toNat ≤ rows[k].last.toNat then some rows[k] else none := by
  have hcontains : ∀ i (hi : i < rows.length), rows[i].Contains ip ↔
      (Wire.u32At (records t rows) (12 * i)).toNat ≤ ip.toNat ∧
        ip.toNat ≤ (Wire.u32At (records t rows) (12 * i + 4)).toNat := by
    intro i hi
    rw [(u32At_records t hi).1, (u32At_records t hi).2.1]
    exact Iff.rfl
  have hsearch := BinarySearch.search_ranges (n := rows.length)
    (fun i => (Wire.u32At (records t rows) (12 * i)).toNat)
    (fun i => (Wire.u32At (records t rows) (12 * i + 4)).toNat) (fun i hi => by
      rw [(u32At_records t hi).1, (u32At_records t hi).2.1]
      exact UInt32.le_iff_toNat_le.1 rows[i].le) (fun i j hij hj => by
      have hi : i < rows.length := Nat.lt_trans hij hj
      rw [(u32At_records t hi).2.1, (u32At_records t hj).1]
      exact List.pairwise_iff_getElem.1 h.lt i j hi hj hij) ip.toNat
  rcases hsearch with ⟨hans, hnone⟩ | ⟨k, hk, hans, hiff⟩
  · refine .inl ⟨hans, List.find?_eq_none.2 fun r hr => ?_⟩
    obtain ⟨i, hi, rfl⟩ := List.getElem_of_mem hr
    rw [decide_eq_true_eq, hcontains i hi]
    exact hnone i hi
  · refine .inr ⟨k, hk, hans, ?_⟩
    have hlast := (u32At_records t hk).2.1
    split
    · next hle =>
      rw [rowOf, List.find?_eq_some_iff_getElem, decide_eq_true_eq, hcontains k hk]
      refine ⟨(hiff k hk).2 ⟨rfl, by rwa [hlast]⟩, k, hk, rfl, fun j hj => ?_⟩
      rw [Bool.not_eq_true', decide_eq_false_iff_not, hcontains j (Nat.lt_trans hj hk)]
      exact fun hc => Nat.ne_of_lt hj ((hiff j (Nat.lt_trans hj hk)).1 hc).1
    · next hgt =>
      refine List.find?_eq_none.2 fun r hr => ?_
      obtain ⟨i, hi, rfl⟩ := List.getElem_of_mem hr
      rw [decide_eq_true_eq, hcontains i hi, hiff i hi, hlast]
      exact fun hc => hgt hc.2

/-- Disjoint rows are at most as many as there are addresses. -/
theorem rows_length_le (h : Ordered rows) : rows.length ≤ 2 ^ 32 := by
  have hnodup : (rows.map fun r => r.first.toFin).Nodup := by
    rw [List.Nodup, List.pairwise_map]
    refine h.lt.imp_of_mem ?_
    intro r s _ _ hrs heq
    have hfirst : r.first.toNat = s.first.toNat := congrArg Fin.val heq
    have := UInt32.le_iff_toNat_le.1 r.le
    omega
  have := hnodup.length_le_card
  rwa [List.length_map, Fintype.card_fin] at this

theorem index_toNat (h : Ordered rows) {r : Row} (hr : r ∈ rows) :
    (UInt32.ofNat ((table rows).indexOf (entry r.fields))).toNat =
      (table rows).indexOf (entry r.fields) := by
  have hlt := (List.getElem?_eq_some_iff.1 (table_find hr)).1
  have htable : (table rows).list.length ≤ rows.length := table_length
  have hrows := rows_length_le h
  rw [UInt32.toNat_ofNat']
  omega

end Records

/-! ## Writer and readers -/

/-- The files of the converter, in a directory of the sensor. -/
def files (dir bin str : Bytes) (path : Bytes) : Option Bytes :=
  if path = dir ++ lit "proxy.bin" then some bin
  else if path = dir ++ lit "proxy.str" then some str
  else none

theorem strPath_bin (dir : Bytes) : strPath (dir ++ lit "proxy.bin") = dir ++ lit "proxy.str" := by
  have hbin : lit "proxy.bin" = lit "proxy" ++ 0x2E :: lit "bin" := by decide
  have hstr : lit "proxy.str" = lit "proxy" ++ lit ".str" := by decide
  have hdrop : (dir ++ (lit "proxy" ++ 0x2E :: lit "bin")).reverse.dropWhile (· ≠ 0x2E) =
      0x2E :: (dir ++ lit "proxy").reverse := by
    have hrev : (dir ++ (lit "proxy" ++ 0x2E :: lit "bin")).reverse =
        (lit "bin").reverse ++ 0x2E :: (dir ++ lit "proxy").reverse := by simp
    rw [hrev, List.dropWhile_append_of_pos (List.all_eq_true.1 (by decide))]
    rfl
  rw [strPath, hbin, hdrop, hstr]
  dsimp only
  rw [List.reverse_reverse, List.append_assoc]

section Readers

variable {rows : List Row} (hne : rows ≠ []) (h : Ordered rows) (hplain : ∀ r ∈ rows, r.Plain)

include hne hplain

theorem sensor_load (dir : Bytes) :
    ProxyDb.load {} (files dir (records (table rows) rows) (table rows).file)
      (dir ++ lit "proxy.bin") =
    (⟨records (table rows) rows, (table rows).list.map Latin1.utf8, rows.length, true⟩, true) := by
  have hpos := List.length_pos_iff.2 hne
  have hother : dir ++ lit "proxy.str" ≠ dir ++ lit "proxy.bin" := by
    rw [ne_eq, List.append_cancel_left_eq]
    decide
  have hready : (decide (0 < 12 * rows.length / 12) &&
      !(List.map Latin1.utf8 (table rows).list).isEmpty) = true := by
    rw [Bool.and_eq_true, decide_eq_true_eq, Bool.not_eq_true', List.isEmpty_eq_false_iff, ne_eq,
      List.map_eq_nil_iff]
    exact ⟨by omega, table_ne_nil hne⟩
  unfold ProxyDb.load
  simp only [strPath_bin, files, if_true, if_neg hother, records_length,
    splitOn_file hne hplain, List.nil_append]
  rw [if_neg (by omega), hready, Nat.mul_div_cancel_left _ (by decide)]

include h

omit hne in
theorem sensor_lookup (hascii : ∀ r ∈ rows, Latin1.Ascii r.type ∧ Latin1.Ascii r.usage ∧
    Latin1.Ascii r.threat) (ip : UInt32) :
    ProxyDb.lookup ⟨records (table rows) rows, (table rows).list.map Latin1.utf8, rows.length, true⟩
      ip = (rowOf rows ip).map fun r => ⟨r.type, r.usage, r.threat⟩ := by
  have hkey : (fun mid => decide (Wire.u32At (records (table rows) rows) (12 * mid) ≤ ip)) =
      fun mid => decide ((Wire.u32At (records (table rows) rows) (12 * mid)).toNat ≤ ip.toNat) :=
        rfl
  unfold ProxyDb.lookup
  dsimp only
  rw [hkey, if_neg (by decide)]
  rcases search_records (table rows) h ip with ⟨hans, hrow⟩ | ⟨k, hk, hans, hrow⟩
  · rw [hans, hrow, if_pos (by decide)]
    rfl
  · obtain ⟨-, hlast, hindex⟩ := u32At_records (table rows) hk
    have hmem := List.getElem_mem hk
    rw [hans, hrow, if_neg (by omega), Int.toNat_natCast, hlast, hindex, index_toNat h hmem,
      List.getElem?_map, table_find hmem, Option.map_some, Option.map_some,
      info_entry (hplain _ hmem) (hascii _ hmem)]
    by_cases hle : ip.toNat ≤ rows[k].last.toNat
    · rw [if_pos hle, if_neg fun hlt => Nat.not_lt.2 hle (UInt32.lt_iff_toNat_lt.1 hlt)]
      rfl
    · rw [if_neg hle, if_pos (UInt32.lt_iff_toNat_lt.2 (Nat.lt_of_not_le hle))]
      rfl

/-- What the app makes of a row. -/
def IpProxy.ofRow (r : Row) : IpProxy :=
  ⟨Latin1.text r.type, Latin1.text r.usage, Latin1.text r.threat, Latin1.text (column r.fields 15)⟩

theorem app_lookup (ip : UInt32) :
    proxy (RangeDb.load 12 (records (table rows) rows) (table rows).file) (octets ip) =
      (rowOf rows ip).map IpProxy.ofRow := by
  have hpos := List.length_pos_iff.2 hne
  have hload : RangeDb.load 12 (records (table rows) rows) (table rows).file =
      ⟨records (table rows) rows, 12, rows.length, (table rows).list.map Latin1.text⟩ := by
    rw [RangeDb.load, splitOn_decode hne hplain, records_length,
      Nat.mul_div_cancel_left _ (by decide)]
    rfl
  rw [hload, proxy, ipNum_octets]
  rw [if_neg (by simpa [RangeDb.ready] using hne), RangeDb.find]
  dsimp only
  rcases search_records (table rows) h ip with ⟨hans, hrow⟩ | ⟨k, hk, hans, hrow⟩
  · rw [hans, hrow, if_pos (by decide)]
    rfl
  · obtain ⟨-, hlast, hindex⟩ := u32At_records (table rows) hk
    have hmem := List.getElem_mem hk
    rw [hans, hrow, if_neg (by omega), Int.toNat_natCast, hlast]
    by_cases hle : ip.toNat ≤ rows[k].last.toNat
    · rw [if_pos hle, if_neg (Nat.not_lt.2 hle), Option.map_some, Option.map_some, hindex,
        index_toNat h hmem, RangeDb.strAt, List.getElem?_map, table_find hmem, Option.map_some,
        Option.getD_some, splitOn_entry (hplain _ hmem)]
      rfl
    · rw [if_neg hle, if_pos (Nat.lt_of_not_le hle)]
      rfl

end Readers

/-- The converter's output in the sensor, and a lookup. -/
def sensorLookup (crlf : Bool) (rows : List Row) (dir : Bytes) (ip : UInt32) : Option Info :=
  (convert emitProxy (csv crlf rows)).bind fun out =>
    let db := ProxyDb.load {} (files dir out.1 out.2.file) (dir ++ lit "proxy.bin")
    if db.2 then db.1.lookup ip else none

/-- The converter's output in the app, and a lookup. -/
def appLookup (crlf : Bool) (rows : List Row) (ip : UInt32) : Option IpProxy :=
  (convert emitProxy (csv crlf rows)).bind fun out =>
    proxy (RangeDb.load 12 out.1 out.2.file) (octets ip)

/-- Sensor and app find the row that contains the address, with its fields,
and nothing if no row does. The columns do not end in quote and comma where
another follows, and the three fields are ASCII. -/
theorem lookup_eq_row (crlf : Bool) (rows : List Row) (dir : Bytes) (hne : rows ≠ [])
    (h : Ordered rows) (hplain : ∀ r ∈ rows, r.Plain) (hapart : ∀ r ∈ rows, r.Apart)
    (hascii : ∀ r ∈ rows, Latin1.Ascii r.type ∧ Latin1.Ascii r.usage ∧ Latin1.Ascii r.threat)
    (ip : UInt32) :
    sensorLookup crlf rows dir ip = (rowOf rows ip).map (fun r => ⟨r.type, r.usage, r.threat⟩) ∧
    appLookup crlf rows ip = (rowOf rows ip).map IpProxy.ofRow := by
  have hconvert := convert_csv crlf fun r hr => ⟨hplain r hr, hapart r hr⟩
  refine ⟨?_, ?_⟩
  · rw [sensorLookup, hconvert, Option.bind_some]
    dsimp only
    rw [sensor_load hne hplain, if_pos rfl]
    exact sensor_lookup h hplain hascii ip
  · rw [appLookup, hconvert, Option.bind_some]
    exact app_lookup hne h hplain ip

/-! ## Inputs -/

def columnsOf (type usage threat : Bytes) : List Bytes :=
  [type] ++ List.replicate 6 (lit "-") ++ [usage] ++ List.replicate 3 (lit "-") ++ [threat] ++
    [lit "-", lit "90"]

def vpn : Row := ⟨16777216, 16777471, columnsOf (lit "VPN") (lit "DCH") (lit "-"), by decide⟩

def tor : Row := ⟨16778240, 16778240, columnsOf (lit "TOR") (lit "ISP") (lit "SCANNER"), by decide⟩

/-- An address in the second row, and one between the two. -/
theorem lookup_eq_row_tor :
    sensorLookup true [vpn, tor] (lit "geo/") 16778240 =
      some ⟨lit "TOR", lit "ISP", lit "SCANNER"⟩ ∧
    sensorLookup true [vpn, tor] (lit "geo/") 16777472 = none := by
  have hordered : Ordered [vpn, tor] := by
    refine ⟨by decide, List.pairwise_pair.2 fun ip hip => ?_⟩
    exact absurd (UInt32.le_trans hip.2.1 hip.1.2) (by decide)
  have hrun := lookup_eq_row true [vpn, tor] (lit "geo/") (List.cons_ne_nil _ _) hordered
    (by decide) (by decide) (by decide)
  exact ⟨(hrun 16778240).1.trans (by decide), (hrun 16777472).1.trans (by decide)⟩

/-- The row is a table of its own, and the sensor does not give its fields back. -/
def Garbled (r : Row) : Prop :=
  Ordered [r] ∧ r.Plain ∧ r.Contains r.first ∧
    sensorLookup true [r] (lit "geo/") r.first ≠ some ⟨r.type, r.usage, r.threat⟩

/-- A field that ends in quote and comma loses both to the next one. -/
def quoted : Row := ⟨16777216, 16777471, columnsOf (lit "VPN\",") (lit "DCH") (lit "-"), by decide⟩

/-- A letter outside ASCII. -/
def accented : Row := ⟨16777216, 16777471, columnsOf (lit "é") (lit "DCH") (lit "-"), by decide⟩

theorem fields_garbled : Garbled quoted ∧ Garbled accented := by
  have hordered : ∀ r : Row, Ordered [r] := fun r =>
    ⟨List.pairwise_singleton _ r, List.pairwise_singleton _ r⟩
  exact ⟨⟨hordered _, by decide, by decide, by decide⟩,
    ⟨hordered _, by decide, by decide, by decide⟩⟩

end Wirewolf.L1.ProxyReaders
