import Mathlib.Data.List.TakeWhile
import Wirewolf.Core.Reading
import Wirewolf.L1Encoding.TlsHello

/-!
# What `parse_tls_client_hello` reads

`readTlsClientHello` is the parser with its subscripts and with loop counters
of the source's widths; every loop ends because its counter stays below the
length it counts to. Its value is that of `parseTlsClientHello`.

* `readTlsClientHello_value`: the two agree on every byte vector.
* `reads_within_iff`: every subscript is inside the vector unless the
  extensions end in a server name of length zero at the end of the vector,
  whose address is one behind it.
-/
namespace Wirewolf.L1.TlsReads

open Wirewolf.L1.TlsHello

/-! ## The parser with its subscripts -/

/-- `p[k]`; what lies behind the vector plays no part as long as the
subscripts are `Within` it. -/
def readByte (p : Bytes) (k : Nat) : Reading UInt8 := .subscript (p.getD · 0) k

/-- `(p[k] << 8) | p[k + 1]` -/
def read16 (p : Bytes) (k : Nat) : Reading UInt16 := .be16 (p.getD · 0) k

/-- The two-byte values from `base` on, without the GREASE values.
mirrors src/include/tls_inspector.hpp:141-144,187-190 -/
def readPairs (p : Bytes) (base : Nat) (len : UInt16) (more : Nat → Bool) (i : UInt16) :
    Reading (List Nat) :=
  if i.toNat + 1 < len.toNat ∧ more i.toNat then do
    let c ← read16 p (base + i.toNat)
    let cs ← readPairs p base len more (i + 2)
    return if isGrease c.toNat then cs else c.toNat :: cs
  else return []
termination_by len.toNat - i.toNat
decreasing_by
  have hlen := len.toNat_lt
  have hnext : (i + 2).toNat = i.toNat + 2 := by
    rw [UInt16.toNat_add, show (2 : UInt16).toNat = 2 from rfl, Nat.mod_eq_of_lt (by omega)]
  omega

/-- mirrors src/include/tls_inspector.hpp:196-197 -/
def readFormats (p : Bytes) (base : Nat) (len : UInt8) (more : Nat → Bool) (i : UInt8) :
    Reading (List Nat) :=
  if i.toNat < len.toNat ∧ more i.toNat then do
    let c ← readByte p (base + i.toNat)
    let cs ← readFormats p base len more (i + 1)
    return c.toNat :: cs
  else return []
termination_by len.toNat - i.toNat
decreasing_by
  have hlen := len.toNat_lt
  have hnext : (i + 1).toNat = i.toNat + 1 := by
    rw [UInt8.toNat_add, show (1 : UInt8).toNat = 1 from rfl, Nat.mod_eq_of_lt (by omega)]
  omega

/-- mirrors src/include/tls_inspector.hpp:176-182 -/
def readServerName (p : Bytes) (pos elen : Nat) : Reading (Option Bytes) := do
  let sp := pos + 2 + 1
  if sp + 2 ≤ pos + elen then
    let nameLen ← read16 p sp
    if sp + 2 + nameLen.toNat ≤ pos + elen then
      let name ← Reading.slice (p.getD · 0) (sp + 2) nameLen.toNat
      return some name.val
    else return none
  else return none

/-- mirrors src/include/tls_inspector.hpp:172-199 -/
def readExtension (x : Extensions) (p : Bytes) (etype pos elen : Nat) : Reading Extensions := do
  let x := if isGrease etype then x else { x with extensions := x.extensions ++ [etype] }
  if etype = 0x0000 ∧ 5 ≤ elen then
    let name ← readServerName p pos elen
    return { x with sni := name.getD x.sni }
  else if etype = 0x000a then
    if 2 ≤ elen then
      let listLen ← read16 p pos
      let curves ← readPairs p (pos + 2) listLen (fun i => pos + 2 + i + 1 < pos + elen) 0
      return { x with curves := x.curves ++ curves }
    else return x
  else if etype = 0x000b then
    if 1 ≤ elen then
      let listLen ← readByte p pos
      let formats ← readFormats p (pos + 1) listLen (fun i => pos + 1 + i < pos + elen) 0
      return { x with formats := x.formats ++ formats }
    else return x
  else return x

/-- mirrors src/include/tls_inspector.hpp:167-201 -/
def readExtensions (p : Bytes) (pos extEnd : Nat) (x : Extensions) : Reading Extensions :=
  if pos + 4 ≤ extEnd then do
    let etype ← read16 p pos
    let elen ← read16 p (pos + 2)
    if extEnd < pos + 4 + elen.toNat then return x
    else
      let x ← readExtension x p etype.toNat (pos + 4) elen.toNat
      readExtensions p (pos + 4 + elen.toNat) extEnd x
  else return x
termination_by extEnd - pos

/-- mirrors src/include/tls_inspector.hpp:136-216 -/
def readSuites (p : Bytes) (clientVersion pos : Nat) : Reading (Option TlsInfo) := do
  let csLen ← read16 p pos
  let csPos := pos + 2
  if p.length < csPos + csLen.toNat then return none
  else
    let ciphers ← readPairs p csPos csLen (fun _ => true) 0
    let compPos := csPos + csLen.toNat
    if p.length ≤ compPos then return none
    else
      let compLen ← readByte p compPos
      let extPos := compPos + 1 + compLen.toNat
      if p.length < extPos + 2 then return some {}
      else
        let extTotal ← read16 p extPos
        let extEnd := min (extPos + 2 + extTotal.toNat) p.length
        let x ← readExtensions p (extPos + 2) extEnd {}
        let ja3 := ja3String clientVersion ciphers x
        return some { sni := x.sni, ja3 := ja3, ja3Hash := Md5.hash ja3 }

/-- mirrors src/include/tls_inspector.hpp:111-217 -/
def readTlsClientHello (p : Bytes) : Reading (Option TlsInfo) := do
  if p.length < 6 then return none
  else
    let type ← readByte p 0
    if type ≠ 0x16 then return none
    else if p.length < 9 then return none
    else
      let handshake ← readByte p 5
      if handshake ≠ 0x01 then return none
      else if p.length < 11 then return none
      else
        let clientVersion ← read16 p 9
        if p.length ≤ 43 then return none
        else
          let sidLen ← readByte p 43
          let pos := 43 + 1 + sidLen.toNat
          if p.length < pos + 2 then return none
          else readSuites p clientVersion.toNat pos

/-! ## Its value -/

@[simp] theorem readByte_value (p : Bytes) (k : Nat) :
    (readByte p k).value.toNat = byteAt p k := by
  rw [readByte, Reading.value_subscript, byteAt]

@[simp] theorem read16_value (p : Bytes) (k : Nat) : (read16 p k).value.toNat = be16At p k :=
  Reading.toNat_be16 _ k

/-- What is left of the loop when its counter is `2 * k`. -/
theorem readPairs_value (p : Bytes) (base : Nat) (len : UInt16) (more : Nat → Bool) (d : Nat) :
    ∀ k, k + d = len.toNat / 2 → (readPairs p base len more (.ofNat (2 * k))).value =
      ((((List.range' k d).takeWhile fun j => more (2 * j)).map fun j =>
        be16At p (base + 2 * j)).filter (!isGrease ·)) := by
  have hlen := len.toNat_lt
  induction d with
  | zero =>
    intro k hk
    have hcount : (UInt16.ofNat (2 * k)).toNat = 2 * k := UInt16.toNat_ofNat_of_lt' (by
      rw [UInt16.size]; omega)
    rw [readPairs, if_neg (by rw [hcount]; omega)]
    rfl
  | succ d ih =>
    intro k hk
    have hcount : (UInt16.ofNat (2 * k)).toNat = 2 * k := UInt16.toNat_ofNat_of_lt' (by
      rw [UInt16.size]; omega)
    have hnext : UInt16.ofNat (2 * k) + 2 = UInt16.ofNat (2 * (k + 1)) := by
      rw [Nat.mul_succ, UInt16.ofNat_add]
      rfl
    rw [readPairs, List.range'_succ]
    cases hmore : more (2 * k) with
    | false =>
      rw [if_neg (by rw [hcount, hmore]; simp), List.takeWhile_cons_of_neg (by simp [hmore])]
      rfl
    | true =>
      rw [if_pos ⟨by rw [hcount]; omega, by rw [hcount, hmore]⟩,
        List.takeWhile_cons_of_pos (by simp [hmore]), List.map_cons, List.filter_cons, hnext]
      simp only [Reading.value_bind, Reading.value_pure, read16_value, hcount,
        ih (k + 1) (by omega)]
      cases isGrease (be16At p (base + 2 * k)) <;> rfl

theorem readFormats_value (p : Bytes) (base : Nat) (len : UInt8) (more : Nat → Bool) (d : Nat) :
    ∀ k, k + d = len.toNat → (readFormats p base len more (.ofNat k)).value =
      ((List.range' k d).takeWhile more).map fun j => byteAt p (base + j) := by
  have hlen := len.toNat_lt
  induction d with
  | zero =>
    intro k hk
    have hcount : (UInt8.ofNat k).toNat = k := UInt8.toNat_ofNat_of_lt' (by rw [UInt8.size]; omega)
    rw [readFormats, if_neg (by rw [hcount]; omega)]
    rfl
  | succ d ih =>
    intro k hk
    have hcount : (UInt8.ofNat k).toNat = k := UInt8.toNat_ofNat_of_lt' (by rw [UInt8.size]; omega)
    have hnext : UInt8.ofNat k + 1 = UInt8.ofNat (k + 1) := by
      rw [UInt8.ofNat_add]
      rfl
    rw [readFormats, List.range'_succ]
    cases hmore : more k with
    | false =>
      rw [if_neg (by rw [hcount, hmore]; simp), List.takeWhile_cons_of_neg (by simp [hmore])]
      rfl
    | true =>
      rw [if_pos ⟨by rw [hcount]; omega, by rw [hcount, hmore]⟩,
        List.takeWhile_cons_of_pos hmore, List.map_cons, hnext]
      simp only [Reading.value_bind, Reading.value_pure, readByte_value, hcount,
        ih (k + 1) (by omega)]

theorem ciphers_value (p : Bytes) (pos : Nat) (csLen : UInt16) :
    (readPairs p pos csLen (fun _ => true) 0).value = cipherSuites p pos csLen.toNat := by
  refine (readPairs_value p pos csLen _ (csLen.toNat / 2) 0 (Nat.zero_add _)).trans ?_
  rw [List.takeWhile_eq_self_iff.2 fun _ _ => rfl, ← List.range_eq_range']
  rfl

theorem curves_value (p : Bytes) (pos elen : Nat) :
    (readPairs p (pos + 2) (read16 p pos).value (fun i => pos + 2 + i + 1 < pos + elen) 0).value =
      supportedGroups p pos elen := by
  refine (readPairs_value p (pos + 2) _ _ ((read16 p pos).value.toNat / 2) 0
    (Nat.zero_add _)).trans ?_
  rw [← List.range_eq_range', read16_value]
  rfl

theorem formats_value (p : Bytes) (pos elen : Nat) :
    (readFormats p (pos + 1) (readByte p pos).value (fun i => pos + 1 + i < pos + elen) 0).value =
      pointFormats p pos elen := by
  refine (readFormats_value p (pos + 1) _ _ (readByte p pos).value.toNat 0
    (Nat.zero_add _)).trans ?_
  rw [← List.range_eq_range', readByte_value]
  rfl

theorem slice_value {p : Bytes} {start n : Nat} (h : start + n ≤ p.length) :
    (Reading.slice (p.getD · 0) start n).value.val = Search.substr p start n := by
  refine List.ext_getElem (by simp [Search.substr]; omega) fun i hi _ => ?_
  have hlen : i < n := by simpa using hi
  have hget : start + i < p.length := by omega
  simp [Search.substr, List.getElem?_eq_getElem hget]

theorem readServerName_value {p : Bytes} {pos elen : Nat} (h : pos + elen ≤ p.length) :
    (readServerName p pos elen).value = serverName p pos elen := by
  unfold readServerName serverName
  simp only [Reading.value_ite, Reading.value_bind, Reading.value_pure, read16_value]
  split
  · split
    · rw [slice_value (by rw [read16_value]; omega), read16_value]
    · rfl
  · rfl

theorem readExtension_value {x : Extensions} {p : Bytes} {etype pos elen : Nat}
    (h : pos + elen ≤ p.length) :
    (readExtension x p etype pos elen).value = x.add p etype pos elen := by
  unfold readExtension Extensions.add
  simp only [Reading.value_ite, Reading.value_bind, Reading.value_pure, readServerName_value h,
    curves_value, formats_value]

theorem readExtensions_value {p : Bytes} {extEnd : Nat} (h : extEnd ≤ p.length) (pos : Nat)
    (x : Extensions) : (readExtensions p pos extEnd x).value = parseExtensions p pos extEnd x := by
  fun_induction parseExtensions p pos extEnd x with
  | case1 pos x hroom elen hover =>
    rw [readExtensions, if_pos hroom]
    simp only [Reading.value_bind, Reading.value_ite, read16_value]
    rw [if_pos hover]
    rfl
  | case2 pos x hroom etype elen hfit ih =>
    rw [readExtensions, if_pos hroom]
    simp only [Reading.value_bind, Reading.value_ite, read16_value]
    rw [if_neg hfit, readExtension_value (by omega), ih]
  | case3 pos x hroom =>
    rw [readExtensions, if_neg hroom]
    rfl

theorem readSuites_value (p : Bytes) (clientVersion pos : Nat) :
    (readSuites p clientVersion pos).value = parseSuites p clientVersion pos := by
  unfold readSuites parseSuites
  simp only [Reading.value_ite, Reading.value_bind, Reading.value_pure, read16_value,
    readByte_value, ciphers_value, readExtensions_value (Nat.min_le_right _ _)]

theorem readTlsClientHello_value (p : Bytes) :
    (readTlsClientHello p).value = parseTlsClientHello p := by
  have htype : (readByte p 0).value = 0x16 ↔ byteAt p 0 = 0x16 := UInt8.toNat_inj.symm
  have hhandshake : (readByte p 5).value = 0x01 ↔ byteAt p 5 = 0x01 := UInt8.toNat_inj.symm
  unfold readTlsClientHello parseTlsClientHello
  simp only [Reading.value_ite, Reading.value_bind, Reading.value_pure, read16_value,
    readByte_value, readSuites_value, ne_eq, htype, hhandshake]
  by_cases hlen : p.length < 6
  · rw [if_pos hlen, if_pos (Or.inl hlen)]
  · rw [if_neg hlen]
    simp only [hlen, false_or]

/-! ## Its subscripts -/

theorem within_readByte {n : Nat} {p : Bytes} {k : Nat} :
    Reading.Within n (readByte p k) ↔ k < n := Reading.within_subscript

theorem within_read16 {n : Nat} {p : Bytes} {k : Nat} :
    Reading.Within n (read16 p k) ↔ k + 1 < n := Reading.within_be16

/-- The loop stays within `n` if its condition keeps each value there. -/
theorem within_readPairs {n : Nat} (p : Bytes) (base : Nat) (len : UInt16) (more : Nat → Bool)
    (i : UInt16) (h : ∀ j, j + 1 < len.toNat → more j → base + j + 1 < n) :
    Reading.Within n (readPairs p base len more i) := by
  fun_induction readPairs p base len more i with
  | case1 i hi ih =>
    simp only [Reading.within_bind, Reading.within_pure, and_true, within_read16]
    exact ⟨h _ hi.1 hi.2, ih⟩
  | case2 i hi => exact Reading.within_pure n []

theorem within_readFormats {n : Nat} (p : Bytes) (base : Nat) (len : UInt8) (more : Nat → Bool)
    (i : UInt8) (h : ∀ j, j < len.toNat → more j → base + j < n) :
    Reading.Within n (readFormats p base len more i) := by
  fun_induction readFormats p base len more i with
  | case1 i hi ih =>
    simp only [Reading.within_bind, Reading.within_pure, and_true, within_readByte]
    exact ⟨h _ hi.1 hi.2, ih⟩
  | case2 i hi => exact Reading.within_pure n []

/-- The name's address is one behind the extension if and only if the
extension has room for nothing but the length of the name. -/
theorem within_readServerName {p : Bytes} {pos elen : Nat} (h : pos + elen ≤ p.length)
    (hroom : 5 ≤ elen) :
    Reading.Within p.length (readServerName p pos elen) ↔
      ¬(elen = 5 ∧ be16At p (pos + 3) = 0 ∧ pos + 5 = p.length) := by
  have hsp : pos + 3 = pos + 2 + 1 := rfl
  unfold readServerName
  simp only [Reading.within_bind, Reading.within_ite, Reading.within_pure, within_read16,
    read16_value, Reading.within_slice, and_true]
  rw [if_pos (by omega), hsp]
  by_cases hname : pos + 2 + 1 + 2 + be16At p (pos + 2 + 1) ≤ pos + elen
  · rw [if_pos hname]
    omega
  · rw [if_neg hname]
    exact iff_of_true ⟨by omega, trivial⟩ (by omega)

/-- The extension at `q` is a server name of length zero, with room for
nothing else, at the end of the vector. -/
def EmptyNameAtEnd (p : Bytes) (q : Nat) : Prop :=
  be16At p q = 0x0000 ∧ be16At p (q + 2) = 5 ∧ be16At p (q + 7) = 0 ∧ q + 9 = p.length

instance (p : Bytes) (q : Nat) : Decidable (EmptyNameAtEnd p q) :=
  inferInstanceAs (Decidable (_ ∧ _ ∧ _ ∧ _))

theorem within_readExtension {x : Extensions} {p : Bytes} {q : Nat}
    (h : q + 4 + be16At p (q + 2) ≤ p.length) :
    Reading.Within p.length (readExtension x p (be16At p q) (q + 4) (be16At p (q + 2))) ↔
      ¬EmptyNameAtEnd p q := by
  have hsp : q + 4 + 3 = q + 7 := rfl
  unfold EmptyNameAtEnd
  generalize hx : (if isGrease (be16At p q) then x
    else { x with extensions := x.extensions ++ [be16At p q] }) = y
  unfold readExtension
  rw [hx]
  by_cases hname : be16At p q = 0x0000 ∧ 5 ≤ be16At p (q + 2)
  · simp only [if_pos hname, Reading.within_bind, Reading.within_pure, and_true,
      within_readServerName h hname.2, hsp]
    omega
  · rw [if_neg hname]
    refine iff_of_true ?_ (by omega)
    -- the loops over curves and formats test the end of the extension themselves
    by_cases hcurves : be16At p q = 0x000a
    · rw [if_pos hcurves]
      by_cases hroom : 2 ≤ be16At p (q + 2)
      · simp only [if_pos hroom, Reading.within_bind, Reading.within_pure, and_true, within_read16]
        refine ⟨by omega, within_readPairs _ _ _ _ _ fun j _ hmore => ?_⟩
        have := of_decide_eq_true hmore
        omega
      · rw [if_neg hroom]
        exact Reading.within_pure _ _
    · rw [if_neg hcurves]
      by_cases hformats : be16At p q = 0x000b
      · rw [if_pos hformats]
        by_cases hroom : 1 ≤ be16At p (q + 2)
        · simp only [if_pos hroom, Reading.within_bind, Reading.within_pure, and_true,
            within_readByte]
          refine ⟨by omega, within_readFormats _ _ _ _ _ fun j _ hmore => ?_⟩
          have := of_decide_eq_true hmore
          omega
        · rw [if_neg hroom]
          exact Reading.within_pure _ _
      · rw [if_neg hformats]
        exact Reading.within_pure _ _

/-! ## The extensions -/

/-- Where the loop finds an extension that is there in full. -/
def extensionStarts (p : Bytes) (pos extEnd : Nat) : List Nat :=
  if pos + 4 ≤ extEnd then
    if extEnd < pos + 4 + be16At p (pos + 2) then []
    else pos :: extensionStarts p (pos + 4 + be16At p (pos + 2)) extEnd
  else []
termination_by extEnd - pos

theorem within_readExtensions {p : Bytes} {extEnd : Nat} (h : extEnd ≤ p.length) (pos : Nat)
    (x : Extensions) : Reading.Within p.length (readExtensions p pos extEnd x) ↔
      ∀ q ∈ extensionStarts p pos extEnd, ¬EmptyNameAtEnd p q := by
  fun_induction extensionStarts p pos extEnd generalizing x with
  | case1 pos hroom hover =>
    rw [readExtensions, if_pos hroom]
    simp only [Reading.within_bind, Reading.within_ite, within_read16, read16_value]
    rw [if_pos hover]
    exact iff_of_true ⟨by omega, by omega, Reading.within_pure _ _⟩
      (fun q hq => absurd hq List.not_mem_nil)
  | case2 pos hroom hfit ih =>
    rw [readExtensions, if_pos hroom, List.forall_mem_cons, ← ih]
    simp only [Reading.within_bind, Reading.within_ite, within_read16, read16_value]
    rw [if_neg hfit, within_readExtension (by omega)]
    refine ⟨fun hw => hw.2.2, fun hw => ⟨by omega, by omega, hw⟩⟩
  | case3 pos hroom =>
    rw [readExtensions, if_neg hroom]
    exact iff_of_true (Reading.within_pure _ _) (fun q hq => absurd hq List.not_mem_nil)

/-! ## The record -/

/-- Where the block of extensions ends, or the vector. -/
def extensionsEnd (p : Bytes) : Nat :=
  min (extensionsPos p + 2 + be16At p (extensionsPos p)) p.length

theorem extensionsEnd_le (p : Bytes) : extensionsEnd p ≤ p.length := Nat.min_le_right _ _

/-- A ClientHello whose extensions end in an empty server name at the end of
the vector. -/
def EndsInEmptyName (p : Bytes) : Prop :=
  byteAt p 0 = 0x16 ∧ byteAt p 5 = 0x01 ∧ HasExtensions p ∧
    ∃ q ∈ extensionStarts p (extensionsPos p + 2) (extensionsEnd p), EmptyNameAtEnd p q

instance (p : Bytes) : Decidable (EndsInEmptyName p) :=
  inferInstanceAs (Decidable (_ ∧ _ ∧ _ ∧ ∃ q ∈ extensionStarts p _ _, EmptyNameAtEnd p q))

theorem length_of_hasExtensions {p : Bytes} (h : HasExtensions p) :
    suitesPos p + 2 ≤ p.length ∧ compressionPos p < p.length ∧ 49 ≤ p.length := by
  unfold HasExtensions extensionsPos compressionPos suitesPos at *
  omega

theorem within_readSuites (p : Bytes) (clientVersion : Nat) (h : suitesPos p + 2 ≤ p.length) :
    Reading.Within p.length (readSuites p clientVersion (suitesPos p)) ↔
      ¬(HasExtensions p ∧
        ∃ q ∈ extensionStarts p (extensionsPos p + 2) (extensionsEnd p), EmptyNameAtEnd p q) := by
  have hcomp : suitesPos p + 2 + be16At p (suitesPos p) = compressionPos p := rfl
  have hext : compressionPos p + 1 + byteAt p (compressionPos p) = extensionsPos p := rfl
  have hend : min (extensionsPos p + 2 + be16At p (extensionsPos p)) p.length = extensionsEnd p :=
    rfl
  unfold readSuites
  simp only [Reading.within_bind, Reading.within_guard, Reading.within_pure, and_true,
    within_read16, within_readByte, read16_value, readByte_value, hcomp, hext, hend,
    within_readExtensions (extensionsEnd_le p)]
  constructor
  · intro hw hbad
    obtain ⟨hbare, q, hq, hempty⟩ := hbad
    have hlt := (length_of_hasExtensions hbare).2.1
    obtain ⟨-, hw⟩ := hw.2 (by omega)
    obtain ⟨-, hw⟩ := hw (by omega)
    exact (hw (Nat.not_lt.2 hbare)).2 q hq hempty
  · intro hgood
    refine ⟨by omega, fun hsuites => ⟨within_readPairs _ _ _ _ _ fun j hj _ => ?_,
      fun hcompLen => ⟨by omega, fun hbare => ⟨by omega, fun q hq hempty => ?_⟩⟩⟩⟩
    · rw [read16_value] at hj
      omega
    · exact hgood ⟨Nat.not_lt.1 hbare, q, hq, hempty⟩

/-- The parser subscripts the vector only within its bounds, unless the
extensions end in an empty server name at the end of the vector. -/
theorem reads_within_iff (p : Bytes) :
    Reading.Within p.length (readTlsClientHello p) ↔ ¬EndsInEmptyName p := by
  have htype : (readByte p 0).value = 0x16 ↔ byteAt p 0 = 0x16 := UInt8.toNat_inj.symm
  have hhandshake : (readByte p 5).value = 0x01 ↔ byteAt p 5 = 0x01 := UInt8.toNat_inj.symm
  have hpos : 43 + 1 + byteAt p 43 = suitesPos p := rfl
  unfold readTlsClientHello EndsInEmptyName
  simp only [Reading.within_bind, Reading.within_guard, within_read16, within_readByte,
    readByte_value, ne_eq, Decidable.not_not, htype, hhandshake, hpos]
  constructor
  · intro hw hbad
    obtain ⟨ht, hh, hbad⟩ := hbad
    obtain ⟨hlong, -, hlen⟩ := length_of_hasExtensions hbad.1
    obtain ⟨-, hw⟩ := hw (by omega)
    obtain ⟨-, hw⟩ := hw ht (by omega)
    obtain ⟨-, hw⟩ := hw hh (by omega)
    obtain ⟨-, hw⟩ := hw (by omega)
    exact (within_readSuites p _ hlong).1 (hw (by omega)) hbad
  · intro hgood hlen
    refine ⟨by omega, fun ht hlen => ⟨by omega, fun hh hlen => ⟨by omega, fun hlen => ⟨by omega,
      fun hlong => ?_⟩⟩⟩⟩
    exact (within_readSuites p _ (Nat.not_lt.1 hlong)).2 fun hbad => hgood ⟨ht, hh, hbad⟩

/-- A hello whose one extension is an empty server name. -/
def emptyName : Bytes :=
  [0x16, 0x03, 0x01, 0x00, 0x38, 0x01, 0x00, 0x00, 0x34, 0x03, 0x03] ++ List.replicate 32 0 ++
    [0x00, 0x00, 0x02, 0x00, 0x2F, 0x01, 0x00] ++
    [0x00, 0x09, 0x00, 0x00, 0x00, 0x05, 0x00, 0x03, 0x00, 0x00, 0x00]

theorem emptyName_reads_behind : emptyName.length = 61 ∧ 61 ∈ (readTlsClientHello emptyName).reads ∧
    ¬Reading.Within emptyName.length (readTlsClientHello emptyName) := by
  decide +kernel

end Wirewolf.L1.TlsReads
