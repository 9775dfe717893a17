import Mathlib.Data.List.TakeWhile
import Wirewolf.Core.Wire
import Wirewolf.L1Encoding.TlsHello

/-!
# ClientHello on the wire

`ClientHello` is a hello with an extensions block whose lengths fit their
fields, `serialize` writes it as a TLS record, and `reference` is its JA3
string. The parser keeps absolute positions, so every lemma reads a field at
the length of what stands before it.

* `parseExtensions_wire`: the loop reads back the extensions one by one.
* `parse_serialize`: the parser finds the host name and the reference string
  in the record, whatever follows it.
-/
namespace Wirewolf.L1.TlsWire

open Wirewolf.L1.TlsHello
open Wirewolf.Wire (be16 length_be16)

/-! ## Writing -/

def be24 (n : Nat) : Bytes := [.ofNat (n / 65536), .ofNat (n / 256), .ofNat n]

def be16s (l : List UInt16) : Bytes := l.flatMap be16

/-- A length in two bytes. -/
def len16 (b : Bytes) : Bytes := be16 (.ofNat b.length)

/-- A length in one byte. -/
def len8 (b : Bytes) : UInt8 := .ofNat b.length

/-- The three extensions that the parser looks into, and any other. -/
inductive Extension where
  | serverName (host : Bytes) (nonempty : host ≠ []) (fits : 5 + host.length ≤ 65535)
  | supportedGroups (groups : List UInt16) (fits : 2 + 2 * groups.length ≤ 65535)
  | ecPointFormats (formats : Bytes) (fits : formats.length ≤ 255)
  | other (type : UInt16) (body : Bytes) (unknown : type ≠ 0x0000 ∧ type ≠ 0x000a ∧ type ≠ 0x000b)
      (fits : body.length ≤ 65535)

namespace Extension

def type : Extension → UInt16
  | .serverName .. => 0x0000
  | .supportedGroups .. => 0x000a
  | .ecPointFormats .. => 0x000b
  | .other type .. => type

def body : Extension → Bytes
  | .serverName host .. =>
    be16 (.ofNat (3 + host.length)) ++ 0x00 :: len16 host ++ host
  | .supportedGroups groups .. => be16 (.ofNat (2 * groups.length)) ++ be16s groups
  | .ecPointFormats formats .. => len8 formats :: formats
  | .other _ body .. => body

def wire (e : Extension) : Bytes := be16 e.type ++ len16 e.body ++ e.body

def host? : Extension → Option Bytes
  | .serverName host .. => some host
  | _ => none

def groups : Extension → List UInt16
  | .supportedGroups groups .. => groups
  | _ => []

def formats : Extension → Bytes
  | .ecPointFormats formats .. => formats
  | _ => []

end Extension

structure ClientHello where
  recordVersion : UInt16
  version : UInt16
  random : Bytes
  sessionId : Bytes
  suites : List UInt16
  compression : Bytes
  extensions : List Extension
  random_length : random.length = 32
  sessionId_fits : sessionId.length ≤ 255
  suites_fit : 2 * suites.length ≤ 65535
  compression_fits : compression.length ≤ 255
  extensions_fit : (extensions.flatMap Extension.wire).length ≤ 65535
  record_fits : 44 + sessionId.length + 2 * suites.length + compression.length +
    (extensions.flatMap Extension.wire).length ≤ 65535
  once : ∀ t ∈ [0x0000, 0x000a, 0x000b], (extensions.map Extension.type).count t ≤ 1

instance : Inhabited ClientHello where
  default := {
    recordVersion := 0x0301
    version := 0x0303
    random := List.replicate 32 0
    sessionId := []
    suites := []
    compression := []
    extensions := []
    random_length := rfl
    sessionId_fits := by decide
    suites_fit := by decide
    compression_fits := by decide
    extensions_fit := by decide
    record_fits := by decide
    once := fun _ _ => Nat.zero_le 1 }

namespace ClientHello

variable (h : ClientHello)

/-- From the cipher suites on. -/
def offer : Bytes :=
  len16 (be16s h.suites) ++ be16s h.suites ++ len8 h.compression :: h.compression ++
    len16 (h.extensions.flatMap Extension.wire) ++ h.extensions.flatMap Extension.wire

/-- From the client version on. -/
def body : Bytes := be16 h.version ++ h.random ++ len8 h.sessionId :: h.sessionId ++ h.offer

def serialize : Bytes :=
  0x16 :: be16 h.recordVersion ++ be16 (.ofNat (4 + h.body.length)) ++
    0x01 :: be24 h.body.length ++ h.body

/-- The name in `server_name`, if there is one. -/
def host : Bytes := (h.extensions.filterMap Extension.host?).head?.getD []

/-- The decimal numbers of `l` that are no GREASE values. -/
def ungreased (l : List UInt16) : List Nat := (l.map UInt16.toNat).filter (!isGrease ·)

/-- Version, cipher suites, extensions, curves and point formats, in the
order of the record. -/
def reference : Bytes :=
  [0x2C].intercalate [lit (toString h.version.toNat), joinDec (ungreased h.suites),
    joinDec (ungreased (h.extensions.map Extension.type)),
    joinDec (ungreased (h.extensions.flatMap Extension.groups)),
    joinDec ((h.extensions.flatMap Extension.formats).map UInt8.toNat)]

end ClientHello

/-! ## Reading what was written -/

theorem byteAt_append (pre : Bytes) (b : UInt8) (rest : Bytes) :
    byteAt (pre ++ b :: rest) pre.length = b.toNat := by
  simp [byteAt]

theorem be16At_append (pre : Bytes) (v : UInt16) (rest : Bytes) :
    be16At (pre ++ (be16 v ++ rest)) pre.length = v.toNat := by
  have hlow : pre ++ (be16 v ++ rest) = (pre ++ [(v >>> 8).toUInt8]) ++ v.toUInt8 :: rest := by
    simp [be16]
  have hhigh : pre ++ (be16 v ++ rest) = pre ++ (v >>> 8).toUInt8 :: (v.toUInt8 :: rest) := rfl
  have hlen : pre.length + 1 = (pre ++ [(v >>> 8).toUInt8]).length := by simp
  rw [be16At, hlen, hlow, byteAt_append, ← hlow, hhigh, byteAt_append, Wire.toNat_halves16]

@[simp] theorem length_len16 (b : Bytes) : (len16 b).length = 2 := rfl

@[simp] theorem length_be16s (l : List UInt16) : (be16s l).length = 2 * l.length := by
  induction l with
  | nil => rfl
  | cons v l ih =>
    show (be16 v ++ be16s l).length = _
    rw [List.length_append, ih, length_be16, List.length_cons]
    omega

theorem len16_toNat {n : Nat} (h : n ≤ 65535) : (UInt16.ofNat n).toNat = n :=
  UInt16.toNat_ofNat_of_lt' (by rw [UInt16.size]; omega)

theorem len8_toNat {b : Bytes} (h : b.length ≤ 255) : (len8 b).toNat = b.length :=
  UInt8.toNat_ofNat_of_lt' (by rw [UInt8.size]; omega)

/-- A list of two-byte values, read back from its positions. -/
theorem be16At_range (pre : Bytes) (l : List UInt16) (rest : Bytes) :
    ((List.range l.length).map fun k => be16At (pre ++ (be16s l ++ rest)) (pre.length + 2 * k)) =
      l.map UInt16.toNat := by
  induction l generalizing pre with
  | nil => rfl
  | cons v l ih =>
    have hsplit : pre ++ (be16s (v :: l) ++ rest) = pre ++ (be16 v ++ (be16s l ++ rest)) := by
      simp [be16s]
    have hnext : pre ++ (be16 v ++ (be16s l ++ rest)) = (pre ++ be16 v) ++ (be16s l ++ rest) := by
      simp
    rw [List.length_cons, List.range_succ_eq_map, List.map_cons, List.map_cons,
      List.map_map, hsplit]
    refine List.cons_eq_cons.2 ⟨be16At_append pre v _, ?_⟩
    rw [← ih (pre ++ be16 v), hnext]
    refine List.map_congr_left fun k _ => ?_
    show be16At _ (pre.length + 2 * (k + 1)) = _
    rw [List.length_append, length_be16]
    congr 1
    omega

/-- A list of bytes, read back from its positions. -/
theorem byteAt_range (pre l rest : Bytes) :
    ((List.range l.length).map fun k => byteAt (pre ++ (l ++ rest)) (pre.length + k)) =
      l.map UInt8.toNat := by
  induction l generalizing pre with
  | nil => rfl
  | cons b l ih =>
    have hnext : pre ++ (b :: l ++ rest) = (pre ++ [b]) ++ (l ++ rest) := by simp
    rw [List.length_cons, List.range_succ_eq_map, List.map_cons, List.map_cons, List.map_map]
    refine List.cons_eq_cons.2 ⟨byteAt_append pre b _, ?_⟩
    rw [← ih (pre ++ [b]), hnext]
    refine List.map_congr_left fun k _ => ?_
    show byteAt _ (pre.length + (k + 1)) = _
    rw [List.length_append, List.length_singleton]
    congr 1
    omega

theorem cipherSuites_wire (pre : Bytes) (l : List UInt16) (rest : Bytes) :
    cipherSuites (pre ++ (be16s l ++ rest)) pre.length (2 * l.length) =
      ClientHello.ungreased l := by
  rw [cipherSuites, Nat.mul_div_cancel_left _ (by decide), be16At_range]
  rfl

theorem serverName_wire (pre rest : Bytes) {host : Bytes} (hne : host ≠ [])
    (hfits : 5 + host.length ≤ 65535) :
    serverName (pre ++ ((Extension.serverName host hne hfits).body ++ rest)) pre.length
      (5 + host.length) = some host := by
  have hsplit : pre ++ ((Extension.serverName host hne hfits).body ++ rest) =
      (pre ++ be16 (.ofNat (3 + host.length)) ++ [0x00]) ++ (len16 host ++ (host ++ rest)) := by
    simp [Extension.body]
  have hname : be16At (pre ++ ((Extension.serverName host hne hfits).body ++ rest))
      (pre.length + 2 + 1) = host.length := by
    have hpos : pre.length + 2 + 1 =
        (pre ++ be16 (.ofNat (3 + host.length)) ++ [0x00]).length := by simp
    rw [hsplit, hpos, len16, be16At_append, len16_toNat (by omega)]
  rw [serverName]
  simp only [hname]
  rw [if_pos (by omega), if_pos (by omega), hsplit, ← List.append_assoc]
  refine congrArg some ?_
  have hpos : pre.length + 2 + 1 + 2 =
      (pre ++ be16 (.ofNat (3 + host.length)) ++ [0x00] ++ len16 host).length := by simp
  rw [Search.substr, hpos, List.drop_left, List.take_left]

theorem supportedGroups_wire (pre rest : Bytes) {groups : List UInt16}
    (hfits : 2 + 2 * groups.length ≤ 65535) :
    supportedGroups (pre ++ ((Extension.supportedGroups groups hfits).body ++ rest)) pre.length
      (2 + 2 * groups.length) = ClientHello.ungreased groups := by
  have hsplit : pre ++ ((Extension.supportedGroups groups hfits).body ++ rest) =
      (pre ++ be16 (.ofNat (2 * groups.length))) ++ (be16s groups ++ rest) := by
    simp [Extension.body]
  have hlist : be16At (pre ++ ((Extension.supportedGroups groups hfits).body ++ rest)) pre.length =
      2 * groups.length := by
    rw [hsplit, List.append_assoc, be16At_append, len16_toNat (by omega)]
  have hpos : pre.length + 2 = (pre ++ be16 (.ofNat (2 * groups.length))).length := by simp
  rw [supportedGroups]
  simp only [hlist, Nat.mul_div_cancel_left _ (show 0 < 2 by decide)]
  rw [List.takeWhile_eq_self_iff.2 fun k hk => ?_, hsplit, hpos, be16At_range]
  · rfl
  · have := List.mem_range.1 hk
    exact decide_eq_true (by omega)

theorem pointFormats_wire (pre rest : Bytes) {formats : Bytes} (hfits : formats.length ≤ 255) :
    pointFormats (pre ++ ((Extension.ecPointFormats formats hfits).body ++ rest)) pre.length
      (1 + formats.length) = formats.map UInt8.toNat := by
  have hsplit : pre ++ ((Extension.ecPointFormats formats hfits).body ++ rest) =
      (pre ++ [len8 formats]) ++ (formats ++ rest) := by
    simp [Extension.body]
  have hlist : byteAt (pre ++ ((Extension.ecPointFormats formats hfits).body ++ rest)) pre.length =
      formats.length := by
    rw [← len8_toNat hfits]
    exact byteAt_append pre (len8 formats) (formats ++ rest)
  have hpos : pre.length + 1 = (pre ++ [len8 formats]).length := by simp
  rw [pointFormats]
  simp only [hlist]
  rw [List.takeWhile_eq_self_iff.2 fun k hk => ?_, hsplit, hpos, byteAt_range]
  have := List.mem_range.1 hk
  exact decide_eq_true (by omega)

/-! ## The extensions -/

namespace Extension

/-- What the parser collects of one extension. -/
def record (x : Extensions) (e : Extension) : Extensions where
  sni := e.host?.getD x.sni
  extensions := x.extensions ++ ClientHello.ungreased [e.type]
  curves := x.curves ++ ClientHello.ungreased e.groups
  formats := x.formats ++ e.formats.map UInt8.toNat

theorem length_serverName (host : Bytes) (hne : host ≠ []) (hfits : 5 + host.length ≤ 65535) :
    (Extension.serverName host hne hfits).body.length = 5 + host.length := by
  simp only [body, List.length_append, List.length_cons, length_be16, length_len16]

theorem length_supportedGroups (groups : List UInt16) (hfits : 2 + 2 * groups.length ≤ 65535) :
    (Extension.supportedGroups groups hfits).body.length = 2 + 2 * groups.length := by
  simp only [body, List.length_append, length_be16, length_be16s]

theorem length_ecPointFormats (formats : Bytes) (hfits : formats.length ≤ 255) :
    (Extension.ecPointFormats formats hfits).body.length = 1 + formats.length := by
  simp only [body, List.length_cons, Nat.add_comm]

theorem length_body_le (e : Extension) : e.body.length ≤ 65535 := by
  cases e with
  | serverName host hne hfits => rw [length_serverName]; exact hfits
  | supportedGroups groups hfits => rw [length_supportedGroups]; exact hfits
  | ecPointFormats formats hfits => rw [length_ecPointFormats]; omega
  | other type body hne hfits => exact hfits

theorem add_wire (x : Extensions) (pre rest : Bytes) (e : Extension) :
    x.add (pre ++ (e.body ++ rest)) e.type.toNat pre.length e.body.length = e.record x := by
  have htype : (if isGrease e.type.toNat then x
      else { x with extensions := x.extensions ++ [e.type.toNat] }) =
      { x with extensions := x.extensions ++ ClientHello.ungreased [e.type] } := by
    cases hg : isGrease e.type.toNat <;> simp [ClientHello.ungreased, hg]
  rw [Extensions.add, htype]
  cases e with
  | serverName host hne hfits =>
    have htag : (Extension.serverName host hne hfits).type.toNat = 0x0000 := rfl
    rw [length_serverName, htag, if_pos ⟨rfl, by omega⟩, serverName_wire]
    simp [record, host?, groups, formats, ClientHello.ungreased]
  | supportedGroups groups hfits =>
    have htag : (Extension.supportedGroups groups hfits).type.toNat = 0x000a := rfl
    rw [length_supportedGroups, htag, if_neg (by simp), if_pos rfl, if_pos (by omega),
      supportedGroups_wire]
    simp [record, host?, Extension.groups, formats]
  | ecPointFormats formats hfits =>
    have htag : (Extension.ecPointFormats formats hfits).type.toNat = 0x000b := rfl
    rw [length_ecPointFormats, htag, if_neg (by simp), if_neg (by simp), if_pos rfl,
      if_pos (by omega), pointFormats_wire]
    simp [record, host?, groups, Extension.formats, ClientHello.ungreased]
  | other type b hne hfits =>
    have hnum : ∀ {v : UInt16}, type ≠ v → type.toNat ≠ v.toNat :=
      fun h he => h (UInt16.toNat_inj.1 he)
    have htag : (Extension.other type b hne hfits).type.toNat = type.toNat := rfl
    have h₁ : type.toNat ≠ 0x0000 := hnum hne.1
    have h₂ : type.toNat ≠ 0x000a := hnum hne.2.1
    have h₃ : type.toNat ≠ 0x000b := hnum hne.2.2
    rw [htag, if_neg (fun h => h₁ h.1), if_neg h₂, if_neg h₃]
    simp [record, host?, groups, formats, ClientHello.ungreased]

end Extension

/-- The loop over the extensions collects each of them, in order. -/
theorem parseExtensions_wire (pre : Bytes) (es : List Extension) (rest : Bytes) (x : Extensions) :
    parseExtensions (pre ++ (es.flatMap Extension.wire ++ rest)) pre.length
      (pre.length + (es.flatMap Extension.wire).length) x = es.foldl Extension.record x := by
  induction es generalizing pre x with
  | nil =>
    rw [parseExtensions, if_neg (by simp)]
    rfl
  | cons e es ih =>
    have hbody := e.length_body_le
    have hwire : e.wire.length = 4 + e.body.length := by
      simp only [Extension.wire, List.length_append, length_be16, length_len16]
    have hall : ((e :: es).flatMap Extension.wire).length =
        e.wire.length + (es.flatMap Extension.wire).length := by
      rw [List.flatMap_cons, List.length_append]
    have htype : pre ++ ((e :: es).flatMap Extension.wire ++ rest) = pre ++
          (be16 e.type ++ (len16 e.body ++ (e.body ++ (es.flatMap Extension.wire ++ rest)))) := by
      simp [Extension.wire]
    have hlen : pre ++ ((e :: es).flatMap Extension.wire ++ rest) =
        (pre ++ be16 e.type) ++
          (len16 e.body ++ (e.body ++ (es.flatMap Extension.wire ++ rest))) := by
      simp [Extension.wire]
    have hdata : pre ++ ((e :: es).flatMap Extension.wire ++ rest) =
        (pre ++ be16 e.type ++ len16 e.body) ++
          (e.body ++ (es.flatMap Extension.wire ++ rest)) := by
      simp [Extension.wire]
    have hnext : pre ++ ((e :: es).flatMap Extension.wire ++ rest) =
        (pre ++ e.wire) ++ (es.flatMap Extension.wire ++ rest) := by simp
    have hpos₂ : pre.length + 2 = (pre ++ be16 e.type).length := by simp
    have hpos₄ : pre.length + 4 = (pre ++ be16 e.type ++ len16 e.body).length := by simp
    have hposn : pre.length + 4 + e.body.length = (pre ++ e.wire).length := by
      rw [List.length_append, hwire]; omega
    have etype : be16At (pre ++ ((e :: es).flatMap Extension.wire ++ rest)) pre.length =
        e.type.toNat := by rw [htype, be16At_append]
    have elen : be16At (pre ++ ((e :: es).flatMap Extension.wire ++ rest)) (pre.length + 2) =
        e.body.length := by rw [hlen, hpos₂, len16, be16At_append, len16_toNat hbody]
    rw [parseExtensions, if_pos (by omega)]
    simp only [etype, elen]
    rw [if_neg (by omega)]
    have hadd : x.add (pre ++ ((e :: es).flatMap Extension.wire ++ rest)) e.type.toNat
        (pre.length + 4) e.body.length = e.record x := by
      rw [hdata, hpos₄, Extension.add_wire]
    rw [hadd, hposn, hnext, List.foldl_cons, ← ih (pre ++ e.wire)]
    congr 1
    rw [List.length_append, hall]
    omega

theorem ungreased_append (l l' : List UInt16) :
    ClientHello.ungreased (l ++ l') = ClientHello.ungreased l ++ ClientHello.ungreased l' := by
  simp only [ClientHello.ungreased, List.map_append, List.filter_append]

/-- What all the extensions leave. -/
theorem foldl_record (es : List Extension) (x : Extensions) :
    es.foldl Extension.record x =
      { sni := ((es.filterMap Extension.host?).getLast?).getD x.sni
        extensions := x.extensions ++ ClientHello.ungreased (es.map Extension.type)
        curves := x.curves ++ ClientHello.ungreased (es.flatMap Extension.groups)
        formats := x.formats ++ (es.flatMap Extension.formats).map UInt8.toNat } := by
  induction es generalizing x with
  | nil => simp [ClientHello.ungreased]
  | cons e es ih =>
    have hcons : e.type :: es.map Extension.type = [e.type] ++ es.map Extension.type := rfl
    rw [List.foldl_cons, ih]
    simp only [Extension.record, List.map_cons, List.flatMap_cons, List.map_append, hcons,
      ungreased_append, List.append_assoc, Extensions.mk.injEq, and_true]
    cases hh : e.host? with
    | none => rw [List.filterMap_cons_none hh, Option.getD_none]
    | some host =>
      rw [List.filterMap_cons_some hh, List.getLast?_cons]
      cases (es.filterMap Extension.host?).getLast? <;> rfl

/-- Only `server_name` has a host. -/
theorem length_hosts_le (es : List Extension) :
    (es.filterMap Extension.host?).length ≤ (es.map Extension.type).count 0x0000 := by
  induction es with
  | nil => exact Nat.le_refl _
  | cons e es ih =>
    rw [List.map_cons, List.count_cons]
    cases e with
    | serverName host hne hfits =>
      have hhost : (Extension.serverName host hne hfits).host? = some host := rfl
      rw [List.filterMap_cons_some hhost, List.length_cons]
      exact Nat.succ_le_succ ih
    | supportedGroups groups hfits =>
      rw [List.filterMap_cons_none rfl]; exact Nat.le_add_right_of_le ih
    | ecPointFormats formats hfits =>
      rw [List.filterMap_cons_none rfl]; exact Nat.le_add_right_of_le ih
    | other type body hne hfits =>
      rw [List.filterMap_cons_none rfl]; exact Nat.le_add_right_of_le ih

theorem ClientHello.host_eq (h : ClientHello) :
    ((h.extensions.filterMap Extension.host?).getLast?).getD [] = h.host := by
  have hle := Nat.le_trans (length_hosts_le h.extensions) (h.once 0x0000 (by simp))
  unfold ClientHello.host
  match h.extensions.filterMap Extension.host?, hle with
  | [], _ => rfl
  | [host], _ => rfl

/-! ## The record -/

/-- From the cipher suites on, `pre` being what stands before them. -/
theorem parseSuites_wire (h : ClientHello) (pre suffix : Bytes) :
    parseSuites (pre ++ (h.offer ++ suffix)) h.version.toNat pre.length =
      some ⟨h.host, h.reference, Md5.hash h.reference⟩ := by
  have hsuites := h.suites_fit
  have hcomp := h.compression_fits
  have hexts := h.extensions_fit
  generalize hes : h.extensions.flatMap Extension.wire = es at hexts
  let p := pre ++ (h.offer ++ suffix)
  -- `p` with the field that is read next behind what stands before it
  let pre₁ := pre ++ len16 (be16s h.suites)
  let pre₂ := pre₁ ++ be16s h.suites
  let pre₃ := pre₂ ++ len8 h.compression :: h.compression
  let pre₄ := pre₃ ++ len16 es
  have hp₀ : p = pre ++ (len16 (be16s h.suites) ++ (be16s h.suites ++
      (len8 h.compression :: (h.compression ++ (len16 es ++ (es ++ suffix)))))) := by
    simp [p, ClientHello.offer, hes]
  have hp₁ : p = pre₁ ++ (be16s h.suites ++
      (len8 h.compression :: (h.compression ++ (len16 es ++ (es ++ suffix))))) := by
    simp [hp₀, pre₁]
  have hp₂ : p = pre₂ ++ len8 h.compression :: (h.compression ++ (len16 es ++ (es ++ suffix))) := by
    simp [hp₁, pre₂]
  have hp₃ : p = pre₃ ++ (len16 es ++ (es ++ suffix)) := by simp [hp₂, pre₃]
  have hp₄ : p = pre₄ ++ (es ++ suffix) := by simp [hp₃, pre₄]
  have hl₁ : pre₁.length = pre.length + 2 := by simp [pre₁]
  have hl₂ : pre₂.length = pre₁.length + 2 * h.suites.length := by simp [pre₂]
  have hl₃ : pre₃.length = pre₂.length + 1 + h.compression.length := by simp [pre₃]; omega
  have hl₄ : pre₄.length = pre₃.length + 2 := by simp [pre₄]
  have hlp : p.length = pre₄.length + es.length + suffix.length := by simp [hp₄]; omega
  have r₀ : be16At p pre.length = 2 * h.suites.length := by
    rw [hp₀, len16, be16At_append, length_be16s, len16_toNat hsuites]
  have r₂ : byteAt p pre₂.length = h.compression.length := by
    rw [hp₂, byteAt_append, len8_toNat hcomp]
  have r₃ : be16At p pre₃.length = es.length := by
    rw [hp₃, len16, be16At_append, len16_toNat hexts]
  show parseSuites p h.version.toNat pre.length = _
  unfold parseSuites
  simp only [r₀, ← hl₁, ← hl₂]
  rw [if_neg (by omega), if_neg (by omega)]
  simp only [r₂, ← hl₃]
  rw [if_neg (by omega)]
  simp only [r₃, ← hl₄]
  have hend : min (pre₄.length + es.length) p.length = pre₄.length + es.length := by omega
  have hciphers : cipherSuites p pre₁.length (2 * h.suites.length) =
      ClientHello.ungreased h.suites := by
    rw [hp₁, cipherSuites_wire]
  have hext : parseExtensions p pre₄.length (pre₄.length + es.length) {} =
      h.extensions.foldl Extension.record {} := by
    rw [hp₄, ← hes, parseExtensions_wire]
  rw [hend, hciphers, hext, foldl_record]
  have hja3 : ja3String h.version.toNat (ClientHello.ungreased h.suites)
      ⟨((h.extensions.filterMap Extension.host?).getLast?).getD [],
        [] ++ ClientHello.ungreased (h.extensions.map Extension.type),
        [] ++ ClientHello.ungreased (h.extensions.flatMap Extension.groups),
        [] ++ (h.extensions.flatMap Extension.formats).map UInt8.toNat⟩ = h.reference := rfl
  rw [hja3, h.host_eq]

/-- The parser reads the host name and the reference string out of the record
of any hello, whatever follows it. -/
theorem parse_serialize (h : ClientHello) (suffix : Bytes) :
    parseTlsClientHello (h.serialize ++ suffix) =
      some ⟨h.host, h.reference, Md5.hash h.reference⟩ := by
  have hrandom := h.random_length
  have hsid := h.sessionId_fits
  let p := h.serialize ++ suffix
  let start := 0x16 :: be16 h.recordVersion ++ be16 (.ofNat (4 + h.body.length)) ++
    0x01 :: be24 h.body.length
  let pre₁ := start ++ (be16 h.version ++ h.random)
  let pre₂ := pre₁ ++ len8 h.sessionId :: h.sessionId
  have hp₀ : p = start ++ (be16 h.version ++
      (h.random ++ (len8 h.sessionId :: (h.sessionId ++ (h.offer ++ suffix))))) := by
    simp [p, start, ClientHello.serialize, ClientHello.body]
  have hp₁ : p = pre₁ ++ len8 h.sessionId :: (h.sessionId ++ (h.offer ++ suffix)) := by
    simp [hp₀, pre₁]
  have hp₂ : p = pre₂ ++ (h.offer ++ suffix) := by simp [hp₁, pre₂]
  have hl₀ : start.length = 9 := rfl
  have hl₁ : pre₁.length = 43 := by simp [pre₁, hl₀, hrandom]
  have hl₂ : pre₂.length = 43 + 1 + h.sessionId.length := by simp [pre₂, hl₁]; omega
  have hoffer : 5 ≤ h.offer.length := by
    simp only [ClientHello.offer, List.length_append, List.length_cons, length_len16]; omega
  have hlp : p.length = pre₂.length + (h.offer.length + suffix.length) := by simp [hp₂]
  have r₀ : byteAt p 0 = 0x16 := rfl
  have r₅ : byteAt p 5 = 0x01 := rfl
  have r₉ : be16At p 9 = h.version.toNat := by rw [hp₀, ← hl₀, be16At_append]
  have r₄₃ : byteAt p 43 = h.sessionId.length := by
    rw [hp₁, ← hl₁, byteAt_append, len8_toNat hsid]
  show parseTlsClientHello p = _
  unfold parseTlsClientHello
  rw [r₀, r₅, if_neg (by omega), if_neg (by omega), if_neg (by decide), if_neg (by omega)]
  simp only [r₉, r₄₃]
  rw [if_neg (by omega), if_neg (by omega), ← hl₂, hp₂, parseSuites_wire]

end Wirewolf.L1.TlsWire
