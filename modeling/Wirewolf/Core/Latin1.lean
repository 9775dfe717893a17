import Wirewolf.Core.Bytes

/-!
# Bytes as text

A program that makes a string of the bytes of a file, one character a byte,
reads the file as Latin-1. `utf8 s` is what it writes when that string goes
back into a file as UTF-8, and `decode` reads such a file.

* `decode_utf8`: the text survives.
* `utf8_eq_self`: its bytes do where they are ASCII.
* `mem_utf8_iff`: characters of ASCII are not found elsewhere.
-/
namespace Wirewolf.Latin1

def text (s : Bytes) : List Char := s.map Char.ofUInt8

def utf8Byte (b : UInt8) : Bytes := String.utf8EncodeChar (Char.ofUInt8 b)

def utf8 (s : Bytes) : Bytes := (text s).flatMap String.utf8EncodeChar

/-- The text of a file in UTF-8; `none` when it is malformed. -/
def decode (s : Bytes) : Option (List Char) := s.toByteArray.utf8Decode?.map Array.toList

def Ascii (s : Bytes) : Prop := ∀ b ∈ s, b < 0x80

instance (s : Bytes) : Decidable (Ascii s) := List.decidableBAll _ _

theorem utf8Byte_eq (b : UInt8) :
    utf8Byte b = if b < 0x80 then [b] else [(0xC0 : UInt8) ||| b >>> 6,
      (0x80 : UInt8) ||| b &&& 0x3F] := by
  revert b
  decide +kernel

theorem utf8_cons (b : UInt8) (s : Bytes) : utf8 (b :: s) = utf8Byte b ++ utf8 s := rfl

theorem utf8_append (s t : Bytes) : utf8 (s ++ t) = utf8 s ++ utf8 t := by
  rw [utf8, text, List.map_append, List.flatMap_append]; rfl

theorem utf8_singleton {b : UInt8} (h : b < 0x80) : utf8 [b] = [b] := by
  rw [utf8_cons, utf8Byte_eq, if_pos h]
  rfl

/-- What is done to the parts of a joined text one by one. -/
theorem intercalate_hom {α β : Type} {f : List α → List β} (hnil : f [] = [])
    (happend : ∀ s t, f (s ++ t) = f s ++ f t) (sep : List α) (l : List (List α)) :
    f (sep.intercalate l) = (f sep).intercalate (l.map f) := by
  induction l with
  | nil => exact hnil
  | cons s l ih =>
    cases l with
    | nil =>
      rw [List.intercalate_singleton, List.map_cons, List.map_nil, List.intercalate_singleton]
    | cons t l =>
      rw [List.map_cons] at ih
      rw [List.intercalate_cons_cons, happend, happend, ih, List.map_cons, List.map_cons,
        List.intercalate_cons_cons]

theorem utf8_intercalate {b : UInt8} (h : b < 0x80) (l : List Bytes) :
    utf8 ([b].intercalate l) = [b].intercalate (l.map utf8) := by
  rw [intercalate_hom rfl utf8_append, utf8_singleton h]

theorem text_intercalate (b : UInt8) (l : List Bytes) :
    text ([b].intercalate l) = [Char.ofUInt8 b].intercalate (l.map text) :=
  intercalate_hom rfl (fun _ _ => List.map_append) [b] l

theorem decode_utf8 (s : Bytes) : decode (utf8 s) = some (text s) := by
  have h : (utf8 s).toByteArray = (text s).utf8Encode := rfl
  rw [decode, h, List.utf8Decode?_utf8Encode]
  rfl

theorem utf8_eq_self {s : Bytes} (h : Ascii s) : utf8 s = s := by
  induction s with
  | nil => rfl
  | cons b s ih =>
    obtain ⟨hb, hs⟩ := List.forall_mem_cons.1 h
    rw [utf8_cons, utf8Byte_eq, if_pos hb, ih hs]
    rfl

theorem mem_utf8_iff {c : UInt8} (hc : c < 0x80) {s : Bytes} : c ∈ utf8 s ↔ c ∈ s := by
  have hhigh : ∀ b : UInt8, ¬ ((0xC0 : UInt8) ||| b >>> 6) < 0x80 ∧
      ¬ ((0x80 : UInt8) ||| b &&& 0x3F) < 0x80 := by decide +kernel
  induction s with
  | nil => exact Iff.rfl
  | cons b s ih =>
    rw [utf8_cons, List.mem_append, List.mem_cons, utf8Byte_eq]
    refine or_congr ?_ ih
    split
    · exact List.mem_singleton
    · next hb =>
      refine iff_of_false (fun hm => ?_) fun he => hb (he ▸ hc)
      rw [List.mem_cons, List.mem_singleton] at hm
      rcases hm with rfl | rfl
      · exact (hhigh b).1 hc
      · exact (hhigh b).2 hc

theorem ofUInt8_inj {b c : UInt8} : Char.ofUInt8 b = Char.ofUInt8 c ↔ b = c := by
  constructor
  · intro h
    have hval : b.toUInt32 = c.toUInt32 := congrArg Char.val h
    exact UInt8.toNat_inj.1 (congrArg UInt32.toNat hval)
  · intro h
    rw [h]

theorem mem_text_iff {c : UInt8} {s : Bytes} : Char.ofUInt8 c ∈ text s ↔ c ∈ s := by
  simp only [text, List.mem_map, ofUInt8_inj, exists_eq_right]

end Wirewolf.Latin1
