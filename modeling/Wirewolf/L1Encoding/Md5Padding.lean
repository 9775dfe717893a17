import Wirewolf.Core.Blocks
import Wirewolf.Core.Checked
import Wirewolf.Core.Wire
import Wirewolf.L1Encoding.Md5

/-!
# Padding and blocks (`_md5::hash`)

The hash as the source has it: the loop over the message, the tail of 128
bytes that is filled from its front, and the loop over the tail, with a check
at every subscript and every difference of sizes. `Padding` says what the
padded message is.

* `paddedTail_eq`: the tail is what the whole blocks leave, and the padding.
* `hash_eq`: the hash folds `process` over the blocks of the padded message.
* `hash_padded`: so do the loops of the source, and no check fails.
-/
namespace Wirewolf.L1.Md5Padding

open Checked Wirewolf.Blocks
open Wirewolf.L1.Md5 (Ctx process hexDigest paddedTail processBlocks)

/-! ## The padded message -/

/-- What is put behind a message: a byte with its highest bit set, the fewest
zeros that leave eight bytes to a multiple of 64, and in those the length in
bits, its lowest byte first. -/
structure Padding (input : Bytes) where
  zeros : Nat
  size : Bytes
  few : zeros < 64
  aligned : (input.length + 1 + zeros) % 64 = 56
  eight : size.length = 8
  value : Wire.leNat size = 8 * input.length % 2 ^ 64

def Padding.bytes {input : Bytes} (p : Padding input) : Bytes :=
  0x80 :: List.replicate p.zeros 0 ++ p.size

def Padding.message {input : Bytes} (p : Padding input) : Bytes := input ++ p.bytes

def pad (input : Bytes) : Padding input where
  zeros := (119 - input.length % 64) % 64
  size := Wire.leBytes 8 (8 * input.length)
  few := Nat.mod_lt _ (by decide)
  aligned := by omega
  eight := Wire.length_leBytes ..
  value := Wire.leNat_leBytes ..

theorem Padding.eq_pad {input : Bytes} (p : Padding input) : p = pad input := by
  have hzeros : p.zeros = (119 - input.length % 64) % 64 := by
    have := p.few
    have := p.aligned
    omega
  have hsize : p.size = Wire.leBytes 8 (8 * input.length) := Wire.eq_leBytes p.eight p.value
  cases p
  subst hzeros hsize
  rfl

theorem Padding.length_bytes {input : Bytes} (p : Padding input) :
    p.bytes.length = p.zeros + 9 := by
  rw [bytes, List.length_append, List.length_cons, List.length_replicate, p.eight]

theorem Padding.dvd_length {input : Bytes} (p : Padding input) : 64 ∣ p.message.length := by
  have := p.aligned
  rw [message, List.length_append, p.length_bytes]
  omega

/-! ## The tail -/

section

variable (input : Bytes)

/-- How far `tail[rem]` is from the length. -/
theorem padlen_eq :
    (if input.length % 64 < 56 then 56 - input.length % 64 else 120 - input.length % 64) =
      (pad input).zeros + 1 := by
  have hzeros : (pad input).zeros = (119 - input.length % 64) % 64 := rfl
  split <;> omega

theorem bits_toNat : (UInt64.ofNat input.length * 8).toNat = 8 * input.length % 256 ^ 8 := by
  rw [UInt64.toNat_mul, UInt64.toNat_ofNat', Nat.mod_mul_mod, Nat.mul_comm]
  rfl

theorem size_eq (p : Padding input) :
    ((List.range 8).map fun i =>
      ((UInt64.ofNat input.length * 8) >>> UInt64.ofNat (8 * i)).toUInt8) = p.size := by
  rw [Wire.shift_eq_leBytes, bits_toNat, Wire.leBytes_mod]
  exact (Wire.eq_leBytes p.eight p.value).symm

theorem paddedTail_eq : paddedTail input = left 64 input ++ (pad input).bytes := by
  have hleft : input.drop (input.length - input.length % 64) = left 64 input := by
    rw [left]
    congr 1
    omega
  rw [paddedTail, hleft, padlen_eq, Nat.add_sub_cancel, size_eq input (pad input),
    List.append_assoc]
  rfl

theorem processBlocks_eq (ctx : Ctx) (p : Bytes) :
    processBlocks ctx p (p.length / 64) = (blocks 64 p).foldl process ctx := by
  rw [blocks, List.foldl_map]
  rfl

theorem hash_eq :
    Md5.hash input = hexDigest ((blocks 64 (pad input).message).foldl process {}) := by
  rw [Md5.hash, processBlocks_eq, processBlocks_eq, paddedTail_eq, Padding.message,
    blocks_append (by decide) input, List.foldl_append]

end

/-! ## The loops -/

/-- mirrors src/include/tls_inspector.hpp:58 -/
def wordAt (s : Bytes) (k : Nat) : Checked UInt32 := do
  let b₀ ← subscript s k
  let b₁ ← subscript s (k + 1)
  let b₂ ← subscript s (k + 2)
  let b₃ ← subscript s (k + 3)
  return b₀.toUInt32 ||| (b₁.toUInt32 <<< 8) ||| (b₂.toUInt32 <<< 16) ||| (b₃.toUInt32 <<< 24)

/-- `process(ctx, s + start)`
mirrors src/include/tls_inspector.hpp:39-73 -/
def processAt (ctx : Ctx) (s : Bytes) (start : Nat) : Checked Ctx := do
  let m ← (List.range 16).mapM fun i => wordAt s (start + i * 4)
  let v := (List.range 64).foldl (Md5.round m) ctx
  return { a := ctx.a + v.a, b := ctx.b + v.b, c := ctx.c + v.c, d := ctx.d + v.d }

/-- The loop over the message, and where it stops.
mirrors src/include/tls_inspector.hpp:81 -/
def absorb (data : Bytes) (off : Nat) (ctx : Ctx) : Checked (Nat × Ctx) :=
  if data.length < off then .error (.underflow data.length off)
  else if 64 ≤ data.length - off then do
    let ctx ← processAt ctx data off
    absorb data (off + 64) ctx
  else .ok (off, ctx)
termination_by data.length - off

/-- The loop over the tail.
mirrors src/include/tls_inspector.hpp:91 -/
def finish (tail : Bytes) (total i : Nat) (ctx : Ctx) : Checked Ctx :=
  if i < total then do
    let ctx ← processAt ctx tail i
    finish tail total (i + 64) ctx
  else .ok ctx
termination_by total - i

/-- mirrors src/include/tls_inspector.hpp:86 -/
def padlen (rem : Nat) : Checked Nat := if rem < 56 then sub 56 rem else sub 120 rem

/-- What is left of the message, the marker, the zeros and the length are put
into the tail, and counted.
mirrors src/include/tls_inspector.hpp:82-90 -/
def fillTail (tail : Vector UInt8 128) (data : Bytes) (off : Nat) :
    Checked (Vector UInt8 128 × Nat) := do
  let rem ← sub data.length off
  let tail ← fill tail 0 0 rem fun i => subscript data (off + i)
  let tail ← store tail rem 0x80
  let padlen ← padlen rem
  let tail ← fill tail rem 1 padlen fun _ => return 0
  let bits : UInt64 := UInt64.ofNat data.length * 8
  let tail ← fill tail (rem + padlen) 0 8 fun i => return (bits >>> UInt64.ofNat (8 * i)).toUInt8
  return (tail, rem + padlen + 8)

/-- The hash, whatever is in the tail at first.
mirrors src/include/tls_inspector.hpp:75-101 -/
def hash (tail : Vector UInt8 128) (input : Bytes) : Checked Bytes := do
  let (off, ctx) ← absorb input 0 {}
  let (tail, total) ← fillTail tail input off
  let ctx ← finish tail.toList total 0 ctx
  return hexDigest ctx

theorem wordAt_ok {s : Bytes} {start i : Nat} (h : start + 64 ≤ s.length) (hi : i < 16) :
    wordAt s (start + i * 4) = .ok (Md5.word ((s.drop start).take 64) i) := by
  have hread : ∀ j, j < 4 → subscript s (start + i * 4 + j) =
      .ok (((s.drop start).take 64).getD (i * 4 + j) 0) := by
    intro j hj
    rw [subscript_ok (by omega) 0, List.getD_eq_getElem?_getD, List.getD_eq_getElem?_getD,
      List.getElem?_take_of_lt (by omega), List.getElem?_drop, Nat.add_assoc]
  rw [wordAt, ← Nat.add_zero (start + i * 4), hread 0 (by decide), Nat.add_zero,
    hread 1 (by decide),
    hread 2 (by decide), hread 3 (by decide)]
  rfl

theorem processAt_ok (ctx : Ctx) {s : Bytes} {start : Nat} (h : start + 64 ≤ s.length) :
    processAt ctx s start = .ok (process ctx ((s.drop start).take 64)) := by
  have hwords : (List.range 16).mapM (fun i => wordAt s (start + i * 4)) =
      .ok ((List.range 16).map (Md5.word ((s.drop start).take 64))) :=
    mapM_ok fun i hi => wordAt_ok h (List.mem_range.1 hi)
  rw [processAt, hwords]
  rfl

theorem absorb_ok (ctx : Ctx) {data : Bytes} {off : Nat} (h : off ≤ data.length) :
    absorb data off ctx = .ok (off + 64 * ((data.length - off) / 64),
      (blocks 64 (data.drop off)).foldl process ctx) := by
  rw [absorb, if_neg (Nat.not_lt.2 h)]
  split
  · next hblock =>
    have hroom : off + 64 ≤ data.length := by omega
    rw [processAt_ok ctx hroom, ok_bind, absorb_ok _ hroom, blocks_drop (by decide) hroom,
      List.foldl_cons]
    congr 2
    omega
  · next hshort =>
    rw [blocks_short (by rw [List.length_drop]; omega), Nat.div_eq_of_lt (by omega)]
    rfl
termination_by data.length - off

/-- The tail is read as far as it is filled. -/
theorem finish_ok (ctx : Ctx) {tail m : Bytes} (hm : m <+: tail) {i : Nat} (hi : i ≤ m.length)
    (hd : 64 ∣ m.length - i) :
    finish tail m.length i ctx = .ok ((blocks 64 (m.drop i)).foldl process ctx) := by
  rw [finish]
  split
  · next hlt =>
    have hroom : i + 64 ≤ m.length := by omega
    have hwindow : (tail.drop i).take 64 = (m.drop i).take 64 := by
      obtain ⟨r, rfl⟩ := hm
      rw [List.drop_append_of_le_length hi, List.take_append_of_le_length]
      rw [List.length_drop]
      omega
    rw [processAt_ok ctx (Nat.le_trans hroom hm.length_le), ok_bind, hwindow,
      finish_ok _ hm hroom (by omega), blocks_drop (by decide) hroom, List.foldl_cons]
  · next hend =>
    rw [blocks_short (by rw [List.length_drop]; omega)]
    rfl
termination_by m.length - i

section

variable (input : Bytes)

theorem padlen_ok : padlen (input.length % 64) = .ok ((pad input).zeros + 1) := by
  rw [← padlen_eq, padlen]
  split
  · next h => exact sub_ok (by omega)
  · next h => exact sub_ok (by omega)

/-- What the first loop reads. -/
theorem rest_read {k : Nat} {v : UInt8} (h : (left 64 input)[k]? = some v) :
    subscript input (64 * (input.length / 64) + k) = .ok v := by
  rw [left, List.getElem?_drop] at h
  rw [subscript, h]

/-- What the last loop writes. -/
theorem size_byte {k : Nat} {v : UInt8} (h : (pad input).size[k]? = some v) :
    ((UInt64.ofNat input.length * 8) >>> UInt64.ofNat (8 * k)).toUInt8 = v := by
  rw [← size_eq input, List.getElem?_map, Option.map_eq_some_iff] at h
  obtain ⟨i, hi, hv⟩ := h
  obtain ⟨hk, rfl⟩ := List.getElem?_eq_some_iff.1 hi
  rwa [List.getElem_range] at hv

theorem room : input.length % 64 + (pad input).zeros + 9 ≤ 128 := by
  have hzeros : (pad input).zeros = (119 - input.length % 64) % 64 := rfl
  omega

theorem rest_ok (tail : Vector UInt8 128) :
    ∃ a, fill tail 0 0 (input.length % 64)
        (fun i => subscript input (64 * (input.length / 64) + i)) = .ok a ∧
      left 64 input <+: a.toList := by
  have hrem := length_left 64 input
  have hroom := room input
  have hrest : ∃ a, fill tail 0 0 (input.length % 64)
      (fun i => subscript input (64 * (input.length / 64) + i)) = .ok a ∧
        [] ++ left 64 input <+: a.toList := by
    refine fill_ok List.nil_prefix rfl ?_ ?_ fun k v hv => ?_
    · rw [List.length_nil]
      omega
    · rw [hrem, Nat.zero_add]
    · rw [Nat.zero_add, rest_read input hv]
  rwa [List.nil_append] at hrest

theorem zeros_ok {b : Vector UInt8 128} {w : Bytes} (h : w <+: b.toList)
    (hw : w.length = input.length % 64 + 1) :
    ∃ c, fill b (input.length % 64) 1 ((pad input).zeros + 1) (fun _ => return 0) = .ok c ∧
      w ++ List.replicate (pad input).zeros 0 <+: c.toList := by
  have hroom := room input
  refine fill_ok h hw.symm ?_ ?_ fun k v hv => ?_
  · rw [List.length_replicate]
    omega
  · rw [List.length_replicate, Nat.add_comm]
  · rw [List.eq_of_mem_replicate (List.mem_of_getElem? hv)]
    rfl

theorem size_ok {c : Vector UInt8 128} {w : Bytes} (h : w <+: c.toList)
    (hw : w.length = input.length % 64 + ((pad input).zeros + 1)) :
    ∃ d, fill c (input.length % 64 + ((pad input).zeros + 1)) 0 8 (fun i =>
        return ((UInt64.ofNat input.length * 8) >>> UInt64.ofNat (8 * i)).toUInt8) = .ok d ∧
      w ++ (pad input).size <+: d.toList := by
  have hroom := room input
  refine fill_ok h hw.symm ?_ ?_ fun k v hv => ?_
  · rw [hw, (pad input).eight]
    omega
  · rw [(pad input).eight]
  · rw [Nat.zero_add, size_byte input hv]
    rfl

/-- Each loop goes on where the one before it has stopped. -/
theorem fillTail_ok (tail : Vector UInt8 128) :
    ∃ b, fillTail tail input (64 * (input.length / 64)) =
        .ok (b, (left 64 input ++ (pad input).bytes).length) ∧
      left 64 input ++ (pad input).bytes <+: b.toList := by
  have hrem := length_left 64 input
  have hroom := room input
  have hsub : sub input.length (64 * (input.length / 64)) = .ok (input.length % 64) := by
    rw [sub_ok (Nat.mul_div_le ..)]
    congr 1
    omega
  obtain ⟨a, hrest, ha⟩ := rest_ok input tail
  obtain ⟨b, hmarker, hb⟩ := store_ok ha (by omega) 0x80
  have hmarked : (left 64 input ++ [0x80]).length = input.length % 64 + 1 := by
    rw [List.length_append, hrem, List.length_singleton]
  obtain ⟨c, hzeros, hc⟩ := zeros_ok input hb hmarked
  have hzeroed : (left 64 input ++ [0x80] ++ List.replicate (pad input).zeros 0).length =
      input.length % 64 + ((pad input).zeros + 1) := by
    rw [List.length_append, hmarked, List.length_replicate]
    omega
  obtain ⟨d, hsize, hd⟩ := size_ok input hc hzeroed
  have hall : left 64 input ++ [0x80] ++ List.replicate (pad input).zeros 0 ++ (pad input).size =
      left 64 input ++ (pad input).bytes := by
    rw [List.append_assoc, List.append_assoc]
    rfl
  have hcount : input.length % 64 + ((pad input).zeros + 1) + 8 =
      (left 64 input ++ (pad input).bytes).length := by
    rw [List.length_append, hrem, (pad input).length_bytes]
    omega
  rw [hrem] at hmarker
  rw [hall] at hd
  refine ⟨d, ?_, hd⟩
  rw [fillTail, hsub, ok_bind, hrest, ok_bind, hmarker, ok_bind, padlen_ok, ok_bind,
    hzeros, ok_bind]
  dsimp only
  rw [hsize, ok_bind, hcount]
  rfl

theorem hash_ok (tail : Vector UInt8 128) : hash tail input = .ok (Md5.hash input) := by
  obtain ⟨b, hb, hm⟩ := fillTail_ok input tail
  have hoff : 0 + 64 * ((input.length - 0) / 64) = 64 * (input.length / 64) := by
    rw [Nat.zero_add, Nat.sub_zero]
  have hd : 64 ∣ (left 64 input ++ (pad input).bytes).length - 0 := by
    have := (pad input).aligned
    rw [Nat.sub_zero, List.length_append, length_left, (pad input).length_bytes]
    omega
  rw [hash, absorb_ok _ (Nat.zero_le _), ok_bind]
  dsimp only
  rw [hoff, hb, ok_bind]
  dsimp only
  rw [finish_ok _ hm (Nat.zero_le _) hd, ok_bind, hash_eq, Padding.message,
    blocks_append (by decide) input, List.foldl_append]
  rfl

end

/-- Every input has a padded message; the hash folds `process` over its blocks
of 64 bytes, and so do the loops, which meet no fault. -/
theorem hash_padded (tail : Vector UInt8 128) (input : Bytes) :
    Nonempty (Padding input) ∧ ∀ p : Padding input, ∃ bs : List Bytes,
      bs.flatten = p.message ∧ (∀ b ∈ bs, b.length = 64) ∧
      Md5.hash input = hexDigest (bs.foldl process {}) ∧
      hash tail input = .ok (hexDigest (bs.foldl process {})) := by
  refine ⟨⟨pad input⟩, fun p => ⟨blocks 64 p.message, ?_, ?_, ?_, ?_⟩⟩
  · exact flatten_blocks (by decide) p.dvd_length
  · exact fun b hb => length_of_mem_blocks hb
  · rw [hash_eq, p.eq_pad]
  · rw [hash_ok, hash_eq, p.eq_pad]

end Wirewolf.L1.Md5Padding
