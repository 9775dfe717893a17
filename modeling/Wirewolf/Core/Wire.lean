import Mathlib.Data.Nat.Digits.Lemmas
import Wirewolf.Core.Bytes

/-!
# Integers on the wire

Fixed-width integers as bytes, most significant byte first (`be`) and last
(`le`), and what their halves say about them.
-/
namespace Wirewolf.Wire

def be16 (v : UInt16) : Bytes := [(v >>> 8).toUInt8, v.toUInt8]

def le16 (v : UInt16) : Bytes := [v.toUInt8, (v >>> 8).toUInt8]

def be32 (v : UInt32) : Bytes := be16 (v >>> 16).toUInt16 ++ be16 v.toUInt16

def le32 (v : UInt32) : Bytes := le16 v.toUInt16 ++ le16 (v >>> 16).toUInt16

@[simp] theorem length_be16 (v : UInt16) : (be16 v).length = 2 := rfl

theorem toNat_halves16 (v : UInt16) :
    (v >>> 8).toUInt8.toNat * 256 + v.toUInt8.toNat = v.toNat := by
  have := v.toNat_lt
  simp only [UInt16.toNat_toUInt8, UInt16.toNat_shiftRight, Nat.shiftRight_eq_div_pow]
  simp only [UInt16.reduceToNat, Nat.reduceMod, Nat.reducePow]
  omega

theorem toNat_halves32 (v : UInt32) :
    (v >>> 16).toUInt16.toNat * 65536 + v.toUInt16.toNat = v.toNat := by
  have := v.toNat_lt
  simp only [UInt32.toNat_toUInt16, UInt32.toNat_shiftRight, Nat.shiftRight_eq_div_pow]
  simp only [UInt32.reduceToNat, Nat.reduceMod, Nat.reducePow]
  omega

/-! ## Four bytes put together -/

/-- The last byte is the most significant one. -/
def join32 (a b c d : UInt8) : UInt32 :=
  a.toUInt32 ||| (b.toUInt32 <<< 8) ||| (c.toUInt32 <<< 16) ||| (d.toUInt32 <<< 24)

theorem or_shiftLeft {x i : Nat} (h : x < 2 ^ i) (y : Nat) : x ||| y <<< i = x + y * 2 ^ i := by
  rw [Nat.or_comm, ← Nat.shiftLeft_add_eq_or_of_lt h, Nat.shiftLeft_eq, Nat.add_comm]

theorem toNat_join32 (a b c d : UInt8) :
    (join32 a b c d).toNat = a.toNat + b.toNat * 256 + c.toNat * 65536 + d.toNat * 16777216 := by
  have ha := a.toNat_lt
  have hb := b.toNat_lt
  have hc := c.toNat_lt
  have hd := d.toNat_lt
  have hshift : ∀ (x : UInt8) (i : Nat), i ≤ 24 → x.toNat <<< i % 2 ^ 32 = x.toNat <<< i := by
    intro x i hi
    apply Nat.mod_eq_of_lt
    rw [Nat.shiftLeft_eq]
    calc x.toNat * 2 ^ i < 2 ^ 8 * 2 ^ i :=
      Nat.mul_lt_mul_of_pos_right x.toNat_lt (Nat.two_pow_pos i)
      _ ≤ 2 ^ 8 * 2 ^ 24 := Nat.mul_le_mul_left _ (Nat.pow_le_pow_right (by decide) hi)
  simp only [join32, UInt32.toNat_or, UInt32.toNat_shiftLeft, UInt8.toNat_toUInt32,
    UInt32.reduceToNat, Nat.reduceMod]
  rw [hshift b 8 (by decide), hshift c 16 (by decide), hshift d 24 (by decide)]
  have h₁ : a.toNat ||| b.toNat <<< 8 = a.toNat + b.toNat * 256 := or_shiftLeft (by omega) _
  have h₂ : a.toNat + b.toNat * 256 ||| c.toNat <<< 16 =
      a.toNat + b.toNat * 256 + c.toNat * 65536 := or_shiftLeft (by omega) _
  rw [h₁, h₂]
  exact or_shiftLeft (by omega) _

theorem join32_le32 {v : UInt32} {a b c d : UInt8} (h : le32 v = [a, b, c, d]) :
    join32 a b c d = v := by
  have h₁ := toNat_halves32 v
  have h₂ := toNat_halves16 v.toUInt16
  have h₃ := toNat_halves16 (v >>> 16).toUInt16
  simp only [le32, le16, List.cons_append, List.nil_append, List.cons.injEq, and_true] at h
  obtain ⟨rfl, rfl, rfl, rfl⟩ := h
  apply UInt32.toNat_inj.1
  rw [toNat_join32]
  omega

/-- The four bytes at a position inside the data. -/
def u32At (data : Bytes) (off : Nat) : UInt32 :=
  join32 (data.getD off 0) (data.getD (off + 1) 0) (data.getD (off + 2) 0) (data.getD (off + 3) 0)

theorem u32At_of_drop {data rest : Bytes} {off : Nat} {v : UInt32}
    (h : data.drop off = le32 v ++ rest) : u32At data off = v := by
  have hget : ∀ i, data.getD (off + i) 0 = (le32 v ++ rest).getD i 0 := fun i => by
    rw [← h, List.getD_eq_getElem?_getD, List.getD_eq_getElem?_getD, List.getElem?_drop]
  rw [u32At, ← Nat.add_zero off, hget 0, Nat.add_zero, hget 1, hget 2, hget 3]
  exact join32_le32 rfl

/-! ## Any number of bytes, the last one the most significant -/

/-- The value of little-endian bytes. -/
def leNat (bs : Bytes) : Nat := Nat.ofDigits 256 (bs.map UInt8.toNat)

/-- The `k` low bytes of `n`. -/
def leBytes (k n : Nat) : Bytes := (List.range k).map fun i => UInt8.ofNat (n / 256 ^ i)

@[simp] theorem length_leBytes (k n : Nat) : (leBytes k n).length = k := by
  rw [leBytes, List.length_map, List.length_range]

theorem leBytes_succ (k n : Nat) : leBytes (k + 1) n = UInt8.ofNat n :: leBytes k (n / 256) := by
  have hrest : ∀ i, n / 256 ^ (i + 1) = n / 256 / 256 ^ i := fun i => by
    rw [Nat.pow_succ', Nat.div_div_eq_div_mul]
  rw [leBytes, List.range_succ_eq_map, List.map_cons, List.map_map, Nat.pow_zero,
    Nat.div_one, leBytes]
  congr 1
  exact List.map_congr_left fun i _ => congrArg UInt8.ofNat (hrest i)

theorem leNat_cons (b : UInt8) (bs : Bytes) : leNat (b :: bs) = b.toNat + 256 * leNat bs :=
  Nat.ofDigits_cons

theorem leNat_leBytes (k n : Nat) : leNat (leBytes k n) = n % 256 ^ k := by
  induction k generalizing n with
  | zero => exact (Nat.mod_one n).symm
  | succ k ih =>
    have hpow : 256 ^ (k + 1) = 256 * 256 ^ k := Nat.pow_succ'
    rw [leBytes_succ, leNat_cons, ih, UInt8.toNat_ofNat', hpow]
    exact Nat.mod_mul.symm

/-- The bytes of a value are those that have it. -/
theorem eq_leBytes {bs : Bytes} {k n : Nat} (hlen : bs.length = k) (h : leNat bs = n % 256 ^ k) :
    bs = leBytes k n := by
  have hmap : bs.map UInt8.toNat = (leBytes k n).map UInt8.toNat := by
    refine Nat.ofDigits_inj_of_len_eq (b := 256) (by decide) ?_ ?_ ?_ ?_
    · rw [List.length_map, List.length_map, hlen, length_leBytes]
    · exact List.forall_mem_map.2 fun b _ => b.toNat_lt
    · exact List.forall_mem_map.2 fun b _ => b.toNat_lt
    · exact h.trans (leNat_leBytes k n).symm
  exact List.map_injective_iff.2 (fun _ _ => UInt8.toNat_inj.1) hmap

theorem leBytes_mod (k n : Nat) : leBytes k (n % 256 ^ k) = leBytes k n := by
  refine eq_leBytes (length_leBytes ..) ?_
  rw [leNat_leBytes, Nat.mod_mod]

/-- The bytes of a counter of 64 bits, as they are shifted out of it. -/
theorem shift_eq_leBytes (v : UInt64) :
    ((List.range 8).map fun i => (v >>> UInt64.ofNat (8 * i)).toUInt8) = leBytes 8 v.toNat := by
  refine List.map_congr_left fun i hi => UInt8.toNat_inj.1 ?_
  rw [List.mem_range] at hi
  have hshift : 8 * i % 2 ^ 64 % 64 = 8 * i := by omega
  rw [UInt64.toNat_toUInt8, UInt64.toNat_shiftRight, UInt64.toNat_ofNat', hshift,
    Nat.shiftRight_eq_div_pow, Nat.pow_mul, UInt8.toNat_ofNat']

/-! ## Records of one width -/

section Records

variable {α : Type} {f : α → Bytes} {w : Nat}

theorem length_records (h : ∀ x, (f x).length = w) (l : List α) :
    (l.flatMap f).length = w * l.length := by
  induction l with
  | nil => rfl
  | cons x l ih =>
    rw [List.flatMap_cons, List.length_append, ih, h, List.length_cons, Nat.mul_succ, Nat.add_comm]

theorem drop_records (h : ∀ x, (f x).length = w) (l : List α) (i : Nat) :
    (l.flatMap f).drop (w * i) = (l.drop i).flatMap f := by
  induction l generalizing i with
  | nil => rw [List.drop_nil, List.flatMap_nil, List.drop_nil]
  | cons x l ih =>
    cases i with
    | zero => rfl
    | succ i =>
      rw [List.flatMap_cons, Nat.mul_succ, Nat.add_comm, ← List.drop_drop, ← h x, List.drop_left, h,
        ih, List.drop_succ_cons]

end Records

end Wirewolf.Wire
