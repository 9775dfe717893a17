/-!
# Reading a buffer

`Reading α` is a computation that subscripts a buffer: its value and the
subscripts it evaluates, in order. The value may depend on what lies behind
the end of the buffer; `Within n` says that no subscript gets there.

* `within_bind`: a sequence stays within the buffer if both parts do, the
  second on what the first has read.
-/
namespace Wirewolf

/-- A value, and the subscripts that it took. -/
structure Reading (α : Type) where
  value : α
  reads : List Nat

namespace Reading

variable {α β : Type}

instance : Monad Reading where
  pure a := ⟨a, []⟩
  bind x f := ⟨(f x.value).value, x.reads ++ (f x.value).reads⟩

/-- One subscript. -/
def subscript (buf : Nat → α) (k : Nat) : Reading α := ⟨buf k, [k]⟩

/-- Two bytes as a number, the high one first. -/
def be16 (buf : Nat → UInt8) (k : Nat) : Reading UInt16 := do
  let high ← subscript buf k
  let low ← subscript buf (k + 1)
  return high.toUInt16 <<< 8 ||| low.toUInt16

/-- The elements from `start` on, `n` of them. -/
def elements (buf : Nat → α) (start n : Nat) : Reading {l : List α // l.length = n} where
  value := ⟨(List.range' start n).map buf, by rw [List.length_map, List.length_range']⟩
  reads := List.range' start n

/-- The elements behind the address of the first. -/
def slice (buf : Nat → α) (start n : Nat) : Reading {l : List α // l.length = n} := do
  let _ ← subscript buf start
  elements buf start n

/-- The same computation on the buffer behind its first `n` elements. -/
def shift (n : Nat) (x : Reading α) : Reading α := ⟨x.value, x.reads.map (n + ·)⟩

/-- Every subscript is below `n`. -/
def Within (n : Nat) (x : Reading α) : Prop := ∀ k ∈ x.reads, k < n

instance (n : Nat) (x : Reading α) : Decidable (Within n x) := List.decidableBAll _ _

@[simp] theorem value_pure (a : α) : (pure a : Reading α).value = a := rfl

@[simp] theorem value_bind (x : Reading α) (f : α → Reading β) :
    (x >>= f).value = (f x.value).value := rfl

-- no `rfl` lemma: it also rewrites in the instances of guards
@[simp] theorem value_subscript (buf : Nat → α) (k : Nat) : (subscript buf k).value = buf k := by
  rw [subscript]

@[simp] theorem value_slice (buf : Nat → α) (start n : Nat) :
    (slice buf start n).value.val = (List.range' start n).map buf := rfl

@[simp] theorem value_shift (n : Nat) (x : Reading α) : (x.shift n).value = x.value := rfl

@[simp] theorem value_ite (c : Prop) {_ : Decidable c} (x y : Reading α) :
    (if c then x else y).value = if c then x.value else y.value := apply_ite _ _ _ _

@[simp] theorem within_pure (n : Nat) (a : α) : Within n (pure a) := fun _ hk => nomatch hk

@[simp] theorem within_bind {n : Nat} {x : Reading α} {f : α → Reading β} :
    Within n (x >>= f) ↔ Within n x ∧ Within n (f x.value) := List.forall_mem_append

@[simp] theorem within_subscript {n : Nat} {buf : Nat → α} {k : Nat} :
    Within n (subscript buf k) ↔ k < n := List.forall_mem_singleton

theorem toNat_be16 (buf : Nat → UInt8) (k : Nat) :
    (be16 buf k).value.toNat = (buf k).toNat * 256 + (buf (k + 1)).toNat := by
  have hhigh := (buf k).toNat_lt
  have hlow := (buf (k + 1)).toNat_lt
  show ((buf k).toUInt16 <<< 8 ||| (buf (k + 1)).toUInt16).toNat = _
  rw [UInt16.toNat_or, UInt16.toNat_shiftLeft, UInt8.toNat_toUInt16, UInt8.toNat_toUInt16,
    show (8 : UInt16).toNat % 16 = 8 from rfl, Nat.shiftLeft_eq, Nat.mod_eq_of_lt (by omega)]
  rw [Nat.mul_comm, ← Nat.two_pow_add_eq_or_of_lt hlow, Nat.mul_comm]

theorem within_be16 {n : Nat} {buf : Nat → UInt8} {k : Nat} :
    Within n (be16 buf k) ↔ k + 1 < n := by
  simp only [be16, within_bind, within_subscript, within_pure, and_true]
  omega

theorem within_ite {n : Nat} {c : Prop} {_ : Decidable c} {x y : Reading α} :
    Within n (if c then x else y) ↔ if c then Within n x else Within n y := by
  split <;> exact Iff.rfl

/-- An early return. -/
theorem within_guard {n : Nat} {c : Prop} {_ : Decidable c} {a : α} {x : Reading α} :
    Within n (if c then pure a else x) ↔ (¬c → Within n x) := by
  rw [within_ite]
  split
  case isTrue h => exact iff_of_true (within_pure n a) (absurd h)
  case isFalse h => exact ⟨fun hx _ => hx, fun hx => hx h⟩

theorem within_elements {n : Nat} {buf : Nat → α} {start count : Nat} (h : start + count ≤ n) :
    Within n (elements buf start count) := by
  intro k hk
  have hk : start ≤ k ∧ k < start + count := List.mem_range'_1.1 hk
  omega

/-- The address counts even where nothing is read behind it. -/
theorem within_slice {n : Nat} {buf : Nat → α} {start count : Nat} :
    Within n (slice buf start count) ↔ start < n ∧ start + count ≤ n := by
  rw [slice, within_bind, within_subscript]
  refine ⟨fun h => ⟨h.1, ?_⟩, fun h => ⟨h.1, within_elements h.2⟩⟩
  cases count with
  | zero => exact Nat.le_of_lt h.1
  | succ count => exact h.2 (start + count) (List.mem_range'_1.2 (by omega))

theorem within_shift {n m : Nat} {x : Reading α} (h : Within m x) : Within (n + m) (x.shift n) := by
  intro k hk
  obtain ⟨j, hj, rfl⟩ := List.mem_map.1 hk
  exact Nat.add_lt_add_left (h j hj) n

end Reading

end Wirewolf
