import Mathlib.Data.List.Basic

/-!
# Text in blocks

`blocks n l` are the consecutive blocks of `n` elements of a text, without
what is left behind the last whole one. A consumer of blocks that takes a
text piece by piece holds back what does not fill a block, and goes on with
it in front of the next piece.

* `flatten_blocks`: a text of whole blocks is all of them.
* `blocks_append`: the blocks of two pieces are those of the first, and those
  of what it holds back in front of the second.
-/
namespace Wirewolf.Blocks

variable {α : Type} {n : Nat}

def blocks (n : Nat) (l : List α) : List (List α) :=
  (List.range (l.length / n)).map fun i => (l.drop (n * i)).take n

/-- What does not fill a block. -/
def left (n : Nat) (l : List α) : List α := l.drop (n * (l.length / n))

theorem length_left (n : Nat) (l : List α) : (left n l).length = l.length % n := by
  have := Nat.div_add_mod l.length n
  rw [left, List.length_drop]
  omega

theorem blocks_short {l : List α} (h : l.length < n) : blocks n l = [] := by
  rw [blocks, Nat.div_eq_of_lt h]
  rfl

theorem left_short {l : List α} (h : l.length < n) : left n l = l := by
  rw [left, Nat.div_eq_of_lt h, Nat.mul_zero, List.drop_zero]

/-- A whole block in front. -/
theorem blocks_cons (hn : 0 < n) {b : List α} (hb : b.length = n) (l : List α) :
    blocks n (b ++ l) = b :: blocks n l := by
  have hcount : (b ++ l).length / n = l.length / n + 1 := by
    rw [List.length_append, hb, Nat.add_comm, Nat.add_div_right _ hn]
  have hrest : ∀ i, ((b ++ l).drop (n * (i + 1))).take n = (l.drop (n * i)).take n := by
    intro i
    rw [Nat.mul_add_one, Nat.add_comm, ← hb, List.drop_length_add_append]
  rw [blocks, hcount, List.range_succ_eq_map, List.map_cons, List.map_map, Nat.mul_zero,
    List.drop_zero, List.take_left' hb, blocks]
  congr 1
  exact List.map_congr_left fun i _ => hrest i

/-- The block at a cursor. -/
theorem blocks_drop (hn : 0 < n) {l : List α} {i : Nat} (h : i + n ≤ l.length) :
    blocks n (l.drop i) = (l.drop i).take n :: blocks n (l.drop (i + n)) := by
  have hlen : ((l.drop i).take n).length = n := by
    rw [List.length_take, List.length_drop]
    omega
  rw [← blocks_cons hn hlen, ← List.drop_drop, List.take_append_drop]

theorem left_cons (hn : 0 < n) {b : List α} (hb : b.length = n) (l : List α) :
    left n (b ++ l) = left n l := by
  rw [left, List.length_append, hb, Nat.add_div_left _ hn, Nat.mul_succ, Nat.add_comm, ← hb,
    List.drop_length_add_append, left]

theorem length_of_mem_blocks {b l : List α} (h : b ∈ blocks n l) : b.length = n := by
  obtain ⟨i, hi, rfl⟩ := List.mem_map.1 h
  rw [List.mem_range] at hi
  have hle : n * (i + 1) ≤ l.length :=
    Nat.le_trans (Nat.mul_le_mul_left n hi) (Nat.mul_div_le l.length n)
  rw [Nat.mul_add_one] at hle
  rw [List.length_take, List.length_drop]
  omega

/-- Block by block, down to what does not fill one. -/
@[elab_as_elim]
theorem block_ind {motive : List α → Prop} (hn : 0 < n) (short : ∀ l, l.length < n → motive l)
    (block : ∀ b l, b.length = n → motive l → motive (b ++ l)) (l : List α) : motive l :=
  if h : l.length < n then short l h
  else by
    have hb : (l.take n).length = n := List.length_take_of_le (Nat.le_of_not_lt h)
    rw [← List.take_append_drop n l]
    exact block _ _ hb (block_ind hn short block (l.drop n))
termination_by l.length
decreasing_by
  rw [List.length_drop]
  omega

theorem flatten_blocks_left (hn : 0 < n) (l : List α) : (blocks n l).flatten ++ left n l = l := by
  induction l using block_ind hn with
  | short l h => rw [blocks_short h, left_short h, List.flatten_nil, List.nil_append]
  | block b l hb ih =>
    rw [blocks_cons hn hb, left_cons hn hb, List.flatten_cons, List.append_assoc, ih]

theorem flatten_blocks (hn : 0 < n) {l : List α} (h : n ∣ l.length) : (blocks n l).flatten = l := by
  have hleft : left n l = [] := by
    rw [← List.length_eq_zero_iff, length_left, Nat.mod_eq_zero_of_dvd h]
  have := flatten_blocks_left hn l
  rwa [hleft, List.append_nil] at this

theorem blocks_append (hn : 0 < n) (l r : List α) :
    blocks n (l ++ r) = blocks n l ++ blocks n (left n l ++ r) := by
  induction l using block_ind hn with
  | short l h => rw [blocks_short h, left_short h, List.nil_append]
  | block b l hb ih =>
    rw [List.append_assoc, blocks_cons hn hb, blocks_cons hn hb, left_cons hn hb, ih,
      List.cons_append]

end Wirewolf.Blocks
