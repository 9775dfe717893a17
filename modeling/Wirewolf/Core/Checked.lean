import Wirewolf.Core.Cursor

/-!
# Checked steps

`Checked α` is a computation that stops with a `Fault` at the first step
whose condition does not hold: a subscript behind the end of what is read or
written, a substring that starts behind the end, a copy of more than there
is, arithmetic with the position of a failed search, an unsigned difference
below zero, a division by zero. What delivers a value has met every condition
on its way.

* `subscript_ok`, `copy_ok`, `substr_ok`: the steps whose condition holds.
* `anyM_ok`, `allM_ok`, `mapM_ok`, `count_ok`: the loops over a range of subscripts.
* `store_ok`, `fill_ok`: an array that is written from its front.
* `forHits_eq`: the loop of searches visits the `hits`.
* `scan_ok`: the loop that moves a subscript on while a test holds.
-/
namespace Wirewolf

inductive Fault where
  | subscript (k size : Nat)
  | substr (start size : Nat)
  | copy (count size : Nat)
  | npos
  | underflow (a b : Nat)
  | divByZero
  deriving DecidableEq, Repr

abbrev Checked := Except Fault

namespace Checked

variable {α σ : Type}

/-- `s[k]` -/
def subscript (s : List α) (k : Nat) : Checked α :=
  match s[k]? with
  | some a => .ok a
  | none => .error (.subscript k s.length)

/-- `s.substr(start, count)` -/
def substr (s : List α) (start count : Nat) : Checked (List α) :=
  if start ≤ s.length then .ok (Search.substr s start count) else .error (.substr start s.length)

/-- The elements from `s.begin()` to `s.begin() + count`. -/
def copy (s : List α) (count : Nat) : Checked (List α) :=
  if count ≤ s.length then .ok (s.take count) else .error (.copy count s.length)

/-- `a[k] = v` -/
def store {n : Nat} (a : Vector α n) (k : Nat) (v : α) : Checked (Vector α n) :=
  if h : k < n then .ok (a.set k v h) else .error (.subscript k n)

/-- A position that is computed with. -/
def position : Option Nat → Checked Nat
  | some i => .ok i
  | none => .error .npos

def sub (a b : Nat) : Checked Nat := if b ≤ a then .ok (a - b) else .error (.underflow a b)

def div (a b : Nat) : Checked Rat := if b = 0 then .error .divByZero else .ok (a / b)

@[simp] theorem ok_bind {β : Type} (a : α) (f : α → Checked β) :
    ((.ok a : Checked α) >>= f) = f a := rfl

@[simp] theorem pure_eq (a : α) : (pure a : Checked α) = .ok a := rfl

theorem subscript_ok {s : List α} {k : Nat} (h : k < s.length) (d : α) :
    subscript s k = .ok (s.getD k d) := by
  rw [subscript, List.getD_eq_getElem?_getD, List.getElem?_eq_getElem h, Option.getD_some]

theorem substr_ok {s : List α} {start : Nat} (h : start ≤ s.length) (count : Nat) :
    substr s start count = .ok (Search.substr s start count) := if_pos h

theorem copy_ok {s : List α} {count : Nat} (h : count ≤ s.length) :
    copy s count = .ok (s.take count) := if_pos h

/-- As many elements as there are, at most `n`. -/
theorem take_min (s : List α) (n : Nat) : s.take (min s.length n) = s.take n := by
  have hle : (s.take n).length ≤ s.length := by rw [List.length_take]; exact Nat.min_le_right ..
  rw [← List.take_take, List.take_of_length_le hle]

theorem copy_min (s : List α) (n : Nat) : copy s (min s.length n) = .ok (s.take n) := by
  rw [copy_ok (Nat.min_le_left ..), take_min]

theorem sub_ok {a b : Nat} (h : b ≤ a) : sub a b = .ok (a - b) := if_pos h

theorem div_ok {b : Nat} (a : Nat) (h : 0 < b) : div a b = .ok (a / b) :=
  if_neg (Nat.pos_iff_ne_zero.1 h)

/-! ## Tests -/

/-- An early return. -/
theorem guard_ok {c : Prop} [Decidable c] {x : Checked Bool} {b : Bool} (h : ¬c → x = .ok b) :
    (if c then .ok false else x) = .ok (!decide c && b) := by
  by_cases hc : c
  · simp [hc]
  · simp [hc, h hc]

/-- The right side is evaluated only if the left one holds. -/
theorem andM_ok {x y : Checked Bool} {a b : Bool} (hx : x = .ok a) (hy : a = true → y = .ok b) :
    (x <&&> y) = .ok (a && b) := by
  subst hx
  cases a with
  | false => rfl
  | true =>
    have hy := hy rfl
    subst hy
    rfl

/-- The right side is evaluated only if the left one does not hold. -/
theorem orM_ok {x y : Checked Bool} {a b : Bool} (hx : x = .ok a) (hy : a = false → y = .ok b) :
    (x <||> y) = .ok (a || b) := by
  subst hx
  cases a with
  | true => rfl
  | false =>
    have hy := hy rfl
    subst hy
    rfl

/-! ## Loops over a range -/

theorem anyM_ok {l : List α} {f : α → Checked Bool} {g : α → Bool} (h : ∀ a ∈ l, f a = .ok (g a)) :
    l.anyM f = .ok (l.any g) := by
  induction l with
  | nil => rfl
  | cons a l ih =>
    obtain ⟨ha, hl⟩ := List.forall_mem_cons.1 h
    rw [List.anyM, ha, ok_bind, List.any_cons]
    cases g a with
    | true => rfl
    | false => exact ih hl

theorem allM_ok {l : List α} {f : α → Checked Bool} {g : α → Bool} (h : ∀ a ∈ l, f a = .ok (g a)) :
    l.allM f = .ok (l.all g) := by
  induction l with
  | nil => rfl
  | cons a l ih =>
    obtain ⟨ha, hl⟩ := List.forall_mem_cons.1 h
    rw [List.allM, ha, ok_bind, List.all_cons]
    cases g a with
    | true => exact ih hl
    | false => rfl

theorem foldlM_ok {l : List α} {f : σ → α → Checked σ} {g : σ → α → σ}
    (h : ∀ s, ∀ a ∈ l, f s a = .ok (g s a)) (s : σ) : l.foldlM f s = .ok (l.foldl g s) := by
  induction l generalizing s with
  | nil => rfl
  | cons a l ih =>
    rw [List.foldlM_cons, h s a List.mem_cons_self, ok_bind, List.foldl_cons]
    exact ih (fun s b hb => h s b (List.mem_cons_of_mem _ hb)) (g s a)

theorem mapM_ok {β : Type} {l : List α} {f : α → Checked β} {g : α → β}
    (h : ∀ a ∈ l, f a = .ok (g a)) : l.mapM f = .ok (l.map g) := by
  induction l with
  | nil => rfl
  | cons a l ih =>
    obtain ⟨ha, hl⟩ := List.forall_mem_cons.1 h
    rw [List.mapM_cons, ha, ok_bind, ih hl]
    rfl

theorem foldl_or (g : α → Bool) (l : List α) (b : Bool) :
    l.foldl (fun b a => b || g a) b = (b || l.any g) := by
  induction l generalizing b with
  | nil => rw [List.foldl_nil, List.any_nil, Bool.or_false]
  | cons a l ih => rw [List.foldl_cons, ih, List.any_cons, Bool.or_assoc]

/-- How many pass the test. -/
def count (f : α → Checked Bool) (l : List α) : Checked Nat :=
  l.foldlM (fun n a => do return if ← f a then n + 1 else n) 0

theorem foldl_count (g : α → Bool) (l : List α) (n : Nat) :
    l.foldl (fun n a => if g a then n + 1 else n) n = n + l.countP g := by
  induction l generalizing n with
  | nil => rfl
  | cons a l ih =>
    rw [List.foldl_cons, ih, List.countP_cons]
    split <;> omega

theorem count_ok {l : List α} {f : α → Checked Bool} {g : α → Bool}
    (h : ∀ a ∈ l, f a = .ok (g a)) : count f l = .ok (l.countP g) := by
  have hround : ∀ n, ∀ a ∈ l, (do return if ← f a then n + 1 else n : Checked Nat) =
      .ok (if g a then n + 1 else n) := by
    intro n a ha
    rw [h a ha]
    rfl
  rw [count, foldlM_ok hround, foldl_count, Nat.zero_add]

/-- The elements that the subscripts from `start` to `stop` read. -/
theorem slice_eq_map {s : List α} {start stop : Nat} (h : stop ≤ s.length) (d : α) :
    (s.take stop).drop start = (List.range' start (stop - start)).map (s.getD · d) := by
  refine List.ext_getElem (by simp; omega) fun k h₁ h₂ => ?_
  simp only [List.length_drop, List.length_take] at h₁
  simp only [List.getElem_drop, List.getElem_take, List.getElem_map, List.getElem_range',
    List.getD_eq_getElem?_getD, Nat.one_mul]
  rw [List.getElem?_eq_getElem (by omega), Option.getD_some]

theorem take_eq_map {s : List α} {stop : Nat} (h : stop ≤ s.length) (d : α) :
    s.take stop = (List.range stop).map (s.getD · d) := by
  have hslice : (s.take stop).drop 0 = (List.range' 0 (stop - 0)).map (s.getD · d) :=
    slice_eq_map h d
  rwa [List.drop_zero, Nat.sub_zero, ← List.range_eq_range'] at hslice

/-- The elements of a prefix that pass a test, counted. -/
theorem count_front {s : List α} {stop : Nat} (h : stop ≤ s.length) (d : α) (q : α → Bool) :
    count (fun i => q <$> subscript s i) (List.range stop) = .ok ((s.take stop).countP q) := by
  have hread : ∀ i ∈ List.range stop, q <$> subscript s i = .ok (q (s.getD i d)) := by
    intro i hi
    rw [List.mem_range] at hi
    rw [subscript_ok (Nat.lt_of_lt_of_le hi h) d]
    rfl
  rw [count_ok hread, take_eq_map h d, List.countP_map]
  rfl

/-- All elements of a slice pass a test. -/
theorem allM_slice {s : List α} {start stop : Nat} (h : stop ≤ s.length) (d : α) (q : α → Bool) :
    (List.range' start (stop - start)).allM (fun i => q <$> subscript s i) =
      .ok (((s.take stop).drop start).all q) := by
  have hread : ∀ i ∈ List.range' start (stop - start),
      q <$> subscript s i = .ok (q (s.getD i d)) := by
    intro i hi
    rw [List.mem_range'_1] at hi
    rw [subscript_ok (by omega) d]
    rfl
  rw [allM_ok hread, slice_eq_map h d, List.all_map]
  rfl

theorem allM_front {s : List α} {stop : Nat} (h : stop ≤ s.length) (d : α) (q : α → Bool) :
    (List.range stop).allM (fun i => q <$> subscript s i) = .ok ((s.take stop).all q) := by
  have hall : (List.range' 0 (stop - 0)).allM (fun i => q <$> subscript s i) = _ := allM_slice h d q
  rwa [List.drop_zero, Nat.sub_zero, ← List.range_eq_range'] at hall

/-! ## Filling an array -/

section

variable {n : Nat} {a : Vector α n} {w : List α}

/-- `for (i = start; i < stop; i++) a[base + i] = f(i);` -/
def fill (a : Vector α n) (base start stop : Nat) (f : Nat → Checked α) : Checked (Vector α n) :=
  (List.range' start (stop - start)).foldlM (fun a i => do store a (base + i) (← f i)) a

/-- One more element behind those that are there. -/
theorem store_ok (h : w <+: a.toList) (hroom : w.length < n) (v : α) :
    ∃ b, store a w.length v = .ok b ∧ w ++ [v] <+: b.toList := by
  refine ⟨a.set w.length v hroom, dif_pos hroom, ?_⟩
  obtain ⟨r, hr⟩ := h
  have hlen : w.length + r.length = n := by rw [← List.length_append, hr, Vector.length_toList]
  obtain ⟨c, r, rfl⟩ := List.exists_cons_of_length_pos (l := r) (by omega)
  have hset : (a.set w.length v hroom).toList = w ++ v :: r := by
    rw [Vector.toList_set, ← hr, List.set_append_right _ _ (Nat.le_refl _), Nat.sub_self,
      List.set_cons_zero]
  rw [hset]
  exact ⟨r, (List.append_cons w v r).symm⟩

/-- The loop puts its elements behind those that are there. -/
theorem fill_ok {vs : List α} {base start stop : Nat} {f : Nat → Checked α} (h : w <+: a.toList)
    (hpos : base + start = w.length) (hroom : w.length + vs.length ≤ n)
    (hstop : stop = start + vs.length) (hread : ∀ k, ∀ v ∈ vs[k]?, f (start + k) = .ok v) :
    ∃ b, fill a base start stop f = .ok b ∧ w ++ vs <+: b.toList := by
  subst hstop
  rw [fill, Nat.add_sub_cancel_left]
  induction vs generalizing a w start with
  | nil => exact ⟨a, rfl, by rwa [List.append_nil]⟩
  | cons v vs ih =>
    rw [List.length_cons] at hroom
    obtain ⟨b, hb, hw⟩ := store_ok h (by omega) v
    have hlen : (w ++ [v]).length = w.length + 1 := List.length_append
    have hrest : ∀ k, ∀ u ∈ vs[k]?, f (start + 1 + k) = .ok u := by
      intro k u hu
      rw [Nat.add_assoc, Nat.add_comm 1]
      exact hread (k + 1) u (by rwa [List.getElem?_cons_succ])
    have hfirst : f start = .ok v := hread 0 v rfl
    obtain ⟨d, hd, hv⟩ := ih hw (by omega) (by omega) hrest
    refine ⟨d, ?_, by rwa [List.append_cons]⟩
    rw [List.length_cons, List.range'_succ, List.foldlM_cons, hfirst, ok_bind, hpos, hb,
      ok_bind, hd]

end
/-! ## Loops with a cursor -/

section

variable [DecidableEq α] {s needle : List α}

/-- `while ((pos = s.find(needle, pos)) != npos) { body; pos += needle.size(); }` -/
def forHits (s needle : List α) (hne : needle ≠ []) (body : σ → Nat → Checked σ) (pos : Nat)
    (acc : σ) : Checked σ :=
  match hfind : Search.find s needle pos with
  | none => .ok acc
  | some i =>
    have : s.length - (i + needle.length) < s.length - pos := by
      have := Search.find_bounds hfind
      have := List.length_pos_iff.2 hne
      omega
    do
      let acc ← body acc i
      forHits s needle hne body (i + needle.length) acc
termination_by s.length - pos

/-- The body sees each hit, in order. -/
theorem forHits_eq (hne : needle ≠ []) (body : σ → Nat → Checked σ) (pos : Nat) (acc : σ) :
    forHits s needle hne body pos acc = (Search.hits s needle pos).foldlM body acc := by
  rw [forHits]
  split
  · next h =>
    rw [Search.hits_of_none hne h]
    rfl
  · next i h =>
    rw [Search.hits_of_some hne h, List.foldlM_cons]
    refine bind_congr fun acc => ?_
    have := Search.find_bounds h
    have := List.length_pos_iff.2 hne
    exact forHits_eq hne body (i + needle.length) acc
termination_by s.length - pos

/-- The hits that pass a test, counted. -/
theorem forHits_count (hne : needle ≠ []) {body : Nat → Nat → Checked Nat} {g : Nat → Bool}
    (h : ∀ n, ∀ i ∈ Search.occurrences s needle, body n i = .ok (if g i then n + 1 else n)) :
    forHits s needle hne body 0 0 = .ok ((Search.occurrences s needle).countP g) := by
  rw [forHits_eq, Search.hits_zero, foldlM_ok h, foldl_count, Nat.zero_add]

theorem forHits_length (hne : needle ≠ []) :
    forHits s needle hne (fun n _ => return n + 1) 0 0 =
      .ok (Search.occurrences s needle).length := by
  have hbody : ∀ n, ∀ i ∈ Search.occurrences s needle,
      (return n + 1 : Checked Nat) = .ok (if true then n + 1 else n) := fun _ _ _ => rfl
  rw [forHits_count hne hbody, List.countP_true]

end

/-- `while (k < stop && test(s[k])) { acc = step(acc, s[k]); k++; }` -/
def scan (test : α → Bool) (step : σ → α → σ) (s : List α) (stop k : Nat) (acc : σ) :
    Checked (Nat × σ) :=
  if k < stop then do
    let c ← subscript s k
    if test c then scan test step s stop (k + 1) (step acc c) else .ok (k, acc)
  else .ok (k, acc)
termination_by stop - k

theorem scan_le {test : α → Bool} {step : σ → α → σ} {s : List α} {stop k j : Nat} {acc acc' : σ}
    (h : scan test step s stop k acc = .ok (j, acc')) : k ≤ j := by
  rw [scan] at h
  split at h
  · cases hc : subscript s k with
    | error fault => rw [hc] at h; cases h
    | ok c =>
      rw [hc, ok_bind] at h
      split at h
      · have := scan_le h
        omega
      · cases h
        exact Nat.le_refl k
  · cases h
    exact Nat.le_refl k
termination_by stop - k

/-- The loop stops behind the elements that pass the test. -/
theorem scan_ok {test : α → Bool} {step : σ → α → σ} {s : List α} {stop k : Nat}
    (h : stop ≤ s.length) (acc : σ) :
    scan test step s stop k acc =
      .ok (k + (((s.take stop).drop k).takeWhile test).length,
        (((s.take stop).drop k).takeWhile test).foldl step acc) := by
  rw [scan]
  split
  · next hk =>
    have hlen : k < (s.take stop).length := by rw [List.length_take]; omega
    have hget : (s.take stop)[k] = s[k] := List.getElem_take
    rw [List.drop_eq_getElem_cons hlen, hget, subscript,
      List.getElem?_eq_getElem (by omega), ok_bind,
      List.takeWhile_cons]
    split
    · rw [scan_ok h, List.length_cons, List.foldl_cons, Nat.add_right_comm, Nat.add_assoc]
    · rfl
  · next hk =>
    rw [List.drop_eq_nil_of_le (by rw [List.length_take]; omega)]
    rfl
termination_by stop - k

end Checked
end Wirewolf
