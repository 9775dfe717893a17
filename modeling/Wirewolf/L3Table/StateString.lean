import Mathlib.Data.List.Nodup
import Wirewolf.Core.Sorting
import Wirewolf.L3Table.FlowRecord

/-!
# State strings

What the string of a connection depends on. The symbols see the starts of
the flows alone, the letters their sizes and durations; the sort sees the
starts and nothing else.

* `order_independent_iff`: the order in which flows were recorded shows
  exactly where flows of one start differ in their letters.
* `code_inj`: the two characters of a flow stand for its buckets.
* `state_string`: so a string of distinct starts stands for one sequence of
  buckets; and its shape.
-/
namespace Wirewolf.L3.StateString

open Wirewolf.L3.FlowRecord
open Wirewolf.L3.Behavior (Flow)

variable {cfg : BehavioralConfig}

/-! ## Starts and letters -/

/-- The string depends on the starts and the letters. -/
theorem encodeFlows_congr {prev : Option Rat} {s s' : List Flow}
    (h : s.map (fun f => (f.startTime, letter cfg f)) =
      s'.map fun f => (f.startTime, letter cfg f)) :
    encodeFlows cfg prev s = encodeFlows cfg prev s' := by
  induction s generalizing prev s' with
  | nil => cases s' with
    | nil => rfl
    | cons f' s' => cases h
  | cons f s ih => cases s' with
    | nil => cases h
    | cons f' s' =>
      obtain ⟨hf, hs⟩ := List.cons.inj h
      obtain ⟨hstart, hletter⟩ := Prod.mk.inj hf
      have hsymbol : symbol cfg prev f = symbol cfg prev f' := by
        unfold symbol gap
        rw [hstart]
      rw [encodeFlows, encodeFlows, hletter, hsymbol, hstart, ih hs]

theorem getElem?_encodeFlows (prev : Option Rat) (s : List Flow) (i : Nat) :
    (encodeFlows cfg prev s)[2 * i]? = s[i]?.map (letter cfg) := by
  induction s generalizing prev i with
  | nil => rfl
  | cons f s ih =>
    cases i with
    | zero => rfl
    | succ i =>
      rw [encodeFlows, Nat.mul_succ, List.getElem?_cons_succ, List.getElem?_cons_succ, ih,
        List.getElem?_cons_succ]

/-- Where equal starts mean equal letters, any order by start is encoded
alike. -/
theorem encodeFlows_eq_of_perm {flows s s' : List Flow} (hs : s.Perm flows) (hs' : s'.Perm flows)
    (hsorted : s.Pairwise fun a b => a.startTime ≤ b.startTime)
    (hsorted' : s'.Pairwise fun a b => a.startTime ≤ b.startTime)
    (h : ∀ f ∈ flows, ∀ g ∈ flows, f.startTime = g.startTime → letter cfg f = letter cfg g) :
    encodeFlows cfg none s = encodeFlows cfg none s' :=
  encodeFlows_congr <| Sorting.map_eq_of_sorted (hs.trans hs'.symm) hsorted hsorted'
    fun f hf g hg =>
    h f (hs.mem_iff.1 hf) g (hs.mem_iff.1 hg)

/-- The first recorded flow is encoded in front of those with its start. -/
theorem letter_first (cfg : BehavioralConfig) (f : Flow) {l : List Flow} (hl : l ≠ []) :
    (encodeConnection (f :: l) cfg)[2 * l.countP fun g => g.startTime < f.startTime]? =
      some (letter cfg f) := by
  have hlen : ¬ (f :: l).length < 2 := by
    have := List.length_pos_iff.2 hl
    rw [List.length_cons]; omega
  rw [encodeConnection, if_neg hlen, getElem?_encodeFlows,
    Sorting.getElem?_mergeSort_cons Flow.startTime]
  rfl

/-- Every order in which the flows may be recorded gives the same string
exactly if flows that start together have the same letter. -/
theorem order_independent_iff (flows : List Flow) (cfg : BehavioralConfig) :
    (∀ flows', flows.Perm flows' → encodeConnection flows' cfg = encodeConnection flows cfg) ↔
      ∀ f ∈ flows, ∀ g ∈ flows, f.startTime = g.startTime → letter cfg f = letter cfg g := by
  constructor
  · intro h f hf g hg hstart
    by_cases hfg : f = g
    · rw [hfg]
    · -- `f` and `g` in front, in either order
      have hg' : g ∈ flows.erase f := (List.mem_erase_of_ne (Ne.symm hfg)).2 hg
      have hperm : flows.Perm (f :: g :: (flows.erase f).erase g) :=
        (List.perm_cons_erase hf).trans ((List.perm_cons_erase hg').cons f)
      have hf₁ := letter_first cfg f (List.cons_ne_nil g ((flows.erase f).erase g))
      have hg₁ := letter_first cfg g (List.cons_ne_nil f ((flows.erase f).erase g))
      rw [h _ hperm] at hf₁
      rw [h _ (hperm.trans (.swap ..)), ← hstart] at hg₁
      rw [List.countP_cons_of_neg (by simp [hstart])] at hf₁
      rw [List.countP_cons_of_neg (by simp)] at hg₁
      exact Option.some.inj (hf₁.symm.trans hg₁)
  · intro h flows' hperm
    unfold encodeConnection
    rw [hperm.length_eq]
    split
    · rfl
    · exact encodeFlows_eq_of_perm ((List.mergeSort_perm ..).trans hperm.symm)
        (List.mergeSort_perm ..) (Sorting.pairwise_mergeSort Flow.startTime flows')
        (Sorting.pairwise_mergeSort Flow.startTime flows) h

/-- Two flows of one second, a small one and a large one. -/
theorem order_shows : ¬ ∀ (flows flows' : List Flow) (cfg : BehavioralConfig), flows.Perm flows' →
    encodeConnection flows' cfg = encodeConnection flows cfg := by
  intro h
  have hswap := h [⟨1700000000, 0, 60⟩, ⟨1700000000, 0, 90000⟩]
    [⟨1700000000, 0, 90000⟩, ⟨1700000000, 0, 60⟩] {} (.swap ..)
  rw [encodeConnection_sorted _ (by decide) (by decide),
    encodeConnection_sorted _ (by decide) (by decide)] at hswap
  exact absurd hswap (by decide)

/-! ## Buckets -/

/-- The buckets of a flow: size, duration, and the gap to the flow before it. -/
abbrev Buckets := Nat × Nat × Option Nat

def bucketsOf (cfg : BehavioralConfig) (prev : Option Rat) (f : Flow) : Buckets :=
  (bucketOf f.totBytes cfg.byteBuckets, bucketOf f.duration cfg.durBuckets,
    prev.map fun p => bucketOf (gap p f) cfg.gapBuckets)

/-- The buckets of flows in the order of time; the first has no gap. -/
def bucketSequence (cfg : BehavioralConfig) : Option Rat → List Flow → List Buckets
  | _, [] => []
  | prev, f :: l => bucketsOf cfg prev f :: bucketSequence cfg (some f.startTime) l

/-- The letters and the symbols have room for the buckets; nothing depends on
the bounds being in order. -/
structure Admissible (cfg : BehavioralConfig) : Prop where
  letters : (cfg.byteBuckets.length + 1) * (cfg.durBuckets.length + 1) ≤ 26
  symbols : cfg.gapBuckets.length ≤ 5

/-- A bucket triple within the bounds of `cfg`. -/
structure InRange (cfg : BehavioralConfig) (b : Buckets) : Prop where
  size : b.1 ≤ cfg.byteBuckets.length
  dur : b.2.1 ≤ cfg.durBuckets.length
  gap : ∀ g, b.2.2 = some g → g ≤ cfg.gapBuckets.length

theorem bucketOf_le {α : Type} [LT α] [DecidableLT α] (v : α) (bounds : List α) :
    bucketOf v bounds ≤ bounds.length := List.findIdx_le_length

theorem bucketsOf_inRange (cfg : BehavioralConfig) (prev : Option Rat) (f : Flow) :
    InRange cfg (bucketsOf cfg prev f) where
  size := bucketOf_le ..
  dur := bucketOf_le ..
  gap g hg := by
    obtain ⟨p, -, rfl⟩ := Option.map_eq_some_iff.1 hg
    exact bucketOf_le ..

/-- The number of a letter, and that of a symbol. -/
def letterCode (cfg : BehavioralConfig) (b : Buckets) : Nat :=
  b.1 * (cfg.durBuckets.length + 1) + b.2.1

def symbolCode (b : Buckets) : Nat :=
  match b.2.2 with
  | none => 0
  | some g => 1 + g

/-- The two characters of a flow. -/
def code (cfg : BehavioralConfig) (b : Buckets) : UInt8 × UInt8 :=
  (.ofNat (0x61 + letterCode cfg b), symbols.getD (min (symbolCode b) (symbols.length - 1)) 0)

theorem encodeFlows_eq (cfg : BehavioralConfig) (prev : Option Rat) (s : List Flow) :
    encodeFlows cfg prev s =
      (bucketSequence cfg prev s).flatMap fun b => [(code cfg b).1, (code cfg b).2] := by
  induction s generalizing prev with
  | nil => rfl
  | cons f s ih =>
    rw [encodeFlows, bucketSequence, List.flatMap_cons, ih]
    cases prev <;> rfl

theorem letterCode_lt (ha : Admissible cfg) {b : Buckets} (hb : InRange cfg b) :
    letterCode cfg b < 26 := by
  have hmul := Nat.mul_le_mul_right (cfg.durBuckets.length + 1) hb.size
  have hroom := ha.letters
  have hdur := hb.dur
  rw [Nat.add_mul, Nat.one_mul] at hroom
  unfold letterCode
  omega

theorem symbolCode_lt (ha : Admissible cfg) {b : Buckets} (hb : InRange cfg b) :
    symbolCode b < 7 := by
  have hroom := ha.symbols
  unfold symbolCode
  split
  · decide
  · next g hg =>
    have := hb.gap g hg
    omega

/-- A letter is a digit pair in mixed radix. -/
theorem letterCode_inj {b b' : Buckets} (hb : InRange cfg b) (hb' : InRange cfg b')
    (h : letterCode cfg b = letterCode cfg b') : b.1 = b'.1 ∧ b.2.1 = b'.2.1 := by
  have hdiv : ∀ s d, d < cfg.durBuckets.length + 1 →
      (s * (cfg.durBuckets.length + 1) + d) / (cfg.durBuckets.length + 1) = s := by
    intro s d hd
    rw [Nat.add_comm, Nat.add_mul_div_right _ _ (Nat.succ_pos _), Nat.div_eq_of_lt hd, Nat.zero_add]
  have hsize : b.1 = b'.1 := by
    have hquot := congrArg (· / (cfg.durBuckets.length + 1)) h
    dsimp only [letterCode] at hquot
    rwa [hdiv _ _ (Nat.lt_succ_of_le hb.dur), hdiv _ _ (Nat.lt_succ_of_le hb'.dur)] at hquot
  refine ⟨hsize, ?_⟩
  unfold letterCode at h
  rw [hsize] at h
  exact Nat.add_left_cancel h

theorem symbolCode_inj {b b' : Buckets} (h : symbolCode b = symbolCode b') : b.2.2 = b'.2.2 := by
  unfold symbolCode at h
  cases hb : b.2.2 with
  | none => cases hb' : b'.2.2 with
    | none => rfl
    | some g' => rw [hb, hb'] at h; dsimp only at h; omega
  | some g => cases hb' : b'.2.2 with
    | none => rw [hb, hb'] at h; dsimp only at h; omega
    | some g' => rw [hb, hb'] at h; exact congrArg some (Nat.add_left_cancel h)

theorem letterByte_inj {m n : Nat} (hm : m < 26) (hn : n < 26)
    (h : UInt8.ofNat (0x61 + m) = UInt8.ofNat (0x61 + n)) : m = n := by
  have h' := congrArg UInt8.toNat h
  rw [UInt8.toNat_ofNat', UInt8.toNat_ofNat'] at h'
  omega

/-- The seven symbols differ. -/
theorem symbolByte_inj {m n : Nat} (hm : m < 7) (hn : n < 7)
    (h : symbols.getD (min m (symbols.length - 1)) 0 =
      symbols.getD (min n (symbols.length - 1)) 0) :
    m = n := by
  have hall : ∀ i j : Fin 7, symbols.getD (min i.val (symbols.length - 1)) 0 =
      symbols.getD (min j.val (symbols.length - 1)) 0 → i = j := by decide
  exact Fin.val_eq_of_eq (hall ⟨m, hm⟩ ⟨n, hn⟩ h)

theorem code_inj (ha : Admissible cfg) {b b' : Buckets} (hb : InRange cfg b) (hb' : InRange cfg b')
    (h : code cfg b = code cfg b') : b = b' := by
  obtain ⟨hletter, hsymbol⟩ := Prod.mk.inj h
  have hl := letterByte_inj (letterCode_lt ha hb) (letterCode_lt ha hb') hletter
  have hs := symbolByte_inj (symbolCode_lt ha hb) (symbolCode_lt ha hb') hsymbol
  obtain ⟨h₁, h₂⟩ := letterCode_inj hb hb' hl
  exact Prod.ext h₁ (Prod.ext h₂ (symbolCode_inj hs))

theorem bucketSequence_inRange (cfg : BehavioralConfig) (prev : Option Rat) (s : List Flow) :
    ∀ b ∈ bucketSequence cfg prev s, InRange cfg b := by
  induction s generalizing prev with
  | nil => intro b hb; cases hb
  | cons f s ih =>
    intro b hb
    rcases List.mem_cons.1 hb with rfl | hb
    · exact bucketsOf_inRange ..
    · exact ih _ b hb

theorem getElem?_inRange {prev : Option Rat} {s : List Flow} {i : Nat} {b : Buckets}
    (h : (bucketSequence cfg prev s)[i]? = some b) : InRange cfg b :=
  bucketSequence_inRange cfg prev s b (List.mem_of_getElem? h)

theorem flatMap_code_inj (ha : Admissible cfg) {l l' : List Buckets} (hl : ∀ b ∈ l, InRange cfg b)
    (hl' : ∀ b ∈ l', InRange cfg b)
    (h : (l.flatMap fun b => [(code cfg b).1, (code cfg b).2]) =
      l'.flatMap fun b => [(code cfg b).1, (code cfg b).2]) : l = l' := by
  induction l generalizing l' with
  | nil => cases l' with
    | nil => rfl
    | cons b' l' => cases h
  | cons b l ih => cases l' with
    | nil => cases h
    | cons b' l' =>
      rw [List.forall_mem_cons] at hl hl'
      simp only [List.flatMap_cons, List.cons_append, List.nil_append, List.cons.injEq] at h
      have hcode := code_inj ha hl.1 hl'.1 (Prod.ext h.1 h.2.1)
      rw [hcode, ih hl.2 hl'.2 h.2.2]

/-! ## The string of a connection -/

/-- `s` are the flows in the order of their starts, which all differ. -/
structure InTime (flows s : List Flow) : Prop where
  perm : s.Perm flows
  sorted : s.Pairwise fun a b => a.startTime < b.startTime

theorem InTime.encode {flows s : List Flow} (h : InTime flows s) (hlen : 2 ≤ flows.length) :
    encodeConnection flows cfg = encodeFlows cfg none s := by
  have hdistinct : ∀ f ∈ flows, ∀ g ∈ flows, f.startTime = g.startTime → letter cfg f =
      letter cfg g := by
    intro f hf g hg hstart
    have hinj := List.inj_on_of_nodup_map
      (List.nodup_iff_pairwise_ne.2 (List.pairwise_map.2 (h.sorted.imp ne_of_lt)))
    rw [hinj (h.perm.mem_iff.2 hf) (h.perm.mem_iff.2 hg) hstart]
  rw [encodeConnection, if_neg (Nat.not_lt.2 hlen)]
  exact encodeFlows_eq_of_perm (List.mergeSort_perm ..) h.perm
    (Sorting.pairwise_mergeSort Flow.startTime flows) (h.sorted.imp le_of_lt) hdistinct

/-- Letters at the even positions, symbols at the odd ones, and the dot at
position 1 alone. -/
structure WellFormed (n : Nat) (s : Bytes) : Prop where
  length : s.length = 2 * n
  letters : ∀ i < n, ∃ c : UInt8, s[2 * i]? = some c ∧ 0x61 ≤ c ∧ c ≤ 0x7A
  symbols : ∀ i < n, ∃ c ∈ symbols, s[2 * i + 1]? = some c
  dot : ∀ i : Nat, s[i]? = some 0x2E ↔ i = 1

theorem length_bucketSequence (cfg : BehavioralConfig) (prev : Option Rat) (s : List Flow) :
    (bucketSequence cfg prev s).length = s.length := by
  induction s generalizing prev with
  | nil => rfl
  | cons f s ih => rw [bucketSequence, List.length_cons, List.length_cons, ih]

/-- Only the first flow has no gap. -/
theorem bucketSequence_gap {prev : Option Rat} {s : List Flow} {i : Nat} {b : Buckets}
    (h : (bucketSequence cfg prev s)[i]? = some b) : b.2.2 = none ↔ prev = none ∧ i = 0 := by
  induction s generalizing prev i with
  | nil => cases h
  | cons f s ih =>
    cases i with
    | zero =>
      cases h
      simp [bucketsOf]
    | succ i => simpa using ih h

theorem length_codes (l : List Buckets) :
    (l.flatMap fun b => [(code cfg b).1, (code cfg b).2]).length = 2 * l.length := by
  induction l with
  | nil => rfl
  | cons b l ih =>
    simp only [List.flatMap_cons, List.length_append, ih, List.length_cons, List.length_nil]
    omega

theorem getElem?_codes (l : List Buckets) (i : Nat) :
    (l.flatMap fun b => [(code cfg b).1, (code cfg b).2])[2 * i]? =
      l[i]?.map (fun b => (code cfg b).1) ∧
      (l.flatMap fun b => [(code cfg b).1, (code cfg b).2])[2 * i + 1]? =
        l[i]?.map fun b => (code cfg b).2 := by
  induction l generalizing i with
  | nil => exact ⟨rfl, rfl⟩
  | cons b l ih =>
    cases i with
    | zero => exact ⟨rfl, rfl⟩
    | succ i =>
      obtain ⟨hletter, hsymbol⟩ := ih i
      exact ⟨hletter, hsymbol⟩

theorem letter_range (ha : Admissible cfg) {b : Buckets} (hb : InRange cfg b) :
    0x61 ≤ (code cfg b).1 ∧ (code cfg b).1 ≤ 0x7A := by
  have hlt := letterCode_lt ha hb
  have hnat : (code cfg b).1.toNat = 0x61 + letterCode cfg b := by
    rw [code, UInt8.toNat_ofNat']
    omega
  rw [UInt8.le_iff_toNat_le, UInt8.le_iff_toNat_le, hnat]
  constructor
  · exact Nat.le_add_right ..
  · show 0x61 + letterCode cfg b ≤ 122
    omega

theorem symbol_mem (b : Buckets) : (code cfg b).2 ∈ symbols := by
  have hall : ∀ i : Fin 7, symbols.getD i.val 0 ∈ symbols := by decide
  exact hall ⟨min (symbolCode b) 6, by omega⟩

theorem symbol_dot (ha : Admissible cfg) {b : Buckets} (hb : InRange cfg b) :
    (code cfg b).2 = 0x2E ↔ b.2.2 = none := by
  have hzero : symbols.getD (min 0 (symbols.length - 1)) 0 = 0x2E := by decide
  constructor
  · intro h
    have hcode := symbolByte_inj (symbolCode_lt ha hb) (by decide) (h.trans hzero.symm)
    unfold symbolCode at hcode
    split at hcode
    · assumption
    · omega
  · intro h
    rw [code, symbolCode, h]
    exact hzero

theorem wellFormed_codes (ha : Admissible cfg) {s : List Flow} (hne : s ≠ []) :
    WellFormed s.length (encodeFlows cfg none s) := by
  have hlen := length_bucketSequence cfg none s
  have hget : ∀ i < s.length, ∃ b, (bucketSequence cfg none s)[i]? = some b ∧ InRange cfg b := by
    intro i hi
    have hb : (bucketSequence cfg none s)[i]? = some (bucketSequence cfg none s)[i] :=
      List.getElem?_eq_getElem (hlen ▸ hi)
    exact ⟨_, hb, getElem?_inRange hb⟩
  rw [encodeFlows_eq]
  refine ⟨by rw [length_codes, hlen], fun i hi => ?_, fun i hi => ?_, fun j => ?_⟩
  · obtain ⟨b, hb, hr⟩ := hget i hi
    exact ⟨_, by rw [(getElem?_codes _ i).1, hb]; rfl, letter_range ha hr⟩
  · obtain ⟨b, hb, -⟩ := hget i hi
    exact ⟨_, symbol_mem b, by rw [(getElem?_codes _ i).2, hb]; rfl⟩
  · obtain ⟨i, rfl | rfl⟩ : ∃ i, j = 2 * i ∨ j = 2 * i + 1 := ⟨j / 2, by omega⟩
    · -- a letter
      rw [(getElem?_codes _ i).1]
      refine ⟨fun h => ?_, fun h => by omega⟩
      obtain ⟨b, hb, hdot⟩ := Option.map_eq_some_iff.1 h
      have hrange := (letter_range ha (getElem?_inRange hb)).1
      rw [hdot] at hrange
      exact absurd hrange (by decide)
    · rw [(getElem?_codes _ i).2]
      constructor
      · intro h
        obtain ⟨b, hb, hdot⟩ := Option.map_eq_some_iff.1 h
        have hi := ((bucketSequence_gap hb).1 ((symbol_dot ha (getElem?_inRange hb)).1 hdot)).2
        omega
      · intro h
        obtain rfl : i = 0 := by omega
        obtain ⟨b, hb, hr⟩ := hget 0 (List.length_pos_iff.2 hne)
        rw [hb, Option.map_some, (symbol_dot ha hr).2 ((bucketSequence_gap hb).2 ⟨rfl, rfl⟩)]

/-- With room for the buckets, the string of at least two flows with distinct
starts is well formed, and two such strings are equal exactly if the flows,
in the order of time, fall into the same buckets. -/
theorem state_string {flows s flows' s' : List Flow} (ha : Admissible cfg) (hs : InTime flows s)
    (hlen : 2 ≤ flows.length) (hs' : InTime flows' s') (hlen' : 2 ≤ flows'.length) :
    WellFormed flows.length (encodeConnection flows cfg) ∧
      (encodeConnection flows cfg = encodeConnection flows' cfg ↔
        bucketSequence cfg none s = bucketSequence cfg none s') := by
  rw [hs.encode hlen, hs'.encode hlen', ← hs.perm.length_eq]
  constructor
  · refine wellFormed_codes ha fun hnil => ?_
    rw [← hs.perm.length_eq, hnil] at hlen
    exact absurd hlen (by decide)
  · rw [encodeFlows_eq, encodeFlows_eq]
    exact ⟨flatMap_code_inj ha (bucketSequence_inRange cfg none s)
      (bucketSequence_inRange cfg none s'),
      fun h => by rw [h]⟩

def late : Flow := ⟨10, 0, 60⟩

def early : Flow := ⟨0, 5, 90000⟩

theorem state_string_defaults :
    WellFormed [late, early].length (encodeConnection [late, early] {}) ∧
      (encodeConnection [late, early] {} = encodeConnection [early, late] {} ↔
        bucketSequence {} none [early, late] = bucketSequence {} none [early, late]) := by
  have ha : Admissible {} := ⟨by decide, by decide⟩
  have hs : InTime [late, early] [early, late] := ⟨.swap .., by decide⟩
  have hs' : InTime [early, late] [early, late] := ⟨.refl _, hs.sorted⟩
  exact state_string ha hs (by decide) hs' (by decide)

end Wirewolf.L3.StateString
