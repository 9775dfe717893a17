import Wirewolf.L4Filter.Detectors

/-!
# The generic framing heuristic (`NpuFilter::detect_rat_protocol`)

The block looks for frames of the form digits, NUL, letters, and wants two of
them. It takes a NUL for that of a frame only if everything in front of it in
the payload is digits, and a second NUL has the first one in front of it.

* `commandAt_unique`: at most one position passes the test.
* `framing_never_fires`: the block contributes nothing, on any flow.
* `frames_missed`: a flow of two frames that it would have decided.
-/
namespace Wirewolf.L4.RatFraming

open Wirewolf.L1.IpPacket Wirewolf.L4.Detectors Wirewolf.Search

/-! ## The four blocks -/

/-- mirrors src/src/npu_filter.cpp:550-560 -/
def njratScore (text : Bytes) : Nat := if 3 ≤ (occurrences text (lit "|'|'|")).length then 4 else 0

/-- `cmd_count`
mirrors src/src/npu_filter.cpp:566-592 -/
def cmdCount (text : Bytes) : Nat :=
  (List.range (text.length - 5)).countP (commandAt text text.length)

/-- mirrors src/src/npu_filter.cpp:593-594 -/
def framingScore (text : Bytes) : Nat := if 2 ≤ cmdCount text then 2 else 0

/-- mirrors src/src/npu_filter.cpp:599-611 -/
def reconScore (text : Bytes) : Nat := if 2 ≤ reconMarkers.countP (containsSub text) then 2 else 0

/-- mirrors src/src/npu_filter.cpp:615-633 -/
def base64Score (text : Bytes) : Nat := if 3 ≤ base64Runs 0 text then 1 else 0

theorem ratScore_eq (text : Bytes) :
    ratScore text = njratScore text + framingScore text + reconScore text + base64Score text := rfl

/-! ## Frames -/

/-- A length in one to nine digits and a command of at least three letters. -/
structure Frame where
  length : Bytes
  command : Bytes
  length_digits : ∀ c ∈ length, isDigit c = true
  length_bounds : 1 ≤ length.length ∧ length.length ≤ 9
  command_letters : ∀ c ∈ command, isAlpha c = true
  command_long : 3 ≤ command.length

def Frame.bytes (f : Frame) : Bytes := f.length ++ 0x00 :: f.command

/-- What the detector scans. -/
def scanned (flow : FlowData) : Bytes := flow.reassembledPayload.take 4096

/-- Neither port is one of the standard ones, and the scanned bytes contain
`n` frames in a row. -/
def Framed (n : Nat) (flow : FlowData) : Prop :=
  bswap16 flow.id.srcPort ∉ standardPorts ∧ bswap16 flow.id.dstPort ∉ standardPorts ∧
    ∃ frames : List Frame, frames.length = n ∧ frames.flatMap Frame.bytes <:+: scanned flow

/-! ## The count -/

/-- A position that passes the test holds a NUL, and only digits are in front
of it. -/
theorem commandAt_front {p : Bytes} {scanLen i : Nat} (h : commandAt p scanLen i = true) :
    p.getD i 0 = 0x00 ∧ ∀ j < i, j < p.length → isDigit (p.getD j 0) = true := by
  simp only [commandAt, Bool.and_eq_true, decide_eq_true_eq, List.all_eq_true] at h
  obtain ⟨⟨⟨⟨hnull, -⟩, -⟩, hdigits⟩, -⟩ := h
  refine ⟨UInt8.toNat_inj.1 hnull, fun j hj hlen => ?_⟩
  rw [List.getD_eq_getElem?_getD, List.getElem?_eq_getElem hlen, Option.getD_some]
  have hmem : p[j] ∈ p.take i := List.mem_take_iff_getElem.2 ⟨j, by omega, rfl⟩
  exact hdigits _ hmem

/-- A second NUL would have the first among its digits. -/
theorem commandAt_unique {p : Bytes} {scanLen i j : Nat} (hi : commandAt p scanLen i = true)
    (hj : commandAt p scanLen j = true) (hilen : i < p.length) (hjlen : j < p.length) : i = j := by
  have hnull : isDigit 0x00 = false := by decide
  obtain ⟨hizero, hifront⟩ := commandAt_front hi
  obtain ⟨hjzero, hjfront⟩ := commandAt_front hj
  rcases Nat.lt_trichotomy i j with hlt | heq | hlt
  · have hdigit := hjfront i hlt hilen
    rw [hizero, hnull] at hdigit
    cases hdigit
  · exact heq
  · have hdigit := hifront j hlt hjlen
    rw [hjzero, hnull] at hdigit
    cases hdigit

theorem countP_le_one {q : Nat → Bool} {n : Nat}
    (h : ∀ i < n, ∀ j < n, q i = true → q j = true → i = j) : (List.range n).countP q ≤ 1 := by
  rw [List.countP_eq_length_filter]
  have hnodup : ((List.range n).filter q).Nodup := List.nodup_range.filter q
  have hmem : ∀ i ∈ (List.range n).filter q, i < n ∧ q i = true := fun i hi => by
    rw [List.mem_filter, List.mem_range] at hi
    exact hi
  cases hl : (List.range n).filter q with
  | nil => exact Nat.zero_le 1
  | cons i l =>
    cases l with
    | nil => exact Nat.le_refl 1
    | cons j l =>
      rw [hl] at hnodup hmem
      obtain ⟨hi, hqi⟩ := hmem i (by simp)
      obtain ⟨hj, hqj⟩ := hmem j (by simp)
      have he := h i hi j hj hqi hqj
      exact absurd (he ▸ List.mem_cons_self) (List.nodup_cons.1 hnodup).1

theorem cmdCount_le_one (text : Bytes) : cmdCount text ≤ 1 :=
  countP_le_one fun _ hi _ hj hci hcj => commandAt_unique hci hcj (by omega) (by omega)

/-- On no flow does the block count two frames or contribute to the score. -/
theorem framing_never_fires (flow : FlowData) :
    ¬ 2 ≤ cmdCount (scanned flow) ∧ framingScore (scanned flow) = 0 ∧
      ratScore (scanned flow) =
        njratScore (scanned flow) + reconScore (scanned flow) + base64Score (scanned flow) := by
  have hcount : ¬ 2 ≤ cmdCount (scanned flow) :=
    Nat.not_le.2 (Nat.lt_succ_of_le (cmdCount_le_one _))
  have hscore : framingScore (scanned flow) = 0 := if_neg hcount
  refine ⟨hcount, hscore, ?_⟩
  rw [ratScore_eq, hscore, Nat.add_zero]

/-- The frame of a four-letter command. -/
def commandFrame (command : Bytes) (hletters : ∀ c ∈ command, isAlpha c = true)
    (hlong : 3 ≤ command.length) : Frame where
  length := lit "4"
  command := command
  length_digits := by decide +kernel
  length_bounds := by decide
  command_letters := hletters
  command_long := hlong

/-- Two frames to port 4444, and two markers that score 2 more points. -/
def infoList : FlowData where
  id := ⟨0x0A00000A, 0x0B00000B, 0x50C3, 0x5C11⟩
  reassembledPayload := lit "4" ++ 0x00 :: lit "info" ++ (lit "4" ++ 0x00 :: lit "list") ++
    lit " cmd.exe ipconfig"

/-- The two frames would have made the score 4. -/
theorem frames_missed :
    Framed 2 infoList ∧ cmdCount (scanned infoList) = 1 ∧ framingScore (scanned infoList) = 0 ∧
      reconScore (scanned infoList) = 2 ∧ detectRatProtocol infoList = false := by
  refine ⟨⟨by decide, by decide,
    [commandFrame (lit "info") (by decide +kernel) (by decide),
      commandFrame (lit "list") (by decide +kernel) (by decide)], rfl,
    ⟨[], lit " cmd.exe ipconfig", ?_⟩⟩, by decide, by decide, by decide,
    by decide⟩
  decide

end Wirewolf.L4.RatFraming
