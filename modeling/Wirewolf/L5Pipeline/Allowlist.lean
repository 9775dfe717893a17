import Mathlib.Data.Finset.Basic
import Wirewolf.Core.LTS
import Wirewolf.Core.Text
import Wirewolf.L5Pipeline.Anomalies

/-!
# The blocklist and its allowlist (IPS)

`block_source` refuses an address that is on the allowlist;
`set_block_allowlist` replaces the allowlist and does not look at the
blocklist.

* `allowed_never_blocked`: no allowed address is blocked, at any moment of a
  run, exactly when no new allowlist names an address blocked at the time.
* `allowed_blocked`: one that does.
-/
namespace Wirewolf.L5.Allowlist

open Wirewolf.L5.Anomalies (Env)

/-! ## `set_block_allowlist` -/

/-- `" \t"` -/
def isBlank (c : UInt8) : Bool := c = 0x20 || c = 0x09

/-- mirrors src/src/tcp_reassembly.cpp:313-316 -/
def trim (tok : Bytes) : Bytes := ((tok.dropWhile isBlank).reverse.dropWhile isBlank).reverse

/-- `%u`: the value that `strtoul` finds, in 64 bits and with its sign, cut
to 32. -/
def scanUnsigned (s : Bytes) : Option (UInt32 × Bytes) :=
  let s := s.dropWhile isSpace
  let negative := s.head? == some 0x2D
  let s := if negative || s.head? == some 0x2B then s.tail else s
  let digits := s.takeWhile isDigit
  let value := digits.foldl (fun n c => 10 * n + (c.toNat - 0x30)) 0
  if digits.isEmpty then none
  else
    some (if 2 ^ 64 ≤ value then 0xFFFFFFFF else if negative then - .ofNat value else .ofNat value,
      s.dropWhile isDigit)

/-- A literal of the format. -/
def scanChar (c : UInt8) : Bytes → Option Bytes
  | [] => none
  | b :: s => if b = c then some s else none

/-- `sscanf(tok, "%u.%u.%u.%u", ..)` with all four assigned; the text ends at
the first NUL. -/
def scanDotted (tok : Bytes) : Option (UInt32 × UInt32 × UInt32 × UInt32) := do
  let (o0, s) ← scanUnsigned (tok.takeWhile (· ≠ 0))
  let (o1, s) ← scanUnsigned (← scanChar 0x2E s)
  let (o2, s) ← scanUnsigned (← scanChar 0x2E s)
  let (o3, _) ← scanUnsigned (← scanChar 0x2E s)
  return (o0, o1, o2, o3)

/-- The address of one token, in network byte order.
mirrors src/src/tcp_reassembly.cpp:313-334 -/
def parseIp (tok : Bytes) : Option UInt32 :=
  match scanDotted (trim tok) with
  | none => none
  | some (o0, o1, o2, o3) =>
    if o0 < 256 ∧ o1 < 256 ∧ o2 < 256 ∧ o3 < 256 then
      some (o0 ||| (o1 <<< 8) ||| (o2 <<< 16) ||| (o3 <<< 24))
    else none

/-- mirrors src/src/tcp_reassembly.cpp:304-339 -/
def parseAllowlist (csv : Bytes) : Finset UInt32 :=
  ((Text.segments 0x2C csv).filterMap parseIp).toFinset

/-! ## The two sets -/

/-- mirrors src/include/tcp_reassembly.hpp:103-110 -/
structure Lists where
  allowlistIps : Finset UInt32 := ∅
  blockedIps : Finset UInt32 := ∅
  deriving DecidableEq

/-- mirrors src/src/tcp_reassembly.cpp:279-292 -/
def blockSource (s : Lists) (ip : UInt32) : Lists :=
  if ip ∈ s.allowlistIps then s else { s with blockedIps := insert ip s.blockedIps }

/-- mirrors src/src/tcp_reassembly.cpp:294-297 -/
def unblockSource (s : Lists) (ip : UInt32) : Lists :=
  { s with blockedIps := s.blockedIps.erase ip }

/-- mirrors src/src/tcp_reassembly.cpp:299-302 -/
def isBlocked (s : Lists) (ip : UInt32) : Bool := decide (ip ∈ s.blockedIps)

/-- mirrors src/src/tcp_reassembly.cpp:304-344 -/
def setBlockAllowlist (s : Lists) (csv : Bytes) : Lists :=
  { s with allowlistIps := parseAllowlist csv }

/-- What the detectors call is this `block_source`, on the allowlist of their
environment. -/
theorem blockSource_blockedIps (e : Env) (s : Anomalies.State) (ip : UInt32) :
    (Anomalies.blockSource e s ip).blockedIps =
      (blockSource ⟨e.allowlistIps.toFinset, s.blockedIps⟩ ip).blockedIps := by
  unfold Anomalies.blockSource blockSource
  simp only [List.mem_toFinset]
  split <;> rfl

/-! ## Runs -/

inductive Call where
  | setBlockAllowlist (csv : Bytes)
  | blockSource (ip : UInt32)
  | unblockSource (ip : UInt32)

def call (s : Lists) : Call → Lists
  | .setBlockAllowlist csv => setBlockAllowlist s csv
  | .blockSource ip => blockSource s ip
  | .unblockSource ip => unblockSource s ip

/-- The calls in order, on empty lists. -/
def run (cs : List Call) : Lists := cs.foldl call {}

/-- No allowed address is blocked. -/
def Safe (s : Lists) : Prop := ∀ ip ∈ s.allowlistIps, isBlocked s ip = false

theorem run_append (cs : List Call) (c : Call) : run (cs ++ [c]) = call (run cs) c :=
  List.foldl_append

theorem safe_iff (s : Lists) : Safe s ↔ Disjoint s.allowlistIps s.blockedIps := by
  rw [Finset.disjoint_left]
  simp only [Safe, isBlocked, decide_eq_false_iff_not]

/-- Blocking and unblocking keep the lists apart. -/
theorem safe_blockSource {s : Lists} (h : Safe s) (ip : UInt32) : Safe (blockSource s ip) := by
  unfold blockSource
  split
  · exact h
  · next hip =>
    rw [safe_iff] at h ⊢
    exact Finset.disjoint_insert_right.2 ⟨hip, h⟩

theorem safe_unblockSource {s : Lists} (h : Safe s) (ip : UInt32) :
    Safe (unblockSource s ip) := by
  rw [safe_iff] at h ⊢
  exact h.mono_right (Finset.erase_subset ip s.blockedIps)

/-- A new allowlist keeps them apart if it names no blocked address. -/
theorem safe_setBlockAllowlist (s : Lists) (csv : Bytes) :
    Safe (setBlockAllowlist s csv) ↔ ∀ ip ∈ parseAllowlist csv, isBlocked s ip = false := .rfl

/-- Over every sequence of calls. -/
theorem allowed_never_blocked (cs : List Call) :
    (∀ pre, pre <+: cs → Safe (run pre)) ↔
      ∀ pre csv, pre ++ [.setBlockAllowlist csv] <+: cs →
        ∀ ip ∈ parseAllowlist csv, isBlocked (run pre) ip = false := by
  constructor
  · intro h pre csv hpre
    have hsafe := h _ hpre
    rw [run_append] at hsafe
    exact (safe_setBlockAllowlist (run pre) csv).1 hsafe
  · intro h pre hpre
    induction pre using List.reverseRecOn with
    | nil => exact fun ip hip => absurd hip (Finset.notMem_empty ip)
    | append_singleton pre c ih =>
      have hsafe := ih (.trans (List.prefix_append ..) hpre)
      rw [run_append]
      cases c with
      | setBlockAllowlist csv => exact (safe_setBlockAllowlist (run pre) csv).2 (h pre csv hpre)
      | blockSource ip => exact safe_blockSource hsafe ip
      | unblockSource ip => exact safe_unblockSource hsafe ip

/-- The gateway 10.0.0.1 is blocked and then allowed. -/
theorem allowed_blocked :
    ¬ Safe (run [.blockSource 0x0100000A, .setBlockAllowlist (lit "10.0.0.1")]) := by
  intro h
  have hmem : (0x0100000A : UInt32) ∈
      (run [.blockSource 0x0100000A, .setBlockAllowlist (lit "10.0.0.1")]).allowlistIps := by decide
  have hblocked := h _ hmem
  exact absurd hblocked (by decide)

end Wirewolf.L5.Allowlist
