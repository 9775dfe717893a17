import Wirewolf.Core.Bytes

/-!
# Payload normalizer (`payload_normalizer.hpp`)

`normalizePayload` undoes percent-encoding (three passes at most), strips
comments, collapses whitespace and folds case. The source walks an index
over the text and jumps it forward over what it has consumed; here the walk
is on the text itself, and a jump is a number of bytes still to skip.
-/
namespace Wirewolf.L1.Normalizer

/-- mirrors src/include/payload_normalizer.hpp:29-34; `none` is `-1`. -/
def hexVal (c : UInt8) : Option UInt8 :=
  if 0x30 ≤ c ∧ c ≤ 0x39 then some (c - 0x30)
  else if 0x61 ≤ c ∧ c ≤ 0x66 then some (c - 0x61 + 10)
  else if 0x41 ≤ c ∧ c ≤ 0x46 then some (c - 0x41 + 10)
  else none

def hexPair (c₁ c₂ : Option UInt8) : Option UInt8 := do
  let h₁ ← hexVal (← c₁)
  let h₂ ← hexVal (← c₂)
  return (h₁ <<< 4) ||| h₂

/-- One round of the decoding loop at the byte `c` with `rest` behind it: the
byte to emit, how many bytes of `rest` it used up, and whether it decoded
anything.
mirrors src/include/payload_normalizer.hpp:42-66 -/
def decodeAt (c : UInt8) (rest : Bytes) : UInt8 × Nat × Bool :=
  if c = 0x25 ∧ (rest[0]? = some 0x75 ∨ rest[0]? = some 0x55) then
    -- `%uXXXX`: the low byte only
    match hexPair rest[3]? rest[4]? with
    | some b => (b, 5, true)
    | none => (c, 0, false)
  else if c = 0x25 then
    match hexPair rest[0]? rest[1]? with
    | some b => (b, 2, true)
    | none => (c, 0, false)
  else if c = 0x2B then (0x20, 0, true)
  else (c, 0, false)

/-- The decoding loop, `skip` bytes before its next round. -/
def decodeLoop : Nat → Bytes → Bytes × Bool
  | _, [] => ([], false)
  | skip + 1, _ :: rest => decodeLoop skip rest
  | 0, c :: rest =>
    let d := decodeAt c rest
    let r := decodeLoop d.2.1 rest
    (d.1 :: r.1, d.2.2 || r.2)

/-- The decoded text and the flag `changed`.
mirrors src/include/payload_normalizer.hpp:37-69 -/
def percentDecodeOnce (s : Bytes) : Bytes × Bool := decodeLoop 0 s

/-- mirrors src/include/payload_normalizer.hpp:77-82 -/
def decodePasses : Nat → Bytes → Bytes
  | 0, s => s
  | pass + 1, s =>
    let r := percentDecodeOnce s
    if r.2 then decodePasses pass r.1 else r.1

def toLower (c : UInt8) : UInt8 := if 0x41 ≤ c ∧ c ≤ 0x5A then c - 0x41 + 0x61 else c

/-- How many bytes behind the current one a comment that opens here takes:
`none` when no comment opens, `some none` when it is never closed.
mirrors src/include/payload_normalizer.hpp:89-101 -/
def commentAt (c : UInt8) (rest : Bytes) : Option (Option Nat) :=
  if c = 0x2F ∧ rest[0]? = some 0x2A then
    some ((Search.indexOf (lit "*/") (rest.drop 1)).map (· + 3))
  else if c = 0x2D ∧ rest[0]? = some 0x2D then
    some (Search.indexOf [0x0A] (c :: rest))
  else none

/-- Comment strip, whitespace collapse and case fold in one pass.
mirrors src/include/payload_normalizer.hpp:84-118 -/
def foldText : Nat → Bool → Bytes → Bytes
  | _, _, [] => []
  | skip + 1, prevSpace, _ :: rest => foldText skip prevSpace rest
  | 0, prevSpace, c :: rest =>
    match commentAt c rest with
    | some none => []
    | some (some skip) => foldText skip prevSpace rest
    | none =>
      if isSpace c then
        if prevSpace then foldText 0 true rest else 0x20 :: foldText 0 true rest
      else toLower c :: foldText 0 false rest

/-- mirrors src/include/payload_normalizer.hpp:73 -/
def maxNorm : Nat := 65536

/-- mirrors src/include/payload_normalizer.hpp:71-119 -/
def normalizePayload (raw : Bytes) : Bytes := foldText 0 false (decodePasses 3 (raw.take maxNorm))

example : normalizePayload (lit "%2527 oR%201=1/**/--x") = lit "' or 1=1" := by decide

end Wirewolf.L1.Normalizer
