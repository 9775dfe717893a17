import Wirewolf.Core.Bytes

/-!
# MD5 (`_md5` of `tls_inspector.hpp`)

The hash behind the JA3 fingerprint: 64-byte blocks, a padded tail of one or
two blocks with the bit length in its last eight bytes, and the digest as
32 hexadecimal digits.
-/
namespace Wirewolf.L1.Md5

structure Ctx where
  a : UInt32 := 0x67452301
  b : UInt32 := 0xefcdab89
  c : UInt32 := 0x98badcfe
  d : UInt32 := 0x10325476
  deriving DecidableEq

/-- mirrors src/include/tls_inspector.hpp:37 -/
def rol (x s : UInt32) : UInt32 := (x <<< s) ||| (x >>> (32 - s))

/-- mirrors src/include/tls_inspector.hpp:40-51 -/
def sines : List UInt32 := [
  0xd76aa478, 0xe8c7b756, 0x242070db, 0xc1bdceee, 0xf57c0faf, 0x4787c62a,
  0xa8304613, 0xfd469501, 0x698098d8, 0x8b44f7af, 0xffff5bb1, 0x895cd7be,
  0x6b901122, 0xfd987193, 0xa679438e, 0x49b40821, 0xf61e2562, 0xc040b340,
  0x265e5a51, 0xe9b6c7aa, 0xd62f105d, 0x02441453, 0xd8a1e681, 0xe7d3fbc8,
  0x21e1cde6, 0xc33707d6, 0xf4d50d87, 0x455a14ed, 0xa9e3e905, 0xfcefa3f8,
  0x676f02d9, 0x8d2a4c8a, 0xfffa3942, 0x8771f681, 0x6d9d6122, 0xfde5380c,
  0xa4beea44, 0x4bdecfa9, 0xf6bb4b60, 0xbebfbc70, 0x289b7ec6, 0xeaa127fa,
  0xd4ef3085, 0x04881d05, 0xd9d4d039, 0xe6db99e5, 0x1fa27cf8, 0xc4ac5665,
  0xf4292244, 0x432aff97, 0xab9423a7, 0xfc93a039, 0x655b59c3, 0x8f0ccc92,
  0xffeff47d, 0x85845dd1, 0x6fa87e4f, 0xfe2ce6e0, 0xa3014314, 0x4e0811a1,
  0xf7537e82, 0xbd3af235, 0x2ad7d2bb, 0xeb86d391]

/-- mirrors src/include/tls_inspector.hpp:52-55 -/
def shifts : List UInt32 := [
  7, 12, 17, 22, 7, 12, 17, 22, 7, 12, 17, 22, 7, 12, 17, 22,
  5, 9, 14, 20, 5, 9, 14, 20, 5, 9, 14, 20, 5, 9, 14, 20,
  4, 11, 16, 23, 4, 11, 16, 23, 4, 11, 16, 23, 4, 11, 16, 23,
  6, 10, 15, 21, 6, 10, 15, 21, 6, 10, 15, 21, 6, 10, 15, 21]

/-- The `i`-th little-endian word of a block.
mirrors src/include/tls_inspector.hpp:56-58 -/
def word (p : Bytes) (i : Nat) : UInt32 :=
  let byte (j : Nat) : UInt32 := (p.getD (i * 4 + j) 0).toUInt32
  byte 0 ||| (byte 1 <<< 8) ||| (byte 2 <<< 16) ||| (byte 3 <<< 24)

/-- mirrors src/include/tls_inspector.hpp:63-71 -/
def round (m : List UInt32) (v : Ctx) (i : Nat) : Ctx :=
  let fg : UInt32 × Nat :=
    if i < 16 then ((v.b &&& v.c) ||| (~~~v.b &&& v.d), i)
    else if i < 32 then ((v.d &&& v.b) ||| (~~~v.d &&& v.c), (5 * i + 1) % 16)
    else if i < 48 then (v.b ^^^ v.c ^^^ v.d, (3 * i + 5) % 16)
    else (v.c ^^^ (v.b ||| ~~~v.d), (7 * i) % 16)
  let f := fg.1 + v.a + sines.getD i 0 + m.getD fg.2 0
  { a := v.d, d := v.c, c := v.b, b := v.b + rol f (shifts.getD i 0) }

/-- mirrors src/include/tls_inspector.hpp:39-73 -/
def process (ctx : Ctx) (p : Bytes) : Ctx :=
  let m := (List.range 16).map (word p)
  let v := (List.range 64).foldl (round m) ctx
  { a := ctx.a + v.a, b := ctx.b + v.b, c := ctx.c + v.c, d := ctx.d + v.d }

/-- What is left after the full blocks, with the padding and the length in bits.
mirrors src/include/tls_inspector.hpp:82-90 -/
def paddedTail (input : Bytes) : Bytes :=
  let rem := input.length % 64
  let padlen := if rem < 56 then 56 - rem else 120 - rem
  let bits : UInt64 := UInt64.ofNat input.length * 8
  input.drop (input.length - rem) ++ 0x80 :: List.replicate (padlen - 1) 0 ++
    (List.range 8).map fun i => (bits >>> UInt64.ofNat (8 * i)).toUInt8

/-- `process` on the first `n` blocks of `p`, in order. -/
def processBlocks (ctx : Ctx) (p : Bytes) (n : Nat) : Ctx :=
  (List.range n).foldl (fun ctx i => process ctx ((p.drop (64 * i)).take 64)) ctx

def hexDigits : Bytes := lit "0123456789abcdef"

/-- mirrors src/include/tls_inspector.hpp:92-100 -/
def hexDigest (ctx : Ctx) : Bytes :=
  [ctx.a, ctx.b, ctx.c, ctx.d].flatMap fun v =>
    (List.range 4).flatMap fun j =>
      let out := (v >>> UInt32.ofNat (8 * j)).toUInt8.toNat
      [hexDigits.getD (out / 16) 0, hexDigits.getD (out % 16) 0]

/-- mirrors src/include/tls_inspector.hpp:75-101 -/
def hash (input : Bytes) : Bytes :=
  let ctx := processBlocks {} input (input.length / 64)
  let tail := paddedTail input
  hexDigest (processBlocks ctx tail (tail.length / 64))

example : hash [] = lit "d41d8cd98f00b204e9800998ecf8427e" := by decide +kernel
example : hash (lit "abc") = lit "900150983cd24fb0d6963f7d28e17f72" := by decide +kernel

end Wirewolf.L1.Md5
