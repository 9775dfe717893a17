import Wirewolf.L1Encoding.Md5

/-!
# TLS ClientHello (`parse_tls_client_hello`)

`parseTlsClientHello` reads server name and JA3 fingerprint from the first
handshake record of a payload. The positions are those of the source, and
each of its guards stands before the reads it protects; a byte beyond the
payload would read as zero.
-/
namespace Wirewolf.L1.TlsHello

/-- mirrors src/include/tls_inspector.hpp:19-24; a parsed hello always has
`is_client_hello` set. -/
structure TlsInfo where
  sni : Bytes := []
  ja3 : Bytes := []
  ja3Hash : Bytes := []
  deriving DecidableEq

def byteAt (p : Bytes) (i : Nat) : Nat := (p.getD i 0).toNat

def be16At (p : Bytes) (i : Nat) : Nat := byteAt p i * 256 + byteAt p (i + 1)

/-- mirrors src/include/tls_inspector.hpp:105-107 -/
def isGrease (v : Nat) : Bool := v &&& 0x0f0f = 0x0a0a

/-- What the extension loop has collected. -/
structure Extensions where
  sni : Bytes := []
  extensions : List Nat := []
  curves : List Nat := []
  formats : List Nat := []
  deriving DecidableEq

/-- mirrors src/include/tls_inspector.hpp:174-182 -/
def serverName (p : Bytes) (pos elen : Nat) : Option Bytes :=
  let sp := pos + 2 + 1
  if sp + 2 ≤ pos + elen then
    let nameLen := be16At p sp
    if sp + 2 + nameLen ≤ pos + elen then some (Search.substr p (sp + 2) nameLen) else none
  else none

/-- mirrors src/include/tls_inspector.hpp:183-191 -/
def supportedGroups (p : Bytes) (pos elen : Nat) : List Nat :=
  let listLen := be16At p pos
  let idx := (List.range (listLen / 2)).takeWhile fun k => pos + 2 + 2 * k + 1 < pos + elen
  (idx.map fun k => be16At p (pos + 2 + 2 * k)).filter (!isGrease ·)

/-- mirrors src/include/tls_inspector.hpp:192-199 -/
def pointFormats (p : Bytes) (pos elen : Nat) : List Nat :=
  let listLen := byteAt p pos
  let idx := (List.range listLen).takeWhile fun k => pos + 1 + k < pos + elen
  idx.map fun k => byteAt p (pos + 1 + k)

/-- One extension, its data at `pos`.
mirrors src/include/tls_inspector.hpp:172-199 -/
def Extensions.add (x : Extensions) (p : Bytes) (etype pos elen : Nat) : Extensions :=
  let x := if isGrease etype then x else { x with extensions := x.extensions ++ [etype] }
  if etype = 0x0000 ∧ 5 ≤ elen then { x with sni := (serverName p pos elen).getD x.sni }
  else if etype = 0x000a then
    if 2 ≤ elen then { x with curves := x.curves ++ supportedGroups p pos elen } else x
  else if etype = 0x000b then
    if 1 ≤ elen then { x with formats := x.formats ++ pointFormats p pos elen } else x
  else x

/-- mirrors src/include/tls_inspector.hpp:167-201 -/
def parseExtensions (p : Bytes) (pos extEnd : Nat) (x : Extensions) : Extensions :=
  if pos + 4 ≤ extEnd then
    let etype := be16At p pos
    let elen := be16At p (pos + 2)
    if extEnd < pos + 4 + elen then x
    else parseExtensions p (pos + 4 + elen) extEnd (x.add p etype (pos + 4) elen)
  else x
termination_by extEnd - pos

/-- mirrors src/include/tls_inspector.hpp:204-211 -/
def joinDec (v : List Nat) : Bytes := [0x2D].intercalate (v.map fun n => lit (toString n))

/-- mirrors src/include/tls_inspector.hpp:212-213 -/
def ja3String (version : Nat) (ciphers : List Nat) (x : Extensions) : Bytes :=
  [0x2C].intercalate [lit (toString version), joinDec ciphers, joinDec x.extensions,
    joinDec x.curves, joinDec x.formats]

/-- The list of cipher suites, `csLen` bytes at `pos`.
mirrors src/include/tls_inspector.hpp:141-145 -/
def cipherSuites (p : Bytes) (pos csLen : Nat) : List Nat :=
  ((List.range (csLen / 2)).map fun k => be16At p (pos + 2 * k)).filter (!isGrease ·)

/-- From the cipher suites on, which start at `pos`.
mirrors src/include/tls_inspector.hpp:136-216 -/
def parseSuites (p : Bytes) (clientVersion pos : Nat) : Option TlsInfo :=
  let csLen := be16At p pos
  let csPos := pos + 2
  if p.length < csPos + csLen then none
  else
    let ciphers := cipherSuites p csPos csLen
    let compPos := csPos + csLen
    if p.length ≤ compPos then none
    else
      let extPos := compPos + 1 + byteAt p compPos
      -- no extensions: a hello without a fingerprint
      if p.length < extPos + 2 then some {}
      else
        let extEnd := min (extPos + 2 + be16At p extPos) p.length
        let x := parseExtensions p (extPos + 2) extEnd {}
        let ja3 := ja3String clientVersion ciphers x
        some { sni := x.sni, ja3 := ja3, ja3Hash := Md5.hash ja3 }

/-- mirrors src/include/tls_inspector.hpp:111-217 -/
def parseTlsClientHello (p : Bytes) : Option TlsInfo :=
  if p.length < 6 ∨ byteAt p 0 ≠ 0x16 then none
  else if p.length < 9 then none
  else if byteAt p 5 ≠ 0x01 then none
  else if p.length < 11 then none
  else
    let clientVersion := be16At p 9
    if p.length ≤ 43 then none
    else
      let pos := 43 + 1 + byteAt p 43
      if p.length < pos + 2 then none else parseSuites p clientVersion pos

/-! ## Where the parts of a hello stand -/

section Layout

variable (p : Bytes)

def suitesPos : Nat := 44 + byteAt p 43

def compressionPos : Nat := suitesPos p + 2 + be16At p (suitesPos p)

def extensionsPos : Nat := compressionPos p + 1 + byteAt p (compressionPos p)

/-- At least the length of an extensions block follows the compression methods. -/
def HasExtensions : Prop := extensionsPos p + 2 ≤ p.length

instance : Decidable (HasExtensions p) := Nat.decLe _ _

end Layout

end Wirewolf.L1.TlsHello
