import Wirewolf.L1Encoding.IpPacket
import Wirewolf.L1Encoding.TlsHello
import Wirewolf.L4Filter.ThreatFeed

/-!
# Detectors of the filter (`NpuFilter::detect_*`, `NpuFilter::inspect_tls`)

Each detector is a predicate on the bytes of the flow (`inspectTls` also
tags it). Ratios that the source compares as doubles are compared exactly:
numerator and denominator are byte counts, far below 2^50.
-/
namespace Wirewolf.L4.Detectors

open Wirewolf.L1.IpPacket Wirewolf.L1.TlsHello
open Wirewolf.L1.Normalizer (toLower)
open Wirewolf.Search

/-- mirrors src/src/npu_filter.cpp:445,528 -/
def bswap16 (v : UInt16) : UInt16 := (v >>> 8) ||| (v <<< 8)

def isAlpha (c : UInt8) : Bool := 0x61 ≤ c && c ≤ 0x7A || 0x41 ≤ c && c ≤ 0x5A

def isPrintable (b : UInt8) : Bool := 32 ≤ b && b ≤ 126 || b = 0x0A || b = 0x0D || b = 0x09

/-- At least 85 of 100 bytes are printable: `!(printable / size < 0.85)`.
mirrors src/src/npu_filter.cpp:266-273,1069-1076 -/
def isText (p : Bytes) : Bool := 85 * p.length ≤ 100 * p.countP isPrintable

/-- mirrors src/src/npu_filter.cpp:152-181 -/
def heartbeatAt (p : Bytes) (i : Nat) : Bool :=
  let recordLen := be16At p (i + 3)
  let hbType := byteAt p (i + 5)
  byteAt p i = 0x18 && byteAt p (i + 1) = 0x03 && byteAt p (i + 2) ≤ 0x03 &&
    i + 5 + recordLen ≤ p.length && 3 ≤ recordLen && (hbType = 1 || hbType = 2) &&
    recordLen - 3 + 16 < be16At p (i + 6)

/-- mirrors src/src/npu_filter.cpp:146-183 -/
def detectHeartbleed (flow : FlowData) : Bool :=
  let p := flow.reassembledPayload
  if p.length < 8 then false else (List.range (p.length - 7)).any (heartbeatAt p)

def spnegoOid : Bytes := [0x06, 0x06, 0x2b, 0x06, 0x01, 0x05, 0x05, 0x02]

def ntlmssp : Bytes := [0x4E, 0x54, 0x4C, 0x4D, 0x53, 0x53, 0x50, 0x00]

/-- mirrors src/src/npu_filter.cpp:185-206 -/
def detectSpnego (flow : FlowData) : Bool :=
  containsSub flow.reassembledPayload spnegoOid || containsSub flow.reassembledPayload ntlmssp

/-! ## FTP and credentials -/

def suspiciousPatterns : List Bytes :=
  List.map lit [
    "PW_", "password", "Password", "cred", "Cred", "keylog", "Keylog", "wallet", "Wallet",
    "cookie", "Cookie", "Login", "login_", "Contacts", "contacts", "token", "Token", "secret",
    "Secret"]

/-- The name after the first `STOR`.
mirrors src/src/npu_filter.cpp:226-230 -/
def storName (text : Bytes) : Bytes :=
  match find text (lit "STOR ") 0 with
  | some pos => (substr text (pos + 5) 200).takeWhile fun c => c != 0x0D && c != 0x0A
  | none => []

/-- mirrors src/src/npu_filter.cpp:208-256 -/
def detectFtpActivity (flow : FlowData) : Bool :=
  let p := flow.reassembledPayload
  if p.length < 10 then false
  else
    let text := p.take 2048
    let hasStor := containsSub text (lit "STOR ")
    if containsSub text (lit "USER ") && containsSub text (lit "PASS ") && hasStor then true
    else if hasStor && suspiciousPatterns.any fun pat => containsSub (storName text) pat then true
    else hasStor && 2 ≤ (occurrences text (lit "STOR ")).length

def isEmailChar (c : UInt8) : Bool :=
  isAlpha c || isDigit c || c = 0x2E || c = 0x5F || c = 0x2D || c = 0x2B

/-- mirrors src/src/npu_filter.cpp:333-351 -/
def emailAt (text : Bytes) (i : Nat) : Bool :=
  let domain := (text.drop (i + 1)).takeWhile isEmailChar
  isEmailChar (text.getD (i - 1) 0) && i + 2 < text.length && 0x2E ∈ domain &&
    4 ≤ domain.length

/-- The loop over the positions of `@`.
mirrors src/src/npu_filter.cpp:326-353 -/
def emailCount (text : Bytes) : Nat → List Nat → Nat
  | count, [] => count
  | count, i :: rest =>
    if 6 ≤ count ∨ i = 0 then count
    else emailCount text (if emailAt text i then count + 1 else count) rest

/-- What the markers score, before the address list.
mirrors src/src/npu_filter.cpp:278-314 -/
def credentialScore (text : Bytes) : Nat :=
  let has (s : String) : Bool := containsSub text (lit s)
  (if has "User Name:" || has "Computer Name:" || has "OSFullName:" then 2 else 0) +
  (if has "Password:" || has "Password=" then 2 else 0) +
  (if has "Username:" || has "Username=" then 1 else 0) +
  (if has "Application:" then 1 else 0) +
  (if has "imap://" || has "smtp://" || has "pop3://" || has "ftp://" || has "oauth://" then 1
    else 0) +
  (if has "Host:" && has "Password:" then 2 else 0)

/-- mirrors src/src/npu_filter.cpp:258-359 -/
def detectCredentialContent (flow : FlowData) : Bool :=
  let p := flow.reassembledPayload
  if p.length < 20 then false
  else
    let text := p.take 2048
    if !isText text then false
    else
      let score := credentialScore text
      if 3 ≤ score then true
      else 5 ≤ emailCount text 0 (occurrences text [0x40])

/-! ## HTTP -/

def injectionMarkers : List Bytes :=
  List.map lit [
    "\x7b\x7b", "<script", "<img", "<svg", "onerror", "onload", "' OR", "\" OR", "; DROP",
    "UNION SELECT", "$(", "\x60", "||", "../", "..\\", "%00", "%0a", "%0d"]

def isRequest (p : Bytes) : Bool :=
  p.take 3 = lit "GET" || p.take 4 = lit "POST" || p.take 4 = lit "HEAD" || p.take 3 = lit "PUT"

/-- The request line, as far as the source looks for it. Its search for the
end of the header runs from one byte before the literal `\r\n\r\n` to one
byte before its end: `before` is the byte that stands there in memory.
mirrors src/src/npu_filter.cpp:373-382 -/
def firstLine (before : UInt8) (p : Bytes) : Bytes :=
  let requestEnd := (indexOf [before, 0x0D, 0x0A, 0x0D] p).getD p.length
  let request := p.take requestEnd
  match indexOf [0x0D] request with
  | some i => request.take i
  | none =>
    match indexOf [0x0A] request with
    | some i => request.take i
    | none => request

/-- mirrors src/src/npu_filter.cpp:361-395 -/
def detectBenignHttp (before : UInt8) (flow : FlowData) : Bool :=
  let p := flow.reassembledPayload
  if p.length < 16 then false
  else if !isRequest p then false
  else !injectionMarkers.any fun marker => containsSub (firstLine before p) marker

def authPaths : List Bytes :=
  List.map lit [
    "login", "log-in", "signin", "sign-in", "logon", "auth", "wp-login", "wp-admin", "/admin",
    "session", "oauth", "/token", "account", "/api/login", "j_security_check"]

/-- mirrors src/src/npu_filter.cpp:424-429 -/
def postPath (text : Bytes) (pos : Nat) : Bytes :=
  let pathStart := pos + 5
  let pathEnd := (find text [0x20] pathStart).getD (min (pathStart + 256) text.length)
  (substr text pathStart (pathEnd - pathStart)).map toLower

/-- mirrors src/src/npu_filter.cpp:397-437 -/
def detectHttpBruteforce (flow : FlowData) : Bool :=
  let p := flow.reassembledPayload
  if p.length < 50 then false
  else
    let text := p.take 8192
    5 ≤ (occurrences text (lit "POST ")).countP fun pos =>
      authPaths.any fun kw => containsSub (postPath text pos) kw

/-! ## SMB and RAT -/

def smbAt (p : Bytes) (i : Nat) : Bool :=
  byteAt p i = 0xFF && byteAt p (i + 1) = 0x53 && byteAt p (i + 2) = 0x4D && byteAt p (i + 3) = 0x42

/-- `IPC` at `j`, in ASCII or UTF-16LE.
mirrors src/src/npu_filter.cpp:469-483 -/
def ipcAt (p : Bytes) (j searchEnd : Nat) : Bool :=
  (byteAt p j = 0x49 && byteAt p (j + 1) = 0x50 && byteAt p (j + 2) = 0x43) ||
  (j + 5 < searchEnd && byteAt p j = 0x49 && byteAt p (j + 1) = 0x00 && byteAt p (j + 2) = 0x50 &&
    byteAt p (j + 3) = 0x00 && byteAt p (j + 4) = 0x43 && byteAt p (j + 5) = 0x00)

/-- mirrors src/src/npu_filter.cpp:464-485 -/
def treeConnectIpc (p : Bytes) (i : Nat) : Bool :=
  let searchEnd := min (i + 200) p.length
  byteAt p (i + 4) = 0x75 &&
    (List.range (searchEnd - (i + 7))).any fun k => ipcAt p (i + 4 + k) searchEnd

def transCommand (p : Bytes) (i : Nat) : Bool :=
  let cmd := byteAt p (i + 4)
  cmd = 0x25 || cmd = 0x32 || cmd = 0xA0

/-- mirrors src/src/npu_filter.cpp:439-520 -/
def detectSmbExploit (flow : FlowData) : Bool :=
  let p := flow.reassembledPayload
  if p.length < 100 then false
  else if bswap16 flow.id.srcPort ≠ 445 ∧ bswap16 flow.id.dstPort ≠ 445 then false
  else
    let headers := (List.range (p.length - 8)).filter (smbAt p)
    headers.any (treeConnectIpc p) && headers.any (transCommand p) && 10000 < p.length

def standardPorts : List UInt16 :=
  [80, 443, 8080, 8443, 22, 21, 25, 53, 110, 143, 445, 993, 995, 3306, 3389, 5432]

/-- A length prefix in digits, a null and a command in letters.
mirrors src/src/npu_filter.cpp:567-591 -/
def commandAt (p : Bytes) (scanLen i : Nat) : Bool :=
  byteAt p i = 0x00 && 0 < i && i < 10 && (p.take i).all isDigit &&
    ((p.take (min (i + 4) scanLen)).drop (i + 1)).all isAlpha

def reconMarkers : List Bytes :=
  List.map lit [
    "Administrator", "\\Desktop\\", "\\Users\\", "\\AppData\\", "TEMP", ".exe", "\\Windows\\",
    "cmd.exe", "powershell", "tasklist", "ipconfig", "systeminfo"]

def isBase64 (c : UInt8) : Bool := isAlpha c || isDigit c || c = 0x2B || c = 0x2F || c = 0x3D

/-- Runs of at least 20 base64 characters, `run` characters into one.
mirrors src/src/npu_filter.cpp:616-630 -/
def base64Runs : Nat → Bytes → Nat
  | run, [] => if 20 ≤ run then 1 else 0
  | run, c :: rest =>
    if isBase64 c then base64Runs (run + 1) rest
    else (if 20 ≤ run then 1 else 0) + base64Runs 0 rest

/-- mirrors src/src/npu_filter.cpp:546-633 -/
def ratScore (text : Bytes) : Nat :=
  (if 3 ≤ (occurrences text (lit "|'|'|")).length then 4 else 0) +
  (if 2 ≤ (List.range (text.length - 5)).countP (commandAt text text.length) then 2 else 0) +
  (if 2 ≤ reconMarkers.countP (containsSub text) then 2 else 0) +
  (if 3 ≤ base64Runs 0 text then 1 else 0)

/-- mirrors src/src/npu_filter.cpp:522-645 -/
def detectRatProtocol (flow : FlowData) : Bool :=
  let p := flow.reassembledPayload
  if p.length < 20 then false
  else if bswap16 flow.id.srcPort ∈ standardPorts ∨ bswap16 flow.id.dstPort ∈ standardPorts then
    false
  else 4 ≤ ratScore (p.take 4096)

/-! ## The normalized text -/

def obfuscationMarkers : List Bytes :=
  List.map lit [
    "' or 1=1", "\" or 1=1", "' or '1'='1", "union select", "; drop table", "waitfor delay",
    "benchmark(", "sleep(", "extractvalue(", "updatexml(", "information_schema",
    "<script", "javascript:", "onerror=", "onload=", "onmouseover=", "<svg", "<img src=",
    "document.cookie", "string.fromcharcode(",
    ";cat /etc", "|cat /etc", "/bin/sh", "/bin/bash -i", "; nc ", "| nc ", "$(", "\x60id\x60",
    "; wget http", "; curl http", "powershell -e", "/dev/tcp/",
    "../../", "..\\..\\", "/etc/passwd", "/etc/shadow", "php://filter", "php://input",
    "/proc/self/environ",
    "\x7b\x7b7*7\x7d\x7d", "$\x7bjndi:", "$\x7b(", "#\x7b", "t(java.lang.runtime)",
    "() \x7b", "ac ed 00 05", "__proto__",
    "<!entity", "system \"file:", "system \"http"]

/-- mirrors src/src/npu_filter.cpp:647-687 -/
def detectObfuscatedInjection (flow : FlowData) : Bool :=
  if flow.normalizedPayload.length < 6 then false
  else obfuscationMarkers.any fun m => containsSub flow.normalizedPayload m

/-! ## TLS -/

def badJa3 : List Bytes :=
  List.map lit [
    "a0e9f5d64349fb13191bc781f81f42e1", "72a589da586844d7f0818ce684948eea",
    "6734f37431670b3ab4292b8f60f29984"]

/-- `strchr` also finds the terminator of the list of consonants.
mirrors src/src/npu_filter.cpp:747 -/
def isConsonant (c : UInt8) : Bool := c ∈ lit "bcdfghjklmnpqrstvwxz" || c = 0

/-- mirrors src/src/npu_filter.cpp:730-755 -/
def sniSuspicious (s : Bytes) : Bool :=
  if s.isEmpty then false
  else if s.all fun c => isDigit c || c = 0x2E then true
  else
    let label := s.takeWhile (· != 0x2E)
    if 16 ≤ label.length then
      let digits := label.countP isDigit
      let consonants := label.countP fun c => !isDigit c && isConsonant c
      3 * label.length < 10 * digits || 3 * label.length < 4 * consonants
    else false

inductive TlsVerdict where
  | notTls
  | suspicious
  | benign
  deriving DecidableEq

/-- The verdict, and the flow with what the handshake tells about it.
mirrors src/src/npu_filter.cpp:689-763 -/
def inspectTls (f : ThreatFeed) (flow : FlowData) : TlsVerdict × FlowData :=
  match parseTlsClientHello flow.reassembledPayload with
  | none => (.notTls, flow)
  | some tls =>
    let flow := { flow with tlsSni := tls.sni, tlsJa3 := tls.ja3Hash }
    if tls.ja3Hash ∈ badJa3 ∨ f.isBadJa3 tls.ja3Hash then
      (.suspicious, { flow with protocolTag := lit "Malicious TLS Client" })
    else if f.isBadDomain tls.sni then
      (.suspicious, { flow with protocolTag := lit "C2 Beaconing" })
    else if sniSuspicious tls.sni then
      (.suspicious, { flow with protocolTag := lit "Suspicious TLS" })
    else (.benign, flow)

end Wirewolf.L4.Detectors
