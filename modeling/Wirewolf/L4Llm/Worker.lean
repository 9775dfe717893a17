import Wirewolf.L1Encoding.AlertJson
import Wirewolf.L4Llm.Prompt

/-!
# LLM worker (`LlmInference::worker_loop`)

What the worker makes of one flow. A flow that an earlier stage has tagged
becomes an alert of its own; any other is shown to the model, and the
model's verdict becomes an alert if its snippet stands in the payload and it
is no known false positive. The model is a parameter: the continuation of a
prompt.
-/
namespace Wirewolf.L4.LlmWorker

open Wirewolf.Search Wirewolf.L1.IpPacket Wirewolf.L1.Severity Wirewolf.L1.Verdict
open Wirewolf.L1.AlertJson Wirewolf.L4.Prompt
open Wirewolf.L1.Normalizer (toLower)
open Wirewolf.L4.Detectors (bswap16 isPrintable)

structure Env where
  payloadCharLimit : Nat := 2048
  /-- 0: no limit -/
  maxLlmFlows : Nat := 0
  sysPrompt : Bytes := []
  /-- what the model says to a prompt -/
  generate : Bytes → Bytes

/-- What is handed to the alert callback besides the flow. -/
structure Alert where
  threatType : Bytes
  sev : SeverityInfo
  snippet : Bytes
  payloadText : Bytes
  deriving DecidableEq

/-- The object the severity is put into. -/
def Alert.json (a : Alert) : Bytes := buildAlertJson a.threatType a.sev a.snippet

inductive Outcome where
  /-- nothing to classify, or no budget left -/
  | skipped
  | cleared
  /-- a verdict without fields, with a snippet from nowhere, or a known false positive -/
  | suppressed
  | alert (a : Alert)
  deriving DecidableEq

/-! ## Tagged flows -/

def isVisible (b : UInt8) : Bool := 32 ≤ b && b ≤ 126

/-- mirrors src/src/llm_inference.cpp:1307-1316 -/
def transferPreview (p : Bytes) : Bytes :=
  (p.take 512).filterMap fun b =>
    if isVisible b then some b else if b = 0x0D || b = 0x0A then some 0x20 else none

/-- mirrors src/src/llm_inference.cpp:1319-1329 -/
def findBetween (preview startMarker endMarker : Bytes) (maxLen : Nat) : Bytes :=
  match find preview startMarker 0 with
  | none => []
  | some pos =>
    let stop := (find preview endMarker (pos + startMarker.length)).getD
      (min (pos + maxLen) preview.length)
    substr preview pos (stop - pos)

/-- `" \n\r\t,;"` -/
def isSeparator (c : UInt8) : Bool :=
  c = 0x20 || c = 0x0A || c = 0x0D || c = 0x09 || c = 0x2C || c = 0x3B

/-- One past the last separator among the first `n` bytes, 0 if there is none. -/
def wordStart (preview : Bytes) (n : Nat) : Nat :=
  (preview.take n).length - ((preview.take n).reverse.takeWhile fun c => !isSeparator c).length

/-- The word around the `@` at position `at`. With the `@` in front, the search
for its start runs over the whole preview (`at - 1` is `npos`), and the word's
length wraps.
mirrors src/src/llm_inference.cpp:1353-1361 -/
def emailAt (preview : Bytes) (i : Nat) : Bytes :=
  let start := wordStart preview (if i = 0 then preview.length else i)
  let stop := ((preview.drop (i + 1)).findIdx? isSeparator).elim preview.length (i + 1 + ·)
  substr preview start ((2 ^ 64 + stop - start) % 2 ^ 64)

/-- The words around the next `@`s from `pos` on, at most `n` of them.
mirrors src/src/llm_inference.cpp:1343-1368 -/
def emails (preview : Bytes) : Nat → Nat → List Bytes
  | 0, _ => []
  | n + 1, pos =>
    if pos < preview.length then
      match find preview [0x40] pos with
      | none => []
      | some i => emailAt preview i :: emails preview n (i + 1)
    else []

/-- The snippet of a transfer, and whether it was taken for a contact list.
mirrors src/src/llm_inference.cpp:1331-1378 -/
def transferSnippet (p : Bytes) : Bytes × Bool :=
  let preview := transferPreview p
  let pw := findBetween preview (lit "Password:") (lit "<") 60
  let user := findBetween preview (lit "Username:") (lit "<") 60
  let stor := findBetween preview (lit "STOR ") (lit "\r") 80
  if !user.isEmpty && !pw.isEmpty then (user ++ lit " | " ++ pw, false)
  else if !stor.isEmpty then (stor, false)
  else if !user.isEmpty then (user, false)
  else
    match emails preview 3 0 with
    | first :: second :: _ =>
      if !first.isEmpty then
        (lit "Exfiltrated contact list: " ++ first ++ lit ", " ++ second ++ lit ", ...", true)
      else (preview.take 80, false)
    | _ => (preview.take 80, false)

/-- mirrors src/src/llm_inference.cpp:1379-1396 -/
def smbSnippet (flow : FlowData) : Bytes :=
  let target :=
    if bswap16 flow.id.dstPort = 445 then ipToString flow.id.dstIp
    else if bswap16 flow.id.srcPort = 445 then ipToString flow.id.srcIp
    else ipToString flow.id.dstIp
  lit "SMBv1 remote code execution via IPC$ against " ++ target ++
    lit ":445 (EternalBlue/MS17-010 pattern, " ++ digits flow.reassembledPayload.length ++
    lit " bytes delivered)"

/-- mirrors src/src/llm_inference.cpp:1397-1422 -/
def bruteForceSnippet (p : Bytes) : Bytes :=
  let preview := (p.take 4096).filter fun b => isVisible b || b = 0x0A || b = 0x0D
  let posts := (occurrences preview (lit "POST ")).length
  let gets := (occurrences preview (lit "GET ")).length
  digits (posts + gets) ++ lit " HTTP requests in single flow (" ++ digits posts ++ lit " POST, " ++
    digits gets ++ lit " GET)"

/-- mirrors src/src/llm_inference.cpp:1446-1447 -/
def ratCommands : List Bytes :=
  List.map lit ["ll|", "inf|", "act|", "CAP|", "rs|", "scP|", "pro|", "tcp|", "Ex|"]

/-- mirrors src/src/llm_inference.cpp:1423-1459 -/
def ratSnippet (flow : FlowData) : Bytes :=
  let preview := (flow.reassembledPayload.take 1024).filterMap fun b =>
    if isVisible b then some b else if b = 0 then some 0x20 else none
  let family := if containsSub preview (lit "|'|'|") then lit "njRAT/Bladabindi"
    else lit "Unknown RAT"
  let cmds := ratCommands.countP (containsSub preview)
  family ++ lit " C2 on " ++ ipToString flow.id.dstIp ++ lit ":" ++
    digits (bswap16 flow.id.dstPort).toNat ++
    (if 0 < cmds then lit " (" ++ digits cmds ++ lit " RAT command types detected)" else []) ++
    lit " payload=" ++ digits flow.reassembledPayload.length ++ lit "B"

/-- mirrors src/src/llm_inference.cpp:1460-1465 -/
def tlsSnippet (flow : FlowData) : Bytes :=
  lit "TLS SNI=" ++ (if flow.tlsSni.isEmpty then lit "(none)" else flow.tlsSni) ++
    lit " JA3=" ++ flow.tlsJa3

def isTransfer (tag : Bytes) : Bool :=
  tag = lit "Data Exfiltration" || tag = lit "Suspicious Transfer"

/-- Severity and snippet of a tagged flow.
mirrors src/src/llm_inference.cpp:1297-1467 -/
def tagged (flow : FlowData) : SeverityInfo × Bytes :=
  let tag := flow.protocolTag
  let sev := severityForThreat tag
  if tag = lit "Heartbleed" then
    (sev, lit "TLS Heartbeat with oversized payload length (CVE-2014-0160)")
  else if isTransfer tag then
    let found := transferSnippet flow.reassembledPayload
    (if found.2 then ⟨.high, 8.7⟩ else sev, found.1)
  else if tag = lit "SMB Exploit" then (sev, smbSnippet flow)
  else if tag = lit "Brute Force" then (sev, bruteForceSnippet flow.reassembledPayload)
  else if tag = lit "RAT C2" then (sev, ratSnippet flow)
  else if tag = lit "Malicious TLS Client" || tag = lit "Suspicious TLS" then (sev, tlsSnippet flow)
  else (sev, tag)

/-- mirrors src/src/llm_inference.cpp:1472-1489 -/
def taggedPayload (e : Env) (flow : FlowData) : Bytes :=
  let tag := flow.protocolTag
  if isTransfer tag || tag = lit "Brute Force" || tag = lit "RAT C2" then
    maskPayload e.payloadCharLimit flow
  else lit "[protocol-detected: " ++ tag ++ lit "]"

/-- mirrors src/src/llm_inference.cpp:1297-1494 -/
def taggedAlert (e : Env) (flow : FlowData) : Alert :=
  let t := tagged flow
  ⟨flow.protocolTag, t.1, t.2, taggedPayload e flow⟩

/-! ## Verdicts -/

/-- mirrors src/src/llm_inference.cpp:490-506 -/
def payloadContainsSnippet (payload snippet : Bytes) : Bool :=
  if snippet.isEmpty || payload.isEmpty then false
  else containsSub payload snippet || containsSub (payload.map toLower) (snippet.map toLower)

/-- mirrors src/src/llm_inference.cpp:376-395 -/
def benignHeaders : List Bytes :=
  List.map lit [
    "X-XSS-Protection", "X-Content-Type-Options", "X-Frame-Options", "Content-Security-Policy",
    "Strict-Transport-Security", "X-Permitted-Cross-Domain", "Referrer-Policy",
    "Permissions-Policy", "Feature-Policy", "X-Download-Options", "X-DNS-Prefetch-Control",
    "Cross-Origin-Opener-Policy", "Cross-Origin-Embedder-Policy", "Cross-Origin-Resource-Policy",
    "Set-Cookie", "WWW-Authenticate", "Authorization: Bearer", "Authorization: Basic"]

/-- The snippet stands in the headers of a response, and not in its body.
mirrors src/src/llm_inference.cpp:403-424 -/
def onlyInHeaders (payload snippet : Bytes) : Bool :=
  if 9 < payload.length && (lit "HTTP/").isPrefixOf payload then
    let headerEnd := (find payload (lit "\r\n\r\n") 0).getD payload.length
    let inBody := headerEnd + 4 < payload.length && containsSub
      (payload.drop (headerEnd + 4)) snippet
    containsSub (payload.take headerEnd) snippet && !inBody
  else false

/-- mirrors src/src/llm_inference.cpp:434-449 -/
def serverThreats : List Bytes :=
  List.map lit [
    "Heartbleed", "Data Exfiltration", "Credential Theft", "DNS Exfiltration", "Session Hijacking",
    "SMB Exploit", "RAT C2", "C2 Beaconing", "Reverse Shell", "Webshell", "Ransomware C2",
    "Botnet Communication", "Malware Payload", "Dropper Download", "Cryptominer Traffic"]

/-- mirrors src/src/llm_inference.cpp:458-484 -/
def hasAttackSyntax (snippet : Bytes) : Bool :=
  (snippet.any fun c => c ∈ lit "<>'\";|&$\x7b\x7d()\x60\\") || containsSub snippet (lit "../") ||
    containsSub snippet (lit "://") || containsSub snippet (lit "--")

/-- mirrors src/src/llm_inference.cpp:369-487 -/
def isFalsePositive (threatType snippet payload : Bytes) (flow : FlowData) : Bool :=
  if benignHeaders.any fun header => header.isPrefixOf snippet then true
  else if onlyInHeaders payload snippet then true
  else if isServerPort (bswap16 flow.id.srcPort) && !serverThreats.contains threatType then true
  else if threatType = lit "Data Exfiltration" || threatType = lit "Credential Theft" then false
  else !hasAttackSyntax snippet

/-! ## The loop -/

/-- The prompt for a flow.
mirrors src/src/llm_inference.cpp:1563-1565 -/
def prompt (e : Env) (flow : FlowData) : Bytes :=
  e.sysPrompt ++ userTurn e.payloadCharLimit flow ++
    lit "<|eot_id|><|start_header_id|>assistant<|end_header_id|>\n\n\x7b"

/-- At least 16 bytes are looked at, and fewer than 60 of 100 are printable.
mirrors src/src/llm_inference.cpp:1520-1529 -/
def isBinary (e : Env) (flow : FlowData) : Bool :=
  let window := flow.reassembledPayload.take e.payloadCharLimit
  16 ≤ window.length && 100 * window.countP isPrintable < 60 * window.length

/-- The verdict on an untagged flow.
mirrors src/src/llm_inference.cpp:1563-1703 -/
def classify (e : Env) (flow : FlowData) : Outcome :=
  let payload := payloadStr e.payloadCharLimit flow
  match verdict (e.generate (prompt e flow)) with
  | .benign => .cleared
  | .missing => .suppressed
  | .fields threatType severity snippet =>
    if !payloadContainsSnippet payload snippet then .suppressed
    else if isFalsePositive threatType snippet payload flow then .suppressed
    else .alert ⟨threatType, resolveSeverity threatType severity, snippet, payload⟩

/-- One round of the loop: the number of flows run through the model, and what
became of the flow.
mirrors src/src/llm_inference.cpp:1284-1710 -/
def handle (e : Env) (llmRuns : Nat) (flow : FlowData) : Nat × Outcome :=
  if flow.reassembledPayload.isEmpty then (llmRuns, .skipped)
  else if !flow.protocolTag.isEmpty then (llmRuns, .alert (taggedAlert e flow))
  else if isBinary e flow then (llmRuns, .skipped)
  else if 0 < e.maxLlmFlows && e.maxLlmFlows ≤ llmRuns then
    (if llmRuns = e.maxLlmFlows then llmRuns + 1 else llmRuns, .skipped)
  else (llmRuns + 1, classify e flow)

end Wirewolf.L4.LlmWorker
