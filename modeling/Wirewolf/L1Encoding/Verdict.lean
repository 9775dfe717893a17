import Wirewolf.Core.Bytes

/-!
# The model's verdict (`extract_json_field` and the checks of `worker_loop`)

The assistant turn is primed with an opening brace, so the text to read is
that brace and the continuation. `worker_loop` looks for an empty object,
cuts the text at the first closing brace, and reads three fields with
`extractJsonField`.

* `extractJsonField_at`: on a text whose key is in place, the field is what
  the escape-aware walk reads; `walk_escape` says that it undoes `escape`.
* `verdict_render_iff`: the verdict read back from a rendered object is the
  rendered one exactly when the snippet has no closing brace.
-/
namespace Wirewolf.L1.Verdict

/-- The threat types of the system prompt, in its order.
mirrors src/src/llm_inference.cpp:523-764 -/
def threatTypes : List Bytes :=
  List.map lit [
    "SQLi", "XSS", "SSTI", "SSRF", "Command Injection", "Path Traversal", "XXE",
    "File Inclusion", "LDAP Injection", "XPath Injection", "NoSQL Injection",
    "Deserialization Attack", "Malicious File Upload", "CSRF", "Open Redirect",
    "HTTP Response Splitting", "CRLF Injection", "HTTP Request Smuggling", "Prototype Pollution",
    "Log4Shell", "Shellshock", "Spring4Shell", "Apache Struts RCE", "Heartbleed", "SMB Exploit",
    "RAT C2", "C2 Beaconing", "Reverse Shell", "Webshell", "Ransomware C2",
    "Cryptominer Traffic", "Botnet Communication", "Worm Propagation Scan", "Dropper Download",
    "Malware Payload", "Data Exfiltration", "Credential Theft", "DNS Exfiltration",
    "Session Hijacking", "Brute Force", "SSH Brute Force", "Credential Stuffing",
    "Password Spraying", "Kerberoasting", "DDoS", "Slowloris", "HTTP Flood", "DNS Amplification",
    "ReDoS", "Port Scan", "Directory Enumeration", "Version Fingerprinting",
    "Vulnerability Scanning", "User Enumeration", "DNS Tunneling", "DNS Rebinding",
    "DNS Poisoning", "TLS Downgrade", "SMTP Relay Abuse"
  ]

def severities : List Bytes := List.map lit ["Critical", "High", "Medium", "Low"]

/-- mirrors src/src/llm_inference.cpp:1595-1652 -/
def aliases : List (Bytes × Bytes) :=
  List.map (fun a => (lit a.1, lit a.2)) [
    ("SQL Injection", "SQLi"), ("SQL injection", "SQLi"), ("sql injection", "SQLi"),
    ("Cross-Site Scripting", "XSS"), ("cross-site scripting", "XSS"),
    ("Server-Side Template Injection", "SSTI"), ("Server-Side Request Forgery", "SSRF"),
    ("Remote Code Execution", "Command Injection"), ("RCE", "Command Injection"),
    ("OS Command Injection", "Command Injection"), ("command injection", "Command Injection"),
    ("Directory Traversal", "Path Traversal"), ("Local File Inclusion", "File Inclusion"),
    ("Remote File Inclusion", "File Inclusion"), ("LFI", "File Inclusion"),
    ("RFI", "File Inclusion"), ("XML External Entity", "XXE"),
    ("Insecure Deserialization", "Deserialization Attack"),
    ("HTTP Smuggling", "HTTP Request Smuggling"),
    ("Request Smuggling", "HTTP Request Smuggling"), ("Header Injection", "CRLF Injection"),
    ("Log4j", "Log4Shell"), ("CVE-2021-44228", "Log4Shell"), ("CVE-2014-6271", "Shellshock"),
    ("CVE-2014-0160", "Heartbleed"), ("CVE-2022-22965", "Spring4Shell"),
    ("EternalBlue", "SMB Exploit"), ("MS17-010", "SMB Exploit"),
    ("Reverse TCP", "Reverse Shell"), ("Bind Shell", "Reverse Shell"), ("Web Shell", "Webshell"),
    ("RAT", "RAT C2"), ("Trojan", "RAT C2"), ("Backdoor", "RAT C2"),
    ("Ransomware", "Ransomware C2"), ("Crypto Miner", "Cryptominer Traffic"),
    ("Cryptojacking", "Cryptominer Traffic"), ("Botnet", "Botnet Communication"),
    ("Bot C2", "Botnet Communication"), ("Exfiltration", "Data Exfiltration"),
    ("Data Theft", "Data Exfiltration"), ("Data Leak", "Data Exfiltration"),
    ("Credential Stuffing Attack", "Credential Stuffing"),
    ("Password Brute Force", "Brute Force"), ("Login Brute Force", "Brute Force"),
    ("SYN Flood", "DDoS"), ("DoS", "DDoS"), ("Denial of Service", "DDoS"),
    ("Port Scanning", "Port Scan"), ("Network Scan", "Port Scan"),
    ("Reconnaissance", "Port Scan"), ("DNS Tunnel", "DNS Tunneling"),
    ("DNS Exfil", "DNS Exfiltration"), ("MITM", "TLS Downgrade"),
    ("Man-in-the-Middle", "TLS Downgrade"), ("SSL Stripping", "TLS Downgrade")
  ]

/-- mirrors src/src/llm_inference.cpp:1653-1660 -/
def canonicalType (threatType : Bytes) : Bytes :=
  match aliases.find? fun a => threatType = a.1 with
  | some a => a.2
  | none => threatType

/-- The character an escape stands for.
mirrors src/src/llm_inference.cpp:345-352 -/
def unescape (c : UInt8) : UInt8 :=
  if c = 0x6E then 0x0A else if c = 0x72 then 0x0D else if c = 0x74 then 0x09 else c

/-- The walk from the opening quote; `none` when the quote is never closed.
mirrors src/src/llm_inference.cpp:341-361 -/
def walk : Bytes → Option Bytes
  | [] => none
  | c :: rest =>
    if c = 0x5C then
      match rest with
      | [] => none
      | next :: rest => (walk rest).map (unescape next :: ·)
    else if c = 0x22 then some []
    else (walk rest).map (c :: ·)

/-- mirrors src/src/llm_inference.cpp:328-363 -/
def extractJsonField (json key : Bytes) : Bytes :=
  match Search.find json (0x22 :: key ++ [0x22]) 0 with
  | none => []
  | some keyPos =>
    match Search.find json [0x3A] (keyPos + key.length + 2) with
    | none => []
    | some colon =>
      match Search.find json [0x22] (colon + 1) with
      | none => []
      | some start => (walk (json.drop (start + 1))).getD []

/-- The text cut at its first closing brace; `none` when the object is empty.
mirrors src/src/llm_inference.cpp:1569-1589 -/
def trimResult (result : Bytes) : Option Bytes :=
  match Search.find result [0x7D] 0 with
  | none => some result
  | some firstClose =>
    if ((result.take firstClose).drop 1).all isWhite then none
    else some (Search.substr result 0 (firstClose + 1))

inductive Judgment where
  | benign
  | missing
  | fields (threatType severity snippet : Bytes)
  deriving DecidableEq

/-- The verdict on the model's continuation of the primed brace.
mirrors src/src/llm_inference.cpp:1567-1666 -/
def verdict (analysis : Bytes) : Judgment :=
  match trimResult (0x7B :: analysis) with
  | none => .benign
  | some result =>
    let threatType := canonicalType (extractJsonField result (lit "threat_type"))
    let severity := extractJsonField result (lit "severity")
    let snippet := extractJsonField result (lit "snippet")
    if threatType.isEmpty || severity.isEmpty || snippet.isEmpty then .missing
    else .fields threatType severity snippet

/-! ## Escaping and the walk -/

/-- One character of a rendered string: quotes and backslashes are escaped,
newline, carriage return and tab become `n`, `r` and `t`. -/
def escapeChar (c : UInt8) : Bytes :=
  if c = 0x22 then [0x5C, 0x22]
  else if c = 0x5C then [0x5C, 0x5C]
  else if c = 0x0A then [0x5C, 0x6E]
  else if c = 0x0D then [0x5C, 0x72]
  else if c = 0x09 then [0x5C, 0x74]
  else [c]

def escape (s : Bytes) : Bytes := s.flatMap escapeChar

@[simp] theorem escape_nil : escape [] = [] := rfl

theorem escape_append (s t : Bytes) : escape (s ++ t) = escape s ++ escape t :=
  List.flatMap_append ..

theorem walk_quote (r : Bytes) : walk (0x22 :: r) = some [] := by
  rw [walk.eq_def]; rfl

theorem walk_plain {c : UInt8} (h₁ : c ≠ 0x22) (h₂ : c ≠ 0x5C) (r : Bytes) :
    walk (c :: r) = (walk r).map (c :: ·) := by
  rw [walk.eq_def]
  simp only [h₁, h₂, if_false]

theorem walk_backslash (c : UInt8) (r : Bytes) :
    walk (0x5C :: c :: r) = (walk r).map (unescape c :: ·) := by
  rw [walk.eq_def]; rfl

theorem walk_escapeChar (c : UInt8) (r : Bytes) :
    walk (escapeChar c ++ r) = (walk r).map (c :: ·) := by
  by_cases h : c ∈ [0x22, 0x5C, 0x0A, 0x0D, 0x09]
  · simp only [List.mem_cons, List.not_mem_nil, or_false] at h
    rcases h with rfl | rfl | rfl | rfl | rfl <;> exact walk_backslash _ r
  · simp only [List.mem_cons, List.not_mem_nil, or_false, not_or] at h
    obtain ⟨h₁, h₂, h₃, h₄, h₅⟩ := h
    simp only [escapeChar, h₁, h₂, h₃, h₄, h₅, if_false]
    exact walk_plain h₁ h₂ r

/-- The walk undoes the escaping, whatever follows. -/
theorem walk_escape (s r : Bytes) : walk (escape s ++ r) = (walk r).map (s ++ ·) := by
  induction s with
  | nil => cases h : walk r <;> simp [h]
  | cons c s ih =>
    have hsplit : escape (c :: s) ++ r = escapeChar c ++ (escape s ++ r) := by simp [escape]
    rw [hsplit, walk_escapeChar, ih, Option.map_map]
    rfl

/-- No brace appears by escaping. -/
theorem mem_escape_brace {s : Bytes} : (0x7D : UInt8) ∈ escape s ↔ 0x7D ∈ s := by
  have key : ∀ c : UInt8, (0x7D : UInt8) ∈ escapeChar c ↔ c = 0x7D := by
    intro c
    unfold escapeChar
    repeat' split
    all_goals first
      | (subst_vars; decide)
      | simp [eq_comm]
  unfold escape
  rw [List.mem_flatMap]
  simp [key]

/-! ## One field -/

/-- The field whose key stands first at the end of `pre`: the value is the one
behind the next colon. -/
theorem extractJsonField_via {pre key mid v : Bytes} (hmid : 0x3A ∉ mid)
    (h : Search.indexOf (0x22 :: key ++ [0x22])
      (pre ++ (0x22 :: key ++ 0x22 :: (mid ++ 0x3A :: 0x20 :: 0x22 :: v))) = some pre.length) :
    extractJsonField (pre ++ (0x22 :: key ++ 0x22 :: (mid ++ 0x3A :: 0x20 :: 0x22 :: v))) key =
      (walk v).getD [] := by
  generalize hjson : pre ++ (0x22 :: key ++ 0x22 :: (mid ++ 0x3A :: 0x20 :: 0x22 :: v)) =
    json at h ⊢
  have h₁ : json = (pre ++ 0x22 :: key ++ [0x22]) ++ (mid ++ 0x3A :: 0x20 :: 0x22 :: v) := by
    simp [← hjson]
  have h₂ : json = (pre ++ 0x22 :: key ++ 0x22 :: mid ++ [0x3A]) ++ 0x20 :: 0x22 :: v := by
    simp [← hjson]
  have h₃ : json = (pre ++ 0x22 :: key ++ 0x22 :: mid ++ [0x3A, 0x20, 0x22]) ++ v := by
    simp [← hjson]
  have hcolon : Search.find json [0x3A] (pre.length + key.length + 2) =
      some (pre.length + key.length + 2 + mid.length) := by
    have hl : pre.length + key.length + 2 = (pre ++ 0x22 :: key ++ [0x22]).length := by
      simp; omega
    rw [h₁, hl, Search.find_append, Search.indexOf_char hmid]; rfl
  have hquote : Search.find json [0x22] (pre.length + key.length + 2 + mid.length + 1) =
      some (pre.length + key.length + mid.length + 4) := by
    have hl : pre.length + key.length + 2 + mid.length + 1 =
        (pre ++ 0x22 :: key ++ 0x22 :: mid ++ [0x3A]).length := by
      simp; omega
    have hq : Search.indexOf [0x22] ((0x20 : UInt8) :: 0x22 :: v) = some 1 :=
      Search.indexOf_char (c := [0x20]) (by decide) v
    rw [h₂, hl, Search.find_append, hq, ← hl, Option.map_some]
    congr 1; omega
  unfold extractJsonField
  simp only [Search.find_zero, h, hcolon, hquote]
  have hl : pre.length + key.length + mid.length + 4 + 1 =
      (pre ++ 0x22 :: key ++ 0x22 :: mid ++ [0x3A, 0x20, 0x22]).length := by simp; omega
  rw [h₃, hl, List.drop_left]

theorem extractJsonField_at {pre key v : Bytes}
    (h : Search.indexOf (0x22 :: key ++ [0x22])
      (pre ++ (0x22 :: key ++ 0x22 :: 0x3A :: 0x20 :: 0x22 :: v)) =
      some pre.length) :
    extractJsonField (pre ++ (0x22 :: key ++ 0x22 :: 0x3A :: 0x20 :: 0x22 :: v)) key =
      (walk v).getD [] :=
  extractJsonField_via (List.not_mem_nil (a := 0x3A)) h

/-! ## Reading a rendered verdict -/

/-- The text up to the snippet, and what follows it. -/
def upToSnippet (threatType severity rest : Bytes) : Bytes :=
  0x7B :: (lit "\"threat_type\": \"" ++ threatType ++ lit "\", \"severity\": \"" ++ severity ++
    lit "\", \"snippet\": \"" ++ rest)

/-- The model's continuation of the primed brace. -/
def render (threatType severity snippet : Bytes) : Bytes :=
  lit "\"threat_type\": \"" ++ threatType ++ lit "\", \"severity\": \"" ++ severity ++
    lit "\", \"snippet\": \"" ++ escape snippet ++ lit "\"\x7d"

/-- A value that is read back without regard to the others: nothing in it is
escaped or ends the object, and it is neither empty nor one of the keys. -/
structure Plain (w : Bytes) : Prop where
  noQuote : 0x22 ∉ w
  noBrace : 0x7D ∉ w
  escape_eq : escape w = w
  ne_nil : w ≠ []
  ne_severity : w ≠ lit "severity"
  ne_snippet : w ≠ lit "snippet"

theorem plain_iff (w : Bytes) : (0x22 ∉ w ∧ 0x7D ∉ w ∧ escape w = w ∧ w ≠ [] ∧
    w ≠ lit "severity" ∧ w ≠ lit "snippet") ↔ Plain w :=
  ⟨fun ⟨h₁, h₂, h₃, h₄, h₅, h₆⟩ => ⟨h₁, h₂, h₃, h₄, h₅, h₆⟩,
    fun ⟨h₁, h₂, h₃, h₄, h₅, h₆⟩ => ⟨h₁, h₂, h₃, h₄, h₅, h₆⟩⟩

instance (w : Bytes) : Decidable (Plain w) := decidable_of_iff _ (plain_iff w)

theorem plain_threatTypes : ∀ w ∈ threatTypes, Plain w := by decide

theorem plain_severities : ∀ w ∈ severities, Plain w := by decide

/-- No listed type is an alias of another. -/
theorem canonicalType_listed : ∀ w ∈ threatTypes, canonicalType w = w := by decide

section Fields

variable {T S : Bytes}

/-- The words between the quotes, in order. -/
def words (T S : Bytes) : List Bytes :=
  [lit "threat_type", lit ": ", T, lit ", ", lit "severity", lit ": ", S, lit ", "]

theorem upToSnippet_eq (T S r : Bytes) :
    upToSnippet T S r = [0x7B] ++ (words T S).flatMap (0x22 :: ·) ++
      (0x22 :: lit "snippet" ++ 0x22 :: 0x3A :: 0x20 :: 0x22 :: r) := by
  have h₁ : lit "\"threat_type\": \"" = 0x22 :: lit "threat_type" ++ 0x22 :: lit ": " ++
      [0x22] := by
    decide
  have h₂ : lit "\", \"severity\": \"" =
      0x22 :: lit ", " ++ 0x22 :: lit "severity" ++ 0x22 :: lit ": " ++ [0x22] := by decide
  have h₃ : lit "\", \"snippet\": \"" =
      0x22 :: lit ", " ++ 0x22 :: lit "snippet" ++ [0x22, 0x3A, 0x20, 0x22] := by decide
  simp [upToSnippet, words, h₁, h₂, h₃]

/-- A plain value after its key. -/
theorem read_word (key : Bytes) {value : Bytes} (ws : List Bytes) (hk : 0x22 ∉ key)
    (hws : ∀ w ∈ ws, 0x22 ∉ w ∧ w ≠ key) (hv : escape value = value) (r : Bytes) :
    extractJsonField ([0x7B] ++ ws.flatMap (0x22 :: ·) ++
      (0x22 :: key ++ 0x22 :: 0x3A :: 0x20 :: 0x22 :: (value ++ 0x22 :: r))) key = value := by
  rw [extractJsonField_at (Search.indexOf_word hk _ ws [0x7B] (by decide) hws), ← hv, walk_escape,
    walk_quote, hv]
  simp

theorem read_threat_type (hT : Plain T) (r : Bytes) :
    extractJsonField (upToSnippet T S r) (lit "threat_type") = T := by
  have h := read_word (lit "threat_type") [] (by decide) (by simp) hT.escape_eq
    (lit ", " ++ ([lit "severity", lit ": ", S, lit ", "].flatMap (0x22 :: ·) ++
      (0x22 :: lit "snippet" ++ 0x22 :: 0x3A :: 0x20 :: 0x22 :: r)))
  rw [upToSnippet_eq]
  simpa [words, show lit ": " = [0x3A, 0x20] by decide] using h

theorem read_severity (hT : Plain T) (hS : Plain S) (r : Bytes) :
    extractJsonField (upToSnippet T S r) (lit "severity") = S := by
  have h := read_word (lit "severity") [lit "threat_type", lit ": ", T, lit ", "]
    (by decide) (by
      simp only [List.mem_cons, List.not_mem_nil, or_false, forall_eq_or_imp, forall_eq]
      exact ⟨by decide, by decide, ⟨hT.noQuote, hT.ne_severity⟩, by decide⟩) hS.escape_eq
    (lit ", " ++ (0x22 :: lit "snippet" ++ 0x22 :: 0x3A :: 0x20 :: 0x22 :: r))
  rw [upToSnippet_eq]
  simpa [words, show lit ": " = [0x3A, 0x20] by decide] using h

theorem read_snippet (hT : Plain T) (hS : Plain S) (r : Bytes) :
    extractJsonField (upToSnippet T S r) (lit "snippet") = (walk r).getD [] := by
  rw [upToSnippet_eq]
  refine extractJsonField_at (Search.indexOf_word (by decide) _ (words T S) [0x7B] (by decide) ?_)
  simp only [words, List.mem_cons, List.not_mem_nil, or_false, forall_eq_or_imp, forall_eq]
  exact ⟨by decide, by decide, ⟨hT.noQuote, hT.ne_snippet⟩, by decide, by decide, by decide,
    ⟨hS.noQuote, hS.ne_snippet⟩, by decide⟩

/-- The text is cut at the first brace after the snippet's key. -/
theorem trim_upToSnippet (hT : Plain T) (hS : Plain S) {u : Bytes} (hu : 0x7D ∉ u) (t : Bytes) :
    trimResult (upToSnippet T S (u ++ 0x7D :: t)) = some (upToSnippet T S (u ++ [0x7D])) := by
  have hsplit : ∀ r, upToSnippet T S (u ++ r) = upToSnippet T S u ++ r := by
    intro r; simp [upToSnippet]
  have hno : (0x7D : UInt8) ∉ upToSnippet T S u := by
    simp only [upToSnippet, List.mem_cons, List.mem_append, not_or]
    exact ⟨by decide, ⟨⟨⟨⟨by decide, hT.noBrace⟩, by decide⟩, hS.noBrace⟩, by decide⟩, hu⟩
  have hfind : Search.find (upToSnippet T S (u ++ 0x7D :: t)) [0x7D] 0 =
      some (upToSnippet T S u).length := by
    rw [Search.find_zero, hsplit, Search.indexOf_char hno]
  have hfirst : ((upToSnippet T S u).drop 1).all isWhite = false := by
    have h : lit "\"threat_type\": \"" = 0x22 :: lit "threat_type\": \"" := by decide
    simp [upToSnippet, h, isWhite]
  unfold trimResult
  rw [hfind]
  simp only [hsplit, List.take_left, hfirst]
  simp only [Bool.false_eq_true, if_false, Search.substr, List.drop_zero, List.take_append,
    Option.some.injEq, Nat.add_sub_cancel_left, List.take_succ_cons, List.take_zero]
  rw [List.take_of_length_le (Nat.le_succ _)]

end Fields

/-- Reading back a rendered verdict: a brace in the snippet cuts the object
short and the snippet is missed; otherwise the three fields come back. -/
theorem verdict_render {T S N : Bytes} (hT : T ∈ threatTypes) (hS : S ∈ severities) (hN : N ≠ [])
    (trailing : Bytes) : verdict (render T S N ++ trailing) =
      if 0x7D ∈ N then .missing else .fields T S N := by
  have pT := plain_threatTypes T hT
  have pS := plain_severities S hS
  have hquote : lit "\"\x7d" = [0x22, 0x7D] := by decide
  have htext : 0x7B :: (render T S N ++ trailing) =
      upToSnippet T S (escape N ++ 0x22 :: 0x7D :: trailing) := by
    simp [render, upToSnippet, hquote]
  unfold verdict
  rw [htext]
  by_cases hb : 0x7D ∈ N
  · -- the object ends inside the snippet
    rw [if_pos hb]
    obtain ⟨N₁, N₂, rfl, hN₁⟩ := List.eq_append_cons_of_mem hb
    have hcut : escape (N₁ ++ 0x7D :: N₂) ++ 0x22 :: 0x7D :: trailing =
        escape N₁ ++ 0x7D :: (escape N₂ ++ 0x22 :: 0x7D :: trailing) := by
      rw [escape_append, show escape (0x7D :: N₂) = 0x7D :: escape N₂ by simp [escape, escapeChar]]
      simp
    rw [hcut, trim_upToSnippet pT pS (fun h => hN₁ (mem_escape_brace.1 h))]
    have hwalk : walk (escape N₁ ++ [0x7D]) = none := by
      rw [walk_escape, walk_plain (by decide) (by decide), show walk [] = none from rfl]; rfl
    simp only [read_threat_type pT, read_severity pT pS, read_snippet pT pS, hwalk]
    simp
  · rw [if_neg hb]
    have hu : 0x7D ∉ escape N ++ [0x22] := by
      simp [mem_escape_brace, hb]
    have hcut : escape N ++ 0x22 :: 0x7D :: trailing =
        (escape N ++ [0x22]) ++ 0x7D :: trailing := by
      simp
    rw [hcut, trim_upToSnippet pT pS hu]
    have hwalk : walk (escape N ++ [0x22] ++ [0x7D]) = some N := by
      rw [List.append_assoc, walk_escape, List.singleton_append, walk_quote]; simp
    simp only [read_threat_type pT, read_severity pT pS, read_snippet pT pS, hwalk,
      canonicalType_listed T hT]
    simp [pT.ne_nil, pS.ne_nil, hN]

/-- For every listed type, severity, non-empty snippet and trailing text, the
rendered fields come back exactly when the snippet has no closing brace. -/
theorem verdict_render_iff (T S N trailing : Bytes) (hT : T ∈ threatTypes) (hS : S ∈ severities)
    (hN : N ≠ []) : verdict (render T S N ++ trailing) = .fields T S N ↔ 0x7D ∉ N := by
  rw [verdict_render hT hS hN]
  split
  · rename_i h; simp [h]
  · rename_i h; simp [h]

theorem verdict_render_sqli :
    verdict (render (lit "SQLi") (lit "High") (lit "' OR \"1\"=\"1\\") ++ lit "<|eot_id|>") =
      .fields (lit "SQLi") (lit "High") (lit "' OR \"1\"=\"1\\") :=
  (verdict_render_iff (lit "SQLi") (lit "High") _ _ (by decide) (by decide) (by decide)).2
    (by decide)

/-- The prompt's own second example, rejected for missing fields. -/
theorem verdict_ssti :
    lit "SSTI" ∈ threatTypes ∧ lit "High" ∈ severities ∧
      verdict (render (lit "SSTI") (lit "High") (lit "\x7b\x7b1337*1337\x7d\x7d")) = .missing := by
  have hT : lit "SSTI" ∈ threatTypes := by decide
  have hS : lit "High" ∈ severities := by decide
  have hbrace : 0x7D ∈ lit "\x7b\x7b1337*1337\x7d\x7d" := by decide
  have h := verdict_render hT hS (List.ne_nil_of_mem hbrace) []
  rw [List.append_nil, if_pos hbrace] at h
  exact ⟨hT, hS, h⟩

end Wirewolf.L1.Verdict
