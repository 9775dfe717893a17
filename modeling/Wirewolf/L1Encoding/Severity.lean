import Mathlib.Algebra.Group.Nat.Defs
import Wirewolf.L1Encoding.Normalizer

/-!
# Severities (`wirewolf_types.hpp`)

The severity of an alert: a level and a CVSS score, the curated table of
threat types, and what may override it. Scores are 32-bit floats; `fixed`
prints one as `%.1f` and `{:.6f}` do.
-/
namespace Wirewolf.L1

/-- mirrors src/include/wirewolf_types.hpp:22 -/
inductive Severity where
  | info
  | low
  | medium
  | high
  | critical
  deriving DecidableEq, Repr

namespace Severity

open Wirewolf.L1.Normalizer (toLower)

/-- The number of the enumerator. -/
def toNat : Severity → Nat
  | .info => 0
  | .low => 1
  | .medium => 2
  | .high => 3
  | .critical => 4

/-- mirrors src/include/wirewolf_types.hpp:24-51 -/
structure SeverityInfo where
  level : Severity
  cvss : Float32
  deriving DecidableEq

def SeverityInfo.label (sev : SeverityInfo) : Bytes :=
  match sev.level with
  | .critical => lit "Critical"
  | .high => lit "High"
  | .medium => lit "Medium"
  | .low => lit "Low"
  | .info => lit "Info"

def cvssRating (score : Float32) : Bytes :=
  if 9.0 ≤ score then lit "Critical"
  else if 7.0 ≤ score then lit "High"
  else if 4.0 ≤ score then lit "Medium"
  else if 0.1 ≤ score then lit "Low"
  else lit "None"

/-! ## Printing a score -/

/-- `m * 2 ^ e`, to the nearest whole number, ties to even. -/
def roundEven (m : Nat) (e : Int) : Nat :=
  let den := 2 ^ (-e).toNat
  let num := m * 2 ^ e.toNat
  let q := num / den
  let r := num % den
  if den < 2 * r ∨ (2 * r = den ∧ q % 2 = 1) then q + 1 else q

def signed (sign : Float.Model.UnpackedFloat.Sign) (s : Bytes) : Bytes :=
  match sign with
  | .negative => 0x2D :: s
  | .positive => s

/-- The number `n` of units of the last of `places` decimal places. -/
def point (places n : Nat) : Bytes :=
  let frac := digits (n % 10 ^ places)
  digits (n / 10 ^ places) ++ 0x2E :: (List.replicate (places - frac.length) 0x30 ++ frac)

/-- A score with `places` decimal places. -/
def fixed (places : Nat) (f : Float32) : Bytes :=
  match f.toModel.unpack with
  | .infinity sign => signed sign (lit "inf")
  | .notANumber => lit "nan"
  | .zero sign => signed sign (point places 0)
  | .finite sign m e _ => signed sign (point places (roundEven (m * 10 ^ places) e))

/-- The text of a severity, cut to the 64-byte buffer it is printed to.
mirrors src/include/wirewolf_types.hpp:45-50 -/
def SeverityInfo.format (sev : SeverityInfo) : Bytes :=
  (sev.label ++ lit " (CVSS 4.0: " ++ fixed 1 sev.cvss ++ lit "/" ++ cvssRating sev.cvss ++
    lit ")").take 63

example : SeverityInfo.format ⟨.high, 8.7⟩ = lit "High (CVSS 4.0: 8.7/High)" := by decide +kernel

/-! ## The curated table -/

/-- mirrors src/include/wirewolf_types.hpp:177-327 -/
def severityTable : List (Bytes × Severity × Float32) := [
  -- Web Application Attacks
  (lit "SQLi", .critical, 9.3),
  (lit "Command Injection", .critical, 9.3),
  (lit "SSTI", .critical, 9.3),
  (lit "Deserialization Attack", .critical, 9.3),
  (lit "File Inclusion", .critical, 9.3),
  (lit "LDAP Injection", .critical, 9.3),
  (lit "XPath Injection", .critical, 9.3),
  (lit "NoSQL Injection", .critical, 9.3),
  (lit "Malicious File Upload", .critical, 9.3),
  (lit "SSRF", .high, 8.7),
  (lit "XXE", .high, 8.7),
  (lit "Path Traversal", .high, 8.7),
  (lit "HTTP Request Smuggling", .high, 8.3),
  (lit "Prototype Pollution", .high, 8.3),
  (lit "CSRF", .medium, 6.3),
  (lit "XSS", .medium, 5.3),
  (lit "HTTP Response Splitting", .medium, 5.3),
  (lit "CRLF Injection", .medium, 5.3),
  (lit "Open Redirect", .medium, 4.0),
  -- Known CVE Exploits
  (lit "Log4Shell", .critical, 10.0),
  (lit "SMB Exploit", .critical, 9.4),
  (lit "Shellshock", .critical, 9.3),
  (lit "Spring4Shell", .critical, 9.3),
  (lit "Apache Struts RCE", .critical, 9.3),
  (lit "Heartbleed", .high, 8.7),
  -- Malware / C2 / Backdoor
  (lit "Worm Propagation Scan", .critical, 10.0),
  (lit "Ransomware C2", .critical, 10.0),
  (lit "Reverse Shell", .critical, 9.3),
  (lit "Webshell", .critical, 9.3),
  (lit "Malware Payload", .critical, 9.3),
  (lit "RAT C2", .critical, 9.3),
  (lit "C2 Beaconing", .critical, 9.3),
  (lit "Botnet Communication", .critical, 9.3),
  (lit "Spam Bot", .high, 8.1),
  (lit "Suspicious Transfer", .medium, 5.3),
  (lit "Botnet Host", .critical, 9.3),
  (lit "Dropper Download", .high, 8.6),
  (lit "Cryptominer Traffic", .high, 8.7),
  -- Data Exfiltration / Credential Theft
  (lit "Data Exfiltration", .critical, 9.3),
  (lit "Credential Theft", .critical, 9.3),
  (lit "DNS Exfiltration", .high, 8.7),
  (lit "Session Hijacking", .high, 8.3),
  -- Authentication Attacks
  (lit "Brute Force", .high, 7.7),
  (lit "SSH Brute Force", .high, 7.7),
  (lit "Credential Stuffing", .high, 7.7),
  (lit "Password Spraying", .high, 7.7),
  (lit "Kerberoasting", .high, 7.1),
  -- Denial of Service
  (lit "DNS Amplification", .critical, 9.2),
  (lit "DDoS", .high, 8.7),
  (lit "Slowloris", .high, 8.7),
  (lit "HTTP Flood", .high, 8.7),
  (lit "ReDoS", .high, 8.7),
  -- Reconnaissance / Enumeration
  (lit "Port Scan", .medium, 6.9),
  (lit "Directory Enumeration", .medium, 6.9),
  (lit "Version Fingerprinting", .medium, 6.9),
  (lit "Vulnerability Scanning", .medium, 6.9),
  (lit "User Enumeration", .medium, 6.9),
  -- Network / Protocol Attacks
  (lit "DNS Tunneling", .high, 8.7),
  (lit "DNS Poisoning", .high, 8.3),
  (lit "TLS Downgrade", .high, 7.7),
  (lit "SMTP Relay Abuse", .medium, 6.9),
  (lit "DNS Rebinding", .medium, 6.0),
  (lit "IP Spoofing", .medium, 5.3),
  (lit "TCP Evasion", .high, 7.5),
  -- Encrypted-traffic (TLS metadata)
  (lit "Malicious TLS Client", .high, 8.1),
  (lit "Suspicious TLS", .medium, 5.3)]

/-- mirrors src/include/wirewolf_types.hpp:177-330 -/
def severityForThreat (threatType : Bytes) : SeverityInfo :=
  match severityTable.lookup threatType with
  | some (level, cvss) => ⟨level, cvss⟩
  | none => ⟨.medium, 5.0⟩

/-- mirrors src/include/wirewolf_types.hpp:334-340 -/
def severityFromString (s : Bytes) : SeverityInfo :=
  if s = lit "Critical" ∨ s = lit "critical" then ⟨.critical, 9.5⟩
  else if s = lit "High" ∨ s = lit "high" then ⟨.high, 8.0⟩
  else if s = lit "Medium" ∨ s = lit "medium" then ⟨.medium, 5.5⟩
  else if s = lit "Low" ∨ s = lit "low" then ⟨.low, 2.0⟩
  else ⟨.medium, 5.5⟩

/-- The level a severity token asks for. -/
def wanted (s : Bytes) : Option Severity :=
  if s = lit "critical" then some .critical
  else if s = lit "high" then some .high
  else if s = lit "medium" then some .medium
  else if s = lit "low" then some .low
  else if s = lit "info" ∨ s = lit "informational" ∨ s = lit "none" then some .info
  else none

/-- mirrors src/include/wirewolf_types.hpp:350-371 -/
def resolveSeverity (threatType llmSeverity : Bytes) : SeverityInfo :=
  let base := severityForThreat threatType
  let s := llmSeverity.map toLower
  match wanted s with
  | none => base
  | some want =>
    if want.toNat < base.level.toNat then
      if want = .info then ⟨.info, 0.0⟩ else severityFromString s
    else base

/-- mirrors src/include/wirewolf_types.hpp:62-69 -/
def confidenceFor (sev : SeverityInfo) (deterministic : Bool) : Float32 :=
  let base : Float32 := if deterministic then 0.78 else 0.55
  let c := base + (sev.cvss / 10.0) * (if deterministic then 0.20 else 0.40)
  let c := if 0.99 < c then 0.99 else c
  if c < 0.05 then 0.05 else c

/-! ## What is printed -/

/-- A text in which nothing has to be escaped. -/
def Quiet (s : Bytes) : Prop := ∀ c ∈ s, 0x20 ≤ c ∧ c ≠ 0x22 ∧ c ≠ 0x5C

instance (s : Bytes) : Decidable (Quiet s) := List.decidableBAll _ _

theorem Quiet.append {s t : Bytes} (hs : Quiet s) (ht : Quiet t) : Quiet (s ++ t) := by
  intro c hc
  rcases List.mem_append.1 hc with h | h
  · exact hs c h
  · exact ht c h

theorem Quiet.cons {c : UInt8} {s : Bytes} (hc : 0x20 ≤ c ∧ c ≠ 0x22 ∧ c ≠ 0x5C) (hs : Quiet s) :
    Quiet (c :: s) := List.forall_mem_cons.2 ⟨hc, hs⟩

theorem digits_quiet (n : Nat) : Quiet (digits n) := by
  intro c hc
  obtain ⟨h₁, h₂⟩ := digits_range n c hc
  refine ⟨UInt8.le_trans (by decide) h₁, ?_, ?_⟩
  · intro he
    subst he
    exact absurd h₁ (by decide)
  · intro he
    subst he
    exact absurd h₂ (by decide)

theorem point_quiet (places n : Nat) : Quiet (point places n) := by
  have hzeros : ∀ k : Nat, Quiet (List.replicate k 0x30) := by
    intro k c hc
    rw [List.eq_of_mem_replicate hc]
    decide
  exact (digits_quiet _).append (Quiet.cons (by decide) ((hzeros _).append (digits_quiet _)))

theorem fixed_quiet (places : Nat) (f : Float32) : Quiet (fixed places f) := by
  have hsigned : ∀ (sign : Float.Model.UnpackedFloat.Sign) {s : Bytes}, Quiet s →
      Quiet (signed sign s) := by
    intro sign s hs
    cases sign with
    | negative => exact Quiet.cons (by decide) hs
    | positive => exact hs
  unfold fixed
  split
  · exact hsigned _ (by decide)
  · decide
  · exact hsigned _ (point_quiet _ _)
  · exact hsigned _ (point_quiet _ _)

/-- No severity has to be escaped. -/
theorem format_quiet (sev : SeverityInfo) : Quiet sev.format := by
  have hlabel : Quiet sev.label := by
    unfold SeverityInfo.label
    split <;> decide
  have hrating : Quiet (cvssRating sev.cvss) := by
    unfold cvssRating
    split
    · decide
    · split
      · decide
      · split
        · decide
        · split <;> decide
  have hall := ((((hlabel.append (show Quiet (lit " (CVSS 4.0: ") by decide)).append
    (fixed_quiet 1 sev.cvss)).append (show Quiet (lit "/") by decide)).append hrating).append
    (show Quiet (lit ")") by decide)
  exact fun c hc => hall c (List.mem_of_mem_take hc)

end Severity

end Wirewolf.L1
