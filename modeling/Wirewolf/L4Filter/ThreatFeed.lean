import Wirewolf.L1Encoding.Normalizer

/-!
# Threat feed (`threat_feed.hpp`)

The loaded rule sets and the lookups of the filter. Blocklists are kept as
lists; a lookup is membership.
-/
namespace Wirewolf.L4

open Wirewolf.L1.Normalizer (toLower)

/-- mirrors src/include/threat_feed.hpp:24-28 -/
structure ContentSignature where
  name : Bytes
  severity : Bytes
  pattern : Bytes
  deriving DecidableEq

/-- mirrors src/include/threat_feed.hpp:153-157 -/
structure ThreatFeed where
  badJa3 : List Bytes := []
  badDomains : List Bytes := []
  badIps : List Bytes := []
  signatures : List ContentSignature := []

namespace ThreatFeed

variable (f : ThreatFeed)

/-- mirrors src/include/threat_feed.hpp:58-61 -/
def empty : Bool :=
  f.badJa3.isEmpty && f.badDomains.isEmpty && f.badIps.isEmpty && f.signatures.isEmpty

/-- mirrors src/include/threat_feed.hpp:68-70 -/
def isBadJa3 (ja3Hash : Bytes) : Bool := ja3Hash.map toLower ∈ f.badJa3

/-- mirrors src/include/threat_feed.hpp:74-88 -/
def isBadDomain (host : Bytes) : Bool :=
  if host.isEmpty || f.badDomains.isEmpty then false
  else
    let h := host.map toLower
    h ∈ f.badDomains ||
      (Search.occurrences h [0x2E]).any fun pos => h.drop (pos + 1) ∈ f.badDomains

/-- mirrors src/include/threat_feed.hpp:91-93 -/
def isBadIp (ip : Bytes) : Bool := ip ∈ f.badIps

/-- mirrors src/include/threat_feed.hpp:97-103 -/
def matchSignature (text : Bytes) : Option ContentSignature :=
  f.signatures.find? fun sig => !sig.pattern.isEmpty && Search.containsSub text sig.pattern

end ThreatFeed

end Wirewolf.L4
