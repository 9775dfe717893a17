import Wirewolf.Core.Cursor
import Wirewolf.L4Filter.Signatures

/-!
# The domain blocklist (`ThreatFeed::load_set`, `ThreatFeed::is_bad_domain`)

Loading of the indicator files, and the lookup of a host. The lookup moves a
cursor from dot to dot and asks for the rest of the host behind each; the
suffixes it asks for are those that follow a dot.

* `suffixScan_iff`: what the scan finds, from any position of the cursor.
* `isBadDomain_eq_scan`: the lookup of the model is that scan.
* `isBadDomain_iff`: the lookup is equality with an entry or being below one.
* `isBadDomain_loaded`: the same for what `load` has read from any files.
-/
namespace Wirewolf.L4.Domains

open Wirewolf.L1.Normalizer Wirewolf.L4.Signatures
open Wirewolf.Search

/-! ## Loading -/

/-- One line of an indicator file; `none` when it loads nothing.
mirrors src/include/threat_feed.hpp:127-130 -/
def loadEntry (lower : Bool) (line : Bytes) : Option Bytes :=
  let v := trim line
  if v.isEmpty || v[0]? == some 0x23 then none else some (if lower then v.map toLower else v)

/-- A file that cannot be opened loads nothing.
mirrors src/include/threat_feed.hpp:121-132 -/
def loadSet (lower : Bool) (file : Option Bytes) : List Bytes :=
  match file with
  | none => []
  | some content => ((lines content).filterMap (loadEntry lower)).eraseDups

/-- The feed of a rule directory, and how many indicators it has; `files` is
what can be read under a path.
mirrors src/include/threat_feed.hpp:35-56 -/
def load (files : Bytes → Option Bytes) (dir : Bytes) : ThreatFeed × Nat :=
  if dir.isEmpty then ({}, 0)
  else
    let base := if dir.getLast? = some 0x2F ∨ dir.getLast? = some 0x5C then dir else dir ++ [0x2F]
    let feed : ThreatFeed := {
      badJa3 := loadSet true (files (base ++ lit "bad_ja3.txt"))
      badDomains := loadSet true (files (base ++ lit "bad_domains.txt"))
      badIps := loadSet false (files (base ++ lit "bad_ips.txt"))
      signatures := ((files (base ++ lit "signatures.txt")).map loadSignatures).getD [] }
    (feed, feed.badJa3.length + feed.badDomains.length + feed.badIps.length +
      feed.signatures.length)

theorem toLower_idem (c : UInt8) : toLower (toLower c) = toLower c := by
  revert c
  decide +kernel

theorem toLower_eq_dot {c : UInt8} : toLower c = 0x2E ↔ c = 0x2E := by
  revert c
  decide +kernel

/-- A loaded indicator is no empty string, no comment and in lower case. -/
theorem loaded_entry {file : Option Bytes} {e : Bytes} (h : e ∈ loadSet true file) :
    e ≠ [] ∧ e.map toLower = e ∧ e.head? ≠ some 0x23 := by
  unfold loadSet at h
  cases file with
  | none => cases h
  | some content =>
    obtain ⟨line, -, hl⟩ := List.mem_filterMap.1 (List.mem_eraseDups.1 h)
    unfold loadEntry at hl
    dsimp only at hl
    split at hl
    · cases hl
    · next hv =>
      rw [if_pos rfl] at hl
      cases hl
      simp only [Bool.or_eq_true, beq_iff_eq, not_or] at hv
      refine ⟨fun he => hv.1 (List.isEmpty_iff.2 (List.map_eq_nil_iff.1 he)), ?_, ?_⟩
      · rw [List.map_map]
        exact List.map_congr_left fun c _ => toLower_idem c
      · have hsharp : ∀ c, toLower c = 0x23 → c = 0x23 := by decide +kernel
        intro hh
        rw [List.head?_map] at hh
        obtain ⟨c, hc, hlow⟩ := Option.map_eq_some_iff.1 hh
        rw [List.head?_eq_getElem?] at hc
        exact hv.2 (hc.trans (congrArg some (hsharp c hlow)))

theorem load_badDomains {files : Bytes → Option Bytes} {dir e : Bytes}
    (h : e ∈ (load files dir).1.badDomains) : e ≠ [] ∧ e.map toLower = e ∧ e.head? ≠ some 0x23 := by
  unfold load at h
  split at h
  · cases h
  · exact loaded_entry h

/-! ## The scan -/

/-- The loop behind the exact lookup.
mirrors src/include/threat_feed.hpp:81-86 -/
def suffixScan (badDomains : List Bytes) (h : Bytes) (pos : Nat) : Bool :=
  match hf : find h [0x2E] pos with
  | none => false
  | some i => h.drop (i + 1) ∈ badDomains || suffixScan badDomains h (i + 1)
termination_by h.length - pos
decreasing_by exact rest_lt hf

/-- The scan asks for the rest behind every dot it still has in front. -/
theorem suffixScan_iff (badDomains : List Bytes) (h : Bytes) (pos : Nat) :
    suffixScan badDomains h pos = true ↔ ∃ i ∈ hits h [0x2E] pos, h.drop (i + 1) ∈ badDomains := by
  induction pos using suffixScan.induct h with
  | case1 pos hf =>
    rw [suffixScan, hf, hits_of_none (by simp) hf]
    simp
  | case2 pos i hf ih =>
    rw [suffixScan, hf, hits_of_some (by simp) hf, List.length_singleton]
    simp only [Bool.or_eq_true, decide_eq_true_eq, ih, List.mem_cons, exists_eq_or_imp]

theorem isBadDomain_eq_scan (f : ThreatFeed) (host : Bytes) :
    f.isBadDomain host = (!(host.isEmpty || f.badDomains.isEmpty) &&
      (host.map toLower ∈ f.badDomains || suffixScan f.badDomains (host.map toLower) 0)) := by
  have hscan := suffixScan_iff f.badDomains (host.map toLower) 0
  rw [hits_zero] at hscan
  unfold ThreatFeed.isBadDomain
  split
  · next h => rw [h]; rfl
  · next h =>
    rw [Bool.eq_false_iff.2 h, Bool.not_false, Bool.true_and]
    dsimp only
    congr 1
    rw [Bool.eq_iff_iff, hscan, List.any_eq_true]
    simp only [decide_eq_true_eq]

/-! ## The lookup -/

/-- `h` is the domain `e` or below it. -/
def Under (e h : Bytes) : Prop := h = e ∨ 0x2E :: e <:+ h

/-- Dot by dot the lookup finds what is an entry or below one. -/
theorem isBadDomain_iff (f : ThreatFeed) (hne : [] ∉ f.badDomains) (host : Bytes) :
    f.isBadDomain host = true ↔ ∃ e ∈ f.badDomains, Under e (host.map toLower) := by
  rw [isBadDomain_eq_scan, Bool.and_eq_true, Bool.or_eq_true, decide_eq_true_eq, suffixScan_iff,
    hits_zero, hit_char_iff (P := (· ∈ f.badDomains))]
  constructor
  · intro hx
    obtain ⟨-, hmem | ⟨e, hsuf, hmem⟩⟩ := hx
    · exact ⟨_, hmem, .inl rfl⟩
    · exact ⟨e, hmem, .inr hsuf⟩
  · intro hx
    obtain ⟨e, hmem, hunder⟩ := hx
    have hhost : host ≠ [] := by
      intro hh
      rw [hh] at hunder
      rcases hunder with rfl | hsuf
      · exact hne hmem
      · exact absurd (List.suffix_nil.1 hsuf) (List.cons_ne_nil _ _)
    refine ⟨?_, hunder.elim (fun he => .inl (he ▸ hmem)) fun hsuf => .inr ⟨e, hsuf, hmem⟩⟩
    rw [List.isEmpty_eq_false_iff.2 hhost, List.isEmpty_eq_false_iff.2 (List.ne_nil_of_mem hmem)]
    rfl

/-- Labels, each with the dot behind it. -/
def labels (ls : List Bytes) : Bytes := ls.flatMap (· ++ [0x2E])

theorem under_labels {e h : Bytes} (he : Under e h) (ls : List Bytes) :
    Under e (labels ls ++ h) := by
  rcases List.eq_nil_or_concat ls with rfl | ⟨init, l, rfl⟩
  · exact he
  · right
    rw [List.concat_eq_append]
    have hsplit : labels (init ++ [l]) ++ h = (labels init ++ l) ++ 0x2E :: h := by
      simp [labels]
    rw [hsplit]
    rcases he with rfl | hsuf
    · exact List.suffix_append _ _
    · exact (hsuf.trans (List.suffix_cons _ h)).trans (List.suffix_append _ _)

/-- In front of a domain, something makes a domain below it exactly when it
ends in a dot. -/
theorem under_append {e p : Bytes} (hp : p ≠ []) : Under e (p ++ e) ↔ p.getLast? = some 0x2E := by
  constructor
  · intro h
    rcases h with h | ⟨a, ha⟩
    · exact absurd (List.append_left_eq_self.1 h) hp
    · have hsplit : a ++ [0x2E] = p := by
        rw [List.append_cons] at ha
        exact List.append_cancel_right ha
      rw [← hsplit, List.getLast?_concat]
  · intro h
    obtain ⟨a, rfl⟩ := List.getLast?_eq_some_iff.1 h
    exact .inr ⟨a, by simp⟩

/-- What a directory of rule files blocks: the entries, everything below them
however deep, and nothing that merely ends like one. -/
theorem isBadDomain_loaded (files : Bytes → Option Bytes) (dir : Bytes) :
    (∀ host, (load files dir).1.isBadDomain host = true ↔
      ∃ e ∈ (load files dir).1.badDomains,
        host.map toLower = e ∨ lit "." ++ e <:+ host.map toLower) ∧
    (∀ e ∈ (load files dir).1.badDomains, ∀ ls : List Bytes,
      (load files dir).1.isBadDomain (labels ls ++ e) = true) ∧
    (∀ e p, (load files dir).1.badDomains = [e] → p ≠ [] →
      ((load files dir).1.isBadDomain (p ++ e) = true ↔ p.getLast? = some 0x2E)) := by
  have hdot : lit "." = [0x2E] := by decide
  have hne : [] ∉ (load files dir).1.badDomains := fun h => (load_badDomains h).1 rfl
  refine ⟨fun host => by rw [hdot]; exact isBadDomain_iff _ hne host, fun e he ls => ?_,
    fun e p hone hp => ?_⟩
  · have hlower : (labels ls ++ e).map toLower = labels (ls.map (·.map toLower)) ++ e := by
      rw [List.map_append, (load_badDomains he).2.1]
      congr 1
      rw [labels, labels, List.map_flatMap, List.flatMap_map]
      simp [toLower_eq_dot.2 rfl]
    rw [isBadDomain_iff _ hne, hlower]
    exact ⟨e, he, under_labels (.inl rfl) _⟩
  · have he : e ∈ (load files dir).1.badDomains := hone ▸ List.mem_singleton_self e
    have hlast : (p.map toLower).getLast? = some 0x2E ↔ p.getLast? = some 0x2E := by
      rw [List.getLast?_map]
      cases p.getLast? with
      | none => simp
      | some c => simp [toLower_eq_dot]
    rw [isBadDomain_iff _ hne, hone, List.map_append, (load_badDomains he).2.1, ← hlast,
      ← under_append (e := e) (by simpa using hp)]
    simp

end Wirewolf.L4.Domains
