import Wirewolf.Core.Replace
import Wirewolf.L1Encoding.Severity
import Wirewolf.L4Filter.Detectors

/-!
# The user turn of the prompt (`llm_inference.cpp`)

The model is shown a context block and the payload. Both quote bytes of the
payload, which the attacker chooses; `sanitizeForPrompt` breaks every token
that would give them structure.

* `sanitize_inert`: none of the five tokens is left in a sanitized text,
  although they are removed one after the other.
* `prompt_structure`: the tokens of a user turn are the ones the engine wrote.
-/
namespace Wirewolf.L4.Prompt

open Wirewolf.Search Wirewolf.L1.IpPacket Wirewolf.L1.Severity
open Wirewolf.L4.Detectors (bswap16 isPrintable)

/-- mirrors src/src/llm_inference.cpp:25-46 -/
def sanitizeForPrompt (s : Bytes) : Bytes :=
  let s := replaceAll s (lit "<|") (lit "< |")
  let s := replaceAll s (lit "|>") (lit "| >")
  let s := replaceAll s (lit "[Context]") (lit "(Context)")
  let s := replaceAll s (lit "[Payload]") (lit "(Payload)")
  replaceAll s (lit "[Decoded]") (lit "(Decoded)")

/-! ## The context block -/

/-- mirrors src/src/llm_inference.cpp:204-209; the address is in memory order. -/
def ipToString (ip : UInt32) : Bytes :=
  digits (ip.toNat % 256) ++ 0x2E :: (digits (ip.toNat / 256 % 256) ++
    0x2E :: (digits (ip.toNat / 65536 % 256) ++ 0x2E :: digits (ip.toNat / 16777216)))

/-- mirrors src/src/llm_inference.cpp:212-232 -/
def isServerPort (port : UInt16) : Bool :=
  port ∈ [20, 21, 22, 23, 25, 53, 80, 110, 143, 443, 445, 993, 995, 3306, 3389, 5432, 8080, 8443]

/-- mirrors src/src/llm_inference.cpp:238-255 -/
def portHints : List (UInt16 × Bytes) := [
  (80, lit "HTTP"), (8080, lit "HTTP"), (443, lit "HTTPS/TLS"), (8443, lit "HTTPS/TLS"),
  (22, lit "SSH"), (53, lit "DNS"), (25, lit "SMTP"), (21, lit "FTP"), (445, lit "SMB"),
  (3306, lit "MySQL"), (5432, lit "PostgreSQL"), (3389, lit "RDP"), (110, lit "POP3"),
  (143, lit "IMAP")]

/-- mirrors src/src/llm_inference.cpp:235-261 -/
def protocolFromPorts (srcPort dstPort : UInt16) : Bytes :=
  ((portHints.lookup dstPort).or (portHints.lookup srcPort)).getD (lit "Unknown")

/-- mirrors src/src/llm_inference.cpp:272-274 -/
def methods : List Bytes :=
  List.map lit ["GET", "POST", "PUT", "DELETE", "HEAD", "OPTIONS", "PATCH", "CONNECT", "TRACE"]

def firstLine (payload : Bytes) : Bytes :=
  match payload.findIdx? fun c => c = 0x0D || c = 0x0A with
  | some eol => payload.take eol
  | none => payload.take (min payload.length 128)

/-- mirrors src/src/llm_inference.cpp:263-286 -/
def detectHttpLine (payload : Bytes) : Bytes :=
  let line := firstLine payload
  if methods.any fun m => (m ++ [0x20]).isPrefixOf line then lit "HTTP Request: " ++ line
  else if 12 < line.length && (lit "HTTP/").isPrefixOf line then lit "HTTP Response: " ++ line
  else []

def direction (srcPort dstPort : UInt16) : Bytes :=
  if isServerPort dstPort && !isServerPort srcPort then lit "client -> server (request)"
  else if isServerPort srcPort && !isServerPort dstPort then lit "server -> client (response)"
  else lit "unknown"

/-- mirrors src/src/llm_inference.cpp:289-322 -/
def buildFlowContext (flow : FlowData) (payload : Bytes) : Bytes :=
  let srcPort := bswap16 flow.id.srcPort
  let dstPort := bswap16 flow.id.dstPort
  let httpLine := detectHttpLine payload
  lit "[Context]\n" ++
    lit "Direction: " ++ direction srcPort dstPort ++ lit "\n" ++
    lit "Src: " ++ ipToString flow.id.srcIp ++ lit ":" ++ digits srcPort.toNat ++ lit "\n" ++
    lit "Dst: " ++ ipToString flow.id.dstIp ++ lit ":" ++ digits dstPort.toNat ++ lit "\n" ++
    lit "Protocol: " ++ protocolFromPorts srcPort dstPort ++ lit "\n" ++
    (if httpLine.isEmpty then [] else httpLine ++ lit "\n") ++
    lit "Packets: " ++ digits flow.packetCount ++ lit "\n" ++
    lit "Payload size: " ++ digits flow.reassembledPayload.length ++ lit " bytes\n" ++
    lit "\n[Payload]\n"

/-! ## The payload -/

/-- mirrors src/src/llm_inference.cpp:1495-1511 -/
def maskPayload (charLimit : Nat) (flow : FlowData) : Bytes :=
  (flow.reassembledPayload.take charLimit).map fun b => if isPrintable b then b else 0x2E

/-- The sanitized payload. -/
def shownPayload (charLimit : Nat) (flow : FlowData) : Bytes :=
  sanitizeForPrompt (maskPayload charLimit flow)

/-- Whether the decoded form is shown as well. -/
def showsDecoded (charLimit : Nat) (flow : FlowData) : Bool :=
  (shownPayload charLimit flow).contains 0x25 && !flow.normalizedPayload.isEmpty

/-- mirrors src/src/llm_inference.cpp:1545-1559 -/
def payloadStr (charLimit : Nat) (flow : FlowData) : Bytes :=
  if showsDecoded charLimit flow then
    shownPayload charLimit flow ++ lit "\n[Decoded]\n" ++
      sanitizeForPrompt (flow.normalizedPayload.take charLimit)
  else shownPayload charLimit flow

/-- The user turn: what stands between the system prompt and the end-of-turn
token.
mirrors src/src/llm_inference.cpp:1561-1564 -/
def userTurn (charLimit : Nat) (flow : FlowData) : Bytes :=
  buildFlowContext flow (payloadStr charLimit flow) ++ payloadStr charLimit flow

/-! ## Sanitized text -/

/-- The tokens that give a prompt its structure. -/
def tokens : List Bytes :=
  [lit "<|", lit "|>", lit "[Context]", lit "[Payload]", lit "[Decoded]"]

/-- None of the tokens stands in the text. -/
def Inert (s : Bytes) : Prop := ∀ tok ∈ tokens, ¬ tok <:+: s

theorem tokens_shape :
    ∀ tok ∈ tokens, tok ≠ [] ∧ 0x0A ∉ tok ∧ 0x20 ∉ tok ∧ 0x28 ∉ tok ∧ 0x29 ∉ tok := by
  decide

/-- No token stands across the blank that breaks a template token. -/
theorem apart_blank {tok : Bytes} (h : tok ∈ tokens) : Apart [0x20] tok :=
  apart_one (tokens_shape tok h).2.2.1 (tokens_shape tok h).1

/-- No token stands across a marker in parentheses. -/
theorem apart_marker {tok w : Bytes} (h : tok ∈ tokens)
    (hw : w ∈ [lit "Context", lit "Payload", lit "Decoded"]) : Apart (0x28 :: w ++ [0x29]) tok := by
  obtain ⟨hne, -, -, hl, hr⟩ := tokens_shape tok h
  have hin : ∀ w ∈ [lit "Context", lit "Payload", lit "Decoded"], ∀ tok ∈ tokens, ¬ tok <:+: w := by
    simp only [← containsSub_iff]
    decide
  exact apart_two hl hr hne (hin w hw tok h)

/-- A template token broken open by a blank is gone. -/
theorem broken_absent {x y : UInt8} (hxy : x ≠ y) (hx : x ≠ 0x20) (hy : y ≠ 0x20) (s : Bytes) :
    ¬ [x, y] <:+: replaceAll s [x, y] [x, 0x20, y] := by
  have hapart : Apart [0x20] [x, y] := apart_one (by simp [hx.symm, hy.symm]) (by simp)
  exact replaceAll_absent (p := [x]) (n := []) (q := [y]) (m := [0x20]) rfl (by simpa using hxy)
    (by simp) hapart s

theorem broken_keeps {x y : UInt8} {tok : Bytes} (h : tok ∈ tokens) {s : Bytes}
    (hin : tok <:+: replaceAll s [x, y] [x, 0x20, y]) : tok <:+: s :=
  infix_of_replaceAll (p := [x]) (n := []) (q := [y]) (m := [0x20]) (apart_blank h) hin

/-- A section marker in parentheses is gone. -/
theorem marker_absent {w : Bytes} (hw : w ∈ [lit "Context", lit "Payload", lit "Decoded"])
    (h : 0x5B :: w ++ [0x5D] ∈ tokens) (s : Bytes) :
    ¬ 0x5B :: w ++ [0x5D] <:+: replaceAll s (0x5B :: w ++ [0x5D]) (0x28 :: w ++ [0x29]) := by
  have hapart := apart_marker h hw
  have hgone := replaceAll_absent (p := []) (n := 0x5B :: w ++ [0x5D]) (q := [])
    (m := 0x28 :: w ++ [0x29]) (h := 0x5B) (t := w ++ [0x5D]) (by simp) (by simp) (by simp)
    (by simpa using hapart) s
  simpa using hgone

theorem marker_keeps {w tok : Bytes} (hw : w ∈ [lit "Context", lit "Payload", lit "Decoded"])
    (h : tok ∈ tokens) {s : Bytes}
    (hin : tok <:+: replaceAll s (0x5B :: w ++ [0x5D]) (0x28 :: w ++ [0x29])) : tok <:+: s := by
  apply infix_of_replaceAll (p := []) (n := 0x5B :: w ++ [0x5D]) (q := []) (apart_marker h hw)
  simpa using hin

/-- Each round removes its token and brings none of the others back. -/
theorem sanitize_inert (s : Bytes) : Inert (sanitizeForPrompt s) := by
  have hlt : lit "<|" = [0x3C, 0x7C] ∧ lit "< |" = [0x3C, 0x20, 0x7C] := by decide
  have hgt : lit "|>" = [0x7C, 0x3E] ∧ lit "| >" = [0x7C, 0x20, 0x3E] := by decide
  have hc : lit "[Context]" = 0x5B :: lit "Context" ++ [0x5D] ∧
      lit "(Context)" = 0x28 :: lit "Context" ++ [0x29] := by decide
  have hp : lit "[Payload]" = 0x5B :: lit "Payload" ++ [0x5D] ∧
      lit "(Payload)" = 0x28 :: lit "Payload" ++ [0x29] := by decide
  have hd : lit "[Decoded]" = 0x5B :: lit "Decoded" ++ [0x5D] ∧
      lit "(Decoded)" = 0x28 :: lit "Decoded" ++ [0x29] := by decide
  have hctx : lit "Context" ∈ [lit "Context", lit "Payload", lit "Decoded"] := by simp
  have hpay : lit "Payload" ∈ [lit "Context", lit "Payload", lit "Decoded"] := by simp
  have hdec : lit "Decoded" ∈ [lit "Context", lit "Payload", lit "Decoded"] := by simp
  unfold sanitizeForPrompt
  dsimp only
  intro tok h
  have hmem := h
  rw [tokens, hlt.1, hgt.1, hc.1, hp.1, hd.1] at h
  rw [hlt.1, hlt.2, hgt.1, hgt.2, hc.1, hc.2, hp.1, hp.2, hd.1, hd.2]
  intro hin
  simp only [List.mem_cons, List.not_mem_nil, or_false] at h
  obtain rfl | rfl | rfl | rfl | rfl := h
  · have h₁ := marker_keeps hctx hmem (marker_keeps hpay hmem (marker_keeps hdec hmem hin))
    exact broken_absent (by decide) (by decide) (by decide) s (broken_keeps hmem h₁)
  · have h₁ := marker_keeps hctx hmem (marker_keeps hpay hmem (marker_keeps hdec hmem hin))
    exact broken_absent (by decide) (by decide) (by decide) _ h₁
  · exact marker_absent hctx hmem _ (marker_keeps hpay hmem (marker_keeps hdec hmem hin))
  · exact marker_absent hpay hmem _ (marker_keeps hdec hmem hin)
  · exact marker_absent hdec hmem _ hin

example : sanitizeForPrompt (lit "<||> [[Payload]]") = lit "< || > [(Payload)]" := by decide

/-! ## The context around it -/

/-- A text in which no token starts. -/
def Bland (s : Bytes) : Prop := ∀ c ∈ s, c ≠ 0x3C ∧ c ≠ 0x7C ∧ c ≠ 0x5B

instance (s : Bytes) : Decidable (Bland s) := List.decidableBAll _ _

theorem Bland.append {s t : Bytes} (hs : Bland s) (ht : Bland t) : Bland (s ++ t) := by
  intro c hc
  rcases List.mem_append.1 hc with h | h
  · exact hs c h
  · exact ht c h

theorem Bland.inert_append {s t : Bytes} (hs : Bland s) (ht : Inert t) : Inert (s ++ t) := by
  have hhead : ∀ tok ∈ tokens, ∃ c r, tok = c :: r ∧ (c = 0x3C ∨ c = 0x7C ∨ c = 0x5B) := by
    intro tok h
    simp only [tokens, List.mem_cons, List.not_mem_nil, or_false] at h
    obtain rfl | rfl | rfl | rfl | rfl := h
    · exact ⟨0x3C, lit "|", by decide, by decide⟩
    · exact ⟨0x7C, lit ">", by decide, by decide⟩
    · exact ⟨0x5B, lit "Context]", by decide, by decide⟩
    · exact ⟨0x5B, lit "Payload]", by decide, by decide⟩
    · exact ⟨0x5B, lit "Decoded]", by decide, by decide⟩
  intro tok h
  obtain ⟨c, r, rfl, hc⟩ := hhead tok h
  have hnot : c ∉ s := by
    intro hm
    obtain ⟨h₁, h₂, h₃⟩ := hs c hm
    rcases hc with he | he | he
    · exact h₁ he
    · exact h₂ he
    · exact h₃ he
  rw [infix_of_head hnot]
  exact ht _ h

theorem inert_nil : Inert [] := by
  intro tok h hin
  exact (tokens_shape tok h).1 (List.infix_nil.1 hin)

theorem Bland.inert {s : Bytes} (h : Bland s) : Inert s := by
  have := h.inert_append inert_nil
  rwa [List.append_nil] at this

theorem Inert.line {s t : Bytes} (hs : Inert s) (ht : Inert t) : Inert (s ++ 0x0A :: t) := by
  intro tok h hin
  obtain ⟨hne, hnl, -⟩ := tokens_shape tok h
  rcases (infix_delim hnl hne s t).1 hin with hl | hr
  · exact hs tok h hl
  · exact ht tok h hr

theorem Inert.within {s t : Bytes} (ht : Inert t) (hst : s <:+: t) : Inert s :=
  fun tok h hin => ht tok h (hin.trans hst)

theorem digits_bland (n : Nat) : Bland (digits n) := by
  intro c hc
  obtain ⟨h₁, h₂⟩ := digits_range n c hc
  refine ⟨?_, ?_, ?_⟩
  · intro he
    subst he
    exact absurd h₂ (by decide)
  · intro he
    subst he
    exact absurd h₂ (by decide)
  · intro he
    subst he
    exact absurd h₂ (by decide)

theorem ip_bland (ip : UInt32) : Bland (ipToString ip) := by
  have hdot : ∀ {s : Bytes}, Bland s → Bland (0x2E :: s) :=
    fun h => List.forall_mem_cons.2 ⟨by decide, h⟩
  exact (digits_bland _).append (hdot ((digits_bland _).append (hdot ((digits_bland _).append
    (hdot (digits_bland _))))))

theorem direction_bland (srcPort dstPort : UInt16) : Bland (direction srcPort dstPort) := by
  unfold direction
  split
  · decide
  · split <;> decide

theorem protocol_bland (srcPort dstPort : UInt16) : Bland (protocolFromPorts srcPort dstPort) := by
  have hall : ∀ e ∈ portHints, Bland e.2 := by decide
  have hhint : ∀ {port : UInt16} {hint : Bytes}, portHints.lookup port = some hint →
      Bland hint := by
    intro port hint h
    obtain ⟨l₁, l₂, heq, -⟩ := List.lookup_eq_some_iff.1 h
    exact hall (port, hint) (heq ▸ List.mem_append_right _ (List.mem_cons_self ..))
  unfold protocolFromPorts
  cases hd : portHints.lookup dstPort with
  | some hint => exact hhint hd
  | none =>
    cases hs : portHints.lookup srcPort with
    | some hint => exact hhint hs
    | none => decide

/-- The line quoted in the context block ends before the first line break. -/
theorem firstLine_line (s r : Bytes) : firstLine (s ++ 0x0A :: r) <+: s := by
  unfold firstLine
  rw [List.findIdx?_append]
  cases h : s.findIdx? fun c => c = 0x0D || c = 0x0A with
  | some eol =>
    have hlt : eol < s.length := (List.findIdx?_eq_some_iff_getElem.1 h).1
    rw [Option.some_or]
    dsimp only
    rw [List.take_append_of_le_length (by omega)]
    exact List.take_prefix ..
  | none =>
    rw [Option.none_or, List.findIdx?_cons]
    simp

theorem firstLine_whole (s : Bytes) : firstLine s <+: s := by
  unfold firstLine
  split <;> exact List.take_prefix ..

section Turn

variable (charLimit : Nat) (flow : FlowData)

theorem httpLine_inert : Inert (detectHttpLine (payloadStr charLimit flow)) := by
  have hline : Inert (firstLine (payloadStr charLimit flow)) := by
    have hshown := sanitize_inert (maskPayload charLimit flow)
    unfold payloadStr
    split
    · have hnl : lit "\n[Decoded]\n" = 0x0A :: lit "[Decoded]\n" := by decide
      rw [List.append_assoc, hnl, List.cons_append]
      exact hshown.within (firstLine_line _ _).isInfix
    · exact hshown.within (firstLine_whole _).isInfix
  have hrequest : Bland (lit "HTTP Request: ") := by decide
  have hresponse : Bland (lit "HTTP Response: ") := by decide
  unfold detectHttpLine
  dsimp only
  split
  · exact hrequest.inert_append hline
  · split
    · exact hresponse.inert_append hline
    · exact inert_nil

/-- The lines between the two markers. -/
def contextLines : Bytes :=
  let srcPort := bswap16 flow.id.srcPort
  let dstPort := bswap16 flow.id.dstPort
  let httpLine := detectHttpLine (payloadStr charLimit flow)
  let tail := lit "Packets: " ++ digits flow.packetCount ++
    0x0A :: (lit "Payload size: " ++ digits flow.reassembledPayload.length ++
      lit " bytes" ++ 0x0A :: [])
  lit "Direction: " ++ direction srcPort dstPort ++
    0x0A :: (lit "Src: " ++ ipToString flow.id.srcIp ++ lit ":" ++ digits srcPort.toNat ++
    0x0A :: (lit "Dst: " ++ ipToString flow.id.dstIp ++ lit ":" ++ digits dstPort.toNat ++
    0x0A :: (lit "Protocol: " ++ protocolFromPorts srcPort dstPort ++
    0x0A :: (if httpLine.isEmpty then tail else httpLine ++ 0x0A :: tail))))

theorem contextLines_inert : Inert (contextLines charLimit flow) := by
  have hcolon : Bland (lit ":") := by decide
  have hpackets : Inert (lit "Packets: " ++ digits flow.packetCount) :=
    ((show Bland (lit "Packets: ") by decide).append (digits_bland _)).inert
  have hsize : Inert (lit "Payload size: " ++ digits flow.reassembledPayload.length ++
      lit " bytes") :=
    (((show Bland (lit "Payload size: ") by decide).append (digits_bland _)).append
    (by decide)).inert
  have htail := hpackets.line (hsize.line inert_nil)
  have hprotocol : Inert (lit "Protocol: " ++ protocolFromPorts (bswap16 flow.id.srcPort)
      (bswap16 flow.id.dstPort)) :=
    ((show Bland (lit "Protocol: ") by decide).append (protocol_bland _ _)).inert
  have hdst : Inert (lit "Dst: " ++ ipToString flow.id.dstIp ++ lit ":" ++
      digits (bswap16 flow.id.dstPort).toNat) :=
    ((((show Bland (lit "Dst: ") by decide).append (ip_bland _)).append hcolon).append
      (digits_bland _)).inert
  have hsrc : Inert (lit "Src: " ++ ipToString flow.id.srcIp ++ lit ":" ++
      digits (bswap16 flow.id.srcPort).toNat) :=
    ((((show Bland (lit "Src: ") by decide).append (ip_bland _)).append hcolon).append
      (digits_bland _)).inert
  have hdirection : Inert (lit "Direction: " ++ direction (bswap16 flow.id.srcPort)
      (bswap16 flow.id.dstPort)) :=
    ((show Bland (lit "Direction: ") by decide).append (direction_bland _ _)).inert
  refine hdirection.line (hsrc.line (hdst.line (hprotocol.line ?_)))
  split
  · exact htail
  · exact (httpLine_inert charLimit flow).line htail

/-- The context block, cut at its markers. -/
theorem context_eq : buildFlowContext flow (payloadStr charLimit flow) =
    lit "[Context]" ++ 0x0A :: (contextLines charLimit flow ++ 0x0A ::
      (lit "[Payload]" ++ [0x0A])) := by
  have h₁ : lit "[Context]\n" = lit "[Context]" ++ [0x0A] := by decide
  have h₂ : lit "\n[Payload]\n" = 0x0A :: lit "[Payload]" ++ [0x0A] := by decide
  have h₃ : lit " bytes\n" = lit " bytes" ++ [0x0A] := by decide
  have h₄ : lit "\n" = [0x0A] := by decide
  unfold buildFlowContext contextLines
  dsimp only
  rw [h₁, h₂, h₃, h₄]
  split <;> simp

theorem userTurn_eq : userTurn charLimit flow = lit "[Context]" ++ 0x0A ::
    (contextLines charLimit flow ++
    0x0A :: (lit "[Payload]" ++ 0x0A :: payloadStr charLimit flow)) := by
  rw [userTurn, context_eq]
  simp

/-- A marker stands in a marker only if it is the same one. -/
theorem standsAt_marker {tok w : Bytes} (h : tok ∈ tokens)
    (hw : w ∈ [lit "[Context]", lit "[Payload]", lit "[Decoded]"]) (k : Nat) :
    StandsAt tok w k ↔ tok = w ∧ k = 0 := by
  have hall : ∀ w ∈ [lit "[Context]", lit "[Payload]", lit "[Decoded]"], ∀ tok ∈ tokens,
      w.length = 9 ∧ ∀ k < 10, StandsAt tok w k ↔ tok = w ∧ k = 0 := by decide
  obtain ⟨hlen, hiff⟩ := hall w hw tok h
  rcases Nat.lt_or_ge k 10 with hk | hk
  · exact hiff k hk
  · refine iff_of_false (fun hat => ?_) fun he => by omega
    unfold StandsAt at hat
    rw [List.drop_eq_nil_of_le (by omega)] at hat
    exact (tokens_shape tok h).1 (List.prefix_nil.1 hat)

theorem standsAt_inert {tok s : Bytes} (h : tok ∈ tokens) (hs : Inert s) (k : Nat) :
    ¬ StandsAt tok s k := fun hat => hs tok h hat.within

/-- The tokens of the payload: the marker in front of its decoded form. -/
theorem standsAt_payload {tok : Bytes} (h : tok ∈ tokens) (k : Nat) :
    StandsAt tok (payloadStr charLimit flow) k ↔ showsDecoded charLimit flow = true ∧
      tok = lit "[Decoded]" ∧ k = (shownPayload charLimit flow).length + 1 := by
  obtain ⟨hne, hnl, -⟩ := tokens_shape tok h
  have hshown := sanitize_inert (maskPayload charLimit flow)
  have hdecoded := sanitize_inert (flow.normalizedPayload.take charLimit)
  unfold payloadStr
  cases hs : showsDecoded charLimit flow with
  | false =>
    simp only [Bool.false_eq_true, if_false, false_and, iff_false]
    exact standsAt_inert h hshown k
  | true =>
    have hshape : shownPayload charLimit flow ++ lit "\n[Decoded]\n" ++
        sanitizeForPrompt (flow.normalizedPayload.take charLimit) = shownPayload charLimit flow ++
        0x0A :: (lit "[Decoded]" ++ 0x0A :: sanitizeForPrompt
          (flow.normalizedPayload.take charLimit)) := by
      rw [show lit "\n[Decoded]\n" = 0x0A :: lit "[Decoded]" ++ [0x0A] by decide]
      simp
    rw [if_pos rfl, hshape, standsAt_delim hnl hne]
    simp only [true_and, standsAt_delim hnl hne,
      standsAt_marker h (show lit "[Decoded]" ∈ _ by simp),
      standsAt_inert h hdecoded, and_false, exists_false, or_false]
    constructor
    · intro hx
      rcases hx with hl | ⟨j, rfl, rfl, rfl⟩
      · exact absurd hl (standsAt_inert h hshown k)
      · exact ⟨rfl, rfl⟩
    · intro hx
      obtain ⟨rfl, rfl⟩ := hx
      exact .inr ⟨0, rfl, rfl, rfl⟩

/-- Where a token stands in the user turn. -/
theorem standsAt_userTurn {tok : Bytes} (h : tok ∈ tokens) (k : Nat) :
    StandsAt tok (userTurn charLimit flow) k ↔ (tok = lit "[Context]" ∧ k = 0) ∨
      (tok = lit "[Payload]" ∧ k = (contextLines charLimit flow).length + 11) ∨
      (showsDecoded charLimit flow = true ∧ tok = lit "[Decoded]" ∧
        k = (contextLines charLimit flow).length + 21 +
          (shownPayload charLimit flow).length + 1) := by
  obtain ⟨hne, hnl, -⟩ := tokens_shape tok h
  have hlen : (lit "[Context]").length = 9 ∧ (lit "[Payload]").length = 9 := by decide
  rw [userTurn_eq]
  simp only [standsAt_delim hnl hne, standsAt_marker h (show lit "[Context]" ∈ _ by simp),
    standsAt_marker h (show lit "[Payload]" ∈ _ by simp),
    standsAt_inert h (contextLines_inert charLimit flow), standsAt_payload charLimit flow h,
    false_or, hlen]
  constructor
  · intro hx
    rcases hx with hc | ⟨j, rfl, i, rfl, ⟨hp, rfl⟩ | ⟨m, rfl, hd, ht, rfl⟩⟩
    · exact .inl hc
    · exact .inr (.inl ⟨hp, by omega⟩)
    · exact .inr (.inr ⟨hd, ht, by omega⟩)
  · intro hx
    rcases hx with hc | ⟨hp, rfl⟩ | ⟨hd, ht, rfl⟩
    · exact .inl hc
    · exact .inr ⟨_, by omega, 0, rfl, .inl ⟨hp, rfl⟩⟩
    · exact .inr ⟨_, by omega, 9 + 1 + ((shownPayload charLimit flow).length + 1), rfl,
        .inr ⟨_, rfl, hd, ht, rfl⟩⟩

end Turn

/-- The payload forges no structure: the user turn has no template token, the
two section markers stand once, where the engine wrote them, and the marker
of the decoded form at most there. -/
theorem prompt_structure (charLimit : Nat) (flow : FlowData) :
    (¬ lit "<|" <:+: userTurn charLimit flow ∧ ¬ lit "|>" <:+: userTurn charLimit flow) ∧
    (∀ k, StandsAt (lit "[Context]") (userTurn charLimit flow) k ↔ k = 0) ∧
    (∀ k, StandsAt (lit "[Payload]") (userTurn charLimit flow) k ↔
      k + (lit "[Payload]\n").length = (buildFlowContext flow (payloadStr charLimit flow)).length) ∧
    ∀ k, StandsAt (lit "[Decoded]") (userTurn charLimit flow) k ↔
    showsDecoded charLimit flow = true ∧
      k = (buildFlowContext flow (payloadStr charLimit flow)).length +
        (shownPayload charLimit flow).length + 1 := by
  have hne : lit "[Context]" ≠ lit "[Payload]" ∧ lit "[Context]" ≠ lit "[Decoded]" ∧
      lit "[Payload]" ≠ lit "[Decoded]" := by decide
  have hlen : (lit "[Payload]\n").length = 10 ∧
      (buildFlowContext flow (payloadStr charLimit flow)).length =
        (contextLines charLimit flow).length + 21 := by
    have hfixed : (lit "[Context]").length = 9 ∧ (lit "[Payload]").length = 9 := by decide
    refine ⟨by decide, ?_⟩
    rw [context_eq]
    simp only [List.length_append, List.length_cons, List.length_nil, hfixed]
    omega
  have htemplate : ∀ tok ∈ [lit "<|", lit "|>"], ¬ tok <:+: userTurn charLimit flow := by
    have hall : ∀ tok ∈ [lit "<|", lit "|>"], tok ∈ tokens ∧ tok ≠ lit "[Context]" ∧
        tok ≠ lit "[Payload]" ∧ tok ≠ lit "[Decoded]" := by decide
    intro tok h hin
    obtain ⟨k, hk⟩ := exists_standsAt hin
    obtain ⟨ht, h₁, h₂, h₃⟩ := hall tok h
    rcases (standsAt_userTurn charLimit flow ht k).1 hk with ⟨he, -⟩ | ⟨he, -⟩ | ⟨-, he, -⟩
    · exact h₁ he
    · exact h₂ he
    · exact h₃ he
  refine ⟨⟨htemplate _ (by simp), htemplate _ (by simp)⟩, fun k => ?_, fun k => ?_, fun k => ?_⟩
  · rw [standsAt_userTurn charLimit flow (by simp [tokens])]
    simp only [hne, true_and, false_and, and_false, or_false]
  · rw [standsAt_userTurn charLimit flow (by simp [tokens]), hlen.1, hlen.2]
    simp only [hne.1.symm, hne.2.2, true_and, false_and, and_false, or_false, false_or]
    omega
  · rw [standsAt_userTurn charLimit flow (by simp [tokens]), hlen.2]
    simp only [hne.2.1.symm, hne.2.2.symm, true_and, false_and, false_or]

end Wirewolf.L4.Prompt
