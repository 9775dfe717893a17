import Wirewolf.Core.Cursor
import Wirewolf.L4Filter.Detectors

/-!
# Contact lists (`NpuFilter::detect_credential_content`)

The scan for e-mail addresses goes from `@` to `@` and gives up at one that
stands first in the text, instead of going on behind it. A list of addresses is
detected otherwise, wherever they are.

* `emailCount_iff`: the loop counts the addresses, as far as it has to.
* `contactList_iff`: which contact lists are detected.
* `leading_at_hides`: one that is not.
-/
namespace Wirewolf.L4.ContactList

open Wirewolf.L1.IpPacket Wirewolf.L4.Detectors Wirewolf.Search

/-! ## Addresses -/

/-- An `@` behind an e-mail character, and in front of a run of at least four
of them with a dot among them. -/
structure Address (text : Bytes) (i : Nat) : Prop where
  sign : text[i]? = some 0x40
  before : ∃ c, text[i - 1]? = some c ∧ isEmailChar c = true
  long : 4 ≤ ((text.drop (i + 1)).takeWhile isEmailChar).length
  dot : 0x2E ∈ (text.drop (i + 1)).takeWhile isEmailChar

/-- What the loop tests at an `@` that is not the first character. -/
theorem emailAt_iff {text : Bytes} {i : Nat} (hi : text[i]? = some 0x40) :
    emailAt text i = true ↔ Address text i := by
  unfold emailAt
  dsimp only
  rw [Bool.and_eq_true, Bool.and_eq_true, Bool.and_eq_true, decide_eq_true_eq, decide_eq_true_eq,
    decide_eq_true_eq]
  have hbefore : isEmailChar (text.getD (i - 1) 0) = true ↔
      ∃ c, text[i - 1]? = some c ∧ isEmailChar c = true := by
    rw [List.getD_eq_getElem?_getD]
    cases text[i - 1]? with
    | none => simp [show isEmailChar 0 = false from by decide]
    | some c => simp
  rw [hbefore]
  constructor
  · intro h
    exact ⟨hi, h.1.1.1, h.2, h.1.2⟩
  · intro h
    have hrun := (List.takeWhile_sublist isEmailChar (l := text.drop (i + 1))).length_le
    have hlong := h.long
    rw [List.length_drop] at hrun
    exact ⟨⟨⟨h.before, by omega⟩, h.dot⟩, hlong⟩

instance (text : Bytes) (i : Nat) : Decidable (Address text i) :=
  if h : text[i]? = some 0x40 then decidable_of_iff _ (emailAt_iff h)
  else isFalse fun ha => h ha.sign

def addresses (text : Bytes) : Nat := (List.range text.length).countP (Address text ·)

/-- Up to where the loop stops, it has counted all addresses so far. -/
theorem emailCount_iff (text : Bytes) (count : Nat) {ps : List Nat} (h : 0 ∉ ps) :
    5 ≤ emailCount text count ps ↔ 5 ≤ count + ps.countP (emailAt text) := by
  induction ps generalizing count with
  | nil => rw [emailCount, List.countP_nil, Nat.add_zero]
  | cons i ps ih =>
    rw [List.mem_cons, not_or] at h
    rw [emailCount, List.countP_cons]
    split
    · next hstop =>
      have hfull : 6 ≤ count := hstop.resolve_right fun hi => h.1 hi.symm
      exact iff_of_true (by omega) (by omega)
    · rw [ih _ h.2]
      split <;> omega

theorem countP_occurrences (text : Bytes) :
    (occurrences text [0x40]).countP (emailAt text) = addresses text := by
  rw [occurrences_char, List.countP_filter, addresses]
  apply List.countP_congr
  intro i _
  rw [Bool.and_eq_true, decide_eq_true_eq, decide_eq_true_eq]
  exact ⟨fun h => (emailAt_iff h.2).1 h.1, fun h => ⟨(emailAt_iff h.sign).2 h, h.sign⟩⟩

/-- At the front of the text an `@` ends the search. -/
theorem emailCount_leading {text : Bytes} (h : text.head? = some 0x40) :
    emailCount text 0 (occurrences text [0x40]) = 0 := by
  obtain ⟨t, rfl⟩ : ∃ t, text = 0x40 :: t := by
    cases text with
    | nil => cases h
    | cons c t => exact ⟨t, by rw [Option.some.inj h]⟩
  have hfirst : ∃ ps, occurrences (0x40 :: t) [0x40] = 0 :: ps := ⟨_, rfl⟩
  obtain ⟨ps, hps⟩ := hfirst
  rw [hps, emailCount, if_pos (.inr rfl)]

theorem occurrences_notZero {text : Bytes} (h : text.head? ≠ some 0x40) :
    0 ∉ occurrences text [0x40] := by
  rw [mem_occurrences_char, ← List.head?_eq_getElem?]
  exact h

/-! ## Detection -/

/-- A payload of text with at least five addresses in what is scanned. -/
structure Contacts (flow : FlowData) : Prop where
  long : 20 ≤ flow.reassembledPayload.length
  text : isText (flow.reassembledPayload.take 2048) = true
  five : 5 ≤ addresses (flow.reassembledPayload.take 2048)

instance (flow : FlowData) : Decidable (Contacts flow) :=
  decidable_of_iff (20 ≤ flow.reassembledPayload.length ∧
      isText (flow.reassembledPayload.take 2048) = true ∧
      5 ≤ addresses (flow.reassembledPayload.take 2048))
    ⟨fun h => ⟨h.1, h.2.1, h.2.2⟩, fun h => ⟨h.1, h.2, h.3⟩⟩

/-- A contact list is detected exactly if it does not begin with an `@`, or by
other markers that it has. -/
theorem contactList_iff (flow : FlowData) (h : Contacts flow) :
    detectCredentialContent flow = true ↔
      flow.reassembledPayload.head? ≠ some 0x40 ∨
        3 ≤ credentialScore (flow.reassembledPayload.take 2048) := by
  have hhead : (flow.reassembledPayload.take 2048).head? = flow.reassembledPayload.head? := by
    rw [List.head?_take, if_neg (by decide)]
  have hlong : ¬ flow.reassembledPayload.length < 20 := Nat.not_lt.2 h.long
  unfold detectCredentialContent
  simp only [if_neg hlong, h.text, Bool.not_true, Bool.false_eq_true, if_false]
  split
  · next hscore => exact iff_of_true rfl (.inr hscore)
  · next hscore =>
    rw [decide_eq_true_eq, or_iff_left hscore, ← hhead]
    constructor
    · intro hcount hfirst
      rw [emailCount_leading hfirst] at hcount
      omega
    · intro hfirst
      rw [emailCount_iff _ _ (occurrences_notZero hfirst), countP_occurrences, Nat.zero_add]
      exact h.five

/-- Five addresses, a line each. -/
def fiveLines : Bytes := lit "a@b.cc\nd@e.ff\ng@h.ii\nj@k.ll\nm@n.oo\n"

/-- One `@` in front, and five addresses are not seen. -/
theorem leading_at_hides :
    Contacts { id := ⟨0, 0, 0, 0⟩, reassembledPayload := 0x40 :: fiveLines } ∧
      detectCredentialContent { id := ⟨0, 0, 0, 0⟩, reassembledPayload := 0x40 :: fiveLines } =
        false := by
  decide

theorem contactList_fiveLines :
    detectCredentialContent { id := ⟨0, 0, 0, 0⟩, reassembledPayload := fiveLines } = true :=
  (contactList_iff { id := ⟨0, 0, 0, 0⟩, reassembledPayload := fiveLines } (by decide)).2
    (.inl (by decide))

end Wirewolf.L4.ContactList
