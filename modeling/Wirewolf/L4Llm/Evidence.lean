import Wirewolf.Core.Runs
import Wirewolf.L4Llm.Worker

/-!
# Evidence of a contact list (`LlmInference::worker_loop`)

A transfer without a user name and without a stored file is searched for
addresses, and the first two are put into the alert: the runs without a
delimiter around the first and the second `@`. The search for the start of a
run begins at `at - 1`, which is the end of the text when the `@` stands
first.

* `emailAt_eq`, `emailAt_zero`: what is cut out around an `@`, and what is cut
  out when it stands first.
* `emails_eq`: the loop cuts out around the first two.
* `attributed_iff`: the evidence is the two runs, unless the text begins with
  an `@` and what stands behind its last delimiter is something else.
* `leading_at`: an alert with a word for an address.
* `raised_iff`: when the addresses are shown, and raise the severity.
-/
namespace Wirewolf.L4.Evidence

open Wirewolf.Search Wirewolf.Runs Wirewolf.L4.LlmWorker

def isWord (c : UInt8) : Bool := !isSeparator c

/-! ## One address -/

section

variable {preview : Bytes} {i : Nat}

theorem wordStart_eq (n : Nat) :
    wordStart preview n = (preview.take n).length -
      ((preview.take n).rtakeWhile isWord).length := by
  rw [List.rtakeWhile, List.length_reverse]
  rfl

/-- The run forwards from an `@`. -/
theorem takeWhile_at (hi : preview[i]? = some 0x40) :
    (preview.drop i).takeWhile isWord = 0x40 :: (preview.drop (i + 1)).takeWhile isWord := by
  obtain ⟨hlt, hget⟩ := List.getElem?_eq_some_iff.1 hi
  rw [List.drop_eq_getElem_cons hlt, hget, List.takeWhile_cons_of_pos (by decide)]

/-- Cutting out goes from the start of a run backwards to the end of one forwards. -/
theorem emailAt_cut (hi : preview[i]? = some 0x40) :
    emailAt preview i = substr preview (wordStart preview (if i = 0 then preview.length else i))
      ((2 ^ 64 + (i + ((preview.drop i).takeWhile isWord).length) -
        wordStart preview (if i = 0 then preview.length else i)) % 2 ^ 64) := by
  have hlt : i < preview.length := (List.getElem?_eq_some_iff.1 hi).1
  have hstop : ((preview.drop (i + 1)).findIdx? isSeparator).elim preview.length (i + 1 + ·) =
      i + 1 + ((preview.drop (i + 1)).takeWhile isWord).length := stop_eq isSeparator hlt
  rw [emailAt, hstop, takeWhile_at hi, List.length_cons, Nat.add_assoc i 1, Nat.add_comm 1]

/-- An `@` that does not stand first is cut out with the run around it. -/
theorem emailAt_eq (hpos : i ≠ 0) (hi : preview[i]? = some 0x40)
    (hshort : preview.length < 2 ^ 64) :
    emailAt preview i = around isWord preview i := by
  have hlt : i < preview.length := (List.getElem?_eq_some_iff.1 hi).1
  have hfront := (List.rtakeWhile_suffix isWord (preview.take i)).length_le
  have hback := (List.takeWhile_prefix isWord (l := preview.drop i)).length_le
  rw [List.length_take_of_le hlt.le] at hfront
  rw [List.length_drop] at hback
  have hcount : (2 ^ 64 + (i + ((preview.drop i).takeWhile isWord).length) -
      wordStart preview i) % 2 ^ 64 =
        ((preview.take i).rtakeWhile isWord).length +
          ((preview.drop i).takeWhile isWord).length := by
    rw [wordStart_eq, List.length_take_of_le hlt.le]
    omega
  have hrun : (preview.drop i).take ((preview.drop i).takeWhile isWord).length =
      (preview.drop i).takeWhile isWord :=
    (List.prefix_iff_eq_take.1 (List.takeWhile_prefix isWord)).symm
  rw [emailAt_cut hi, if_neg hpos, hcount, wordStart_eq, substr, drop_start,
    List.take_length_add_append,
    hrun, around]

/-- One that stands first gets what is behind the last delimiter. -/
theorem emailAt_zero (hi : preview[0]? = some 0x40) (hshort : preview.length < 2 ^ 64) :
    emailAt preview 0 = preview.rtakeWhile isWord := by
  have hlt : 0 < preview.length := (List.getElem?_eq_some_iff.1 hi).1
  have hstart : preview.drop (preview.length - (preview.rtakeWhile isWord).length) =
      preview.rtakeWhile isWord := by
    have := drop_start (p := isWord) (s := preview) preview.length
    rwa [List.take_length, List.drop_length, List.append_nil] at this
  have hfront := (List.rtakeWhile_suffix isWord preview).length_le
  have hback := (List.takeWhile_prefix isWord (l := preview)).length_le
  rw [emailAt_cut hi, if_pos rfl, wordStart_eq, List.take_length, substr, hstart, List.drop_zero]
  apply List.take_of_length_le
  have hsplit : preview.takeWhile isWord ++ preview.dropWhile isWord = preview :=
    List.takeWhile_append_dropWhile
  have hlen := congrArg List.length hsplit
  rw [List.length_append] at hlen
  cases hrest : preview.dropWhile isWord with
  | nil =>
    rw [hrest, List.length_nil] at hlen
    omega
  | cons c rest =>
    -- the run stops in front of the start, and the length wraps
    rw [hrest] at hsplit hlen
    have hc : isWord c = false := head?_dropWhile (s := preview) (by rw [hrest]; rfl)
    have hshorter := length_rtakeWhile_le hsplit hc
    rw [List.length_cons] at hlen
    omega

/-- When what is cut out around an `@` is the run there. -/
theorem run_emailAt_iff (hi : preview[i]? = some 0x40) (hshort : preview.length < 2 ^ 64) :
    Run isWord preview i (emailAt preview i) ↔
      i ≠ 0 ∨ preview.takeWhile isWord = preview.rtakeWhile isWord := by
  by_cases hpos : i = 0
  · subst hpos
    have haround : around isWord preview 0 = preview.takeWhile isWord := by
      rw [around, List.take_zero, List.rtakeWhile_nil, List.nil_append, List.drop_zero]
    rw [emailAt_zero hi hshort, run_iff, haround, and_iff_right ⟨0x40, hi, by decide⟩, ne_eq,
      eq_self, not_true, false_or, eq_comm]
  · rw [emailAt_eq hpos hi hshort]
    exact iff_of_true (run_around hi (by decide)) (.inl hpos)

theorem emailAt_ne_nil_iff (hi : preview[i]? = some 0x40) (hshort : preview.length < 2 ^ 64) :
    emailAt preview i ≠ [] ↔ i ≠ 0 ∨ ∀ c, preview.getLast? = some c → isSeparator c = false := by
  by_cases hpos : i = 0
  · subst hpos
    have hne : preview ≠ [] := List.ne_nil_of_length_pos (List.getElem?_eq_some_iff.1 hi).1
    have hlast : isWord (preview.getLast hne) = true ↔
        isSeparator (preview.getLast hne) = false := by
      rw [isWord, Bool.not_eq_true']
    simp only [emailAt_zero hi hshort, ne_eq, List.rtakeWhile_eq_nil_iff, hne, not_false_eq_true,
      forall_true_left, Decidable.not_not, hlast, not_true, false_or,
      List.getLast?_eq_some_getLast hne, Option.some.injEq, forall_eq']
  · obtain ⟨c, hc, -⟩ := mem_of_run (run_around hi (by decide : isWord 0x40 = true))
    rw [emailAt_eq hpos hi hshort]
    exact iff_of_true (List.ne_nil_of_mem hc) (.inl hpos)

end

/-! ## The first two -/

/-- The position of the first `@`. -/
def firstAt (preview : Bytes) : Nat := preview.idxOf 0x40

/-- The position of the next one. -/
def secondAt (preview : Bytes) : Nat :=
  firstAt preview + 1 + (preview.drop (firstAt preview + 1)).idxOf 0x40

def firstEmail (p : Bytes) : Bytes := (emails (transferPreview p) 3 0).getD 0 []

def secondEmail (p : Bytes) : Bytes := (emails (transferPreview p) 3 0).getD 1 []

/-- The transfer is searched for addresses, and has two `@`.
mirrors src/src/llm_inference.cpp:1333-1345 -/
structure ContactBranch (p : Bytes) : Prop where
  noStor : findBetween (transferPreview p) (lit "STOR ") (lit "\r") 80 = []
  noUser : findBetween (transferPreview p) (lit "Username:") (lit "<") 60 = []
  two : 2 ≤ (transferPreview p).count 0x40

instance (p : Bytes) : Decidable (ContactBranch p) :=
  decidable_of_iff (findBetween (transferPreview p) (lit "STOR ") (lit "\r") 80 = [] ∧
      findBetween (transferPreview p) (lit "Username:") (lit "<") 60 = [] ∧
      2 ≤ (transferPreview p).count 0x40)
    ⟨fun h => ⟨h.1, h.2.1, h.2.2⟩, fun h => ⟨h.1, h.2, h.3⟩⟩

/-- The addresses are the runs around the first two `@`. -/
structure Attributed (p : Bytes) : Prop where
  first : Run isWord (transferPreview p) (firstAt (transferPreview p)) (firstEmail p)
  second : Run isWord (transferPreview p) (secondAt (transferPreview p)) (secondEmail p)

theorem transferPreview_length (p : Bytes) : (transferPreview p).length < 2 ^ 64 := by
  have hfilter : (transferPreview p).length ≤ (p.take 512).length := List.length_filterMap_le ..
  rw [List.length_take] at hfilter
  omega

/-- One round of the loop. -/
theorem emails_step {preview : Bytes} {pos : Nat} (h : 0x40 ∈ preview.drop pos) (n : Nat) :
    emails preview (n + 1) pos = emailAt preview (pos + (preview.drop pos).idxOf 0x40) ::
      emails preview n (pos + (preview.drop pos).idxOf 0x40 + 1) := by
  have hpos : pos < preview.length := by
    have := List.length_pos_of_mem h
    rw [List.length_drop] at this
    omega
  rw [emails, if_pos hpos, find_char h]

section

variable {preview : Bytes} (h : 2 ≤ preview.count 0x40)

include h

theorem mem_preview : 0x40 ∈ preview := List.count_pos_iff.1 (by omega)

theorem mem_behind : 0x40 ∈ preview.drop (firstAt preview + 1) := by
  obtain ⟨a, t, ht, ha⟩ := List.eq_append_cons_of_mem (mem_preview h)
  have hfirst : firstAt preview = a.length := by
    rw [firstAt, ht, List.idxOf_append, if_neg ha, List.idxOf_cons_self, Nat.zero_add]
  have hcount : 0 < t.count 0x40 := by
    rw [ht, List.count_append, List.count_eq_zero_of_not_mem ha, List.count_cons_self] at h
    omega
  rw [hfirst, ht, List.drop_length_add_append]
  exact List.count_pos_iff.1 hcount

theorem getElem?_firstAt : preview[firstAt preview]? = some 0x40 :=
  List.getElem?_idxOf (mem_preview h)

theorem getElem?_secondAt : preview[secondAt preview]? = some 0x40 := by
  rw [secondAt, ← List.getElem?_drop]
  exact List.getElem?_idxOf (mem_behind h)

theorem emails_eq : ∃ rest, emails preview 3 0 =
    emailAt preview (firstAt preview) :: emailAt preview (secondAt preview) :: rest := by
  refine ⟨emails preview 1 (secondAt preview + 1), ?_⟩
  have hzero : 0 + (preview.drop 0).idxOf 0x40 = firstAt preview := by
    rw [Nat.zero_add, List.drop_zero, firstAt]
  have hfront : 0x40 ∈ preview.drop 0 := mem_preview h
  rw [emails_step hfront, hzero, emails_step (mem_behind h)]
  rfl

theorem firstAt_eq_zero : firstAt preview = 0 ↔ preview.head? = some 0x40 := by
  have hget := getElem?_firstAt h
  constructor
  · intro hz
    rwa [hz, ← List.head?_eq_getElem?] at hget
  · intro hhead
    cases preview with
    | nil => cases hhead
    | cons c t => rw [Option.some.inj hhead, firstAt, List.idxOf_cons_self]

end

theorem emailAt_first {p : Bytes} (h : ContactBranch p) :
    firstEmail p = emailAt (transferPreview p) (firstAt (transferPreview p)) := by
  obtain ⟨rest, hrest⟩ := emails_eq h.two
  rw [firstEmail, hrest]
  rfl

theorem emailAt_second {p : Bytes} (h : ContactBranch p) :
    secondEmail p = emailAt (transferPreview p) (secondAt (transferPreview p)) := by
  obtain ⟨rest, hrest⟩ := emails_eq h.two
  rw [secondEmail, hrest]
  rfl

/-- The alert shows both, if the first is not empty. -/
theorem transferSnippet_eq {p : Bytes} (h : ContactBranch p) :
    transferSnippet p =
      if !(firstEmail p).isEmpty then
        (lit "Exfiltrated contact list: " ++ firstEmail p ++ lit ", " ++ secondEmail p ++
          lit ", ...", true)
      else ((transferPreview p).take 80, false) := by
  obtain ⟨rest, hrest⟩ := emails_eq h.two
  rw [emailAt_first h, emailAt_second h, transferSnippet, h.noStor, h.noUser, hrest]
  rfl

/-- The evidence is right exactly if the preview does not begin with an `@`,
or ends with the word that it begins with. -/
theorem attributed_iff (p : Bytes) (h : ContactBranch p) :
    Attributed p ↔ (transferPreview p).head? ≠ some 0x40 ∨
      (transferPreview p).takeWhile isWord = (transferPreview p).rtakeWhile isWord := by
  have hshort := transferPreview_length p
  have hfirst := run_emailAt_iff (getElem?_firstAt h.two) hshort
  have hsecond := run_emailAt_iff (getElem?_secondAt h.two) hshort
  have hlater : secondAt (transferPreview p) ≠ 0 := by
    rw [secondAt]
    omega
  rw [ne_eq, firstAt_eq_zero h.two] at hfirst
  rw [← hfirst, ← emailAt_first h]
  constructor
  · intro hattr
    exact hattr.first
  · intro hrun
    refine ⟨hrun, ?_⟩
    rw [emailAt_second h]
    exact hsecond.2 (.inl hlater)

/-- So each of the addresses has its `@`. -/
theorem Attributed.mem {p : Bytes} (h : ContactBranch p) (hattr : Attributed p) :
    0x40 ∈ firstEmail p ∧ 0x40 ∈ secondEmail p := by
  obtain ⟨c, hc, hfirst, -⟩ := mem_of_run hattr.first
  obtain ⟨d, hd, hsecond, -⟩ := mem_of_run hattr.second
  rw [getElem?_firstAt h.two, Option.some.injEq] at hfirst
  rw [getElem?_secondAt h.two, Option.some.injEq] at hsecond
  rw [← hfirst] at hc
  rw [← hsecond] at hd
  exact ⟨hc, hd⟩

theorem attributed_report : Attributed (lit "Password: x mail @ops, bob@corp.example now") :=
  (attributed_iff _ (by decide)).2 (.inl (by decide))

/-- A report on a host, addressed to a channel. -/
def leadingReport : Bytes := lit "@ops Computer Name: PC1 Password: x mail bob@corp.example now"

/-- Its last word is shown as the first of the addresses. -/
theorem leading_at :
    ContactBranch leadingReport ∧ ¬ Attributed leadingReport ∧
      transferSnippet leadingReport =
        (lit "Exfiltrated contact list: now, bob@corp.example, ...", true) := by
  have hbranch : ContactBranch leadingReport := by decide
  have hfirst : firstEmail leadingReport = lit "now" := by decide
  have hsecond : secondEmail leadingReport = lit "bob@corp.example" := by decide
  refine ⟨hbranch, fun h => ?_, ?_⟩
  · obtain ⟨c, hc, hget, -⟩ := mem_of_run h.first
    obtain rfl : c = 0x40 := Option.some.inj (hget.symm.trans (getElem?_firstAt hbranch.two))
    rw [hfirst] at hc
    exact absurd hc (by decide)
  · rw [transferSnippet_eq hbranch, hfirst, hsecond]
    decide

/-! ## The alert -/

/-- The addresses raise the severity unless the preview begins with an `@` and
ends with a delimiter. -/
theorem raised_iff {p : Bytes} (h : ContactBranch p) :
    (transferSnippet p).2 = true ↔ (transferPreview p).head? ≠ some 0x40 ∨
      ∀ c, (transferPreview p).getLast? = some c → isSeparator c = false := by
  have hraised : (transferSnippet p).2 = true ↔ firstEmail p ≠ [] := by
    rw [transferSnippet_eq h]
    cases firstEmail p with
    | nil => exact iff_of_false Bool.false_ne_true (fun hne => hne rfl)
    | cons c w => exact iff_of_true rfl (List.cons_ne_nil c w)
  rw [hraised, emailAt_first h, emailAt_ne_nil_iff (getElem?_firstAt h.two)
    (transferPreview_length p), ne_eq, firstAt_eq_zero h.two]

end Wirewolf.L4.Evidence
