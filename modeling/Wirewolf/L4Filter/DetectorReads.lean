import Wirewolf.Core.Checked
import Wirewolf.L4Filter.Detectors

/-!
# What the detectors read (`NpuFilter::detect_*`)

The loops of six detectors as the source has them, with a check at every
subscript, `substr`, range of iterators, difference of sizes and division.

* `detectHeartbleed_ok`, `detectFtpActivity_ok`, `detectCredentialContent_ok`,
  `detectHttpBruteforce_ok`, `detectSmbExploit_ok`, `detectRatProtocol_ok`: no
  check fails, and the value is that of the predicate.
* `detectors_safe`: all of them, on every flow.
-/
namespace Wirewolf.L4.DetectorReads

open Wirewolf.L1.IpPacket Wirewolf.L1.TlsHello Wirewolf.Search
open Wirewolf.L4.Detectors (bswap16 isAlpha isPrintable isEmailChar isBase64
  suspiciousPatterns authPaths standardPorts reconMarkers credentialScore)
open Wirewolf.L1.Normalizer (toLower)
open Checked

/-- `p[k]` as an integer. -/
def byte (p : Bytes) (k : Nat) : Checked Nat := UInt8.toNat <$> subscript p k

def be16 (p : Bytes) (k : Nat) : Checked Nat := do
  let high ← byte p k
  let low ← byte p (k + 1)
  return high * 256 + low

/-- `p[k] == pattern[0] && p[k + 1] == pattern[1] && ..` -/
def matchesAt (p : Bytes) (k : Nat) : List Nat → Checked Bool
  | [] => return true
  | c :: pattern => (do return (← byte p k) = c) <&&> matchesAt p (k + 1) pattern

theorem byte_ok {p : Bytes} {k : Nat} (h : k < p.length) : byte p k = .ok (byteAt p k) := by
  rw [byte, subscript_ok h 0]
  rfl

theorem be16_ok {p : Bytes} {k : Nat} (h : k + 1 < p.length) : be16 p k = .ok (be16At p k) := by
  rw [be16, byte_ok (Nat.lt_of_succ_lt h), byte_ok h]
  rfl

theorem matchesAt_ok {p : Bytes} {k : Nat} {pattern : List Nat}
    (h : k + pattern.length ≤ p.length) :
    matchesAt p k pattern = .ok ((pattern.zipIdx k).all fun c => byteAt p c.2 = c.1) := by
  induction pattern generalizing k with
  | nil => rfl
  | cons c pattern ih =>
    rw [List.length_cons] at h
    rw [matchesAt, List.zipIdx_cons, List.all_cons]
    refine andM_ok ?_ fun _ => ih (by omega)
    rw [byte_ok (by omega)]
    rfl

/-! ## Heartbleed -/

/-- mirrors src/src/npu_filter.cpp:152-181 -/
def heartbeatAt (p : Bytes) (i : Nat) : Checked Bool := do
  let contentType ← byte p i
  if contentType ≠ 0x18 then return false
  let major ← byte p (i + 1)
  let minor ← byte p (i + 2)
  if major ≠ 0x03 ∨ 0x03 < minor then return false
  let recordLen ← be16 p (i + 3)
  if p.length < i + 5 + recordLen then return false
  if recordLen < 3 then return false
  let hbType ← byte p (i + 5)
  if hbType ≠ 1 ∧ hbType ≠ 2 then return false
  let hbPayloadLen ← be16 p (i + 6)
  let actualData ← sub recordLen 3
  return actualData + 16 < hbPayloadLen

/-- mirrors src/src/npu_filter.cpp:146-183 -/
def detectHeartbleed (flow : FlowData) : Checked Bool := do
  let p := flow.reassembledPayload
  if p.length < 8 then return false
  (List.range (p.length - 7)).anyM (heartbeatAt p)

theorem heartbeatAt_ok {p : Bytes} {i : Nat} (h : i + 7 < p.length) :
    heartbeatAt p i = .ok (Detectors.heartbeatAt p i) := by
  have htype : byte p i = _ := byte_ok (by omega)
  have hmajor : byte p (i + 1) = _ := byte_ok (by omega)
  have hminor : byte p (i + 2) = _ := byte_ok (by omega)
  have hlen : be16 p (i + 3) = _ := be16_ok (by omega)
  have hkind : byte p (i + 5) = _ := byte_ok (by omega)
  have hclaimed : be16 p (i + 6) = _ := be16_ok (by omega)
  simp only [heartbeatAt, htype, hmajor, hminor, hlen, hkind, hclaimed, ok_bind, pure_eq]
  refine (guard_ok fun _ => guard_ok fun _ => guard_ok fun _ => guard_ok fun hshort =>
    guard_ok fun _ =>
    congrArg (· >>= _) (sub_ok (Nat.le_of_not_lt hshort))).trans ?_
  refine congrArg Except.ok (Bool.eq_iff_iff.2 ?_)
  rw [Detectors.heartbeatAt]
  grind

/-- The bound of the loop is what keeps the record header in the payload. -/
example : heartbeatAt [0x18, 0x03] 0 = .error (.subscript 2 2) := rfl

theorem detectHeartbleed_ok (flow : FlowData) :
    detectHeartbleed flow = .ok (Detectors.detectHeartbleed flow) := by
  unfold detectHeartbleed Detectors.detectHeartbleed
  dsimp only
  split
  · rfl
  · refine anyM_ok fun i hi => heartbeatAt_ok ?_
    rw [List.mem_range] at hi
    omega

/-! ## FTP and credentials -/

/-- mirrors src/src/npu_filter.cpp:226-230 -/
def storName (text : Bytes) : Checked Bytes := do
  let pos ← position (find text (lit "STOR ") 0)
  let filename ← substr text (pos + 5) 200
  match filename.findIdx? fun c => c = 0x0D || c = 0x0A with
  | some eol => substr filename 0 eol
  | none => return filename

/-- mirrors src/src/npu_filter.cpp:242-250 -/
def storCount (text : Bytes) : Checked Nat :=
  forHits text (lit "STOR ") (by decide) (fun n _ => return n + 1) 0 0

/-- mirrors src/src/npu_filter.cpp:208-256 -/
def detectFtpActivity (flow : FlowData) : Checked Bool := do
  let p := flow.reassembledPayload
  if p.length < 10 then return false
  let text ← copy p (min p.length 2048)
  let hasStor := containsSub text (lit "STOR ")
  if containsSub text (lit "USER ") && containsSub text (lit "PASS ") && hasStor then return true
  if !hasStor then return false
  let filename ← storName text
  if suspiciousPatterns.any fun pat => containsSub filename pat then return true
  return 2 ≤ (← storCount text)

/-- mirrors src/src/npu_filter.cpp:333-349 -/
def emailAt (text : Bytes) (i : Nat) : Checked Bool := do
  let validLocal ← (return decide (0 < i)) <&&>
    (do return isEmailChar (← subscript text (← sub i 1)))
  if validLocal && i + 2 < text.length then
    let (domEnd, hasDot) ← scan isEmailChar (fun dot c => dot || c = 0x2E) text text.length
      (i + 1) false
    return hasDot && 4 ≤ (← sub (← sub domEnd i) 1)
  else return false

/-- mirrors src/src/npu_filter.cpp:324-353 -/
def emailLoop (text : Bytes) (pos count : Nat) : Checked Nat :=
  if pos < text.length ∧ count < 6 then
    match hfind : find text [0x40] pos with
    | none => return count
    | some i =>
      have : text.length - (i + 1) < text.length - pos := rest_lt hfind
      if i = 0 then return count
      else do
        let valid ← emailAt text i
        emailLoop text (i + 1) (if valid then count + 1 else count)
  else return count
termination_by text.length - pos

/-- mirrors src/src/npu_filter.cpp:258-359 -/
def detectCredentialContent (flow : FlowData) : Checked Bool := do
  let p := flow.reassembledPayload
  if p.length < 20 then return false
  let scanLen := min p.length 2048
  let printable ← count (fun i => isPrintable <$> subscript p i) (List.range scanLen)
  if (← div printable scanLen) < 85 / 100 then return false
  let text ← copy p scanLen
  let score := credentialScore text
  if score < 3 then
    let emailCount ← emailLoop text 0 0
    return 3 ≤ if 5 ≤ emailCount then score + 3 else score
  else return true

theorem storName_ok {text : Bytes} (h : containsSub text (lit "STOR ") = true) :
    storName text = .ok (Detectors.storName text) := by
  obtain ⟨pos, hpos⟩ := Option.isSome_iff_exists.1 h
  rw [← find_zero] at hpos
  have hle : pos + 5 ≤ text.length := (find_bounds hpos).2
  have hstop : (fun c : UInt8 => c != 0x0D && c != 0x0A) = fun c => !(c = 0x0D || c = 0x0A) := by
    funext c
    rw [Bool.not_or]
    rfl
  rw [storName, Detectors.storName, hpos, position, ok_bind, substr_ok hle, ok_bind]
  dsimp only
  rw [hstop, takeWhile_not]
  cases (Search.substr text (pos + 5) 200).findIdx? fun c =>
    decide (c = 0x0D) || decide (c = 0x0A) with
  | none => rfl
  | some eol => exact substr_ok (Nat.zero_le _) eol

theorem storCount_ok (text : Bytes) :
    storCount text = .ok (occurrences text (lit "STOR ")).length := by
  exact forHits_length _

theorem detectFtpActivity_ok (flow : FlowData) :
    detectFtpActivity flow = .ok (Detectors.detectFtpActivity flow) := by
  unfold detectFtpActivity Detectors.detectFtpActivity
  dsimp only
  split
  · rfl
  rw [copy_min, ok_bind]
  generalize flow.reassembledPayload.take 2048 = text
  split
  · rfl
  cases hstor : containsSub text (lit "STOR ") with
  | false => rfl
  | true =>
    rw [storName_ok hstor, storCount_ok]
    simp only [Bool.not_true, Bool.false_eq_true, if_false, ok_bind, Bool.true_and]
    split
    · rfl
    · rfl

theorem emailAt_ok {text : Bytes} {i : Nat} (h : 0 < i) (hi : i < text.length) :
    emailAt text i = .ok (Detectors.emailAt text i) := by
  have hlocal : ((return decide (0 < i)) <&&> (do return isEmailChar (← subscript text (← sub i 1)))
      : Checked Bool) = .ok (true && isEmailChar (text.getD (i - 1) 0)) := by
    refine andM_ok (by rw [decide_eq_true h]; rfl) fun _ => ?_
    rw [sub_ok h, ok_bind, subscript_ok (by omega) 0]
    rfl
  unfold emailAt Detectors.emailAt
  rw [hlocal, ok_bind, Bool.true_and]
  dsimp only
  generalize isEmailChar (text.getD (i - 1) 0) = validLocal
  by_cases hdomain : (validLocal && decide (i + 2 < text.length)) = true
  · rw [if_pos hdomain, hdomain, scan_ok (Nat.le_refl _), List.take_length, ok_bind]
    generalize (text.drop (i + 1)).takeWhile isEmailChar = domain
    dsimp only
    rw [sub_ok (by omega), ok_bind, sub_ok (by omega), ok_bind, foldl_or,
      show i + 1 + domain.length - i - 1 = domain.length by omega]
    have hdot : domain.any (fun c => c = 0x2E) = decide (0x2E ∈ domain) := by
      rw [Bool.eq_iff_iff, List.any_eq_true, decide_eq_true_eq]
      simp
    rw [hdot]
    rfl
  · rw [if_neg hdomain, eq_false_of_ne_true hdomain]
    rfl

theorem emailLoop_ok (text : Bytes) (pos count : Nat) :
    emailLoop text pos count = .ok (Detectors.emailCount text count (hits text [0x40] pos)) := by
  rw [emailLoop]
  split
  · next hgo =>
    split
    · next hfind =>
      rw [hits_of_none (List.cons_ne_nil _ _) hfind]
      rfl
    · next i hfind =>
      have hbounds := find_bounds hfind
      rw [List.length_singleton] at hbounds
      rw [hits_of_some (List.cons_ne_nil _ _) hfind, Detectors.emailCount, List.length_singleton]
      by_cases hi : i = 0
      · rw [if_pos hi, if_pos (.inr hi)]
        rfl
      · rw [if_neg hi, if_neg (by omega), emailAt_ok (Nat.pos_of_ne_zero hi) hbounds.2, ok_bind]
        exact emailLoop_ok text (i + 1) _
  · next hstop =>
    by_cases hpos : pos < text.length
    · cases hits text [0x40] pos with
      | nil => rfl
      | cons i rest =>
        rw [Detectors.emailCount, if_pos (by omega)]
        rfl
    · rw [hits, List.drop_eq_nil_of_le (Nat.le_of_not_lt hpos)]
      rfl
termination_by text.length - pos

/-- The ratio that the source computes, against the one of the model. -/
theorem ratio_lt {a b : Nat} (h : 0 < b) : (a : Rat) / b < 85 / 100 ↔ ¬ 85 * b ≤ 100 * a := by
  have hb : (0 : Rat) < b := Rat.natCast_pos.2 h
  have hcross : (a : Rat) < 85 / 100 * b ↔ ((100 * a : Nat) : Rat) < (85 * b : Nat) := by
    rw [Rat.natCast_mul, Rat.natCast_mul]
    grind
  rw [Rat.div_lt_iff hb, hcross, Rat.natCast_lt_natCast, Nat.not_le]

theorem detectCredentialContent_ok (flow : FlowData) :
    detectCredentialContent flow = .ok (Detectors.detectCredentialContent flow) := by
  unfold detectCredentialContent Detectors.detectCredentialContent
  dsimp only
  split
  · rfl
  next hlong =>
  have hlen : min flow.reassembledPayload.length 2048 =
      (flow.reassembledPayload.take 2048).length := by
    rw [List.length_take, Nat.min_comm]
  rw [count_front (Nat.min_le_left ..) 0, ok_bind, copy_min, take_min, hlen]
  generalize htext : flow.reassembledPayload.take 2048 = text at hlen
  have hpos : 0 < text.length := by omega
  rw [div_ok _ hpos, ok_bind, Detectors.isText]
  by_cases hratio : 85 * text.length ≤ 100 * text.countP isPrintable
  · rw [if_neg (fun hlt => (ratio_lt hpos).1 hlt hratio), decide_eq_true hratio, ok_bind]
    by_cases hscore : credentialScore text < 3
    · rw [if_pos hscore, emailLoop_ok, hits_zero, ok_bind, if_neg (Nat.not_le.2 hscore)]
      have hadd : (3 ≤ if 5 ≤ Detectors.emailCount text 0 (occurrences text [0x40])
          then credentialScore text + 3 else credentialScore text) ↔
          5 ≤ Detectors.emailCount text 0 (occurrences text [0x40]) := by
        split <;> omega
      rw [decide_eq_decide.2 hadd]
      rfl
    · rw [if_neg hscore, if_pos (Nat.le_of_not_lt hscore)]
      rfl
  · rw [if_pos ((ratio_lt hpos).2 hratio), decide_eq_false hratio]
    rfl

/-! ## HTTP -/

/-- mirrors src/src/npu_filter.cpp:424-429 -/
def postPath (text : Bytes) (pos : Nat) : Checked Bytes := do
  let pathStart := pos + 5
  let pathEnd := (find text [0x20] pathStart).getD (min (pathStart + 256) text.length)
  let path ← substr text pathStart (← sub pathEnd pathStart)
  return path.map toLower

/-- mirrors src/src/npu_filter.cpp:397-437 -/
def detectHttpBruteforce (flow : FlowData) : Checked Bool := do
  let p := flow.reassembledPayload
  if p.length < 50 then return false
  let text ← copy p (min p.length 8192)
  let authPostCount ← forHits text (lit "POST ") (by decide) (fun n pos => do
    let path ← postPath text pos
    return if authPaths.any fun kw => containsSub path kw then n + 1 else n) 0 0
  return 5 ≤ authPostCount

/-- The search ends behind its start. -/
theorem postPath_ok {text : Bytes} {pos : Nat} (h : pos + 5 ≤ text.length) :
    postPath text pos = .ok (Detectors.postPath text pos) := by
  have hend : pos + 5 ≤ (find text [0x20] (pos + 5)).getD (min (pos + 5 + 256) text.length) := by
    cases hfind : find text [0x20] (pos + 5) with
    | none =>
      rw [Option.getD_none]
      omega
    | some pathEnd => exact (find_bounds hfind).1
  simp only [postPath, sub_ok hend, ok_bind, substr_ok h, pure_eq]
  rfl

theorem detectHttpBruteforce_ok (flow : FlowData) :
    detectHttpBruteforce flow = .ok (Detectors.detectHttpBruteforce flow) := by
  unfold detectHttpBruteforce Detectors.detectHttpBruteforce
  dsimp only
  split
  · rfl
  rw [copy_min, ok_bind]
  generalize flow.reassembledPayload.take 8192 = text
  rw [forHits_count _ fun n pos hpos => ?_]
  · rfl
  · rw [postPath_ok (hits_le (by decide) hpos)]
    rfl

/-! ## SMB and RAT -/

/-- mirrors src/src/npu_filter.cpp:470-482 -/
def ipcAt (p : Bytes) (searchEnd j : Nat) : Checked Bool :=
  matchesAt p j [0x49, 0x50, 0x43] <||>
    ((return j + 5 < searchEnd) <&&> matchesAt p j [0x49, 0x00, 0x50, 0x00, 0x43, 0x00])

/-- mirrors src/src/npu_filter.cpp:466-483 -/
def ipcLoop (p : Bytes) (i : Nat) : Checked Bool :=
  let searchEnd := min (i + 200) p.length
  (List.range' (i + 4) (searchEnd - 3 - (i + 4))).anyM (ipcAt p searchEnd)

theorem ipcAt_ok {p : Bytes} {searchEnd j : Nat} (h : j + 3 < searchEnd)
    (hend : searchEnd ≤ p.length) : ipcAt p searchEnd j = .ok (Detectors.ipcAt p j searchEnd) := by
  have hwide : ((return j + 5 < searchEnd) <&&> matchesAt p j [0x49, 0x00, 0x50, 0x00, 0x43, 0x00]
      : Checked Bool) = _ :=
    andM_ok rfl fun hlt =>
      have hlt : j + 5 < searchEnd := of_decide_eq_true hlt
      matchesAt_ok (show j + 6 ≤ p.length by omega)
  refine (orM_ok (matchesAt_ok (show j + 3 ≤ p.length by omega)) fun _ => hwide).trans ?_
  simp [Detectors.ipcAt, List.zipIdx_cons, Bool.and_assoc]

theorem ipcLoop_ok {p : Bytes} {i : Nat} (h : byteAt p (i + 4) = 0x75) :
    ipcLoop p i = .ok (Detectors.treeConnectIpc p i) := by
  unfold ipcLoop Detectors.treeConnectIpc
  dsimp only
  generalize hend : min (i + 200) p.length = searchEnd
  have hread : ∀ j ∈ List.range' (i + 4) (searchEnd - 3 - (i + 4)),
      ipcAt p searchEnd j = .ok (Detectors.ipcAt p j searchEnd) := by
    intro j hj
    rw [List.mem_range'_1] at hj
    exact ipcAt_ok (by omega) (by omega)
  rw [anyM_ok hread, decide_eq_true h, Bool.true_and, List.range'_eq_map_range, List.any_map,
    show searchEnd - 3 - (i + 4) = searchEnd - (i + 7) by omega]
  rfl

/-- What the loop over the payload has seen. -/
structure SmbFlags where
  hasSmbHeader : Bool := false
  hasTreeConnectIpc : Bool := false
  hasTransCommand : Bool := false

/-- mirrors src/src/npu_filter.cpp:456-498 -/
def smbRound (p : Bytes) (f : SmbFlags) (i : Nat) : Checked SmbFlags := do
  if ← matchesAt p i [0xFF, 0x53, 0x4D, 0x42] then
    let cmd ← byte p (i + 4)
    let ipc ← if cmd = 0x75 then ipcLoop p i else pure false
    return {
      hasSmbHeader := true
      hasTreeConnectIpc := f.hasTreeConnectIpc || ipc
      hasTransCommand := f.hasTransCommand || (cmd = 0x25 || cmd = 0x32 || cmd = 0xA0) }
  else return f

/-- mirrors src/src/npu_filter.cpp:439-520 -/
def detectSmbExploit (flow : FlowData) : Checked Bool := do
  let p := flow.reassembledPayload
  if p.length < 100 then return false
  if bswap16 flow.id.srcPort ≠ 445 ∧ bswap16 flow.id.dstPort ≠ 445 then return false
  let f ← (List.range (p.length - 8)).foldlM (smbRound p) {}
  if !f.hasSmbHeader then return false
  return f.hasTreeConnectIpc && f.hasTransCommand && 10000 < p.length

/-- A header, with what its command tells. -/
def SmbFlags.see (p : Bytes) (f : SmbFlags) (i : Nat) : SmbFlags :=
  if Detectors.smbAt p i then
    { hasSmbHeader := true
      hasTreeConnectIpc := f.hasTreeConnectIpc || Detectors.treeConnectIpc p i
      hasTransCommand := f.hasTransCommand || Detectors.transCommand p i }
  else f

theorem smbRound_ok {p : Bytes} {i : Nat} (h : i + 8 < p.length) (f : SmbFlags) :
    smbRound p f i = .ok (f.see p i) := by
  have hmagic : matchesAt p i [0xFF, 0x53, 0x4D, 0x42] = .ok (Detectors.smbAt p i) := by
    rw [matchesAt_ok (show i + 4 ≤ p.length by omega)]
    simp [Detectors.smbAt, List.zipIdx_cons, Bool.and_assoc]
  rw [smbRound, SmbFlags.see, hmagic, ok_bind]
  split
  · rw [byte_ok (by omega), ok_bind]
    by_cases htree : byteAt p (i + 4) = 0x75
    · rw [if_pos htree, ipcLoop_ok htree]
      rfl
    · have hnone : Detectors.treeConnectIpc p i = false := by
        rw [Detectors.treeConnectIpc, decide_eq_false htree, Bool.false_and]
      rw [if_neg htree, hnone]
      rfl
  · rfl

theorem foldl_see (p : Bytes) (l : List Nat) (f : SmbFlags) :
    l.foldl (SmbFlags.see p) f =
      { hasSmbHeader := f.hasSmbHeader || l.any (Detectors.smbAt p)
        hasTreeConnectIpc :=
          f.hasTreeConnectIpc || (l.filter (Detectors.smbAt p)).any (Detectors.treeConnectIpc p)
        hasTransCommand :=
          f.hasTransCommand || (l.filter (Detectors.smbAt p)).any (Detectors.transCommand p) } := by
  induction l generalizing f with
  | nil => simp
  | cons i l ih =>
    rw [List.foldl_cons, ih, SmbFlags.see]
    cases hi : Detectors.smbAt p i with
    | true => simp [hi, Bool.or_assoc]
    | false => simp [hi]

theorem detectSmbExploit_ok (flow : FlowData) :
    detectSmbExploit flow = .ok (Detectors.detectSmbExploit flow) := by
  unfold detectSmbExploit Detectors.detectSmbExploit
  dsimp only
  split
  · rfl
  split
  · rfl
  have hround : ∀ f, ∀ i ∈ List.range (flow.reassembledPayload.length - 8),
      smbRound flow.reassembledPayload f i = .ok (f.see flow.reassembledPayload i) := by
    intro f i hi
    rw [List.mem_range] at hi
    exact smbRound_ok (by omega) f
  rw [foldlM_ok hround, foldl_see, ok_bind]
  simp only [Bool.false_or]
  split
  · next hnone =>
    have hempty : (List.range (flow.reassembledPayload.length - 8)).filter
        (Detectors.smbAt flow.reassembledPayload) = [] := by
      rw [Bool.not_eq_true', List.any_eq_false] at hnone
      exact List.filter_eq_nil_iff.2 hnone
    rw [hempty]
    rfl
  · rfl

/-- mirrors src/src/npu_filter.cpp:550-558 -/
def delimCount (text : Bytes) : Checked Nat :=
  forHits text (lit "|'|'|") (by decide) (fun n _ => return n + 1) 0 0

/-- mirrors src/src/npu_filter.cpp:567-591 -/
def commandAt (p : Bytes) (scanLen i : Nat) : Checked Bool :=
  (do return (← byte p i) = 0x00) <&&> (return 0 < i && i < 10) <&&>
    (List.range i).allM (fun j => isDigit <$> subscript p j) <&&>
    (List.range' (i + 1) (min (i + 4) scanLen - (i + 1))).allM fun j => isAlpha <$> subscript p j

theorem commandAt_ok {p : Bytes} {scanLen i : Nat} (hi : i < scanLen) (h : scanLen ≤ p.length) :
    commandAt p scanLen i = .ok (Detectors.commandAt (p.take scanLen) scanLen i) := by
  have hnull : byteAt (p.take scanLen) i = byteAt p i := by
    rw [byteAt, byteAt, List.getD_eq_getElem?_getD, List.getElem?_take_of_lt hi,
      ← List.getD_eq_getElem?_getD]
  have hzero : (do return (← byte p i) = 0x00 : Checked Bool) =
      .ok (decide (byteAt p i = 0x00)) := by
    rw [byte_ok (by omega)]
    rfl
  have hfront : (List.range i).allM (fun j => isDigit <$> subscript p j) = _ :=
    allM_front (by omega) 0 isDigit
  have hbehind : (List.range' (i + 1) (min (i + 4) scanLen - (i + 1))).allM
      (fun j => isAlpha <$> subscript p j) = _ := allM_slice (by omega) 0 isAlpha
  refine (andM_ok hzero fun _ => andM_ok rfl fun _ => andM_ok hfront fun _ => hbehind).trans ?_
  rw [Detectors.commandAt, hnull, List.take_take, List.take_take, Nat.min_eq_left (Nat.le_of_lt hi),
    Nat.min_eq_left (Nat.min_le_right ..)]
  simp only [Bool.and_assoc]

/-- mirrors src/src/npu_filter.cpp:616-630 -/
def base64Loop (p : Bytes) (scanLen i runs : Nat) : Checked Nat :=
  if hi : i < scanLen then
    match hscan : scan isBase64 (fun _ _ => ()) p scanLen i () with
    | .error fault => .error fault
    | .ok (j, _) =>
      have : scanLen - (j + 1) < scanLen - i := by
        have := scan_le hscan
        omega
      do
        let run ← sub j i
        base64Loop p scanLen (j + 1) (if 20 ≤ run then runs + 1 else runs)
  else return runs
termination_by scanLen - i

/-- The run that a text begins with, and those behind it. -/
theorem base64Runs_eq (run : Nat) (t : Bytes) :
    Detectors.base64Runs run t =
      (if 20 ≤ run + (t.takeWhile isBase64).length then 1 else 0) +
        Detectors.base64Runs 0 (t.drop ((t.takeWhile isBase64).length + 1)) := by
  induction t generalizing run with
  | nil => rfl
  | cons c t ih =>
    rw [Detectors.base64Runs, List.takeWhile_cons]
    cases isBase64 c with
    | true =>
      rw [if_pos rfl, if_pos rfl, ih (run + 1), List.length_cons, List.drop_succ_cons,
        Nat.add_right_comm, Nat.add_assoc]
    | false => rfl

theorem base64Loop_ok {p : Bytes} {scanLen : Nat} (h : scanLen ≤ p.length) (i runs : Nat) :
    base64Loop p scanLen i runs =
      .ok (runs + Detectors.base64Runs 0 ((p.take scanLen).drop i)) := by
  rw [base64Loop]
  split
  · next hi =>
    split
    · next fault hscan =>
      rw [scan_ok h] at hscan
      cases hscan
    · next j _ hscan =>
      rw [scan_ok h] at hscan
      have hj : i + (((p.take scanLen).drop i).takeWhile isBase64).length = j := by
        injection hscan with hpair
        exact congrArg Prod.fst hpair
      dsimp only
      rw [sub_ok (by omega), ok_bind, base64Loop_ok h (j + 1),
        base64Runs_eq 0 ((p.take scanLen).drop i)]
      generalize (((p.take scanLen).drop i).takeWhile isBase64).length = n at hj
      subst hj
      rw [Nat.add_sub_cancel_left, Nat.zero_add, List.drop_drop, Nat.add_assoc i]
      split
      · rw [Nat.add_assoc]
      · rw [Nat.zero_add]
  · next hi =>
    rw [List.drop_eq_nil_of_le (by rw [List.length_take]; omega)]
    rfl
termination_by scanLen - i

/-- mirrors src/src/npu_filter.cpp:522-645 -/
def detectRatProtocol (flow : FlowData) : Checked Bool := do
  let p := flow.reassembledPayload
  if p.length < 20 then return false
  if bswap16 flow.id.srcPort ∈ standardPorts ∨ bswap16 flow.id.dstPort ∈ standardPorts then
    return false
  let scanLen := min p.length 4096
  let text ← copy p scanLen
  let delims ← delimCount text
  let cmds ← count (commandAt p scanLen) (List.range (scanLen - 5))
  let reconHits := reconMarkers.countP fun marker => containsSub text marker
  let b64Runs ← base64Loop p scanLen 0 0
  return 4 ≤ (if 3 ≤ delims then 4 else 0) + (if 2 ≤ cmds then 2 else 0) +
    (if 2 ≤ reconHits then 2 else 0) + (if 3 ≤ b64Runs then 1 else 0)

theorem detectRatProtocol_ok (flow : FlowData) :
    detectRatProtocol flow = .ok (Detectors.detectRatProtocol flow) := by
  unfold detectRatProtocol Detectors.detectRatProtocol
  dsimp only
  split
  · rfl
  split
  · rfl
  have hlen : min flow.reassembledPayload.length 4096 =
      (flow.reassembledPayload.take 4096).length := by
    rw [List.length_take, Nat.min_comm]
  have hdelims : ∀ text, delimCount text = .ok (occurrences text (lit "|'|'|")).length :=
    fun text => forHits_length _
  have hcmds := count_ok (l := List.range (min flow.reassembledPayload.length 4096 - 5)) fun i hi =>
    commandAt_ok (p := flow.reassembledPayload)
      (Nat.lt_of_lt_of_le (List.mem_range.1 hi) (Nat.sub_le ..)) (Nat.min_le_left ..)
  rw [copy_min, ok_bind, hdelims, ok_bind, hcmds, ok_bind,
    base64Loop_ok (Nat.min_le_left ..), ok_bind,
    take_min, hlen]
  rw [Nat.zero_add, List.drop_zero]
  rfl

/-- On every flow the six detectors end with a value: they read below the
size, take substrings that start within the text and divide by no zero. -/
theorem detectors_safe (flow : FlowData) :
    detectHeartbleed flow = .ok (Detectors.detectHeartbleed flow) ∧
      detectSmbExploit flow = .ok (Detectors.detectSmbExploit flow) ∧
      detectRatProtocol flow = .ok (Detectors.detectRatProtocol flow) ∧
      detectCredentialContent flow = .ok (Detectors.detectCredentialContent flow) ∧
      detectFtpActivity flow = .ok (Detectors.detectFtpActivity flow) ∧
      detectHttpBruteforce flow = .ok (Detectors.detectHttpBruteforce flow) :=
  ⟨detectHeartbleed_ok flow, detectSmbExploit_ok flow, detectRatProtocol_ok flow,
    detectCredentialContent_ok flow, detectFtpActivity_ok flow, detectHttpBruteforce_ok flow⟩

end Wirewolf.L4.DetectorReads
