import Freelancing.Files.Uploads
import Mathlib.Data.List.Infix

/-!
# The scanners and their chunks

`app/files/scanner.py` reads an object chunk by chunk. The hash, the leading bytes and what the
virus scanner is sent depend on the content alone. The NUL test looks at the first 4096 bytes of
every chunk, so it depends on the cuts, for the content whose first NUL byte stands behind its first
4096 bytes.
-/

namespace Files

open Money (Err strip isSpace)

variable {cfg : Settings} {bytes : Bytes} {chunks : List Bytes} {mimeType : String}

/-! ## The scanners -/

/-- What a scanner has of the chunks: what it has fed to the digest, and what it has noted. -/
structure Reading where
  digest : Bytes
  seen : ScanState

def Reading.start : Reading := ⟨[], ⟨[], false⟩⟩

def Reading.feed (r : Reading) (chunk : Bytes) : Reading := ⟨r.digest ++ chunk, r.seen.feed chunk⟩

/-- `BasicFileScanner.scan`. -/
def basicScan (cfg : Settings) (chunks : List Bytes) (mimeType : String) : ScanResult :=
  let r := chunks.foldl Reading.feed .start
  let reason := magicMismatch r.seen.leading mimeType r.seen.sawNul
  ⟨reason.isNone, cfg.sha256 r.digest, reason⟩

/-- `struct.pack("!I", n)`. -/
def packLength (n : Nat) : Except Err Bytes :=
  if n < 2 ^ 32 then
    .ok [UInt8.ofNat (n / 2 ^ 24), UInt8.ofNat (n / 2 ^ 16), UInt8.ofNat (n / 2 ^ 8), UInt8.ofNat n]
  else .error (.runtime "'I' format requires 0 <= number <= 4294967295")

def unpackLength (a b c d : UInt8) : Nat :=
  ((a.toNat * 2 ^ 8 + b.toNat) * 2 ^ 8 + c.toNat) * 2 ^ 8 + d.toNat

/-- What is sent of the chunks, and the chunk of length zero behind them. -/
def sendChunks : List Bytes → Except Err Bytes
  | [] => packLength 0
  | chunk :: rest => do return (← packLength chunk.length) ++ chunk ++ (← sendChunks rest)

/-- The content that the daemon reads: chunks behind their lengths, up to one of length zero. -/
def instream : Nat → Bytes → Bytes
  | fuel + 1, a :: b :: c :: d :: sent =>
    let n := unpackLength a b c d
    if n = 0 then [] else sent.take n ++ instream fuel (sent.drop n)
  | _, _ => []

def clamavVerdict (sha256 response : String) : Option String → ScanResult
  | some reason => ⟨false, sha256, some reason⟩
  | none =>
    if hasText "FOUND" response then
      ⟨false, sha256, some (String.ofList ((strip response).toList.take 240))⟩
    else if !hasText "OK" response then
      ⟨false, sha256, some "virus scanner returned an invalid response"⟩
    else ⟨true, sha256, none⟩

/-- `ClamAVScanner.scan`; the daemon answers `cfg.clamav` to the content that it reads. -/
def clamavScan (cfg : Settings) (chunks : List Bytes) (mimeType : String) :
    Except Err ScanResult := do
  let r := chunks.foldl Reading.feed .start
  let sent ← sendChunks chunks
  let response := cfg.clamav (instream sent.length sent)
  return clamavVerdict (cfg.sha256 r.digest) response
    (magicMismatch r.seen.leading mimeType r.seen.sawNul)

/-! ## What a scanner has read -/

/-- A NUL byte near the start of one of the chunks. -/
def nulSeen (chunks : List Bytes) : Bool := chunks.any fun chunk => (chunk.take 4096).contains 0

/-- The scanner has read `all`, in chunks of which one had a NUL byte if `nul`. -/
structure Reading.Read (r : Reading) (all : Bytes) (nul : Bool) : Prop where
  digest : r.digest = all
  leading : r.seen.leading = all.take 16
  sawNul : r.seen.sawNul = nul

theorem Reading.Read.feed {r : Reading} {all : Bytes} {nul : Bool} (h : r.Read all nul)
    (chunk : Bytes) : (r.feed chunk).Read (all ++ chunk) (nul || (chunk.take 4096).contains 0) where
  digest := by simp [Reading.feed, h.digest]
  leading := by
    simp only [Reading.feed, ScanState.feed, h.leading, List.take_append]
    by_cases hlt : all.length < 16
    · have hlen : (all.take 16).length = all.length := by simp; omega
      rw [if_pos (by omega), hlen]
    · have hlen : (all.take 16).length = 16 := by simp; omega
      have hzero : 16 - all.length = 0 := by omega
      rw [if_neg (by omega), hzero]
      simp
  sawNul := by simp [Reading.feed, ScanState.feed, h.sawNul]

theorem Reading.Read.foldl {r : Reading} {all : Bytes} {nul : Bool} (h : r.Read all nul) :
    (chunks.foldl Reading.feed r).Read (all ++ chunks.flatten) (nul || nulSeen chunks) := by
  induction chunks generalizing r all nul with
  | nil => simpa [nulSeen] using h
  | cons chunk chunks ih =>
    have hrest := ih (h.feed chunk)
    rw [List.foldl_cons, List.flatten_cons, ← List.append_assoc]
    rw [Bool.or_assoc] at hrest
    exact hrest

theorem read_chunks (chunks : List Bytes) :
    (chunks.foldl Reading.feed .start).Read chunks.flatten (nulSeen chunks) := by
  have hstart : Reading.start.Read [] false := ⟨rfl, rfl, rfl⟩
  have h : (chunks.foldl Reading.feed .start).Read ([] ++ chunks.flatten)
      (false || nulSeen chunks) :=
    hstart.foldl
  rwa [List.nil_append, Bool.false_or] at h

/-- The result of the basic scanner, from the content and from what the NUL test has found. -/
theorem basicScan_eq : basicScan cfg chunks mimeType =
    let reason := magicMismatch (chunks.flatten.take 16) mimeType (nulSeen chunks)
    ⟨reason.isNone, cfg.sha256 chunks.flatten, reason⟩ := by
  have h := read_chunks chunks
  unfold basicScan
  simp only [h.digest, h.leading, h.sawNul]

/-! ## What the daemon reads -/

theorem unpack_pack {n : Nat} (h : n < 2 ^ 32) :
    unpackLength (UInt8.ofNat (n / 2 ^ 24)) (UInt8.ofNat (n / 2 ^ 16)) (UInt8.ofNat (n / 2 ^ 8))
      (UInt8.ofNat n) = n := by
  simp only [unpackLength, UInt8.toNat_ofNat']
  omega

theorem packLength_ok {n : Nat} (h : n < 2 ^ 32) : packLength n =
    .ok [UInt8.ofNat (n / 2 ^ 24), UInt8.ofNat (n / 2 ^ 16), UInt8.ofNat (n / 2 ^ 8),
      UInt8.ofNat n] :=
  if_pos h

/-- The daemon reads the content, whatever the chunks, if none is empty. -/
theorem instream_sendChunks (hne : ∀ c ∈ chunks, c ≠ []) (hlen : ∀ c ∈ chunks, c.length < 2 ^ 32) :
    ∃ sent, sendChunks chunks = .ok sent ∧
      ∀ fuel, sent.length ≤ fuel → instream fuel sent = chunks.flatten := by
  induction chunks with
  | nil =>
    refine ⟨[0, 0, 0, 0], rfl, ?_⟩
    intro fuel hf
    cases fuel with
    | zero => rfl
    | succ fuel => simp [instream, unpackLength]
  | cons chunk chunks ih =>
    obtain ⟨sent, hsent, hread⟩ := ih (fun c hc => hne c (List.mem_cons_of_mem _ hc))
      (fun c hc => hlen c (List.mem_cons_of_mem _ hc))
    have hn := hlen chunk List.mem_cons_self
    have hpos : chunk.length ≠ 0 := by
      simpa using hne chunk List.mem_cons_self
    refine ⟨_, by rw [sendChunks, packLength_ok hn, hsent]; rfl, ?_⟩
    intro fuel hf
    cases fuel with
    | zero => simp at hf
    | succ fuel =>
      simp only [List.length_append, List.length_cons] at hf
      simp only [List.cons_append, List.nil_append, instream, unpack_pack hn, if_neg hpos,
        List.take_left', List.drop_left', List.flatten_cons]
      rw [hread fuel (by omega)]

theorem sendChunks_error {c : Bytes} (hc : c ∈ chunks) (hlen : 2 ^ 32 ≤ c.length) :
    ∃ e, sendChunks chunks = .error e := by
  induction chunks with
  | nil => simp at hc
  | cons chunk chunks ih =>
    by_cases hchunk : chunk.length < 2 ^ 32
    · have hne : c ≠ chunk := by
        intro he
        rw [he] at hlen
        omega
      obtain ⟨e, he⟩ := ih ((List.mem_cons.1 hc).resolve_left hne)
      exact ⟨e, by rw [sendChunks, packLength_ok hchunk, he]; rfl⟩
    · exact ⟨_, by rw [sendChunks, packLength, if_neg hchunk]; rfl⟩

/-- The result of the virus scanner, from the content and from what the NUL test has found. -/
theorem clamavScan_eq (hne : ∀ c ∈ chunks, c ≠ []) (hlen : ∀ c ∈ chunks, c.length < 2 ^ 32) :
    clamavScan cfg chunks mimeType = .ok (clamavVerdict (cfg.sha256 chunks.flatten)
      (cfg.clamav chunks.flatten)
        (magicMismatch (chunks.flatten.take 16) mimeType (nulSeen chunks))) := by
  have h := read_chunks chunks
  obtain ⟨sent, hsent, hread⟩ := instream_sendChunks hne hlen
  unfold clamavScan
  rw [hsent]
  change Except.ok (clamavVerdict (cfg.sha256 _) (cfg.clamav (instream sent.length sent)) _) = _
  rw [hread sent.length le_rfl, h.digest, h.leading, h.sawNul]

/-- A chunk whose length does not fit into four bytes ends the scan. -/
theorem clamavScan_error {c : Bytes} (hc : c ∈ chunks) (hlen : 2 ^ 32 ≤ c.length) :
    ∃ e, clamavScan cfg chunks mimeType = .error e := by
  obtain ⟨e, he⟩ := sendChunks_error hc hlen
  exact ⟨e, by rw [clamavScan, he]; rfl⟩

/-! ## The worker's scans -/

theorem push_pieces {n : Nat} {piece : Array UInt8} {pieces : Array Bytes}
    (hpiece : 0 < piece.size ∧ piece.size ≤ n) (hpieces : ∀ c ∈ pieces, c ≠ [] ∧ c.length ≤ n) :
    ∀ c ∈ pieces.push piece.toList, c ≠ [] ∧ c.length ≤ n := by
  intro c hc
  rcases Array.mem_push.1 hc with hc | rfl
  · exact hpieces c hc
  · refine ⟨?_, by simpa using hpiece.2⟩
    intro hnil
    rw [← Array.length_toList, hnil] at hpiece
    simp at hpiece

theorem toChunks_go {n : Nat} (hn : 0 < n) (l : Bytes) (piece : Array UInt8) (pieces : Array Bytes)
    (hpiece : 0 < piece.size ∧ piece.size ≤ n) (hpieces : ∀ c ∈ pieces, c ≠ [] ∧ c.length ≤ n) :
    (List.toChunks.go n l piece pieces).flatten = pieces.toList.flatten ++ piece.toList ++ l ∧
      ∀ c ∈ List.toChunks.go n l piece pieces, c ≠ [] ∧ c.length ≤ n := by
  induction l generalizing piece pieces with
  | nil =>
    unfold List.toChunks.go
    refine ⟨by simp, ?_⟩
    intro c hc
    exact push_pieces hpiece hpieces c (by simpa using hc)
  | cons x l ih =>
    unfold List.toChunks.go
    by_cases hfull : piece.size = n
    · rw [if_pos (by simpa using hfull)]
      obtain ⟨hflat, hall⟩ := ih ((Array.mkEmpty n).push x) (pieces.push piece.toList)
        ⟨by simp, by simp; omega⟩ (push_pieces hpiece hpieces)
      exact ⟨by rw [hflat]; simp, hall⟩
    · rw [if_neg (by simpa using hfull)]
      obtain ⟨hflat, hall⟩ := ih (piece.push x) pieces ⟨by simp, by simp; omega⟩ hpieces
      exact ⟨by rw [hflat]; simp, hall⟩

/-- The chunks of `toChunks` are the list, in pieces that are not empty and not longer than `n`. -/
theorem toChunks_spec {n : Nat} (hn : 0 < n) (bytes : Bytes) :
    (bytes.toChunks n).flatten = bytes ∧ ∀ c ∈ bytes.toChunks n, c ≠ [] ∧ c.length ≤ n := by
  cases bytes with
  | nil => simp [List.toChunks]
  | cons x l =>
    cases n with
    | zero => omega
    | succ n =>
      obtain ⟨hflat, hall⟩ := toChunks_go hn l #[x] #[] ⟨by simp, by simp⟩ (by simp)
      exact ⟨by simp [List.toChunks, hflat], hall⟩

theorem foldl_seen (r : Reading) :
    (chunks.foldl Reading.feed r).seen = chunks.foldl ScanState.feed r.seen := by
  induction chunks generalizing r with
  | nil => rfl
  | cons chunk chunks ih => exact ih (r.feed chunk)

theorem clamavResult_eq (reason : Option String) :
    clamavResult cfg bytes reason = clamavVerdict (cfg.sha256 bytes) (cfg.clamav bytes) reason := by
  cases reason <;> rfl

/-- The worker scans with the scanner of its settings, in chunks of 64 KiB. -/
theorem scan_eq (cfg : Settings) (bytes : Bytes) (mimeType : String) :
    if cfg.scannerMode = "basic" then
      basicScan cfg (bytes.toChunks (64 * 1024)) mimeType = scan cfg bytes mimeType
    else clamavScan cfg (bytes.toChunks (64 * 1024)) mimeType = .ok (scan cfg bytes mimeType) := by
  obtain ⟨hflat, hall⟩ := toChunks_spec (n := 64 * 1024) (by omega) bytes
  unfold scan
  generalize bytes.toChunks (64 * 1024) = chunks at hflat hall
  subst hflat
  have hr := read_chunks chunks
  have hseen : chunks.foldl ScanState.feed ⟨[], false⟩ = (chunks.foldl Reading.feed .start).seen :=
    (foldl_seen .start).symm
  by_cases hmode : cfg.scannerMode = "basic"
  · rw [if_pos hmode, if_pos hmode, basicScan_eq, hseen, hr.leading, hr.sawNul]
  · rw [if_neg hmode, if_neg hmode, clamavResult_eq, hseen, hr.leading, hr.sawNul]
    refine clamavScan_eq (fun c hc => (hall c hc).1) ?_
    intro c hc
    have hle := (hall c hc).2
    omega

/-! ## Two ways of cutting -/

/-- The chunks are the bytes, cut into pieces that are not empty. -/
structure Cuts (chunks : List Bytes) (bytes : Bytes) : Prop where
  flatten : chunks.flatten = bytes
  nonempty : ∀ c ∈ chunks, c ≠ []

theorem Cuts.length_le (h : Cuts chunks bytes) {c : Bytes} (hc : c ∈ chunks) :
    c.length ≤ bytes.length := by
  rw [← h.flatten]
  exact (List.sublist_flatten_of_mem hc).length_le

theorem cuts_whole (hne : bytes ≠ []) : Cuts [bytes] bytes where
  flatten := by simp
  nonempty := by simpa using hne

theorem cuts_bytewise (bytes : Bytes) : Cuts (bytes.map fun b => [b]) bytes where
  flatten := by induction bytes <;> simp_all
  nonempty := by simp

/-- The test finds no NUL byte that is not there. -/
theorem mem_of_nulSeen (h : nulSeen chunks = true) : 0 ∈ chunks.flatten := by
  simp only [nulSeen, List.any_eq_true, List.contains_iff_mem] at h
  obtain ⟨c, hc, h⟩ := h
  exact List.mem_flatten.2 ⟨c, hc, List.mem_of_mem_take h⟩

/-- A NUL byte among the first 4096 bytes is found, wherever the cuts are: it stands no further from
the start of its chunk. -/
theorem nulSeen_of_take (h : 0 ∈ chunks.flatten.take 4096) : nulSeen chunks = true := by
  induction chunks with
  | nil => simp at h
  | cons c chunks ih =>
    rw [List.flatten_cons, List.take_append, List.mem_append] at h
    simp only [nulSeen, List.any_cons, Bool.or_eq_true, List.contains_iff_mem]
    rcases h with h | h
    · exact .inl h
    · exact .inr (ih (List.take_subset_take_left _ (Nat.sub_le 4096 c.length) h))

theorem nulSeen_whole : nulSeen [bytes] = true ↔ 0 ∈ bytes.take 4096 := by
  simp [nulSeen]

theorem nulSeen_bytewise : nulSeen (bytes.map fun b => [b]) = true ↔ 0 ∈ bytes := by
  simp [nulSeen]

/-- `mime_type.startswith("text/")`. -/
def IsText (mimeType : String) : Prop := "text/".toList <+: mimeType.toList

instance : Decidable (IsText mimeType) := inferInstanceAs (Decidable (_ <+: _))

/-- If it is a text with a NUL byte, one is among its first 4096 bytes. -/
def NulInFront (bytes : Bytes) (mimeType : String) : Prop :=
  IsText mimeType → 0 ∈ bytes → 0 ∈ bytes.take 4096

theorem magicMismatch_text {leading : Bytes} {nul : Bool} (h : IsText mimeType) :
    magicMismatch leading mimeType nul =
      if nul then some "declared text file contains binary NUL bytes" else none := by
  have hne : ∀ s : String, ¬ IsText s → mimeType ≠ s := by
    intro s hs he
    exact hs (he ▸ h)
  have htext : "text/".toList.isPrefixOf mimeType.toList = true := List.isPrefixOf_iff_prefix.2 h
  unfold magicMismatch
  rw [htext]
  simp [hne "application/pdf" (by decide), hne "image/png" (by decide),
    hne "image/jpeg" (by decide), hne "image/jpg" (by decide)]

theorem magicMismatch_other {leading : Bytes} {nul nul' : Bool} (h : ¬ IsText mimeType) :
    magicMismatch leading mimeType nul = magicMismatch leading mimeType nul' := by
  have htext : "text/".toList.isPrefixOf mimeType.toList = false := by
    rw [← Bool.not_eq_true, List.isPrefixOf_iff_prefix]
    exact h
  unfold magicMismatch
  rw [htext, Bool.false_and, Bool.false_and]

theorem nulSeen_iff (h : NulInFront bytes mimeType) (htext : IsText mimeType)
    (hc : Cuts chunks bytes) : nulSeen chunks = true ↔ 0 ∈ bytes := by
  constructor
  · intro hnul
    rw [← hc.flatten]
    exact mem_of_nulSeen hnul
  · intro hmem
    refine nulSeen_of_take ?_
    rw [hc.flatten]
    exact h htext hmem

/-- Where the first NUL byte is in front, the cuts do not matter. -/
theorem magicMismatch_cuts {chunks' : List Bytes} {leading : Bytes} (h : NulInFront bytes mimeType)
    (hc : Cuts chunks bytes) (hc' : Cuts chunks' bytes) :
    magicMismatch leading mimeType (nulSeen chunks) =
      magicMismatch leading mimeType (nulSeen chunks') := by
  by_cases htext : IsText mimeType
  · have hiff := (nulSeen_iff h htext hc).trans (nulSeen_iff h htext hc').symm
    rw [Bool.eq_iff_iff.2 hiff]
  · exact magicMismatch_other htext

/-! ## What the virus scanner answers -/

theorem hasText_iff {sub s : String} : hasText sub s = true ↔ sub.toList <:+: s.toList := by
  simp [hasText, List.infix_iff_prefix_suffix, and_comm]

/-- A text without white space that is in `l` is in what is left of `l` without leading white
space. -/
theorem infix_dropWhile {w l : List Char} (hw : ∃ c ∈ w, isSpace c = false)
    (hs : ∀ c ∈ w, isSpace c = false) (h : w <:+: l) : w <:+: l.dropWhile isSpace := by
  obtain ⟨a, b, rfl⟩ := h
  rw [List.append_assoc, List.dropWhile_append]
  split
  · cases w with
    | nil => simp at hw
    | cons c w =>
      rw [List.cons_append, List.dropWhile_cons_of_neg (by simp [hs c])]
      exact ⟨[], b, by simp⟩
  · exact ⟨a.dropWhile isSpace, b, by simp⟩

theorem infix_strip {w : List Char} {s : String} (hw : ∃ c ∈ w, isSpace c = false)
    (hs : ∀ c ∈ w, isSpace c = false) (h : w <:+: s.toList) : w <:+: (strip s).toList := by
  unfold strip
  rw [String.toList_ofList, ← List.reverse_infix, List.reverse_reverse]
  refine infix_dropWhile ?_ ?_ ?_
  · simpa using hw
  · simpa using hs
  · rw [List.reverse_infix]
    exact infix_dropWhile hw hs h

/-- No answer of the daemon reads like the reason of the NUL test. -/
theorem clamavVerdict_none_ne (sha256 response : String) :
    clamavVerdict sha256 response none ≠
      clamavVerdict sha256 response (some "declared text file contains binary NUL bytes") := by
  intro h
  have hreason := congrArg ScanResult.reason h
  simp only [clamavVerdict] at hreason
  by_cases hf : hasText "FOUND" response = true
  · rw [if_pos hf, Option.some_inj] at hreason
    have htake : (strip response).toList.take 240 =
        "declared text file contains binary NUL bytes".toList := by
      rw [← hreason, String.toList_ofList]
    have hlen := congrArg List.length htake
    rw [List.length_take, show "declared text file contains binary NUL bytes".toList.length =
      44 by decide] at hlen
    rw [List.take_of_length_le (by omega)] at htake
    have hfound := infix_strip (w := "FOUND".toList) (by simp [isSpace]) (by simp [isSpace])
        (hasText_iff.1 hf)
    rw [htake] at hfound
    exact absurd hfound (by decide)
  · rw [if_neg hf] at hreason
    by_cases ho : hasText "OK" response = true
    · simp [ho] at hreason
    · simp [ho] at hreason

/-! ## The scans of all cuts -/

/-- The scan of the bytes is the same for all ways of cutting them. -/
def CutsAgree {ρ : Type} (scan : List Bytes → ρ) (bytes : Bytes) : Prop :=
  ∀ chunks chunks', Cuts chunks bytes → Cuts chunks' bytes → scan chunks = scan chunks'

/-- A text with a late NUL byte is judged one way as a whole and another way byte by byte. -/
theorem late_nul (h : ¬ NulInFront bytes mimeType) : bytes ≠ [] ∧ ∀ leading,
    magicMismatch leading mimeType (nulSeen [bytes]) = none ∧
      magicMismatch leading mimeType (nulSeen (bytes.map fun b => [b])) =
        some "declared text file contains binary NUL bytes" := by
  unfold NulInFront at h
  push Not at h
  obtain ⟨htext, hmem, hlate⟩ := h
  refine ⟨List.ne_nil_of_mem hmem, ?_⟩
  intro leading
  rw [magicMismatch_text htext, magicMismatch_text htext, nulSeen_bytewise.2 hmem,
    Bool.eq_false_iff.2 (fun hseen => hlate (nulSeen_whole.1 hseen))]
  exact ⟨rfl, rfl⟩

theorem basicScan_agree : CutsAgree (fun chunks => basicScan cfg chunks mimeType) bytes ↔
    NulInFront bytes mimeType := by
  constructor
  · intro h
    by_contra hlate
    obtain ⟨hne, hreason⟩ := late_nul hlate
    have heq := h _ _ (cuts_whole hne) (cuts_bytewise bytes)
    simp only [basicScan_eq, (cuts_whole hne).flatten, (cuts_bytewise bytes).flatten,
      (hreason (bytes.take 16)).1, (hreason (bytes.take 16)).2] at heq
    cases heq
  · intro h chunks chunks' hc hc'
    simp only [basicScan_eq, hc.flatten, hc'.flatten, magicMismatch_cuts h hc hc']

theorem clamavScan_agree : CutsAgree (fun chunks => clamavScan cfg chunks mimeType) bytes ↔
    NulInFront bytes mimeType ∧ bytes.length < 2 ^ 32 := by
  have hscan : ∀ chunks, Cuts chunks bytes → bytes.length < 2 ^ 32 →
      clamavScan cfg chunks mimeType = .ok (clamavVerdict (cfg.sha256 bytes) (cfg.clamav bytes)
        (magicMismatch (bytes.take 16) mimeType (nulSeen chunks))) := by
    intro chunks hc hlen
    rw [clamavScan_eq hc.nonempty (fun c hm => lt_of_le_of_lt (hc.length_le hm) hlen), hc.flatten]
  constructor
  · intro h
    have hlen : bytes.length < 2 ^ 32 := by
      by_contra hlong
      have hne : bytes ≠ [] := by
        intro hnil
        simp [hnil] at hlong
      have herror : ∃ e, clamavScan cfg [bytes] mimeType = .error e :=
        clamavScan_error (List.mem_singleton.2 rfl) (not_lt.1 hlong)
      obtain ⟨e, he⟩ := herror
      have hbytewise : clamavScan cfg (bytes.map fun b => [b]) mimeType = _ :=
        clamavScan_eq (cuts_bytewise bytes).nonempty (by simp)
      have heq : clamavScan cfg [bytes] mimeType =
          clamavScan cfg (bytes.map fun b => [b]) mimeType :=
        h _ _ (cuts_whole hne) (cuts_bytewise bytes)
      rw [he, hbytewise] at heq
      cases heq
    refine ⟨?_, hlen⟩
    by_contra hlate
    obtain ⟨hne, hreason⟩ := late_nul hlate
    have heq : clamavScan cfg [bytes] mimeType = clamavScan cfg (bytes.map fun b => [b]) mimeType :=
      h _ _ (cuts_whole hne) (cuts_bytewise bytes)
    rw [hscan _ (cuts_whole hne) hlen, hscan _ (cuts_bytewise bytes) hlen,
      (hreason (bytes.take 16)).1, (hreason (bytes.take 16)).2, Except.ok.injEq] at heq
    exact clamavVerdict_none_ne _ _ heq
  · intro h chunks chunks' hc hc'
    change clamavScan cfg chunks mimeType = clamavScan cfg chunks' mimeType
    rw [hscan chunks hc h.2, hscan chunks' hc' h.2, magicMismatch_cuts h.1 hc hc']

/-- **When the verdict depends on the content only**: not for a text whose first NUL byte stands
behind its first 4096 bytes, and for the virus scanner only where every chunk's length fits into
four bytes. -/
theorem scan_of_content (cfg : Settings) (bytes : Bytes) (mimeType : String) :
    (CutsAgree (fun chunks => basicScan cfg chunks mimeType) bytes ↔ NulInFront bytes mimeType) ∧
    (CutsAgree (fun chunks => clamavScan cfg chunks mimeType) bytes ↔
      NulInFront bytes mimeType ∧ bytes.length < 2 ^ 32) :=
  ⟨basicScan_agree, clamavScan_agree⟩

/-! ## A late NUL byte -/

def lateNul : Bytes := List.replicate 4096 0x61 ++ [0]

/-- The text is safe in one piece and unsafe in pieces of one byte. -/
theorem lateNul_scanned_twice : ¬ ∀ (cfg : Settings) (bytes : Bytes) (mimeType : String),
    CutsAgree (fun chunks => basicScan cfg chunks mimeType) bytes ∧
      CutsAgree (fun chunks => clamavScan cfg chunks mimeType) bytes := by
  intro h
  have hall := (h ⟨1, "basic", fun _ => "", fun _ => "OK"⟩ lateNul "text/plain").1
  have hmem : 0 ∈ lateNul := List.mem_append_right _ (List.mem_singleton.2 rfl)
  have hfront := basicScan_agree.1 hall (by decide) hmem
  unfold lateNul at hfront
  rw [List.take_left' List.length_replicate] at hfront
  exact absurd (List.mem_replicate.1 hfront).2 (by decide)

end Files
