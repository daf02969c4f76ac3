import Mathlib.Data.List.DropRight

/-!
# Paths of URLs

What the URL parser makes of a path, for a scheme with a host: slashes and backslashes separate
segments, the characters of the path set are percent-encoded, and segments of dots, in every
spelling, stay where they are or go up. Decoded, the path is what is left of the decoded pieces when
each double dot takes away the nearest piece before it (`decode_pathState`, `walk_eq`): no escape
reaches over a slash (`decode_append_slash`), and the dot segments are those that decode to dots
(`isDoubleDot_iff`).
-/

namespace UrlPath

/-! ## Walks -/

inductive Move (α : Type)
  | into (a : α)
  | up
  | stay

section
variable {α : Type}

/-- Where a walk ends that starts behind the steps of `path`. There is nothing above the root. -/
def walk (path : List α) : List (Move α) → List α
  | [] => path
  | .into a :: moves => walk (path ++ [a]) moves
  | .up :: moves => walk path.dropLast moves
  | .stay :: moves => walk path moves

/-- How far a walk gets above its start. -/
def climb : List (Move α) → Nat
  | [] => 0
  | .into _ :: moves => climb moves - 1
  | .up :: moves => climb moves + 1
  | .stay :: moves => climb moves

/-- The steps that nothing behind them takes back. -/
def left : List (Move α) → List α
  | [] => []
  | .into a :: moves => if climb moves = 0 then a :: left moves else left moves
  | .up :: moves => left moves
  | .stay :: moves => left moves

theorem walk_eq (path : List α) (moves : List (Move α)) :
    walk path moves = path.take (path.length - climb moves) ++ left moves := by
  induction moves generalizing path with
  | nil => simp [walk, climb, left]
  | cons m moves ih =>
    cases m with
    | stay => exact ih path
    | up =>
      rw [walk, ih, climb, left, List.dropLast_eq_take, List.take_take, List.length_take]
      congr 2
      omega
    | into a =>
      rw [walk, ih, climb, left]
      by_cases h : climb moves = 0
      · have htake : (path ++ [a]).take (path.length + 1) = path ++ [a] :=
          List.take_of_length_le (by simp)
        simp [h, htake]
      · have hlen : (path ++ [a]).length - climb moves = path.length - (climb moves - 1) := by
          rw [List.length_append, List.length_singleton]
          omega
        rw [if_neg h, hlen, List.take_append_of_le_length (by omega)]

end

/-! ## Percent-encoding -/

/-- The bytes of a text in UTF-8. -/
def utf8 (s : List Char) : List UInt8 := s.flatMap String.utf8EncodeChar

def bytes (s : String) : List UInt8 := utf8 s.toList

def isHex (b : UInt8) : Bool := (48 ≤ b && b ≤ 57) || (65 ≤ b && b ≤ 70) || (97 ≤ b && b ≤ 102)

def hexValue (b : UInt8) : Nat :=
  if b ≤ 57 then b.toNat - 48 else if b ≤ 70 then b.toNat - 55 else b.toNat - 87

def hexDigit (n : Nat) : UInt8 := UInt8.ofNat (if n < 10 then 48 + n else 55 + n)

/-- Percent-decoding. What is no escape stays as it is. -/
def decode : List UInt8 → List UInt8
  | c :: a :: b :: s =>
    if c = 37 ∧ isHex a ∧ isHex b then UInt8.ofNat (16 * hexValue a + hexValue b) :: decode s
    else c :: decode (a :: b :: s)
  | s => s

/-- The path percent-encode set. -/
def inPathSet (b : UInt8) : Bool :=
  b < 0x20 || b > 0x7e || [0x20, 0x22, 0x23, 0x3c, 0x3e, 0x3f, 0x5e, 0x60, 0x7b, 0x7d].contains b

def encodeByte (b : UInt8) : List UInt8 :=
  if inPathSet b then [37, hexDigit (b.toNat / 16), hexDigit (b.toNat % 16)] else [b]

def encode (s : List Char) : List UInt8 := (utf8 s).flatMap encodeByte

/-- Two hexadecimal digits in front, as behind the percent sign of an escape. -/
def startsHex : List UInt8 → Bool
  | a :: b :: _ => isHex a && isHex b
  | _ => false

theorem forall_byte {P : UInt8 → Prop} (h : ∀ n < 256, P (UInt8.ofNat n)) (b : UInt8) : P b := by
  have hb := h b.toNat b.toNat_lt
  rwa [UInt8.ofNat_toNat] at hb

theorem hexDigit_spec : ∀ n < 16, isHex (hexDigit n) = true ∧ hexValue (hexDigit n) = n := by decide

theorem isHex_of_inPathSet (b : UInt8) : inPathSet b = true → isHex b = false :=
  forall_byte (P := fun b => inPathSet b = true → isHex b = false) (by decide +kernel) b

theorem decode_cons {c : UInt8} {s : List UInt8} (h : ¬ (c = 37 ∧ startsHex s = true)) :
    decode (c :: s) = c :: decode s := by
  match s with
  | [] => rfl
  | [_] => rfl
  | a :: b :: s =>
    rw [decode, if_neg]
    intro he
    exact h ⟨he.1, by simp [startsHex, he.2]⟩

theorem decode_escape {a b : UInt8} (ha : isHex a = true) (hb : isHex b = true) (s : List UInt8) :
    decode (37 :: a :: b :: s) = UInt8.ofNat (16 * hexValue a + hexValue b) :: decode s := by
  rw [decode, if_pos ⟨rfl, ha, hb⟩]

/-- A list of bytes is read from the front, by escapes and other bytes. -/
theorem escape_induction {P : List UInt8 → Prop} (nil : P [])
    (byte : ∀ c s, ¬ (c = 37 ∧ startsHex s = true) → P s → P (c :: s))
    (escape : ∀ a b s, isHex a = true → isHex b = true → P s → P (37 :: a :: b :: s))
    (s : List UInt8) : P s := by
  induction hn : s.length using Nat.strong_induction_on generalizing s with
  | _ n ih =>
    cases s with
    | nil => exact nil
    | cons c s =>
      subst hn
      by_cases h : c = 37 ∧ startsHex s = true
      · obtain ⟨rfl, h⟩ := h
        match s with
        | [] => cases h
        | [_] => cases h
        | a :: b :: s =>
          simp only [startsHex, Bool.and_eq_true] at h
          exact escape a b s h.1 h.2 (ih s.length (by simp; omega) s rfl)
      · exact byte c s h (ih s.length (by simp) s rfl)

theorem decode_encodeByte {b : UInt8} (hb : b ≠ 37) (s : List UInt8) :
    decode (encodeByte b ++ s) = b :: decode s := by
  unfold encodeByte
  by_cases h : inPathSet b = true
  · have hlt := b.toNat_lt
    obtain ⟨ha, hav⟩ := hexDigit_spec (b.toNat / 16) (by omega)
    obtain ⟨hc, hcv⟩ := hexDigit_spec (b.toNat % 16) (by omega)
    have hval : 16 * (b.toNat / 16) + b.toNat % 16 = b.toNat := Nat.div_add_mod b.toNat 16
    rw [if_pos h, List.cons_append, List.cons_append, List.cons_append, List.nil_append,
      decode_escape ha hc, hav, hcv, hval, UInt8.ofNat_toNat]
  · rw [if_neg h]
    exact decode_cons fun he => hb he.1

/-- The first byte of an encoded byte: the byte itself, or a percent sign in place of a byte that is
no digit. -/
theorem encodeByte_cases (b : UInt8) :
    encodeByte b = [b] ∨ isHex b = false ∧ ∃ s, encodeByte b = 37 :: s := by
  unfold encodeByte
  by_cases h : inPathSet b = true
  · rw [if_pos h]
    exact .inr ⟨isHex_of_inPathSet b h, _, rfl⟩
  · rw [if_neg h]
    exact .inl rfl

theorem startsHex_encode (s : List UInt8) : startsHex (s.flatMap encodeByte) = startsHex s := by
  have hpct : isHex 37 = false := rfl
  have hfirst : ∀ b t, isHex b = false → startsHex (b :: t) = false := by
    intro b t hb
    cases t <;> simp [startsHex, hb]
  match s with
  | [] => rfl
  | [a] =>
    rcases encodeByte_cases a with ha | ⟨ha, t, ht⟩
    · simp [ha, startsHex]
    · simp only [List.flatMap_cons, ht, List.cons_append, hfirst _ _ hpct, hfirst _ _ ha]
  | a :: b :: s =>
    rcases encodeByte_cases a with ha | ⟨ha, t, ht⟩
    · rcases encodeByte_cases b with hb | ⟨hb, t, ht⟩
      · simp [ha, hb, startsHex]
      · simp [ha, ht, startsHex, hb, hpct]
    · simp only [List.flatMap_cons, ht, List.cons_append, hfirst _ _ hpct, hfirst _ _ ha]

/-- Decoding what was encoded is decoding what was not: the escapes that were there stay escapes. -/
theorem decode_flatMap_encodeByte (s : List UInt8) : decode (s.flatMap encodeByte) = decode s := by
  induction s using escape_induction with
  | nil => rfl
  | byte c s h ih =>
    rw [List.flatMap_cons, decode_cons h]
    by_cases hc : c = 37
    · have hs : ¬ (c = 37 ∧ startsHex (s.flatMap encodeByte) = true) := by
        rwa [startsHex_encode]
      have henc : encodeByte c = [c] := by rw [hc]; rfl
      rw [henc, List.singleton_append, decode_cons hs, ih]
    · rw [decode_encodeByte hc, ih]
  | escape a b s ha hb ih =>
    have hset : ∀ d, isHex d = true → encodeByte d = [d] := by
      intro d hd
      rcases encodeByte_cases d with h | ⟨h, -⟩
      · exact h
      · rw [h] at hd
        cases hd
    have hpct : encodeByte 37 = [37] := rfl
    simp only [List.flatMap_cons, hpct, hset a ha, hset b hb, List.singleton_append]
    rw [decode_escape ha hb, decode_escape ha hb, ih]

/-- No escape reaches over a slash. -/
theorem decode_append_slash (s t : List UInt8) :
    decode (s ++ 47 :: t) = decode s ++ 47 :: decode t := by
  induction s using escape_induction with
  | nil => exact decode_cons (by simp)
  | byte c s h ih =>
    have happ : ¬ (c = 37 ∧ startsHex (s ++ 47 :: t) = true) := by
      intro he
      refine h ⟨he.1, ?_⟩
      match s, he.2 with
      | [], h47 => cases t <;> simp [startsHex, isHex] at h47
      | [a], h47 => simp [startsHex, isHex] at h47
      | _ :: _ :: _, h47 => exact h47
    rw [List.cons_append, decode_cons happ, decode_cons h, ih]
    rfl
  | escape a b s ha hb ih =>
    simp only [List.cons_append]
    rw [decode_escape ha hb, decode_escape ha hb, ih]
    rfl

/-! ## Dot segments -/

def lower (b : UInt8) : UInt8 := if 65 ≤ b ∧ b ≤ 90 then b + 32 else b

def isSingleDot (segment : List UInt8) :
    Bool := [bytes ".", bytes "%2e"].contains (segment.map lower)

def isDoubleDot (segment : List UInt8) : Bool :=
  [bytes "..", bytes ".%2e", bytes "%2e.", bytes "%2e%2e"].contains (segment.map lower)

theorem lower_eq_iff (b : UInt8) :
    (lower b = 37 ↔ b = 37) ∧ (lower b = 46 ↔ b = 46) ∧ (lower b = 50 ↔ b = 50) :=
  forall_byte (P := fun b => (lower b = 37 ↔ b = 37) ∧ (lower b = 46 ↔ b = 46) ∧
    (lower b = 50 ↔ b = 50)) (by decide +kernel) b

theorem hexValue_spec (b : UInt8) : (isHex b = true → hexValue b < 16) ∧
    (isHex b = true ∧ hexValue b = 2 ↔ b = 50) ∧
      (isHex b = true ∧ hexValue b = 14 ↔ lower b = 101) :=
  forall_byte (P := fun b => (isHex b = true → hexValue b < 16) ∧
    (isHex b = true ∧ hexValue b = 2 ↔ b = 50) ∧ (isHex b = true ∧ hexValue b = 14 ↔ lower b = 101))
    (by decide +kernel) b

/-- The escapes of a dot. -/
theorem escape_eq_dot (a b : UInt8) : (isHex a = true ∧ isHex b = true ∧
    UInt8.ofNat (16 * hexValue a + hexValue b) = 46) ↔ a = 50 ∧ lower b = 101 := by
  obtain ⟨ha, ha', -⟩ := hexValue_spec a
  obtain ⟨hb, -, hb'⟩ := hexValue_spec b
  rw [← ha', ← hb']
  constructor
  · intro h
    obtain ⟨hxa, hxb, hval⟩ := h
    have hlta := ha hxa
    have hltb := hb hxb
    have hnat := congrArg UInt8.toNat hval
    have hsize : UInt8.size = 256 := rfl
    rw [UInt8.toNat_ofNat_of_lt' (by omega)] at hnat
    have h46 : 16 * hexValue a + hexValue b = 46 := hnat
    exact ⟨⟨hxa, by omega⟩, hxb, by omega⟩
  · intro h
    obtain ⟨⟨hxa, hva⟩, hxb, hvb⟩ := h
    refine ⟨hxa, hxb, ?_⟩
    rw [hva, hvb]
    rfl

theorem decode_eq_nil {s : List UInt8} (h : decode s = []) : s = [] := by
  induction s using escape_induction with
  | nil => rfl
  | byte c s hc _ =>
    rw [decode_cons hc] at h
    cases h
  | escape a b s ha hb _ =>
    rw [decode_escape ha hb] at h
    cases h

/-- What decodes to a dot and more starts with a dot, or with an escape of it. -/
theorem decode_eq_dot {s t : List UInt8} : decode s = 46 :: t ↔ ∃ u, decode u = t ∧
    (s = 46 :: u ∨ ∃ e, lower e = 101 ∧ s = 37 :: 50 :: e :: u) := by
  constructor
  · intro h
    induction s using escape_induction with
    | nil => cases h
    | byte c s hc _ =>
      rw [decode_cons hc] at h
      obtain ⟨rfl, ht⟩ := List.cons.inj h
      exact ⟨s, ht, .inl rfl⟩
    | escape a b s ha hb _ =>
      rw [decode_escape ha hb] at h
      obtain ⟨hval, ht⟩ := List.cons.inj h
      obtain ⟨rfl, he⟩ := (escape_eq_dot a b).1 ⟨ha, hb, hval⟩
      exact ⟨s, ht, .inr ⟨b, he, rfl⟩⟩
  · intro h
    obtain ⟨u, rfl, rfl | ⟨e, he, rfl⟩⟩ := h
    · exact decode_cons (by simp)
    · obtain ⟨ha, hb, hval⟩ := (escape_eq_dot 50 e).2 ⟨rfl, he⟩
      rw [decode_escape ha hb, hval]

/-- The spellings of a dot in front, with the letter of the escape in either case. -/
theorem map_lower_dot {s t : List UInt8} :
    s.map lower = 46 :: t ↔ ∃ u, u.map lower = t ∧ s = 46 :: u := by
  constructor
  · intro h
    obtain ⟨a, u, rfl, ha, hu⟩ := List.map_eq_cons_iff.1 h
    exact ⟨u, hu, by rw [(lower_eq_iff a).2.1.1 ha]⟩
  · intro h
    obtain ⟨u, rfl, rfl⟩ := h
    rfl

theorem map_lower_escape {s t : List UInt8} : s.map lower = 37 :: 50 :: 101 :: t ↔
    ∃ u, u.map lower = t ∧ ∃ e, lower e = 101 ∧ s = 37 :: 50 :: e :: u := by
  constructor
  · intro h
    obtain ⟨a, u, rfl, ha, hu⟩ := List.map_eq_cons_iff.1 h
    obtain ⟨b, u, rfl, hb, hu⟩ := List.map_eq_cons_iff.1 hu
    obtain ⟨e, u, rfl, he, hu⟩ := List.map_eq_cons_iff.1 hu
    exact ⟨u, hu, e, he, by rw [(lower_eq_iff a).1.1 ha, (lower_eq_iff b).2.2.1 hb]⟩
  · intro h
    obtain ⟨u, rfl, e, he, rfl⟩ := h
    rw [List.map_cons, List.map_cons, List.map_cons, he]
    rfl

theorem decode_eq_nil_iff {s : List UInt8} : decode s = [] ↔ s.map lower = [] := by
  rw [List.map_eq_nil_iff]
  exact ⟨decode_eq_nil, fun h => by rw [h]; rfl⟩

theorem decode_eq_single {s : List UInt8} :
    decode s = [46] ↔ s.map lower = [46] ∨ s.map lower = [37, 50, 101] := by
  simp only [decode_eq_dot, map_lower_dot, map_lower_escape, decode_eq_nil_iff]
  constructor
  · intro h
    obtain ⟨u, hu, h | h⟩ := h
    · exact .inl ⟨u, hu, h⟩
    · exact .inr ⟨u, hu, h⟩
  · intro h
    obtain ⟨u, hu, h⟩ | ⟨u, hu, h⟩ := h
    · exact ⟨u, hu, .inl h⟩
    · exact ⟨u, hu, .inr h⟩

/-- The single-dot segments are those that decode to a dot. -/
theorem isSingleDot_iff {segment : List UInt8} :
    isSingleDot segment = true ↔ decode segment = bytes "." := by
  have hdot : bytes "." = [46] := rfl
  have hesc : bytes "%2e" = [37, 50, 101] := rfl
  rw [hdot, decode_eq_single]
  simp [isSingleDot, hdot, hesc]

theorem isDoubleDot_iff {segment : List UInt8} :
    isDoubleDot segment = true ↔ decode segment = bytes ".." := by
  have h0 : bytes ".." = [46, 46] := rfl
  have h1 : bytes ".%2e" = [46, 37, 50, 101] := rfl
  have h2 : bytes "%2e." = [37, 50, 101, 46] := rfl
  have h3 : bytes "%2e%2e" = [37, 50, 101, 37, 50, 101] := rfl
  rw [h0, decode_eq_dot]
  simp only [isDoubleDot, h0, h1, h2, h3, List.contains_iff_mem, List.mem_cons,
    List.not_mem_nil, or_false, map_lower_dot (t := [46]), map_lower_dot (t := [37, 50, 101]),
    map_lower_escape (t := [46]), map_lower_escape (t := [37, 50, 101]), decode_eq_single]
  constructor
  · intro h
    obtain ⟨u, hu, h⟩ | ⟨u, hu, h⟩ | ⟨u, hu, h⟩ | ⟨u, hu, h⟩ := h
    · exact ⟨u, .inl hu, .inl h⟩
    · exact ⟨u, .inr hu, .inl h⟩
    · exact ⟨u, .inl hu, .inr h⟩
    · exact ⟨u, .inr hu, .inr h⟩
  · intro h
    obtain ⟨u, hu | hu, h | h⟩ := h
    · exact .inl ⟨u, hu, h⟩
    · exact .inr (.inr (.inl ⟨u, hu, h⟩))
    · exact .inr (.inl ⟨u, hu, h⟩)
    · exact .inr (.inr (.inr ⟨u, hu, h⟩))

/-! ## The path state -/

abbrev Segment := List UInt8

/-- The end of a segment at a slash. -/
def push (path : List Segment) (buffer : Segment) : List Segment :=
  if isDoubleDot buffer then path.dropLast
  else if isSingleDot buffer then path
  else path ++ [buffer]

/-- The end of the last segment: dots leave an empty one. -/
def finish (path : List Segment) (buffer : Segment) : List Segment :=
  if isDoubleDot buffer then path.dropLast ++ [[]]
  else if isSingleDot buffer then path ++ [[]]
  else path ++ [buffer]

def pathState (path : List Segment) (buffer : Segment) : List Char → List Segment
  | [] => finish path buffer
  | c :: s =>
    if c = '/' ∨ c = '\\' then pathState (push path buffer) [] s
    else if c = '?' ∨ c = '#' then finish path buffer
    else pathState path (buffer ++ encode [c]) s

/-- The path serializer. -/
def serialize (path : List Segment) : List UInt8 := path.flatMap (47 :: ·)

def isC0Space (c : Char) : Bool := c ≤ ' '

def isTabOrNewline (c : Char) : Bool := c = '\t' || c = '\n' || c = '\r'

/-- What the parser leaves out before it starts. -/
def clean (input : List Char) : List Char :=
  ((input.dropWhile isC0Space).rdropWhile isC0Space).filter fun c => !isTabOrNewline c

/-- `new URL(input, base).pathname`, for an input that names no host and starts at the root. -/
def pathname (input : List Char) : Option (List UInt8) :=
  match clean input with
  | '/' :: s =>
    if s.head? = some '/' ∨ s.head? = some '\\' then none else some (serialize (pathState [] [] s))
  | _ => none

/-! ## Pieces -/

def isSlash (c : Char) : Bool := c = '/' || c = '\\'

/-- The pieces of the path that a text has in front of a query or a fragment. -/
def pieces (s : List Char) : List (List Char) :=
  (s.takeWhile fun c => c ≠ '?' && c ≠ '#').splitOnP isSlash

def move (piece : Segment) : Move Segment :=
  if piece = bytes ".." then .up else if piece = bytes "." then .stay else .into piece

/-- The moves that decoded pieces stand for. Dots at the end go into the empty segment. -/
def moves : List Segment → List (Move Segment)
  | [] => []
  | [piece] =>
    match move piece with
    | .into piece => [.into piece]
    | m => [m, .into []]
  | piece :: pieces => move piece :: moves pieces

/-- Where the path state gets from what it has read and the segments to come. -/
def close (path : List Segment) : List Segment → List Segment
  | [] => path
  | [segment] => finish path segment
  | segment :: segments => close (push path segment) segments

theorem pieces_cons {c : Char} (h : ¬ (c = '?' ∨ c = '#')) (s : List Char) : pieces (c :: s) =
    if isSlash c then [] :: pieces s else (pieces s).modifyHead (c :: ·) := by
  have htake : (c ≠ '?' && c ≠ '#') = true := by
    rw [not_or] at h
    simp [h]
  rw [pieces, List.takeWhile_cons, if_pos htake, List.splitOnP_cons_eq_if_modifyHead]
  rfl

theorem pieces_ne_nil (s : List Char) : pieces s ≠ [] := List.splitOnP_ne_nil _ _

theorem pieces_append_slash {s : List Char} (h : ∀ c ∈ s, isSlash c = false ∧ ¬ (c = '?' ∨ c = '#'))
    (t : List Char) : pieces (s ++ '/' :: t) = s :: pieces t := by
  induction s with
  | nil => exact pieces_cons (by decide) t
  | cons c s ih =>
    obtain ⟨hslash, hend⟩ := h c List.mem_cons_self
    rw [List.cons_append, pieces_cons hend, ih fun d hd => h d (List.mem_cons_of_mem c hd)]
    simp [hslash]

theorem pathState_eq (path : List Segment) (buffer : Segment) (s : List Char) :
    pathState path buffer s = close path (((pieces s).map encode).modifyHead (buffer ++ ·)) := by
  induction s generalizing path buffer with
  | nil => simp [pathState, pieces, close, encode, utf8]
  | cons c s ih =>
    obtain ⟨p, ps, hp⟩ := List.exists_cons_of_ne_nil (pieces_ne_nil s)
    by_cases hslash : c = '/' ∨ c = '\\'
    · have hend : ¬ (c = '?' ∨ c = '#') := by rcases hslash with rfl | rfl <;> decide
      have his : isSlash c = true := by rcases hslash with rfl | rfl <;> decide
      rw [pathState, if_pos hslash, ih, pieces_cons hend, if_pos his, hp]
      simp [close, encode, utf8]
    rw [pathState, if_neg hslash]
    by_cases hend : c = '?' ∨ c = '#'
    · have htake : ¬ (c ≠ '?' && c ≠ '#') = true := by rcases hend with rfl | rfl <;> decide
      rw [if_pos hend, pieces, List.takeWhile_cons, if_neg htake]
      simp [close, encode, utf8]
    · have his : ¬ isSlash c = true := by simpa [isSlash] using hslash
      rw [if_neg hend, ih, pieces_cons hend, if_neg his, hp]
      simp [encode, utf8]

/-! ## The decoded path -/

theorem decode_encode (s : List Char) : decode (encode s) = decode (utf8 s) :=
  decode_flatMap_encodeByte (utf8 s)

theorem serialize_append (path path' : List Segment) :
    serialize (path ++ path') = serialize path ++ serialize path' := by
  simp [serialize]

theorem decode_serialize (path : List Segment) :
    decode (serialize path) = serialize (path.map decode) := by
  have htail : ∀ (path : List Segment) (s : Segment),
      decode (s ++ serialize path) = decode s ++ serialize (path.map decode) := by
    intro path
    induction path with
    | nil => simp [serialize]
    | cons segment path ih =>
      intro s
      have h := decode_append_slash s (segment ++ serialize path)
      rw [ih] at h
      exact h
  exact htail path []

theorem move_decode (segment : Segment) : move (decode segment) =
    if isDoubleDot segment then .up else if isSingleDot segment then .stay
      else .into (decode segment) := by
  simp only [move, isDoubleDot_iff, isSingleDot_iff]

theorem map_push (path : List Segment) (segment : Segment) (ms : List (Move Segment)) :
    walk ((push path segment).map decode) ms = walk (path.map decode)
      (move (decode segment) :: ms) := by
  rw [move_decode, push]
  by_cases hd : isDoubleDot segment = true
  · rw [if_pos hd, if_pos hd, walk, List.map_dropLast]
  · rw [if_neg hd, if_neg hd]
    by_cases hs : isSingleDot segment = true
    · rw [if_pos hs, if_pos hs, walk]
    · rw [if_neg hs, if_neg hs, walk, List.map_append]
      rfl

theorem map_finish (path : List Segment) (segment : Segment) :
    (finish path segment).map decode = walk (path.map decode) (moves [decode segment]) := by
  rw [moves, move_decode, finish]
  by_cases hd : isDoubleDot segment = true
  · simp [hd, walk, List.map_dropLast, decode]
  · rw [if_neg hd, if_neg hd]
    by_cases hs : isSingleDot segment = true
    · simp [hs, walk, decode]
    · simp [hs, walk]

theorem map_close (path segments : List Segment) :
    (close path segments).map decode = walk (path.map decode) (moves (segments.map decode)) := by
  induction segments generalizing path with
  | nil => rfl
  | cons segment segments ih =>
    cases segments with
    | nil => exact map_finish path segment
    | cons s ss =>
      have hmoves : moves ((segment :: s :: ss).map decode) =
          move (decode segment) :: moves ((s :: ss).map decode) := rfl
      rw [hmoves, ← map_push, ← ih]
      rfl

/-- **The decoded path is where the decoded pieces lead.** -/
theorem decode_pathState (s : List Char) : decode (serialize (pathState [] [] s)) =
    serialize (walk [] (moves ((pieces s).map fun piece => decode (utf8 piece)))) := by
  have hmap : ((pieces s).map encode).map decode = (pieces s).map fun piece =>
      decode (utf8 piece) := by
    simp [decode_encode]
  have hhead : ((pieces s).map encode).modifyHead ([] ++ ·) = (pieces s).map encode := by
    cases (pieces s).map encode <;> rfl
  rw [decode_serialize, pathState_eq, hhead, map_close, hmap]
  rfl

end UrlPath
