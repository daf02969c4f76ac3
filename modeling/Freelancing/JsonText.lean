import Freelancing.Json
import Mathlib.Tactic.IntervalCases
import Std.Data.String.ToInt

/-!
# What a JSON text says

Two values with one text are the same up to the order of the fields of their objects
(`canon_eq_of_dumps`). The text of a value with sorted fields is read from left to right in one way
only (`reads_code`): its first character says what it is, a string ends at the first mark that is
not escaped, a number at the first character that is no digit, a list at its bracket.
-/

namespace Json

/-! ## Strings -/

def unhex (c : Char) : Nat := if c.toNat < 58 then c.toNat - 48 else c.toNat - 87

/-- The character that an escape begins with, or that stands for itself, and the rest. -/
def unescape : List Char → Option (Char × List Char)
  | [] => none
  | c :: l =>
    if c.toNat ≠ 0x5c then some (c, l)
    else match l with
      | 'u' :: _ :: _ :: h :: h' :: l => some (Char.ofNat (16 * unhex h + unhex h'), l)
      | 'b' :: l => some (Char.ofNat 8, l)
      | 'f' :: l => some (Char.ofNat 12, l)
      | 'n' :: l => some (Char.ofNat 10, l)
      | 'r' :: l => some (Char.ofNat 13, l)
      | 't' :: l => some (Char.ofNat 9, l)
      | c :: l => some (c, l)
      | [] => none

/-- The code points that are escaped. -/
def Escaped (n : Nat) : Prop := n < 32 ∨ n = 0x22 ∨ n = 0x5c

theorem escape_of_not_escaped {c : Char} (h : ¬ Escaped c.toNat) : escape c = [c] := by
  simp only [Escaped, not_or] at h
  unfold escape
  dsimp only
  split <;> first | omega | simp_all

theorem escaped_cases {P : Char → Prop} (h : ∀ n, Escaped n → P (Char.ofNat n)) (c : Char)
    (hc : Escaped c.toNat) : P c := by
  have := h c.toNat hc
  rwa [Char.ofNat_toNat] at this

theorem unescape_escape (c : Char) (l : List Char) : unescape (escape c ++ l) = some (c, l) := by
  by_cases hc : Escaped c.toNat
  · refine escaped_cases (P := fun c => unescape (escape c ++ l) = some (c, l))
      (fun n hn => ?_) c hc
    rcases hn with hn | rfl | rfl
    · interval_cases n <;> rfl
    · rfl
    · rfl
  · rw [escape_of_not_escaped hc]
    simp only [Escaped, not_or] at hc
    simp [unescape, hc.2.2]

/-- No escape begins with the mark at the end of a string. -/
theorem head_escape (c : Char) : ∃ c' l, escape c = c' :: l ∧ c'.toNat ≠ 0x22 := by
  by_cases hc : Escaped c.toNat
  · refine escaped_cases (P := fun c => ∃ c' l, escape c = c' :: l ∧ c'.toNat ≠ 0x22)
      (fun n hn => ?_) c hc
    rcases hn with hn | rfl | rfl
    · interval_cases n <;> exact ⟨_, _, rfl, by decide⟩
    · exact ⟨_, _, rfl, by decide⟩
    · exact ⟨_, _, rfl, by decide⟩
  · simp only [Escaped, not_or] at hc
    exact ⟨c, [], escape_of_not_escaped (by simpa [Escaped] using hc), hc.2.1⟩

def mark : Char := Char.ofNat 0x22

theorem toList_quote (s : String) :
    (quote s).toList = mark :: (s.toList.flatMap escape ++ [mark]) := by
  simp [quote, mark]

theorem reads_chars {l l' s t : List Char}
    (h : l.flatMap escape ++ mark :: s = l'.flatMap escape ++ mark :: t) : l = l' ∧ s = t := by
  have hno : ∀ c (u v : List Char), mark :: u ≠ escape c ++ v := by
    intro c u v he
    obtain ⟨c', r, hc, hne⟩ := head_escape c
    rw [hc, List.cons_append] at he
    obtain ⟨rfl, -⟩ := List.cons.inj he
    exact hne rfl
  induction l generalizing l' with
  | nil =>
    cases l' with
    | nil => exact ⟨rfl, (List.cons.inj h).2⟩
    | cons c l' =>
      rw [List.flatMap_cons, List.append_assoc] at h
      exact absurd h (hno _ _ _)
  | cons c l ih =>
    cases l' with
    | nil =>
      rw [List.flatMap_cons, List.append_assoc] at h
      exact absurd h.symm (hno _ _ _)
    | cons c' l' =>
      rw [List.flatMap_cons, List.flatMap_cons, List.append_assoc, List.append_assoc] at h
      have hu := congrArg unescape h
      rw [unescape_escape, unescape_escape] at hu
      obtain ⟨rfl, hr⟩ := Prod.mk.inj (Option.some.inj hu)
      obtain ⟨rfl, hs⟩ := ih hr
      exact ⟨rfl, hs⟩

theorem reads_quote {x y : String} {s t : List Char}
    (h : (quote x).toList ++ s = (quote y).toList ++ t) : x = y ∧ s = t := by
  rw [toList_quote, toList_quote] at h
  simp only [List.cons_append, List.append_assoc, List.cons.injEq, true_and] at h
  obtain ⟨hl, hs⟩ := reads_chars h
  exact ⟨String.ext hl, hs⟩

/-! ## Numbers -/

def isNumeral (c : Char) : Bool := c.isDigit || c = '-'

/-- The text goes on with what cannot belong to a number. -/
def Ends (s : List Char) : Prop := ∀ c ∈ s.head?, isNumeral c = false

theorem numeral_toString (n : Int) : ∀ c ∈ (toString n).toList, isNumeral c = true := by
  have hnat : ∀ m : Nat, ∀ c ∈ (Nat.repr m).toList, isNumeral c = true := by
    intro m c hc
    rw [Nat.toList_repr] at hc
    simp [isNumeral, Nat.isDigit_of_mem_toDigits (by decide) (by decide) hc]
  cases n with
  | ofNat m => exact hnat m
  | negSucc m =>
    intro c hc
    rw [show toString (Int.negSucc m) = "-" ++ Nat.repr (m + 1) from rfl] at hc
    simp only [String.toList_append, List.mem_append] at hc
    rcases hc with hc | hc
    · obtain rfl := by simpa using hc
      rfl
    · exact hnat _ c hc

theorem toString_ne_nil (n : Int) : (toString n).toList ≠ [] := by
  cases n with
  | ofNat m => exact fun h => Nat.repr_ne_empty (String.ext h)
  | negSucc m =>
    rw [show toString (Int.negSucc m) = "-" ++ Nat.repr (m + 1) from rfl]
    simp

theorem takeWhile_numeral {n : Int} {s : List Char} (hs : Ends s) :
    ((toString n).toList ++ s).takeWhile isNumeral = (toString n).toList := by
  rw [List.takeWhile_append_of_pos (numeral_toString n)]
  have : s.takeWhile isNumeral = [] := by
    cases s with
    | nil => rfl
    | cons c s => simp [hs c (by simp)]
  rw [this, List.append_nil]

theorem reads_toString {n m : Int} {s t : List Char} (hs : Ends s) (ht : Ends t)
    (h : (toString n).toList ++ s = (toString m).toList ++ t) : n = m ∧ s = t := by
  have hn : (toString n).toList = (toString m).toList := by
    rw [← takeWhile_numeral (n := n) hs, h, takeWhile_numeral ht]
  rw [hn] at h
  exact ⟨Int.repr_injective (String.ext hn), List.append_cancel_left h⟩

/-! ## Lists -/

/-- The texts of a list between commas. -/
def commas : List (List Char) → List Char
  | [] => []
  | x :: l => x ++ l.flatMap fun y => ',' :: y

theorem toList_intercalate (l : List String) :
    (",".intercalate l).toList = commas (l.map String.toList) := by
  cases l with
  | nil => rfl
  | cons x l =>
    induction l generalizing x with
    | nil => simp [commas, String.intercalate_singleton]
    | cons y l ih =>
      rw [String.intercalate_cons_cons]
      simp [commas, ih]

/-- The text of `x` is not the beginning of another one. -/
def Reads {α : Type} (code : α → List Char) (x : α) : Prop :=
  ∀ y s t, Ends s → Ends t → code x ++ s = code y ++ t → x = y ∧ s = t

section
variable {α : Type} {code : α → List Char} {close : Char} {l l' : List α} {s t : List Char}

theorem ends_cons {c : Char} (h : isNumeral c = false) (s : List Char) : Ends (c :: s) := by
  simpa [Ends] using h

theorem reads_tail (hc : isNumeral close = false) (hcomma : close ≠ ',')
    (hl : ∀ x ∈ l, Reads code x)
    (h : (l.flatMap fun x => ',' :: code x) ++ close :: s =
      (l'.flatMap fun x => ',' :: code x) ++ close :: t) : l = l' ∧ s = t := by
  have hends : ∀ (l : List α) (s : List Char),
      Ends ((l.flatMap fun x => ',' :: code x) ++ close :: s) := by
    intro l s
    cases l with
    | nil => exact ends_cons hc s
    | cons x l => exact ends_cons (by decide) _
  induction l generalizing l' with
  | nil =>
    cases l' with
    | nil => exact ⟨rfl, (List.cons.inj h).2⟩
    | cons y l' => exact absurd (List.cons.inj h).1 hcomma
  | cons x l ih =>
    cases l' with
    | nil => exact absurd (List.cons.inj h).1.symm hcomma
    | cons y l' =>
      simp only [List.flatMap_cons, List.cons_append, List.append_assoc, List.cons.injEq,
        true_and] at h
      obtain ⟨rfl, hrest⟩ := hl x (List.mem_cons_self ..) y _ _ (hends _ _) (hends _ _) h
      obtain ⟨rfl, hs⟩ := ih (fun x hx => hl x (List.mem_cons_of_mem _ hx)) hrest
      exact ⟨rfl, hs⟩

/-- A list is read up to its bracket, which none of its items begins with. -/
theorem reads_commas (hc : isNumeral close = false) (hcomma : close ≠ ',')
    (hclose : ∀ y r, code y ++ r ≠ close :: s ∧ code y ++ r ≠ close :: t)
    (hl : ∀ x ∈ l, Reads code x)
    (h : commas (l.map code) ++ close :: s = commas (l'.map code) ++ close :: t) :
    l = l' ∧ s = t := by
  have hcons : ∀ (x : α) (l : List α) (s : List Char), commas ((x :: l).map code) ++ close :: s =
      code x ++ ((l.flatMap fun x => ',' :: code x) ++ close :: s) := by
    intro x l s
    simp [commas, List.flatMap_map]
  cases l with
  | nil =>
    cases l' with
    | nil => exact ⟨rfl, (List.cons.inj h).2⟩
    | cons y l' =>
      rw [hcons] at h
      exact absurd h.symm (hclose _ _).1
  | cons x l =>
    rw [hcons] at h
    cases l' with
    | nil => exact absurd h (hclose _ _).2
    | cons y l' =>
      rw [hcons] at h
      -- a comma before both texts makes them the tails of longer lists
      refine reads_tail hc hcomma hl ?_
      simpa only [List.flatMap_cons, List.cons_append, List.append_assoc] using
        congrArg (List.cons ',') h

end

/-! ## Values -/

mutual

/-- The value with the fields of all its objects sorted. -/
def canon : Json → Json
  | .obj fields => .obj ((canonFields fields).insertionSort fun x y => x.1 ≤ y.1)
  | .arr items => .arr (canonItems items)
  | .null => .null
  | .num n => .num n
  | .str s => .str s

def canonItems : List Json → List Json
  | [] => []
  | x :: rest => x.canon :: canonItems rest

def canonFields : List (String × Json) → List (String × Json)
  | [] => []
  | (name, x) :: rest => (name, x.canon) :: canonFields rest

end

def brace : Char := Char.ofNat 0x7b

def brace' : Char := Char.ofNat 0x7d

mutual

/-- The text of a value, with its fields as they are. -/
def code : Json → List Char
  | .null => ['n', 'u', 'l', 'l']
  | .num n => (toString n).toList
  | .str s => (quote s).toList
  | .arr items => '[' :: (commas (codeItems items) ++ [']'])
  | .obj fields => brace :: (commas (codeFields fields) ++ [brace'])

def codeItems : List Json → List (List Char)
  | [] => []
  | x :: rest => x.code :: codeItems rest

def codeFields : List (String × Json) → List (List Char)
  | [] => []
  | (name, x) :: rest => ((quote name).toList ++ ':' :: x.code) :: codeFields rest

end

def fieldCode (x : String × Json) : List Char := (quote x.1).toList ++ ':' :: x.2.code

theorem eq_map {α β : Type} {f : List α → List β} {g : α → β} (hnil : f [] = [])
    (hcons : ∀ x l, f (x :: l) = g x :: f l) (l : List α) : f l = l.map g := by
  induction l with
  | nil => exact hnil
  | cons x l ih => rw [hcons, ih, List.map_cons]

theorem codeItems_eq (l : List Json) : codeItems l = l.map code :=
  eq_map (by rw [codeItems]) (fun _ _ => by rw [codeItems]) l

theorem codeFields_eq (l : List (String × Json)) : codeFields l = l.map fieldCode :=
  eq_map (by rw [codeFields]) (fun _ _ => by rw [codeFields, fieldCode]) l

theorem canonItems_eq (l : List Json) : canonItems l = l.map canon :=
  eq_map (by rw [canonItems]) (fun _ _ => by rw [canonItems]) l

theorem canonFields_eq (l : List (String × Json)) :
    canonFields l = l.map fun x => (x.1, x.2.canon) :=
  eq_map (by rw [canonFields]) (fun _ _ => by rw [canonFields]) l

theorem dumpsItems_eq (l : List Json) : dumpsItems l = l.map dumps :=
  eq_map (by rw [dumpsItems]) (fun _ _ => by rw [dumpsItems]) l

theorem dumpsFields_eq (l : List (String × Json)) :
    dumpsFields l = l.map fun x => (x.1, x.2.dumps) :=
  eq_map (by rw [dumpsFields]) (fun _ _ => by rw [dumpsFields]) l

theorem sort_fields {α β : Type} (f : α → β) (l : List (String × α)) :
    (l.map fun x => (x.1, f x.2)).insertionSort (fun x y => x.1 ≤ y.1) =
      (l.insertionSort fun x y => x.1 ≤ y.1).map fun x => (x.1, f x.2) :=
  (List.map_insertionSort (fun x y : String × α => x.1 ≤ y.1)
    (fun x y : String × β => x.1 ≤ y.1) _ _ fun _ _ _ _ => Iff.rfl).symm

/-- `json.dumps` writes the value with sorted fields. -/
theorem toList_dumps (x : Json) : x.dumps.toList = x.canon.code := by
  refine @Json.rec (fun x => x.dumps.toList = x.canon.code)
    (fun l => ∀ x ∈ l, x.dumps.toList = x.canon.code)
    (fun l => ∀ x ∈ l, x.2.dumps.toList = x.2.canon.code)
    (fun x => x.2.dumps.toList = x.2.canon.code) ?_ ?_ ?_ ?_ ?_ ?_ ?_ ?_ ?_ ?_ x
  · rw [dumps, canon, code]
    rfl
  · intro n
    rw [dumps, canon, code]
  · intro s
    rw [dumps, canon, code]
  · intro items ih
    rw [dumps, canon, code, dumpsItems_eq, canonItems_eq, codeItems_eq]
    simp only [String.toList_append, toList_intercalate, List.map_map]
    have hmap : items.map (String.toList ∘ dumps) = items.map (code ∘ canon) :=
      List.map_congr_left fun x hx => ih x hx
    rw [hmap]
    rfl
  · intro fields ih
    rw [dumps, canon, code, dumpsFields_eq, canonFields_eq, codeFields_eq, sort_fields, sort_fields]
    simp only [String.toList_append, toList_intercalate, List.map_map]
    have hmap : ∀ l : List (String × Json), (∀ x ∈ l, x ∈ fields) →
        l.map (String.toList ∘ (fun x => quote x.1 ++ ":" ++ x.2) ∘ fun x => (x.1, x.2.dumps)) =
          l.map (fieldCode ∘ fun x => (x.1, x.2.canon)) := by
      intro l hl
      refine List.map_congr_left fun x hx => ?_
      simp [fieldCode, ih x (hl x hx)]
    rw [hmap _ fun x hx => (List.mem_insertionSort _).1 hx]
    rfl
  · simp
  · exact fun x l hx hl => List.forall_mem_cons.2 ⟨hx, hl⟩
  · simp
  · exact fun x l hx hl => List.forall_mem_cons.2 ⟨hx, hl⟩
  · intro name x hx
    exact hx

/-! ## Reading -/

/-- What the first character of a text says of the value. -/
def tag (c : Char) : Nat :=
  if isNumeral c then 1 else if c = 'n' then 0 else if c = mark then 2 else if c = '[' then 3
  else if c = brace then 4 else 5

def kind : Json → Nat
  | .null => 0
  | .num _ => 1
  | .str _ => 2
  | .arr _ => 3
  | .obj _ => 4

theorem head_code (x : Json) : ∃ c r, x.code = c :: r ∧ tag c = x.kind := by
  cases x with
  | null => exact ⟨'n', _, by rw [code], by decide⟩
  | num n =>
    rw [code]
    cases h : (toString n).toList with
    | nil => exact absurd h (toString_ne_nil n)
    | cons c r =>
      refine ⟨c, r, rfl, ?_⟩
      have := numeral_toString n c (by rw [h]; exact List.mem_cons_self ..)
      simp [tag, this, kind]
  | str s => exact ⟨mark, _, by rw [code, toList_quote], show tag mark = 2 by decide⟩
  | arr items => exact ⟨'[', _, by rw [code], show tag '[' = 3 by decide⟩
  | obj fields => exact ⟨brace, _, by rw [code], show tag brace = 4 by decide⟩

theorem kind_eq {x y : Json} {s t : List Char} (h : x.code ++ s = y.code ++ t) :
    x.kind = y.kind := by
  obtain ⟨c, r, hc, hx⟩ := head_code x
  obtain ⟨c', r', hc', hy⟩ := head_code y
  rw [hc, hc'] at h
  rw [← hx, ← hy, (List.cons.inj h).1]

theorem code_ne_cons {y : Json} {c : Char} (hc : tag c = 5) (r s : List Char) :
    y.code ++ r ≠ c :: s := by
  intro h
  obtain ⟨c', r', hy, hk⟩ := head_code y
  rw [hy] at h
  rw [(List.cons.inj h).1, hc] at hk
  cases y <;> cases hk

theorem reads_field {x : String × Json} (hx : Reads code x.2) : Reads fieldCode x := by
  intro y s t hs ht h
  simp only [fieldCode, List.append_assoc, List.cons_append] at h
  obtain ⟨hname, h⟩ := reads_quote h
  obtain ⟨hval, hst⟩ := hx y.2 s t hs ht (List.cons.inj h).2
  exact ⟨Prod.ext hname hval, hst⟩

/-- **A text is read in one way.** -/
theorem reads_code (x : Json) : Reads code x := by
  refine @Json.rec (fun x => Reads code x) (fun l => ∀ x ∈ l, Reads code x)
    (fun l => ∀ x ∈ l, Reads code x.2) (fun x => Reads code x.2) ?_ ?_ ?_ ?_ ?_ ?_ ?_ ?_ ?_ ?_ x
  · intro y s t _ _ h
    have hk := kind_eq h
    cases y with
    | null => exact ⟨rfl, List.append_cancel_left h⟩
    | _ => cases hk
  · intro n y s t hs ht h
    have hk := kind_eq h
    cases y with
    | num m =>
      rw [code, code] at h
      obtain ⟨rfl, hst⟩ := reads_toString hs ht h
      exact ⟨rfl, hst⟩
    | _ => cases hk
  · intro v y s t _ _ h
    have hk := kind_eq h
    cases y with
    | str w =>
      rw [code, code] at h
      obtain ⟨rfl, hst⟩ := reads_quote h
      exact ⟨rfl, hst⟩
    | _ => cases hk
  · intro items ih y s t _ _ h
    have hk := kind_eq h
    cases y with
    | arr items' =>
      rw [code, code, codeItems_eq, codeItems_eq] at h
      simp only [List.cons_append, List.append_assoc, List.nil_append, List.cons.injEq,
        true_and] at h
      obtain ⟨rfl, hst⟩ := reads_commas (by decide) (by decide)
        (fun y r => ⟨code_ne_cons (by decide) r s, code_ne_cons (by decide) r t⟩) ih h
      exact ⟨rfl, hst⟩
    | _ => cases hk
  · intro fields ih y s t _ _ h
    have hk := kind_eq h
    cases y with
    | obj fields' =>
      rw [code, code, codeFields_eq, codeFields_eq] at h
      simp only [List.cons_append, List.append_assoc, List.nil_append, List.cons.injEq,
        true_and] at h
      have hclose : ∀ (y : String × Json) (r s : List Char), fieldCode y ++ r ≠ brace' :: s := by
        intro y r s he
        rw [fieldCode, toList_quote] at he
        exact absurd (List.cons.inj he).1 (by decide)
      obtain ⟨rfl, hst⟩ := reads_commas (by decide) (by decide)
        (fun y r => ⟨hclose y r s, hclose y r t⟩) (fun x hx => reads_field (ih x hx)) h
      exact ⟨rfl, hst⟩
    | _ => cases hk
  · simp
  · exact fun x l hx hl => List.forall_mem_cons.2 ⟨hx, hl⟩
  · simp
  · exact fun x l hx hl => List.forall_mem_cons.2 ⟨hx, hl⟩
  · exact fun name x hx => hx

/-- **Values with one text are the same** up to the order of their fields. -/
theorem canon_eq_of_dumps {x y : Json} (h : x.dumps = y.dumps) : x.canon = y.canon := by
  have hends : Ends [] := by simp [Ends]
  refine (reads_code x.canon y.canon [] [] hends hends ?_).1
  rw [← toList_dumps, ← toList_dumps, h]

/-! ## Objects with the same keys -/

theorem eq_of_perm_of_keys {α β : Type} {l l' : List (α × β)} (hp : l.Perm l')
    (hk : l.map Prod.fst = l'.map Prod.fst) (hn : (l.map Prod.fst).Nodup) : l = l' := by
  induction l generalizing l' with
  | nil => exact hp.nil_eq
  | cons x l ih =>
    cases l' with
    | nil => cases hk
    | cons y l' =>
      obtain ⟨hxy, hkeys⟩ := List.cons.inj hk
      rw [List.map_cons, List.nodup_cons] at hn
      have hx : x = y := by
        rcases List.mem_cons.1 (hp.mem_iff.1 (List.mem_cons_self ..)) with hx | hx
        · exact hx
        · refine absurd ?_ hn.1
          rw [hkeys]
          exact List.mem_map_of_mem hx
      subst hx
      rw [ih hp.cons_inv hkeys hn.2]

/-- The fields of objects with the same keys in the same order, when the objects have one text. -/
theorem fields_of_canon {l l' : List (String × Json)} (h : (obj l).canon = (obj l').canon)
    (hk : l.map Prod.fst = l'.map Prod.fst) (hn : (l.map Prod.fst).Nodup) :
    l.map (fun x => x.2.canon) = l'.map fun x => x.2.canon := by
  rw [canon, canon, canonFields_eq, canonFields_eq] at h
  have hp := List.perm_insertionSort (fun x y : String × Json => x.1 ≤ y.1)
    (l.map fun x => (x.1, x.2.canon))
  rw [obj.inj h] at hp
  have hp' := hp.symm.trans (List.perm_insertionSort _ _)
  have := eq_of_perm_of_keys hp' (by simpa [Function.comp_def] using hk)
    (by simpa [Function.comp_def] using hn)
  simpa [Function.comp_def] using congrArg (List.map Prod.snd) this

end Json
