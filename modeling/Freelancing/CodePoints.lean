import Mathlib.Data.List.TakeWhile

/-!
# Strings of code points

A `str` as the list of its code points, which may be surrogates.
-/

abbrev CodePoints := List Nat

namespace CodePoints

/-- The code points of a text. -/
def text (s : String) : CodePoints := s.toList.map Char.toNat

/-- `str.isspace()` of one character. -/
def isSpace (c : Nat) : Bool :=
  (9 ≤ c && c ≤ 13) || (28 ≤ c && c ≤ 32) || (0x2000 ≤ c && c ≤ 0x200a) ||
    [0x85, 0xa0, 0x1680, 0x2028, 0x2029, 0x202f, 0x205f, 0x3000].contains c

def strip (s : CodePoints) : CodePoints :=
  ((s.dropWhile isSpace).reverse.dropWhile isSpace).reverse

theorem infix_strip (s : CodePoints) : strip s <:+: s := by
  unfold strip
  have hfront : s.dropWhile isSpace <:+: s := (List.dropWhile_suffix isSpace).isInfix
  have hback : (s.dropWhile isSpace).reverse.dropWhile isSpace <:+: (s.dropWhile isSpace).reverse :=
    (List.dropWhile_suffix isSpace).isInfix
  have hrev := List.reverse_infix.2 hback
  rw [List.reverse_reverse] at hrev
  exact hrev.trans hfront

/-! ## Splitting -/

/-- `s.partition(sep)`, with whether the separator was found. -/
def partition (sep : Nat) (s : CodePoints) : CodePoints × Bool × CodePoints :=
  match s.dropWhile (· ≠ sep) with
  | [] => (s, false, [])
  | _ :: t => (s.takeWhile (· ≠ sep), true, t)

theorem partition_append {sep : Nat} {s : CodePoints} (h : sep ∉ s) (t : CodePoints) :
    partition sep (s ++ sep :: t) = (s, true, t) := by
  have hs : ∀ c ∈ s, (decide (c ≠ sep)) = true := by
    intro c hc
    simp only [decide_eq_true_eq]
    intro he
    exact h (he ▸ hc)
  have hdrop : (s ++ sep :: t).dropWhile (fun c => decide (c ≠ sep)) = sep :: t := by
    rw [List.dropWhile_append_of_pos hs]
    simp
  have htake : (s ++ sep :: t).takeWhile (fun c => decide (c ≠ sep)) = s := by
    rw [List.takeWhile_append_of_pos hs]
    simp
  rw [partition, hdrop, htake]

/-- A text that has the separator is put together again. -/
theorem eq_of_partition {sep : Nat} {s u t : CodePoints} (h : partition sep s = (u, true, t)) :
    s = u ++ sep :: t ∧ sep ∉ u := by
  unfold partition at h
  cases hdrop : s.dropWhile (fun c => decide (c ≠ sep)) with
  | nil =>
    rw [hdrop] at h
    simp at h
  | cons c t' =>
    rw [hdrop] at h
    simp only [Prod.mk.injEq, true_and] at h
    obtain ⟨rfl, rfl⟩ := h
    have hc : c = sep := by
      have hhead := List.head?_dropWhile_not (fun c => decide (c ≠ sep)) s
      rw [hdrop] at hhead
      simpa using hhead
    constructor
    · have hparts : s.takeWhile (fun c => decide (c ≠ sep)) ++
          s.dropWhile (fun c => decide (c ≠ sep)) = s :=
        List.takeWhile_append_dropWhile
      rw [hdrop, hc] at hparts
      exact hparts.symm
    · intro hmem
      have hne := List.mem_takeWhile_imp hmem
      simp at hne

/-! ## UTF-8 -/

/-- `s.encode("utf-8")`. Surrogates cannot be encoded. -/
def encode (s : CodePoints) : Option (List UInt8) :=
  if ∀ c ∈ s, c.isValidChar then some (String.ofList (s.map Char.ofNat)).toUTF8.data.toList
    else none

/-- `b.decode("utf-8")`. -/
def decode (b : List UInt8) : Option CodePoints :=
  (String.fromUTF8? ⟨b.toArray⟩).map fun t => t.toList.map Char.toNat

theorem toNat_ofNat {c : Nat} (h : c.isValidChar) : (Char.ofNat c).toNat = c := by
  unfold Char.ofNat
  rw [dif_pos h]
  rfl

theorem fromUTF8?_toUTF8 (t : String) : String.fromUTF8? t.toUTF8 = some t := by
  unfold String.fromUTF8?
  rw [dif_pos (by exact t.isValidUTF8)]
  rfl

theorem decode_encode {s : CodePoints} {b : List UInt8} (h : encode s = some b) :
    decode b = some s := by
  unfold encode at h
  by_cases hvalid : ∀ c ∈ s, c.isValidChar
  · rw [if_pos hvalid] at h
    cases h
    have hmap : (s.map Char.ofNat).map Char.toNat = s := by
      rw [List.map_map]
      exact (List.map_congr_left fun c hc => toNat_ofNat (hvalid c hc)).trans (List.map_id s)
    have htext := fromUTF8?_toUTF8 (String.ofList (s.map Char.ofNat))
    change (String.fromUTF8? (String.ofList (s.map Char.ofNat)).toUTF8).map _ = some s
    rw [htext, Option.map_some, String.toList_ofList, hmap]
  · rw [if_neg hvalid] at h
    cases h

theorem encode_decode {s : CodePoints} {b : List UInt8} (h : decode b = some s) :
    encode s = some b := by
  unfold decode at h
  obtain ⟨t, ht, rfl⟩ := Option.map_eq_some_iff.1 h
  have hbytes : t.toUTF8 = ⟨b.toArray⟩ := by
    unfold String.fromUTF8? at ht
    split at ht
    · cases ht
      rfl
    · cases ht
  have hvalid : ∀ c ∈ t.toList.map Char.toNat, c.isValidChar := by
    intro c hc
    obtain ⟨d, _, rfl⟩ := List.mem_map.1 hc
    exact d.valid
  have hchars : (t.toList.map Char.toNat).map Char.ofNat = t.toList := by
    rw [List.map_map]
    exact (List.map_congr_left fun c _ => Char.ofNat_toNat c).trans (List.map_id _)
  rw [encode, if_pos hvalid, hchars, String.ofList_toList, hbytes]

end CodePoints
