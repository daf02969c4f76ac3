import Mathlib.Data.List.Basic
import Mathlib.Data.List.Infix

/-!
# The words of a list

The words of a list are its longest runs of elements that a predicate accepts. Where every other
element is replaced by one separator, runs of the separator are collapsed and both ends are trimmed,
what is left are the words, joined by single separators.
-/

namespace Words

variable {α : Type}

/-! ## Words -/

section
variable (accept : α → Bool)

/-- The word that the list starts with, which may be empty, and the words behind it. -/
def scan : List α → List α × List (List α)
  | [] => ([], [])
  | c :: s =>
    let (w, ws) := scan s
    if accept c then (c :: w, ws) else ([], if w = [] then ws else w :: ws)

def words (s : List α) : List (List α) :=
  let (w, ws) := scan accept s
  if w = [] then ws else w :: ws

/-- Nothing but accepted elements, and at least one. -/
def IsWord (w : List α) : Prop := w ≠ [] ∧ ∀ c ∈ w, accept c = true

end

variable {accept : α → Bool} {s t w u : List α} {ws : List (List α)} {c : α}

theorem scan_of_pos (hc : accept c = true) :
    scan accept (c :: s) = (c :: (scan accept s).1, (scan accept s).2) := by
  simp [scan, hc]

theorem scan_of_neg (hc : ¬ accept c = true) : scan accept (c :: s) = ([], words accept s) := by
  simp [scan, words, hc]

/-- What holds of the word in front, if there is one, and of the words behind it holds of all
words. -/
theorem forall_words {P : List α → Prop} (hfirst : (scan accept s).1 ≠ [] → P (scan accept s).1)
    (hrest : ∀ w ∈ (scan accept s).2, P w) : ∀ w ∈ words accept s, P w := by
  intro w hw
  simp only [words] at hw
  by_cases hnil : (scan accept s).1 = []
  · rw [if_pos hnil] at hw
    exact hrest w hw
  · rw [if_neg hnil] at hw
    rcases List.mem_cons.1 hw with rfl | hw
    · exact hfirst hnil
    · exact hrest w hw

theorem scan_spec (s : List α) : (∀ c ∈ (scan accept s).1, accept c = true) ∧
    ∀ w ∈ (scan accept s).2, IsWord accept w := by
  induction s with
  | nil => simp [scan]
  | cons c s ih =>
    by_cases hc : accept c = true
    · rw [scan_of_pos hc]
      refine ⟨?_, ih.2⟩
      intro d hd
      rcases List.mem_cons.1 hd with rfl | hd
      · exact hc
      · exact ih.1 d hd
    · rw [scan_of_neg hc]
      exact ⟨by simp, forall_words (fun hnil => ⟨hnil, ih.1⟩) ih.2⟩

theorem isWord_of_mem (h : w ∈ words accept s) : IsWord accept w :=
  forall_words (fun hnil => ⟨hnil, (scan_spec s).1⟩) (scan_spec s).2 w h

/-- The words are runs of the list: the first one at its start. -/
theorem infix_scan (s : List α) : (scan accept s).1 <+: s ∧ ∀ w ∈ (scan accept s).2, w <:+: s := by
  induction s with
  | nil => simp [scan]
  | cons c s ih =>
    have hcons : ∀ {w : List α}, w <:+: s → w <:+: c :: s :=
      fun h => h.trans (List.suffix_cons c s).isInfix
    by_cases hc : accept c = true
    · rw [scan_of_pos hc]
      exact ⟨List.cons_prefix_cons.2 ⟨rfl, ih.1⟩, fun w hw => hcons (ih.2 w hw)⟩
    · rw [scan_of_neg hc]
      exact ⟨List.nil_prefix, forall_words (fun _ => hcons ih.1.isInfix) fun w hw =>
        hcons (ih.2 w hw)⟩

theorem infix_of_mem (h : w ∈ words accept s) : w <:+: s :=
  forall_words (fun _ => (infix_scan s).1.isInfix) (infix_scan s).2 w h

/-! ## Joining -/

section
variable (sep : α)

/-- The words behind separators. -/
def behind (ws : List (List α)) : List α := ws.flatMap (sep :: ·)

def join : List (List α) → List α
  | [] => []
  | w :: ws => w ++ behind sep ws

end

variable {sep : α}

@[simp] theorem behind_nil : behind sep [] = [] := rfl

@[simp] theorem behind_cons : behind sep (w :: ws) = sep :: (w ++ behind sep ws) := rfl

theorem mem_join (h : c ∈ join sep ws) : c = sep ∨ ∃ w ∈ ws, c ∈ w := by
  cases ws with
  | nil => simp [join] at h
  | cons w ws =>
    rcases List.mem_append.1 h with h | h
    · exact .inr ⟨w, List.mem_cons_self, h⟩
    · simp only [behind, List.mem_flatMap, List.mem_cons] at h
      obtain ⟨w', hw', rfl | hc⟩ := h
      · exact .inl rfl
      · exact .inr ⟨w', List.mem_cons_of_mem w hw', hc⟩

theorem scan_append (hu : ∀ c ∈ u, accept c = true) (h : scan accept s = ([], ws)) :
    scan accept (u ++ s) = (u, ws) := by
  induction u with
  | nil => exact h
  | cons c u ih =>
    rw [List.cons_append, scan_of_pos (hu c List.mem_cons_self),
      ih fun d hd => hu d (List.mem_cons_of_mem c hd)]

/-- Words are found again where they were joined. -/
theorem scan_behind (hsep : accept sep = false) (h : ∀ w ∈ ws, IsWord accept w) :
    scan accept (behind sep ws) = ([], ws) := by
  induction ws with
  | nil => rfl
  | cons w ws ih =>
    have hw := h w List.mem_cons_self
    have hscan := scan_append hw.2 (ih fun w' hw' => h w' (List.mem_cons_of_mem _ hw'))
    rw [behind_cons, scan_of_neg (by simp [hsep])]
    simp [words, hscan, hw.1]

theorem words_join (hsep : accept sep = false) (h : ∀ w ∈ ws, IsWord accept w) :
    words accept (join sep ws) = ws := by
  cases ws with
  | nil => rfl
  | cons w ws =>
    have hscan := scan_behind hsep h
    rw [behind_cons, scan_of_neg (by simp [hsep])] at hscan
    exact congrArg Prod.snd hscan

theorem dropWhile_append_of_not {p : α → Bool} (hw : w ≠ []) (hp : ∀ c ∈ w, p c = false)
    (t : List α) : (w ++ t).dropWhile p = w ++ t := by
  cases w with
  | nil => exact absurd rfl hw
  | cons c w => exact List.dropWhile_cons_of_neg (by simp [hp c])

/-- The joined words end with a word. -/
theorem join_eq_append (hw : ws ≠ []) (h : ∀ w ∈ ws, IsWord accept w) :
    ∃ t w, join sep ws = t ++ w ∧ IsWord accept w := by
  cases ws with
  | nil => exact absurd rfl hw
  | cons w ws =>
    induction ws using List.reverseRecOn with
    | nil => exact ⟨[], w, by simp [join], h w List.mem_cons_self⟩
    | append_singleton ws w' _ =>
      refine ⟨w ++ behind sep ws ++ [sep], w', ?_, h w' (by simp)⟩
      simp [join, behind]

/-! ## Cutting -/

/-- The first `n` elements of the joined words end with the separator between two words. -/
def CutsBehind (sep : α) (n : Nat) (ws : List (List α)) : Prop :=
  ∃ front back, ws = front ++ back ∧ front ≠ [] ∧ back ≠ [] ∧ (join sep front).length + 1 = n

/-- A piece of a word is a word, unless it is empty. -/
theorem IsWord.take (hw : IsWord accept w) {n : Nat} (hn : 0 < n) : IsWord accept (w.take n) := by
  refine ⟨?_, fun c hc => hw.2 c (List.mem_of_mem_take hc)⟩
  simp [hw.1]
  omega

theorem behind_eq_cons (h : ws ≠ []) : behind sep ws = sep :: join sep ws := by
  cases ws with
  | nil => exact absurd rfl h
  | cons w ws => rfl

theorem join_append {vs : List (List α)} (h : ws ≠ []) :
    join sep (ws ++ vs) = join sep ws ++ behind sep vs := by
  cases ws with
  | nil => exact absurd rfl h
  | cons w ws => simp [join, behind]

theorem join_ne_nil (h : ws ≠ []) (hw : ∀ w ∈ ws, IsWord accept w) : join sep ws ≠ [] := by
  cases ws with
  | nil => exact absurd rfl h
  | cons w ws => simp [join, (hw w List.mem_cons_self).1]

theorem take_of_cuts {n : Nat} (h : CutsBehind sep n ws) :
    ∃ t, (join sep ws).take n = t ++ [sep] := by
  obtain ⟨front, back, rfl, hf, hb, hn⟩ := h
  refine ⟨join sep front, ?_⟩
  rw [join_append hf, behind_eq_cons hb, ← hn, List.take_append, List.take_of_length_le (by omega)]
  simp

/-- Otherwise the first `n` elements are joined words again, pieces of the words. -/
theorem take_join {n : Nat} (hn : 0 < n) (h : ∀ w ∈ ws, IsWord accept w)
    (hcut : ¬ CutsBehind sep n ws) :
    ∃ vs, (join sep ws).take n = join sep vs ∧ ∀ v ∈ vs, IsWord accept v ∧ ∃ w ∈ ws, v <+: w := by
  induction ws generalizing n with
  | nil => exact ⟨[], by simp [join], by simp⟩
  | cons w ws ih =>
    have hw := h w List.mem_cons_self
    have hws : ∀ w' ∈ ws, IsWord accept w' := fun w' hw' => h w' (List.mem_cons_of_mem w hw')
    rw [join, List.take_append]
    by_cases hin : n ≤ w.length
    · refine ⟨[w.take n], ?_, ?_⟩
      · simp [join, Nat.sub_eq_zero_of_le hin]
      · intro v hv
        rw [List.mem_singleton.1 hv]
        exact ⟨hw.take hn, w, List.mem_cons_self, List.take_prefix n w⟩
    rw [List.take_of_length_le (by omega)]
    by_cases hnil : ws = []
    · refine ⟨[w], by simp [hnil, join], ?_⟩
      intro v hv
      rw [List.mem_singleton.1 hv]
      exact ⟨hw, w, List.mem_cons_self, List.prefix_rfl⟩
    obtain ⟨m, hm⟩ : ∃ m, n - w.length = m + 1 := ⟨n - w.length - 1, by omega⟩
    rw [behind_eq_cons hnil, hm, List.take_succ_cons]
    have hpos : 0 < m := by
      by_contra h0
      exact hcut ⟨[w], ws, rfl, by simp, hnil, by simp [join]; omega⟩
    have hcut' : ¬ CutsBehind sep m ws := by
      intro hc
      obtain ⟨front, back, rfl, hf, hb, hlen⟩ := hc
      refine hcut ⟨w :: front, back, rfl, by simp, hb, ?_⟩
      rw [join, behind_eq_cons hf, List.length_append, List.length_cons]
      omega
    obtain ⟨vs, hvs, hall⟩ := ih hpos hws hcut'
    have hne : vs ≠ [] := by
      intro hvnil
      rw [hvnil] at hvs
      have hjoin : join sep ws ≠ [] := join_ne_nil hnil hws
      rw [join, List.take_eq_nil_iff] at hvs
      rcases hvs with h0 | h0
      · omega
      · exact hjoin h0
    refine ⟨w :: vs, ?_, ?_⟩
    · rw [hvs, join, behind_eq_cons hne]
    · intro v hv
      rcases List.mem_cons.1 hv with rfl | hv
      · exact ⟨hw, v, List.mem_cons_self, List.prefix_rfl⟩
      · obtain ⟨hvw, w', hw', hpre⟩ := hall v hv
        exact ⟨hvw, w', List.mem_cons_of_mem w hw', hpre⟩

/-! ## What joined words look like -/

theorem ne_sep (hsep : accept sep = false) (hc : accept c = true) : c ≠ sep := by
  intro he
  rw [he, hsep] at hc
  cases hc

/-- Two separators behind accepted elements are behind them. -/
theorem infix_of_append (hsep : accept sep = false) (hu : ∀ c ∈ u, accept c = true)
    (h : [sep, sep] <:+: u ++ t) : [sep, sep] <:+: t := by
  induction u with
  | nil => exact h
  | cons c u ih =>
    rcases List.infix_cons_iff.1 h with h | h
    · have hc : sep = c := (List.cons_prefix_cons.1 h).1
      exact absurd hc.symm (ne_sep hsep (hu c List.mem_cons_self))
    · exact ih (fun d hd => hu d (List.mem_cons_of_mem c hd)) h

/-- No two separators stand together. -/
theorem not_infix_behind (hsep : accept sep = false) (h : ∀ w ∈ ws, IsWord accept w) :
    ¬ [sep, sep] <:+: behind sep ws := by
  induction ws with
  | nil => simp
  | cons w ws ih =>
    obtain ⟨hne, hall⟩ := h w List.mem_cons_self
    intro hin
    rw [behind_cons] at hin
    rcases List.infix_cons_iff.1 hin with hpre | hin
    · cases w with
      | nil => exact hne rfl
      | cons c w =>
        have hc : sep = c := (List.cons_prefix_cons.1 (List.cons_prefix_cons.1 hpre).2).1
        exact ne_sep hsep (hall c List.mem_cons_self) hc.symm
    · exact ih (fun w' hw' => h w' (List.mem_cons_of_mem w hw')) (infix_of_append hsep hall hin)

theorem not_infix_join (hsep : accept sep = false) (h : ∀ w ∈ ws, IsWord accept w) :
    ¬ [sep, sep] <:+: join sep ws := by
  by_cases hws : ws = []
  · simp [hws, join]
  · intro hin
    refine not_infix_behind hsep h ?_
    rw [behind_eq_cons hws]
    exact hin.trans (List.suffix_cons sep _).isInfix

theorem head_join (hsep : accept sep = false) (h : ∀ w ∈ ws, IsWord accept w) :
    (join sep ws).head? ≠ some sep := by
  cases ws with
  | nil => simp [join]
  | cons w ws =>
    obtain ⟨hne, hall⟩ := h w List.mem_cons_self
    cases w with
    | nil => exact absurd rfl hne
    | cons c w => simpa [join] using ne_sep hsep (hall c List.mem_cons_self)

theorem getLast_join (hsep : accept sep = false) (h : ∀ w ∈ ws, IsWord accept w) :
    (join sep ws).getLast? ≠ some sep := by
  by_cases hws : ws = []
  · simp [hws, join]
  · have hend : ∃ t w, join sep ws = t ++ w ∧ IsWord accept w := join_eq_append hws h
    obtain ⟨t, w, heq, hne, hall⟩ := hend
    rw [heq, List.getLast?_append_of_ne_nil _ hne]
    intro hlast
    exact ne_sep hsep (hall sep (List.mem_of_getLast? hlast)) rfl

/-! ## Collapsing and trimming -/

section
variable [DecidableEq α] (accept : α → Bool) (sep : α)

/-- Everything that is not accepted becomes a separator. -/
def mask (s : List α) : List α := s.map fun c => if accept c then c else sep

/-- A run of separators becomes one. -/
def collapse : List α → List α
  | [] => []
  | c :: s => if c = sep ∧ s.head? = some sep then collapse s else c :: collapse s

/-- Both ends without separators. -/
def trim (s : List α) : List α :=
  ((s.dropWhile (· = sep)).reverse.dropWhile (· = sep)).reverse

/-- The list ends with an element that is not accepted. -/
def trail : List α → Bool
  | [] => false
  | c :: s => if s = [] then !accept c else trail s

end

/-- Where a list starts with no word, it starts with an element that is not accepted. -/
theorem head_mask (hsep : accept sep = false) (hs : s ≠ []) :
    (mask accept sep s).head? = some sep ↔ (scan accept s).1 = [] := by
  cases s with
  | nil => exact absurd rfl hs
  | cons c s =>
    by_cases hc : accept c = true
    · simp [mask, scan_of_pos hc, hc, ne_sep hsep hc]
    · simp [mask, scan_of_neg hc, hc]

variable [DecidableEq α]

theorem collapse_mask (hsep : accept sep = false) (s : List α) : collapse sep (mask accept sep s) =
    (scan accept s).1 ++ behind sep (scan accept s).2 ++
      (if trail accept s then [sep] else []) := by
  induction s with
  | nil => rfl
  | cons c s ih =>
    have hmask : mask accept sep (c :: s) =
        (if accept c then c else sep) :: mask accept sep s := rfl
    by_cases hc : accept c = true
    · have htrail : trail accept (c :: s) = trail accept s := by
        cases s <;> simp [trail, hc]
      rw [hmask, if_pos hc, collapse, if_neg (fun h => ne_sep hsep hc h.1), ih,
        scan_of_pos hc, htrail]
      rfl
    · rw [hmask, if_neg hc, scan_of_neg hc]
      by_cases hs : s = []
      · subst hs
        simp [mask, collapse, words, scan, trail, hc]
      have htrail : trail accept (c :: s) = trail accept s := by
        simp [trail, hs]
      rw [htrail]
      by_cases hw : (scan accept s).1 = []
      · rw [collapse, if_pos ⟨rfl, (head_mask hsep hs).2 hw⟩, ih]
        simp [words, hw]
      · rw [collapse, if_neg (fun h => hw ((head_mask hsep hs).1 h.2)), ih]
        simp [words, hw]

theorem dropWhile_word (hsep : accept sep = false) (hw : IsWord accept w) (t : List α) :
    (w ++ t).dropWhile (· = sep) = w ++ t :=
  dropWhile_append_of_not hw.1 (fun c hc => by simpa using ne_sep hsep (hw.2 c hc)) t

/-- Trimming takes off the separators around joined words. -/
theorem trim_join (hsep : accept sep = false) (h : ∀ w ∈ ws, IsWord accept w) (b b' : Bool) :
    trim sep ((if b then [sep] else []) ++ join sep ws ++ (if b' then [sep] else [])) =
      join sep ws := by
  have hfront : ∀ t : List α, ((if b then [sep] else []) ++ t).dropWhile (· = sep) =
      t.dropWhile (· = sep) := by
    intro t
    cases b <;> simp
  have hback : ∀ t : List α, (t ++ if b' then [sep] else []).reverse.dropWhile (· = sep) =
      t.reverse.dropWhile (· = sep) := by
    intro t
    cases b' <;> simp
  unfold trim
  rw [List.append_assoc, hfront]
  cases ws with
  | nil => cases b' <;> simp [join]
  | cons w ws =>
    have hlast : ∃ t u, join sep (w :: ws) = t ++ u ∧ IsWord accept u :=
      join_eq_append (List.cons_ne_nil w ws) h
    obtain ⟨t, u, heq, hu⟩ := hlast
    have hstart := dropWhile_word hsep (h w List.mem_cons_self)
      (behind sep ws ++ if b' then [sep] else [])
    have hu' : IsWord accept u.reverse :=
      ⟨by simpa using hu.1, fun c hc => hu.2 c (List.mem_reverse.1 hc)⟩
    have hend := dropWhile_word hsep hu' t.reverse
    rw [join, List.append_assoc, hstart, ← List.append_assoc, hback]
    change ((join sep (w :: ws)).reverse.dropWhile (· = sep)).reverse = join sep (w :: ws)
    rw [heq, List.reverse_append, hend, List.reverse_append, List.reverse_reverse,
      List.reverse_reverse]

/-- **Masking, collapsing and trimming joins the words.** -/
theorem trim_collapse_mask (hsep : accept sep = false) (s : List α) :
    trim sep (collapse sep (mask accept sep s)) = join sep (words accept s) := by
  have htrim := trim_join hsep (fun w hw => isWord_of_mem (s := s) hw)
  rw [collapse_mask hsep]
  by_cases hw : (scan accept s).1 = []
  · have hwords : words accept s = (scan accept s).2 := by simp [words, hw]
    rw [hw, ← hwords, List.nil_append]
    cases hws : words accept s with
    | nil =>
      have h := htrim false (trail accept s)
      rw [hws] at h
      exact h
    | cons w ws =>
      have h := htrim true (trail accept s)
      rw [hws] at h
      exact h
  · have hwords : words accept s = (scan accept s).1 :: (scan accept s).2 := by simp [words, hw]
    have h := htrim false (trail accept s)
    rw [hwords] at h ⊢
    exact h

end Words
