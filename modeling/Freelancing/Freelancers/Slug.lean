import Freelancing.CodePoints
import Freelancing.Money.Types
import Freelancing.Words

/-!
# Skill slugs

`normalize_skill_slug` keeps the words of a case-folded text, joins them with hyphens and cuts the
result at 80 characters. The cut comes last, so it can leave a hyphen at the end (`take_of_cuts`); a
slug without one is joined words again (`take_join`), which every earlier step of the function
leaves as they are.
-/

namespace Freelancers

open Money (Err)

/-- What the functions use of Unicode: NFKC, the folding of a character and `str.isalnum`.
Characters stand for their code points, 45 is the hyphen. -/
structure Unicode where
  nfkc : CodePoints → CodePoints
  fold : Nat → CodePoints
  isalnum : Nat → Bool
  isalnum_hyphen : isalnum 45 = false
  not_space : ∀ c, isalnum c = true → CodePoints.isSpace c = false
  fold_hyphen : fold 45 = [45]
  /-- What characters fold to is folded. -/
  fold_fold : ∀ c, ∀ d ∈ fold c, isalnum d = true → fold d = [d]
  nfkc_nfkc : ∀ s, nfkc (nfkc s) = nfkc s
  /-- The alphanumeric characters of folded text combine with nothing. -/
  nfkc_run : ∀ s r, nfkc s = s → r <:+: s.flatMap fold → (∀ c ∈ r, isalnum c = true) → nfkc r = r
  /-- A hyphen combines with nothing on either side. -/
  nfkc_hyphen : ∀ s t, nfkc s = s → nfkc t = t → nfkc (s ++ 45 :: t) = s ++ 45 :: t

variable (U : Unicode)

/-- `str.casefold()`. -/
def Unicode.casefold (s : CodePoints) : CodePoints := s.flatMap U.fold

def normalizeSkillSlug (value : CodePoints) : Except Err CodePoints :=
  let normalized := U.casefold (CodePoints.strip (U.nfkc value))
  let slug := Words.trim 45 (Words.collapse 45 (Words.mask U.isalnum 45 normalized))
  if slug = [] then
    .error (.api ⟨"validation_error", "Invalid skill", 422, "Skill must contain letters or digits"⟩)
  else .ok (slug.take 80)

/-- The filters of a search. -/
inductive Filter
  | skills (terms : List CodePoints)
  | availability (available : Bool)

/-- The filters that `search_freelancers` builds. -/
def searchFilters (skills : List CodePoints) (available : Option Bool) :
    Except Err (List Filter) := do
  let filters ←
    if skills = [] then pure []
    else do
      let terms ← skills.mapM (normalizeSkillSlug U)
      pure [Filter.skills terms]
  match available with
  | none => pure filters
  | some available => pure (filters ++ [.availability available])

/-- What a stored slug is meant to be: well formed, and left alone by another normalisation. -/
structure IsSlug (s : CodePoints) : Prop where
  nonempty : s ≠ []
  length : s.length ≤ 80
  chars : ∀ c ∈ s, U.isalnum c = true ∨ c = 45
  single : ¬ [45, 45] <:+: s
  head : s.head? ≠ some 45
  last : s.getLast? ≠ some 45
  fixed : normalizeSkillSlug U s = .ok s
  searched : ∀ available, searchFilters U [s] available =
    .ok (.skills [s] :: available.toList.map .availability)

/-! ## The words of a text -/

/-- The words of the folded text. -/
def textWords (value : CodePoints) : List CodePoints :=
  Words.words U.isalnum (U.casefold (CodePoints.strip (U.nfkc value)))

variable {U} {value s w : CodePoints} {ws : List CodePoints}

theorem normalizeSkillSlug_eq_ok_iff : normalizeSkillSlug U value = .ok s ↔
    Words.join 45 (textWords U value) ≠ [] ∧ s = (Words.join 45 (textWords U value)).take 80 := by
  simp only [normalizeSkillSlug, Words.trim_collapse_mask U.isalnum_hyphen]
  by_cases hnil : Words.join 45 (textWords U value) = []
  · simp [textWords] at hnil
    simp [hnil, textWords]
  · rw [textWords] at hnil
    rw [if_neg hnil]
    simp [textWords, hnil, eq_comm]

/-- A word of a folded text is alphanumeric, folded and in normal form. -/
structure IsFolded (U : Unicode) (w : CodePoints) : Prop where
  word : Words.IsWord U.isalnum w
  fold : U.casefold w = w
  nfkc : U.nfkc w = w

theorem casefold_of_forall (h : ∀ c ∈ s, U.fold c = [c]) : U.casefold s = s := by
  induction s with
  | nil => rfl
  | cons c s ih =>
    have hs := ih fun d hd => h d (List.mem_cons_of_mem c hd)
    unfold Unicode.casefold at hs ⊢
    rw [List.flatMap_cons, h c List.mem_cons_self, hs]
    rfl

theorem isFolded_of_prefix (hw : w ∈ textWords U value) {v : CodePoints}
    (hv : Words.IsWord U.isalnum v) (hpre : v <+: w) : IsFolded U v := by
  have hin : v <:+: U.casefold (CodePoints.strip (U.nfkc value)) :=
    hpre.isInfix.trans (Words.infix_of_mem hw)
  refine ⟨hv, casefold_of_forall fun c hc => ?_, ?_⟩
  · obtain ⟨d, _, hcd⟩ := List.mem_flatMap.1 (hin.subset hc)
    exact U.fold_fold d c hcd (hv.2 c hc)
  · refine U.nfkc_run (U.nfkc value) v (U.nfkc_nfkc value) (hin.trans ?_) hv.2
    obtain ⟨a, b, hab⟩ := CodePoints.infix_strip (U.nfkc value)
    refine ⟨U.casefold a, U.casefold b, ?_⟩
    simp only [Unicode.casefold, ← List.flatMap_append, hab]

/-! ## Joined words are left alone -/

theorem nfkc_join (hne : ws ≠ []) (h : ∀ w ∈ ws, IsFolded U w) :
    U.nfkc (Words.join 45 ws) = Words.join 45 ws := by
  induction ws with
  | nil => exact absurd rfl hne
  | cons w ws ih =>
    have hw := (h w List.mem_cons_self).nfkc
    by_cases hnil : ws = []
    · simpa [hnil, Words.join] using hw
    · rw [Words.join, Words.behind_eq_cons hnil]
      exact U.nfkc_hyphen w _ hw (ih hnil fun w' hw' => h w' (List.mem_cons_of_mem w hw'))

theorem casefold_join (h : ∀ w ∈ ws, IsFolded U w) :
    U.casefold (Words.join 45 ws) = Words.join 45 ws := by
  induction ws using List.reverseRecOn with
  | nil => rfl
  | append_singleton ws w ih =>
    have hw := (h w (by simp)).fold
    have hws := ih fun w' hw' => h w' (List.mem_append_left _ hw')
    by_cases hnil : ws = []
    · simpa [hnil, Words.join] using hw
    · unfold Unicode.casefold at hw hws ⊢
      rw [Words.join_append hnil]
      simp [hw, hws, U.fold_hyphen]

/-- Nothing is stripped from text that starts and ends with letters or digits. -/
theorem strip_join (hne : ws ≠ []) (h : ∀ w ∈ ws, Words.IsWord U.isalnum w) :
    CodePoints.strip (Words.join 45 ws) = Words.join 45 ws := by
  have hfront : (Words.join 45 ws).dropWhile CodePoints.isSpace = Words.join 45 ws := by
    cases ws with
    | nil => exact absurd rfl hne
    | cons w ws =>
      have hw := h w List.mem_cons_self
      exact Words.dropWhile_append_of_not hw.1 (fun c hc => U.not_space c (hw.2 c hc)) _
  have hend : ∃ t w, Words.join 45 ws = t ++ w ∧ Words.IsWord U.isalnum w :=
    Words.join_eq_append hne h
  obtain ⟨t, w, heq, hw⟩ := hend
  have hback : (w.reverse ++ t.reverse).dropWhile CodePoints.isSpace = w.reverse ++ t.reverse := by
    refine Words.dropWhile_append_of_not (by simpa using hw.1) (fun c hc => ?_) _
    exact U.not_space c (hw.2 c (List.mem_reverse.1 hc))
  rw [CodePoints.strip, hfront, heq, List.reverse_append, hback]
  simp

theorem textWords_join (hne : ws ≠ []) (h : ∀ w ∈ ws, IsFolded U w) :
    textWords U (Words.join 45 ws) = ws := by
  have hwords : ∀ w ∈ ws, Words.IsWord U.isalnum w := fun w hw => (h w hw).word
  rw [textWords, nfkc_join hne h, strip_join hne hwords, casefold_join h,
    Words.words_join U.isalnum_hyphen hwords]

theorem searchFilters_of_fixed (h : normalizeSkillSlug U s = .ok s) (available : Option Bool) :
    searchFilters U [s] available = .ok (.skills [s] :: available.toList.map .availability) := by
  cases available <;> simp [searchFilters, h, pure, Except.pure, bind, Except.bind]

theorem isSlug_join (hne : ws ≠ []) (h : ∀ w ∈ ws, IsFolded U w)
    (hlen : (Words.join 45 ws).length ≤ 80) : IsSlug U (Words.join 45 ws) := by
  have hwords : ∀ w ∈ ws, Words.IsWord U.isalnum w := fun w hw => (h w hw).word
  have hnonempty : Words.join 45 ws ≠ [] := Words.join_ne_nil hne hwords
  have hfixed : normalizeSkillSlug U (Words.join 45 ws) = .ok (Words.join 45 ws) := by
    rw [normalizeSkillSlug_eq_ok_iff, textWords_join hne h]
    exact ⟨hnonempty, (List.take_of_length_le hlen).symm⟩
  refine ⟨hnonempty, hlen, fun c hc => ?_, Words.not_infix_join U.isalnum_hyphen hwords,
    Words.head_join U.isalnum_hyphen hwords, Words.getLast_join U.isalnum_hyphen hwords, hfixed,
    searchFilters_of_fixed hfixed⟩
  rcases Words.mem_join hc with hsep | hw
  · exact .inr hsep
  · obtain ⟨w, hw, hcw⟩ := hw
    exact .inl ((hwords w hw).2 c hcw)

/-! ## The slugs -/

/-- **A slug is well formed and a fixed point unless the cut fell right behind a hyphen.** -/
theorem slug_iff (h : normalizeSkillSlug U value = .ok s) :
    IsSlug U s ↔ ¬ Words.CutsBehind 45 80 (textWords U value) := by
  obtain ⟨hnonempty, rfl⟩ := normalizeSkillSlug_eq_ok_iff.1 h
  have hwords : ∀ w ∈ textWords U value, Words.IsWord U.isalnum w :=
    fun w hw => Words.isWord_of_mem hw
  constructor
  · intro hslug hcut
    obtain ⟨t, ht⟩ := Words.take_of_cuts hcut
    exact hslug.last (by simp [ht])
  · intro hcut
    obtain ⟨vs, hvs, hall⟩ := Words.take_join (by decide) hwords hcut
    have hlen : (Words.join 45 vs).length ≤ 80 := by
      rw [← hvs]
      exact List.length_take_le 80 _
    have hne : vs ≠ [] := by
      intro hnil
      rw [hnil, Words.join, List.take_eq_nil_iff] at hvs
      exact hvs.elim (by decide) hnonempty
    rw [hvs]
    refine isSlug_join hne (fun v hv => ?_) hlen
    obtain ⟨hv, w, hw, hpre⟩ := hall v hv
    exact isFolded_of_prefix hw hv hpre

/-- Unicode as it is on ASCII text. -/
def ascii : Unicode where
  nfkc s := s
  fold c := [if 65 ≤ c ∧ c ≤ 90 then c + 32 else c]
  isalnum c := (48 ≤ c && c ≤ 57) || (65 ≤ c && c ≤ 90) || (97 ≤ c && c ≤ 122)
  isalnum_hyphen := rfl
  not_space := by
    intro c hc
    simp [CodePoints.isSpace] at hc ⊢
    omega
  fold_hyphen := rfl
  fold_fold := by
    intro c d hd _
    rw [List.mem_singleton] at hd
    rw [if_neg]
    split at hd <;> omega
  nfkc_nfkc := fun _ => rfl
  nfkc_run := fun _ _ _ _ _ => rfl
  nfkc_hyphen := fun _ _ _ _ => rfl

theorem slug_iff_dataScience :
    normalizeSkillSlug ascii (CodePoints.text " Data Science") =
      .ok (CodePoints.text "data-science") ∧
      (IsSlug ascii (CodePoints.text "data-science") ↔
        ¬ Words.CutsBehind 45 80 (textWords ascii (CodePoints.text " Data Science"))) := by
  have h : normalizeSkillSlug ascii (CodePoints.text " Data Science") =
      .ok (CodePoints.text "data-science") := rfl
  exact ⟨h, slug_iff h⟩

/-- 79 letters and another word: the slug of the two ends with the hyphen between them. -/
theorem slug_cut : ¬ ∀ (U : Unicode) (value s : CodePoints),
    normalizeSkillSlug U value = .ok s → IsSlug U s := by
  intro hall
  have h : normalizeSkillSlug ascii (List.replicate 79 97 ++ [32, 98]) =
      .ok (List.replicate 79 97 ++ [45]) := rfl
  exact (hall ascii _ _ h).last (by simp)

end Freelancers
