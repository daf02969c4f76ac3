import Freelancing.Ci.Targets

/-!
# Selections of growing changes

What a change selects is what the touched domains have, or the full core where it touches none. The
first grows with the change, but a second file that touches a domain ends the fallback that an
unknown file had.
-/

namespace Ci

variable {config : Config} {changed changed' : List Str} {flags : Flags} {f g : String}
  {s s' : Selection} {k : Suite} {t : Str}

/-! ## Flags -/

@[simp] theorem keys_set : (flags.set g).map Prod.fst = flags.map Prod.fst := by
  unfold Flags.set
  rw [List.map_map]
  refine List.map_congr_left ?_
  intro e _
  by_cases h : e.1 = g <;> simp [h]

theorem mem_set (hg : g ∈ flags.map Prod.fst) :
    (f, true) ∈ flags.set g ↔ (f, true) ∈ flags ∨ f = g := by
  simp only [Flags.set, List.mem_map]
  constructor
  · intro h
    obtain ⟨e, he, heq⟩ := h
    by_cases hk : e.1 = g
    · rw [if_pos hk, Prod.mk.injEq] at heq
      exact .inr heq.1.symm
    · rw [if_neg hk] at heq
      exact .inl (heq ▸ he)
  · intro h
    rcases h with h | rfl
    · refine ⟨(f, true), h, ?_⟩
      by_cases hk : f = g <;> simp [hk]
    · obtain ⟨e, he, rfl⟩ := List.mem_map.1 hg
      exact ⟨e, he, if_pos rfl⟩

@[simp] theorem keys_foldl_set (fs : List String) :
    (fs.foldl Flags.set flags).map Prod.fst = flags.map Prod.fst := by
  induction fs generalizing flags with
  | nil => rfl
  | cons g fs ih => rw [List.foldl_cons, ih, keys_set]

theorem mem_foldl_set {fs : List String} (h : ∀ g ∈ fs, g ∈ flags.map Prod.fst) :
    (f, true) ∈ fs.foldl Flags.set flags ↔ (f, true) ∈ flags ∨ f ∈ fs := by
  induction fs generalizing flags with
  | nil => simp
  | cons g fs ih =>
    have hfs : ∀ x ∈ fs, x ∈ (flags.set g).map Prod.fst := by
      intro x hx
      rw [keys_set]
      exact h x (List.mem_cons_of_mem g hx)
    rw [List.foldl_cons, ih hfs, mem_set (h g List.mem_cons_self), List.mem_cons, or_assoc]

theorem setFlags_ok {domain : String} {fs : List String} (h : ∀ g ∈ fs, g ∈ flags.map Prod.fst) :
    setFlags domain fs flags = .ok (fs.foldl Flags.set flags) := by
  induction fs generalizing flags with
  | nil => rfl
  | cons g fs ih =>
    unfold setFlags
    rw [if_pos (h g List.mem_cons_self), ih, List.foldl_cons]
    intro x hx
    rw [keys_set]
    exact h x (List.mem_cons_of_mem g hx)

/-! ## The loop over the domains -/

/-- `s'` has what `s` has and what the domains `ds` select. -/
structure Selects (ds : List (String × Mapping)) (s s' : Selection) : Prop where
  domains : s'.domains = s.domains ++ ds.map Prod.fst
  keys : s'.flags.map Prod.fst = s.flags.map Prod.fst
  flags : ∀ f, (f, true) ∈ s'.flags ↔ (f, true) ∈ s.flags ∨ ∃ d ∈ ds, f ∈ d.2.flags
  targets : ∀ k t, t ∈ s'.targets k ↔ t ∈ s.targets k ∨ ∃ d ∈ ds, t ∈ d.2.targets k

theorem Selects.refl (s : Selection) : Selects [] s s := by
  constructor <;> simp

theorem Selects.cons {s₁ : Selection} {d : String × Mapping} {ds : List (String × Mapping)}
    (h : Selects [d] s s₁) (h' : Selects ds s₁ s') : Selects (d :: ds) s s' where
  domains := by simp [h'.domains, h.domains]
  keys := h'.keys.trans h.keys
  flags f := by simp [h'.flags, h.flags, or_assoc]
  targets k t := by simp [h'.targets, h.targets, or_assoc]

theorem add_ok (d : String × Mapping) (h : ∀ f ∈ d.2.flags, f ∈ s.flags.map Prod.fst) :
    ∃ s', s.add d.1 d.2 = .ok s' ∧ Selects [d] s s' := by
  refine ⟨⟨s.domains ++ [d.1], d.2.flags.foldl Flags.set s.flags,
    fun k => s.targets k ∪ (d.2.targets k).toFinset⟩, ?_, ?_⟩
  · unfold Selection.add
    rw [setFlags_ok h]
    rfl
  · exact ⟨rfl, keys_foldl_set _, fun f => by simp [mem_foldl_set h], fun k t => by simp⟩

/-- The domains of the list that a change touches. -/
def touchedBy (changed : List Str) (ds : List (String × Mapping)) : List (String × Mapping) :=
  ds.filter fun d => d.2.touched changed

theorem selectDomains_ok {ds : List (String × Mapping)}
    (h : ∀ d ∈ ds, ∀ f ∈ d.2.flags, f ∈ s.flags.map Prod.fst) :
    ∃ s', selectDomains changed ds s = .ok s' ∧ Selects (touchedBy changed ds) s s' := by
  induction ds generalizing s with
  | nil => exact ⟨s, rfl, .refl s⟩
  | cons d ds ih =>
    unfold selectDomains
    by_cases ht : d.2.touched changed = true
    · obtain ⟨s₁, hadd, hs⟩ := add_ok d (h d List.mem_cons_self)
      have hds : ∀ e ∈ ds, ∀ f ∈ e.2.flags, f ∈ s₁.flags.map Prod.fst := by
        intro e he f hf
        rw [hs.keys]
        exact h e (List.mem_cons_of_mem d he) f hf
      obtain ⟨s', hsel, hs'⟩ := ih hds
      have hcons : touchedBy changed (d :: ds) = d :: touchedBy changed ds := by
        simp [touchedBy, ht]
      rw [if_pos ht, hadd, hcons]
      exact ⟨s', hsel, hs.cons hs'⟩
    · have hskip : touchedBy changed (d :: ds) = touchedBy changed ds := by simp [touchedBy, ht]
      rw [if_neg ht, hskip]
      exact ih fun e he => h e (List.mem_cons_of_mem d he)

/-! ## What a change selects -/

/-- The change touches a domain. -/
def Config.Touched (config : Config) (changed : List Str) : Prop :=
  ∃ d ∈ config.domains, d.2.touched changed = true

/-- The change has files, and touches no domain. -/
def FallsBack (config : Config) (changed : List Str) :
    Prop := ¬ config.Touched changed ∧ changed ≠ []

/-- A touched domain sets the flag. -/
def FlagTouched (config : Config) (changed : List Str) (f : String) : Prop :=
  ∃ d ∈ config.domains, d.2.touched changed = true ∧ f ∈ d.2.flags

/-- A touched domain has the target. -/
def TargetTouched (config : Config) (changed : List Str) (k : Suite) (t : Str) : Prop :=
  ∃ d ∈ config.domains, d.2.touched changed = true ∧ t ∈ d.2.targets k

/-- The result has what the touched domains select, and the full core where there are none. -/
structure Result.Of (config : Config) (changed : List Str) (r : Result) : Prop where
  flags : ∀ f, (f, true) ∈ r.flags ↔
    FlagTouched config changed f ∨ FallsBack config changed ∧ f ∈ coreFlags
  targets : ∀ k t, (∃ p ∈ r.targets k, covers p t) ↔
    ∃ p, (TargetTouched config changed k p ∨ FallsBack config changed ∧ p ∈ coreTargets k) ∧
    covers p t

theorem touchedBy_eq_nil : touchedBy changed config.domains = [] ↔ ¬ config.Touched changed := by
  simp [touchedBy, Config.Touched]

theorem not_mem_empty : (f, true) ∉ Selection.empty.flags := by
  simp [Selection.empty]

theorem calculate_ok (changed : List Str) (hv : config.Valid) :
    ∃ r, calculate changed config = .ok r ∧ r.Of config changed := by
  have hkeys : Selection.empty.flags.map Prod.fst = ALL_FLAGS := by decide
  have hselect : ∃ s, selectDomains changed config.domains .empty = .ok s ∧
      Selects (touchedBy changed config.domains) .empty s :=
    selectDomains_ok (by rw [hkeys]; exact hv)
  obtain ⟨s, hsel, hs⟩ := hselect
  have hflag : ∀ f, (f, true) ∈ s.flags ↔ FlagTouched config changed f := by
    intro f
    simp [hs.flags, not_mem_empty, touchedBy, FlagTouched, and_assoc]
  have htarget : ∀ k t, t ∈ s.targets k ↔ TargetTouched config changed k t := by
    intro k t
    simp [hs.targets, Selection.empty, touchedBy, TargetTouched, and_assoc]
  have hdomains : s.domains = [] ↔ ¬ config.Touched changed := by
    rw [hs.domains, ← touchedBy_eq_nil]
    simp [Selection.empty]
  unfold calculate
  rw [hsel]
  by_cases hfb : FallsBack config changed
  · have hcond : (s.domains.isEmpty && !changed.isEmpty) = true := by
      simp [hdomains.2 hfb.1, hfb.2]
    refine ⟨⟨s.fallback.domains, s.fallback.flags, fun k => minimizeTargets (s.fallback.targets k)⟩,
      ?_, ?_, ?_⟩
    · change Except.ok _ = _
      simp only [hcond, if_true]
    · intro f
      have hcore : ∀ g ∈ coreFlags, g ∈ s.flags.map Prod.fst := by
        rw [hs.keys, hkeys]
        decide
      simp [Selection.fallback, mem_foldl_set hcore, hflag, hfb]
    · intro k t
      simp [minimizeTargets_covers, Selection.fallback, htarget, hfb]
  · have hcond : ¬ (s.domains.isEmpty && !changed.isEmpty) = true := by
      intro hc
      simp only [Bool.and_eq_true, List.isEmpty_iff, Bool.not_eq_true',
        List.isEmpty_eq_false_iff] at hc
      exact hfb ⟨hdomains.1 hc.1, hc.2⟩
    refine ⟨⟨s.domains, s.flags, fun k => minimizeTargets (s.targets k)⟩, ?_, ?_, ?_⟩
    · change Except.ok _ = _
      simp only [hcond]
      rfl
    · intro f
      simp [hflag, hfb]
    · intro k t
      simp [minimizeTargets_covers, htarget, hfb]

/-! ## Adding files -/

theorem touched_mono {m : Mapping} (h : changed ⊆ changed') (ht : m.touched changed = true) :
    m.touched changed' = true := by
  unfold Mapping.touched at ht ⊢
  rw [List.any_eq_true] at ht ⊢
  obtain ⟨path, hp, hm⟩ := ht
  exact ⟨path, h hp, hm⟩

theorem FlagTouched.mono (h : changed ⊆ changed') (hf : FlagTouched config changed f) :
    FlagTouched config changed' f := by
  obtain ⟨d, hd, ht, hf⟩ := hf
  exact ⟨d, hd, touched_mono h ht, hf⟩

theorem TargetTouched.mono (h : changed ⊆ changed') (ht : TargetTouched config changed k t) :
    TargetTouched config changed' k t := by
  obtain ⟨d, hd, ht, hm⟩ := ht
  exact ⟨d, hd, touched_mono h ht, hm⟩

/-- What is selected for `changed` is selected for `changed'`. -/
def Grows (config : Config) (changed changed' : List Str) : Prop :=
  ∃ r r', calculate changed config = .ok r ∧ calculate changed' config = .ok r' ∧
    (∀ f, (f, true) ∈ r.flags → (f, true) ∈ r'.flags) ∧
    ∀ k, ∀ t ∈ r.targets k, ∃ p ∈ r'.targets k, covers p t

/-- The touched domains select the full core by themselves. -/
def CoreTouched (config : Config) (changed : List Str) : Prop :=
  (∀ f ∈ coreFlags, FlagTouched config changed f) ∧
    ∀ k, ∀ t ∈ coreTargets k, ∃ p, TargetTouched config changed k p ∧ covers p t

/-- **Adding files removes no check** unless it ends a fallback, by a file that touches a domain,
and the touched domains do not select the full core by themselves. -/
theorem selection_grows (hv : config.Valid) (h : changed ⊆ changed') :
    Grows config changed changed' ↔
      changed = [] ∨ config.Touched changed ∨ ¬ config.Touched changed' ∨
        CoreTouched config changed' := by
  obtain ⟨r, hr, hof⟩ := calculate_ok changed hv
  obtain ⟨r', hr', hof'⟩ := calculate_ok changed' hv
  have hgrows : Grows config changed changed' ↔ (∀ f, (f, true) ∈ r.flags → (f, true) ∈ r'.flags) ∧
      ∀ k, ∀ t ∈ r.targets k, ∃ p ∈ r'.targets k, covers p t := by
    constructor
    · intro hg
      obtain ⟨a, b, ha, hb, hg⟩ := hg
      rw [hr] at ha
      rw [hr'] at hb
      cases ha
      cases hb
      exact hg
    · intro hg
      exact ⟨r, r', hr, hr', hg⟩
  rw [hgrows]
  constructor
  · intro hg
    by_cases hnil : changed = []
    · exact .inl hnil
    by_cases ht : config.Touched changed
    · exact .inr (.inl ht)
    by_cases ht' : config.Touched changed'
    · have hfb : FallsBack config changed := ⟨ht, hnil⟩
      have hfb' : ¬ FallsBack config changed' := fun hfb' => hfb'.1 ht'
      refine .inr (.inr (.inr ⟨?_, ?_⟩))
      · intro f hf
        have hset := (hof'.flags f).1 (hg.1 f ((hof.flags f).2 (.inr ⟨hfb, hf⟩)))
        simpa [hfb'] using hset
      · intro k t hc
        obtain ⟨p, hp, hpt⟩ := (hof.targets k t).2 ⟨t, .inr ⟨hfb, hc⟩, refl_of covers t⟩
        obtain ⟨q, hq, hqp⟩ := hg.2 k p hp
        have hcov := (hof'.targets k t).1 ⟨q, hq, trans_of covers hqp hpt⟩
        simpa [hfb'] using hcov
    · exact .inr (.inr (.inl ht'))
  · intro hcond
    -- only the fallback needs the condition
    have hback : FallsBack config changed → FallsBack config changed' ∨
        CoreTouched config changed' := by
      intro hfb
      rcases hcond with hnil | ht | ht' | hcore
      · exact absurd hnil hfb.2
      · exact absurd ht hfb.1
      · refine .inl ⟨ht', ?_⟩
        intro hnil
        rw [hnil] at h
        exact hfb.2 (List.subset_nil.1 h)
      · exact .inr hcore
    constructor
    · intro f hf
      rw [hof'.flags]
      rcases (hof.flags f).1 hf with hf | ⟨hfb, hf⟩
      · exact .inl (hf.mono h)
      · rcases hback hfb with hfb' | hcore
        · exact .inr ⟨hfb', hf⟩
        · exact .inl (hcore.1 f hf)
    · intro k t ht
      rw [hof'.targets]
      obtain ⟨p, hp, hpt⟩ := (hof.targets k t).1 ⟨t, ht, refl_of covers t⟩
      rcases hp with hp | ⟨hfb, hp⟩
      · exact ⟨p, .inl (hp.mono h), hpt⟩
      · rcases hback hfb with hfb' | hcore
        · exact ⟨p, .inr ⟨hfb', hp⟩, hpt⟩
        · obtain ⟨q, hq, hqp⟩ := hcore.2 k p hp
          exact ⟨q, .inl hq, trans_of covers hqp hpt⟩

/-! ## An unknown file and a document -/

def docs : Mapping := ⟨["docs/**".toList, "README.md".toList], ["docs"], fun _ => []⟩

def docsConfig : Config := ⟨[("docs", docs)], by decide⟩

def unknownFile : Str := "new-area/unknown.py".toList

theorem docsConfig_valid : docsConfig.Valid := by
  unfold Config.Valid
  decide

theorem touched_docs (changed : List Str) :
    docsConfig.Touched changed ↔ docs.touched changed = true := by
  simp [Config.Touched, docsConfig]

theorem readme_ends_fallback : ¬ ∀ (config : Config) (changed changed' : List Str),
    config.Valid → changed ⊆ changed' → Grows config changed changed' := by
  intro h
  obtain ⟨r, r', hr, hr', hflags, -⟩ := h docsConfig [unknownFile] [unknownFile, "README.md".toList]
    docsConfig_valid (by simp)
  obtain ⟨a, ha, hof⟩ := calculate_ok [unknownFile] docsConfig_valid
  obtain ⟨b, hb, hof'⟩ := calculate_ok [unknownFile, "README.md".toList] docsConfig_valid
  rw [hr] at ha
  rw [hr'] at hb
  cases ha
  cases hb
  have hnot : docs.touched [unknownFile] = false := by decide +kernel
  have hdoc : docs.touched [unknownFile, "README.md".toList] = true := by decide +kernel
  have hfb : FallsBack docsConfig [unknownFile] := by
    refine ⟨?_, by simp⟩
    rw [touched_docs, hnot]
    simp
  have hpython := (hof'.flags "python").1
      (hflags "python" ((hof.flags "python").2 (.inr ⟨hfb, by decide⟩)))
  rcases hpython with ⟨d, hd, -, hf⟩ | ⟨hfb', -⟩
  · simp only [docsConfig, List.mem_singleton] at hd
    subst hd
    simp [docs] at hf
  · exact hfb'.1 ((touched_docs _).2 hdoc)

/-- A second unknown file changes nothing. -/
theorem selection_grows_unknown :
    Grows docsConfig [unknownFile] [unknownFile, "new-area/other.py".toList] := by
  refine (selection_grows docsConfig_valid (by simp)).2 (.inr (.inr (.inl ?_)))
  rw [touched_docs]
  decide +kernel

end Ci
