import Freelancing.Ci.Impact

/-!
# The targets of a selection

`_minimize_targets` keeps the targets that lie below no other one. The loop only looks at the
targets that it has kept, so it is right if a path stands behind its ancestors: an ancestor has
fewer slashes, and the number of slashes is what is sorted by first.
-/

namespace Ci

variable {p q t : Str} {targets : Finset Str}

/-! ## Ancestors -/

instance : Std.Refl covers := ⟨fun _ => .inl rfl⟩

theorem prefix_of_covers (h : covers p t) : p <+: t := by
  rcases h with rfl | h
  · exact List.prefix_rfl
  · exact (List.prefix_append p ['/']).trans h

instance : IsTrans Str covers where
  trans p q t hpq hqt := by
    rcases hpq with rfl | hpq
    · exact hqt
    · exact .inr (hpq.trans (prefix_of_covers hqt))

theorem count_of_covers (h : covers p t) (hne : t ≠ p) : p.count '/' < t.count '/' := by
  rcases h with rfl | h
  · exact absurd rfl hne
  · have hle := List.Sublist.count_le '/' h.sublist
    simp at hle
    omega

/-- The ancestors of a path are ancestors of each other. -/
theorem covers_total (hp : covers p t) (hq : covers q t) : covers p q ∨ covers q p := by
  rcases hp with rfl | hp
  · exact .inr hq
  rcases hq with rfl | hq
  · exact .inl (.inr hp)
  by_cases hlt : p.length < q.length
  · -- the slash behind `p` in `t` is a character of `q`
    refine .inl (.inr (List.prefix_of_prefix_length_le hp
      ((List.prefix_append q ['/']).trans hq) ?_))
    simp
    omega
  by_cases hgt : q.length < p.length
  · refine .inr (.inr
      (List.prefix_of_prefix_length_le hq ((List.prefix_append p ['/']).trans hp) ?_))
    simp
    omega
  · have hpq : p <+: q :=
      List.prefix_of_prefix_length_le ((List.prefix_append p ['/']).trans hp)
        ((List.prefix_append q ['/']).trans hq) (by omega)
    exact .inl (.inl (hpq.eq_of_length (by omega)).symm)

/-! ## The sorted targets -/

theorem ordered_sort (targets : Finset Str) : Greedy.Ordered covers (targets.sort Precedes) := by
  have hsorted := (targets.pairwise_sort Precedes).and (targets.sort_nodup Precedes)
  refine hsorted.imp ?_
  intro x y hxy hc
  have hlt : sortKey y < sortKey x := Prod.Lex.toLex_lt_toLex.2 (.inl (count_of_covers hc hxy.2))
  exact absurd hxy.1 (not_le_of_gt hlt)

theorem mem_minimizeTargets :
    t ∈ minimizeTargets targets ↔ t ∈ targets ∧ ∀ p ∈ targets, covers p t → p = t := by
  unfold minimizeTargets
  rw [Greedy.mem_select (ordered_sort targets)]
  simp [Greedy.Uncovered]

theorem exists_minimizeTargets (ht : t ∈ targets) : ∃ p ∈ minimizeTargets targets, covers p t :=
  Greedy.exists_covers ((Finset.mem_sort Precedes).2 ht)

/-- What covers a target is covered by a target that is kept. -/
theorem minimizeTargets_covers :
    (∃ p ∈ minimizeTargets targets, covers p t) ↔ ∃ p ∈ targets, covers p t := by
  constructor
  · intro h
    obtain ⟨p, hp, hc⟩ := h
    exact ⟨p, (mem_minimizeTargets.1 hp).1, hc⟩
  · intro h
    obtain ⟨p, hp, hc⟩ := h
    obtain ⟨q, hq, hqp⟩ := exists_minimizeTargets hp
    exact ⟨q, hq, trans_of covers hqp hc⟩

/-- **The kept targets**: each target is one of them or below exactly one of them, none is below
another, they are the targets that are below no other, and every list of targets that covers all has
them. -/
theorem minimizeTargets_exact (targets : Finset Str) :
    (minimizeTargets targets).Nodup ∧ (∀ t ∈ minimizeTargets targets, t ∈ targets) ∧
    (∀ t ∈ targets, ∃! p, p ∈ minimizeTargets targets ∧ covers p t) ∧
    (∀ p ∈ minimizeTargets targets, ∀ q ∈ minimizeTargets targets, covers p q → p = q) ∧
    (∀ t, t ∈ minimizeTargets targets ↔ t ∈ targets ∧ ¬ ∃ p ∈ targets, p ≠ t ∧ p ++ ['/'] <+: t) ∧
    ∀ kept : List Str, (∀ t ∈ kept, t ∈ targets) → (∀ t ∈ targets, ∃ p ∈ kept, covers p t) →
      minimizeTargets targets ⊆ kept := by
  have hord := ordered_sort targets
  refine ⟨((ordered_sort targets).sublist (Greedy.select_sublist _)).nodup, ?_, ?_, ?_, ?_, ?_⟩
  · intro t ht
    exact (mem_minimizeTargets.1 ht).1
  · intro t ht
    obtain ⟨p, hp, hc⟩ := exists_minimizeTargets ht
    refine ⟨p, ⟨hp, hc⟩, ?_⟩
    intro q hq
    rcases covers_total hc hq.2 with hpq | hqp
    · exact (Greedy.antichain_select hord hp hq.1 hpq).symm
    · exact Greedy.antichain_select hord hq.1 hp hqp
  · intro p hp q hq hc
    exact Greedy.antichain_select hord hp hq hc
  · intro t
    rw [mem_minimizeTargets]
    refine and_congr_right fun _ => ?_
    constructor
    · intro h hex
      obtain ⟨p, hp, hne, hpre⟩ := hex
      exact hne (h p hp (.inr hpre))
    · intro h p hp hc
      by_contra hne
      exact h ⟨p, hp, hne, hc.resolve_left (Ne.symm hne)⟩
  · intro kept hk hc
    refine Greedy.select_subset hord ?_ ?_
    · intro t ht
      exact (Finset.mem_sort Precedes).2 (hk t ht)
    · intro t ht
      exact hc t ((Finset.mem_sort Precedes).1 ht)

end Ci
