import Mathlib.Data.List.Induction
import Mathlib.Data.List.Nodup
import Mathlib.Data.List.Pairwise
import Mathlib.Order.Antichain

/-!
# Greedy selection

One pass over a list keeps an element unless an element kept before covers it. Where nothing covers
an element before it (`Ordered`), what is kept are the minimal elements: those that no other element
covers.
-/

namespace Greedy

variable {α : Type} (covers : α → α → Prop)

/-- No element covers one before it. -/
def Ordered (l : List α) : Prop := l.Pairwise fun x y => ¬ covers y x

/-- Nothing else in `l` covers `x`. -/
def Uncovered (l : List α) (x : α) : Prop := ∀ p ∈ l, covers p x → p = x

theorem Ordered.sublist {covers : α → α → Prop} {l l' : List α} (h : Ordered covers l)
    (hs : l'.Sublist l) : Ordered covers l' :=
  List.Pairwise.sublist hs h

theorem Ordered.nodup {covers : α → α → Prop} [Std.Refl covers] {l : List α}
    (h : Ordered covers l) : l.Nodup := by
  refine List.Pairwise.imp ?_ h
  intro x y hn he
  subst he
  exact hn (refl_of covers x)

theorem Ordered.antisymm {covers : α → α → Prop} {l : List α} {x y : α} (h : Ordered covers l)
    (hx : x ∈ l) (hy : y ∈ l) (hxy : covers x y) (hyx : covers y x) : x = y := by
  have hpair : l.Pairwise fun a b => ¬ (covers a b ∧ covers b a) := h.imp fun hn hb => hn hb.2
  have : Std.Symm fun a b => ¬ (covers a b ∧ covers b a) := ⟨fun _ _ h hb => h hb.symm⟩
  by_contra hne
  exact hpair.forall hx hy hne ⟨hxy, hyx⟩

variable [DecidableRel covers]

def keep (selected : List α) (x : α) : List α :=
  if selected.any fun p => covers p x then selected else selected ++ [x]

def select (l : List α) : List α := l.foldl (keep covers) []

variable {covers} {l : List α} {x p q : α}

@[simp] theorem select_nil : select covers [] = [] := rfl

theorem select_append_singleton :
    select covers (l ++ [x]) = keep covers (select covers l) x := by
  simp [select]

theorem mem_keep {selected : List α} :
    p ∈ keep covers selected x ↔ p ∈ selected ∨ p = x ∧ ∀ q ∈ selected, ¬ covers q x := by
  unfold keep
  by_cases h : selected.any fun q => covers q x
  · rw [if_pos h]
    have h' : ∃ q ∈ selected, covers q x := by simpa using h
    constructor
    · exact Or.inl
    · intro hp
      rcases hp with hp | ⟨-, hp⟩
      · exact hp
      · obtain ⟨q, hq, hc⟩ := h'
        exact absurd hc (hp q hq)
  · rw [if_neg h]
    have h' : ∀ q ∈ selected, ¬ covers q x := by simpa using h
    simp only [List.mem_append, List.mem_singleton]
    constructor
    · intro hp
      exact hp.imp_right fun he => ⟨he, h'⟩
    · intro hp
      exact hp.imp_right And.left

/-- What has been kept stays. -/
theorem subset_keep (selected : List α) (x : α) : selected ⊆ keep covers selected x :=
  fun _ hp => mem_keep.2 (.inl hp)

theorem select_sublist (l : List α) : (select covers l).Sublist l := by
  induction l using List.reverseRecOn with
  | nil => exact .slnil
  | append_singleton l x ih =>
    rw [select_append_singleton]
    unfold keep
    split
    · exact ih.trans (List.sublist_append_left l [x])
    · exact ih.append (List.Sublist.refl [x])

/-- An element that is kept is covered by none that was kept before. -/
theorem pairwise_select (l : List α) : (select covers l).Pairwise fun p x => ¬ covers p x := by
  induction l using List.reverseRecOn with
  | nil => exact .nil
  | append_singleton l x ih =>
    rw [select_append_singleton]
    unfold keep
    split
    · exact ih
    · rename_i h
      have h' : ∀ q ∈ select covers l, ¬ covers q x := by simpa using h
      rw [List.pairwise_append]
      refine ⟨ih, List.pairwise_singleton _ x, ?_⟩
      intro q hq y hy
      rw [List.mem_singleton.1 hy]
      exact h' q hq

/-- Every element is covered by one that is kept. -/
theorem exists_covers [Std.Refl covers] (hx : x ∈ l) : ∃ p ∈ select covers l, covers p x := by
  induction l using List.reverseRecOn with
  | nil => simp at hx
  | append_singleton l y ih =>
    rw [select_append_singleton]
    rcases List.mem_append.1 hx with hx | hx
    · obtain ⟨p, hp, hc⟩ := ih hx
      exact ⟨p, subset_keep _ y hp, hc⟩
    · obtain rfl := List.mem_singleton.1 hx
      by_cases h : ∃ q ∈ select covers l, covers q x
      · obtain ⟨q, hq, hc⟩ := h
        exact ⟨q, subset_keep _ x hq, hc⟩
      · refine ⟨x, mem_keep.2 (.inr ⟨rfl, ?_⟩), refl_of covers x⟩
        intro q hq hc
        exact h ⟨q, hq, hc⟩

/-- No two elements that are kept cover each other. -/
theorem antichain_select (h : Ordered covers l) (hp : p ∈ select covers l)
    (hq : q ∈ select covers l) (hc : covers p q) : p = q := by
  have hboth : (select covers l).Pairwise fun p x => ¬ covers p x ∧ ¬ covers x p :=
    (pairwise_select l).and (h.sublist (select_sublist l))
  have : Std.Symm fun p x => ¬ covers p x ∧ ¬ covers x p := ⟨fun _ _ h => ⟨h.2, h.1⟩⟩
  by_contra hne
  exact (hboth.forall hp hq hne).1 hc

/-- **What is kept are the elements that nothing else covers.** -/
theorem mem_select [Std.Refl covers] [IsTrans α covers] (h : Ordered covers l) :
    x ∈ select covers l ↔ x ∈ l ∧ Uncovered covers l x := by
  constructor
  · intro hx
    refine ⟨(select_sublist l).subset hx, ?_⟩
    intro y hy hyx
    have hkept : ∃ p ∈ select covers l, covers p y := exists_covers hy
    obtain ⟨p, hp, hpy⟩ := hkept
    -- what covers `y` covers `x`, so it is `x`, and `x` and `y` cover each other
    have hpx : p = x := antichain_select h hp hx (trans_of covers hpy hyx)
    subst hpx
    exact h.antisymm hy ((select_sublist l).subset hp) hyx hpy
  · intro hx
    have hkept : ∃ p ∈ select covers l, covers p x := exists_covers hx.1
    obtain ⟨p, hp, hpx⟩ := hkept
    rw [← hx.2 p ((select_sublist l).subset hp) hpx]
    exact hp

/-- A selection out of `l` that covers all of `l` has everything that is kept. -/
theorem select_subset [Std.Refl covers] [IsTrans α covers] (h : Ordered covers l) {m : List α}
    (hm : m ⊆ l) (hc : ∀ x ∈ l, ∃ p ∈ m, covers p x) : select covers l ⊆ m := by
  intro x hx
  obtain ⟨hxl, hu⟩ := (mem_select h).1 hx
  obtain ⟨p, hp, hpx⟩ := hc x hxl
  rw [← hu p (hm hp) hpx]
  exact hp

end Greedy
