import Mathlib.Data.List.Range
import Mathlib.Data.List.Sort

/-!
# Numbered lists

Lists whose items carry the numbers of an interval, once each.
-/

namespace Sequence

theorem foldl_max_range' (n : Nat) : (List.range' 1 n).foldl max 0 = n := by
  induction n with
  | zero => rfl
  | succ n ih =>
    rw [List.range'_1_concat, List.foldl_append, ih]
    simp only [List.foldl_cons, List.foldl_nil]
    omega

theorem filter_range' {k n : Nat} (h : k ≤ n) :
    (List.range' 1 n).filter (fun x => k < x) = List.range' (k + 1) (n - k) := by
  obtain ⟨j, rfl⟩ := Nat.exists_eq_add_of_le h
  rw [← List.range'_append_1, List.filter_append, Nat.add_sub_cancel_left, Nat.add_comm 1 k]
  have hlow : (List.range' 1 k).filter (fun x => k < x) = [] := by
    rw [List.filter_eq_nil_iff]
    intro x hx
    rw [List.mem_range'_1] at hx
    simp only [decide_eq_true_eq]
    omega
  have hhigh : (List.range' (k + 1) j).filter (fun x => k < x) = List.range' (k + 1) j := by
    rw [List.filter_eq_self]
    intro x hx
    rw [List.mem_range'_1] at hx
    simp only [decide_eq_true_eq]
    omega
  rw [hlow, hhigh, List.nil_append]

theorem take_range' (s n k : Nat) : (List.range' s n).take k = List.range' s (min k n) := by
  rcases Nat.le_total k n with h | h
  · rw [List.take_range'_of_length_ge h, Nat.min_eq_left h]
  · rw [List.take_range'_of_length_le h, Nat.min_eq_right h]

/-- A list in which the numbers of `range' s n` stand once each, sorted by them. -/
theorem map_insertionSort {α : Type} {f : α → Nat} {l : List α} {s n : Nat}
    (h : (l.map f).Perm (List.range' s n)) :
    (l.insertionSort fun x y => f x ≤ f y).map f = List.range' s n := by
  have : Std.Total (fun x y : α => f x ≤ f y) := ⟨fun x y => Nat.le_total _ _⟩
  have : IsTrans α (fun x y => f x ≤ f y) := ⟨fun x y z => Nat.le_trans⟩
  have hsorted : ((l.insertionSort fun x y => f x ≤ f y).map f).Pairwise (· ≤ ·) :=
    List.pairwise_map.2 (List.pairwise_insertionSort _ l)
  have hperm : ((l.insertionSort fun x y => f x ≤ f y).map f).Perm (List.range' s n) :=
    ((List.perm_insertionSort _ l).map f).trans h
  exact hperm.eq_of_pairwise (fun _ _ _ _ => Nat.le_antisymm) hsorted
    ((List.pairwise_lt_range' (s := s) (n := n)).imp fun h => Nat.le_of_lt h)

/-- The part of an interval above `k` is an interval. -/
theorem filter_take_range' (k n : Nat) :
    ∃ j, (List.range' 1 n).filter (fun x => k < x) = List.range' (k + 1) j := by
  rcases Nat.le_total k n with h | h
  · exact ⟨_, filter_range' h⟩
  · refine ⟨0, List.filter_eq_nil_iff.2 fun x hx => ?_⟩
    rw [List.mem_range'_1] at hx
    simp only [decide_eq_true_eq]
    omega

end Sequence
