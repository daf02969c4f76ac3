import Freelancing.Table
import Mathlib.Algebra.BigOperators.Group.List.Basic
import Mathlib.Algebra.Ring.Int.Defs

/-!
# Totals over a table

`total w l` adds up what `w` makes of the rows of `l`. A change of one row, or of what `w` makes of
one row, moves the total by that row's difference.
-/

namespace Table

variable {α κ : Type} [DecidableEq κ] {key : α → κ} {k : κ} {f : α → α} {l : List α} {x : α}
  {w w' : α → Int}

def total (w : α → Int) (l : List α) : Int := (l.map w).sum

@[simp] theorem total_nil : total w [] = 0 := rfl

@[simp] theorem total_cons : total w (x :: l) = w x + total w l := by
  simp [total]

theorem total_congr (h : ∀ x ∈ l, w' x = w x) : total w' l = total w l := by
  rw [total, total, List.map_congr_left h]

/-- A column that the change leaves alone. -/
theorem total_modify_same (h : ∀ x, w (f x) = w x) : total w (modify key k f l) = total w l := by
  rw [total, total, map_modify h]

/-- What is made of one row changes. -/
theorem total_update (hnd : (l.map key).Nodup) (hx : get key k l = some x)
    (h : ∀ y ∈ l, key y ≠ k → w' y = w y) : total w' l + w x = total w l + w' x := by
  induction l with
  | nil => cases hx
  | cons y l ih =>
    rw [List.map_cons, List.nodup_cons] at hnd
    rw [get_cons] at hx
    rw [total_cons, total_cons]
    by_cases hy : key y = k
    · rw [if_pos hy] at hx
      obtain rfl := Option.some.inj hx
      have hrest : total w' l = total w l := total_congr fun z hz =>
        h z (List.mem_cons_of_mem _ hz) fun he =>
          hnd.1 (by rw [hy, ← he]; exact List.mem_map_of_mem hz)
      omega
    · rw [if_neg hy] at hx
      have := ih hnd.2 hx fun z hz => h z (List.mem_cons_of_mem _ hz)
      have := h y List.mem_cons_self hy
      omega

/-- One row changes. -/
theorem total_modify (hnd : (l.map key).Nodup) (hx : get key k l = some x) :
    total w (modify key k f l) + w x = total w l + w (f x) := by
  have hmap : total w (modify key k f l) = total (fun y => w (if key y = k then f y else y)) l := by
    simp [total, modify, Function.comp_def]
  have hstep : total (fun y => w (if key y = k then f y else y)) l + w x =
      total w l + w (if key x = k then f x else x) :=
      total_update hnd hx fun y _ hy => by rw [if_neg hy]
  rw [hmap, hstep, if_pos (get_key hx)]

end Table
