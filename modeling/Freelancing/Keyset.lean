import Mathlib.Data.List.Sort

/-!
# Keyset pagination

The rows of a query in the descending order of a key, read page after page: a page goes on behind
the key of the row that the page before it ended with, and looks one row ahead to say whether there
is a next one. `follow` is the client that asks for pages until one has no next page.
-/

namespace Keyset

/-! ## Following the pages -/

section Follow

variable {α γ ε : Type}

/-- The pages that `fetch` answers with, `fetch i c` for the `i`-th with the cursor `c`; `none` when
`fuel` pages were not enough. -/
def follow (fetch : Nat → Option γ → Except ε (List α × Option γ)) :
    Nat → Nat → Option γ → Except ε (Option (List (List α)))
  | 0, _, _ => .ok none
  | fuel + 1, i, c => do
    let (items, next) ← fetch i c
    match next with
    | none => return some [items]
    | some c =>
      let pages ← follow fetch fuel (i + 1) (some c)
      return pages.map (items :: ·)

/-- A page of the rows `rest`: all of them, or the first `n` and a cursor for the others. -/
def IsPage (Remains : Option γ → List α → Prop) (rest : List α) (p : List α × Option γ) : Prop :=
  p = (rest, none) ∨
    ∃ n c, 0 < n ∧ n < rest.length ∧ p = (rest.take n, some c) ∧ Remains (some c) (rest.drop n)

variable {fetch : Nat → Option γ → Except ε (List α × Option γ)}
  {Remains : Option γ → List α → Prop}

/-- **The pages of `rest` are `rest`.** -/
theorem follow_enumerates
    (hpage : ∀ i c rest, Remains c rest → ∃ p, fetch i c = .ok p ∧ IsPage Remains rest p)
    {rest : List α} {c : Option γ} (hrest : Remains c rest) (i : Nat) :
    ∃ pages, pages.flatten = rest ∧
      ∀ fuel, rest.length < fuel → follow fetch fuel i c = .ok (some pages) := by
  -- every page but the last takes at least one row off what remains
  induction hn : rest.length using Nat.strong_induction_on generalizing rest c i with
  | _ n ih =>
    subst hn
    obtain ⟨p, hfetch, rfl | ⟨n, c', hn0, hn, rfl, hdrop⟩⟩ := hpage i c rest hrest
    · refine ⟨[rest], by simp, fun fuel hfuel => ?_⟩
      obtain ⟨fuel, rfl⟩ := Nat.exists_eq_succ_of_ne_zero (Nat.ne_zero_of_lt hfuel)
      simp only [follow, hfetch]
      rfl
    · have hlen : (rest.drop n).length < rest.length := by
        rw [List.length_drop]
        omega
      obtain ⟨pages, hflat, hpages⟩ := ih _ hlen hdrop (i + 1) rfl
      refine ⟨rest.take n :: pages, ?_, fun fuel hfuel => ?_⟩
      · rw [List.flatten_cons, hflat, List.take_append_drop]
      · obtain ⟨fuel, rfl⟩ := Nat.exists_eq_succ_of_ne_zero (Nat.ne_zero_of_lt hfuel)
        have hrec : follow fetch fuel (i + 1) (some c') = .ok (some pages) := by
          apply hpages
          omega
        simp only [follow, hfetch]
        simp only [bind, Except.bind, hrec]
        rfl

end Follow

/-! ## Rows behind a key -/

section Rows

variable {α κ : Type} [LinearOrder κ] {key : α → κ} {l : List α} {x : α} {n : Nat} {k : Option κ}

def Descending (key : α → κ) (l : List α) : Prop := l.Pairwise fun x y => key y < key x

theorem Descending.filter (h : Descending key l) (p : α → Bool) : Descending key (l.filter p) :=
  List.Pairwise.filter p h

/-- The rows behind a key, all of them where there is none. -/
def behind (key : α → κ) (k : Option κ) (l : List α) : List α :=
  match k with
  | none => l
  | some k => l.filter fun y => key y < k

/-- What is behind the last row of a page is what the page left. -/
theorem behind_getLast (h : Descending key l) (hx : (l.take n).getLast? = some x) :
    behind key (some (key x)) l = l.drop n := by
  obtain ⟨init, hinit⟩ := List.getLast?_eq_some_iff.1 hx
  have hl : l = init ++ [x] ++ l.drop n := by rw [← hinit, List.take_append_drop]
  have hdesc : Descending key (init ++ [x] ++ l.drop n) := by rw [← hl]; exact h
  rw [Descending, List.pairwise_append, List.pairwise_append] at hdesc
  obtain ⟨⟨-, -, hinitx⟩, -, hrest⟩ := hdesc
  have hfront : (init ++ [x]).filter (fun y => key y < key x) = [] := by
    rw [List.filter_eq_nil_iff]
    intro y hy
    rw [decide_eq_true_eq, not_lt]
    rcases List.mem_append.1 hy with hy | hy
    · exact (hinitx y hy x (by simp)).le
    · rw [List.mem_singleton.1 hy]
  have hback : (l.drop n).filter (fun y => key y < key x) = l.drop n := by
    rw [List.filter_eq_self]
    intro y hy
    rw [decide_eq_true_eq]
    exact hrest x (by simp) y hy
  calc behind key (some (key x)) l
      = (init ++ [x] ++ l.drop n).filter (fun y => key y < key x) := by rw [← hl]; rfl
    _ = l.drop n := by rw [List.filter_append, hfront, hback, List.nil_append]

/-- Behind a row that is behind `k`, nothing else is cut off by `k`. -/
theorem behind_behind (hx : x ∈ behind key k l) :
    behind key (some (key x)) (behind key k l) = behind key (some (key x)) l := by
  cases k with
  | none => rfl
  | some k =>
    have hxk : key x < k := by simpa using (List.mem_filter.1 hx).2
    simp only [behind, List.filter_filter]
    apply List.filter_congr
    intro y _
    by_cases hy : key y < key x
    · simp [hy, hy.trans hxk]
    · simp [hy]

end Rows

end Keyset
