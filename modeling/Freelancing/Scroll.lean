import Mathlib.Data.List.Count
import Freelancing.Keyset

/-!
# Scrolling behind a key that rows may share

A client asks for the first `n` rows in the order of a key, then for those whose key is greater than
that of the last row that it has, up to an empty page. Rows that share their key with the last row
of a page and are not on it are lost, so the pages are the rows iff no page ends between rows of one
key.
-/

namespace Scroll

variable {α κ ε : Type} [LinearOrder κ] (key : α → κ)

/-- The rows behind a key. -/
def behind (k : Option κ) (l : List α) : List α :=
  match k with
  | none => l
  | some k => l.filter fun x => k < key x

/-- The pages that `fetch` answers with, `fetch i k` for the `i`-th behind the key `k`, up to an
empty one; `none` when `fuel` pages were not enough. -/
def scroll (fetch : Nat → Option κ → Except ε (List α)) :
    Nat → Nat → Option κ → Except ε (Option (List (List α)))
  | 0, _, _ => .ok none
  | fuel + 1, i, k => do
    let page ← fetch i k
    match page.getLast? with
    | none => return some []
    | some x =>
      let pages ← scroll fetch fuel (i + 1) (some (key x))
      return pages.map (page :: ·)

def Ascending (l : List α) : Prop := l.Pairwise fun x y => key x ≤ key y

/-- The first `n` rows, in some order by the key. -/
def IsPage (n : Nat) (l page : List α) : Prop :=
  ∃ ordered : List α, ordered.Perm l ∧ Ascending key ordered ∧ page = ordered.take n

/-- No multiple of `n` is the number of rows up to a row that is followed by one of the same key. -/
def Unsplit (n : Nat) (l : List α) : Prop :=
  ∀ t m, m * n ≤ (l.countP fun x => key x < t) ∨ (l.countP fun x => key x ≤ t) ≤ m * n

variable {key} {n : Nat} {l l' page : List α} {x : α}

theorem Unsplit.of_perm (hp : l.Perm l') (h : Unsplit key n l) : Unsplit key n l' := by
  intro t m
  rw [← hp.countP_eq, ← hp.countP_eq]
  exact h t m

theorem unsplit_perm (hp : l.Perm l') : Unsplit key n l ↔ Unsplit key n l' :=
  ⟨.of_perm hp, .of_perm hp.symm⟩

theorem unsplit_nil : Unsplit key n [] := fun _ _ => by simp

/-! ## One page of ordered rows -/

/-- The rows of a page are not behind its last one, and the rows that it leaves are not before
it. -/
theorem page_le (h : Ascending key l) (hx : (l.take n).getLast? = some x) :
    (∀ y ∈ l.take n, key y ≤ key x) ∧ ∀ y ∈ l.drop n, key x ≤ key y := by
  obtain ⟨init, hinit⟩ := List.getLast?_eq_some_iff.1 hx
  have hl : Ascending key (init ++ [x] ++ l.drop n) := by
    rw [← hinit, List.take_append_drop]
    exact h
  rw [Ascending, List.pairwise_append, List.pairwise_append] at hl
  obtain ⟨⟨-, -, hinitx⟩, -, hrest⟩ := hl
  constructor
  · intro y hy
    rw [hinit] at hy
    rcases List.mem_append.1 hy with hy | hy
    · exact hinitx y hy x (by simp)
    · rw [List.mem_singleton.1 hy]
  · intro y hy
    exact hrest x (by simp) y hy

theorem countP_take_add_drop (p : α → Bool) (n : Nat) (l : List α) :
    l.countP p = (l.take n).countP p + (l.drop n).countP p := by
  rw [← List.countP_append, List.take_append_drop]

/-- A page of rows that all count. -/
theorem countP_page {p : α → Bool} (hlen : n ≤ l.length) (h : ∀ y ∈ l.take n, p y = true) :
    l.countP p = n + (l.drop n).countP p := by
  rw [countP_take_add_drop p n, List.countP_eq_length.2 h, List.length_take, Nat.min_eq_left hlen]

theorem countP_rest {p : α → Bool} (h : ∀ y ∈ l.drop n, ¬ p y = true) :
    l.countP p = (l.take n).countP p := by
  rw [countP_take_add_drop p n, List.countP_eq_zero.2 h, Nat.add_zero]

/-- If no row of the rest has the key of the last row, the rest is what is behind it. -/
theorem behind_of_lt (hle : ∀ y ∈ l.take n, key y ≤ key x) (hlt : ∀ y ∈ l.drop n, key x < key y) :
    behind key (some (key x)) l = l.drop n := by
  have hfront : (l.take n).filter (fun y => key x < key y) = [] := by
    rw [List.filter_eq_nil_iff]
    intro y hy
    rw [decide_eq_true_eq, not_lt]
    exact hle y hy
  have hback : (l.drop n).filter (fun y => key x < key y) = l.drop n := by
    rw [List.filter_eq_self]
    intro y hy
    rw [decide_eq_true_eq]
    exact hlt y hy
  calc behind key (some (key x)) l
      = (l.take n ++ l.drop n).filter (fun y => key x < key y) := by rw [List.take_append_drop]; rfl
    _ = l.drop n := by rw [List.filter_append, hfront, hback, List.nil_append]

/-- The boundaries of the rest are the boundaries behind the first one. -/
theorem unsplit_drop (hle : ∀ y ∈ l.take n, key y ≤ key x) (hlt : ∀ y ∈ l.drop n, key x < key y) :
    Unsplit key n l ↔ Unsplit key n (l.drop n) := by
  by_cases hshort : l.length ≤ n
  · rw [List.drop_of_length_le hshort]
    refine iff_of_true ?_ unsplit_nil
    intro t m
    cases m with
    | zero => exact .inl (by simp)
    | succ m =>
      refine .inr ((List.countP_le_length).trans (hshort.trans ?_))
      exact Nat.le_mul_of_pos_left n (Nat.succ_pos m)
  -- behind the last row of the page, the whole page counts
  have hcount : ∀ t, key x < t →
      (l.countP fun y => key y < t) = n + (l.drop n).countP (fun y => key y < t) ∧
      (l.countP fun y => key y ≤ t) = n + (l.drop n).countP (fun y => key y ≤ t) := by
    intro t ht
    have hall : ∀ y ∈ l.take n, key y < t := fun y hy => lt_of_le_of_lt (hle y hy) ht
    constructor
    · exact countP_page (by omega) fun y hy => by simpa using hall y hy
    · exact countP_page (by omega) fun y hy => by simpa using (hall y hy).le
  have hnone : ∀ t, ¬ key x < t → ∀ y ∈ l.drop n, ¬ decide (key y ≤ t) = true := by
    intro t ht y hy
    rw [decide_eq_true_eq, not_le]
    exact lt_of_le_of_lt (not_lt.1 ht) (hlt y hy)
  constructor
  · intro h t m
    by_cases ht : key x < t
    · have hs := h t (m + 1)
      rw [(hcount t ht).1, (hcount t ht).2, Nat.succ_mul] at hs
      omega
    · refine .inr ?_
      rw [List.countP_eq_zero.2 (hnone t ht)]
      exact Nat.zero_le _
  · intro h t m
    cases m with
    | zero => exact .inl (by simp)
    | succ m =>
      by_cases ht : key x < t
      · have hs := h t m
        rw [(hcount t ht).1, (hcount t ht).2, Nat.succ_mul]
        omega
      · refine .inr ?_
        have htake : (l.take n).countP (fun y => key y ≤ t) ≤ (l.take n).length :=
          List.countP_le_length
        rw [List.length_take] at htake
        rw [countP_rest (hnone t ht), Nat.succ_mul]
        omega

/-- A row of the rest that has the key of the last row stands at a boundary. -/
theorem split_of_mem (h : Ascending key l) (hx : (l.take n).getLast? = some x) {y : α}
    (hy : y ∈ l.drop n) (hk : key y ≤ key x) :
    ¬ Unsplit key n l ∧ n < l.countP fun z => key z ≤ key x := by
  obtain ⟨hle, hge⟩ := page_le h hx
  have hpos := List.length_pos_of_mem hy
  rw [List.length_drop] at hpos
  have hupto : n < l.countP fun z => key z ≤ key x := by
    have hsome : 0 < (l.drop n).countP (fun z => key z ≤ key x) :=
      List.countP_pos_iff.2 ⟨y, hy, by simpa using hk⟩
    rw [countP_page (n := n) (by omega) fun z hz => by simpa using hle z hz]
    omega
  have hbefore : (l.countP fun z => key z < key x) < n := by
    have htake : (l.take n).countP (fun z => key z < key x) < (l.take n).length := by
      refine List.countP_lt_length_iff.2 ⟨x, List.mem_of_getLast? hx, by simp⟩
    rw [List.length_take] at htake
    rw [countP_rest (n := n) fun z hz => by simpa using hge z hz]
    omega
  refine ⟨?_, hupto⟩
  intro hu
  have hs := hu (key x) 1
  rw [Nat.one_mul] at hs
  omega

/-! ## All pages -/

/-- The rows behind a key, in the other order. -/
theorem behind_eq_keyset (k : Option κ) (l : List α) : behind key k l =
    Keyset.behind (fun x => OrderDual.toDual (key x)) (k.map OrderDual.toDual) l := by
  cases k <;> rfl

theorem behind_behind {k : Option κ} (hx : x ∈ behind key k l) :
    behind key (some (key x)) (behind key k l) = behind key (some (key x)) l := by
  simp only [behind_eq_keyset] at hx ⊢
  exact Keyset.behind_behind hx

theorem length_behind_lt (hx : x ∈ l) : (behind key (some (key x)) l).length < l.length :=
  List.length_filter_lt_length_iff_exists.2 ⟨x, hx, by simp⟩

/-- A page and the pages behind it are all the rows iff the page does not end between rows of one
key and the pages behind it are all the rows behind it. -/
theorem page_perm_iff {rest : List α} (h : Ascending key l) (hx : (l.take n).getLast? = some x)
    (hbehind : ∀ y ∈ rest, key x < key y) (hrest : rest.Perm (behind key (some (key x)) l) ↔
      Unsplit key n (behind key (some (key x)) l)) :
    (l.take n ++ rest).Perm l ↔ Unsplit key n l := by
  obtain ⟨hle, -⟩ := page_le h hx
  by_cases htie : ∃ y ∈ l.drop n, key y ≤ key x
  · obtain ⟨y, hy, hk⟩ := htie
    obtain ⟨hsplit, hcount⟩ := split_of_mem h hx hy hk
    refine iff_of_false ?_ hsplit
    intro hp
    have heq := hp.countP_eq fun z => key z ≤ key x
    have hzero : rest.countP (fun z => key z ≤ key x) = 0 :=
      List.countP_eq_zero.2 fun z hz => by simpa using hbehind z hz
    have hpagelen : (l.take n).countP (fun z => key z ≤ key x) ≤ (l.take n).length :=
      List.countP_le_length
    rw [List.length_take] at hpagelen
    rw [List.countP_append, hzero] at heq
    omega
  · have hlt : ∀ y ∈ l.drop n, key x < key y := fun y hy => not_le.1 fun hk => htie ⟨y, hy, hk⟩
    rw [behind_of_lt hle hlt] at hrest
    rw [unsplit_drop hle hlt, ← hrest]
    refine Iff.trans ?_ (List.perm_append_left_iff (l.take n))
    rw [List.take_append_drop]

/-- The pages behind a key: they end, they are in order, and they are all the rows iff no boundary
stands between rows of one key. -/
theorem scroll_pages {fetch : Nat → Option κ → Except ε (List α)} (hn : 0 < n)
    (hfetch : ∀ i k, ∃ page, fetch i k = .ok page ∧ IsPage key n (behind key k l) page) (i : Nat)
    (k : Option κ) :
    ∃ pages, (∀ fuel, (behind key k l).length < fuel →
      scroll key fetch fuel i k = .ok (some pages)) ∧
      Ascending key pages.flatten ∧ (∀ y ∈ pages.flatten, y ∈ behind key k l) ∧
      (pages.flatten.Perm (behind key k l) ↔ Unsplit key n (behind key k l)) := by
  -- what is behind the last row of a page is shorter than what was there before it
  induction hm : (behind key k l).length using Nat.strong_induction_on generalizing i k with
  | _ m ih =>
    subst hm
    obtain ⟨page, hpage, ordered, hperm, hasc, rfl⟩ := hfetch i k
    cases hlast : (ordered.take n).getLast? with
    | none =>
      have hnil : behind key k l = [] := by
        have htake := List.getLast?_eq_none_iff.1 hlast
        rw [List.take_eq_nil_iff] at htake
        rcases htake with h0 | hord
        · omega
        · rw [hord] at hperm
          exact List.nil_perm.1 hperm
      refine ⟨[], ?_, .nil, by simp, ?_⟩
      · intro fuel hfuel
        obtain ⟨fuel, rfl⟩ := Nat.exists_eq_succ_of_ne_zero (Nat.ne_zero_of_lt hfuel)
        simp only [scroll, hpage]
        simp only [bind, Except.bind, hlast]
        rfl
      · rw [hnil]
        exact iff_of_true .rfl unsplit_nil
    | some x =>
      have hxo : x ∈ ordered := List.mem_of_mem_take (List.mem_of_getLast? hlast)
      have hxl : x ∈ behind key k l := hperm.mem_iff.1 hxo
      have hrest : behind key (some (key x)) l = behind key (some (key x)) (behind key k l) :=
        (behind_behind hxl).symm
      have hlt : (behind key (some (key x)) l).length < (behind key k l).length := by
        rw [hrest]
        exact length_behind_lt hxl
      obtain ⟨pages, hscroll, hpages, hmem, hiff⟩ := ih _ hlt (i + 1) (some (key x)) rfl
      obtain ⟨hle, hge⟩ := page_le hasc hlast
      have hbehind : ∀ y ∈ pages.flatten, key x < key y := fun y hy => by
        simpa using (List.mem_filter.1 (hmem y hy)).2
      refine ⟨ordered.take n :: pages, ?_, ?_, ?_, ?_⟩
      · intro fuel hfuel
        obtain ⟨fuel, rfl⟩ := Nat.exists_eq_succ_of_ne_zero (Nat.ne_zero_of_lt hfuel)
        have hrec := hscroll fuel (by omega)
        simp only [scroll, hpage]
        simp only [bind, Except.bind, hlast, hrec]
        rfl
      · rw [List.flatten_cons, Ascending, List.pairwise_append]
        refine ⟨hasc.sublist (List.take_sublist n ordered), hpages, ?_⟩
        intro y hy z hz
        exact (hle y hy).trans (hbehind z hz).le
      · intro y hy
        rw [List.flatten_cons, List.mem_append] at hy
        rcases hy with hy | hy
        · exact hperm.mem_iff.1 (List.mem_of_mem_take hy)
        · have hyl := hmem y hy
          rw [hrest] at hyl
          exact List.mem_of_mem_filter hyl
      · rw [List.flatten_cons, ← unsplit_perm hperm]
        have hback : (behind key (some (key x)) l).Perm (behind key (some (key x)) ordered) := by
          rw [hrest]
          exact hperm.symm.filter _
        refine Iff.trans ?_ (page_perm_iff hasc hlast hbehind ?_)
        · exact ⟨fun hp => hp.trans hperm.symm, fun hp => hp.trans hperm⟩
        · rw [← unsplit_perm hback, ← hiff]
          exact ⟨fun hp => hp.trans hback.symm, fun hp => hp.trans hback⟩

end Scroll
