import Freelancing.Keyset
import Freelancing.Money.Rows
import Freelancing.Text
import Mathlib.Data.Prod.Lex

/-!
# The list of a user's disputes

`list_disputes_for_user` of `app/disputes/query.py`, page by page, over a fixed set of disputes.
-/

namespace Disputes

open Keyset
open Money
open Text (upper)

structure Dispute extends Money.Dispute where
  createdAt : Nat

/-- The rows of `disputes` and `dispute_parties`, with their primary keys. -/
structure Db where
  disputes : List Dispute
  disputes_pkey : (disputes.map (·.id)).Nodup
  dispute_parties_pkey : ∀ d ∈ disputes, (d.parties.map Prod.fst).Nodup

/-! ## The query -/

def DISPUTE_STATES : List String :=
  ["OPEN", "EVIDENCE_COLLECTION", "UNDER_REVIEW", "NEED_MORE_INFO", "RESOLVED"]

/-- The status asked for; a filter that is empty, or blank, asks for none. -/
def normalizedStatus (status : Option String) : Option String :=
  match status with
  | none => none
  | some s => if (strip s).isEmpty then none else some (upper (strip s))

def isAdmin (user : User) : Bool := user.roles.any fun role => role = "admin"

/-- `_visible_disputes`: to a user who is no administrator, the join with `dispute_parties` has one
row for each party row of theirs. -/
def visibleDisputes (db : Db) (user : User) : List Dispute :=
  if isAdmin user then db.disputes
  else db.disputes.flatMap fun d =>
    (d.parties.filter fun party => party.1 = user.id).map fun _ => d

/-- `created_at DESC, id DESC`. -/
def orderBy (rows : List Dispute) : List Dispute :=
  rows.insertionSort fun d e =>
    e.createdAt < d.createdAt ∨ (e.createdAt = d.createdAt ∧ e.id ≤ d.id)

/-- `.unique()`: the first row of each dispute. -/
def unique (rows : List Dispute) : List Dispute :=
  rows.foldl (fun seen d => if seen.any fun e => e.id = d.id then seen else seen ++ [d]) []

def invalid (title detail : String) : Err := .api ⟨"validation_error", title, 422, detail⟩

def listDisputesForUser (db : Db) (user : User) (after : Option DisputeId) (limit : Int)
    (status : Option String) : Except Err (List Dispute × Option DisputeId) := do
  if limit < 1 ∨ 100 < limit then
    throw (invalid "Invalid pagination" "limit must be between 1 and 100")
  let normalizedStatus := normalizedStatus status
  if normalizedStatus.any fun s => !DISPUTE_STATES.contains s then
    throw (invalid "Invalid dispute status" "status must be a valid dispute state")
  let statement := (visibleDisputes db user).filter fun d =>
    normalizedStatus.all fun s => d.status.name = s
  let statement ← match after with
    | none => pure statement
    | some after =>
      match (visibleDisputes db user).find? fun d => d.id = after with
      | none => throw (invalid "Invalid pagination" "after must identify a visible dispute")
      | some cursor => pure (statement.filter fun d =>
          d.createdAt < cursor.createdAt ∨ (d.createdAt = cursor.createdAt ∧ d.id < cursor.id))
  let rows := unique ((orderBy statement).take (limit + 1).toNat)
  let hasMore := limit < rows.length
  let items := rows.take limit.toNat
  let nextAfter := if hasMore then items.getLast?.map (·.id) else none
  return (items, nextAfter)

/-! ## The rows of a page -/

variable {db : Db} {user : User} {status : Option String} {d e : Dispute} {rows : List Dispute}

def Visible (user : User) (d : Dispute) : Prop :=
  "admin" ∈ user.roles ∨ user.id ∈ d.parties.map Prod.fst

/-- The filter is for no status in particular, or for that of `d`. -/
def Matches (status : Option String) (d : Dispute) : Prop :=
  ∀ s, normalizedStatus status = some s → d.status.name = s

/-- The filter is for no status in particular, or for one that disputes have. -/
def Accepted (status : Option String) : Prop :=
  ∀ s, normalizedStatus status = some s → s ∈ DISPUTE_STATES

theorem isAdmin_iff : isAdmin user = true ↔ "admin" ∈ user.roles := by
  simp [isAdmin, List.any_eq_true]

theorem mem_visibleDisputes : d ∈ visibleDisputes db user ↔ d ∈ db.disputes ∧ Visible user d := by
  unfold visibleDisputes Visible
  rw [← isAdmin_iff]
  by_cases hadmin : isAdmin user
  · simp [hadmin]
  · simp only [hadmin, Bool.false_eq_true, if_false, false_or, List.mem_flatMap, List.mem_map,
      List.mem_filter, decide_eq_true_eq]
    constructor
    · rintro ⟨d, hd, party, ⟨hparty, hid⟩, rfl⟩
      exact ⟨hd, party, hparty, hid⟩
    · rintro ⟨hd, party, hparty, hid⟩
      exact ⟨d, hd, party, ⟨hparty, hid⟩, rfl⟩

/-- A user is a party of a dispute once. -/
theorem length_partyRows (hd : d ∈ db.disputes) (u : UserId) :
    (d.parties.filter fun party => party.1 = u).length ≤ 1 := by
  have hnd := db.dispute_parties_pkey d hd
  have hcount : ((d.parties.map Prod.fst).filter fun v => v = u).length ≤ 1 := by
    rw [← List.countP_eq_length_filter]
    exact List.nodup_iff_count_le_one.1 hnd u
  rw [List.filter_map, List.length_map] at hcount
  exact hcount

/-- The join does not repeat a dispute. -/
theorem visibleDisputes_sublist : (visibleDisputes db user).Sublist db.disputes := by
  unfold visibleDisputes
  by_cases hadmin : isAdmin user
  · rw [if_pos hadmin]
  · rw [if_neg hadmin]
    have hrows : ∀ ds : List Dispute, (∀ d ∈ ds, d ∈ db.disputes) →
        (ds.flatMap fun d =>
          (d.parties.filter fun party => party.1 = user.id).map fun _ => d).Sublist ds := by
      intro ds hds
      induction ds with
      | nil => exact List.Sublist.refl _
      | cons d ds ih =>
        have hlen := length_partyRows (hds d (by simp)) user.id
        have hrow : ((d.parties.filter fun party => party.1 = user.id).map fun _ => d).Sublist
            [d] := by
          rw [List.map_const']
          exact (List.replicate_sublist_replicate d).2 hlen
        exact hrow.append (ih fun d hd => hds d (by simp [hd]))
    exact hrows db.disputes fun d hd => hd

theorem nodup_visibleDisputes : ((visibleDisputes db user).map (·.id)).Nodup :=
  (visibleDisputes_sublist.map _).nodup db.disputes_pkey

theorem eq_of_id (hd : d ∈ db.disputes) (he : e ∈ db.disputes) (h : d.id = e.id) : d = e :=
  List.inj_on_of_nodup_map db.disputes_pkey hd he h

theorem unique_of_nodup (h : (rows.map (·.id)).Nodup) : unique rows = rows := by
  have hfold : ∀ seen rest : List Dispute, ((seen ++ rest).map (·.id)).Nodup →
      rest.foldl (fun seen d => if seen.any fun e => e.id = d.id then seen else seen ++ [d]) seen
        = seen ++ rest := by
    intro seen rest
    induction rest generalizing seen with
    | nil => simp
    | cons d rest ih =>
      intro hnd
      have hnew : (seen.any fun e => e.id = d.id) = false := by
        rw [List.map_append, List.nodup_append] at hnd
        rw [List.any_eq_false]
        intro e he hid
        exact hnd.2.2 e.id (List.mem_map_of_mem he) d.id (by simp) (by simpa using hid)
      rw [List.foldl_cons, hnew, if_neg (by simp), ih, List.append_assoc, List.singleton_append]
      rw [List.append_assoc, List.singleton_append]
      exact hnd
  exact hfold [] rows h

/-! ## The order of the pages -/

/-- What the pages are ordered by. -/
def key (d : Dispute) : Nat ×ₗ Nat := toLex (d.createdAt, d.id)

theorem key_lt :
    key d < key e ↔ d.createdAt < e.createdAt ∨ (d.createdAt = e.createdAt ∧ d.id < e.id) :=
  Prod.Lex.toLex_lt_toLex

theorem key_le :
    key d ≤ key e ↔ d.createdAt < e.createdAt ∨ (d.createdAt = e.createdAt ∧ d.id ≤ e.id) :=
  Prod.Lex.toLex_le_toLex

theorem descending_orderBy (h : (rows.map (·.id)).Nodup) : Descending key (orderBy rows) := by
  have hbefore : ∀ d e : Dispute,
      (e.createdAt < d.createdAt ∨ (e.createdAt = d.createdAt ∧ e.id ≤ d.id)) ↔ key e ≤ key d :=
    fun _ _ => key_le.symm
  have : Std.Total fun d e : Dispute =>
      e.createdAt < d.createdAt ∨ (e.createdAt = d.createdAt ∧ e.id ≤ d.id) :=
    ⟨fun d e => by rw [hbefore, hbefore]; exact le_total _ _⟩
  have : IsTrans Dispute fun d e =>
      e.createdAt < d.createdAt ∨ (e.createdAt = d.createdAt ∧ e.id ≤ d.id) :=
    ⟨fun d e f hde hef => by rw [hbefore] at *; exact hef.trans hde⟩
  have hsorted := List.pairwise_insertionSort
    (fun d e : Dispute => e.createdAt < d.createdAt ∨
      (e.createdAt = d.createdAt ∧ e.id ≤ d.id)) rows
  have hne : (orderBy rows).Pairwise fun d e => d.id ≠ e.id := by
    rw [← List.pairwise_map]
    exact ((List.perm_insertionSort _ rows).map _).nodup_iff.2 h
  refine (hsorted.and hne).imp fun {d e} hde => ?_
  obtain ⟨hle, hne⟩ := hde
  rw [hbefore] at hle
  refine lt_of_le_of_ne hle fun heq => hne ?_
  have heq : (e.createdAt, e.id) = (d.createdAt, d.id) := heq
  rw [Prod.mk.injEq] at heq
  exact heq.2.symm

/-- A filter goes through the sorting, as no two rows have one key. -/
theorem orderBy_filter (h : (rows.map (·.id)).Nodup) (p : Dispute → Bool) :
    orderBy (rows.filter p) = (orderBy rows).filter p := by
  have hperm : (orderBy (rows.filter p)).Perm ((orderBy rows).filter p) :=
    (List.perm_insertionSort _ _).trans ((List.perm_insertionSort _ rows).filter p).symm
  have hleft : Descending key (orderBy (rows.filter p)) :=
    descending_orderBy ((List.filter_sublist.map _).nodup h)
  have hright : Descending key ((orderBy rows).filter p) := (descending_orderBy h).filter p
  exact hperm.eq_of_pairwise (fun d e _ _ hde hed => absurd hde hed.asymm) hleft hright

/-! ## The pages -/

/-- The rows that the pages are made of. -/
def listed (db : Db) (user : User) (status : Option String) : List Dispute :=
  orderBy ((visibleDisputes db user).filter fun d =>
    (normalizedStatus status).all fun s => d.status.name = s)

theorem nodup_filtered (p : Dispute → Bool) :
    (((visibleDisputes db user).filter p).map (·.id)).Nodup :=
  (List.filter_sublist.map _).nodup nodup_visibleDisputes

theorem descending_listed : Descending key (listed db user status) :=
  descending_orderBy (nodup_filtered _)

theorem nodup_listed : ((listed db user status).map (·.id)).Nodup :=
  ((List.perm_insertionSort _ _).map _).nodup_iff.2 (nodup_filtered _)

theorem mem_listed :
    d ∈ listed db user status ↔ d ∈ db.disputes ∧ Visible user d ∧ Matches status d := by
  unfold listed orderBy Matches
  rw [List.mem_insertionSort, List.mem_filter, mem_visibleDisputes, and_assoc]
  simp only [Option.all_eq_true, decide_eq_true_eq]

/-- What the pages behind a cursor have. -/
def Remains (db : Db) (user : User) (status : Option String) (after : Option DisputeId)
    (rest : List Dispute) : Prop :=
  match after with
  | none => rest = listed db user status
  | some after => ∃ d ∈ listed db user status,
      d.id = after ∧ rest = behind key (some (key d)) (listed db user status)

theorem Remains.sublist {after : Option DisputeId} (h : Remains db user status after rows) :
    rows.Sublist (listed db user status) := by
  cases after with
  | none => rw [show rows = _ from h]
  | some after =>
    obtain ⟨d, -, -, rfl⟩ := h
    exact List.filter_sublist

/-- A row of what remains is a cursor for what comes after it. -/
theorem Remains.drop {after : Option DisputeId} {n : Nat} (h : Remains db user status after rows)
    (hd : (rows.take n).getLast? = some d) :
    Remains db user status (some d.id) (rows.drop n) := by
  have hdrows : d ∈ rows := List.mem_of_mem_take (List.mem_of_getLast? hd)
  refine ⟨d, h.sublist.subset hdrows, rfl, ?_⟩
  rw [← behind_getLast (descending_listed.sublist h.sublist) hd]
  cases after with
  | none => rw [show rows = _ from h]
  | some after =>
    obtain ⟨e, -, -, rfl⟩ := h
    exact behind_behind hdrows

/-- The cursor is looked up among the disputes of every status. -/
theorem find_cursor (hd : d ∈ listed db user status) :
    ((visibleDisputes db user).find? fun e => e.id = d.id) = some d := by
  obtain ⟨hdb, hvisible, -⟩ := mem_listed.1 hd
  have hmem : d ∈ visibleDisputes db user := mem_visibleDisputes.2 ⟨hdb, hvisible⟩
  obtain ⟨e, he⟩ : ∃ e, ((visibleDisputes db user).find? fun e => e.id = d.id) = some e := by
    rw [← Option.isSome_iff_exists, List.find?_isSome]
    exact ⟨d, hmem, by simp⟩
  have hid : e.id = d.id := by simpa using List.find?_some he
  rw [he, eq_of_id (visibleDisputes_sublist.subset (List.mem_of_find?_eq_some he)) hdb hid]

/-- The answer once the rows behind the cursor are there. -/
theorem page_of_rows {after : Option DisputeId} {n : Nat} (hn : 0 < n)
    (h : Remains db user status after rows) :
    IsPage (Remains db user status) rows
      (((unique (rows.take (n + 1))).take n),
        if (n : Int) < (unique (rows.take (n + 1))).length then
          ((unique (rows.take (n + 1))).take n).getLast?.map (·.id) else none) := by
  have hnodup : ((rows.take (n + 1)).map (·.id)).Nodup :=
    (((List.take_sublist _ _).trans h.sublist).map _).nodup nodup_listed
  rw [unique_of_nodup hnodup, List.take_take, Nat.min_eq_left (Nat.le_succ n), List.length_take]
  by_cases hmore : n < rows.length
  · have hne : rows.take n ≠ [] := by
      rw [ne_eq, List.take_eq_nil_iff, not_or]
      exact ⟨hn.ne', fun hnil => by simp [hnil] at hmore⟩
    obtain ⟨d, hd⟩ := Option.isSome_iff_exists.1 (List.getLast?_isSome.2 hne)
    refine .inr ⟨n, d.id, hn, hmore, ?_, h.drop hd⟩
    rw [if_pos (by omega), hd, Option.map_some]
  · refine .inl ?_
    rw [if_neg (by omega), List.take_of_length_le (by omega)]

/-- **Every cursor that a page hands out leads to the next page.** -/
theorem listDisputesForUser_page {after : Option DisputeId} {limit : Int} (hs : Accepted status)
    (hl : 1 ≤ limit ∧ limit ≤ 100) (h : Remains db user status after rows) :
    ∃ p, listDisputesForUser db user after limit status = .ok p ∧
      IsPage (Remains db user status) rows p := by
  obtain ⟨n, rfl⟩ := Int.eq_ofNat_of_zero_le (by omega : 0 ≤ limit)
  have hlimit : ¬ ((n : Int) < 1 ∨ 100 < (n : Int)) := by omega
  have hstatus : ((normalizedStatus status).any fun s => !DISPUTE_STATES.contains s) = false := by
    cases hnorm : normalizedStatus status with
    | none => rfl
    | some s => simp [hs s hnorm]
  refine ⟨_, ?_, page_of_rows (n := n) (by omega) h⟩
  unfold listDisputesForUser
  simp only [if_neg hlimit, hstatus, Bool.false_eq_true, if_false]
  cases after with
  | none =>
    rw [show rows = _ from h]
    rfl
  | some after =>
    obtain ⟨d, hd, rfl, rfl⟩ := h
    have hbehind : behind key (some (key d)) (listed db user status) =
        orderBy (((visibleDisputes db user).filter fun d =>
          (normalizedStatus status).all fun s => d.status.name = s).filter fun e =>
            e.createdAt < d.createdAt ∨ (e.createdAt = d.createdAt ∧ e.id < d.id)) := by
      rw [orderBy_filter (nodup_filtered _)]
      simp only [behind, key_lt]
      rfl
    rw [hbehind]
    simp only [find_cursor hd]
    rfl

/-- **Following `next_after` enumerates.** From no cursor on, with any page sizes, the pages end,
and have the disputes that the user may see and the filter admits, each once, the newest first. -/
theorem disputes_enumerated (db : Db) (user : User) (status : Option String) (limit : Nat → Int)
    (hs : Accepted status) (hl : ∀ i, 1 ≤ limit i ∧ limit i ≤ 100) :
    ∃ pages,
      (∃ n, ∀ fuel, n < fuel →
        follow (fun i after => listDisputesForUser db user after (limit i) status) fuel 0 none
          = .ok (some pages)) ∧
      (∀ d, d ∈ pages.flatten ↔ d ∈ db.disputes ∧ Visible user d ∧ Matches status d) ∧
      (pages.flatten.map (·.id)).Nodup ∧
      pages.flatten.Pairwise fun d e =>
        e.createdAt < d.createdAt ∨ (e.createdAt = d.createdAt ∧ e.id < d.id) := by
  let fetch i after := listDisputesForUser db user after (limit i) status
  have hpage : ∀ i after rest, Remains db user status after rest →
      ∃ p, fetch i after = .ok p ∧ IsPage (Remains db user status) rest p :=
    fun i _ _ hrest => listDisputesForUser_page hs (hl i) hrest
  have hall : Remains db user status none (listed db user status) := rfl
  obtain ⟨pages, hflat, hpages⟩ := follow_enumerates hpage hall 0
  refine ⟨pages, ⟨_, hpages⟩, ?_, ?_, ?_⟩ <;> rw [hflat]
  · exact fun d => mem_listed
  · exact nodup_listed
  · exact descending_listed.imp key_lt.1

/-- A dispute between the users 1 and 2. -/
def between (id createdAt : Nat) (status : DisputeStatus) : Dispute where
  id := id
  milestone := id
  contract := id
  openedBy := 1
  status := status
  reason := "late"
  resolvedAt := none
  parties := [(1, .employer), (2, .freelancer)]
  events := []
  createdAt := createdAt

/-- Four disputes, two of one instant. -/
def four : Db where
  disputes := [between 1 10 .opened, between 2 20 .opened, between 3 20 .opened,
    between 4 30 .underReview]
  disputes_pkey := by decide
  dispute_parties_pkey := by decide

/-- The open disputes of a party, two on a page. -/
theorem open_disputes_enumerated :
    ∃ pages,
      (∃ n, ∀ fuel, n < fuel →
        follow (fun i after => listDisputesForUser four ⟨2, []⟩ after ((fun _ => 2) i)
          (some " open")) fuel 0 none = .ok (some pages)) ∧
      (∀ d, d ∈ pages.flatten ↔
        d ∈ four.disputes ∧ Visible ⟨2, []⟩ d ∧ Matches (some " open") d) ∧
      (pages.flatten.map (·.id)).Nodup ∧
      pages.flatten.Pairwise fun d e =>
        e.createdAt < d.createdAt ∨ (e.createdAt = d.createdAt ∧ e.id < d.id) := by
  have hopen : normalizedStatus (some " open") = some "OPEN" := by decide
  exact disputes_enumerated four ⟨2, []⟩ (some " open") (fun _ => 2)
    (fun s hs => by rw [hopen] at hs; cases hs; decide) (fun _ => by decide)

example : (follow (fun _ after => listDisputesForUser four ⟨2, []⟩ after 2 (some " open")) 9 0
    none).toOption.map (·.map (·.map (·.map (·.id)))) = some (some [[3, 2], [1]]) := by decide

end Disputes
