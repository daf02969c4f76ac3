import Freelancing.Notifications.Outbox
import Freelancing.Scroll

/-!
# Paging through notifications

`list_notifications` takes the time of the last notification that a client has, so a page that ends
between two notifications of one instant loses those behind its end.
-/

namespace Notifications

open Money (UserId Err)

/-- A row of `notifications`. -/
structure StoredNotification extends Notification where
  id : Nat
  createdAt : Nat

abbrev Rows := List StoredNotification

/-- An answer to `ORDER BY created_at ASC`: the database may put rows of one time in any order. -/
structure OrderBy where
  sort : Rows → Rows
  perm : ∀ rows, (sort rows).Perm rows
  ascending : ∀ rows, Scroll.Ascending StoredNotification.createdAt (sort rows)

/-- `Notification.user_id == user.id`. -/
def Rows.ofUser (rows : Rows) (user : UserId) : Rows := rows.filter fun n => n.scope.user = user

def listNotifications (order : OrderBy) (rows : Rows) (user : UserId) (after : Option Nat)
    (limit : Int) : Except Err Rows :=
  if limit < 1 ∨ limit > 100 then
    .error (.api ⟨"validation_error", "Invalid limit", 422, "limit must be between 1 and 100"⟩)
  else
    let query := rows.ofUser user
    let query := match after with
      | none => query
      | some after => query.filter fun n => n.createdAt > after
    .ok ((order.sort query).take limit.toNat)

/-- The pages of a client that asks for what comes after the last notification it has. -/
def readAll (orders : Nat → OrderBy) (rows : Rows) (user : UserId) (limit : Int) (fuel : Nat) :
    Except Err (Option (List Rows)) :=
  Scroll.scroll StoredNotification.createdAt
    (fun i after => listNotifications (orders i) rows user after limit) fuel 0 none

theorem listNotifications_page {order : OrderBy} {rows : Rows} {user : UserId} {limit : Int}
    (hl : 1 ≤ limit ∧ limit ≤ 100) (after : Option Nat) :
    ∃ page, listNotifications order rows user after limit = .ok page ∧
      Scroll.IsPage StoredNotification.createdAt limit.toNat
        (Scroll.behind StoredNotification.createdAt after (rows.ofUser user)) page := by
  have hcond : ¬ (limit < 1 ∨ limit > 100) := by omega
  refine ⟨_, if_neg hcond, _, ?_, order.ascending _, rfl⟩
  cases after <;> exact order.perm _

/-- The pages end, and they are the user's notifications, each once and in the order of time. -/
def Enumerated (orders : Nat → OrderBy) (rows : Rows) (user : UserId) (limit : Int) : Prop :=
  ∃ pages, (∀ fuel, (rows.ofUser user).length < fuel →
      readAll orders rows user limit fuel = .ok (some pages)) ∧
    Scroll.Ascending StoredNotification.createdAt pages.flatten ∧
      pages.flatten.Perm (rows.ofUser user)

/-- The pages end and are in order, in any case. -/
theorem readAll_ends {orders : Nat → OrderBy} {rows : Rows} {user : UserId} {limit : Int}
    (hl : 1 ≤ limit ∧ limit ≤ 100) :
    ∃ pages, (∀ fuel, (rows.ofUser user).length < fuel →
        readAll orders rows user limit fuel = .ok (some pages)) ∧
      Scroll.Ascending StoredNotification.createdAt pages.flatten ∧
      (∀ n ∈ pages.flatten, n ∈ rows.ofUser user) ∧
      (pages.flatten.Perm (rows.ofUser user) ↔
        Scroll.Unsplit StoredNotification.createdAt limit.toNat (rows.ofUser user)) :=
  Scroll.scroll_pages (by omega) (fun _ after => listNotifications_page hl after) 0 none

/-- **The pages enumerate the notifications** unless a page ends between two of one time. -/
theorem notifications_enumerated (orders : Nat → OrderBy) (rows : Rows)
    (user : UserId) (limit : Int) (hl : 1 ≤ limit ∧ limit ≤ 100) :
    Enumerated orders rows user limit ↔
      Scroll.Unsplit StoredNotification.createdAt limit.toNat (rows.ofUser user) := by
  obtain ⟨pages, hread, hasc, -, hiff⟩ := @readAll_ends orders rows user limit hl
  rw [← hiff]
  constructor
  · intro h
    obtain ⟨pages', hread', -, hperm⟩ := h
    have heq := (hread _ (Nat.lt_succ_self _)).symm.trans (hread' _ (Nat.lt_succ_self _))
    cases heq
    exact hperm
  · intro hperm
    exact ⟨pages, hread, hasc, hperm⟩

/-! ## Two notifications of one time -/

def byCreation : OrderBy where
  sort := List.insertionSort fun m n => m.createdAt ≤ n.createdAt
  perm rows := List.perm_insertionSort _ rows
  ascending rows := by
    have : IsTrans StoredNotification fun m n => m.createdAt ≤ n.createdAt :=
      ⟨fun _ _ _ => le_trans⟩
    have : Std.Total fun m n : StoredNotification => m.createdAt ≤ n.createdAt :=
      ⟨fun _ _ => le_total _ _⟩
    exact List.pairwise_insertionSort _ rows

/-- A notification of user 1. -/
def stored (id createdAt : Nat) : StoredNotification :=
  ⟨⟨⟨1, toString id⟩, "message.created", "Message", "", []⟩, id, createdAt⟩

/-- One on a page: the second notification of the time 5 is not on any page. -/
theorem notification_lost :
    ¬ ∀ (orders : Nat → OrderBy) (rows : Rows) (user : UserId) (limit : Int),
    1 ≤ limit ∧ limit ≤ 100 → Enumerated orders rows user limit := by
  intro h
  obtain ⟨pages, hread, -, hperm⟩ := h (fun _ => byCreation) [stored 1 5, stored 2 5] 1 1 (by omega)
  have hpages : readAll (fun _ => byCreation) [stored 1 5, stored 2 5] 1 1 3 =
      .ok (some [[stored 1 5]]) := rfl
  rw [hread 3 (by decide)] at hpages
  cases hpages
  exact absurd hperm.length_eq (by decide)

/-- Three notifications, two on a page: the two of one time are on one page. -/
theorem notifications_enumerated_three :
    Enumerated (fun _ => byCreation) [stored 1 5, stored 2 5, stored 3 8] 1 2 := by
  refine (notifications_enumerated _ _ 1 2 (by omega)).2 ?_
  intro t m
  have hof : Rows.ofUser [stored 1 5, stored 2 5, stored 3 8] 1 =
      [stored 1 5, stored 2 5, stored 3 8] := rfl
  rw [hof]
  change m * 2 ≤ _ ∨ _ ≤ m * 2
  simp only [List.countP_cons, List.countP_nil, stored, decide_eq_true_eq]
  split_ifs <;> omega

end Notifications
