import Freelancing.Money.PayoutLife

/-!
# Payouts become terminal once

Two requests with one key meet in the second transaction of a payout: each has a copy of it that
it loaded before it waited for the payout's lock. As long as no such copy is out of date, the
journals and events of a payout follow its status (`PayoutKept`), and a payout that has succeeded
or failed stays as it is (`payouts_final`). A copy that is out of date settles the payout again
(`payouts_not_final`).
-/

namespace Money

open Txn (Sys)
open Txn.Sys (goes)

/-- The journals and events of the payout `k` are those of its status. -/
structure PayoutKept (d : Db) (k : PayoutId) : Prop where
  journals : d.payoutJournals k = match d.payout? k with
    | none => []
    | some p =>
      if p.status = .failed then [p.reversalJournal, p.reservationJournal]
      else [p.reservationJournal]
  events : d.paidEvents k = if (d.payout? k).map Payout.status = some .succeeded then 1 else 0

variable {R : Rules} {d d' : Db} {e : Providers} {k : PayoutId} {c : CommitPoint}

/-- A payout that is not `FAILED` has no reversal. -/
theorem PayoutKept.no_reversal (h : PayoutKept d k) {p : Payout} (hp : d.payout? k = some p)
    (hs : p.status ≠ .failed) : d.journal? ⟨.reversal, .payout k⟩ = none := by
  have hj := h.journals
  simp only [hp, hs, if_false] at hj
  exact Db.journal?_eq_none hj (by simp [Payout.reservationJournal, Payout.reservationKey])

/-- **A commit keeps the journals and events of a payout with its status.** -/
theorem PayoutMove.kept (h : PayoutMove R e d d' k c) (hf : R.PayoutsFresh) (hk : PayoutKept d k) :
    PayoutKept d' k := by
  obtain ⟨hj, he⟩ := hk
  cases h with
  | same c row journals events => exact ⟨by rw [journals, row, hj], by rw [events, row, he]⟩
  | reserved p id fresh status reversal covered only operation row journals events =>
    rw [fresh] at hj he
    exact ⟨by simp [journals, row, hj, status], by simp [events, row, he, status]⟩
  | upgraded p x before status row journals events =>
    rw [before] at hj he
    refine ⟨?_, by simpa [events, row, status] using he⟩
    simp only [status, reduceCtorEq, if_false] at hj
    simp only [journals, row, hj, status, reduceCtorEq, if_false]
    rfl
  | succeeded p reference t before status called row journals events =>
    have hs := status hf
    rw [before] at hj he
    refine ⟨?_, by simpa [events, row, hs] using he⟩
    simp only [hs, reduceCtorEq, if_false] at hj
    simp only [journals, row, hj, reduceCtorEq, if_false]
    rfl
  | failed p post t before status posted reserved called row journals events =>
    have hs := status hf
    have hid : p.id = k := Table.get_key before
    have hpost : post = true := by
      have hnone := PayoutKept.no_reversal ⟨hj, he⟩ before (by simp [hs])
      rw [posted, show p.reversalJournal.key = ⟨.reversal, .payout p.id⟩ from rfl, hid, hnone]
      rfl
    rw [before] at hj he
    refine ⟨?_, by simpa [events, row, hs] using he⟩
    simp only [hs, reduceCtorEq, if_false] at hj
    simp only [journals, row, hj, hpost, if_true]
    rfl

/-- The payout is terminal, and nothing of it has changed. -/
structure PayoutFinal (d d' : Db) (k : PayoutId) (p : Payout) : Prop where
  row : d'.payout? k = some p
  journals : d'.payoutJournals k = d.payoutJournals k
  events : d'.paidEvents k = d.paidEvents k

theorem PayoutMove.final (h : PayoutMove R e d d' k c) (hf : R.PayoutsFresh) {p : Payout}
    (hp : d.payout? k = some p) (hs : p.status ≠ .pending) : PayoutFinal d d' k p := by
  cases h with
  | same c row journals events => exact ⟨row.trans hp, journals, events⟩
  | reserved q id fresh => simp [hp] at fresh
  | upgraded q x before status =>
    obtain rfl : p = q := by simpa [hp] using before
    exact absurd status hs
  | succeeded q reference t before status =>
    obtain rfl : p = q := by simpa [hp] using before
    exact absurd (status hf) hs
  | failed q post t before status =>
    obtain rfl : p = q := by simpa [hp] using before
    exact absurd (status hf) hs

/-! ## Runs -/

/-- No session settles a payout from a copy that is out of date. -/
def freshPayouts (mode : Txn.Mode) : Rules := ⟨mode, Rules.PayoutNotStale, fun _ _ => True⟩

theorem freshPayouts_keyed {mode : Txn.Mode} (o : Operation) :
    o.Keyed (freshPayouts mode).keys := by
  cases o <;> trivial

theorem freshPayouts_fresh {mode : Txn.Mode} : (freshPayouts mode).PayoutsFresh := .inr fun _ h => h

variable {cfg : Config} {ops : Nat → Operation} {s : System}

/-- **A payout becomes terminal once**: of a payout that has succeeded or failed nothing changes any
more, neither its row nor its journals nor its events, it is announced at most once, and it has not
both succeeded and been reversed. -/
theorem payouts_final (hd : Activated d)
    (hr : Sys.Run .readCommitted Rules.PayoutNotStale (system cfg d e ops) s) :
    (∀ k p, s.db.payout? k = some p → s.db.paidEvents k ≤ 1 ∧
      (p.status = .succeeded → s.db.journal? ⟨.reversal, .payout k⟩ = none)) ∧
    ∀ s', Sys.Run .readCommitted Rules.PayoutNotStale s s' → ∀ k p, s.db.payout? k = some p →
      p.status ≠ .pending → PayoutFinal s.db s'.db k p := by
  let R := freshPayouts .readCommitted
  have hk : ∀ i, (ops i).Keyed R.keys := fun i => freshPayouts_keyed _
  have hs : (moneyLaw R).Holds s := holds_of_run hd.consistent hk hr
  have hkept : ∀ k, PayoutKept s.db k := invariant_of_run (R := R)
    (P := fun d _ => ∀ k, PayoutKept d k) hd.consistent hk hr
    (fun i c d d' e _ hc hP k => (hc.effect.payout.move k).kept freshPayouts_fresh (hP k))
    (fun _ _ _ _ _ _ _ _ _ hP => hP) fun k => by rw [hd.empty]; exact ⟨rfl, rfl⟩
  refine ⟨fun k p hp => ⟨?_, fun hsucc => (hkept k).no_reversal hp (by simp [hsucc])⟩,
    fun s' hr' k p hp hterm => ?_⟩
  · rw [(hkept k).events]
    split <;> omega
  · refine keeps_of_run (R := R) (P := fun d _ => PayoutFinal s.db d k p) hs hr'
      (fun i c d d' e _ hc hP => ?_) (fun _ _ _ _ _ _ _ _ _ hP => hP) ⟨hp, rfl, rfl⟩
    have hnext := (hc.effect.payout.move k).final freshPayouts_fresh hP.row hterm
    exact ⟨hnext.row, hnext.journals.trans hP.journals, hnext.events.trans hP.events⟩

/-- `PayoutNotStale`, computed. -/
def payoutNotStale : Move → Bool
  | .stmt _ (.relockPayout loaded) _ view _ =>
    (view.payout? loaded.id).all fun p => p.status = loaded.status
  | _ => true

theorem payoutNotStale_sound {mv : Move} (h : payoutNotStale mv = true) :
    Rules.PayoutNotStale mv := by
  cases mv with
  | stmt i point d view e =>
    cases point with
    | relockPayout loaded =>
      intro p hp
      simpa [payoutNotStale, hp] using h
    | _ => trivial
  | _ => trivial

/-- The released milestone's wallet is paid out, by two requests with one key. -/
def payingOps : Nat → Operation
  | 6 => .createPayout aFreelancer 100 "USD" "sandbox" "k3" 1
  | 7 => .createPayout aFreelancer 100 "USD" "sandbox" "k3" 2
  | n => releasingOps n

/-- The second request asks the provider, too, and has to leave the payout pending. -/
theorem payouts_final_of_payout : ∃ s : System,
    ((s.returned? 6).isSome = true ∧ (s.returned? 7).isSome = true ∧
      (s.db.payout? 1).any (fun p => p.status = .succeeded) = true) ∧
    s.db.paidEvents 1 ≤ 1 ∧ s.db.journal? ⟨.reversal, .payout 1⟩ = none := by
  obtain ⟨s, hr, hp⟩ := Sys.exists_run_of_exec (m := .readCommitted)
    (s := system sandboxConfig oneMilestone noTransfers payingOps)
    (l := releasedRun ++ goes 6 15 ++ goes 7 2 ++ (7, .answer .temporary noTransfers) ::
      goes 7 3 ++ answers100 6 "t1" "SUCCEEDED" :: goes 6 8)
    (q := payoutNotStale)
    (p := fun s => (s.returned? 6).isSome ∧ (s.returned? 7).isSome ∧
      (s.db.payout? 1).any fun p => p.status = .succeeded) (by decide +kernel)
    fun mv => payoutNotStale_sound
  have hall := of_decide_eq_true hp
  obtain ⟨p, hrow, hs⟩ := Option.any_eq_true _ _ |>.1 hall.2.2
  obtain ⟨hone, hnone⟩ := (payouts_final oneMilestone_activated hr).1 1 p hrow
  exact ⟨s, hall, hone, hnone (of_decide_eq_true hs)⟩

/-- A session that settles a payout that another one has reversed since it loaded its copy. -/
theorem payouts_not_final : ¬ ∀ (cfg : Config) (d : Db) (e : Providers) (ops : Nat → Operation)
    (s : System), Activated d → Reaches .readCommitted (system cfg d e ops) s →
    ∀ k p, s.db.payout? k = some p → p.status = .succeeded →
      s.db.journal? ⟨.reversal, .payout k⟩ = none := by
  intro h
  obtain ⟨s, hr, hp⟩ := Sys.exists_free_run .readCommitted
    (system sandboxConfig oneMilestone noTransfers payingOps)
    (releasedRun ++ goes 6 15 ++ goes 7 2 ++ (7, .answer .failed noTransfers) ::
      goes 7 12 ++ answers100 6 "t1" "SUCCEEDED" :: goes 6 8)
    (fun s => (s.db.payout? 1).any (fun p => p.status = .succeeded) &&
      (s.db.journal? ⟨.reversal, .payout 1⟩).isSome) (by decide +kernel)
  obtain ⟨hpaid, hsome⟩ := Bool.and_eq_true_iff.1 hp
  obtain ⟨p, hrow, hs⟩ := Option.any_eq_true _ _ |>.1 hpaid
  rw [h _ _ _ _ s oneMilestone_activated hr 1 p hrow (of_decide_eq_true hs)] at hsome
  cases hsome

end Money
