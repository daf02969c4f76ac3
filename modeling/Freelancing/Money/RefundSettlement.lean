import Freelancing.Money.LedgerIntegrity

/-!
# Refunds under concurrent retries

Where no session settles a refund from a copy that is out of date, the journals and events of a
refund follow its status (`RefundKept`), a milestone has gone back from `FUNDED` to `CREATED` once
for each refund that has succeeded (`StepsCounted`), and a refund that has succeeded or failed stays
as it is (`refunds_final`). A copy that is out of date completes a refund that was reversed
(`refunds_not_final`).
-/

namespace Money

open Txn (Sys)
open Txn.Sys (goes)

/-- The refund is one of `refund_milestone`, and it has succeeded. -/
def Refund.done (r : Refund) : Bool :=
  r.idempotency.operation = .milestoneRefund && r.status = .succeeded

/-- The journals and events of the refund `k` are those of its status. -/
structure RefundKept (d : Db) (k : RefundId) : Prop where
  journals : d.refundJournals k = match d.refund? k with
    | none => []
    | some r =>
      if r.idempotency.operation = .disputeResolve then []
      else if r.status = .failed then [r.reversalJournal, r.reservationJournal]
      else [r.reservationJournal]
  events : d.refundedEvents k = if (d.refund? k).any Refund.done then 1 else 0

variable {R : Rules} {d d' : Db} {e : Providers} {k : RefundId} {c : CommitPoint}

/-- A refund that is not `FAILED` has no reversal. -/
theorem RefundKept.no_reversal (h : RefundKept d k) {r : Refund} (hr : d.refund? k = some r)
    (hs : r.status ≠ .failed) : d.journal? ⟨.reversal, .refund k⟩ = none := by
  have hj := h.journals
  simp only [hr, hs, if_false] at hj
  refine Db.journal?_eq_none hj ?_
  split <;> simp [Refund.reservationJournal, Refund.reservationKey]

/-- **A commit keeps the journals and events of a refund with its status.** -/
theorem RefundMove.kept (h : RefundMove R d d' k c) (hf : R.RefundsFresh) (hk : RefundKept d k) :
    RefundKept d' k := by
  obtain ⟨hj, he⟩ := hk
  cases h with
  | same c row journals events => exact ⟨by rw [journals, row, hj], by rw [events, row, he]⟩
  | reserved r id fresh status operation row journals events =>
    rw [fresh] at hj he
    refine ⟨?_, by simp [events, row, he, Refund.done, status]⟩
    simp only [journals, hj, row, operation, status, reduceCtorEq, if_false]
    rfl
  | pending r reference before status row journals events =>
    rw [before] at hj he
    exact ⟨by rw [journals, hj, row]; rfl, by rw [events, he, row]; rfl⟩
  | succeeded r reference before status operation row journals events =>
    have hs := status hf
    rw [before] at hj he
    refine ⟨?_, by simp [events, row, he, hs, Refund.done, operation]⟩
    simp only [operation, hs, reduceCtorEq, if_false] at hj
    simp only [journals, row, hj, operation, reduceCtorEq, if_false]
    rfl
  | failed r reference post before status operation posted row journals events =>
    have hs := status hf
    have hid : r.id = k := Table.get_key before
    have hpost : post = true := by
      have hnone := RefundKept.no_reversal ⟨hj, he⟩ before (by simp [hs])
      rw [posted, show r.reversalJournal.key = ⟨.reversal, .refund r.id⟩ from rfl, hid, hnone]
      rfl
    rw [before] at hj he
    refine ⟨?_, by simp [events, row, he, hs, Refund.done]⟩
    simp only [operation, hs, reduceCtorEq, if_false] at hj
    simp only [journals, row, hj, hpost, operation, reduceCtorEq, if_false, if_true]
    rfl
  | sentBack x r id fresh status operation row journals events =>
    rw [fresh] at hj he
    refine ⟨?_, by simp [events, row, he, Refund.done, operation]⟩
    simp only [journals, hj, row, operation, if_true]

/-- The refund is terminal, and nothing of it has changed. -/
structure RefundFinal (d d' : Db) (k : RefundId) (r : Refund) : Prop where
  row : d'.refund? k = some r
  journals : d'.refundJournals k = d.refundJournals k
  events : d'.refundedEvents k = d.refundedEvents k

theorem RefundMove.final (h : RefundMove R d d' k c) (hf : R.RefundsFresh) {r : Refund}
    (hr : d.refund? k = some r) (hs : r.status ≠ .pending) : RefundFinal d d' k r := by
  cases h with
  | same c row journals events => exact ⟨row.trans hr, journals, events⟩
  | reserved q id fresh => simp [hr] at fresh
  | pending q reference before status =>
    obtain rfl : r = q := by simpa [hr] using before
    exact absurd (status hf) hs
  | succeeded q reference before status =>
    obtain rfl : r = q := by simpa [hr] using before
    exact absurd (status hf) hs
  | failed q reference post before status =>
    obtain rfl : r = q := by simpa [hr] using before
    exact absurd (status hf) hs
  | sentBack x q id fresh => simp [hr] at fresh

/-! ## The milestone's steps back -/

/-- The event records the step back of a refund. -/
def MilestoneEvent.back (v : MilestoneEvent) : Bool := v.step = (.funded, .created)

/-- How often the milestone went from `FUNDED` back to `CREATED`. -/
def Milestone.stepsBack (m : Milestone) : Nat := m.events.countP MilestoneEvent.back

/-- The number of the milestone's refunds that have succeeded. -/
def Db.refundsDone (d : Db) (k : MilestoneId) : Nat :=
  d.refunds.countP fun r => r.milestone = k && r.done

/-- Each milestone went back once for each of its refunds that have succeeded. -/
def StepsCounted (d : Db) : Prop := ∀ k m, d.milestone? k = some m → m.stepsBack = d.refundsDone k

theorem MilestoneEffect.not_back {m : Milestone} {l : List (MilestoneStatus × MilestoneStatus)}
    {s : MilestoneStatus} {n : Int} (h : MilestoneEffect R d d' m c l s n)
    (hc : ∀ r, c ≠ .refundSucceeded r) : (.funded, .created) ∉ l := by
  cases h with
  | captured k i l s intent same open_ status => rcases status with ⟨rfl, -⟩ | ⟨-, rfl, -⟩ <;> simp
  | refundSucceeded r => exact absurd rfl (hc r)
  | moved action => cases action <;> simp [MilestoneAction.target]
  | _ => simp

/-- A commit that completes no refund leaves the milestones' steps back as they are. -/
theorem Committed.stepsBack_same (h : Committed R e c d d') (hc : ∀ r, c ≠ .refundSucceeded r)
    {k : MilestoneId} {m' : Milestone} (hm' : d'.milestone? k = some m') :
    ∃ m, d.milestone? k = some m ∧ m'.stepsBack = m.stepsBack := by
  rcases h.effect.life h.inv with hu | ⟨m₁, s, evs, n, ht, he⟩
  · exact ⟨m', by rw [← hu.rows]; exact hm', rfl⟩
  · by_cases hk : k = m₁.id
    · subst hk
      cases ht.row'.symm.trans hm'
      refine ⟨m₁, ht.row, ?_⟩
      have hnone : evs.countP MilestoneEvent.back = 0 := by
        refine List.countP_eq_zero.2 fun v hv hb => he.not_back hc ?_
        rw [← of_decide_eq_true hb]
        exact List.mem_map_of_mem hv
      change (m₁.events ++ evs).countP _ = _
      rw [List.countP_append, hnone]
      rfl
    · exact ⟨m', by rw [← ht.others k hk]; exact hm', rfl⟩

theorem refundsDone_of_rows {d₁ : Db} (h : d'.refunds = d₁.refunds) (k : MilestoneId) :
    d'.refundsDone k = d₁.refundsDone k := by
  rw [Db.refundsDone, h, Db.refundsDone]

/-- The refund of a reference is as done as it was. -/
theorem refundsDone_refer (hd : Keyed d) {r : Refund} (hr : d.refund? r.id = some r)
    (reference : String) (k : MilestoneId) :
    (d.referRefund r.id reference).refundsDone k = d.refundsDone k := by
  have h := Table.countP_modify (f := fun r => { r with providerReference := some reference })
    hd.refunds hr fun r => r.milestone = k && r.done
  simp only [Refund.done] at h
  simpa [Db.refundsDone, Db.referRefund, Refund.done] using h

theorem refunds_refer (hd : Keyed d) {r : Refund} (hr : d.refund? r.id = some r)
    (reference : String) : ((d.referRefund r.id reference).refunds.map Refund.id).Nodup ∧
      (d.referRefund r.id reference).refund? r.id =
        some { r with providerReference := some reference } := by
  constructor
  · show (List.map Refund.id (Table.modify Refund.id r.id _ d.refunds)).Nodup
    rw [Table.map_key_modify]
    · exact hd.refunds
    · exact fun _ => rfl
  · rw [Db.refund?_referRefund, hr, Option.map_some, if_pos rfl]

theorem refundsDone_finish (hd : (d.refunds.map Refund.id).Nodup) {id : RefundId} {r : Refund}
    (hr : d.refund? id = some r) (hs : r.status = .pending) (s : TransferStatus) (k : MilestoneId) :
    (d.finishRefund id s).refundsDone k = d.refundsDone k +
      if r.milestone = k ∧ r.idempotency.operation = .milestoneRefund ∧ s = .succeeded
      then 1 else 0 := by
  have h := Table.countP_modify (f := fun r => { r with status := s }) hd hr
    fun r => r.milestone = k && r.done
  simpa [Db.refundsDone, Db.finishRefund, Refund.done, hs] using h

/-- A refund that is not done when it is recorded. -/
theorem refundsDone_add {r : Refund} (hr : r.done = false) (hrows : d'.refunds = r :: d.refunds)
    (k : MilestoneId) : d'.refundsDone k = d.refundsDone k := by
  simp [Db.refundsDone, hrows, hr]

/-- **A milestone steps back once for each refund that succeeds.** -/
theorem Committed.stepsCounted (h : Committed R e c d d') (hf : R.RefundsFresh)
    (hs : StepsCounted d) : StepsCounted d' := by
  have hquiet : (∀ r, c ≠ .refundSucceeded r) → (∀ k, d'.refundsDone k = d.refundsDone k) →
      StepsCounted d' := fun hc hdone k m' hm' => by
    obtain ⟨m, hm, hsame⟩ := h.stepsBack_same hc hm'
    rw [hsame, hdone, hs k m hm]
  have hd := h.inv.keyed
  cases h.effect.refund with
  | untouched c l o other rows => exact hquiet other fun k => refundsDone_of_rows rows k
  | reserved r m fresh status operation positive milestone same funded all paid rows =>
    exact hquiet (by simp) (refundsDone_add (by simp [Refund.done, status]) rows)
  | pending r reference row status rows =>
    exact hquiet (by simp) fun k =>
      (refundsDone_of_rows rows k).trans (refundsDone_refer hd row _ k)
  | succeeded r m reference row status operation milestone same v moved moves rows =>
    have hdone : ∀ k, d'.refundsDone k = d.refundsDone k + if m.id = k then 1 else 0 := fun k => by
      obtain ⟨hnd, hrow⟩ := refunds_refer hd row reference
      rw [refundsDone_of_rows rows, refundsDone_finish hnd hrow (status hf),
        refundsDone_refer hd row]
      simp [same, operation]
    intro k m' hm'
    by_cases hk : k = m.id
    · subst hk
      cases moves.row'.symm.trans hm'
      rw [hdone, if_pos rfl, ← hs _ m moves.row]
      change (m.events ++ [v]).countP _ = m.events.countP _ + 1
      rw [List.countP_append]
      simp [MilestoneEvent.back, moved.step]
    · rw [hdone, if_neg (Ne.symm hk), Nat.add_zero]
      exact hs k m' (by rw [← moves.others k hk]; exact hm')
  | failed r reference post row status operation posted reserved rows =>
    refine hquiet (by simp) fun k => ?_
    rw [refundsDone_of_rows rows]
    cases reference with
    | none => simp [whenSome, refundsDone_finish hd.refunds row (status hf)]
    | some reference =>
      obtain ⟨hnd, hrow⟩ := refunds_refer hd row reference
      rw [whenSome, refundsDone_finish hnd hrow (status hf), refundsDone_refer hd row]
      simp
  | sentBack x r m l o fresh status operation positive milestone same disputed bounded funded paid
      rows =>
    exact hquiet (by simp) (refundsDone_add (by simp [Refund.done, operation]) rows)

/-! ## Runs -/

/-- No session settles a refund from a copy that is out of date. -/
def freshRefunds (mode : Txn.Mode) : Rules := ⟨mode, Rules.RefundNotStale, fun _ _ => True⟩

theorem freshRefunds_keyed {mode : Txn.Mode} (o : Operation) :
    o.Keyed (freshRefunds mode).keys := by
  cases o <;> trivial

theorem freshRefunds_fresh {mode : Txn.Mode} : (freshRefunds mode).RefundsFresh := .inr fun _ h => h

/-- The journals of a refund of `refund_milestone` are those of its status. -/
structure RefundSound (d : Db) (r : Refund) : Prop where
  pending : r.status = .pending → d.refundJournals r.id = [r.reservationJournal]
  failed : r.status = .failed →
    d.refundJournals r.id = [r.reversalJournal, r.reservationJournal] ∧
    ∀ a, DoubleEntry.balance ((d.refundJournals r.id).flatMap (·.entries)) a = 0
  succeeded : r.status = .succeeded → d.refundJournals r.id = [r.reservationJournal] ∧
    d.refundedEvents r.id = 1

theorem RefundKept.sound {r : Refund} (h : RefundKept d r.id) (hr : d.refund? r.id = some r)
    (hop : r.idempotency.operation = .milestoneRefund) : RefundSound d r := by
  have hj := h.journals
  have he := h.events
  simp only [hr, hop, reduceCtorEq, if_false] at hj
  rw [hr] at he
  constructor
  · intro hs
    simpa [hs] using hj
  · intro hs
    rw [if_pos hs] at hj
    refine ⟨hj, fun a => ?_⟩
    have hneg : DoubleEntry.balance r.reversal a = -DoubleEntry.balance r.reservation a :=
      refund_reversal_negates r a
    rw [hj]
    simp [Refund.reversalJournal, Refund.reservationJournal, hneg]
  · intro hs
    exact ⟨by simpa [hs] using hj, by simpa [Refund.done, hop, hs] using he⟩

variable {cfg : Config} {ops : Nat → Operation} {s : System}

/-- **Refunds and their journals agree, and a refund becomes terminal once.** -/
theorem refunds_final (hd : Activated d)
    (hr : Sys.Run .readCommitted Rules.RefundNotStale (system cfg d e ops) s) :
    (∀ r ∈ s.db.refunds, r.idempotency.operation = .milestoneRefund → RefundSound s.db r) ∧
    (∀ m ∈ s.db.milestones, m.stepsBack = s.db.refundsDone m.id) ∧
    ∀ s', Sys.Run .readCommitted Rules.RefundNotStale s s' → ∀ k r, s.db.refund? k = some r →
      r.status ≠ .pending → RefundFinal s.db s'.db k r := by
  let R := freshRefunds .readCommitted
  have hk : ∀ i, (ops i).Keyed R.keys := fun i => freshRefunds_keyed _
  have hs : (moneyLaw R).Holds s := holds_of_run hd.consistent hk hr
  have hkept : ∀ k, RefundKept s.db k := invariant_of_run (R := R)
    (P := fun d _ => ∀ k, RefundKept d k) hd.consistent hk hr
    (fun i c d d' e _ hc hP k => (hc.effect.refund.move k).kept freshRefunds_fresh (hP k))
    (fun _ _ _ _ _ _ _ _ _ hP => hP) fun k => by rw [hd.empty]; exact ⟨rfl, rfl⟩
  have hsteps : StepsCounted s.db := invariant_of_run (R := R) (P := fun d _ => StepsCounted d)
    hd.consistent hk hr (fun i c d d' e _ hc hP => hc.stepsCounted freshRefunds_fresh hP)
    (fun _ _ _ _ _ _ _ _ _ hP => hP) fun k m hm => by
      rw [Milestone.stepsBack, (hd.created m (Table.get_mem hm)).2.1, hd.empty]
      rfl
  refine ⟨fun r hm => (hkept r.id).sound (Table.get_of_mem hs.inv.keyed.refunds hm),
    fun m hm => hsteps _ m (Table.get_of_mem hs.inv.keyed.milestones hm),
    fun s' hr' k r hrow hterm => ?_⟩
  refine keeps_of_run (R := R) (P := fun d _ => RefundFinal s.db d k r) hs hr'
    (fun i c d d' e _ hc hP => ?_) (fun _ _ _ _ _ _ _ _ _ hP => hP) ⟨hrow, rfl, rfl⟩
  have hnext := (hc.effect.refund.move k).final freshRefunds_fresh hP.row hterm
  exact ⟨hnext.row, hnext.journals.trans hP.journals, hnext.events.trans hP.events⟩

/-- `RefundNotStale`, computed. -/
def refundNotStale : Move → Bool
  | .stmt _ (.relockRefund loaded) _ view _ =>
    (view.refund? loaded.id).all fun r => r.status = loaded.status
  | _ => true

theorem refundNotStale_sound {mv : Move} (h : refundNotStale mv = true) :
    Rules.RefundNotStale mv := by
  cases mv with
  | stmt i point d view e =>
    cases point with
    | relockRefund loaded =>
      intro r hr
      simpa [refundNotStale, hr] using h
    | _ => trivial
  | _ => trivial

/-- A funded milestone is refunded, by two requests with one key. -/
def refundingOps : Nat → Operation
  | 0 => .fundMilestone anEmployer 1 "sandbox" "k1" 1
  | 1 => .webhook (captured100 "e1" "p1")
  | 2 => .refundMilestone anEmployer 1 "sandbox" "k2" 1
  | _ => .refundMilestone anEmployer 1 "sandbox" "k2" 2

def fundedRun : List (Nat × Txn.Choice Answer Err Providers) :=
  goes 0 8 ++ answers100 0 "p1" "PENDING" :: goes 0 7 ++ goes 1 30

/-- The second request asks the provider, too, and has to leave the refund pending. -/
theorem refunds_final_of_refund : ∃ s : System, (s.returned? 2).isSome = true ∧
    (s.returned? 3).isSome = true ∧ ∃ r ∈ s.db.refunds, r.status = .succeeded ∧
      s.db.refundJournals r.id = [r.reservationJournal] ∧ s.db.refundedEvents r.id = 1 := by
  obtain ⟨s, hr, hp⟩ := Sys.exists_run_of_exec (m := .readCommitted)
    (s := system sandboxConfig oneMilestone noTransfers refundingOps)
    (l := fundedRun ++ goes 2 20 ++ goes 3 5 ++ (3, .answer .temporary noTransfers) ::
      goes 3 4 ++ answers100 2 "r1" "SUCCEEDED" :: goes 2 12)
    (q := refundNotStale)
    (p := fun s => (s.returned? 2).isSome ∧ (s.returned? 3).isSome ∧
      s.db.refunds.any Refund.done) (by decide +kernel)
    fun mv => refundNotStale_sound
  obtain ⟨hfirst, hsecond, hrefunded⟩ := of_decide_eq_true hp
  obtain ⟨r, hm, hdone⟩ := List.any_eq_true.1 hrefunded
  obtain ⟨hop, hs⟩ := Bool.and_eq_true_iff.1 hdone
  have hsound := (refunds_final oneMilestone_activated hr).1 r hm (of_decide_eq_true hop)
  exact ⟨s, hfirst, hsecond, r, hm, of_decide_eq_true hs, hsound.succeeded (of_decide_eq_true hs)⟩

/-- A session that completes a refund that another one has reversed since it loaded its copy. -/
theorem refunds_not_final : ¬ ∀ (cfg : Config) (d : Db) (e : Providers) (ops : Nat → Operation)
    (s : System), Activated d → Reaches .readCommitted (system cfg d e ops) s →
    ∀ r ∈ s.db.refunds, r.idempotency.operation = .milestoneRefund → RefundSound s.db r := by
  intro h
  obtain ⟨s, hr, hp⟩ := Sys.exists_free_run .readCommitted
    (system sandboxConfig oneMilestone noTransfers refundingOps)
    (fundedRun ++ goes 2 20 ++ goes 3 5 ++ (3, .answer .failed noTransfers) ::
      goes 3 13 ++ answers100 2 "r1" "SUCCEEDED" :: goes 2 12)
    (fun s => s.db.refunds.any fun r => r.done && decide (2 ≤ (s.db.refundJournals r.id).length))
    (by decide +kernel)
  obtain ⟨r, hm, hr'⟩ := List.any_eq_true.1 hp
  obtain ⟨hdone, htwo⟩ := Bool.and_eq_true_iff.1 hr'
  obtain ⟨hop, hs⟩ := Bool.and_eq_true_iff.1 hdone
  have hone := ((h _ _ _ _ s oneMilestone_activated hr r hm (of_decide_eq_true hop)).succeeded
    (of_decide_eq_true hs)).1
  rw [hone] at htwo
  simp at htwo

end Money
