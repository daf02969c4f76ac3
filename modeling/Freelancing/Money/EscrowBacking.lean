import Freelancing.Money.RefundLife

/-!
# Escrow

Work is backed by the escrow (`escrow_backs_work`), and the escrow stays between nothing and the
contracted amount (`escrow_in_bounds`), in every run without the steps that a pending refund makes
unsafe: a dispute opened while the escrow of a funded milestone is reserved for a refund, and a
refund that fails after its milestone has been funded again.
-/

namespace Money

open Txn (Sys)
open Txn.Sys (goes)

/-! ## Work is backed -/

def workingStates : List MilestoneStatus :=
  [.inProgress, .submitted, .changesRequested, .approved, .disputed]

/-- The milestone's escrow account holds the contracted amount. -/
def Backed (d : Db) (m : Milestone) : Prop :=
  ∃ x ∈ d.escrow? m.id, (d.account? x.escrowAccount).isSome ∧
    d.balance x.escrowAccount = m.amountMinor

def WorkBacked (d : Db) : Prop := ∀ m ∈ d.milestones, m.status ∈ workingStates → Backed d m

instance (d : Db) : Decidable (WorkBacked d) :=
  inferInstanceAs (Decidable (∀ m ∈ d.milestones, m.status ∈ workingStates →
    ∃ x ∈ d.escrow? m.id, (d.account? x.escrowAccount).isSome ∧
      d.balance x.escrowAccount = m.amountMinor))

/-- A dispute of a funded milestone finds the contracted amount in the escrow, and a refund fails
only before the work on its milestone has started. -/
def keepsBacking : Move → Bool
  | .stmt _ (.commit (.disputeOpened k)) d _ _ =>
    (d.milestone? k).all fun m => m.status ≠ .funded || d.balance m.escrowKey = m.amountMinor
  | .stmt _ (.commit (.refundFailed r)) d _ _ =>
    (d.refund? r).all fun r => (d.milestone? r.milestone).all fun m => m.status ∉ workingStates
  | _ => true

/-- What `WorkBacked` needs of each milestone, whatever its status. -/
structure Backing (d : Db) (m : Milestone) : Prop where
  escrow : m.status ≠ .created → (d.escrow? m.id).isSome
  balance : m.status ∈ workingStates → d.balance m.escrowKey = m.amountMinor

variable {R : Rules} {d d' : Db} {e : Providers} {c : CommitPoint}

theorem Backing.backed {m : Milestone} (hd : Consistent d) (hm : m ∈ d.milestones)
    (h : Backing d m) (hs : m.status ∈ workingStates) : Backed d m := by
  have hne : m.status ≠ .created := by
    rintro hc
    rw [hc] at hs
    simp [workingStates] at hs
  obtain ⟨x, hx⟩ := Option.isSome_iff_exists.1 (h.escrow hne)
  obtain ⟨hk, ha⟩ := hd.escrow_key (Table.get_of_mem hd.keyed.milestones hm) hx
  exact ⟨x, hx, by rw [hk, ha]; rfl, by rw [hk]; exact h.balance hs⟩

/-- **A commit keeps the work backed.** -/
theorem Committed.backing (hR : R.Serial) (h : Committed R e c d d') {i : Nat}
    (hok : keepsBacking (.stmt i (.commit c) d d' e) = true)
    (hb : ∀ k m, d.milestone? k = some m → Backing d m) :
    ∀ k m, d'.milestone? k = some m → Backing d' m := by
  refine h.effect.each h.inv
    (fun m hbal hesc hm => ⟨fun hs => hesc (hm.escrow hs), fun hs => ?_⟩) ?_ hb
  · rw [hbal]
    exact hm.balance hs
  intro m s evs n ht he hm
  have hkeep : m.status ≠ .created → (d'.escrow? m.id).isSome :=
    fun hs => ht.escrows _ (hm.escrow hs)
  have hbal := ht.balance
  generalize evs.map MilestoneEvent.step = l at he
  cases he with
  | captured k i l s intent same open_ status fits escrow =>
    refine ⟨fun _ => escrow, fun hs => ?_⟩
    rcases status with ⟨-, rfl⟩ | ⟨-, -, rfl⟩
    rotate_left
    · simp [workingStates] at hs
    · rcases open_ with ho | ho <;> simp [ho, workingStates] at hs
  | released status =>
    exact ⟨fun _ => hkeep (by simp [status]), fun hs => by simp [workingStates] at hs⟩
  | refundReserved r status =>
    refine ⟨fun _ => hkeep (by simp [status]), fun hs => ?_⟩
    simp [status, workingStates] at hs
  | refundSucceeded r status =>
    exact ⟨fun hs => absurd rfl hs, fun hs => by simp [workingStates] at hs⟩
  | refundFailed r post refund same status operation =>
    refine ⟨hkeep, fun hs => ?_⟩
    -- the condition on the run: the milestone is not worked on
    simp only [keepsBacking, refund, Option.all_some, same, ht.row, decide_eq_true_eq] at hok
    exact absurd hs hok
  | moved action allowed start =>
    have hne : m.status ≠ .created := by
      rintro hc
      rw [hc] at allowed
      cases action <;> simp [userTransitions] at allowed
    refine ⟨fun _ => hkeep hne, fun _ => ?_⟩
    show d'.balance m.escrowKey = m.amountMinor
    by_cases ha : action = .start
    · have := (start hR ha).2
      omega
    · have := hm.balance (by cases action <;> simp_all [userTransitions, workingStates]; tauto)
      omega
  | disputed open_ =>
    refine ⟨fun _ => hkeep (fun hc => by simp [hc, openableMilestoneStates] at open_), fun _ => ?_⟩
    show d'.balance m.escrowKey = m.amountMinor
    simp only [keepsBacking, ht.row, Option.all_some, Bool.or_eq_true, decide_eq_true_eq] at hok
    rcases hok with hf | hf
    · have := hm.balance
          (by simp only [openableMilestoneStates, workingStates, List.mem_cons] at open_ ⊢; tauto)
      omega
    · omega
  | resolved x status =>
    exact ⟨fun _ => hkeep (by simp [status]), fun hs => by simp [workingStates] at hs⟩

/-- **The escrow backs the work.** -/
theorem escrow_backs_work {cfg : Config} {ops : Nat → Operation} {s : System} (hd : Activated d)
    (hr : Sys.Run .serial (fun mv => keepsBacking mv = true) (system cfg d e ops) s) :
    WorkBacked s.db := by
  let R := rules .serial keepsBacking
  have hk : ∀ i, (ops i).Keyed R.keys := fun i => keyed_rules _
  have hs : Consistent s.db := consistent_of_run (R := R) hd.consistent hk hr
  have hinv : ∀ k m, s.db.milestone? k = some m → Backing s.db m := by
    refine invariant_of_run (R := R) (P := fun d _ => ∀ k m, d.milestone? k = some m → Backing d m)
      hd.consistent hk hr (fun i c d d' e hok hc hP => hc.backing serial_rules hok hP)
      (fun _ _ _ _ _ _ _ _ _ hP => hP) fun k m hm => ?_
    have hc := (hd.created m (Table.get_mem hm)).1
    exact ⟨fun h => absurd hc h, fun h => by simp [hc, workingStates] at h⟩
  intro m hm hw
  exact (hinv m.id m (Table.get_of_mem hs.keyed.milestones hm)).backed hs hm hw

theorem escrow_backs_started_work : ∃ s, Sys.Run .serial (fun mv => keepsBacking mv = true)
    (system sandboxConfig oneMilestone noTransfers startingOps) s ∧
      (∃ m ∈ s.db.milestones, m.status = .inProgress) ∧ WorkBacked s.db := by
  obtain ⟨s, hr, hp⟩ := Sys.exists_run .serial
    (system sandboxConfig oneMilestone noTransfers startingOps) keepsBacking startedRun
    (fun s => decide (∃ m ∈ s.db.milestones, m.status = .inProgress)) (by decide +kernel)
  exact ⟨s, hr, by simpa using hp, escrow_backs_work oneMilestone_activated hr⟩

/-- A dispute is opened while the escrow is reserved for a refund. -/
def reservedOps : Nat → Operation
  | 0 => .fundMilestone anEmployer 1 "sandbox" "k1" 1
  | 1 => .webhook (captured100 "e1" "p1")
  | 2 => .refundMilestone anEmployer 1 "sandbox" "k2" 1
  | _ => .openDispute anEmployer 1 "late" 1

theorem escrow_does_not_back_work : ¬ ∀ (cfg : Config) (d : Db) (e : Providers)
    (ops : Nat → Operation) (s : System), Activated d →
      Sys.Run .serial (fun _ => True) (system cfg d e ops) s → WorkBacked s.db := by
  intro h
  obtain ⟨s, hr, hp⟩ := Sys.exists_free_run .serial
    (system sandboxConfig oneMilestone noTransfers reservedOps)
    (goes 0 8 ++ answers100 0 "p1" "PENDING" :: goes 0 7 ++ goes 1 30 ++ goes 2 18 ++ goes 3 20)
    (fun s => !decide (WorkBacked s.db)) (by decide +kernel)
  exact absurd (h _ _ _ _ s oneMilestone_activated hr) (by simpa using hp)

/-! ## Bounds of the escrow -/

def EscrowInBounds (d : Db) : Prop :=
  ∀ m ∈ d.milestones, 0 ≤ d.balance m.escrowKey ∧ d.balance m.escrowKey ≤ m.amountMinor

instance (d : Db) : Decidable (EscrowInBounds d) :=
  inferInstanceAs (Decidable (∀ m ∈ d.milestones, 0 ≤ d.balance m.escrowKey ∧
    d.balance m.escrowKey ≤ m.amountMinor))

/-- A refund fails only while the escrow of its milestone is empty. -/
def keepsBounds : Move → Bool
  | .stmt _ (.commit (.refundFailed r)) d _ _ =>
    (d.refund? r).all fun r => (d.milestone? r.milestone).all fun m => d.balance m.escrowKey = 0
  | _ => true

/-- The escrow is empty or holds the contracted amount. -/
structure AllOrNothing (d : Db) (m : Milestone) : Prop where
  amount : 0 ≤ m.amountMinor
  balance : d.balance m.escrowKey = 0 ∨ d.balance m.escrowKey = m.amountMinor

/-- A refund of a milestone is one of the contracted amount. -/
def RefundsWhole (d : Db) : Prop :=
  ∀ r ∈ d.refunds, r.idempotency.operation = .milestoneRefund →
    ∀ m, d.milestone? r.milestone = some m → r.amountMinor = m.amountMinor

theorem Committed.refundsWhole (hR : R.Serial) (h : Committed R e c d d')
    (hb : ∀ k m, d.milestone? k = some m → AllOrNothing d m) (hw : RefundsWhole d) :
    RefundsWhole d' := by
  intro r hr ho m hm
  obtain ⟨m₀, hm₀, ⟨_, _, rfl⟩, -⟩ := h.milestone_before hm
  rcases h.effect.refund.mem hr with ⟨x, hx, _, _, rfl⟩ | ⟨m₁, hm₁, hid, ⟨hop, -⟩ | ⟨-, hpos, hall⟩⟩
  · exact hw x hx ho m₀ hm₀
  · rw [hop] at ho
    cases ho
  · rw [hid, hm₁] at hm₀
    cases hm₀
    have := hall hR
    rcases (hb _ m₀ hm₁).balance with hz | ha
    · omega
    · exact this.trans ha

/-- **A commit leaves the escrow empty or full.** -/
theorem Committed.allOrNothing (hR : R.Serial) (h : Committed R e c d d') {i : Nat}
    (hok : keepsBounds (.stmt i (.commit c) d d' e) = true) (hw : RefundsWhole d)
    (hb : ∀ k m, d.milestone? k = some m → AllOrNothing d m) :
    ∀ k m, d'.milestone? k = some m → AllOrNothing d' m := by
  refine h.effect.each h.inv (fun m hbal _ hm => ⟨hm.amount, by rw [hbal]; exact hm.balance⟩) ?_ hb
  intro m s evs n ht he hm
  refine ⟨hm.amount, ?_⟩
  have hbal := ht.balance
  have hbefore := hm.balance
  generalize evs.map MilestoneEvent.step = l at he
  change d'.balance m.escrowKey = 0 ∨ d'.balance m.escrowKey = m.amountMinor
  cases he with
  | captured k i l s intent same open_ status fits escrow =>
    have hok := h.inv.intents i (Table.get_mem intent)
    obtain ⟨m', hm', ha, -⟩ := hok.milestone
    rw [same, ht.row] at hm'
    cases hm'
    have := fits hR
    have := hok.positive
    have := hm.amount
    omega
  | released status funded =>
    have := funded hR
    omega
  | refundReserved r status all =>
    have := all hR
    omega
  | refundSucceeded r status => omega
  | refundFailed r post refund same status operation =>
    -- the condition on the run: the escrow is empty
    simp only [keepsBounds, refund, Option.all_some, same, ht.row, decide_eq_true_eq] at hok
    have := hw r (Table.get_mem refund) operation m (by rw [same]; exact ht.row)
    cases post with
    | false => omega
    | true =>
      rw [if_pos rfl] at hbal
      omega
  | moved action allowed start => omega
  | disputed open_ => omega
  | resolved x status funded =>
    have := funded hR
    omega

/-- **The escrow is never overdrawn or overfunded.** -/
theorem escrow_in_bounds {cfg : Config} {ops : Nat → Operation} {s : System} (hd : Activated d)
    (hr : Sys.Run .serial (fun mv => keepsBounds mv = true) (system cfg d e ops) s) :
    EscrowInBounds s.db := by
  let R := rules .serial keepsBounds
  have hk : ∀ i, (ops i).Keyed R.keys := fun i => keyed_rules _
  have hs : Consistent s.db := consistent_of_run (R := R) hd.consistent hk hr
  have hinv : (∀ k m, s.db.milestone? k = some m → AllOrNothing s.db m) ∧ RefundsWhole s.db := by
    refine invariant_of_run (R := R)
      (P := fun d _ => (∀ k m, d.milestone? k = some m → AllOrNothing d m) ∧ RefundsWhole d)
      hd.consistent hk hr (fun i c d d' e hok hc hP =>
        ⟨hc.allOrNothing serial_rules hok hP.2 hP.1, hc.refundsWhole serial_rules hP.1 hP.2⟩)
      (fun _ _ _ _ _ _ _ _ _ hP => hP) ⟨fun k m hm => ⟨?_, .inl ?_⟩, ?_⟩
    · exact (hd.created m (Table.get_mem hm)).2.2
    · rw [hd.empty]
      rfl
    · intro r hr
      rw [hd.empty] at hr
      cases hr
  intro m hm
  obtain ⟨ha, hb⟩ := hinv.1 m.id m (Table.get_of_mem hs.keyed.milestones hm)
  omega

theorem escrow_in_bounds_of_start : ∃ s, Sys.Run .serial (fun mv => keepsBounds mv = true)
    (system sandboxConfig oneMilestone noTransfers startingOps) s ∧
      (∃ m ∈ s.db.milestones, s.db.balance m.escrowKey = 100) ∧ EscrowInBounds s.db := by
  obtain ⟨s, hr, hp⟩ := Sys.exists_run .serial
    (system sandboxConfig oneMilestone noTransfers startingOps) keepsBounds startedRun
    (fun s => decide (∃ m ∈ s.db.milestones, s.db.balance m.escrowKey = 100)) (by decide +kernel)
  exact ⟨s, hr, by simpa using hp, escrow_in_bounds oneMilestone_activated hr⟩

/-- A refund fails after a late capture has filled the escrow that it had emptied. -/
def lateCaptureOps : Nat → Operation
  | 0 => .fundMilestone anEmployer 1 "sandbox" "k1" 1
  | 1 => .webhook (failedPayment "e1" "p1")
  | 2 => .fundMilestone anEmployer 1 "sandbox" "k2" 2
  | 3 => .webhook (captured100 "e2" "p2")
  | 4 => .refundMilestone anEmployer 1 "sandbox" "k3" 1
  | _ => .webhook (captured100 "e3" "p1")

def lateCaptureRun : List (Nat × Txn.Choice Answer Err Providers) :=
  goes 0 8 ++ answers100 0 "p1" "PENDING" :: goes 0 7 ++ goes 1 6 ++
    goes 2 8 ++ answers100 2 "p2" "PENDING" :: goes 2 7 ++ goes 3 30 ++ goes 4 18 ++ goes 5 23 ++
    goes 4 2 ++ (4, .answer .failed noTransfers) :: goes 4 13

theorem escrow_out_of_bounds : ¬ ∀ (cfg : Config) (d : Db) (e : Providers)
    (ops : Nat → Operation) (s : System), Activated d →
      Sys.Run .serial (fun _ => True) (system cfg d e ops) s → EscrowInBounds s.db := by
  intro h
  obtain ⟨s, hr, hp⟩ := Sys.exists_free_run .serial
    (system sandboxConfig oneMilestone noTransfers lateCaptureOps) lateCaptureRun
    (fun s => !decide (EscrowInBounds s.db)) (by decide +kernel)
  exact absurd (h _ _ _ _ s oneMilestone_activated hr) (by simpa using hp)

end Money
