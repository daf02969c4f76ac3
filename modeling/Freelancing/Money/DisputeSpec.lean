import Freelancing.Money.RefundSpec

/-!
# Obligations of disputes and of the cancellation of contracts
-/

namespace Money

variable {R : Rules} {i : Nat} {held held' : Set LockName} {pend : Db → Db} {b : Bool}
  {w w' : World}

/-! ## Opening and review -/

theorem requiredText_spec {value field : String} {n : Nat} {v : TxView} :
    Meets R i (requiredText value field n) v fun v' _ => v' = v := by
  refine Meets.bind .require ?_
  rintro _ - ⟨rfl, -⟩
  exact .pure rfl

theorem Updates.notified {d : Db} {x : DisputeId} {users : List UserId}
    {eventType title body : String} :
    Updates held d (Money.notified x users eventType title body d) := by
  induction users generalizing d with
  | nil => exact Relation.ReflTransGen.refl
  | cons u users ih => exact (Updates.single (.enqueue _)).trans ih

theorem lockedDispute_spec {id : DisputeId} (hp : ∀ d k, (pend d).dispute? k = d.dispute? k) :
    Meets R i (lockedDispute id) ⟨held, pend, b, w⟩ fun v' r => ∃ w', Later R held b w w' ∧
      v' = ⟨insert (.dispute id) held, pend, R.mode.inTxn, w'⟩ ∧ r.id = id ∧
      w'.1.dispute? id = some r := by
  refine Meets.bind .selectForUpdate ?_
  rintro v₁ r ⟨w₁, h₁, hr, hv₁⟩
  rw [hp] at hr
  cases r with
  | none => exact .raise
  | some x =>
    have hid : x.id = id := Table.get_key hr.symm
    rw [show v₁ = _ from hv₁, hid]
    exact .pure ⟨w₁, h₁, rfl, hid, hr.symm⟩

theorem openDispute_spec {user : User} {milestoneId : MilestoneId} {reason : String}
    {disputeId : DisputeId} :
    Meets R i (openDispute user milestoneId reason disputeId) ⟨∅, id, b, w⟩ fun _ _ => True := by
  refine Meets.bind requiredText_spec ?_
  rintro _ reason rfl
  refine Meets.bind (lockedMilestone_spec (fun _ _ => rfl) (fun _ _ => rfl)) ?_
  rintro _ ⟨m, c⟩ ⟨w₁, h₁, rfl, hid, hm, -⟩
  dsimp only at hid hm ⊢
  subst hid
  refine Meets.bind .require ?_
  rintro _ - ⟨rfl, -⟩
  refine Meets.bind .require ?_
  rintro _ - ⟨rfl, -⟩
  refine Meets.bind .require ?_
  rintro _ - ⟨rfl, hopen⟩
  refine Meets.bind .selectForUpdate ?_
  rintro v r ⟨w₂, h₂, -, hv⟩
  cases r with
  | some x => exact .raise
  | none =>
  subst hv
  refine Meets.bind .reserve ?_
  rintro _ - ⟨w₃, h₃, rfl, hfresh⟩
  refine Meets.bind .taken ?_
  rintro _ clash ⟨w₄, h₄, rfl, hclash⟩
  refine Meets.bind .require ?_
  rintro _ - ⟨rfl, honly⟩
  refine Meets.bind .write ?_
  rintro _ - rfl
  refine Meets.bind .write ?_
  rintro _ - rfl
  refine Meets.bind .write ?_
  rintro _ - rfl
  refine Meets.bind .write ?_
  rintro _ - rfl
  refine Meets.bind (.commit fun w' hw => ?_) fun _ _ _ => .pure trivial
  have h₄' := h₄.trans hw (Set.subset_insert _ _)
  have hm' : w'.1.milestone? m.id = some m := by
    rw [(h₂.trans (h₃.trans h₄' (Set.subset_insert _ _)) subset_rfl).milestone (Set.mem_insert _ _)]
    exact hm
  have hfresh' : w'.1.dispute? disputeId = none := by
    rw [h₄'.dispute (Set.mem_insert _ _)]
    simpa using hfresh
  have ho : m.status ∈ openableMilestoneStates := by simpa using hopen
  have hml : LockName.milestone m.id ∈ insert (LockName.disputeOf m.id)
      (insert (.dispute disputeId) (insert (.milestone m.id) (∅ : Set LockName))) := by simp
  have hdl : LockName.dispute disputeId ∈ insert (LockName.disputeOf m.id)
      (insert (.dispute disputeId) (insert (.milestone m.id) (∅ : Set LockName))) := by simp
  refine ⟨?_, .disputeOpened (newDispute disputeId m c user reason) m _ _ _ _ _ _ hfresh'
    (fun hser => ?_) rfl rfl hm' ho ⟨rfl, rfl⟩⟩
  · have u₁ : Update _ w'.1 (w'.1.addDispute (newDispute disputeId m c user reason)) :=
      .addDispute _ hdl hfresh'
    have hne : m.status ≠ .released ∧ m.status ≠ .created := by
      constructor <;> intro hr <;> rw [hr] at ho <;> simp [openableMilestoneStates] at ho
    exact (((Updates.single u₁).trans
      (.single (.moveMilestone m _ hml hm' hne.1 fun hc => absurd hc hne.2))).trans
      (.single (.addDisputeEvent _ _ hdl))).trans .notified
  · rw [hw.still hser hser]
    rw [hclash] at honly
    simpa using honly

theorem adminTransition_spec {administrator : User} {disputeId : DisputeId}
    {toStatus reason : String} :
    Meets R i (adminTransition administrator disputeId toStatus reason) ⟨∅, id, b, w⟩
      fun _ _ => True := by
  refine Meets.bind .require ?_
  rintro _ - ⟨rfl, -⟩
  refine Meets.bind (lockedDispute_spec fun _ _ => rfl) ?_
  rintro _ x ⟨w₁, h₁, rfl, rfl, hx⟩
  refine Meets.bind requiredText_spec ?_
  rintro _ reason rfl
  dsimp only
  split
  · exact .raiseApi
  rename_i target htarget
  refine Meets.bind findMilestone_spec ?_
  rintro _ - ⟨w₂, h₂, rfl⟩
  refine Meets.bind .write ?_
  rintro _ - rfl
  refine Meets.bind .write ?_
  rintro _ - rfl
  refine Meets.bind (.commit fun w' hw => ?_) fun _ _ _ => .pure trivial
  have hx' : w'.1.dispute? x.id = some x :=
    ((h₂.trans hw subset_rfl).dispute (Set.mem_insert _ _)).trans hx
  have ha : target ∈ adminTransitions x.status := List.mem_of_find?_eq_some htarget
  have hne : x.status ≠ .resolved := by
    intro hr
    rw [hr] at ha
    cases ha
  have hl : LockName.dispute x.id ∈ insert (.dispute x.id) (∅ : Set LockName) := Set.mem_insert _ _
  exact ⟨(Updates.single (.moveDispute x target hl hx' hne)).trans
    (.single (.addDisputeEvent _ _ hl)), .disputeMoved x target _ hx' ha⟩

/-! ## Cancellation -/

/-- No work has started on the contract and no payment for it is under way. -/
structure Idle (d : Db) (c : ContractId) : Prop where
  work : ∀ k m, d.milestone? k = some m → m.contract = c → m.status = .created
  payments : ∀ i ∈ d.intents, i.status = .pending → ∀ m, d.milestone? i.milestone = some m →
    m.contract ≠ c

/-- Nothing starts while the contract's lock is held. -/
theorem Idle.work_later {c : ContractId} (hl : .contract c ∈ held) (hm : Moved R held b w w')
    (h : ∀ k m, w.1.milestone? k = some m → m.contract = c → m.status = .created) (k : MilestoneId)
    (m : Milestone) (hk : w'.1.milestone? k = some m) (hc : m.contract = c) :
    m.status = .created := by
  by_contra hs
  obtain ⟨m₀, hm₀, hc₀, hs₀⟩ := hm.frame.created k m hk hs (hc.symm ▸ hl)
  exact hs₀ (h k m₀ hm₀ (hc₀.trans hc))

theorem Idle.later {c : ContractId} (h : Idle w.1 c) (hl : .contract c ∈ held)
    (hm : Moved R held b w w') : Idle w'.1 c where
  work := Idle.work_later hl hm h.work
  payments x hx hp m hm' hc := by
    obtain ⟨m₀, hm₀⟩ := Option.isSome_iff_exists.1 (hm.frame.noNew x.milestone (by rw [hm']; rfl))
    obtain ⟨m₁, hm₁, ⟨_, _, rfl⟩, -⟩ := hm.frame.milestones.keep _ m₀ hm₀
    cases hm₁.symm.trans hm'
    have hc₀ : m₀.contract = c := hc
    exact h.payments x (hm.frame.idle x hx hp m₀ hm₀ (hc₀.symm ▸ hl)) hp m₀ hm₀ hc₀

theorem requireIdle_spec {c : Contract} {ms : List Milestone} (hi : Consistent w.1)
    (hl : .contract c.id ∈ held) (hms : ms = w.1.milestonesOf c.id) :
    Meets R i (requireIdle c ms) ⟨held, id, R.mode.inTxn, w⟩ fun v' _ => ∃ w',
      Later R held R.mode.inTxn w w' ∧ v' = ⟨held, id, R.mode.inTxn, w'⟩ ∧
        (c.status = .active → Idle w'.1 c.id) := by
  unfold requireIdle
  split
  · refine Meets.bind .require ?_
    rintro _ - ⟨rfl, hcreated⟩
    refine Meets.bind .select ?_
    rintro _ pending ⟨w₁, h₁, rfl, hpending⟩
    refine Meets.require.mono ?_
    rintro _ - ⟨rfl, hnone⟩
    have hwork : ∀ k m, w.1.milestone? k = some m → m.contract = c.id → m.status = .created := by
      intro k m hk hc
      have hmem : m ∈ ms := by
        rw [hms]
        exact List.mem_filter.2 ⟨Table.get_mem hk, by simpa using hc⟩
      by_contra hs
      have hany : (ms.any fun m => m.status ≠ .created) = true :=
        List.any_eq_true.2 ⟨m, hmem, by simpa using hs⟩
      rw [hany] at hcreated
      cases hcreated
    refine ⟨w₁, h₁, rfl, fun _ => ⟨Idle.work_later hl h₁.toMoved hwork, ?_⟩⟩
    intro x hx hp m hm hc
    obtain ⟨m₀, hm₀⟩ := Option.isSome_iff_exists.1 (h₁.frame.noNew x.milestone (by rw [hm]; rfl))
    obtain ⟨m₁, hm₁, ⟨_, _, rfl⟩, -⟩ := h₁.frame.milestones.keep _ m₀ hm₀
    cases hm₁.symm.trans hm
    have hmem : x.milestone ∈ ms.map (·.id) := by
      rw [hms]
      refine List.mem_map.2 ⟨m₀, List.mem_filter.2 ⟨Table.get_mem hm₀, by simpa using hc⟩, ?_⟩
      exact Table.get_key hm₀
    rw [hpending] at hnone
    have hfind := List.find?_eq_none.1
        (Option.map_eq_none_iff.1 (Option.isNone_iff_eq_none.1 hnone)) x hx
    exact hfind (by simp [hp, hmem])
  · rename_i hs
    exact .pure ⟨w, .refl hi, rfl, fun h => absurd h hs⟩

theorem cancelContract_spec {user : User} {contractId : ContractId} :
    Meets R i (cancelContract user contractId) ⟨∅, id, b, w⟩ fun _ _ => True := by
  refine Meets.bind (P := fun v' r => ∃ w', Later R ∅ b w w' ∧
    v' = ⟨insert (.contract r.1.id) ∅, id, R.mode.inTxn, w'⟩ ∧
    w'.1.contract? r.1.id = some r.1 ∧ r.2 = w'.1.milestonesOf r.1.id) ?_ ?_
  · refine Meets.bind .selectForUpdate ?_
    rintro v r ⟨w₁, h₁, hr, hv⟩
    cases r with
    | none => exact .raise
    | some c =>
      subst hv
      have hid : c.id = contractId := Table.get_key hr.symm
      refine Meets.bind .select ?_
      rintro _ ms ⟨w₂, h₂, rfl, hms⟩
      refine .pure ⟨w₂, h₁.trans h₂ (Set.subset_insert _ _), rfl, ?_, hms⟩
      rw [h₂.contract (Set.mem_insert _ _), hid]
      exact hr.symm
  rintro _ ⟨c, ms⟩ ⟨w₁, h₁, rfl, hc, hms⟩
  dsimp only at hc hms ⊢
  have hget : ∀ {v : TxView}, Meets R i (getContract c.id) v fun _ _ => True := fun {v} => by
    refine Meets.bind .select ?_
    rintro _ r -
    cases r with
    | none => exact .raise
    | some c => exact .pure trivial
  refine Meets.bind .require ?_
  rintro _ - ⟨rfl, -⟩
  split
  · exact hget
  rename_i hopen
  refine Meets.bind (requireIdle_spec h₁.inv (Set.mem_insert _ _) hms) ?_
  rintro _ - ⟨w₂, h₂, rfl, hidle⟩
  refine Meets.bind .write ?_
  rintro _ - rfl
  refine Meets.bind (.commit fun w' hw => ?_) fun _ _ _ => hget
  have hl : LockName.contract c.id ∈ insert (LockName.contract c.id) (∅ : Set LockName) :=
    Set.mem_insert _ _
  have h₂' := (h₂.trans hw subset_rfl).toMoved
  have hidle' := fun ha => (hidle ha).later hl hw.toMoved
  exact ⟨.single (.cancelContract c.id hl), .contractCancelled c ((h₂'.contract hl).trans hc) hopen
    (fun ha => (hidle' ha).work) fun ha => (hidle' ha).payments⟩

end Money
