import Freelancing.Money.MilestoneLife

/-!
# The event log of a milestone

The events of a milestone are a faithful trace of its status (`milestone_log`), whatever requests
overlap in whatever way: each event goes on where the previous one ended, the last one ends in the
status the milestone has, and every event is one of the steps that the services take.
-/

namespace Money

open Txn (Sys)
open Txn.Sys (goes)

/-- The steps that the services take. -/
def codeSteps : List (MilestoneStatus × MilestoneStatus) :=
  [(.created, .funded), (.funded, .created), (.funded, .inProgress), (.inProgress, .submitted),
    (.changesRequested, .submitted), (.submitted, .changesRequested), (.submitted, .approved),
    (.approved, .releasePending), (.releasePending, .released), (.funded, .disputed),
    (.inProgress, .disputed), (.submitted, .disputed), (.changesRequested, .disputed),
    (.approved, .disputed), (.disputed, .released)]

/-- `evs` lead from `a` to `b` by steps of the services. -/
structure Log (a : MilestoneStatus) (evs : List MilestoneEvent) (b : MilestoneStatus) : Prop where
  trace : Trace a evs b
  steps : ∀ v ∈ evs, v.step ∈ codeSteps

theorem Trace.append {a b c : MilestoneStatus} {evs evs' : List MilestoneEvent} (h : Trace a evs b)
    (h' : Trace b evs' c) : Trace a (evs ++ evs') c := by
  induction h with
  | nil a => exact h'
  | cons head _ ih => exact .cons head (ih h')

theorem Log.append {a b c : MilestoneStatus} {evs evs' : List MilestoneEvent} (h : Log a evs b)
    (h' : Log b evs' c) : Log a (evs ++ evs') c where
  trace := h.trace.append h'.trace
  steps v hv := (List.mem_append.1 hv).elim (h.steps v) (h'.steps v)

/-- Every event is a change of the status. -/
theorem Log.changes {a b : MilestoneStatus} {evs : List MilestoneEvent} (h : Log a evs b)
    (v : MilestoneEvent) (hv : v ∈ evs) : v.fromStatus ≠ v.toStatus := by
  intro he
  have hs := h.steps v hv
  rw [MilestoneEvent.step, he] at hs
  cases hv : v.toStatus <;> simp [codeSteps, hv] at hs

variable {R : Rules} {d d' : Db} {e : Providers} {c : CommitPoint}

theorem MilestoneEffect.codeSteps {m : Milestone} {l : List (MilestoneStatus × MilestoneStatus)}
    {s : MilestoneStatus} {n : Int} (h : MilestoneEffect R d d' m c l s n) :
    ∀ x ∈ l, x ∈ codeSteps := by
  cases h with
  | captured k i l s intent same open_ status =>
    rcases status with ⟨rfl, -⟩ | ⟨-, rfl, -⟩ <;> simp [Money.codeSteps]
  | released status => simp [Money.codeSteps]
  | refundReserved r status => simp
  | refundSucceeded r status => simp [Money.codeSteps]
  | refundFailed r post => simp
  | moved action allowed =>
    cases action <;> simp only [userTransitions, List.mem_cons, List.not_mem_nil,
      or_false] at allowed
    · simp [allowed, MilestoneAction.target, Money.codeSteps]
    · rcases allowed with h | h <;> simp [h, MilestoneAction.target, Money.codeSteps]
    · simp [allowed, MilestoneAction.target, Money.codeSteps]
    · simp [allowed, MilestoneAction.target, Money.codeSteps]
  | disputed open_ =>
    simp only [openableMilestoneStates, List.mem_cons, List.not_mem_nil, or_false] at open_
    rcases open_ with h | h | h | h | h <;> simp [h, Money.codeSteps]
  | resolved x status => simp [Money.codeSteps]

/-- What has become of the milestone `m` of an earlier state: its log has grown. -/
def Grown (m : Milestone) (d : Db) : Prop :=
  ∃ evs s, d.milestone? m.id = some { m with status := s, events := m.events ++ evs } ∧
    Log m.status evs s

/-- **A commit records each step of a milestone**, and no more. -/
theorem Committed.grown (h : Committed R e c d d') {m : Milestone} (hm : Grown m d) :
    Grown m d' := by
  obtain ⟨evs, s, hrow, hlog⟩ := hm
  rcases h.effect.life h.inv with hu | ⟨m₁, s', evs', n, ht, he⟩
  · exact ⟨evs, s, by rw [hu.rows]; exact hrow, hlog⟩
  · by_cases hk : m.id = m₁.id
    · have hrow₁ := ht.row
      rw [← hk, hrow] at hrow₁
      cases hrow₁
      refine ⟨evs ++ evs', s', ?_, hlog.append ⟨ht.trace, fun v hv => ?_⟩⟩
      · rw [← List.append_assoc]
        exact ht.row'
      · exact he.codeSteps _ (List.mem_map_of_mem hv)
    · exact ⟨evs, s, by rw [ht.others _ hk]; exact hrow, hlog⟩

/-- **The event log is a faithful trace.** In every state `s` of a run the log of every milestone
leads from `CREATED` to its status by steps of the services, none of them out of `RELEASED`; on the
way to a later state `s'` it grows by one event for each step. -/
theorem milestone_log {mode : Txn.Mode} {ok : Move → Bool} {cfg : Config} {ops : Nat → Operation}
    {s s' : System} (hd : Activated d)
    (hr : Sys.Run mode (fun mv => ok mv = true) (system cfg d e ops) s)
    (hr' : Sys.Run mode (fun mv => ok mv = true) s s') :
    ∀ m ∈ s.db.milestones, Log .created m.events m.status ∧
      (∀ v ∈ m.events, v.fromStatus ≠ .released) ∧
      ∃ m' ∈ s'.db.milestones, m'.id = m.id ∧ ∃ evs, m'.events = m.events ++ evs ∧
        Log m.status evs m'.status ∧ ∀ v ∈ evs, v.fromStatus ≠ v.toStatus := by
  let R := rules mode ok
  have hk : ∀ i, (ops i).Keyed R.keys := fun i => keyed_rules _
  have hs : (moneyLaw R).Holds s := holds_of_run hd.consistent hk hr
  intro m hm
  have hrow : s.db.milestone? m.id = some m := Table.get_of_mem hs.inv.keyed.milestones hm
  obtain ⟨m₀, hm₀⟩ : ∃ m₀, d.milestone? m.id = some m₀ := by
    have hback := invariant_of_run (R := R)
      (P := fun d' _ => ∀ k, (d'.milestone? k).isSome → (d.milestone? k).isSome) hd.consistent hk hr
      (fun i c d₁ d₂ e hok hc hP k hk => hP k (hc.frame.noNew k hk))
        (fun _ _ _ _ _ _ _ _ _ hP => hP)
      fun _ h => h
    exact Option.isSome_iff_exists.1 (hback m.id (by rw [hrow]; rfl))
  have hid : m₀.id = m.id := Table.get_key hm₀
  obtain ⟨hcreated, hnil, -⟩ := hd.created m₀ (Table.get_mem hm₀)
  have hlog : Log .created m.events m.status := by
    have hrow₀ : d.milestone? m₀.id = some m₀ := by rw [hid]; exact hm₀
    have hrow' : s.db.milestone? m₀.id = some m := by rw [hid]; exact hrow
    obtain ⟨evs, s₁, hrow₁, hl⟩ := invariant_of_run (R := R) (P := fun d _ => Grown m₀ d)
      hd.consistent hk hr (fun i c d₁ d₂ e hok hc hP => hc.grown hP)
      (fun _ _ _ _ _ _ _ _ _ hP => hP)
        ⟨[], m₀.status, by rw [List.append_nil]; exact hrow₀, .nil _, by simp⟩
    have hm₁ := Option.some.inj (hrow'.symm.trans hrow₁)
    rw [hm₁, hnil, List.nil_append]
    rwa [hcreated] at hl
  refine ⟨hlog, fun v hv hrel => ?_, ?_⟩
  · have hstep := hlog.steps v hv
    rw [MilestoneEvent.step, hrel] at hstep
    simp [codeSteps] at hstep
  · obtain ⟨evs, s₁, hrow', hl⟩ := keeps_of_run (R := R) (P := fun d _ => Grown m d) hs hr'
      (fun i c d₁ d₂ e hok hc hP => hc.grown hP) (fun _ _ _ _ _ _ _ _ _ hP => hP)
      ⟨[], m.status, by rw [List.append_nil]; exact hrow, .nil _, by simp⟩
    exact ⟨_, Table.get_mem hrow', rfl, evs, rfl, hl, hl.changes⟩

theorem milestone_log_of_start : ∃ s, (∃ m ∈ s.db.milestones, m.status = .inProgress) ∧
    Sys.Run .serial (fun mv => (fun _ => true) mv = true)
      (system sandboxConfig oneMilestone noTransfers startingOps) s ∧
    ∀ m ∈ s.db.milestones, Log .created m.events m.status := by
  obtain ⟨s, hr, hp⟩ := Sys.exists_run .serial
    (system sandboxConfig oneMilestone noTransfers startingOps) (fun _ => true) startedRun
    (fun s => decide (∃ m ∈ s.db.milestones, m.status = .inProgress)) (by decide +kernel)
  exact ⟨s, by simpa using hp, hr, fun m hm =>
    (milestone_log oneMilestone_activated hr .refl m hm).1⟩

end Money
