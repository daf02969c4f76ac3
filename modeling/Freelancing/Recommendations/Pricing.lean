import Freelancing.Agreements.Rows
import Freelancing.Table
import Mathlib.Data.List.Dedup
import Mathlib.Data.List.Sort
import Mathlib.Data.Multiset.Bind

/-!
# Price estimates

`app/recommendations/pricing.py`: the sample of a project's price are the amounts of comparable
proposals. The query joins the skills of their projects, which repeats a proposal for each skill
that is shared, and then takes `DISTINCT` of what it selects, which is the amount.
-/

namespace Recommendations

open Money (UserId Currency Err)
open Agreements (ProjectId Proposal ProposalVersion ProposalStatus)

/-! ## Rows -/

abbrev SkillId := Nat

/-- A row of `projects`, with its budget. -/
structure Project extends Agreements.Project where
  budgetMinMinor : Option Int
  budgetMaxMinor : Option Int

structure ProjectSkill where
  project : ProjectId
  skill : SkillId
  deriving DecidableEq

/-- The tables, with their primary keys, `uq_proposal_version_number` and the project that a
proposal refers to. -/
structure Db where
  projects : List Project
  skills : List ProjectSkill
  proposals : List Proposal
  versions : List ProposalVersion
  projectKeys : (projects.map (·.id)).Nodup
  skillKeys : skills.Nodup
  proposalKeys : (proposals.map (·.id)).Nodup
  versionKeys : (versions.map ProposalVersion.key).Nodup
  proposalProject : ∀ p ∈ proposals, ∃ j ∈ projects, j.id = p.project

/-! ## The query -/

structure Row where
  version : ProposalVersion
  proposal : Proposal
  project : Project

/-- `proposal_versions`, joined with `proposals` and `projects`. -/
def joined (db : Db) : List Row :=
  db.versions.flatMap fun v =>
    (db.proposals.filter fun p => p.id = v.proposal).flatMap fun p =>
      (db.projects.filter fun j => j.id = p.project).map fun j => ⟨v, p, j⟩

def comparableStatus : List ProposalStatus := [.submitted, .underNegotiation, .accepted, .rejected]

/-- The `WHERE` of the statement. -/
def whereClause (project : Project) (currency : Currency) (v : ProposalVersion) (p : Proposal) :
    Bool :=
  p.project ≠ project.id && comparableStatus.contains p.status && v.versionNumber =
    p.currentVersion && v.currency = currency

def statement (db : Db) (project : Project) (currency : Currency) : List Row :=
  (joined db).filter fun r => whereClause project currency r.version r.proposal

/-- The join with `project_skills`: a row for each skill that is among `skillIds`. -/
def joinSkills (db : Db) (skillIds : List SkillId) (rows : List Row) : List Row :=
  rows.flatMap fun r =>
    (db.skills.filter fun s => s.project = r.project.id && skillIds.contains s.skill).map fun _ => r

def skillIds (db : Db) (project : ProjectId) : List SkillId :=
  (db.skills.filter fun s => s.project = project).map (·.skill)

def samples (db : Db) (project : Project) (currency : Currency) : List Int :=
  let rows := statement db project currency
  if skillIds db project.id = [] then rows.map (·.version.amountMinor)
  else ((joinSkills db (skillIds db project.id) rows).map (·.version.amountMinor)).dedup

/-! ## The estimate -/

def PRICE_MODEL_VERSION : String := "pricing-baseline-v1"

def PRICE_FEATURE_VERSION : String := "pricing-history-v1"

structure Response where
  projectId : ProjectId
  modelVersion : String
  featureVersion : String
  currency : Option Currency
  lowerMinor : Option Int
  upperMinor : Option Int
  sampleCount : Nat
  confidence : String
  method : String

/-- `_response`. -/
def response (project : Project) (lower upper : Option Int) (sampleCount : Nat) (method : String) :
    Response where
  projectId := project.id
  modelVersion := PRICE_MODEL_VERSION
  featureVersion := PRICE_FEATURE_VERSION
  currency := project.currency
  lowerMinor := lower
  upperMinor := upper
  sampleCount := sampleCount
  confidence :=
    if sampleCount ≥ 10 then "MEDIUM"
    else if sampleCount ≥ 3 then "LOW"
    else if method = "project_budget_fallback" then "BUDGET_ONLY"
    else "INSUFFICIENT"
  method := method

/-- `_percentile`, of a fraction in quarters. `interpolate` is what the floating-point numbers make
of two values and the weight of the second one, in quarters. -/
def percentile (interpolate : Int → Int → Nat → Int) (values : List Int) (quarters : Nat) : Int :=
  let position := (values.length - 1) * quarters
  let lowerIndex := position / 4
  let upperIndex := (position + 3) / 4
  if lowerIndex = upperIndex then values.getD lowerIndex 0
  else interpolate (values.getD lowerIndex 0) (values.getD upperIndex 0) (position % 4)

/-- The estimate of a project with a currency, from the sorted samples. -/
def estimate (interpolate : Int → Int → Nat → Int) (project : Project) (samples : List Int) :
    Response :=
  if samples.length ≥ 3 then
    let lower := percentile interpolate samples 1
    let upper := percentile interpolate samples 3
    response project (some lower) (some (max lower upper)) samples.length "historical_proposal_iqr"
  else if project.budgetMinMinor.isSome && project.budgetMaxMinor.isSome then
    response project project.budgetMinMinor project.budgetMaxMinor samples.length
    "project_budget_fallback"
  else response project none none samples.length "insufficient_data"

def apiError (type title : String) (status : Nat) (detail : String) : Err :=
  .api ⟨type, title, status, detail⟩

def estimateProjectPrice (interpolate : Int → Int → Nat → Int) (db : Db) (user : UserId)
    (projectId : ProjectId) : Except Err Response :=
  match Table.get (fun j : Project => j.id) projectId db.projects with
  | none => .error (apiError "project_not_found" "Project not found" 404 "Project was not found")
  | some project =>
    if project.employer ≠ user then
      .error (apiError "forbidden" "Forbidden" 403 "You do not own this project")
    else match project.currency with
      | none => .ok (response project none none 0 "insufficient_data")
      | some currency =>
        .ok (estimate interpolate project ((samples db project currency).insertionSort (· ≤ ·)))

/-! ## The comparable proposals -/

/-- The projects share a skill, if the first one has any. -/
def SharesSkill (db : Db) (project other : ProjectId) : Prop :=
  skillIds db project = [] ∨ ∃ s ∈ skillIds db project, s ∈ skillIds db other

instance (db : Db) (project other : ProjectId) : Decidable (SharesSkill db project other) :=
  inferInstanceAs (Decidable (_ ∨ ∃ s ∈ _, _))

/-- The proposal counts for the price of the project. -/
def Comparable (db : Db) (project : Project) (p : Proposal) : Prop :=
  p.project ≠ project.id ∧ p.status ∈ comparableStatus ∧ SharesSkill db project.id p.project

instance (db : Db) (project : Project) (p : Proposal) : Decidable (Comparable db project p) :=
  inferInstanceAs (Decidable (_ ∧ _ ∧ _))

/-- The amount of the current version, if it is in the currency. -/
def currentAmount (db : Db) (currency : Currency) (p : Proposal) : Option Int :=
  ((Table.get ProposalVersion.key (p.id, p.currentVersion) db.versions).filter
    fun v => v.currency = currency).map (·.amountMinor)

/-- The amounts of the comparable proposals, one for each. -/
def comparableAmounts (db : Db) (project : Project) (currency : Currency) : List Int :=
  (db.proposals.filter fun p => Comparable db project p).filterMap (currentAmount db currency)

variable {db : Db} {project : Project} {currency : Currency} {p : Proposal}
  {v : ProposalVersion} {r : Row} {a : Int}

/-! ## The rows of the statement -/

theorem mem_statement : r ∈ statement db project currency ↔ r.version ∈ db.versions ∧
    r.proposal ∈ db.proposals ∧ r.project ∈ db.projects ∧ r.proposal.id = r.version.proposal ∧
      r.project.id = r.proposal.project ∧
        whereClause project currency r.version r.proposal = true := by
  simp only [statement, joined, List.mem_filter, List.mem_flatMap, List.mem_map, decide_eq_true_eq]
  constructor
  · intro h
    obtain ⟨⟨v, hv, p, ⟨hp, hpv⟩, j, ⟨hj, hjp⟩, rfl⟩, hw⟩ := h
    exact ⟨hv, hp, hj, hpv, hjp, hw⟩
  · intro h
    obtain ⟨hv, hp, hj, hpv, hjp, hw⟩ := h
    exact ⟨⟨r.version, hv, r.proposal, ⟨hp, hpv⟩, r.project, ⟨hj, hjp⟩, rfl⟩, hw⟩

/-- The part of the `WHERE` that is about the proposal. -/
def candidate (project : Project) (p : Proposal) : Bool :=
  p.project ≠ project.id && comparableStatus.contains p.status

/-- A version counts for a proposal iff it is the current one, in the currency. -/
theorem whereClause_iff : (p.id = v.proposal ∧ whereClause project currency v p = true) ↔
    candidate project p = true ∧ v.key = (p.id, p.currentVersion) ∧ v.currency = currency := by
  simp only [whereClause, candidate, Bool.and_eq_true, decide_eq_true_eq, ProposalVersion.key,
    Prod.mk.injEq]
  constructor
  · intro h
    exact ⟨h.2.1.1, ⟨h.1.symm, h.2.1.2⟩, h.2.2⟩
  · intro h
    exact ⟨h.2.1.1.symm, ⟨⟨h.1, h.2.1.2⟩, h.2.2⟩⟩

theorem currentAmount_eq_some : currentAmount db currency p = some a ↔
    ∃ v ∈ db.versions, v.key = (p.id, p.currentVersion) ∧ v.currency = currency ∧
      v.amountMinor = a := by
  unfold currentAmount
  constructor
  · intro h
    simp only [Option.map_eq_some_iff, Option.filter_eq_some_iff, decide_eq_true_eq] at h
    obtain ⟨v, ⟨hv, hc⟩, ha⟩ := h
    exact ⟨v, Table.get_mem hv, Table.get_key hv, hc, ha⟩
  · intro h
    obtain ⟨v, hv, hk, hc, ha⟩ := h
    have hget := Table.get_of_mem db.versionKeys hv
    rw [hk] at hget
    simp [hget, hc, ha]

/-- The project of a proposal is one row. -/
theorem filter_projects (hp : p ∈ db.proposals) :
    ∃ j, db.projects.filter (fun j => j.id = p.project) = [j] := by
  obtain ⟨j, hj, he⟩ := db.proposalProject p hp
  have hfilter := Table.filter_key db.projectKeys p.project
  have hget := Table.get_of_mem db.projectKeys hj
  rw [he] at hget
  rw [hget] at hfilter
  exact ⟨j, hfilter⟩

/-! ## Without skills -/

/-- What a version gives to a proposal. -/
def share (project : Project) (currency : Currency) (v : ProposalVersion) (p : Proposal) :
    List Int :=
  if p.id = v.proposal ∧ whereClause project currency v p = true then [v.amountMinor] else []

theorem flatMap_filter {α β : Type} (q : α → Bool) (g : α → List β) (l : List α) :
    (l.filter q).flatMap g = l.flatMap fun x => if q x then g x else [] := by
  induction l with
  | nil => rfl
  | cons x l ih =>
    by_cases hq : q x <;> simp [hq, ih]

theorem statement_amounts : (statement db project currency).map (·.version.amountMinor) =
    db.versions.flatMap fun v => db.proposals.flatMap (share project currency v) := by
  unfold statement joined
  rw [List.filter_flatMap, List.map_flatMap]
  refine List.flatMap_congr fun v _ => ?_
  rw [List.filter_flatMap, List.map_flatMap, flatMap_filter]
  refine List.flatMap_congr fun p hp => ?_
  obtain ⟨j, hj⟩ := filter_projects hp
  unfold share
  rw [hj]
  by_cases hpv : p.id = v.proposal
  · by_cases hw : whereClause project currency v p = true <;> simp [hpv, hw]
  · simp [hpv]

/-- The versions of a proposal give its current amount. -/
theorem flatMap_share : (db.versions.flatMap fun v => share project currency v p) =
    if candidate project p then (currentAmount db currency p).toList else [] := by
  have hshare : ∀ v, share project currency v p = if v.key = (p.id, p.currentVersion) then
      (if candidate project p = true ∧ v.currency = currency then [v.amountMinor] else [])
      else [] := by
    intro v
    unfold share
    simp only [whereClause_iff]
    by_cases hk : v.key = (p.id, p.currentVersion) <;> simp [hk]
  have hkey := Table.filter_key db.versionKeys (p.id, p.currentVersion)
  have hflat := flatMap_filter
      (fun v : ProposalVersion => decide (v.key = (p.id, p.currentVersion)))
    (fun v => if candidate project p = true ∧ v.currency = currency then [v.amountMinor] else [])
      db.versions
  rw [hkey] at hflat
  simp only [decide_eq_true_eq] at hflat
  simp only [hshare]
  rw [← hflat]
  unfold currentAmount
  cases Table.get ProposalVersion.key (p.id, p.currentVersion) db.versions with
  | none => simp
  | some v =>
    by_cases hc : candidate project p = true <;> by_cases hv : v.currency = currency <;>
      simp [hc, hv, Option.filter]

theorem statement_perm : ((statement db project currency).map (·.version.amountMinor)).Perm
    ((db.proposals.filter (candidate project)).filterMap (currentAmount db currency)) := by
  -- the join does not care which table it starts with
  have hswap : (db.versions.flatMap fun v => db.proposals.flatMap (share project currency v)).Perm
      (db.proposals.flatMap fun p => db.versions.flatMap fun v => share project currency v p) := by
    rw [← Multiset.coe_eq_coe, ← Multiset.coe_bind, ← Multiset.coe_bind]
    simp only [← Multiset.coe_bind]
    exact Multiset.bind_bind _ _
  rw [statement_amounts, List.filterMap_eq_flatMap_toList, flatMap_filter]
  refine hswap.trans (List.Perm.of_eq ?_)
  exact List.flatMap_congr fun p _ => flatMap_share

/-! ## With skills -/

theorem mem_skillIds {j : ProjectId} {s : SkillId} : s ∈ skillIds db j ↔ ⟨j, s⟩ ∈ db.skills := by
  simp only [skillIds, List.mem_map, List.mem_filter, decide_eq_true_eq]
  constructor
  · intro h
    obtain ⟨x, ⟨hx, rfl⟩, rfl⟩ := h
    exact hx
  · intro h
    exact ⟨_, ⟨h, rfl⟩, rfl⟩

/-- The join keeps the rows whose project has one of the skills. -/
theorem mem_joinSkills {ids : List SkillId} {rows : List Row} :
    r ∈ joinSkills db ids rows ↔ r ∈ rows ∧ ∃ s ∈ ids, s ∈ skillIds db r.project.id := by
  simp only [joinSkills, List.mem_flatMap, List.mem_map, List.mem_filter, Bool.and_eq_true,
    decide_eq_true_eq, List.contains_iff_mem, mem_skillIds]
  constructor
  · intro h
    obtain ⟨r', hr', s, ⟨hs, hp, hi⟩, rfl⟩ := h
    refine ⟨hr', s.skill, hi, ?_⟩
    rw [← hp]
    exact hs
  · intro h
    obtain ⟨hr, s, hi, hs⟩ := h
    exact ⟨r, hr, ⟨r.project.id, s⟩, ⟨hs, rfl, hi⟩, rfl⟩

theorem mem_comparableAmounts : a ∈ comparableAmounts db project currency ↔
    ∃ p ∈ db.proposals, Comparable db project p ∧ currentAmount db currency p = some a := by
  simp [comparableAmounts, List.mem_filterMap, and_assoc]

/-- The amounts behind the join are those of the comparable proposals, as a set. -/
theorem mem_joinSkills_amounts (hs : skillIds db project.id ≠ []) :
    a ∈ (joinSkills db (skillIds db project.id) (statement db project currency)).map
        (·.version.amountMinor) ↔ a ∈ comparableAmounts db project currency := by
  rw [mem_comparableAmounts, List.mem_map]
  constructor
  · intro h
    obtain ⟨r, hr, rfl⟩ := h
    obtain ⟨hr, hshares⟩ := mem_joinSkills.1 hr
    obtain ⟨hv, hp, -, hpv, hj, hw⟩ := mem_statement.1 hr
    obtain ⟨hc, hk, hcur⟩ := whereClause_iff.1 ⟨hpv, hw⟩
    rw [hj] at hshares
    simp only [candidate, Bool.and_eq_true, decide_eq_true_eq, List.contains_iff_mem] at hc
    exact ⟨r.proposal, hp, ⟨hc.1, hc.2, .inr hshares⟩,
      currentAmount_eq_some.2 ⟨_, hv, hk, hcur, rfl⟩⟩
  · intro h
    obtain ⟨p, hp, ⟨hne, hst, hshares⟩, ha⟩ := h
    obtain ⟨v, hv, hk, hcur, rfl⟩ := currentAmount_eq_some.1 ha
    have hc : candidate project p = true := by simp [candidate, hne, hst]
    obtain ⟨hpv, hw⟩ := whereClause_iff.2 ⟨hc, hk, hcur⟩
    obtain ⟨j, hj, hjp⟩ := db.proposalProject p hp
    refine ⟨⟨v, p, j⟩, mem_joinSkills.2 ⟨mem_statement.2 ⟨hv, hp, hj, hpv, hjp, hw⟩, ?_⟩, rfl⟩
    rw [hjp]
    exact hshares.resolve_left hs

/-- Without repetitions, a list is all of it iff it has none. -/
theorem dedup_perm_iff {α : Type} [DecidableEq α] {l l' : List α} (h : ∀ x, x ∈ l ↔ x ∈ l') :
    l.dedup.Perm l' ↔ l'.Nodup := by
  constructor
  · intro hp
    exact hp.nodup_iff.1 (List.nodup_dedup l)
  · intro hnd
    refine (List.perm_ext_iff_of_nodup (List.nodup_dedup l) hnd).2 fun x => ?_
    rw [List.mem_dedup, h x]

/-! ## The sample -/

theorem candidate_iff (hs : skillIds db project.id = []) :
    candidate project p = decide (Comparable db project p) := by
  rw [Bool.eq_iff_iff, decide_eq_true_eq]
  simp [candidate, Comparable, SharesSkill, hs]

/-- The samples are the amounts of the comparable proposals, one for each. -/
theorem samples_perm_iff :
    (samples db project currency).Perm (comparableAmounts db project currency) ↔
    skillIds db project.id = [] ∨ (comparableAmounts db project currency).Nodup := by
  unfold samples
  by_cases hs : skillIds db project.id = []
  · rw [if_pos hs]
    refine iff_of_true ?_ (.inl hs)
    unfold comparableAmounts
    rw [← List.filter_congr fun p _ => candidate_iff (p := p) hs]
    exact statement_perm
  · rw [if_neg hs, dedup_perm_iff fun a => mem_joinSkills_amounts hs]
    simp [hs]

/-- **When the sample has one entry for each comparable proposal**: if the project has no skills, or
no two comparable proposals have the same amount. The estimate is then made of those amounts
alone. -/
theorem price_sample (interpolate : Int → Int → Nat → Int) (db : Db) (user : UserId)
    (project : Project) (currency : Currency) (hp : project ∈ db.projects)
    (hu : project.employer = user) (hc : project.currency = some currency) :
    ((samples db project currency).Perm (comparableAmounts db project currency) ↔
      skillIds db project.id = [] ∨ (comparableAmounts db project currency).Nodup) ∧
    ((samples db project currency).Perm (comparableAmounts db project currency) →
      estimateProjectPrice interpolate db user project.id = .ok (estimate interpolate project
        ((comparableAmounts db project currency).insertionSort (· ≤ ·)))) := by
  refine ⟨samples_perm_iff, ?_⟩
  intro hperm
  have hget := Table.get_of_mem db.projectKeys hp
  unfold estimateProjectPrice
  rw [hget]
  have hsort : (samples db project currency).insertionSort (· ≤ ·) =
      (comparableAmounts db project currency).insertionSort (· ≤ ·) := by
    have hsorted := (List.perm_insertionSort (· ≤ ·) _).trans
      (hperm.trans (List.perm_insertionSort (· ≤ ·) _).symm)
    exact hsorted.eq_of_pairwise (fun _ _ _ _ => le_antisymm) (List.pairwise_insertionSort _ _)
      (List.pairwise_insertionSort _ _)
  simp [hu, hc, hsort]

/-! ## Two proposals of one amount -/

/-- A project of user 7, in USD. -/
def someProject (id : ProjectId) : Project :=
  ⟨⟨id, 7, "Shop", "", some "USD", .opened⟩, none, none⟩

/-- A submitted proposal for the project of the same number. -/
def someProposal (id : Nat) : Proposal := ⟨id, id, 8, .submitted, 1⟩

/-- Project 1, and proposals for the projects 2 and 3, with which it shares a skill. -/
def someDb (amount amount' : Int) : Db where
  projects := [someProject 1, someProject 2, someProject 3]
  skills := [⟨1, 5⟩, ⟨2, 5⟩, ⟨3, 5⟩]
  proposals := [someProposal 2, someProposal 3]
  versions := [⟨1, 2, 1, amount, "USD", 9, "", []⟩, ⟨2, 3, 1, amount', "USD", 9, "", []⟩]
  projectKeys := by decide
  skillKeys := by decide
  proposalKeys := by decide
  versionKeys := by simp
  proposalProject := by simp [someProposal, someProject]

/-- Two proposals of 100 are one sample. -/
theorem equal_amounts_lost : ¬ ∀ (db : Db) (project : Project) (currency : Currency),
    project ∈ db.projects → project.currency = some currency →
    (samples db project currency).Perm (comparableAmounts db project currency) := by
  intro h
  have hp := h (someDb 100 100) (someProject 1) "USD" (List.mem_cons_self) rfl
  exact absurd hp.length_eq (by decide)

theorem price_sample_two_amounts : (samples (someDb 100 200) (someProject 1) "USD").Perm
    (comparableAmounts (someDb 100 200) (someProject 1) "USD") :=
  (price_sample (fun a _ _ => a)
    (someDb 100 200) 7 (someProject 1) "USD" List.mem_cons_self rfl rfl).1.2
    (.inr (by decide))

end Recommendations
