import Freelancing.Search.Writers
import Freelancing.Txn.Drive

/-!
# The index catches up

`index_catches_up`: however the drains of the outbox and the services that touch profiles
interleave, the index never has a version that its profile has not reached and never goes back, and
a freelancer all of whose events are published is in the index with the document of the current
profile. Two transactions that change one profile must not overlap: both would give it the same
version, and the index may be left with what only one of them has seen (`overlapping_updates`).
-/

namespace Search

open Money (UserId User Err)
open Txn (Point Mode Move Sys)

abbrev Platform := Sys Db LockName (Point CommitPoint) Request Answer Err Unit Index

def platform (cfg : Settings) (d : Db) (services : Nat → Service) : Platform :=
  Sys.init d (fun _ => none) fun i => (services i).prog cfg

/-- No freelancer has a profile yet. -/
structure Blank (d : Db) : Prop where
  profiles : d.profiles = []
  outbox : d.outbox = []
  matched : Matched d.agreements

/-- The index answers as Elasticsearch does, and no two transactions change one profile at once. -/
def Apart (mv : Move Db (Point CommitPoint) Request Answer Index) : Prop := Serves mv ∧ Current mv

section
variable {cfg : Settings} {d : Db} {services : Nat → Service} {mode : Mode} {s s' : Platform}
  {ok : Move Db (Point CommitPoint) Request Answer Index → Prop}

theorem Blank.inv (h : Blank d) : Inv cfg d fun _ => none where
  ids p hp := by
    rw [h.profiles] at hp
    cases hp
  users := by
    rw [h.profiles]
    exact List.nodup_nil
  matched := h.matched
  announced u p hp := by
    rw [Db.profile?, h.profiles] at hp
    cases hp
  behind k x hx := by
    rw [Db.event?, h.outbox] at hx
    cases hx
  indexed u x hx := by cases hx
  published k x hx := by
    rw [Db.event?, h.outbox] at hx
    cases hx

/-- Every service keeps the invariant. -/
theorem Service.keeps (x : Service) (hserves : ∀ mv, ok mv → Serves mv)
    (hcurrent : ∀ mv, ok mv → Current mv) (i : Nat) (w : Db × Index) :
    ((projection cfg).law mode ok).wp i (x.prog cfg) ⟨∅, id, false, w⟩ fun _ _ => True := by
  cases x with
  | upsertProfile =>
    exact Txn.Law.wp_bind (Txn.Law.wp_mono (upsertProfile_keeps hcurrent) fun _ _ _ => trivial)
  | replaceAvailabilityRules =>
    exact Txn.Law.wp_bind
      (Txn.Law.wp_mono (replaceAvailabilityRules_keeps hcurrent) fun _ _ _ => trivial)
  | upsertAvailabilityException =>
    exact Txn.Law.wp_bind
      (Txn.Law.wp_mono (upsertAvailabilityException_keeps hcurrent) fun _ _ _ => trivial)
  | createPortfolioItem =>
    exact Txn.Law.wp_bind
      (Txn.Law.wp_mono (createPortfolioItem_keeps hcurrent) fun _ _ _ => trivial)
  | deletePortfolioItem => exact deletePortfolioItem_keeps hcurrent
  | closeProject => exact closeProject_keeps hcurrent
  | createReview =>
    exact Txn.Law.wp_bind (Txn.Law.wp_mono (createReview_keeps hcurrent) fun _ _ _ => trivial)
  | drainSearchOutbox =>
    exact Txn.Law.wp_bind (Txn.Law.wp_mono (drain_keeps hserves) fun _ _ _ => trivial)

theorem holds_of_run (hd : Blank d) (hr : Sys.Run mode Apart (platform cfg d services) s) :
    ((projection cfg).law mode Apart).Holds s :=
  Txn.Design.holds_of_run hd.inv
    (fun i => (services i).keeps (fun _ h => h.1) (fun _ h => h.2) i (d, fun _ => none)) hr

theorem Inv.current {e : Index} (h : Inv cfg d e) {u : UserId} {p : FreelancerProfile}
    (hp : d.profile? u = some p) (hall : ∀ x ∈ d.outbox, x.user = u → x.publishedAt.isSome) :
    e u = some ⟨p.projectionVersion, d.document cfg p⟩ := by
  obtain ⟨k, x, hx, hxu, hxv⟩ := h.announced u p hp
  obtain ⟨y, hy, hle⟩ := h.published k x hx (hall x (Table.get_mem hx) hxu)
  rw [hxu] at hy
  obtain ⟨p', hp', hle', hdoc⟩ := h.indexed u y hy
  rw [hp] at hp'
  cases hp'
  have hv : y.version = p.projectionVersion := by omega
  rw [hy, ← hdoc hv, ← hv]

/-- **The index catches up** with the profiles, and is never ahead of them nor goes back. -/
theorem index_catches_up (hd : Blank d) (hr : Sys.Run mode Apart (platform cfg d services) s) :
    (∀ u x, s.env u = some x → ∃ p, s.db.profile? u = some p ∧ x.version ≤ p.projectionVersion) ∧
    (∀ u p, s.db.profile? u = some p → (∀ x ∈ s.db.outbox, x.user = u → x.publishedAt.isSome) →
      s.env u = some ⟨p.projectionVersion, s.db.document cfg p⟩) ∧
    ∀ s', Sys.Run mode Apart s s' → ∀ u x, s.env u = some x →
      ∃ x', s'.env u = some x' ∧ x.version ≤ x'.version := by
  have hs := holds_of_run hd hr
  have hi : Inv cfg s.db s.env := hs.inv
  refine ⟨fun u x hx => ?_, fun u p hp hall => hi.current hp hall, fun s' hr' => ?_⟩
  · obtain ⟨p, hp, hle, -⟩ := hi.indexed u x hx
    exact ⟨p, hp, hle⟩
  · refine Txn.Design.keeps_of_run (P := fun _ e => ∀ u x, s.env u = some x →
      ∃ x', e u = some x' ∧ x.version ≤ x'.version) hs hr' ?_ ?_ fun u x hx =>
      ⟨x, hx, Nat.le_refl _⟩
    · intro i c d d' e _ _ h
      exact h
    · intro i q a d e e' _ _ hq h u x hx
      obtain ⟨x', hx', hle⟩ := h u x hx
      have hadv : Advance ∅ (d, e) (d, e') := Asks.advance hq
      obtain ⟨x'', hx'', hle'⟩ := hadv.index u x' hx'
      exact ⟨x'', hx'', hle.trans hle'⟩

end

/-! ## A profile that changes while it is indexed -/

/-- The index at hand: it takes what it accepts. -/
def serve (q : Request) (e : Index) : Answer × Index :=
  match q with
  | .ensureFreelancerIndex => (.done, e)
  | .index user version document =>
    if e.accepts user version then (.done, e.put user ⟨version, document⟩)
      else (.versionConflict, e)

theorem serves_of_served {mv : Move Db (Point CommitPoint) Request Answer Index}
    (h : Sys.Move.Served serve mv) : Serves mv := by
  cases mv with
  | call i q a e e' =>
    have hq := h i q a e e' rfl
    cases q with
    | ensureFreelancerIndex => exact (Prod.mk.inj hq).2
    | index user version document =>
      simp only [serve] at hq
      split at hq
      · rename_i hacc
        obtain ⟨rfl, rfl⟩ := Prod.mk.inj hq
        exact ⟨hacc, rfl⟩
      · rename_i hacc
        obtain ⟨rfl, rfl⟩ := Prod.mk.inj hq
        exact ⟨by simpa using hacc, rfl⟩
  | stmt => trivial
  | silent => trivial

instance (mv : Move Db (Point CommitPoint) Request Answer Index) : Decidable (Current mv) := by
  unfold Current
  split <;> infer_instance

def someSettings : Settings := ⟨Freelancers.ascii, fun total count => total / count⟩

def noProfiles : Db where
  agreements :=
    { money := ⟨[], [], [], [], [], [], [], [], [], [], [], [], [], [], [], 0⟩
      projects := []
      attachments := []
      proposals := []
      proposalVersions := []
      contracts := []
      versions := []
      milestones := []
      signatures := [] }
  profiles := []
  skillLinks := []
  rules := []
  exceptions := []
  items := []
  reviews := []
  outbox := []

theorem noProfiles_blank : Blank noProfiles where
  profiles := rfl
  outbox := rfl
  matched := by
    intro x hx
    cases hx

def aFreelancer : User := ⟨1, ["freelancer"]⟩

def aProfile : ProfileInput := ⟨"Dev", "", none, none, "UTC", true, [], []⟩

/-- A profile is made, and gets a portfolio item while the first of two drains indexes it. -/
def someServices : Nat → Service
  | 0 => .upsertProfile aFreelancer aProfile 1 1 10
  | 1 => .createPortfolioItem aFreelancer [65] [66] none 1 2 20
  | 2 => .drainSearchOutbox 10 [] [] 30
  | _ => .drainSearchOutbox 10 [] [] 40

/-- Each session takes its number of statements in turn. -/
def turns (l : List (Nat × Nat)) : List Nat := l.flatMap fun x => List.replicate x.2 x.1

theorem exists_run (services : Nat → Service) (l : List (Nat × Nat)) (ok : Bool)
    (p : Platform → Bool)
    (h : (Sys.drive .readCommitted serve (fun mv => !ok || decide (Current mv))
      (platform someSettings noProfiles services) (turns l)).any p = true) :
    ∃ s, Sys.Run .readCommitted (fun mv => Serves mv ∧ (ok = true → Current mv))
      (platform someSettings noProfiles services) s ∧ p s = true := by
  refine Sys.exists_run_of_drive (fun mv hmv hserved => ⟨serves_of_served hserved, fun hok => ?_⟩) h
  subst hok
  simpa using hmv

theorem index_catches_up_twice :
    ∃ s : Platform, (s.db.profile? 1).map (·.projectionVersion) = some 3 ∧
    (∀ u x, s.env u = some x → ∃ p, s.db.profile? u = some p ∧ x.version ≤ p.projectionVersion) ∧
    (∀ u p, s.db.profile? u = some p → (∀ x ∈ s.db.outbox, x.user = u → x.publishedAt.isSome) →
      s.env u = some ⟨p.projectionVersion, s.db.document someSettings p⟩) ∧
    ∀ s', Sys.Run .readCommitted Apart s s' → ∀ u x, s.env u = some x →
      ∃ x', s'.env u = some x' ∧ x.version ≤ x'.version := by
  obtain ⟨s, hr, hs⟩ := exists_run someServices
    [(0, 20), (2, 6), (1, 10), (2, 20), (3, 20)] true
    (fun s => (s.db.profile? 1).map (·.projectionVersion) = some 3 ∧
      s.db.outbox.all (·.publishedAt.isSome)) (by decide +kernel)
  have hr := hr.mono fun mv h => (⟨h.1, h.2 rfl⟩ : Apart mv)
  exact ⟨s, (of_decide_eq_true hs).1, index_catches_up noProfiles_blank hr⟩

/-- Two portfolio items are added at once. A drain reads the profile and its items between their
commits, and another one is done before the first has indexed. -/
def overlappingServices : Nat → Service
  | 0 => .upsertProfile aFreelancer aProfile 1 1 10
  | 1 => .createPortfolioItem aFreelancer [65] [66] none 1 2 20
  | 2 => .createPortfolioItem aFreelancer [67] [68] none 2 3 20
  | 3 => .drainSearchOutbox 10 [] [] 30
  | 4 => .drainSearchOutbox 10 [2] [] 40
  | _ => .drainSearchOutbox 10 [] [] 15

/-- Without it, both items have been announced and published, and the index has one of them. -/
theorem overlapping_updates : ¬ ∀ (services : Nat → Service) (s : Platform),
    Sys.Run .readCommitted Serves (platform someSettings noProfiles services) s →
    ∀ u p, s.db.profile? u = some p → (∀ x ∈ s.db.outbox, x.user = u → x.publishedAt.isSome) →
      s.env u = some ⟨p.projectionVersion, s.db.document someSettings p⟩ := by
  intro h
  obtain ⟨s, hr, hs⟩ := exists_run overlappingServices
    [(0, 20), (5, 20), (1, 1), (2, 1), (1, 10), (3, 8), (2, 10), (4, 20), (3, 20)] false
    (fun s => s.db.outbox.all (·.publishedAt.isSome) ∧ (s.db.profile? 1).isSome ∧
      (s.env 1).map (·.document.portfolioText) ≠
        (s.db.profile? 1).map fun p => (s.db.document someSettings p).portfolioText)
        (by decide +kernel)
  obtain ⟨hall, hsome, hne⟩ := of_decide_eq_true hs
  obtain ⟨p, hp⟩ := Option.isSome_iff_exists.1 hsome
  refine hne ?_
  rw [h overlappingServices s (hr.mono fun mv h => h.1) 1 p hp fun x hx _ => List.all_eq_true.1
    hall x hx, hp]
  rfl

end Search
