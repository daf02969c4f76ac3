import Freelancing.Search.Drain

/-!
# The services that touch a profile

What a service writes before it touches a profile is within the sources of that profile's document
(`Within`), so that with the touch it is an effect of the design (`wp_touch`), provided that no
other transaction has touched the profile since it was loaded (`Current`).
-/

namespace Search

open Money (UserId User Err)
open Agreements (ProjectId)
open Txn (Point Mode Move Design View Law)

/-- No other transaction has changed the profile between the select of a session that touches it and
that session's commit. -/
def Current (mv : Move Db (Point CommitPoint) Request Answer Index) : Prop :=
  match mv with
  | .stmt _ (.commit (.touched user loaded)) d _ _ =>
    (d.profile? user).map (·.projectionVersion) = loaded
  | _ => True

/-! ## What a service writes -/

namespace Within

variable {cfg : Settings} {d d₁ : Db} {e : Index} {held held' : Set LockName} {u : UserId}

theorem refl (h : Inv cfg d e) : Within held u d d where
  others _ _ := rfl
  sources _ _ _ _ := rfl
  ids p hp := .inl ⟨p, hp, rfl, rfl⟩
  users := h.users
  static := ⟨rfl, rfl, rfl⟩

theorem mono (h : Within held u d d₁) (hs : held ⊆ held') : Within held' u d d₁ where
  others := h.others
  sources := h.sources
  ids p hp := (h.ids p hp).imp id fun hn => ⟨hn.1, hs hn.2.1, hn.2.2⟩
  users := h.users
  static := h.static

theorem modifyProfile (h : Within held u d d₁) {f : FreelancerProfile → FreelancerProfile}
    (hf : ∀ p, (f p).id = p.id ∧ (f p).user = p.user) : Within held u d (d₁.modifyProfile u f) where
  others v hv := by
    rw [Db.profile?_modifyProfile _ _ _ fun p => (hf p).2, h.others v hv]
    simp [hv]
  sources := h.sources
  ids p hp := by
    obtain ⟨q, hq, rfl⟩ := Table.mem_modify.1 hp
    have hsame : (if q.user = u then f q else q).id = q.id ∧
        (if q.user = u then f q else q).user = q.user := by
      split
      · exact hf q
      · exact ⟨rfl, rfl⟩
    rw [hsame.1, hsame.2]
    exact h.ids q hq
  users := by
    unfold Db.modifyProfile
    rw [Table.map_modify fun p => (hf p).2]
    exact h.users
  static := h.static

theorem addEvent (h : Within held u d d₁) (x : OutboxEvent) : Within held u d (d₁.addEvent x) where
  others := h.others
  sources := h.sources
  ids := h.ids
  users := h.users
  static := h.static

theorem addProfile (h : Within held u d d₁) {p : FreelancerProfile} (hu : p.user = u)
    (hnone : d₁.profile? p.user = none) (hres : .profileId p.id ∈ held)
    (hn : ∀ q ∈ d.profiles, q.id ≠ p.id) : Within held u d (d₁.addProfile p) where
  others v hv := by
    rw [Db.profile?_addProfile, if_neg (by rw [hu]; exact hv.symm)]
    exact h.others v hv
  sources := h.sources
  ids q hq := by
    rcases List.mem_cons.1 hq with rfl | hq
    · exact .inr ⟨hu, hres, hn⟩
    · exact h.ids q hq
  users := Table.nodup_map_cons h.users hnone
  static := h.static

theorem replaceSkills (h : Within held u d d₁) {profile : ProfileId}
    (hp : ∀ v q, v ≠ u → d.profile? v = some q → q.id ≠ profile) (loaded slugs : List CodePoints) :
    Within held u d (d₁.replaceSkills profile loaded slugs) where
  others := h.others
  sources v q hv hq := by
    have hne := hp v q hv hq
    have hskills : (d₁.replaceSkills profile loaded slugs).skillsOf q.id = d₁.skillsOf q.id := by
      unfold Db.skillsOf Db.replaceSkills
      congr 1
      rw [List.filter_append, List.filter_filter]
      have hnew : (slugs.map fun slug => (⟨profile, slug⟩ : FreelancerSkill)).filter
          (fun l => decide (l.profile = q.id)) = [] := by
        simp [List.filter_eq_nil_iff, hne.symm]
      rw [hnew, List.append_nil]
      refine List.filter_congr fun l _ => ?_
      by_cases hl : l.profile = q.id
      · have : l.profile ≠ profile := fun hlp => hne (hl.symm.trans hlp)
        simp [hl, hne]
      · simp [hl]
    rw [← h.sources v q hv hq]
    unfold Db.sources
    rw [hskills]
    rfl
  ids := h.ids
  users := h.users
  static := h.static

theorem replaceRules (h : Within held u d d₁) (loaded rules : List AvailabilityRule) :
    Within held u d (d₁.replaceRules loaded rules) :=
  ⟨h.others, h.sources, h.ids, h.users, h.static⟩

theorem addException (h : Within held u d d₁) (x : AvailabilityException) :
    Within held u d (d₁.addException x) :=
  ⟨h.others, h.sources, h.ids, h.users, h.static⟩

theorem setException (h : Within held u d d₁) (x : AvailabilityException) :
    Within held u d (d₁.setException x) :=
  ⟨h.others, h.sources, h.ids, h.users, h.static⟩

theorem addItem (h : Within held u d d₁) {x : PortfolioItem}
    (hp : ∀ v q, v ≠ u → d.profile? v = some q → q.id ≠ x.profile) :
    Within held u d (d₁.addItem x) where
  others := h.others
  sources v q hv hq := by
    have hitems : (d₁.addItem x).itemsOf q.id = d₁.itemsOf q.id := by
      simp [Db.itemsOf, Db.addItem, (hp v q hv hq).symm]
    rw [← h.sources v q hv hq]
    unfold Db.sources
    rw [hitems]
    rfl
  ids := h.ids
  users := h.users
  static := h.static

theorem deleteItem (h : Within held u d d₁) {x : PortfolioItem}
    (hp : ∀ v q, v ≠ u → d.profile? v = some q → q.id ≠ x.profile) :
    Within held u d (d₁.deleteItem x) where
  others := h.others
  sources v q hv hq := by
    have hitems : (d₁.deleteItem x).itemsOf q.id = d₁.itemsOf q.id := by
      unfold Db.itemsOf Db.deleteItem
      rw [List.filter_filter]
      refine List.filter_congr fun y _ => ?_
      by_cases hy : y = x
      · subst hy
        simp [(hp v q hv hq).symm]
      · simp [hy]
    rw [← h.sources v q hv hq]
    unfold Db.sources
    rw [hitems]
    rfl
  ids := h.ids
  users := h.users
  static := h.static

theorem addReview (h : Within held u d d₁) {r : Review} (hr : r.freelancer = u) :
    Within held u d (d₁.addReview r) where
  others := h.others
  sources v q hv hq := by
    have hqv : q.user = v := Table.get_key hq
    have hratings : (d₁.addReview r).ratingsOf q.user = d₁.ratingsOf q.user := by
      simp [Db.ratingsOf, Db.addReview, hr, hqv, hv.symm]
    rw [← h.sources v q hv hq]
    unfold Db.sources
    rw [hratings]
    rfl
  ids := h.ids
  users := h.users
  static := h.static

theorem closeProject (h : Within held u d d₁) {id : ProjectId}
    (hp : ∀ p ∈ d₁.agreements.proposals, p.status = .accepted → p.project = id → p.freelancer = u) :
    Within held u d (d₁.closeProject id) where
  others := h.others
  sources v q hv hq := by
    have hqv : q.user = v := Table.get_key hq
    have hjobs : (d₁.closeProject id).completedJobs q.user = d₁.completedJobs q.user := by
      refine List.countP_congr fun p hpm => ?_
      by_cases hid : p.project = id
      · have : p.freelancer = q.user → p.status = .accepted → False := by
          intro hf hs
          exact hv (hqv.symm.trans (hf.symm.trans (hp p hpm hs hid)))
        by_cases hf : p.freelancer = q.user <;> by_cases hs : p.status = .accepted <;> simp_all
      · have hclosed : (d₁.closeProject id).isClosed p.project = d₁.isClosed p.project := by
          have hget : (d₁.agreements.closeProject id).project? p.project =
              d₁.agreements.project? p.project := Table.get_modify_ne (fun _ => rfl) hid
          unfold Db.isClosed Db.closeProject
          rw [hget]
        rw [hclosed]
    rw [← h.sources v q hv hq]
    unfold Db.sources
    rw [hjobs]
    rfl
  ids := h.ids
  users := h.users
  static := ⟨h.static.proposals, h.static.contracts, h.static.money⟩

end Within

/-! ## The touch -/

section
variable {cfg : Settings} {d d' : Db} {e : Index} {held held' : Set LockName} {w w' : Db × Index}
  {mode : Mode} {ok : Move Db (Point CommitPoint) Request Answer Index → Prop}
  {i now : Nat} {b : Bool} {pend : Db → Db} {β : Type} {Q : View Db LockName Index → β → Prop}

/-- What a session that is about to touch `p` has written, in a state where it may commit. -/
structure Ready (held : Set LockName) (p : FreelancerProfile) (d d₁ : Db) : Prop where
  within : Within held p.user d d₁
  profile : ∃ q, d₁.profile? p.user = some q ∧ ∀ q', d.profile? p.user = some q' →
    q.id = q'.id ∧ q'.projectionVersion ≤ p.projectionVersion

theorem wp_touch (hok : ∀ mv, ok mv → Current mv) {p : FreelancerProfile} {loaded : Option Nat}
    {event : EventId} {k : Unit → Tx β} (hout : ∀ d, (pend d).outbox = d.outbox)
    (hpend : ∀ w', (projection cfg).Reaches Advance held w w' →
      (w'.1.profile? p.user).map (·.projectionVersion) = loaded → Ready held p w'.1 (pend w'.1))
    (hk : ∀ v, ((projection cfg).law mode ok).wp i (k ()) v Q) :
    ((projection cfg).law mode ok).wp i
      (touchSearchProjection p event now >>= fun _ =>
        Txn.Service.commit (.touched p.user loaded) >>= k) ⟨held, pend, b, w⟩ Q := by
  refine Law.wp_bind ?_
  refine Law.wp_bind ((advances cfg).wp_update fun w₁ h₁ => ?_)
  refine Law.wp_bind ((advances cfg).wp_reserve fun w₂ h₂ hfree => ?_)
  refine Design.wp_write
    (Law.wp_bind ((advances cfg).wp_commit fun w₃ h₃ hok₃ => ⟨?_, fun _ => hk _⟩))
  have hsub : held ⊆ insert (.profile p.user) held := Set.subset_insert ..
  have hsub' : insert (.profile p.user) held ⊆ insert (.event event)
      (insert (.profile p.user) held) :=
    Set.subset_insert ..
  have hreach : (projection cfg).Reaches Advance held w w₃ :=
    ⟨h₁.frame.trans ((h₂.frame.mono hsub).trans ((h₃.frame.mono hsub').mono hsub)), h₃.inv⟩
  have hready := hpend w₃ hreach (hok _ hok₃)
  obtain ⟨q, hq, hqid⟩ := hready.profile
  have hfree₂ : w₂.1.event? event = none := by
    have : (pend w₂.1).event? event = none :=
      Option.isSome_eq_false_iff.1 hfree |> Option.isNone_iff_eq_none.1
    rwa [Db.event?, hout] at this
  refine .touched ?_ (.inl ⟨⟨event, p.user, p.projectionVersion + 1, now, none⟩,
    q.touch (p.projectionVersion + 1) now, ?_⟩)
  · exact ((hready.within.mono (hsub.trans hsub')).modifyProfile
      (f := FreelancerProfile.touch (p.projectionVersion + 1) now) fun _ => ⟨rfl, rfl⟩).addEvent _
  · refine ⟨congrArg _ (hout w₃.1), Set.mem_insert .., ?_, ⟨rfl, rfl⟩, ?_, rfl, fun q' hq' => ?_⟩
    · exact h₃.frame.newEvent event (Set.mem_insert ..) hfree₂
    · have hmod := Db.profile?_modifyProfile (pend w₃.1) p.user p.user
        (f := FreelancerProfile.touch (p.projectionVersion + 1) now) fun _ => rfl
      rw [hq, Option.map_some, if_pos rfl] at hmod
      exact hmod
    · obtain ⟨hid, hle⟩ := hqid q' hq'
      exact ⟨hid, Nat.lt_succ_of_le hle⟩

/-- A profile that is loaded and still at its version. -/
theorem Advance.current {u : UserId} {p q : FreelancerProfile} (h : Advance held w w')
    (hp : w.1.profile? u = some p) (hq : w'.1.profile? u = some q)
    (hv : (w'.1.profile? u).map (·.projectionVersion) = some p.projectionVersion) :
    q = p ∧ w'.1.sources p = w.1.sources p := by
  obtain ⟨p', hp', hn⟩ := h.profiles u p hp
  rw [hq] at hp' hv
  cases hp'
  exact hn.same (by simpa using hv)

/-- A session that has loaded the profile is ready for the touch. -/
theorem ready_of_loaded {u : UserId} {p : FreelancerProfile} {d₁ : Db} (h : Advance held w w')
    (hi : Inv cfg w'.1 w'.2) (hp : w.1.profile? u = some p)
    (hv : (w'.1.profile? p.user).map (·.projectionVersion) = some p.projectionVersion)
    (hw : w'.1.profile? p.user = some p →
      (∀ v q, v ≠ p.user → w'.1.profile? v = some q → q.id ≠ p.id) →
      Within held' p.user w'.1 d₁ ∧ ∃ q, d₁.profile? p.user = some q ∧ q.id = p.id) :
    Ready held' p w'.1 d₁ := by
  obtain rfl : p.user = u := Table.get_key hp
  obtain ⟨q, hq, -⟩ := h.profiles _ p hp
  obtain ⟨rfl, -⟩ := h.current hp hq hv
  obtain ⟨hwithin, q₁, hq₁, hid⟩ := hw hq fun v q' hv hq' => hi.id_ne hq hq' hv
  refine ⟨hwithin, q₁, hq₁, fun q' hq' => ?_⟩
  rw [hq] at hq'
  cases hq'
  exact ⟨hid, Nat.le_refl _⟩

theorem wp_getProfileByUserId {u : UserId} {Q : View Db LockName Index → FreelancerProfile → Prop}
    (h : ∀ w' p, (projection cfg).Reaches Advance held w w' → (pend w'.1).profile? u = some p →
      Q ⟨held, pend, mode.inTxn, w'⟩ p) :
    ((projection cfg).law mode ok).wp i (getProfileByUserId u) ⟨held, pend, b, w⟩ Q := by
  refine Law.wp_bind ((advances cfg).wp_select fun w' hw => ?_)
  split
  · trivial
  · rename_i p hp
    exact Law.wp_pure (h w' p hw hp)

/-- The touch at the end of a request. -/
theorem wp_touch_last (hok : ∀ mv, ok mv → Current mv) {p : FreelancerProfile} {loaded : Option Nat}
    {event : EventId} {Q : View Db LockName Index → Unit → Prop}
    (hout : ∀ d, (pend d).outbox = d.outbox)
    (hpend : ∀ w', (projection cfg).Reaches Advance held w w' →
      (w'.1.profile? p.user).map (·.projectionVersion) = loaded → Ready held p w'.1 (pend w'.1))
    (hk : ∀ v, Q v ()) :
    ((projection cfg).law mode ok).wp i
      (touchSearchProjection p event now >>= fun _ => Txn.Service.commit (.touched p.user loaded))
      ⟨held, pend, b, w⟩ Q := by
  have hpure : Txn.Service.commit (.touched p.user loaded) =
      ((Txn.Service.commit (.touched p.user loaded) : Tx Unit) >>= pure) := (bind_pure _).symm
  rw [hpure]
  exact wp_touch hok hout hpend hk

/-! ## The services -/

theorem createPortfolioItem_keeps (hok : ∀ mv, ok mv → Current mv) {user : User}
    {title description : CodePoints} {externalUrl : Option String} {id' : ItemId}
    {event : EventId} : ((projection cfg).law mode ok).wp i
      (createPortfolioItem user title description externalUrl id' event now)
      ⟨held, id, b, w⟩ fun _ _ => True := by
  refine Law.wp_bind (wp_getProfileByUserId fun w₁ p h₁ hp => ?_)
  refine Law.wp_bind ((advances cfg).wp_reserve fun w₂ h₂ _ => ?_)
  refine Law.wp_bind
    (Design.wp_write (wp_touch hok (fun _ => rfl) (fun w' hw hv => ?_) fun _ => trivial))
  have hadv := h₂.frame.trans (hw.frame.mono (Set.subset_insert ..))
  refine ready_of_loaded hadv hw.inv hp hv fun hq hne => ⟨?_, p, hq, rfl⟩
  exact (Within.refl hw.inv).addItem hne

theorem deletePortfolioItem_keeps (hok : ∀ mv, ok mv → Current mv) {user : User} {id' : ItemId}
    {event : EventId} :
    ((projection cfg).law mode ok).wp i (deletePortfolioItem user id' event now)
      ⟨held, id, b, w⟩ fun _ _ => True := by
  refine Law.wp_bind ((advances cfg).wp_select fun w₁ h₁ => ?_)
  split
  · trivial
  · rename_i item hitem
    refine Law.wp_bind ((advances cfg).wp_select fun w₂ h₂ => ?_)
    split
    · trivial
    · rename_i p hp
      refine Law.wp_bind (Design.wp_require fun _ => ?_)
      refine Law.wp_bind ((advances cfg).wp_update fun w₃ h₃ => ?_)
      refine wp_touch_last hok (fun _ => rfl) (fun w' hw hv => ?_) fun _ => trivial
      have hadv := h₃.frame.trans (hw.frame.mono (Set.subset_insert ..))
      have hid : p.id = item.profile := Table.get_key hp
      have hp₂ : w₂.1.profile? p.user = some p :=
        Table.get_of_mem (Inv.users h₂.inv) (Table.get_mem hp)
      refine ready_of_loaded hadv hw.inv hp₂ hv fun hq hne => ⟨?_, p, hq, rfl⟩
      rw [hid] at hne
      exact (Within.refl hw.inv).deleteItem hne

theorem replaceAvailabilityRules_keeps (hok : ∀ mv, ok mv → Current mv) {user : User}
    {rules : List RuleInput} {event : EventId} :
    ((projection cfg).law mode ok).wp i (replaceAvailabilityRules user rules event now)
      ⟨held, id, b, w⟩ fun _ _ => True := by
  refine Law.wp_bind (wp_getProfileByUserId fun w₁ p h₁ hp => ?_)
  refine Law.wp_bind ((advances cfg).wp_select fun w₂ h₂ => ?_)
  refine Law.wp_bind (Design.wp_require fun _ => ?_)
  refine Law.wp_bind (Design.wp_require fun _ => ?_)
  refine Law.wp_bind (Design.wp_require fun _ => ?_)
  refine Law.wp_bind ((advances cfg).wp_reserve fun w₃ h₃ _ => ?_)
  refine Law.wp_bind
    (Design.wp_write (wp_touch hok (fun _ => rfl) (fun w' hw hv => ?_) fun _ => trivial))
  have hadv := h₂.frame.trans (h₃.frame.trans (hw.frame.mono (Set.subset_insert ..)))
  refine ready_of_loaded hadv hw.inv hp hv fun hq _ => ⟨?_, p, hq, rfl⟩
  exact (Within.refl hw.inv).replaceRules _ _

theorem upsertAvailabilityException_keeps (hok : ∀ mv, ok mv → Current mv) {user : User}
    {x : ExceptionInput} {event : EventId} :
    ((projection cfg).law mode ok).wp i (upsertAvailabilityException user x event now)
      ⟨held, id, b, w⟩ fun _ _ => True := by
  refine Law.wp_bind (wp_getProfileByUserId fun w₁ p h₁ hp => ?_)
  refine Law.wp_bind (Design.wp_require fun _ => ?_)
  refine Law.wp_bind (Design.wp_require fun _ => ?_)
  refine Law.wp_bind ((advances cfg).wp_select fun w₂ h₂ => ?_)
  split
  · refine Law.wp_bind ((advances cfg).wp_reserve fun w₃ h₃ _ => ?_)
    refine Law.wp_bind
      (Design.wp_write (wp_touch hok (fun _ => rfl) (fun w' hw hv => ?_) fun _ => trivial))
    have hadv := h₂.frame.trans (h₃.frame.trans (hw.frame.mono (Set.subset_insert ..)))
    refine ready_of_loaded hadv hw.inv hp hv fun hq _ => ⟨?_, p, hq, rfl⟩
    exact (Within.refl hw.inv).addException _
  · refine Law.wp_bind ((advances cfg).wp_update fun w₃ h₃ => ?_)
    refine wp_touch hok (fun _ => rfl) (fun w' hw hv => ?_) fun _ => trivial
    have hadv := h₂.frame.trans (h₃.frame.trans (hw.frame.mono (Set.subset_insert ..)))
    refine ready_of_loaded hadv hw.inv hp hv fun hq _ => ⟨?_, p, hq, rfl⟩
    exact (Within.refl hw.inv).setException _

/-! ### Projects and reviews -/

theorem wp_getProject {id' : ProjectId} {Q : View Db LockName Index → Agreements.Project → Prop}
    (h : ∀ w' x, (projection cfg).Reaches Advance held w w' → Q ⟨held, pend, mode.inTxn, w'⟩ x) :
    ((projection cfg).law mode ok).wp i (getProject id') ⟨held, pend, b, w⟩ Q := by
  refine Law.wp_bind ((advances cfg).wp_select fun w' hw => ?_)
  split
  · trivial
  · exact Law.wp_pure (h w' _ hw)

/-- The contract of a project is its freelancer's, and so is every accepted proposal for it. -/
theorem Matched.freelancer {d₂ : Db} (h : Matched d₂.agreements)
    (hs : Static d.agreements d₂.agreements) {id' : ProjectId} {c : Money.Contract}
    {x : Agreements.ContractDetails} (hc : contractOfProject d id' = some (c, x)) :
    ∀ p ∈ d₂.agreements.proposals, p.status = .accepted → p.project = id' →
      p.freelancer = c.freelancer := by
  intro p hp hst hpid
  obtain ⟨y, hy, hcy⟩ := Option.bind_eq_some_iff.1 hc
  have hyid : y.project = id' := Table.get_key hy
  refine h y ?_ c x ?_ p hp hst (hpid.trans hyid.symm)
  · rw [hs.contracts]
    exact Table.get_mem hy
  · rw [hs.contract?]
    exact hcy

theorem closeProject_keeps (hok : ∀ mv, ok mv → Current mv) {user : User} {id' : ProjectId}
    {event : EventId} :
    ((projection cfg).law mode ok).wp i (closeProject user id' event now)
      ⟨held, id, b, w⟩ fun _ _ => True := by
  refine Law.wp_bind (wp_getProject fun w₁ project h₁ => ?_)
  refine Law.wp_bind (Design.wp_require fun _ => ?_)
  refine Law.wp_bind (Design.wp_require fun _ => ?_)
  refine Law.wp_bind ((advances cfg).wp_select fun w₂ h₂ => ?_)
  split
  · trivial
  · rename_i c details hc
    refine Law.wp_bind (Design.wp_require fun _ => ?_)
    refine Law.wp_bind ((advances cfg).wp_select fun w₃ h₃ => ?_)
    split
    · trivial
    · refine Law.wp_bind ((advances cfg).wp_select fun w₄ h₄ => ?_)
      refine Law.wp_bind (Design.wp_require fun _ => ?_)
      refine Law.wp_bind ((advances cfg).wp_update fun w₅ h₅ => ?_)
      refine Law.wp_bind ((advances cfg).wp_select fun w₆ h₆ => ?_)
      have hsub : held ⊆ insert (.project project.id) held := Set.subset_insert ..
      have k₆ := h₃.frame.trans (h₄.frame.trans (h₅.frame.trans (h₆.frame.mono hsub)))
      split
      · refine (advances cfg).wp_commit fun w' hw hok' => ⟨?_, fun _ => trivial⟩
        have hnone : w'.1.profile? c.freelancer = none := Option.map_eq_none_iff.1 (hok _ hok')
        have hmatched := (Inv.matched hw.inv).freelancer (k₆.trans (hw.frame.mono hsub)).static hc
        exact .touched ((Within.refl hw.inv).closeProject hmatched) (.inr ⟨rfl, hnone, hnone⟩)
      · rename_i p hp
        have hpu : p.user = c.freelancer := Table.get_key hp
        refine wp_touch_last hok (fun _ => rfl) (fun w' hw hv => ?_) fun _ => trivial
        have hp₆ : w₆.1.profile? c.freelancer = some p := hp
        refine ready_of_loaded hw.frame hw.inv hp₆ hv fun hq _ => ⟨?_, p, hq, rfl⟩
        have hmatched := (Inv.matched hw.inv).freelancer (k₆.trans (hw.frame.mono hsub)).static hc
        rw [← hpu] at hmatched
        exact (Within.refl hw.inv).closeProject hmatched

theorem createReview_keeps (hok : ∀ mv, ok mv → Current mv) {user : User} {project : ProjectId}
    {rating : Int} {comment : String} {id' : ReviewId} {event : EventId} :
    ((projection cfg).law mode ok).wp i (createReview user project rating comment id' event now)
      ⟨held, id, b, w⟩ fun _ _ => True := by
  refine Law.wp_bind (wp_getProject fun w₁ _ h₁ => ?_)
  refine Law.wp_bind (Design.wp_require fun _ => ?_)
  refine Law.wp_bind (Design.wp_require fun _ => ?_)
  refine Law.wp_bind ((advances cfg).wp_select fun w₂ h₂ => ?_)
  split
  · trivial
  · rename_i c details hc
    refine Law.wp_bind (Design.wp_require fun _ => ?_)
    refine Law.wp_bind (Design.wp_require fun _ => ?_)
    refine Law.wp_bind ((advances cfg).wp_reserve fun w₃ h₃ _ => ?_)
    refine Law.wp_bind ((advances cfg).wp_reserve fun w₄ h₄ _ => ?_)
    refine Law.wp_bind (Design.wp_write (Law.wp_bind (wp_getProfileByUserId fun w₅ p h₅ hp => ?_)))
    have hpu : p.user = c.freelancer := Table.get_key hp
    refine wp_touch hok (fun _ => rfl) (fun w' hw hv => ?_) fun _ => trivial
    have hp₅ : w₅.1.profile? c.freelancer = some p := hp
    refine ready_of_loaded hw.frame hw.inv hp₅ hv fun hq _ => ⟨?_, p, hq, rfl⟩
    exact (Within.refl hw.inv).addReview hpu.symm

/-! ### Profiles -/

theorem wp_skillSlugs {U : Freelancers.Unicode} {values : List CodePoints}
    {v : View Db LockName Index} {Q : View Db LockName Index → List CodePoints → Prop}
    (h : ∀ slugs, Q v slugs) : ((projection cfg).law mode ok).wp i (skillSlugs U values) v Q := by
  unfold skillSlugs
  split
  · trivial
  · exact Law.wp_pure (h _)

theorem wp_reserveSkillLinks {profile : ProfileId} {loaded slugs : List CodePoints}
    {Q : View Db LockName Index → Unit → Prop}
    (h : ∀ held' b w', held ⊆ held' → Advance held w w' → Q ⟨held', pend, b, w'⟩ ()) :
    ((projection cfg).law mode ok).wp i (reserveSkillLinks profile loaded slugs)
      ⟨held, pend, b, w⟩ Q := by
  induction slugs generalizing held b w with
  | nil => exact h held b w subset_rfl (.refl _ _)
  | cons slug rest ih =>
    refine Law.wp_bind ((advances cfg).wp_reserve fun w₁ h₁ _ => ih fun held' b w' hs hw => ?_)
    have hsub : held ⊆ insert (.skillLink profile slug) held := Set.subset_insert ..
    exact h held' b w' (hsub.trans hs) (h₁.frame.trans (hw.mono hsub))

theorem wp_saveProfile (hok : ∀ mv, ok mv → Current mv) {U : Freelancers.Unicode} {x : ProfileInput}
    {p : FreelancerProfile} {created : Bool} {event : EventId}
    {Q : View Db LockName Index → Unit → Prop} (hout : ∀ d, (pend d).outbox = d.outbox)
    (hpend : ∀ held' w' loaded slugs, held ⊆ held' → (projection cfg).Reaches Advance held w w' →
      (w'.1.profile? p.user).map (·.projectionVersion) =
        (if created then none else some p.projectionVersion) →
      Ready held' p w'.1
        (((pend w'.1).modifyProfile p.user (x.assign U p)).replaceSkills p.id loaded slugs))
    (hk : ∀ v, Q v ()) :
    ((projection cfg).law mode ok).wp i (saveProfile U x p created event now)
      ⟨held, pend, b, w⟩ Q := by
  refine Law.wp_bind ((advances cfg).wp_select fun w₁ h₁ => ?_)
  refine Law.wp_bind (Design.wp_require fun _ => ?_)
  refine Law.wp_bind ((advances cfg).wp_update fun w₂ h₂ => ?_)
  refine Law.wp_bind (wp_skillSlugs fun slugs => ?_)
  refine Law.wp_bind (Design.wp_require fun _ => ?_)
  refine Law.wp_bind (wp_reserveSkillLinks fun held' b w₃ hs h₃ => ?_)
  refine Law.wp_bind (Design.wp_write (wp_touch_last hok (fun d => hout d) (fun w' hw hv => ?_) hk))
  have hsub : held ⊆ insert (.profile p.user) held := Set.subset_insert ..
  refine hpend held' w' _ _ (hsub.trans hs) ⟨?_, hw.inv⟩ hv
  exact h₁.frame.trans (h₂.frame.trans ((h₃.mono hsub).trans (hw.frame.mono (hsub.trans hs))))

theorem upsertProfile_keeps (hok : ∀ mv, ok mv → Current mv) {U : Freelancers.Unicode} {user : User}
    {x : ProfileInput} {id' : ProfileId} {event : EventId} :
    ((projection cfg).law mode ok).wp i (upsertProfile U user x id' event now)
      ⟨held, id, b, w⟩ fun _ _ => True := by
  have hlast : ∀ v, ((projection cfg).law mode ok).wp i (getProfileByUserId user.id) v
      fun _ _ => True :=
    fun _ => wp_getProfileByUserId fun _ _ _ _ => trivial
  have hassign : ∀ p q : FreelancerProfile, (x.assign U p q).id = q.id ∧
      (x.assign U p q).user = q.user :=
    fun _ _ => ⟨rfl, rfl⟩
  refine Law.wp_bind (Design.wp_require fun _ => ?_)
  refine Law.wp_bind (Design.wp_require fun _ => ?_)
  refine Law.wp_bind (Design.wp_require fun _ => ?_)
  refine Law.wp_bind (Law.wp_bind ((advances cfg).wp_select fun w₁ h₁ => ?_))
  split
  · -- the profile is new
    refine Law.wp_bind ((advances cfg).wp_reserve fun w₂ h₂ hfree => ?_)
    refine Law.wp_bind ((advances cfg).wp_reserve fun w₃ h₃ _ => ?_)
    refine Law.wp_bind (Design.wp_write (Law.wp_pure ?_))
    refine Law.wp_bind
      (wp_saveProfile hok (fun _ => rfl) (fun held' w' loaded slugs hs hw hv => ?_) hlast)
    have hnone : w'.1.profile? user.id = none := Option.map_eq_none_iff.1 hv
    have hsub : insert (.profileId id') held ⊆ insert (.profileOf user.id)
        (insert (.profileId id') held) :=
      Set.subset_insert ..
    have hids : ∀ q ∈ w'.1.profiles, q.id ≠ id' := by
      refine (h₃.frame.trans (hw.frame.mono hsub)).newProfile id' (Set.mem_insert ..) ?_
      exact Table.get_eq_none.1 (Option.isSome_eq_false_iff.1 hfree |> Option.isNone_iff_eq_none.1)
    let p := newProfile user.id x id' now
    refine ⟨?_, x.assign U p p, ?_, fun q' hq' => ?_⟩
    · exact (((Within.refl hw.inv).addProfile rfl hnone (hs (hsub (Set.mem_insert ..)))
        hids).modifyProfile (hassign _)).replaceSkills (fun v q _ hq => hids q (Table.get_mem hq))
        loaded slugs
    · exact (Db.profile?_modifyProfile _ _ _ fun q => (hassign p q).2).trans
        (by simp [p, newProfile])
    · have hq' : w'.1.profile? user.id = some q' := hq'
      rw [hnone] at hq'
      cases hq'
  · rename_i p hp
    refine Law.wp_bind (Design.wp_require fun _ => Law.wp_pure ?_)
    refine Law.wp_bind
      (wp_saveProfile hok (fun _ => rfl) (fun held' w' loaded slugs hs hw hv => ?_) hlast)
    refine ready_of_loaded hw.frame hw.inv hp hv fun hq hne => ⟨?_, x.assign U p p, ?_, rfl⟩
    · exact ((Within.refl hw.inv).modifyProfile (hassign p)).replaceSkills hne loaded slugs
    · refine (Db.profile?_modifyProfile _ _ _ fun q => (hassign p q).2).trans ?_
      rw [show (id w'.1 : Db).profile? p.user = some p from hq, Option.map_some, if_pos rfl]

end

end Search
